import Vela.Core.Send

/-!
# Connections

Probes, the Noise handshake, `establish`, `connect` and the reconnect loop of `vela-core`.  Loops of
the source are followed for `fuel` iterations.
-/

namespace Vela.Core

open Vela.Proto Vela.Crypto Vela.Ip

variable (suite : Suite) (node : Node) (fuel : ℕ)

def peerFor (nodeId : NodeId) : NodeM CoreError PeerRef := do
  let found ← lift (call (.peerFor nodeId))
  okOr found (.unknownPeer nodeId)

def sendPacket (target : SocketAddr) (packetType : PacketType) (sessionId sequence : UInt64)
    (payload : List UInt8) : NodeM CoreError Unit := do
  match ← lift (call (.sendPacket target packetType sessionId sequence payload)) with
  | some error => throw error.toCore
  | none => pure ()

def emitPeerConnecting (p : PeerRef) : Task PUnit := do
  let active ← peerCall p .active
  when active.isNone do
    let connecting ← peerCall p .swapConnecting
    when (!connecting) do
      let info ← peerCall p .info
      emit (.peerConnecting info.nodeId)

/-! ### Sessions begin -/

def establish (p : PeerRef) (sessionId : UInt64) (path : SocketAddr) (cipher : SessionCipher)
    (expected : PeerInfo) (handshake : NoiseHandshake) : Task PUnit := do
  let established ← call (.establish p sessionId path cipher expected handshake)
  when established do
    call (.insertSession sessionId p)
    peerCall p (.recordPath path expected.candidates)
    peerCall p .clearFailure
    peerCall p (.setConnecting false)
    peerCall p .clearAttempt
    peerCall p .finishReconnect
    let info ← peerCall p .info
    emit (.peerConnected info.nodeId)
    flushQueue suite node fuel p

/-- The end of a handshake in both roles: an old session makes way for the new one. -/
def replaceSession (p : PeerRef) (sessionId : UInt64) (path : SocketAddr) (cipher : SessionCipher)
    (expected : PeerInfo) (handshake : NoiseHandshake) : Task PUnit := do
  let active ← peerCall p .active
  when active.isSome (invalidateSession p false)
  establish suite node fuel p sessionId path cipher expected handshake

/-- `handshake_context` -/
def handshakeContext : Task (List UInt8) := do
  let networkId ← call .networkId
  let virtualIpv4 ← call .localIpv4
  let virtualIpv6 ← call .localIpv6
  let generation ← call .snapshotGeneration
  return encodeHandshakeContext
    { networkId, generation, nodeId := node.nodeId suite, incarnation := node.incarnation
      virtualIpv4, virtualIpv6 }

/-- The message of a handshake after its role byte and the sender. -/
def handshakePayload (role : UInt8) (message : List UInt8) : List UInt8 :=
  role :: (node.nodeId suite).bytes.toList ++ message

/-- `handle_handshake` as the responder. -/
def respondHandshake (p : PeerRef) (info : PeerInfo) (sender : NodeId) (sessionId : UInt64)
    (message : List UInt8) (source : SocketAddr) : NodeM CoreError Unit := do
  let (context, handshake) ← ofExcept
    (((NoiseHandshake.responder node.identity).readMessage suite message).mapError CoreError.crypto)
  let networkId ← lift (call .networkId)
  ofExcept (validateHandshakeContext networkId context sender info)
  let ownContext ← lift (handshakeContext suite node)
  let entropy ← lift (call .randomBytes)
  let (response, handshake) ← ofExcept
    ((handshake.writeMessage suite entropy ownContext).mapError CoreError.crypto)
  let keys ← ofExcept ((handshake.intoSession suite).mapError CoreError.crypto)
  sendPacket source .handshake sessionId 0 (handshakePayload suite node 2 response)
  lift (replaceSession suite node fuel p sessionId source (keys.cipher false) info handshake)

/-- `handle_handshake` as the initiator. -/
def completeHandshake (p : PeerRef) (info : PeerInfo) (sender : NodeId) (sessionId : UInt64)
    (message : List UInt8) (source : SocketAddr) : NodeM CoreError Unit := do
  let result ← lift (call (.finishHandshake p sessionId message sender info))
  match ← ofExcept result with
  | none => pure ()
  | some finished =>
    lift (replaceSession suite node fuel p sessionId source (finished.keys.cipher true) info
      finished.handshake)

def handleHandshake (packet : WirePacket) (source : SocketAddr) : NodeM CoreError Unit := do
  if packet.payload.length < 34 then throw .invalidHandshake
  else do
    let role := packet.payload.getD 0 0
    let sender : NodeId := ⟨arrayAt 32 packet.payload 1⟩
    let sessionId := packet.header.sessionId
    let message := packet.payload.drop 33
    let p ← peerFor sender
    let info ← lift (peerCall p .info)
    validatePeerMembership suite node info
    let active ← lift (peerCall p .active)
    if active.map Prod.fst = some sessionId then pure ()
    else if role = 1 then
      if nodeIdLt (node.nodeId suite) sender then pure ()
      else respondHandshake suite node fuel p info sender sessionId message source
    else if role = 2 then
      if nodeIdLt sender (node.nodeId suite) then pure ()
      else completeHandshake suite node fuel p info sender sessionId message source
    else pure ()

/-! ### Probes -/

def startInitiator (p : PeerRef) (path : SocketAddr) (sessionId : UInt64) : NodeM CoreError Unit := do
  let active ← lift (peerCall p .active)
  if active.isSome then pure ()
  else do
    let result ← lift (call (.initiate p path sessionId))
    let sent ← ofExcept result
    lift (when sent (emitPeerConnecting p))

/-- The sender of a probe that passes all checks. -/
def verifiedSender (probe : Probe) : NodeM CoreError (PeerRef × PeerInfo) := do
  if probe.receiver ≠ node.nodeId suite then throw .invalidProbe
  else do
    let p ← peerFor probe.sender
    let info ← lift (peerCall p .info)
    validatePeerMembership suite node info
    let now ← lift (call .unixTime)
    ofExcept (verifyProbe suite probe info now)
    return (p, info)

def handleProbe (packet : WirePacket) (source : SocketAddr) : NodeM CoreError Unit := do
  let probe ← ofExcept (decodeProbe packet.payload)
  let (p, info) ← verifiedSender suite node probe
  let payload := encodeProbe suite (node.nodeId suite) probe.sender probe.sessionId probe.timestamp
    probe.nonce node.identity
  sendPacket source .probeResponse probe.sessionId 0 payload
  lift (emitPeerConnecting p)
  if nodeIdLt (node.nodeId suite) probe.sender then do
    lift (peerCall p (.attemptFromProbe probe.sessionId info.candidates))
    startInitiator p source probe.sessionId
  else pure ()

def handleProbeResponse (packet : WirePacket) (source : SocketAddr) : NodeM CoreError Unit := do
  let probe ← ofExcept (decodeProbe packet.payload)
  let (p, _) ← verifiedSender suite node probe
  let attempt ← lift (peerCall p .attempt)
  if attempt ≠ some probe.sessionId then pure ()
  else do
    lift (peerCall p (.candidateResponse probe.sessionId source))
    if nodeIdLt (node.nodeId suite) probe.sender then startInitiator p source probe.sessionId
    else pure ()

/-! ### `connect` -/

def probeRetryInterval : Duration := secs 1

/-- What `connect` has fixed before it waits. -/
structure Connecting where
  peer : PeerRef
  nodeId : NodeId
  sessionId : UInt64
  /-- the encoded probe -/
  payload : List UInt8
  candidates : List Candidate
  fallback : List Candidate
  deadline : Instant
  nextFallback : Instant

def sendProbes (c : Connecting) : List Candidate → Task PUnit
  | [] => pure ()
  | candidate :: rest => do
    let error ← call (.sendPacket candidate.address .probe c.sessionId 0 c.payload)
    peerCall c.peer (.candidateProbe c.sessionId candidate.address (error.map PacketError.toText))
    sendProbes c rest

def connectTimedOut (c : Connecting) : NodeM ConnectError Unit := do
  let current ← lift (peerCall c.peer (.expireAttempt c.sessionId))
  if current then do
    lift (peerCall c.peer (.recordFailure "connection attempt timed out"))
    lift (peerCall c.peer (.setConnecting false))
    lift (emit (.peerUnreachable c.nodeId))
    throw .timeout
  else throw .superseded

/-- `condition && Instant::now() >= at` -/
def due (condition : Bool) (at_ : Instant) : Task Bool :=
  if condition then do
    let now ← call .now
    return decide (at_ ≤ now)
  else return false

/-- The variables of the loop in `connect`. -/
structure ConnectLoop where
  superseded : Bool
  fallbackSent : Bool
  nextProbe : Instant

/-- The loop notices when the remote side has replaced the attempt. -/
def ConnectLoop.observe (loop : ConnectLoop) (c : Connecting) (attempt : Option UInt64) :
    Except ConnectError ConnectLoop :=
  if attempt = some c.sessionId then .ok loop
  else if attempt.isSome then .ok { loop with superseded := true, nextProbe := c.deadline }
  else if loop.superseded then .ok loop
  else .error .superseded

def connectLoop (c : Connecting) : ℕ → ConnectLoop → NodeM ConnectError Unit
  | 0, _ => lift (call .never)
  | fuel + 1, loop => do
    let active ← lift (peerCall c.peer .active)
    if active.isSome then pure ()
    else do
      let now ← lift (call .now)
      if c.deadline ≤ now then connectTimedOut c
      else do
        let attempt ← lift (peerCall c.peer .attempt)
        let loop ← ofExcept (loop.observe c attempt)
        let fallbackDue ← lift (due (!loop.superseded && !loop.fallbackSent) c.nextFallback)
        let probeDue ← lift (due (!fallbackDue && !loop.superseded) loop.nextProbe)
        if fallbackDue then do
          lift (sendProbes c c.fallback)
          connectLoop c fuel { loop with fallbackSent := true }
        else if probeDue then do
          lift (sendProbes c c.candidates)
          let now ← lift (call .now)
          connectLoop c fuel { loop with fallbackSent := true, nextProbe := now + probeRetryInterval }
        else do
          let notified ← lift (call .wait)
          if notified then do
            let active ← lift (peerCall c.peer .active)
            let timedOut ← lift (due active.isNone c.deadline)
            if timedOut then connectTimedOut c else connectLoop c fuel loop
          else connectLoop c fuel loop

/-- The probes of a new attempt, and the loop. -/
def connectVia (p : PeerRef) (nodeId : NodeId) (candidates : List Candidate) :
    NodeM ConnectError Unit := do
  lift (emitPeerConnecting p)
  let random ← lift (call .randomBytes)
  let sessionId ← lift (call .randomSessionId)
  lift (peerCall p (.newAttempt sessionId candidates))
  lift (peerCall p .clearFailure)
  let timestamp ← lift (call .unixTime)
  let preferred := candidates.filter fun candidate => candidatePriority candidate = 0
  let fallback := candidates.filter fun candidate => candidatePriority candidate ≠ 0
  let start ← lift (call .now)
  let deadline := start + node.config.connectTimeout
  let c : Connecting :=
    { peer := p, nodeId, sessionId
      payload := encodeProbe suite (node.nodeId suite) nodeId sessionId timestamp (arrayAt 16 random 0)
        node.identity
      candidates, fallback, deadline, nextFallback := deadline }
  lift (sendProbes c (if preferred = [] then fallback else preferred))
  let fallbackSent := preferred.isEmpty || fallback.isEmpty
  let sent ← lift (call .now)
  let nextFallback := if fallbackSent then deadline else sent + millis 100
  let now ← lift (call .now)
  connectLoop { c with nextFallback } fuel
    { superseded := false, fallbackSent, nextProbe := now + probeRetryInterval }

/-- `connect` once it holds the mutex `connect`. -/
def connectLocked (p : PeerRef) (nodeId : NodeId) : NodeM ConnectError Unit := do
  let active ← lift (peerCall p .active)
  if active.isSome then pure ()
  else do
    let info ← lift (peerCall p .info)
    let candidates := orderedConnectionCandidates info.candidates
    if candidates = [] then throw .noCandidates
    else connectVia suite node fuel p nodeId candidates

def connect (nodeId : NodeId) : NodeM ConnectError Unit := do
  let started ← lift (call .started)
  if !started then throw .notStarted
  else do
    let now ← lift (call .unixTime)
    let expiresAt ← lift (call .snapshotExpiresAt)
    if expiresAt ≤ now then throw .snapshotExpired
    else do
      let found ← lift (call (.peerFor nodeId))
      let p ← okOr found .unknownPeer
      lift (call (.lockConnect p))
      let result ← lift (connectLocked suite node fuel p nodeId).run
      lift (peerCall p .unlockConnect)
      ofExcept result

/-! ### The reconnect loop -/

/-- Whether the loop goes on to connect. -/
def stillWanted (p : PeerRef) : Task Bool := do
  let stopping ← call .stopping
  if stopping then return false
  else do
    let online ← peerCall p .online
    if online then do
      let info ← peerCall p .info
      let current ← call (.peerFor info.nodeId)
      return current == some p
    else return false

def reconnectLoop : ℕ → PeerRef → Task PUnit
  | 0, _ => call .never
  | rounds + 1, p => do
    match ← call (.nextReconnect p) with
    | none => pure ()
    | some _ =>
      let wanted ← stillWanted p
      if wanted then do
        let info ← peerCall p .info
        match ← (connect suite node fuel info.nodeId).run with
        | .ok _ => peerCall p .finishReconnect
        | .error error => do
          peerCall p (.recordFailure error.toText)
          reconnectLoop rounds p
      else peerCall p .stopReconnect

end Vela.Core
