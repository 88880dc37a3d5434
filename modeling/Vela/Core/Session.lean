import Vela.Core.Wire

/-!
# The active session of a peer

What the code does to an `ActiveSession` while it holds the mutex `active`: packets of the session
that carry no IP data (`handle_data`), the commit of IP data, the preparation of outbound packets,
keepalives and MTU probes.
-/

namespace Vela.Core

open Vela.Proto Vela.Crypto Vela.Ip Codec

variable (suite : Suite) (node : Node)

/-! ### Packets of the session -/

/-- A datagram that is sent after the mutex is released. -/
structure Reply where
  packetType : PacketType
  path : SocketAddr
  sessionId : UInt64
  sequence : UInt64
  payload : List UInt8
  deriving DecidableEq

inductive DataOutcome where
  /-- there is no active session, or one with another id -/
  | gone
  /-- the credential does not pass any more; the session is taken -/
  | expired
  | failed (error : CoreError)
  /-- `Ok(())` without a further effect -/
  | ignored
  /-- the event `PathMtuChanged` with a path and an MTU, and a response -/
  | done (pathMtuChanged : Option (SocketAddr × ℕ)) (response : Option Reply)
  deriving DecidableEq

namespace ActiveSession

/-- `tx_sequence.fetch_add(1)` -/
def takeSequence (session : ActiveSession) : UInt64 × ActiveSession :=
  (session.txSequence, { session with txSequence := session.txSequence + 1 })

/-- The answer to a packet of the session, encrypted under the next sequence number. -/
def respond (session : ActiveSession) (packetType : PacketType) (source : SocketAddr)
    (payload : List UInt8) : DataOutcome × ActiveSession :=
  let (sequence, session) := session.takeSequence
  match encryptPayload suite session packetType sequence payload with
  | .error error => (.failed error, session)
  | .ok encrypted =>
    (.done none (some { packetType, path := source, sessionId := session.sessionId, sequence
                        payload := encrypted }), session)

def handleKeepAliveAck (session : ActiveSession) (plaintext : List UInt8) (now : Instant) :
    ActiveSession :=
  match session.pendingKeepalive with
  | some (nonce, sentAt) =>
    if nonce.toList = plaintext then
      { session with
        pendingKeepalive := none
        lastRttMs := some (UInt64.ofNat (min ((now - sentAt) / 10 ^ 6) (2 ^ 64 - 1))) }
    else session
  | none => session

def handleMtuProbeAck (session : ActiveSession) (source : SocketAddr) (plaintext : List UInt8) :
    DataOutcome × ActiveSession :=
  if plaintext.length ≠ mtuProbeNonceLen + 2 then (.failed .invalidMtuProbe, session)
  else if source ≠ session.path then (.ignored, session)
  else
    let peerMaxMtu := ofBeBytes (plaintext.drop mtuProbeNonceLen)
    let (changed, pathMtu) :=
      session.pathMtu.acknowledge (plaintext.take mtuProbeNonceLen) peerMaxMtu
    let session := { session with pathMtu }
    match changed with
    | some mtu => (.done (some (session.path, mtu)) none, session)
    | none => (.done none none, session)

/-- The match on the type of a packet that was decrypted and is no replay.  `handle_data` has sent
IP data elsewhere before. -/
def handlePlaintext (session : ActiveSession) (packetType : PacketType) (source : SocketAddr)
    (plaintext : List UInt8) (now : Instant) : DataOutcome × ActiveSession :=
  match packetType with
  | .keepAlive =>
    if plaintext.length ≠ keepaliveNonceLen then (.failed .invalidKeepAlive, session)
    else session.respond suite .keepAliveAck source plaintext
  | .keepAliveAck =>
    if plaintext.length ≠ keepaliveNonceLen then (.failed .invalidKeepAlive, session)
    else (.done none none, session.handleKeepAliveAck plaintext now)
  | .diagnosticPing =>
    if plaintext.length ≠ diagnosticNonceLen then (.failed .invalidDiagnosticPing, session)
    else session.respond suite .diagnosticPong source plaintext
  | .diagnosticPong =>
    if plaintext.length ≠ diagnosticNonceLen then (.failed .invalidDiagnosticPing, session)
    else (.done none none, { session with
      pingWaiters := session.pingWaiters.filter fun nonce => nonce.toList ≠ plaintext })
  | .mtuProbe =>
    if plaintext.length < mtuProbeNonceLen then (.failed .invalidMtuProbe, session)
    else
      let localMaxMtu := min node.config.virtualMtu (2 ^ 16 - 1)
      session.respond suite .mtuProbeAck source
        (plaintext.take mtuProbeNonceLen ++ beBytes 2 localMaxMtu)
  | .mtuProbeAck => session.handleMtuProbeAck source plaintext
  | .data => (.ignored, session)
  | .probe | .probeResponse | .handshake => (.failed .invalidDiagnosticPing, session)

end ActiveSession

/-- `handle_data` under the mutex; `info` was read before, `unixTime` is the clock of the credential
check. -/
def PeerState.handleData (peer : PeerState) (info : PeerInfo) (packet : WirePacket)
    (source : SocketAddr) (unixTime : UInt64) (now : Instant) : DataOutcome × PeerState :=
  match peer.active with
  | none => (.gone, peer)
  | some session =>
    if session.sessionId ≠ packet.header.sessionId then (.gone, peer)
    else if node.config.serverPublicKey.any fun key =>
        (validateCredential suite info key unixTime).toOption.isNone then
      (.expired, { peer with active := none })
    else
      match session.cipher.decrypt suite packet.header.sequence (encodedHeader packet.header)
          packet.payload with
      | .error error => (.failed (.crypto error), peer)
      | .ok plaintext =>
        let (accepted, replay) := session.replay.accept packet.header.sequence
        if !accepted then (.ignored, peer)
        else
          let session := { session with
            replay
            lastRx := now
            rxBytes := session.rxBytes + UInt64.ofNat packet.payload.length }
          let (outcome, session) := session.handlePlaintext suite node packet.header.packetType
            source plaintext now
          (outcome, { peer with active := some session })

/-! ### The commit of IP data -/

/-- What the commit needs of a decrypted data packet. -/
structure CommitItem where
  sequence : UInt64
  source : SocketAddr
  encryptedLen : ℕ
  deriving DecidableEq

/-- Whether the path changed, and whether the confirmed MTU did. -/
structure Committed where
  pathChanged : Bool
  mtuReset : Bool
  deriving DecidableEq

/-- One iteration of the loop over a run of packets: `none` for a replay. -/
def commitOne (candidates : List Candidate) (unixTime : UInt64) (now : Instant) (item : CommitItem)
    (peer : PeerState) (session : ActiveSession) : Option Committed × PeerState × ActiveSession :=
  let (accepted, replay) := session.replay.accept item.sequence
  if !accepted then
    (none, { peer with receive := { peer.receive with replayDrops := peer.receive.replayDrops + 1 } },
      session)
  else
    let (pathChanged, session) :=
      { session with replay, lastRx := now }.observeDataSource item.source now
    let received (session : ActiveSession) : ActiveSession :=
      { session with rxBytes := session.rxBytes + UInt64.ofNat item.encryptedLen }
    if pathChanged then
      let (mtuReset, pathMtu) := session.pathMtu.reset node.safeVirtualMtu node.config.virtualMtu
      (some { pathChanged, mtuReset }, peer.recordPath item.source candidates unixTime,
        received { session with pathChangedAt := some unixTime, pathMtu })
    else (some { pathChanged, mtuReset := false }, peer, received session)

def commitItems (candidates : List Candidate) (unixTime : UInt64) (now : Instant) :
    List CommitItem → PeerState → ActiveSession → List (Option Committed) × PeerState × ActiveSession
  | [], peer, session => ([], peer, session)
  | item :: items, peer, session =>
    let (committed, peer, session) := commitOne node candidates unixTime now item peer session
    let (rest, peer, session) := commitItems candidates unixTime now items peer session
    (committed :: rest, peer, session)

/-- The commit of one run of packets under the mutex: `none` if the session is another one. -/
def PeerState.commitRun (peer : PeerState) (sessionId : UInt64) (candidates : List Candidate)
    (items : List CommitItem) (unixTime : UInt64) (now : Instant) :
    Option (List (Option Committed)) × PeerState :=
  match peer.active with
  | none => (none, peer)
  | some session =>
    if session.sessionId ≠ sessionId then (none, peer)
    else
      let (committed, peer, session) :=
        commitItems node candidates unixTime now items peer session
      (some committed, { peer with active := some session })

/-! ### Outbound packets -/

/-- What `prepare_ip_packets` takes from the session: a sequence number for each packet that fits. -/
structure PreparedSession where
  sessionId : UInt64
  path : SocketAddr
  cipher : SessionCipher
  sequences : List (Option UInt64)
  deriving DecidableEq

def takeSequences (confirmed : ℕ) : List ℕ → UInt64 → List (Option UInt64) × UInt64
  | [], next => ([], next)
  | size :: sizes, next =>
    if confirmed < size then
      let (rest, next) := takeSequences confirmed sizes next
      (none :: rest, next)
    else
      let (rest, last) := takeSequences confirmed sizes (next + 1)
      (some next :: rest, last)

def PeerState.prepareActive (peer : PeerState) (sizes : List ℕ) :
    Option PreparedSession × PeerState :=
  match peer.active with
  | none => (none, peer)
  | some session =>
    let (sequences, txSequence) := takeSequences session.pathMtu.confirmed sizes session.txSequence
    (some { sessionId := session.sessionId, path := session.path, cipher := session.cipher, sequences },
      { peer with active := some { session with txSequence } })

/-- `prepare_ip_packets` without a session: which of the packets the queue took. -/
def PeerState.queuePush (peer : PeerState) (limit : ℕ) : List (List UInt8) → List Bool × PeerState
  | [] => ([], peer)
  | packet :: packets =>
    if limit ≤ peer.queue.length then
      let (rest, peer) := queuePush peer limit packets
      (false :: rest, peer)
    else
      let (rest, peer) := queuePush { peer with queue := peer.queue ++ [packet] } limit packets
      (true :: rest, peer)

/-! ### Keepalives and MTU probes -/

inductive KeepaliveOutcome where
  /-- there is no active session -/
  | idle
  | dead
  /-- the session is old or has sent much; it is taken -/
  | rekey (path : SocketAddr) (sessionId : UInt64)
  | keepalive (packet : Option Reply)
  deriving DecidableEq

def PeerState.keepalive (peer : PeerState) (now : Instant) (nonce : Vector UInt8 keepaliveNonceLen) :
    KeepaliveOutcome × PeerState :=
  match peer.active with
  | none => (.idle, peer)
  | some session =>
    if node.config.keepaliveInterval * 3 ≤ now - session.lastRx then (.dead, peer)
    else if session.needsRekey now then
      (.rekey session.path session.sessionId, { peer with active := none })
    else
      let (sequence, session) := session.takeSequence
      match encryptPayload suite session .keepAlive sequence nonce.toList with
      | .error _ => (.keepalive none, { peer with active := some session })
      | .ok payload =>
        (.keepalive (some { packetType := .keepAlive, path := session.path
                            sessionId := session.sessionId, sequence, payload }),
          { peer with active := some { session with pendingKeepalive := some (nonce, now) } })

/-- One peer's part of `mtu_loop`. -/
def PeerState.mtuProbe (peer : PeerState) (now : Instant) (nonce : Vector UInt8 mtuProbeNonceLen) :
    Option Reply × PeerState :=
  match peer.active with
  | none => (none, peer)
  | some session =>
    let (probe, pathMtu) := session.pathMtu.pollProbe now nonce
    let session := { session with pathMtu }
    match probe with
    | none => (none, { peer with active := some session })
    | some (target, nonce) =>
      if target < mtuProbeNonceLen then (none, { peer with active := some session })
      else
        let (sequence, session) := session.takeSequence
        let plaintext := nonce.toList ++ List.replicate (target - mtuProbeNonceLen) 0
        match encryptPayload suite session .mtuProbe sequence plaintext with
        | .error _ => (none, { peer with active := some session })
        | .ok payload =>
          (some { packetType := .mtuProbe, path := session.path, sessionId := session.sessionId
                  sequence, payload }, { peer with active := some session })

end Vela.Core
