import Vela.Core.Connect

/-!
# The receive path

What `vela-core` does with a datagram: the reader, the packets of a session that carry no IP data, the
data workers with their two ways to decrypt and commit, and the periodic rounds of keepalives and MTU
probes.
-/

namespace Vela.Core

open Vela.Proto Vela.Crypto Vela.Ip

variable (suite : Suite) (node : Node) (fuel : ℕ)

/-! ### Decryption -/

/-- The peer and the cipher that a data packet is decrypted with. -/
def dataDecryptContextAt (sessionId : UInt64) (now : UInt64) :
    NodeM CoreError (Option (PeerRef × SessionCipher)) := do
  match ← lift (call (.sessionPeer sessionId)) with
  | none => return none
  | some p => do
    let expired ←
      if node.config.serverPublicKey.isSome then lift (peerCall p (.membershipExpiredAt now))
      else pure false
    if expired then do
      lift (invalidateSession p true)
      throw .peerCredentialExpired
    else do
      let cipher ← lift (call (.sessionCipher p sessionId))
      return cipher.map fun cipher => (p, cipher)

def decryptPacket (cipher : SessionCipher) (packet : DataPacket) : Except CryptoError DataPacket :=
  match cipher.decrypt suite packet.header.sequence (encodedHeader packet.header) packet.payload with
  | .error error => .error error
  | .ok plaintext => .ok { packet with payload := plaintext }

/-- A decrypted packet of a peer; `key` is history. -/
structure Decrypted where
  peer : PeerRef
  key : Vector UInt8 32
  packet : DataPacket

/-- A decrypted packet that is an IP packet. -/
structure Parsed where
  peer : PeerRef
  key : Vector UInt8 32
  header : Header
  source : SocketAddr
  encryptedLen : ℕ
  ipPacket : IpPacket

def Decrypted.parse (d : Decrypted) : Except IpError Parsed :=
  match IpPacket.parse d.packet.payload with
  | .error error => .error error
  | .ok ipPacket =>
    .ok { peer := d.peer, key := d.key, header := d.packet.header, source := d.packet.source
          encryptedLen := d.packet.encryptedLen, ipPacket }

def Parsed.item (parsed : Parsed) : CommitItem where
  sequence := parsed.header.sequence
  source := parsed.source
  encryptedLen := parsed.encryptedLen

/-- The event of the packet. -/
def Parsed.delivery (parsed : Parsed) : Delivery where
  peer := parsed.peer.nodeId
  key := parsed.key
  sequence := parsed.header.sequence
  packet := parsed.ipPacket

/-! ### Commit -/

/-- The end of both ways to commit: the events of an accepted packet. -/
def acceptPacket (parsed : Parsed) (committed : Committed) : Task PUnit := do
  let peer := parsed.peer.nodeId
  peerCall parsed.peer (.count .acceptedIpPackets)
  when committed.pathChanged (emit (.pathChanged peer parsed.source))
  when committed.mtuReset (emit (.pathMtuChanged peer parsed.source node.safeVirtualMtu))
  let taken ← call (.deliver parsed.delivery)
  when (!taken) (peerCall parsed.peer (.count .eventQueueDrops))

/-- `commit_ip_data` after the commit. -/
def deliverOne (parsed : Parsed) (committed : Committed) : NodeM CoreError Unit := do
  let isLocal ← lift (call (.areLocal [parsed.ipPacket.destination]))
  if isLocal = [true] then lift (acceptPacket node parsed committed)
  else do
    lift (peerCall parsed.peer (.count .invalidDestinations))
    throw (.ip (.destinationUnknown parsed.ipPacket.destination))

def commitIpData (d : Decrypted) : NodeM CoreError Unit :=
  match d.parse with
  | .error error => do
    lift (peerCall d.peer (.count .ipParseFailures))
    throw (.ip error)
  | .ok parsed => do
    match ← lift (peerCall d.peer (.commitRun parsed.header.sessionId none [parsed.item])) with
    | some [some committed] => deliverOne node parsed committed
    -- another session, or a replay
    | _ => pure ()

def parseBatch : List Decrypted → Task (List Parsed)
  | [] => pure []
  | d :: rest =>
    match d.parse with
    | .error _ => do
      peerCall d.peer (.count .ipParseFailures)
      parseBatch rest
    | .ok parsed => do
      let others ← parseBatch rest
      return parsed :: others

/-- The packets of a run that the replay window took. -/
def committedOf (run : List Parsed) (results : List (Option Committed)) :
    List (Parsed × Committed) :=
  (run.zip results).filterMap fun entry => entry.2.map fun committed => (entry.1, committed)

/-- A run of packets of one peer and session. -/
def commitGroup (run : List Parsed) : Task (List (Parsed × Committed)) :=
  match run with
  | [] => pure []
  | first :: _ => do
    let info ← peerCall first.peer .info
    match ← peerCall first.peer
        (.commitRun first.header.sessionId (some info.candidates) (run.map Parsed.item)) with
    | none => return []
    | some results => return committedOf run results

def sameSession (a b : Parsed) : Bool :=
  a.peer == b.peer && a.header.sessionId == b.header.sessionId

/-- The committed packets whose destination is local; the others are counted. -/
def keepLocal : List (Parsed × Committed) → List Bool → Task (List (Parsed × Committed))
  | entry :: rest, true :: isLocal => do
    let others ← keepLocal rest isLocal
    return entry :: others
  | entry :: rest, false :: isLocal => do
    peerCall entry.1.peer (.count .invalidDestinations)
    keepLocal rest isLocal
  | _, _ => pure []

def commitIpDataBatch (packets : List Decrypted) : Task PUnit :=
  if packets.isEmpty then pure ()
  else do
    let parsed ← parseBatch packets
    let runs ← Prog.collect commitGroup (parsed.splitBy sameSession)
    let committed := runs.flatten
    let isLocal ← call (.areLocal (committed.map fun entry => entry.1.ipPacket.destination))
    let accepted ← keepLocal committed isLocal
    accepted.forM fun entry => acceptPacket node entry.1 entry.2

/-! ### Single packets -/

def decryptDataInlineAt (packet : DataPacket) (now : UInt64) : NodeM CoreError Unit := do
  match ← dataDecryptContextAt node packet.header.sessionId now with
  | none => lift (call (.count .unassociatedDataDatagrams 1))
  | some (p, cipher) => do
    lift (peerCall p (.count .workerDataPackets))
    match decryptPacket suite cipher packet with
    | .error error => do
      lift (peerCall p (.count .decryptFailures))
      throw (.crypto error)
    | .ok packet => commitIpData node { peer := p, key := cipher.rx, packet }

def decryptDataInline (packet : DataPacket) : NodeM CoreError Unit := do
  let now ← lift (call .unixTime)
  decryptDataInlineAt suite node packet now

/-! ### Batches -/

def workerStopped : CoreError := .io ⟨.brokenPipe, "Vela data decrypt worker stopped"⟩

structure DataDecryptJob where
  peer : PeerRef
  cipher : SessionCipher
  packet : DataPacket

/-- The contexts of a batch, one for each session id. -/
abbrev Contexts := AList fun _ : UInt64 => Option (PeerRef × SessionCipher)

/-- The context of a packet of the batch; an error counts as none. -/
def batchContext (contexts : Contexts) (sessionId : UInt64) (now : UInt64) :
    Task (Option (PeerRef × SessionCipher)) :=
  match contexts.lookup sessionId with
  | some context => pure context
  | none => do
    match ← (dataDecryptContextAt node sessionId now).run with
    | .ok context => return context
    | .error _ => return none

/-- The first loop of `queue_data_decrypt_batch`. -/
def collectJobs (now : UInt64) : Contexts → List DataPacket → Task (List DataDecryptJob)
  | _, [] => pure []
  | contexts, packet :: rest => do
    let context ← batchContext node contexts packet.header.sessionId now
    let contexts := contexts.insert packet.header.sessionId context
    match context with
    | none => do
      call (.count .unassociatedDataDatagrams 1)
      collectJobs now contexts rest
    | some (p, cipher) => do
      peerCall p (.count .workerDataPackets)
      let others ← collectJobs now contexts rest
      return { peer := p, cipher, packet } :: others

def dataDecryptBatchSize : ℕ := 16

/-- The parts are handed to the workers one after another. -/
def queueParts : List (List DataDecryptJob) → NodeM CoreError Unit
  | [] => pure ()
  | _ :: rest => do
    match ← lift (call .worker) with
    | some _ => throw workerStopped
    | none => queueParts rest

/-- The jobs of a part that decrypt; the others are counted. -/
def decryptJobs : List DataDecryptJob → Task (List Decrypted)
  | [] => pure []
  | job :: rest =>
    match decryptPacket suite job.cipher job.packet with
    | .error _ => do
      peerCall job.peer (.count .decryptFailures)
      decryptJobs rest
    | .ok packet => do
      let others ← decryptJobs rest
      return { peer := job.peer, key := job.cipher.rx, packet } :: others

/-- The answers of the workers, in the order of the parts. -/
def awaitParts : List (List DataDecryptJob) → NodeM CoreError (List Decrypted)
  | [] => pure []
  | part :: rest => do
    match ← lift (call .worker) with
    | some _ => throw workerStopped
    | none => do
      let decrypted ← lift (decryptJobs suite part)
      let others ← awaitParts rest
      return decrypted ++ others

/-- `queue_data_decrypt_batch` and `finish_data_decrypt`. -/
def decryptDataBatch (packets : List DataPacket) (now : UInt64) : NodeM CoreError Unit := do
  let jobs ← lift (collectJobs node now ∅ packets)
  let parts := chunks dataDecryptBatchSize jobs
  queueParts parts
  let decrypted ← awaitParts suite parts
  lift (commitIpDataBatch node decrypted)

/-- What a data worker does with the packets it received at once; errors are only logged. -/
def decryptData (packets : List DataPacket) (now : UInt64) : Task PUnit :=
  match packets with
  | [packet] => do
    let _ ← (decryptDataInlineAt suite node packet now).run
  | _ => do
    let _ ← (decryptDataBatch suite node packets now).run

/-- One round of `data_loop`. -/
def dataRound (worker : ℕ) : Task PUnit := do
  let packets ← call (.recvMany worker)
  let now ← call .unixTime
  let expiresAt ← call .snapshotExpiresAt
  call (.count .workerDataDatagrams packets.length)
  if expiresAt ≤ now then pure () else decryptData suite node packets now

/-! ### Packets of a session -/

/-- What `handle_data` does after it released the mutex. -/
def finishData (p : PeerRef) (info : PeerInfo) (sessionId : UInt64) :
    DataOutcome → NodeM CoreError Unit
  | .gone => lift (call (.removeSession p sessionId))
  | .expired => do
    lift (call (.removeSession p sessionId))
    lift (peerCall p .clearAttempt)
    lift (peerCall p .clearQueue)
    lift (emit (.peerDisconnected info.nodeId))
    throw .peerCredentialExpired
  | .failed error => throw error
  | .ignored => pure ()
  | .done pathMtuChanged response => do
    lift (whenSome pathMtuChanged fun (path, mtu) => emit (.pathMtuChanged info.nodeId path mtu))
    match response with
    | none => pure ()
    | some reply => sendPacket reply.path reply.packetType reply.sessionId reply.sequence reply.payload

/-- `handle_data` for IP data, which the reader sends elsewhere. -/
def handleIpData (packet : WirePacket) (source : SocketAddr) : NodeM CoreError Unit := do
  let encoded ← ofExcept (packet.encode.mapError CoreError.protocol)
  let packet ← ofExcept ((decodeDataPacket encoded packet.header source).mapError CoreError.protocol)
  decryptDataInline suite node packet

/-- `handle_data` for the other packets of a session. -/
def handleSessionPacket (p : PeerRef) (packet : WirePacket) (source : SocketAddr) :
    NodeM CoreError Unit := do
  let info ← lift (peerCall p .info)
  let outcome ← lift (peerCall p (.handleData info packet source))
  finishData p info packet.header.sessionId outcome

def handleData (packet : WirePacket) (source : SocketAddr) : NodeM CoreError Unit :=
  if packet.header.packetType = .data then handleIpData suite node packet source
  else do
    match ← lift (call (.sessionPeer packet.header.sessionId)) with
    | none => pure ()
    | some p => handleSessionPacket p packet source

/-! ### The reader -/

def handlePacket (input : List UInt8) (source : SocketAddr) : NodeM CoreError Unit := do
  let now ← lift (call .unixTime)
  let expiresAt ← lift (call .snapshotExpiresAt)
  if expiresAt ≤ now then throw .snapshotExpired
  else do
    let packet ← ofExcept ((WirePacket.decode input).mapError CoreError.protocol)
    match packet.header.packetType with
    | .probe => handleProbe suite node packet source
    | .probeResponse => handleProbeResponse suite node packet source
    | .handshake => handleHandshake suite node fuel packet source
    | .data | .keepAlive | .keepAliveAck | .diagnosticPing | .diagnosticPong | .mtuProbe
    | .mtuProbeAck => handleData suite node packet source

/-- `read_loop` with a datagram whose header is that of IP data. -/
def queueData (input : List UInt8) (header : Header) (source : SocketAddr) : Task PUnit := do
  call (.count .dataDatagrams 1)
  match decodeDataPacket input header source with
  | .error _ => pure ()
  | .ok packet => do
    let taken ← call (.trySend (header.sessionId.toNat % node.dataWorkers) packet)
    when (!taken) (call (.count .dataQueueDrops 1))

/-- A STUN message by its first bytes; it goes to whoever waits for it. -/
def isStun (input : List UInt8) : Bool :=
  decide (20 ≤ input.length) && input.getD 0 0 &&& 0xc0 == 0 &&
    (input.drop 4).take 4 == [0x21, 0x12, 0xa4, 0x42]

/-- `read_loop` with one datagram; errors are only logged. -/
def readDatagram (input : List UInt8) (source : SocketAddr) : Task PUnit := do
  call (.count .udpDatagrams 1)
  if isStun input then pure ()
  else
    match Header.decode input with
    | .ok header =>
      if header.packetType = .data then queueData node input header source
      else do
        let _ ← (handlePacket suite node fuel input source).run
    | .error _ => do
      let _ ← (handlePacket suite node fuel input source).run

/-! ### Periodic rounds -/

/-- The rekey of an old session, by the side with the smaller id. -/
def rekey (p : PeerRef) (info : PeerInfo) (path : SocketAddr) (sessionId : UInt64) : Task PUnit := do
  call (.removeSession p sessionId)
  peerCall p .clearAttempt
  when (nodeIdLt (node.nodeId suite) info.nodeId) do
    let sessionId ← call .randomSessionId
    peerCall p (.newAttempt sessionId info.candidates)
    let _ ← (startInitiator p path sessionId).run

/-- Whether the credential of a peer or the snapshot has expired. -/
def authorityExpired (p : PeerRef) : Task Bool := do
  let expired ←
    if node.config.serverPublicKey.isSome then do
      let now ← call .unixTime
      peerCall p (.membershipExpiredAt now)
    else pure false
  let now ← call .unixTime
  let expiresAt ← call .snapshotExpiresAt
  return decide (expiresAt ≤ now) || expired

def keepalivePeer (p : PeerRef) : Task PUnit := do
  let info ← peerCall p .info
  let expired ← authorityExpired node p
  if expired then invalidateSession p true
  else
    match ← peerCall p .keepalive with
    | .idle => pure ()
    | .dead => do
      invalidateSession p true
      scheduleReconnect p
    | .rekey path sessionId => rekey suite node p info path sessionId
    | .keepalive none => pure ()
    | .keepalive (some reply) => do
      let _ ← call (.sendPacket reply.path .keepAlive reply.sessionId reply.sequence reply.payload)

/-- One tick of `keepalive_loop`. -/
def keepaliveRound : Task PUnit := do
  let peers ← call .peerTable
  (peers.entries.map Sigma.snd).forM (keepalivePeer suite node)

/-- One tick of `mtu_loop`. -/
def mtuRound : Task PUnit := do
  let peers ← call .peerTable
  let probes ← Prog.collect (fun p => peerCall p .mtuProbe) (peers.entries.map Sigma.snd)
  (probes.filterMap id).forM fun reply => do
    let _ ← call (.sendPacket reply.path .mtuProbe reply.sessionId reply.sequence reply.payload)

end Vela.Core
