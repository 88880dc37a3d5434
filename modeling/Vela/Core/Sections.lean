import Vela.Core.Session

/-!
# The node's state and its critical sections

`Inner` of `vela-core` and the critical sections in which its fields are read and written.  A section
that holds a mutex across several accesses is one step.  `PeerOp` are the sections of one peer's
mutexes, `Section` those and the ones of the node.  What does not come from the state (clocks, random
bytes, the outcome of I/O) comes from `Env`.
-/

namespace Vela.Core

open Vela.Proto Vela.Crypto Vela.Ip Codec Function

/-- The environment's part in one section. -/
structure Env where
  /-- `unix_time()` -/
  unixTime : UInt64
  /-- `Instant::now()` -/
  now : Instant
  /-- random bytes -/
  bytes : List UInt8
  /-- `random_session_id()` -/
  sessionId : UInt64
  /-- the error of an I/O call -/
  fault : Option IoError
  /-- how many datagrams of a batch were sent, or packets received at once -/
  sent : ℕ
  /-- a channel took a message, a waiter was notified -/
  accepts : Bool
  deriving Inhabited

/-- `N` random bytes. -/
def Env.nonce (e : Env) (n : ℕ) : Vector UInt8 n := arrayAt n e.bytes 0

/-! ### Sections of one peer -/

inductive Counter where
  | workerDataPackets
  | decryptFailures
  | ipParseFailures
  | invalidDestinations
  | acceptedIpPackets
  | eventQueueDrops
  deriving DecidableEq

def PeerReceiveCounters.add (counters : PeerReceiveCounters) : Counter → PeerReceiveCounters
  | .workerDataPackets => { counters with workerDataPackets := counters.workerDataPackets + 1 }
  | .decryptFailures => { counters with decryptFailures := counters.decryptFailures + 1 }
  | .ipParseFailures => { counters with ipParseFailures := counters.ipParseFailures + 1 }
  | .invalidDestinations => { counters with invalidDestinations := counters.invalidDestinations + 1 }
  | .acceptedIpPackets => { counters with acceptedIpPackets := counters.acceptedIpPackets + 1 }
  | .eventQueueDrops => { counters with eventQueueDrops := counters.eventQueueDrops + 1 }

inductive PeerOp where
  | info
  | online
  | setOnline (online : Bool)
  | membershipExpiredAt (now : UInt64)
  | storeMembership (expiresAt : UInt64)
  | storeInfo (info : PeerInfo)
  | unlockConnect
  | clearFailure
  | recordFailure (reason : String)
  | recordPath (path : SocketAddr) (candidates : List Candidate)
  | setConnecting (connecting : Bool)
  | swapConnecting
  /-- `reconnect.requested = false` -/
  | dropReconnect
  /-- `requested = true; attempts = 0` -/
  | requestReconnect
  /-- everything back to the default, after a session was established -/
  | finishReconnect
  /-- `running = false` -/
  | stopReconnect
  /-- `apply_snapshot`: whether one is requested, and then `attempts = 0` -/
  | resumeReconnect
  /-- `schedule_reconnect`: whether a loop is to be spawned -/
  | startReconnect
  /-- the session id of the attempt -/
  | attempt
  | takeAttempt
  | clearAttempt
  | newAttempt (sessionId : UInt64) (candidates : List Candidate)
  /-- `handle_probe`: a new attempt unless one has begun its handshake -/
  | attemptFromProbe (sessionId : UInt64) (candidates : List Candidate)
  /-- `connect` gives up: whether the attempt was still its own -/
  | expireAttempt (sessionId : UInt64)
  | candidateProbe (sessionId : UInt64) (address : SocketAddr) (error : Option String)
  | candidateResponse (sessionId : UInt64) (address : SocketAddr)
  /-- the id and path of the active session -/
  | active
  | takeActive (expected : Option UInt64)
  | commitRun (sessionId : UInt64) (candidates : Option (List Candidate)) (items : List CommitItem)
  | prepareActive (sizes : List ℕ)
  | recordSent (sessionId : UInt64) (bytes : ℕ)
  | handleData (info : PeerInfo) (packet : WirePacket) (source : SocketAddr)
  | keepalive
  | mtuProbe
  | clearQueue
  | popQueue
  | pushQueue (packets : List (List UInt8))
  | count (counter : Counter)

abbrev PeerOp.Response : PeerOp → Type
  | .info => PeerInfo
  | .online => Bool
  | .membershipExpiredAt _ => Bool
  | .swapConnecting => Bool
  | .resumeReconnect => Bool
  | .startReconnect => Bool
  | .attempt => Option UInt64
  | .takeAttempt => Bool
  | .expireAttempt _ => Bool
  | .active => Option (UInt64 × SocketAddr)
  -- `none`: the session is not the expected one
  | .takeActive _ => Option (Option UInt64)
  | .commitRun _ _ _ => Option (List (Option Committed))
  | .prepareActive _ => Option PreparedSession
  | .handleData _ _ _ => DataOutcome
  | .keepalive => KeepaliveOutcome
  | .mtuProbe => Option Reply
  | .popQueue => Option (List UInt8)
  | .pushQueue _ => List Bool
  | _ => Unit

section PeerSections

variable (suite : Suite) (node : Node)

def freshAttempt (e : Env) (sessionId : UInt64) (candidates : List Candidate) : Attempt where
  sessionId := sessionId
  handshake := none
  handshakePayload := none
  handshakePath := none
  lastHandshakeAt := none
  startedAt := e.unixTime
  timeoutAt := saturatingAdd e.unixTime (asSecs node.config.connectTimeout)
  candidates := candidates.map PeerCandidateAttempt.new

/-- `record_candidate_probe` and `record_candidate_response`: the first candidate of the attempt with
the address is updated. -/
def updateCandidate (peer : PeerState) (sessionId : UInt64) (address : SocketAddr)
    (f : PeerCandidateAttempt → PeerCandidateAttempt) : PeerState :=
  match peer.attempt with
  | none => peer
  | some attempt =>
    if attempt.sessionId ≠ sessionId then peer
    else
      let candidates :=
        match attempt.candidates.findIdx? fun c => c.candidate.address == address with
        | none => attempt.candidates
        | some index => attempt.candidates.modify index f
      { peer with attempt := some { attempt with candidates } }

/-- The session that `establish` starts. -/
def freshSession (e : Env) (sessionId : UInt64) (path : SocketAddr) (cipher : SessionCipher)
    (madeFor : PeerInfo) (handshake : NoiseHandshake) : ActiveSession where
  sessionId := sessionId
  path := path
  pendingPath := none
  cipher := cipher
  txSequence := 1
  replay := ReplayWindow.fresh
  pingWaiters := []
  pendingKeepalive := none
  lastRx := e.now
  createdAtUnix := e.unixTime
  createdAt := e.now
  pathChangedAt := none
  lastRttMs := none
  txBytes := 0
  rxBytes := 0
  pathMtu := PathMtuState.new node.safeVirtualMtu node.config.virtualMtu
  madeFor := madeFor
  handshake := handshake

/-- The section on the peer's state. -/
def performPeer (e : Env) (peer : PeerState) : (op : PeerOp) → op.Response × PeerState
  | .info => (peer.info, peer)
  | .online => (peer.online, peer)
  | .setOnline online => ((), { peer with online })
  | .membershipExpiredAt now => (decide (peer.membershipExpiresAt ≤ now), peer)
  | .storeMembership expiresAt => ((), { peer with membershipExpiresAt := expiresAt })
  | .storeInfo info => ((), { peer with info })
  | .unlockConnect => ((), { peer with connect := false })
  | .clearFailure => ((), { peer with lastFailure := none })
  | .recordFailure reason =>
    ((), { peer with lastFailure := some { reason, occurredAt := e.unixTime } })
  | .recordPath path candidates => ((), peer.recordPath path candidates e.unixTime)
  | .setConnecting connecting => ((), { peer with connecting })
  | .swapConnecting => (peer.connecting, { peer with connecting := true })
  | .dropReconnect => ((), { peer with reconnect := { peer.reconnect with requested := false } })
  | .requestReconnect =>
    ((), { peer with reconnect := { peer.reconnect with requested := true, attempts := 0 } })
  | .finishReconnect =>
    ((), { peer with reconnect := { requested := false, running := false, attempts := 0 } })
  | .stopReconnect => ((), { peer with reconnect := { peer.reconnect with running := false } })
  | .resumeReconnect =>
    if peer.reconnect.requested then
      (true, { peer with reconnect := { peer.reconnect with attempts := 0 } })
    else (false, peer)
  | .startReconnect =>
    if !peer.reconnect.requested || peer.reconnect.running ||
        decide (maxReconnectAttempts ≤ peer.reconnect.attempts) then (false, peer)
    else (true, { peer with reconnect := { peer.reconnect with running := true } })
  | .attempt => (peer.attempt.map Attempt.sessionId, peer)
  | .takeAttempt => (peer.attempt.isSome, { peer with attempt := none })
  | .clearAttempt => ((), { peer with attempt := none })
  | .newAttempt sessionId candidates =>
    ((), { peer with attempt := some (freshAttempt node e sessionId candidates) })
  | .attemptFromProbe sessionId candidates =>
    let canReplace := peer.attempt.all fun attempt => attempt.handshake.isNone
    if canReplace && peer.attempt.map Attempt.sessionId != some sessionId then
      ((), { peer with attempt := some (freshAttempt node e sessionId candidates) })
    else ((), peer)
  | .expireAttempt sessionId =>
    if peer.attempt.any fun attempt => attempt.sessionId == sessionId then
      (true, { peer with attempt := none })
    else (false, peer)
  | .candidateProbe sessionId address error =>
    ((), updateCandidate peer sessionId address fun candidate =>
      { candidate with
        lastSentAt := some e.unixTime
        error
        state := if error.isSome then .failed else .sent })
  | .candidateResponse sessionId address =>
    ((), updateCandidate peer sessionId address fun candidate =>
      { candidate with state := .responded, respondedAt := some e.unixTime, error := none })
  | .active => (peer.active.map fun session => (session.sessionId, session.path), peer)
  | .takeActive expected =>
    if expected.any fun id => peer.active.all fun session => session.sessionId != id then (none, peer)
    else (some (peer.active.map ActiveSession.sessionId), { peer with active := none })
  | .commitRun sessionId candidates items =>
    peer.commitRun node sessionId (candidates.getD peer.info.candidates) items e.unixTime e.now
  | .prepareActive sizes => peer.prepareActive sizes
  | .recordSent sessionId bytes =>
    ((), { peer with active := peer.active.map fun session =>
      if session.sessionId = sessionId then
        { session with txBytes := session.txBytes + UInt64.ofNat bytes }
      else session })
  | .handleData info packet source =>
    peer.handleData suite node info packet source e.unixTime e.now
  | .keepalive => peer.keepalive suite node e.now (e.nonce keepaliveNonceLen)
  | .mtuProbe => peer.mtuProbe suite e.now (e.nonce mtuProbeNonceLen)
  | .clearQueue => ((), { peer with queue := [] })
  | .popQueue => (peer.queue.head?, { peer with queue := peer.queue.tail })
  | .pushQueue packets => peer.queuePush node.config.perPeerQueueLimit packets
  | .count counter => ((), { peer with receive := peer.receive.add counter })

end PeerSections

/-! ### The state of the node -/

structure TransportReceiveCounters where
  udpDatagrams : ℕ
  dataDatagrams : ℕ
  dataQueueDrops : ℕ
  workerDataDatagrams : ℕ
  unassociatedDataDatagrams : ℕ
  deriving DecidableEq

inductive TransportCounter where
  | udpDatagrams
  | dataDatagrams
  | dataQueueDrops
  | workerDataDatagrams
  | unassociatedDataDatagrams
  deriving DecidableEq

def TransportReceiveCounters.add (counters : TransportReceiveCounters) (amount : ℕ) :
    TransportCounter → TransportReceiveCounters
  | .udpDatagrams => { counters with udpDatagrams := counters.udpDatagrams + amount }
  | .dataDatagrams => { counters with dataDatagrams := counters.dataDatagrams + amount }
  | .dataQueueDrops => { counters with dataQueueDrops := counters.dataQueueDrops + amount }
  | .workerDataDatagrams =>
    { counters with workerDataDatagrams := counters.workerDataDatagrams + amount }
  | .unassociatedDataDatagrams =>
    { counters with unassociatedDataDatagrams := counters.unassociatedDataDatagrams + amount }

/-- History: an IP packet handed to the application, with the key and number it was decrypted
under. -/
structure Delivery where
  peer : NodeId
  key : Vector UInt8 32
  sequence : UInt64
  packet : IpPacket
  deriving DecidableEq

/-- History: an IP packet that was encrypted for a peer. -/
structure Encryption where
  peer : PeerRef
  key : Vector UInt8 32
  sequence : UInt64
  packet : IpPacket
  deriving DecidableEq

abbrev PeerTable := AList fun _ : NodeId => PeerRef

/-- A task that the node starts by itself. -/
inductive Spawned where
  | reconnect (p : PeerRef)
  | connect (nodeId : NodeId)
  deriving DecidableEq

def dataWorkerQueueLimit : ℕ := 2048
def dataWorkerBatchSize : ℕ := 64

structure NodeState where
  heap : PeerRef → PeerState
  /-- the number of peer states allocated so far -/
  allocated : ℕ
  peers : PeerTable
  routes : RouteTable
  sessions : AList fun _ : UInt64 => PeerRef
  /-- the mutex `snapshot_update` is held -/
  snapshotUpdate : Bool
  networkId : Vector UInt8 16
  snapshotGeneration : UInt64
  snapshotExpiresAt : UInt64
  localIpv4 : Option Ipv4Addr
  localIpv6 : Option Ipv6Addr
  started : Bool
  stopping : Bool
  receive : TransportReceiveCounters
  /-- the channels to the data workers -/
  dataQueues : ℕ → List DataPacket
  /-- tasks that were spawned and have not started yet -/
  spawned : List Spawned
  /-- every event that a channel took, the latest first -/
  events : List VelaEvent
  /-- every datagram that was sent, the latest first -/
  datagrams : List (SocketAddr × List UInt8)
  delivered : List Delivery
  encrypted : List Encryption
  /-- history: the receive keys of all sessions that were established -/
  receiveKeys : List (Vector UInt8 32)

/-- A replacement of one peer's state. -/
def NodeState.setPeer (s : NodeState) (p : PeerRef) (peer : PeerState) : NodeState :=
  { s with heap := update s.heap p peer }

def NodeState.setQueue (s : NodeState) (worker : ℕ) (packets : List DataPacket) : NodeState :=
  { s with dataQueues := update s.dataQueues worker packets }

/-- Every peer is in the table under its node id. -/
def NodeState.Keyed (s : NodeState) : Prop := ∀ nodeId q, s.peers.lookup nodeId = some q → q.nodeId = nodeId

/-! ### Sections -/

inductive Section where
  | peer (p : PeerRef) (op : PeerOp)
  /-- the mutex `connect` of a peer -/
  | lockConnect (p : PeerRef)
  | lockSnapshotUpdate
  | unlockSnapshotUpdate
  | unixTime
  | now
  | randomBytes
  | randomSessionId
  | started
  | stopping
  | setStarted
  | setStopping
  | snapshotExpiresAt
  | snapshotGeneration
  | networkId
  | localIpv4
  | localIpv6
  | storeNetworkId (networkId : Vector UInt8 16)
  | storeLocalIpv4 (address : Option Ipv4Addr)
  | storeLocalIpv6 (address : Option Ipv6Addr)
  | storeGeneration (generation : UInt64)
  | storeExpiresAt (expiresAt : UInt64)
  /-- `peers.get(n).cloned()` -/
  | peerFor (nodeId : NodeId)
  | peerTable
  /-- `register_peer`: whether the record is there already; then the peer is online -/
  | registerUnchanged (info : PeerInfo)
  /-- `register_peer` replaces the peer and its routes -/
  | registerPeer (info : PeerInfo)
  /-- `remove_peer` takes the peer and its routes out, if it is still the same -/
  | removePeer (nodeId : NodeId) (p : PeerRef)
  /-- `Arc::new(PeerState::with_online(..))` -/
  | allocate (info : PeerInfo) (online : Bool)
  /-- `apply_snapshot` replaces routes and peers -/
  | replacePeers (routes : RouteTable) (replacement : PeerTable)
  | validateOutbound (packet : IpPacket)
  /-- `send_ip_batch` finds the peers of all packets -/
  | routeBatch (packets : List IpPacket)
  | areLocal (addresses : List IpAddr)
  | sessionPeer (sessionId : UInt64)
  /-- `establish` under the mutex `active`: whether the session was started -/
  | establish (p : PeerRef) (sessionId : UInt64) (path : SocketAddr) (cipher : SessionCipher)
      (expected : PeerInfo) (handshake : NoiseHandshake)
  | insertSession (sessionId : UInt64) (p : PeerRef)
  | removeSession (p : PeerRef) (sessionId : UInt64)
  /-- `data_decrypt_context_at`: the cipher, or the entry of a stale session is removed -/
  | sessionCipher (p : PeerRef) (sessionId : UInt64)
  /-- `start_initiator` under the mutex `attempt` -/
  | initiate (p : PeerRef) (path : SocketAddr) (sessionId : UInt64)
  /-- the response to a handshake, under the mutex `attempt` -/
  | finishHandshake (p : PeerRef) (sessionId : UInt64) (message : List UInt8) (sender : NodeId)
      (info : PeerInfo)
  /-- `reconnect_loop` under the mutex `reconnect`: the delay before the next attempt -/
  | nextReconnect (p : PeerRef)
  | spawn (task : Spawned)
  /-- `read_loop` hands a packet to a data worker: whether the channel had room -/
  | trySend (worker : ℕ) (packet : DataPacket)
  /-- `recv_many` of a data worker, which waits for the first packet -/
  | recvMany (worker : ℕ)
  | sendTo (target : SocketAddr) (datagram : List UInt8)
  | sendPacket (target : SocketAddr) (packetType : PacketType) (sessionId sequence : UInt64)
      (payload : List UInt8)
  | sendBatch (datagrams : List (SocketAddr × List UInt8))
  | emit (event : VelaEvent)
  /-- the event of an IP packet -/
  | deliver (delivery : Delivery)
  /-- `prepare_encrypted_data_packet` -/
  | encryptPacket (encryption : Encryption)
  /-- a worker of the decryption or encryption pool answers, or fails -/
  | worker
  /-- `connect` waits to be notified -/
  | wait
  | count (counter : TransportCounter) (amount : ℕ)
  /-- where a loop is no longer followed; it is never executed -/
  | never

/-- What role 2 of `handle_handshake` finds. -/
structure FinishedHandshake where
  keys : SessionKeys
  /-- history: the handshake after the response -/
  handshake : NoiseHandshake

abbrev Response : Section → Type
  | .peer _ op => op.Response
  | .unixTime => UInt64
  | .now => Instant
  | .randomBytes => List UInt8
  | .randomSessionId => UInt64
  | .started => Bool
  | .stopping => Bool
  | .snapshotExpiresAt => UInt64
  | .snapshotGeneration => UInt64
  | .networkId => Vector UInt8 16
  | .localIpv4 => Option Ipv4Addr
  | .localIpv6 => Option Ipv6Addr
  | .peerFor _ => Option PeerRef
  | .peerTable => PeerTable
  | .registerUnchanged _ => Bool
  | .registerPeer _ => Option PeerRef
  | .removePeer _ _ => Bool
  | .allocate _ _ => PeerRef
  | .replacePeers _ _ => PeerTable
  | .validateOutbound _ => Except IpError NodeId
  | .routeBatch _ => List (Except SendError PeerRef)
  | .areLocal _ => List Bool
  | .sessionPeer _ => Option PeerRef
  | .establish _ _ _ _ _ _ => Bool
  | .sessionCipher _ _ => Option SessionCipher
  -- whether a handshake was sent
  | .initiate _ _ _ => Except CoreError Bool
  | .finishHandshake _ _ _ _ _ => Except CoreError (Option FinishedHandshake)
  | .nextReconnect _ => Option Duration
  | .sendTo _ _ => Option IoError
  | .sendPacket _ _ _ _ _ => Option PacketError
  | .sendBatch _ => Except IoError ℕ
  | .emit _ => Bool
  | .deliver _ => Bool
  | .trySend _ _ => Bool
  | .recvMany _ => List DataPacket
  | .worker => Option String
  | .wait => Bool
  | _ => Unit

section Execution

variable (suite : Suite) (node : Node)

namespace NodeState

/-- `remove_session`: only an entry that points to this very peer. -/
def removeSession (s : NodeState) (p : PeerRef) (sessionId : UInt64) : NodeState :=
  if s.sessions.lookup sessionId = some p then { s with sessions := s.sessions.erase sessionId } else s

def removeRoutes (routes : RouteTable) (info : PeerInfo) : RouteTable :=
  (virtualAddresses info.virtualIpv4 info.virtualIpv6).foldl RouteTable.remove routes

def insertRoutes (routes : RouteTable) (info : PeerInfo) : RouteTable :=
  (virtualAddresses info.virtualIpv4 info.virtualIpv6).foldl
    (fun routes address => routes.insert address info.nodeId) routes

/-- A new allocation. -/
def allocate (s : NodeState) (info : PeerInfo) (online : Bool) : PeerRef × NodeState :=
  let p : PeerRef := { address := s.allocated, nodeId := info.nodeId }
  (p, { s with
    heap := update s.heap p
      (PeerState.withOnline suite info online node.config.serverPublicKey)
    allocated := s.allocated + 1 })

def registerUnchanged (s : NodeState) (info : PeerInfo) : Bool × NodeState :=
  match s.peers.lookup info.nodeId with
  | none => (false, s)
  | some p =>
    if (s.heap p).info = info then (true, s.setPeer p { s.heap p with online := true }) else (false, s)

def registerPeer (s : NodeState) (info : PeerInfo) : Option PeerRef × NodeState :=
  let previous := s.peers.lookup info.nodeId
  let (p, s) := s.allocate suite node info true
  let routes :=
    match previous with
    | none => s.routes
    | some previous => removeRoutes s.routes (s.heap previous).info
  (previous, { s with peers := s.peers.insert info.nodeId p, routes := insertRoutes routes info })

def removePeer (s : NodeState) (nodeId : NodeId) (p : PeerRef) : Bool × NodeState :=
  if s.peers.lookup nodeId = some p then
    (true, { s with
      peers := s.peers.erase nodeId
      routes := removeRoutes s.routes (s.heap p).info })
  else (false, s)

def routePacket (s : NodeState) (packet : IpPacket) : Except SendError PeerRef :=
  match s.routes.validateOutbound packet with
  | .error error => .error (.ip error)
  | .ok nodeId =>
    match s.peers.lookup nodeId with
    | none => .error .unknownPeer
    | some p => .ok p

def establish (s : NodeState) (e : Env) (p : PeerRef) (sessionId : UInt64) (path : SocketAddr)
    (cipher : SessionCipher) (expected : PeerInfo) (handshake : NoiseHandshake) : Bool × NodeState :=
  let peer := s.heap p
  if peer.active.isSome || peer.info != expected then (false, s)
  else
    (true, { s.setPeer p { peer with
        active := some (freshSession node e sessionId path cipher expected handshake) } with
      receiveKeys := cipher.rx :: s.receiveKeys })

def sessionCipher (s : NodeState) (p : PeerRef) (sessionId : UInt64) :
    Option SessionCipher × NodeState :=
  match (s.heap p).active with
  | some session =>
    if session.sessionId = sessionId then (some session.cipher, s)
    else (none, s.removeSession p sessionId)
  | none => (none, s.removeSession p sessionId)

/-- `handshake_context` -/
def handshakeContext (s : NodeState) : List UInt8 :=
  encodeHandshakeContext
    { networkId := s.networkId, generation := s.snapshotGeneration, nodeId := node.nodeId suite
      incarnation := node.incarnation, virtualIpv4 := s.localIpv4, virtualIpv6 := s.localIpv6 }

/-- `send_to` -/
def sendTo (s : NodeState) (e : Env) (target : SocketAddr) (datagram : List UInt8) :
    Option IoError × NodeState :=
  match e.fault with
  | some error => (some error, s)
  | none => (none, { s with datagrams := (target, datagram) :: s.datagrams })

/-- `send_packet` -/
def sendPacket (s : NodeState) (e : Env) (target : SocketAddr) (packetType : PacketType)
    (sessionId sequence : UInt64) (payload : List UInt8) : Option PacketError × NodeState :=
  match Header.new packetType sessionId sequence payload.length with
  | .error _ => (some .payloadTooLarge, s)
  | .ok header =>
    match { header, payload : WirePacket }.encode with
    | .error _ => (some .lengthMismatch, s)
    | .ok datagram =>
      match s.sendTo e target datagram with
      | (some error, s) => (some (.io error), s)
      | (none, s) => (none, s)

/-- The message of an initiator: a new handshake, unless the attempt has one with its payload. -/
def initiatorMessage (s : NodeState) (e : Env) (info : PeerInfo) (attempt : Attempt) :
    Except CoreError (List UInt8 × Attempt) :=
  match attempt.handshake, attempt.handshakePayload with
  | some _, some payload => .ok (payload, attempt)
  | _, _ =>
    match (NoiseHandshake.initiator node.identity info.noisePublic).writeMessage suite e.bytes
        (s.handshakeContext suite node) with
    | .error error => .error (.crypto error)
    | .ok (message, handshake) =>
      let payload := 1 :: (node.nodeId suite).bytes.toList ++ message
      .ok (payload, { attempt with handshake := some handshake, handshakePayload := some payload })

/-- Whether the same path was tried a moment ago. -/
def recentlySent (attempt : Attempt) (path : SocketAddr) (now : Instant) : Bool :=
  attempt.handshake.isSome && attempt.handshakePayload.isSome && attempt.handshakePath == some path &&
    attempt.lastHandshakeAt.any fun sentAt => decide (now - sentAt < handshakeRetryInterval)

def initiate (s : NodeState) (e : Env) (p : PeerRef) (path : SocketAddr) (sessionId : UInt64) :
    Except CoreError Bool × NodeState :=
  let peer := s.heap p
  match peer.attempt with
  | none => (.ok false, s)
  | some attempt =>
    if attempt.sessionId ≠ sessionId || recentlySent attempt path e.now then (.ok false, s)
    else
      match s.initiatorMessage suite node e peer.info attempt with
      | .error error => (.error error, s)
      | .ok (payload, attempt) =>
        match s.sendPacket e path .handshake sessionId 0 payload with
        -- the failure is recorded, and the attempt stays as it was
        | (some error, s) =>
          (.error error.toCore, s.setPeer p { peer with
            lastFailure := some { reason := "handshake send failed: " ++ error.toText
                                  occurredAt := e.unixTime } })
        | (none, s) =>
          (.ok true, s.setPeer p { peer with
            attempt := some { attempt with
              handshakePath := some path, lastHandshakeAt := some e.now } })

def finishHandshake (s : NodeState) (p : PeerRef) (sessionId : UInt64) (message : List UInt8)
    (sender : NodeId) (info : PeerInfo) :
    Except CoreError (Option FinishedHandshake) × NodeState :=
  let peer := s.heap p
  match peer.attempt with
  | none => (.ok none, s)
  | some attempt =>
    if attempt.sessionId ≠ sessionId then (.ok none, s)
    else
      match attempt.handshake with
      | none => (.ok none, s)
      | some handshake =>
        -- the Noise state is taken out of the attempt whatever follows
        let s := s.setPeer p { peer with attempt := some { attempt with handshake := none } }
        match handshake.readMessage suite message with
        | .error error => (.error (.crypto error), s)
        | .ok (context, handshake) =>
          match validateHandshakeContext s.networkId context sender info with
          | .error error => (.error error, s)
          | .ok _ =>
            match handshake.intoSession suite with
            | .error error => (.error (.crypto error), s)
            | .ok keys => (.ok (some { keys, handshake }), s)

def nextReconnect (s : NodeState) (p : PeerRef) : Option Duration × NodeState :=
  let peer := s.heap p
  if !peer.reconnect.requested || s.stopping || !peer.online ||
      decide (maxReconnectAttempts ≤ peer.reconnect.attempts) then
    (none, s.setPeer p { peer with reconnect := { peer.reconnect with running := false } })
  else
    let attempt := peer.reconnect.attempts
    (some (if attempt = 0 then 0 else min (node.config.reconnectBackoff * 2 ^ (attempt - 1)) (secs 30)),
      s.setPeer p { peer with reconnect := { peer.reconnect with attempts := attempt + 1 } })

end NodeState

/-- A section on the state; `none` while a mutex is held by another task. -/
def exec (e : Env) : (c : Section) → NodeState → Option (Response c × NodeState)
  | .peer p op, s =>
    let (r, peer) := performPeer suite node e (s.heap p) op
    some (r, s.setPeer p peer)
  | .lockConnect p, s =>
    if (s.heap p).connect then none else some ((), s.setPeer p { s.heap p with connect := true })
  | .lockSnapshotUpdate, s =>
    if s.snapshotUpdate then none else some ((), { s with snapshotUpdate := true })
  | .unlockSnapshotUpdate, s => some ((), { s with snapshotUpdate := false })
  | .unixTime, s => some (e.unixTime, s)
  | .now, s => some (e.now, s)
  | .randomBytes, s => some (e.bytes, s)
  | .randomSessionId, s => if e.sessionId = 0 then none else some (e.sessionId, s)
  | .started, s => some (s.started, s)
  | .stopping, s => some (s.stopping, s)
  | .setStarted, s => some ((), { s with started := true })
  | .setStopping, s => some ((), { s with stopping := true })
  | .snapshotExpiresAt, s => some (s.snapshotExpiresAt, s)
  | .snapshotGeneration, s => some (s.snapshotGeneration, s)
  | .networkId, s => some (s.networkId, s)
  | .localIpv4, s => some (s.localIpv4, s)
  | .localIpv6, s => some (s.localIpv6, s)
  | .storeNetworkId networkId, s => some ((), { s with networkId })
  | .storeLocalIpv4 address, s => some ((), { s with localIpv4 := address })
  | .storeLocalIpv6 address, s => some ((), { s with localIpv6 := address })
  | .storeGeneration generation, s => some ((), { s with snapshotGeneration := generation })
  | .storeExpiresAt expiresAt, s => some ((), { s with snapshotExpiresAt := expiresAt })
  | .peerFor nodeId, s => some (s.peers.lookup nodeId, s)
  | .peerTable, s => some (s.peers, s)
  | .registerUnchanged info, s => some (s.registerUnchanged info)
  | .registerPeer info, s => some (s.registerPeer suite node info)
  | .removePeer nodeId p, s => some (s.removePeer nodeId p)
  | .allocate info online, s => some (s.allocate suite node info online)
  | .replacePeers routes replacement, s =>
    some (s.peers, { s with routes, peers := replacement })
  | .validateOutbound packet, s => some (s.routes.validateOutbound packet, s)
  | .routeBatch packets, s => some (packets.map s.routePacket, s)
  | .areLocal addresses, s => some (addresses.map s.routes.isLocal, s)
  | .sessionPeer sessionId, s => some (s.sessions.lookup sessionId, s)
  | .establish p sessionId path cipher expected handshake, s =>
    some (s.establish node e p sessionId path cipher expected handshake)
  | .insertSession sessionId p, s =>
    some ((), { s with sessions := s.sessions.insert sessionId p })
  | .removeSession p sessionId, s => some ((), s.removeSession p sessionId)
  | .sessionCipher p sessionId, s => some (s.sessionCipher p sessionId)
  | .initiate p path sessionId, s => some (s.initiate suite node e p path sessionId)
  | .finishHandshake p sessionId message sender info, s =>
    some (s.finishHandshake suite p sessionId message sender info)
  | .nextReconnect p, s => some (s.nextReconnect node p)
  | .spawn task, s => some ((), { s with spawned := task :: s.spawned })
  | .trySend worker packet, s =>
    if dataWorkerQueueLimit ≤ (s.dataQueues worker).length then some (false, s)
    else some (true, s.setQueue worker (s.dataQueues worker ++ [packet]))
  | .recvMany worker, s =>
    if s.dataQueues worker = [] then none
    else
      let received := max 1 (min e.sent dataWorkerBatchSize)
      some ((s.dataQueues worker).take received, s.setQueue worker ((s.dataQueues worker).drop received))
  | .sendTo target datagram, s => some (s.sendTo e target datagram)
  | .sendPacket target packetType sessionId sequence payload, s =>
    some (s.sendPacket e target packetType sessionId sequence payload)
  | .sendBatch datagrams, s =>
    match e.fault with
    | some error => some (.error error, s)
    | none => some (.ok e.sent, { s with
        datagrams := (datagrams.take e.sent).reverse ++ s.datagrams })
  | .emit event, s =>
    some (e.accepts, if e.accepts then { s with events := event :: s.events } else s)
  | .deliver delivery, s =>
    some (e.accepts, if e.accepts then { s with
        events := .ipPacket delivery.peer delivery.packet :: s.events
        delivered := delivery :: s.delivered } else s)
  | .encryptPacket encryption, s => some ((), { s with encrypted := encryption :: s.encrypted })
  | .worker, s => some (e.fault.map IoError.message, s)
  | .wait, s => some (e.accepts, s)
  | .count counter amount, s => some ((), { s with receive := s.receive.add amount counter })
  | .never, _ => none

end Execution

/-- All sections of an operation read the clock at the same time. -/
def execAt (suite : Suite) (node : Node) (now : UInt64) (e : Env) :
    (c : Section) → NodeState → Option (Response c × NodeState) :=
  exec suite node { e with unixTime := now }

end Vela.Core
