import Vela.Core.Replay
import Vela.Crypto.Session
import Vela.Ip.Packet

/-!
# The types of the node

`vela-core`: errors and events, the state of a session with its path and MTU search, the state of a
peer and of a connection attempt.  Times of the monotonic clock are nanoseconds; `usize` values are
natural numbers.
-/

namespace Vela.Core

open Vela.Proto Vela.Crypto Vela.Ip

abbrev Instant := ℕ
abbrev Duration := ℕ

def millis (n : ℕ) : Duration := n * 10 ^ 6
def secs (n : ℕ) : Duration := n * 10 ^ 9

/-- `Duration::as_secs` -/
def asSecs (d : Duration) : UInt64 := UInt64.ofNat (d / 10 ^ 9)

/-! ### Errors and events -/

inductive IoErrorKind where
  | brokenPipe
  | writeZero
  | other
  /-- an error of the operating system -/
  | os (code : ℕ)
  deriving DecidableEq

structure IoError where
  kind : IoErrorKind
  message : String
  deriving DecidableEq

inductive CoreError where
  | io (error : IoError)
  | protocol (error : ProtoError)
  | crypto (error : CryptoError)
  | ip (error : IpError)
  | unknownPeer (nodeId : NodeId)
  | invalidPeer
  | invalidProbe
  | invalidHandshake
  | invalidDiagnosticPing
  | invalidKeepAlive
  | invalidMtuProbe
  | snapshotExpired
  | networkMismatch
  | staleSnapshot
  | localPeerMissing
  | localAddressMissing
  | peerCredentialExpired
  deriving DecidableEq

inductive SendError where
  | unknownPeer
  | wrongPeer
  | queueFull
  | packetTooLarge
  | snapshotExpired
  | ip (error : IpError)
  | io (error : IoError)
  | protocol (error : ProtoError)
  | crypto (error : CryptoError)
  deriving DecidableEq

inductive ConnectError where
  | notStarted
  | unknownPeer
  | noCandidates
  | timeout
  | superseded
  /-- `Core(CoreError::SnapshotExpired)`, the only error of the node that `connect` passes on -/
  | snapshotExpired
  deriving DecidableEq

def ConnectError.toText : ConnectError → String
  | .notStarted => "node has not been started"
  | .unknownPeer => "unknown peer"
  | .noCandidates => "peer has no candidates"
  | .timeout => "connection timed out"
  | .superseded => "connection attempt was superseded by a newer peer state"
  | .snapshotExpired => "core error: network snapshot has expired"

/-- The errors of `send_packet`. -/
inductive PacketError where
  | io (error : IoError)
  | payloadTooLarge
  | lengthMismatch
  deriving DecidableEq

def PacketError.toCore : PacketError → CoreError
  | .io error => .io error
  | .payloadTooLarge => .protocol .payloadTooLarge
  | .lengthMismatch => .protocol .lengthMismatch

def PacketError.toText : PacketError → String
  | .io error => "I/O error: " ++ error.message
  | .payloadTooLarge => "protocol error: payload too large"
  | .lengthMismatch => "protocol error: packet length mismatch"

inductive VelaEvent where
  | peerConnecting (nodeId : NodeId)
  | peerConnectionRequested (nodeId : NodeId)
  | peerConnected (nodeId : NodeId)
  | peerDisconnected (nodeId : NodeId)
  | peerReconnectRequested (nodeId : NodeId)
  | peerUnreachable (nodeId : NodeId)
  | pathChanged (nodeId : NodeId) (path : SocketAddr)
  | pathMtuChanged (peer : NodeId) (path : SocketAddr) (mtu : ℕ)
  | ipPacket (peer : NodeId) (packet : IpPacket)
  deriving DecidableEq

/-! ### The configuration -/

structure NodeConfig where
  maxPayloadSize : ℕ
  perPeerQueueLimit : ℕ
  keepaliveInterval : Duration
  connectTimeout : Duration
  reconnectBackoff : Duration
  serverPublicKey : Option (Vector UInt8 32)
  networkId : Vector UInt8 16
  virtualIpv4 : Option Ipv4Addr
  virtualIpv6 : Option Ipv6Addr
  virtualMtu : ℕ

def defaultVirtualMtu : ℕ := 1190

/-- What does not change while the node runs. -/
structure Node where
  identity : Identity
  incarnation : UInt64
  config : NodeConfig
  /-- `data_senders.len()` -/
  dataWorkers : ℕ

def Node.nodeId (suite : Suite) (node : Node) : NodeId :=
  (node.identity.publicIdentity suite).nodeId

/-- The order of node ids, strict. -/
def nodeIdLt (a b : NodeId) : Bool := !decide (b.le a)

def Node.safeVirtualMtu (node : Node) : ℕ := min node.config.virtualMtu defaultVirtualMtu

/-! ### The search for the path MTU -/

abbrev mtuProbeNonceLen : ℕ := 16
def mtuProbeTimeout : Duration := millis 500
def mtuProbeStep : ℕ := 64
def mtuProbeMaxFailures : ℕ := 3
def mtuProbeMinGain : ℕ := 8

structure PendingMtuProbe where
  target : ℕ
  nonce : Vector UInt8 mtuProbeNonceLen
  sentAt : Instant
  failures : ℕ
  deriving DecidableEq

structure PathMtuState where
  confirmed : ℕ
  upper : ℕ
  next : Option ℕ
  pending : Option PendingMtuProbe
  deriving DecidableEq

def nextMtuProbe (confirmed upper : ℕ) : Option ℕ :=
  if upper ≤ confirmed + mtuProbeMinGain then none
  else
    let midpoint := confirmed + (upper - confirmed) / 2
    if confirmed < midpoint then some midpoint else none

namespace PathMtuState

def new (base maximum : ℕ) : PathMtuState :=
  let base := min base maximum
  { confirmed := base
    upper := maximum
    next := if base < maximum then some (min (base + mtuProbeStep) maximum) else none
    pending := none }

def reset (state : PathMtuState) (base maximum : ℕ) : Bool × PathMtuState :=
  let fresh := new base maximum
  (fresh.confirmed != state.confirmed, fresh)

/-- The part of `poll_probe` after a pending probe was dealt with; `nonce` is freshly drawn. -/
def startProbe (state : PathMtuState) (now : Instant) (nonce : Vector UInt8 mtuProbeNonceLen) :
    Option (ℕ × Vector UInt8 mtuProbeNonceLen) × PathMtuState :=
  match state.next with
  | none => (none, state)
  | some target =>
    (some (target, nonce),
      { state with next := none, pending := some { target, nonce, sentAt := now, failures := 0 } })

def pollProbe (state : PathMtuState) (now : Instant) (nonce : Vector UInt8 mtuProbeNonceLen) :
    Option (ℕ × Vector UInt8 mtuProbeNonceLen) × PathMtuState :=
  match state.pending with
  | none => state.startProbe now nonce
  | some pending =>
    if now - pending.sentAt < mtuProbeTimeout then (none, state)
    else if pending.failures + 1 < mtuProbeMaxFailures then
      (some (pending.target, pending.nonce),
        { state with pending := some { pending with failures := pending.failures + 1, sentAt := now } })
    else
      let upper := min state.upper (pending.target - 1)
      { state with upper, pending := none, next := nextMtuProbe state.confirmed upper }.startProbe
        now nonce

def acknowledge (state : PathMtuState) (nonce : List UInt8) (peerMaxMtu : ℕ) :
    Option ℕ × PathMtuState :=
  match state.pending with
  | none => (none, state)
  | some pending =>
    if nonce ≠ pending.nonce.toList then (none, state)
    else
      let after :=
        if peerMaxMtu < pending.target then
          let upper := min state.upper peerMaxMtu
          { state with pending := none, upper, confirmed := min peerMaxMtu upper, next := none }
        else
          let confirmed := max state.confirmed pending.target
          { state with
            pending := none
            confirmed
            next := if confirmed < state.upper then some (min (confirmed + mtuProbeStep) state.upper)
              else none }
      (if after.confirmed ≠ state.confirmed then some after.confirmed else none, after)

end PathMtuState

/-! ### Sessions -/

def pathMigrationConfirmations : ℕ := 3
def pathMigrationWindow : Duration := secs 2

structure PendingPathMigration where
  path : SocketAddr
  confirmations : ℕ
  lastSeen : Instant
  deriving DecidableEq

/-- `confirm_path_migration`: whether the path changes, and the pending migration afterwards. -/
def confirmPathMigration (currentPath : SocketAddr) (pendingPath : Option PendingPathMigration)
    (source : SocketAddr) (now : Instant) : Bool × Option PendingPathMigration :=
  if source = currentPath then (false, pendingPath)
  else
    let pending : PendingPathMigration :=
      match pendingPath with
      | some pending =>
        if pending.path = source ∧ now - pending.lastSeen ≤ pathMigrationWindow then
          { pending with confirmations := min (pending.confirmations + 1) 255, lastSeen := now }
        else { path := source, confirmations := 1, lastSeen := now }
      | none => { path := source, confirmations := 1, lastSeen := now }
    if pending.confirmations < pathMigrationConfirmations then (false, some pending)
    else (true, none)

abbrev keepaliveNonceLen : ℕ := 16
abbrev diagnosticNonceLen : ℕ := 16

structure ActiveSession where
  sessionId : UInt64
  path : SocketAddr
  pendingPath : Option PendingPathMigration
  cipher : SessionCipher
  txSequence : UInt64
  replay : ReplayWindow
  /-- the nonces of diagnostic pings that are waited for -/
  pingWaiters : List (Vector UInt8 diagnosticNonceLen)
  pendingKeepalive : Option (Vector UInt8 keepaliveNonceLen × Instant)
  lastRx : Instant
  createdAtUnix : UInt64
  createdAt : Instant
  pathChangedAt : Option UInt64
  lastRttMs : Option UInt64
  txBytes : UInt64
  rxBytes : UInt64
  pathMtu : PathMtuState
  /-- history: the record that `establish` was called with -/
  madeFor : PeerInfo
  /-- history: the Noise handshake that the keys come from -/
  handshake : NoiseHandshake
  deriving DecidableEq

namespace ActiveSession

def observeDataSource (session : ActiveSession) (source : SocketAddr) (now : Instant) :
    Bool × ActiveSession :=
  let (changed, pendingPath) := confirmPathMigration session.path session.pendingPath source now
  if changed then (true, { session with path := source, pendingPath })
  else (false, { session with pendingPath })

def needsRekey (session : ActiveSession) (now : Instant) : Bool :=
  decide (secs 3600 ≤ now - session.createdAt) || decide (2 ^ 30 ≤ session.txBytes.toNat)

end ActiveSession

/-! ### Peers -/

inductive PeerCandidateState where
  | pending
  | sent
  | responded
  | failed
  deriving DecidableEq

structure PeerCandidateAttempt where
  candidate : Candidate
  state : PeerCandidateState
  lastSentAt : Option UInt64
  respondedAt : Option UInt64
  error : Option String
  deriving DecidableEq

def PeerCandidateAttempt.new (candidate : Candidate) : PeerCandidateAttempt where
  candidate := candidate
  state := .pending
  lastSentAt := none
  respondedAt := none
  error := none

structure Attempt where
  sessionId : UInt64
  handshake : Option NoiseHandshake
  handshakePayload : Option (List UInt8)
  handshakePath : Option SocketAddr
  lastHandshakeAt : Option Instant
  startedAt : UInt64
  timeoutAt : UInt64
  candidates : List PeerCandidateAttempt
  deriving DecidableEq

def handshakeRetryInterval : Duration := millis 250

structure ReconnectState where
  requested : Bool
  running : Bool
  attempts : ℕ
  deriving DecidableEq

def maxReconnectAttempts : ℕ := 5

structure PeerPathChange where
  path : SocketAddr
  candidateType : String
  changedAt : UInt64
  deriving DecidableEq

structure PeerFailureStatus where
  reason : String
  occurredAt : UInt64
  deriving DecidableEq

structure PeerReceiveCounters where
  workerDataPackets : ℕ
  decryptFailures : ℕ
  replayDrops : ℕ
  ipParseFailures : ℕ
  invalidDestinations : ℕ
  acceptedIpPackets : ℕ
  eventQueueDrops : ℕ
  deriving DecidableEq

/-- `Arc<PeerState>`: the allocation, and the one field that never changes. -/
structure PeerRef where
  address : ℕ
  nodeId : NodeId
  deriving DecidableEq

structure PeerState where
  info : PeerInfo
  membershipExpiresAt : UInt64
  online : Bool
  lastFailure : Option PeerFailureStatus
  pathHistory : List PeerPathChange
  /-- the mutex `connect` is held -/
  connect : Bool
  connecting : Bool
  attempt : Option Attempt
  active : Option ActiveSession
  reconnect : ReconnectState
  queue : List (List UInt8)
  receive : PeerReceiveCounters
  deriving DecidableEq

def candidateType (candidates : List Candidate) (address : SocketAddr) : String :=
  match candidates.find? fun candidate => candidate.address == address with
  | some (.host _) => "host"
  | some (.serverReflexive _) => "server_reflexive"
  | some (.peerReflexive _) => "peer_reflexive"
  | none => "peer_reflexive"

/-- `record_path`: the history, oldest entry first, of at most 32 entries. -/
def PeerState.recordPath (peer : PeerState) (path : SocketAddr) (candidates : List Candidate)
    (now : UInt64) : PeerState :=
  if peer.pathHistory.getLast?.any fun previous => previous.path == path then peer
  else
    let history := peer.pathHistory ++
      [{ path, candidateType := candidateType candidates path, changedAt := now }]
    { peer with pathHistory := if 32 < history.length then history.tail else history }

end Vela.Core
