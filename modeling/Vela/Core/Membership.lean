import Vela.Core.Sections
import Vela.Lib.Pool

/-!
# Membership: peers come and go

`register_peer`, `remove_peer` and `apply_snapshot` of `vela-core` with what they call, as programs
over the sections of `Vela.Core.Sections`.
-/

namespace Vela.Core

open Vela.Proto Vela.Crypto Vela.Ip

/-- Programs of the node that always return. -/
abbrev Task := Prog Section Response

/-- Programs of the node that may fail; `?` is the monad's bind. -/
abbrev NodeM (ε : Type) := ExceptT ε Task

variable (suite : Suite) (node : Node)

/-! ### Calls -/

/-- One section. -/
def call (c : Section) : Task (Response c) := Prog.call c

/-- One section of a peer. -/
def peerCall (p : PeerRef) (op : PeerOp) : Task op.Response := Prog.call (Section.peer p op)

/-- A program that cannot fail. -/
def lift {ε α : Type} (p : Task α) : NodeM ε α := ExceptT.lift p

/-- A computation without a section. -/
def ofExcept {ε α : Type} (r : Except ε α) : NodeM ε α := ExceptT.mk (.ret r)

/-- `option.ok_or(error)?` -/
def okOr {ε α : Type} (o : Option α) (error : ε) : NodeM ε α :=
  ofExcept (match o with
    | some a => .ok a
    | none => .error error)

/-- `if condition { .. }` -/
def when (condition : Bool) (p : Task PUnit) : Task PUnit := if condition then p else pure ()

/-- `if let Some(a) = o { .. }` -/
def whenSome {α : Type} (o : Option α) (f : α → Task PUnit) : Task PUnit :=
  match o with
  | some a => f a
  | none => pure ()

def emit (event : VelaEvent) : Task PUnit := do
  let _ ← call (.emit event)

/-- `validate_peer_membership` -/
def validatePeerMembership (info : PeerInfo) : NodeM CoreError Unit :=
  match node.config.serverPublicKey with
  | none => pure ()
  | some key => do
    let now ← lift (call .unixTime)
    ofExcept (validateCredential suite info key now)

/-! ### Sessions end -/

/-- What `invalidate_session_if` does once the session is taken; `sessionId` is that of the session,
if there was one. -/
def afterInvalidation (p : PeerRef) (sessionId : Option UInt64) (requestReconnect : Bool) :
    Task PUnit := do
  whenSome sessionId fun id => call (.removeSession p id)
  let hadAttempt ← peerCall p .takeAttempt
  peerCall p .clearQueue
  when (requestReconnect && (sessionId.isSome || hadAttempt)) (peerCall p .requestReconnect)
  peerCall p (.setConnecting false)
  when sessionId.isSome do
    let info ← peerCall p .info
    emit (.peerDisconnected info.nodeId)

def invalidateSessionIf (p : PeerRef) (expected : Option UInt64) (requestReconnect : Bool) :
    Task PUnit := do
  match ← peerCall p (.takeActive expected) with
  | none => pure ()
  | some sessionId => afterInvalidation p sessionId requestReconnect

def invalidateSession (p : PeerRef) (requestReconnect : Bool) : Task PUnit :=
  invalidateSessionIf p none requestReconnect

/-- What `register_peer` and `remove_peer` do to a peer that left the table: whether a session was
closed. -/
def retirePeer (p : PeerRef) : Task Bool := do
  peerCall p (.setOnline false)
  peerCall p .dropReconnect
  let taken ← peerCall p (.takeActive none)
  whenSome taken.join fun id => call (.removeSession p id)
  peerCall p .clearAttempt
  peerCall p .clearQueue
  return taken.join.isSome

def scheduleReconnect (p : PeerRef) : Task PUnit := do
  let started ← call .started
  when started do
    let stopping ← call .stopping
    when (!stopping) do
      let online ← peerCall p .online
      when online do
        let start ← peerCall p .startReconnect
        when start do
          let info ← peerCall p .info
          emit (.peerReconnectRequested info.nodeId)
          call (.spawn (.reconnect p))

/-! ### Single peers -/

/-- `register_peer` with a new or changed record. -/
def replacePeer (info : PeerInfo) : Task PUnit := do
  let previous ← call (.registerPeer info)
  whenSome previous fun p => do
    let previousInfo ← peerCall p .info
    let disconnected ← retirePeer p
    when disconnected (emit (.peerDisconnected previousInfo.nodeId))

def registerPeer (info : PeerInfo) : NodeM CoreError Unit := do
  ofExcept (validatePeerInfo suite info)
  validatePeerMembership suite node info
  let unchanged ← lift (call (.registerUnchanged info))
  lift (when (!unchanged) (replacePeer info))

/-- `remove_peer` once it holds the mutex `connect`. -/
def removePeerLocked (nodeId : NodeId) (p : PeerRef) : Task Bool := do
  let removed ← call (.removePeer nodeId p)
  when removed do
    let _ ← retirePeer p
    emit (.peerDisconnected nodeId)
  return removed

def removePeer (nodeId : NodeId) : Task Bool := do
  match ← call (.peerFor nodeId) with
  | none => return false
  | some p => do
    call (.lockConnect p)
    let removed ← removePeerLocked nodeId p
    peerCall p .unlockConnect
    return removed

/-! ### Snapshots -/

/-- The fields that a session depends on. -/
def sameIdentity (previous next : PeerInfo) : Bool :=
  previous.nodeId == next.nodeId && previous.incarnation == next.incarnation &&
    previous.signingPublic == next.signingPublic && previous.noisePublic == next.noisePublic &&
    previous.virtualIpv4 == next.virtualIpv4 && previous.virtualIpv6 == next.virtualIpv6

def canRetainSession (p : PeerRef) (next : PeerInfo) : Task Bool := do
  let previous ← peerCall p .info
  if sameIdentity previous next then do
    match ← peerCall p .active with
    | some (_, path) =>
      return previous.candidates == next.candidates ||
        next.candidates.any fun candidate => candidate.address == path
    | none => do
      let attempt ← peerCall p .attempt
      return attempt.isNone || previous.candidates == next.candidates
  else return false

def updateInfo (p : PeerRef) (info : PeerInfo) : Task PUnit := do
  peerCall p (.storeMembership (membershipExpiresAt suite info node.config.serverPublicKey))
  peerCall p (.storeInfo info)

/-- A peer that stays: whether it is to be reconnected. -/
def retainPeer (p : PeerRef) (info : PeerInfo) (online : Bool) : Task Bool := do
  let retain ← canRetainSession p info
  when (!retain) (invalidateSession p true)
  updateInfo suite node p info
  peerCall p (.setOnline online)
  if online then peerCall p .resumeReconnect else return false

/-- What the loop of `apply_snapshot` has built. -/
structure Replacement where
  peers : PeerTable
  reconnectPeers : List PeerRef
  reconnectIds : List NodeId

def Replacement.retain (acc : Replacement) (nodeId : NodeId) (p : PeerRef) (reconnect : Bool) :
    Replacement :=
  let peers := acc.peers.insert nodeId p
  if reconnect && !acc.reconnectIds.contains nodeId then
    { peers, reconnectPeers := acc.reconnectPeers ++ [p], reconnectIds := nodeId :: acc.reconnectIds }
  else { acc with peers }

lemma Replacement.retain_peers (acc : Replacement) (nodeId : NodeId) (p : PeerRef)
    (reconnect : Bool) : (acc.retain nodeId p reconnect).peers = acc.peers.insert nodeId p := by
  unfold Replacement.retain
  dsimp only
  split <;> rfl

/-- One iteration for a peer that is not the node itself. -/
def snapshotRemote (onlinePeers : List NodeId) (oldPeers : PeerTable) (acc : Replacement)
    (info : PeerInfo) : Task Replacement := do
  let online := onlinePeers.contains info.nodeId
  match oldPeers.lookup info.nodeId with
  | some p => do
    let reconnect ← retainPeer suite node p info online
    return acc.retain info.nodeId p reconnect
  | none => do
    let p ← call (.allocate info online)
    return { acc with peers := acc.peers.insert info.nodeId p }

def snapshotPeers (onlinePeers : List NodeId) (oldPeers : PeerTable) :
    Replacement → List PeerInfo → NodeM CoreError Replacement
  | acc, [] => pure acc
  | acc, info :: rest => do
    ofExcept (validatePeerInfo suite info)
    validatePeerMembership suite node info
    if info.nodeId = node.nodeId suite then snapshotPeers onlinePeers oldPeers acc rest
    else do
      let acc ← lift (snapshotRemote suite node onlinePeers oldPeers acc info)
      snapshotPeers onlinePeers oldPeers acc rest

def snapshotRoutes : RouteTable → List PeerRef → Task RouteTable
  | routes, [] => pure routes
  | routes, p :: rest => do
    let info ← peerCall p .info
    snapshotRoutes (NodeState.insertRoutes routes info) rest

/-- The peers that are not in the snapshot any more. -/
def dropPeers (replacement : PeerTable) : List (Sigma fun _ : NodeId => PeerRef) → Task PUnit
  | [] => pure ()
  | entry :: rest => do
    when (replacement.lookup entry.1).isNone do
      peerCall entry.2 (.setOnline false)
      peerCall entry.2 .dropReconnect
      invalidateSession entry.2 false
    dropPeers replacement rest

def verifySignature (snapshot : NetworkSnapshot) : NodeM CoreError Unit :=
  match node.config.serverPublicKey with
  | none => pure ()
  | some key => do
    let now ← lift (call .unixTime)
    ofExcept ((verifySnapshot suite.toPrimitives snapshot key now).mapError CoreError.crypto)

/-- The checks on the snapshot itself: its content, its expiry and its network. -/
def checkSnapshot (snapshot : NetworkSnapshot) (now : UInt64) : Except CoreError Unit := do
  (snapshot.validate suite.blake3).mapError CoreError.protocol
  if snapshot.expiresAt ≤ now then throw .snapshotExpired
  if node.config.networkId ≠ Vector.replicate 16 0 ∧ node.config.networkId ≠ snapshot.networkId then
    throw .networkMismatch

/-- The checks against the applied generation, and the node's own record. -/
def localRecord (snapshot : NetworkSnapshot) (currentGeneration : UInt64) :
    Except CoreError PeerInfo := do
  if snapshot.generation < currentGeneration then throw .staleSnapshot
  match snapshot.peers.find? fun peer => peer.nodeId = node.nodeId suite with
  | none => throw .localPeerMissing
  | some info =>
    validatePeerInfo suite info
    if (virtualAddresses info.virtualIpv4 info.virtualIpv6).isEmpty then throw .localAddressMissing
    return info

/-- `apply_snapshot` after all peers are prepared. -/
def installSnapshot (snapshot : NetworkSnapshot) (info : PeerInfo) (replacement : Replacement) :
    Task PUnit := do
  let peers := replacement.peers.entries.map Sigma.snd
  let routes ← snapshotRoutes
    (RouteTable.new (virtualAddresses info.virtualIpv4 info.virtualIpv6)) peers
  let oldPeers ← call (.replacePeers routes replacement.peers)
  call (.storeNetworkId snapshot.networkId)
  call (.storeLocalIpv4 info.virtualIpv4)
  call (.storeLocalIpv6 info.virtualIpv6)
  call (.storeGeneration snapshot.generation)
  call (.storeExpiresAt snapshot.expiresAt)
  dropPeers replacement.peers oldPeers.entries
  replacement.reconnectPeers.forM scheduleReconnect

/-- `apply_snapshot` once it holds the mutex `snapshot_update`. -/
def applySnapshotLocked (snapshot : NetworkSnapshot) : NodeM CoreError Unit := do
  verifySignature suite node snapshot
  let now ← lift (call .unixTime)
  ofExcept (checkSnapshot suite node snapshot now)
  let currentGeneration ← lift (call .snapshotGeneration)
  let info ← ofExcept (localRecord suite node snapshot currentGeneration)
  let oldPeers ← lift (call .peerTable)
  let replacement ← snapshotPeers suite node snapshot.onlinePeers oldPeers ⟨∅, [], []⟩ snapshot.peers
  lift (installSnapshot snapshot info replacement)

def applySnapshot (snapshot : NetworkSnapshot) : NodeM CoreError Unit := ExceptT.mk do
  call .lockSnapshotUpdate
  let result ← (applySnapshotLocked suite node snapshot).run
  call .unlockSnapshotUpdate
  return result

end Vela.Core
