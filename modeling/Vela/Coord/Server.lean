import Vela.Coord.Sections
import Vela.Lib.Pool

/-!
# The coordinator's operations

The functions of `vela-coord` as programs over the sections of `Vela.Coord.State`: the handling of
every control message, a connection from its first message to its end, revocation and deletion of a
peer, a change of the network configuration, and the broadcast loop.
-/

namespace Vela.Coord

open Vela.Proto Vela.Crypto

/-- Programs of the coordinator that always return. -/
abbrev Task := Prog Section Response

/-- Programs of the coordinator that may fail; `?` is the monad's bind. -/
abbrev CoordM := ExceptT CoordError Task

variable (prim : Primitives) (server : Server)

/-! ### The sections as calls -/

/-- One section. -/
def call (c : Section) : Task (Response c) := Prog.call c

/-- A section whose response is a `Result`. -/
def attempt {α : Type} (p : Task (Except CoordError α)) : CoordM α := ExceptT.mk p

def unixTime : CoordM UInt64 := ExceptT.lift (call .unixTime)

def registerWithInvite (nodeId : NodeId) (signingPublic noisePublic : Vector UInt8 32)
    (token : String) : CoordM InviteRegistration :=
  attempt (call (.registerWithInvite nodeId signingPublic noisePublic token))

def selectCredential (nodeId : NodeId) : CoordM (Option (List UInt8)) :=
  attempt (call (.selectCredential nodeId))

def loadPeer (nodeId : NodeId) : CoordM (Option StoredPeer) := attempt (call (.loadPeer nodeId))

def loadPeers : CoordM (List StoredPeer) := attempt (call .loadPeers)

def allocateVirtualIpv4 (nodeId : NodeId) : CoordM Ipv4Addr :=
  attempt (call (.allocateVirtualIpv4 nodeId))

def updatePeer (peer : StoredPeer) : CoordM Unit := attempt (call (.updatePeer peer))

def updatePeerMetadata (nodeId : NodeId) (name notes : String) : CoordM Bool :=
  attempt (call (.updatePeerMetadata nodeId name notes))

def touchPeer (nodeId : NodeId) : CoordM Unit := attempt (call (.touchPeer nodeId))

def bumpSnapshot : CoordM Unit := attempt (call .bumpSnapshot)

def networkConfig : CoordM ServerNetworkConfig := attempt (call .networkConfig)

def loadGeneration : CoordM UInt64 := ExceptT.lift (call .loadGeneration)

def onlineInsert (nodeId : NodeId) (connection : UInt64) : CoordM Bool :=
  ExceptT.lift (call (.onlineInsert nodeId connection))

def onlinePeerIds : CoordM (List NodeId) := ExceptT.lift (call .onlinePeerIds)

def onlineSessions (nodeId : NodeId) : CoordM (List UInt64) :=
  ExceptT.lift (call (.onlineSessions nodeId))

def listPeers : CoordM (List StoredPeer × List NodeId) := attempt (call .listPeers)

/-- `outbound.send(message).await`: whether the connection's channel took the message. -/
def trySend (connection : UInt64) (message : ControlMessage) : CoordM Bool :=
  ExceptT.lift (call (.send connection message))

/-- `outbound.send(message).await.map_err(|_| CoordError::ConnectionClosed)?` -/
def send (connection : UInt64) (message : ControlMessage) : CoordM Unit := do
  if !(← trySend connection message) then throw .connectionClosed

def runtimeInsert (nodeId : NodeId) (connection : UInt64) (virtualMtu : UInt16) : CoordM Unit :=
  ExceptT.lift (call (.runtimeInsert nodeId connection virtualMtu))

/-- A computation without a section. -/
def ofExcept {α : Type} (r : Except CoordError α) : CoordM α := ExceptT.mk (.ret r)

/-- `option.ok_or(error)?` -/
def okOr {α : Type} (o : Option α) (error : CoordError) : CoordM α :=
  ofExcept (match o with
    | some a => .ok a
    | none => .error error)

/-! ### Helpers -/

def decodeKey (value : String) : Except CoordError (Vector UInt8 32) :=
  match (prim.base64Decode value).bind (toArray? 32) with
  | none => .error .invalidPeer
  | some key => .ok key

def publicPeer (peer : StoredPeer) : PublicPeerInfo where
  nodeId := peer.nodeId
  incarnation := peer.incarnation
  signingPublic := prim.base64Encode peer.signingPublic.toList
  noisePublic := prim.base64Encode peer.noisePublic.toList
  candidates := peer.candidates
  virtualIpv4 := peer.virtualIpv4
  virtualIpv6 := peer.virtualIpv6
  credential := prim.base64Encode peer.credential
  capabilities := peer.capabilities

def privatePeer (peer : StoredPeer) : PeerInfo where
  nodeId := peer.nodeId
  incarnation := peer.incarnation
  signingPublic := peer.signingPublic
  noisePublic := peer.noisePublic
  candidates := peer.candidates
  virtualIpv4 := peer.virtualIpv4
  virtualIpv6 := peer.virtualIpv6
  credential := peer.credential
  capabilities := peer.capabilities

/-- `network_id`: the first half of the tenant's hash. -/
def networkId : Vector UInt8 16 :=
  ((prim.blake3 (stringBytes server.tenant)).extract 0 16)

def networkSnapshot (onlinePeers : List NodeId) : CoordM NetworkSnapshot := do
  let peers := (← loadPeers).map privatePeer
  let config ← networkConfig
  let generation ← loadGeneration
  let now ← unixTime
  return server.signer.signSnapshot prim
    { networkId := networkId prim server
      generation := generation
      virtualIpv4 := some { address := ipv4OfNat virtualIpv4NetworkBase, prefixLen := 16 }
      virtualIpv6 := none
      dohServers := config.dohServers
      stunServers := config.stunServers
      peers := peers
      onlinePeers := onlinePeers
      expiresAt := saturatingAdd now 3600
      signature := [] }

def broadcastSnapshot : CoordM Unit := do
  let shouldStart ← ExceptT.lift (call .broadcastSchedule)
  if shouldStart then ExceptT.lift (call .broadcastSpawn)

/-! ### Control messages -/

/-- The checks of `Register` on a presented credential. -/
def checkCredential (request : Registration) (signingPublic noisePublic : Vector UInt8 32)
    (credential : MembershipCredential) (now : UInt64) : Except CoordError Unit :=
  match credential.verify prim (server.signer.publicKey prim) now with
  | .error _ => .error .invalidCredential
  | .ok _ =>
    if credential.nodeId ≠ request.nodeId ∨ credential.signingPublic ≠ signingPublic ∨
        credential.noisePublic ≠ noisePublic ∨ credential.tenant ≠ server.tenant then
      .error .invalidCredential
    else .ok ()

/-- The credential that `Register` stores: a new one for an invite, else the one already stored for
the node, once the presented one has passed the checks. -/
def registerCredential (request : Registration) (signingPublic noisePublic : Vector UInt8 32) :
    CoordM (List UInt8 × Option InviteRegistration) :=
  if request.credential.isEmpty then do
    let token ← okOr request.inviteToken .inviteRequired
    let registration ← registerWithInvite request.nodeId signingPublic noisePublic token
    return (prim.credentialToJson registration.credential, some registration)
  else do
    let bytes ← okOr (prim.base64Decode request.credential) .invalidCredential
    let credential ← okOr (prim.credentialOfJson bytes) (.serialization "credential")
    let now ← unixTime
    ofExcept (checkCredential prim server request signingPublic noisePublic credential now)
    let stored ← okOr (← selectCredential request.nodeId) .peerNotRegistered
    return (stored, none)

/-- Whether `Register` changes what other peers see. -/
def peerChanged (previous : Option StoredPeer) (peer : StoredPeer) : Bool :=
  match previous with
  | none => true
  | some previous =>
    previous.incarnation != peer.incarnation || previous.candidates != peer.candidates ||
      previous.signingPublic != peer.signingPublic || previous.noisePublic != peer.noisePublic

/-- The second half of `Register`: the row is stored, the connection is entered and answered. -/
def completeRegister (connection : UInt64) (peer : StoredPeer) (previousPeer : Option StoredPeer) :
    CoordM (Option NodeId) := do
  touchPeer peer.nodeId
  bumpSnapshot
  let wasOnline ← onlineInsert peer.nodeId connection
  let peers := ((← loadPeers).filter fun other => other.nodeId != peer.nodeId).map (publicPeer prim)
  let snapshot ← networkSnapshot prim server (← onlinePeerIds)
  send connection (.registerOk (prim.base64Encode peer.credential) peers snapshot)
  if !wasOnline || peerChanged previousPeer peer then broadcastSnapshot
  return some peer.nodeId

def handleRegister (connection : UInt64) (request : Registration) : CoordM (Option NodeId) := do
  let signingPublic ← ofExcept (decodeKey prim request.signingPublic)
  let noisePublic ← ofExcept (decodeKey prim request.noisePublic)
  ofExcept (if nodeIdOf prim signingPublic ≠ request.nodeId then .error .invalidPeer else .ok ())
  let (storedCredential, invite) ← registerCredential prim server request signingPublic noisePublic
  let previousPeer ← loadPeer request.nodeId
  -- allocated in every case: the argument of `or` is evaluated first
  let allocated ← allocateVirtualIpv4 request.nodeId
  let peer : StoredPeer :=
    { nodeId := request.nodeId
      incarnation := request.incarnation
      name := ""
      signingPublic := signingPublic
      noisePublic := noisePublic
      candidates := request.candidates
      virtualIpv4 := (previousPeer.bind StoredPeer.virtualIpv4).or (some allocated)
      virtualIpv6 := none
      credential := storedCredential
      capabilities := request.capabilities
      lastSeen := (previousPeer.map StoredPeer.lastSeen).getD 0 }
  updatePeer peer
  match invite with
  | none => completeRegister prim server connection peer previousPeer
  | some registration => do
    let _ ← updatePeerMetadata request.nodeId registration.name registration.notes
    completeRegister prim server connection peer previousPeer

def handleUpdateCandidates (connection : UInt64) (registered : Option NodeId)
    (candidates : List Candidate) : CoordM (Option NodeId) := do
  let nodeId ← okOr registered .notRegistered
  let peer ← okOr (← loadPeer nodeId) .peerNotRegistered
  let candidatesChanged := peer.candidates != candidates
  updatePeer { peer with nodeId := nodeId, candidates := candidates }
  touchPeer nodeId
  if candidatesChanged then
    bumpSnapshot
    broadcastSnapshot
  else
    let snapshot ← networkSnapshot prim server (← onlinePeerIds)
    send connection (.snapshot snapshot)
  return registered

def handleLookupPeer (connection : UInt64) (registered : Option NodeId) (nodeId : NodeId) :
    CoordM (Option NodeId) := do
  let requester ← okOr registered .notRegistered
  let target ← okOr (← loadPeer nodeId) .peerNotRegistered
  let requesterInfo ← okOr (← loadPeer requester) .peerNotRegistered
  send connection (.peerInfo (publicPeer prim target))
  let targets ← onlineSessions nodeId
  targets.forM fun target => do
    let _ ← trySend target (.connectSignal (publicPeer prim requesterInfo) nodeId)
  return registered

def handleListPeers (connection : UInt64) (registered : Option NodeId) :
    CoordM (Option NodeId) := do
  let requester ← okOr registered .notRegistered
  let (stored, online) ← listPeers
  let peers := (stored.filter fun peer => peer.nodeId != requester).map fun peer =>
    { nodeId := peer.nodeId
      name := peer.name
      online := online.contains peer.nodeId
      lastSeen := if (0 : UInt64) < peer.lastSeen then some peer.lastSeen else none
      virtualIpv4 := peer.virtualIpv4
      virtualIpv6 := peer.virtualIpv6
      capabilities := peer.capabilities : PeerSummary }
  send connection (.listPeersOk peers)
  return registered

def handleMessage (connection : UInt64) (registered : Option NodeId) :
    ControlMessage → CoordM (Option NodeId)
  | .register request => handleRegister prim server connection request
  | .updateCandidates candidates =>
    handleUpdateCandidates prim server connection registered candidates
  | .runtimeStatus virtualMtu => do
    let nodeId ← okOr registered .notRegistered
    runtimeInsert nodeId connection virtualMtu
    return registered
  | .requestSnapshot => do
    let _ ← okOr registered .notRegistered
    let snapshot ← networkSnapshot prim server (← onlinePeerIds)
    send connection (.snapshotResponse snapshot)
    return registered
  | .lookupPeer nodeId => handleLookupPeer prim connection registered nodeId
  | .listPeers => handleListPeers connection registered
  | .ping nonce => do
    send connection (.pong nonce)
    return registered
  | .pong _ => do
    if let some nodeId := registered then touchPeer nodeId
    return registered
  | _ => throw .unsupportedMessage

section Rules

variable {Γ : Type} {next : Γ → (c : Section) → Response c → Γ} {ok : Γ → Section → Prop} {γ : Γ}
  {α β : Type} {f : α → CoordM β} {post : Γ → Except CoordError β → Prop}

lemma meets_ofExcept_bind {r : Except CoordError α}
    (hok : ∀ a, r = .ok a → (f a).run.Meets next ok post γ)
    (herror : ∀ e, r = .error e → post γ (.error e)) :
    (ofExcept r >>= f).run.Meets next ok post γ := by
  cases r with
  | ok a => exact hok a rfl
  | error e => exact herror e rfl

lemma meets_okOr_bind {o : Option α} {error : CoordError}
    (hok : ∀ a, o = some a → (f a).run.Meets next ok post γ) (herror : post γ (.error error)) :
    (okOr o error >>= f).run.Meets next ok post γ := by
  cases o with
  | some a => exact hok a rfl
  | none => exact herror

end Rules

/-! ### Connections -/

/-- What the reader of a WebSocket yields. -/
inductive Incoming where
  | text (message : ControlMessage)
  /-- a text that is no control message, with the parser's complaint -/
  | malformed (complaint : String)
  /-- any other frame -/
  | other

/-- The loop of `handle_socket`; it ends when the connection does. -/
def serveMessages (connection : UInt64) : Option NodeId → List Incoming → Task (Option NodeId)
  | registered, [] => pure registered
  | registered, .other :: rest => serveMessages connection registered rest
  | registered, .malformed complaint :: rest => do
    let _ ← call (.send connection (errorMessage "invalid_message" complaint))
    serveMessages connection registered rest
  | registered, .text message :: rest => do
    call (.recv connection message)
    match ← (handleMessage prim server connection registered message).run with
    | .ok nextRegistered => serveMessages connection nextRegistered rest
    | .error error =>
      let _ ← call (.send connection error.asControl)
      serveMessages connection registered rest

/-- The end of `handle_socket`: the connection leaves the maps of the node it last registered as. -/
def leave (connection : UInt64) (nodeId : NodeId) : Task PUnit := do
  let becameOffline ← call (.onlineLeave nodeId connection)
  call (.runtimeLeave nodeId connection)
  if becameOffline then
    match ← bumpSnapshot.run with
    | .ok _ => let _ ← broadcastSnapshot.run
    | .error _ => pure ()

def handleSocket (connection : UInt64) (messages : List Incoming) : Task PUnit := do
  match ← serveMessages prim server connection none messages with
  | some nodeId => leave connection nodeId
  | none => pure ()

/-! ### Revocation, deletion, broadcasts -/

def disconnectPeer (nodeId : NodeId) : CoordM Unit := do
  let senders ← ExceptT.lift (call (.onlineRemove nodeId))
  senders.forM fun connection => do
    let _ ← trySend connection (.revoke nodeId)

def revokePeerInner (nodeId : NodeId) : CoordM Bool := do
  let changed ← attempt (call (.revokeRow nodeId))
  if !changed then return false
  bumpSnapshot
  disconnectPeer nodeId
  broadcastSnapshot
  return true

def deletePeerInner (nodeId : NodeId) : CoordM Bool := do
  let changed ← attempt (call (.deleteRow nodeId))
  if !changed then return false
  bumpSnapshot
  disconnectPeer nodeId
  broadcastSnapshot
  return true

def updateNetworkConfig (config : ServerNetworkConfig) : CoordM Unit := do
  let changed ← attempt (call (.updateNetworkConfig config))
  if changed then
    bumpSnapshot
    broadcastSnapshot

def broadcastSnapshotNow : CoordM Unit := do
  let (senders, onlinePeers) ← ExceptT.lift (call .onlineSenders)
  let snapshot ← networkSnapshot prim server onlinePeers
  senders.forM fun connection => ExceptT.lift (call (.push connection snapshot))

/-- One round of `snapshot_broadcast_loop`, which spawns the next round where the source loops. -/
def snapshotBroadcastRound : Task PUnit := do
  let shouldBroadcast ← call .broadcastTake
  if shouldBroadcast then
    match ← (broadcastSnapshotNow prim server).run with
    | .ok _ => pure ()
    | .error _ => call .broadcastRetain
    let shouldContinue ← call .broadcastContinue
    if shouldContinue then call .broadcastSpawn

/-! ### Invites -/

/-- The two tokens and the id come from the random generator. -/
def createInvite (id inviteToken downloadToken name notes : String) (ttlSeconds : UInt64) :
    CoordM CreatedInvite := do
  let createdAt ← unixTime
  let expiresAt := saturatingAdd createdAt ttlSeconds
  attempt (call (.insertInvite (prim.blake3 (stringBytes inviteToken))
    { expiresAt := CoordState.toI64 expiresAt
      used := false
      id := id
      name := name
      notes := notes
      createdAt := CoordState.toI64 createdAt
      revoked := false
      downloadTokenHash := some (prim.blake3 (stringBytes downloadToken))
      downloadUsed := false }))
  return { id, inviteToken, downloadToken, name, notes, createdAt, expiresAt }

def consumeDownloadToken (token : String) : CoordM Bool := attempt (call (.consumeDownloadToken token))

/-- The query of the admin's `delete_invite`. -/
def deleteInvite (id : String) : CoordM Bool := attempt (call (.deleteInvite id))

/-! ### The server as a pool of tasks -/

inductive Request where
  | socket (connection : UInt64) (messages : List Incoming)
  | revoke (nodeId : NodeId)
  | delete (nodeId : NodeId)
  | configure (config : ServerNetworkConfig)
  | broadcastLoop
  /-- the admin's change of a name and notes -/
  | rename (nodeId : NodeId) (name notes : String)
  | invite (id inviteToken downloadToken name notes : String) (ttlSeconds : UInt64)
  | download (token : String)
  | deleteInvite (id : String)

def Request.body : Request → Task PUnit
  | .socket connection messages => handleSocket prim server connection messages
  | .revoke nodeId => do let _ ← (revokePeerInner nodeId).run
  | .delete nodeId => do let _ ← (deletePeerInner nodeId).run
  | .configure config => do let _ ← (updateNetworkConfig config).run
  | .broadcastLoop => snapshotBroadcastRound prim server
  | .rename nodeId name notes => do let _ ← (updatePeerMetadata nodeId name notes).run
  | .invite id inviteToken downloadToken name notes ttlSeconds => do
    let _ ← (createInvite prim id inviteToken downloadToken name notes ttlSeconds).run
  | .download token => do let _ ← (consumeDownloadToken token).run
  | .deleteInvite id => do let _ ← (Coord.deleteInvite id).run

/-- A broadcast round starts only where one was spawned. -/
def Request.accept (request : Request) (s : CoordState) : Option CoordState :=
  match request with
  | .broadcastLoop => if 0 < s.spawned then some { s with spawned := s.spawned - 1 } else none
  | _ => some s

lemma Request.accept_eq {request : Request} {s s' : CoordState} (h : request.accept s = some s') :
    ∃ spawned, s' = { s with spawned } := by
  unfold Request.accept at h
  split at h
  · split at h
    · exact ⟨_, (Option.some.inj h).symm⟩
    · cases h
  · exact ⟨_, (Option.some.inj h).symm⟩

/-- The coordinator, followed by a monitor. -/
def coordinator {Γ : Type} (start : Γ) (next : Γ → (c : Section) → Response c → Γ) :
    Pool.Spec Section Response CoordState Env Request Γ where
  exec := exec prim server
  accept _ := Request.accept
  body := Request.body prim server
  start := start
  next := next

/-! ### A small server, for concrete runs -/

section Demo

/-- A stand-in for the other crates: hashes pad to 32 bytes, every signature verifies, there is one
credential and three texts in base64. -/
def demoHash (bytes : List UInt8) : Vector UInt8 32 := Vector.ofFn fun i => bytes.getD i 0

def demoKey : Vector UInt8 32 := Vector.replicate 32 1
def demoOtherKey : Vector UInt8 32 := Vector.replicate 32 9
def demoNode : NodeId := ⟨demoKey⟩
def demoServer : Server := { tenant := "t", signer := { secret := Vector.replicate 32 5 } }

def demoCredential : MembershipCredential where
  nodeId := demoNode
  signingPublic := demoKey
  noisePublic := demoKey
  tenant := "t"
  issuedAt := 0
  expiresAt := 1000
  serverKeyId := Vector.replicate 32 5
  signature := List.replicate 64 0

def demoPrim : Primitives where
  blake3 := demoHash
  base64Encode bytes :=
    if bytes = demoKey.toList then "key" else if bytes = demoOtherKey.toList then "other" else "credential"
  base64Decode text :=
    if text = "key" then some demoKey.toList
    else if text = "other" then some demoOtherKey.toList
    else some []
  ed25519Public secret := secret
  ed25519Sign _ _ := Vector.replicate 64 0
  ed25519Key _ := true
  ed25519Verify _ _ _ := true
  credentialToJson _ := []
  credentialOfJson _ := some demoCredential

def demoRow : PeerRow where
  signingPublic := demoKey
  noisePublic := demoKey
  incarnation := 1
  candidates := []
  virtualIpv4 := none
  virtualIpv6 := none
  credential := []
  capabilities := []
  revoked := false
  name := ""
  notes := ""
  lastSeen := 0

def demoInvite : InviteRow where
  expiresAt := 1000
  used := false
  id := ""
  name := ""
  notes := ""
  createdAt := 0
  revoked := false
  downloadTokenHash := none
  downloadUsed := false

def demoState : CoordState where
  peers := AList.singleton demoNode demoRow
  invites := AList.singleton (demoHash (stringBytes "token")) demoInvite
  storedGeneration := 1
  online := ∅
  runtimeStatus := ∅
  snapshotGeneration := 1
  broadcastPending := false
  broadcastRunning := false
  networkConfig := { dohServers := [], stunServers := [] }
  spawned := 0
  sent := []
  pushed := []
  log := []

def demoEnv : Env := { clock := fun _ => 10, fault := none, isOpen := true }

def demoRegister (noisePublic credential : String) (inviteToken : Option String) : Incoming :=
  .text (.register
    { nodeId := demoNode, incarnation := 2, signingPublic := "key", noisePublic
      credential, inviteToken, candidates := [], capabilities := [] })

end Demo

end Vela.Coord
