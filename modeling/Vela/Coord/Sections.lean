import Vela.Coord.State

/-!
# The coordinator's sections, executed

What each critical section of `vela-coord` does to the state.
-/

namespace Vela.Coord

open Vela.Proto Vela.Crypto Codec

variable (prim : Primitives) (server : Server)

/-! ### Virtual addresses -/

/-- `u32::from_be_bytes([10, 254, 0, 0])`. -/
def virtualIpv4NetworkBase : ℕ := 10 * 2 ^ 24 + 254 * 2 ^ 16
def virtualIpv4UsableHosts : ℕ := 2 ^ 16 - 2

/-- `Ipv4Addr::from(u32)`. -/
def ipv4OfNat (n : ℕ) : Ipv4Addr :=
  ⟨#v[UInt8.ofNat (n / 2 ^ 24), UInt8.ofNat (n / 2 ^ 16), UInt8.ofNat (n / 2 ^ 8), UInt8.ofNat n]⟩

/-- The loop over the offsets of `allocate_virtual_ipv4`. -/
def searchHost (used : Ipv4Addr → Bool) (start : ℕ) : (rounds offset : ℕ) → Option Ipv4Addr
  | 0, _ => none
  | rounds + 1, offset =>
    let host := 1 + (start + offset) % virtualIpv4UsableHosts
    let address := ipv4OfNat (virtualIpv4NetworkBase + host)
    if used address then searchHost used start rounds (offset + 1) else some address

namespace CoordState

/-- `SELECT 1 FROM peers WHERE virtual_ipv4 = ?1`: revoked rows count too. -/
def addressUsed (s : CoordState) (address : Ipv4Addr) : Bool :=
  s.peers.entries.any fun entry => entry.2.virtualIpv4 == some address

def allocateVirtualIpv4 (s : CoordState) (nodeId : NodeId) : Except CoordError Ipv4Addr :=
  let digest := prim.blake3 nodeId.bytes.toList
  let start := ofBeBytes (digest.toList.take 4) % virtualIpv4UsableHosts
  match searchHost s.addressUsed start virtualIpv4UsableHosts 0 with
  | some address => .ok address
  | none => .error .addressPoolExhausted

/-! ### The table of peers -/

def storedPeer (nodeId : NodeId) (row : PeerRow) : StoredPeer where
  nodeId := nodeId
  incarnation := row.incarnation
  name := row.name
  signingPublic := row.signingPublic
  noisePublic := row.noisePublic
  candidates := row.candidates
  virtualIpv4 := row.virtualIpv4
  virtualIpv6 := row.virtualIpv6
  credential := row.credential
  capabilities := row.capabilities
  lastSeen := UInt64.ofNat (row.lastSeen.toNat)

def loadPeer (s : CoordState) (nodeId : NodeId) : Option StoredPeer :=
  (s.liveRow nodeId).map (storedPeer nodeId)

/-- `SELECT ... FROM peers WHERE revoked = 0 ORDER BY node_id`. -/
def loadPeers (s : CoordState) : List StoredPeer :=
  ((s.peers.entries.filter fun entry => !entry.2.revoked).map fun entry =>
    storedPeer entry.1 entry.2).insertionSort fun a b => a.nodeId.le b.nodeId

/-- The row that the upsert of `update_peer` leaves behind. -/
def upsertRow (peer : StoredPeer) : Option PeerRow → PeerRow
  | none =>
    { signingPublic := peer.signingPublic, noisePublic := peer.noisePublic
      incarnation := peer.incarnation, candidates := peer.candidates
      virtualIpv4 := peer.virtualIpv4, virtualIpv6 := peer.virtualIpv6
      credential := peer.credential, capabilities := peer.capabilities
      revoked := false, name := "", notes := "", lastSeen := 0 }
  | some row =>
    { row with
      signingPublic := peer.signingPublic, noisePublic := peer.noisePublic
      incarnation := peer.incarnation, candidates := peer.candidates
      virtualIpv4 := peer.virtualIpv4.or row.virtualIpv4
      virtualIpv6 := peer.virtualIpv6.or row.virtualIpv6
      credential := peer.credential, capabilities := peer.capabilities
      revoked := false }

def updatePeer (s : CoordState) (peer : StoredPeer) : CoordState :=
  { s with peers := s.peers.insert peer.nodeId (upsertRow peer (s.peers.lookup peer.nodeId)) }

/-- `UPDATE peers SET ... WHERE node_id = ?`: whether a row changed, and the table. -/
def updateRow (s : CoordState) (nodeId : NodeId) (f : PeerRow → PeerRow) : Bool × CoordState :=
  match s.peers.lookup nodeId with
  | none => (false, s)
  | some row => (true, { s with peers := s.peers.insert nodeId (f row) })

def revokeRow (s : CoordState) (nodeId : NodeId) : Bool × CoordState :=
  match s.liveRow nodeId with
  | none => (false, s)
  | some row =>
    (true, { s with
      peers := s.peers.insert nodeId { row with revoked := true }
      log := .removed nodeId :: s.log })

def deleteRow (s : CoordState) (nodeId : NodeId) : Bool × CoordState :=
  match s.peers.lookup nodeId with
  | none => (false, s)
  | some _ =>
    (true, { s with peers := s.peers.erase nodeId, log := .removed nodeId :: s.log })

/-! ### Invites -/

/-- `x as i64`. -/
def toI64 (x : UInt64) : Int := x.toInt64.toInt

/-- The whole of `register_with_invite`: one section, with up to three reads of the clock. -/
def registerWithInvite (s : CoordState) (clock : ℕ → UInt64) (nodeId : NodeId)
    (signingPublic noisePublic : Vector UInt8 32) (token : String) :
    Except CoordError InviteRegistration × CoordState :=
  let hash := prim.blake3 (stringBytes token)
  match s.invites.lookup hash with
  | none => (.error .invalidInvite, s)
  | some invite =>
    if invite.revoked ∨ invite.used ∨ invite.expiresAt < toI64 (clock 0) then (.error .inviteExpired, s)
    else
      let identity : PublicIdentity := { nodeId, signingPublic, noisePublic }
      let credential := (MembershipCredential.unsigned identity server.tenant
        (saturatingAdd (clock 1) (365 * 24 * 3600)) (server.signer.keyId prim) (clock 2)).sign prim
        server.signer
      (.ok { name := invite.name, notes := invite.notes, credential },
        { s with
          invites := s.invites.insert hash { invite with used := true, downloadUsed := true }
          log := .invited nodeId :: s.log })

/-- The token's hash is the primary key, and ids are unique. -/
def insertInvite (s : CoordState) (tokenHash : Vector UInt8 32) (row : InviteRow) :
    Except CoordError Unit × CoordState :=
  if (s.invites.lookup tokenHash).isSome then
    (.error (.database "UNIQUE constraint failed: invites.token_hash"), s)
  else if s.invites.entries.any fun entry => entry.2.id == row.id then
    (.error (.database "UNIQUE constraint failed: invites.id"), s)
  else (.ok (), { s with invites := s.invites.insert tokenHash row })

/-- `UPDATE invites SET ... WHERE ...`: whether a row was updated, and the table. -/
def updateInvites (s : CoordState) (matching : InviteRow → Bool) (f : InviteRow → InviteRow) :
    Bool × CoordState :=
  (s.invites.entries.any fun entry => matching entry.2,
    { s with
      invites :=
        { entries := s.invites.entries.map
            (.map id fun _ row => if matching row then f row else row)
          nodupKeys := List.NodupKeys.map₂ _ _ s.invites.nodupKeys } })

/-- The download token is open, as `consume_download_token` asks. -/
def downloadable (tokenHash : Vector UInt8 32) (now : Int) (row : InviteRow) : Bool :=
  row.downloadTokenHash == some tokenHash && !row.downloadUsed && !row.revoked && !row.used &&
    decide (now < row.expiresAt)

def consumeDownloadToken (s : CoordState) (clock : ℕ → UInt64) (token : String) : Bool × CoordState :=
  s.updateInvites (downloadable (prim.blake3 (stringBytes token)) (toI64 (clock 0)))
    fun row => { row with downloadUsed := true }

def deleteInvite (s : CoordState) (id : String) : Bool × CoordState :=
  s.updateInvites (fun row => row.id == id) fun row =>
    { row with revoked := true, downloadUsed := true }

/-! ### Online connections -/

def onlineInsert (s : CoordState) (nodeId : NodeId) (connection : UInt64) : Bool × CoordState :=
  let sessions := (s.online.lookup nodeId).getD []
  ((s.online.lookup nodeId).isSome,
    { s with online := s.online.insert nodeId (sessions.insert connection) })

def onlineLeave (s : CoordState) (nodeId : NodeId) (connection : UInt64) : Bool × CoordState :=
  match s.online.lookup nodeId with
  | none => (false, s)
  | some sessions =>
    let sessions := sessions.erase connection
    if sessions.isEmpty then (true, { s with online := s.online.erase nodeId })
    else (false, { s with online := s.online.insert nodeId sessions })

def runtimeInsert (s : CoordState) (nodeId : NodeId) (connection : UInt64) (virtualMtu : UInt16) :
    CoordState :=
  let sessions := (s.runtimeStatus.lookup nodeId).getD ∅
  { s with runtimeStatus := s.runtimeStatus.insert nodeId (sessions.insert connection virtualMtu) }

def runtimeLeave (s : CoordState) (nodeId : NodeId) (connection : UInt64) : CoordState :=
  match s.runtimeStatus.lookup nodeId with
  | none => s
  | some sessions =>
    let sessions := sessions.erase connection
    if sessions.entries.isEmpty then { s with runtimeStatus := s.runtimeStatus.erase nodeId }
    else { s with runtimeStatus := s.runtimeStatus.insert nodeId sessions }

/-! ### Generations and broadcasts -/

/-- `bump_snapshot`: the counter must stay below `2^63`, as `i64::try_from` asks. -/
def bumpSnapshot (s : CoordState) : Except CoordError Unit × CoordState :=
  let generation := s.snapshotGeneration.toNat + 1
  if generation < 2 ^ 63 then
    (.ok (), { s with
      storedGeneration := generation, snapshotGeneration := UInt64.ofNat generation })
  else (.error .snapshotGenerationOverflow, s)

/-- Whether the configuration changed, and the state. -/
def updateNetworkConfig (s : CoordState) (config : ServerNetworkConfig) : Bool × CoordState :=
  if s.networkConfig = config then (false, s) else (true, { s with networkConfig := config })

def broadcastSchedule (s : CoordState) : Bool × CoordState :=
  if s.broadcastRunning then (false, { s with broadcastPending := true })
  else (true, { s with broadcastPending := true, broadcastRunning := true })

def broadcastTake (s : CoordState) : Bool × CoordState :=
  if s.broadcastPending then (true, { s with broadcastPending := false })
  else (false, { s with broadcastRunning := false })

def broadcastContinue (s : CoordState) : Bool × CoordState :=
  if s.broadcastPending then (true, s) else (false, { s with broadcastRunning := false })

end CoordState

/-! ### Execution -/

/-- A database section: a fault is reported and nothing changes. -/
def Env.database {α : Type} (e : Env) (s : CoordState) (run : Except CoordError α × CoordState) :
    Except CoordError α × CoordState :=
  match e.fault with
  | some error => (.error error, s)
  | none => run

/-- A section executed on the state.  No section of the coordinator has to wait. -/
def perform (e : Env) : (c : Section) → CoordState → Response c × CoordState
  | .recv _ _, s => ((), s)
  | .unixTime, s => (e.clock 0, s)
  | .registerWithInvite nodeId signingPublic noisePublic token, s =>
    e.database s (s.registerWithInvite prim server e.clock nodeId signingPublic noisePublic token)
  | .selectCredential nodeId, s =>
    e.database s (.ok ((s.liveRow nodeId).map PeerRow.credential), s)
  | .loadPeer nodeId, s => e.database s (.ok (s.loadPeer nodeId), s)
  | .loadPeers, s => e.database s (.ok s.loadPeers, s)
  | .allocateVirtualIpv4 nodeId, s => e.database s (s.allocateVirtualIpv4 prim nodeId, s)
  | .updatePeer peer, s => e.database s (.ok (), s.updatePeer peer)
  | .updatePeerMetadata nodeId name notes, s =>
    let (changed, s') := s.updateRow nodeId fun row => { row with name, notes }
    e.database s (.ok changed, s')
  | .touchPeer nodeId, s =>
    let lastSeen := CoordState.toI64 (e.clock 0)
    e.database s (.ok (), (s.updateRow nodeId fun row => { row with lastSeen }).2)
  | .bumpSnapshot, s => e.database s s.bumpSnapshot
  | .networkConfig, s => e.database s (.ok s.networkConfig, s)
  | .updateNetworkConfig config, s =>
    let (changed, s') := s.updateNetworkConfig config
    e.database s (.ok changed, s')
  | .loadGeneration, s => (s.snapshotGeneration, s)
  | .onlineInsert nodeId connection, s => s.onlineInsert nodeId connection
  | .onlinePeerIds, s => (s.online.keys.insertionSort NodeId.le, s)
  | .onlineSessions nodeId, s => ((s.online.lookup nodeId).getD [], s)
  | .listPeers, s => e.database s (.ok (s.loadPeers, s.online.keys), s)
  | .send connection message, s =>
    (e.isOpen, if e.isOpen then { s with sent := (connection, message) :: s.sent } else s)
  | .broadcastSchedule, s => s.broadcastSchedule
  | .broadcastSpawn, s => ((), { s with spawned := s.spawned + 1 })
  | .runtimeInsert nodeId connection virtualMtu, s =>
    ((), s.runtimeInsert nodeId connection virtualMtu)
  | .onlineLeave nodeId connection, s => s.onlineLeave nodeId connection
  | .runtimeLeave nodeId connection, s => ((), s.runtimeLeave nodeId connection)
  | .revokeRow nodeId, s =>
    let (changed, s') := s.revokeRow nodeId
    e.database s (.ok changed, s')
  | .deleteRow nodeId, s =>
    let (changed, s') := s.deleteRow nodeId
    e.database s (.ok changed, s')
  | .onlineRemove nodeId, s =>
    ((s.online.lookup nodeId).getD [], { s with online := s.online.erase nodeId })
  | .broadcastTake, s => s.broadcastTake
  | .broadcastRetain, s => ((), { s with broadcastPending := true })
  | .broadcastContinue, s => s.broadcastContinue
  | .onlineSenders, s =>
    ((s.online.entries.flatMap fun entry => entry.2, s.online.keys), s)
  | .push connection snapshot, s => ((), { s with pushed := (connection, snapshot) :: s.pushed })
  | .insertInvite tokenHash row, s => e.database s (s.insertInvite tokenHash row)
  | .consumeDownloadToken token, s =>
    let (changed, s') := s.consumeDownloadToken prim e.clock token
    e.database s (.ok changed, s')
  | .deleteInvite id, s =>
    let (changed, s') := s.deleteInvite id
    e.database s (.ok changed, s')

/-! ### What a section leaves alone -/

variable {prim server}

/-- A property of the state after a database section: of the state before, for a fault, and of the
state the query leaves behind. -/
lemma Env.database_state {α : Type} {e : Env} {s : CoordState}
    {run : Except CoordError α × CoordState} {P : CoordState → Prop} (hfault : P s) (hrun : P run.2) :
    P (e.database s run).2 := by
  unfold Env.database
  split
  · exact hfault
  · exact hrun

/-- The sections that write neither the tables of peers and invites nor the online map, and receive
nothing: reads, answers, runtime status, generations and broadcasts. -/
def Passive : Section → Prop
  | .registerWithInvite _ _ _ _ | .updatePeer _ | .updatePeerMetadata _ _ _ | .touchPeer _
  | .revokeRow _ | .deleteRow _ | .onlineInsert _ _ | .onlineLeave _ _ | .onlineRemove _
  | .insertInvite _ _ | .consumeDownloadToken _ | .deleteInvite _ | .recv _ _ => False
  | _ => True

structure SameTables (s s' : CoordState) : Prop where
  peers : s'.peers = s.peers
  invites : s'.invites = s.invites
  online : s'.online = s.online
  log : s'.log = s.log

lemma updateNetworkConfig_state (s : CoordState) (config : ServerNetworkConfig) :
    (s.updateNetworkConfig config).2 = { s with networkConfig := config } := by
  unfold CoordState.updateNetworkConfig
  split
  · rename_i heq
    rw [← heq]
  · rfl

/-! ### What the other sections leave alone -/

/-- The sections of the table of invites that `Register` has no part in. -/
def Invites : Section → Prop
  | .insertInvite _ _ | .consumeDownloadToken _ | .deleteInvite _ => True
  | _ => False

lemma perform_invites {c : Section} (h : Invites c) (e : Env) (s : CoordState) :
    ∃ invites, (perform prim server e c s).2 = { s with invites } := by
  have hself : ∃ invites, s = { s with invites } := ⟨s.invites, rfl⟩
  cases c with
  | insertInvite tokenHash row =>
    refine Env.database_state (P := fun s' => ∃ invites, s' = { s with invites }) hself ?_
    unfold CoordState.insertInvite
    split
    · exact hself
    · split
      · exact hself
      · exact ⟨_, rfl⟩
  | consumeDownloadToken token =>
    exact Env.database_state (P := fun s' => ∃ invites, s' = { s with invites }) hself ⟨_, rfl⟩
  | deleteInvite id =>
    exact Env.database_state (P := fun s' => ∃ invites, s' = { s with invites }) hself ⟨_, rfl⟩
  | _ => cases h

lemma lookup_updateInvites (s : CoordState) (matching : InviteRow → Bool)
    (f : InviteRow → InviteRow) (tokenHash : Vector UInt8 32) :
    (s.updateInvites matching f).2.invites.lookup tokenHash =
      (s.invites.lookup tokenHash).map fun row => if matching row then f row else row :=
  List.dlookup_map₂ _

lemma updateRow_log (s : CoordState) (m : NodeId) (f : PeerRow → PeerRow) :
    (s.updateRow m f).2.log = s.log := by
  unfold CoordState.updateRow
  split <;> rfl

lemma registerWithInvite_cases (s : CoordState) (clock : ℕ → UInt64) (nodeId : NodeId)
    (signingPublic noisePublic : Vector UInt8 32) (token : String) :
    (∃ error, s.registerWithInvite prim server clock nodeId signingPublic noisePublic token =
      (.error error, s)) ∨
    ∃ registration invite, s.invites.lookup (prim.blake3 (stringBytes token)) = some invite ∧
      invite.revoked = false ∧ invite.used = false ∧
      s.registerWithInvite prim server clock nodeId signingPublic noisePublic token =
        (.ok registration, { s with
          invites := s.invites.insert (prim.blake3 (stringBytes token))
            { invite with used := true, downloadUsed := true }
          log := .invited nodeId :: s.log }) := by
  unfold CoordState.registerWithInvite
  simp only
  split
  · exact .inl ⟨_, rfl⟩
  · rename_i invite hinvite
    split
    · exact .inl ⟨_, rfl⟩
    · rename_i hopen
      obtain ⟨hrevoked, hused, -⟩ : invite.revoked = false ∧ invite.used = false ∧ _ := by
        simpa [not_or] using hopen
      exact .inr ⟨_, invite, hinvite, hrevoked, hused, rfl⟩

/-- The part of the state that a section may write. -/
inductive Part where
  | nothing
  | rows
  | invites
  | online
  | runtime
  | generation
  | config
  | sent
  | pushed
  | broadcast
  deriving DecidableEq

def Section.part : Section → Part
  | .updatePeer _ | .updatePeerMetadata _ _ _ | .touchPeer _ | .revokeRow _ | .deleteRow _ => .rows
  | .registerWithInvite _ _ _ _ | .insertInvite _ _ | .consumeDownloadToken _ | .deleteInvite _ =>
    .invites
  | .onlineInsert _ _ | .onlineLeave _ _ | .onlineRemove _ => .online
  | .runtimeInsert _ _ _ | .runtimeLeave _ _ => .runtime
  | .bumpSnapshot => .generation
  | .updateNetworkConfig _ => .config
  | .send _ _ => .sent
  | .push _ _ => .pushed
  | .broadcastSchedule | .broadcastSpawn | .broadcastTake | .broadcastRetain | .broadcastContinue =>
    .broadcast
  | _ => .nothing

/-- Only one part of the state is written; the history goes with the rows and the invites. -/
structure Frame (p : Part) (s s' : CoordState) : Prop where
  peers : p ≠ .rows → s'.peers = s.peers
  invites : p ≠ .invites → s'.invites = s.invites
  storedGeneration : p ≠ .generation → s'.storedGeneration = s.storedGeneration
  online : p ≠ .online → s'.online = s.online
  runtimeStatus : p ≠ .runtime → s'.runtimeStatus = s.runtimeStatus
  snapshotGeneration : p ≠ .generation → s'.snapshotGeneration = s.snapshotGeneration
  broadcastPending : p ≠ .broadcast → s'.broadcastPending = s.broadcastPending
  broadcastRunning : p ≠ .broadcast → s'.broadcastRunning = s.broadcastRunning
  networkConfig : p ≠ .config → s'.networkConfig = s.networkConfig
  spawned : p ≠ .broadcast → s'.spawned = s.spawned
  sent : p ≠ .sent → s'.sent = s.sent
  pushed : p ≠ .pushed → s'.pushed = s.pushed
  log : p ≠ .rows → p ≠ .invites → s'.log = s.log

namespace Frame

lemma refl (p : Part) (s : CoordState) : Frame p s s := by
  constructor <;> intros <;> rfl

lemma rows (s : CoordState) (peers : AList fun _ : NodeId => PeerRow) (log : List Event) :
    Frame .rows s { s with peers, log } := by
  constructor <;> intros <;> first | rfl | contradiction

lemma invites_log (s : CoordState) (invites : AList fun _ : Vector UInt8 32 => InviteRow)
    (log : List Event) : Frame .invites s { s with invites, log } := by
  constructor <;> intros <;> first | rfl | contradiction

lemma broadcast (s : CoordState) (broadcastPending broadcastRunning : Bool) (spawned : ℕ) :
    Frame .broadcast s { s with broadcastPending, broadcastRunning, spawned } := by
  constructor <;> intros <;> first | rfl | contradiction

lemma onlineMap (s : CoordState) (online : AList fun _ : NodeId => List UInt64) :
    Frame .online s { s with online } := by
  constructor <;> intros <;> first | rfl | contradiction

lemma runtime (s : CoordState)
    (runtimeStatus : AList fun _ : NodeId => AList fun _ : UInt64 => UInt16) :
    Frame .runtime s { s with runtimeStatus } := by
  constructor <;> intros <;> first | rfl | contradiction

lemma updateRow (s : CoordState) (m : NodeId) (f : PeerRow → PeerRow) :
    Frame .rows s (s.updateRow m f).2 := by
  unfold CoordState.updateRow
  split
  · exact refl _ s
  · exact rows s _ _

lemma revokeRow (s : CoordState) (m : NodeId) : Frame .rows s (s.revokeRow m).2 := by
  unfold CoordState.revokeRow
  split
  · exact refl _ s
  · exact rows s _ _

lemma deleteRow (s : CoordState) (m : NodeId) : Frame .rows s (s.deleteRow m).2 := by
  unfold CoordState.deleteRow
  split
  · exact refl _ s
  · exact rows s _ _

lemma onlineLeave (s : CoordState) (m : NodeId) (connection : UInt64) :
    Frame .online s (s.onlineLeave m connection).2 := by
  unfold CoordState.onlineLeave
  split
  · exact refl _ s
  · simp only
    split <;> exact onlineMap s _

lemma runtimeLeave (s : CoordState) (m : NodeId) (connection : UInt64) :
    Frame .runtime s (s.runtimeLeave m connection) := by
  unfold CoordState.runtimeLeave
  split
  · exact refl _ s
  · simp only
    split <;> exact runtime s _

lemma bumpSnapshot (s : CoordState) : Frame .generation s s.bumpSnapshot.2 := by
  unfold CoordState.bumpSnapshot
  simp only
  split
  · constructor <;> intros <;> first | rfl | contradiction
  · exact refl _ s

lemma updateNetworkConfig (s : CoordState) (config : ServerNetworkConfig) :
    Frame .config s (s.updateNetworkConfig config).2 := by
  rw [updateNetworkConfig_state]
  constructor <;> intros <;> first | rfl | contradiction

lemma insertInvite (s : CoordState) (tokenHash : Vector UInt8 32) (row : InviteRow) :
    Frame .invites s (s.insertInvite tokenHash row).2 := by
  unfold CoordState.insertInvite
  split
  · exact refl _ s
  · split
    · exact refl _ s
    · exact invites_log s _ _

lemma registerWithInvite (s : CoordState) (clock : ℕ → UInt64) (m : NodeId)
    (signingPublic noisePublic : Vector UInt8 32) (token : String) : Frame .invites s
      (s.registerWithInvite prim server clock m signingPublic noisePublic token).2 := by
  rcases registerWithInvite_cases s clock m signingPublic noisePublic token with
    ⟨error, heq⟩ | ⟨registration, invite, -, -, -, heq⟩
  · rw [heq]
    exact refl _ s
  · rw [heq]
    exact invites_log s _ _

lemma database {α : Type} {p : Part} {e : Env} {s : CoordState}
    {run : Except CoordError α × CoordState} (h : Frame p s run.2) :
    Frame p s (e.database s run).2 :=
  Env.database_state (refl p s) h

end Frame

/-- **Frame.**  A section writes its own part of the state only. -/
theorem perform_frame (e : Env) (c : Section) (s : CoordState) :
    Frame c.part s (perform prim server e c s).2 := by
  cases c with
  | registerWithInvite => exact .database (.registerWithInvite ..)
  | updatePeer peer => exact .database (.rows s _ _)
  | updatePeerMetadata m name notes => exact .database (.updateRow s m _)
  | touchPeer m => exact .database (.updateRow s m _)
  | revokeRow m => exact .database (.revokeRow s m)
  | deleteRow m => exact .database (.deleteRow s m)
  | bumpSnapshot => exact .database (.bumpSnapshot s)
  | updateNetworkConfig config => exact .database (.updateNetworkConfig s config)
  | insertInvite tokenHash row => exact .database (.insertInvite s tokenHash row)
  | consumeDownloadToken token => exact .database (.invites_log s _ _)
  | deleteInvite id => exact .database (.invites_log s _ _)
  | selectCredential | loadPeer | loadPeers | allocateVirtualIpv4 | networkConfig | listPeers =>
    exact .database (.refl _ s)
  | onlineInsert | onlineRemove => exact .onlineMap s _
  | onlineLeave m connection => exact .onlineLeave s m connection
  | runtimeInsert => exact .runtime s _
  | runtimeLeave m connection => exact .runtimeLeave s m connection
  | send =>
    simp only [perform]
    split
    · constructor <;> intros <;> first | rfl | contradiction
    · exact .refl _ s
  | push => constructor <;> intros <;> first | rfl | contradiction
  | broadcastSpawn | broadcastRetain => exact .broadcast s _ _ _
  | broadcastSchedule =>
    simp only [perform, CoordState.broadcastSchedule]
    split <;> exact .broadcast s _ _ _
  | broadcastTake =>
    simp only [perform, CoordState.broadcastTake]
    split <;> exact .broadcast s _ _ _
  | broadcastContinue =>
    simp only [perform, CoordState.broadcastContinue]
    split
    · exact .refl _ s
    · exact .broadcast s _ _ _
  | _ => exact .refl _ s

lemma perform_passive {c : Section} (h : Passive c) (e : Env) (s : CoordState) :
    SameTables s (perform prim server e c s).2 := by
  have hframe := @perform_frame prim server e c s
  have hpart : c.part ≠ .rows ∧ c.part ≠ .invites ∧ c.part ≠ .online := by
    cases c <;> first | exact h.elim | simp [Section.part]
  exact ⟨hframe.peers hpart.1, hframe.invites hpart.2.1, hframe.online hpart.2.2,
    hframe.log hpart.1 hpart.2.1⟩

/-- The sections that change who is online. -/
def Relocates : Section → Prop
  | .onlineInsert _ _ | .onlineRemove _ | .onlineLeave _ _ => True
  | _ => False

lemma online_frame {c : Section} (hc : ¬ Relocates c) (e : Env) (s : CoordState) :
    (perform prim server e c s).2.online = s.online := by
  refine (perform_frame e c s).online ?_
  cases c <;> first | exact absurd trivial hc | simp [Section.part]

/-- The sections that raise the generation, change the configuration or put something into a channel. -/
def Loud : Section → Prop
  | .bumpSnapshot | .updateNetworkConfig _ | .send _ _ | .push _ _ => True
  | _ => False

structure SameOutput (s s' : CoordState) : Prop where
  generation : s'.snapshotGeneration = s.snapshotGeneration
  networkConfig : s'.networkConfig = s.networkConfig
  sent : s'.sent = s.sent
  pushed : s'.pushed = s.pushed

/-- **Frame.** -/
theorem perform_quiet {c : Section} (h : ¬ Loud c) (e : Env) (s : CoordState) :
    SameOutput s (perform prim server e c s).2 := by
  have hframe := @perform_frame prim server e c s
  have hpart : c.part ≠ .generation ∧ c.part ≠ .config ∧ c.part ≠ .sent ∧ c.part ≠ .pushed := by
    cases c <;> first | exact absurd trivial h | simp [Section.part]
  exact ⟨hframe.snapshotGeneration hpart.1, hframe.networkConfig hpart.2.1, hframe.sent hpart.2.2.1,
    hframe.pushed hpart.2.2.2⟩

/-- What a section can do to the row of a node. -/
inductive RowStep (n : NodeId) : Section → Option PeerRow → Option PeerRow → Prop
  | same (c : Section) (row : Option PeerRow) : RowStep n c row row
  | stored (peer : StoredPeer) (row : Option PeerRow) (h : peer.nodeId = n) :
      RowStep n (.updatePeer peer) row (some (CoordState.upsertRow peer row))
  /-- name, notes and the time the node was last seen -/
  | noted (c : Section) (row : PeerRow) (name notes : String) (lastSeen : Int) :
      RowStep n c (some row) (some { row with name, notes, lastSeen })
  | revoked (row : PeerRow) (h : row.revoked = false) :
      RowStep n (.revokeRow n) (some row) (some { row with revoked := true })
  | deleted (row : PeerRow) : RowStep n (.deleteRow n) (some row) none

lemma rowStep_updateRow (c : Section) (s : CoordState) (m n : NodeId) (f : PeerRow → PeerRow)
    (hf : ∀ row, ∃ name notes lastSeen, f row = { row with name, notes, lastSeen }) :
    RowStep n c (s.peers.lookup n) ((s.updateRow m f).2.peers.lookup n) := by
  unfold CoordState.updateRow
  split
  · exact .same ..
  · rename_i row hrow
    by_cases hn : m = n
    · subst hn
      obtain ⟨name, notes, lastSeen, hfrow⟩ := hf row
      simp only [AList.lookup_insert, hrow, hfrow]
      exact .noted ..
    · simp only [AList.lookup_insert_ne (Ne.symm hn)]
      exact .same ..

lemma rowStep_revokeRow (s : CoordState) (m n : NodeId) :
    RowStep n (.revokeRow m) (s.peers.lookup n) ((s.revokeRow m).2.peers.lookup n) := by
  unfold CoordState.revokeRow
  split
  · exact .same ..
  · rename_i row hrow
    obtain ⟨hlookup, hlive⟩ := Option.filter_eq_some_iff.1 hrow
    by_cases hn : m = n
    · subst hn
      simp only [AList.lookup_insert, hlookup]
      exact .revoked row (by simpa using hlive)
    · simp only [AList.lookup_insert_ne (Ne.symm hn)]
      exact .same ..

lemma rowStep_deleteRow (s : CoordState) (m n : NodeId) :
    RowStep n (.deleteRow m) (s.peers.lookup n) ((s.deleteRow m).2.peers.lookup n) := by
  unfold CoordState.deleteRow
  split
  · exact .same ..
  · rename_i row hrow
    by_cases hn : m = n
    · subst hn
      simp only [AList.lookup_erase, hrow]
      exact .deleted row
    · simp only [AList.lookup_erase_ne (Ne.symm hn)]
      exact .same ..

lemma rowStep_updatePeer (s : CoordState) (peer : StoredPeer) (n : NodeId) :
    RowStep n (.updatePeer peer) (s.peers.lookup n) ((s.updatePeer peer).peers.lookup n) := by
  unfold CoordState.updatePeer
  by_cases hn : peer.nodeId = n
  · subst hn
    simp only [AList.lookup_insert]
    exact .stored peer _ rfl
  · simp only [AList.lookup_insert_ne (Ne.symm hn)]
    exact .same ..

/-- **What one section does to one row.** -/
theorem rowStep_perform (e : Env) (c : Section) (s : CoordState) (n : NodeId) :
    RowStep n c (s.peers.lookup n) ((perform prim server e c s).2.peers.lookup n) := by
  by_cases hc : c.part = .rows
  · cases c with
    | updatePeer peer =>
      exact Env.database_state (P := fun s' => RowStep n _ _ (s'.peers.lookup n)) (.same ..)
        (rowStep_updatePeer s peer n)
    | updatePeerMetadata m name notes =>
      exact Env.database_state (P := fun s' => RowStep n _ _ (s'.peers.lookup n)) (.same ..)
        (rowStep_updateRow _ s m n _ fun row => ⟨name, notes, row.lastSeen, rfl⟩)
    | touchPeer m =>
      exact Env.database_state (P := fun s' => RowStep n _ _ (s'.peers.lookup n)) (.same ..)
        (rowStep_updateRow _ s m n _ fun row => ⟨row.name, row.notes, _, rfl⟩)
    | revokeRow m =>
      exact Env.database_state (P := fun s' => RowStep n _ _ (s'.peers.lookup n)) (.same ..)
        (rowStep_revokeRow s m n)
    | deleteRow m =>
      exact Env.database_state (P := fun s' => RowStep n _ _ (s'.peers.lookup n)) (.same ..)
        (rowStep_deleteRow s m n)
    | _ => cases hc
  · rw [(perform_frame e c s).peers hc]
    exact .same ..

variable (prim server) in
def exec (e : Env) (c : Section) (s : CoordState) : Option (Response c × CoordState) :=
  some (perform prim server e c s)

lemma exec_eq {e : Env} {c : Section} {s s' : CoordState} {r : Response c}
    (h : exec prim server e c s = some (r, s')) :
    (perform prim server e c s).1 = r ∧ (perform prim server e c s).2 = s' := by
  rw [show perform prim server e c s = (r, s') from Option.some.inj h]
  exact ⟨rfl, rfl⟩

end Vela.Coord
