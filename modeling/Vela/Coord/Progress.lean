import Vela.Coord.Footprint

/-!
# How far a task has come

One monitor for everything the coordinator's operations do in several sections: what a registration
has read before it stores the row, what a change still owes before it is complete, and what a
snapshot was built from.
-/

namespace Vela.Coord

open Vela.Proto Vela.Crypto Prog

/-! ### The monitor -/

/-- What a task that has changed something was about to do. -/
inductive Change where
  /-- `Register` has stored the row of the node; its connection is to be entered -/
  | enter (nodeId : NodeId)
  /-- the row of the node was taken out; its connections are to be dropped -/
  | remove (nodeId : NodeId)
  /-- new candidates, a connection that left, or a new network configuration -/
  | other
  deriving DecidableEq

/-- How far a change has come. -/
inductive Pending where
  | none
  /-- the change is made, the generation is not raised yet -/
  | changed (change : Change)
  /-- the generation is raised, the rest of the change is not made yet -/
  | bumped (change : Change)
  /-- a database section failed in between -/
  | failed (change : Change)
  deriving DecidableEq

namespace Pending

def bump : Pending → Pending
  | changed .other => none
  | changed change => bumped change
  | p => p

def fail : Pending → Pending
  | none => none
  | changed change | bumped change | failed change => failed change

/-- Nothing is left to do, because the change is complete or was given up. -/
def Settled : Pending → Prop
  | none | failed _ => True
  | changed _ | bumped _ => False

end Pending

/-- What `network_snapshot` and its caller have read for the snapshot being built. -/
inductive Build where
  | idle
  | online
  | peers
  | config
  | generation
  deriving DecidableEq

/-- Where a task is in the handling of its current message. -/
structure Progress where
  message : Option ControlMessage
  /-- the credential that `Register` will store, and the identity it is to be stored for -/
  obtained : Option (PublicIdentity × List UInt8)
  /-- the row that was read and will be written back -/
  loaded : Option (NodeId × StoredPeer)
  /-- the virtual address that will be stored with the row of the node -/
  address : Option (NodeId × Ipv4Addr)
  pending : Pending
  build : Build
  online : List NodeId
  peers : List StoredPeer
  config : ServerNetworkConfig
  generation : UInt64
  /-- the snapshot signed last -/
  signed : Option NetworkSnapshot

namespace Progress

def idle : Progress where
  message := none
  obtained := none
  loaded := none
  address := none
  pending := .none
  build := .idle
  online := []
  peers := []
  config := { dohServers := [], stunServers := [] }
  generation := 0
  signed := none

/-- A message was just received. -/
def received (message : ControlMessage) : Progress := { idle with message := some message }

/-- The message is a `Register`. -/
def registers (γ : Progress) : Bool :=
  match γ.message with
  | some (.register _) => true
  | _ => false

/-- The message is one that reads the row of a node and writes it back. -/
def writes (γ : Progress) : Bool :=
  match γ.message with
  | some (.register _) | some (.updateCandidates _) => true
  | _ => false

variable (prim : Primitives) (server : Server)

/-- The identity that a `Register` names. -/
def identity (γ : Progress) : Option PublicIdentity :=
  match γ.message with
  | some (.register request) =>
    match decodeKey prim request.signingPublic, decodeKey prim request.noisePublic with
    | .ok signingPublic, .ok noisePublic =>
      some { nodeId := request.nodeId, signingPublic, noisePublic }
    | _, _ => none
  | _ => none

/-- The snapshot that `network_snapshot` signs from what was read. -/
def snapshot (γ : Progress) (now : UInt64) : NetworkSnapshot :=
  server.signer.signSnapshot prim
    { networkId := networkId prim server
      generation := γ.generation
      virtualIpv4 := some { address := ipv4OfNat virtualIpv4NetworkBase, prefixLen := 16 }
      virtualIpv6 := none
      dohServers := γ.config.dohServers
      stunServers := γ.config.stunServers
      peers := γ.peers.map privatePeer
      onlinePeers := γ.online
      expiresAt := saturatingAdd now 3600
      signature := [] }

/-- What an `update_peer` leaves to do: nothing, where an `UpdateCandidates` found the candidates it
was sent. -/
def stored (γ : Progress) (peer : StoredPeer) : Pending :=
  if γ.registers then .changed (.enter peer.nodeId)
  else if γ.loaded.any fun row => row.2.candidates != peer.candidates then .changed .other
  else .none

def next (γ : Progress) : (c : Section) → Response c → Progress
  | .recv _ message, _ => received message
  | .registerWithInvite nodeId signingPublic noisePublic _, .ok registration =>
    { γ with obtained := some ({ nodeId, signingPublic, noisePublic },
        prim.credentialToJson registration.credential) }
  | .selectCredential _, .ok (some credential) =>
    { γ with obtained := (γ.identity prim).map fun identity => (identity, credential) }
  | .loadPeer nodeId, .ok row =>
    if γ.writes then
      { γ with
        loaded := row.map fun row => (nodeId, row)
        address := (row.bind StoredPeer.virtualIpv4).map fun address => (nodeId, address) }
    else γ
  | .allocateVirtualIpv4 nodeId, .ok address =>
    { γ with address := γ.address.or (some (nodeId, address)) }
  | .allocateVirtualIpv4 _, .error _ => { γ with address := none }
  | .updatePeer peer, .ok _ =>
    { γ with loaded := none, address := none, pending := γ.stored peer }
  | .updatePeer _, .error _ => { γ with loaded := none, address := none }
  | .updatePeerMetadata _ _ _, .error _ => { γ with pending := γ.pending.fail }
  | .touchPeer _, .error _ => { γ with pending := γ.pending.fail }
  | .bumpSnapshot, .ok _ => { γ with pending := γ.pending.bump }
  | .bumpSnapshot, .error _ => { γ with pending := γ.pending.fail }
  | .onlineInsert _ _, _ => { γ with pending := .none }
  | .onlineRemove _, _ => { γ with pending := .none }
  | .onlineLeave _ _, true => { γ with pending := .changed .other }
  | .revokeRow nodeId, .ok true => { γ with pending := .changed (.remove nodeId) }
  | .deleteRow nodeId, .ok true => { γ with pending := .changed (.remove nodeId) }
  | .updateNetworkConfig _, .ok true => { γ with pending := .changed .other }
  | .onlinePeerIds, ids => { γ with build := .online, online := ids }
  | .onlineSenders, found => { γ with build := .online, online := found.2 }
  | .loadPeers, .ok peers =>
    if γ.build = .online then { γ with build := .peers, peers := peers } else γ
  | .loadPeers, .error _ => { γ with build := .idle }
  | .networkConfig, .ok config =>
    if γ.build = .peers then { γ with build := .config, config := config } else γ
  | .networkConfig, .error _ => { γ with build := .idle }
  | .loadGeneration, generation =>
    if γ.build = .config then { γ with build := .generation, generation := generation } else γ
  | .unixTime, now =>
    if γ.build = .generation then
      { γ with build := .idle, signed := some (γ.snapshot prim server now) }
    else γ
  | _, _ => γ

/-- The row that a `Register` puts together. -/
structure Registers (γ : Progress) (peer : StoredPeer) : Prop where
  message : γ.registers = true
  key : peer.nodeId = nodeIdOf prim peer.signingPublic
  credential : γ.obtained = some (⟨peer.nodeId, peer.signingPublic, peer.noisePublic⟩, peer.credential)
  ipv4 : peer.virtualIpv4.isSome
  address : γ.address = peer.virtualIpv4.map fun address => (peer.nodeId, address)
  ipv6 : peer.virtualIpv6 = none

/-- The row that an `UpdateCandidates` writes back. -/
structure Updates (γ : Progress) (peer : StoredPeer) : Prop where
  message : γ.registers = false
  row : ∃ row, γ.loaded = some (peer.nodeId, row) ∧
    peer = { row with nodeId := peer.nodeId, candidates := peer.candidates }
  address : γ.address = peer.virtualIpv4.map fun address => (peer.nodeId, address)

/-- What a task may do next. -/
def Allows (γ : Progress) : Section → Prop
  | .recv _ _ | .onlineLeave _ _ | .revokeRow _ | .deleteRow _ | .updateNetworkConfig _ =>
    γ.pending.Settled ∧ γ.build = .idle
  | .selectCredential nodeId => ∃ identity, γ.identity prim = some identity ∧ identity.nodeId = nodeId
  | .updatePeer peer =>
    (γ.Registers prim peer ∨ γ.Updates peer) ∧ γ.pending = .none ∧ γ.build = .idle
  | .bumpSnapshot => (∃ change, γ.pending = .changed change) ∧ γ.build = .idle
  | .onlineInsert nodeId _ => γ.pending = .bumped (.enter nodeId) ∧ γ.build = .idle
  | .onlineRemove nodeId => γ.pending = .bumped (.remove nodeId) ∧ γ.build = .idle
  | .onlinePeerIds | .onlineSenders => γ.pending.Settled
  | .send _ message => ∀ snapshot, carried message = some snapshot → γ.signed = some snapshot
  | .push _ snapshot => γ.signed = some snapshot
  | _ => True

/-- Between two messages, and at the end of a request. -/
def Done (γ : Progress) : Prop := γ.pending.Settled ∧ γ.build = .idle

variable {prim server}

lemma allows_of_routine {γ : Progress} {c : Section} (h : Routine c) : γ.Allows prim c := by
  cases c with
  | send connection message =>
    intro snapshot hcarried
    rw [show carried message = none from h] at hcarried
    cases hcarried
  | _ => trivial

lemma next_of_routine {γ : Progress} {c : Section} (h : Routine c) (r : Response c) :
    (γ.next prim server c r).pending = γ.pending ∧ (γ.next prim server c r).build = γ.build ∧
      (γ.next prim server c r).signed = γ.signed := by
  cases c with
  | loadPeer nodeId =>
    cases r with
    | error e => exact ⟨rfl, rfl, rfl⟩
    | ok row =>
      simp only [next]
      split <;> exact ⟨rfl, rfl, rfl⟩
  | _ => first | exact ⟨rfl, rfl, rfl⟩ | cases h

end Progress

/-! ### How a snapshot comes about -/

section Build

variable {prim : Primitives} {server : Server}

/-- The sections that read the online nodes for a snapshot. -/
def ReadsOnline : Section → Prop
  | .onlinePeerIds | .onlineSenders => True
  | _ => False

variable {c : Section}

lemma perform_readsOnline (h : ReadsOnline c) (e : Env) (s : CoordState) :
    (perform prim server e c s).2 = s := by
  cases c <;> first | rfl | cases h

/-- Nothing of the snapshot being built or signed last is different. -/
structure Progress.SameBuild (γ γ' : Progress) : Prop where
  build : γ'.build = γ.build
  online : γ'.online = γ.online
  peers : γ'.peers = γ.peers
  config : γ'.config = γ.config
  generation : γ'.generation = γ.generation
  signed : γ'.signed = γ.signed

/-- What a section can do for the snapshot that a task is building. -/
inductive BuildStep (prim : Primitives) (server : Server) (s : CoordState) (γ γ' : Progress) :
    Section → Prop
  | same (c : Section) (h : γ.SameBuild γ') : BuildStep prim server s γ γ' c
  /-- a new message, or a failed read -/
  | dropped (c : Section) (hbuild : γ'.build = .idle) (hpeers : γ'.peers = γ.peers ∨ γ'.peers = [])
      (hsigned : ∀ snapshot, γ'.signed = some snapshot → γ.signed = some snapshot) :
      BuildStep prim server s γ γ' c
  | begun (c : Section) (ids : List NodeId) (hc : ReadsOnline c) (hids : ids.Perm s.online.keys)
      (h : γ' = { γ with build := .online, online := ids }) : BuildStep prim server s γ γ' c
  | peers (hbuild : γ.build = .online) (h : γ' = { γ with build := .peers, peers := s.loadPeers }) :
      BuildStep prim server s γ γ' .loadPeers
  | config (hbuild : γ.build = .peers)
      (h : γ' = { γ with build := .config, config := s.networkConfig }) :
      BuildStep prim server s γ γ' .networkConfig
  | generation (hbuild : γ.build = .config)
      (h : γ' = { γ with build := .generation, generation := s.snapshotGeneration }) :
      BuildStep prim server s γ γ' .loadGeneration
  | signed (now : UInt64) (hbuild : γ.build = .generation)
      (h : γ' = { γ with build := .idle, signed := some (γ.snapshot prim server now) }) :
      BuildStep prim server s γ γ' .unixTime

/-- The sections after which the snapshot of a task may have come further. -/
def Builds : Section → Prop
  | .recv _ _ | .onlinePeerIds | .onlineSenders | .loadPeers | .networkConfig | .loadGeneration
  | .unixTime => True
  | _ => False

lemma next_sameBuild {γ : Progress} (hc : ¬ Builds c) (r : Response c) :
    γ.SameBuild (γ.next prim server c r) := by
  unfold Progress.next
  split <;> first | exact ⟨rfl, rfl, rfl, rfl, rfl, rfl⟩ | exact absurd trivial hc |
    (split <;> exact ⟨rfl, rfl, rfl, rfl, rfl, rfl⟩)

/-- **What one section does for a snapshot.** -/
theorem buildStep_next (e : Env) (c : Section) (s : CoordState) (γ : Progress) :
    BuildStep prim server s γ (γ.next prim server c (perform prim server e c s).1) c := by
  have hsame : γ.SameBuild γ := ⟨rfl, rfl, rfl, rfl, rfl, rfl⟩
  by_cases hc : Builds c
  · cases c with
    | recv => exact .dropped _ rfl (.inr rfl) nofun
    | onlinePeerIds => exact .begun _ _ trivial (List.perm_insertionSort ..) rfl
    | onlineSenders => exact .begun _ _ trivial (List.Perm.refl _) rfl
    | loadPeers =>
      simp only [perform, Env.database]
      split
      · exact .dropped _ rfl (.inl rfl) fun _ h => h
      · by_cases hbuild : γ.build = .online
        · simp only [Progress.next, if_pos hbuild]
          exact .peers hbuild rfl
        · simp only [Progress.next, if_neg hbuild]
          exact .same _ hsame
    | networkConfig =>
      simp only [perform, Env.database]
      split
      · exact .dropped _ rfl (.inl rfl) fun _ h => h
      · by_cases hbuild : γ.build = .peers
        · simp only [Progress.next, if_pos hbuild]
          exact .config hbuild rfl
        · simp only [Progress.next, if_neg hbuild]
          exact .same _ hsame
    | loadGeneration =>
      by_cases hbuild : γ.build = .config
      · simp only [Progress.next, if_pos hbuild]
        exact .generation hbuild rfl
      · simp only [Progress.next, if_neg hbuild]
        exact .same _ hsame
    | unixTime =>
      by_cases hbuild : γ.build = .generation
      · simp only [Progress.next, if_pos hbuild]
        exact .signed _ hbuild rfl
      · simp only [Progress.next, if_neg hbuild]
        exact .same _ hsame
    | _ => cases hc
  · exact .same _ (next_sameBuild hc _)

end Build

/-! ### Every operation keeps to it -/

section Discipline

variable (prim : Primitives) (server : Server)

/-- From the monitor state `γ` a program does what is allowed and comes to a rest. -/
abbrev Progresses {β : Type} (γ : Progress) (p : Task β) : Prop :=
  p.Meets (Progress.next prim server) (Progress.Allows prim) (fun γ _ => γ.Done) γ

variable {prim server} {α : Type}

variable {γ : Progress} {p : Task α} {Q : α → Prop}

lemma progresses_of_routine (h : p.Within Routine Q) (hγ : γ.Done) : Progresses prim server γ p := by
  have hmeets : p.Meets (Progress.next prim server) (Progress.Allows prim)
      (fun γ a => γ.Done ∧ Q a) γ := by
    refine h.meets ?_ ?_ hγ
    · exact fun γ c _ hc => Progress.allows_of_routine hc
    · intro γ c r hdone hc
      obtain ⟨hpending, hbuild, -⟩ := @Progress.next_of_routine prim server γ c hc r
      exact ⟨hpending ▸ hdone.1, hbuild ▸ hdone.2⟩
  exact hmeets.mono fun _ _ hdone => hdone.1

lemma networkSnapshot_progresses (hbuild : γ.build = .online) :
    (networkSnapshot prim server γ.online).run.Meets (Progress.next prim server)
      (Progress.Allows prim) (outcome
        (fun γ' snapshot => γ'.signed = some snapshot ∧ γ'.pending = γ.pending ∧ γ'.build = .idle)
        fun γ' _ => γ'.pending = γ.pending ∧ γ'.build = .idle) γ := by
  refine ⟨trivial, fun peers => ?_⟩
  cases peers with
  | error e => exact ⟨rfl, rfl⟩
  | ok peers =>
    refine ⟨trivial, fun config => ?_⟩
    cases config with
    | error e => exact ⟨by simp [Progress.next, hbuild], rfl⟩
    | ok config =>
      refine ⟨trivial, fun generation => ⟨trivial, fun now => ?_⟩⟩
      simp only [Progress.next, hbuild, if_true]
      exact ⟨rfl, rfl, rfl⟩

lemma answer_progresses (hγ : γ.Done) (connection : UInt64) (answer : NetworkSnapshot → ControlMessage)
    (hanswer : ∀ snapshot, carried (answer snapshot) = some snapshot) {rest : CoordM α}
    (hrest : ∀ γ : Progress, γ.Done → Progresses prim server γ rest.run) :
    Progresses prim server γ (do
      let snapshot ← networkSnapshot prim server (← onlinePeerIds)
      send connection (answer snapshot)
      rest : CoordM α).run := by
  refine ⟨hγ.1, fun ids => ?_⟩
  refine Meets.bindExcept (M := fun γ' snapshot => γ'.signed = some snapshot ∧ γ'.Done)
    (Meets.mono (networkSnapshot_progresses rfl) ?_) ?_
  · rintro γ' (e | snapshot) h
    · exact ⟨h.1 ▸ hγ.1, h.2⟩
    · exact ⟨h.1, h.2.1 ▸ hγ.1, h.2.2⟩
  · rintro γ' snapshot ⟨hsigned, hdone⟩
    refine ⟨fun carriedSnapshot hcarried => ?_, fun taken => ?_⟩
    · rw [hanswer] at hcarried
      rw [hsigned, hcarried]
    · cases taken with
      | false => exact hdone
      | true => exact hrest γ' hdone

lemma completeRegister_progresses (connection : UInt64) (peer : StoredPeer)
    (previousPeer : Option StoredPeer) (hpending : γ.pending = .changed (.enter peer.nodeId))
    (hbuild : γ.build = .idle) :
    Progresses prim server γ (completeRegister prim server connection peer previousPeer).run := by
  refine ⟨trivial, fun touched => ?_⟩
  cases touched with
  | error e => exact ⟨by simp [Progress.next, hpending, Pending.fail, Pending.Settled], hbuild⟩
  | ok _ =>
    refine ⟨⟨⟨_, hpending⟩, hbuild⟩, fun bumped => ?_⟩
    cases bumped with
    | error e => exact ⟨by simp [Progress.next, hpending, Pending.fail, Pending.Settled], hbuild⟩
    | ok _ =>
      refine ⟨⟨by simp [Progress.next, hpending, Pending.bump], hbuild⟩, fun wasOnline => ?_⟩
      refine Meets.bindExcept (M := fun γ _ => γ.Done) ⟨trivial, fun listed => ?_⟩
        fun γ listed hγ => ?_
      · cases listed with
        | error e => exact ⟨trivial, rfl⟩
        | ok listed =>
          exact ⟨by simp [Progress.next, hbuild, Pending.Settled], by simp [Progress.next, hbuild]⟩
      refine answer_progresses hγ connection
        (fun snapshot => .registerOk (prim.base64Encode peer.credential) _ snapshot)
        (fun _ => rfl) fun γ hγ => ?_
      split
      · refine progresses_of_routine (Q := fun _ => True) ?_ hγ
        exact Within.bindExcept broadcastSnapshot_routine fun _ => trivial
      · exact hγ

lemma registerCredential_progresses (request : Registration)
    (signingPublic noisePublic : Vector UInt8 32)
    (hsigning : decodeKey prim request.signingPublic = .ok signingPublic)
    (hnoise : decodeKey prim request.noisePublic = .ok noisePublic) :
    (registerCredential prim server request signingPublic noisePublic).run.Meets
      (Progress.next prim server) (Progress.Allows prim)
      (outcome (fun γ result => γ = { Progress.received (.register request) with
          obtained := some (⟨request.nodeId, signingPublic, noisePublic⟩, result.1) })
        fun γ _ => γ.Done)
      (Progress.received (.register request)) := by
  have hidle : (Progress.received (.register request)).Done := ⟨trivial, rfl⟩
  have hidentity : (Progress.received (.register request)).identity prim =
      some ⟨request.nodeId, signingPublic, noisePublic⟩ := by
    simp only [Progress.received, Progress.identity, hsigning, hnoise]
  unfold registerCredential
  split
  · refine meets_okOr_bind (fun token _ => ?_) hidle
    refine ⟨trivial, fun registration => ?_⟩
    cases registration with
    | error e => exact hidle
    | ok registration => rfl
  · refine meets_okOr_bind (fun bytes _ => meets_okOr_bind (fun credential _ => ?_) hidle) hidle
    refine ⟨trivial, fun now => meets_ofExcept_bind (fun _ _ => ?_) fun _ _ => hidle⟩
    refine ⟨⟨_, hidentity, rfl⟩, fun selected => ?_⟩
    rcases selected with e | _ | stored
    · exact hidle
    · exact hidle
    · show (Progress.received (.register request)).next prim server
        (.selectCredential request.nodeId) (.ok (some stored)) = _
      simp only [Progress.next, hidentity, Option.map_some]

lemma bump_then_broadcast_progresses (result : α) (hpending : γ.pending = .changed .other)
    (hbuild : γ.build = .idle) :
    Progresses prim server γ
      (do bumpSnapshot; broadcastSnapshot; pure result : CoordM α).run := by
  refine ⟨⟨⟨_, hpending⟩, hbuild⟩, fun bumped => ?_⟩
  cases bumped with
  | error e => exact ⟨by simp [Progress.next, hpending, Pending.fail, Pending.Settled], hbuild⟩
  | ok _ =>
    refine progresses_of_routine (Q := fun _ => True) ?_
      ⟨by simp [Progress.next, hpending, Pending.bump, Pending.Settled], hbuild⟩
    exact Within.bindExcept broadcastSnapshot_routine fun _ => trivial

lemma handleRegister_progresses (connection : UInt64) (request : Registration) :
    Progresses prim server (Progress.received (.register request))
      (handleRegister prim server connection request).run := by
  have hidle : (Progress.received (.register request)).Done := ⟨trivial, rfl⟩
  refine meets_ofExcept_bind (fun signingPublic hsigning => ?_) fun _ _ => hidle
  refine meets_ofExcept_bind (fun noisePublic hnoise => ?_) fun _ _ => hidle
  refine meets_ofExcept_bind (fun _ hkey => ?_) fun _ _ => hidle
  have hnode : request.nodeId = nodeIdOf prim signingPublic := by
    by_contra hne
    rw [if_pos (Ne.symm hne)] at hkey
    cases hkey
  refine Meets.bindExcept (registerCredential_progresses request _ _ hsigning hnoise)
    fun γ obtained hγ => ?_
  subst hγ
  obtain ⟨credential, invite⟩ := obtained
  refine ⟨trivial, fun previous => ?_⟩
  cases previous with
  | error e => exact hidle
  | ok previous =>
    refine ⟨trivial, fun allocated => ?_⟩
    cases allocated with
    | error e => exact hidle
    | ok allocated =>
      refine ⟨⟨.inl ⟨rfl, hnode, rfl, ?_, ?_, rfl⟩, rfl, rfl⟩, fun updated => ?_⟩
      · simp
      · show ((previous.bind StoredPeer.virtualIpv4).map fun address => (request.nodeId, address)).or
          (some (request.nodeId, allocated)) = ((previous.bind StoredPeer.virtualIpv4).or
            (some allocated)).map fun address => (request.nodeId, address)
        cases previous.bind StoredPeer.virtualIpv4 <;> rfl
      cases updated with
      | error e => exact ⟨trivial, rfl⟩
      | ok _ =>
        cases invite with
        | none => exact completeRegister_progresses connection _ previous rfl rfl
        | some registration =>
          refine ⟨trivial, fun changed => ?_⟩
          cases changed with
          | error e => exact ⟨trivial, rfl⟩
          | ok _ => exact completeRegister_progresses connection _ previous rfl rfl

lemma handleUpdateCandidates_progresses (connection : UInt64) (registered : Option NodeId)
    (candidates : List Candidate) :
    Progresses prim server (Progress.received (.updateCandidates candidates))
      (handleUpdateCandidates prim server connection registered candidates).run := by
  cases registered with
  | none => exact ⟨trivial, rfl⟩
  | some nodeId =>
    refine ⟨trivial, fun loaded => ?_⟩
    rcases loaded with e | _ | row
    · exact ⟨trivial, rfl⟩
    · exact ⟨trivial, rfl⟩
    · refine ⟨⟨.inr ⟨rfl, ⟨row, rfl, rfl⟩, rfl⟩, rfl, rfl⟩, fun updated => ?_⟩
      cases updated with
      | error e => exact ⟨trivial, rfl⟩
      | ok _ =>
        -- the change is recorded exactly where the candidates differ
        generalize hγ : Progress.next prim server _ (.updatePeer _) _ = γ
        have hbuild : γ.build = .idle := by rw [← hγ]; rfl
        have hpending : γ.pending =
            if row.candidates != candidates then .changed .other else .none := by
          rw [← hγ]
          rfl
        refine ⟨trivial, fun touched => ?_⟩
        cases touched with
        | error e =>
          refine ⟨?_, hbuild⟩
          simp only [Progress.next, hpending]
          split <;> trivial
        | ok _ =>
          simp only [Prog.bind, ExceptT.bindCont]
          split
          · rename_i hchanged
            rw [if_pos hchanged] at hpending
            exact bump_then_broadcast_progresses _ hpending hbuild
          · rename_i hsame
            rw [if_neg hsame] at hpending
            refine answer_progresses ⟨?_, hbuild⟩ connection .snapshot (fun _ => rfl) fun γ hγ => hγ
            show γ.pending.Settled
            rw [hpending]
            trivial

lemma handleMessage_progresses (connection : UInt64) (registered : Option NodeId)
    (message : ControlMessage) : Progresses prim server (Progress.received message)
      (handleMessage prim server connection registered message).run := by
  have hdone : (Progress.received message).Done := ⟨trivial, rfl⟩
  cases message with
  | register request => exact handleRegister_progresses connection request
  | updateCandidates candidates =>
    exact handleUpdateCandidates_progresses connection registered candidates
  | requestSnapshot =>
    refine meets_okOr_bind (fun nodeId _ => ?_) hdone
    exact answer_progresses hdone connection .snapshotResponse (fun _ => rfl) fun γ hγ => hγ
  | lookupPeer nodeId =>
    exact progresses_of_routine (handleLookupPeer_routine prim connection registered nodeId) hdone
  | listPeers => exact progresses_of_routine (handleListPeers_routine connection registered) hdone
  | ping nonce =>
    refine progresses_of_routine (Q := fun _ => True) ?_ hdone
    exact Within.bindExcept (send_routine _ rfl) fun _ => trivial
  | runtimeStatus virtualMtu =>
    cases registered with
    | none => exact hdone
    | some nodeId => exact ⟨trivial, fun _ => hdone⟩
  | pong nonce =>
    cases registered with
    | none => exact hdone
    | some nodeId =>
      refine ⟨trivial, fun touched => ?_⟩
      cases touched <;> exact hdone
  | _ => exact hdone

lemma serveMessages_progresses (connection : UInt64) (messages : List Incoming)
    (registered : Option NodeId) (γ : Progress) (hγ : γ.Done) :
    Progresses prim server γ (serveMessages prim server connection registered messages) := by
  refine meets_serveMessages (fun _ _ _ hγ => ?_) (fun _ _ _ _ hγ => ?_)
    messages (fun message _ registered _ _ => ?_) registered γ hγ
  · exact hγ
  · exact ⟨nofun, fun _ => hγ⟩
  refine (handleMessage_progresses connection registered message).mono ?_
  rintro γ (error | registered) hγ <;> exact hγ

lemma leave_progresses (connection : UInt64) (nodeId : NodeId) (hγ : γ.Done) :
    Progresses prim server γ (leave connection nodeId) := by
  refine Meets.callBind hγ fun becameOffline => Meets.callBind trivial fun _ => ?_
  cases becameOffline with
  | false => exact hγ
  | true =>
    have hbump : ∀ γ : Progress, γ.pending = .changed .other → γ.build = .idle →
        Progresses prim server γ bumpSnapshot.run := by
      refine fun γ hpending hbuild => ⟨⟨⟨_, hpending⟩, hbuild⟩, fun bumped => ?_⟩
      cases bumped with
      | error e => exact ⟨by simp [Progress.next, hpending, Pending.fail, Pending.Settled], hbuild⟩
      | ok _ => exact ⟨by simp [Progress.next, hpending, Pending.bump, Pending.Settled], hbuild⟩
    refine Meets.bind (hbump _ rfl hγ.2) fun γ bumped hγ => ?_
    cases bumped with
    | error e => exact hγ
    | ok _ =>
      refine progresses_of_routine (Q := fun _ => True) ?_ hγ
      exact Within.bind broadcastSnapshot_routine fun _ _ => trivial

lemma afterRemoval_progresses (nodeId : NodeId) (hpending : γ.pending = .changed (.remove nodeId))
    (hbuild : γ.build = .idle) :
    Progresses prim server γ (do
      bumpSnapshot; disconnectPeer nodeId; broadcastSnapshot; pure true : CoordM Bool).run := by
  refine ⟨⟨⟨_, hpending⟩, hbuild⟩, fun bumped => ?_⟩
  cases bumped with
  | error e => exact ⟨by simp [Progress.next, hpending, Pending.fail, Pending.Settled], hbuild⟩
  | ok _ =>
    refine ⟨⟨by simp [Progress.next, hpending, Pending.bump], hbuild⟩, fun senders => ?_⟩
    refine progresses_of_routine (Q := fun _ => True) ?_ ⟨trivial, hbuild⟩
    refine Within.bind (M := fun _ => True) ?_ fun result _ => ?_
    · exact Within.forMExcept _ senders fun _ => ⟨rfl, fun _ => trivial⟩
    · cases result with
      | error e => trivial
      | ok _ => exact Within.bindExcept broadcastSnapshot_routine fun _ => trivial

lemma revokePeerInner_progresses (nodeId : NodeId) :
    Progresses prim server Progress.idle (revokePeerInner nodeId).run := by
  refine ⟨⟨trivial, rfl⟩, fun changed => ?_⟩
  rcases changed with e | _ | _
  · exact ⟨trivial, rfl⟩
  · exact ⟨trivial, rfl⟩
  · exact afterRemoval_progresses nodeId rfl rfl

lemma deletePeerInner_progresses (nodeId : NodeId) :
    Progresses prim server Progress.idle (deletePeerInner nodeId).run := by
  refine ⟨⟨trivial, rfl⟩, fun changed => ?_⟩
  rcases changed with e | _ | _
  · exact ⟨trivial, rfl⟩
  · exact ⟨trivial, rfl⟩
  · exact afterRemoval_progresses nodeId rfl rfl

lemma updateNetworkConfig_progresses (config : ServerNetworkConfig) :
    Progresses prim server Progress.idle (updateNetworkConfig config).run := by
  refine ⟨⟨trivial, rfl⟩, fun changed => ?_⟩
  rcases changed with e | _ | _
  · exact ⟨trivial, rfl⟩
  · exact ⟨trivial, rfl⟩
  · refine ⟨⟨⟨_, rfl⟩, rfl⟩, fun bumped => ?_⟩
    cases bumped with
    | error e => exact ⟨trivial, rfl⟩
    | ok _ => exact progresses_of_routine broadcastSnapshot_routine ⟨trivial, rfl⟩

lemma broadcastSnapshotNow_progresses (hγ : γ.Done) :
    Progresses prim server γ (broadcastSnapshotNow prim server).run := by
  refine ⟨hγ.1, fun found => ?_⟩
  refine Meets.bindExcept (M := fun γ' snapshot => γ'.signed = some snapshot ∧ γ'.Done)
    (Meets.mono (networkSnapshot_progresses rfl) ?_) ?_
  · rintro γ' (e | snapshot) h
    · exact ⟨h.1 ▸ hγ.1, h.2⟩
    · exact ⟨h.1, h.2.1 ▸ hγ.1, h.2.2⟩
  · rintro γ' snapshot ⟨hsigned, hdone⟩
    have hloop : ∀ senders : List UInt64, (senders.forM fun connection =>
        ExceptT.lift (call (.push connection snapshot)) : CoordM PUnit).run.Meets
          (Progress.next prim server) (Progress.Allows prim)
          (fun γ _ => γ.signed = some snapshot ∧ γ.Done) γ' := by
      refine fun senders => Meets.forMExcept _ senders ⟨hsigned, hdone⟩ fun connection _ γ hγ => ?_
      exact ⟨hγ.1, fun _ => hγ⟩
    exact (hloop found.1).mono fun _ _ h => h.2

lemma snapshotBroadcastRound_progresses :
    Progresses prim server Progress.idle (snapshotBroadcastRound prim server) := by
  refine Meets.callBind trivial fun shouldBroadcast => ?_
  cases shouldBroadcast with
  | false => exact ⟨trivial, rfl⟩
  | true =>
    refine Meets.bind (broadcastSnapshotNow_progresses ⟨trivial, rfl⟩) fun γ result hγ => ?_
    cases result with
    | ok _ => exact progresses_of_routine broadcastContinue_routine hγ
    | error e => exact ⟨trivial, fun _ => progresses_of_routine broadcastContinue_routine hγ⟩

/-- Names and invites are no change that a snapshot shows. -/
lemma progresses_of_administrative (h : p.Within Administrative Q) :
    Progresses prim server Progress.idle p := by
  have hidle : Progress.idle.Done := ⟨trivial, rfl⟩
  refine (h.meets (fun γ c _ hc => ?_) (fun γ c r hγ hc => ?_) hidle).mono
    fun _ _ hγ => hγ.1
  · cases c with
    | unixTime | updatePeerMetadata | insertInvite | consumeDownloadToken | deleteInvite => trivial
    | _ => cases hc
  · cases c with
    | unixTime =>
      have hbuild : γ.build ≠ .generation := by simp [hγ.2]
      simpa only [Progress.next, if_neg hbuild] using hγ
    | updatePeerMetadata m name notes =>
      cases r with
      | ok _ => exact hγ
      | error e =>
        refine ⟨?_, hγ.2⟩
        simp only [Progress.next]
        cases γ.pending <;> trivial
    | insertInvite | consumeDownloadToken | deleteInvite => exact hγ
    | _ => cases hc

/-- **Every operation of the coordinator** does only what is allowed and comes to a rest. -/
theorem body_progresses (request : Request) :
    Progresses prim server Progress.idle (request.body prim server) := by
  cases request with
  | socket connection messages =>
    refine Meets.bind (serveMessages_progresses connection messages none _ ⟨trivial, rfl⟩)
      fun γ registered hγ => ?_
    cases registered with
    | none => exact hγ
    | some nodeId => exact leave_progresses connection nodeId hγ
  | revoke nodeId => exact Meets.bind (revokePeerInner_progresses nodeId) fun _ _ hγ => hγ
  | delete nodeId => exact Meets.bind (deletePeerInner_progresses nodeId) fun _ _ hγ => hγ
  | configure config => exact Meets.bind (updateNetworkConfig_progresses config) fun _ _ hγ => hγ
  | broadcastLoop => exact snapshotBroadcastRound_progresses
  | rename nodeId name notes =>
    refine Meets.bind (progresses_of_administrative (Q := fun _ => True) ?_) fun _ _ hγ => hγ
    exact (updatePeerMetadata_within nodeId name notes).mono (fun _ hc => hc.1) fun _ _ => trivial
  | invite id inviteToken downloadToken name notes ttlSeconds =>
    exact Meets.bind (progresses_of_administrative (createInvite_within ..)) fun _ _ hγ => hγ
  | download token =>
    exact Meets.bind (progresses_of_administrative (consumeDownloadToken_within _)) fun _ _ hγ => hγ
  | deleteInvite id =>
    exact Meets.bind (progresses_of_administrative (deleteInvite_within _)) fun _ _ hγ => hγ

end Discipline

/-- The coordinator, followed by this monitor. -/
abbrev Tracked (prim : Primitives) (server : Server) :
    Pool.Spec Section Response CoordState Env Request Progress :=
  coordinator prim server Progress.idle (Progress.next prim server)

abbrev TrackedCfg := Pool.Config Section Response CoordState Progress

lemma allows_of_reachable {prim : Primitives} {server : Server}
    {guard : TrackedCfg → Pool.Move Env Request → Prop} {init : CoordState} {cfg : TrackedCfg}
    (h : (Tracked prim server).Reachable guard ((Tracked prim server).initial init) cfg) {t : ℕ}
    {c : Section} (hat : cfg.at t = some c) : (cfg.phase t).Allows prim c := by
  have hmeets := (h.invariant_rest (I := fun _ _ => True) (fun t => ⟨⟨⟩, rfl⟩)
    (fun _ => ⟨trivial, rfl⟩) trivial (fun _ _ q _ => body_progresses q) (fun _ _ _ _ _ _ _ _ => trivial)
    fun _ _ _ _ _ _ _ _ _ _ _ => trivial).2 t
  exact Pool.Config.ok_at hmeets hat

end Vela.Coord
