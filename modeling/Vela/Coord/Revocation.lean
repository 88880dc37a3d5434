import Vela.Coord.Footprint

/-!
# Revocation and deletion

`Register` and `UpdateCandidates` read the row of a node in one section and write it back, with
`revoked = 0`, in a later one.  A revocation or deletion that falls in between is undone.

* `revocation_sticky` — in every run in which no effective removal of `n` falls into such a gap, once
  `n` was removed it is live again only after a later invite registration of `n`;
* `revocation_undone` — a run with a removal in the gap.
-/

namespace Vela.Coord

open Vela.Proto Vela.Crypto Prog Function
open Pool (Move)

/-! ### The monitor -/

/-- Where a task is in the handling of its current message. -/
structure Writing where
  /-- the message is an `UpdateCandidates` that is not stored yet -/
  updating : Bool
  /-- the node whose row was read and is about to be written -/
  pending : Option NodeId

namespace Writing

def idle : Writing := ⟨false, none⟩

def isUpdateCandidates : ControlMessage → Bool
  | .updateCandidates _ => true
  | _ => false

def next (w : Writing) : (c : Section) → Response c → Writing
  | .recv _ message, _ => ⟨isUpdateCandidates message, none⟩
  | .registerWithInvite nodeId _ _ _, .ok _ => { w with pending := some nodeId }
  | .selectCredential nodeId, .ok (some _) => { w with pending := some nodeId }
  | .loadPeer nodeId, .ok (some _) => if w.updating then { w with pending := some nodeId } else w
  -- a failed read or allocation ends the message without a write
  | .loadPeer _, .error _ => { w with pending := none }
  | .allocateVirtualIpv4 _, .error _ => { w with pending := none }
  | .updatePeer _, .ok _ => idle
  | .updatePeer _, .error _ => { w with pending := none }
  | _, _ => w

/-- A row is written only by a task that announced it, and no snapshot is built before an update of
candidates is stored. -/
def Allows (w : Writing) : Section → Prop
  | .updatePeer peer => w.pending = some peer.nodeId
  | .loadPeers => w.updating = false
  | _ => True

lemma updating_next {w : Writing} {c : Section} (hrecv : ∀ connection message, c ≠ .recv connection message)
    (hwrite : ∀ peer, c ≠ .updatePeer peer) (r : Response c) : (w.next c r).updating = w.updating := by
  cases c with
  | recv connection message => exact absurd rfl (hrecv connection message)
  | updatePeer peer => exact absurd rfl (hwrite peer)
  | registerWithInvite | allocateVirtualIpv4 => cases r <;> rfl
  | selectCredential nodeId => rcases r with e | _ | _ <;> rfl
  | loadPeer nodeId =>
    rcases r with e | _ | _
    · rfl
    · rfl
    · simp only [next]
      split <;> rfl
  | _ => rfl

end Writing

/-! ### Every program announces what it writes -/

section Discipline

variable (prim : Primitives) (server : Server)

/-- The discipline of a program from the monitor state `w`. -/
abbrev Disciplined {α : Type} (w : Writing) (p : Task α) : Prop :=
  p.Meets Writing.next Writing.Allows (fun _ _ => True) w

variable {α : Type} {p : Task α} {Q : α → Prop}

/-- The programs that no update waits for. -/
def settled : Discipline Section Response :=
  .monitor Writing.next Writing.Allows fun w => w.updating = false

lemma settled_call {c : Section} (hrecv : ∀ connection message, c ≠ .recv connection message)
    (hwrite : ∀ peer, c ≠ .updatePeer peer) : settled.holds (call c) := by
  refine fun w hw => ⟨?_, fun r => (Writing.updating_next hrecv hwrite r).trans hw⟩
  cases c with
  | updatePeer peer => exact absurd rfl (hwrite peer)
  | loadPeers => exact hw
  | _ => trivial

lemma settled_broadcastSnapshot : settled.holds broadcastSnapshot.run := by
  refine fun w hw => ⟨trivial, fun shouldStart => ?_⟩
  cases shouldStart with
  | false => exact hw
  | true => exact ⟨trivial, fun _ => hw⟩

lemma settled.disciplined (h : settled.holds p) {w : Writing} (hw : w.updating = false) : Disciplined w p :=
  (h w hw).mono fun _ _ _ => trivial

lemma disciplined_of_passive (h : p.Within Passive Q) {w : Writing} (hw : w.updating = false) :
    Disciplined w p := by
  have hcall : ∀ c, Passive c → settled.holds (call c) := fun c hc =>
    settled_call (by rintro _ _ rfl; exact hc) (by rintro _ rfl; exact hc)
  refine (h.meets (I := fun w : Writing => w.updating = false) ?_ ?_ hw).mono fun _ _ _ => trivial
  · exact fun w c hw hc => (hcall c hc w hw).1
  · exact fun w c r hw hc => (hcall c hc w hw).2 r

lemma handleUpdateCandidates_disciplined (connection : UInt64) (registered : Option NodeId)
    (candidates : List Candidate) : Disciplined ⟨true, none⟩
      (handleUpdateCandidates prim server connection registered candidates).run := by
  cases registered with
  | none => trivial
  | some nodeId =>
    refine ⟨trivial, fun loaded => ?_⟩
    rcases loaded with e | _ | peer
    · trivial
    · trivial
    · -- the row that was read is announced, and written next
      refine ⟨rfl, fun updated => ?_⟩
      cases updated with
      | error e => trivial
      | ok _ =>
        refine ⟨trivial, fun touched => ?_⟩
        cases touched with
        | error e => trivial
        | ok _ =>
          simp only [Prog.bind, ExceptT.bindCont]
          split
          · exact disciplined_of_passive (bump_then_broadcast_within _) rfl
          · exact disciplined_of_passive (answer_within prim server _ _ _) rfl

lemma registerCredential_announces (request : Registration)
    (signingPublic noisePublic : Vector UInt8 32) :
    (registerCredential prim server request signingPublic noisePublic).run.Meets Writing.next
      Writing.Allows (Prog.outcome (fun w _ => w = ⟨false, some request.nodeId⟩) fun _ _ => True)
      ⟨false, none⟩ := by
  unfold registerCredential
  split
  · refine meets_okOr_bind (fun token _ => ?_) trivial
    refine ⟨trivial, fun registration => ?_⟩
    cases registration with
    | error e => trivial
    | ok registration => rfl
  · refine meets_okOr_bind (fun bytes _ => meets_okOr_bind (fun credential _ => ?_) trivial) trivial
    refine ⟨trivial, fun now => meets_ofExcept_bind (fun _ _ => ?_) fun _ _ => trivial⟩
    refine ⟨trivial, fun selected => ?_⟩
    rcases selected with e | _ | stored
    · trivial
    · trivial
    · rfl

lemma completeRegister_disciplined (connection : UInt64) (peer : StoredPeer)
    (previousPeer : Option StoredPeer) {w : Writing} (hw : w.updating = false) :
    Disciplined w (completeRegister prim server connection peer previousPeer).run :=
  settled.disciplined (holds_completeRegister (fun _ hc => settled_call hc.not_recv)
    settled_broadcastSnapshot prim server connection peer previousPeer) hw

lemma handleRegister_disciplined (connection : UInt64) (request : Registration) :
    Disciplined ⟨false, none⟩ (handleRegister prim server connection request).run := by
  refine meets_ofExcept_bind (fun signingPublic _ => ?_) fun _ _ => trivial
  refine meets_ofExcept_bind (fun noisePublic _ => ?_) fun _ _ => trivial
  refine meets_ofExcept_bind (fun _ _ => ?_) fun _ _ => trivial
  refine Meets.bindExcept (registerCredential_announces prim server request _ _)
    fun w obtained hw => ?_
  subst hw
  obtain ⟨storedCredential, invite⟩ := obtained
  refine ⟨trivial, fun previous => ?_⟩
  cases previous with
  | error e => trivial
  | ok previous =>
    refine ⟨trivial, fun allocated => ?_⟩
    cases allocated with
    | error e => trivial
    | ok allocated =>
      refine ⟨?_, fun updated => ?_⟩
      · cases previous <;> rfl
      cases updated with
      | error e => trivial
      | ok _ =>
        cases invite with
        | none => exact completeRegister_disciplined prim server _ _ _ rfl
        | some registration =>
          refine ⟨trivial, fun changed => ?_⟩
          cases changed with
          | error e => trivial
          | ok _ => exact completeRegister_disciplined prim server _ _ _ rfl

lemma handleMessage_disciplined (connection : UInt64) (registered : Option NodeId)
    (message : ControlMessage) : Disciplined ⟨Writing.isUpdateCandidates message, none⟩
      (handleMessage prim server connection registered message).run := by
  cases message with
  | register request => exact handleRegister_disciplined prim server connection request
  | updateCandidates candidates =>
    exact handleUpdateCandidates_disciplined prim server connection registered candidates
  | _ =>
    refine settled.disciplined ?_ rfl
    exact holds_answerMessage (fun _ hc => settled_call hc.not_recv) prim server connection registered
      nofun nofun

lemma serveMessages_disciplined (connection : UInt64) (messages : List Incoming)
    (registered : Option NodeId) (w : Writing) :
    Disciplined w (serveMessages prim server connection registered messages) := by
  refine meets_serveMessages (fun _ _ _ _ => trivial)
    (fun _ _ _ _ _ => ⟨trivial, fun _ => trivial⟩) messages (fun message _ registered _ _ => ?_)
    registered w trivial
  refine (handleMessage_disciplined prim server connection registered message).mono ?_
  rintro _ (error | registered) _ <;> trivial

lemma body_disciplined (request : Request) :
    Disciplined Writing.idle (request.body prim server) := by
  cases request with
  | socket connection messages =>
    refine Meets.bind (serveMessages_disciplined prim server connection messages none _)
      fun w registered _ => ?_
    cases registered with
    | none => trivial
    | some nodeId =>
      refine ((leave_within connection nodeId).meets (I := fun _ => True) ?_ (fun _ _ _ _ _ => trivial)
        trivial).mono fun _ _ _ => trivial
      rintro w c - (hc | rfl | rfl)
      · cases c <;> first | exact hc.elim | trivial
      · trivial
      · trivial
  | broadcastLoop => exact disciplined_of_passive (snapshotBroadcastRound_within prim server) rfl
  | _ =>
    refine settled.disciplined ?_ rfl
    exact holds_administration (fun _ hc => settled_call hc.handles.not_recv) settled_broadcastSnapshot
      prim server nofun nofun

end Discipline

/-! ### The history -/

/-- No removal of `n` since its last invite registration. -/
def Licensed (n : NodeId) : List Event → Prop
  | [] => True
  | .removed m :: older => m ≠ n ∧ Licensed n older
  | .invited m :: older => m = n ∨ Licensed n older

lemma licensed_iff {n : NodeId} {log : List Event} : Licensed n log ↔
    ∀ newer older, log = newer ++ .removed n :: older → .invited n ∈ newer := by
  induction log with
  | nil => simp [Licensed]
  | cons event log ih =>
    constructor
    · intro h newer older heq
      cases newer with
      | nil =>
        obtain ⟨rfl, -⟩ := List.cons.inj heq
        exact absurd rfl h.1
      | cons first newer =>
        obtain ⟨rfl, hrest⟩ := List.cons.inj heq
        cases event with
        | removed m => exact .tail _ (ih.1 h.2 newer older hrest)
        | invited m =>
          rcases h with rfl | h
          · exact .head _
          · exact .tail _ (ih.1 h newer older hrest)
    · intro h
      have hlog : event ≠ .invited n → Licensed n log := by
        refine fun hne => ih.2 fun newer older heq => ?_
        rcases List.mem_cons.1 (h (event :: newer) older (by rw [heq]; rfl)) with heq | hmem
        · exact absurd heq.symm hne
        · exact hmem
      cases event with
      | removed m =>
        refine ⟨?_, hlog (by simp)⟩
        rintro rfl
        exact absurd (h [] log rfl) (List.not_mem_nil)
      | invited m =>
        by_cases hm : m = n
        · exact .inl hm
        · exact .inr (hlog fun heq => hm (Event.invited.inj heq))

/-! ### What the sections do to one node -/

section Sections

variable {prim : Primitives} {server : Server}

variable {n m : NodeId} {s : CoordState} {c : Section}

lemma liveRow_insert_ne (h : m ≠ n) (row : PeerRow) :
    { s with peers := s.peers.insert m row }.liveRow n = s.liveRow n := by
  simp only [CoordState.liveRow, AList.lookup_insert_ne h.symm]

lemma liveRow_updateRow (s : CoordState) (m n : NodeId) (f : PeerRow → PeerRow)
    (hf : ∀ row, (f row).revoked = row.revoked) :
    ((s.updateRow m f).2.liveRow n).isSome = (s.liveRow n).isSome := by
  unfold CoordState.updateRow
  split
  · rfl
  · rename_i row hrow
    by_cases h : m = n
    · subst h
      simp [CoordState.liveRow, AList.lookup_insert, hrow, Option.filter, hf]
      cases row.revoked <;> rfl
    · rw [liveRow_insert_ne h]

/-- The sections that can change whether `n` is live, or what the history says about it. -/
def Concerns (n : NodeId) : Section → Prop
  | .updatePeer peer => peer.nodeId = n
  | .revokeRow m => m = n
  | .deleteRow m => m = n
  | .registerWithInvite m _ _ _ => m = n
  | _ => False

/-- What one section may change, as far as `n` is concerned. -/
def SameFor (n : NodeId) (s s' : CoordState) : Prop :=
  (s'.liveRow n).isSome = (s.liveRow n).isSome ∧ (Licensed n s'.log ↔ Licensed n s.log)

lemma sameFor_updateRow (s : CoordState) (m n : NodeId) (f : PeerRow → PeerRow)
    (hf : ∀ row, (f row).revoked = row.revoked) : SameFor n s (s.updateRow m f).2 :=
  ⟨liveRow_updateRow s m n f hf, by rw [updateRow_log]⟩

lemma sameFor_revokeRow (h : m ≠ n) : SameFor n s (s.revokeRow m).2 := by
  unfold CoordState.revokeRow
  split
  · exact ⟨rfl, .rfl⟩
  · refine ⟨congrArg Option.isSome (liveRow_insert_ne h _), ?_⟩
    exact and_iff_right h

lemma sameFor_deleteRow (h : m ≠ n) : SameFor n s (s.deleteRow m).2 := by
  unfold CoordState.deleteRow
  split
  · exact ⟨rfl, .rfl⟩
  · refine ⟨?_, and_iff_right h⟩
    simp only [CoordState.liveRow, AList.lookup_erase_ne h.symm]

lemma sameFor_registerWithInvite {clock : ℕ → UInt64} {signingPublic noisePublic : Vector UInt8 32}
    {token : String} (h : m ≠ n) :
    SameFor n s (s.registerWithInvite prim server clock m signingPublic noisePublic token).2 := by
  rcases registerWithInvite_cases s clock m signingPublic noisePublic token with
    ⟨error, heq⟩ | ⟨registration, invite, -, -, -, heq⟩
  · rw [heq]
    exact ⟨rfl, .rfl⟩
  · rw [heq]
    exact ⟨rfl, or_iff_right h⟩

lemma perform_unconcerned (h : ¬ Concerns n c) (e : Env) (s : CoordState) :
    SameFor n s (perform prim server e c s).2 := by
  have hrefl : SameFor n s s := ⟨rfl, .rfl⟩
  have hframe : ∀ s' : CoordState, s'.peers = s.peers → s'.log = s.log → SameFor n s s' := by
    intro s' hpeers hlog
    refine ⟨?_, by rw [hlog]⟩
    simp only [CoordState.liveRow, hpeers]
  have hpassive : Passive c → SameFor n s (perform prim server e c s).2 := fun hc =>
    hframe _ (perform_passive hc e s).peers (perform_passive hc e s).log
  have hinvites : Invites c → SameFor n s (perform prim server e c s).2 := by
    intro hc
    obtain ⟨invites, heq⟩ := @perform_invites prim server c hc e s
    rw [heq]
    exact hframe _ rfl rfl
  cases c with
  | updatePeer peer =>
    exact Env.database_state hrefl
      ⟨congrArg Option.isSome (liveRow_insert_ne h _), .rfl⟩
  | updatePeerMetadata m name notes =>
    exact Env.database_state hrefl (sameFor_updateRow s m n _ fun _ => rfl)
  | touchPeer m =>
    exact Env.database_state hrefl (sameFor_updateRow s m n _ fun _ => rfl)
  | revokeRow m => exact Env.database_state hrefl (sameFor_revokeRow h)
  | deleteRow m => exact Env.database_state hrefl (sameFor_deleteRow h)
  | registerWithInvite m =>
    exact Env.database_state hrefl (sameFor_registerWithInvite h)
  | recv | onlineInsert | onlineRemove => exact hframe _ rfl rfl
  | onlineLeave m connection =>
    exact hframe _ ((Frame.onlineLeave s m connection).peers nofun)
      ((Frame.onlineLeave s m connection).log nofun nofun)
  | insertInvite | consumeDownloadToken | deleteInvite => exact hinvites trivial
  | _ => exact hpassive trivial

lemma pending_of_next {w : Writing} {e : Env}
    (h : (w.next c (perform prim server e c s).1).pending = some n) :
    w.pending = some n ∨ (s.liveRow n).isSome ∨
      Licensed n (perform prim server e c s).2.log := by
  cases c with
  | recv => cases h
  | registerWithInvite m signingPublic noisePublic token =>
    revert h
    simp only [perform, Env.database, CoordState.registerWithInvite]
    split
    · exact fun h => .inl h
    · split
      · exact fun h => .inl h
      · split
        · exact fun h => .inl h
        · exact fun h => .inr (.inr (.inl (Option.some.inj h)))
  | selectCredential m =>
    revert h
    simp only [perform, Env.database]
    split
    · exact fun h => .inl h
    · cases hrow : s.liveRow m with
      | none => exact fun h => .inl h
      | some row =>
        intro h
        cases h
        exact .inr (.inl (by rw [hrow]; rfl))
  | loadPeer m =>
    revert h
    simp only [perform, Env.database, CoordState.loadPeer]
    split
    · intro h
      cases h
    · cases hrow : s.liveRow m with
      | none => exact fun h => .inl h
      | some row =>
        simp only [Option.map_some, Writing.next]
        split
        · intro h
          cases h
          exact .inr (.inl (by rw [hrow]; rfl))
        · exact fun h => .inl h
  | allocateVirtualIpv4 m =>
    revert h
    simp only [perform, Env.database]
    split
    · intro h
      cases h
    · cases s.allocateVirtualIpv4 prim m with
      | error e =>
        intro h
        cases h
      | ok address => exact fun h => .inl h
  | updatePeer peer =>
    generalize (perform prim server e (.updatePeer peer) s).1 = r at h
    cases r <;> cases h
  | _ => exact .inl h

lemma registerWithInvite_licensed (s : CoordState) (clock : ℕ → UInt64) (n : NodeId)
    (signingPublic noisePublic : Vector UInt8 32) (token : String) :
    (s.registerWithInvite prim server clock n signingPublic noisePublic token).2 = s ∨
      Licensed n (s.registerWithInvite prim server clock n signingPublic noisePublic token).2.log := by
  unfold CoordState.registerWithInvite
  simp only
  split
  · exact .inl rfl
  · split
    · exact .inl rfl
    · exact .inr (.inl rfl)

lemma revokeRow_removed (s : CoordState) (n : NodeId) :
    ((s.revokeRow n).2 = s ∧ s.liveRow n = none) ∨
      ((s.liveRow n).isSome ∧ (s.revokeRow n).2.liveRow n = none) := by
  unfold CoordState.revokeRow
  cases hrow : s.liveRow n with
  | none => exact .inl ⟨rfl, rfl⟩
  | some row =>
    refine .inr ⟨rfl, ?_⟩
    simp [CoordState.liveRow, AList.lookup_insert, Option.filter]

lemma deleteRow_removed (s : CoordState) (n : NodeId) :
    (s.deleteRow n).2 = s ∨
      ((s.peers.lookup n).isSome ∧ (s.deleteRow n).2.liveRow n = none) := by
  unfold CoordState.deleteRow
  cases hrow : s.peers.lookup n with
  | none => exact .inl rfl
  | some row =>
    refine .inr ⟨rfl, ?_⟩
    simp [CoordState.liveRow, AList.lookup_erase]

end Sections

/-! ### Runs -/

section Runs

variable {prim : Primitives} {server : Server} {n : NodeId}

/-- The coordinator with its monitor. -/
abbrev Coordinator (prim : Primitives) (server : Server) :
    Pool.Spec Section Response CoordState Env Request Writing :=
  coordinator prim server Writing.idle Writing.next

abbrev Cfg := Pool.Config Section Response CoordState Writing

/-- The next section of `t` takes the row of `n` out. -/
def Removes (n : NodeId) (cfg : Cfg) (t : ℕ) (e : Env) : Prop :=
  e.fault = none ∧
    ((cfg.at t = some (.revokeRow n) ∧ (cfg.shared.liveRow n).isSome) ∨
      (cfg.at t = some (.deleteRow n) ∧ (cfg.shared.peers.lookup n).isSome))

/-- No row of `n` is taken out while a task is between reading and writing the row of `n`. -/
def NoRemovalInGap (n : NodeId) (cfg : Cfg) : Move Env Request → Prop
  | .spawn _ _ => True
  | .step t e => Removes n cfg t e → ∀ u, (cfg.phase u).pending ≠ some n

/-- Where `n` is live, or about to be written, the history allows it. -/
structure Sticky (n : NodeId) (s : CoordState) (φ : ℕ → Writing) : Prop where
  live : (s.liveRow n).isSome → Licensed n s.log
  pending : ∀ t, (φ t).pending = some n → Licensed n s.log

variable {φ : ℕ → Writing} {t : ℕ} {s s' : CoordState} {w : Writing}

lemma sticky_of_licensed (h : Licensed n s.log) : Sticky n s φ :=
  ⟨fun _ => h, fun _ _ => h⟩

lemma pending_update {u : ℕ} (h : (update φ t w u).pending = some n) :
    w.pending = some n ∨ (φ u).pending = some n := by
  by_cases hu : u = t
  · subst hu
    exact .inl (by simpa using h)
  · exact .inr (by simpa [hu] using h)

lemma sticky_of_sameFor (h : Sticky n s φ) (hsame : SameFor n s s')
    (hw : w.pending = some n → (φ t).pending = some n ∨ (s.liveRow n).isSome ∨ Licensed n s'.log) :
    Sticky n s' (update φ t w) := by
  refine ⟨fun hlive => hsame.2.2 (h.live (hsame.1 ▸ hlive)), fun u hu => ?_⟩
  rcases pending_update hu with hpending | hpending
  · rcases hw hpending with hold | hlive | hlicensed
    · exact hsame.2.2 (h.pending t hold)
    · exact hsame.2.2 (h.live hlive)
    · exact hlicensed
  · exact hsame.2.2 (h.pending u hpending)

lemma sticky_of_removed (hnone : s'.liveRow n = none) (hgap : ∀ u, (φ u).pending ≠ some n) :
    Sticky n s' (update φ t (φ t)) := by
  refine ⟨fun hlive => ?_, fun u hu => ?_⟩
  · rw [hnone] at hlive
    cases hlive
  · rcases pending_update hu with hpending | hpending
    · exact absurd hpending (hgap t)
    · exact absurd hpending (hgap u)

/-- **One section.** -/
theorem sticky_step (cfg : Cfg) (t : ℕ) (e : Env) (c : Section)
    (h : Sticky n cfg.shared cfg.phase) (hguard : NoRemovalInGap n cfg (.step t e))
    (hat : cfg.at t = some c) (hok : (cfg.phase t).Allows c) :
    Sticky n (perform prim server e c cfg.shared).2
      (update cfg.phase t
        ((cfg.phase t).next c (perform prim server e c cfg.shared).1)) := by
  have hrefl : SameFor n cfg.shared cfg.shared := ⟨rfl, .rfl⟩
  by_cases hc : Concerns n c
  · -- the four sections about `n` itself
    cases c with
    | updatePeer peer =>
      obtain rfl : peer.nodeId = n := hc
      refine sticky_of_licensed ?_
      exact Env.database_state (P := fun s' => Licensed peer.nodeId s'.log) (h.pending t hok)
        (h.pending t hok)
    | registerWithInvite m signingPublic noisePublic token =>
      obtain rfl : m = n := hc
      have hstate : (perform prim server e (.registerWithInvite m signingPublic noisePublic token)
          cfg.shared).2 = cfg.shared ∨ Licensed m (perform prim server e
            (.registerWithInvite m signingPublic noisePublic token) cfg.shared).2.log :=
        Env.database_state (P := fun s' => s' = cfg.shared ∨ Licensed m s'.log) (.inl rfl)
          (registerWithInvite_licensed cfg.shared e.clock m signingPublic noisePublic token)
      rcases hstate with hsame | hlicensed
      · exact sticky_of_sameFor h (by rw [hsame]; exact hrefl) pending_of_next
      · exact sticky_of_licensed hlicensed
    | revokeRow m =>
      obtain rfl : m = n := hc
      cases hfault : e.fault with
      | some error =>
        simp only [perform, Env.database, hfault]
        exact sticky_of_sameFor h hrefl .inl
      | none =>
        simp only [perform, Env.database, hfault]
        rcases revokeRow_removed cfg.shared m with ⟨hsame, -⟩ | ⟨hlive, hnone⟩
        · exact sticky_of_sameFor h (by rw [hsame]; exact hrefl) .inl
        · exact sticky_of_removed hnone (hguard ⟨hfault, .inl ⟨hat, hlive⟩⟩)
    | deleteRow m =>
      obtain rfl : m = n := hc
      cases hfault : e.fault with
      | some error =>
        simp only [perform, Env.database, hfault]
        exact sticky_of_sameFor h hrefl .inl
      | none =>
        simp only [perform, Env.database, hfault]
        rcases deleteRow_removed cfg.shared m with hsame | ⟨hrow, hnone⟩
        · exact sticky_of_sameFor h (by rw [hsame]; exact hrefl) .inl
        · exact sticky_of_removed hnone (hguard ⟨hfault, .inr ⟨hat, hrow⟩⟩)
    | _ => cases hc
  · exact sticky_of_sameFor h (perform_unconcerned hc e _) pending_of_next

lemma sticky_spawn {q : Request} (h : Sticky n s φ) (ha : q.accept s = some s') :
    Sticky n s' (update φ t Writing.idle) := by
  have hsame : SameFor n s s' := by
    unfold Request.accept at ha
    split at ha
    · split at ha
      · cases ha
        exact ⟨rfl, .rfl⟩
      · cases ha
    · cases ha
      exact ⟨rfl, .rfl⟩
  exact sticky_of_sameFor h hsame fun hw => by cases hw

/-- **Revocation and deletion are sticky outside the gap.**  In every run in which no row of `n` is
taken out between another task's read and write of it, a live row of `n` after a removal is preceded
by an invite registration of `n` after that removal. -/
theorem revocation_sticky (prim : Primitives) (server : Server) (n : NodeId) (init : CoordState)
    (hinit : init.log = []) (cfg : Cfg)
    (h : (Coordinator prim server).Reachable (NoRemovalInGap n)
      ((Coordinator prim server).initial init) cfg) (newer older : List Event)
    (hlog : cfg.shared.log = newer ++ .removed n :: older)
    (hlive : (cfg.shared.liveRow n).isSome) : .invited n ∈ newer := by
  have hstart : Sticky n init fun _ => Writing.idle :=
    sticky_of_licensed (by rw [hinit]; trivial)
  have hstep : ∀ (cfg : Cfg) t e c r s', Sticky n cfg.shared cfg.phase →
      NoRemovalInGap n cfg (.step t e) → cfg.at t = some c → (cfg.phase t).Allows c →
      exec prim server e c cfg.shared = some (r, s') →
      Sticky n s' (update cfg.phase t ((cfg.phase t).next c r)) := by
    intro cfg t e c r s' hi hguard hat hok hexec
    obtain ⟨rfl, rfl⟩ := Prod.mk.inj (Option.some.inj hexec)
    exact sticky_step cfg t e c hi hguard hat hok
  obtain ⟨hinv, -⟩ := h.invariant (I := Sticky n) (fun t => ⟨⟨⟩, rfl⟩) hstart
    (fun _ _ q _ => body_disciplined prim server q) (fun s s' φ t q hi ha => sticky_spawn hi ha) hstep
  exact licensed_iff.1 (hinv.live hlive) newer older hlog

end Runs

/-! ### A removal in the gap -/

section Gap

/-- The peer registers again with its credential; after its row was found, it is revoked; then the
registration writes the row. -/
def gapMoves : List (Move Env Request) :=
  [.spawn 0 (.socket 7 [demoRegister "key" "credential" none]),
    .step 0 demoEnv, .step 0 demoEnv, .step 0 demoEnv,
    .spawn 1 (.revoke demoNode), .step 1 demoEnv,
    .step 0 demoEnv, .step 0 demoEnv, .step 0 demoEnv]

def gapEnd : {cfg // (Coordinator demoPrim demoServer).Reachable (fun _ _ => True)
      ((Coordinator demoPrim demoServer).initial demoState) cfg ∧ cfg.shared.log = [.removed demoNode] ∧
      (cfg.shared.liveRow demoNode).isSome} :=
  Pool.Spec.reach (fun _ _ => true) (fun _ _ _ => trivial) gapMoves (by decide +kernel)

/-- The revoked peer is live again, and nobody invited it. -/
theorem revocation_undone :
    ¬ ∀ (prim : Primitives) (server : Server) (n : NodeId) (init : CoordState), init.log = [] →
      ∀ cfg : Cfg, (Coordinator prim server).Reachable (fun _ _ => True)
        ((Coordinator prim server).initial init) cfg → ∀ newer older,
          cfg.shared.log = newer ++ .removed n :: older → (cfg.shared.liveRow n).isSome →
            .invited n ∈ newer := by
  intro h
  obtain ⟨cfg, hreach, hlog, hlive⟩ := gapEnd
  exact absurd (h demoPrim demoServer demoNode demoState rfl cfg hreach [] [] hlog hlive)
    List.not_mem_nil

/-- A move that is no removal. -/
def notRemoval (cfg : Cfg) : Move Env Request → Bool
  | .spawn _ _ => true
  | .step t _ =>
    match cfg.at t with
    | some (.revokeRow _) | some (.deleteRow _) => false
    | _ => true

lemma noRemovalInGap_of_notRemoval (n : NodeId) (cfg : Cfg) (m : Move Env Request)
    (h : notRemoval cfg m = true) : NoRemovalInGap n cfg m := by
  cases m with
  | spawn t q => trivial
  | step t e =>
    rintro ⟨-, ⟨hat, -⟩ | ⟨hat, -⟩⟩
    · simp [notRemoval, hat] at h
    · simp [notRemoval, hat] at h

/-- The peer is revoked while no registration runs, -/
def revokeMoves : List (Move Env Request) := [.spawn 1 (.revoke demoNode), .step 1 demoEnv]

/-- and then registers with the invite. -/
def reinviteMoves : List (Move Env Request) :=
  [.spawn 0 (.socket 7 [demoRegister "key" "" (some "token")]), .step 0 demoEnv, .step 0 demoEnv,
    .step 0 demoEnv, .step 0 demoEnv, .step 0 demoEnv]

lemma reinviteMoves_facts :
    (((Coordinator demoPrim demoServer).runMoves (fun _ _ => true)
      ((Coordinator demoPrim demoServer).initial demoState) revokeMoves).bind fun cfg =>
        (Coordinator demoPrim demoServer).runMoves notRemoval cfg reinviteMoves).map
          (fun cfg => (cfg.shared.log, (cfg.shared.liveRow demoNode).isSome)) =
      some ([.invited demoNode, .removed demoNode], true) := by
  decide +kernel

lemma reachable_revokeMoves {prim : Primitives} {server : Server} {init : CoordState} {cfg : Cfg}
    (h : (Coordinator prim server).runMoves (fun _ _ => true)
      ((Coordinator prim server).initial init) revokeMoves = some cfg) :
    (Coordinator prim server).Reachable (NoRemovalInGap demoNode)
      ((Coordinator prim server).initial init) cfg := by
  simp only [revokeMoves, Pool.Spec.runMoves, if_true, Option.bind_eq_some_iff,
    Option.some.injEq] at h
  obtain ⟨started, hspawn, revoked, hstep, rfl⟩ := h
  have hstarted : NoRemovalInGap demoNode ((Coordinator prim server).initial init)
      (.spawn 1 (.revoke demoNode)) := trivial
  refine .step (.step .refl hstarted hspawn) ?_ hstep
  obtain ⟨-, s, -, rfl⟩ := Pool.Spec.move_spawn hspawn
  rintro - u hpending
  rcases pending_update hpending with hpending | hpending
  · cases hpending
  · cases hpending

theorem revocation_sticky_reinvited :
    ∃ cfg : Cfg, (Coordinator demoPrim demoServer).Reachable (NoRemovalInGap demoNode)
      ((Coordinator demoPrim demoServer).initial demoState) cfg ∧
      ∃ newer older, cfg.shared.log = newer ++ .removed demoNode :: older ∧
        (cfg.shared.liveRow demoNode).isSome ∧ .invited demoNode ∈ newer := by
  obtain ⟨cfg, hrun, hfacts⟩ := Option.map_eq_some_iff.1 reinviteMoves_facts
  obtain ⟨revoked, hrevoke, hreinvite⟩ := Option.bind_eq_some_iff.1 hrun
  obtain ⟨hlog, hlive⟩ := Prod.mk.inj hfacts
  have hreach := Pool.Spec.reachable_of_runMoves (noRemovalInGap_of_notRemoval demoNode)
    reinviteMoves (reachable_revokeMoves hrevoke) hreinvite
  exact ⟨cfg, hreach, [.invited demoNode], [], hlog, hlive,
    revocation_sticky demoPrim demoServer demoNode demoState rfl cfg hreach _ _ hlog hlive⟩

end Gap

end Vela.Coord
