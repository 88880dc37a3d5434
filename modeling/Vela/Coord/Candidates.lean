import Vela.Coord.Presence

/-!
# What an update of candidates writes

`UpdateCandidates` reads the row of its node in one section and writes all of it back in another, and
other connections run in between.

* `updateCandidates_only_candidates_iff` — a section of the handler changes nothing but the candidates
  and `last_seen` of the node's row exactly if the row is still what was read for the message;
* `registration_undone` — a `Register` on another connection between the read and the write is undone.
-/

namespace Vela.Coord

open Vela.Proto Vela.Crypto Prog
open Standing (next Allows enter next_message)

/-- While an `UpdateCandidates` is in hand, only the row of the registered node is written, from the
one row that was read. -/
def Standing.Mends (γ : Standing) (c : Section) : Prop :=
  ∀ candidates, γ.message = some (.updateCandidates candidates) →
    match c with
    | .updatePeer peer => ∃ nodeId read, γ.registered = some nodeId ∧ γ.found = [(nodeId, read)] ∧
        peer = { read with nodeId, candidates }
    | .touchPeer nodeId => γ.registered = some nodeId
    | c => c.part ≠ .rows

open Standing (Mends)

section Programs

variable {prim : Primitives} {server : Server} {connection : UInt64} {registered : Option NodeId}
  {γ : Standing}

variable {c : Section}

lemma mends_of_part (h : c.part ≠ .rows) : γ.Mends c := by
  intro candidates _
  cases c <;> first | exact h | exact absurd rfl h

lemma mends_of_message (h : ∀ candidates, γ.message ≠ some (.updateCandidates candidates)) : γ.Mends c :=
  fun candidates hmessage => absurd hmessage (h candidates)

lemma part_of_passive (h : Passive c) : c.part ≠ .rows := by
  cases c <;> first | exact h.elim | simp [Section.part]

lemma mends_of_within {α : Type} {p : Task α} {good : Section → Prop} {post : α → Prop}
    (h : p.Within good post) (hgood : ∀ c, good c → c.part ≠ .rows) :
    p.Meets next Mends (fun _ _ => True) γ :=
  (h.meets (I := fun _ => True) (fun _ c _ hc => mends_of_part (hgood c hc))
    (fun _ _ _ _ _ => trivial) trivial).mono fun _ _ _ => trivial

/-- Another message, or none, is in hand. -/
def otherMessage (message : Option ControlMessage) : Discipline Section Response :=
  .monitor next Mends fun γ => γ.message = message

section Other

variable {message : Option ControlMessage}
  (h : ∀ candidates, message ≠ some (.updateCandidates candidates))

include h

lemma otherMessage_call {c : Section} (hc : Handles c) : (otherMessage message).holds (call c) := by
  rintro γ rfl
  exact ⟨mends_of_message h, fun r => next_message hc.not_recv r⟩

lemma otherMessage_broadcastSnapshot : (otherMessage message).holds broadcastSnapshot.run := by
  rintro γ rfl
  refine ⟨mends_of_message h, fun shouldStart => ?_⟩
  cases shouldStart with
  | false => rfl
  | true => exact ⟨mends_of_message h, fun _ => rfl⟩

end Other

lemma handleUpdateCandidates_mends {candidates : List Candidate} (hreg : γ.registered = registered)
    (hmessage : γ.message = some (.updateCandidates candidates)) (hfound : γ.found = []) :
    (handleUpdateCandidates prim server connection registered candidates).run.Meets next Mends
      (fun _ _ => True) γ := by
  cases registered with
  | none => trivial
  | some nodeId =>
    refine ⟨mends_of_part nofun, fun loaded => ?_⟩
    rcases loaded with e | _ | read
    · trivial
    · trivial
    · have hstored : Mends { γ with found := (nodeId, read) :: γ.found }
          (.updatePeer { read with nodeId, candidates }) := by
        intro candidates' hmessage'
        obtain rfl : candidates = candidates' := by
          injection hmessage.symm.trans hmessage' with hmessage'
          injection hmessage'
        exact ⟨nodeId, read, hreg, by rw [hfound], rfl⟩
      refine ⟨hstored, fun updated => ?_⟩
      cases updated with
      | error e => trivial
      | ok _ =>
        refine ⟨fun _ _ => hreg, fun touched => ?_⟩
        cases touched with
        | error e => trivial
        | ok _ =>
          simp only [Prog.bind, ExceptT.bindCont]
          split
          · exact mends_of_within (bump_then_broadcast_within (some nodeId)) fun _ => part_of_passive
          · exact mends_of_within (answer_within prim server connection (some nodeId) _)
              fun _ => part_of_passive

lemma handleMessage_mends {message : ControlMessage} (hreg : γ.registered = registered)
    (hmessage : γ.message = some message) (hfound : γ.found = []) :
    (handleMessage prim server connection registered message).run.Meets next Mends
      (fun _ _ => True) γ := by
  by_cases hother : ∀ candidates, some message ≠ some (.updateCandidates candidates)
  · have hholds := holds_handleMessage (fun _ hc _ => otherMessage_call hother hc)
      (otherMessage_broadcastSnapshot hother) (fun _ => otherMessage_call hother nofun) prim server connection registered message
    exact (hholds γ hmessage).mono fun _ _ _ => trivial
  · push Not at hother
    obtain ⟨candidates, hcandidates⟩ := hother
    cases hcandidates
    exact handleUpdateCandidates_mends hreg hmessage hfound

/-- **Every request** writes rows as `Mends` says. -/
theorem body_mends (request : Request) :
    (request.body prim server).Meets next (fun γ c => γ.Allows c ∧ γ.Mends c) (fun γ _ => γ.Done)
      (enter request) := by
  have hadmin : request ≠ .broadcastLoop →
      (∀ connection messages, request ≠ .socket connection messages) →
      (request.body prim server).Meets next Mends (fun _ _ => True) Standing.start := by
    intro hloop hsocket
    have hnone : ∀ candidates, none ≠ some (ControlMessage.updateCandidates candidates) := nofun
    have hholds := holds_administration (fun _ hc _ => otherMessage_call hnone hc.handles)
      (otherMessage_broadcastSnapshot hnone) prim server hloop hsocket
    exact (hholds Standing.start rfl).mono fun _ _ _ => trivial
  have hboth : (request.body prim server).Meets next Mends (fun _ _ => True) (enter request) →
      (request.body prim server).Meets next (fun γ c => γ.Allows c ∧ γ.Mends c) (fun γ _ => γ.Done)
        (enter request) :=
    fun h => ((body_attends prim server request).and h).mono fun _ _ h => h.1
  cases request with
  | socket connection messages =>
    have hmessages := @serveMessages_meets prim server connection
      (fun γ c => γ.Allows c ∧ γ.Mends c) (fun _ _ h => ⟨h, mends_of_part nofun⟩)
      (fun _ _ _ => ⟨trivial, mends_of_part nofun⟩) fun _ _ _ h hmessage hfound =>
        ((handleMessage_attends h hmessage).and
          (handleMessage_mends h.registered hmessage hfound)).mono fun _ _ h => h.1
    refine Meets.bind (hmessages messages none _ ⟨rfl, rfl, rfl, rfl⟩) fun γ registered h => ?_
    cases registered with
    | none => exact ⟨h.registered, h.entering⟩
    | some nodeId =>
      have hleave := mends_of_within (γ := γ) (leave_within connection nodeId) (by
        rintro c (hc | rfl | rfl)
        · cases c <;> first | exact hc.elim | nofun
        · nofun
        · nofun)
      exact ((leave_attends h).and hleave).mono fun _ _ h => h.1
  | broadcastLoop =>
    exact hboth (mends_of_within (snapshotBroadcastRound_within prim server) fun _ => part_of_passive)
  | _ => exact hboth (hadmin nofun nofun)

end Programs

/-! ### The row of the node -/

/-- The columns that an update of candidates leaves alone. -/
def PeerRow.fixed (row : PeerRow) : PeerRow := { row with candidates := [], lastSeen := 0 }

/-- Nothing changes but the candidates and `last_seen` of the node's row. -/
def OnlyCandidates (nodeId : NodeId) (s s' : CoordState) : Prop :=
  (∀ m, m ≠ nodeId → s'.peers.lookup m = s.peers.lookup m) ∧
    (s'.peers.lookup nodeId).map PeerRow.fixed = (s.peers.lookup nodeId).map PeerRow.fixed

/-- The row is live and has what was read, in the columns that are written back.  An address that was
not read is not written. -/
structure PeerRow.Current (row : PeerRow) (read : StoredPeer) : Prop where
  signingPublic : row.signingPublic = read.signingPublic
  noisePublic : row.noisePublic = read.noisePublic
  incarnation : row.incarnation = read.incarnation
  virtualIpv4 : read.virtualIpv4 = none ∨ row.virtualIpv4 = read.virtualIpv4
  virtualIpv6 : read.virtualIpv6 = none ∨ row.virtualIpv6 = read.virtualIpv6
  credential : row.credential = read.credential
  capabilities : row.capabilities = read.capabilities
  revoked : row.revoked = false

section Row

variable {prim : Primitives} {server : Server} {s s' : CoordState} {n : NodeId}

lemma OnlyCandidates.of_peers (h : s'.peers = s.peers) : OnlyCandidates n s s' := by
  refine ⟨fun m _ => ?_, ?_⟩ <;> rw [h]

lemma onlyCandidates_touchPeer (lastSeen : Int) :
    OnlyCandidates n s (s.updateRow n fun row => { row with lastSeen }).2 := by
  unfold CoordState.updateRow
  split
  · exact .of_peers rfl
  · rename_i row hrow
    refine ⟨fun m hm => AList.lookup_insert_ne hm, ?_⟩
    simp [hrow, PeerRow.fixed]

lemma or_eq_right_iff {α : Type} {a b : Option α} : a.or b = b ↔ a = none ∨ b = a := by
  cases a with
  | none => simp
  | some a => simp [eq_comm]

variable {row : PeerRow} {read : StoredPeer} {candidates : List Candidate}

lemma fixed_upsertRow_iff :
    (CoordState.upsertRow { read with nodeId := n, candidates } (some row)).fixed = row.fixed ↔
      row.Current read := by
  simp only [CoordState.upsertRow, PeerRow.fixed, PeerRow.mk.injEq, or_eq_right_iff]
  constructor
  · rintro ⟨hsigning, hnoise, hincarnation, -, hv4, hv6, hcredential, hcapabilities, hlive, -⟩
    exact ⟨hsigning.symm, hnoise.symm, hincarnation.symm, hv4, hv6, hcredential.symm,
      hcapabilities.symm, hlive.symm⟩
  · intro h
    exact ⟨h.signingPublic.symm, h.noisePublic.symm, h.incarnation.symm, trivial, h.virtualIpv4,
      h.virtualIpv6, h.credential.symm, h.capabilities.symm, h.revoked.symm, trivial, trivial, trivial⟩

lemma onlyCandidates_updatePeer_iff :
    OnlyCandidates n s (s.updatePeer { read with nodeId := n, candidates }) ↔
      ∃ row, s.peers.lookup n = some row ∧ row.Current read := by
  unfold OnlyCandidates CoordState.updatePeer
  simp only [AList.lookup_insert, Option.map_some]
  constructor
  · rintro ⟨-, hrow⟩
    cases hlookup : s.peers.lookup n with
    | none => simp [hlookup] at hrow
    | some row =>
      rw [hlookup, Option.map_some] at hrow
      exact ⟨row, rfl, fixed_upsertRow_iff.1 (Option.some.inj hrow)⟩
  · rintro ⟨row, hlookup, hcurrent⟩
    refine ⟨fun m hm => AList.lookup_insert_ne hm, ?_⟩
    rw [hlookup, Option.map_some]
    exact congrArg some (fixed_upsertRow_iff.2 hcurrent)

lemma current_storedPeer (h : row.revoked = false) : row.Current (CoordState.storedPeer n row) :=
  ⟨rfl, rfl, rfl, .inr rfl, .inr rfl, rfl, rfl, h⟩

end Row

/-! ### Runs -/

/-- When the row is written back, it still is what was read for the message. -/
def WritesCurrent (γ : Standing) (nodeId : NodeId) (s : CoordState) (e : Env) (c : Section) : Prop :=
  ∀ peer, c = .updatePeer peer → e.fault = none →
    ∃ read row, γ.found = [(nodeId, read)] ∧ s.peers.lookup nodeId = some row ∧ row.Current read

variable {prim : Primitives} {server : Server} {c : Section}

lemma onlyCandidates_iff {γ : Standing} {n : NodeId} {candidates : List Candidate} (hmends : γ.Mends c)
    (hmessage : γ.message = some (.updateCandidates candidates)) (hreg : γ.registered = some n) (e : Env)
    (s : CoordState) :
    OnlyCandidates n s (perform prim server e c s).2 ↔ WritesCurrent γ n s e c := by
  have hallowed := hmends candidates hmessage
  by_cases hpart : c.part = .rows
  · cases c with
    | updatePeer peer =>
      obtain ⟨m, read, hreg', hfound, rfl⟩ := hallowed
      obtain rfl : n = m := Option.some.inj (hreg.symm.trans hreg')
      cases hfault : e.fault with
      | some error =>
        simp only [perform, Env.database, hfault]
        exact iff_of_true (.of_peers rfl) fun _ _ hnone => by rw [hfault] at hnone; cases hnone
      | none =>
        simp only [perform, Env.database, hfault, onlyCandidates_updatePeer_iff]
        constructor
        · rintro ⟨row, hrow, hcurrent⟩ _ _ _
          exact ⟨read, row, hfound, hrow, hcurrent⟩
        · intro h
          obtain ⟨read', row, hfound', hrow, hcurrent⟩ := h _ rfl hfault
          obtain ⟨⟨-, rfl⟩, -⟩ := by simpa using hfound.symm.trans hfound'
          exact ⟨row, hrow, hcurrent⟩
    | touchPeer m =>
      obtain rfl : n = m := Option.some.inj (hreg.symm.trans hallowed)
      refine iff_of_true ?_ (by simp [WritesCurrent])
      exact Env.database_state (.of_peers rfl) (onlyCandidates_touchPeer _)
    | updatePeerMetadata | revokeRow | deleteRow => exact absurd rfl hallowed
    | _ => cases hpart
  · refine iff_of_true (.of_peers ((perform_frame e c s).peers hpart)) ?_
    rintro peer rfl
    exact absurd rfl hpart

lemma mends_of_reachable {init : CoordState} {cfg : VisitedCfg}
    (h : (Visited prim server).Reachable (fun _ _ => True) ((Visited prim server).initial init) cfg)
    {t : ℕ} (hat : cfg.at t = some c) : (cfg.phase t).Mends c := by
  obtain ⟨_, hobserved⟩ := h.observed (fun _ _ _ _ _ _ _ => ()) ()
  obtain ⟨φ, hphase, hmeets⟩ := hobserved.recorded.traced (I := fun cfg φ _ => Mirrored cfg φ)
    (fun _ => Standing.start) (fun _ => ⟨⟨⟩, rfl⟩) (fun _ => ⟨rfl, rfl⟩) (fun _ => rfl)
    (fun _ _ request _ => body_mends request) (fun _ _ _ _ _ _ hphase _ _ _ => hphase.spawn)
    (fun _ _ _ _ _ c _ r _ hphase _ _ _ _ => hphase.step c r)
  rw [hphase t]
  exact (Pool.Config.ok_at (hmeets t) hat).2

/-- **When an update of candidates only updates candidates.**  In every run, of any number of
connections and requests, a section of the handling of an `UpdateCandidates` of the node `n` changes
no column of `n`'s row but the candidates and `last_seen`, and no other row, exactly if the row, when
it is written back, is live and still has the keys, the incarnation, the addresses, the credential and
the capabilities that were read for the message. -/
theorem updateCandidates_only_candidates_iff (prim : Primitives) (server : Server) (init : CoordState)
    (cfg : VisitedCfg)
    (h : (Visited prim server).Reachable (fun _ _ => True) ((Visited prim server).initial init) cfg)
    (t : ℕ) (n : NodeId) (candidates : List Candidate)
    (hmessage : (cfg.phase t).message = some (.updateCandidates candidates))
    (hregistered : (cfg.phase t).registered = some n) (c : Section) (hat : cfg.at t = some c)
    (e : Env) :
    OnlyCandidates n cfg.shared (perform prim server e c cfg.shared).2 ↔
      WritesCurrent (cfg.phase t) n cfg.shared e c :=
  onlyCandidates_iff (mends_of_reachable h hat) hmessage hregistered e cfg.shared

/-! ### One client, and two of the same node -/

def updatingClient : Request :=
  .socket 7 [demoRegister "key" "credential" none, .text (.updateCandidates [])]

def restartedClient : Request :=
  .socket 8 [.text (.register
    { nodeId := demoNode, incarnation := 3, signingPublic := "key", noisePublic := "key"
      credential := "credential", inviteToken := none, candidates := [], capabilities := [] })]

/-- The row has been read for `UpdateCandidates`. -/
def untilRead : List (Pool.Move Env Request) :=
  .spawn 0 updatingClient :: List.replicate 20 (.step 0 demoEnv)

/-- The row that the next section of the first task leaves. -/
def rowAfter (cfg : VisitedCfg) : Option PeerRow :=
  (cfg.at 0).bind fun c => (perform demoPrim demoServer demoEnv c cfg.shared).2.peers.lookup demoNode

def untilReadEnd : {cfg // (Visited demoPrim demoServer).Reachable (fun _ _ => True)
      ((Visited demoPrim demoServer).initial demoState) cfg ∧
      (cfg.phase 0).message = some (.updateCandidates []) ∧ (cfg.phase 0).registered = some demoNode ∧
      (cfg.phase 0).found = (cfg.shared.liveRow demoNode).toList.map (fun row =>
        (demoNode, CoordState.storedPeer demoNode row)) ∧
      (cfg.shared.liveRow demoNode).isSome ∧ (cfg.at 0).isSome} :=
  Pool.Spec.reach (fun _ _ => true) (fun _ _ _ => trivial) untilRead (by decide +kernel)

theorem updateCandidates_only_candidates_undisturbed :
    ∃ (cfg : VisitedCfg) (c : Section), (Visited demoPrim demoServer).Reachable (fun _ _ => True)
        ((Visited demoPrim demoServer).initial demoState) cfg ∧
      (cfg.phase 0).message = some (.updateCandidates []) ∧ (cfg.phase 0).registered = some demoNode ∧
      cfg.at 0 = some c ∧
      OnlyCandidates demoNode cfg.shared (perform demoPrim demoServer demoEnv c cfg.shared).2 := by
  obtain ⟨cfg, hreach, hmessage, hreg, hfound, hlive, hnext⟩ := untilReadEnd
  obtain ⟨row, hrow⟩ := Option.isSome_iff_exists.1 hlive
  obtain ⟨c, hat⟩ := Option.isSome_iff_exists.1 hnext
  refine ⟨cfg, c, hreach, hmessage, hreg, hat, ?_⟩
  refine (updateCandidates_only_candidates_iff demoPrim demoServer demoState cfg hreach 0 demoNode []
    hmessage hreg c hat demoEnv).2 fun _ _ _ => ?_
  obtain ⟨hlookup, hlive⟩ := Option.filter_eq_some_iff.1 hrow
  rw [hrow] at hfound
  exact ⟨_, row, hfound, hlookup, current_storedPeer (by simpa using hlive)⟩

def restartedEnd : {cfg // (Visited demoPrim demoServer).Reachable (fun _ _ => True)
      ((Visited demoPrim demoServer).initial demoState) cfg ∧
      (cfg.phase 0).message = some (.updateCandidates []) ∧ (cfg.phase 0).registered = some demoNode ∧
      (cfg.shared.peers.lookup demoNode).map PeerRow.incarnation = some 3 ∧
      (rowAfter cfg).map PeerRow.incarnation = some 2} :=
  Pool.Spec.reach (fun _ _ => true) (fun _ _ _ => trivial)
    (untilRead ++ .spawn 1 restartedClient :: List.replicate 6 (.step 1 demoEnv)) (by decide +kernel)

/-- The node registers again, with another incarnation, when its row has been read for an
`UpdateCandidates` of the older connection: the old incarnation is put back. -/
theorem registration_undone :
    ¬ ∀ (prim : Primitives) (server : Server) (init : CoordState) (cfg : VisitedCfg),
      (Visited prim server).Reachable (fun _ _ => True) ((Visited prim server).initial init) cfg →
      ∀ (t : ℕ) (n : NodeId) (candidates : List Candidate),
        (cfg.phase t).message = some (.updateCandidates candidates) →
        (cfg.phase t).registered = some n → ∀ (c : Section), cfg.at t = some c → ∀ (e : Env),
          OnlyCandidates n cfg.shared (perform prim server e c cfg.shared).2 := by
  intro h
  obtain ⟨cfg, hreach, hmessage, hreg, hbefore, hafter⟩ := restartedEnd
  obtain ⟨row, hrow, hrestored⟩ := Option.map_eq_some_iff.1 hafter
  obtain ⟨c, hat, hlookup⟩ := Option.bind_eq_some_iff.1 hrow
  have honly := (h demoPrim demoServer demoState cfg hreach 0 demoNode [] hmessage hreg c hat demoEnv).2
  obtain ⟨before, hlookup', hincarnation⟩ := Option.map_eq_some_iff.1 hbefore
  rw [hlookup, hlookup', Option.map_some, Option.map_some] at honly
  have hfixed : row.fixed = before.fixed := Option.some.inj honly
  have hsame : row.fixed.incarnation = before.fixed.incarnation := by rw [hfixed]
  simp only [PeerRow.fixed, hrestored, hincarnation] at hsame
  exact absurd hsame (by decide)

end Vela.Coord
