import Vela.Core.Holding
import Vela.Core.Install

/-!
# Sessions and the identity they were made for

`apply_snapshot` decides whether a peer keeps its session, takes the session if not, and stores the
new record, in three sections.  Between the second and the third the peer has no session and the old
record, so that a handshake that was checked against the old record can start one.  What no interleaving
changes: updates exclude each other (`updates_exclusive`), and a session is what `establish` has made it
(`session_started`).
-/

namespace Vela.Core

open Vela.Proto Vela.Crypto Vela.Ip Holding Function

variable {suite : Suite} {node : Node} {fuel : ℕ}

/-- A handshake does not start a session of a peer whose session a snapshot update has taken and
whose record it has still to store. -/
def EstablishesApart (cfg : Pool.Config Section Response NodeState Holding) :
    Pool.Move Env Request → Prop
  | .spawn _ _ => True
  | .step t _ => ∀ p id path cipher expected handshake,
      cfg.at t = some (.establish p id path cipher expected handshake) →
      (cfg.shared.heap p).info = expected → ∀ u, (cfg.phase u).locked = true →
      (cfg.phase u).taken ≠ some p

section Step

variable {s s' : NodeState} {e : Env} {c : Section} {r : Response c} {γ : Holding} {p : PeerRef}

lemma next_known (hexec : exec suite node e c s = some (r, s')) {info : PeerInfo}
    (h : (γ.next c r).known = some (p, info)) :
    (γ.Has p ∧ (s.heap p).info = info ∨ γ.known = some (p, info)) ∧ c ≠ .lockSnapshotUpdate ∧
      ∀ q stored, c ≠ .peer q (.storeInfo stored) := by
  cases c with
  | lockSnapshotUpdate => cases h
  | peer q op =>
    cases op with
    | info =>
      cases hexec
      refine ⟨.inl ?_, nofun, by simp⟩
      have hq : q ∈ γ.refs.map Prod.snd ∧ (q, (s.heap q).info) = (p, info) := by
        by_cases hq : q ∈ γ.refs.map Prod.snd
        · exact ⟨hq, Option.some.inj ((if_pos hq).symm.trans h)⟩
        · cases (if_neg hq).symm.trans h
      obtain ⟨hmem, heq⟩ := hq
      cases heq
      obtain ⟨⟨nodeId, q⟩, hq, rfl⟩ := List.mem_map.1 hmem
      exact ⟨⟨nodeId, hq⟩, rfl⟩
    | storeInfo stored => cases h
    | takeActive expected =>
      refine ⟨.inr ?_, nofun, by simp⟩
      cases expected <;> cases r <;> exact h
    | keepalive | handleData _ _ _ =>
      refine ⟨.inr ?_, nofun, by simp⟩
      cases r <;> exact h
    | _ => exact ⟨.inr h, nofun, by simp⟩
  | finishHandshake q id message sender info =>
    refine ⟨.inr ?_, nofun, nofun⟩
    rcases r with error | (_ | finished) <;> exact h
  | _ => exact ⟨.inr h, nofun, nofun⟩

lemma next_taken (hexec : exec suite node e c s = some (r, s')) (h : (γ.next c r).taken = some p) :
    ((s'.heap p).active = none ∨ γ.taken = some p) ∧ c ≠ .lockSnapshotUpdate := by
  have htake : ∀ q id, (γ.take q id).taken = some p → q = p ∨ γ.taken = some p := by
    intro q id h
    by_cases hq : q ∈ γ.retiring
    · exact .inr ((if_pos hq).symm.trans h)
    · exact .inl (Option.some.inj ((if_neg hq).symm.trans h))
  cases c with
  | lockSnapshotUpdate => cases h
  | peer q op =>
    cases op with
    | takeActive expected =>
      refine ⟨?_, (by simp)⟩
      have hperform := exec_peer hexec
      rcases @takeActive_cases suite node e (s.heap q) expected with hcases | hcases
      · -- the session is another one, and stays
        rw [hcases] at hperform
        obtain ⟨rfl, -⟩ := hperform
        cases expected with
        | none => cases hcases
        | some id => exact .inr h
      · rw [hcases] at hperform
        obtain ⟨rfl, rfl⟩ := hperform
        have hnext : ∃ id, γ.next (.peer q (.takeActive expected))
            (some ((s.heap q).active.map ActiveSession.sessionId)) = γ.take q id := by
          cases expected <;> exact ⟨_, rfl⟩
        obtain ⟨id, hnext⟩ := hnext
        rw [hnext] at h
        rcases htake q id h with rfl | htaken
        · exact .inl (by simp [NodeState.setPeer])
        · exact .inr htaken
    | storeInfo stored => cases h
    | keepalive | handleData _ _ _ =>
      refine ⟨.inr ?_, (by simp)⟩
      cases r <;> exact h
    | _ => exact ⟨.inr h, (by simp)⟩
  | finishHandshake q id message sender info =>
    refine ⟨.inr ?_, (by simp)⟩
    rcases r with error | (_ | finished) <;> exact h
  | _ => exact ⟨.inr h, (by simp)⟩

end Step

/-- Sessions match the records of their peers; what the task that updates the records has read is
still so. -/
structure Matching (s : NodeState) (φ : ℕ → Holding) : Prop extends Sound s φ where
  made : ∀ p session, (s.heap p).active = some session → SameIdentity session.madeFor (s.heap p).info
  known : ∀ t p info, (φ t).locked = true → (φ t).known = some (p, info) →
    (φ t).Has p ∧ (s.heap p).info = info
  taken : ∀ t p, (φ t).locked = true → (φ t).taken = some p → (s.heap p).active = none

lemma SameIdentity.refl (info : PeerInfo) : SameIdentity info info := ⟨rfl, rfl, rfl, rfl, rfl, rfl⟩

lemma SameIdentity.trans {a b c : PeerInfo} (h : SameIdentity a b) (h' : SameIdentity b c) :
    SameIdentity a c :=
  ⟨h.nodeId.trans h'.nodeId, h.incarnation.trans h'.incarnation,
    h.signingPublic.trans h'.signingPublic, h.noisePublic.trans h'.noisePublic,
    h.virtualIpv4.trans h'.virtualIpv4, h.virtualIpv6.trans h'.virtualIpv6⟩

lemma matching_initial {heap : PeerRef → PeerState} (hheap : ∀ p, (heap p).active = none) :
    Matching (NodeState.new node heap) fun _ => Holding.start where
  toSound := sound_initial heap
  made p session h := by
    rw [show ((NodeState.new node heap).heap p).active = none from hheap p] at h
    cases h
  known _ _ _ h := by cases h
  taken _ _ h := by cases h

lemma matching_spawn {s s' : NodeState} {φ : ℕ → Holding} (h : Matching s φ) {q : Request} {t : ℕ}
    (haccept : q.accept s = some s') : Matching s' (update φ t Holding.start) := by
  have hsound := sound_spawn (t := t) h.toSound haccept
  obtain ⟨spawned, rfl⟩ := accept_eq haccept
  refine ⟨hsound, h.made, ?_, ?_⟩
  · refine Pool.forall_update (P := fun _ (γ : Holding) => ∀ p info, γ.locked = true →
      γ.known = some (p, info) → γ.Has p ∧ (s.heap p).info = info) ?_ h.known
    exact nofun
  · refine Pool.forall_update (P := fun _ (γ : Holding) => ∀ p, γ.locked = true →
      γ.taken = some p → (s.heap p).active = none) ?_ h.taken
    exact nofun

section Step

variable {s s' : NodeState} {φ : ℕ → Holding} {t : ℕ} {e : Env} {c : Section} {r : Response c}

lemma info_step (h : Sound s φ) (hok : (φ t).ok c) (hexec : exec suite node e c s = some (r, s'))
    {u : ℕ} (hu : (φ u).locked = true) {p : PeerRef} (hp : (φ u).Has p)
    (hstore : u = t → ∀ stored, c ≠ .peer p (.storeInfo stored)) :
    (s'.heap p).info = (s.heap p).info := by
  cases peer_step hexec p with
  | used hinfo => exact hinfo
  | stored stored hinfo =>
    -- only the holder of the mutex stores records
    obtain ⟨hlocked, -, -⟩ := hok
    exact (hstore (h.sole u t hu hlocked) stored rfl).elim
  | allocated haddress => exact absurd (h.has hp) (by omega)
  | established _ _ _ _ _ _ _ hinfo => exact hinfo

lemma matching_made (h : Matching s φ) (hok : (φ t).ok c)
    (hexec : exec suite node e c s = some (r, s')) (p : PeerRef) (session : ActiveSession)
    (hactive : (s'.heap p).active = some session) :
    SameIdentity session.madeFor (s'.heap p).info := by
  cases peer_step hexec p with
  | used hinfo hsession =>
    obtain ⟨before, hbefore, hcontinues⟩ := hsession session hactive
    rw [hcontinues.madeFor, hinfo]
    exact h.made p before hbefore
  | stored stored hinfo hsession =>
    rw [hsession] at hactive
    obtain ⟨hlocked, -, htaken | ⟨previous, hknown, hsame⟩⟩ := hok
    · cases (h.taken t p hlocked htaken).symm.trans hactive
    · have hprevious := (h.known t p previous hlocked hknown).2
      rw [hinfo]
      exact (hprevious ▸ h.made p session hactive).trans (sameIdentity_iff.1 hsame)
  | allocated _ hnone => cases hnone.symm.trans hactive
  | established id path cipher expected handshake _ hexpected hinfo hstarted =>
    obtain rfl := Option.some.inj (hactive.symm.trans hstarted)
    rw [hinfo, hexpected]
    exact .refl expected

lemma active_none_step (hexec : exec suite node e c s = some (r, s')) {p : PeerRef}
    (hnone : (s.heap p).active = none)
    (hc : ∀ id path cipher handshake, c ≠ .establish p id path cipher (s.heap p).info handshake) :
    (s'.heap p).active = none := by
  cases peer_step hexec p with
  | used _ hsession =>
    rw [Option.eq_none_iff_forall_ne_some]
    intro session hactive
    obtain ⟨before, hbefore, -⟩ := hsession session hactive
    cases hnone.symm.trans hbefore
  | stored _ _ hsession => exact hsession.trans hnone
  | allocated _ hnone => exact hnone
  | established id path cipher expected handshake _ hexpected =>
    subst hexpected
    exact (hc id path cipher handshake rfl).elim

lemma matching_step (h : Matching s φ) (hok : (φ t).ok c)
    (hexec : exec suite node e c s = some (r, s'))
    (hapart : ∀ p id path cipher handshake, c = .establish p id path cipher (s.heap p).info handshake →
      ∀ u, (φ u).locked = true → (φ u).taken ≠ some p) :
    Matching s' (update φ t ((φ t).next c r)) := by
  have hunlocked : c ≠ .lockSnapshotUpdate → ((φ t).next c r).locked = true → (φ t).locked = true := by
    intro hlock h
    by_cases hunlock : c = .unlockSnapshotUpdate
    · subst hunlock
      cases h
    · exact (next_locked hlock hunlock (φ t) r).symm.trans h
  have hfree : ∀ u p, (φ u).locked = true → (φ u).taken = some p → (s'.heap p).active = none := by
    intro u p hu htaken
    refine active_none_step hexec (h.taken u p hu htaken) fun id path cipher handshake hc => ?_
    exact hapart p id path cipher handshake hc u hu htaken
  refine ⟨sound_step h.toSound hok hexec, matching_made h hok hexec, fun u => ?_, fun u => ?_⟩
  · by_cases hut : u = t
    · subst hut
      rw [update_self]
      intro p info hlocked hknown
      obtain ⟨hbefore, hlock, hstore⟩ := next_known hexec hknown
      have hu := hunlocked hlock hlocked
      have hhas : (φ u).Has p ∧ (s.heap p).info = info := by
        rcases hbefore with hbefore | hbefore
        · exact hbefore
        · exact h.known u p info hu hbefore
      refine ⟨?_, (info_step h.toSound hok hexec hu hhas.1 fun _ => hstore p).trans hhas.2⟩
      obtain ⟨nodeId, hp⟩ := hhas.1
      exact ⟨nodeId, next_refs_subset (φ u) r hp⟩
    · rw [update_of_ne hut]
      intro p info hu hknown
      obtain ⟨hhas, hinfo⟩ := h.known u p info hu hknown
      exact ⟨hhas, (info_step h.toSound hok hexec hu hhas fun hut' => (hut hut').elim).trans hinfo⟩
  · by_cases hut : u = t
    · subst hut
      rw [update_self]
      intro p hlocked htaken
      obtain ⟨hnone | hbefore, hlock⟩ := next_taken hexec htaken
      · exact hnone
      · exact hfree u p (hunlocked hlock hlocked) hbefore
    · rw [update_of_ne hut]
      exact hfree u

end Step

/-- **A session is for the identity that its peer has**, in every run where no handshake starts a
session between the two sections of an update. -/
theorem session_identity (suite : Suite) (node : Node) (fuel : ℕ) (heap : PeerRef → PeerState)
    (hheap : ∀ p, (heap p).active = none) (cfg : Pool.Config Section Response NodeState Holding)
    (h : (nodePool suite node fuel Holding.start Holding.next).Reachable EstablishesApart
      ((nodePool suite node fuel Holding.start Holding.next).initial (.new node heap)) cfg)
    (p : PeerRef) (session : ActiveSession) (hactive : (cfg.shared.heap p).active = some session) :
    SameIdentity session.madeFor (cfg.shared.heap p).info := by
  have hinv := holding_invariant (I := Matching) h (matching_initial hheap)
    (fun _ _ _ _ _ hi _ haccept => matching_spawn hi haccept)
    (fun cfg t e c r s' hi hguard hat hok hexec => matching_step hi hok hexec
      fun p id path cipher handshake hc => hguard p id path cipher _ handshake (hc ▸ hat) rfl)
  exact hinv.1.made p session hactive

section Demo

/-- A handshake of the peer `1` comes to the point where it starts the session; a snapshot says that
the peer has started again, and its update takes the session that is not there yet; then the session
starts, and the update ends. -/
def demoOutlived : List (Pool.Move Env Request) :=
  demoKnown ++ demoAlone 1 (.datagram (demoHello 1 1 7) demoPath) 15 ++
    demoAlone 0 (.applySnapshot
      (demoSnapshot [demoInfo 5, { demoInfo 1 with incarnation := 2 }] [demoRef.nodeId])) 9 ++
    List.replicate 10 (.step 1 demoEnv) ++ List.replicate 15 (.step 0 demoEnv)

def demoOutlivedEnd : {cfg // demoPool.Reachable (fun _ m => m.task ∈ [1, 0])
      (demoPool.initial demoState) cfg ∧ (∀ t ∈ [1, 0], cfg.at t = none) ∧
      ((cfg.shared.heap demoRef).active.map fun session => session.madeFor.incarnation) = some 1 ∧
      (cfg.shared.heap demoRef).info.incarnation = 2} :=
  Pool.Spec.reach _ (fun _ _ => List.contains_iff_mem.1) demoOutlived (by decide +kernel)

/-- Nothing is in progress any more, and the peer has a session of its earlier incarnation. -/
theorem session_outlives_identity :
    ¬ ∀ (suite : Suite) (node : Node) (fuel : ℕ) (heap : PeerRef → PeerState),
      (∀ p, (heap p).active = none) → ∀ cfg : Pool.Config Section Response NodeState Holding,
      (nodePool suite node fuel Holding.start Holding.next).Reachable (fun _ _ => True)
        ((nodePool suite node fuel Holding.start Holding.next).initial (.new node heap)) cfg →
      cfg.Quiet → ∀ p session, (cfg.shared.heap p).active = some session →
      SameIdentity session.madeFor (cfg.shared.heap p).info := by
  intro h
  obtain ⟨cfg, hreach, hidle, hsession, hinfo⟩ := demoOutlivedEnd
  obtain ⟨session, hactive, hmade⟩ := Option.map_eq_some_iff.1 hsession
  have hquiet : cfg.Quiet := hreach.quiet (fun _ _ h => h) (fun _ => rfl) hidle
  have hsame := h demoSuite demoNode 3 demoState.heap demoState_active cfg
    (hreach.strengthen fun _ _ _ _ => trivial) hquiet demoRef session hactive
  have hincarnation := hsame.incarnation
  rw [hmade, hinfo] at hincarnation
  exact absurd hincarnation (by decide)

def demoMadeEnd : {cfg // demoPool.Reachable (fun cfg m => m.task = 0 ∧ (cfg.phase 0).locked = false)
      (demoPool.initial demoState) cfg ∧ (cfg.shared.heap demoRef).active.isSome} :=
  Pool.Spec.reach (fun cfg m => m.task == 0 && !(cfg.phase 0).locked) (fun _ _ hm => by simpa using hm)
    demoConnected (by decide +kernel)

theorem session_identity_connected : ∃ cfg session,
    demoPool.Reachable EstablishesApart (demoPool.initial demoState) cfg ∧
      (cfg.shared.heap demoRef).active = some session ∧
      SameIdentity session.madeFor (cfg.shared.heap demoRef).info := by
  obtain ⟨cfg, hreach, hsome⟩ := demoMadeEnd
  obtain ⟨session, hactive⟩ := Option.isSome_iff_exists.1 hsome
  have hapart : demoPool.Reachable EstablishesApart (demoPool.initial demoState) cfg := by
    refine hreach.strengthen fun cfg m hr hm => ?_
    cases m with
    | spawn t q => trivial
    | step t e =>
      intro p id path cipher expected handshake _ _ u hu
      by_cases hu₀ : u = 0
      · subst hu₀
        cases hm.2.symm.trans hu
      · rw [(hr.solo (fun _ _ h => h.1) hu₀).2] at hu
        cases hu
  exact ⟨cfg, session, hapart, hactive, session_identity demoSuite demoNode 3 demoState.heap
    demoState_active cfg hapart demoRef session hactive⟩

end Demo

/-! ### One update at a time -/

/-- **One update at a time**: in every interleaving at most one task is between taking and giving back the
mutex `snapshot_update`, and every peer of the table is filed under its own id, so under no other. -/
theorem updates_exclusive (suite : Suite) (node : Node) (fuel : ℕ) (heap : PeerRef → PeerState)
    (cfg : Pool.Config Section Response NodeState Holding)
    (h : (nodePool suite node fuel Holding.start Holding.next).Reachable (fun _ _ => True)
      ((nodePool suite node fuel Holding.start Holding.next).initial (.new node heap)) cfg) :
    (∀ t u, (cfg.phase t).locked = true → (cfg.phase u).locked = true → t = u) ∧
      ∀ nodeId p, cfg.shared.peers.lookup nodeId = some p →
        p.nodeId = nodeId ∧ p.address < cfg.shared.allocated := by
  have hsound : Sound cfg.shared cfg.phase :=
    (holding_invariant h (sound_initial heap) (fun _ _ _ _ _ hs _ haccept => sound_spawn hs haccept)
      fun _ _ _ _ _ _ hs _ _ hok hexec => sound_step hs hok hexec).1
  exact ⟨hsound.sole, hsound.table⟩

def demoUpdatingEnd : {cfg // demoPool.Reachable (fun _ _ => True) (demoPool.initial demoState) cfg ∧
      (cfg.phase 1).locked = true ∧ cfg.shared.peers.lookup demoRef.nodeId = some demoRef} :=
  Pool.Spec.reach (fun _ _ => true) (fun _ _ _ => trivial)
    (demoConnected ++ demoAlone 1 (.applySnapshot demoListed) 6 ++ [.spawn 0 (.applySnapshot demoListed)])
    (by decide +kernel)

theorem updates_exclusive_connected : ∃ cfg : Pool.Config Section Response NodeState Holding,
    demoPool.Reachable (fun _ _ => True) (demoPool.initial demoState) cfg ∧
      (cfg.phase 1).locked = true ∧ (∀ u, (cfg.phase u).locked = true → u = 1) ∧
      demoRef.address < cfg.shared.allocated := by
  obtain ⟨cfg, hreach, hlocked, hknown⟩ := demoUpdatingEnd
  obtain ⟨hsole, htable⟩ := updates_exclusive demoSuite demoNode 3 demoState.heap cfg hreach
  exact ⟨cfg, hreach, hlocked, fun u hu => hsole u 1 hu hlocked, (htable _ _ hknown).2⟩

/-! ### Where sessions come from -/

section Origin

variable {Γ : Type}

/-- What sessions were started with: the peer, the id, the keys, the record and the handshake. -/
abbrev Started := List (PeerRef × UInt64 × SessionCipher × PeerInfo × NoiseHandshake)

def Started.observe (started : Started) (_ : ℕ) (_ : Γ) (_ : NodeState) :
    (c : Section) → Response c → NodeState → Started
  | .establish p id _ cipher expected handshake, true, _ => (p, id, cipher, expected, handshake) :: started
  | _, _, _ => started

def ActiveSession.origin (p : PeerRef) (session : ActiveSession) :
    PeerRef × UInt64 × SessionCipher × PeerInfo × NoiseHandshake :=
  (p, session.sessionId, session.cipher, session.madeFor, session.handshake)

lemma Started.subset_observe (started : Started) (t : ℕ) (γ : Γ) (s s' : NodeState) (c : Section)
    (r : Response c) : started ⊆ started.observe t γ s c r s' := by
  unfold Started.observe
  split
  · exact List.subset_cons_self ..
  · exact List.Subset.refl _

/-- **A session is what `establish` has made it**, in every interleaving: its id, its keys, the identity it
is for and its handshake are never changed, and no other section starts one. -/
theorem session_started (suite : Suite) (node : Node) (fuel : ℕ) (start : Γ)
    (next : Γ → (c : Section) → Response c → Γ) (heap : PeerRef → PeerState)
    (hheap : ∀ p, (heap p).active = none) (x : Pool.Config Section Response NodeState Γ × Started)
    (h : (nodePool suite node fuel start next).Observed Started.observe (fun _ _ => True)
      ((nodePool suite node fuel start next).initial (.new node heap), []) x)
    (p : PeerRef) (session : ActiveSession) (hactive : (x.1.shared.heap p).active = some session) :
    session.origin p ∈ x.2 := by
  refine h.invariant_shared (I := fun s started => ∀ p session, (s.heap p).active = some session →
    ActiveSession.origin p session ∈ started) (fun t => ⟨⟨⟩, rfl⟩) ?_ ?_ ?_ p session hactive
  · intro p session hactive
    cases (hheap p).symm.trans hactive
  · intro s s' started t q hi haccept p session hactive
    obtain ⟨spawned, rfl⟩ := accept_eq haccept
    exact hi p session hactive
  · intro cfg started t e c r s' hi _ _ hexec p session hactive
    have hold := Started.subset_observe started t (cfg.phase t) cfg.shared s' c r
    cases peer_step hexec p with
    | used _ hused =>
      obtain ⟨before, hbefore, hcontinues⟩ := hused session hactive
      have hmem := hold (hi p before hbefore)
      rwa [ActiveSession.origin, ← hcontinues.sessionId, ← hcontinues.cipher, ← hcontinues.madeFor,
        ← hcontinues.handshake] at hmem
    | stored info _ hsame => exact hold (hi p session (hsame ▸ hactive))
    | allocated _ hnone => cases hnone.symm.trans hactive
    | established id path cipher expected handshake hfree hexpected _ hsession =>
      have hr : (cfg.shared.establish node e p id path cipher expected handshake).1 = r :=
        congrArg Prod.fst (Option.some.inj hexec)
      rw [NodeState.establish, if_neg (by simp [hfree, hexpected])] at hr
      obtain rfl := Option.some.inj (hsession.symm.trans hactive)
      subst hr
      exact List.mem_cons_self ..

theorem session_started_connected : ∃ x session, demoPool.Observed Started.observe (fun _ _ => True)
    (demoPool.initial demoState, []) x ∧ (x.1.shared.heap demoRef).active = some session ∧
      session.origin demoRef ∈ x.2 := by
  obtain ⟨cfg, hreach, hsome⟩ := demoMadeEnd
  obtain ⟨session, hactive⟩ := Option.isSome_iff_exists.1 hsome
  obtain ⟨started, hx⟩ := (hreach.strengthen fun _ _ _ _ => trivial).observed Started.observe []
  exact ⟨_, session, hx, hactive, session_started demoSuite demoNode 3 _ _ demoState.heap demoState_active _
    hx demoRef session hactive⟩

end Origin

end Vela.Core
