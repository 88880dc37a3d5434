import Vela.Core.Holding
import Vela.Core.Expiry
import Vela.Core.Install

/-!
# Entries of the map of sessions

Data packets find their peer through the map of sessions and not through the table of peers, so a
peer that left the table must not be in the map.  Whoever takes a peer out of the table takes its
session afterwards, and whoever takes a session removes its entry afterwards; `Accounted` follows
both.  It fails where a session is started or entered too late, or where `apply_snapshot` replaces a
peer that was registered meanwhile (`Timely`).
-/

namespace Vela.Core

open Vela.Proto Vela.Crypto Vela.Ip Holding Function

variable {suite : Suite} {node : Node} {fuel : ℕ}

/-- The three sections that depend on what other tasks did meanwhile. -/
def Timely (s : NodeState) (γ : Holding) : Section → Prop
  -- a session is started for a peer that is in the table
  | .establish p _ _ _ expected _ =>
    (s.heap p).active = none → (s.heap p).info = expected → s.peers.lookup p.nodeId = some p
  -- a session is entered in the map while the peer has it
  | .insertSession id p => ∃ session, (s.heap p).active = some session ∧ session.sessionId = id
  -- no peer has been registered since `apply_snapshot` read the table
  | .replacePeers _ _ => ∀ copy ∈ γ.copies, ∀ nodeId p, s.peers.lookup nodeId = some p →
      copy.lookup nodeId = some p
  | _ => True

def TimelyMove (cfg : Pool.Config Section Response NodeState Holding) : Pool.Move Env Request → Prop
  | .spawn _ _ => True
  | .step t _ => ∀ c, cfg.at t = some c → Timely cfg.shared (cfg.phase t) c

/-! ### What one section leaves to do -/

section Duties

variable {s s' : NodeState} {e : Env} {c : Section} {r : Response c} {γ : Holding} {q : PeerRef}

lemma performPeer_ended {peer : PeerState} {op : PeerOp} {a : ActiveSession}
    (ha : peer.active = some a) :
    (∃ b, (performPeer suite node e peer op).2.active = some b ∧ a.Continues b) ∨
      (γ.next (.peer q op) (performPeer suite node e peer op).1).removing = some (q, a.sessionId) := by
  have heffect := @performPeer_session suite node e peer op
  generalize performPeer suite node e peer op = after at heffect
  obtain ⟨r, peer'⟩ := after
  cases heffect with
  | kept hrel =>
    rw [ha] at hrel
    generalize peer'.active = active at hrel
    cases hrel with
    | some h => exact .inl ⟨_, rfl, h⟩
  | taken expected =>
    rw [ha]
    cases expected <;> exact .inr rfl
  | expired info packet source session hactive hid =>
    obtain rfl := Option.some.inj (ha.symm.trans hactive)
    rw [hid]
    exact .inr rfl
  | rekeyed session hactive =>
    obtain rfl := Option.some.inj (ha.symm.trans hactive)
    exact .inr rfl

lemma next_ended (hexec : exec suite node e c s = some (r, s')) {a : ActiveSession}
    (ha : (s.heap q).active = some a) (haddress : q.address < s.allocated) :
    (∃ b, (s'.heap q).active = some b ∧ a.Continues b) ∨
      (γ.next c r).removing = some (q, a.sessionId) := by
  have hpeer : (∃ op, c = .peer q op) → (∃ b, (s'.heap q).active = some b ∧ a.Continues b) ∨
      (γ.next c r).removing = some (q, a.sessionId) := by
    rintro ⟨op, rfl⟩
    obtain ⟨rfl, rfl⟩ := exec_peer hexec
    rcases @performPeer_ended suite node e γ q (s.heap q) op a ha with ⟨b, hb, hcontinues⟩ | h
    · exact .inl ⟨b, by simpa [NodeState.setPeer] using hb, hcontinues⟩
    · exact .inr h
  cases peer_step hexec q with
  | used _ _ hended => exact hended.elim hpeer fun h => .inl (h a ha)
  | stored info _ hactive => exact .inl ⟨a, hactive.trans ha, .refl a⟩
  | allocated hnew => exact absurd haddress (by omega)
  | established _ _ _ _ _ hfree => cases hfree.symm.trans ha

lemma next_removing (hok : γ.ok c) {id : UInt64} (h : γ.removing = some (q, id)) :
    (γ.next c r).removing = some (q, id) ∨ c = .removeSession q id := by
  cases c with
  | removeSession p id' =>
    obtain ⟨rfl, rfl⟩ := Prod.mk.inj (hok _ h)
    exact .inr rfl
  | peer p op =>
    cases op with
    | takeActive _ | keepalive | handleData _ _ _ => cases (show γ.removing = none from hok).symm.trans h
    | _ => exact .inl h
  | finishHandshake p id message sender info =>
    rcases r with error | (_ | finished) <;> exact .inl h
  | _ => exact .inl h

lemma next_retiring (hok : γ.ok c) (hexec : exec suite node e c s = some (r, s'))
    (h : q ∈ γ.retiring) : q ∈ (γ.next c r).retiring ∨ (s'.heap q).active = none := by
  have hnone : γ.retiring = [] → q ∈ (γ.next c r).retiring ∨ (s'.heap q).active = none := by
    intro hempty
    rw [hempty] at h
    cases h
  cases c with
  | registerPeer _ | removePeer _ _ => exact hnone hok
  | replacePeers _ _ => exact hnone hok.1
  | peer p op =>
    cases op with
    | takeActive expected =>
      obtain ⟨rfl, rfl⟩ := exec_peer hexec
      rcases @takeActive_cases suite node e (s.heap p) expected with hcases | hcases
      · rw [hcases]
        cases expected with
        | none => cases congrArg Prod.fst hcases
        | some id => exact .inl h
      · rw [hcases]
        by_cases hqp : q = p
        · subst hqp
          exact .inr (by simp [NodeState.setPeer])
        · refine .inl ?_
          have herase : q ∈ γ.retiring.erase p := (List.mem_erase_of_ne hqp).2 h
          cases expected <;> exact herase
    | keepalive | handleData _ _ _ => cases r <;> exact .inl h
    | _ => exact .inl h
  | finishHandshake p id message sender info =>
    rcases r with error | (_ | finished) <;> exact .inl h
  | _ => exact .inl h

lemma next_left (hok : γ.ok c) (hexec : exec suite node e c s = some (r, s')) (htimely : Timely s γ c)
    (h : s.peers.lookup q.nodeId = some q) :
    s'.peers.lookup q.nodeId = some q ∨ q ∈ (γ.next c r).retiring := by
  cases table_step hexec with
  | same hpeers | allocated hpeers | absent hpeers => exact .inl (hpeers ▸ h)
  | @registered info previous hprevious hpeers _ =>
    by_cases hid : q.nodeId = info.nodeId
    · rw [hid] at h
      rw [h] at hprevious
      subst hprevious
      exact .inr (List.mem_singleton.2 rfl)
    · exact .inl (by rw [hpeers, AList.lookup_insert_ne hid, h])
  | @removed nodeId p hp hpeers _ =>
    by_cases hid : q.nodeId = nodeId
    · subst hid
      obtain rfl := Option.some.inj (h.symm.trans hp)
      exact .inr (List.mem_singleton.2 rfl)
    · exact .inl (by rw [hpeers, AList.lookup_erase_ne hid, h])
  | @replaced routes replacement old hold hpeers _ =>
    subst hold
    cases hnew : replacement.lookup q.nodeId with
    | some p =>
      obtain ⟨copy, hcopy, hretains⟩ := hok.2.2.2
      obtain rfl := hretains q.nodeId q p (htimely copy hcopy q.nodeId q h) hnew
      exact .inl (hpeers ▸ hnew)
    | none =>
      refine .inr (List.mem_map.2 ⟨⟨q.nodeId, q⟩, List.mem_filter.2 ⟨?_, ?_⟩, rfl⟩)
      · exact AList.mem_lookup_iff.1 h
      · simp [hnew]

end Duties

/-! ### Runs -/

/-- Every entry of the map is a session that its peer has, or is to be removed; every session is of a
peer in the table, or its peer is to be retired. -/
structure Accounted (s : NodeState) (φ : ℕ → Holding) : Prop extends Sound s φ where
  allocated : ∀ q a, (s.heap q).active = some a → q.address < s.allocated
  entries : ∀ id q, s.sessions.lookup id = some q →
    (∃ a, (s.heap q).active = some a ∧ a.sessionId = id) ∨ ∃ t, (φ t).removing = some (q, id)
  current : ∀ q a, (s.heap q).active = some a →
    s.peers.lookup q.nodeId = some q ∨ ∃ t, q ∈ (φ t).retiring

lemma accounted_initial {heap : PeerRef → PeerState} (hheap : ∀ p, (heap p).active = none) :
    Accounted (NodeState.new node heap) fun _ => Holding.start := by
  have hnone : ∀ q a, ((NodeState.new node heap).heap q).active ≠ some a := by
    intro q a h
    cases (hheap q).symm.trans h
  refine ⟨sound_initial heap, fun q a h => (hnone q a h).elim, fun id q h => ?_,
    fun q a h => (hnone q a h).elim⟩
  cases (AList.lookup_empty (β := fun _ : UInt64 => PeerRef) id).symm.trans h

variable {s s' : NodeState} {φ : ℕ → Holding} {t : ℕ}

lemma accounted_spawn (h : Accounted s φ) (hrest : (φ t).AtRest) {q : Request}
    (haccept : q.accept s = some s') :
    Accounted s' (update φ t Holding.start) := by
  have hsound := sound_spawn (t := t) h.toSound haccept
  obtain ⟨spawned, rfl⟩ := accept_eq haccept
  -- the task that starts had nothing left to do
  have hother : ∀ {u : ℕ}, (φ u).removing ≠ none ∨ (φ u).retiring ≠ [] →
      update φ t Holding.start u = φ u := by
    intro u hu
    refine update_of_ne ?_ ..
    rintro rfl
    exact hu.elim (fun h => h hrest.removing) fun h => h hrest.retiring
  refine ⟨hsound, h.allocated, fun id q hq => ?_, fun q a ha => ?_⟩
  · refine (h.entries id q hq).imp_right fun ⟨u, hu⟩ => ⟨u, ?_⟩
    rw [hother (.inl (by rw [hu]; nofun)), hu]
  · refine (h.current q a ha).imp_right fun ⟨u, hu⟩ => ⟨u, ?_⟩
    rw [hother (.inr (List.ne_nil_of_mem hu))]
    exact hu

lemma accounted_step {e : Env} {c : Section} {r : Response c} (h : Accounted s φ) (hok : (φ t).ok c)
    (htimely : Timely s (φ t) c) (hexec : exec suite node e c s = some (r, s')) :
    Accounted s' (update φ t ((φ t).next c r)) := by
  have hle := (table_step hexec).allocated_le
  -- what the task that moves has to do now
  have hmine : update φ t ((φ t).next c r) t = (φ t).next c r := update_self ..
  have hremoving : ∀ u q id, (φ u).removing = some (q, id) → c ≠ .removeSession q id →
      ∃ v, (update φ t ((φ t).next c r) v).removing = some (q, id) := by
    intro u q id hu hc
    by_cases hut : u = t
    · subst hut
      exact ⟨u, by rw [hmine]; exact (next_removing hok hu).resolve_right hc⟩
    · exact ⟨u, by rw [update_of_ne hut]; exact hu⟩
  have hretiring : ∀ u q a, q ∈ (φ u).retiring → (s'.heap q).active = some a →
      ∃ v, q ∈ (update φ t ((φ t).next c r) v).retiring := by
    intro u q a hu ha
    by_cases hut : u = t
    · subst hut
      refine ⟨u, ?_⟩
      rw [hmine]
      refine (next_retiring hok hexec hu).resolve_right fun hnone => ?_
      cases hnone.symm.trans ha
    · exact ⟨u, by rw [update_of_ne hut]; exact hu⟩
  have hcurrent : ∀ q a, (s'.heap q).active = some a →
      (s.peers.lookup q.nodeId = some q ∨ ∃ u, q ∈ (φ u).retiring) →
      s'.peers.lookup q.nodeId = some q ∨
        ∃ u, q ∈ (update φ t ((φ t).next c r) u).retiring := by
    rintro q a ha (hq | ⟨u, hu⟩)
    · exact (next_left hok hexec htimely hq).imp_right fun hleft => ⟨t, by rw [hmine]; exact hleft⟩
    · exact .inr (hretiring u q a hu ha)
  refine ⟨sound_step h.toSound hok hexec, fun q a ha => ?_, fun id q hq => ?_, fun q a ha => ?_⟩
  · cases peer_step hexec q with
    | used _ hactive =>
      obtain ⟨b, hb, -⟩ := hactive a ha
      exact (h.allocated q b hb).trans_le hle
    | stored _ _ hactive => exact (h.allocated q a (hactive ▸ ha)).trans_le hle
    | allocated _ hnone => cases hnone.symm.trans ha
    | established => exact (h.has hok.1).trans_le hle
  · rcases sessions_step hexec hq with ⟨hbefore, hc⟩ | rfl
    · rcases h.entries id q hbefore with ⟨a, ha, rfl⟩ | ⟨u, hu⟩
      · rcases @next_ended suite node s s' e c r (φ t) q hexec a ha (h.allocated q a ha) with
          ⟨b, hb, hcontinues⟩ | hended
        · exact .inl ⟨b, hb, hcontinues.sessionId⟩
        · exact .inr ⟨t, by rw [hmine]; exact hended⟩
      · exact .inr (hremoving u q id hu hc)
    · cases hexec
      exact .inl htimely
  · cases peer_step hexec q with
    | used _ hactive =>
      obtain ⟨b, hb, -⟩ := hactive a ha
      exact hcurrent q a ha (h.current q b hb)
    | stored _ _ hactive => exact hcurrent q a ha (h.current q a (hactive ▸ ha))
    | allocated _ hnone => cases hnone.symm.trans ha
    | established id path cipher expected handshake hfree hexpected =>
      exact hcurrent q a ha (.inl (htimely hfree hexpected))

/-- **A removed peer keeps no session.**  In every run whose moves are timely, when nothing is in
progress every entry of the map of sessions is of a peer in the table; so what a data worker delivers
is from nodes in the table. -/
theorem removed_peer_sessionless (suite : Suite) (node : Node) (fuel : ℕ) (heap : PeerRef → PeerState)
    (hheap : ∀ p, (heap p).active = none) (cfg : Pool.Config Section Response NodeState Holding)
    (h : (nodePool suite node fuel Holding.start Holding.next).Reachable TimelyMove
      ((nodePool suite node fuel Holding.start Holding.next).initial (.new node heap)) cfg)
    (hquiet : cfg.Quiet) :
    (∀ id q, cfg.shared.sessions.lookup id = some q → cfg.shared.peers.lookup q.nodeId = some q) ∧
      ∀ worker, (dataRound suite node worker).wp (exec suite node) (fun _ s' =>
        ∃ new : List (NodeId × IpPacket), s'.ipPackets = new ++ cfg.shared.ipPackets ∧
          ∀ peer ipPacket, (peer, ipPacket) ∈ new → (cfg.shared.peers.lookup peer).isSome)
        cfg.shared := by
  obtain ⟨hinv, hmeets⟩ := holding_invariant h (accounted_initial hheap)
    (fun _ _ _ _ _ hi hrest haccept => accounted_spawn hi hrest haccept)
    (fun cfg t e c r s' hi hguard hat hok hexec => accounted_step hi hok (hguard c hat) hexec)
  have hrest : ∀ t, (cfg.phase t).AtRest := fun t => Pool.Config.post_idle (hmeets t) (hquiet t)
  have hentries : ∀ id q, cfg.shared.sessions.lookup id = some q →
      cfg.shared.peers.lookup q.nodeId = some q := by
    intro id q hq
    rcases hinv.entries id q hq with ⟨a, ha, -⟩ | ⟨t, ht⟩
    · rcases hinv.current q a ha with hcurrent | ⟨t, ht⟩
      · exact hcurrent
      · rw [(hrest t).retiring] at ht
        cases ht
    · cases (hrest t).removing.symm.trans ht
  refine ⟨hentries, fun worker => ?_⟩
  refine Prog.wp_mono (fun _ s' hround => ?_) (dataRound_wp
    (fun e _ _ _ h => ⟨e, Set.mem_univ _, h⟩) worker cfg.shared)
  obtain ⟨time, -, hround⟩ := hround
  obtain ⟨new, -, hevents, hnew⟩ := hround.delivered
  refine ⟨_, hevents, fun peer ipPacket hmem => ?_⟩
  obtain ⟨d, hd, heq⟩ := List.mem_map.1 hmem
  cases heq
  obtain ⟨-, packet, -, q, haccepted⟩ := hnew d hd
  obtain ⟨cipher, hcontext, -, -⟩ := haccepted.session
  rw [haccepted.peer, hentries _ q hcontext.entry]
  rfl

section Demo

/-- A handshake of the peer `1` comes to the point where it starts the session; then the peer is
removed; then the handshake goes on. -/
def demoOrphaned : List (Pool.Move Env Request) :=
  demoKnown ++ demoAlone 1 (.datagram (demoHello 1 1 7) demoPath) 15 ++
    demoAlone 0 (.removePeer demoRef.nodeId) 10 ++ List.replicate 10 (.step 1 demoEnv)

def demoOrphanedEnd : {cfg // demoPool.Reachable (fun _ m => m.task ∈ [0, 1])
      (demoPool.initial demoState) cfg ∧ (∀ t ∈ [0, 1], cfg.at t = none) ∧
      cfg.shared.sessions.lookup 7 = some demoRef ∧ cfg.shared.peers.lookup demoRef.nodeId = none} :=
  Pool.Spec.reach _ (fun _ _ => List.contains_iff_mem.1) demoOrphaned (by decide +kernel)

/-- The peer is gone, and its session is in the map. -/
theorem removed_peer_has_session :
    ¬ ∀ (suite : Suite) (node : Node) (fuel : ℕ) (heap : PeerRef → PeerState),
      (∀ p, (heap p).active = none) → ∀ cfg : Pool.Config Section Response NodeState Holding,
      (nodePool suite node fuel Holding.start Holding.next).Reachable (fun _ _ => True)
        ((nodePool suite node fuel Holding.start Holding.next).initial (.new node heap)) cfg →
      cfg.Quiet → ∀ id q, cfg.shared.sessions.lookup id = some q →
      cfg.shared.peers.lookup q.nodeId = some q := by
  intro h
  obtain ⟨cfg, hreach, hidle, hentry, hgone⟩ := demoOrphanedEnd
  have hquiet : cfg.Quiet := hreach.quiet (fun _ _ h => h) (fun _ => rfl) hidle
  have hthere := h demoSuite demoNode 3 demoState.heap demoState_active cfg
    (hreach.strengthen fun _ _ _ _ => trivial) hquiet 7 demoRef hentry
  cases hgone.symm.trans hthere

/-- The conditions of `Timely`. -/
def timelyCheck (s : NodeState) (γ : Holding) : Section → Bool
  | .establish p _ _ _ _ _ => s.peers.lookup p.nodeId == some p
  | .insertSession id p => (s.heap p).active.any fun session => session.sessionId == id
  | .replacePeers _ _ => γ.copies.all fun copy => s.peers.entries.all fun entry =>
      copy.lookup entry.1 == some entry.2
  | _ => true

lemma timely_of_check {s : NodeState} {γ : Holding} {c : Section} (h : timelyCheck s γ c = true) :
    Timely s γ c := by
  cases c with
  | establish p id path cipher expected handshake => exact fun _ _ => beq_iff_eq.1 h
  | insertSession id p =>
    obtain ⟨session, hactive, hid⟩ := (Option.any_eq_true _ _).1 h
    exact ⟨session, hactive, beq_iff_eq.1 hid⟩
  | replacePeers routes replacement =>
    intro copy hcopy nodeId p hp
    have hall := List.all_eq_true.1 (List.all_eq_true.1 h copy hcopy)
    exact beq_iff_eq.1 (hall ⟨nodeId, p⟩ (AList.mem_lookup_iff.1 hp))
  | _ => trivial

lemma timelyMove_of_check (cfg : Pool.Config Section Response NodeState Holding)
    (m : Pool.Move Env Request)
    (hm : (m.task == 0 && (cfg.at 0).all (timelyCheck cfg.shared (cfg.phase 0))) = true) :
    m.task ∈ [0] ∧ TimelyMove cfg m := by
  rw [Bool.and_eq_true, beq_iff_eq] at hm
  refine ⟨List.mem_singleton.2 hm.1, ?_⟩
  cases m with
  | spawn t q => trivial
  | step t e =>
    intro c hc
    obtain rfl : t = 0 := hm.1
    rw [hc] at hm
    exact timely_of_check hm.2

/-- The node is connected, and then installs a snapshot. -/
def demoConnectedEnd : {cfg // demoPool.Reachable (fun cfg m => m.task ∈ [0] ∧ TimelyMove cfg m)
      (demoPool.initial demoState) cfg ∧ (∀ t ∈ [0], cfg.at t = none) ∧
      cfg.shared.snapshotGeneration = demoListed.generation ∧ cfg.shared.sessions.lookup 7 = some demoRef} :=
  Pool.Spec.reach _ timelyMove_of_check (demoConnected ++ demoAlone 0 (.applySnapshot demoListed) 21)
    (by decide +kernel)

theorem removed_peer_sessionless_connected : ∃ cfg,
    demoPool.Reachable TimelyMove (demoPool.initial demoState) cfg ∧ cfg.Quiet ∧
      cfg.shared.snapshotGeneration = demoListed.generation ∧ cfg.shared.sessions.lookup 7 = some demoRef ∧
      cfg.shared.peers.lookup demoRef.nodeId = some demoRef := by
  obtain ⟨cfg, hreach, hidle, happlied, hentry⟩ := demoConnectedEnd
  have hquiet : cfg.Quiet := hreach.quiet (fun _ _ h => h.1) (fun _ => rfl) hidle
  have htimely := hreach.strengthen fun _ _ _ h => h.2
  have hmain := removed_peer_sessionless demoSuite demoNode 3 demoState.heap demoState_active cfg
    htimely hquiet
  exact ⟨cfg, htimely, hquiet, happlied, hentry, hmain.1 7 demoRef hentry⟩

end Demo

end Vela.Core
