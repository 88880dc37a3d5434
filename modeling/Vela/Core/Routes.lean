import Vela.Core.Holding
import Vela.Core.Install

/-!
# Routes and peers

`register_peer`, `remove_peer` and `apply_snapshot` keep two tables: the peers by their ids, and the
routes from virtual addresses to ids.  `apply_snapshot` builds both from one checked list of records;
`register_peer` takes any record, so that a new peer may take over an address of another one or of
the node itself.

* `routes_agree_iff` — after every sequence of calls the tables agree exactly if every record that was
  registered was of another node and listed addresses that were free.
-/

namespace Vela.Core

open Vela.Proto Vela.Crypto Vela.Ip Holding Prog Function

variable {suite : Suite} {node : Node}

abbrev addressesOf (info : PeerInfo) : List IpAddr :=
  virtualAddresses info.virtualIpv4 info.virtualIpv6

/-! ### The route table -/

lemma peerFor_insertRoutes (routes : RouteTable) (info : PeerInfo) (a : IpAddr) :
    (NodeState.insertRoutes routes info).peerFor a =
      if a ∈ addressesOf info then some info.nodeId else routes.peerFor a := by
  unfold NodeState.insertRoutes addressesOf
  generalize virtualAddresses info.virtualIpv4 info.virtualIpv6 = addresses
  induction addresses generalizing routes with
  | nil => rfl
  | cons b addresses ih =>
    rw [List.foldl_cons, ih]
    by_cases ha : a = b
    · subst ha
      simp [RouteTable.peerFor, RouteTable.insert]
    · simp [RouteTable.peerFor, RouteTable.insert, ha, AList.lookup_insert_ne]

lemma peerFor_removeRoutes (routes : RouteTable) (info : PeerInfo) (a : IpAddr) :
    (NodeState.removeRoutes routes info).peerFor a =
      if a ∈ addressesOf info then none else routes.peerFor a := by
  unfold NodeState.removeRoutes addressesOf
  generalize virtualAddresses info.virtualIpv4 info.virtualIpv6 = addresses
  induction addresses generalizing routes with
  | nil => rfl
  | cons b addresses ih =>
    rw [List.foldl_cons, ih]
    by_cases ha : a = b
    · subst ha
      simp [RouteTable.peerFor, RouteTable.remove]
    · simp [RouteTable.peerFor, RouteTable.remove, ha, AList.lookup_erase_ne]

@[simp] lemma isLocal_insertRoutes (routes : RouteTable) (info : PeerInfo) (a : IpAddr) :
    (NodeState.insertRoutes routes info).isLocal a = routes.isLocal a := by
  rw [insertRoutes_eq]
  rfl

@[simp] lemma isLocal_removeRoutes (routes : RouteTable) (info : PeerInfo) (a : IpAddr) :
    (NodeState.removeRoutes routes info).isLocal a = routes.isLocal a := by
  unfold NodeState.removeRoutes
  generalize virtualAddresses info.virtualIpv4 info.virtualIpv6 = addresses
  induction addresses generalizing routes with
  | nil => rfl
  | cons b addresses ih => exact ih _

/-! ### Agreement -/

/-- The tables agree with each other and with the node's own addresses. -/
structure Agrees (suite : Suite) (node : Node) (s : NodeState) : Prop where
  routes : ∀ a nodeId, s.routes.peerFor a = some nodeId ↔
    ∃ p, s.peers.lookup nodeId = some p ∧ a ∈ addressesOf (s.heap p).info
  noLocal : ∀ a, s.routes.isLocal a = true → s.routes.peerFor a = none
  notSelf : s.peers.lookup (node.nodeId suite) = none

variable {s s' : NodeState} {accepted : Bool} {call : Call}

lemma Agrees.unique (h : Agrees suite node s) {a : IpAddr} {m n : NodeId} {p q : PeerRef}
    (hp : s.peers.lookup m = some p) (ha : a ∈ addressesOf (s.heap p).info)
    (hq : s.peers.lookup n = some q) (ha' : a ∈ addressesOf (s.heap q).info) : m = n :=
  Option.some.inj (((h.routes a m).2 ⟨p, hp, ha⟩).symm.trans ((h.routes a n).2 ⟨q, hq, ha'⟩))

/-- Nothing that agreement is about has changed. -/
structure Steady (s s' : NodeState) : Prop where
  peers : s'.peers = s.peers
  routes : s'.routes = s.routes
  info : ∀ p, (s'.heap p).info = (s.heap p).info

lemma Steady.refl (s : NodeState) : Steady s s := ⟨rfl, rfl, fun _ => rfl⟩

lemma Steady.trans {a b c : NodeState} (h : Steady a b) (h' : Steady b c) : Steady a c :=
  ⟨h'.peers.trans h.peers, h'.routes.trans h.routes, fun p => (h'.info p).trans (h.info p)⟩

lemma Steady.agrees_iff (h : Steady s s') : Agrees suite node s' ↔ Agrees suite node s := by
  constructor
  · rintro ⟨hroutes, hlocal, hself⟩
    simp only [h.peers, h.routes, h.info] at hroutes hlocal hself
    exact ⟨hroutes, hlocal, hself⟩
  · rintro ⟨hroutes, hlocal, hself⟩
    refine ⟨?_, ?_, ?_⟩
    · simpa only [h.peers, h.routes, h.info] using hroutes
    · simpa only [h.routes] using hlocal
    · rw [h.peers, hself]

/-- The sections that touch neither table nor any record. -/
def Routine : Section → Prop
  | .registerPeer _ | .removePeer _ _ | .allocate _ _ | .replacePeers _ _
  | .peer _ (.storeInfo _) => False
  | _ => True

lemma calm_routine (c : Section) (hc : Calm c) : Routine c := by
  cases c with
  | peer p op => cases op <;> first | exact hc | trivial
  | _ => first | exact hc | trivial

lemma routine_step {e : Env} {c : Section} (hc : Routine c) {r : Response c}
    (h : exec suite node e c s = some (r, s')) : Steady s s' := by
  have htable : c.writes .table = false := by cases c <;> first | rfl | exact hc.elim
  refine ⟨(exec_frame h).peers htable, (exec_frame h).routes htable, fun p => ?_⟩
  · cases peer_step h p with
    | used hinfo => exact hinfo
    | stored => exact hc.elim
    | allocated _ _ _ hnew =>
      rcases hnew with ⟨info, rfl⟩ | ⟨info, online, rfl⟩
      · exact hc.elim
      · exact hc.elim
    | established _ _ _ _ _ _ _ hinfo => exact hinfo

lemma routine_wp {α : Type} {p : Task α} {post : α → Prop} (h : p.Within Routine post)
    (s : NodeState) : p.wp (exec suite node) (fun _ s' => Steady s s') s :=
  wp_mono (fun _ _ h => h.1)
    (h.wp (fun _ _ _ _ _ hc hs he => hs.trans (routine_step hc he)) (.refl s))

lemma retirePeer_routine (p : PeerRef) : (retirePeer p).Within Routine fun _ => True :=
  holds_retirePeer (D := .within Response Routine)
    (fun c hc => ⟨calm_routine c hc.calm, fun _ => trivial⟩)
    (fun _ _ => ⟨trivial, fun _ => trivial⟩) (fun _ _ => ⟨trivial, fun _ => trivial⟩) p

/-! ### One call -/

/-- The other peers are where they were, with their records. -/
def Elsewhere (nodeId : NodeId) (s s' : NodeState) : Prop :=
  ∀ m p, m ≠ nodeId → s.peers.lookup m = some p →
    s'.peers.lookup m = some p ∧ (s'.heap p).info = (s.heap p).info

lemma Steady.elsewhere (h : Steady s s') (nodeId : NodeId) : Elsewhere nodeId s s' :=
  fun _ p _ hp => ⟨h.peers ▸ hp, h.info p⟩

/-- The record is one of another node, and its addresses are free. -/
structure Admissible (suite : Suite) (node : Node) (s : NodeState) (info : PeerInfo) : Prop where
  notSelf : info.nodeId ≠ node.nodeId suite
  notLocal : ∀ a ∈ addressesOf info, s.routes.isLocal a = false
  free : ∀ a ∈ addressesOf info, ∀ m p, m ≠ info.nodeId → s.peers.lookup m = some p →
    a ∉ addressesOf (s.heap p).info

section Register

variable {s s' : NodeState} {info : PeerInfo}

lemma registerPeer_lookup (s : NodeState) (info : PeerInfo) (m : NodeId) :
    (s.registerPeer suite node info).2.peers.lookup m =
      if m = info.nodeId then some ⟨s.allocated, info.nodeId⟩ else s.peers.lookup m := by
  change (s.peers.insert info.nodeId ⟨s.allocated, info.nodeId⟩).lookup m = _
  by_cases hm : m = info.nodeId
  · subst hm
    rw [AList.lookup_insert, if_pos rfl]
  · rw [AList.lookup_insert_ne hm, if_neg hm]

lemma registerPeer_info_new (s : NodeState) (info : PeerInfo) :
    ((s.registerPeer suite node info).2.heap ⟨s.allocated, info.nodeId⟩).info = info := by
  change (update s.heap (⟨s.allocated, info.nodeId⟩ : PeerRef) _ _).info = info
  rw [update_self]
  rfl

variable {p : PeerRef}

lemma registerPeer_info_old (hwell : s.WellFormed) {m : NodeId} (hp : s.peers.lookup m = some p) :
    ((s.registerPeer suite node info).2.heap p).info = (s.heap p).info := by
  have hne : p ≠ ⟨s.allocated, info.nodeId⟩ := by
    rintro rfl
    exact lt_irrefl _ (hwell.allocated m _ hp)
  change (update s.heap (⟨s.allocated, info.nodeId⟩ : PeerRef) _ p).info = _
  rw [update_of_ne hne]

lemma registerPeer_elsewhere (hwell : s.WellFormed) :
    Elsewhere info.nodeId s (s.registerPeer suite node info).2 := by
  intro m p hm hp
  rw [registerPeer_lookup, if_neg hm]
  exact ⟨hp, registerPeer_info_old hwell hp⟩

lemma registerPeer_routes : (s.registerPeer suite node info).2.routes =
    NodeState.insertRoutes (match s.peers.lookup info.nodeId with
      | none => s.routes
      | some previous => NodeState.removeRoutes s.routes
          ((s.allocate suite node info true).2.heap previous).info) info := rfl

lemma registerPeer_peerFor (hwell : s.WellFormed) (a : IpAddr) :
    (s.registerPeer suite node info).2.routes.peerFor a =
      if a ∈ addressesOf info then some info.nodeId
      else if (s.peers.lookup info.nodeId).any fun q => decide (a ∈ addressesOf (s.heap q).info) then none
      else s.routes.peerFor a := by
  rw [registerPeer_routes, peerFor_insertRoutes]
  cases hprevious : s.peers.lookup info.nodeId with
  | none => rfl
  | some q =>
    have hq : ((s.allocate suite node info true).2.heap q).info = (s.heap q).info :=
      registerPeer_info_old hwell hprevious
    simp only [hq, peerFor_removeRoutes, Option.any_some, decide_eq_true_eq]

lemma registerPeer_isLocal (a : IpAddr) :
    (s.registerPeer suite node info).2.routes.isLocal a = s.routes.isLocal a := by
  rw [registerPeer_routes, isLocal_insertRoutes]
  split
  · rfl
  · rw [isLocal_removeRoutes]

lemma registerPeer_agrees (hwell : s.WellFormed) (h : Agrees suite node s)
    (hinfo : Admissible suite node s info) : Agrees suite node (s.registerPeer suite node info).2 := by
  -- an address of the previous record that is not in the new one
  have hprevious : ∀ a, (s.peers.lookup info.nodeId).any (fun q =>
      decide (a ∈ addressesOf (s.heap q).info)) = true ↔ s.routes.peerFor a = some info.nodeId := by
    intro a
    rw [h.routes, Option.any_eq_true]
    simp only [decide_eq_true_eq]
  refine ⟨fun a m => ?_, fun a ha => ?_, ?_⟩
  · rw [registerPeer_peerFor hwell, registerPeer_lookup]
    by_cases hm : m = info.nodeId
    · subst hm
      simp only [if_true, Option.some.injEq, exists_eq_left', registerPeer_info_new]
      split
      · simp_all
      · rename_i ha
        simp only [ha, iff_false]
        split
        · nofun
        · rename_i hnot
          exact fun hroute => hnot ((hprevious a).2 hroute)
    · rw [if_neg hm]
      have hold : (∃ p, s.peers.lookup m = some p ∧
          a ∈ addressesOf ((s.registerPeer suite node info).2.heap p).info) ↔
          s.routes.peerFor a = some m := by
        rw [h.routes]
        refine exists_congr fun p => and_congr_right fun hp => ?_
        rw [registerPeer_info_old hwell hp]
      rw [hold]
      split
      · rename_i ha
        refine ⟨fun heq => (hm (Option.some.inj heq).symm).elim, fun hroute => ?_⟩
        obtain ⟨p, hp, hlists⟩ := (h.routes a m).1 hroute
        exact (hinfo.free a ha m p hm hp hlists).elim
      · split
        · rename_i hprev
          rw [(hprevious a).1 hprev]
          refine ⟨nofun, fun heq => (hm (Option.some.inj heq).symm).elim⟩
        · rfl
  · rw [registerPeer_isLocal] at ha
    rw [registerPeer_peerFor hwell, if_neg, h.noLocal a ha, ite_self]
    intro hlists
    rw [hinfo.notLocal a hlists] at ha
    cases ha
  · rw [registerPeer_lookup, if_neg hinfo.notSelf.symm]
    exact h.notSelf

lemma admissible_of_agrees (helse : Elsewhere info.nodeId s s') (h : Agrees suite node s')
    (hlocal : ∀ a, s'.routes.isLocal a = s.routes.isLocal a) (hp : s'.peers.lookup info.nodeId = some p)
    (hinfo : (s'.heap p).info = info) :
    Admissible suite node s info := by
  have hroute : ∀ a ∈ addressesOf info, s'.routes.peerFor a = some info.nodeId :=
    fun a ha => (h.routes a _).2 ⟨p, hp, hinfo.symm ▸ ha⟩
  refine ⟨fun hself => ?_, fun a ha => ?_, fun a ha m q hm hq hlists => ?_⟩
  · rw [hself, h.notSelf] at hp
    cases hp
  · rw [← hlocal, ← Bool.not_eq_true]
    intro hlocal'
    cases (h.noLocal a hlocal').symm.trans (hroute a ha)
  · obtain ⟨hq', hinfo'⟩ := helse m q hm hq
    exact hm (h.unique hq' (hinfo'.symm ▸ hlists) hp (hinfo.symm ▸ ha))

/-- What `register_peer` does to the tables. -/
inductive Registered (suite : Suite) (node : Node) (s : NodeState) (info : PeerInfo) (s' : NodeState) :
    Except CoreError Unit → Prop
  | refused {error : CoreError} (h : Steady s s') : Registered suite node s info s' (.error error)
  | unchanged (h : Steady s s') {p : PeerRef} (hp : s.peers.lookup info.nodeId = some p)
      (hinfo : (s.heap p).info = info) : Registered suite node s info s' (.ok ())
  | replaced (h : Steady (s.registerPeer suite node info).2 s') :
      Registered suite node s info s' (.ok ())

lemma registerPeer_wp (s : NodeState) (info : PeerInfo) :
    (registerPeer suite node info).run.wp (exec suite node)
      (fun r s' => Registered suite node s info s' r) s := by
  have hregister : (do
      let unchanged ← lift (call (.registerUnchanged info))
      lift (when (!unchanged) (replacePeer info)) : NodeM CoreError Unit).run.wp (exec suite node)
      (fun r s' => Registered suite node s info s' r) s := by
    refine wp_bindExcept (wp_lift fun e unchanged s₁ he => ?_)
    have hunchanged : s.registerUnchanged info = (unchanged, s₁) := Option.some.inj he
    have hsteady : Steady s s₁ := routine_step (c := .registerUnchanged info) trivial he
    cases unchanged with
    | true =>
      unfold NodeState.registerUnchanged at hunchanged
      split at hunchanged
      · cases hunchanged
      · rename_i p hp
        split at hunchanged
        · exact .unchanged hsteady hp ‹_›
        · cases hunchanged
    | false =>
      have hsame : s₁ = s := by
        unfold NodeState.registerUnchanged at hunchanged
        split at hunchanged
        · exact (Prod.mk.inj hunchanged).2.symm
        · split at hunchanged
          · cases hunchanged
          · exact (Prod.mk.inj hunchanged).2.symm
      subst hsame
      refine wp_lift (wp_callBind fun e previous s₂ he => ?_)
      obtain rfl : (s₁.registerPeer suite node info).2 = s₂ := congrArg Prod.snd (Option.some.inj he)
      have hretire : (whenSome previous fun p => do
          let previousInfo ← peerCall p .info
          let disconnected ← retirePeer p
          when disconnected (emit (.peerDisconnected previousInfo.nodeId))).Within Routine
          fun _ => True := by
        refine holds_whenSome (D := .within Response Routine) fun p => ?_
        refine Within.callBind trivial fun previousInfo => ?_
        refine Within.bind (retirePeer_routine p) fun disconnected _ => ?_
        refine holds_when (D := .within Response Routine) ?_
        exact ⟨trivial, fun _ => trivial⟩
      exact wp_mono (fun _ _ h => .replaced h) (routine_wp hretire _)
  refine wp_bindExcept ?_
  cases validatePeerInfo suite info with
  | error error => exact .refused (.refl s)
  | ok _ =>
    refine wp_bindExcept ?_
    unfold validatePeerMembership
    cases node.config.serverPublicKey with
    | none => exact hregister
    | some key =>
      refine wp_bindExcept (wp_lift fun e now s₁ he => ?_)
      obtain ⟨-, rfl⟩ := Prod.mk.inj (Option.some.inj he)
      dsimp only [Prog.wp]
      cases validateCredential suite info key now with
      | error error => exact .refused (.refl s)
      | ok _ => exact hregister

end Register

section Remove

variable {s s' : NodeState} {nodeId : NodeId} {p : PeerRef}

/-- The tables without a peer. -/
def NodeState.without (s : NodeState) (nodeId : NodeId) (p : PeerRef) : NodeState :=
  { s with
    peers := s.peers.erase nodeId
    routes := NodeState.removeRoutes s.routes (s.heap p).info }

lemma Steady.without (h : Steady s s') (nodeId : NodeId) (p : PeerRef) :
    Steady (s.without nodeId p) (s'.without nodeId p) := by
  refine ⟨?_, ?_, h.info⟩
  · change s'.peers.erase nodeId = s.peers.erase nodeId
    rw [h.peers]
  · change NodeState.removeRoutes s'.routes (s'.heap p).info = NodeState.removeRoutes s.routes _
    rw [h.routes, h.info]

lemma without_elsewhere (nodeId : NodeId) (p : PeerRef) :
    Elsewhere nodeId s (s.without nodeId p) :=
  fun _ _ hm hq => ⟨(AList.lookup_erase_ne hm).trans hq, rfl⟩

lemma without_agrees (h : Agrees suite node s) (hp : s.peers.lookup nodeId = some p) :
    Agrees suite node (s.without nodeId p) := by
  have hpeerFor : ∀ a, (s.without nodeId p).routes.peerFor a =
      if a ∈ addressesOf (s.heap p).info then none else s.routes.peerFor a :=
    fun a => peerFor_removeRoutes s.routes _ a
  refine ⟨fun a m => ?_, fun a ha => ?_, ?_⟩
  · rw [hpeerFor]
    by_cases hm : m = nodeId
    · subst hm
      have hgone : (s.without m p).peers.lookup m = none := AList.lookup_erase ..
      simp only [hgone, reduceCtorEq, false_and, exists_false, iff_false]
      split
      · nofun
      · rename_i hlists
        intro hroute
        obtain ⟨q, hq, ha⟩ := (h.routes a m).1 hroute
        obtain rfl := Option.some.inj (hp.symm.trans hq)
        exact hlists ha
    · have hsame : (s.without nodeId p).peers.lookup m = s.peers.lookup m := AList.lookup_erase_ne hm
      rw [hsame]
      change _ ↔ ∃ q, s.peers.lookup m = some q ∧ a ∈ addressesOf (s.heap q).info
      split
      · rename_i hlists
        refine ⟨nofun, fun ⟨q, hq, ha⟩ => ?_⟩
        exact (hm (h.unique hq ha hp hlists)).elim
      · exact h.routes a m
  · have hlocal : s.routes.isLocal a = true := by
      rw [← isLocal_removeRoutes s.routes (s.heap p).info]
      exact ha
    rw [hpeerFor, h.noLocal a hlocal, ite_self]
  · by_cases hself : node.nodeId suite = nodeId
    · rw [hself]
      exact AList.lookup_erase ..
    · exact (AList.lookup_erase_ne hself).trans h.notSelf

/-- What `remove_peer` does to the tables. -/
inductive Removed (s : NodeState) (nodeId : NodeId) (s' : NodeState) : Prop
  | absent (h : Steady s s')
  | removed {p : PeerRef} (hp : s.peers.lookup nodeId = some p) (h : Steady (s.without nodeId p) s')

lemma removePeer_wp (s : NodeState) (nodeId : NodeId) :
    (removePeer nodeId).wp (exec suite node) (fun _ s' => Removed s nodeId s') s := by
  refine wp_callBind fun e found s₁ he => ?_
  cases he
  cases hp : s.peers.lookup nodeId with
  | none => exact .absent (.refl s)
  | some p =>
    refine wp_callBind fun e _ s₁ he => ?_
    have hlocked : Steady s s₁ := routine_step (c := .lockConnect p) trivial he
    refine wp_bind.2 (wp_callBind fun e removed s₂ he => ?_)
    have hremove : s₁.removePeer nodeId p = (removed, s₂) := Option.some.inj he
    rw [NodeState.removePeer, if_pos (hlocked.peers ▸ hp)] at hremove
    cases hremove
    have hrest : (do
        when true do
          let _ ← retirePeer p
          emit (.peerDisconnected nodeId)
        return true : Task Bool).Within Routine fun _ => True := by
      refine Within.bind (M := fun _ => True) ?_ fun _ _ => trivial
      refine Within.bind (retirePeer_routine p) fun _ _ => ?_
      exact ⟨trivial, fun _ => trivial⟩
    refine wp_mono (fun removed s₃ hretired => ?_) (routine_wp hrest (s₁.without nodeId p))
    refine wp_callBind fun e _ s₄ he => ?_
    have hunlocked : Steady s₃ s₄ := routine_step (c := .peer p .unlockConnect) trivial he
    exact .removed hp (((hlocked.without nodeId p).trans hretired).trans hunlocked)

end Remove

lemma installed_agrees {snapshot : NetworkSnapshot} (h : Installed suite node snapshot s s')
    (hvalid : snapshot.Valid suite.blake3) :
    Agrees suite node s' := by
  refine ⟨fun a nodeId => ?_, fun a ha => ?_, ?_⟩
  · rw [h.routes]
    constructor
    · rintro ⟨hremote, info, hinfo, rfl, ha⟩
      have hthere := (h.keys info.nodeId).2 ⟨hremote, List.mem_map_of_mem hinfo⟩
      obtain ⟨p, hp⟩ := Option.isSome_iff_exists.1 hthere
      obtain ⟨hrecord, hid, -⟩ := h.records _ p hp
      refine ⟨p, hp, ?_⟩
      rwa [record_unique hvalid hrecord hinfo hid]
    · rintro ⟨p, hp, ha⟩
      obtain ⟨hrecord, hid, -⟩ := h.records _ p hp
      have hremote := ((h.keys nodeId).1 (Option.isSome_iff_exists.2 ⟨p, hp⟩)).1
      exact ⟨hremote, _, hrecord, hid, ha⟩
  · obtain ⟨own, hown, hid, hlocals⟩ := h.localAddresses
    rw [RouteTable.isLocal, hlocals, List.contains_iff_mem] at ha
    rw [Option.eq_none_iff_forall_ne_some]
    intro nodeId hroute
    obtain ⟨hremote, info, hinfo, rfl, hlists⟩ := (h.routes a nodeId).1 hroute
    obtain rfl := address_unique hvalid hown hinfo ha hlists
    exact hremote hid
  · rw [← Option.not_isSome_iff_eq_none, h.keys]
    exact fun hself => hself.1 rfl

/-! ### Sequences of calls -/

inductive Call where
  | registerPeer (info : PeerInfo)
  | removePeer (nodeId : NodeId)
  | applySnapshot (snapshot : NetworkSnapshot)

/-- The call runs by itself from `s` to `s'`; `accepted` says that it did not fail.  A snapshot is only
considered where it is applied. -/
def Call.Ends (suite : Suite) (node : Node) (s : NodeState) (accepted : Bool) (s' : NodeState) :
    Call → Prop
  | .registerPeer info => ∃ es r, (Vela.Core.registerPeer suite node info).run.run (exec suite node) es s =
      some (r, s') ∧ accepted = r.toOption.isSome
  | .removePeer nodeId => ∃ es r, (Vela.Core.removePeer nodeId).run (exec suite node) es s = some (r, s') ∧
      accepted = true
  | .applySnapshot snapshot => ∃ es, (Vela.Core.applySnapshot suite node snapshot).run.run
      (exec suite node) es s = some (.ok (), s') ∧ accepted = true

/-- The record of a registration is admissible. -/
def Call.Admissible (suite : Suite) (node : Node) (s : NodeState) : Call → Prop
  | .registerPeer info => Vela.Core.Admissible suite node s info
  | _ => True

/-- The routes of others stay when a peer is registered, replaced or removed. -/
def Call.Spares (s s' : NodeState) : Call → Prop
  | .registerPeer info => ∀ a m, m ≠ info.nodeId → s.routes.peerFor a = some m →
      s'.routes.peerFor a = some m
  | .removePeer nodeId => ∀ a m, m ≠ nodeId → s.routes.peerFor a = some m →
      s'.routes.peerFor a = some m
  | .applySnapshot _ => True

lemma Agrees.spares {nodeId : NodeId} (h : Agrees suite node s) (h' : Agrees suite node s')
    (helse : Elsewhere nodeId s s') (a : IpAddr) (m : NodeId) (hm : m ≠ nodeId)
    (hroute : s.routes.peerFor a = some m) : s'.routes.peerFor a = some m := by
  obtain ⟨p, hp, ha⟩ := (h.routes a m).1 hroute
  obtain ⟨hp', hinfo⟩ := helse m p hm hp
  exact (h'.routes a m).2 ⟨p, hp', hinfo.symm ▸ ha⟩

lemma wellFormed_serve (h : s.WellFormed) (q : Request) :
    (serve suite node 0 q).wp (exec suite node) (fun _ s' => s'.WellFormed) s := by
  have hstart : Sound s (update (fun _ => Holding.start) 0 Holding.start) := by
    rw [update_eq_self]
    exact ⟨nofun, nofun, nofun, fun nodeId p hp => ⟨h.keyed nodeId p hp, h.allocated nodeId p hp⟩⟩
  refine wp_mono (fun _ s' hs => ?_) (Meets.wp
    (I := fun s γ => Sound s (update (fun _ => Holding.start) 0 γ)) ?_
    (holding_serve suite node 0 q) hstart)
  · obtain ⟨γ, hsound, -⟩ := hs
    exact ⟨fun nodeId p hp => (hsound.table nodeId p hp).1,
      fun nodeId p hp => (hsound.table nodeId p hp).2⟩
  · intro e c r s s' γ hsound hok hexec
    have hstep := sound_step hsound (by rwa [update_self]) hexec
    rwa [update_self, Function.update_idem] at hstep

lemma Call.Ends.wellFormed (h : call.Ends suite node s accepted s') (hwell : s.WellFormed) :
    s'.WellFormed := by
  cases call with
  | registerPeer info =>
    obtain ⟨es, r, hrun, -⟩ := h
    exact wp_run (wp_bind.1 (wellFormed_serve hwell (.registerPeer info))) hrun
  | removePeer nodeId =>
    obtain ⟨es, r, hrun, -⟩ := h
    exact wp_run (wp_bind.1 (wellFormed_serve hwell (.removePeer nodeId))) hrun
  | applySnapshot snapshot =>
    obtain ⟨es, hrun, -⟩ := h
    exact wp_run (wp_bind.1 (wellFormed_serve hwell (.applySnapshot snapshot))) hrun

/-- **One call**: the tables agree afterwards, and the routes of others stay, exactly if what was
registered was admissible. -/
theorem Call.Ends.agrees_iff (h : call.Ends suite node s accepted s') (hwell : s.WellFormed)
    (hagrees : Agrees suite node s) :
    (Agrees suite node s' ∧ call.Spares s s') ↔
      (accepted = true → call.Admissible suite node s) := by
  cases call with
  | registerPeer info =>
    obtain ⟨es, r, hrun, rfl⟩ := h
    have hregistered := wp_run (registerPeer_wp s info) hrun
    cases hregistered with
    | refused hsteady =>
      have hafter := hsteady.agrees_iff.2 hagrees
      exact ⟨fun _ h => (by cases h), fun _ => ⟨hafter, hagrees.spares hafter (hsteady.elsewhere _)⟩⟩
    | unchanged hsteady hp hinfo =>
      have hafter := hsteady.agrees_iff.2 hagrees
      have hadmissible := admissible_of_agrees (fun _ _ _ h => ⟨h, rfl⟩) hagrees (fun _ => rfl) hp hinfo
      exact ⟨fun _ _ => hadmissible,
        fun _ => ⟨hafter, hagrees.spares hafter (hsteady.elsewhere _)⟩⟩
    | replaced hsteady =>
      have helse : Elsewhere info.nodeId s s' := by
        intro m p hm hp
        obtain ⟨hp', hinfo⟩ := @registerPeer_elsewhere suite node s info hwell m p hm hp
        exact ⟨hsteady.peers ▸ hp', (hsteady.info p).trans hinfo⟩
      constructor
      · rintro ⟨hafter, -⟩ -
        refine admissible_of_agrees helse hafter (fun a => ?_) (p := ⟨s.allocated, info.nodeId⟩) ?_ ?_
        · rw [hsteady.routes, registerPeer_isLocal]
        · rw [hsteady.peers, registerPeer_lookup, if_pos rfl]
        · rw [hsteady.info, registerPeer_info_new]
      · intro hadmissible
        have hafter := hsteady.agrees_iff.2 (registerPeer_agrees hwell hagrees (hadmissible rfl))
        exact ⟨hafter, hagrees.spares hafter helse⟩
  | removePeer nodeId =>
    obtain ⟨es, r, hrun, -⟩ := h
    refine ⟨fun _ _ => trivial, fun _ => ?_⟩
    cases wp_run (@removePeer_wp suite node s nodeId) hrun with
    | absent hsteady =>
      have hafter := hsteady.agrees_iff.2 hagrees
      exact ⟨hafter, hagrees.spares hafter (hsteady.elsewhere nodeId)⟩
    | @removed p hp hsteady =>
      have hafter := hsteady.agrees_iff.2 (without_agrees hagrees hp)
      refine ⟨hafter, hagrees.spares hafter fun m q hm hq => ?_⟩
      obtain ⟨hq', hinfo⟩ := without_elsewhere nodeId p m q hm hq
      exact ⟨hsteady.peers ▸ hq', (hsteady.info q).trans hinfo⟩
  | applySnapshot snapshot =>
    obtain ⟨es, hrun, -⟩ := h
    obtain ⟨hinstalled, hvalid⟩ := wp_run (applySnapshot_ok_wp snapshot hwell) hrun rfl
    exact ⟨fun _ _ => trivial, fun _ => ⟨installed_agrees hinstalled hvalid, trivial⟩⟩

/-- A call with its outcome. -/
structure CallStep where
  call : Call
  accepted : Bool
  after : NodeState

/-- The calls are made one after another, from `s` on. -/
def Chain (suite : Suite) (node : Node) : NodeState → List CallStep → Prop
  | _, [] => True
  | s, step :: steps =>
    step.call.Ends suite node s step.accepted step.after ∧ Chain suite node step.after steps

/-- After every call the tables agree, and the call has spared the routes of others. -/
def AlwaysAgree (suite : Suite) (node : Node) : NodeState → List CallStep → Prop
  | _, [] => True
  | s, step :: steps => (Agrees suite node step.after ∧ step.call.Spares s step.after) ∧
      AlwaysAgree suite node step.after steps

/-- Every registration that was accepted was admissible. -/
def Admitted (suite : Suite) (node : Node) : NodeState → List CallStep → Prop
  | _, [] => True
  | s, step :: steps => (step.accepted = true → step.call.Admissible suite node s) ∧
      Admitted suite node step.after steps

lemma alwaysAgree_iff (hwell : s.WellFormed) (hagrees : Agrees suite node s) {steps : List CallStep}
    (h : Chain suite node s steps) :
    AlwaysAgree suite node s steps ↔ Admitted suite node s steps := by
  induction steps generalizing s with
  | nil => exact .rfl
  | cons step steps ih =>
    obtain ⟨hends, hrest⟩ := h
    have hstep := hends.agrees_iff hwell hagrees
    constructor
    · rintro ⟨hafter, hlater⟩
      exact ⟨hstep.1 hafter, (ih (hends.wellFormed hwell) hafter.1 hrest).1 hlater⟩
    · rintro ⟨hadmitted, hlater⟩
      have hafter := hstep.2 hadmitted
      exact ⟨hafter, (ih (hends.wellFormed hwell) hafter.1 hrest).2 hlater⟩

lemma new_agrees (heap : PeerRef → PeerState) : Agrees suite node (NodeState.new node heap) := by
  refine ⟨fun a nodeId => ?_, fun _ _ => rfl, rfl⟩
  constructor
  · nofun
  · rintro ⟨p, hp, -⟩
    cases hp

lemma new_wellFormed (heap : PeerRef → PeerState) : (NodeState.new node heap).WellFormed where
  keyed _ _ h := by cases h
  allocated _ _ h := by cases h

/-- **Routes and peers agree** after each of a sequence of calls on a new node, and no call touches the
routes of a peer it is not about, exactly if every record that was registered was of another node and
its addresses were neither local nor those of another peer. -/
theorem routes_agree_iff (suite : Suite) (node : Node) (heap : PeerRef → PeerState)
    (steps : List CallStep) (h : Chain suite node (.new node heap) steps) :
    AlwaysAgree suite node (.new node heap) steps ↔ Admitted suite node (.new node heap) steps :=
  alwaysAgree_iff (new_wellFormed heap) (new_agrees heap) h

section Demo

def demoThief : PeerInfo := { demoInfo 2 with virtualIpv4 := (demoInfo 1).virtualIpv4 }

def demoRegister (info : PeerInfo) (s : NodeState) : Option (Except CoreError Unit × NodeState) :=
  (registerPeer demoSuite demoNode info).run.run (exec demoSuite demoNode) (List.replicate 3 demoEnv) s

lemma demoThief_facts :
    ((demoRegister (demoInfo 1) demoState).bind fun first => (demoRegister demoThief first.2).map
      fun second => (first.1.toOption.isSome, second.1.toOption.isSome,
        second.2.peers.lookup demoRef.nodeId, (second.2.heap demoRef).info,
        second.2.routes.peerFor (.v4 ⟨#v[10, 0, 0, 1]⟩))) =
      some (true, true, some demoRef, demoInfo 1, some demoThief.nodeId) := by
  decide +kernel

/-- Two peers list one address, and only one of them has the route. -/
theorem routes_taken_over :
    ¬ ∀ (suite : Suite) (node : Node) (heap : PeerRef → PeerState) (steps : List CallStep),
      Chain suite node (.new node heap) steps → AlwaysAgree suite node (.new node heap) steps := by
  intro h
  obtain ⟨⟨r₁, s₁⟩, hfirst, hrest⟩ := Option.bind_eq_some_iff.1 demoThief_facts
  obtain ⟨⟨r₂, s₂⟩, hsecond, hfacts⟩ := Option.map_eq_some_iff.1 hrest
  simp only [Prod.mk.injEq] at hfacts
  obtain ⟨hok₁, hok₂, hpeer, hinfo, hroute⟩ := hfacts
  have hagree := h demoSuite demoNode demoState.heap
    [⟨.registerPeer (demoInfo 1), true, s₁⟩, ⟨.registerPeer demoThief, true, s₂⟩]
    ⟨⟨_, r₁, hfirst, hok₁.symm⟩, ⟨_, r₂, hsecond, hok₂.symm⟩, trivial⟩
  obtain ⟨-, ⟨hafter, -⟩, -⟩ := hagree
  have hown := (hafter.routes (.v4 ⟨#v[10, 0, 0, 1]⟩) demoRef.nodeId).2
    ⟨demoRef, hpeer, by rw [hinfo]; decide⟩
  rw [hroute] at hown
  exact absurd hown (by decide)

lemma demoRegister_facts :
    ((demoRegister (demoInfo 1) demoState).bind fun first => (demoRegister (demoInfo 2) first.2).bind
      fun second => ((removePeer demoRef.nodeId).run (exec demoSuite demoNode) (List.replicate 10 demoEnv)
        second.2).map fun third => (decide (first.1.toOption.isSome = true ∧ second.1.toOption.isSome = true ∧
        first.2.peers.entries = [⟨demoRef.nodeId, demoRef⟩] ∧ (first.2.heap demoRef).info = demoInfo 1 ∧
        (addressesOf (demoInfo 2)).any first.2.routes.isLocal = false), third.2.peers.keys)) =
      some (true, [(demoInfo 2).nodeId]) := by
  decide +kernel

theorem routes_agree_known : ∃ s₁ s₂ s₃, s₃.peers.keys = [(demoInfo 2).nodeId] ∧
    Chain demoSuite demoNode demoState [⟨.registerPeer (demoInfo 1), true, s₁⟩,
      ⟨.registerPeer (demoInfo 2), true, s₂⟩, ⟨.removePeer demoRef.nodeId, true, s₃⟩] ∧
    AlwaysAgree demoSuite demoNode demoState [⟨.registerPeer (demoInfo 1), true, s₁⟩,
      ⟨.registerPeer (demoInfo 2), true, s₂⟩, ⟨.removePeer demoRef.nodeId, true, s₃⟩] := by
  obtain ⟨⟨r₁, s₁⟩, hfirst, hrest⟩ := Option.bind_eq_some_iff.1 demoRegister_facts
  obtain ⟨⟨r₂, s₂⟩, hsecond, hrest⟩ := Option.bind_eq_some_iff.1 hrest
  obtain ⟨⟨r₃, s₃⟩, hthird, hfacts⟩ := Option.map_eq_some_iff.1 hrest
  simp only [Prod.mk.injEq, decide_eq_true_eq] at hfacts
  obtain ⟨⟨hok₁, hok₂, hentries, hinfo, hlocal⟩, hkeys⟩ := hfacts
  have hchain : Chain demoSuite demoNode demoState [⟨.registerPeer (demoInfo 1), true, s₁⟩,
      ⟨.registerPeer (demoInfo 2), true, s₂⟩, ⟨.removePeer demoRef.nodeId, true, s₃⟩] :=
    ⟨⟨_, r₁, hfirst, hok₁.symm⟩, ⟨_, r₂, hsecond, hok₂.symm⟩, ⟨_, r₃, hthird, rfl⟩, trivial⟩
  refine ⟨s₁, s₂, s₃, hkeys, hchain, (routes_agree_iff demoSuite demoNode demoState.heap _ hchain).2
    ⟨fun _ => ?_, fun _ => ?_, fun _ => trivial, trivial⟩⟩
  · exact ⟨by decide, by decide, fun _ _ _ _ _ hp => by cases hp⟩
  · have hapart : ∀ a ∈ addressesOf (demoInfo 2), a ∉ addressesOf (demoInfo 1) := by decide
    refine ⟨by decide, by simpa [List.any_eq_false] using hlocal, fun a ha m p hm hp => ?_⟩
    obtain ⟨rfl, rfl⟩ := (lookup_demo hentries).1 hp
    rw [hinfo]
    exact hapart a ha

end Demo

end Vela.Core
