import Vela.Core.Apply

/-!
# `apply_snapshot` by itself

What one call of `apply_snapshot` does when no other task runs in between: `Installed` is what a call
that succeeds leaves behind, and `failed_applySnapshot_iff` says when a call that fails leaves everything
as it was.
-/

namespace Vela.Core

open Vela.Proto Vela.Crypto Vela.Ip Prog

variable {suite : Suite} {node : Node}

/-! ### The tables are replaced -/

lemma insertRoutes_eq (routes : RouteTable) (info : PeerInfo) :
    NodeState.insertRoutes routes info =
      { routes with
        routes := ((virtualAddresses info.virtualIpv4 info.virtualIpv6).map fun address =>
          (address, info.nodeId)).foldl (fun table entry => table.insert entry.1 entry.2) routes.routes } := by
  unfold NodeState.insertRoutes
  generalize virtualAddresses info.virtualIpv4 info.virtualIpv6 = addresses
  induction addresses generalizing routes with
  | nil => rfl
  | cons address addresses ih =>
    rw [List.foldl_cons, ih]
    rfl

/-- The routes of a list of peers, in the order in which they are inserted. -/
def routeEntries (infos : List PeerInfo) : List (IpAddr × NodeId) :=
  infos.flatMap fun info =>
    (virtualAddresses info.virtualIpv4 info.virtualIpv6).map fun address => (address, info.nodeId)

lemma snapshotRoutes_wp (s : NodeState) (peers : List PeerRef) (routes : RouteTable) :
    (snapshotRoutes routes peers).wp (exec suite node) (fun result s' => s' = s ∧
      result = { routes with
        routes := (routeEntries (peers.map fun p => (s.heap p).info)).foldl
          (fun table entry => table.insert entry.1 entry.2) routes.routes }) s := by
  induction peers generalizing routes with
  | nil => exact ⟨rfl, rfl⟩
  | cons p peers ih =>
    refine wp_readPeer (fun _ => rfl) (wp_mono ?_ (ih _))
    rintro result s' ⟨rfl, rfl⟩
    refine ⟨rfl, ?_⟩
    rw [insertRoutes_eq]
    simp only [routeEntries, List.map_cons, List.flatMap_cons, List.foldl_append]

variable {snapshot : NetworkSnapshot} {s before : NodeState} {peer : PeerState} {α β : Type}
  {next info : PeerInfo} {blake3 : List UInt8 → Vector UInt8 32}

lemma lookup_foldl_insert [DecidableEq α] (entries : List (α × β))
    (hfun : ∀ a b b', (a, b) ∈ entries → (a, b') ∈ entries → b = b') (table : AList fun _ : α => β)
    (a : α) (b : β) :
    (entries.foldl (fun table entry => table.insert entry.1 entry.2) table).lookup a = some b ↔
      (a, b) ∈ entries ∨ a ∉ entries.map Prod.fst ∧ table.lookup a = some b := by
  induction entries generalizing table with
  | nil => simp
  | cons entry entries ih =>
    obtain ⟨x, y⟩ := entry
    have hrest : ∀ a b b', (a, b) ∈ entries → (a, b') ∈ entries → b = b' := fun a b b' h h' =>
      hfun a b b' (List.mem_cons_of_mem _ h) (List.mem_cons_of_mem _ h')
    rw [List.foldl_cons, ih hrest]
    by_cases ha : a = x
    · subst ha
      rw [AList.lookup_insert]
      constructor
      · rintro (hmem | ⟨-, hb⟩)
        · exact .inl (List.mem_cons_of_mem _ hmem)
        · obtain rfl := Option.some.inj hb
          exact .inl (List.mem_cons_self ..)
      · rintro (hmem | ⟨hnot, -⟩)
        · by_cases hin : a ∈ entries.map Prod.fst
          · obtain ⟨⟨a', b'⟩, hmem', rfl⟩ := List.mem_map.1 hin
            obtain rfl := hfun a' b b' hmem (List.mem_cons_of_mem _ hmem')
            exact .inl hmem'
          · refine .inr ⟨hin, ?_⟩
            exact congrArg some (hfun a y b (List.mem_cons_self ..) hmem)
        · exact absurd (List.mem_cons_self ..) hnot
    · rw [AList.lookup_insert_ne ha]
      simp [ha]

/-! ### Peers that are dropped -/

/-- A peer of the old table whose id is not in the new one. -/
def IsDropped (replacement : PeerTable) (entries : List (Sigma fun _ : NodeId => PeerRef)) (q : PeerRef) :
    Prop :=
  ∃ entry ∈ entries, replacement.lookup entry.1 = none ∧ entry.2 = q

/-- The state after the second loop has been through `entries`. -/
structure Dropped (replacement : PeerTable) (entries : List (Sigma fun _ : NodeId => PeerRef))
    (before s : NodeState) : Prop where
  peers : s.peers = before.peers
  routes : s.routes = before.routes
  generation : s.snapshotGeneration = before.snapshotGeneration
  ended : ∀ q, IsDropped replacement entries q → (s.heap q).active = none
  kept : ∀ q, ¬ IsDropped replacement entries q → s.heap q = before.heap q
  sessions : ∀ id q, s.sessions.lookup id = some q ↔ before.sessions.lookup id = some q ∧
    ¬ (IsDropped replacement entries q ∧
      (before.heap q).active.map ActiveSession.sessionId = some id)

section Drop

variable {replacement : PeerTable} {before : NodeState}

variable {entry : Sigma fun _ : NodeId => PeerRef} {done : List (Sigma fun _ : NodeId => PeerRef)}
  {s : NodeState}

lemma isDropped_append {entries : List (Sigma fun _ : NodeId => PeerRef)} {q : PeerRef} :
    IsDropped replacement (entries ++ [entry]) q ↔ IsDropped replacement entries q ∨
      replacement.lookup entry.1 = none ∧ entry.2 = q := by
  constructor
  · rintro ⟨entry', hmem, h⟩
    rcases List.mem_append.1 hmem with hdone | hlast
    · exact .inl ⟨entry', hdone, h⟩
    · obtain rfl := List.mem_singleton.1 hlast
      exact .inr h
  · rintro (⟨entry', hmem, h⟩ | h)
    · exact ⟨entry', List.mem_append_left _ hmem, h⟩
    · exact ⟨entry, List.mem_append_right _ (List.mem_singleton_self _), h⟩

lemma Dropped.step {done : List (Sigma fun _ : NodeId => PeerRef)} {s : NodeState}
    (h : Dropped replacement done before s) {entry : Sigma fun _ : NodeId => PeerRef}
    (hnone : replacement.lookup entry.1 = none) {peer : PeerState} (hactive : peer.active = none)
    (events : List VelaEvent) :
    Dropped replacement (done ++ [entry]) before
      (((s.dropSession entry.2).setPeer entry.2 peer).setEvents events) := by
  obtain ⟨sessions, hdrop⟩ := dropSession_eq s entry.2
  have hsessions := lookup_dropSession s entry.2
  rw [hdrop] at hsessions ⊢
  have hself : (({ s with sessions }.setPeer entry.2 peer).setEvents events).heap entry.2 = peer :=
    heap_setPeer _ _ _
  have hother : ∀ q, q ≠ entry.2 →
      (({ s with sessions }.setPeer entry.2 peer).setEvents events).heap q = s.heap q :=
    fun q hq => heap_setPeer_ne _ _ hq
  refine ⟨h.peers, h.routes, h.generation, ?_, ?_, ?_⟩
  · intro q hq
    by_cases hqe : q = entry.2
    · subst hqe
      rw [hself]
      exact hactive
    · rw [hother q hqe]
      rcases isDropped_append.1 hq with hdone | ⟨-, hlast⟩
      · exact h.ended q hdone
      · exact absurd hlast.symm hqe
  · intro q hq
    have hqe : q ≠ entry.2 := fun hqe => hq (isDropped_append.2 (.inr ⟨hnone, hqe.symm⟩))
    rw [hother q hqe]
    exact h.kept q fun hdone => hq (isDropped_append.2 (.inl hdone))
  · intro id q
    rw [isDropped_append]
    refine (hsessions id q).trans ?_
    rw [h.sessions id q]
    by_cases hqe : q = entry.2
    · subst hqe
      by_cases hdone : IsDropped replacement done entry.2
      · simp [h.ended _ hdone, hdone]
      · simp [h.kept _ hdone, hdone, hnone]
    · have hqe' : ¬ entry.2 = q := fun h => hqe h.symm
      simp [hqe, hqe']

lemma Dropped.skip (h : Dropped replacement done before s) (hsome : replacement.lookup entry.1 ≠ none) :
    Dropped replacement (done ++ [entry]) before s := by
  have hsame : ∀ q, IsDropped replacement (done ++ [entry]) q ↔ IsDropped replacement done q := by
    intro q
    rw [isDropped_append]
    simp [hsome]
  refine ⟨h.peers, h.routes, h.generation, ?_, ?_, ?_⟩
  · exact fun q hq => h.ended q ((hsame q).1 hq)
  · exact fun q hq => h.kept q fun hdone => hq ((hsame q).2 hdone)
  · intro id q
    rw [hsame]
    exact h.sessions id q

lemma dropPeers_wp (rest : List (Sigma fun _ : NodeId => PeerRef))
    (h : Dropped replacement done before s) :
    (dropPeers replacement rest).wp (exec suite node)
      (fun _ s' => Dropped replacement (done ++ rest) before s') s := by
  induction rest generalizing done s with
  | nil =>
    rw [List.append_nil]
    exact h
  | cons entry rest ih =>
    have hassoc : done ++ entry :: rest = done ++ [entry] ++ rest := by simp
    rw [hassoc]
    refine wp_when (fun hnone => ?_) fun hsome => ih (h.skip ?_)
    · have hnone : replacement.lookup entry.1 = none := Option.isNone_iff_eq_none.1 hnone
      refine wp_bind.2 (wp_peerCall fun e => wp_peerCall fun e => ?_)
      simp only [performPeer, heap_setPeer, setPeer_setPeer]
      refine wp_mono ?_ (invalidateSession_wp _ _ false)
      rintro _ t ⟨events, rfl⟩
      have hdrop : ((s.setPeer entry.2 { s.heap entry.2 with
          online := false
          reconnect := { (s.heap entry.2).reconnect with requested := false } }).dropSession
            entry.2).setPeer entry.2 = (s.dropSession entry.2).setPeer entry.2 := by
        funext peer
        unfold NodeState.dropSession
        simp only [heap_setPeer]
        split
        · simp
        · rw [removeSession_setPeer, setPeer_setPeer]
      rw [hdrop]
      exact ih (h.step hnone rfl events)
    · intro hlookup
      rw [hlookup] at hsome
      cases hsome

end Drop

/-! ### The end of the call -/

/-- What the scheduling of reconnects leaves as it is. -/
structure Reconnecting (s s' : NodeState) : Prop where
  peers : s'.peers = s.peers
  routes : s'.routes = s.routes
  sessions : s'.sessions = s.sessions
  generation : s'.snapshotGeneration = s.snapshotGeneration
  info : ∀ p, (s'.heap p).info = (s.heap p).info
  online : ∀ p, (s'.heap p).online = (s.heap p).online
  active : ∀ p, (s'.heap p).active = (s.heap p).active

lemma scheduleReconnect_wp (h : Reconnecting before s) (p : PeerRef) :
    (scheduleReconnect p).wp (exec suite node) (fun _ s' => Reconnecting before s') s := by
  refine wp_callBind fun e r s' he => ?_
  cases he
  cases s.started with
  | false => exact h
  | true =>
  refine wp_callBind fun e r s' he => ?_
  cases he
  cases s.stopping with
  | true => exact h
  | false =>
  refine wp_readPeer (fun _ => rfl) ?_
  cases (s.heap p).online with
  | false => exact h
  | true =>
  refine wp_peerCall fun e => ?_
  simp only [performPeer]
  split
  · rw [setPeer_heap]
    exact h
  · refine wp_readPeer (fun _ => rfl) (wp_emit fun events => ?_)
    intro e r s' he
    cases he
    have hfield : ∀ {α : Type} (f : PeerState → α) (q : PeerRef),
        f { s.heap p with reconnect := { (s.heap p).reconnect with running := true } } =
          f (s.heap p) →
        f ((s.setPeer p { s.heap p with
          reconnect := { (s.heap p).reconnect with running := true } }).heap q) = f (s.heap q) := by
      intro α f q hf
      by_cases hq : q = p
      · subst hq
        rw [heap_setPeer]
        exact hf
      · rw [heap_setPeer_ne _ _ hq]
    exact ⟨h.peers, h.routes, h.sessions, h.generation,
      fun q => (hfield PeerState.info q rfl).trans (h.info q),
      fun q => (hfield PeerState.online q rfl).trans (h.online q),
      fun q => (hfield PeerState.active q rfl).trans (h.active q)⟩

/-- What a session depends on in the record of its peer. -/
structure SameIdentity (previous next : PeerInfo) : Prop where
  nodeId : previous.nodeId = next.nodeId
  incarnation : previous.incarnation = next.incarnation
  signingPublic : previous.signingPublic = next.signingPublic
  noisePublic : previous.noisePublic = next.noisePublic
  virtualIpv4 : previous.virtualIpv4 = next.virtualIpv4
  virtualIpv6 : previous.virtualIpv6 = next.virtualIpv6

lemma sameIdentity_iff {previous : PeerInfo} :
    sameIdentity previous next = true ↔ SameIdentity previous next := by
  simp only [sameIdentity, Bool.and_eq_true, beq_iff_eq]
  constructor
  · rintro ⟨⟨⟨⟨⟨h1, h2⟩, h3⟩, h4⟩, h5⟩, h6⟩
    exact ⟨h1, h2, h3, h4, h5, h6⟩
  · rintro ⟨h1, h2, h3, h4, h5, h6⟩
    exact ⟨⟨⟨⟨⟨h1, h2⟩, h3⟩, h4⟩, h5⟩, h6⟩

lemma retains_iff {session : ActiveSession} (h : peer.active = some session) :
    peer.retains next = true ↔ SameIdentity peer.info next ∧
      (peer.info.candidates = next.candidates ∨
        ∃ candidate ∈ next.candidates, candidate.address = session.path) := by
  simp [PeerState.retains, h, sameIdentity_iff]

/-- **What a successful call installs.** -/
structure Installed (suite : Suite) (node : Node) (snapshot : NetworkSnapshot) (before s : NodeState) :
    Prop where
  keys : ∀ nodeId, (s.peers.lookup nodeId).isSome ↔
    nodeId ≠ node.nodeId suite ∧ nodeId ∈ snapshot.peers.map PeerInfo.nodeId
  records : ∀ nodeId p, s.peers.lookup nodeId = some p → (s.heap p).info ∈ snapshot.peers ∧
    (s.heap p).info.nodeId = nodeId ∧ ((s.heap p).online = true ↔ nodeId ∈ snapshot.onlinePeers)
  routes : ∀ address nodeId, s.routes.peerFor address = some nodeId ↔
    nodeId ≠ node.nodeId suite ∧ ∃ info ∈ snapshot.peers, info.nodeId = nodeId ∧
      address ∈ virtualAddresses info.virtualIpv4 info.virtualIpv6
  localAddresses : ∃ info ∈ snapshot.peers, info.nodeId = node.nodeId suite ∧
    s.routes.localAddresses = virtualAddresses info.virtualIpv4 info.virtualIpv6
  generation : s.snapshotGeneration = snapshot.generation
  notOlder : before.snapshotGeneration ≤ snapshot.generation
  fresh : ∀ nodeId p session, s.peers.lookup nodeId = some p → (s.heap p).active = some session →
    before.peers.lookup nodeId = some p ∧ (before.heap p).active = some session
  survives : ∀ nodeId p session, before.peers.lookup nodeId = some p →
    (before.heap p).active = some session →
    (s.peers.lookup nodeId = some p ∧ (s.heap p).active = some session ↔
      nodeId ≠ node.nodeId suite ∧ ∃ info ∈ snapshot.peers,
        info.nodeId = nodeId ∧ SameIdentity (before.heap p).info info ∧
          ((before.heap p).info.candidates = info.candidates ∨
            ∃ candidate ∈ info.candidates, candidate.address = session.path))
  ended : ∀ nodeId p session, before.peers.lookup nodeId = some p →
    (before.heap p).active = some session → (s.heap p).active ≠ some session →
      s.sessions.lookup session.sessionId ≠ some p

lemma address_unique (hvalid : snapshot.Valid blake3) {a b : PeerInfo} (ha : a ∈ snapshot.peers)
    (hb : b ∈ snapshot.peers) {address : IpAddr}
    (haddress : address ∈ virtualAddresses a.virtualIpv4 a.virtualIpv6)
    (haddress' : address ∈ virtualAddresses b.virtualIpv4 b.virtualIpv6) : a = b := by
  have hunique : ∀ {α : Type} (f : PeerInfo → Option α) (x : α),
      (snapshot.peers.filterMap f).Nodup → f a = some x → f b = some x → a = b := by
    intro α f x hnodup hfa hfb
    by_contra hne
    have hpair := List.pairwise_filterMap.1 hnodup
    have hsymm : Std.Symm fun i j : PeerInfo => ∀ x ∈ f i, ∀ y ∈ f j, x ≠ y :=
      ⟨fun i j h x hx y hy hxy => h y hy x hx hxy.symm⟩
    exact hpair.forall ha hb hne x hfa x hfb rfl
  have hmem : ∀ {info : PeerInfo}, address ∈ virtualAddresses info.virtualIpv4 info.virtualIpv6 →
      (∃ x, address = .v4 x ∧ info.virtualIpv4 = some x) ∨
        ∃ x, address = .v6 x ∧ info.virtualIpv6 = some x := by
    intro info h
    simp only [virtualAddresses, List.mem_append, Option.mem_toList,
      Option.map_eq_some_iff] at h
    rcases h with ⟨x, hx, rfl⟩ | ⟨x, hx, rfl⟩
    · exact .inl ⟨x, rfl, hx⟩
    · exact .inr ⟨x, rfl, hx⟩
  rcases hmem haddress with ⟨x, rfl, hx⟩ | ⟨x, rfl, hx⟩
  · rcases hmem haddress' with ⟨y, hxy, hy⟩ | ⟨y, hxy, hy⟩
    · obtain rfl := IpAddr.v4.inj hxy
      exact hunique _ x hvalid.ipv4 hx hy
    · cases hxy
  · rcases hmem haddress' with ⟨y, hxy, hy⟩ | ⟨y, hxy, hy⟩
    · cases hxy
    · obtain rfl := IpAddr.v6.inj hxy
      exact hunique _ x hvalid.ipv6 hx hy

lemma mem_remotes {peers : List PeerInfo} :
    info ∈ remotes suite node peers ↔ info ∈ peers ∧ info.nodeId ≠ node.nodeId suite := by
  simp [remotes]

lemma remotes_nodup (hvalid : snapshot.Valid blake3) :
    ((remotes suite node snapshot.peers).map PeerInfo.nodeId).Nodup :=
  hvalid.nodeIds.sublist (List.filter_sublist.map _)

section Install

variable {snapshot : NetworkSnapshot} {before mid s t s' : NodeState} {acc : Replacement}
  (hwell : before.WellFormed) (hvalid : snapshot.Valid suite.blake3)
  (happlied : Applied suite node snapshot.onlinePeers before (remotes suite node snapshot.peers) acc s)

include hvalid in
lemma record_unique {a b : PeerInfo} (ha : a ∈ snapshot.peers) (hb : b ∈ snapshot.peers)
    (h : a.nodeId = b.nodeId) : a = b :=
  List.inj_on_of_nodup_map hvalid.nodeIds ha hb h

include happlied in
lemma replacement_keys (nodeId : NodeId) : (acc.peers.lookup nodeId).isSome ↔
    nodeId ≠ node.nodeId suite ∧ nodeId ∈ snapshot.peers.map PeerInfo.nodeId := by
  constructor
  · intro h
    obtain ⟨p, hp⟩ := Option.isSome_iff_exists.1 h
    obtain ⟨info, hinfo, rfl, -⟩ := happlied.table nodeId p hp
    obtain ⟨hmem, hremote⟩ := mem_remotes.1 hinfo
    exact ⟨hremote, List.mem_map_of_mem hmem⟩
  · rintro ⟨hremote, hmem⟩
    obtain ⟨info, hinfo, rfl⟩ := List.mem_map.1 hmem
    exact happlied.complete info (mem_remotes.2 ⟨hinfo, hremote⟩)

include hwell happlied in
lemma not_dropped {nodeId : NodeId} {p : PeerRef} (hp : acc.peers.lookup nodeId = some p) :
    ¬ IsDropped acc.peers before.peers.entries p := by
  rintro ⟨entry, hentry, hnone, rfl⟩
  have hold : before.peers.lookup entry.1 = some entry.2 := AList.mem_lookup_iff.2 hentry
  obtain ⟨info, -, rfl, hreplaced⟩ := happlied.table nodeId entry.2 hp
  rcases hreplaced.origin with hknown | ⟨-, hfresh, -⟩
  · rw [hwell.lookup_inj hold hknown, hp] at hnone
    cases hnone
  · exact absurd (hwell.allocated _ _ hold) (Nat.not_lt.2 hfresh)

include hwell in
lemma dropped_iff {nodeId : NodeId} {p : PeerRef} (hp : before.peers.lookup nodeId = some p) :
    IsDropped acc.peers before.peers.entries p ↔ acc.peers.lookup nodeId = none := by
  constructor
  · rintro ⟨entry, hentry, hnone, rfl⟩
    have hold : before.peers.lookup entry.1 = some entry.2 := AList.mem_lookup_iff.2 hentry
    rw [hwell.lookup_inj hp hold]
    exact hnone
  · intro hnone
    exact ⟨⟨nodeId, p⟩, AList.mem_lookup_iff.1 hp, hnone, rfl⟩

include hvalid happlied in
lemma replacement_routes {routes : AList fun _ : IpAddr => NodeId}
    (hroutes : routes = (routeEntries ((acc.peers.entries.map Sigma.snd).map fun p =>
      (s.heap p).info)).foldl (fun table entry => table.insert entry.1 entry.2) ∅)
    (address : IpAddr) (nodeId : NodeId) : routes.lookup address = some nodeId ↔
      nodeId ≠ node.nodeId suite ∧ ∃ info ∈ snapshot.peers, info.nodeId = nodeId ∧
        address ∈ virtualAddresses info.virtualIpv4 info.virtualIpv6 := by
  -- the records that the routes are made of are the remote ones
  have hrecords : ∀ info, info ∈ (acc.peers.entries.map Sigma.snd).map (fun p => (s.heap p).info) ↔
      info ∈ remotes suite node snapshot.peers := by
    intro info
    rw [List.map_map]
    constructor
    · intro h
      obtain ⟨⟨nodeId, p⟩, hentry, rfl⟩ := List.mem_map.1 h
      obtain ⟨info, hinfo, -, hreplaced⟩ := happlied.table nodeId p (AList.mem_lookup_iff.2 hentry)
      rw [Function.comp_apply, hreplaced.info]
      exact hinfo
    · intro hinfo
      obtain ⟨p, hp⟩ := Option.isSome_iff_exists.1 (happlied.complete info hinfo)
      obtain ⟨info', hinfo', hid, hreplaced⟩ := happlied.table _ p hp
      obtain rfl := record_unique hvalid (mem_remotes.1 hinfo').1 (mem_remotes.1 hinfo).1 hid
      exact List.mem_map.2 ⟨⟨info'.nodeId, p⟩, AList.mem_lookup_iff.1 hp, hreplaced.info⟩
  have hentries : ∀ address nodeId,
      (address, nodeId) ∈ routeEntries ((acc.peers.entries.map Sigma.snd).map fun p =>
        (s.heap p).info) ↔ ∃ info ∈ remotes suite node snapshot.peers, info.nodeId = nodeId ∧
          address ∈ virtualAddresses info.virtualIpv4 info.virtualIpv6 := by
    intro address nodeId
    simp only [routeEntries, List.mem_flatMap, List.mem_map, Prod.mk.injEq]
    constructor
    · rintro ⟨info, hinfo, address', hmem, rfl, rfl⟩
      exact ⟨info, (hrecords info).1 (by simpa using hinfo), rfl, hmem⟩
    · rintro ⟨info, hinfo, rfl, hmem⟩
      exact ⟨info, by simpa using (hrecords info).2 hinfo, address, hmem, rfl, rfl⟩
  rw [hroutes, lookup_foldl_insert, hentries]
  · constructor
    · rintro (⟨info, hinfo, rfl, hmem⟩ | ⟨-, hempty⟩)
      · obtain ⟨hin, hremote⟩ := mem_remotes.1 hinfo
        exact ⟨hremote, info, hin, rfl, hmem⟩
      · cases hempty
    · rintro ⟨hremote, info, hin, rfl, hmem⟩
      exact .inl ⟨info, mem_remotes.2 ⟨hin, hremote⟩, rfl, hmem⟩
  · intro address b b' hb hb'
    obtain ⟨info, hinfo, rfl, hmem⟩ := (hentries address b).1 hb
    obtain ⟨info', hinfo', rfl, hmem'⟩ := (hentries address b').1 hb'
    rw [address_unique hvalid (mem_remotes.1 hinfo).1 (mem_remotes.1 hinfo').1 hmem hmem']

include hwell hvalid happlied in
lemma installed_of (hpeers : mid.peers = acc.peers) (hheap : mid.heap = s.heap)
    (hsessions : mid.sessions = s.sessions) {own : PeerInfo} (hown : own ∈ snapshot.peers)
    (hownId : own.nodeId = node.nodeId suite)
    (hlocal : mid.routes.localAddresses = virtualAddresses own.virtualIpv4 own.virtualIpv6)
    (hroutes : mid.routes.routes = (routeEntries ((acc.peers.entries.map Sigma.snd).map fun p =>
      (s.heap p).info)).foldl (fun table entry => table.insert entry.1 entry.2) ∅)
    (hgeneration : mid.snapshotGeneration = snapshot.generation)
    (hnotOlder : before.snapshotGeneration ≤ snapshot.generation)
    (hdropped : Dropped acc.peers before.peers.entries mid t) (hre : Reconnecting t s') :
    Installed suite node snapshot before s' := by
  have htable : s'.peers = acc.peers := (hre.peers.trans hdropped.peers).trans hpeers
  -- a peer of the new table is as the loop left it
  have hkept : ∀ {nodeId p}, acc.peers.lookup nodeId = some p → t.heap p = s.heap p := by
    intro nodeId p hp
    rw [hdropped.kept p (not_dropped hwell happlied hp), hheap]
  refine ⟨?_, ?_, ?_, ?_, ?_, hnotOlder, ?_, ?_, ?_⟩
  · intro nodeId
    rw [htable]
    exact replacement_keys happlied nodeId
  · intro nodeId p hp
    rw [htable] at hp
    obtain ⟨info, hinfo, rfl, hreplaced⟩ := happlied.table nodeId p hp
    rw [hre.info, hre.online, hkept hp, hreplaced.info, hreplaced.online]
    exact ⟨(mem_remotes.1 hinfo).1, rfl, by simp⟩
  · intro address nodeId
    rw [RouteTable.peerFor, hre.routes, hdropped.routes]
    exact replacement_routes hvalid happlied hroutes address nodeId
  · exact ⟨own, hown, hownId, by rw [hre.routes, hdropped.routes, hlocal]⟩
  · rw [hre.generation, hdropped.generation, hgeneration]
  · intro nodeId p session hp hactive
    rw [htable] at hp
    rw [hre.active, hkept hp] at hactive
    obtain ⟨info, hinfo, rfl, hreplaced⟩ := happlied.table nodeId p hp
    rcases hreplaced.origin with hknown | ⟨-, -, hnone⟩
    · refine ⟨hknown, ?_⟩
      rw [happlied.known info hinfo p hknown] at hactive
      simp only [PeerState.updated] at hactive
      split at hactive
      · exact hactive
      · cases hactive
    · rw [hnone] at hactive
      cases hactive
  · intro nodeId p session hp hactive
    rw [hre.active, htable]
    cases hlookup : acc.peers.lookup nodeId with
    | none =>
      -- the peer is dropped with its session
      refine iff_of_false (by simp) ?_
      rintro ⟨hremote, info, hinfo, rfl, -⟩
      have hsome := (replacement_keys happlied info.nodeId).2 ⟨hremote, List.mem_map_of_mem hinfo⟩
      rw [hlookup] at hsome
      cases hsome
    | some q =>
      obtain ⟨info, hinfo, rfl, hreplaced⟩ := happlied.table nodeId q hlookup
      have hnot : ¬ IsDropped acc.peers before.peers.entries p := by
        rw [dropped_iff hwell hp, hlookup]
        simp
      obtain ⟨hin, hremote⟩ := mem_remotes.1 hinfo
      -- a known peer keeps its entry
      have hentry : q = p := by
        rcases hreplaced.origin with hknown | ⟨hnone, -⟩
        · exact Option.some.inj (hknown.symm.trans hp)
        · rw [hp] at hnone
          cases hnone
      rw [and_iff_right (congrArg some hentry), hdropped.kept p hnot, hheap, happlied.known info hinfo p hp]
      have hupdated : ((before.heap p).updated suite node info
          (snapshot.onlinePeers.contains info.nodeId)).active = some session ↔
          (before.heap p).retains info = true := by
        simp only [PeerState.updated]
        split
        · simp [*]
        · rename_i hretain
          exact iff_of_false (by rintro ⟨⟩) hretain
      rw [hupdated, retains_iff hactive]
      constructor
      · intro h
        exact ⟨hremote, info, hin, rfl, h⟩
      · rintro ⟨-, info', hin', hid, h⟩
        obtain rfl := record_unique hvalid hin' hin hid
        exact h
  · intro nodeId p session hp hactive hended hentry
    rw [hre.active] at hended
    rw [hre.sessions, hdropped.sessions, hsessions, happlied.sessions] at hentry
    obtain ⟨⟨-, hloop⟩, hdrop⟩ := hentry
    cases hlookup : acc.peers.lookup nodeId with
    | none =>
      -- the loop left the peer as it was
      have hnotin : nodeId ∉ (remotes suite node snapshot.peers).map PeerInfo.nodeId := by
        intro hmem
        obtain ⟨info, hinfo, rfl⟩ := List.mem_map.1 hmem
        have hsome := happlied.complete info hinfo
        rw [hlookup] at hsome
        cases hsome
      refine hdrop ⟨(dropped_iff hwell hp).2 hlookup, ?_⟩
      rw [hheap, happlied.untouched nodeId p hp hnotin, hactive]
      rfl
    | some q =>
      obtain ⟨info, hinfo, rfl, -⟩ := happlied.table nodeId q hlookup
      have hnot : ¬ IsDropped acc.peers before.peers.entries p := by
        rw [dropped_iff hwell hp, hlookup]
        simp
      rw [hdropped.kept p hnot, hheap, happlied.known info hinfo p hp] at hended
      refine hloop ⟨info, hinfo, hp, ?_, ?_⟩
      · by_contra hretain
        have hretain : (before.heap p).retains info = true := by simpa using hretain
        refine hended ?_
        simp only [PeerState.updated, hretain, if_true]
        exact hactive
      · rw [hactive]
        rfl

end Install

/-! ### The whole call -/

/-- `verify_snapshot`, if the node has a server key. -/
def verifyAt (suite : Suite) (node : Node) (snapshot : NetworkSnapshot) (now : UInt64) :
    Except CoreError Unit :=
  match node.config.serverPublicKey with
  | none => .ok ()
  | some key => (verifySnapshot suite.toPrimitives snapshot key now).mapError CoreError.crypto

/-- The checks before the loop; the clock is read twice. -/
def headChecks (suite : Suite) (node : Node) (generation : UInt64) (snapshot : NetworkSnapshot)
    (now now' : UInt64) : Except CoreError PeerInfo := do
  verifyAt suite node snapshot now
  checkSnapshot suite node snapshot now'
  localRecord suite node snapshot generation

lemma checkSnapshot_valid {now : UInt64} (h : checkSnapshot suite node snapshot now = .ok ()) :
    snapshot.Valid suite.blake3 := by
  unfold checkSnapshot at h
  cases hvalidate : snapshot.validate suite.blake3 with
  | error error => rw [hvalidate] at h; cases h
  | ok _ => exact NetworkSnapshot.validate_eq_ok_iff.1 hvalidate

lemma throwIf_eq_ok {ε : Type} {c : Prop} [Decidable c] {error : ε} {k : Unit → Except ε β} {r : β} :
    (if c then (throw error : Except ε Unit) >>= k else k ()) = .ok r ↔ ¬ c ∧ k () = .ok r := by
  by_cases h : c
  · rw [if_pos h]
    exact iff_of_false nofun fun h' => h'.1 h
  · rw [if_neg h]
    exact ⟨fun hk => ⟨h, hk⟩, And.right⟩

lemma localRecord_ok {generation : UInt64} {own : PeerInfo}
    (h : localRecord suite node snapshot generation = .ok own) :
    own ∈ snapshot.peers ∧ own.nodeId = node.nodeId suite ∧ generation ≤ snapshot.generation := by
  unfold localRecord at h
  obtain ⟨hgeneration, h⟩ := throwIf_eq_ok.1 h
  cases hfind : snapshot.peers.find? fun peer => peer.nodeId = node.nodeId suite with
  | none => rw [hfind] at h; cases h
  | some info =>
    rw [hfind] at h
    dsimp only at h
    cases hinfo : validatePeerInfo suite info with
    | error error => rw [hinfo] at h; cases h
    | ok _ =>
      rw [hinfo] at h
      have hrest : (if (virtualAddresses info.virtualIpv4 info.virtualIpv6).isEmpty = true then
          (throw .localAddressMissing : Except CoreError Unit) >>= fun _ => .ok info
        else .ok info) = .ok own := h
      obtain ⟨-, hinfo⟩ := throwIf_eq_ok.1 hrest
      obtain rfl := Except.ok.inj hinfo
      refine ⟨List.mem_of_find?_eq_some hfind, by simpa using List.find?_some hfind, ?_⟩
      exact UInt64.not_lt.1 hgeneration

section Call

variable {E : Type} {exec' : E → (c : Section) → NodeState → Option (Response c × NodeState)}
  {clock : Set UInt64} (hclock : clock.Nonempty)
  (hexec : ∀ e c s x, exec' e c s = some x →
    ∃ e' : Env, e'.unixTime ∈ clock ∧ exec suite node e' c s = some x)

include hclock hexec in
lemma verifySignature_wp (snapshot : NetworkSnapshot) (s : NodeState) :
    (verifySignature suite node snapshot).run.wp exec'
      (fun r s' => s' = s ∧ ∃ now ∈ clock, r = verifyAt suite node snapshot now) s := by
  obtain ⟨start, hstart⟩ := hclock
  unfold verifySignature
  cases hkey : node.config.serverPublicKey with
  | none => exact ⟨rfl, start, hstart, by rw [verifyAt, hkey]⟩
  | some key =>
    refine wp_bindExcept (wp_lift fun e now s' he => ?_)
    obtain ⟨e', hnow, he'⟩ := hexec _ _ _ _ he
    obtain ⟨rfl, rfl⟩ := Prod.mk.inj (Option.some.inj he')
    exact ⟨rfl, e'.unixTime, hnow, by rw [verifyAt, hkey]⟩

variable {s : NodeState}

lemma stores_wp {β : Type} {rest : Task β} {Q : β → NodeState → Prop} (snapshot : NetworkSnapshot)
    (own : PeerInfo)
    (h : ∀ mid : NodeState, mid.peers = s.peers → mid.heap = s.heap → mid.sessions = s.sessions →
      mid.routes = s.routes → mid.snapshotGeneration = snapshot.generation →
        rest.wp (exec suite node) Q mid) :
    (do call (.storeNetworkId snapshot.networkId)
        call (.storeLocalIpv4 own.virtualIpv4)
        call (.storeLocalIpv6 own.virtualIpv6)
        call (.storeGeneration snapshot.generation)
        call (.storeExpiresAt snapshot.expiresAt)
        rest : Task β).wp (exec suite node) Q s := by
  refine wp_callBind fun _ _ _ he => ?_
  cases he
  refine wp_callBind fun _ _ _ he => ?_
  cases he
  refine wp_callBind fun _ _ _ he => ?_
  cases he
  refine wp_callBind fun _ _ _ he => ?_
  cases he
  refine wp_callBind fun _ _ _ he => ?_
  cases he
  exact h _ rfl rfl rfl rfl rfl

lemma installSnapshot_wp {snapshot : NetworkSnapshot} {before : NodeState} {acc : Replacement}
    (hwell : before.WellFormed) (hvalid : snapshot.Valid suite.blake3)
    (happlied : Applied suite node snapshot.onlinePeers before (remotes suite node snapshot.peers) acc s)
    {own : PeerInfo} (hown : own ∈ snapshot.peers) (hownId : own.nodeId = node.nodeId suite)
    (hnotOlder : before.snapshotGeneration ≤ snapshot.generation) :
    (installSnapshot snapshot own acc).wp (exec suite node)
      (fun _ s' => Installed suite node snapshot before s') s := by
  refine wp_bind.2 (wp_mono ?_ (snapshotRoutes_wp s _ _))
  rintro routes t ⟨rfl, hroutes⟩
  refine wp_callBind fun e old t₁ he => ?_
  cases he
  refine stores_wp snapshot own fun mid hpeers hheap hsessions hmidRoutes hgeneration => ?_
  rw [happlied.peers]
  have hstart : ∀ mid : NodeState, Dropped acc.peers [] mid mid := by
    intro mid
    refine ⟨rfl, rfl, rfl, ?_, fun _ _ => rfl, ?_⟩
    · rintro q ⟨entry, hentry, -⟩
      cases hentry
    · intro id q
      refine ⟨fun h => ⟨h, ?_⟩, And.left⟩
      rintro ⟨⟨entry, hentry, -⟩, -⟩
      cases hentry
  refine wp_bind.2 (wp_mono ?_ (dropPeers_wp _ (hstart _)))
  intro _ t hdropped
  have hself : Reconnecting t t :=
    ⟨rfl, rfl, rfl, rfl, fun _ => rfl, fun _ => rfl, fun _ => rfl⟩
  refine wp_mono ?_ (wp_forM scheduleReconnect _
    (fun p _ s hs => scheduleReconnect_wp hs p) hself)
  intro _ s' hre
  rw [List.nil_append] at hdropped
  refine installed_of hwell hvalid happlied hpeers hheap hsessions hown hownId ?_ ?_ hgeneration
    hnotOlder hdropped hre
  · rw [hmidRoutes, hroutes]
    rfl
  · rw [hmidRoutes, hroutes]
    rfl

include hclock hexec in
/-- **`apply_snapshot` under its mutex**: it fails before the loop, in the loop, or not at all. -/
theorem applySnapshotLocked_wp {s : NodeState} (hwell : s.WellFormed) (snapshot : NetworkSnapshot) :
    (applySnapshotLocked suite node snapshot).run.wp exec' (fun r s' =>
      match r with
      | .ok _ => Installed suite node snapshot s s' ∧ snapshot.Valid suite.blake3
      | .error _ => ∃ now ∈ clock, ∃ now' ∈ clock,
          (∃ error, s' = s ∧
            headChecks suite node s.snapshotGeneration snapshot now now' = .error error) ∨
          ∃ own, headChecks suite node s.snapshotGeneration snapshot now now' = .ok own ∧
            ∃ passed refused others, snapshot.peers = passed ++ refused :: others ∧
              (∀ info ∈ passed, ∃ now ∈ clock, checkPeer suite node info now = .ok ()) ∧
              (∃ now ∈ clock, ∃ error, checkPeer suite node refused now = .error error) ∧
              ∃ acc, Applied suite node snapshot.onlinePeers s (remotes suite node passed) acc s') s := by
  refine wp_bindExcept (wp_mono ?_ (verifySignature_wp hclock hexec snapshot s))
  rintro r t ⟨rfl, now, hnow, rfl⟩
  cases hverify : verifyAt suite node snapshot now with
  | error error =>
    refine ⟨now, hnow, now, hnow, .inl ⟨error, rfl, ?_⟩⟩
    rw [headChecks, hverify]
    rfl
  | ok _ =>
  refine wp_bindExcept (wp_lift fun e now' s' he => ?_)
  obtain ⟨e', hnow', he'⟩ := hexec _ _ _ _ he
  obtain ⟨rfl, rfl⟩ := Prod.mk.inj (Option.some.inj he')
  refine wp_bindExcept ?_
  cases hcheck : checkSnapshot suite node snapshot e'.unixTime with
  | error error =>
    refine ⟨now, hnow, e'.unixTime, hnow', .inl ⟨error, rfl, ?_⟩⟩
    rw [headChecks, hverify, hcheck]
    rfl
  | ok _ =>
  refine wp_bindExcept (wp_lift fun e₂ generation s₂ he => ?_)
  obtain ⟨e₂', -, he'⟩ := hexec _ _ _ _ he
  obtain ⟨rfl, rfl⟩ := Prod.mk.inj (Option.some.inj he')
  refine wp_bindExcept ?_
  cases hlocal : localRecord suite node snapshot t.snapshotGeneration with
  | error error =>
    refine ⟨now, hnow, e'.unixTime, hnow', .inl ⟨error, rfl, ?_⟩⟩
    rw [headChecks, hverify, hcheck]
    exact hlocal
  | ok own =>
  have hhead : headChecks suite node t.snapshotGeneration snapshot now e'.unixTime = .ok own := by
    rw [headChecks, hverify, hcheck]
    exact hlocal
  refine wp_bindExcept (wp_lift fun e₃ old s₃ he => ?_)
  obtain ⟨e₃', -, he'⟩ := hexec _ _ _ _ he
  obtain ⟨rfl, rfl⟩ := Prod.mk.inj (Option.some.inj he')
  have hvalid := checkSnapshot_valid hcheck
  obtain ⟨hown, hownId, hnotOlder⟩ := localRecord_ok hlocal
  have hempty : Applied suite node snapshot.onlinePeers t [] ⟨∅, [], []⟩ t := by
    refine ⟨rfl, rfl, rfl, rfl, le_rfl, nofun, fun _ _ _ _ => rfl, ?_, nofun, nofun⟩
    intro id q
    refine ⟨fun h => ⟨h, ?_⟩, And.left⟩
    rintro ⟨info, hinfo, -⟩
    cases hinfo
  refine wp_bindExcept (wp_mono ?_ (snapshotPeers_wp hclock hexec hwell snapshot.peers hempty
    (remotes_nodup hvalid)))
  intro r after hr
  cases r with
  | error error =>
    exact ⟨now, hnow, e'.unixTime, hnow', .inr ⟨own, hhead, hr⟩⟩
  | ok acc =>
    refine wp_lift (wp_restrict (fun e c s x hx => (hexec e c s x hx).imp fun _ h => h.2) ?_)
    exact wp_mono (fun _ _ h => ⟨h, hvalid⟩)
      (installSnapshot_wp hwell hvalid hr hown hownId hnotOlder)

end Call

lemma applySnapshot_wp {E : Type}
    {exec' : E → (c : Section) → NodeState → Option (Response c × NodeState)}
    (hexec : ∀ e c s x, exec' e c s = some x → ∃ e' : Env, exec suite node e' c s = some x)
    (snapshot : NetworkSnapshot) {Q : Except CoreError Unit → NodeState → Prop} (s : NodeState)
    (h : (applySnapshotLocked suite node snapshot).run.wp exec'
      (fun r s' => Q r { s' with snapshotUpdate := false }) { s with snapshotUpdate := true }) :
    (applySnapshot suite node snapshot).run.wp exec' Q s := by
  refine wp_callBind fun e r s' he => ?_
  obtain ⟨e', he'⟩ := hexec _ _ _ _ he
  simp only [exec] at he'
  split at he'
  · cases he'
  cases he'
  refine wp_bind.2 (wp_mono ?_ h)
  intro r s' hr
  refine wp_callBind fun e r s'' he => ?_
  obtain ⟨e', he'⟩ := hexec _ _ _ _ he
  cases he'
  exact hr

lemma applySnapshot_ok_wp (snapshot : NetworkSnapshot) (hwell : s.WellFormed) :
    (applySnapshot suite node snapshot).run.wp (exec suite node) (fun r s' => r = .ok () →
      Installed suite node snapshot s s' ∧ snapshot.Valid suite.blake3) s := by
  refine applySnapshot_wp (fun e c s x h => ⟨e, h⟩) snapshot s ?_
  have hlocked := @applySnapshotLocked_wp suite node Env (exec suite node) Set.univ ⟨0, trivial⟩
    (fun e c s x h => ⟨e, trivial, h⟩) { s with snapshotUpdate := true }
    ⟨hwell.keyed, hwell.allocated⟩ snapshot
  refine wp_mono ?_ hlocked
  rintro r s' hr rfl
  obtain ⟨hr, hvalid⟩ := hr
  exact ⟨⟨hr.keys, hr.records, hr.routes, hr.localAddresses, hr.generation, hr.notOlder, hr.fresh,
    hr.survives, hr.ended⟩, hvalid⟩

/-- What a call that fails ought to leave as it is in a peer. -/
structure SameFields (a b : PeerState) : Prop where
  info : b.info = a.info
  online : b.online = a.online
  active : b.active = a.active
  attempt : b.attempt = a.attempt
  queue : b.queue = a.queue
  reconnect : b.reconnect = a.reconnect

/-- What a call that fails ought to leave as it is. -/
structure Unchanged (s s' : NodeState) : Prop where
  peers : s'.peers = s.peers
  peer : ∀ nodeId p, s.peers.lookup nodeId = some p → SameFields (s.heap p) (s'.heap p)
  sessions : ∀ id, s'.sessions.lookup id = s.sessions.lookup id
  routes : s'.routes = s.routes
  generation : s'.snapshotGeneration = s.snapshotGeneration
  expiresAt : s'.snapshotExpiresAt = s.snapshotExpiresAt

/-- The peer has the record and the flag already, and no attempts to reset. -/
structure PeerState.Settled (peer : PeerState) (record : PeerInfo) (isOnline : Bool) : Prop where
  info : peer.info = record
  online : peer.online = isOnline
  attempts : isOnline = true → peer.reconnect.requested = true → peer.reconnect.attempts = 0

lemma retains_self : peer.retains peer.info = true := by
  have hsame : sameIdentity peer.info peer.info = true :=
    sameIdentity_iff.2 ⟨rfl, rfl, rfl, rfl, rfl, rfl⟩
  unfold PeerState.retains
  cases peer.active with
  | none => simp [hsame]
  | some session => simp [hsame]

lemma updated_same_iff {online : Bool} :
    SameFields peer (peer.updated suite node info online) ↔ peer.Settled info online := by
  constructor
  · intro h
    have hinfo : info = peer.info := h.info
    subst hinfo
    refine ⟨rfl, h.online.symm, ?_⟩
    rintro rfl hrequested
    have hreconnect := h.reconnect
    simp only [PeerState.updated, retains_self, if_true, hrequested, Bool.and_self] at hreconnect
    rw [← hreconnect]
  · rintro ⟨rfl, rfl, hattempts⟩
    refine ⟨rfl, rfl, ?_, ?_, ?_, ?_⟩
    · simp only [PeerState.updated, retains_self, if_true]
    · simp only [PeerState.updated, retains_self, if_true]
    · simp only [PeerState.updated, retains_self, if_true]
    · simp only [PeerState.updated, retains_self, if_true]
      split
      · rename_i h
        obtain ⟨honline, hrequested⟩ := Bool.and_eq_true_iff.1 h
        rw [← hattempts honline hrequested]
      · rfl

lemma Applied.unchanged_iff {onlinePeers : List NodeId} {done : List PeerInfo} {acc : Replacement}
    (h : Applied suite node onlinePeers before done acc s) :
    Unchanged before s ↔ ∀ info ∈ done, ∀ p, before.peers.lookup info.nodeId = some p →
      (before.heap p).Settled info (onlinePeers.contains info.nodeId) := by
  constructor
  · intro hsame info hinfo p hp
    have hfields := hsame.peer _ p hp
    rw [h.known info hinfo p hp] at hfields
    exact updated_same_iff.1 hfields
  · intro hsettled
    refine ⟨h.peers, ?_, ?_, h.routes, h.generation, h.expiresAt⟩
    · intro nodeId p hp
      by_cases hmem : nodeId ∈ done.map PeerInfo.nodeId
      · obtain ⟨info, hinfo, rfl⟩ := List.mem_map.1 hmem
        rw [h.known info hinfo p hp]
        exact updated_same_iff.2 (hsettled info hinfo p hp)
      · rw [h.untouched nodeId p hp hmem]
        exact ⟨rfl, rfl, rfl, rfl, rfl, rfl⟩
    · -- no session was ended
      have hends : ∀ q id, ¬ Ends before done q id := by
        rintro q id ⟨info, hinfo, hq, hretain, -⟩
        rw [← (hsettled info hinfo q hq).info, retains_self] at hretain
        cases hretain
      intro id
      refine Option.ext fun q => ?_
      rw [h.sessions id q]
      exact and_iff_left (hends q id)

lemma takeWhile_split {f : α → Bool} {l passed others : List α} {a : α} (hl : l = passed ++ a :: others)
    (hpassed : ∀ x ∈ passed, f x = true) (ha : f a = false) :
    l.takeWhile f = passed := by
  rw [hl, List.takeWhile_append_of_pos hpassed, List.takeWhile_cons_of_neg (by simp [ha]),
    List.append_nil]

/-- **When a failing `apply_snapshot` changes nothing.**  Let the clock stand at `now` during the call.
If the call fails, it has left the node as it was exactly if it failed before the loop over the records,
or if every known peer whose record comes before the first one that is refused is settled. -/
theorem failed_applySnapshot_iff (suite : Suite) (node : Node) (snapshot : NetworkSnapshot)
    (s : NodeState) (hwell : s.WellFormed) (now : UInt64) :
    (applySnapshot suite node snapshot).run.wp (execAt suite node now) (fun r s' =>
      ∀ error, r = .error error → (Unchanged s s' ↔
        (∃ error, headChecks suite node s.snapshotGeneration snapshot now now = .error error) ∨
        ∀ info ∈ snapshot.peers.takeWhile (fun info => (checkPeer suite node info now).isOk),
          info.nodeId ≠ node.nodeId suite → ∀ p, s.peers.lookup info.nodeId = some p →
            (s.heap p).Settled info (snapshot.onlinePeers.contains info.nodeId))) s := by
  refine applySnapshot_wp (fun e c s x h => ⟨_, h⟩) snapshot s ?_
  have hlocked := @applySnapshotLocked_wp suite node Env (execAt suite node now) {now} ⟨now, rfl⟩
    (fun e c s x h => ⟨{ e with unixTime := now }, rfl, h⟩) { s with snapshotUpdate := true }
    ⟨hwell.keyed, hwell.allocated⟩ snapshot
  refine wp_mono ?_ hlocked
  rintro r s' hr error rfl
  obtain ⟨now₁, hnow₁, now₂, hnow₂, h⟩ := hr
  obtain rfl : now = now₁ := hnow₁.symm
  obtain rfl : now = now₂ := hnow₂.symm
  rcases h with ⟨error, rfl, hhead⟩ | ⟨own, hhead, passed, refused, others, hsplit, hpassed, hrefused,
    acc, happlied⟩
  · refine iff_of_true ?_ (.inl ⟨error, hhead⟩)
    exact ⟨rfl, fun _ _ _ => ⟨rfl, rfl, rfl, rfl, rfl, rfl⟩, fun _ => rfl, rfl, rfl, rfl⟩
  · obtain ⟨now₁, hnow₁, refusal, hrefusal⟩ := hrefused
    obtain rfl : now = now₁ := hnow₁.symm
    have htake : snapshot.peers.takeWhile (fun info => (checkPeer suite node info now).isOk) =
        passed := by
      refine takeWhile_split hsplit ?_ ?_
      · intro info hinfo
        obtain ⟨now₁, hnow₁, hok⟩ := hpassed info hinfo
        obtain rfl : now = now₁ := hnow₁.symm
        rw [hok]
        rfl
      · rw [hrefusal]
        rfl
    have hunchanged : Unchanged s { s' with snapshotUpdate := false } ↔
        Unchanged { s with snapshotUpdate := true } s' :=
      ⟨fun h => ⟨h.peers, h.peer, h.sessions, h.routes, h.generation, h.expiresAt⟩,
        fun h => ⟨h.peers, h.peer, h.sessions, h.routes, h.generation, h.expiresAt⟩⟩
    rw [hunchanged, happlied.unchanged_iff, htake]
    constructor
    · intro h
      refine .inr fun info hinfo hremote p hp => ?_
      exact h info (mem_remotes.2 ⟨hinfo, hremote⟩) p hp
    · rintro (⟨error, herror⟩ | h)
      · exact absurd (hhead.symm.trans herror) nofun
      · intro info hinfo p hp
        obtain ⟨hmem, hremote⟩ := mem_remotes.1 hinfo
        exact h info hmem hremote p hp

section Demo

def demoSnapshot (peers : List PeerInfo) (onlinePeers : List NodeId) : NetworkSnapshot where
  networkId := Vector.replicate 16 0
  generation := 1
  virtualIpv4 := some ⟨⟨#v[10, 0, 0, 0]⟩, 24⟩
  virtualIpv6 := none
  dohServers := []
  stunServers := []
  peers := peers
  onlinePeers := onlinePeers
  expiresAt := 1000
  signature := List.replicate 64 0

/-- The peer `1` has started again, and the credential of the peer `2` is that of the peer `3`. -/
def demoRefused : NetworkSnapshot :=
  demoSnapshot [demoInfo 5, { demoInfo 1 with incarnation := 2 },
    { demoInfo 2 with credential := (demoBytes 3).toList }] [demoRef.nodeId]

def demoSettled : NetworkSnapshot :=
  demoSnapshot [demoInfo 5, demoInfo 1, { demoInfo 2 with credential := (demoBytes 3).toList }] [demoRef.nodeId]

def demoListed : NetworkSnapshot := demoSnapshot [demoInfo 5, demoInfo 1] [demoRef.nodeId]

/-- A call that ends in the result and leaves the peer `1` with a session or without. -/
def demoCall (exec' : Env → (c : Section) → NodeState → Option (Response c × NodeState))
    (snapshot : NetworkSnapshot) (n : ℕ) (result : Except CoreError Unit) (connected : Bool)
    (s : NodeState) : Bool :=
  ((applySnapshot demoSuite demoNode snapshot).run.run exec' (List.replicate n demoEnv) s).any fun after =>
    decide (after.1 = result ∧ (after.2.heap demoRef).active.isSome = connected)

def demoRefusedEnd : {cfg // (plainPool demoSuite demoNode 3).Reachable (fun _ _ => True)
      ((plainPool demoSuite demoNode 3).initial demoState) cfg ∧
      cfg.shared.peers.entries = [⟨demoRef.nodeId, demoRef⟩] ∧ 0 < cfg.shared.allocated ∧
      (cfg.shared.heap demoRef).active.isSome ∧ (cfg.shared.heap demoRef).info = demoInfo 1 ∧
      (cfg.shared.heap demoRef).online = true ∧ (cfg.shared.heap demoRef).reconnect.attempts = 0 ∧
      demoCall (exec demoSuite demoNode) demoRefused 22 (.error .invalidPeer) false cfg.shared ∧
      demoCall (execAt demoSuite demoNode 10) demoSettled 15 (.error .invalidPeer) true cfg.shared ∧
      demoCall (exec demoSuite demoNode) demoListed 21 (.ok ()) true cfg.shared} :=
  Pool.Spec.reach (fun _ _ => true) (fun _ _ _ => trivial) demoConnected (by decide +kernel)

lemma demoCall_run {exec' : Env → (c : Section) → NodeState → Option (Response c × NodeState)}
    {snapshot : NetworkSnapshot} {n : ℕ} {result : Except CoreError Unit} {connected : Bool} {s : NodeState}
    (h : demoCall exec' snapshot n result connected s = true) : ∃ s',
      (applySnapshot demoSuite demoNode snapshot).run.run exec' (List.replicate n demoEnv) s =
        some (result, s') ∧ (s'.heap demoRef).active.isSome = connected := by
  obtain ⟨⟨r, s'⟩, hrun, hfacts⟩ := (Option.any_eq_true _ _).1 h
  obtain ⟨rfl, hactive⟩ := of_decide_eq_true hfacts
  exact ⟨s', hrun, hactive⟩

lemma lookup_demo {s : NodeState} (h : s.peers.entries = [⟨demoRef.nodeId, demoRef⟩]) {nodeId : NodeId}
    {p : PeerRef} : s.peers.lookup nodeId = some p ↔ nodeId = demoRef.nodeId ∧ p = demoRef := by
  rw [← Option.mem_def, AList.mem_lookup_iff, h, List.mem_singleton, Sigma.mk.injEq, heq_eq_eq]

lemma wellFormed_demo {s : NodeState} (h : s.peers.entries = [⟨demoRef.nodeId, demoRef⟩])
    (hallocated : 0 < s.allocated) : s.WellFormed where
  keyed _ _ hp := by
    obtain ⟨rfl, rfl⟩ := (lookup_demo h).1 hp
    rfl
  allocated _ _ hp := by
    obtain ⟨rfl, rfl⟩ := (lookup_demo h).1 hp
    exact hallocated

/-- The snapshot is refused for the sake of the peer `2`, and the session with the peer `1` is gone. -/
theorem refused_snapshot_ends_session :
    ¬ ∀ (suite : Suite) (node : Node) (fuel : ℕ) (heap : PeerRef → PeerState)
        (cfg : Pool.Config Section Response NodeState Unit),
      (plainPool suite node fuel).Reachable (fun _ _ => True)
        ((plainPool suite node fuel).initial (.new node heap)) cfg → ∀ snapshot,
      (applySnapshot suite node snapshot).run.wp (exec suite node)
        (fun r s' => ∀ error, r = .error error → Unchanged cfg.shared s') cfg.shared := by
  intro h
  obtain ⟨cfg, hreach, hentries, -, hbefore, -, -, -, hrefused, -⟩ := demoRefusedEnd
  obtain ⟨s', hrun, hafter⟩ := demoCall_run hrefused
  have hsame := wp_run (h demoSuite demoNode 3 _ cfg hreach demoRefused) hrun _ rfl
  have hactive := (hsame.peer _ _ ((lookup_demo hentries).2 ⟨rfl, rfl⟩)).active
  rw [hactive, hbefore] at hafter
  cases hafter

theorem failed_applySnapshot_settled : ∃ cfg error s',
    (plainPool demoSuite demoNode 3).Reachable (fun _ _ => True)
      ((plainPool demoSuite demoNode 3).initial demoState) cfg ∧ (cfg.shared.heap demoRef).active.isSome ∧
    (applySnapshot demoSuite demoNode demoSettled).run.run (execAt demoSuite demoNode 10)
      (List.replicate 15 demoEnv) cfg.shared = some (.error error, s') ∧ Unchanged cfg.shared s' := by
  obtain ⟨cfg, hreach, hentries, hallocated, hactive, hinfo, honline, hattempts, -, hrefused, -⟩ := demoRefusedEnd
  obtain ⟨s', hrun, -⟩ := demoCall_run hrefused
  have hiff := wp_run (failed_applySnapshot_iff demoSuite demoNode demoSettled cfg.shared
    (wellFormed_demo hentries hallocated) 10) hrun _ rfl
  refine ⟨cfg, _, s', hreach, hactive, hrun, hiff.2 (.inr fun info hmem hremote p hp => ?_)⟩
  obtain ⟨hid, rfl⟩ := (lookup_demo hentries).1 hp
  have hmem := List.takeWhile_subset _ hmem
  have hrecord : info = demoInfo 1 := by
    simp only [demoSettled, demoSnapshot, List.mem_cons, List.not_mem_nil, or_false] at hmem
    rcases hmem with rfl | rfl | rfl
    · exact absurd rfl hremote
    · rfl
    · exact absurd hid (by decide)
  subst hrecord
  exact ⟨hinfo, honline.trans (by decide), fun _ _ => hattempts⟩

end Demo

end Vela.Core
