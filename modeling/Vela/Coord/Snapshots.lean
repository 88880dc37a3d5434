import Vela.Coord.Address
import Vela.Coord.Records
import Vela.Proto.Validate

/-!
# Snapshots are well formed

A snapshot is put together from four sections: the online nodes, the rows, the configuration and the
generation.  A revocation or deletion takes a row out in one section and the node offline in a later
one.

* `snapshots_valid` — in every run in which no removal falls into a registration or a snapshot, and no
  snapshot into a removal, every snapshot that is sent passes `validate`;
* `snapshot_refused` — a snapshot taken in the middle of a revocation.
-/

namespace Vela.Coord

open Vela.Proto Vela.Crypto Codec Function
open Pool (Move forall_update)

/-! ### The rows that can be listed -/

/-- The network that every snapshot announces. -/
def virtualNetwork : Ipv4Cidr := { address := ipv4OfNat virtualIpv4NetworkBase, prefixLen := 16 }

def InVirtualNetwork (address : Ipv4Addr) : Prop :=
  ipv4InNetwork virtualNetwork.address address virtualNetwork.prefixLen = true

lemma toBits_ipv4OfNat (n : ℕ) : (ipv4OfNat n).toBits = BitVec.ofNat 32 n := by
  have hoctets : (ipv4OfNat n).octets.toList = beBytes 4 n := by simp [ipv4OfNat, beBytes]
  rw [Ipv4Addr.toBits, hoctets, ofBeBytes_beBytes]
  apply BitVec.eq_of_toNat_eq
  simp

lemma inVirtualNetwork_host {host : ℕ} (h : host < 2 ^ 16) :
    InVirtualNetwork (ipv4OfNat (virtualIpv4NetworkBase + host)) := by
  -- what the mask leaves of an address
  have hmask : ∀ x, BitVec.ofNat 32 x &&& prefixMask 32 16 =
      BitVec.ofNat 32 (x % 2 ^ 32 / 2 ^ 16 * 2 ^ 16) := by
    intro x
    rw [show prefixMask 32 16 = BitVec.allOnes 32 <<< 16 by decide, ← BitVec.shiftLeft_ushiftRight]
    apply BitVec.eq_of_toNat_eq
    simp [Nat.shiftRight_eq_div_pow, Nat.shiftLeft_eq]
  have hhost : (virtualIpv4NetworkBase + host) % 2 ^ 32 / 2 ^ 16 =
      virtualIpv4NetworkBase % 2 ^ 32 / 2 ^ 16 := by
    unfold virtualIpv4NetworkBase
    omega
  unfold InVirtualNetwork ipv4InNetwork inNetwork virtualNetwork
  rw [toBits_ipv4OfNat, toBits_ipv4OfNat]
  simp only [hmask, hhost]
  decide

/-- What `validate` asks of one record. -/
structure Listable (prim : Primitives) (record : Record) : Prop where
  key : record.nodeId = nodeIdOf prim record.signingPublic
  ipv4 : ∀ address, record.virtualIpv4 = some address → InVirtualNetwork address
  ipv6 : record.virtualIpv6 = none

variable {prim : Primitives} {server : Server}

lemma listable_over (a b : Record) (ha : Listable prim a) (hb : Listable prim b) :
    Listable prim (a.over b) := by
  refine ⟨ha.key, fun address h => ?_, ?_⟩
  · rcases Option.or_eq_some_iff.1 h with h | ⟨-, h⟩
    · exact ha.ipv4 address h
    · exact hb.ipv4 address h
  · show a.virtualIpv6.or b.virtualIpv6 = none
    rw [ha.ipv6, hb.ipv6]
    rfl

/-- The table and whatever the tasks hold of it can be listed. -/
structure AllListable (prim : Primitives) (s : CoordState) (φ : ℕ → Progress) : Prop where
  records : RecordsHold (Listable prim) s φ
  held : ∀ t n address, (φ t).address = some (n, address) → InVirtualNetwork address

variable {s s' : CoordState} {e : Env} {c : Section} {t : ℕ} {n : NodeId} {γ : Progress} {cfg : TrackedCfg}
  {φ : ℕ → Progress} {q : Request}

lemma allListable_step (h : AllListable prim cfg.shared cfg.phase) (hok : (cfg.phase t).Allows prim c) :
    AllListable prim (perform prim server e c cfg.shared).2 (update cfg.phase t
      ((cfg.phase t).next prim server c (perform prim server e c cfg.shared).1)) := by
  refine ⟨recordsHold_step listable_over h.records hok fun peer hpeer => ?_, ?_⟩
  · refine ⟨hpeer.key, fun address haddress => ?_, hpeer.ipv6⟩
    refine h.held t peer.nodeId address ?_
    rw [hpeer.address, show peer.virtualIpv4 = some address from haddress]
    rfl
  · refine forall_update (P := fun _ (γ : Progress) => ∀ n address,
      γ.address = some (n, address) → InVirtualNetwork address) (fun n address hu => ?_) h.held
    rcases address_next hu with hheld | hrow | ⟨-, -, -, hnew⟩
    · exact h.held t n address hheld
    · obtain ⟨row, hrow, haddress⟩ := Option.bind_eq_some_iff.1 hrow
      exact (h.records.rows n row hrow).ipv4 address haddress
    · obtain ⟨⟨host, ⟨-, hle⟩, rfl⟩, -⟩ := allocateVirtualIpv4_ok hnew
      refine inVirtualNetwork_host (lt_of_le_of_lt hle ?_)
      decide

lemma allListable_spawn (h : AllListable prim s φ) (ha : q.accept s = some s') :
    AllListable prim s' (update φ t Progress.idle) := by
  refine ⟨recordsHold_spawn h.records ha, ?_⟩
  exact forall_update (P := fun _ (γ : Progress) => ∀ n address,
    γ.address = some (n, address) → InVirtualNetwork address) (fun _ _ hu => by cases hu) h.held

/-! ### Online nodes have live rows -/

/-- The task has stored the row of the node and is about to enter its connection. -/
def Progress.Entering (γ : Progress) (n : NodeId) : Prop :=
  γ.pending = .changed (.enter n) ∨ γ.pending = .bumped (.enter n)

/-- The task has taken the row of the node out and is about to drop its connections. -/
def Progress.Removing (γ : Progress) (n : NodeId) : Prop :=
  γ.pending = .changed (.remove n) ∨ γ.pending = .bumped (.remove n)

/-- `n` has a live row before the next section of `t`, and none after it. -/
def Lost (prim : Primitives) (server : Server) (s : CoordState) (e : Env) (c : Section) (n : NodeId) :
    Prop :=
  (s.liveRow n).isSome ∧ (perform prim server e c s).2.liveRow n = none

lemma live_or_lost (h : (s.liveRow n).isSome) (e : Env) (c : Section) :
    ((perform prim server e c s).2.liveRow n).isSome ∨ Lost prim server s e c n := by
  cases hrow : (perform prim server e c s).2.liveRow n with
  | some row => exact .inl rfl
  | none => exact .inr ⟨h, hrow⟩

lemma lost_section (h : Lost prim server s e c n) : c = .revokeRow n ∨ c = .deleteRow n := by
  obtain ⟨hlive, hnone⟩ := h
  obtain ⟨row, hrow⟩ := Option.isSome_iff_exists.1 hlive
  obtain ⟨hlookup, hrevoked⟩ := Option.filter_eq_some_iff.1 hrow
  have hstep := @rowStep_perform prim server e c s n
  rw [CoordState.liveRow, Option.filter_eq_none_iff] at hnone
  rw [hlookup] at hstep
  generalize (perform prim server e c s).2.peers.lookup n = after at hstep hnone
  generalize hbefore : some row = before at hstep
  cases hstep with
  | same => exact absurd hrevoked (hnone row hbefore.symm)
  | noted _ old =>
    cases hbefore
    exact absurd hrevoked fun h => hnone _ rfl h
  | stored peer old hn =>
    refine absurd ?_ (hnone _ rfl)
    cases before <;> rfl
  | revoked => exact .inl rfl
  | deleted => exact .inr rfl

lemma removing_of_lost (h : Lost prim server s e c n) :
    (γ.next prim server c (perform prim server e c s).1).Removing n := by
  have hcases := lost_section h
  obtain ⟨hlive, hnone⟩ := h
  obtain ⟨row, hrow⟩ := Option.isSome_iff_exists.1 hlive
  have hfault : ∀ {α : Type} {run : Except CoordError α × CoordState},
      (e.database s run).2.liveRow n = none → e.fault = none := by
    intro α run hrun
    cases hfault : e.fault with
    | none => rfl
    | some error =>
      rw [Env.database, hfault] at hrun
      rw [show s.liveRow n = none from hrun] at hrow
      cases hrow
  rcases hcases with rfl | rfl
  · have hno := hfault (show (e.database s (.ok (s.revokeRow n).1, (s.revokeRow n).2)).2.liveRow n =
      none from hnone)
    simp only [perform, Env.database, hno, CoordState.revokeRow, hrow]
    exact .inl rfl
  · have hno := hfault (show (e.database s (.ok (s.deleteRow n).1, (s.deleteRow n).2)).2.liveRow n =
      none from hnone)
    have hlookup := (Option.filter_eq_some_iff.1 hrow).1
    simp only [perform, Env.database, hno, CoordState.deleteRow, hlookup]
    exact .inl rfl

lemma online_perform (h : n ∈ (perform prim server e c s).2.online) :
    (n ∈ s.online ∧ c ≠ .onlineRemove n) ∨ ∃ connection, c = .onlineInsert n connection := by
  by_cases hc : Relocates c
  · cases c with
    | onlineInsert m connection =>
      rcases (AList.mem_insert s.online).1 h with rfl | hn
      · exact .inr ⟨connection, rfl⟩
      · exact .inl ⟨hn, nofun⟩
    | onlineRemove m =>
      obtain ⟨hne, hn⟩ := AList.mem_erase.1 h
      exact .inl ⟨hn, fun heq => hne (Section.onlineRemove.inj heq).symm⟩
    | onlineLeave m connection =>
      refine .inl ⟨?_, nofun⟩
      revert h
      simp only [perform, CoordState.onlineLeave]
      split
      · exact id
      · rename_i sessions hsessions
        split
        · exact fun h => (AList.mem_erase.1 h).2
        · intro h
          rcases (AList.mem_insert s.online).1 h with rfl | hn
          · exact AList.lookup_isSome.1 (by rw [hsessions]; rfl)
          · exact hn
    | _ => cases hc
  · rw [online_frame hc] at h
    refine .inl ⟨h, ?_⟩
    rintro rfl
    exact hc trivial

/-- The sections after which a task may have something else left to do. -/
def Pends : Section → Prop
  | .recv _ _ | .updatePeer _ | .updatePeerMetadata _ _ _ | .touchPeer _ | .bumpSnapshot
  | .onlineInsert _ _ | .onlineRemove _ | .onlineLeave _ _ | .revokeRow _ | .deleteRow _
  | .updateNetworkConfig _ => True
  | _ => False

lemma next_pending {γ : Progress} {c : Section} (hc : ¬ Pends c) (r : Response c) :
    (γ.next prim server c r).pending = γ.pending := by
  unfold Progress.next
  split <;> first | rfl | exact absurd trivial hc | (split <;> rfl)

lemma removing_next (h : γ.Removing n) (hok : γ.Allows prim c) (hfault : e.fault = none)
    (hbound : s.snapshotGeneration.toNat + 1 < 2 ^ 63) :
    (γ.next prim server c (perform prim server e c s).1).Removing n ∨ c = .onlineRemove n := by
  have hunsettled : ¬ γ.pending.Settled := by
    rcases h with h | h <;> rw [h] <;> exact id
  by_cases hc : Pends c
  · cases c with
    | recv | onlineLeave | revokeRow | deleteRow | updateNetworkConfig => exact absurd hok.1 hunsettled
    | updatePeer peer =>
      rw [hok.2.1] at hunsettled
      exact absurd trivial hunsettled
    | updatePeerMetadata m name notes =>
      simp only [perform, Env.database, hfault]
      exact .inl h
    | touchPeer m =>
      simp only [perform, Env.database, hfault]
      exact .inl h
    | bumpSnapshot =>
      simp only [perform, Env.database, hfault, CoordState.bumpSnapshot, if_pos hbound]
      refine .inl (.inr ?_)
      rcases h with h | h
      · simp [Progress.next, h, Pending.bump]
      · simp [Progress.next, h, Pending.bump]
    | onlineInsert m connection =>
      have hpending : γ.pending = .bumped (.enter m) := hok.1
      rw [Progress.Removing, hpending] at h
      rcases h with h | h <;> cases h
    | onlineRemove m =>
      have hpending : γ.pending = .bumped (.remove m) := hok.1
      rw [Progress.Removing, hpending] at h
      rcases h with h | h
      · cases h
      · exact .inr (by rw [Change.remove.inj (Pending.bumped.inj h)])
    | _ => cases hc
  · refine .inl ?_
    rw [Progress.Removing, next_pending hc]
    exact h

lemma entering_next (h : (γ.next prim server c (perform prim server e c s).1).Entering n) :
    γ.Entering n ∨ ((perform prim server e c s).2.liveRow n).isSome := by
  by_cases hc : Pends c
  · have hfail : ¬ ({ γ with pending := γ.pending.fail } : Progress).Entering n := by
      rintro (h | h)
      · revert h
        cases γ.pending <;> exact nofun
      · revert h
        cases γ.pending <;> exact nofun
    cases c with
    | recv | onlineInsert | onlineRemove => rcases h with h | h <;> cases h
    | updatePeer peer =>
      revert h
      simp only [perform, Env.database]
      split
      · exact .inl
      · intro h
        refine .inr ?_
        have hn : peer.nodeId = n := by
          rcases h with h | h
          · simp only [Progress.next, Progress.stored] at h
            split at h
            · exact Change.enter.inj (Pending.changed.inj h)
            · split at h <;> cases h
          · simp only [Progress.next, Progress.stored] at h
            split at h
            · cases h
            · split at h <;> cases h
        subst hn
        simp only [CoordState.updatePeer, CoordState.liveRow, AList.lookup_insert]
        cases s.peers.lookup peer.nodeId <;> rfl
    | updatePeerMetadata m name notes =>
      revert h
      simp only [perform, Env.database]
      split
      · exact fun h => absurd h hfail
      · exact .inl
    | touchPeer m =>
      revert h
      simp only [perform, Env.database]
      split
      · exact fun h => absurd h hfail
      · exact .inl
    | bumpSnapshot =>
      cases hr : (perform prim server e .bumpSnapshot s).1 with
      | error error =>
        rw [hr] at h
        exact absurd h hfail
      | ok _ =>
        rw [hr] at h
        refine .inl ?_
        revert h
        simp only [Progress.Entering, Progress.next]
        cases γ.pending with
        | changed change => cases change <;> simp [Pending.bump]
        | _ => simp [Pending.bump]
    | onlineLeave m connection =>
      cases hr : (perform prim server e (.onlineLeave m connection) s).1 with
      | false =>
        rw [hr] at h
        exact .inl h
      | true =>
        rw [hr] at h
        rcases h with h | h <;> cases h
    | revokeRow m =>
      rcases hr : (perform prim server e (.revokeRow m) s).1 with error | _ | _
      · rw [hr] at h
        exact .inl h
      · rw [hr] at h
        exact .inl h
      · rw [hr] at h
        rcases h with h | h <;> cases h
    | deleteRow m =>
      rcases hr : (perform prim server e (.deleteRow m) s).1 with error | _ | _
      · rw [hr] at h
        exact .inl h
      · rw [hr] at h
        exact .inl h
      · rw [hr] at h
        rcases h with h | h <;> cases h
    | updateNetworkConfig config =>
      rcases hr : (perform prim server e (.updateNetworkConfig config) s).1 with error | _ | _
      · rw [hr] at h
        exact .inl h
      · rw [hr] at h
        exact .inl h
      · rw [hr] at h
        rcases h with h | h <;> cases h
    | _ => cases hc
  · rw [Progress.Entering, next_pending hc] at h
    exact .inl h

/-- Every online node has a live row, or its removal is about to drop it; the node that a registration
is about to enter, and the nodes that a task has read for a snapshot, have live rows. -/
structure OnlineLive (s : CoordState) (φ : ℕ → Progress) : Prop where
  online : ∀ n ∈ s.online, (s.liveRow n).isSome ∨ ∃ t, (φ t).Removing n
  entering : ∀ t n, (φ t).Entering n → (s.liveRow n).isSome
  reading : ∀ t, (φ t).build = .online →
    (φ t).online.Nodup ∧ ∀ n ∈ (φ t).online, (s.liveRow n).isSome

/-- What a section must not run into. -/
structure Undisturbed (prim : Primitives) (server : Server) (cfg : TrackedCfg) (t : ℕ) (e : Env) :
    Prop where
  /-- no row is taken out between the `update_peer` of a registration of the node and its entry into
  `online`, or between a snapshot's read of `online`, with the node in it, and its read of the rows -/
  removal : ∀ c n, cfg.at t = some c → Lost prim server cfg.shared e c n → ∀ u,
    ¬ (cfg.phase u).Entering n ∧ ((cfg.phase u).build = .online → n ∉ (cfg.phase u).online)
  /-- no snapshot reads `online` while a removal has taken out the row of a node that is still in it -/
  reading : ∀ c, cfg.at t = some c → ReadsOnline c → ∀ u n, (cfg.phase u).Removing n →
    n ∉ cfg.shared.online
  /-- no section of a removal fails between the row and `online` -/
  completed : ∀ n, (cfg.phase t).Removing n →
    e.fault = none ∧ cfg.shared.snapshotGeneration.toNat + 1 < 2 ^ 63

lemma onlineLive_step (h : OnlineLive cfg.shared cfg.phase) (hguard : Undisturbed prim server cfg t e)
    (hat : cfg.at t = some c) (hok : (cfg.phase t).Allows prim c) :
    OnlineLive (perform prim server e c cfg.shared).2 (update cfg.phase t
      ((cfg.phase t).next prim server c (perform prim server e c cfg.shared).1)) := by
  have hkeeps : ∀ n u, (cfg.phase u).Entering n ∨
      ((cfg.phase u).build = .online ∧ n ∈ (cfg.phase u).online) →
      (cfg.shared.liveRow n).isSome → ((perform prim server e c cfg.shared).2.liveRow n).isSome := by
    intro n u hu hlive
    rcases live_or_lost hlive e c with hlive | hlost
    · exact hlive
    · obtain ⟨hentering, hreading⟩ := hguard.removal c n hat hlost u
      rcases hu with hu | ⟨hbuild, hmem⟩
      · exact absurd hu hentering
      · exact absurd hmem (hreading hbuild)
  refine ⟨fun n hn => ?_, ?_, ?_⟩
  · rcases online_perform hn with ⟨hold, hnot⟩ | ⟨connection, rfl⟩
    · rcases h.online n hold with hlive | ⟨u, hu⟩
      · rcases live_or_lost hlive e c with hlive | hlost
        · exact .inl hlive
        · refine .inr ⟨t, ?_⟩
          rw [update_self]
          exact removing_of_lost hlost
      · refine .inr ⟨u, ?_⟩
        by_cases hut : u = t
        · subst hut
          rw [update_self]
          obtain ⟨hfault, hbound⟩ := hguard.completed n hu
          exact (removing_next hu hok hfault hbound).resolve_right hnot
        · rw [update_of_ne hut]
          exact hu
    · -- the node that is entered has a live row, which the section leaves alone
      exact .inl (h.entering t n (.inr hok.1))
  · refine forall_update (P := fun _ (γ : Progress) => ∀ n, γ.Entering n →
      ((perform prim server e c cfg.shared).2.liveRow n).isSome) (fun n hn => ?_)
      fun u n hn => hkeeps n u (.inl hn) (h.entering u n hn)
    rcases entering_next hn with hold | hlive
    · exact hkeeps n t (.inl hold) (h.entering t n hold)
    · exact hlive
  · refine forall_update (P := fun _ (γ : Progress) => γ.build = .online → γ.online.Nodup ∧
      ∀ n ∈ γ.online, ((perform prim server e c cfg.shared).2.liveRow n).isSome)
      (fun hbuild => ?_) fun u hbuild => ?_
    · have hstep := @buildStep_next prim server e c cfg.shared (cfg.phase t)
      generalize (cfg.phase t).next prim server c _ = γ' at hstep hbuild ⊢
      cases hstep with
      | same _ hsame =>
        rw [hsame.online]
        have hold : (cfg.phase t).build = .online := hsame.build ▸ hbuild
        obtain ⟨hnodup, hlive⟩ := h.reading t hold
        exact ⟨hnodup, fun n hn => hkeeps n t (.inr ⟨hold, hn⟩) (hlive n hn)⟩
      | begun _ ids hreads hids heq =>
        subst heq
        refine ⟨hids.nodup_iff.2 (AList.keys_nodup _), fun n hn => ?_⟩
        have hmem : n ∈ cfg.shared.online := AList.mem_keys.1 (hids.mem_iff.1 hn)
        rw [perform_readsOnline hreads]
        rcases h.online n hmem with hlive | ⟨u, hu⟩
        · exact hlive
        · exact absurd hmem (hguard.reading c hat hreads u n hu)
      | dropped _ hidle =>
        rw [hidle] at hbuild
        cases hbuild
      | peers _ heq | config _ heq | generation _ heq | signed _ _ heq =>
        subst heq
        cases hbuild
    · obtain ⟨hnodup, hlive⟩ := h.reading u hbuild
      exact ⟨hnodup, fun n hn => hkeeps n u (.inr ⟨hbuild, hn⟩) (hlive n hn)⟩

lemma onlineLive_spawn (h : OnlineLive s φ) (hdone : (φ t).Done) (ha : q.accept s = some s') :
    OnlineLive s' (update φ t Progress.idle) := by
  obtain ⟨spawned, rfl⟩ := Request.accept_eq ha
  refine ⟨fun n hn => ?_, ?_, ?_⟩
  · rcases h.online n hn with hlive | ⟨u, hu⟩
    · exact .inl hlive
    · refine .inr ⟨u, ?_⟩
      by_cases hut : u = t
      · -- a task at rest owes nothing
        subst hut
        have hsettled := hdone.1
        rcases hu with hu | hu <;> rw [hu] at hsettled <;> cases hsettled
      · rw [update_of_ne hut]
        exact hu
  · exact forall_update (P := fun _ (γ : Progress) => ∀ n, γ.Entering n → (s.liveRow n).isSome)
      (fun n hn => by rcases hn with hn | hn <;> cases hn) h.entering
  · exact forall_update (P := fun _ (γ : Progress) => γ.build = .online → γ.online.Nodup ∧
      ∀ n ∈ γ.online, (s.liveRow n).isSome) (fun hbuild => by cases hbuild) h.reading

/-! ### The lists of a snapshot -/

lemma loadPeers_perm (s : CoordState) : s.loadPeers.Perm
    ((s.peers.entries.filter fun entry => !entry.2.revoked).map fun entry =>
      CoordState.storedPeer entry.1 entry.2) :=
  List.perm_insertionSort ..

lemma loadPeers_ids_nodup (s : CoordState) : (s.loadPeers.map StoredPeer.nodeId).Nodup := by
  refine ((loadPeers_perm s).map _).nodup_iff.2 ?_
  rw [List.map_map]
  exact List.Nodup.sublist (List.Sublist.map _ List.filter_sublist) s.peers.nodupKeys

lemma loadPeers_ipv4_nodup (h : s.AddressesDistinct) :
    (s.loadPeers.filterMap StoredPeer.virtualIpv4).Nodup := by
  have haddress : ∀ peer ∈ s.loadPeers, s.addressOf peer.nodeId = peer.virtualIpv4 := by
    intro peer hpeer
    obtain ⟨row, hrow, heq⟩ := mem_loadPeers.1 hpeer
    rw [CoordState.addressOf, (Option.filter_eq_some_iff.1 hrow).1, heq]
    rfl
  have hids := loadPeers_ids_nodup s
  refine List.pairwise_filterMap.2 (hids.of_map.pairwise_of_forall_ne fun a ha b hb hne => ?_)
  intro x hx y hy hxy
  subst hxy
  refine hne (List.inj_on_of_nodup_map hids ha hb (h _ _ x ?_ ?_))
  · rw [haddress a ha, hx]
  · rw [haddress b hb, hy]

/-- What is left to be checked of a snapshot, given that its rows can be listed. -/
structure Listing (γ : Progress) : Prop where
  onlineNodup : γ.online.Nodup
  onlineListed : ∀ n ∈ γ.online, n ∈ γ.peers.map StoredPeer.nodeId
  ids : (γ.peers.map StoredPeer.nodeId).Nodup
  ipv4 : (γ.peers.filterMap StoredPeer.virtualIpv4).Nodup

/-- `network_snapshot` has read the rows. -/
def Build.hasPeers : Build → Bool
  | .peers | .config | .generation => true
  | _ => false

/-- A snapshot stands in a control channel or in a snapshot channel. -/
def CoordState.Emitted (s : CoordState) (snapshot : NetworkSnapshot) : Prop :=
  (∃ connection message, (connection, message) ∈ s.sent ∧ carried message = some snapshot) ∨
    ∃ connection, (connection, snapshot) ∈ s.pushed

lemma snapshot_valid (hrecords : ∀ peer ∈ γ.peers, Listable prim peer.record) (h : Listing γ)
    (hgeneration : γ.generation ≠ 0) (now : UInt64) :
    (γ.snapshot prim server now).validate prim.blake3 = .ok () := by
  refine NetworkSnapshot.validate_eq_ok_iff.2 ?_
  have hids : (γ.peers.map privatePeer).map PeerInfo.nodeId = γ.peers.map StoredPeer.nodeId := by
    rw [List.map_map]
    rfl
  have hipv6 : (γ.peers.map privatePeer).filterMap PeerInfo.virtualIpv6 = [] := by
    rw [List.filterMap_map, List.filterMap_eq_nil_iff]
    exact fun peer hpeer => (hrecords peer hpeer).ipv6
  refine
    { generation := hgeneration
      ipv4Cidr := (by decide : NetworkSnapshot.validateIpv4Cidr (some virtualNetwork) = .ok ())
      ipv6Cidr := rfl
      nodeIds := ?_
      ipv4 := ?_
      ipv6 := ?_
      peers := ?_
      onlineNodup := h.onlineNodup
      onlineListed := ?_ }
  · show ((γ.peers.map privatePeer).map PeerInfo.nodeId).Nodup
    rw [hids]
    exact h.ids
  · show ((γ.peers.map privatePeer).filterMap PeerInfo.virtualIpv4).Nodup
    rw [List.filterMap_map]
    exact h.ipv4
  · show ((γ.peers.map privatePeer).filterMap PeerInfo.virtualIpv6).Nodup
    rw [hipv6]
    exact List.nodup_nil
  · intro info hinfo
    obtain ⟨peer, hpeer, rfl⟩ := List.mem_map.1 hinfo
    have hlistable := hrecords peer hpeer
    refine ⟨hlistable.key, fun address haddress => hlistable.ipv4 address haddress, ?_⟩
    intro address haddress
    have hnone : peer.virtualIpv6 = none := hlistable.ipv6
    exact absurd (hnone.symm.trans haddress) nofun
  · intro n hn
    show n ∈ (γ.peers.map privatePeer).map PeerInfo.nodeId
    rw [hids]
    exact h.onlineListed n hn

/-- The snapshots that are being built will be valid, and those that were signed or sent are. -/
structure SnapshotsValid (prim : Primitives) (s : CoordState) (φ : ℕ → Progress) : Prop where
  counter : s.snapshotGeneration ≠ 0
  listing : ∀ t, (φ t).build.hasPeers = true → Listing (φ t)
  generation : ∀ t, (φ t).build = .generation → (φ t).generation ≠ 0
  signed : ∀ t snapshot, (φ t).signed = some snapshot → snapshot.validate prim.blake3 = .ok ()
  emitted : ∀ snapshot, s.Emitted snapshot → snapshot.validate prim.blake3 = .ok ()

lemma counter_perform (h : s.snapshotGeneration ≠ 0) (e : Env) (c : Section) :
    (perform prim server e c s).2.snapshotGeneration ≠ 0 := by
  by_cases hc : Loud c
  · cases c with
    | bumpSnapshot =>
      refine Env.database_state (P := fun s' => s'.snapshotGeneration ≠ 0) h ?_
      unfold CoordState.bumpSnapshot
      simp only
      split
      · intro hzero
        have hnat := congrArg UInt64.toNat hzero
        simp only [UInt64.toNat_ofNat', UInt64.toNat_zero] at hnat
        omega
      · exact h
    | updateNetworkConfig config =>
      refine Env.database_state (P := fun s' => s'.snapshotGeneration ≠ 0) h ?_
      show (s.updateNetworkConfig config).2.snapshotGeneration ≠ 0
      rw [updateNetworkConfig_state]
      exact h
    | send connection message =>
      simp only [perform]
      split <;> exact h
    | push connection snapshot => exact h
    | _ => cases hc
  · rw [(perform_quiet hc e s).generation]
    exact h

lemma emitted_perform (hok : γ.Allows prim c) {snapshot : NetworkSnapshot}
    (h : (perform prim server e c s).2.Emitted snapshot) :
    s.Emitted snapshot ∨ γ.signed = some snapshot := by
  by_cases hc : Loud c
  · cases c with
    | bumpSnapshot =>
      refine .inl (Env.database_state (P := fun s' => s'.Emitted snapshot → s.Emitted snapshot)
        id ?_ h)
      unfold CoordState.bumpSnapshot
      simp only
      split <;> exact id
    | updateNetworkConfig config =>
      refine .inl (Env.database_state (P := fun s' => s'.Emitted snapshot → s.Emitted snapshot)
        id ?_ h)
      show (s.updateNetworkConfig config).2.Emitted snapshot → s.Emitted snapshot
      rw [updateNetworkConfig_state]
      exact id
    | send connection message =>
      revert h
      simp only [perform]
      split
      · rintro (⟨k, m, hmem, hcarried⟩ | h)
        · rcases List.mem_cons.1 hmem with heq | hmem
          · cases heq
            exact .inr (hok snapshot hcarried)
          · exact .inl (.inl ⟨k, m, hmem, hcarried⟩)
        · exact .inl (.inr h)
      · exact .inl
    | push connection pushed =>
      rcases h with h | ⟨k, hmem⟩
      · exact .inl (.inl h)
      · rcases List.mem_cons.1 hmem with heq | hmem
        · cases heq
          exact .inr hok
        · exact .inl (.inr ⟨k, hmem⟩)
    | _ => cases hc
  · have hsame := @perform_quiet prim server c hc e s
    rw [CoordState.Emitted, hsame.sent, hsame.pushed] at h
    exact .inl h

lemma snapshotsValid_step (hclaims : ClaimsDistinct cfg.shared cfg.phase)
    (hrows : AllListable prim cfg.shared cfg.phase) (hlive : OnlineLive cfg.shared cfg.phase)
    (h : SnapshotsValid prim cfg.shared cfg.phase) (hok : (cfg.phase t).Allows prim c) :
    SnapshotsValid prim (perform prim server e c cfg.shared).2 (update cfg.phase t
      ((cfg.phase t).next prim server c (perform prim server e c cfg.shared).1)) := by
  have hstep := @buildStep_next prim server e c cfg.shared (cfg.phase t)
  refine ⟨counter_perform h.counter e c, ?_, ?_, ?_, ?_⟩
  · refine forall_update (P := fun _ (γ : Progress) => γ.build.hasPeers = true → Listing γ)
      (fun hbuild => ?_) h.listing
    generalize (cfg.phase t).next prim server c _ = γ' at hstep hbuild ⊢
    cases hstep with
    | same _ hsame =>
      have hold := h.listing t (hsame.build ▸ hbuild)
      exact ⟨hsame.online ▸ hold.onlineNodup, by rw [hsame.online, hsame.peers]; exact hold.onlineListed,
        hsame.peers ▸ hold.ids, hsame.peers ▸ hold.ipv4⟩
    | dropped _ hidle =>
      rw [hidle] at hbuild
      cases hbuild
    | begun _ _ _ _ heq =>
      subst heq
      cases hbuild
    | signed _ _ heq =>
      subst heq
      cases hbuild
    | peers honline heq =>
      -- the online nodes that were read are live, so the rows list them
      subst heq
      obtain ⟨hnodup, hlive⟩ := hlive.reading t honline
      have hdistinct : cfg.shared.AddressesDistinct := fun m n address hm hn =>
        hclaims m n address (.inl hm) (.inl hn)
      refine ⟨hnodup, fun n hn => ?_, loadPeers_ids_nodup _, loadPeers_ipv4_nodup hdistinct⟩
      obtain ⟨row, hrow⟩ := Option.isSome_iff_exists.1 (hlive n hn)
      exact List.mem_map.2 ⟨CoordState.storedPeer n row, mem_loadPeers.2 ⟨row, hrow, rfl⟩, rfl⟩
    | config hpeers heq =>
      subst heq
      have hold := h.listing t (by rw [hpeers]; rfl)
      exact ⟨hold.onlineNodup, hold.onlineListed, hold.ids, hold.ipv4⟩
    | generation hconfig heq =>
      subst heq
      have hold := h.listing t (by rw [hconfig]; rfl)
      exact ⟨hold.onlineNodup, hold.onlineListed, hold.ids, hold.ipv4⟩
  · refine forall_update (P := fun _ (γ : Progress) => γ.build = .generation → γ.generation ≠ 0)
      (fun hbuild => ?_) h.generation
    generalize (cfg.phase t).next prim server c _ = γ' at hstep hbuild ⊢
    cases hstep with
    | same _ hsame =>
      rw [hsame.generation]
      exact h.generation t (hsame.build ▸ hbuild)
    | dropped _ hidle =>
      rw [hidle] at hbuild
      cases hbuild
    | begun _ _ _ _ heq | signed _ _ heq | peers _ heq | config _ heq =>
      subst heq
      cases hbuild
    | generation _ heq =>
      subst heq
      exact h.counter
  · refine forall_update (P := fun _ (γ : Progress) => ∀ snapshot, γ.signed = some snapshot →
      snapshot.validate prim.blake3 = .ok ()) (fun snapshot hsigned => ?_) h.signed
    generalize (cfg.phase t).next prim server c _ = γ' at hstep hsigned
    cases hstep with
    | same _ hsame => exact h.signed t snapshot (hsame.signed ▸ hsigned)
    | dropped _ _ _ hold => exact h.signed t snapshot (hold snapshot hsigned)
    | begun _ _ _ _ heq | peers _ heq | config _ heq | generation _ heq =>
      subst heq
      exact h.signed t snapshot hsigned
    | signed now hgeneration heq =>
      subst heq
      cases hsigned
      exact snapshot_valid (hrows.records.listed t) (h.listing t (by rw [hgeneration]; rfl))
        (h.generation t hgeneration) now
  · intro snapshot hemitted
    rcases emitted_perform hok hemitted with hold | hsigned
    · exact h.emitted snapshot hold
    · exact h.signed t snapshot hsigned

lemma snapshotsValid_spawn (h : SnapshotsValid prim s φ) (ha : q.accept s = some s') :
    SnapshotsValid prim s' (update φ t Progress.idle) := by
  obtain ⟨spawned, rfl⟩ := Request.accept_eq ha
  refine ⟨h.counter, ?_, ?_, ?_, h.emitted⟩
  · exact forall_update (P := fun _ (γ : Progress) => γ.build.hasPeers = true → Listing γ)
      (fun hbuild => by cases hbuild) h.listing
  · exact forall_update (P := fun _ (γ : Progress) => γ.build = .generation → γ.generation ≠ 0)
      (fun hbuild => by cases hbuild) h.generation
  · exact forall_update (P := fun _ (γ : Progress) => ∀ snapshot, γ.signed = some snapshot →
      snapshot.validate prim.blake3 = .ok ()) (fun _ hsigned => by cases hsigned) h.signed

/-! ### Runs -/

/-- A table that the server may start with, and nobody online. -/
structure CoordState.Sound (prim : Primitives) (s : CoordState) : Prop where
  rows : ∀ n row, s.peers.lookup n = some row → Listable prim (row.record n)
  distinct : s.AddressesDistinct
  counter : s.snapshotGeneration ≠ 0
  offline : s.online = ∅
  sent : s.sent = []
  pushed : s.pushed = []

/-- No address is picked twice, and removals stay clear of registrations and snapshots. -/
def Orderly (prim : Primitives) (server : Server) (cfg : TrackedCfg) : Move Env Request → Prop
  | .spawn _ _ => True
  | .step t e => NoDoubleAllocation prim cfg (.step t e) ∧ Undisturbed prim server cfg t e

/-- **Every snapshot that the coordinator emits in an orderly run is well formed.** -/
theorem snapshots_valid (prim : Primitives) (server : Server) (init : CoordState)
    (hinit : init.Sound prim) (cfg : TrackedCfg)
    (h : (Tracked prim server).Reachable (Orderly prim server) ((Tracked prim server).initial init)
      cfg) (snapshot : NetworkSnapshot) (hemitted : cfg.shared.Emitted snapshot) :
    snapshot.validate prim.blake3 = .ok () := by
  have hclaims : ClaimsDistinct init fun _ => Progress.idle := by
    rintro m n address (hm | ⟨_, hm⟩) (hn | ⟨_, hn⟩)
    · exact hinit.distinct m n address hm hn
    · cases hn
    · cases hm
    · cases hm
  have hlive : OnlineLive init fun _ => Progress.idle := by
    refine ⟨fun n hn => ?_, fun t n hn => ?_, fun t hbuild => ?_⟩
    · rw [hinit.offline] at hn
      exact absurd hn (AList.notMem_empty n)
    · rcases hn with hn | hn <;> cases hn
    · cases hbuild
  have hvalid : SnapshotsValid prim init fun _ => Progress.idle := by
    refine ⟨hinit.counter, fun t hbuild => ?_, fun t hbuild => ?_, fun t _ hsigned => ?_, ?_⟩
    · cases hbuild
    · cases hbuild
    · cases hsigned
    · rintro _ (⟨_, _, hmem, -⟩ | ⟨_, hmem⟩)
      · rw [hinit.sent] at hmem
        cases hmem
      · rw [hinit.pushed] at hmem
        cases hmem
  have hrows : AllListable prim init fun _ => Progress.idle :=
    ⟨recordsHold_initial hinit.rows, fun _ _ _ ht => by cases ht⟩
  have hall : ClaimsDistinct cfg.shared cfg.phase ∧ AllListable prim cfg.shared cfg.phase ∧
      OnlineLive cfg.shared cfg.phase ∧ SnapshotsValid prim cfg.shared cfg.phase := by
    refine (h.invariant_rest (I := fun s φ => ClaimsDistinct s φ ∧ AllListable prim s φ ∧
      OnlineLive s φ ∧ SnapshotsValid prim s φ) (fun t => ⟨⟨⟩, rfl⟩) (fun _ => ⟨trivial, rfl⟩)
      ⟨hclaims, hrows, hlive, hvalid⟩ (fun _ _ q _ => body_progresses q) ?_ ?_).1
    · rintro s s' φ t q ⟨hclaims, hrows, hlive, hvalid⟩ hdone ha
      exact ⟨claimsDistinct_spawn hclaims ha, allListable_spawn hrows ha,
        onlineLive_spawn hlive hdone ha, snapshotsValid_spawn hvalid ha⟩
    · rintro cfg t e c r s' ⟨hclaims, hrows, hlive, hvalid⟩ ⟨halloc, hguard⟩ hat hok hexec
      obtain ⟨rfl, rfl⟩ := Prod.mk.inj (Option.some.inj hexec)
      exact ⟨claimsDistinct_step hclaims halloc hat hok, allListable_step hrows hok,
        onlineLive_step hlive hguard hat hok, snapshotsValid_step hclaims hrows hlive hvalid hok⟩
  exact hall.2.2.2.emitted snapshot hemitted

lemma orderly_of_solo {init : CoordState} {guard : TrackedCfg → Move Env Request → Prop}
    (h : (Tracked prim server).Reachable guard ((Tracked prim server).initial init) cfg)
    (hsolo : ∀ cfg m, guard cfg m → m.task = 0)
    (hdatabase : ∀ cfg t e, guard cfg (.step t e) →
      e.fault = none ∧ cfg.shared.snapshotGeneration.toNat + 1 < 2 ^ 63) :
    (Tracked prim server).Reachable (Orderly prim server) ((Tracked prim server).initial init) cfg := by
  refine h.strengthen fun cfg m hcfg hm => ?_
  cases m with
  | spawn t q => trivial
  | step t e =>
    obtain rfl : t = 0 := hsolo _ _ hm
    have hidle : ∀ u, u ≠ 0 → cfg.phase u = Progress.idle := fun u hu => (hcfg.solo hsolo hu).2
    refine ⟨fun n address _ _ hnone _ u m hu => ?_, fun c n hat hlost u => ?_,
      fun c hat hreads u n hu => ?_, fun n _ => hdatabase cfg 0 e hm⟩
    · by_cases hut : u = 0
      · subst hut
        rw [hnone] at hu
        cases hu
      · rw [hidle u hut] at hu
        cases hu
    · by_cases hut : u = 0
      · -- the task that takes a row out has nothing else to do
        subst hut
        have hdone : (cfg.phase 0).Done := by
          have hallows := allows_of_reachable hcfg hat
          rcases lost_section hlost with rfl | rfl <;> exact hallows
        refine ⟨?_, fun hbuild => ?_⟩
        · have hsettled := hdone.1
          rintro (h | h) <;> rw [h] at hsettled <;> cases hsettled
        · rw [hdone.2] at hbuild
          cases hbuild
      · rw [hidle u hut]
        refine ⟨?_, nofun⟩
        rintro (h | h) <;> cases h
    · by_cases hut : u = 0
      · subst hut
        have hsettled : (cfg.phase 0).pending.Settled := by
          have hallows := allows_of_reachable hcfg hat
          cases c <;> first | exact hallows | cases hreads
        rcases hu with hu | hu <;> rw [hu] at hsettled <;> cases hsettled
      · rw [hidle u hut] at hu
        rcases hu with hu | hu <;> cases hu

/-! ### A snapshot in the middle of a revocation -/

section Torn

/-- What `validate` says of the snapshot sent last. -/
def lastSentValid (cfg : TrackedCfg) : Option Bool :=
  (cfg.shared.sent.head?.bind fun entry => carried entry.2).map fun snapshot =>
    match snapshot.validate demoPrim.blake3 with
    | .ok _ => true
    | .error _ => false

def demoClient : Request :=
  .socket 7 [demoRegister "key" "credential" none, .text .requestSnapshot]

/-- The peer registers; when its row is revoked but it is still online, it asks for a snapshot. -/
def tornMoves : List (Move Env Request) :=
  .spawn 0 demoClient :: (List.replicate 18 (.step 0 demoEnv) ++
    [.spawn 1 (.revoke demoNode), .step 1 demoEnv] ++ List.replicate 7 (.step 0 demoEnv))

def tornEnd : {cfg // (Tracked demoPrim demoServer).Reachable (fun _ _ => True)
      ((Tracked demoPrim demoServer).initial demoState) cfg ∧ lastSentValid cfg = some false} :=
  Pool.Spec.reach (fun _ _ => true) (fun _ _ _ => trivial) tornMoves (by decide +kernel)

lemma demoState_sound : demoState.Sound demoPrim := by
  have hlookup : ∀ n row, demoState.peers.lookup n = some row → n = demoNode ∧ row = demoRow := by
    intro n row hrow
    by_cases hn : n = demoNode
    · subst hn
      rw [show demoState.peers.lookup demoNode = some demoRow by decide +kernel] at hrow
      exact ⟨rfl, (Option.some.inj hrow).symm⟩
    · have hmem : n ∈ demoState.peers.keys :=
        AList.mem_keys.2 (AList.lookup_isSome.1 (by rw [hrow]; rfl))
      exact absurd (List.mem_singleton.1 hmem) hn
  refine ⟨fun n row hrow => ?_, fun m n address hm hn => ?_, by decide, rfl, rfl, rfl⟩
  · obtain ⟨rfl, rfl⟩ := hlookup n row hrow
    exact ⟨by decide +kernel, nofun, rfl⟩
  · obtain ⟨row, hrow, haddress⟩ := Option.bind_eq_some_iff.1 hm
    obtain ⟨-, rfl⟩ := hlookup m row hrow
    cases haddress

/-- A client has to refuse what the server sent it. -/
theorem snapshot_refused :
    ¬ ∀ (prim : Primitives) (server : Server) (init : CoordState), init.Sound prim →
      ∀ cfg : TrackedCfg, (Tracked prim server).Reachable (fun _ _ => True)
        ((Tracked prim server).initial init) cfg → ∀ snapshot, cfg.shared.Emitted snapshot →
          snapshot.validate prim.blake3 = .ok () := by
  intro h
  obtain ⟨cfg, hreach, hfacts⟩ := tornEnd
  obtain ⟨snapshot, hlast, hinvalid⟩ := Option.map_eq_some_iff.1 hfacts
  obtain ⟨entry, hhead, hcarried⟩ := Option.bind_eq_some_iff.1 hlast
  have hemitted : cfg.shared.Emitted snapshot :=
    .inl ⟨entry.1, entry.2, List.mem_of_mem_head? hhead, hcarried⟩
  rw [h demoPrim demoServer demoState demoState_sound cfg hreach snapshot hemitted] at hinvalid
  cases hinvalid

/-- One task, and a database that works. -/
def calmMove (cfg : TrackedCfg) (m : Move Env Request) : Bool :=
  m.task == 0 && match m with
    | .spawn _ _ => true
    | .step _ e => e.fault.isNone && decide (cfg.shared.snapshotGeneration.toNat + 1 < 2 ^ 63)

def calmEnd : {cfg // (Tracked demoPrim demoServer).Reachable (fun cfg m => calmMove cfg m = true)
      ((Tracked demoPrim demoServer).initial demoState) cfg ∧
      (cfg.shared.sent.head?.bind fun entry => carried entry.2).isSome ∧ cfg.shared.liveRow demoNode = none} :=
  Pool.Spec.reach _ (fun _ _ h => h) (.spawn 0 demoClient :: List.replicate 29 (.step 0 demoEnv) ++
    .spawn 0 (.revoke demoNode) :: List.replicate 4 (.step 0 demoEnv)) (by decide +kernel)

theorem snapshots_valid_calm :
    ∃ cfg : TrackedCfg, (Tracked demoPrim demoServer).Reachable (Orderly demoPrim demoServer)
      ((Tracked demoPrim demoServer).initial demoState) cfg ∧ cfg.shared.liveRow demoNode = none ∧
      ∃ snapshot, cfg.shared.Emitted snapshot ∧ snapshot.validate demoPrim.blake3 = .ok () := by
  obtain ⟨cfg, hcalm, hfacts, hremoved⟩ := calmEnd
  have hreach := orderly_of_solo hcalm (fun _ _ h => by simpa using (Bool.and_eq_true_iff.1 h).1)
    fun _ _ _ h => by simpa [calmMove, Move.task] using (Bool.and_eq_true_iff.1 h).2
  obtain ⟨snapshot, hlast⟩ := Option.isSome_iff_exists.1 hfacts
  obtain ⟨entry, hhead, hcarried⟩ := Option.bind_eq_some_iff.1 hlast
  have hemitted : cfg.shared.Emitted snapshot :=
    .inl ⟨entry.1, entry.2, List.mem_of_mem_head? hhead, hcarried⟩
  exact ⟨cfg, hreach, hremoved, snapshot, hemitted,
    snapshots_valid demoPrim demoServer demoState demoState_sound cfg hreach snapshot hemitted⟩

end Torn

end Vela.Coord
