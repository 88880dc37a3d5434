import Mathlib.Data.Finset.Dedup
import Vela.Coord.Snapshots

/-!
# What a snapshot shows of the server

The rows, the online nodes and the configuration, and what the sections do to them.
-/

namespace Vela.Coord

open Vela.Proto Vela.Crypto

variable {prim : Primitives} {server : Server}

/-! ### What a snapshot shows -/

/-- The parts of the server's state that a snapshot shows. -/
structure Content where
  peers : List PeerInfo
  online : Finset NodeId
  config : ServerNetworkConfig

def CoordState.content (s : CoordState) : Content where
  peers := s.loadPeers.map privatePeer
  online := s.online.keys.toFinset
  config := s.networkConfig

variable {s s' : CoordState} {c : Section} {γ γ' : Progress}

lemma mem_visible {info : PeerInfo} : info ∈ s.loadPeers.map privatePeer ↔
    (s.loadPeer info.nodeId).map privatePeer = some info := by
  constructor
  · intro h
    obtain ⟨peer, hpeer, rfl⟩ := List.mem_map.1 h
    obtain ⟨row, hrow, heq⟩ := mem_loadPeers.1 hpeer
    have hload : s.loadPeer peer.nodeId = some peer := by
      rw [CoordState.loadPeer, hrow, Option.map_some, ← heq]
    show (s.loadPeer peer.nodeId).map privatePeer = _
    rw [hload, Option.map_some]
  · intro h
    obtain ⟨peer, hpeer, hinfo⟩ := Option.map_eq_some_iff.1 h
    obtain ⟨row, hrow, rfl⟩ := Option.map_eq_some_iff.1 hpeer
    refine List.mem_map.2 ⟨_, mem_loadPeers.2 ⟨row, ?_, rfl⟩, hinfo⟩
    exact hrow

lemma visible_nodup (s : CoordState) : (s.loadPeers.map privatePeer).Nodup := by
  refine List.Nodup.of_map PeerInfo.nodeId ?_
  rw [List.map_map]
  exact loadPeers_ids_nodup s

lemma visible_sorted (s : CoordState) :
    (s.loadPeers.map privatePeer).Pairwise fun a b => a.nodeId.le b.nodeId := by
  have htotal : Std.Total fun a b : StoredPeer => a.nodeId.le b.nodeId :=
    ⟨fun a b => le_total (a.nodeId.bytes.toList.map UInt8.toNat) _⟩
  have htrans : IsTrans StoredPeer fun a b => a.nodeId.le b.nodeId :=
    ⟨fun a b c hab hbc => le_trans (α := List ℕ) hab hbc⟩
  refine List.pairwise_map.2 ?_
  exact List.pairwise_insertionSort (fun a b : StoredPeer => a.nodeId.le b.nodeId) _

lemma nodeId_eq_of_le {a b : NodeId} (hab : a.le b) (hba : b.le a) : a = b := by
  have hbytes : a.bytes.toList.map UInt8.toNat = b.bytes.toList.map UInt8.toNat :=
    le_antisymm hab hba
  have hinj : Function.Injective UInt8.toNat := fun x y hxy => UInt8.toNat_inj.1 hxy
  have hlists : a.bytes.toList = b.bytes.toList := List.map_injective_iff.2 hinj hbytes
  exact congrArg NodeId.mk (Vector.toList_inj.1 hlists)

lemma visible_congr (h : ∀ n, (s'.loadPeer n).map privatePeer = (s.loadPeer n).map privatePeer) :
    s'.loadPeers.map privatePeer = s.loadPeers.map privatePeer := by
  have hmem : ∀ info, info ∈ s'.loadPeers.map privatePeer ↔ info ∈ s.loadPeers.map privatePeer := by
    intro info
    rw [mem_visible, mem_visible, h]
  have hperm := (List.perm_ext_iff_of_nodup (visible_nodup s') (visible_nodup s)).2 hmem
  refine List.Perm.eq_of_pairwise ?_ (visible_sorted s') (visible_sorted s) hperm
  intro a b ha hb hab hba
  have hid : a.nodeId = b.nodeId := nodeId_eq_of_le hab hba
  have ha := mem_visible.1 ((hmem a).1 ha)
  have hb := mem_visible.1 hb
  rw [hid, hb] at ha
  exact (Option.some.inj ha).symm

/-! ### What a section does to it -/

/-- The sections that change what is visible of a row. -/
def Rewrites : Section → Prop
  | .updatePeer _ | .revokeRow _ | .deleteRow _ => True
  | _ => False

lemma visible_perform (hc : ¬ Rewrites c) (e : Env) (s : CoordState) :
    (perform prim server e c s).2.loadPeers.map privatePeer = s.loadPeers.map privatePeer := by
  refine visible_congr fun n => ?_
  have hstep := @rowStep_perform prim server e c s n
  unfold CoordState.loadPeer CoordState.liveRow
  generalize (perform prim server e c s).2.peers.lookup n = after at hstep ⊢
  generalize s.peers.lookup n = before at hstep ⊢
  cases hstep with
  | same => rfl
  | noted _ row name notes lastSeen =>
    simp only [Option.filter_some]
    split <;> rfl
  | stored | revoked | deleted => exact absurd trivial hc

lemma config_perform (hc : ∀ config, c ≠ .updateNetworkConfig config) (e : Env) (s : CoordState) :
    (perform prim server e c s).2.networkConfig = s.networkConfig := by
  refine (perform_frame e c s).networkConfig ?_
  cases c <;> first | exact absurd rfl (hc _) | simp [Section.part]

lemma generation_perform {c : Section} (hc : c ≠ .bumpSnapshot) (e : Env) (s : CoordState) :
    (perform prim server e c s).2.snapshotGeneration = s.snapshotGeneration := by
  refine (perform_frame e c s).snapshotGeneration ?_
  cases c <;> first | exact absurd rfl hc | simp [Section.part]

lemma content_perform {c : Section} (hrows : ¬ Rewrites c) (honline : ¬ Relocates c)
    (hconfig : ∀ config, c ≠ .updateNetworkConfig config) (e : Env) (s : CoordState) :
    (perform prim server e c s).2.content = s.content := by
  unfold CoordState.content
  rw [visible_perform hrows, online_frame honline, config_perform hconfig]

/-- A change is made but not complete. -/
def Pending.Open : Pending → Prop
  | changed _ | bumped _ => True
  | none | failed _ => False

lemma not_open_of_settled {p : Pending} (h : p.Settled) : ¬ p.Open := by
  cases p <;> first | exact id | cases h

/-- What a section can do to the content and the generation, and to the change in progress. -/
inductive ChangeStep (s s' : CoordState) (γ γ' : Progress) : Section → Prop
  | quiet (c : Section) (hcontent : s'.content = s.content)
      (hgeneration : s'.snapshotGeneration = s.snapshotGeneration)
      (hpending : γ'.pending = γ.pending ∨ γ'.pending = .none ∧ ¬ γ.pending.Open) :
      ChangeStep s s' γ γ' c
  | failed (c : Section) (change : Change) (hpending : γ'.pending = .failed change) :
      ChangeStep s s' γ γ' c
  /-- the first section of a change -/
  | changed (c : Section) (change : Change)
      (hgeneration : s'.snapshotGeneration = s.snapshotGeneration) (hbuild : γ.build = .idle)
      (hbefore : ¬ γ.pending.Open) (hpending : γ'.pending = .changed change) :
      ChangeStep s s' γ γ' c
  /-- an `UpdateCandidates` that found its candidates in the row writes the row back -/
  | rewritten (peer : StoredPeer) (hstored : γ.stored peer = .none) (hstate : s' = s.updatePeer peer)
      (hbefore : γ.pending = .none) (hpending : γ'.pending = .none) :
      ChangeStep s s' γ γ' (.updatePeer peer)
  | bumped (change : Change) (hcontent : s'.content = s.content)
      (hgeneration : s'.snapshotGeneration.toNat = s.snapshotGeneration.toNat + 1)
      (hbefore : γ.pending = .changed change)
      (hpending : γ'.pending = (Pending.changed change).bump) : ChangeStep s s' γ γ' .bumpSnapshot
  /-- the last section of a registration or of a removal -/
  | finished (c : Section) (change : Change)
      (hgeneration : s'.snapshotGeneration = s.snapshotGeneration)
      (hbefore : γ.pending = .bumped change) (hpending : γ'.pending = .none) :
      ChangeStep s s' γ γ' c

lemma changeStep_fail (hcontent : s'.content = s.content)
    (hgeneration : s'.snapshotGeneration = s.snapshotGeneration) (hpending : γ'.pending = γ.pending.fail) :
    ChangeStep s s' γ γ' c := by
  cases hbefore : γ.pending with
  | none =>
    rw [hbefore] at hpending
    exact .quiet c hcontent hgeneration (.inl (hpending.trans hbefore.symm))
  | changed change | bumped change | failed change =>
    rw [hbefore] at hpending
    exact .failed c change hpending

lemma changeStep_stored {peer : StoredPeer} (hstate : s' = s.updatePeer peer)
    (hbefore : γ.pending = .none) (hbuild : γ.build = .idle) (hpending : γ'.pending = γ.stored peer) :
    ChangeStep s s' γ γ' (.updatePeer peer) := by
  have hclosed : ¬ γ.pending.Open := by
    rw [hbefore]
    exact id
  have hgeneration : s'.snapshotGeneration = s.snapshotGeneration := by rw [hstate]; rfl
  cases hstored : γ.stored peer with
  | none => exact .rewritten peer hstored hstate hbefore (hpending.trans hstored)
  | changed change =>
    exact .changed _ change hgeneration hbuild hclosed (hpending.trans hstored)
  | bumped change | failed change =>
    unfold Progress.stored at hstored
    split at hstored
    · cases hstored
    · split at hstored <;> cases hstored

lemma bumpSnapshot_ok (h : s.snapshotGeneration.toNat + 1 < 2 ^ 63) :
    s.bumpSnapshot.2.snapshotGeneration.toNat = s.snapshotGeneration.toNat + 1 := by
  unfold CoordState.bumpSnapshot
  simp only [if_pos h]
  rw [UInt64.toNat_ofNat']
  exact Nat.mod_eq_of_lt (by omega)

lemma onlineLeave_false {n : NodeId} {connection : UInt64} (h : (s.onlineLeave n connection).1 = false) :
    (s.onlineLeave n connection).2.content = s.content := by
  have hkeys : (s.onlineLeave n connection).2.online.keys.toFinset = s.online.keys.toFinset := by
    revert h
    unfold CoordState.onlineLeave
    split
    · exact fun _ => rfl
    · rename_i sessions hsessions
      simp only
      split
      · exact nofun
      · intro _
        have hmem : n ∈ s.online := AList.lookup_isSome.1 (by rw [hsessions]; rfl)
        ext m
        rw [List.mem_toFinset, List.mem_toFinset, ← AList.mem_keys, ← AList.mem_keys, AList.mem_insert]
        constructor
        · rintro (rfl | hm)
          · exact hmem
          · exact hm
        · exact .inr
  have hrows : (s.onlineLeave n connection).2.loadPeers = s.loadPeers := by
    unfold CoordState.loadPeers
    rw [(Frame.onlineLeave s n connection).peers nofun]
  unfold CoordState.content
  rw [hkeys, hrows, (Frame.onlineLeave s n connection).networkConfig nofun]

/-- **What one section does to the content and the generation.** -/
theorem changeStep_perform (e : Env) (c : Section) (s : CoordState) {γ : Progress}
    (hok : γ.Allows prim c) :
    ChangeStep s (perform prim server e c s).2 γ
      (γ.next prim server c (perform prim server e c s).1) c := by
  have hcontent := fun hrows honline hconfig => @content_perform prim server c hrows honline hconfig e s
  have hgeneration := fun hbump => @generation_perform prim server c hbump e s
  by_cases hc : Pends c
  · cases c with
    | recv =>
      exact .quiet _ rfl rfl (.inr ⟨rfl, not_open_of_settled hok.1⟩)
    | updatePeer peer =>
      obtain ⟨-, hpending, hbuild⟩ := hok
      simp only [perform, Env.database]
      split
      · exact .quiet _ rfl rfl (.inl rfl)
      · exact changeStep_stored rfl hpending hbuild rfl
    | updatePeerMetadata _ _ _ | touchPeer _ =>
      replace hcontent := hcontent id id (by simp)
      replace hgeneration := hgeneration (by simp)
      revert hcontent hgeneration
      simp only [perform, Env.database]
      split
      · exact fun hcontent hgeneration => changeStep_fail hcontent hgeneration rfl
      · exact fun hcontent hgeneration => .quiet _ hcontent hgeneration (.inl rfl)
    | bumpSnapshot =>
      obtain ⟨⟨change, hchange⟩, -⟩ := hok
      replace hcontent := hcontent id id (by simp)
      revert hcontent
      simp only [perform, Env.database]
      split
      · exact fun hcontent => changeStep_fail hcontent rfl rfl
      · by_cases hbound : s.snapshotGeneration.toNat + 1 < 2 ^ 63
        · intro hcontent
          refine .bumped change hcontent (bumpSnapshot_ok hbound) hchange ?_
          simp only [CoordState.bumpSnapshot, if_pos hbound, Progress.next, hchange]
        · simp only [CoordState.bumpSnapshot, if_neg hbound]
          exact fun _ => changeStep_fail rfl rfl rfl
    | onlineInsert _ _ | onlineRemove _ => exact .finished _ _ rfl hok.1 rfl
    | onlineLeave m connection =>
      cases hleft : (s.onlineLeave m connection).1 with
      | false =>
        refine .quiet _ (onlineLeave_false hleft) (hgeneration (by simp)) ?_
        simp only [perform, hleft]
        exact .inl rfl
      | true =>
        refine .changed _ .other (hgeneration (by simp)) hok.2 (not_open_of_settled hok.1) ?_
        simp only [perform, hleft]
        rfl
    | revokeRow _ | deleteRow _ =>
      replace hgeneration := hgeneration (by simp)
      revert hgeneration
      simp only [perform, Env.database, CoordState.revokeRow, CoordState.deleteRow]
      split
      · exact fun _ => .quiet _ rfl rfl (.inl rfl)
      · split
        · exact fun _ => .quiet _ rfl rfl (.inl rfl)
        · exact fun hgeneration => .changed _ _ hgeneration hok.2 (not_open_of_settled hok.1) rfl
    | updateNetworkConfig config =>
      simp only [perform, Env.database]
      split
      · exact .quiet _ rfl rfl (.inl rfl)
      · unfold CoordState.updateNetworkConfig
        split
        · exact .quiet _ rfl rfl (.inl rfl)
        · exact .changed _ _ rfl hok.2 (not_open_of_settled hok.1) rfl
    | _ => cases hc
  · have hpending := @next_pending prim server γ c hc (perform prim server e c s).1
    refine .quiet c (hcontent ?_ ?_ ?_) (hgeneration ?_) (.inl hpending)
    all_goals cases c <;> first | exact id | exact absurd trivial hc | simp

end Vela.Coord
