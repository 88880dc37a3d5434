import Vela.Core.Wire
import Vela.Lib.Stable
import Mathlib.Data.List.Induction

/-!
# The order in which candidates are tried

`ordered_connection_candidates` goes through the candidates of a peer, keeps one for each address, and sorts
what it kept by priority.

* `candidates_ordered` — nothing is lost, and the order is that of the priorities.
-/

namespace Vela.Core

open Vela.Proto

/-- The first of the candidates with its address that have the least priority. -/
def Foremost (candidates : List Candidate) (c : Candidate) : Prop :=
  ∃ before after, candidates = before ++ c :: after ∧
    (∀ d ∈ before, d.address = c.address → candidatePriority c < candidatePriority d) ∧
    ∀ d ∈ after, d.address = c.address → candidatePriority c ≤ candidatePriority d

/-- The place of an address among those of the candidates. -/
def firstOf (candidates : List Candidate) (address : SocketAddr) : ℕ :=
  (candidates.map Candidate.address).idxOf address

structure Kept (seen kept : List Candidate) : Prop where
  order : (kept.map Candidate.address).Pairwise fun a b => firstOf seen a < firstOf seen b
  mem : ∀ address, address ∈ kept.map Candidate.address ↔ address ∈ seen.map Candidate.address
  foremost : ∀ c ∈ kept, Foremost seen c

variable {seen kept : List Candidate} {c d : Candidate}

lemma Foremost.le (h : Foremost seen c) (hd : d ∈ seen) (haddress : d.address = c.address) :
    candidatePriority c ≤ candidatePriority d := by
  obtain ⟨before, after, rfl, hbefore, hafter⟩ := h
  rcases List.mem_append.1 hd with hd | hd
  · exact (hbefore d hd haddress).le
  · rcases List.mem_cons.1 hd with rfl | hd
    · exact le_rfl
    · exact hafter d hd haddress

lemma Foremost.append (h : Foremost seen c) (hd : d.address = c.address → candidatePriority c ≤ candidatePriority d) :
    Foremost (seen ++ [d]) c := by
  obtain ⟨before, after, rfl, hbefore, hafter⟩ := h
  refine ⟨before, after ++ [d], by simp, hbefore, fun e he => ?_⟩
  rcases List.mem_append.1 he with he | he
  · exact hafter e he
  · rw [List.mem_singleton.1 he]
    exact hd

lemma foremost_last (h : ∀ d ∈ seen, d.address = c.address → candidatePriority c < candidatePriority d) :
    Foremost (seen ++ [c]) c :=
  ⟨seen, [], rfl, h, nofun⟩

lemma firstOf_append {address : SocketAddr} (h : address ∈ seen.map Candidate.address) :
    firstOf (seen ++ [c]) address = firstOf seen address := by
  rw [firstOf, List.map_append, List.idxOf_append_of_mem h]
  rfl

namespace Kept

lemma nodup (h : Kept seen kept) : (kept.map Candidate.address).Nodup := by
  refine h.order.imp fun hlt heq => ?_
  rw [heq] at hlt
  exact lt_irrefl _ hlt

lemma order_append (h : Kept seen kept) (c : Candidate) :
    (kept.map Candidate.address).Pairwise fun a b => firstOf (seen ++ [c]) a < firstOf (seen ++ [c]) b := by
  refine h.order.imp_of_mem fun ha hb hlt => ?_
  rwa [firstOf_append ((h.mem _).1 ha), firstOf_append ((h.mem _).1 hb)]

lemma insert_new (h : Kept seen kept) (hnew : c.address ∉ kept.map Candidate.address) :
    Kept (seen ++ [c]) (kept ++ [c]) where
  order := by
    have hunseen := mt (h.mem _).2 hnew
    rw [List.map_append]
    refine List.pairwise_append.2 ⟨h.order_append c, List.pairwise_singleton .., fun a ha b hb => ?_⟩
    have hseen := (h.mem _).1 ha
    rw [List.mem_singleton.1 hb, firstOf_append hseen, firstOf, firstOf, List.map_append,
      List.idxOf_append_of_notMem hunseen]
    exact Nat.lt_of_lt_of_le (List.idxOf_lt_length_of_mem hseen) (Nat.le_add_right ..)
  mem address := by simp only [List.map_append, List.mem_append, h.mem]
  foremost d hd := by
    rcases List.mem_append.1 hd with hd | hd
    · refine (h.foremost d hd).append fun heq => absurd ?_ hnew
      exact heq ▸ List.mem_map_of_mem hd
    · rw [List.mem_singleton.1 hd]
      refine foremost_last fun e he heq => absurd ((h.mem _).2 ?_) hnew
      exact heq ▸ List.mem_map_of_mem he

lemma insert_known (h : Kept seen kept) {index : ℕ} (hindex : index < kept.length)
    (haddress : kept[index].address = c.address) :
    Kept (seen ++ [c])
      (if candidatePriority c < candidatePriority kept[index] then kept.set index c else kept) := by
  have hkept : ∀ kept', kept'.map Candidate.address = kept.map Candidate.address →
      (∀ d ∈ kept', Foremost (seen ++ [c]) d) → Kept (seen ++ [c]) kept' := by
    intro kept' hmap hforemost
    refine ⟨hmap ▸ h.order_append c, fun address => ?_, hforemost⟩
    have hknown : c.address ∈ seen.map Candidate.address :=
      (h.mem _).1 (haddress ▸ List.mem_map_of_mem (List.getElem_mem hindex))
    rw [hmap, h.mem, List.map_append, List.mem_append]
    refine (or_iff_left_of_imp fun hmem => ?_).symm
    rwa [List.mem_singleton.1 hmem]
  have hforemost := h.foremost _ (List.getElem_mem hindex)
  split
  · rename_i hbetter
    refine hkept _ ?_ fun d hd => ?_
    · rw [List.map_set, ← haddress, ← List.map_set, List.set_getElem_self]
    · obtain ⟨place, hplace, rfl⟩ := List.getElem_of_mem hd
      rw [List.getElem_set]
      split
      · refine foremost_last fun e he heq => ?_
        exact hbetter.trans_le (hforemost.le he (heq.trans haddress.symm))
      · rename_i hne
        rw [List.length_set] at hplace
        refine (h.foremost _ (List.getElem_mem hplace)).append fun heq => absurd ?_ hne
        have hsame := List.inj_on_of_nodup_map h.nodup (List.getElem_mem hindex) (List.getElem_mem hplace)
          (haddress.trans heq)
        exact h.nodup.of_map.getElem_inj_iff.1 hsame
  · rename_i hbest
    refine hkept _ rfl fun d hd => (h.foremost d hd).append fun heq => ?_
    obtain rfl := List.inj_on_of_nodup_map h.nodup hd (List.getElem_mem hindex) (heq.symm.trans haddress.symm)
    exact not_lt.1 hbest

lemma insertCandidate (h : Kept seen kept) (c : Candidate) : Kept (seen ++ [c]) (insertCandidate kept c) := by
  unfold Core.insertCandidate
  split
  · rename_i hnone
    exact h.insert_new (by simpa using hnone)
  · rename_i index hindex
    obtain ⟨hlt, haddress, -⟩ := List.findIdx?_eq_some_iff_getElem.1 hindex
    rw [List.getD_eq_getElem _ _ hlt]
    exact h.insert_known hlt (by simpa using haddress)

end Kept

lemma kept_foldl (candidates : List Candidate) : Kept candidates (candidates.foldl insertCandidate []) := by
  induction candidates using List.reverseRec with
  | nil => exact ⟨.nil, fun _ => .rfl, nofun⟩
  | append_singleton seen c ih =>
    rw [List.foldl_append]
    exact ih.insertCandidate c

/-- **The candidates in the order in which they are tried.** -/
theorem candidates_ordered (candidates : List Candidate) :
    ((orderedConnectionCandidates candidates).map Candidate.address).Nodup ∧
    (∀ address, address ∈ (orderedConnectionCandidates candidates).map Candidate.address ↔
      address ∈ candidates.map Candidate.address) ∧
    (∀ c ∈ orderedConnectionCandidates candidates, Foremost candidates c) ∧
    (orderedConnectionCandidates candidates).Pairwise fun c d => candidatePriority c ≤ candidatePriority d ∧
      (candidatePriority d ≤ candidatePriority c → firstOf candidates c.address < firstOf candidates d.address) := by
  have hkept := kept_foldl candidates
  have hperm : (orderedConnectionCandidates candidates).Perm (candidates.foldl insertCandidate []) :=
    List.perm_insertionSort ..
  have : Std.Total fun a b : Candidate => candidatePriority a ≤ candidatePriority b := ⟨fun _ _ => Nat.le_total ..⟩
  have : IsTrans Candidate fun a b => candidatePriority a ≤ candidatePriority b := ⟨fun _ _ _ => Nat.le_trans⟩
  refine ⟨(hperm.map _).nodup_iff.2 hkept.nodup, fun address => (hperm.map _).mem_iff.trans (hkept.mem address), ?_, ?_⟩
  · exact fun c hc => hkept.foremost c (hperm.mem_iff.1 hc)
  · exact (List.pairwise_map.1 hkept.order).insertionSort_stable

end Vela.Core
