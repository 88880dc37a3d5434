import Mathlib.Data.List.Sort

/-!
# Stable sorting

Sorting by a relation that leaves elements undecided keeps them in the order in which they came.
-/

namespace List

variable {α : Type*} {r R : α → α → Prop} [DecidableRel r] [Std.Total r] [IsTrans α r] {a : α} {l : List α}

lemma Pairwise.orderedInsert_stable (ha : ∀ b ∈ l, R a b)
    (h : l.Pairwise fun a b => r a b ∧ (r b a → R a b)) :
    (l.orderedInsert r a).Pairwise fun a b => r a b ∧ (r b a → R a b) := by
  induction l with
  | nil => exact pairwise_singleton _ a
  | cons b l ih =>
    obtain ⟨hb, hl⟩ := pairwise_cons.1 h
    rw [orderedInsert_cons]
    split
    · rename_i hab
      refine pairwise_cons.2 ⟨fun c hc => ⟨?_, fun _ => ha c hc⟩, h⟩
      rcases mem_cons.1 hc with rfl | hc
      · exact hab
      · exact IsTrans.trans a b c hab (hb c hc).1
    · rename_i hab
      refine pairwise_cons.2 ⟨fun c hc => ?_, ih (fun c hc => ha c (mem_cons_of_mem _ hc)) hl⟩
      rcases (mem_orderedInsert r).1 hc with rfl | hc
      · exact ⟨(total_of r b c).resolve_right hab, fun h => absurd h hab⟩
      · exact hb c hc

lemma Pairwise.insertionSort_stable (h : l.Pairwise R) :
    (l.insertionSort r).Pairwise fun a b => r a b ∧ (r b a → R a b) := by
  induction l with
  | nil => exact Pairwise.nil
  | cons a l ih =>
    obtain ⟨ha, hl⟩ := pairwise_cons.1 h
    exact (ih hl).orderedInsert_stable fun b hb => ha b ((mem_insertionSort r).1 hb)

end List
