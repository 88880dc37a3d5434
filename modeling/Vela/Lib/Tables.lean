import Mathlib.Data.List.AList

/-!
# Tables

What is found in a table after one entry was written or taken out.
-/

namespace AList

universe u v

variable {α : Type u} [DecidableEq α] {β : Type v} {s : AList fun _ : α => β} {a k : α} {b w : β}

lemma lookup_insert_some :
    (s.insert k w).lookup a = some b ↔ a = k ∧ w = b ∨ a ≠ k ∧ s.lookup a = some b := by
  by_cases hak : a = k
  · subst hak
    simp
  · simp [lookup_insert_ne hak, hak]

lemma lookup_erase_some : (s.erase k).lookup a = some b ↔ a ≠ k ∧ s.lookup a = some b := by
  by_cases hak : a = k
  · subst hak
    simp
  · simp [lookup_erase_ne hak, hak]

end AList
