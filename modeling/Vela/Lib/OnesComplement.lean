import Mathlib.Algebra.Ring.Nat

/-!
# One's-complement sums of 16-bit words

`add` is addition with end-around carry.  A sum of words is a representative of the plain sum modulo
`65535`, and it is `0` only if every word is: of the two representatives of zero the other one,
`0xFFFF`, is the sum of everything else that is divisible by `65535` (`sum_eq_max_iff`).
-/

namespace OnesComplement

def add (a b : ℕ) : ℕ := if a + b < 65536 then a + b else a + b - 65535

def sum (words : List ℕ) : ℕ := words.foldl add 0

lemma foldl_add {acc : ℕ} {words : List ℕ} (hacc : acc < 65536) (hwords : ∀ w ∈ words, w < 65536) :
    words.foldl add acc < 65536 ∧ words.foldl add acc % 65535 = (acc + words.sum) % 65535 ∧
      (words.foldl add acc = 0 ↔ acc + words.sum = 0) := by
  induction words generalizing acc with
  | nil => exact ⟨hacc, rfl, .rfl⟩
  | cons w words ih =>
    obtain ⟨hw, hrest⟩ := List.forall_mem_cons.1 hwords
    have hadd : add acc w < 65536 ∧ add acc w % 65535 = (acc + w) % 65535 ∧
        (add acc w = 0 ↔ acc + w = 0) := by
      unfold add
      split <;> omega
    obtain ⟨hlt, hmod, hzero⟩ := ih hadd.1 hrest
    rw [List.foldl_cons, List.sum_cons]
    omega

lemma sum_eq_max_iff {words : List ℕ} (h : ∀ w ∈ words, w < 65536) :
    sum words = 65535 ↔ 65535 ∣ words.sum ∧ words.sum ≠ 0 := by
  have hsum := foldl_add (by omega : 0 < 65536) h
  unfold sum
  omega

/-- A word whose complement is the sum of the others completes the sum to `0xFFFF`. -/
lemma sum_complement {before after : List ℕ} (hbefore : ∀ w ∈ before, w < 65536)
    (hafter : ∀ w ∈ after, w < 65536) :
    sum (before ++ (65535 - sum (before ++ 0 :: after)) :: after) = 65535 := by
  have hwords : ∀ c < 65536, ∀ w ∈ before ++ c :: after, w < 65536 := by
    intro c hc w hw
    rcases List.mem_append.1 hw with h | h
    · exact hbefore w h
    · exact (List.forall_mem_cons (p := (· < 65536))).2 ⟨hc, hafter⟩ w h
  have hsum := foldl_add (by omega : 0 < 65536) (hwords 0 (by omega))
  have hplain : ∀ c, (before ++ c :: after).sum = before.sum + c + after.sum := by
    intro c
    rw [List.sum_append, List.sum_cons]
    omega
  rw [sum_eq_max_iff (hwords _ (by omega)), hplain]
  rw [hplain] at hsum
  unfold sum
  omega

end OnesComplement
