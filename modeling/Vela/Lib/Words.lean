import Mathlib.Data.Nat.Basic
import Mathlib.Tactic.Ring
import Mathlib.Data.Nat.Bitwise

/-!
# Bit strings stored in words

A vector of `n` words of `w` bits each is read as one string of `n * w` bits, the least significant
bit of word `0` first.

* `bit ws i` is bit `i` of the string, `false` beyond its end;
* `bit_or_set` says what setting one bit does, and `bit_zero` what clearing the string does;
* `bit_shifted`: the usual two-word formula for a shift by `q` words and `r` bits moves every bit of
  the string up by `q * w + r`, whatever the word boundaries are.
-/

namespace Words

variable {w n : ℕ}

/-- Bit `i` of the string stored in `ws`. -/
def bit (ws : Vector (BitVec w) n) (i : ℕ) : Bool := (ws.getD (i / w) 0).getLsbD (i % w)

variable {i q r j b : ℕ}

lemma getD_eq_getElem (ws : Vector (BitVec w) n) (hj : j < n) : ws.getD j 0 = ws[j] := by
  simp [Vector.getD, hj]

lemma bit_eq_false_of_le (ws : Vector (BitVec w) n) (hw : 0 < w) (hi : n * w ≤ i) :
    bit ws i = false := by
  have hj : ¬ i / w < n := by
    rw [Nat.not_lt, Nat.le_div_iff_mul_le hw]
    exact hi
  simp [bit, Vector.getD, hj]

lemma bit_zero (i : ℕ) : bit (Vector.replicate n (0 : BitVec w)) i = false := by
  by_cases hj : i / w < n
  · simp [bit, Vector.getD, hj]
  · simp [bit, Vector.getD, hj]

/-! ### Setting one bit -/

lemma getLsbD_one_shiftLeft (hb : b < w) : ((1 : BitVec w) <<< b).getLsbD j = decide (j = b) := by
  rw [BitVec.getLsbD_shiftLeft]
  by_cases h : j = b
  · subst h
    simp [hb]
    omega
  · simp only [h, decide_false]
    by_cases hjb : j < b
    · simp [hjb]
    · have : j - b ≠ 0 := by omega
      simp [BitVec.getLsbD_one, this]

/-- Testing a bit with the mask `1 <<< b`, as the code does, reads that bit. -/
lemma and_mask_ne_zero_iff (x : BitVec w) (hb : b < w) :
    x &&& ((1 : BitVec w) <<< b) ≠ 0 ↔ x.getLsbD b = true := by
  constructor
  · intro h
    by_contra hx
    apply h
    apply BitVec.eq_of_getLsbD_eq
    intro j _
    rw [BitVec.getLsbD_and, getLsbD_one_shiftLeft hb]
    by_cases hj : j = b
    · subst hj; simp at hx; simp [hx]
    · simp [hj]
  · intro hx h
    have hbit : (x &&& ((1 : BitVec w) <<< b)).getLsbD b = true := by
      rw [BitVec.getLsbD_and, getLsbD_one_shiftLeft hb, hx]
      simp
    rw [h] at hbit
    simp at hbit

lemma bit_or_set (ws : Vector (BitVec w) n) (hw : 0 < w) (hi : i < n * w) (k : ℕ) :
    bit (ws.setIfInBounds (i / w) (ws.getD (i / w) 0 ||| ((1 : BitVec w) <<< (i % w)))) k =
      (decide (k = i) || bit ws k) := by
  have hin : i / w < n := Nat.div_lt_of_lt_mul (by rwa [Nat.mul_comm] at hi)
  have hmod : i % w < w := Nat.mod_lt _ hw
  unfold bit
  by_cases hkn : k / w < n
  · rw [getD_eq_getElem _ hkn, getD_eq_getElem _ hkn, Vector.getElem_setIfInBounds]
    by_cases hq : i / w = k / w
    · rw [if_pos hq, getD_eq_getElem _ hin, BitVec.getLsbD_or, getLsbD_one_shiftLeft hmod]
      have hk : (k % w = i % w) ↔ k = i := by
        constructor
        · intro hr
          rw [← Nat.div_add_mod k w, ← Nat.div_add_mod i w, hq, hr]
        · rintro rfl; rfl
      simp only [hq, hk]
      rw [Bool.or_comm]
    · have hk : k ≠ i := fun h => hq (by rw [h])
      simp [hq, hk]
  · have hk : k ≠ i := fun h => hkn (by rw [h]; exact hin)
    simp [Vector.getD, hkn, hk]

/-! ### Shifting by words and bits -/

/-- `new` is `old` moved up by `q` words and `r` bits, word by word: each word takes the low part of
the word `q` below it and, for `r ≠ 0`, the high part of the word below that one. -/
def Shifted (old new : Vector (BitVec w) n) (q r : ℕ) : Prop :=
  ∀ j, j < n → new.getD j 0 =
    if q ≤ j then
      (old.getD (j - q) 0 <<< r) |||
        (if r ≠ 0 ∧ q < j then old.getD (j - q - 1) 0 >>> (w - r) else 0)
    else 0

lemma div_mod_sub (hr : r < w) (hlo : r ≤ i % w) (hq : q ≤ i / w) :
    (i - (q * w + r)) / w = i / w - q ∧ (i - (q * w + r)) % w = i % w - r := by
  have hw : 0 < w := by omega
  obtain ⟨d, hd⟩ := Nat.exists_eq_add_of_le hq
  have hmod : i % w < w := Nat.mod_lt _ hw
  have hi : i - (q * w + r) = w * d + (i % w - r) := by
    have h1 := Nat.div_add_mod i w
    rw [hd] at h1
    have h2 : w * (q + d) = q * w + w * d := by ring
    omega
  have hlt : i % w - r < w := by omega
  rw [hi]
  refine ⟨?_, ?_⟩
  · rw [Nat.mul_add_div hw, Nat.div_eq_of_lt hlt, hd]
    omega
  · rw [Nat.mul_add_mod, Nat.mod_eq_of_lt hlt]

lemma div_mod_sub_borrow (hr : r < w) (hlo : i % w < r) (hq : q < i / w) :
    (i - (q * w + r)) / w = i / w - q - 1 ∧ (i - (q * w + r)) % w = i % w + w - r := by
  have hw : 0 < w := by omega
  obtain ⟨d, hd⟩ := Nat.exists_eq_add_of_lt hq
  have hi : i - (q * w + r) = w * d + (i % w + w - r) := by
    have h1 := Nat.div_add_mod i w
    rw [hd] at h1
    have h2 : w * (q + d + 1) = q * w + w * d + w := by ring
    omega
  have hlt : i % w + w - r < w := by omega
  rw [hi]
  refine ⟨?_, ?_⟩
  · rw [Nat.mul_add_div hw, Nat.div_eq_of_lt hlt, hd]
    omega
  · rw [Nat.mul_add_mod, Nat.mod_eq_of_lt hlt]

/-- **A shift by words and bits is a shift of the bit string.** -/
theorem bit_shifted {old new : Vector (BitVec w) n} (hr : r < w) (h : Shifted old new q r) (i : ℕ) :
    bit new i = (decide (q * w + r ≤ i ∧ i < n * w) && bit old (i - (q * w + r))) := by
  have hw : 0 < w := by omega
  have hmod : i % w < w := Nat.mod_lt _ hw
  by_cases hin : i < n * w
  swap
  · rw [bit_eq_false_of_le new hw (by omega)]
    simp [hin]
  have hj : i / w < n := Nat.div_lt_of_lt_mul (by rwa [Nat.mul_comm] at hin)
  have hdm := Nat.div_add_mod i w
  simp only [hin, and_true]
  rw [bit, h _ hj]
  by_cases hq : q ≤ i / w
  swap
  · -- the whole word lies below the shift
    have hlow : ¬ q * w + r ≤ i := by
      have h1 : w * (i / w + 1) ≤ w * q := Nat.mul_le_mul_left _ (by omega)
      have h2 : w * q = q * w := Nat.mul_comm _ _
      have h3 : w * (i / w + 1) = w * (i / w) + w := by ring
      omega
    simp [hq, hlow]
  rw [if_pos hq, BitVec.getLsbD_or, BitVec.getLsbD_shiftLeft]
  have hqw : w * q ≤ w * (i / w) := Nat.mul_le_mul_left _ hq
  have hcomm : w * q = q * w := Nat.mul_comm _ _
  by_cases hlo : r ≤ i % w
  · -- the bit comes from the word `q` below
    obtain ⟨e1, e2⟩ := div_mod_sub hr hlo hq
    have hle : q * w + r ≤ i := by omega
    have hcarry : (if r ≠ 0 ∧ q < i / w then old.getD (i / w - q - 1) 0 >>> (w - r) else 0).getLsbD
        (i % w) = false := by
      split
      · rw [BitVec.getLsbD_ushiftRight]
        exact BitVec.getLsbD_of_ge _ _ (by omega)
      · simp
    rw [hcarry, bit, e1, e2]
    simp [hmod, hle]
    omega
  · -- the bit is carried over from the word `q + 1` below
    have hr0 : r ≠ 0 := by omega
    have hlt : i % w < r := by omega
    simp only [hmod, decide_true, Bool.true_and, hlt, decide_true, Bool.not_true, Bool.false_and,
      Bool.false_or]
    by_cases hq' : q < i / w
    · obtain ⟨e1, e2⟩ := div_mod_sub_borrow hr hlt hq'
      have hle : q * w + r ≤ i := by
        have h1 : w * (q + 1) ≤ w * (i / w) := Nat.mul_le_mul_left _ hq'
        have h2 : w * (q + 1) = q * w + w := by ring
        omega
      rw [if_pos ⟨hr0, hq'⟩, BitVec.getLsbD_ushiftRight, bit, e1, e2]
      have e3 : w - r + i % w = i % w + w - r := by omega
      simp [hle, e3]
    · have hle : ¬ q * w + r ≤ i := by
        have : i / w = q := by omega
        rw [this] at hdm
        omega
      simp [hq', hle]

end Words
