import Mathlib.Order.Interval.Finset.Nat
import Mathlib.Tactic.Common

/-!
# Probing for a free slot

The slots `1, …, n` are tried one after another, from any place on and round the end, until one is free.

* `search_some` — what is found is a free slot;
* `search_first` — and the first one that is free;
* `search_eq_none_iff` — `n` rounds come by every slot, so nothing is found only if all are taken;
* `exists_search_some` — fewer than `n` taken slots leave one to be found.
-/

namespace Probe

variable {n start rounds offset slot : ℕ} {used : ℕ → Bool}

/-- The rounds that are left, and the number of the next one. -/
def search (n : ℕ) (used : ℕ → Bool) (start : ℕ) : (rounds offset : ℕ) → Option ℕ
  | 0, _ => none
  | rounds + 1, offset =>
    let slot := 1 + (start + offset) % n
    if used slot then search n used start rounds (offset + 1) else some slot

lemma search_some (hn : 0 < n) (h : search n used start rounds offset = some slot) :
    used slot = false ∧ 1 ≤ slot ∧ slot ≤ n := by
  induction rounds generalizing offset with
  | zero => cases h
  | succ rounds ih =>
    simp only [search] at h
    split at h
    · exact ih h
    · rename_i hfree
      cases h
      have hlt := Nat.mod_lt (start + offset) hn
      exact ⟨by simpa using hfree, by omega, by omega⟩

/-- The first free slot from `start` on. -/
def First (n : ℕ) (used : ℕ → Bool) (start slot : ℕ) : Prop :=
  ∃ k, slot = 1 + (start + k) % n ∧ used slot = false ∧ ∀ j < k, used (1 + (start + j) % n) = true

lemma First.unique {slot' : ℕ} (h : First n used start slot) (h' : First n used start slot') : slot = slot' := by
  obtain ⟨k, rfl, hfree, hbefore⟩ := h
  obtain ⟨k', rfl, hfree', hbefore'⟩ := h'
  rcases lt_trichotomy k k' with hlt | rfl | hlt
  · exact absurd (hbefore' k hlt) (by simp [hfree])
  · rfl
  · exact absurd (hbefore k' hlt) (by simp [hfree'])

lemma search_first (h : search n used start rounds 0 = some slot) : First n used start slot := by
  have hfrom : ∀ {rounds offset : ℕ}, search n used start rounds offset = some slot →
      (∀ j < offset, used (1 + (start + j) % n) = true) → First n used start slot := by
    intro rounds
    induction rounds with
    | zero => exact fun h => by cases h
    | succ rounds ih =>
      intro offset h hbefore
      simp only [search] at h
      split at h
      · rename_i hused
        refine ih h fun j hj => ?_
        rcases Nat.lt_succ_iff_lt_or_eq.1 hj with hj | rfl
        · exact hbefore j hj
        · exact hused
      · rename_i hfree
        cases h
        exact ⟨offset, rfl, by simpa using hfree, hbefore⟩
  exact hfrom h fun j hj => absurd hj (Nat.not_lt_zero j)

lemma search_none (h : search n used start rounds offset = none) {k : ℕ} (hk : k < rounds) :
    used (1 + (start + (offset + k)) % n) = true := by
  induction rounds generalizing offset k with
  | zero => omega
  | succ rounds ih =>
    simp only [search] at h
    split at h
    · rename_i hused
      cases k with
      | zero => exact hused
      | succ k =>
        have hrest := ih h (Nat.lt_of_succ_lt_succ hk)
        rwa [Nat.add_assoc, Nat.add_comm 1 k] at hrest
    · cases h

lemma exists_round (start : ℕ) {m : ℕ} (hm : m < n) : ∃ k < n, (start + k) % n = m := by
  have hstart := Nat.mod_lt start (Nat.zero_lt_of_lt hm)
  refine ⟨(m + (n - start % n)) % n, Nat.mod_lt _ (Nat.zero_lt_of_lt hm), ?_⟩
  have hround : start + (m + (n - start % n)) = m + n * (start / n + 1) := by
    have hdiv := Nat.mod_add_div start n
    rw [Nat.mul_add, Nat.mul_one]
    omega
  rw [Nat.add_mod_mod, hround, Nat.add_mul_mod_self_left, Nat.mod_eq_of_lt hm]

lemma search_eq_none_iff (hn : 0 < n) :
    search n used start n 0 = none ↔ ∀ slot, 1 ≤ slot → slot ≤ n → used slot = true := by
  constructor
  · intro h slot hlow hhigh
    obtain ⟨k, hk, hslot⟩ := exists_round start (show slot - 1 < n by omega)
    have hused := search_none h hk
    rw [Nat.zero_add, hslot] at hused
    rwa [show slot = 1 + (slot - 1) by omega]
  · intro h
    by_contra hfound
    obtain ⟨slot, hslot⟩ := Option.ne_none_iff_exists'.1 hfound
    obtain ⟨hfree, hlow, hhigh⟩ := search_some hn hslot
    rw [h slot hlow hhigh] at hfree
    cases hfree

lemma exists_search_some {taken : Finset ℕ} (start : ℕ) (h : taken.card < n) :
    ∃ slot, search n (fun slot => decide (slot ∈ taken)) start n 0 = some slot := by
  rw [← Option.ne_none_iff_exists', Ne, search_eq_none_iff (Nat.zero_lt_of_lt h)]
  intro hall
  have hsub : Finset.Icc 1 n ⊆ taken := by
    intro slot hslot
    obtain ⟨hlow, hhigh⟩ := Finset.mem_Icc.1 hslot
    exact of_decide_eq_true (hall slot hlow hhigh)
  have hcard := Finset.card_le_card hsub
  rw [Nat.card_Icc] at hcard
  omega

end Probe
