import Mathlib.Order.Monotone.Basic

/-!
# Machines under a schedule

A deterministic machine takes the actions of an infinite schedule one after another.

* `states` — the states it goes through;
* `states_induction` — what one step keeps, all of them keep;
* `eventually_stops` — a machine with a variant stops, if in every state where it has not stopped
  some later action would move it.
-/

namespace Vela.Schedule

variable {S A : Type} (step : S → A → S) (σ : ℕ → A) (x : S)

def states : ℕ → S
  | 0 => x
  | n + 1 => step (states n) (σ n)

variable {step σ x}

lemma states_induction {I : S → Prop} (hinit : I x)
    (hstep : ∀ n, I (states step σ x n) → I (states step σ x (n + 1))) (n : ℕ) :
    I (states step σ x n) := by
  induction n with
  | zero => exact hinit
  | succ n ih => exact hstep n ih

lemma states_eq_of_still {n m : ℕ} (hle : n ≤ m)
    (hstill : ∀ k, n ≤ k → k < m → states step σ x (k + 1) = states step σ x k) :
    states step σ x m = states step σ x n := by
  induction m, hle using Nat.le_induction with
  | base => rfl
  | succ m hle ih =>
    rw [hstill m hle (Nat.lt_succ_self m), ih fun k hk hkm => hstill k hk (Nat.lt_succ_of_lt hkm)]

/-- **A machine with a variant stops.** -/
theorem eventually_stops {Stopped : S → Prop} (ν : S → ℕ)
    (hvariant : ∀ n, states step σ x (n + 1) = states step σ x n ∨
      ν (states step σ x (n + 1)) < ν (states step σ x n))
    (hlive : ∀ n, ¬ Stopped (states step σ x n) →
      ∃ m ≥ n, step (states step σ x n) (σ m) ≠ states step σ x n) :
    ∃ n, Stopped (states step σ x n) := by
  by_contra hrun
  push Not at hrun
  have hanti : Antitone fun n => ν (states step σ x n) := by
    refine antitone_nat_of_succ_le fun n => ?_
    rcases hvariant n with hsame | hless
    · rw [hsame]
    · exact hless.le
  -- some later step moves the machine, and then the variant is lower
  have hdrop : ∀ n, ∃ m, ν (states step σ x m) < ν (states step σ x n) := by
    intro n
    obtain ⟨m, hle, hmove⟩ := hlive n (hrun n)
    by_contra hflat
    push Not at hflat
    have hstill : ∀ k, n ≤ k → states step σ x (k + 1) = states step σ x k := by
      intro k hk
      rcases hvariant k with hsame | hless
      · exact hsame
      · exact absurd (hless.trans_le (hanti hk)) (hflat (k + 1)).not_gt
    have hsame : states step σ x m = states step σ x n :=
      states_eq_of_still hle fun k hk _ => hstill k hk
    refine hmove ?_
    rw [← hsame]
    exact hstill m hle
  have hnever : ∀ k n, ν (states step σ x n) = k → False := by
    intro k
    induction k using Nat.strong_induction_on with
    | h k ih =>
      rintro n rfl
      obtain ⟨m, hm⟩ := hdrop n
      exact ih _ hm m rfl
  exact hnever _ 0 rfl

end Vela.Schedule
