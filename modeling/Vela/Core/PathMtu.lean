import Vela.Core.Types
import Vela.Lib.Schedule
import Mathlib.Order.Interval.Finset.Nat
import Mathlib.Data.Nat.Count

/-!
# The search for the path MTU

`PathMtuState` looks for the largest packet that a path carries: it steps up while probes are
acknowledged, bisects after one was lost three times, and ends where the peer says so.

* `mtu_search_bounded` — the bounds, that no subtraction underflows, and that the peer's maximum is
  kept;
* `mtu_search_converges` — under it the search ends, within the precision of the last step.
-/

namespace Vela.Core

open Vela.Proto Vela.Crypto Vela.Ip

/-! ### What a step does -/

variable {confirmed upper : ℕ}

lemma nextMtuProbe_some {target : ℕ} (h : nextMtuProbe confirmed upper = some target) :
    confirmed < target ∧ target ≤ upper ∧ confirmed + mtuProbeMinGain < upper := by
  unfold nextMtuProbe at h
  split at h
  · cases h
  · dsimp only at h
    split at h
    · cases h
      omega
    · cases h

lemma nextMtuProbe_none (h : nextMtuProbe confirmed upper = none) :
    upper ≤ confirmed + mtuProbeMinGain := by
  unfold nextMtuProbe at h
  split at h
  · assumption
  · dsimp only at h
    split at h
    · cases h
    · simp only [mtuProbeMinGain] at *
      omega

namespace PathMtuState

/-- The search has ended: nothing is scheduled or outstanding. -/
def Idle (state : PathMtuState) : Prop := state.next = none ∧ state.pending = none

/-- A probe was lost too often. -/
def giveUp (state : PathMtuState) (probe : PendingMtuProbe) : PathMtuState :=
  { state with
    upper := min state.upper (probe.target - 1)
    pending := none
    next := nextMtuProbe state.confirmed (min state.upper (probe.target - 1)) }

/-- A probe arrived, but the peer takes less. -/
def clamp (state : PathMtuState) (peerMaxMtu : ℕ) : PathMtuState :=
  { state with
    pending := none
    upper := min state.upper peerMaxMtu
    confirmed := min peerMaxMtu (min state.upper peerMaxMtu)
    next := none }

/-- A probe arrived. -/
def raise (state : PathMtuState) (target : ℕ) : PathMtuState :=
  { state with
    pending := none
    confirmed := max state.confirmed target
    next := if max state.confirmed target < state.upper then
        some (min (max state.confirmed target + mtuProbeStep) state.upper)
      else none }

variable {state : PathMtuState} {now : Instant} {nonce : Vector UInt8 mtuProbeNonceLen}

@[simp] lemma startProbe_confirmed : (state.startProbe now nonce).2.confirmed = state.confirmed := by
  unfold startProbe
  split <;> rfl

@[simp] lemma startProbe_upper : (state.startProbe now nonce).2.upper = state.upper := by
  unfold startProbe
  split <;> rfl

lemma startProbe_some {target : ℕ} (h : state.next = some target) :
    (state.startProbe now nonce).2 =
      { state with next := none, pending := some { target, nonce, sentAt := now, failures := 0 } } := by
  simp only [startProbe, h]

lemma startProbe_none (h : state.next = none) : (state.startProbe now nonce).2 = state := by
  simp only [startProbe, h]

lemma pollProbe_cases (state : PathMtuState) (now : Instant)
    (nonce : Vector UInt8 mtuProbeNonceLen) :
    ((state.pollProbe now nonce).2 = state ∧ (state.pending = none → state.next = none) ∧
      ∀ probe, state.pending = some probe → now - probe.sentAt < mtuProbeTimeout) ∨
    (∃ target, state.pending = none ∧ state.next = some target ∧
      (state.pollProbe now nonce).2 = { state with
        next := none, pending := some { target, nonce, sentAt := now, failures := 0 } }) ∨
    (∃ probe, state.pending = some probe ∧ mtuProbeTimeout ≤ now - probe.sentAt ∧
      probe.failures + 1 < mtuProbeMaxFailures ∧
      (state.pollProbe now nonce).2 = { state with
        pending := some { probe with failures := probe.failures + 1, sentAt := now } }) ∨
    (∃ probe, state.pending = some probe ∧ mtuProbeTimeout ≤ now - probe.sentAt ∧
      mtuProbeMaxFailures ≤ probe.failures + 1 ∧
      (state.pollProbe now nonce).2 = ((state.giveUp probe).startProbe now nonce).2) := by
  cases hpending : state.pending with
  | none =>
    cases hnext : state.next with
    | none => exact .inl ⟨by simp only [pollProbe, hpending, startProbe_none hnext], fun _ => rfl, nofun⟩
    | some target =>
      exact .inr (.inl ⟨target, rfl, rfl, by simp only [pollProbe, hpending, startProbe_some hnext]⟩)
  | some probe =>
    by_cases hearly : now - probe.sentAt < mtuProbeTimeout
    · refine .inl ⟨by simp only [pollProbe, hpending, if_pos hearly], nofun, ?_⟩
      rintro _ ⟨⟩
      exact hearly
    · by_cases hretry : probe.failures + 1 < mtuProbeMaxFailures
      · refine .inr (.inr (.inl ⟨probe, rfl, Nat.not_lt.1 hearly, hretry, ?_⟩))
        simp only [pollProbe, hpending, if_neg hearly, if_pos hretry]
      · refine .inr (.inr (.inr ⟨probe, rfl, Nat.not_lt.1 hearly, Nat.not_lt.1 hretry, ?_⟩))
        simp only [pollProbe, hpending, if_neg hearly, if_neg hretry, giveUp]

lemma acknowledge_cases (state : PathMtuState) (nonce : List UInt8) (peerMaxMtu : ℕ) :
    ((state.acknowledge nonce peerMaxMtu).2 = state ∧
      ∀ probe, state.pending = some probe → nonce ≠ probe.nonce.toList) ∨
    (∃ probe, state.pending = some probe ∧ nonce = probe.nonce.toList ∧ peerMaxMtu < probe.target ∧
      (state.acknowledge nonce peerMaxMtu).2 = state.clamp peerMaxMtu) ∨
    (∃ probe, state.pending = some probe ∧ nonce = probe.nonce.toList ∧ probe.target ≤ peerMaxMtu ∧
      (state.acknowledge nonce peerMaxMtu).2 = state.raise probe.target) := by
  cases hpending : state.pending with
  | none => exact .inl ⟨by simp only [acknowledge, hpending], nofun⟩
  | some probe =>
    by_cases hnonce : nonce = probe.nonce.toList
    · by_cases hclamp : peerMaxMtu < probe.target
      · refine .inr (.inl ⟨probe, rfl, hnonce, hclamp, ?_⟩)
        simp only [acknowledge, hpending, ne_eq, hnonce, not_true_eq_false, if_false, if_pos hclamp, clamp]
      · refine .inr (.inr ⟨probe, rfl, hnonce, Nat.not_lt.1 hclamp, ?_⟩)
        simp only [acknowledge, hpending, ne_eq, hnonce, not_true_eq_false, if_false, if_neg hclamp, raise]
    · refine .inl ⟨?_, ?_⟩
      · simp only [acknowledge, hpending, ne_eq, hnonce, not_false_eq_true, if_true]
      · rintro _ ⟨⟩
        exact hnonce

end PathMtuState

/-- What happens to the search on one path. -/
inductive MtuStep where
  | poll (now : Instant) (nonce : Vector UInt8 mtuProbeNonceLen)
  | acknowledge (nonce : List UInt8) (peerMaxMtu : ℕ)
  | reset

namespace PathMtuState

def step (base maximum : ℕ) (state : PathMtuState) : MtuStep → PathMtuState
  | .poll now nonce => (state.pollProbe now nonce).2
  | .acknowledge nonce peerMaxMtu => (state.acknowledge nonce peerMaxMtu).2
  | .reset => (state.reset base maximum).2

/-- The search after some steps. -/
def after (base maximum : ℕ) (steps : List MtuStep) (state : PathMtuState) : PathMtuState :=
  steps.foldl (step base maximum) state

variable {base maximum : ℕ} {state : PathMtuState}

/-! ### Bounds -/

/-- Between what is confirmed and what is excluded. -/
structure Bounded (maximum : ℕ) (state : PathMtuState) : Prop where
  confirmed_le : state.confirmed ≤ state.upper
  upper_le : state.upper ≤ maximum
  next : ∀ target, state.next = some target → state.confirmed < target ∧ target ≤ state.upper
  pending : ∀ probe, state.pending = some probe →
    state.confirmed < probe.target ∧ probe.target ≤ state.upper
  single : state.next = none ∨ state.pending = none

lemma bounded_new (base maximum : ℕ) : (new base maximum).Bounded maximum where
  confirmed_le := min_le_right _ _
  upper_le := le_rfl
  next := by
    intro target h
    simp only [new] at h ⊢
    split at h
    · cases h
      simp only [mtuProbeStep]
      omega
    · cases h
  pending := nofun
  single := .inr rfl

lemma Bounded.startProbe (h : state.Bounded maximum) (now : Instant)
    (nonce : Vector UInt8 mtuProbeNonceLen) :
    (state.startProbe now nonce).2.Bounded maximum := by
  cases hnext : state.next with
  | none => rwa [startProbe_none hnext]
  | some target =>
    rw [startProbe_some hnext]
    refine ⟨h.confirmed_le, h.upper_le, nofun, ?_, .inl rfl⟩
    rintro _ ⟨⟩
    exact h.next target hnext

variable {capacity : ℕ} {probe : PendingMtuProbe}

lemma Bounded.giveUp (h : state.Bounded maximum) (hpending : state.pending = some probe) :
    (state.giveUp probe).Bounded maximum := by
  obtain ⟨hlow, hhigh⟩ := h.pending probe hpending
  have hbelow : state.confirmed ≤ min state.upper (probe.target - 1) := by
    have := h.confirmed_le
    omega
  refine ⟨hbelow, (min_le_left _ _).trans h.upper_le, fun target hnext => ?_, nofun, .inr rfl⟩
  obtain ⟨hgain, hfit, -⟩ := nextMtuProbe_some hnext
  exact ⟨hgain, hfit⟩

lemma Bounded.clamp (h : state.Bounded maximum) (peerMaxMtu : ℕ) :
    (state.clamp peerMaxMtu).Bounded maximum :=
  ⟨min_le_right _ _, (min_le_left _ _).trans h.upper_le, nofun, nofun, .inl rfl⟩

lemma Bounded.raise (h : state.Bounded maximum) (hpending : state.pending = some probe) :
    (state.raise probe.target).Bounded maximum := by
  obtain ⟨hlow, hhigh⟩ := h.pending probe hpending
  refine ⟨max_le h.confirmed_le hhigh, h.upper_le, fun target hnext => ?_, nofun, .inr rfl⟩
  simp only [PathMtuState.raise] at hnext ⊢
  split at hnext
  · cases hnext
    simp only [mtuProbeStep]
    omega
  · cases hnext

lemma Bounded.step (h : state.Bounded maximum) (base : ℕ) (move : MtuStep) :
    (state.step base maximum move).Bounded maximum := by
  cases move with
  | reset => exact bounded_new base maximum
  | poll now nonce =>
    simp only [PathMtuState.step]
    obtain ⟨heq, -⟩ | ⟨target, -, hnext, heq⟩ | ⟨probe, hpending, -, -, heq⟩ |
      ⟨probe, hpending, -, -, heq⟩ := pollProbe_cases state now nonce
    · rwa [heq]
    · rw [heq, ← startProbe_some hnext]
      exact h.startProbe now nonce
    · rw [heq]
      refine ⟨h.confirmed_le, h.upper_le, h.next, ?_, ?_⟩
      · rintro _ ⟨⟩
        exact h.pending probe hpending
      · exact .inl (h.single.resolve_right (by rw [hpending]; exact nofun))
    · rw [heq]
      exact (h.giveUp hpending).startProbe now nonce
  | acknowledge nonce peerMaxMtu =>
    simp only [PathMtuState.step]
    obtain ⟨heq, -⟩ | ⟨probe, -, -, -, heq⟩ | ⟨probe, hpending, -, -, heq⟩ :=
      acknowledge_cases state nonce peerMaxMtu
    · rwa [heq]
    · rw [heq]
      exact h.clamp peerMaxMtu
    · rw [heq]
      exact h.raise hpending

lemma Bounded.after (h : state.Bounded maximum) (base : ℕ) (steps : List MtuStep) :
    (state.after base maximum steps).Bounded maximum := by
  induction steps generalizing state with
  | nil => exact h
  | cons move steps ih => exact ih (h.step base move)

lemma Idle.step (h : state.Idle) {move : MtuStep} (hreset : move ≠ .reset) :
    state.step base maximum move = state := by
  cases move with
  | reset => exact absurd rfl hreset
  | poll now nonce => simp only [PathMtuState.step, pollProbe, h.2, startProbe_none h.1]
  | acknowledge nonce peerMaxMtu => simp only [PathMtuState.step, acknowledge, h.2]

lemma Idle.after (h : state.Idle) {steps : List MtuStep} (hreset : .reset ∉ steps) :
    state.after base maximum steps = state := by
  induction steps with
  | nil => rfl
  | cons move steps ih =>
    rw [List.mem_cons, not_or] at hreset
    rw [PathMtuState.after, List.foldl_cons, h.step (Ne.symm hreset.1)]
    exact ih hreset.2

/-- **The search stays in bounds**, whatever is polled and acknowledged, and when: no subtraction of a
poll underflows, and once the peer has said that it takes less than a probe, no more than that is
confirmed until the path changes. -/
theorem mtu_search_bounded (base maximum : ℕ) (steps : List MtuStep) :
    let state := (new base maximum).after base maximum steps
    state.Bounded maximum ∧
    (∀ probe, state.pending = some probe →
      1 ≤ probe.target ∧ state.confirmed ≤ min state.upper (probe.target - 1)) ∧
    ∀ probe peerMaxMtu, state.pending = some probe → peerMaxMtu < probe.target →
      ∀ later : List MtuStep, .reset ∉ later →
        ((state.step base maximum (.acknowledge probe.nonce.toList peerMaxMtu)).after base maximum
          later).confirmed ≤ peerMaxMtu := by
  intro state
  have hbounded : state.Bounded maximum := (bounded_new base maximum).after base steps
  refine ⟨hbounded, fun probe hpending => ?_, fun probe peerMaxMtu hpending hless later hreset => ?_⟩
  · obtain ⟨hlow, hhigh⟩ := hbounded.pending probe hpending
    omega
  · have hclamp : state.step base maximum (.acknowledge probe.nonce.toList peerMaxMtu) =
        state.clamp peerMaxMtu := by
      simp only [PathMtuState.step]
      obtain ⟨-, hother⟩ | ⟨-, -, -, -, heq⟩ | ⟨probe', hpending', -, hmore, -⟩ :=
        acknowledge_cases state probe.nonce.toList peerMaxMtu
      · exact absurd rfl (hother probe hpending)
      · exact heq
      · obtain rfl := Option.some.inj (hpending.symm.trans hpending')
        exact absurd hmore (Nat.not_le.2 hless)
    have hidle : (state.clamp peerMaxMtu).Idle := ⟨rfl, rfl⟩
    rw [hclamp, hidle.after hreset]
    exact min_le_left _ _

/-! ### Convergence -/

/-- Whether the step settles the outstanding probe: it is acknowledged, or given up. -/
def resolves (state : PathMtuState) : MtuStep → Bool
  | .poll now _ => state.pending.any fun probe =>
    decide (mtuProbeTimeout ≤ now - probe.sentAt) && decide (mtuProbeMaxFailures ≤ probe.failures + 1)
  | .acknowledge nonce _ => state.pending.any fun probe => decide (nonce = probe.nonce.toList)
  | .reset => false

/-- The states of the search under a schedule. -/
abbrev states (base maximum : ℕ) (σ : ℕ → MtuStep) : ℕ → PathMtuState :=
  Schedule.states (step base maximum) σ (new base maximum)

/-- The path carries `capacity`, and the peer takes everything.  Probes that fit are acknowledged before
they time out, others are not acknowledged; polls go on, and there is no other path. -/
structure Carries (capacity base maximum : ℕ) (σ : ℕ → MtuStep) : Prop where
  polled : ∀ n t, ∃ m ≥ n, ∃ now nonce, σ m = .poll now nonce ∧ t ≤ now
  answered : ∀ n probe, (states base maximum σ n).pending = some probe → probe.target ≤ capacity →
    ∃ m ≥ n, ∃ peerMaxMtu, σ m = .acknowledge probe.nonce.toList peerMaxMtu
  inTime : ∀ n now nonce probe, σ n = .poll now nonce →
    (states base maximum σ n).pending = some probe → probe.target ≤ capacity →
    now - probe.sentAt < mtuProbeTimeout
  fits : ∀ n nonce peerMaxMtu, σ n = .acknowledge nonce peerMaxMtu → maximum ≤ peerMaxMtu ∧
    ∀ probe, (states base maximum σ n).pending = some probe → nonce = probe.nonce.toList →
      probe.target ≤ capacity
  no_reset : ∀ n, σ n ≠ .reset

/-- What the search knows about the capacity. -/
structure Knows (capacity maximum : ℕ) (state : PathMtuState) : Prop extends state.Bounded maximum where
  confirmed_fits : state.confirmed ≤ capacity
  upper_covers : min capacity maximum ≤ state.upper
  precise : state.Idle → state.upper ≤ state.confirmed + mtuProbeMinGain

/-- The variant: the interval, and how far the probe has come. -/
def variant (state : PathMtuState) : ℕ :=
  5 * (state.upper - state.confirmed) +
    match state.pending with
    | some probe => mtuProbeMaxFailures - probe.failures
    | none => if state.next = none then 0 else 4

lemma variant_le (hpending : state.pending = none) :
    state.variant ≤ 5 * (state.upper - state.confirmed) + 4 := by
  simp only [variant, hpending]
  split <;> omega

lemma variant_startProbe_le (now : Instant) (nonce : Vector UInt8 mtuProbeNonceLen)
    (hpending : state.pending = none) :
    (state.startProbe now nonce).2.variant ≤ 5 * (state.upper - state.confirmed) + 3 := by
  cases hnext : state.next with
  | none => simp [startProbe_none hnext, variant, hnext, hpending]
  | some target => simp [startProbe_some hnext, variant, mtuProbeMaxFailures]

/-- One move of the search on a path with a capacity, and whether it settles the probe. -/
inductive Moves (capacity : ℕ) (state : PathMtuState) : Bool → PathMtuState → Prop where
  | still : Moves capacity state false state
  | begins (now : Instant) (nonce : Vector UInt8 mtuProbeNonceLen) (target : ℕ)
      (hpending : state.pending = none) (hnext : state.next = some target) :
      Moves capacity state false { state with
        next := none, pending := some { target, nonce, sentAt := now, failures := 0 } }
  | retries (now : Instant) (probe : PendingMtuProbe) (hpending : state.pending = some probe)
      (hfailures : probe.failures + 1 < mtuProbeMaxFailures) :
      Moves capacity state false { state with
        pending := some { probe with failures := probe.failures + 1, sentAt := now } }
  | gives_up (now : Instant) (nonce : Vector UInt8 mtuProbeNonceLen) (probe : PendingMtuProbe)
      (hpending : state.pending = some probe) (hlost : capacity < probe.target) :
      Moves capacity state true ((state.giveUp probe).startProbe now nonce).2
  | rises (probe : PendingMtuProbe) (hpending : state.pending = some probe)
      (hfits : probe.target ≤ capacity) : Moves capacity state true (state.raise probe.target)

lemma moves_poll {now : Instant} {nonce : Vector UInt8 mtuProbeNonceLen}
    (hinTime : ∀ probe, state.pending = some probe → probe.target ≤ capacity →
      now - probe.sentAt < mtuProbeTimeout) :
    Moves capacity state (state.resolves (.poll now nonce)) (state.pollProbe now nonce).2 := by
  obtain ⟨heq, -, hearly⟩ | ⟨target, hpending, hnext, heq⟩ | ⟨probe, hpending, hlate, hfailures, heq⟩ |
    ⟨probe, hpending, hlate, hfailures, heq⟩ := pollProbe_cases state now nonce <;> rw [heq]
  · have hresolves : state.resolves (.poll now nonce) = false := by
      cases hpending : state.pending with
      | none => simp [resolves, hpending]
      | some probe => simp [resolves, hpending, hearly probe hpending]
    rw [hresolves]
    exact .still
  · rw [show state.resolves (.poll now nonce) = false by simp [resolves, hpending]]
    exact .begins now nonce target hpending hnext
  · rw [show state.resolves (.poll now nonce) = false by simp [resolves, hpending, hfailures]]
    exact .retries now probe hpending hfailures
  · rw [show state.resolves (.poll now nonce) = true by simp [resolves, hpending, hlate, hfailures]]
    refine .gives_up now nonce probe hpending (Nat.lt_of_not_le fun hfits => ?_)
    exact absurd (hinTime probe hpending hfits) (Nat.not_lt.2 hlate)

lemma moves_acknowledge {peerMaxMtu : ℕ} {nonce : List UInt8} (h : state.Bounded maximum)
    (hpeer : maximum ≤ peerMaxMtu)
    (hfits : ∀ probe, state.pending = some probe → nonce = probe.nonce.toList → probe.target ≤ capacity) :
    Moves capacity state (state.resolves (.acknowledge nonce peerMaxMtu))
      (state.acknowledge nonce peerMaxMtu).2 := by
  obtain ⟨heq, hother⟩ | ⟨probe, hpending, -, hless, -⟩ | ⟨probe, hpending, hnonce, -, heq⟩ :=
    acknowledge_cases state nonce peerMaxMtu
  · have hresolves : state.resolves (.acknowledge nonce peerMaxMtu) = false := by
      cases hpending : state.pending with
      | none => simp [resolves, hpending]
      | some probe => simp [resolves, hpending, hother probe hpending]
    rw [hresolves, heq]
    exact .still
  · -- the peer takes everything
    exact absurd (((h.pending probe hpending).2.trans h.upper_le).trans hpeer) (Nat.not_le.2 hless)
  · rw [show state.resolves (.acknowledge nonce peerMaxMtu) = true by simp [resolves, hpending, hnonce],
      heq]
    exact .rises probe hpending (hfits probe hpending hnonce)

lemma bounded_states (base maximum : ℕ) (σ : ℕ → MtuStep) (n : ℕ) :
    (states base maximum σ n).Bounded maximum := by
  refine Schedule.states_induction (bounded_new base maximum) (fun n h => ?_) n
  exact h.step base (σ n)

lemma Carries.moves {σ : ℕ → MtuStep} (h : Carries capacity base maximum σ) (n : ℕ) :
    Moves capacity (states base maximum σ n) ((states base maximum σ n).resolves (σ n))
      (states base maximum σ (n + 1)) := by
  rw [states, Schedule.states]
  cases hmove : σ n with
  | reset => exact absurd hmove (h.no_reset n)
  | poll now nonce =>
    exact moves_poll fun probe hpending hfits => h.inTime n now nonce probe hmove hpending hfits
  | acknowledge nonce peerMaxMtu =>
    obtain ⟨hpeer, hfits⟩ := h.fits n nonce peerMaxMtu hmove
    exact moves_acknowledge (bounded_states base maximum σ n) hpeer hfits

section Moves

variable {capacity : ℕ} {resolved : Bool} {state' : PathMtuState}

lemma Moves.knows (hmove : Moves capacity state resolved state') (h : state.Knows capacity maximum)
    (hb : state'.Bounded maximum) : state'.Knows capacity maximum := by
  cases hmove with
  | still => exact h
  | begins now nonce target hpending hnext =>
    exact ⟨hb, h.confirmed_fits, h.upper_covers, fun hidle => nomatch hidle.2⟩
  | retries now probe hpending hfailures =>
    exact ⟨hb, h.confirmed_fits, h.upper_covers, fun hidle => nomatch hidle.2⟩
  | gives_up now nonce probe hpending hlost =>
    refine ⟨hb, ?_, ?_, fun hidle => ?_⟩
    · rw [startProbe_confirmed]
      exact h.confirmed_fits
    · have hcovers := h.upper_covers
      rw [startProbe_upper]
      simp only [giveUp]
      omega
    · cases hnext : (state.giveUp probe).next with
      | none =>
        rw [startProbe_upper, startProbe_confirmed]
        exact nextMtuProbe_none hnext
      | some target =>
        rw [startProbe_some hnext] at hidle
        cases hidle.2
  | rises probe hpending hfits =>
    refine ⟨hb, max_le h.confirmed_fits hfits, h.upper_covers, fun hidle => ?_⟩
    have hnext := hidle.1
    simp only [raise] at hnext ⊢
    split at hnext
    · cases hnext
    · omega

lemma Moves.interval (hmove : Moves capacity state resolved state') (h : state.Bounded maximum) :
    (state'.upper - state'.confirmed) + resolved.toNat ≤ state.upper - state.confirmed := by
  cases hmove with
  | still => exact le_rfl
  | begins now nonce target hpending hnext => exact le_rfl
  | retries now probe hpending hfailures => exact le_rfl
  | gives_up now nonce probe hpending hlost =>
    obtain ⟨hlow, hhigh⟩ := h.pending probe hpending
    rw [startProbe_upper, startProbe_confirmed]
    simp only [giveUp, Bool.toNat_true]
    omega
  | rises probe hpending hfits =>
    obtain ⟨hlow, hhigh⟩ := h.pending probe hpending
    simp only [raise, Bool.toNat_true]
    omega

lemma Moves.variant (hmove : Moves capacity state resolved state') (h : state.Bounded maximum) :
    state' = state ∨ state'.variant < state.variant := by
  have hinterval := hmove.interval h
  cases hmove with
  | still => exact .inl rfl
  | begins now nonce target hpending hnext =>
    refine .inr ?_
    simp [PathMtuState.variant, hpending, hnext, mtuProbeMaxFailures]
  | retries now probe hpending hfailures =>
    refine .inr ?_
    simp only [PathMtuState.variant, hpending]
    omega
  | gives_up now nonce probe hpending hlost =>
    refine .inr ((variant_startProbe_le now nonce rfl).trans_lt ?_)
    rw [startProbe_upper, startProbe_confirmed, Bool.toNat_true] at hinterval
    simp only [PathMtuState.variant, hpending]
    omega
  | rises probe hpending hfits =>
    refine .inr ?_
    rw [Bool.toNat_true] at hinterval
    have hphase : (state.raise probe.target).variant ≤ _ := variant_le rfl
    refine hphase.trans_lt ?_
    simp only [PathMtuState.variant, hpending]
    omega

end Moves

section Carries

variable {capacity : ℕ} {σ : ℕ → MtuStep}

lemma Carries.knows (h : Carries capacity base maximum σ) (hbase : base ≤ capacity) (n : ℕ) :
    (states base maximum σ n).Knows capacity maximum := by
  refine Schedule.states_induction (I := Knows capacity maximum) ⟨bounded_new base maximum, (min_le_left _ _).trans hbase,
    min_le_right _ _, fun hidle => ?_⟩ (fun n hknows => ?_) n
  · have hnext := hidle.1
    simp only [new] at hnext ⊢
    split at hnext
    · cases hnext
    · omega
  · exact (h.moves n).knows hknows (bounded_states base maximum σ (n + 1))

lemma Carries.settled (h : Carries capacity base maximum σ) (hle : base ≤ maximum) (n : ℕ) :
    Nat.count (fun k => (states base maximum σ k).resolves (σ k) = true) n +
      ((states base maximum σ n).upper - (states base maximum σ n).confirmed) ≤ maximum - base := by
  induction n with
  | zero => simp [states, Schedule.states, new, hle]
  | succ n ih =>
    have hinterval := (h.moves n).interval (bounded_states base maximum σ n)
    rw [Nat.count_succ]
    cases hresolves : (states base maximum σ n).resolves (σ n) with
    | true =>
      rw [hresolves, Bool.toNat_true] at hinterval
      simp only [if_true]
      omega
    | false =>
      simp only [Bool.false_eq_true, if_false]
      omega

lemma pollProbe_ne {now : Instant} {nonce : Vector UInt8 mtuProbeNonceLen} (h : state.Bounded maximum)
    (hrun : ¬ state.Idle)
    (hlate : ∀ probe, state.pending = some probe → mtuProbeTimeout ≤ now - probe.sentAt) :
    (state.pollProbe now nonce).2 ≠ state := by
  intro hsame
  obtain ⟨-, hidle, hearly⟩ | ⟨target, hpending, -, heq⟩ | ⟨probe, hpending, -, -, heq⟩ |
    ⟨probe, hpending, -, -, heq⟩ := pollProbe_cases state now nonce
  · cases hpending : state.pending with
    | none => exact hrun ⟨hidle hpending, hpending⟩
    | some probe => exact absurd (hearly probe hpending) (Nat.not_lt.2 (hlate probe hpending))
  · rw [← hsame, heq] at hpending
    cases hpending
  · have hfailures : state.pending = some { probe with failures := probe.failures + 1, sentAt := now } :=
      congrArg PathMtuState.pending (hsame.symm.trans heq)
    have hcount := congrArg PendingMtuProbe.failures (Option.some.inj (hpending.symm.trans hfailures))
    exact absurd hcount (Nat.succ_ne_self _).symm
  · obtain ⟨hlow, hhigh⟩ := h.pending probe hpending
    have hupper : ((state.giveUp probe).startProbe now nonce).2.upper = state.upper :=
      congrArg PathMtuState.upper (heq.symm.trans hsame)
    rw [startProbe_upper] at hupper
    simp only [giveUp] at hupper
    omega

lemma acknowledge_ne {probe : PendingMtuProbe} (hpending : state.pending = some probe)
    (peerMaxMtu : ℕ) : (state.acknowledge probe.nonce.toList peerMaxMtu).2 ≠ state := by
  intro hsame
  obtain ⟨-, hother⟩ | ⟨_, -, -, -, heq⟩ | ⟨_, -, -, -, heq⟩ :=
    acknowledge_cases state probe.nonce.toList peerMaxMtu
  · exact hother probe hpending rfl
  · rw [← hsame, heq] at hpending
    cases hpending
  · rw [← hsame, heq] at hpending
    cases hpending

lemma Carries.live (h : Carries capacity base maximum σ) (n : ℕ)
    (hrun : ¬ (states base maximum σ n).Idle) :
    ∃ m ≥ n, (states base maximum σ n).step base maximum (σ m) ≠ states base maximum σ n := by
  have hbounded := bounded_states base maximum σ n
  cases hpending : (states base maximum σ n).pending with
  | none =>
    obtain ⟨m, hle, now, nonce, hmove, -⟩ := h.polled n 0
    refine ⟨m, hle, ?_⟩
    rw [hmove]
    refine pollProbe_ne hbounded hrun fun probe hprobe => ?_
    rw [hpending] at hprobe
    cases hprobe
  | some probe =>
    by_cases hfits : probe.target ≤ capacity
    · obtain ⟨m, hle, peerMaxMtu, hmove⟩ := h.answered n probe hpending hfits
      refine ⟨m, hle, ?_⟩
      rw [hmove]
      exact acknowledge_ne hpending peerMaxMtu
    · -- nobody acknowledges the probe, and at some time it has timed out
      obtain ⟨m, hle, now, nonce, hmove, hlate⟩ := h.polled n (probe.sentAt + mtuProbeTimeout)
      refine ⟨m, hle, ?_⟩
      rw [hmove]
      refine pollProbe_ne hbounded hrun fun probe' hprobe => ?_
      obtain rfl := Option.some.inj (hpending.symm.trans hprobe)
      exact Nat.le_sub_of_add_le' hlate

/-- **The search converges.**  On a path that carries `capacity` the search ends; until then at most
`maximum - base` probes are settled, and at the end the confirmed MTU is the largest that the path
carries, up to the precision of the last step. -/
theorem mtu_search_converges (capacity base maximum : ℕ) (σ : ℕ → MtuStep) (hle : base ≤ maximum)
    (hbase : base ≤ capacity) (h : Carries capacity base maximum σ) :
    ∃ n, (states base maximum σ n).Idle ∧
      (∀ m, n ≤ m → states base maximum σ m = states base maximum σ n) ∧
      (∀ m, Nat.count (fun k => (states base maximum σ k).resolves (σ k) = true) m ≤ maximum - base) ∧
      (states base maximum σ n).confirmed ≤ min capacity maximum ∧
      min capacity maximum ≤ (states base maximum σ n).confirmed + 8 := by
  obtain ⟨n, hidle⟩ : ∃ n, (states base maximum σ n).Idle := Schedule.eventually_stops variant
    (fun n => (h.moves n).variant (bounded_states base maximum σ n)) h.live
  have hknows := h.knows hbase n
  refine ⟨n, hidle, fun m hm => ?_, fun m => (Nat.le_add_right _ _).trans (h.settled hle m), ?_, ?_⟩
  · induction m, hm using Nat.le_induction with
    | base => rfl
    | succ m hm ih =>
      rw [← ih] at hidle ⊢
      exact hidle.step (h.no_reset m)
  · exact le_min hknows.confirmed_fits (hknows.confirmed_le.trans hknows.upper_le)
  · exact hknows.upper_covers.trans (hknows.precise hidle)

end Carries

/-! ### A path that answers at once -/

section Obliging

variable (capacity base maximum : ℕ)

/-- A probe that fits is acknowledged before anything else happens. -/
def oblige (n : ℕ) (state : PathMtuState) : MtuStep :=
  match state.pending with
  | some probe =>
    if probe.target ≤ capacity then .acknowledge probe.nonce.toList maximum
    else .poll (n * mtuProbeTimeout) (Vector.replicate mtuProbeNonceLen 0)
  | none => .poll (n * mtuProbeTimeout) (Vector.replicate mtuProbeNonceLen 0)

def obliged : ℕ → PathMtuState
  | 0 => new base maximum
  | n + 1 => (obliged n).step base maximum (oblige capacity maximum n (obliged n))

def obliging (n : ℕ) : MtuStep := oblige capacity maximum n (obliged capacity base maximum n)

lemma states_obliging (n : ℕ) :
    states base maximum (obliging capacity base maximum) n = obliged capacity base maximum n := by
  induction n with
  | zero => rfl
  | succ n ih =>
    change (states base maximum (obliging capacity base maximum) n).step base maximum _ = _
    rw [ih]
    rfl

variable {capacity base maximum}

variable {n : ℕ}

lemma oblige_poll (h : ∀ probe, state.pending = some probe → capacity < probe.target) :
    oblige capacity maximum n state =
      .poll (n * mtuProbeTimeout) (Vector.replicate mtuProbeNonceLen 0) := by
  cases hpending : state.pending with
  | none => simp only [oblige, hpending]
  | some probe => simp only [oblige, hpending, if_neg (Nat.not_le.2 (h probe hpending))]

lemma oblige_acknowledge {probe : PendingMtuProbe} (hpending : state.pending = some probe)
    (hfits : probe.target ≤ capacity) :
    oblige capacity maximum n state = .acknowledge probe.nonce.toList maximum := by
  simp only [oblige, hpending, if_pos hfits]

lemma obliging_polls (capacity base maximum n : ℕ) : ∃ m ≥ n, obliging capacity base maximum m =
    .poll (m * mtuProbeTimeout) (Vector.replicate mtuProbeNonceLen 0) := by
  by_cases h : ∀ probe, (obliged capacity base maximum n).pending = some probe → capacity < probe.target
  · exact ⟨n, le_rfl, oblige_poll h⟩
  · push Not at h
    obtain ⟨probe, hpending, hfits⟩ := h
    refine ⟨n + 1, Nat.le_succ n, oblige_poll fun probe' hprobe => ?_⟩
    have hnone : (obliged capacity base maximum (n + 1)).pending = none := by
      rw [obliged, oblige_acknowledge hpending hfits, step]
      obtain ⟨-, hother⟩ | ⟨_, -, -, -, heq⟩ | ⟨_, -, -, -, heq⟩ :=
        acknowledge_cases (obliged capacity base maximum n) probe.nonce.toList maximum
      · exact absurd rfl (hother probe hpending)
      · rw [heq]
        rfl
      · rw [heq]
        rfl
    rw [hnone] at hprobe
    cases hprobe

lemma carries_obliging : Carries capacity base maximum (obliging capacity base maximum) where
  polled n t := by
    obtain ⟨m, hle, hmove⟩ := obliging_polls capacity base maximum (max n t)
    refine ⟨m, (le_max_left n t).trans hle, _, _, hmove, ?_⟩
    exact ((le_max_right n t).trans hle).trans (Nat.le_mul_of_pos_right m (by decide))
  answered n probe hpending hfits := by
    rw [states_obliging] at hpending
    exact ⟨n, le_rfl, maximum, oblige_acknowledge hpending hfits⟩
  inTime n now nonce probe hmove hpending hfits := by
    rw [states_obliging] at hpending
    rw [obliging, oblige_acknowledge hpending hfits] at hmove
    cases hmove
  fits n nonce peerMaxMtu hmove := by
    rw [states_obliging]
    by_cases h : ∀ probe, (obliged capacity base maximum n).pending = some probe → capacity < probe.target
    · rw [obliging, oblige_poll h] at hmove
      cases hmove
    · push Not at h
      obtain ⟨probe, hpending, hfits⟩ := h
      rw [obliging, oblige_acknowledge hpending hfits] at hmove
      cases hmove
      refine ⟨le_rfl, fun probe' hprobe _ => ?_⟩
      rwa [← Option.some.inj (hpending.symm.trans hprobe)]
  no_reset n := by
    unfold obliging oblige
    split
    · split <;> exact nofun
    · exact nofun

end Obliging

theorem mtu_search_converges_1300 : ∃ σ n,
    (states 1190 1430 σ n).confirmed ≤ 1300 ∧ 1300 ≤ (states 1190 1430 σ n).confirmed + 8 := by
  obtain ⟨n, -, -, -, hlow, hhigh⟩ := mtu_search_converges 1300 1190 1430 (obliging 1300 1190 1430)
    (by decide) (by decide) carries_obliging
  exact ⟨_, n, hlow, hhigh⟩

end PathMtuState

end Vela.Core
