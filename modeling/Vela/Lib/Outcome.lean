import Vela.Lib.Codec

/-!
# Code that may panic

An `Outcome` is how a call can end: with a value, with an error that it returns, or in a panic.

* `sub`, `shiftLeft` are the operations that panic outside their bounds;
* `ofExcept` is code without such operations; an equation `x = ofExcept y` says of a computation `x`
  that it never panics and what it returns;
* `Returns` is the first half alone.
-/

inductive Outcome (ε α : Type) where
  | ok (value : α)
  | error (error : ε)
  | panic
  deriving DecidableEq, Repr

namespace Outcome

variable {ε α β γ : Type}

protected def bind (x : Outcome ε α) (f : α → Outcome ε β) : Outcome ε β :=
  match x with
  | .ok a => f a
  | .error e => .error e
  | .panic => .panic

instance : Monad (Outcome ε) where
  pure := .ok
  bind := Outcome.bind

@[simp] lemma ok_bind (a : α) (f : α → Outcome ε β) : (.ok a >>= f : Outcome ε β) = f a := rfl
instance : LawfulMonad (Outcome ε) :=
  LawfulMonad.mk' _ (fun x => by cases x <;> rfl) (fun _ _ => rfl) (fun x _ _ => by cases x <;> rfl)

/-! ### Code that cannot panic -/

def ofExcept : Except ε α → Outcome ε α
  | .ok a => .ok a
  | .error e => .error e

@[simp] lemma ofExcept_ok (a : α) : ofExcept (.ok a : Except ε α) = .ok a := rfl
lemma ofExcept_eq_ok {x : Except ε α} {a : α} : ofExcept x = .ok a ↔ x = .ok a := by
  cases x with
  | ok b => exact ⟨fun h => congrArg Except.ok (ok.inj h), fun h => congrArg ok (Except.ok.inj h)⟩
  | error e => exact ⟨nofun, nofun⟩

lemma ofExcept_bind (x : Except ε α) (f : α → Except ε β) :
    ofExcept (x >>= f) = ofExcept x >>= fun a => ofExcept (f a) := by
  cases x <;> rfl

lemma ofExcept_ite {c : Prop} [Decidable c] (x y : Except ε α) :
    ofExcept (if c then x else y) = if c then ofExcept x else ofExcept y := by
  split <;> rfl

lemma foldlM_ofExcept {f : β → α → Outcome ε β} {g : β → α → Except ε β} {l : List α}
    (h : ∀ b, ∀ a ∈ l, f b a = ofExcept (g b a)) (b : β) :
    l.foldlM f b = ofExcept (l.foldlM g b) := by
  induction l generalizing b with
  | nil => rfl
  | cons a l ih =>
    rw [List.foldlM_cons, List.foldlM_cons, ofExcept_bind, h b a (.head _)]
    congr 1
    funext b'
    exact ih (fun b a ha => h b a (.tail _ ha)) b'

/-! ### No panic -/

/-- The call comes back, with a value or with an error. -/
def Returns (x : Outcome ε α) : Prop := x ≠ .panic

lemma returns_ofExcept (x : Except ε α) : (ofExcept x).Returns := by
  cases x <;> nofun

/-! ### Operations that panic -/

/-- `a - b` in an unsigned type. -/
def sub (a b : ℕ) : Outcome ε ℕ := if b ≤ a then .ok (a - b) else .panic

/-- `x << n` -/
def shiftLeft {w : ℕ} (x : BitVec w) (n : ℕ) : Outcome ε (BitVec w) :=
  if n < w then .ok (x <<< n) else .panic

lemma sub_of_le {a b : ℕ} (h : b ≤ a) : (sub a b : Outcome ε ℕ) = .ok (a - b) := if_pos h

lemma shiftLeft_of_lt {w n : ℕ} (x : BitVec w) (h : n < w) :
    (shiftLeft x n : Outcome ε (BitVec w)) = .ok (x <<< n) := if_pos h

end Outcome
