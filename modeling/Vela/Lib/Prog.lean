import Mathlib.Logic.Function.Basic
import Mathlib.Tactic.Common

/-!
# Programs over atomic sections

A concurrent function is a tree of atomic sections: `op c k` performs the section `c` and continues
with its response.  The same tree is run alone (`Prog.wp`) or interleaved with others (`Vela.Lib.Pool`).

* `Prog.wp` — what holds after a run without interleaving, whatever the environment answers;
* `Prog.avoids`, `Prog.may` — no such run performs a section of some kind, and: there is such a run;
* `Prog.among` — the same runs with other tasks in between, which keep to a relation on the state;
* `Prog.Meets` — a discipline: a monitor follows the sections of one program, and each section is
  allowed by the monitor's state when it comes.  Its rules (`ret`, `bind`, `mono`, `forM`) follow the
  shape of the program;
* `Prog.Within` — the footprint of a program: the sections it may perform, and its result;
* `Prog.Under` — its result if the responses are of some kind;
* `Prog.Discipline` — a property of programs that sequencing keeps, such as either of these two: what
  holds of the parts of a program holds of the program.
-/

/-- Programs over sections `C` with responses `R`. -/
inductive Prog (C : Type) (R : C → Type) (α : Type) : Type
  | ret (a : α)
  | op (c : C) (k : R c → Prog C R α)

namespace Prog

variable {C : Type} {R : C → Type} {α β : Type}

def bind : Prog C R α → (α → Prog C R β) → Prog C R β
  | ret a, f => f a
  | op c k, f => op c fun r => (k r).bind f

lemma bind_assoc {γ : Type} (p : Prog C R α) (f : α → Prog C R β) (g : β → Prog C R γ) :
    (p.bind f).bind g = p.bind fun a => (f a).bind g := by
  induction p with
  | ret a => rfl
  | op c k ih => exact congrArg (op c) (funext ih)

/-- One section. -/
def call (c : C) : Prog C R (R c) := op c ret

instance : Monad (Prog C R) where
  pure := ret
  bind := bind

/-- A loop over a list that collects the results. -/
def collect (f : α → Prog C R β) : List α → Prog C R (List β)
  | [] => ret []
  | a :: l => (f a).bind fun b => (collect f l).bind fun bs => ret (b :: bs)

/-! ### Runs without interleaving -/

section Sequential

variable {S E : Type} (exec : E → (c : C) → S → Option (R c × S))

/-- `Q` holds of the result and the final state of every run of `p` alone from `s`; the environment
answers each section with some `e`, and a section that is not enabled never returns. -/
def wp : Prog C R α → (α → S → Prop) → S → Prop
  | ret a, Q, s => Q a s
  | op c k, Q, s => ∀ e r s', exec e c s = some (r, s') → (k r).wp Q s'

variable {exec}

variable {s s' : S} {p p' : Prog C R α} {Q Q' : α → S → Prop} {c : C} {ε : Type} {f : α → Prog C R β}
  {k : R c → Prog C R α} {r : R c} {es : List E} {x : ExceptT ε (Prog C R) α} {I : S → Prop} {e : E}

lemma wp_bind {Q : β → S → Prop} :
    (p.bind f).wp exec Q s ↔ p.wp exec (fun a s => (f a).wp exec Q s) s := by
  induction p generalizing s with
  | ret a => rfl
  | op c k ih =>
    simp only [bind, wp]
    exact forall_congr' fun e => forall_congr' fun r => forall_congr' fun s' => forall_congr' fun _ => ih r

lemma wp_mono (hQ : ∀ a s, Q a s → Q' a s) (h : p.wp exec Q s) : p.wp exec Q' s := by
  induction p generalizing s with
  | ret a => exact hQ a s h
  | op c k ih => exact fun e r s' he => ih r (h e r s' he)

lemma wp_of_forall (h : ∀ a s, Q a s) : p.wp exec Q s := by
  induction p generalizing s with
  | ret a => exact h a s
  | op c k ih => exact fun _ r _ _ => ih r

lemma wp_callBind {f : R c → Prog C R β} {Q : β → S → Prop}
    (h : ∀ e r s', exec e c s = some (r, s') → (f r).wp exec Q s') :
    ((call c).bind f).wp exec Q s :=
  h

/-- The bind of fallible programs: an error ends the program. -/
lemma wp_bindExcept {f : α → ExceptT ε (Prog C R) β} {Q : Except ε β → S → Prop}
    (h : x.run.wp exec (fun r s => match r with
      | .ok a => (f a).run.wp exec Q s
      | .error e => Q (.error e) s) s) : (x >>= f).run.wp exec Q s := by
  refine wp_bind.2 (wp_mono (fun r s hr => ?_) h)
  cases r with
  | ok a => exact hr
  | error e => exact hr

lemma wp_lift {Q : Except ε α → S → Prop} (h : p.wp exec (fun a s => Q (.ok a) s) s) :
    (ExceptT.lift p : ExceptT ε (Prog C R) α).run.wp exec Q s :=
  wp_bind.2 h

lemma wp_forM (f : α → Prog C R PUnit) (l : List α)
    (hf : ∀ a ∈ l, ∀ s, I s → (f a).wp exec (fun _ s => I s) s) (hs : I s) :
    (l.forM f).wp exec (fun _ s => I s) s := by
  induction l generalizing s with
  | nil => exact hs
  | cons a l ih =>
    refine wp_bind.2 (wp_mono (fun _ s hs => ?_) (hf a (.head _) s hs))
    exact ih (fun b hb => hf b (.tail _ hb)) hs

lemma wp_restrict {E' : Type} {exec' : E' → (c : C) → S → Option (R c × S)}
    (hexec : ∀ e c s x, exec' e c s = some x → ∃ e', exec e' c s = some x) (h : p.wp exec Q s) :
    p.wp exec' Q s := by
  induction p generalizing s with
  | ret a => exact h
  | op c k ih =>
    intro e r s' he
    obtain ⟨e', he'⟩ := hexec e c s _ he
    exact ih r (h e' r s' he')

/-- The runs of two programs, each alone from a state of its own, end in the same results and states. -/
def SameRuns (exec : E → (c : C) → S → Option (R c × S)) (p : Prog C R α) (s : S) (p' : Prog C R α)
    (s' : S) : Prop :=
  ∀ Q, p.wp exec Q s ↔ p'.wp exec Q s'

lemma SameRuns.refl (p : Prog C R α) (s : S) : SameRuns exec p s p s := fun _ => Iff.rfl

lemma SameRuns.trans {p'' : Prog C R α} {s'' : S} (h : SameRuns exec p s p' s')
    (h' : SameRuns exec p' s' p'' s'') : SameRuns exec p s p'' s'' :=
  fun Q => (h Q).trans (h' Q)

lemma SameRuns.symm (h : SameRuns exec p s p' s') : SameRuns exec p' s' p s :=
  fun Q => (h Q).symm

lemma SameRuns.bind (h : SameRuns exec p s p' s') (f : α → Prog C R β) :
    SameRuns exec (p.bind f) s (p'.bind f) s' :=
  fun _ => wp_bind.trans ((h _).trans wp_bind.symm)

lemma SameRuns.section (hsome : ∃ e, exec e c s = some (r, s'))
    (hexec : ∀ e x, exec e c s = some x → x = (r, s')) :
    SameRuns exec (op c k) s (k r) s' := by
  intro Q
  constructor
  · intro h
    obtain ⟨e, he⟩ := hsome
    exact h e r s' he
  · intro h e r' s'' he
    obtain ⟨rfl, rfl⟩ := Prod.mk.inj (hexec e _ he)
    exact h

/-- One run of `p` alone, with the answers of the environment. -/
def run (exec : E → (c : C) → S → Option (R c × S)) : Prog C R α → List E → S → Option (α × S)
  | ret a, [], s => some (a, s)
  | op c k, e :: es, s => (exec e c s).bind fun rs => (k rs.1).run exec es rs.2
  | _, _, _ => none

lemma run_op {out : α × S} (h : (op c k).run exec es s = some out) :
    ∃ e es' r s₁, es = e :: es' ∧ exec e c s = some (r, s₁) ∧
      (k r).run exec es' s₁ = some out := by
  cases es with
  | nil => cases h
  | cons e es =>
    obtain ⟨⟨r, s₁⟩, he, hrest⟩ := Option.bind_eq_some_iff.1 h
    exact ⟨e, es, r, s₁, rfl, he, hrest⟩

lemma wp_run (h : p.wp exec Q s) {a : α} (hrun : p.run exec es s = some (a, s')) : Q a s' := by
  induction p generalizing es s with
  | ret b =>
    cases es with
    | nil =>
      cases hrun
      exact h
    | cons e es => cases hrun
  | op c k ih =>
    obtain ⟨e, es', r, s₁, rfl, he, hrest⟩ := run_op hrun
    exact ih r (h e r s₁ he) hrest

/-- No run of `p` alone from `s` performs a section that is `bad`, and `Q` holds at the end of those
that return. -/
def avoids (exec : E → (c : C) → S → Option (R c × S)) (bad : C → Prop) :
    Prog C R α → (α → S → Prop) → S → Prop
  | ret a, Q, s => Q a s
  | op c k, Q, s => ¬ bad c ∧ ∀ e r s', exec e c s = some (r, s') → (k r).avoids exec bad Q s'

/-- Some run of `p` alone from `s` returns, and `Q` holds at its end. -/
def may (exec : E → (c : C) → S → Option (R c × S)) : Prog C R α → (α → S → Prop) → S → Prop
  | ret a, Q, s => Q a s
  | op c k, Q, s => ∃ e r s', exec e c s = some (r, s') ∧ (k r).may exec Q s'

variable {bad : C → Prop}

lemma avoids_bind {Q : β → S → Prop} :
    (p.bind f).avoids exec bad Q s ↔
      p.avoids exec bad (fun a s => (f a).avoids exec bad Q s) s := by
  induction p generalizing s with
  | ret a => rfl
  | op c k ih =>
    simp only [bind, avoids]
    exact and_congr_right fun _ => forall_congr' fun e => forall_congr' fun r =>
      forall_congr' fun s' => forall_congr' fun _ => ih r

lemma avoids_mono (hQ : ∀ a s, Q a s → Q' a s) (h : p.avoids exec bad Q s) : p.avoids exec bad Q' s := by
  induction p generalizing s with
  | ret a => exact hQ a s h
  | op c k ih => exact ⟨h.1, fun e r s' he => ih r (h.2 e r s' he)⟩

lemma avoids_callBind {f : R c → Prog C R β} {Q : β → S → Prop} :
    ((call c).bind f).avoids exec bad Q s ↔
      ¬ bad c ∧ ∀ e r s', exec e c s = some (r, s') → (f r).avoids exec bad Q s' :=
  .rfl

lemma avoids_step {f : R c → Prog C R β} {Q : β → S → Prop} (h : ((call c).bind f).avoids exec bad Q s)
    (e : E) (he : exec e c s = some (r, s')) :
    (f r).avoids exec bad Q s' :=
  h.2 e r s' he

lemma avoids_bindExcept {f : α → ExceptT ε (Prog C R) β} {Q : Except ε β → S → Prop} :
    (x >>= f).run.avoids exec bad Q s ↔ x.run.avoids exec bad (fun r s => match r with
      | .ok a => (f a).run.avoids exec bad Q s
      | .error e => Q (.error e) s) s := by
  have hresult : ∀ (r : Except ε α) s, (ExceptT.bindCont f r).avoids exec bad Q s ↔ (match r with
      | .ok a => (f a).run.avoids exec bad Q s
      | .error e => Q (.error e) s) := by
    intro r s
    cases r with
    | ok a => rfl
    | error e => rfl
  constructor
  · exact fun h => avoids_mono (fun r s hr => (hresult r s).1 hr) (avoids_bind.1 h)
  · exact fun h => avoids_bind.2 (avoids_mono (fun r s hr => (hresult r s).2 hr) h)

lemma avoids_lift {Q : Except ε α → S → Prop} :
    (ExceptT.lift p : ExceptT ε (Prog C R) α).run.avoids exec bad Q s ↔
      p.avoids exec bad (fun a s => Q (.ok a) s) s :=
  avoids_bind

lemma avoids_collect (f : α → Prog C R β) (l : List α)
    (hf : ∀ a ∈ l, ∀ s, I s → (f a).avoids exec bad (fun _ s => I s) s) (hs : I s) :
    (collect f l).avoids exec bad (fun _ s => I s) s := by
  induction l generalizing s with
  | nil => exact hs
  | cons a l ih =>
    refine avoids_bind.2 (avoids_mono (fun b s hs => ?_) (hf a (.head _) s hs))
    exact avoids_bind.2 (ih (fun a ha => hf a (.tail _ ha)) hs)

open Classical in
/-- The sections of a program among other tasks: before each of them the others change the state as
`rely` says, and it is followed only from the states that `guard` allows. -/
noncomputable def among (exec : E → (c : C) → S → Option (R c × S)) (rely : S → S → Prop)
    (guard : C → S → Prop) (e : E × S) (c : C) (s : S) : Option (R c × S) :=
  if rely s e.2 ∧ guard c e.2 then exec e.1 c e.2 else none

lemma among_eq_some {rely : S → S → Prop} {guard : C → S → Prop} {e : E × S} {x : R c × S} :
    among exec rely guard e c s = some x ↔
      (rely s e.2 ∧ guard c e.2) ∧ exec e.1 c e.2 = some x := by
  unfold among
  split
  · rename_i h
    exact (and_iff_right h).symm
  · rename_i h
    exact iff_of_false nofun fun hx => h hx.1

lemma may_bind {Q : β → S → Prop} :
    (p.bind f).may exec Q s ↔ p.may exec (fun a s => (f a).may exec Q s) s := by
  induction p generalizing s with
  | ret a => rfl
  | op c k ih =>
    simp only [bind, may]
    exact exists_congr fun e => exists_congr fun r => exists_congr fun s' =>
      and_congr_right fun _ => ih r

lemma may_mono (hQ : ∀ a s, Q a s → Q' a s) (h : p.may exec Q s) : p.may exec Q' s := by
  induction p generalizing s with
  | ret a => exact hQ a s h
  | op c k ih =>
    obtain ⟨e, r, s', he, h⟩ := h
    exact ⟨e, r, s', he, ih r h⟩

/-- What holds at the end of all runs holds at the end of one that exists. -/
lemma avoids_may (h : p.avoids exec bad Q s) (h' : p.may exec Q' s) : ∃ a s', Q a s' ∧ Q' a s' := by
  induction p generalizing s with
  | ret a => exact ⟨a, s, h, h'⟩
  | op c k ih =>
    obtain ⟨e, r, s', he, h'⟩ := h'
    exact ih r (h.2 e r s' he) h'

end Sequential

/-! ### Disciplines -/

section Monitor

variable {Γ : Type} (next : Γ → (c : C) → R c → Γ) (ok : Γ → C → Prop)

/-- From the monitor state `γ`, every section of `p` is allowed when it comes, and `post` holds of the
monitor state and the result at the end. -/
def Meets (post : Γ → α → Prop) : Γ → Prog C R α → Prop
  | γ, ret a => post γ a
  | γ, op c k => ok γ c ∧ ∀ r, (k r).Meets post (next γ c r)

variable {next ok}

variable {γ : Γ} {p : Prog C R α} {post post' : Γ → α → Prop} {ε : Type}

lemma Meets.bind {f : α → Prog C R β} {post' : Γ → β → Prop} (h : p.Meets next ok post γ)
    (hf : ∀ γ a, post γ a → (f a).Meets next ok post' γ) : (p.bind f).Meets next ok post' γ := by
  induction p generalizing γ with
  | ret a => exact hf γ a h
  | op c k ih => exact ⟨h.1, fun r => ih r (h.2 r)⟩

lemma Meets.callBind {c : C} {f : R c → Prog C R β} {post : Γ → β → Prop} (hok : ok γ c)
    (hf : ∀ r, (f r).Meets next ok post (next γ c r)) : ((call c).bind f).Meets next ok post γ :=
  ⟨hok, hf⟩

lemma Meets.mono (h : p.Meets next ok post γ) (hpost : ∀ γ a, post γ a → post' γ a) :
    p.Meets next ok post' γ := by
  induction p generalizing γ with
  | ret a => exact hpost γ a h
  | op c k ih => exact ⟨h.1, fun r => ih r (h.2 r)⟩

lemma meets_true (p : Prog C R α) : p.Meets next (fun _ _ => True) (fun _ _ => True) γ := by
  induction p generalizing γ with
  | ret a => trivial
  | op c k ih => exact ⟨trivial, fun r => ih r⟩

lemma Meets.and {ok' : Γ → C → Prop} (h : p.Meets next ok post γ) (h' : p.Meets next ok' post' γ) :
    p.Meets next (fun γ c => ok γ c ∧ ok' γ c) (fun γ a => post γ a ∧ post' γ a) γ := by
  induction p generalizing γ with
  | ret a => exact ⟨h, h'⟩
  | op c k ih => exact ⟨⟨h.1, h'.1⟩, fun r => ih r (h.2 r) (h'.2 r)⟩

/-- What the allowed sections keep is kept over a run without interleaving. -/
lemma Meets.wp {S E : Type} {exec : E → (c : C) → S → Option (R c × S)} {I : S → Γ → Prop}
    (hstep : ∀ e c r s s' γ, I s γ → ok γ c → exec e c s = some (r, s') → I s' (next γ c r))
    (h : p.Meets next ok post γ) {s : S} (hs : I s γ) :
    p.wp exec (fun a s' => ∃ γ', I s' γ' ∧ post γ' a) s := by
  induction p generalizing γ s with
  | ret a => exact ⟨γ, hs, h⟩
  | op c k ih => exact fun e r s' he => ih r (h.2 r) (hstep e c r s s' γ hs h.1 he)

/-- A postcondition of a fallible program, by its outcome. -/
def outcome {ε : Type} (M : Γ → α → Prop) (N : Γ → ε → Prop) : Γ → Except ε α → Prop
  | γ, .ok a => M γ a
  | γ, .error e => N γ e

lemma Meets.bindExcept {x : ExceptT ε (Prog C R) α} {f : α → ExceptT ε (Prog C R) β} {M : Γ → α → Prop}
    {post : Γ → Except ε β → Prop} (h : x.run.Meets next ok (outcome M fun γ e => post γ (.error e)) γ)
    (hf : ∀ γ a, M γ a → (f a).run.Meets next ok post γ) :
    (x >>= f).run.Meets next ok post γ := by
  refine Meets.bind h fun γ r hr => ?_
  cases r with
  | ok a => exact hf γ a hr
  | error e => exact hr

/-- A loop in a fallible program, with an invariant on the monitor state. -/
lemma Meets.forMExcept {inv : Γ → Prop} (f : α → ExceptT ε (Prog C R) PUnit) (l : List α) (hγ : inv γ)
    (hf : ∀ a ∈ l, ∀ γ, inv γ → (f a).run.Meets next ok (fun γ _ => inv γ) γ) :
    (l.forM f).run.Meets next ok (fun γ _ => inv γ) γ := by
  induction l generalizing γ with
  | nil => exact hγ
  | cons a l ih =>
    refine Meets.bind (hf a (.head _) γ hγ) fun γ' result h' => ?_
    cases result with
    | ok _ => exact ih h' fun b hb => hf b (.tail _ hb)
    | error e => exact h'

end Monitor

/-! ### The footprint of a program -/

section Within

/-- Every section of `p` is `good`, whatever the responses, and `post` holds of the result. -/
def Within (good : C → Prop) (post : α → Prop) : Prog C R α → Prop
  | ret a => post a
  | op c k => good c ∧ ∀ r, (k r).Within good post

/-- A postcondition of what a fallible program returns. -/
def Returns {ε : Type} (M : α → Prop) : Except ε α → Prop
  | .ok a => M a
  | .error _ => True

/-- A fallible program that can only return `a`. -/
abbrev Yields {ε : Type} (a : α) : Except ε α → Prop := Returns fun x => x = a

variable {good : C → Prop}

variable {p : Prog C R α} {post M : α → Prop} {ε S E : Type} {s : S} {x : ExceptT ε (Prog C R) α}
  {f : α → ExceptT ε (Prog C R) β} {bad : C → Prop} {I : S → Prop}

lemma Within.bind {f : α → Prog C R β} {post : β → Prop} (h : p.Within good M)
    (hf : ∀ a, M a → (f a).Within good post) : (p.bind f).Within good post := by
  induction p with
  | ret a => exact hf a h
  | op c k ih => exact ⟨h.1, fun r => ih r (h.2 r)⟩

lemma Within.callBind {c : C} {f : R c → Prog C R β} {post : β → Prop} (hc : good c)
    (hf : ∀ r, (f r).Within good post) : ((call c).bind f).Within good post :=
  ⟨hc, hf⟩

lemma Within.mono {good' : C → Prop} {post' : α → Prop} (h : p.Within good post)
    (hgood : ∀ c, good c → good' c) (hpost : ∀ a, post a → post' a) :
    p.Within good' post' := by
  induction p with
  | ret a => exact hpost a h
  | op c k ih => exact ⟨hgood c h.1, fun r => ih r (h.2 r)⟩

/-- A postcondition that says nothing of failures. -/
class Lenient (post : Except ε β → Prop) : Prop where
  error : ∀ e, post (.error e)

instance : Lenient fun _ : Except ε β => True := ⟨fun _ => trivial⟩

instance {N : β → Prop} : Lenient (Returns N : Except ε β → Prop) := ⟨fun _ => trivial⟩

lemma Within.bindReturns {post : Except ε β → Prop} [Lenient post] (h : x.run.Within good (Returns M))
    (hf : ∀ a, M a → (f a).run.Within good post) : (x >>= f).run.Within good post := by
  refine Within.bind h fun r hr => ?_
  cases r with
  | ok a => exact hf a hr
  | error e => exact Lenient.error e

lemma Within.bindExcept {post : Except ε β → Prop} [Lenient post] (h : x.run.Within good fun _ => True)
    (hf : ∀ a, (f a).run.Within good post) : (x >>= f).run.Within good post :=
  bindReturns (M := fun _ => True) (h.mono (fun _ hc => hc) fun r _ => by cases r <;> trivial)
    fun a _ => hf a

lemma Within.lift (h : p.Within good M) :
    (ExceptT.lift p : ExceptT ε (Prog C R) α).run.Within good (Returns M) :=
  h.bind fun _ ha => ha

lemma Within.collect {N : β → Prop} (f : α → Prog C R β) (l : List α)
    (hf : ∀ a ∈ l, (f a).Within good N) :
    (Prog.collect f l).Within good fun bs => ∀ b ∈ bs, N b := by
  induction l with
  | nil => exact List.forall_mem_nil _
  | cons a l ih =>
    refine Within.bind (hf a (.head _)) fun b hb => ?_
    refine Within.bind (ih fun a ha => hf a (.tail _ ha)) fun bs hbs => ?_
    exact List.forall_mem_cons.2 ⟨hb, hbs⟩

lemma Within.forMExcept (f : α → ExceptT ε (Prog C R) PUnit) (l : List α)
    (hf : ∀ a, (f a).run.Within good fun _ => True) :
    (l.forM f).run.Within good fun _ => True := by
  induction l with
  | nil => trivial
  | cons a l ih => exact Within.bindExcept (hf a) fun _ => ih

/-- A program whose sections the monitor always allows, and which keep `I`. -/
lemma Within.meets {Γ : Type} {next : Γ → (c : C) → R c → Γ} {ok : Γ → C → Prop} {I : Γ → Prop}
    (hok : ∀ γ c, I γ → good c → ok γ c) (hnext : ∀ γ c r, I γ → good c → I (next γ c r))
    (h : p.Within good post) {γ : Γ} (hγ : I γ) :
    p.Meets next ok (fun γ a => I γ ∧ post a) γ := by
  induction p generalizing γ with
  | ret a => exact ⟨hγ, h⟩
  | op c k ih => exact ⟨hok γ c hγ h.1, fun r => ih r (h.2 r) (hnext γ c r hγ h.1)⟩

/-- Sections that keep an invariant keep it over a run without interleaving. -/
lemma Within.wp {S E : Type} {exec : E → (c : C) → S → Option (R c × S)} {I : S → Prop}
    (hstep : ∀ c e s r s', good c → I s → exec e c s = some (r, s') → I s') {p : Prog C R α}
    {post : α → Prop} (h : p.Within good post) {s : S} (hs : I s) :
    p.wp exec (fun a s => I s ∧ post a) s := by
  induction p generalizing s with
  | ret a => exact ⟨hs, h⟩
  | op c k ih => exact fun e r s' he => ih r (h.2 r) (hstep c e s r s' h.1 hs he)

lemma Within.avoids {exec : E → (c : C) → S → Option (R c × S)} (hgood : ∀ c, good c → ¬ bad c)
    (hstep : ∀ c e s r s', good c → I s → exec e c s = some (r, s') → I s') (h : p.Within good post)
    (hs : I s) :
    p.avoids exec bad (fun a s => I s ∧ post a) s := by
  induction p generalizing s with
  | ret a => exact ⟨hs, h⟩
  | op c k ih =>
    exact ⟨hgood c h.1, fun e r s' he => ih r (h.2 r) (hstep c e s r s' h.1 hs he)⟩

lemma Within.avoids_of_wp {exec : E → (c : C) → S → Option (R c × S)} (hgood : ∀ c, good c → ¬ bad c)
    (h : p.Within good post) {Q : α → S → Prop} (hwp : p.wp exec Q s) : p.avoids exec bad Q s := by
  induction p generalizing s with
  | ret a => exact hwp
  | op c k ih => exact ⟨hgood c h.1, fun e r s' he => ih r (h.2 r) (hwp e r s' he)⟩

/-- Sections that are always enabled and keep an invariant. -/
lemma Within.may {exec : E → (c : C) → S → Option (R c × S)}
    (hstep : ∀ c s, good c → I s → ∃ e r s', exec e c s = some (r, s') ∧ I s') (h : p.Within good post)
    (hs : I s) :
    p.may exec (fun a s => I s ∧ post a) s := by
  induction p generalizing s with
  | ret a => exact ⟨hs, h⟩
  | op c k ih =>
    obtain ⟨e, r, s', he, hs'⟩ := hstep c s h.1 hs
    exact ⟨e, r, s', he, ih r (h.2 r) hs'⟩

end Within

/-! ### Results under given responses -/

section Under

/-- If every response is one of `answers`, the result satisfies `post`. -/
def Under (answers : (c : C) → R c → Prop) (post : α → Prop) : Prog C R α → Prop
  | ret a => post a
  | op c k => ∀ r, answers c r → (k r).Under answers post

variable {answers : (c : C) → R c → Prop}

variable {p : Prog C R α} {ε : Type} {N : ε → Prop}

lemma Under.bind {f : α → Prog C R β} {M : α → Prop} {post : β → Prop} (h : p.Under answers M)
    (hf : ∀ a, M a → (f a).Under answers post) :
    (p.bind f).Under answers post := by
  induction p with
  | ret a => exact hf a h
  | op c k ih => exact fun r hr => ih r (h r hr)

lemma under_true (p : Prog C R α) : p.Under answers fun _ => True := by
  induction p with
  | ret a => trivial
  | op c k ih => exact fun r _ => ih r

/-- A postcondition of the errors of a fallible program. -/
def Fails {ε : Type} (N : ε → Prop) : Except ε α → Prop
  | .ok _ => True
  | .error e => N e

lemma Under.bindExcept {x : ExceptT ε (Prog C R) α} {f : α → ExceptT ε (Prog C R) β}
    (hx : x.run.Under answers (Fails N)) (hf : ∀ a, (f a).run.Under answers (Fails N)) :
    (x >>= f).run.Under answers (Fails N) := by
  refine Under.bind hx fun r hr => ?_
  cases r with
  | ok a => exact hf a
  | error e => exact hr

lemma under_lift (p : Prog C R α) :
    (ExceptT.lift p : ExceptT ε (Prog C R) α).run.Under answers (Fails N) :=
  Under.bind (under_true p) fun _ _ => trivial

lemma Under.wp {S E : Type} {exec : E → (c : C) → S → Option (R c × S)} {post : α → Prop}
    (h : p.Under answers post) (hanswers : ∀ e c r s s', exec e c s = some (r, s') → answers c r) (s : S) :
    p.wp exec (fun a _ => post a) s := by
  induction p generalizing s with
  | ret a => exact h
  | op c k ih => exact fun e r s' he => ih r (h r (hanswers e c r s s' he)) s'

/-- A monitor that is in `K` only as long as every response is one of `answers`. -/
lemma Meets.under {Γ : Type} {next : Γ → (c : C) → R c → Γ} {ok : Γ → C → Prop} {K : Γ → Prop}
    (hK : ∀ γ c r, K (next γ c r) → K γ ∧ answers c r) {post : Γ → α → Prop} {post' : α → Prop} {γ : Γ}
    (h : p.Meets next ok post γ) (hunder : K γ → p.Under answers post') :
    p.Meets next ok (fun γ a => post γ a ∧ (K γ → post' a)) γ := by
  induction p generalizing γ with
  | ret a => exact ⟨h, hunder⟩
  | op c k ih =>
    refine ⟨h.1, fun r => ih r (h.2 r) fun hnext => ?_⟩
    obtain ⟨hγ, hr⟩ := hK γ c r hnext
    exact hunder hγ r hr

end Under

/-! ### Properties that sequencing keeps -/

/-- A property of programs that holds of every return and is kept by sequencing. -/
structure Discipline (C : Type) (R : C → Type) where
  holds : {α : Type} → Prog C R α → Prop
  ret : ∀ {α : Type} (a : α), holds (.ret a)
  bind : ∀ {α β : Type} {p : Prog C R α} {f : α → Prog C R β}, holds p → (∀ a, holds (f a)) →
    holds (p.bind f)

namespace Discipline

/-- Every section is `good`. -/
def within (R : C → Type) (good : C → Prop) : Discipline C R where
  holds p := p.Within good fun _ => True
  ret _ := trivial
  bind hp hf := Within.bind hp fun a _ => hf a

/-- The sections are allowed by the monitor from every state in `I`, and the last state is in `I`. -/
def monitor {Γ : Type} (next : Γ → (c : C) → R c → Γ) (ok : Γ → C → Prop) (I : Γ → Prop) :
    Discipline C R where
  holds p := ∀ γ, I γ → p.Meets next ok (fun γ _ => I γ) γ
  ret _ _ hγ := hγ
  bind hp hf γ hγ := Meets.bind (hp γ hγ) fun γ a hγ => hf a γ hγ

variable (D : Discipline C R) {ε : Type}

lemma forM (f : α → Prog C R PUnit) (l : List α) (hf : ∀ a, D.holds (f a)) :
    D.holds (l.forM f) := by
  induction l with
  | nil => exact D.ret _
  | cons a l ih => exact D.bind (hf a) fun _ => ih

lemma collect (f : α → Prog C R β) (l : List α) (hf : ∀ a, D.holds (f a)) :
    D.holds (Prog.collect f l) := by
  induction l with
  | nil => exact D.ret _
  | cons a l ih => exact D.bind (hf a) fun _ => D.bind ih fun _ => D.ret _

lemma bindExcept {x : ExceptT ε (Prog C R) α} {f : α → ExceptT ε (Prog C R) β}
    (hx : D.holds x.run) (hf : ∀ a, D.holds (f a).run) : D.holds (x >>= f).run := by
  refine D.bind hx fun r => ?_
  cases r with
  | ok a => exact hf a
  | error e => exact D.ret _

lemma lift {p : Prog C R α} (hp : D.holds p) : D.holds (ExceptT.lift p : ExceptT ε (Prog C R) α).run :=
  D.bind hp fun _ => D.ret _

lemma forMExcept (f : α → ExceptT ε (Prog C R) PUnit) (l : List α) (hf : ∀ a, D.holds (f a).run) :
    D.holds (l.forM f).run := by
  induction l with
  | nil => exact D.ret _
  | cons a l ih => exact D.bindExcept (hf a) fun _ => ih

end Discipline

end Prog
