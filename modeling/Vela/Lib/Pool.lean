import Vela.Lib.Prog

/-!
# Tasks over a shared state

Any number of tasks run programs over one shared state, one section of one task at a time.  The
scheduler's choices and the environment's answers are the moves of a run.

* `Pool.Reachable` — the configurations of the runs in which every move meets a condition;
* `Pool.Reachable.invariant` — the rule for all of them: what every program may do is said once by a
  monitor (`Prog.Meets`); an invariant over the shared state and the monitor states is then kept if
  it is kept by every section that the monitor allows;
* `Pool.Observed` — the same runs with a history beside them, and its rule.
-/

namespace Pool

/-- The parameters of a pool: how a section executes, what a request runs and when it may start, and
the monitor. -/
structure Spec (C : Type) (R : C → Type) (S E Q Γ : Type) where
  /-- one section, given the environment's answer; `none` if it has to wait -/
  exec : E → (c : C) → S → Option (R c × S)
  /-- the start of a request on a task; `none` if it may not start there now -/
  accept : ℕ → Q → S → Option S
  body : Q → Prog C R PUnit
  /-- the monitor state of an idle task -/
  start : Γ
  next : Γ → (c : C) → R c → Γ

variable {C : Type} {R : C → Type} {S E Q Γ : Type}

structure Config (C : Type) (R : C → Type) (S Γ : Type) where
  shared : S
  prog : ℕ → Prog C R PUnit
  phase : ℕ → Γ

inductive Move (E Q : Type) where
  /-- an idle task takes a request -/
  | spawn (t : ℕ) (q : Q)
  /-- a task performs its next section -/
  | step (t : ℕ) (e : E)

/-- The section a task is about to perform. -/
def Config.at (cfg : Config C R S Γ) (t : ℕ) : Option C :=
  match cfg.prog t with
  | .ret _ => none
  | .op c _ => some c

/-- What a task is about to do is what its monitor allows; -/
lemma Config.ok_at {Γ' : Type} {cfg : Config C R S Γ} {next : Γ' → (c : C) → R c → Γ'} {ok : Γ' → C → Prop}
    {post : Γ' → PUnit → Prop} {γ : Γ'} {t : ℕ} {c : C} (h : (cfg.prog t).Meets next ok post γ)
    (hat : cfg.at t = some c) : ok γ c := by
  unfold Config.at at hat
  split at hat
  · cases hat
  · rename_i hprog
    cases hat
    rw [hprog] at h
    exact h.1

/-- a task that is idle is done. -/
lemma Config.post_idle {Γ' : Type} {cfg : Config C R S Γ} {next : Γ' → (c : C) → R c → Γ'}
    {ok : Γ' → C → Prop} {done : Γ' → Prop} {γ : Γ'} {t : ℕ}
    (h : (cfg.prog t).Meets next ok (fun γ _ => done γ) γ) (hat : cfg.at t = none) : done γ := by
  unfold Config.at at hat
  split at hat
  · rename_i hprog
    rw [hprog] at h
    exact h
  · cases hat

/-- No request is being served. -/
def Config.Quiet (cfg : Config C R S Γ) : Prop := ∀ t, cfg.at t = none

/-- All tasks idle. -/
def Spec.initial (P : Spec C R S E Q Γ) (s : S) : Config C R S Γ where
  shared := s
  prog _ := .ret ⟨⟩
  phase _ := P.start

def Spec.move (P : Spec C R S E Q Γ) (cfg : Config C R S Γ) : Move E Q → Option (Config C R S Γ)
  | .spawn t q =>
    match cfg.prog t with
    | .op _ _ => none
    | .ret _ =>
      (P.accept t q cfg.shared).map fun s =>
        { shared := s
          prog := Function.update cfg.prog t (P.body q)
          phase := Function.update cfg.phase t P.start }
  | .step t e =>
    match cfg.prog t with
    | .ret _ => none
    | .op c k =>
      (P.exec e c cfg.shared).map fun rs =>
        { shared := rs.2
          prog := Function.update cfg.prog t (k rs.1)
          phase := Function.update cfg.phase t (P.next (cfg.phase t) c rs.1) }

/-- A given run, which stops at a move that fails the check. -/
def Spec.runMoves (P : Spec C R S E Q Γ) (check : Config C R S Γ → Move E Q → Bool)
    (cfg : Config C R S Γ) : List (Move E Q) → Option (Config C R S Γ)
  | [] => some cfg
  | m :: ms =>
    if check cfg m then (P.move cfg m).bind fun cfg => P.runMoves check cfg ms else none

/-- The run of one request by itself. -/
def Spec.runAlone (P : Spec C R S E Q Γ) (cfg : Config C R S Γ) (t : ℕ) (q : Q) (es : List E) :
    Option (Config C R S Γ) :=
  es.foldl (fun cfg e => cfg.bind fun cfg => P.move cfg (.step t e)) (P.move cfg (.spawn t q))

/-- The configurations reached by runs whose moves all meet `guard`. -/
inductive Spec.Reachable (P : Spec C R S E Q Γ) (guard : Config C R S Γ → Move E Q → Prop)
    (init : Config C R S Γ) : Config C R S Γ → Prop
  | refl : P.Reachable guard init init
  | step {cfg cfg' : Config C R S Γ} {m : Move E Q} : P.Reachable guard init cfg → guard cfg m →
      P.move cfg m = some cfg' → P.Reachable guard init cfg'

variable {P : Spec C R S E Q Γ} {cfg init cfg' : Config C R S Γ} {guard : Config C R S Γ → Move E Q → Prop}
  {t : ℕ} {q : Q}

/-- What holds of the other tasks, and of the one that moved. -/
lemma forall_update {φ : ℕ → Γ} {γ : Γ} {P : ℕ → Γ → Prop} (ht : P t γ) (h : ∀ u, P u (φ u)) (u : ℕ) :
    P u (Function.update φ t γ u) :=
  (Function.forall_update_iff φ P).2 ⟨ht, fun u _ => h u⟩ u

/-! ### Inversion of moves -/

lemma Spec.move_spawn (h : P.move cfg (.spawn t q) = some cfg') :
    (∃ a, cfg.prog t = .ret a) ∧ ∃ s, P.accept t q cfg.shared = some s ∧
      cfg' = { shared := s
               prog := Function.update cfg.prog t (P.body q)
               phase := Function.update cfg.phase t P.start } := by
  simp only [Spec.move] at h
  split at h
  · cases h
  · rename_i a ha
    obtain ⟨s, hs, rfl⟩ := Option.map_eq_some_iff.1 h
    exact ⟨⟨a, ha⟩, s, hs, rfl⟩

lemma Spec.move_step {e : E} (h : P.move cfg (.step t e) = some cfg') :
    ∃ c k r s, cfg.prog t = .op c k ∧ P.exec e c cfg.shared = some (r, s) ∧
      cfg' = { shared := s
               prog := Function.update cfg.prog t (k r)
               phase := Function.update cfg.phase t (P.next (cfg.phase t) c r) } := by
  simp only [Spec.move] at h
  split at h
  · cases h
  · rename_i c k hp
    obtain ⟨⟨r, s⟩, hs, rfl⟩ := Option.map_eq_some_iff.1 h
    exact ⟨c, k, r, s, hp, hs, rfl⟩

/-- A given run whose moves pass a check that implies `guard` is a run under `guard`. -/
lemma Spec.reachable_of_runMoves {check : Config C R S Γ → Move E Q → Bool}
    (hcheck : ∀ cfg m, check cfg m = true → guard cfg m) :
    ∀ (ms : List (Move E Q)) {cfg cfg' : Config C R S Γ}, P.Reachable guard init cfg →
      P.runMoves check cfg ms = some cfg' → P.Reachable guard init cfg' := by
  intro ms
  induction ms with
  | nil =>
    intro cfg cfg' hr h
    cases h
    exact hr
  | cons m ms ih =>
    intro cfg cfg' hr h
    simp only [Spec.runMoves] at h
    split at h
    · rename_i hm
      obtain ⟨mid, hmove, hrest⟩ := Option.bind_eq_some_iff.1 h
      exact ih (.step hr (hcheck _ _ hm) hmove) hrest
    · cases h

/-- The result of a computation that succeeds, with what was checked of it. -/
def found {α : Type} {good : α → Prop} [DecidablePred good] :
    (o : Option α) → o.any (fun a => decide (good a)) = true → {a // o = some a ∧ good a}
  | some a, h => ⟨a, rfl, of_decide_eq_true h⟩
  | none, h => nomatch h

/-- The end of a given run. -/
def Spec.reach {good : Config C R S Γ → Prop} [DecidablePred good] (check : Config C R S Γ → Move E Q → Bool)
    (hcheck : ∀ cfg m, check cfg m = true → guard cfg m) (ms : List (Move E Q))
    (h : (P.runMoves check init ms).any (fun cfg => decide (good cfg)) = true) :
    {cfg // P.Reachable guard init cfg ∧ good cfg} :=
  have hrun := (found _ h).2
  ⟨(found _ h).1, reachable_of_runMoves hcheck ms .refl hrun.1, hrun.2⟩

/-- The run of one request, where only the start of requests is guarded. -/
lemma Spec.reachable_of_runAlone {es : List E} (hr : P.Reachable guard init cfg)
    (h : P.runAlone cfg t q es = some cfg') (hspawn : guard cfg (.spawn t q))
    (hstep : ∀ cfg t e, guard cfg (.step t e)) :
    P.Reachable guard init cfg' := by
  have hsteps : ∀ (es : List E) (start : Option (Config C R S Γ)),
      (∀ cfg, start = some cfg → P.Reachable guard init cfg) → ∀ cfg,
      es.foldl (fun cfg e => cfg.bind fun cfg => P.move cfg (.step t e)) start = some cfg →
      P.Reachable guard init cfg := by
    intro es
    induction es with
    | nil => exact fun start hstart cfg h => hstart cfg h
    | cons e es ih =>
      refine fun start hstart cfg h => ih _ (fun mid hmid => ?_) cfg h
      obtain ⟨before, hbefore, hmove⟩ := Option.bind_eq_some_iff.1 hmid
      exact .step (hstart before hbefore) (hstep _ _ _) hmove
  exact hsteps es _ (fun mid hmid => .step hr hspawn hmid) cfg' h

/-- Runs whose moves meet another condition in every configuration they come to. -/
lemma Spec.Reachable.strengthen {guard' : Config C R S Γ → Move E Q → Prop}
    (h : P.Reachable guard init cfg)
    (himp : ∀ cfg m, P.Reachable guard init cfg → guard cfg m → guard' cfg m) :
    P.Reachable guard' init cfg := by
  induction h with
  | refl => exact .refl
  | step hr hguard hmove ih => exact .step ih (himp _ _ hr hguard) hmove

/-- The same configuration under another monitor. -/
def Config.mapPhase {Γ' : Type} (f : Γ → Γ') (cfg : Config C R S Γ) : Config C R S Γ' where
  shared := cfg.shared
  prog := cfg.prog
  phase t := f (cfg.phase t)

/-- The runs do not depend on the monitor that follows them. -/
lemma Spec.Reachable.mapPhase {Γ' : Type} {P' : Spec C R S E Q Γ'} {f : Γ → Γ'}
    (hexec : P'.exec = P.exec) (haccept : P'.accept = P.accept) (hbody : P'.body = P.body)
    (hstart : f P.start = P'.start) (hnext : ∀ γ c r, f (P.next γ c r) = P'.next (f γ) c r)
    (h : P.Reachable guard init cfg) :
    P'.Reachable (fun _ _ => True) (init.mapPhase f) (cfg.mapPhase f) := by
  induction h with
  | refl => exact .refl
  | @step cfg cfg' m _ _ hmove ih =>
    have hphase : ∀ t γ, (fun u => f (Function.update cfg.phase t γ u)) =
        Function.update (fun u => f (cfg.phase u)) t (f γ) := by
      intro t γ
      funext u
      by_cases hu : u = t
      · subst hu
        simp
      · simp [hu]
    refine .step ih trivial (m := m) ?_
    cases m with
    | spawn t q =>
      obtain ⟨⟨a, ha⟩, s, hs, rfl⟩ := Spec.move_spawn hmove
      simp only [Spec.move, Config.mapPhase, ha, haccept, hs, Option.map_some, hbody, hphase, hstart]
    | step t e =>
      obtain ⟨c, k, r, s, hp, hs, rfl⟩ := Spec.move_step hmove
      simp only [Spec.move, Config.mapPhase, hp, hexec, hs, Option.map_some, hphase, hnext]

def Move.task : Move E Q → ℕ
  | .spawn t _ | .step t _ => t

lemma Spec.Reachable.untouched (hguard : ∀ cfg m, guard cfg m → m.task ≠ t)
    (h : P.Reachable guard init cfg) : cfg.prog t = init.prog t ∧ cfg.phase t = init.phase t := by
  induction h with
  | refl => exact ⟨rfl, rfl⟩
  | @step cfg cfg' m hr hm hmove ih =>
    have htask : t ≠ m.task := (hguard cfg m hm).symm
    cases m with
    | spawn u q =>
      obtain ⟨-, s, -, rfl⟩ := Spec.move_spawn hmove
      simpa [show t ≠ u from htask] using ih
    | step u e =>
      obtain ⟨c, k, r, s, -, -, rfl⟩ := Spec.move_step hmove
      simpa [show t ≠ u from htask] using ih

lemma Spec.Reachable.solo (hguard : ∀ cfg m, guard cfg m → m.task = t) (h : P.Reachable guard init cfg)
    {u : ℕ} (hu : u ≠ t) :
    cfg.prog u = init.prog u ∧ cfg.phase u = init.phase u :=
  h.untouched fun cfg m hm => by
    rw [hguard cfg m hm]
    exact hu.symm

/-- A run that only moves some tasks, all of which are idle in the end. -/
lemma Spec.Reachable.quiet {tasks : List ℕ} (hguard : ∀ cfg m, guard cfg m → m.task ∈ tasks)
    (h : P.Reachable guard init cfg) (hinit : init.Quiet) (hidle : ∀ t ∈ tasks, cfg.at t = none) :
    cfg.Quiet := by
  intro t
  by_cases ht : t ∈ tasks
  · exact hidle t ht
  · have hnever : ∀ cfg m, guard cfg m → m.task ≠ t := by
      rintro cfg m hm rfl
      exact ht (hguard cfg m hm)
    have hprog := (h.untouched hnever).1
    have hstart := hinit t
    unfold Config.at at hstart ⊢
    rwa [hprog]

/-- From some task on, none has had a request. -/
lemma Spec.Reachable.idle (hinit : ∀ t, init.at t = none) (h : P.Reachable guard init cfg) :
    ∃ n, ∀ t, n ≤ t → cfg.at t = none := by
  induction h with
  | refl => exact ⟨0, fun t _ => hinit t⟩
  | @step cfg cfg' m _ _ hmove ih =>
    obtain ⟨n, hn⟩ := ih
    refine ⟨max n (m.task + 1), fun t ht => ?_⟩
    have hne : t ≠ m.task := by omega
    rw [← hn t (by omega)]
    unfold Config.at
    cases m with
    | spawn u q =>
      obtain ⟨-, s, -, rfl⟩ := Spec.move_spawn hmove
      simp only [Function.update_of_ne (show t ≠ u from hne)]
    | step u e =>
      obtain ⟨c, k, r, s, -, -, rfl⟩ := Spec.move_step hmove
      simp only [Function.update_of_ne (show t ≠ u from hne)]

/-! ### Runs with a history -/

section History

variable {H : Type}

/-- A move of a run that is followed by a history: the history sees every section, the task that
performs it with its monitor state, and the shared state before and after. -/
def Spec.observedMove (P : Spec C R S E Q Γ) (observe : H → ℕ → Γ → S → (c : C) → R c → S → H)
    (x : Config C R S Γ × H) : Move E Q → Option (Config C R S Γ × H)
  | .spawn t q => (P.move x.1 (.spawn t q)).map fun cfg => (cfg, x.2)
  | .step t e =>
    match x.1.prog t with
    | .ret _ => none
    | .op c k =>
      (P.exec e c x.1.shared).map fun rs =>
        ({ shared := rs.2
           prog := Function.update x.1.prog t (k rs.1)
           phase := Function.update x.1.phase t (P.next (x.1.phase t) c rs.1) },
          observe x.2 t (x.1.phase t) x.1.shared c rs.1 rs.2)

/-- A given run with its history, which stops at a move that fails the check. -/
def Spec.runObserved (P : Spec C R S E Q Γ) (observe : H → ℕ → Γ → S → (c : C) → R c → S → H)
    (check : Config C R S Γ → Move E Q → Bool) (x : Config C R S Γ × H) :
    List (Move E Q) → Option (Config C R S Γ × H)
  | [] => some x
  | m :: ms =>
    if check x.1 m then (P.observedMove observe x m).bind fun x => P.runObserved observe check x ms
    else none

/-- The configurations and histories of the runs whose moves all meet `guard`. -/
inductive Spec.Observed (P : Spec C R S E Q Γ) (observe : H → ℕ → Γ → S → (c : C) → R c → S → H)
    (guard : Config C R S Γ → Move E Q → Prop) (init : Config C R S Γ × H) :
    Config C R S Γ × H → Prop
  | refl : P.Observed observe guard init init
  | step {x x' : Config C R S Γ × H} {m : Move E Q} : P.Observed observe guard init x →
      guard x.1 m → P.observedMove observe x m = some x' → P.Observed observe guard init x'

/-- The same, where the condition on the moves may speak of the history. -/
inductive Spec.Recorded (P : Spec C R S E Q Γ) (observe : H → ℕ → Γ → S → (c : C) → R c → S → H)
    (guard : Config C R S Γ × H → Move E Q → Prop) (init : Config C R S Γ × H) :
    Config C R S Γ × H → Prop
  | refl : P.Recorded observe guard init init
  | step {x x' : Config C R S Γ × H} {m : Move E Q} : P.Recorded observe guard init x →
      guard x m → P.observedMove observe x m = some x' → P.Recorded observe guard init x'

variable {P : Spec C R S E Q Γ} {observe : H → ℕ → Γ → S → (c : C) → R c → S → H}
  {init x : Config C R S Γ × H} {guard : Config C R S Γ → Move E Q → Prop}

lemma Spec.Observed.recorded (h : P.Observed observe guard init x) :
    P.Recorded observe (fun x m => guard x.1 m) init x := by
  induction h with
  | refl => exact .refl
  | step _ hguard hmove ih => exact .step ih hguard hmove

/-- A given run with its history, which stops at a move that fails the check. -/
def Spec.runRecorded (P : Spec C R S E Q Γ) (observe : H → ℕ → Γ → S → (c : C) → R c → S → H)
    (check : Config C R S Γ × H → Move E Q → Bool) (x : Config C R S Γ × H) :
    List (Move E Q) → Option (Config C R S Γ × H)
  | [] => some x
  | m :: ms =>
    if check x m then (P.observedMove observe x m).bind fun x => P.runRecorded observe check x ms
    else none

lemma Spec.recorded_of_run {guard : Config C R S Γ × H → Move E Q → Prop}
    {check : Config C R S Γ × H → Move E Q → Bool} (hcheck : ∀ x m, check x m = true → guard x m) :
    ∀ (ms : List (Move E Q)) {x x' : Config C R S Γ × H}, P.Recorded observe guard init x →
      P.runRecorded observe check x ms = some x' → P.Recorded observe guard init x' := by
  intro ms
  induction ms with
  | nil =>
    intro x x' hx h
    cases h
    exact hx
  | cons m ms ih =>
    intro x x' hx h
    simp only [Spec.runRecorded] at h
    split at h
    · rename_i hm
      obtain ⟨mid, hmove, hrest⟩ := Option.bind_eq_some_iff.1 h
      exact ih (.step hx (hcheck _ _ hm) hmove) hrest
    · cases h

lemma Spec.observed_of_run {check : Config C R S Γ → Move E Q → Bool}
    (hcheck : ∀ cfg m, check cfg m = true → guard cfg m) :
    ∀ (ms : List (Move E Q)) {x x' : Config C R S Γ × H}, P.Observed observe guard init x →
      P.runObserved observe check x ms = some x' → P.Observed observe guard init x' := by
  intro ms
  induction ms with
  | nil =>
    intro x x' hx h
    cases h
    exact hx
  | cons m ms ih =>
    intro x x' hx h
    simp only [Spec.runObserved] at h
    split at h
    · rename_i hm
      obtain ⟨mid, hmove, hrest⟩ := Option.bind_eq_some_iff.1 h
      exact ih (.step hx (hcheck _ _ hm) hmove) hrest
    · cases h

lemma Spec.move_of_observedMove {x' : Config C R S Γ × H} {m : Move E Q}
    (h : P.observedMove observe x m = some x') : P.move x.1 m = some x'.1 := by
  cases m with
  | spawn t q =>
    obtain ⟨cfg, hcfg, rfl⟩ := Option.map_eq_some_iff.1 h
    exact hcfg
  | step t e =>
    simp only [Spec.observedMove] at h
    split at h
    · cases h
    · rename_i c k hp
      obtain ⟨rs, hrs, rfl⟩ := Option.map_eq_some_iff.1 h
      simp only [Spec.move, hp, hrs, Option.map_some]

lemma Spec.Observed.spawned {q : Q} {s : S} (h : P.Observed observe guard init x) {a : PUnit}
    (hprog : x.1.prog t = .ret a) (hguard : guard x.1 (.spawn t q)) (haccept : P.accept t q x.1.shared = some s) :
    P.Observed observe guard init ({ shared := s
                                     prog := Function.update x.1.prog t (P.body q)
                                     phase := Function.update x.1.phase t P.start }, x.2) := by
  refine .step h hguard ?_
  simp only [Spec.observedMove, Spec.move, hprog, haccept, Option.map_some]

lemma Spec.Observed.stepped {e : E} {c : C} {k : R c → Prog C R PUnit} {r : R c} {s : S}
    (h : P.Observed observe guard init x) (hprog : x.1.prog t = .op c k) (hguard : guard x.1 (.step t e))
    (hexec : P.exec e c x.1.shared = some (r, s)) :
    P.Observed observe guard init
      ({ shared := s
         prog := Function.update x.1.prog t (k r)
         phase := Function.update x.1.phase t (P.next (x.1.phase t) c r) },
        observe x.2 t (x.1.phase t) x.1.shared c r s) := by
  refine .step h hguard ?_
  simp only [Spec.observedMove, hprog, hexec, Option.map_some]

lemma Spec.Observed.trans {x' : Config C R S Γ × H} (h : P.Observed observe guard init x)
    (h' : P.Observed observe guard x x') : P.Observed observe guard init x' := by
  induction h' with
  | refl => exact h
  | step _ hguard hmove ih => exact .step ih hguard hmove

lemma Spec.Observed.reachable (h : P.Observed observe guard init x) : P.Reachable guard init.1 x.1 := by
  induction h with
  | refl => exact .refl
  | step _ hguard hmove ih => exact .step ih hguard (Spec.move_of_observedMove hmove)

lemma Spec.Observed.strengthen {guard' : Config C R S Γ → Move E Q → Prop}
    (h : P.Observed observe guard init x)
    (himp : ∀ cfg m, P.Reachable guard init.1 cfg → guard cfg m → guard' cfg m) :
    P.Observed observe guard' init x := by
  induction h with
  | refl => exact .refl
  | step hx hguard hmove ih => exact .step ih (himp _ _ hx.reachable hguard) hmove

/-- **The general rule for invariants of runs.**  A monitor of the proof's own follows every task from
`enter` of its request; `ok` is what it allows and `done` what it says of a task whose request is
finished.  The program of every request that may be started meets both, and the invariant is kept by
the start of a request and by every allowed section. -/
theorem Spec.Recorded.traced {K : Type} {guard : Config C R S Γ × H → Move E Q → Prop} {enter : Q → K}
    {track : K → (c : C) → R c → K} {ok : K → C → Prop} {done : K → Prop}
    {I : Config C R S Γ → (ℕ → K) → H → Prop} (φ₀ : ℕ → K) (hidle : ∀ t, ∃ a, init.1.prog t = .ret a)
    (hdone : ∀ t, done (φ₀ t)) (hinit : I init.1 φ₀ init.2)
    (hbody : ∀ x t q, guard x (.spawn t q) → (P.body q).Meets track ok (fun κ _ => done κ) (enter q))
    (hspawn : ∀ (cfg : Config C R S Γ) φ h t q s', I cfg φ h → guard (cfg, h) (.spawn t q) →
      done (φ t) → P.accept t q cfg.shared = some s' →
      I { shared := s'
          prog := Function.update cfg.prog t (P.body q)
          phase := Function.update cfg.phase t P.start } (Function.update φ t (enter q)) h)
    (hstep : ∀ (cfg : Config C R S Γ) φ h t e c k r s', I cfg φ h → guard (cfg, h) (.step t e) →
      cfg.prog t = .op c k → ok (φ t) c → P.exec e c cfg.shared = some (r, s') →
      I { shared := s'
          prog := Function.update cfg.prog t (k r)
          phase := Function.update cfg.phase t (P.next (cfg.phase t) c r) }
        (Function.update φ t (track (φ t) c r)) (observe h t (cfg.phase t) cfg.shared c r s'))
    (h : P.Recorded observe guard init x) :
    ∃ φ, I x.1 φ x.2 ∧ ∀ t, (x.1.prog t).Meets track ok (fun κ _ => done κ) (φ t) := by
  induction h with
  | refl =>
    refine ⟨φ₀, hinit, fun t => ?_⟩
    obtain ⟨a, ha⟩ := hidle t
    rw [ha]
    exact hdone t
  | @step x x' m hr hguard hmove ih =>
    obtain ⟨φ, hinv, hmeets⟩ := ih
    cases m with
    | spawn t q =>
      obtain ⟨cfg, hcfg, rfl⟩ := Option.map_eq_some_iff.1 hmove
      obtain ⟨⟨a, ha⟩, s, hs, rfl⟩ := Spec.move_spawn hcfg
      have hret := hmeets t
      rw [ha] at hret
      refine ⟨_, hspawn x.1 φ x.2 t q s hinv hguard hret hs, fun u => ?_⟩
      by_cases hu : u = t
      · subst hu
        simpa using hbody x u q hguard
      · simpa [hu] using hmeets u
    | step t e =>
      simp only [Spec.observedMove] at hmove
      split at hmove
      · cases hmove
      · rename_i c k hp
        obtain ⟨⟨r, s⟩, hs, rfl⟩ := Option.map_eq_some_iff.1 hmove
        have hop := hmeets t
        rw [hp] at hop
        refine ⟨_, hstep x.1 φ x.2 t e c k r s hinv hguard hp hop.1 hs, fun u => ?_⟩
        by_cases hu : u = t
        · subst hu
          simpa using hop.2 r
        · simpa [hu] using hmeets u

/-- **The rule for invariants of runs with a history**, with the monitor of the pool. -/
theorem Spec.Observed.invariant {ok : Γ → C → Prop} {done : Γ → Prop} {I : S → (ℕ → Γ) → H → Prop}
    (hidle : ∀ t, ∃ a, init.1.prog t = .ret a) (hdone : ∀ t, done (init.1.phase t))
    (hinit : I init.1.shared init.1.phase init.2)
    (hbody : ∀ cfg t q, guard cfg (.spawn t q) → (P.body q).Meets P.next ok (fun γ _ => done γ) P.start)
    (hspawn : ∀ s s' φ h t q, I s φ h → done (φ t) → P.accept t q s = some s' →
      I s' (Function.update φ t P.start) h)
    (hstep : ∀ (cfg : Config C R S Γ) h t e c r s', I cfg.shared cfg.phase h →
      guard cfg (.step t e) → cfg.at t = some c → ok (cfg.phase t) c →
      P.exec e c cfg.shared = some (r, s') →
      I s' (Function.update cfg.phase t (P.next (cfg.phase t) c r))
        (observe h t (cfg.phase t) cfg.shared c r s')) (h : P.Observed observe guard init x) :
    I x.1.shared x.1.phase x.2 ∧
      ∀ t, (x.1.prog t).Meets P.next ok (fun γ _ => done γ) (x.1.phase t) := by
  obtain ⟨φ, ⟨rfl, hinv⟩, hmeets⟩ := h.recorded.traced
    (I := fun cfg φ h => φ = cfg.phase ∧ I cfg.shared cfg.phase h) init.1.phase hidle hdone ⟨rfl, hinit⟩
    (fun x t q hguard => hbody x.1 t q hguard)
    (by
      rintro cfg _ h t q s' ⟨rfl, hinv⟩ - hret hs
      exact ⟨rfl, hspawn _ _ _ _ t q hinv hret hs⟩)
    (by
      rintro cfg _ h t e c k r s' ⟨rfl, hinv⟩ hguard hp hok hs
      exact ⟨rfl, hstep cfg h t e c r s' hinv hguard (by rw [Config.at, hp]) hok hs⟩)
  exact ⟨hinv, hmeets⟩

/-- The rule where nothing has to be known of the tasks. -/
lemma Spec.Observed.invariant_shared {P : Spec C R S E Q Γ}
    {observe : H → ℕ → Γ → S → (c : C) → R c → S → H} {guard : Config C R S Γ → Move E Q → Prop}
    {I : S → H → Prop} {init : Config C R S Γ × H} (hidle : ∀ t, ∃ a, init.1.prog t = .ret a)
    (hinit : I init.1.shared init.2)
    (hspawn : ∀ s s' h t q, I s h → P.accept t q s = some s' → I s' h)
    (hstep : ∀ (cfg : Config C R S Γ) h t e c r s', I cfg.shared h → guard cfg (.step t e) →
      cfg.at t = some c → P.exec e c cfg.shared = some (r, s') →
      I s' (observe h t (cfg.phase t) cfg.shared c r s'))
    {x : Config C R S Γ × H} (h : P.Observed observe guard init x) : I x.1.shared x.2 :=
  (h.invariant hidle (fun _ => trivial) hinit
    (fun _ _ q _ => Prog.meets_true (P.body q)) (fun s s' _ h t q hi _ ha => hspawn s s' h t q hi ha)
    fun cfg h t e c r s' hi hguard hat _ hexec => hstep cfg h t e c r s' hi hguard hat hexec).1

/-- The same rule where the condition on the moves speaks of the history. -/
lemma Spec.Recorded.invariant_shared {guard : Config C R S Γ × H → Move E Q → Prop} {I : S → H → Prop}
    (hinit : I init.1.shared init.2) (hspawn : ∀ s s' h t q, I s h → P.accept t q s = some s' → I s' h)
    (hstep : ∀ (x : Config C R S Γ × H) t e c r s', I x.1.shared x.2 → guard x (.step t e) →
      x.1.at t = some c → P.exec e c x.1.shared = some (r, s') →
      I s' (observe x.2 t (x.1.phase t) x.1.shared c r s')) (h : P.Recorded observe guard init x) :
    I x.1.shared x.2 := by
  induction h with
  | refl => exact hinit
  | @step x x' m _ hguard hmove ih =>
    cases m with
    | spawn t q =>
      obtain ⟨cfg, hcfg, rfl⟩ := Option.map_eq_some_iff.1 hmove
      obtain ⟨-, s, hs, rfl⟩ := Spec.move_spawn hcfg
      exact hspawn x.1.shared s x.2 t q ih hs
    | step t e =>
      simp only [Spec.observedMove] at hmove
      split at hmove
      · cases hmove
      · rename_i c k hp
        obtain ⟨⟨r, s⟩, hs, rfl⟩ := Option.map_eq_some_iff.1 hmove
        exact hstep x t e c r s ih hguard (by rw [Config.at, hp]) hs

/-- Every run has a history. -/
lemma Spec.Reachable.observed {init cfg : Config C R S Γ} (h : P.Reachable guard init cfg)
    (observe : H → ℕ → Γ → S → (c : C) → R c → S → H) (start : H) :
    ∃ history, P.Observed observe guard (init, start) (cfg, history) := by
  induction h with
  | refl => exact ⟨start, .refl⟩
  | @step cfg cfg' m hr hguard hmove ih =>
    obtain ⟨history, ih⟩ := ih
    cases m with
    | spawn t q =>
      refine ⟨history, .step ih hguard ?_⟩
      exact Option.map_eq_some_iff.2 ⟨cfg', hmove, rfl⟩
    | step t e =>
      obtain ⟨c, k, r, s, hp, hs, rfl⟩ := Spec.move_step hmove
      refine ⟨observe history t (cfg.phase t) cfg.shared c r s, .step ih hguard ?_⟩
      simp only [Spec.observedMove, hp, hs, Option.map_some]

end History

/-! ### Invariants -/

section Invariants

variable {P : Spec C R S E Q Γ} {guard : Config C R S Γ → Move E Q → Prop} {ok : Γ → C → Prop}
  {I : S → (ℕ → Γ) → Prop} {init cfg : Config C R S Γ}

/-- The rule for plain runs, where the monitor says something of tasks that are at rest. -/
lemma Spec.Reachable.invariant_rest {done : Γ → Prop} (hidle : ∀ t, ∃ a, init.prog t = .ret a)
    (hdone : ∀ t, done (init.phase t)) (hinit : I init.shared init.phase)
    (hbody : ∀ cfg t q, guard cfg (.spawn t q) →
      (P.body q).Meets P.next ok (fun γ _ => done γ) P.start)
    (hspawn : ∀ s s' φ t q, I s φ → done (φ t) → P.accept t q s = some s' →
      I s' (Function.update φ t P.start))
    (hstep : ∀ (cfg : Config C R S Γ) t e c r s', I cfg.shared cfg.phase →
      guard cfg (.step t e) → cfg.at t = some c → ok (cfg.phase t) c →
      P.exec e c cfg.shared = some (r, s') →
      I s' (Function.update cfg.phase t (P.next (cfg.phase t) c r)))
    (h : P.Reachable guard init cfg) :
    I cfg.shared cfg.phase ∧
      ∀ t, (cfg.prog t).Meets P.next ok (fun γ _ => done γ) (cfg.phase t) := by
  obtain ⟨_, hobserved⟩ := h.observed (fun _ _ _ _ _ _ _ => ()) ()
  exact hobserved.invariant hidle hdone hinit hbody
    (fun s s' φ _ t q hi hd ha => hspawn s s' φ t q hi hd ha)
    fun cfg _ t e c r s' hi hguard hat hok hexec => hstep cfg t e c r s' hi hguard hat hok hexec

/-- **The rule for invariants.**  `ok` is what the monitor allows; the program of every request that
may be started meets it, and the invariant is kept by the start of a request and by every allowed
section. -/
theorem Spec.Reachable.invariant (hidle : ∀ t, ∃ a, init.prog t = .ret a)
    (hinit : I init.shared init.phase)
    (hbody : ∀ cfg t q, guard cfg (.spawn t q) →
      (P.body q).Meets P.next ok (fun _ _ => True) P.start)
    (hspawn : ∀ s s' φ t q, I s φ → P.accept t q s = some s' → I s' (Function.update φ t P.start))
    (hstep : ∀ (cfg : Config C R S Γ) t e c r s', I cfg.shared cfg.phase →
      guard cfg (.step t e) → cfg.at t = some c → ok (cfg.phase t) c →
      P.exec e c cfg.shared = some (r, s') →
      I s' (Function.update cfg.phase t (P.next (cfg.phase t) c r)))
    (h : P.Reachable guard init cfg) :
    I cfg.shared cfg.phase ∧
      ∀ t, (cfg.prog t).Meets P.next ok (fun _ _ => True) (cfg.phase t) :=
  h.invariant_rest hidle (fun _ => trivial) hinit hbody
    (fun s s' φ t q hi _ ha => hspawn s s' φ t q hi ha) hstep

end Invariants

end Pool
