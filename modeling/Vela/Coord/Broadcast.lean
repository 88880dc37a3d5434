import Vela.Coord.Footprint

/-!
# The broadcast loop

`broadcast_snapshot` only sets a flag, and starts the loop if there is none; the loop takes the flag,
sends a snapshot and looks at the flag again, under a lock of its own each time.

* `broadcast_never_lost` — in every interleaving there is at most one loop, it ends only after
  every request was followed by a broadcast that went through, and it can always go on to that.
-/

namespace Vela.Coord

open Vela.Proto Vela.Crypto Prog Function

/-! ### The loop as its tasks see it -/

/-- Where a task is with the broadcast loop. -/
inductive Stage where
  | free
  /-- the next round is to be spawned -/
  | toSpawn
  /-- a round that has not looked at the flag yet -/
  | toTake
  /-- the flag is taken; `broadcast_snapshot_now` is to be called -/
  | toSend
  /-- `broadcast_snapshot_now` has begun -/
  | sending
  deriving DecidableEq

namespace Stage

def enter : Request → Stage
  | .broadcastLoop => toTake
  | _ => free

def next (γ : Stage) : (c : Section) → Response c → Stage
  | .broadcastSchedule, true => toSpawn
  | .broadcastSpawn, _ => free
  | .broadcastTake, true => toSend
  | .broadcastTake, false => free
  | .onlineSenders, _ => sending
  | .broadcastContinue, true => toSpawn
  | .broadcastContinue, false => free
  | _, _ => γ

def Allows (γ : Stage) : Section → Prop
  | .broadcastSchedule => γ = free
  | .broadcastSpawn => γ = toSpawn
  | .broadcastTake => γ = toTake
  | .onlineSenders => γ = toSend
  | .broadcastRetain | .broadcastContinue => γ = sending
  | _ => True

variable {c : Section} {γ : Stage}

lemma allows_plain (h : ¬ Broadcasts c) : γ.Allows c := by
  cases c <;> first | trivial | exact absurd trivial h

lemma next_plain (h : ¬ Broadcasts c) (r : Response c) : γ.next c r = γ := by
  cases c <;> first | rfl | exact absurd trivial h

/-- A program that is at the stage `γ` of the loop, and leaves the loop before it returns. -/
abbrev Runs (γ : Stage) (p : Task PUnit) : Prop := p.Meets next Allows (fun γ _ => γ = free) γ

/-- The stage of a program can be read off the program. -/
lemma Runs.unique {γ' : Stage} {p : Task PUnit} (h : γ.Runs p) (h' : γ'.Runs p) : γ = γ' := by
  induction p with
  | ret _ => exact Eq.trans h (Eq.symm h')
  | op c k ih =>
    by_cases hc : Broadcasts c
    · cases c <;> first | exact Eq.trans h.1 (Eq.symm h'.1) | exact hc.elim
    · have hk := h.2 (perform demoPrim demoServer demoEnv c demoState).1
      have hk' := h'.2 (perform demoPrim demoServer demoEnv c demoState).1
      rw [next_plain hc] at hk hk'
      exact ih _ hk hk'

/-- Programs that leave the loop to others, or hand it on before they return. -/
def discipline : Discipline Section Response := .monitor next Allows (· = free)

lemma discipline_call (h : ¬ Broadcasts c) : discipline.holds (call c) := by
  rintro γ rfl
  exact ⟨allows_plain h, fun r => next_plain h r⟩

lemma discipline_broadcastSnapshot : discipline.holds broadcastSnapshot.run := by
  rintro γ rfl
  refine ⟨rfl, fun shouldStart => ?_⟩
  cases shouldStart with
  | false => rfl
  | true => exact ⟨rfl, fun _ => rfl⟩

lemma meets_plain {α : Type} {p : Task α} {G : Section → Prop} {Q : α → Prop} (γ : Stage)
    (h : p.Within G Q) (hG : ∀ c, G c → ¬ Broadcasts c) :
    p.Meets next Allows (fun γ' _ => γ' = γ) γ := by
  refine (h.meets (I := (· = γ)) ?_ ?_ rfl).mono fun _ _ hγ => hγ.1
  · rintro _ c rfl hc
    exact allows_plain (hG c hc)
  · rintro _ c r rfl hc
    exact next_plain (hG c hc) r

lemma meets_broadcastSnapshotNow (prim : Primitives) (server : Server) :
    (broadcastSnapshotNow prim server).run.Meets next Allows (fun γ _ => γ = sending) toSend := by
  have hplain : ∀ (senders : List UInt64) (ids : List NodeId), (do
      let snapshot ← networkSnapshot prim server ids
      senders.forM fun connection => ExceptT.lift (call (.push connection snapshot)) :
        CoordM PUnit).run.Within (fun c => ¬ Broadcasts c) fun _ => True := by
    intro senders ids
    have hcall : ∀ c, ¬ Broadcasts c →
        (Discipline.within Response fun c => ¬ Broadcasts c).holds (call c) :=
      fun c hc => ⟨hc, fun _ => trivial⟩
    refine (Discipline.within Response fun c => ¬ Broadcasts c).bindExcept
      (holds_networkSnapshot (fun c hc _ => hcall c hc.handles.not_broadcasts) prim server ids) fun snapshot => ?_
    exact Discipline.forMExcept _ _ _ fun connection => Discipline.lift _ (hcall _ nofun)
  refine ⟨rfl, fun found => ?_⟩
  exact meets_plain sending (hplain found.1 found.2) fun _ hc => hc

lemma meets_round (prim : Primitives) (server : Server) :
    (snapshotBroadcastRound prim server).Meets next Allows (fun γ _ => γ = free) toTake := by
  have hcontinue : (do
      let shouldContinue ← call .broadcastContinue
      if shouldContinue then call .broadcastSpawn : Task PUnit).Meets next Allows
        (fun γ _ => γ = free) sending := by
    refine ⟨rfl, fun shouldContinue => ?_⟩
    cases shouldContinue with
    | false => rfl
    | true => exact ⟨rfl, fun _ => rfl⟩
  refine Meets.callBind rfl fun shouldBroadcast => ?_
  cases shouldBroadcast with
  | false => rfl
  | true =>
    refine Meets.bind (meets_broadcastSnapshotNow prim server) ?_
    rintro _ result rfl
    cases result with
    | ok _ => exact hcontinue
    | error e => exact ⟨rfl, fun _ => hcontinue⟩

lemma body_staged (prim : Primitives) (server : Server) (request : Request) :
    (enter request).Runs (request.body prim server) := by
  have hother : request ≠ .broadcastLoop → discipline.holds (request.body prim server) := fun h =>
    holds_body (fun _ hc => discipline_call hc) discipline_broadcastSnapshot prim server h
  cases request with
  | broadcastLoop => exact meets_round prim server
  | _ => exact hother nofun free rfl

end Stage

/-- The program has the loop in its hands. -/
def Carries (p : Task PUnit) : Prop := ∃ γ, γ ≠ Stage.free ∧ γ.Runs p

lemma not_carries {p : Task PUnit} (h : Stage.free.Runs p) : ¬ Carries p :=
  fun ⟨_, hγ, hp⟩ => hγ (hp.unique h)

/-! ### The history of requests and broadcasts -/

inductive Note where
  /-- a `broadcast_snapshot` set the flag -/
  | requested
  /-- and found no loop -/
  | started
  /-- a `broadcast_snapshot_now` begins -/
  | began
  /-- and has failed -/
  | failed
  /-- the loop decides to end; the flag after that -/
  | exited (pending : Bool)
  deriving DecidableEq

namespace Note

def isExit : Note → Bool
  | exited _ => true
  | _ => false

/-- The latest note comes first. -/
def observe (h : List Note) (_ : ℕ) (_ : Unit) (_ : CoordState) :
    (c : Section) → Response c → CoordState → List Note
  | .broadcastSchedule, true, _ => started :: requested :: h
  | .broadcastSchedule, false, _ => requested :: h
  | .onlineSenders, _, _ => began :: h
  | .broadcastRetain, _, _ => failed :: h
  | .broadcastTake, false, s' => exited s'.broadcastPending :: h
  | .broadcastContinue, false, s' => exited s'.broadcastPending :: h
  | _, _, _ => h

lemma observe_plain {h : List Note} {t : ℕ} {u : Unit} {s s' : CoordState} {c : Section}
    (hc : ¬ Broadcasts c) (r : Response c) : observe h t u s c r s' = h := by
  cases c <;> first | rfl | exact absurd trivial hc

/-- A request, or a broadcast that failed, is not followed by a broadcast yet. -/
def Owed : List Note → Prop
  | [] => False
  | requested :: _ | failed :: _ => True
  | began :: _ => False
  | started :: older | exited _ :: older => Owed older

lemma observe_newer (h : List Note) (t : ℕ) (u : Unit) (s s' : CoordState) (c : Section) (r : Response c) :
    ∃ newer, observe h t u s c r s' = newer ++ h ∧ (c ≠ .broadcastSchedule → requested ∉ newer) ∧
      (c ≠ .broadcastRetain → failed ∉ newer) ∧ (c = .onlineSenders → began ∈ newer) := by
  cases c with
  | broadcastSchedule =>
    cases r with
    | false => exact ⟨[requested], rfl, fun hc => absurd rfl hc, by simp, by simp⟩
    | true => exact ⟨[started, requested], rfl, fun hc => absurd rfl hc, by simp, by simp⟩
  | onlineSenders => exact ⟨[began], rfl, by simp, by simp, by simp⟩
  | broadcastRetain => exact ⟨[failed], rfl, by simp, fun hc => absurd rfl hc, by simp⟩
  | broadcastTake | broadcastContinue =>
    cases r with
    | false => exact ⟨[exited s'.broadcastPending], rfl, by simp, by simp, by simp⟩
    | true => exact ⟨[], rfl, by simp, by simp, by simp⟩
  | _ => exact ⟨[], rfl, by simp, by simp, by simp⟩

lemma not_owed_of_began {newer older : List Note} (hbegan : began ∈ newer) (hrequested : requested ∉ newer)
    (hfailed : failed ∉ newer) : ¬ Owed (newer ++ older) := by
  induction newer with
  | nil => cases hbegan
  | cons note newer ih =>
    cases note with
    | requested => exact absurd (.head _) hrequested
    | failed => exact absurd (.head _) hfailed
    | began => exact id
    | started | exited =>
      exact ih (by simpa using hbegan) (fun h => hrequested (.tail _ h)) fun h => hfailed (.tail _ h)

/-- A broadcast began that did not fail. -/
def Served (notes : List Note) : Prop :=
  ∃ newer older, notes = newer ++ began :: older ∧ failed ∉ newer

lemma served_of_not_owed {between older : List Note} (howed : Owed older) (h : ¬ Owed (between ++ older)) :
    Served between := by
  induction between with
  | nil => exact absurd howed h
  | cons note between ih =>
    cases note with
    | requested | failed => exact absurd trivial h
    | began => exact ⟨[], between, rfl, List.not_mem_nil⟩
    | started | exited =>
      obtain ⟨newer, rest, rfl, hfailed⟩ := ih h
      refine ⟨_ :: newer, rest, rfl, ?_⟩
      simpa using hfailed

end Note

open Note

/-! ### The loop -/

/-- Where the loop is. -/
inductive Loop (s : CoordState) (φ : ℕ → Stage) : Prop
  | none (hrunning : s.broadcastRunning = false) (hpending : s.broadcastPending = false)
      (hspawned : s.spawned = 0) (hφ : ∀ t, φ t = .free)
  /-- a round is spawned and has not started -/
  | spawned (hrunning : s.broadcastRunning = true) (hspawned : s.spawned = 1) (hφ : ∀ t, φ t = .free)
  | held (t : ℕ) (hrunning : s.broadcastRunning = true) (hspawned : s.spawned = 0)
      (ht : φ t ≠ .free) (hφ : ∀ u, u ≠ t → φ u = .free)

variable {s : CoordState} {φ : ℕ → Stage}

lemma Loop.holder (h : Loop s φ) {t : ℕ} (ht : φ t ≠ .free) :
    s.broadcastRunning = true ∧ s.spawned = 0 ∧ ∀ u, u ≠ t → φ u = .free := by
  cases h with
  | none _ _ _ hφ | spawned _ _ hφ => exact absurd (hφ t) ht
  | held v hrunning hspawned hv hφ =>
    have htv : t = v := by
      by_contra hne
      exact ht (hφ t hne)
    subst htv
    exact ⟨hrunning, hspawned, hφ⟩

lemma Loop.congr {s' : CoordState} (h : Loop s φ) (hrunning : s'.broadcastRunning = s.broadcastRunning)
    (hpending : s'.broadcastPending = s.broadcastPending) (hspawned : s'.spawned = s.spawned) :
    Loop s' φ := by
  cases h with
  | none h₁ h₂ h₃ hφ => exact .none (hrunning.trans h₁) (hpending.trans h₂) (hspawned.trans h₃) hφ
  | spawned h₁ h₂ hφ => exact .spawned (hrunning.trans h₁) (hspawned.trans h₂) hφ
  | held t h₁ h₂ ht hφ => exact .held t (hrunning.trans h₁) (hspawned.trans h₂) ht hφ

/-- The loop, and what the history says about it. -/
structure Broadcasting (s : CoordState) (φ : ℕ → Stage) (h : List Note) : Prop where
  loop : Loop s φ
  loops : h.count .started = h.countP Note.isExit + if s.broadcastRunning then 1 else 0
  owed : Owed h → s.broadcastPending = true ∨ ∃ t, φ t = .toSend
  exits : ∀ pending, .exited pending ∈ h → pending = false
  served : ∀ newer pending older, h = newer ++ .exited pending :: older → ¬ Owed older

section Steps

variable {s s' : CoordState} {φ : ℕ → Stage} {h : List Note} {t : ℕ}

variable {note : Note}

lemma Broadcasting.served_cons (hs : Broadcasting s φ h) (hnote : note.isExit = false) :
    ∀ newer pending older, note :: h = newer ++ .exited pending :: older → ¬ Owed older := by
  intro newer pending older heq
  cases newer with
  | nil =>
    obtain ⟨rfl, -⟩ := List.cons.inj heq
    cases hnote
  | cons first newer => exact hs.served newer pending older (List.cons.inj heq).2

lemma Broadcasting.exits_cons (hs : Broadcasting s φ h) (hnote : note.isExit = false) :
    ∀ pending, .exited pending ∈ note :: h → pending = false := by
  intro pending hmem
  rcases List.mem_cons.1 hmem with rfl | hmem
  · cases hnote
  · exact hs.exits pending hmem

lemma Broadcasting.congr (hs : Broadcasting s φ h)
    (hrunning : s'.broadcastRunning = s.broadcastRunning)
    (hpending : s'.broadcastPending = s.broadcastPending) (hspawned : s'.spawned = s.spawned) :
    Broadcasting s' φ h where
  loop := hs.loop.congr hrunning hpending hspawned
  loops := by rw [hrunning]; exact hs.loops
  owed := by rw [hpending]; exact hs.owed
  exits := hs.exits
  served := hs.served

lemma Broadcasting.hold (hs : Broadcasting s φ h) (ht : φ t ≠ .free) {γ : Stage} (hγ : γ ≠ .free) :
    Loop s (update φ t γ) := by
  obtain ⟨hrunning, hspawned, hothers⟩ := hs.loop.holder ht
  refine .held t hrunning hspawned (by simpa using hγ) fun u hu => ?_
  rw [update_of_ne hu]
  exact hothers u hu

/-- **The loop ends** when its flag is not set. -/
theorem Broadcasting.exit (hs : Broadcasting s φ h) (ht : φ t ≠ .free) (hsend : φ t ≠ .toSend)
    (hpending : s.broadcastPending = false) :
    Broadcasting { s with broadcastRunning := false } (update φ t .free)
      (.exited false :: h) := by
  obtain ⟨hrunning, hspawned, hothers⟩ := hs.loop.holder ht
  have hnone : ¬ Owed h := by
    intro howed
    rcases hs.owed howed with hset | ⟨u, hu⟩
    · rw [hpending] at hset
      cases hset
    · by_cases hut : u = t
      · exact hsend (hut ▸ hu)
      · rw [hothers u hut] at hu
        cases hu
  refine ⟨.none rfl hpending hspawned fun u => ?_, ?_, fun howed => absurd howed hnone, ?_, ?_⟩
  · by_cases hut : u = t
    · simp [hut]
    · rw [update_of_ne hut]
      exact hothers u hut
  · have hcount := hs.loops
    rw [hrunning] at hcount
    simpa [Note.isExit, List.count_cons, List.countP_cons] using hcount
  · intro pending hmem
    rcases List.mem_cons.1 hmem with heq | hmem
    · exact Note.exited.inj heq
    · exact hs.exits pending hmem
  · intro newer pending older heq
    cases newer with
    | nil =>
      obtain ⟨-, rfl⟩ := List.cons.inj heq
      exact hnone
    | cons first newer => exact hs.served newer pending older (List.cons.inj heq).2

lemma Broadcasting.schedule (hs : Broadcasting s φ h) :
    Broadcasting s.broadcastSchedule.2
      (update φ t ((φ t).next .broadcastSchedule s.broadcastSchedule.1))
      (observe h t () s .broadcastSchedule s.broadcastSchedule.1 s.broadcastSchedule.2) := by
  unfold CoordState.broadcastSchedule
  split
  · -- a loop is there, and will see the flag
    rename_i hrunning
    have hφ : update φ t ((φ t).next .broadcastSchedule false) = φ :=
      update_eq_self t φ
    simp only [hφ]
    refine ⟨?_, ?_, fun _ => .inl rfl, hs.exits_cons rfl, hs.served_cons rfl⟩
    · cases hs.loop with
      | none hnot => exact absurd hrunning (by simp [hnot])
      | spawned _ hspawned hφ => exact .spawned hrunning hspawned hφ
      | held u _ hspawned hu hφ => exact .held u hrunning hspawned hu hφ
    · simpa [observe, Note.isExit, List.count_cons] using hs.loops
  · rename_i hrunning
    have hidle : s.spawned = 0 ∧ ∀ u, φ u = .free := by
      cases hs.loop with
      | none _ _ hspawned hφ => exact ⟨hspawned, hφ⟩
      | spawned hyes | held _ hyes => exact absurd hyes hrunning
    refine ⟨?_, ?_, fun _ => .inl rfl, ?_, ?_⟩
    · refine .held t rfl hidle.1 (by simp [Stage.next]) fun u hu => ?_
      rw [update_of_ne hu]
      exact hidle.2 u
    · have hcount := hs.loops
      rw [if_neg hrunning] at hcount
      simpa [observe, Note.isExit, List.count_cons] using hcount
    · intro pending hmem
      refine hs.exits pending ?_
      simpa [observe] using hmem
    · intro newer pending older heq
      rcases newer with _ | ⟨first, _ | ⟨second, newer⟩⟩
      · cases heq
      · cases heq
      · exact hs.served newer pending older (List.cons.inj (List.cons.inj heq).2).2

lemma Broadcasting.send (hs : Broadcasting s φ h) (ht : φ t = .toSend) :
    Broadcasting s (update φ t .sending) (.began :: h) where
  loop := hs.hold (by simp [ht]) nofun
  loops := by simpa [Note.isExit, List.count_cons] using hs.loops
  owed howed := howed.elim
  exits := hs.exits_cons rfl
  served := hs.served_cons rfl

lemma Broadcasting.retain (hs : Broadcasting s φ h) (ht : φ t = .sending) :
    Broadcasting { s with broadcastPending := true } φ (.failed :: h) := by
  have hheld : φ t ≠ .free := by simp [ht]
  obtain ⟨hrunning, hspawned, hothers⟩ := hs.loop.holder hheld
  refine ⟨.held t hrunning hspawned hheld hothers, ?_, fun _ => .inl rfl, hs.exits_cons rfl,
    hs.served_cons rfl⟩
  simpa [Note.isExit, List.count_cons] using hs.loops

lemma Broadcasting.take (hs : Broadcasting s φ h) (ht : φ t = .toTake) :
    Broadcasting s.broadcastTake.2
      (update φ t ((φ t).next .broadcastTake s.broadcastTake.1))
      (observe h t () s .broadcastTake s.broadcastTake.1 s.broadcastTake.2) := by
  have hheld : φ t ≠ .free := by simp [ht]
  unfold CoordState.broadcastTake
  split
  · obtain ⟨hrunning, hspawned, hothers⟩ := hs.loop.holder hheld
    -- the request is in the hands of the task now
    refine ⟨.held t hrunning hspawned (by simp [Stage.next]) fun u hu => ?_, hs.loops,
      fun _ => .inr ⟨t, by simp [Stage.next]⟩, hs.exits, hs.served⟩
    rw [update_of_ne hu]
    exact hothers u hu
  · rename_i hpending
    have hnot : s.broadcastPending = false := by simpa using hpending
    have hexit := hs.exit hheld (by simp [ht]) hnot
    simpa only [observe, Stage.next, hnot] using hexit

lemma Broadcasting.continue (hs : Broadcasting s φ h) (ht : φ t = .sending) :
    Broadcasting s.broadcastContinue.2
      (update φ t ((φ t).next .broadcastContinue s.broadcastContinue.1))
      (observe h t () s .broadcastContinue s.broadcastContinue.1 s.broadcastContinue.2) := by
  have hheld : φ t ≠ .free := by simp [ht]
  unfold CoordState.broadcastContinue
  split
  · rename_i hpending
    exact ⟨hs.hold hheld nofun, hs.loops, fun _ => .inl hpending, hs.exits, hs.served⟩
  · rename_i hpending
    have hnot : s.broadcastPending = false := by simpa using hpending
    have hexit := hs.exit hheld (by simp [ht]) hnot
    simpa only [observe, Stage.next, hnot] using hexit

lemma Broadcasting.spawn (hs : Broadcasting s φ h) (ht : φ t = .toSpawn) :
    Broadcasting { s with spawned := s.spawned + 1 } (update φ t .free) h := by
  have hheld : φ t ≠ .free := by simp [ht]
  obtain ⟨hrunning, hspawned, hothers⟩ := hs.loop.holder hheld
  have hfree : ∀ u, update φ t .free u = .free := by
    intro u
    by_cases hut : u = t
    · simp [hut]
    · rw [update_of_ne hut]
      exact hothers u hut
  refine ⟨.spawned hrunning (by simp [hspawned]) hfree, hs.loops, fun howed => ?_, hs.exits,
    hs.served⟩
  rcases hs.owed howed with hpending | ⟨u, hu⟩
  · exact .inl hpending
  · by_cases hut : u = t
    · rw [hut, ht] at hu
      cases hu
    · rw [hothers u hut] at hu
      cases hu

lemma Broadcasting.accept (hs : Broadcasting s φ h) {request : Request} (ht : φ t = .free)
    (ha : request.accept s = some s') :
    Broadcasting s' (update φ t (Stage.enter request)) h := by
  have hother : s' = s → Stage.enter request = .free →
      Broadcasting s' (update φ t (Stage.enter request)) h := by
    rintro rfl henter
    rw [henter, ← ht, update_eq_self]
    exact hs
  cases request with
  | broadcastLoop =>
    simp only [Request.accept] at ha
    split at ha
    · rename_i hspawned
      cases ha
      cases hs.loop with
      | none _ _ hzero | held _ _ hzero => omega
      | spawned hrunning hone hφ =>
        refine ⟨.held t hrunning (by simp [hone]) (by simp [Stage.enter]) fun u hu => ?_, hs.loops,
          fun howed => ?_, hs.exits, hs.served⟩
        · rw [update_of_ne hu]
          exact hφ u
        · rcases hs.owed howed with hpending | ⟨u, hu⟩
          · exact .inl hpending
          · rw [hφ u] at hu
            cases hu
    · cases ha
  | _ => exact hother (Option.some.inj ha).symm rfl

/-- **One section.** -/
theorem Broadcasting.step (prim : Primitives) (server : Server) (hs : Broadcasting s φ h) (e : Env)
    {c : Section} (hok : (φ t).Allows c) :
    Broadcasting (perform prim server e c s).2
      (update φ t ((φ t).next c (perform prim server e c s).1))
      (observe h t () s c (perform prim server e c s).1 (perform prim server e c s).2) := by
  by_cases hc : Broadcasts c
  · cases c with
    | broadcastSchedule => exact hs.schedule
    | broadcastSpawn => exact hs.spawn hok
    | broadcastTake => exact hs.take hok
    | broadcastContinue => exact hs.continue hok
    | onlineSenders => exact hs.send hok
    | broadcastRetain =>
      have hφ : update φ t ((φ t).next .broadcastRetain ()) = φ :=
        update_eq_self t φ
      rw [show (φ t).next .broadcastRetain (perform prim server e .broadcastRetain s).1 =
        (φ t).next .broadcastRetain () from rfl, hφ]
      exact hs.retain hok
    | _ => cases hc
  · rw [Stage.next_plain hc, observe_plain hc, update_eq_self]
    have hpart : c.part ≠ .broadcast := by
      cases c <;> first | exact absurd trivial hc | simp [Section.part]
    have hframe := @perform_frame prim server e c s
    exact hs.congr (hframe.broadcastRunning hpart) (hframe.broadcastPending hpart)
      (hframe.spawned hpart)

end Steps

/-! ### Runs -/

/-- The coordinator without a monitor. -/
abbrev Plain (prim : Primitives) (server : Server) :
    Pool.Spec Section Response CoordState Env Request Unit :=
  coordinator prim server () fun _ _ _ => ()

/-- There is no loop, as when the server has just been opened. -/
structure CoordState.NoLoop (s : CoordState) : Prop where
  pending : s.broadcastPending = false
  running : s.broadcastRunning = false
  spawned : s.spawned = 0

/-- The sections that only a round of the loop performs. -/
def InRound : Section → Prop
  | .broadcastTake | .onlineSenders | .broadcastRetain | .broadcastContinue => True
  | _ => False

lemma Stage.not_free_of_inRound {γ : Stage} {c : Section} (h : γ.Allows c) (hc : InRound c) :
    γ ≠ .free := by
  rintro rfl
  cases c <;> first | exact hc.elim | cases h

lemma broadcasting_of_observed {prim : Primitives} {server : Server} {init : CoordState}
    (hinit : init.NoLoop) {x : Pool.Config Section Response CoordState Unit × List Note}
    (h : (Plain prim server).Observed observe (fun _ _ => True)
      ((Plain prim server).initial init, []) x) :
    ∃ φ, Broadcasting x.1.shared φ x.2 ∧ ∀ t, (φ t).Runs (x.1.prog t) := by
  refine h.recorded.traced (I := fun cfg φ h => Broadcasting cfg.shared φ h) (fun _ => .free)
    (fun t => ⟨⟨⟩, rfl⟩) ?_ ?_ (fun _ _ request _ => Stage.body_staged prim server request) ?_ ?_
  · exact fun _ => rfl
  · refine ⟨.none hinit.running hinit.pending hinit.spawned fun _ => rfl, ?_, nofun, nofun, ?_⟩
    · simp [Pool.Spec.initial, hinit.running]
    · intro newer pending older heq
      simp at heq
  · intro cfg φ h t request s' hs _ ht ha
    exact hs.accept ht ha
  · intro cfg φ h t e c k r s' hs _ hprog hok hexec
    obtain ⟨rfl, rfl⟩ := Prod.mk.inj (Option.some.inj hexec)
    exact hs.step prim server e hok

/-! ### The loop by itself -/

/-- Whether a query has failed. -/
def faulty (b : Bool) : (c : Section) → Response c → Bool
  | .loadPeers, .error _ => true
  | .networkConfig, .error _ => true
  | _, _ => b

/-- The request is put back only after a query that failed. -/
def RetainsAfter (b : Bool) (c : Section) : Prop := c = .broadcastRetain → b = true

/-- A program that puts no request back unless a query fails. -/
abbrev Lasts (b : Bool) (p : Task PUnit) : Prop := p.Meets faulty RetainsAfter (fun _ _ => True) b

lemma faulty_true (c : Section) (r : Response c) : faulty true c r = true := by
  unfold faulty
  split <;> rfl

lemma lasts_true (p : Task PUnit) : Lasts true p := by
  induction p with
  | ret _ => trivial
  | op c k ih =>
    refine ⟨fun _ => rfl, fun r => ?_⟩
    rw [faulty_true]
    exact ih r

lemma faulty_perform (prim : Primitives) (server : Server) {e : Env} (he : e.fault = none) (c : Section)
    (s : CoordState) : faulty false c (perform prim server e c s).1 = false := by
  cases c with
  | loadPeers | networkConfig => simp [perform, Env.database, he, faulty]
  | _ => rfl

lemma lasts_pushes (connections : List UInt64) (snapshot : NetworkSnapshot) (b : Bool) :
    (connections.forM fun connection => ExceptT.lift (call (.push connection snapshot)) :
      CoordM PUnit).run.Meets faulty RetainsAfter (outcome (fun _ _ => True) fun b _ => b = true) b := by
  induction connections with
  | nil => trivial
  | cons connection connections ih => exact ⟨nofun, fun _ => ih⟩

lemma lasts_broadcastSnapshotNow (prim : Primitives) (server : Server) :
    (broadcastSnapshotNow prim server).run.Meets faulty RetainsAfter
      (outcome (fun _ _ => True) fun b _ => b = true) false := by
  refine ⟨nofun, fun found => ⟨nofun, fun peers => ?_⟩⟩
  cases peers with
  | error _ => exact rfl
  | ok peers =>
    refine ⟨nofun, fun config => ?_⟩
    cases config with
    | error _ => exact rfl
    | ok config =>
      exact ⟨nofun, fun generation => ⟨nofun, fun now => lasts_pushes found.1 _ _⟩⟩

lemma lasts_round (prim : Primitives) (server : Server) : Lasts false (snapshotBroadcastRound prim server) := by
  have hcontinue : ∀ b, Lasts b (do
      let shouldContinue ← call .broadcastContinue
      if shouldContinue then call .broadcastSpawn : Task PUnit) := by
    refine fun b => ⟨nofun, fun shouldContinue => ?_⟩
    cases shouldContinue with
    | false => trivial
    | true => exact ⟨nofun, fun _ => trivial⟩
  refine Meets.callBind nofun fun shouldBroadcast => ?_
  cases shouldBroadcast with
  | false => trivial
  | true =>
    refine Meets.bind (lasts_broadcastSnapshotNow prim server) ?_
    intro b result hresult
    cases result with
    | ok _ => exact hcontinue b
    | error _ => exact ⟨fun _ => hresult, fun _ => hcontinue _⟩

/-- The moves of the loop itself: a spawned round starts, or the task that has the loop goes on. -/
def LoopMove (e : Env) (cfg : Pool.Config Section Response CoordState Unit) : Pool.Move Env Request → Prop
  | .spawn _ request => request = .broadcastLoop
  | .step t e' => e' = e ∧ Carries (cfg.prog t)

section Driving

variable {prim : Primitives} {server : Server} {e : Env} {t : ℕ}
  {x₀ x : Pool.Config Section Response CoordState Unit × List Note}

/-- What a task has done once it has left the loop, from the stage `γ`. -/
structure Left (t : ℕ) (γ : Stage) (x x' : Pool.Config Section Response CoordState Unit × List Note)
    (newer : List Note) : Prop where
  notes : x'.2 = newer ++ x.2
  free : Stage.free.Runs (x'.1.prog t)
  others : ∀ u, u ≠ t → x'.1.prog u = x.1.prog u
  requested : .requested ∉ newer
  began : γ = .toSend → .began ∈ newer

/-- **A task that has the loop leaves it**, by its own sections. -/
lemma drive (p : Task PUnit) : ∀ {γ : Stage} {b : Bool} {x}, γ.Runs p → Lasts b p →
    (Plain prim server).Observed observe (LoopMove e) x₀ x → x.1.prog t = p →
    ∃ x' newer, (Plain prim server).Observed observe (LoopMove e) x₀ x' ∧ Left t γ x x' newer ∧
      (b = false → e.fault = none → .failed ∉ newer) := by
  induction p with
  | ret _ =>
    rintro γ b x hγ - hx hprog
    refine ⟨x, [], hx, ⟨rfl, by rw [hprog]; rfl, fun _ _ => rfl, by simp, ?_⟩, by simp⟩
    rw [show γ = .free from hγ]
    simp
  | op c k ih =>
    intro γ b x h hlasts hx hprog
    by_cases hγ : γ = .free
    · subst hγ
      exact ⟨x, [], hx, ⟨rfl, by rw [hprog]; exact h, fun _ _ => rfl, by simp, by simp⟩, by simp⟩
    obtain ⟨r, s', hperform⟩ : ∃ r s', perform prim server e c x.1.shared = (r, s') := ⟨_, _, rfl⟩
    have hmove := hx.stepped hprog (e := e) ⟨rfl, γ, hγ, by rw [hprog]; exact h⟩ (congrArg some hperform)
    obtain ⟨note, hnote, hrequested, hfailed, hbegan⟩ := observe_newer x.2 t () x.1.shared s' c r
    obtain ⟨x', newer, hx', hleft, hnofail⟩ := ih r (h.2 r) (hlasts.2 r) hmove (update_self _ _ _)
    have hother : c ≠ .broadcastSchedule := by
      rintro rfl
      exact hγ h.1
    have hsend : γ = .toSend → .began ∈ note ∨ γ.next c r = .toSend := by
      rintro rfl
      by_cases hc : Broadcasts c
      · cases c <;> first | exact .inl (hbegan rfl) | exact hc.elim | cases h.1
      · exact .inr (Stage.next_plain hc r)
    refine ⟨x', newer ++ note, hx', ⟨?_, hleft.free, fun u hu => ?_, ?_, fun hγ => ?_⟩, fun hb he => ?_⟩
    · rw [hleft.notes, List.append_assoc, ← hnote]
    · rw [hleft.others u hu]
      exact update_of_ne hu _ _
    · exact List.not_mem_append hleft.requested (hrequested hother)
    · exact List.mem_append.2 ((hsend hγ).symm.imp hleft.began id)
    · subst hb
      have hretain : c ≠ .broadcastRetain := fun hc => Bool.false_ne_true (hlasts.1 hc)
      have hsound := faulty_perform prim server he c x.1.shared
      rw [hperform] at hsound
      exact List.not_mem_append (hnofail hsound he) (hfailed hretain)

/-- **A fresh round broadcasts**, where the flag is set and no query fails. -/
lemma serve_round (he : e.fault = none) (hx : (Plain prim server).Observed observe (LoopMove e) x₀ x)
    (hidle : x.1.at t = none) (hspawned : x.1.shared.spawned = 1)
    (hpending : x.1.shared.broadcastPending = true) (hfree : ∀ u, Stage.free.Runs (x.1.prog u)) :
    ∃ x' newer, (Plain prim server).Observed observe (LoopMove e) x₀ x' ∧ x'.2 = newer ++ x.2 ∧
      ¬ Owed x'.2 ∧ ∀ u, Stage.free.Runs (x'.1.prog u) := by
  obtain ⟨a, ha⟩ : ∃ a, x.1.prog t = .ret a := by
    unfold Pool.Config.at at hidle
    split at hidle
    · exact ⟨_, ‹_›⟩
    · cases hidle
  obtain ⟨k, hk⟩ : ∃ k, snapshotBroadcastRound prim server = .op .broadcastTake k := ⟨_, rfl⟩
  have hround := Stage.meets_round prim server
  have hlasts := lasts_round prim server
  rw [hk] at hround hlasts
  -- the round starts,
  have haccept : (Plain prim server).accept t .broadcastLoop x.1.shared =
      some { x.1.shared with spawned := 0 } := by
    simp [coordinator, Request.accept, hspawned]
  have hstart := hx.spawned ha (show LoopMove e x.1 (.spawn t .broadcastLoop) from rfl) haccept
  -- takes the flag
  have hbody : (Plain prim server).body .broadcastLoop = .op .broadcastTake k := hk
  have htaken := hstart.stepped (t := t) (e := e) (c := .broadcastTake) (k := k) (r := true)
    (s := { x.1.shared with spawned := 0, broadcastPending := false }) ((update_self _ _ _).trans hbody)
    ⟨rfl, .toTake, by simp, by simp only [update_self]; exact Stage.meets_round prim server⟩
    (by simp [coordinator, exec, perform, CoordState.broadcastTake, hpending])
  -- and broadcasts
  obtain ⟨x', newer, hx', hleft, hnofail⟩ := drive (k true) (hround.2 true) (hlasts.2 true) htaken
    (update_self _ _ _)
  refine ⟨x', newer, hx', hleft.notes, ?_, fun u => ?_⟩
  · rw [hleft.notes]
    exact not_owed_of_began (hleft.began rfl) hleft.requested (hnofail rfl he)
  · by_cases hu : u = t
    · exact hu ▸ hleft.free
    · rw [hleft.others u hu]
      simpa [hu] using hfree u

end Driving

/-- **What is owed is broadcast**, by the sections of the loop alone and if no query fails. -/
theorem broadcast_goes_through {prim : Primitives} {server : Server} {e : Env} {init : CoordState}
    {x : Pool.Config Section Response CoordState Unit × List Note} (hinit : init.NoLoop) (he : e.fault = none)
    (h : (Plain prim server).Observed observe (fun _ _ => True)
      ((Plain prim server).initial init, []) x) :
    ∃ x' newer, (Plain prim server).Observed observe (LoopMove e) x x' ∧ x'.2 = newer ++ x.2 ∧
      ¬ Owed x'.2 ∧ ∀ t, Stage.free.Runs (x'.1.prog t) := by
  -- where no task has the loop, what is owed is in the flag and a round is spawned
  have hfresh : ∀ {x₁}, (Plain prim server).Observed observe (LoopMove e) x x₁ →
      (∀ t, Stage.free.Runs (x₁.1.prog t)) →
      ∃ x' newer, (Plain prim server).Observed observe (LoopMove e) x x' ∧ x'.2 = newer ++ x₁.2 ∧
        ¬ Owed x'.2 ∧ ∀ t, Stage.free.Runs (x'.1.prog t) := by
    intro x₁ hx₁ hfree
    by_cases howed : Owed x₁.2
    · have hreach := h.trans (hx₁.strengthen fun _ _ _ _ => trivial)
      obtain ⟨φ, hs, hruns⟩ := broadcasting_of_observed hinit hreach
      have hφ : ∀ t, φ t = .free := fun t => (hruns t).unique (hfree t)
      obtain ⟨n, hn⟩ := hreach.reachable.idle fun _ => rfl
      have hpending : x₁.1.shared.broadcastPending = true := by
        rcases hs.owed howed with hset | ⟨t, ht⟩
        · exact hset
        · rw [hφ t] at ht
          cases ht
      cases hs.loop with
      | none _ hnot => simp [hnot] at hpending
      | spawned _ hspawned => exact serve_round he hx₁ (hn n le_rfl) hspawned hpending hfree
      | held t _ _ ht => exact absurd (hφ t) ht
    · exact ⟨x₁, [], hx₁, rfl, howed, hfree⟩
  obtain ⟨φ, hs, hruns⟩ := broadcasting_of_observed hinit h
  by_cases hheld : ∃ t, φ t ≠ .free
  · obtain ⟨t, ht⟩ := hheld
    obtain ⟨x₁, newer, hx₁, hleft, -⟩ := drive (e := e) (x.1.prog t) (hruns t) (lasts_true _) .refl rfl
    have hfree : ∀ u, Stage.free.Runs (x₁.1.prog u) := by
      intro u
      by_cases hu : u = t
      · exact hu ▸ hleft.free
      · rw [hleft.others u hu, ← (hs.loop.holder ht).2.2 u hu]
        exact hruns u
    obtain ⟨x', newer', hx', hnotes, hend⟩ := hfresh hx₁ hfree
    exact ⟨x', newer' ++ newer, hx', by rw [hnotes, hleft.notes, List.append_assoc], hend⟩
  · have hfree : ∀ u, Stage.free.Runs (x.1.prog u) := by
      intro u
      rw [← not_not.1 (not_exists.1 hheld u)]
      exact hruns u
    exact hfresh .refl hfree

lemma Loop.carried (hloop : Loop s φ) {prog : ℕ → Task PUnit} (hruns : ∀ t, (φ t).Runs (prog t))
    (hrunning : s.broadcastRunning = true) :
    (s.spawned = 1 ∧ ∀ t, ¬ Carries (prog t)) ∨ (s.spawned = 0 ∧ ∃! t, Carries (prog t)) := by
  have hfree : ∀ t, φ t = .free → ¬ Carries (prog t) := by
    intro t ht
    refine not_carries ?_
    rw [← ht]
    exact hruns t
  cases hloop with
  | none hnot => simp [hnot] at hrunning
  | spawned _ hspawned hφ => exact .inl ⟨hspawned, fun t => hfree t (hφ t)⟩
  | held t _ hspawned ht hφ =>
    refine .inr ⟨hspawned, t, ⟨φ t, ht, hruns t⟩, fun u hu => ?_⟩
    by_contra hne
    exact hfree u (hφ u hne) hu

/-- **No broadcast is lost.**  In every interleaving of any requests, from a server without a loop:
the flag is set only while the loop runs; there is never more than one loop, and never more than one
round of it; a loop that runs is spawned or in the hands of one task; the loop ends only when the flag is
not set, and between a request and the next end of the loop a broadcast began and went through; until one
has, the request is in the flag or with a task that is about to broadcast; and if no query fails the sections
of the loop alone lead to that broadcast. -/
theorem broadcast_never_lost (prim : Primitives) (server : Server) (init : CoordState)
    (hinit : init.NoLoop) (x : Pool.Config Section Response CoordState Unit × List Note)
    (h : (Plain prim server).Observed observe (fun _ _ => True)
      ((Plain prim server).initial init, []) x) :
    (x.1.shared.broadcastPending = true → x.1.shared.broadcastRunning = true) ∧
      x.2.count .started = x.2.countP Note.isExit + (if x.1.shared.broadcastRunning then 1 else 0) ∧
      (∀ t u c d, x.1.at t = some c → x.1.at u = some d → InRound c → InRound d → t = u) ∧
      (x.1.shared.broadcastRunning = true →
        (x.1.shared.spawned = 1 ∧ ∀ t, ¬ Carries (x.1.prog t)) ∨
          (x.1.shared.spawned = 0 ∧ ∃! t, Carries (x.1.prog t))) ∧
      (∀ pending, .exited pending ∈ x.2 → pending = false) ∧
      (∀ newer pending between older,
        x.2 = newer ++ .exited pending :: (between ++ .requested :: older) → Served between) ∧
      (∀ newer older, x.2 = newer ++ .requested :: older →
        Served newer ∨ x.1.shared.broadcastPending = true ∨ ∃ t, Stage.toSend.Runs (x.1.prog t)) ∧
      ∀ e, e.fault = none → ∃ x' latest, (Plain prim server).Observed observe (LoopMove e) x x' ∧
        x'.2 = latest ++ x.2 ∧ (∀ t, ¬ Carries (x'.1.prog t)) ∧
        ∀ newer older, x.2 = newer ++ .requested :: older → Served (latest ++ newer) := by
  obtain ⟨φ, hs, hmeets⟩ := broadcasting_of_observed hinit h
  refine ⟨?_, hs.loops, ?_, hs.loop.carried hmeets, hs.exits, ?_, ?_, fun e he => ?_⟩
  · intro hpending
    cases hs.loop with
    | none _ hnot => simp [hnot] at hpending
    | spawned hrunning | held _ hrunning => exact hrunning
  · have hheld : ∀ {t c}, x.1.at t = some c → InRound c → φ t ≠ .free := fun hat =>
      Stage.not_free_of_inRound (Pool.Config.ok_at (hmeets _) hat)
    intro t u c d ht hu hc hd
    obtain ⟨-, -, hothers⟩ := hs.loop.holder (hheld hu hd)
    by_contra hne
    exact hheld ht hc (hothers t hne)
  · intro newer pending between older heq
    exact served_of_not_owed (show Owed (.requested :: older) from trivial) (hs.served newer pending _ heq)
  · intro newer older heq
    by_cases howed : Owed x.2
    · refine .inr ((hs.owed howed).imp_right ?_)
      rintro ⟨t, ht⟩
      exact ⟨t, ht ▸ hmeets t⟩
    · rw [heq] at howed
      exact .inl (served_of_not_owed (show Owed (.requested :: older) from trivial) howed)
  · obtain ⟨x', latest, hx', hnotes, hend, hfree⟩ := broadcast_goes_through hinit he h
    refine ⟨x', latest, hx', hnotes, fun t => not_carries (hfree t), fun newer older heq => ?_⟩
    rw [hnotes, heq, ← List.append_assoc] at hend
    exact served_of_not_owed (show Owed (.requested :: older) from trivial) hend

/-- A new configuration is announced by one round of the loop, and there is another one. -/
def announce : List (Pool.Move Env Request) :=
  .spawn 0 (.configure { dohServers := ["d"], stunServers := [] }) ::
    (List.replicate 4 (.step 0 demoEnv) ++
      .spawn 1 .broadcastLoop :: List.replicate 7 (.step 1 demoEnv) ++
      .spawn 0 (.configure { dohServers := ["e"], stunServers := [] }) :: List.replicate 4 (.step 0 demoEnv))

lemma announce_facts :
    ((Plain demoPrim demoServer).runObserved observe (fun _ _ => true)
      ((Plain demoPrim demoServer).initial demoState, []) announce).map
        (fun x => (x.2, x.1.shared.broadcastRunning, x.1.shared.spawned)) =
      some ([.started, .requested, .exited false, .began, .started, .requested], true, 1) := by
  decide +kernel

/-- The first one has been broadcast, the round for the second one is spawned and can broadcast it. -/
theorem broadcast_never_lost_announce :
    ∃ x : Pool.Config Section Response CoordState Unit × List Note,
      (Plain demoPrim demoServer).Observed observe (fun _ _ => True)
        ((Plain demoPrim demoServer).initial demoState, []) x ∧
      x.2 = [.started, .requested, .exited false, .began, .started, .requested] ∧
      x.1.shared.spawned = 1 ∧ (∀ t, ¬ Carries (x.1.prog t)) ∧ Served [.began, .started] ∧
      ∃ x' latest, (Plain demoPrim demoServer).Observed observe (LoopMove demoEnv) x x' ∧
        x'.2 = latest ++ x.2 ∧ (∀ t, ¬ Carries (x'.1.prog t)) ∧ Served (latest ++ [.started]) := by
  obtain ⟨x, hrun, hfacts⟩ := Option.map_eq_some_iff.1 announce_facts
  obtain ⟨hnotes, hrunning, hspawned⟩ : x.2 = _ ∧ x.1.shared.broadcastRunning = _ ∧
      x.1.shared.spawned = _ := by simpa using hfacts
  have hreach : (Plain demoPrim demoServer).Observed observe (fun _ _ => True)
      ((Plain demoPrim demoServer).initial demoState, []) x :=
    Pool.Spec.observed_of_run (fun _ _ _ => trivial) announce .refl hrun
  obtain ⟨-, -, -, hloop, -, hserved, -, hgoes⟩ :=
    broadcast_never_lost demoPrim demoServer demoState ⟨rfl, rfl, rfl⟩ x hreach
  obtain ⟨x', latest, hx', hlatest, hfree, hnewer⟩ := hgoes demoEnv rfl
  have hnone : ∀ t, ¬ Carries (x.1.prog t) := by
    rcases hloop hrunning with ⟨-, hnone⟩ | ⟨hzero, -⟩
    · exact hnone
    · rw [hspawned] at hzero
      cases hzero
  exact ⟨x, hreach, hnotes, hspawned, hnone, hserved [.started, .requested] false [.began, .started] [] hnotes,
    x', latest, hx', hlatest, hfree, hnewer [.started] _ hnotes⟩

end Vela.Coord
