import Vela.Coord.Server

/-!
# Several servers on one database

A command of the CLI opens the database of the running server with a server of its own.  The tables
are shared; each server has its own copy of the generation, loaded when it was opened.

* `generation_monotone_iff` — the persisted generations increase exactly if every bump is made by a
  server that has the persisted one;
* `generation_persisted_twice` — a command that raises the generation beside a running server.
-/

namespace Vela.Coord

open Vela.Proto Vela.Crypto Function

/-! ### The database and its servers -/

/-- The tables in the database file. -/
structure Database where
  peers : AList fun _ : NodeId => PeerRow
  invites : AList fun _ : Vector UInt8 32 => InviteRow
  /-- the row `snapshot_generation` of the table `metadata`, if there is one -/
  generation : Option Int

/-- The generation that a server starts with: the row as a `u64`, and 1 where that fails or is 0. -/
def loadedGeneration (value : Int) : UInt64 :=
  let converted := if 0 ≤ value then some (UInt64.ofNat value.toNat) else none
  (converted.filter fun value => value != 0).getD 1

/-- A server right after `CoordServer::open`. -/
def Database.openServer (database : Database) (networkConfig : ServerNetworkConfig) : CoordState where
  peers := database.peers
  invites := database.invites
  storedGeneration := database.generation.getD 1
  online := ∅
  runtimeStatus := ∅
  snapshotGeneration := loadedGeneration (database.generation.getD 1)
  broadcastPending := false
  broadcastRunning := false
  networkConfig := networkConfig
  spawned := 0
  sent := []
  pushed := []
  log := []

/-- A server that reads the tables as they are now. -/
def CoordState.withDatabase (s : CoordState) (database : Database) : CoordState :=
  { s with
    peers := database.peers
    invites := database.invites
    storedGeneration := database.generation.getD 1 }

def CoordState.database (s : CoordState) : Database where
  peers := s.peers
  invites := s.invites
  generation := some s.storedGeneration

structure Deployment where
  database : Database
  servers : ℕ → Option CoordState

inductive Action where
  /-- a server is opened; `migrate_virtual_ipv4` leaves `peers`, and the settings give the network
  configuration -/
  | start (i : ℕ) (peers : AList fun _ : NodeId => PeerRow) (networkConfig : ServerNetworkConfig)
  /-- a server performs a section -/
  | run (i : ℕ) (e : Env) (c : Section)
  /-- a server ends, at any point -/
  | stop (i : ℕ)

/-- What a `bump_snapshot` that returned `Ok` found. -/
structure Bump where
  /-- the generation in the database -/
  stored : Int
  /-- the generation of the server -/
  counter : UInt64
  deriving DecidableEq

/-- What it persisted. -/
def Bump.value (bump : Bump) : Int := bump.counter.toNat + 1

namespace Deployment

/-- The persisted generation; a row that is not there yet counts as the 1 it will be inserted with. -/
def stored (d : Deployment) : Int := d.database.generation.getD 1

/-- The generation of a server that is open. -/
def counter (d : Deployment) (i : ℕ) : Option UInt64 := (d.servers i).map CoordState.snapshotGeneration

variable (prim : Primitives) (server : Server)

/-- The state of a server after a section, which works on the tables as they are. -/
def serverAfter (d : Deployment) (e : Env) (c : Section) (s : CoordState) : Response c × CoordState :=
  perform prim server e c (s.withDatabase d.database)

def step (d : Deployment) : Action → Option Deployment
  | .start i peers networkConfig =>
    match d.servers i with
    | some _ => none
    | none =>
      -- the row of the generation is inserted if there is none
      let database : Database :=
        { d.database with peers, generation := some (d.database.generation.getD 1) }
      some
        { database
          servers := update d.servers i (some (database.openServer networkConfig)) }
  | .run i e c =>
    (d.servers i).map fun s =>
      let s' := (d.serverAfter prim server e c s).2
      { database := s'.database, servers := update d.servers i (some s') }
  | .stop i => some { d with servers := update d.servers i none }

/-- What the history gets from a step. -/
def recorded (d : Deployment) (h : List Bump) : Action → List Bump
  | .run i e .bumpSnapshot =>
    match d.servers i with
    | none => h
    | some s =>
      match (d.serverAfter prim server e .bumpSnapshot s).1 with
      | .ok _ => { stored := d.stored, counter := s.snapshotGeneration } :: h
      | .error _ => h
  | _ => h

/-- The deployments that steps lead to, with their histories. -/
inductive Run (init : Deployment) : Deployment → List Bump → Prop
  | refl : Run init init []
  | step {d d' : Deployment} {h : List Bump} {action : Action} : Run init d h →
      d.step prim server action = some d' → Run init d' (d.recorded prim server h action)

end Deployment

/-! ### What a step does to the generation -/

section Steps

variable {prim : Primitives} {server : Server} {d d' : Deployment} {h : List Bump} {e : Env}

lemma loadedGeneration_ge {value : Int} (h : value < 2 ^ 63) :
    value ≤ (loadedGeneration value).toNat := by
  unfold loadedGeneration
  by_cases hpos : 0 < value
  · have hnat : (UInt64.ofNat value.toNat).toNat = value.toNat := UInt64.toNat_ofNat_of_lt (by
      show value.toNat < 2 ^ 64
      omega)
    have hne : UInt64.ofNat value.toNat ≠ 0 := by
      intro hzero
      rw [hzero] at hnat
      simp at hnat
      omega
    simp only [if_pos hpos.le, Option.filter_some, bne_iff_ne]
    rw [if_pos hne, Option.getD_some]
    omega
  · have hsmall : value ≤ 0 := not_lt.1 hpos
    omega

/-- **`bump_snapshot`** persists the next generation and takes it over, or returns an error and
changes nothing. -/
theorem bumpSnapshot_cases (e : Env) (s : CoordState) :
    (∃ error, perform prim server e .bumpSnapshot s = (.error error, s)) ∨
      s.snapshotGeneration.toNat + 1 < 2 ^ 63 ∧
      perform prim server e .bumpSnapshot s = (.ok (), { s with
        storedGeneration := s.snapshotGeneration.toNat + 1
        snapshotGeneration := UInt64.ofNat (s.snapshotGeneration.toNat + 1) }) := by
  simp only [perform, Env.database]
  split
  · exact .inl ⟨_, rfl⟩
  · unfold CoordState.bumpSnapshot
    simp only
    split
    · rename_i hlt
      exact .inr ⟨hlt, by push_cast; rfl⟩
    · exact .inl ⟨_, rfl⟩

lemma generation_of_ne_bump {c : Section} (hc : c ≠ .bumpSnapshot) (s : CoordState) :
    (perform prim server e c s).2.storedGeneration = s.storedGeneration ∧
      (perform prim server e c s).2.snapshotGeneration = s.snapshotGeneration := by
  have hpart : c.part ≠ .generation := by
    cases c <;> first | exact absurd rfl hc | simp [Section.part]
  have hframe := @perform_frame prim server e c s
  exact ⟨hframe.storedGeneration hpart, hframe.snapshotGeneration hpart⟩

/-- What one step does to the generations and the history. -/
inductive Deployment.Change (d d' : Deployment) (h h' : List Bump) : Prop
  | start (i : ℕ)
      (hcounter : d'.counter = update d.counter i (some (loadedGeneration d.stored)))
      (hstored : d'.stored = d.stored) (hh : h' = h)
  /-- other sections, errors, and the end of a server -/
  | quiet (hcounter : ∀ i k, d'.counter i = some k → d.counter i = some k)
      (hstored : d'.stored = d.stored) (hh : h' = h)
  | bump (i : ℕ) (k : UInt64) (hk : d.counter i = some k) (hsmall : k.toNat + 1 < 2 ^ 63)
      (hcounter : d'.counter = update d.counter i (some (UInt64.ofNat (k.toNat + 1))))
      (hstored : d'.stored = k.toNat + 1) (hh : h' = { stored := d.stored, counter := k } :: h)

lemma counter_update (servers : ℕ → Option CoordState) (database : Database) (i : ℕ)
    (s : Option CoordState) :
    Deployment.counter { database, servers := update servers i s } =
      update (fun i => (servers i).map CoordState.snapshotGeneration) i
        (s.map CoordState.snapshotGeneration) := by
  funext j
  unfold Deployment.counter
  by_cases hj : j = i
  · subst hj
    simp
  · simp [hj]

lemma change_run {i : ℕ} {c : Section} (hstep : d.step prim server (.run i e c) = some d') :
    d.Change d' h (d.recorded prim server h (.run i e c)) := by
  obtain ⟨s, hs, rfl⟩ := Option.map_eq_some_iff.1 hstep
  have hcounter : d.counter i = some s.snapshotGeneration := by simp [Deployment.counter, hs]
  -- a section that changes neither generation
  have hquiet : ∀ {h'}, (d.serverAfter prim server e c s).2.storedGeneration = d.stored →
      (d.serverAfter prim server e c s).2.snapshotGeneration = s.snapshotGeneration → h' = h →
      d.Change
        { database := (d.serverAfter prim server e c s).2.database
          servers := update d.servers i (some (d.serverAfter prim server e c s).2) } h h' := by
    intro h' hstored hsame hh
    refine .quiet (fun j k hk => ?_) hstored hh
    rw [counter_update, Option.map_some, hsame, ← hcounter] at hk
    rwa [show update (fun i => (d.servers i).map CoordState.snapshotGeneration) i
      (d.counter i) = d.counter from update_eq_self i d.counter] at hk
  by_cases hc : c = .bumpSnapshot
  · subst hc
    rcases @bumpSnapshot_cases prim server e (s.withDatabase d.database) with
      ⟨error, heq⟩ | ⟨hsmall, heq⟩
    · refine hquiet ?_ ?_ ?_ <;>
        simp only [Deployment.recorded, Deployment.serverAfter, hs, heq] <;> rfl
    · refine .bump i s.snapshotGeneration hcounter hsmall ?_ ?_ ?_
      · rw [counter_update]
        simp only [Deployment.serverAfter, heq]
        rfl
      · simp only [Deployment.serverAfter, heq]
        rfl
      · simp only [Deployment.recorded, Deployment.serverAfter, hs, heq]
  · obtain ⟨hstored, hsame⟩ := @generation_of_ne_bump prim server e c hc (s.withDatabase d.database)
    refine hquiet hstored hsame ?_
    cases c <;> first | rfl | exact absurd rfl hc

/-- **One step.** -/
theorem change_step {action : Action} (hstep : d.step prim server action = some d') :
    d.Change d' h (d.recorded prim server h action) := by
  cases action with
  | start i peers networkConfig =>
    simp only [Deployment.step] at hstep
    split at hstep
    · cases hstep
    · cases hstep
      exact .start i (counter_update ..) rfl rfl
  | run i e c => exact change_run hstep
  | stop i =>
    cases hstep
    refine .quiet (fun j k hk => ?_) rfl rfl
    rw [counter_update] at hk
    by_cases hj : j = i
    · subst hj
      simp at hk
    · rwa [update_of_ne hj] at hk

end Steps

/-! ### Runs -/

/-- Every bump was made by a server that had the persisted generation. -/
def AllCurrent (h : List Bump) : Prop := ∀ bump ∈ h, bump.stored ≤ bump.counter.toNat

/-- No bump lowered the persisted generation, and no two persisted the same. -/
def Increasing (h : List Bump) : Prop :=
  (∀ bump ∈ h, bump.stored ≤ bump.value) ∧ (h.map Bump.value).Nodup

/-- What holds in every run. -/
structure Deployment.Kept (d : Deployment) (h : List Bump) : Prop where
  small : d.stored < 2 ^ 63
  /-- a server that is behind was overtaken by a bump -/
  behind : ∀ i k, d.counter i = some k → d.stored ≤ k.toNat ∨ ∃ bump ∈ h, bump.value = d.stored
  reached : AllCurrent h → ∀ bump ∈ h, bump.value ≤ d.stored
  increasing : AllCurrent h → Increasing h
  current : Increasing h → AllCurrent h

section Runs

variable {prim : Primitives} {server : Server} {init d d' : Deployment} {h h' : List Bump}

lemma Deployment.Kept.bump (hd : d.Kept h) {i : ℕ} {k : UInt64} (hk : d.counter i = some k)
    (hsmall : k.toNat + 1 < 2 ^ 63) (hstored : d'.stored = k.toNat + 1) :
    d'.Kept ({ stored := d.stored, counter := k } :: h) where
  small := by omega
  behind j k' _ := Or.inr ⟨_, List.mem_cons_self .., hstored.symm⟩
  reached hall := by
    obtain ⟨hcurrent, hall⟩ := List.forall_mem_cons.1 hall
    refine List.forall_mem_cons.2 ⟨hstored.ge, fun bump hbump => ?_⟩
    have hold := hd.reached hall bump hbump
    simp only at hcurrent
    omega
  increasing hall := by
    obtain ⟨hcurrent, hall⟩ := List.forall_mem_cons.1 hall
    obtain ⟨hnever, hdistinct⟩ := hd.increasing hall
    simp only at hcurrent
    refine ⟨List.forall_mem_cons.2 ⟨?_, hnever⟩, ?_⟩
    · simp only [Bump.value]
      omega
    · refine List.nodup_cons.2 ⟨fun hmem => ?_, hdistinct⟩
      obtain ⟨bump, hbump, heq⟩ := List.mem_map.1 hmem
      have hold := hd.reached hall bump hbump
      simp only [Bump.value] at heq hold
      omega
  current hinc := by
    obtain ⟨hnever, hdistinct⟩ := hinc
    obtain ⟨hvalue, hnever⟩ := List.forall_mem_cons.1 hnever
    obtain ⟨hnew, hdistinct⟩ := List.nodup_cons.1 hdistinct
    refine List.forall_mem_cons.2 ⟨?_, hd.current ⟨hnever, hdistinct⟩⟩
    rcases hd.behind i k hk with hcurrent | ⟨bump, hbump, heq⟩
    · exact hcurrent
    · -- the value to be persisted is at least the one of `bump`, and not the same
      by_contra hbehind
      simp only [Bump.value] at hvalue hbehind
      refine hnew (List.mem_map.2 ⟨bump, hbump, ?_⟩)
      simp only [Bump.value] at heq ⊢
      omega

lemma Deployment.Kept.step (hd : d.Kept h) (hchange : d.Change d' h h') : d'.Kept h' := by
  cases hchange with
  | start i hcounter hstored hh =>
    subst hh
    refine ⟨by rw [hstored]; exact hd.small, fun j k hk => ?_, ?_, hd.increasing, hd.current⟩
    · rw [hcounter] at hk
      rw [hstored]
      by_cases hj : j = i
      · subst hj
        rw [update_self] at hk
        cases hk
        exact .inl (loadedGeneration_ge hd.small)
      · rw [update_of_ne hj] at hk
        exact hd.behind j k hk
    · rw [hstored]
      exact hd.reached
  | quiet hcounter hstored hh =>
    subst hh
    refine ⟨by rw [hstored]; exact hd.small, fun j k hk => ?_, ?_, hd.increasing, hd.current⟩
    · rw [hstored]
      exact hd.behind j k (hcounter j k hk)
    · rw [hstored]
      exact hd.reached
  | bump i k hk hsmall hcounter hstored hh =>
    subst hh
    exact hd.bump hk hsmall hstored

lemma kept_of_run (hclosed : ∀ i, init.servers i = none) (hsmall : init.stored < 2 ^ 63)
    (hrun : Deployment.Run prim server init d h) : d.Kept h := by
  induction hrun with
  | refl =>
    refine ⟨hsmall, fun i k hk => ?_, nofun, fun _ => ⟨nofun, .nil⟩, nofun⟩
    simp [Deployment.counter, hclosed i] at hk
  | step _ hstep ih => exact ih.step (change_step hstep)

end Runs

/-- **When the generation is monotone.**  In every run of any number of servers on one database, with
faults and restarts: the persisted generation never decreases and no two bumps persist the same one,
exactly if every bump was made by a server whose own generation was not behind the persisted one.  It
changes by these bumps only, and a bump that returns an error changes neither generation. -/
theorem generation_monotone_iff (prim : Primitives) (server : Server) (init : Deployment)
    (hclosed : ∀ i, init.servers i = none) (hsmall : init.stored < 2 ^ 63) (d : Deployment)
    (h : List Bump) (hrun : Deployment.Run prim server init d h) :
    (Increasing h ↔ AllCurrent h) ∧
      (∀ action d', d.step prim server action = some d' →
        d'.stored = d.stored ∧ d.recorded prim server h action = h ∨
        ∃ bump, d.recorded prim server h action = bump :: h ∧ bump.stored = d.stored ∧
          bump.value = d'.stored) ∧
      ∀ i e s error d', d.servers i = some s →
        (d.serverAfter prim server e .bumpSnapshot s).1 = .error error →
        d.step prim server (.run i e .bumpSnapshot) = some d' →
        d'.stored = d.stored ∧ d'.counter i = d.counter i := by
  have hkept := kept_of_run hclosed hsmall hrun
  refine ⟨⟨hkept.current, hkept.increasing⟩, fun action d' hstep => ?_, ?_⟩
  · cases change_step hstep with
    | start i hcounter hstored hh => exact .inl ⟨hstored, hh⟩
    | quiet hcounter hstored hh => exact .inl ⟨hstored, hh⟩
    | bump i k hk hsmall hcounter hstored hh => exact .inr ⟨_, hh, rfl, hstored.symm⟩
  · intro i e s error d' hs herror hstep
    simp only [Deployment.step, hs, Option.map_some, Option.some.injEq] at hstep
    subst hstep
    rcases @bumpSnapshot_cases prim server e (s.withDatabase d.database) with
      ⟨error', heq⟩ | ⟨-, heq⟩
    · rw [counter_update]
      simp only [Deployment.serverAfter, heq, update_self, Option.map_some,
        Deployment.counter, hs]
      exact ⟨rfl, rfl⟩
    · rw [Deployment.serverAfter, heq] at herror
      cases herror

/-! ### A command beside the server -/

/-- A database without rows. -/
def emptyDeployment : Deployment where
  database := { peers := ∅, invites := ∅, generation := none }
  servers _ := none

/-- A given run. -/
def Deployment.runActions (d : Deployment) (h : List Bump) : List Action → Option (Deployment × List Bump)
  | [] => some (d, h)
  | action :: actions =>
    (d.step demoPrim demoServer action).bind fun d' =>
      d'.runActions (d.recorded demoPrim demoServer h action) actions

lemma run_of_runActions {init : Deployment} : ∀ (actions : List Action) {d d' : Deployment}
    {h h' : List Bump}, Deployment.Run demoPrim demoServer init d h →
    d.runActions h actions = some (d', h') → Deployment.Run demoPrim demoServer init d' h' := by
  intro actions
  induction actions with
  | nil =>
    intro d d' h h' hrun heq
    cases heq
    exact hrun
  | cons action actions ih =>
    intro d d' h h' hrun heq
    obtain ⟨mid, hstep, hrest⟩ := Option.bind_eq_some_iff.1 heq
    exact ih (.step hrun hstep) hrest

def startAction (i : ℕ) : Action := .start i ∅ { dohServers := [], stunServers := [] }
def bumpAction (i : ℕ) : Action := .run i demoEnv .bumpSnapshot

lemma restart_facts :
    (emptyDeployment.runActions [] [startAction 0, bumpAction 0, bumpAction 0, .stop 0, startAction 0,
      bumpAction 0]).map (·.2) = some [⟨3, 3⟩, ⟨2, 2⟩, ⟨1, 1⟩] := by
  decide +kernel

theorem generation_monotone_restart :
    ∃ d h, Deployment.Run demoPrim demoServer emptyDeployment d h ∧ h.length = 3 ∧ Increasing h := by
  obtain ⟨⟨d, h⟩, hrun, rfl⟩ := Option.map_eq_some_iff.1 restart_facts
  have hreach := run_of_runActions _ .refl hrun
  have hiff := (generation_monotone_iff demoPrim demoServer emptyDeployment (fun _ => rfl) (by decide) d _
    hreach).1
  exact ⟨d, _, hreach, rfl, hiff.2 (by unfold AllCurrent; decide)⟩

lemma command_facts :
    (emptyDeployment.runActions [] [startAction 0, startAction 1, bumpAction 1, bumpAction 0]).map
      (·.2) = some [⟨2, 1⟩, ⟨1, 1⟩] := by
  decide +kernel

/-- A command opens the database beside the running server and raises the generation; the server then
persists the same generation again. -/
theorem generation_persisted_twice :
    ¬ ∀ (prim : Primitives) (server : Server) (init : Deployment), (∀ i, init.servers i = none) →
      init.stored < 2 ^ 63 → ∀ d h, Deployment.Run prim server init d h → Increasing h := by
  intro hall
  obtain ⟨⟨d, h⟩, hrun, rfl⟩ := Option.map_eq_some_iff.1 command_facts
  have hinc := hall demoPrim demoServer emptyDeployment (fun _ => rfl) (by decide) d _
    (run_of_runActions _ .refl hrun)
  exact absurd hinc.2 (by decide)

end Vela.Coord
