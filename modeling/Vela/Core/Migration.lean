import Vela.Core.Sections

/-!
# Path migration

`observe_data_source` keeps one candidate path and a counter. Over a whole trace of accepted data packets
this amounts to a rule about the last packets that came from elsewhere than the current path:

* `path_migration_exact` — the path moves at the third of three strays in close succession, and only there.
-/

namespace Vela.Core

open Vela.Proto Vela.Crypto

/-- An accepted data packet. -/
structure Arrival where
  source : SocketAddr
  time : Instant
  deriving DecidableEq

/-- `a` comes from the source of `r`, at most two seconds after it. -/
def Arrival.Confirms (a r : Arrival) : Prop :=
  r.source = a.source ∧ a.time - r.time ≤ pathMigrationWindow

instance (a r : Arrival) : Decidable (a.Confirms r) := by
  unfold Arrival.Confirms
  infer_instance

namespace ActiveSession

/-- One packet; the second component is the list of packets since the last migration, newest first. -/
def observeArrival (state : ActiveSession × List Arrival) (a : Arrival) : ActiveSession × List Arrival :=
  let (changed, session) := state.1.observeDataSource a.source a.time
  (session, if changed then [] else a :: state.2)

def observeAll (session : ActiveSession) (trace : List Arrival) : ActiveSession × List Arrival :=
  trace.foldl observeArrival (session, [])

/-- The packets from elsewhere than the current path. -/
def strays (state : ActiveSession × List Arrival) : List Arrival :=
  state.2.filter fun a => a.source ≠ state.1.path

end ActiveSession

/-- The candidate after strays that did not move the path. -/
def pendingOf : List Arrival → Option PendingPathMigration
  | [] => none
  | [r] => some ⟨r.source, 1, r.time⟩
  | r :: q :: _ => some ⟨r.source, if r.Confirms q then 2 else 1, r.time⟩

/-- The two newest strays and this packet are three in close succession. -/
def Arrival.Moves (a : Arrival) (strays : List Arrival) : Prop :=
  ∃ r q rest, strays = r :: q :: rest ∧ a.Confirms r ∧ r.Confirms q

variable {a : Arrival} {state : ActiveSession × List Arrival} {path : SocketAddr}

@[simp] lemma Arrival.moves_cons {r q : Arrival} {rest : List Arrival} :
    a.Moves (r :: q :: rest) ↔ a.Confirms r ∧ r.Confirms q := by
  constructor
  · rintro ⟨_, _, _, h, hr, hq⟩
    cases h
    exact ⟨hr, hq⟩
  · rintro ⟨hr, hq⟩
    exact ⟨r, q, rest, rfl, hr, hq⟩

lemma confirmPathMigration_some (hpath : a.source ≠ path) (r : Arrival) (confirmations : ℕ) :
    confirmPathMigration path (some ⟨r.source, confirmations, r.time⟩) a.source a.time =
      if a.Confirms r ∧ 2 ≤ confirmations then (true, none)
      else (false, some ⟨a.source, if a.Confirms r then confirmations + 1 else 1, a.time⟩) := by
  unfold confirmPathMigration
  rw [if_neg hpath]
  by_cases hr : a.Confirms r
  · have hcond : r.source = a.source ∧ a.time - r.time ≤ pathMigrationWindow := hr
    dsimp only
    rw [if_pos hcond, if_pos hr, hcond.1]
    by_cases hmany : 2 ≤ confirmations
    · have hthree : ¬ min (confirmations + 1) 255 < pathMigrationConfirmations := by
        unfold pathMigrationConfirmations
        omega
      rw [if_neg hthree]
      exact (if_pos ⟨hr, hmany⟩).symm
    · have hthree : min (confirmations + 1) 255 < pathMigrationConfirmations := by
        unfold pathMigrationConfirmations
        omega
      rw [if_pos hthree, Nat.min_eq_left (by omega)]
      exact (if_neg fun h => hmany h.2).symm
  · have hcond : ¬ (r.source = a.source ∧ a.time - r.time ≤ pathMigrationWindow) := hr
    dsimp only
    rw [if_neg hcond, if_neg hr]
    exact (if_neg fun h => hr h.1).symm

lemma confirmPathMigration_pendingOf (hpath : a.source ≠ path) (strays : List Arrival) :
    (a.Moves strays ∧ confirmPathMigration path (pendingOf strays) a.source a.time = (true, none)) ∨
    (¬ a.Moves strays ∧
      confirmPathMigration path (pendingOf strays) a.source a.time = (false, pendingOf (a :: strays))) := by
  match strays with
  | [] =>
    refine .inr ⟨fun h => ?_, ?_⟩
    · obtain ⟨_, _, _, h, -⟩ := h
      cases h
    · simp [confirmPathMigration, pendingOf, hpath, pathMigrationConfirmations]
  | [r] =>
    refine .inr ⟨fun h => ?_, ?_⟩
    · obtain ⟨_, _, _, h, -⟩ := h
      cases h
    · rw [pendingOf, confirmPathMigration_some hpath, if_neg (by omega), pendingOf]
  | r :: q :: rest =>
    rw [Arrival.moves_cons, pendingOf, confirmPathMigration_some hpath, pendingOf]
    by_cases hq : r.Confirms q
    · -- the counter stands at two: a third confirmation moves the path
      rw [if_pos hq]
      by_cases hr : a.Confirms r
      · exact .inl ⟨⟨hr, hq⟩, if_pos ⟨hr, le_rfl⟩⟩
      · refine .inr ⟨fun h => hr h.1, ?_⟩
        rw [if_neg fun h => hr h.1, if_neg hr, if_neg hr]
    · refine .inr ⟨fun h => hq h.2, ?_⟩
      rw [if_neg hq, if_neg (by omega)]

lemma observeDataSource_pendingOf
    (hpending : state.1.pendingPath = pendingOf (ActiveSession.strays state)) (a : Arrival) :
    ((a.source ≠ state.1.path ∧ a.Moves (ActiveSession.strays state)) ∧
      state.1.observeDataSource a.source a.time =
        (true, { state.1 with path := a.source, pendingPath := none })) ∨
    (¬ (a.source ≠ state.1.path ∧ a.Moves (ActiveSession.strays state)) ∧
      state.1.observeDataSource a.source a.time =
        (false, { state.1 with pendingPath := pendingOf (ActiveSession.strays (state.1, a :: state.2)) })) := by
  unfold ActiveSession.observeDataSource
  rw [hpending]
  by_cases hpath : a.source = state.1.path
  · refine .inr ⟨fun h => h.1 hpath, ?_⟩
    have hsame : ActiveSession.strays (state.1, a :: state.2) = ActiveSession.strays state := by
      simp [ActiveSession.strays, hpath]
    rw [hsame]
    simp [confirmPathMigration, hpath]
  · have hmore : ActiveSession.strays (state.1, a :: state.2) = a :: ActiveSession.strays state := by
      simp [ActiveSession.strays, hpath]
    rw [hmore]
    rcases confirmPathMigration_pendingOf hpath (ActiveSession.strays state) with ⟨hmoves, h⟩ | ⟨hmoves, h⟩
    · refine .inl ⟨⟨hpath, hmoves⟩, ?_⟩
      rw [h]
      rfl
    · refine .inr ⟨fun hboth => hmoves hboth.2, ?_⟩
      rw [h]
      rfl

lemma pendingPath_observeArrival
    (hpending : state.1.pendingPath = pendingOf (ActiveSession.strays state)) (a : Arrival) :
    (ActiveSession.observeArrival state a).1.pendingPath =
      pendingOf (ActiveSession.strays (ActiveSession.observeArrival state a)) := by
  unfold ActiveSession.observeArrival
  rcases observeDataSource_pendingOf hpending a with ⟨-, h⟩ | ⟨-, h⟩
  · rw [h]
    rfl
  · rw [h]
    rfl

lemma pendingPath_foldl (trace : List Arrival)
    (hpending : state.1.pendingPath = pendingOf (ActiveSession.strays state)) :
    (trace.foldl ActiveSession.observeArrival state).1.pendingPath =
      pendingOf (ActiveSession.strays (trace.foldl ActiveSession.observeArrival state)) := by
  induction trace generalizing state with
  | nil => exact hpending
  | cons a trace ih => exact ih (pendingPath_observeArrival hpending a)

/-- **Path migration over a trace.** After any trace of packets of a new session, the next one moves the
path, to its own source, just when it and the two newest packets from elsewhere than the path since the last
migration come from one source with gaps of at most two seconds. -/
theorem path_migration_exact (node : Node) (e : Env) (sessionId : UInt64) (path : SocketAddr)
    (cipher : SessionCipher) (madeFor : PeerInfo) (handshake : NoiseHandshake) (trace : List Arrival)
    (a : Arrival) :
    let state := (freshSession node e sessionId path cipher madeFor handshake).observeAll trace
    let moves := a.source ≠ state.1.path ∧ ∃ r q rest, ActiveSession.strays state = r :: q :: rest ∧
      r.source = a.source ∧ q.source = a.source ∧
      a.time - r.time ≤ pathMigrationWindow ∧ r.time - q.time ≤ pathMigrationWindow
    ((state.1.observeDataSource a.source a.time).1 = true ↔ moves) ∧
    (moves → (state.1.observeDataSource a.source a.time).2.path = a.source) ∧
    (¬ moves → (state.1.observeDataSource a.source a.time).2.path = state.1.path) := by
  intro state moves
  have hpending : state.1.pendingPath = pendingOf (ActiveSession.strays state) :=
    pendingPath_foldl trace rfl
  have hmoves : moves ↔ a.source ≠ state.1.path ∧ a.Moves (ActiveSession.strays state) := by
    refine and_congr_right fun _ => ?_
    constructor
    · rintro ⟨r, q, rest, h, hr, hq, htr, htq⟩
      exact ⟨r, q, rest, h, ⟨hr, htr⟩, hq.trans hr.symm, htq⟩
    · rintro ⟨r, q, rest, h, ⟨hr, htr⟩, hq, htq⟩
      exact ⟨r, q, rest, h, hr, hq.trans hr, htr, htq⟩
  rw [hmoves]
  rcases observeDataSource_pendingOf hpending a with ⟨hdoes, h⟩ | ⟨hdoes, h⟩
  · rw [h]
    exact ⟨iff_of_true rfl hdoes, fun _ => rfl, fun hnot => absurd hdoes hnot⟩
  · rw [h]
    exact ⟨iff_of_false nofun hdoes, fun hnot => absurd hnot hdoes, fun _ => rfl⟩

end Vela.Core
