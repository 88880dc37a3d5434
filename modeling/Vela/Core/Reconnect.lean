import Vela.Core.Queue
import Vela.Core.Frames

/-!
# Reconnect loops

`schedule_reconnect` starts a loop when `requested` is set and `running` is not; the loop resets both once
`connect` has found a session, and so does `establish`.  The flags are written in sections of their own,
so a loop may outlive its `running`.

* `one_reconnect_loop`: where reconnects are requested only of peers without a session, a loop or an
  `establish` under way, a peer has one loop at most and no request is lost.
* `second_loop_starts`: elsewhere a second loop may start, and the first one erases its request.
-/

namespace Vela.Core

open Vela.Proto Vela.Crypto Vela.Ip Prog Function
open Pool (Move forall_update)

variable {suite : Suite} {node : Node} {e : Env} {s s' : NodeState} {p : PeerRef}

/-! ### The flags over one section -/

/-- The flags `requested` and `running` are the same. -/
def SameFlags (a b : ReconnectState) : Prop := b.requested = a.requested ∧ b.running = a.running

lemma SameFlags.refl (a : ReconnectState) : SameFlags a a := ⟨rfl, rfl⟩

/-- The sections that write the flags of the peer. -/
def Reconnects (p : PeerRef) : Section → Prop
  | .peer q .startReconnect | .peer q .stopReconnect | .peer q .finishReconnect => q = p
  | .peer q .requestReconnect | .peer q .dropReconnect | .nextReconnect q => q = p
  | .allocate _ _ | .registerPeer _ => True
  | _ => False

lemma performPeer_flags {peer : PeerState} {op : PeerOp} (hop : ¬ Reconnects p (.peer p op)) :
    SameFlags peer.reconnect (performPeer suite node e peer op).2.reconnect := by
  have hframe := @performPeer_frame suite node e peer op
  cases op with
  | startReconnect | stopReconnect | finishReconnect | requestReconnect | dropReconnect =>
    exact absurd rfl hop
  | resumeReconnect =>
    simp only [performPeer]
    split <;> exact .refl _
  | _ =>
    rw [hframe.reconnect rfl]
    exact .refl _

lemma nextReconnect_requested : ((s.nextReconnect node p).2.heap p).reconnect.requested =
    (s.heap p).reconnect.requested := by
  unfold NodeState.nextReconnect
  dsimp only
  split <;> rw [heap_setPeer]

variable {c : Section}

lemma flags_step {r : Response c} (h : exec suite node e c s = some (r, s')) (hc : ¬ Reconnects p c) :
    SameFlags (s.heap p).reconnect (s'.heap p).reconnect := by
  cases heap_step h p with
  | own op heq =>
    rw [heq]
    exact performPeer_flags hc
  | reconnect _ => exact absurd rfl hc
  | allocated info online hc' _ _ =>
    obtain rfl | rfl := hc'
    · exact absurd trivial hc
    · exact absurd trivial hc
  | same heq | attempt _ _ heq | locked heq | online _ _ heq | established _ _ _ _ _ _ _ heq =>
    rw [heq]
    exact .refl _

/-! ### The operations -/

/-- Whether functions other than those on reconnect loops perform the section. -/
def Section.elsewhere : Section → Bool
  | .peer _ .startReconnect | .peer _ .stopReconnect | .peer _ .finishReconnect => false
  | .nextReconnect _ | .spawn (.reconnect _) | .establish _ _ _ _ _ _ => false
  | _ => true

/-- What takes part: the operations on reconnect loops, and single sections of everything else that the
node does. -/
inductive ReconnectOp where
  | schedule (p : PeerRef)
  | loop (p : PeerRef)
  | connect (nodeId : NodeId)
  | establish (p : PeerRef) (sessionId : UInt64) (path : SocketAddr) (cipher : SessionCipher)
      (expected : PeerInfo) (handshake : NoiseHandshake)
  | invalidate (p : PeerRef) (expected : Option UInt64) (requestReconnect : Bool)
  | other (c : Section) (helsewhere : c.elsewhere = true)

def ReconnectOp.accept (s : NodeState) : ReconnectOp → Option NodeState
  | .loop p =>
    if .reconnect p ∈ s.spawned then some { s with spawned := s.spawned.erase (.reconnect p) }
    else none
  | _ => some s

def ReconnectOp.body (suite : Suite) (node : Node) (fuel : ℕ) : ReconnectOp → Task PUnit
  | .schedule p => scheduleReconnect p
  | .loop p => reconnectLoop suite node fuel (fuel + 1) p
  | .connect nodeId => ignore (Vela.Core.connect suite node fuel nodeId).run
  | .establish p sessionId path cipher expected handshake =>
    Vela.Core.establish suite node fuel p sessionId path cipher expected handshake
  | .invalidate p expected requestReconnect => invalidateSessionIf p expected requestReconnect
  | .other c _ => ignore (call c)

/-- Where a task is, as far as reconnect loops go. -/
structure ReconnectPhase where
  /-- it runs the loop of a peer and has begun a round -/
  loop : Option PeerRef
  /-- `schedule_reconnect` has set `running` and not yet spawned the loop -/
  granted : Option PeerRef
  /-- `establish` has stored the session and not yet reset the flags -/
  starting : Option PeerRef
  deriving DecidableEq

def ReconnectPhase.next (γ : ReconnectPhase) : (c : Section) → Response c → ReconnectPhase
  | .peer p .startReconnect, true => { γ with granted := some p }
  | .spawn (.reconnect _), _ => { γ with granted := none }
  | .nextReconnect p, some _ => { γ with loop := some p }
  | .nextReconnect _, none => { γ with loop := none }
  | .peer _ .stopReconnect, _ => { γ with loop := none }
  | .peer _ .finishReconnect, _ => { γ with loop := none, starting := none }
  | .establish p _ _ _ _ _, true => { γ with starting := some p }
  | _, _ => γ

/-- Any number of these operations at once. -/
def reconnectPool (suite : Suite) (node : Node) (fuel : ℕ) :
    Pool.Spec Section Response NodeState Env ReconnectOp ReconnectPhase where
  exec := exec suite node
  accept _ q s := q.accept s
  body := ReconnectOp.body suite node fuel
  start := ⟨none, none, none⟩
  next := ReconnectPhase.next

abbrev ReconnectConfig := Pool.Config Section Response NodeState ReconnectPhase

/-- The task runs a reconnect loop of the peer. -/
def Alive (cfg : ReconnectConfig) (p : PeerRef) (t : ℕ) : Prop :=
  (cfg.phase t).loop = some p ∨ cfg.at t = some (.nextReconnect p)

/-- There is at most one reconnect loop of the peer, running or about to be run. -/
structure OneLoop (cfg : ReconnectConfig) (p : PeerRef) : Prop where
  spawned : cfg.shared.spawned.count (.reconnect p) ≤ 1
  alone : .reconnect p ∈ cfg.shared.spawned → ∀ t, ¬ Alive cfg p t
  unique : ∀ t u, Alive cfg p t → Alive cfg p u → t = u

/-- Which peers have a request that nothing has answered: none of an `establish`, a peer that goes
offline or is removed, a loop that does not find the peer in the table any more, or a new peer in its
place came since. -/
def Pending.observe (pending : PeerRef → Bool) (_ : ℕ) (γ : ReconnectPhase) (s : NodeState) :
    (c : Section) → Response c → NodeState → PeerRef → Bool
  | .peer p .requestReconnect, _, _ => update pending p true
  | .peer p .dropReconnect, _, _ => update pending p false
  | .establish p _ _ _ _ _, true, _ => update pending p false
  | .peerFor _, found, _ => fun p => pending p && !(γ.loop == some p && found != some p)
  | .registerPeer info, _, _ => update pending ⟨s.allocated, info.nodeId⟩ false
  | .allocate _ _, p, _ => update pending p false
  | _, _, _ => pending

/-- No loop of the peer is alive or being started, no `establish` of it is under way, and it has no
session. -/
structure AtEase (cfg : ReconnectConfig) (p : PeerRef) : Prop where
  active : (cfg.shared.heap p).active = none
  spawned : .reconnect p ∉ cfg.shared.spawned
  loop : ∀ t, ¬ Alive cfg p t
  granted : ∀ t, (cfg.phase t).granted ≠ some p
  starting : ∀ t, (cfg.phase t).starting ≠ some p

/-- `invalidate_session` requests a reconnect only when the peer is at ease. -/
def RequestsAtEase (cfg : ReconnectConfig) : Move Env ReconnectOp → Prop
  | .spawn _ _ => True
  | .step t _ => ∀ p, cfg.at t = some (.peer p .requestReconnect) → AtEase cfg p

/-! ### What a task has to do -/

/-- The phase of a task with what a proof knows of it. -/
structure Duty extends ReconnectPhase where
  /-- it was spawned as a loop and has not begun -/
  fresh : Bool
  /-- its `connect` found a session, or another peer -/
  met : Bool

namespace Duty

def idle : Duty where
  loop := none
  granted := none
  starting := none
  fresh := false
  met := false

def enter : ReconnectOp → Duty
  | .loop p => { idle with loop := some p, fresh := true }
  | _ => idle

def track (κ : Duty) (c : Section) (r : Response c) : Duty where
  toReconnectPhase := κ.toReconnectPhase.next c r
  fresh := false
  met := κ.met || (match c, r with
    | .peer _ .active, active => active.isSome
    | .peerFor _, found => decide (κ.loop.isSome ∧ found ≠ κ.loop)
    -- nothing comes after it
    | .never, _ => true
    | _, _ => false)

def ok (κ : Duty) : Section → Prop
  | .nextReconnect p | .peer p .stopReconnect => κ.loop = some p ∧ κ.granted = none
  | .spawn (.reconnect p) => κ.granted = some p ∧ κ.loop = none
  | .peer p .finishReconnect => κ.starting = some p ∧ κ.loop = none ∨
      κ.starting = none ∧ κ.loop = some p ∧ κ.met = true
  | .establish _ _ _ _ _ _ => κ.loop = none
  | .peer q .active => ∀ p, κ.loop = some p → q = p ∨ κ.met = true
  | .peerFor _ => κ.fresh = false
  | _ => True

/-- The task is in the loop of `own`, if of any, and connects to the peer `q`. -/
structure Serves (own : Option PeerRef) (q : PeerRef) (κ : Duty) : Prop where
  loop : κ.loop = own
  granted : κ.granted = none
  starting : κ.starting = none
  fresh : κ.fresh = false
  found : ∀ p, own = some p → q = p ∨ κ.met = true

end Duty

open Duty

/-- The sections that no monitor of reconnect loops minds. -/
def Plain : Section → Prop
  | .peer _ .startReconnect | .peer _ .stopReconnect | .peer _ .finishReconnect => False
  | .nextReconnect _ | .spawn (.reconnect _) | .establish _ _ _ _ _ _ => False
  | .peer _ .active | .peerFor _ | .never => False
  | _ => True

lemma track_plain (hc : Plain c) (κ : Duty) (r : Response c) :
    κ.track c r = { κ with fresh := false } := by
  cases c with
  | peer q op => cases op <;> first | exact hc.elim | simp [track, ReconnectPhase.next]
  | spawn task => cases task <;> first | exact hc.elim | simp [track, ReconnectPhase.next]
  | _ => first | exact hc.elim | simp [track, ReconnectPhase.next]

lemma ok_plain (hc : Plain c) (κ : Duty) : κ.ok c := by
  cases c with
  | peer q op => cases op <;> first | exact hc.elim | trivial
  | spawn task => cases task <;> first | exact hc.elim | trivial
  | _ => first | exact hc.elim | trivial

section Programs

variable {own : Option PeerRef} {q : PeerRef}

/-- The programs that leave a task in its loop. -/
abbrev serving (own : Option PeerRef) (q : PeerRef) : Discipline Section Response :=
  Discipline.monitor Duty.track Duty.ok (Duty.Serves own q)

variable {κ : Duty} {c : Section} {α : Type}

lemma serving_plain (hc : Plain c) : (serving own q).holds (call c) := by
  intro κ hκ
  refine ⟨ok_plain hc κ, fun r => ?_⟩
  change Duty.Serves own q (κ.track c r)
  rw [track_plain hc]
  exact ⟨hκ.loop, hκ.granted, hκ.starting, rfl, hκ.found⟩

lemma track_active (r : Option (UInt64 × SocketAddr)) :
    κ.track (.peer q .active) r = { κ with fresh := false, met := κ.met || r.isSome } := rfl

lemma serves_active (hκ : κ.Serves own q) (r : Option (UInt64 × SocketAddr)) :
    (κ.track (.peer q .active) r).Serves own q := by
  rw [track_active]
  exact ⟨hκ.loop, hκ.granted, hκ.starting, rfl, fun p hp =>
    (hκ.found p hp).imp_right fun h => by simp [h]⟩

lemma serving_active : (serving own q).holds (peerCall q .active) := by
  intro κ hκ
  refine ⟨fun p hp => hκ.found p (hκ.loop ▸ hp), fun r => serves_active hκ r⟩

lemma serving_bind {f : Response c → Task α} (hc : Plain c) (hf : ∀ r, (serving own q).holds (f r)) :
    (serving own q).holds (call c >>= f) :=
  (serving own q).bind (serving_plain hc) hf

lemma serving_emit (event : VelaEvent) : (serving own q).holds (emit event) :=
  serving_bind trivial fun _ => (serving own q).ret _

lemma serving_emitPeerConnecting : (serving own q).holds (emitPeerConnecting q) := by
  refine (serving own q).bind serving_active fun active => holds_when ?_
  refine serving_bind trivial fun connecting => holds_when ?_
  exact serving_bind trivial fun info => serving_emit _

lemma serving_sendProbes (c : Connecting) (hc : c.peer = q) (candidates : List Candidate) :
    (serving own q).holds (sendProbes c candidates) := by
  subst hc
  induction candidates with
  | nil => exact (serving own _).ret _
  | cons candidate rest ih =>
    refine serving_bind trivial fun error => ?_
    exact serving_bind trivial fun _ => ih

lemma serving_due (condition : Bool) (instant : Instant) :
    (serving own q).holds (due condition instant) := by
  unfold due
  split
  · exact serving_bind trivial fun _ => (serving own q).ret _
  · exact (serving own q).ret _

/-- `connect` returns without an error only if it found a session. -/
abbrev Connected (own : Option PeerRef) (q : PeerRef) : Duty → Except ConnectError Unit → Prop :=
  Prog.outcome (fun κ _ => κ.Serves own q ∧ κ.met = true) fun κ _ => κ.Serves own q

lemma connected_lift {prog : Task α} {f : α → NodeM ConnectError Unit}
    (hprog : (serving own q).holds prog) (hκ : κ.Serves own q)
    (hf : ∀ a κ, κ.Serves own q → (f a).run.Meets Duty.track Duty.ok (Connected own q) κ) :
    (lift prog >>= f).run.Meets Duty.track Duty.ok (Connected own q) κ := by
  refine Meets.bindExcept ?_ fun κ a hκ => hf a κ hκ
  exact Meets.bind (hprog κ hκ) fun κ a hκ => hκ

lemma connected_call {f : Response c → NodeM ConnectError Unit} (hc : Plain c) (hκ : κ.Serves own q)
    (hf : ∀ a κ, κ.Serves own q → (f a).run.Meets Duty.track Duty.ok (Connected own q) κ) :
    (lift (call c) >>= f).run.Meets Duty.track Duty.ok (Connected own q) κ :=
  connected_lift (serving_plain hc) hκ hf

lemma connected_timedOut (c : Connecting) (hc : c.peer = q) (hκ : κ.Serves own q) :
    (connectTimedOut c).run.Meets Duty.track Duty.ok (Connected own q) κ := by
  subst hc
  refine connected_call trivial hκ fun current κ hκ => ?_
  split
  · refine connected_call trivial hκ fun _ κ hκ => ?_
    refine connected_call trivial hκ fun _ κ hκ => ?_
    exact connected_lift (serving_emit _) hκ fun _ κ hκ => hκ
  · exact hκ

lemma meets_active (hκ : κ.Serves own q) :
    (lift (peerCall q .active) : NodeM ConnectError _).run.Meets Duty.track Duty.ok
      (Prog.outcome (fun κ active => κ.Serves own q ∧ (active.isSome → κ.met = true))
        fun κ _ => κ.Serves own q) κ := by
  refine ⟨fun p hp => hκ.found p (hκ.loop ▸ hp), fun active => ⟨serves_active hκ active, ?_⟩⟩
  intro hactive
  exact Bool.or_eq_true_iff.2 (.inr hactive)

lemma connected_connectLoop (c : Connecting) (hc : c.peer = q) (fuel : ℕ) (loop : ConnectLoop)
    (hκ : κ.Serves own q) :
    (connectLoop c fuel loop).run.Meets Duty.track Duty.ok (Connected own q) κ := by
  subst hc
  induction fuel generalizing loop κ with
  | zero =>
    refine ⟨trivial, fun r => ⟨⟨hκ.loop, hκ.granted, hκ.starting, rfl, fun p hp => ?_⟩, ?_⟩⟩
    · exact .inr (Bool.or_true _)
    · exact Bool.or_true _
  | succ fuel ih =>
    refine Meets.bindExcept (M := fun κ active => κ.Serves own c.peer ∧
      (active.isSome → κ.met = true)) ?_ fun κ active hκ => ?_
    · exact meets_active hκ
    obtain ⟨hκ, hmet⟩ := hκ
    split
    · rename_i hactive
      exact ⟨hκ, hmet hactive⟩
    refine connected_call (c := .now) trivial hκ fun now κ hκ => ?_
    split
    · exact connected_timedOut c rfl hκ
    refine connected_call (c := .peer c.peer .attempt) trivial hκ fun attempt κ hκ => ?_
    refine Meets.bindExcept (M := fun κ _ => κ.Serves own c.peer) ?_ fun κ loop hκ => ?_
    · cases loop.observe c attempt with
      | ok loop => exact hκ
      | error error => exact hκ
    refine connected_lift (serving_due _ _) hκ fun fallbackDue κ hκ => ?_
    refine connected_lift (serving_due _ _) hκ fun probeDue κ hκ => ?_
    split
    · exact connected_lift (serving_sendProbes c rfl _) hκ fun _ κ hκ => ih _ hκ
    split
    · refine connected_lift (serving_sendProbes c rfl _) hκ fun _ κ hκ => ?_
      exact connected_call (c := .now) trivial hκ fun now κ hκ => ih _ hκ
    refine connected_call (c := .wait) trivial hκ fun notified κ hκ => ?_
    split
    · refine connected_lift serving_active hκ fun active κ hκ => ?_
      refine connected_lift (serving_due _ _) hκ fun timedOut κ hκ => ?_
      split
      · exact connected_timedOut c rfl hκ
      · exact ih _ hκ
    · exact ih _ hκ

lemma connected_connectVia (nodeId : NodeId) (candidates : List Candidate) (fuel : ℕ)
    (hκ : κ.Serves own q) :
    (connectVia suite node fuel q nodeId candidates).run.Meets Duty.track Duty.ok (Connected own q)
      κ := by
  refine connected_lift serving_emitPeerConnecting hκ fun _ κ hκ => ?_
  refine connected_call (c := .randomBytes) trivial hκ fun random κ hκ => ?_
  refine connected_call (c := .randomSessionId) trivial hκ fun sessionId κ hκ => ?_
  refine connected_call (c := .peer q (.newAttempt _ _)) trivial hκ fun _ κ hκ => ?_
  refine connected_call (c := .peer q .clearFailure) trivial hκ fun _ κ hκ => ?_
  refine connected_call (c := .unixTime) trivial hκ fun timestamp κ hκ => ?_
  refine connected_call (c := .now) trivial hκ fun start κ hκ => ?_
  refine connected_lift (serving_sendProbes (q := q) _ rfl _) hκ fun _ κ hκ => ?_
  refine connected_call (c := .now) trivial hκ fun sent κ hκ => ?_
  refine connected_call (c := .now) trivial hκ fun now κ hκ => ?_
  exact connected_connectLoop (q := q) _ rfl _ _ hκ

lemma connected_connectLocked (nodeId : NodeId) (fuel : ℕ) (hκ : κ.Serves own q) :
    (connectLocked suite node fuel q nodeId).run.Meets Duty.track Duty.ok (Connected own q) κ := by
  refine Meets.bindExcept (M := fun κ active => κ.Serves own q ∧
    (active.isSome → κ.met = true)) ?_ fun κ active hκ => ?_
  · exact meets_active hκ
  obtain ⟨hκ, hmet⟩ := hκ
  split
  · rename_i hactive
    exact ⟨hκ, hmet hactive⟩
  refine connected_call trivial hκ fun info κ hκ => ?_
  dsimp only
  split
  · exact hκ
  · exact connected_connectVia _ _ _ hκ

lemma connected_connect (hq : ∀ p, own = some p → q = p) (nodeId : NodeId) (fuel : ℕ) {κ : Duty}
    (hκ : κ.Serves own q) :
    (connect suite node fuel nodeId).run.Meets Duty.track Duty.ok (Connected own q) κ := by
  refine connected_call (c := .started) trivial hκ fun started κ hκ => ?_
  split
  · exact hκ
  refine connected_call (c := .unixTime) trivial hκ fun now κ hκ => ?_
  refine connected_call (c := .snapshotExpiresAt) trivial hκ fun expiresAt κ hκ => ?_
  split
  · exact hκ
  refine Meets.bindExcept (M := fun κ found => κ.Serves own q ∧ ∀ p', found = some p' →
    κ.Serves own p') ?_ fun κ found hκ => ?_
  · refine ⟨hκ.fresh, fun found => ⟨⟨hκ.loop, hκ.granted, hκ.starting, rfl, fun p hp => .inl (hq p hp)⟩,
      fun p' hp' => ⟨hκ.loop, hκ.granted, hκ.starting, rfl, fun p hp => ?_⟩⟩⟩
    by_cases hsame : p' = p
    · exact .inl hsame
    · right
      have hother : κ.loop.isSome ∧ found ≠ κ.loop := by
        rw [hκ.loop, hp, hp']
        exact ⟨rfl, fun h => hsame (Option.some.inj h)⟩
      exact Bool.or_eq_true_iff.2 (.inr (decide_eq_true hother))
  obtain ⟨hκ, hfound⟩ := hκ
  cases found with
  | none => exact hκ
  | some p' =>
    have hback : ∀ {κ : Duty}, κ.Serves own p' → κ.Serves own q :=
      fun h => ⟨h.loop, h.granted, h.starting, h.fresh, fun p hp => .inl (hq p hp)⟩
    refine (?_ : Meets _ _ (Connected own p') _ _).mono fun κ r h => ?_
    · refine connected_call (c := .lockConnect p') trivial (hfound p' rfl) fun _ κ hκ => ?_
      refine Meets.bindExcept (M := fun κ r => Connected own p' κ r) ?_ fun κ r hκ => ?_
      · exact Meets.bind (connected_connectLocked nodeId fuel hκ) fun κ r hr => hr
      refine ⟨trivial, fun _ => ?_⟩
      change Connected own p' (κ.track (.peer p' .unlockConnect) _) r
      rw [track_plain (c := .peer p' .unlockConnect) trivial]
      cases r with
      | ok _ => exact ⟨⟨hκ.1.loop, hκ.1.granted, hκ.1.starting, rfl, hκ.1.found⟩, hκ.2⟩
      | error _ => exact ⟨hκ.loop, hκ.granted, hκ.starting, rfl, hκ.found⟩
    · cases r with
      | ok _ => exact ⟨hback h.1, h.2⟩
      | error _ => exact hback h

lemma serving_stillWanted (p : PeerRef) : (serving (some p) p).holds (stillWanted p) := by
  refine serving_bind trivial fun stopping => ?_
  split
  · exact (serving (some p) p).ret _
  refine serving_bind trivial fun online => ?_
  split
  · refine serving_bind trivial fun info => ?_
    refine (serving (some p) p).bind (fun κ hκ => ?_) fun current => (serving (some p) p).ret _
    refine ⟨hκ.fresh, fun found => ⟨hκ.loop, hκ.granted, hκ.starting, rfl, fun q hq => ?_⟩⟩
    exact .inl (Option.some.inj hq)
  · exact (serving (some p) p).ret _

lemma meets_reconnectLoop (p : PeerRef) (fuel rounds : ℕ) (hloop : κ.loop = some p)
    (hgranted : κ.granted = none) (hstarting : κ.starting = none) :
    (reconnectLoop suite node fuel rounds p).Meets Duty.track Duty.ok (fun _ _ => True) κ := by
  induction rounds generalizing κ with
  | zero => exact ⟨trivial, fun _ => trivial⟩
  | succ rounds ih =>
    refine Meets.callBind ⟨hloop, hgranted⟩ fun delay => ?_
    cases delay with
    | none => trivial
    | some delay =>
      have hκ : Duty.Serves (some p) p (κ.track (.nextReconnect p) (some delay)) :=
        ⟨rfl, hgranted, hstarting, rfl, fun q hq => .inl (Option.some.inj hq)⟩
      refine Meets.bind (serving_stillWanted p _ hκ) fun κ wanted hκ => ?_
      cases wanted with
      | false => exact ⟨⟨hκ.loop, hκ.granted⟩, fun _ => trivial⟩
      | true =>
        refine Meets.bind (serving_plain (c := .peer p .info) trivial κ hκ) fun κ info hκ => ?_
        refine Meets.bind (connected_connect (fun q hq => Option.some.inj hq) info.nodeId fuel hκ)
          fun κ result hκ => ?_
        cases result with
        | ok _ => exact ⟨.inr ⟨hκ.1.starting, hκ.1.loop, hκ.2⟩, fun _ => trivial⟩
        | error error =>
          refine Meets.bind (serving_plain (c := .peer p (.recordFailure _)) trivial κ hκ)
            fun κ _ hκ => ?_
          exact ih hκ.loop hκ.granted hκ.starting

lemma meets_scheduleReconnect (p : PeerRef) :
    (scheduleReconnect p).Meets Duty.track Duty.ok (fun _ _ => True) Duty.idle := by
  refine Meets.callBind trivial fun started => ?_
  cases started with
  | false => trivial
  | true =>
    refine Meets.callBind trivial fun stopping => ?_
    cases stopping with
    | true => trivial
    | false =>
      refine Meets.callBind trivial fun online => ?_
      cases online with
      | false => trivial
      | true =>
        refine Meets.callBind trivial fun start => ?_
        cases start with
        | false => trivial
        | true =>
          refine Meets.callBind trivial fun info => ?_
          refine Meets.callBind trivial fun _ => ?_
          exact ⟨⟨rfl, rfl⟩, fun _ => trivial⟩

/-- Programs whose sections are plain. -/
abbrev free : Discipline Section Response :=
  Discipline.monitor Duty.track Duty.ok fun _ => True

lemma free_plain (hc : Plain c) : free.holds (call c) :=
  fun κ _ => ⟨ok_plain hc κ, fun _ => trivial⟩

lemma free_flushing (c : Section) (hc : Flushing c) : free.holds (call c) := by
  refine free_plain ?_
  cases c with
  | peer q op => cases op <;> first | exact hc.elim | trivial
  | _ => first | exact hc.elim | trivial

lemma meets_establish_reconnect (p : PeerRef) (sessionId : UInt64) (path : SocketAddr)
    (cipher : SessionCipher) (expected : PeerInfo) (handshake : NoiseHandshake) (fuel : ℕ) :
    (establish suite node fuel p sessionId path cipher expected handshake).Meets Duty.track Duty.ok
      (fun _ _ => True) Duty.idle := by
  refine Meets.callBind rfl fun established => ?_
  cases established with
  | false => trivial
  | true =>
    refine Meets.callBind trivial fun _ => ?_
    refine Meets.callBind trivial fun _ => ?_
    refine Meets.callBind trivial fun _ => ?_
    refine Meets.callBind trivial fun _ => ?_
    refine Meets.callBind trivial fun _ => ?_
    refine Meets.callBind (.inl ⟨rfl, rfl⟩) fun _ => ?_
    refine Meets.callBind trivial fun info => ?_
    refine Meets.callBind trivial fun _ => ?_
    exact holds_flushing free_flushing (fun q => free_plain (c := .peer q .popQueue) trivial)
      (fun q packets => free_plain (c := .peer q (.pushQueue packets)) trivial) fuel
      (fun κ _ => ⟨trivial, fun _ => trivial⟩) p _ trivial

lemma meets_reconnectOp (fuel : ℕ) (q : ReconnectOp) :
    (q.body suite node fuel).Meets Duty.track Duty.ok (fun _ _ => True) (Duty.enter q) := by
  cases q with
  | schedule p => exact meets_scheduleReconnect p
  | loop p => exact meets_reconnectLoop p fuel _ rfl rfl rfl
  | connect nodeId =>
    have hκ : Duty.idle.Serves none ⟨0, nodeId⟩ := ⟨rfl, rfl, rfl, rfl, fun _ hp => nomatch hp⟩
    have hconnect := @connected_connect suite node none ⟨0, nodeId⟩ (fun _ hp => nomatch hp) nodeId fuel
      _ hκ
    exact Meets.bind hconnect fun _ _ _ => trivial
  | establish p sessionId path cipher expected handshake =>
    exact meets_establish_reconnect p sessionId path cipher expected handshake fuel
  | invalidate p expected request =>
    exact holds_invalidation free_flushing p expected request _ trivial
  | other c helsewhere =>
    refine Meets.callBind ?_ fun _ => trivial
    cases c with
    | peer q op =>
      cases op with
      | active => exact fun _ hp => nomatch hp
      | _ => trivial
    | spawn task => cases task <;> trivial
    | _ => trivial

end Programs

/-! ### Who has the loop -/

/-- The task runs the loop of the peer, or is about to spawn it. -/
def Duty.Bears (κ : Duty) (p : PeerRef) : Prop := κ.loop = some p ∨ κ.granted = some p

/-- The loop of the peer is with a task, or with the spawned entry (`none`). -/
def holders (s : NodeState) (φ : ℕ → Duty) (p : PeerRef) : Set (Option ℕ)
  | none => .reconnect p ∈ s.spawned
  | some t => (φ t).Bears p

/-- At most one task or entry has the loop of the peer, and as long as there is one, a request finds
`running` set. -/
structure Lone (s : NodeState) (φ : ℕ → Duty) (p : PeerRef) : Prop where
  spawned : s.spawned.count (.reconnect p) ≤ 1
  single : (holders s φ p).Subsingleton
  reset : (holders s φ p).Nonempty → (s.heap p).reconnect.running = false →
    (s.heap p).reconnect.requested = false

/-- The task will not reset the flags of the peer. -/
structure Duty.Leaves (p : PeerRef) (κ : Duty) : Prop where
  starting : κ.starting ≠ some p
  met : κ.loop = some p → κ.met = false

/-- What holds of a peer with an unanswered request. -/
structure Unanswered (s : NodeState) (φ : ℕ → Duty) (p : PeerRef) : Prop where
  requested : (s.heap p).reconnect.requested = true
  active : (s.heap p).active = none
  tasks : ∀ t, (φ t).Leaves p

section Steps

variable {φ φ' : ℕ → Duty} {κ : Duty} {t : ℕ} {c : Section} {r : Response c}

lemma loop_track (hok : κ.ok c) (h : (κ.track c r).loop = some p) : κ.loop = some p := by
  cases c with
  | peer q op =>
    cases op with
    | startReconnect => cases r <;> exact h
    | stopReconnect | finishReconnect => cases h
    | _ => exact h
  | spawn task => cases task <;> exact h
  | nextReconnect q =>
    cases r with
    | none => cases h
    | some delay => exact hok.1.trans h
  | establish _ _ _ _ _ _ => cases r <;> exact h
  | _ => exact h

lemma granted_track (hstart : c ≠ .peer p .startReconnect) (h : (κ.track c r).granted = some p) :
    κ.granted = some p := by
  cases c with
  | peer q op =>
    cases op with
    | startReconnect =>
      cases r with
      | false => exact h
      | true =>
        cases h
        exact absurd rfl hstart
    | _ => exact h
  | spawn task =>
    cases task with
    | reconnect q => cases h
    | connect _ => exact h
  | nextReconnect q => cases r <;> exact h
  | establish _ _ _ _ _ _ => cases r <;> exact h
  | _ => exact h

lemma bears_track (hok : κ.ok c) (hstart : c ≠ .peer p .startReconnect)
    (h : (κ.track c r).Bears p) : κ.Bears p :=
  h.imp (loop_track hok) (granted_track hstart)

lemma count_spawned (hexec : exec suite node e c s = some (r, s')) (hspawn : c ≠ .spawn (.reconnect p)) :
    s'.spawned.count (.reconnect p) = s.spawned.count (.reconnect p) := by
  by_cases hc : ∃ task, c = .spawn task
  · obtain ⟨task, rfl⟩ := hc
    cases hexec
    refine List.count_cons_of_ne fun h => hspawn ?_
    rw [h]
  · rw [spawned_step hexec fun task h => hc ⟨task, h⟩]

lemma mem_holders_self : some t ∈ holders s (update φ t κ) p ↔ κ.Bears p := by
  change ((update φ t κ) t).Bears p ↔ _
  rw [update_self]

lemma mem_holders_ne {u : ℕ} (hu : u ≠ t) :
    some u ∈ holders s (update φ t κ) p ↔ some u ∈ holders s φ p := by
  change ((update φ t κ) u).Bears p ↔ (φ u).Bears p
  rw [update_of_ne hu]

lemma holders_track (hexec : exec suite node e c s = some (r, s')) (hok : (φ t).ok c)
    (hstart : c ≠ .peer p .startReconnect) (hspawn : c ≠ .spawn (.reconnect p)) :
    holders s' (update φ t ((φ t).track c r)) p ⊆ holders s φ p := by
  rintro (_ | u) hu
  · have hcount := count_spawned hexec hspawn
    exact List.count_pos_iff.1 (hcount ▸ List.count_pos_iff.2 hu)
  · by_cases hut : u = t
    · subst hut
      exact bears_track hok hstart (mem_holders_self.1 hu)
    · exact (mem_holders_ne hut).1 hu

lemma Lone.shrink (h : Lone s φ p)
    (hcount : s'.spawned.count (.reconnect p) ≤ s.spawned.count (.reconnect p))
    (hholders : holders s' φ' p ⊆ holders s φ p)
    (hreset : (holders s' φ' p).Nonempty → (s'.heap p).reconnect.running = false →
      (s'.heap p).reconnect.requested = false) : Lone s' φ' p :=
  ⟨hcount.trans h.spawned, h.single.anti hholders, hreset⟩

lemma Lone.reset_same (h : Lone s φ p) (hholders : holders s' φ' p ⊆ holders s φ p)
    (hflags : SameFlags (s.heap p).reconnect (s'.heap p).reconnect) :
    (holders s' φ' p).Nonempty → (s'.heap p).reconnect.running = false →
      (s'.heap p).reconnect.requested = false := by
  intro hsome hrunning
  rw [hflags.1]
  exact h.reset (hsome.mono hholders) (hflags.2 ▸ hrunning)

lemma Lone.given_up (h : Lone s φ p) (hloop : (φ t).loop = some p)
    (hholders : holders s' (update φ t κ) p ⊆ holders s φ p) (hκ : ¬ κ.Bears p) :
    ¬ (holders s' (update φ t κ) p).Nonempty := by
  rintro ⟨o, ho⟩
  obtain rfl : o = some t := h.single (hholders ho) (show (φ t).Bears p from .inl hloop)
  exact hκ (mem_holders_self.1 ho)

lemma lone_start {r : Bool} (h : Lone s φ p)
    (hexec : exec suite node e (.peer p .startReconnect) s = some (r, s')) :
    Lone s' (update φ t ((φ t).track (.peer p .startReconnect) r)) p := by
  obtain ⟨rfl, hs'⟩ := exec_peer hexec
  have hheap : s'.heap p = (performPeer suite node e (s.heap p) .startReconnect).2 := by
    rw [← hs', heap_setPeer]
  have hspawned : s'.spawned = s.spawned := by rw [← hs']; rfl
  have hnone : .reconnect p ∈ s'.spawned → .reconnect p ∈ s.spawned := fun h => hspawned ▸ h
  simp only [performPeer] at hheap ⊢
  split at hheap
  · -- nothing is granted
    rename_i hrefused
    rw [if_pos hrefused]
    have hholders : holders s' (update φ t ((φ t).track (.peer p .startReconnect) false)) p ⊆
        holders s φ p := by
      rintro (_ | u) hu
      · exact hnone hu
      · by_cases hut : u = t
        · subst hut
          exact (mem_holders_self (κ := (φ u).track (.peer p .startReconnect) false)).1 hu
        · exact (mem_holders_ne hut).1 hu
    refine h.shrink (by rw [hspawned]) hholders (h.reset_same hholders ?_)
    rw [hheap]
    exact .refl _
  · rename_i hgranted
    rw [if_neg hgranted]
    simp only [Bool.or_eq_true, not_or, Bool.not_eq_true, Bool.not_eq_false'] at hgranted
    obtain ⟨⟨hrequested, hrunning⟩, -⟩ := hgranted
    have hempty : ∀ o, o ∉ holders s φ p := by
      intro o ho
      rw [h.reset ⟨o, ho⟩ hrunning] at hrequested
      cases hrequested
    have honly : ∀ o ∈ holders s' (update φ t ((φ t).track (.peer p .startReconnect) true)) p,
        o = some t := by
      rintro (_ | u) hu
      · exact (hempty none (hnone hu)).elim
      · by_contra hne
        have hut : u ≠ t := fun h => hne (congrArg some h)
        exact hempty (some u) ((mem_holders_ne hut).1 hu)
    refine ⟨hspawned ▸ h.spawned, fun a ha b hb => (honly a ha).trans (honly b hb).symm, ?_⟩
    intro _ hstopped
    rw [hheap] at hstopped
    cases hstopped

lemma lone_spawn {r : Unit} (h : Lone s φ p)
    (hexec : exec suite node e (.spawn (.reconnect p)) s = some (r, s'))
    (hok : (φ t).ok (.spawn (.reconnect p))) :
    Lone s' (update φ t ((φ t).track (.spawn (.reconnect p)) r)) p := by
  obtain ⟨-, rfl⟩ := Prod.mk.inj (Option.some.inj hexec)
  have hheld : some t ∈ holders s φ p := .inr hok.1
  have habsent : .reconnect p ∉ s.spawned := by
    intro hmem
    cases h.single (show none ∈ holders s φ p from hmem) hheld
  have honly : ∀ o ∈ holders { s with spawned := .reconnect p :: s.spawned }
      (update φ t ((φ t).track (.spawn (.reconnect p)) r)) p, o = none := by
    rintro (_ | u) hu
    · rfl
    · by_cases hut : u = t
      · subst hut
        rcases mem_holders_self.1 hu with hu | hu
        · exact nomatch hok.2.symm.trans hu
        · cases hu
      · exact absurd (Option.some.inj (h.single ((mem_holders_ne hut).1 hu) hheld)) hut
  refine ⟨?_, fun a ha b hb => (honly a ha).trans (honly b hb).symm, fun _ => h.reset ⟨_, hheld⟩⟩
  rw [List.count_cons_self, List.count_eq_zero_of_not_mem habsent]

lemma nextReconnect_flags (hsome : (s.nextReconnect node p).1.isSome) :
    SameFlags (s.heap p).reconnect ((s.nextReconnect node p).2.heap p).reconnect := by
  unfold NodeState.nextReconnect at hsome ⊢
  dsimp only at hsome ⊢
  split at hsome
  · cases hsome
  · rename_i hgo
    rw [if_neg hgo, heap_setPeer]
    exact .refl _

/-- **One section and the loop of a peer.** -/
theorem lone_step (h : Lone s φ p) (hexec : exec suite node e c s = some (r, s')) (hok : (φ t).ok c)
    (hease : c = .peer p .requestReconnect → holders s φ p = ∅) :
    Lone s' (update φ t ((φ t).track c r)) p := by
  by_cases hstart : c = .peer p .startReconnect
  · subst hstart
    exact lone_start h hexec
  by_cases hspawn : c = .spawn (.reconnect p)
  · subst hspawn
    exact lone_spawn h hexec hok
  have hholders := holders_track hexec hok hstart hspawn
  refine h.shrink (count_spawned hexec hspawn).le hholders ?_
  by_cases hc : Reconnects p c
  · cases c with
    | peer q op =>
      obtain ⟨rfl, rfl⟩ := exec_peer hexec
      cases op with
      | startReconnect =>
        obtain rfl : q = p := hc
        exact absurd rfl hstart
      | stopReconnect =>
        obtain rfl : q = p := hc
        refine fun hsome => absurd hsome (h.given_up hok.1 hholders ?_)
        rintro (hloop | hgranted)
        · cases hloop
        · exact nomatch hok.2.symm.trans hgranted
      | finishReconnect | dropReconnect =>
        obtain rfl : q = p := hc
        intro _ _
        rw [heap_setPeer]
        rfl
      | requestReconnect =>
        obtain rfl : q = p := hc
        intro hsome
        exact absurd (hsome.mono hholders) (Set.not_nonempty_iff_eq_empty.2 (hease rfl))
      | _ => exact hc.elim
    | nextReconnect q =>
      obtain rfl : q = p := hc
      obtain ⟨rfl, rfl⟩ : (s.nextReconnect node q).1 = r ∧ (s.nextReconnect node q).2 = s' :=
        Prod.mk.inj (Option.some.inj hexec)
      cases hnext : (s.nextReconnect node q).1 with
      | none =>
        rw [hnext] at hholders
        refine fun hsome => absurd hsome (h.given_up hok.1 hholders ?_)
        rintro (hloop | hgranted)
        · cases hloop
        · exact nomatch hok.2.symm.trans hgranted
      | some delay =>
        rw [hnext] at hholders
        exact h.reset_same hholders (nextReconnect_flags (by rw [hnext]; rfl))
    | allocate info online | registerPeer info =>
      cases heap_step hexec p with
      | allocated _ _ _ _ heq =>
        intro _ _
        rw [heq]
        rfl
      | same heq | attempt _ _ heq =>
        refine h.reset_same hholders ?_
        rw [heq]
        exact .refl _
    | _ => exact hc.elim
  · exact h.reset_same hholders (flags_step hexec hc)

/-- The section stores a session of the peer. -/
def Establishes (p : PeerRef) : (c : Section) → Response c → Prop
  | .establish q _ _ _ _ _, established => q = p ∧ established = true
  | _, _ => False

lemma starting_track (h : (κ.track c r).starting = some p) :
    κ.starting = some p ∨ Establishes p c r := by
  cases c with
  | peer q op =>
    cases op with
    | startReconnect => cases r <;> exact .inl h
    | finishReconnect => cases h
    | _ => exact .inl h
  | spawn task => cases task <;> exact .inl h
  | nextReconnect q => cases r <;> exact .inl h
  | establish q id path cipher expected handshake =>
    cases r with
    | false => exact .inl h
    | true => exact .inr ⟨Option.some.inj h, rfl⟩
  | _ => exact .inl h

variable {pending : PeerRef → Bool} {γ : ReconnectPhase}

lemma pending_of_update {q : PeerRef} (h : update pending q false p = true) :
    p ≠ q ∧ pending p = true := by
  by_cases hpq : p = q
  · rw [hpq, update_self] at h
    cases h
  · rw [update_of_ne hpq] at h
    exact ⟨hpq, h⟩

lemma pending_of_observe (hrequest : c ≠ .peer p .requestReconnect)
    (h : Pending.observe pending t γ s c r s' p = true) :
    pending p = true ∧ c ≠ .peer p .dropReconnect ∧ ¬ Establishes p c r := by
  cases c with
  | peer q op =>
    cases op with
    | requestReconnect =>
      have hpq : p ≠ q := fun hpq => hrequest (by rw [hpq])
      refine ⟨?_, nofun, id⟩
      change update pending q true p = true at h
      rwa [update_of_ne hpq] at h
    | dropReconnect =>
      obtain ⟨hpq, hp⟩ := pending_of_update h
      refine ⟨hp, fun hc => hpq ?_, id⟩
      injection hc with hqp
      exact hqp.symm
    | _ => exact ⟨h, nofun, id⟩
  | establish q id path cipher expected handshake =>
    cases r with
    | false => exact ⟨h, nofun, nofun⟩
    | true =>
      obtain ⟨hpq, hp⟩ := pending_of_update h
      exact ⟨hp, nofun, fun hc => hpq hc.1.symm⟩
  | peerFor nodeId => exact ⟨(Bool.and_eq_true_iff.1 h).1, nofun, id⟩
  | registerPeer info => exact ⟨(pending_of_update h).2, nofun, id⟩
  | allocate info online => exact ⟨(pending_of_update h).2, nofun, id⟩
  | _ => exact ⟨h, nofun, id⟩

lemma requested_step (hu : Unanswered s φ p) (hexec : exec suite node e c s = some (r, s'))
    (hok : (φ t).ok c) (hrequest : c ≠ .peer p .requestReconnect)
    (h : Pending.observe pending t γ s c r s' p = true) :
    (s'.heap p).reconnect.requested = true := by
  by_cases hc : Reconnects p c
  · cases c with
    | peer q op =>
      obtain ⟨rfl, rfl⟩ := exec_peer hexec
      cases op with
      | startReconnect =>
        obtain rfl : q = p := hc
        rw [heap_setPeer]
        simp only [performPeer]
        split <;> exact hu.requested
      | stopReconnect =>
        obtain rfl : q = p := hc
        rw [heap_setPeer]
        exact hu.requested
      | finishReconnect =>
        obtain rfl : q = p := hc
        rcases hok with ⟨hstarting, -⟩ | ⟨-, hloop, hmet⟩
        · exact absurd hstarting (hu.tasks t).starting
        · cases hmet.symm.trans ((hu.tasks t).met hloop)
      | requestReconnect =>
        obtain rfl : q = p := hc
        exact absurd rfl hrequest
      | dropReconnect =>
        obtain rfl : q = p := hc
        exact absurd rfl (pending_of_observe hrequest h).2.1
      | _ => exact hc.elim
    | nextReconnect q =>
      obtain rfl : q = p := hc
      obtain rfl : (s.nextReconnect node q).2 = s' := congrArg Prod.snd (Option.some.inj hexec)
      rw [nextReconnect_requested]
      exact hu.requested
    | allocate info online =>
      obtain rfl : (s.allocate suite node info online).1 = r := congrArg Prod.fst (Option.some.inj hexec)
      cases heap_step hexec p with
      | allocated info' online' hc' hnew _ =>
        obtain hc' | hc' := hc'
        · cases hc'
        · obtain ⟨rfl, rfl⟩ := Section.allocate.inj hc'
          exact absurd hnew (pending_of_update h).1
      | same heq | attempt _ _ heq =>
        rw [heq]
        exact hu.requested
    | registerPeer info =>
      cases heap_step hexec p with
      | allocated info' online' hc' hnew _ =>
        obtain hc' | hc' := hc'
        · obtain rfl := Section.registerPeer.inj hc'
          exact absurd hnew (pending_of_update h).1
        · cases hc'
      | same heq | attempt _ _ heq =>
        rw [heq]
        exact hu.requested
    | _ => exact hc.elim
  · rw [(flags_step hexec hc).1]
    exact hu.requested

lemma active_unanswered (hexec : exec suite node e c s = some (r, s'))
    (hnone : (s.heap p).active = none) (hc : ¬ Establishes p c r) : (s'.heap p).active = none := by
  cases heap_step hexec p with
  | own op heq =>
    rw [heq, Option.eq_none_iff_forall_ne_some]
    intro session hactive
    obtain ⟨before, hbefore, -⟩ := performPeer_continues hactive
    cases hnone.symm.trans hbefore
  | established => exact absurd ⟨rfl, rfl⟩ hc
  | reconnect heq =>
    rw [heq]
    unfold NodeState.nextReconnect
    dsimp only
    split <;> rwa [heap_setPeer]
  | allocated _ _ _ _ heq =>
    rw [heq]
    rfl
  | same heq | attempt _ _ heq | locked heq | online _ _ heq =>
    rwa [heq]

lemma met_track (hu : Unanswered s φ p) (hexec : exec suite node e c s = some (r, s'))
    (hok : (φ t).ok c) (hrequest : c ≠ .peer p .requestReconnect)
    (h : Pending.observe pending t (φ t).toReconnectPhase s c r s' p = true)
    (hloop : ((φ t).track c r).loop = some p) : ((φ t).track c r).met = false := by
  have hbefore := loop_track hok hloop
  have hmet := (hu.tasks t).met hbefore
  refine Bool.or_eq_false_iff.2 ⟨hmet, ?_⟩
  cases c with
  | peer q op =>
    cases op with
    | active =>
      rcases hok p hbefore with rfl | hmet'
      · obtain ⟨rfl, -⟩ := exec_peer hexec
        simp only [performPeer, hu.active]
        rfl
      · cases hmet.symm.trans hmet'
    | _ => rfl
  | peerFor nodeId =>
    have hfound := (Bool.and_eq_true_iff.1 h).2
    simp only [hbefore, beq_self_eq_true, Bool.true_and, Bool.not_eq_true', bne_eq_false_iff_eq] at hfound
    simp [hbefore, hfound]
  | never => cases hexec
  | _ => rfl

/-- **One section and the request of a peer.** -/
theorem unanswered_step (hpending : pending p = true → Unanswered s φ p)
    (hexec : exec suite node e c s = some (r, s')) (hok : (φ t).ok c)
    (hease : c = .peer p .requestReconnect → holders s φ p = ∅ ∧ (s.heap p).active = none ∧
      ∀ u, (φ u).starting ≠ some p)
    (h : Pending.observe pending t (φ t).toReconnectPhase s c r s' p = true) :
    Unanswered s' (update φ t ((φ t).track c r)) p := by
  by_cases hrequest : c = .peer p .requestReconnect
  · obtain ⟨hempty, hactive, hstarting⟩ := hease hrequest
    subst hrequest
    obtain ⟨-, rfl⟩ := exec_peer hexec
    have htasks : ∀ u, (φ u).Leaves p := fun u => ⟨hstarting u, fun hloop =>
      absurd (show some u ∈ holders s φ p from .inl hloop) (hempty ▸ Set.notMem_empty _)⟩
    have htrack : (φ t).track (.peer p .requestReconnect) r = { φ t with fresh := false } :=
      track_plain (c := .peer p .requestReconnect) trivial _ r
    rw [htrack]
    refine ⟨?_, ?_, forall_update ⟨(htasks t).starting, (htasks t).met⟩ htasks⟩
    · rw [heap_setPeer]
      rfl
    · rw [heap_setPeer]
      exact hactive
  · obtain ⟨hp, -, hestablish⟩ := pending_of_observe hrequest h
    have hu := hpending hp
    refine ⟨requested_step hu hexec hok hrequest h, active_unanswered hexec hu.active hestablish,
      forall_update ⟨?_, met_track hu hexec hok hrequest h⟩ hu.tasks⟩
    exact fun hstarting => (starting_track hstarting).elim (hu.tasks t).starting hestablish

end Steps

/-! ### Runs -/

/-- A proof's view of a task agrees with its phase: it knows one thing more, that the task is a loop
that has not begun. -/
inductive Shadows (cfg : ReconnectConfig) (t : ℕ) (κ : Duty) : Prop
  | begun (hfresh : κ.fresh = false) (hphase : cfg.phase t = κ.toReconnectPhase)
  | fresh (p : PeerRef) (hloop : κ.loop = some p)
      (hphase : cfg.phase t = { κ.toReconnectPhase with loop := none })
      (hat : cfg.at t = some (.nextReconnect p))

section Runs

variable {cfg cfg' : ReconnectConfig} {φ : ℕ → Duty} {κ : Duty} {t : ℕ} {fuel : ℕ}

lemma Shadows.alive (h : Shadows cfg t κ) (hloop : κ.loop = some p) : Alive cfg p t := by
  cases h with
  | begun _ hphase => exact .inl (hphase ▸ hloop)
  | fresh q hq _ hat =>
    obtain rfl := Option.some.inj (hloop.symm.trans hq)
    exact .inr hat

lemma Shadows.loop_of_alive {post : Duty → PUnit → Prop} (h : Shadows cfg t κ)
    (hmeets : (cfg.prog t).Meets Duty.track Duty.ok post κ) (halive : Alive cfg p t) :
    κ.loop = some p := by
  rcases halive with hloop | hat
  · cases h with
    | begun _ hphase => exact hphase ▸ hloop
    | fresh q hq hphase _ =>
      rw [hphase] at hloop
      cases hloop
  · exact (Pool.Config.ok_at hmeets hat).1

lemma Shadows.granted (h : Shadows cfg t κ) : (cfg.phase t).granted = κ.granted := by
  cases h with
  | begun _ hphase => rw [hphase]
  | fresh _ _ hphase => rw [hphase]

lemma Shadows.starting (h : Shadows cfg t κ) : (cfg.phase t).starting = κ.starting := by
  cases h with
  | begun _ hphase => rw [hphase]
  | fresh _ _ hphase => rw [hphase]

lemma Shadows.congr (h : Shadows cfg t κ) (hphase : cfg'.phase t = cfg.phase t)
    (hprog : cfg'.prog t = cfg.prog t) : Shadows cfg' t κ := by
  cases h with
  | begun hfresh h => exact .begun hfresh (hphase.trans h)
  | fresh p hloop h hat =>
    refine .fresh p hloop (hphase.trans h) ?_
    rwa [Pool.Config.at, hprog]

variable {c : Section} {k : Response c → Task PUnit} {q : ReconnectOp} {pending : PeerRef → Bool}

lemma Shadows.section_eq (h : Shadows cfg t κ) (hprog : cfg.prog t = .op c k) :
    cfg.phase t = κ.toReconnectPhase ∨ ∃ p, c = .nextReconnect p ∧
      cfg.phase t = { κ.toReconnectPhase with loop := none } := by
  cases h with
  | begun _ hphase => exact .inl hphase
  | fresh p _ hphase hat =>
    rw [Pool.Config.at, hprog] at hat
    exact .inr ⟨p, Option.some.inj hat, hphase⟩

lemma Shadows.next (h : Shadows cfg t κ) (hprog : cfg.prog t = .op c k) (r : Response c) :
    (cfg.phase t).next c r = (κ.track c r).toReconnectPhase := by
  rcases h.section_eq hprog with hphase | ⟨p, rfl, hphase⟩
  · rw [hphase]
    rfl
  · rw [hphase]
    cases r <;> rfl

lemma Shadows.observe (h : Shadows cfg t κ) (hprog : cfg.prog t = .op c k) (pending : PeerRef → Bool)
    (r : Response c) (s' : NodeState) :
    Pending.observe pending t (cfg.phase t) cfg.shared c r s' =
      Pending.observe pending t κ.toReconnectPhase cfg.shared c r s' := by
  rcases h.section_eq hprog with hphase | ⟨p, rfl, -⟩
  · rw [hphase]
  · rfl

/-- The invariant of a run. -/
structure Orderly (cfg : ReconnectConfig) (φ : ℕ → Duty) (pending : PeerRef → Bool) : Prop where
  follows : ∀ t, Shadows cfg t (φ t)
  lone : ∀ p, Lone cfg.shared φ p
  unanswered : ∀ p, pending p = true → Unanswered cfg.shared φ p

lemma AtEase.holders (h : AtEase cfg p) (hfollows : ∀ t, Shadows cfg t (φ t)) :
    holders cfg.shared φ p = ∅ := by
  refine Set.eq_empty_of_forall_notMem ?_
  rintro (_ | t) ht
  · exact h.spawned ht
  · rcases ht with hloop | hgranted
    · exact h.loop t ((hfollows t).alive hloop)
    · exact h.granted t ((hfollows t).granted.trans hgranted)

lemma orderly_step {r : Response c} (h : Orderly cfg φ pending)
    (hguard : RequestsAtEase cfg (.step t e)) (hprog : cfg.prog t = .op c k) (hok : (φ t).ok c)
    (hexec : exec suite node e c cfg.shared = some (r, s')) :
    Orderly ⟨s', update cfg.prog t (k r),
      update cfg.phase t ((cfg.phase t).next c r)⟩ (update φ t ((φ t).track c r))
      (Pending.observe pending t (cfg.phase t) cfg.shared c r s') := by
  have hease : ∀ p, c = .peer p .requestReconnect → AtEase cfg p := by
    rintro p rfl
    refine hguard p ?_
    rw [Pool.Config.at, hprog]
  refine ⟨(Function.forall_update_iff φ fun u κ => Shadows _ u κ).2 ⟨?_, fun u hu => ?_⟩, fun p => ?_,
    fun p hpending => ?_⟩
  · refine .begun rfl ?_
    exact (update_self ..).trans ((h.follows t).next hprog r)
  · exact (h.follows u).congr (update_of_ne hu ..) (update_of_ne hu ..)
  · exact lone_step (h.lone p) hexec hok fun hc => (hease p hc).holders h.follows
  · rw [(h.follows t).observe hprog] at hpending
    refine unanswered_step (h.unanswered p) hexec hok (fun hc => ?_) hpending
    refine ⟨(hease p hc).holders h.follows, (hease p hc).active, fun u hu => ?_⟩
    exact (hease p hc).starting u ((h.follows u).starting.trans hu)

lemma lone_loop (h : Lone s φ p) (hmem : .reconnect p ∈ s.spawned) :
    Lone { s with spawned := s.spawned.erase (.reconnect p) }
      (update φ t (Duty.enter (.loop p))) p := by
  have hheld : none ∈ holders s φ p := hmem
  have hcount : (s.spawned.erase (.reconnect p)).count (.reconnect p) = 0 := by
    rw [List.count_erase_self]
    have hone := h.spawned
    omega
  have honly : ∀ o ∈ holders { s with spawned := s.spawned.erase (.reconnect p) }
      (update φ t (Duty.enter (.loop p))) p, o = some t := by
    rintro (_ | u) hu
    · exact absurd hu (List.count_eq_zero.1 hcount)
    · by_contra hne
      have hut : u ≠ t := fun h => hne (congrArg some h)
      cases h.single hheld ((mem_holders_ne hut).1 hu)
  refine ⟨hcount.le.trans (Nat.zero_le 1), fun a ha b hb => (honly a ha).trans (honly b hb).symm,
    fun _ => h.reset ⟨none, hheld⟩⟩

lemma Lone.enter (h : Lone s φ p) (hheap : s'.heap = s.heap)
    (hcount : s'.spawned.count (.reconnect p) = s.spawned.count (.reconnect p)) (hκ : ¬ κ.Bears p) :
    Lone s' (update φ t κ) p := by
  have hholders : holders s' (update φ t κ) p ⊆ holders s φ p := by
    rintro (_ | u) hu
    · exact List.count_pos_iff.1 (hcount ▸ List.count_pos_iff.2 hu)
    · by_cases hut : u = t
      · subst hut
        exact absurd (mem_holders_self.1 hu) hκ
      · exact (mem_holders_ne hut).1 hu
  refine h.shrink hcount.le hholders (h.reset_same hholders ?_)
  rw [hheap]
  exact .refl _

lemma accept_lone (h : Lone s φ p) (haccept : q.accept s = some s') :
    Lone s' (update φ t (Duty.enter q)) p := by
  have hidle : ¬ Duty.idle.Bears p := by rintro (h | h) <;> cases h
  cases q with
  | loop q =>
    simp only [ReconnectOp.accept] at haccept
    split at haccept
    · rename_i hmem
      obtain rfl := Option.some.inj haccept
      by_cases hpq : q = p
      · subst hpq
        exact lone_loop h hmem
      · refine h.enter rfl (List.count_erase_of_ne ?_) ?_
        · exact fun heq => hpq (Spawned.reconnect.inj heq).symm
        · rintro (hloop | hgranted)
          · exact hpq (Option.some.inj hloop)
          · cases hgranted
    · cases haccept
  | _ =>
    obtain rfl := Option.some.inj haccept
    exact h.enter rfl rfl hidle

lemma accept_heap (haccept : q.accept s = some s') : s'.heap = s.heap := by
  cases q with
  | loop q =>
    simp only [ReconnectOp.accept] at haccept
    split at haccept
    · cases haccept
      rfl
    · cases haccept
  | _ =>
    cases haccept
    rfl

lemma enter_leaves (q : ReconnectOp) : (Duty.enter q).Leaves p := by
  cases q <;> exact ⟨nofun, fun _ => rfl⟩

lemma orderly_spawn (h : Orderly cfg φ pending) (haccept : q.accept cfg.shared = some s') :
    Orderly ⟨s', update cfg.prog t (q.body suite node fuel),
      update cfg.phase t ⟨none, none, none⟩⟩ (update φ t (Duty.enter q)) pending := by
  refine ⟨(Function.forall_update_iff φ fun u κ => Shadows _ u κ).2 ⟨?_, fun u hu => ?_⟩, fun p => ?_,
    fun p hpending => ?_⟩
  · cases q with
    | loop p =>
      refine .fresh p rfl (update_self ..) ?_
      unfold Pool.Config.at
      dsimp only
      rw [update_self]
      rfl
    | _ => exact .begun rfl (update_self ..)
  · exact (h.follows u).congr (update_of_ne hu ..) (update_of_ne hu ..)
  · exact accept_lone (h.lone p) haccept
  · have hu := h.unanswered p hpending
    have hheap := accept_heap haccept
    refine ⟨?_, ?_, forall_update (enter_leaves q) hu.tasks⟩
    · rw [hheap]
      exact hu.requested
    · rw [hheap]
      exact hu.active

/-- **One reconnect loop per peer.**  In every run in which `invalidate_session` requests reconnects only
of peers at ease: no peer has two loops, and an unanswered request is still recorded. -/
theorem one_reconnect_loop (suite : Suite) (node : Node) (fuel : ℕ) (heap : PeerRef → PeerState)
    (x : ReconnectConfig × (PeerRef → Bool))
    (h : (reconnectPool suite node fuel).Observed Pending.observe RequestsAtEase
      ((reconnectPool suite node fuel).initial (NodeState.new node heap), fun _ => false) x) :
    ∀ p, OneLoop x.1 p ∧ (x.2 p = true → (x.1.shared.heap p).reconnect.requested = true) := by
  have hinit : Orderly ((reconnectPool suite node fuel).initial (NodeState.new node heap))
      (fun _ => Duty.idle) fun _ => false := by
    refine ⟨fun t => .begun rfl rfl, fun p => ⟨Nat.zero_le 1, ?_, ?_⟩, nofun⟩
    · rintro (_ | t) ht
      · cases ht
      · rcases ht with ht | ht <;> cases ht
    · rintro ⟨_ | t, ht⟩
      · cases ht
      · rcases ht with ht | ht <;> cases ht
  obtain ⟨φ, hinv, hmeets⟩ := h.recorded.traced (I := fun cfg φ pending => Orderly cfg φ pending)
    (fun _ => Duty.idle) (fun _ => ⟨_, rfl⟩) (fun _ => trivial) hinit
    (fun _ _ q _ => meets_reconnectOp fuel q)
    (fun _ _ _ _ _ _ hinv _ _ haccept => orderly_spawn hinv haccept)
    fun _ _ _ _ _ _ _ _ _ hinv hguard hprog hok hexec => orderly_step hinv hguard hprog hok hexec
  have halive : ∀ p t, Alive x.1 p t → some t ∈ holders x.1.shared φ p :=
    fun p t halive => .inl ((hinv.follows t).loop_of_alive (hmeets t) halive)
  intro p
  refine ⟨⟨(hinv.lone p).spawned, fun hmem t ht => ?_, fun t u ht hu => ?_⟩, fun hpending => ?_⟩
  · cases (hinv.lone p).single (show none ∈ holders x.1.shared φ p from hmem) (halive p t ht)
  · exact Option.some.inj ((hinv.lone p).single (halive p t ht) (halive p u hu))
  · exact (hinv.unanswered p hpending).requested

end Runs

/-! ### Runs of the demo node -/

section Demo

def demoTurn (t : ℕ) (q : ReconnectOp) (n : ℕ) : List (Move Env ReconnectOp) :=
  .spawn t q :: List.replicate n (.step t demoEnv)

def demoEstablish (id : UInt64) : ReconnectOp :=
  .establish demoRef id demoPath ⟨demoKey, demoKey⟩ (demoInfo 1)
    (NoiseHandshake.responder demoNode.identity)

def demoLost : List (Move Env ReconnectOp) :=
  demoTurn 0 (.other .setStarted rfl) 1 ++ demoTurn 0 (.other (.registerPeer (demoInfo 1)) rfl) 1 ++
    demoTurn 0 (demoEstablish 7) 10 ++ demoTurn 0 (.invalidate demoRef none true) 8

/-- A loop is about to look whether there is a session, -/
def demoLooping : List (Move Env ReconnectOp) :=
  demoTurn 0 (.schedule demoRef) 7 ++ demoTurn 1 (.loop demoRef) 11

/-- there is one, and it is gone again before the loop resets the flags. -/
def demoCrossing : List (Move Env ReconnectOp) :=
  demoTurn 0 (demoEstablish 8) 10 ++ List.replicate 2 (.step 1 demoEnv) ++
    demoTurn 0 (.invalidate demoRef none true) 8 ++ demoTurn 0 (.schedule demoRef) 7 ++
      demoTurn 2 (.loop demoRef) 1

def demoReconnects (moves : List (Move Env ReconnectOp)) :
    Option (ReconnectConfig × (PeerRef → Bool)) :=
  (reconnectPool demoSuite demoNode 3).runObserved Pending.observe (fun _ _ => true)
    ((reconnectPool demoSuite demoNode 3).initial demoState, fun _ => false) moves

/-- The task `0` moves alone, and requests nothing while the peer has a session or a loop. -/
def demoAlone0 (cfg : ReconnectConfig) : Move Env ReconnectOp → Bool
  | .spawn t _ => t == 0
  | .step t _ => t == 0 &&
    match cfg.at 0 with
    | some (.peer p .requestReconnect) => decide ((cfg.shared.heap p).active = none ∧
        .reconnect p ∉ cfg.shared.spawned ∧ cfg.phase 0 = ⟨none, none, none⟩)
    | _ => true

def demoNoRequest (cfg : ReconnectConfig) : Move Env ReconnectOp → Bool
  | .spawn _ _ => true
  | .step t _ =>
    match cfg.at t with
    | some (.peer _ .requestReconnect) => false
    | _ => true

variable {cfg : ReconnectConfig} {m : Move Env ReconnectOp}

lemma requestsAtEase_of_alone0 {heap : PeerRef → PeerState}
    (hreach : (reconnectPool demoSuite demoNode 3).Reachable (fun cfg m => demoAlone0 cfg m = true)
      ((reconnectPool demoSuite demoNode 3).initial (NodeState.new demoNode heap)) cfg)
    (hm : demoAlone0 cfg m = true) : RequestsAtEase cfg m := by
  have hsolo : ∀ cfg m, demoAlone0 cfg m = true → m.task = 0 := by
    rintro cfg (⟨t, _⟩ | ⟨t, _⟩) h
    · exact beq_iff_eq.1 h
    · exact beq_iff_eq.1 (Bool.and_eq_true_iff.1 h).1
  cases m with
  | spawn t q => trivial
  | step t e =>
    intro p hat
    obtain ⟨ht, hease⟩ := Bool.and_eq_true_iff.1 hm
    obtain rfl := beq_iff_eq.1 ht
    rw [hat] at hease
    obtain ⟨hactive, hspawned, hphase⟩ := of_decide_eq_true hease
    have hothers : ∀ u, cfg.phase u = ⟨none, none, none⟩ ∧
        (u ≠ 0 → cfg.at u = none) := by
      intro u
      by_cases hu : u = 0
      · subst hu
        exact ⟨hphase, fun h => absurd rfl h⟩
      · obtain ⟨hprog, hidle⟩ := hreach.solo hsolo hu
        exact ⟨hidle, fun _ => by rw [Pool.Config.at, hprog]; rfl⟩
    refine ⟨hactive, hspawned, fun u => ?_, fun u => ?_, fun u => ?_⟩
    · rintro (hloop | hnext)
      · rw [(hothers u).1] at hloop
        cases hloop
      · by_cases hu : u = 0
        · subst hu
          cases hat.symm.trans hnext
        · cases ((hothers u).2 hu).symm.trans hnext
    · rw [(hothers u).1]
      simp
    · rw [(hothers u).1]
      simp

lemma requestsAtEase_of_noRequest (hm : demoNoRequest cfg m = true) : RequestsAtEase cfg m := by
  cases m with
  | spawn t q => trivial
  | step t e =>
    intro p hat
    simp only [demoNoRequest, hat] at hm
    cases hm

theorem one_reconnect_loop_demo : ∃ x : ReconnectConfig × (PeerRef → Bool),
    (reconnectPool demoSuite demoNode 3).Observed Pending.observe RequestsAtEase
      ((reconnectPool demoSuite demoNode 3).initial demoState, fun _ => false) x ∧
    Alive x.1 demoRef 1 ∧ x.2 demoRef = true ∧ OneLoop x.1 demoRef ∧
      (x.1.shared.heap demoRef).reconnect.requested = true := by
  have hfacts : (((reconnectPool demoSuite demoNode 3).runObserved Pending.observe demoAlone0
      ((reconnectPool demoSuite demoNode 3).initial demoState, fun _ => false) demoLost).bind fun x =>
      ((reconnectPool demoSuite demoNode 3).runObserved Pending.observe demoNoRequest x
        demoLooping)).map (fun x => ((x.1.phase 1).loop, x.2 demoRef)) = some (some demoRef, true) := by
    decide +kernel
  obtain ⟨x, hrun, hfacts⟩ := Option.map_eq_some_iff.1 hfacts
  obtain ⟨mid, hlost, hlooping⟩ := Option.bind_eq_some_iff.1 hrun
  obtain ⟨hloop, hpending⟩ := Prod.mk.inj hfacts
  have hmid := (Pool.Spec.observed_of_run (fun _ _ h => h) demoLost .refl hlost).strengthen
    fun _ _ hreach hm => requestsAtEase_of_alone0 hreach hm
  have hx := Pool.Spec.observed_of_run (fun _ _ => requestsAtEase_of_noRequest) demoLooping hmid hlooping
  obtain ⟨hone, hrequested⟩ := one_reconnect_loop demoSuite demoNode 3 _ x hx demoRef
  exact ⟨x, hx, .inl hloop, hpending, hone, hrequested hpending⟩

/-- A session comes and goes while a loop is in `connect`: a second loop starts, and then the first one
erases the request that the second is there for. -/
theorem second_loop_starts : ∃ x y : ReconnectConfig × (PeerRef → Bool),
    demoReconnects (demoLost ++ demoLooping ++ demoCrossing) = some x ∧
    Alive x.1 demoRef 1 ∧ Alive x.1 demoRef 2 ∧
    demoReconnects (demoLost ++ demoLooping ++ demoCrossing ++ [.step 1 demoEnv]) = some y ∧
    y.2 demoRef = true ∧ (y.1.shared.heap demoRef).reconnect.requested = false := by
  have hx : (demoReconnects (demoLost ++ demoLooping ++ demoCrossing)).map (fun x =>
      ((x.1.phase 1).loop, (x.1.phase 2).loop)) = some (some demoRef, some demoRef) := by
    decide +kernel
  have hy : (demoReconnects (demoLost ++ demoLooping ++ demoCrossing ++ [.step 1 demoEnv])).map (fun x =>
      (x.2 demoRef, (x.1.shared.heap demoRef).reconnect.requested)) = some (true, false) := by
    decide +kernel
  obtain ⟨x, hx, hloops⟩ := Option.map_eq_some_iff.1 hx
  obtain ⟨y, hy, hflags⟩ := Option.map_eq_some_iff.1 hy
  obtain ⟨hfirst, hsecond⟩ := Prod.mk.inj hloops
  obtain ⟨hpending, herased⟩ := Prod.mk.inj hflags
  exact ⟨x, y, hx, .inl hfirst, .inl hsecond, hy, hpending, herased⟩

end Demo

end Vela.Core
