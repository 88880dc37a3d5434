import Vela.Runtime.Course

/-!
# The order of snapshots

The node refuses a snapshot that is older than the one it has applied, and the loop ends with that
error.  Snapshots come over one connection, but not in the order in which they were built: the writer
of the coordinator sends replies before the snapshot in its broadcast slot, and the client keeps a
snapshot that comes while it waits for a reply.

* `order_spares` — the loop does not end for a stale snapshot in a run in which the snapshots are put into
  the connection in the order of their generations, no reply overtakes the slot and no reply is applied
  before an older snapshot that the client has kept;
* `overtaken_broadcast` — a run in which a reply overtakes the slot.
-/

namespace Vela.Core

open Vela.Proto Vela.Crypto Vela.Ip

/-! ### What the node says about generations -/

variable {suite : Suite} {node : Node} {e : Env} {s s' : NodeState} {α β : Type}

/-- The program does not answer that a snapshot is stale. -/
def NeverStale (p : NodeM CoreError α) : Prop :=
  p.run.Under (fun _ _ => True) (Prog.Fails fun error => error ≠ .staleSnapshot)

lemma neverStale_bind {x : NodeM CoreError α} {f : α → NodeM CoreError β} (hx : NeverStale x)
    (hf : ∀ a, NeverStale (f a)) : NeverStale (x >>= f) :=
  Prog.Under.bindExcept hx hf

lemma neverStale_lift (p : Task α) : NeverStale (lift p) := Prog.under_lift p

lemma neverStale_validatePeerInfo (info : PeerInfo) :
    NeverStale (ofExcept (validatePeerInfo suite info)) := by
  unfold validatePeerInfo
  split
  · exact (nofun : CoreError.invalidPeer ≠ .staleSnapshot)
  · trivial

lemma neverStale_validatePeerMembership (info : PeerInfo) :
    NeverStale (validatePeerMembership suite node info) := by
  unfold validatePeerMembership
  split
  · trivial
  · refine neverStale_bind (neverStale_lift _) fun now => ?_
    unfold validateCredential
    split
    · exact (nofun : CoreError.invalidPeer ≠ .staleSnapshot)
    · split
      · exact (nofun : CoreError.peerCredentialExpired ≠ .staleSnapshot)
      · split
        · exact (nofun : CoreError.invalidPeer ≠ .staleSnapshot)
        · trivial

lemma neverStale_registerPeer (info : PeerInfo) : NeverStale (registerPeer suite node info) :=
  neverStale_bind (neverStale_validatePeerInfo info) fun _ =>
    neverStale_bind (neverStale_validatePeerMembership info) fun _ =>
      neverStale_bind (neverStale_lift _) fun _ => neverStale_lift _

lemma neverStale_snapshotPeers (onlinePeers : List NodeId) (oldPeers : PeerTable) (acc : Replacement)
    (infos : List PeerInfo) : NeverStale (snapshotPeers suite node onlinePeers oldPeers acc infos) := by
  induction infos generalizing acc with
  | nil => trivial
  | cons info infos ih =>
    refine neverStale_bind (neverStale_validatePeerInfo info) fun _ => ?_
    refine neverStale_bind (neverStale_validatePeerMembership info) fun _ => ?_
    split
    · exact ih acc
    · exact neverStale_bind (neverStale_lift _) fun acc => ih acc

variable {snapshot : NetworkSnapshot} {now : UInt64}

lemma verifyAt_neverStale : verifyAt suite node snapshot now ≠ .error .staleSnapshot := by
  unfold verifyAt
  split
  · exact nofun
  · cases verifySnapshot suite.toPrimitives snapshot _ now <;> exact nofun

lemma checkSnapshot_neverStale : checkSnapshot suite node snapshot now ≠ .error .staleSnapshot := by
  unfold checkSnapshot
  cases snapshot.validate suite.blake3 with
  | error error => exact nofun
  | ok _ =>
    simp only [Except.mapError, bind, Except.bind]
    split
    · exact nofun
    · split <;> exact nofun

lemma localRecord_stale {generation : UInt64}
    (h : localRecord suite node snapshot generation = .error .staleSnapshot) :
    snapshot.generation < generation := by
  unfold localRecord at h
  by_contra hlt
  rw [if_neg hlt] at h
  cases hfind : snapshot.peers.find? fun peer => peer.nodeId = node.nodeId suite with
  | none => simp [hfind, throw, throwThe, MonadExceptOf.throw] at h
  | some info =>
    simp only [hfind, validatePeerInfo] at h
    split at h
    · simp [bind, Except.bind] at h
    · simp only [bind, Except.bind] at h
      split at h <;> cases h

lemma applySnapshot_stale_wp (snapshot : NetworkSnapshot) (s : NodeState) :
    (applySnapshot suite node snapshot).run.wp (exec suite node)
      (fun r _ => r = .error .staleSnapshot → snapshot.generation < s.snapshotGeneration) s := by
  refine applySnapshot_wp (fun e c s x h => ⟨e, h⟩) snapshot s ?_
  have hverify := @verifySignature_wp suite node Env (exec suite node) Set.univ ⟨0, trivial⟩
    (fun e c s x h => ⟨e, trivial, h⟩) snapshot { s with snapshotUpdate := true }
  refine Prog.wp_bindExcept (Prog.wp_mono ?_ hverify)
  rintro r t ⟨rfl, now, -, rfl⟩
  cases hr : verifyAt suite node snapshot now with
  | error error =>
    intro hstale
    exact absurd (hr.trans hstale) verifyAt_neverStale
  | ok _ =>
  refine Prog.wp_bindExcept (Prog.wp_lift fun e now' s₁ he => ?_)
  obtain ⟨rfl, rfl⟩ := Prod.mk.inj (Option.some.inj he)
  refine Prog.wp_bindExcept ?_
  cases hcheck : checkSnapshot suite node snapshot e.unixTime with
  | error error =>
    intro hstale
    exact absurd (hcheck.trans hstale) checkSnapshot_neverStale
  | ok _ =>
  refine Prog.wp_bindExcept (Prog.wp_lift fun e₂ generation s₂ he => ?_)
  obtain ⟨rfl, rfl⟩ := Prod.mk.inj (Option.some.inj he)
  refine Prog.wp_bindExcept ?_
  cases hlocal : localRecord suite node snapshot s.snapshotGeneration with
  | error error =>
    intro hstale
    obtain rfl := Except.error.inj hstale
    exact localRecord_stale hlocal
  | ok own =>
    -- what follows the check against the generation has other errors
    have hrest : (do
        let oldPeers ← lift (call .peerTable)
        let replacement ← snapshotPeers suite node snapshot.onlinePeers oldPeers ⟨∅, [], []⟩
          snapshot.peers
        lift (installSnapshot snapshot own replacement) : NodeM CoreError Unit).run.wp (exec suite node)
        (fun r _ => r = .error .staleSnapshot → snapshot.generation < s.snapshotGeneration)
        { s with snapshotUpdate := true } := by
      refine Prog.wp_mono ?_ (Prog.Under.wp (neverStale_bind (neverStale_lift _) fun _ =>
        neverStale_bind (neverStale_snapshotPeers _ _ _ _) fun _ => neverStale_lift _)
        (fun _ _ _ _ _ _ => trivial) _)
      rintro r - hr rfl
      exact (hr rfl).elim
    exact hrest

/-- `register_peer` leaves the generation alone. -/
lemma registerPeer_generation_wp (info : PeerInfo) (s : NodeState) :
    (registerPeer suite node info).run.wp (exec suite node)
      (fun _ s' => s'.snapshotGeneration = s.snapshotGeneration) s := by
  let D := Prog.Discipline.within Response fun c => c.writes .generation = false
  have hcall : ∀ {c : Section}, c.writes .generation = false → D.holds (call c) :=
    fun hc => ⟨hc, fun _ => trivial⟩
  have hretire : ∀ p, D.holds (retirePeer p) := by
    intro p
    refine D.bind (hcall rfl) fun _ => D.bind (hcall rfl) fun _ => D.bind (hcall rfl) fun _ => ?_
    refine D.bind (holds_whenSome fun _ => hcall rfl) fun _ => D.bind (hcall rfl) fun _ => ?_
    exact D.bind (hcall rfl) fun _ => trivial
  have hreplace : D.holds (replacePeer info) := by
    refine D.bind (hcall rfl) fun _ => holds_whenSome fun p => D.bind (hcall rfl) fun _ => ?_
    exact D.bind (hretire p) fun _ => holds_when (hcall rfl)
  have hregister : (registerPeer suite node info).run.Within (fun c => c.writes .generation = false)
      fun _ => True := by
    refine D.bindExcept (holds_ofExcept _) fun _ => D.bindExcept ?_ fun _ => ?_
    · unfold validatePeerMembership
      split
      · trivial
      · exact ⟨rfl, fun _ => trivial⟩
    · exact ⟨rfl, fun unchanged => D.lift (holds_when hreplace)⟩
  have hkeeps : ∀ (c : Section) e s₁ r s₂, c.writes .generation = false →
      s₁.snapshotGeneration = s.snapshotGeneration → exec suite node e c s₁ = some (r, s₂) →
      s₂.snapshotGeneration = s.snapshotGeneration :=
    fun _ _ _ _ _ hc hs he => ((exec_frame he).generation hc).trans hs
  exact Prog.wp_mono (fun _ _ h => h.1) (hregister.wp hkeeps rfl)

end Vela.Core

namespace Vela.Runtime

open Vela.Proto Vela.Crypto Course
open Vela.Coord (carried)

/-! ### The connection -/

/-- A connection of the coordinator to the peer. -/
structure Link where
  /-- `outbound_rx`: replies and signals that are to be sent -/
  outbound : List ControlMessage
  /-- the snapshot of `snapshot_rx`, if it has not been sent -/
  slot : Option NetworkSnapshot
  /-- sent, and not received yet -/
  wire : List ControlMessage
  /-- the snapshots that tasks of the coordinator have built -/
  built : List NetworkSnapshot
  /-- no snapshot of a higher generation has been put into the channel or the slot -/
  put : ℕ

inductive ServerStep where
  /-- `network_snapshot()` -/
  | build (snapshot : NetworkSnapshot)
  /-- `outbound_tx.send(message)` -/
  | reply (message : ControlMessage)
  /-- `snapshot_tx.send_replace(Some(snapshot))` -/
  | broadcast (snapshot : NetworkSnapshot)
  /-- one round of the writer task -/
  | write

abbrev gen (snapshot : NetworkSnapshot) : ℕ := snapshot.generation.toNat

namespace Link

/-- A connection on which nothing was sent. -/
def new (built : List NetworkSnapshot) (put : ℕ) : Link where
  outbound := []
  slot := none
  wire := []
  built := built
  put := put

/-- The writer prefers the channel to the slot. -/
def write (n : Link) : Link :=
  match n.outbound, n.slot with
  | message :: rest, _ => { n with outbound := rest, wire := n.wire ++ [message] }
  | [], some snapshot => { n with slot := none, wire := n.wire ++ [.snapshot snapshot] }
  | [], none => n

def step (n : Link) : ServerStep → Link
  | .build snapshot => { n with built := snapshot :: n.built }
  | .reply message =>
    { n with
      outbound := n.outbound ++ [message]
      put := ((carried message).map gen).elim n.put (max n.put) }
  | .broadcast snapshot => { n with slot := some snapshot, put := max n.put (gen snapshot) }
  | .write => n.write

def serve (n : Link) (steps : List ServerStep) : Link := steps.foldl step n

/-- Every step meets a condition on the connection as it finds it. -/
def Serves (P : Link → ServerStep → Prop) : Link → List ServerStep → Prop
  | _, [] => True
  | n, step :: rest => P n step ∧ Serves P (n.step step) rest

end Link

/-- The part of the coordinator in one section of the client. -/
structure LinkEnv where
  steps : List ServerStep
  fault : Option CoordClientError

def LinkEnv.result (e : LinkEnv) : Except CoordClientError Unit :=
  match e.fault with
  | some fault => .error fault
  | none => .ok ()

/-- The coordinator does anything between two sections of the client. -/
def link : Network LinkEnv Link where
  send e _ n := (e.result, n.serve e.steps)
  recv e n :=
    match e.fault, (n.serve e.steps).wire with
    | some fault, _ => some (.error fault, n.serve e.steps)
    | none, [] => none
    | none, message :: rest => some (.ok message, { n.serve e.steps with wire := rest })
  connect e n := (e.result, .new n.built n.put)

/-- Snapshots are built at generations that do not decrease, and only those are sent. -/
def ServerStep.Honest (n : Link) : ServerStep → Prop
  | .build x => ∀ y ∈ n.built, gen y ≤ gen x
  | .reply message => ∀ x ∈ carried message, x ∈ n.built
  | .broadcast x => x ∈ n.built
  | .write => True

/-- No snapshot is put into the connection after a newer one, and no reply overtakes an older snapshot in
the slot. -/
def ServerStep.InTurn (n : Link) : ServerStep → Prop
  | .reply message => ∀ x ∈ carried message, n.put ≤ gen x ∧ ∀ y ∈ n.slot, gen x ≤ gen y
  | .broadcast x => n.put ≤ gen x
  | .build _ | .write => True

instance (n : Link) (step : ServerStep) : Decidable (step.Honest n) :=
  match step with
  | .build x => inferInstanceAs (Decidable (∀ y ∈ n.built, gen y ≤ gen x))
  | .reply message => inferInstanceAs (Decidable (∀ x ∈ carried message, x ∈ n.built))
  | .broadcast x => inferInstanceAs (Decidable (x ∈ n.built))
  | .write => .isTrue trivial

instance (n : Link) (step : ServerStep) : Decidable (step.InTurn n) :=
  match step with
  | .reply message =>
    inferInstanceAs (Decidable (∀ x ∈ carried message, n.put ≤ gen x ∧ ∀ y ∈ n.slot, gen x ≤ gen y))
  | .broadcast x => inferInstanceAs (Decidable (n.put ≤ gen x))
  | .build _ | .write => .isTrue trivial

instance Link.decidableServes (P : Link → ServerStep → Prop) [∀ n step, Decidable (P n step)] :
    ∀ n steps, Decidable (Link.Serves P n steps)
  | _, [] => .isTrue trivial
  | n, step :: rest =>
    have := Link.decidableServes P (n.step step) rest
    inferInstanceAs (Decidable (P n step ∧ Link.Serves P (n.step step) rest))

namespace Link

variable {n : Link}

def snapshotsIn (messages : List ControlMessage) : List NetworkSnapshot := messages.filterMap carried

@[simp] lemma snapshotsIn_nil : snapshotsIn [] = [] := rfl

@[simp] lemma snapshotsIn_cons (message : ControlMessage) (rest : List ControlMessage) :
    snapshotsIn (message :: rest) = (carried message).toList ++ snapshotsIn rest := by
  simp only [snapshotsIn, List.filterMap_cons]
  cases carried message <;> rfl

@[simp] lemma snapshotsIn_append (a b : List ControlMessage) :
    snapshotsIn (a ++ b) = snapshotsIn a ++ snapshotsIn b := List.filterMap_append

/-- The snapshots on their way, in the order in which they come. -/
def queue (n : Link) : List NetworkSnapshot :=
  snapshotsIn n.wire ++ (snapshotsIn n.outbound ++ n.slot.toList)

/-- They come in the order of their generations. -/
structure InOrder (n : Link) : Prop where
  sorted : n.queue.Pairwise fun x y => gen x ≤ gen y
  put : ∀ x ∈ n.queue, gen x ≤ n.put

/-- Nothing that is on its way or still to be put is below `b`. -/
structure Above (n : Link) (b : ℕ) : Prop where
  put : b ≤ n.put
  queue : ∀ x ∈ n.queue, b ≤ gen x

lemma new_inOrder (built : List NetworkSnapshot) (put : ℕ) : (new built put).InOrder := ⟨.nil, nofun⟩

lemma queue_write : n.write.queue = n.queue := by
  cases houtbound : n.outbound with
  | cons message rest => simp [write, queue, houtbound]
  | nil =>
    cases hslot : n.slot with
    | some snapshot => simp [write, queue, houtbound, hslot, carried]
    | none => simp [write, houtbound, hslot]

lemma put_write : n.write.put = n.put := by
  unfold write
  split <;> rfl

lemma mem_queue_step {step : ServerStep} {x : NetworkSnapshot} (h : step.InTurn n)
    (hx : x ∈ (n.step step).queue) : x ∈ n.queue ∨ n.put ≤ gen x := by
  cases step with
  | build _ => exact .inl hx
  | reply message =>
    simp only [Link.step, queue, snapshotsIn_append, snapshotsIn_cons, snapshotsIn_nil,
      List.append_nil, List.mem_append, Option.mem_toList] at hx ⊢
    rcases hx with hx | (hx | hx) | hx
    · exact .inl (.inl hx)
    · exact .inl (.inr (.inl hx))
    · exact .inr (h x hx).1
    · exact .inl (.inr (.inr hx))
  | broadcast snapshot =>
    simp only [Link.step, queue, List.mem_append, Option.mem_toList] at hx ⊢
    rcases hx with hx | hx | hx
    · exact .inl (.inl hx)
    · exact .inl (.inr (.inl hx))
    · cases hx
      exact .inr h
  | write =>
    rw [Link.step, queue_write] at hx
    exact .inl hx

lemma put_step (step : ServerStep) : n.put ≤ (n.step step).put := by
  cases step with
  | build _ => exact le_rfl
  | reply message =>
    simp only [Link.step]
    cases carried message with
    | none => exact le_rfl
    | some x => exact le_max_left _ _
  | broadcast snapshot => exact le_max_left _ _
  | write => rw [Link.step, put_write]

lemma Above.step {b : ℕ} (h : n.Above b) {step : ServerStep} (hstep : step.InTurn n) :
    (n.step step).Above b := by
  refine ⟨h.put.trans (put_step step), fun x hx => ?_⟩
  rcases mem_queue_step hstep hx with hx | hx
  · exact h.queue x hx
  · exact h.put.trans hx

lemma InOrder.step (h : n.InOrder) {step : ServerStep} (hstep : step.InTurn n) :
    (n.step step).InOrder := by
  cases step with
  | build _ => exact ⟨h.sorted, h.put⟩
  | reply message =>
    cases hcarried : carried message with
    | none =>
      have hqueue : (n.step (.reply message)).queue = n.queue := by
        simp [Link.step, queue, hcarried]
      refine ⟨hqueue ▸ h.sorted, fun x hx => ?_⟩
      exact (h.put x (hqueue ▸ hx)).trans (put_step _)
    | some y =>
      have hqueue : (n.step (.reply message)).queue =
          snapshotsIn n.wire ++ (snapshotsIn n.outbound ++ (y :: n.slot.toList)) := by
        simp [Link.step, queue, hcarried]
      have hsorted := h.sorted
      have hput := h.put
      simp only [queue, List.pairwise_append, List.mem_append] at hsorted hput
      obtain ⟨hwire, ⟨houtbound, hslot, hout⟩, hcross⟩ := hsorted
      have hy : ∀ x, x ∈ snapshotsIn n.wire ∨ x ∈ snapshotsIn n.outbound → gen x ≤ gen y := by
        rintro x (hx | hx)
        · exact (hput x (.inl hx)).trans (hstep y hcarried).1
        · exact (hput x (.inr (.inl hx))).trans (hstep y hcarried).1
      refine ⟨?_, fun x hx => ?_⟩
      · rw [hqueue]
        simp only [List.pairwise_append, List.pairwise_cons, List.mem_append, List.mem_cons]
        refine ⟨hwire, ⟨houtbound, ⟨?_, hslot⟩, ?_⟩, ?_⟩
        · intro x hx
          exact (hstep y hcarried).2 x (Option.mem_toList.1 hx)
        · rintro x hx z (rfl | hz)
          · exact hy x (.inr hx)
          · exact hout x hx z hz
        · rintro x hx z (hz | rfl | hz)
          · exact hcross x hx z (.inl hz)
          · exact hy x (.inl hx)
          · exact hcross x hx z (.inr hz)
      · have hnew : (n.step (.reply message)).put = max n.put (gen y) := by
          simp [Link.step, hcarried]
        rw [hqueue] at hx
        rw [hnew]
        simp only [List.mem_append, List.mem_cons] at hx
        rcases hx with hx | hx | rfl | hx
        · exact (hput x (.inl hx)).trans (le_max_left _ _)
        · exact (hput x (.inr (.inl hx))).trans (le_max_left _ _)
        · exact le_max_right _ _
        · exact (hput x (.inr (.inr hx))).trans (le_max_left _ _)
  | broadcast y =>
    have hsorted := h.sorted
    have hput := h.put
    simp only [queue, List.pairwise_append, List.mem_append] at hsorted hput
    obtain ⟨hwire, ⟨houtbound, -, -⟩, hcross⟩ := hsorted
    refine ⟨?_, fun x hx => ?_⟩
    · simp only [Link.step, queue, Option.toList_some, List.pairwise_append, List.mem_append,
        List.mem_singleton]
      refine ⟨hwire, ⟨houtbound, List.pairwise_singleton _ _, ?_⟩, ?_⟩
      · rintro x hx z rfl
        exact (hput x (.inr (.inl hx))).trans hstep
      · rintro x hx z (hz | rfl)
        · exact hcross x hx z (.inl hz)
        · exact (hput x (.inl hx)).trans hstep
    · simp only [Link.step, queue, Option.toList_some, List.mem_append, List.mem_singleton] at hx ⊢
      rcases hx with hx | hx | rfl
      · exact (hput x (.inl hx)).trans (le_max_left _ _)
      · exact (hput x (.inr (.inl hx))).trans (le_max_left _ _)
      · exact le_max_right _ _
  | write =>
    rw [Link.step]
    refine ⟨?_, ?_⟩
    · rw [queue_write]
      exact h.sorted
    · rw [queue_write, put_write]
      exact h.put

variable {steps : List ServerStep}

lemma Above.serve {b : ℕ} (h : n.Above b) (hsteps : Serves (fun n step => step.InTurn n) n steps) :
    (n.serve steps).Above b := by
  induction steps generalizing n with
  | nil => exact h
  | cons step steps ih => exact ih (h.step hsteps.1) hsteps.2

lemma InOrder.serve (h : n.InOrder) (hsteps : Serves (fun n step => step.InTurn n) n steps) :
    (n.serve steps).InOrder := by
  induction steps generalizing n with
  | nil => exact h
  | cons step steps ih => exact ih (h.step hsteps.1) hsteps.2

section Pop

variable {message : ControlMessage} {rest : List ControlMessage}

lemma queue_pop (hwire : n.wire = message :: rest) :
    n.queue = (carried message).toList ++ ({ n with wire := rest } : Link).queue := by
  simp [queue, hwire]

lemma InOrder.pop (h : n.InOrder) (hwire : n.wire = message :: rest) :
    ({ n with wire := rest } : Link).InOrder := by
  obtain ⟨hsorted, hput⟩ := h
  rw [queue_pop hwire] at hsorted hput
  exact ⟨(List.pairwise_append.1 hsorted).2.1, fun x hx => hput x (List.mem_append_right _ hx)⟩

lemma Above.pop {b : ℕ} (h : n.Above b) (hwire : n.wire = message :: rest) :
    ({ n with wire := rest } : Link).Above b := by
  refine ⟨h.put, fun x hx => h.queue x ?_⟩
  rw [queue_pop hwire]
  exact List.mem_append_right _ hx

lemma InOrder.popped (h : n.InOrder) (hwire : n.wire = message :: rest) {x : NetworkSnapshot}
    (hx : carried message = some x) : x ∈ n.queue ∧ ({ n with wire := rest } : Link).Above (gen x) := by
  obtain ⟨hsorted, hput⟩ := h
  rw [queue_pop hwire, hx] at hsorted hput ⊢
  exact ⟨.head _, hput x (.head _), (List.pairwise_cons.1 hsorted).1⟩

end Pop

end Link

/-! ### The client and the node -/

open Link in
/-- Nothing that the peer has kept or in hand is older than what the node has applied, nor newer than
what is on its way. -/
structure Flow (s : RuntimeState Link) (γ : Course) : Prop where
  well : s.node.WellFormed
  node : s.network.Above s.node.snapshotGeneration.toNat
  pending : ∀ x ∈ snapshotsIn s.pending,
    s.node.snapshotGeneration.toNat ≤ gen x ∧ s.network.Above (gen x)
  hand : ∀ x, γ.hand = some x → s.node.snapshotGeneration.toNat ≤ gen x ∧ s.network.Above (gen x)

open Link in
structure Ordered (s : RuntimeState Link) (γ : Course) : Prop where
  inOrder : s.network.InOrder
  flow : γ.broken = false → Flow s γ
  single : (snapshotsIn s.pending).length ≤ 1
  kept : ∀ message ∈ s.pending, (carried message).isSome → isSnapshot message = true
  taken : γ.fresh = false → γ.hand.isSome → snapshotsIn s.pending = []
  timely : γ.stale = false
  rest : γ.concluded = true → s.outcome.isRunning = true → γ.broken = false
  outcome : s.outcome ≠ .ended (.error (.core .staleSnapshot))

/-- The coordinator builds snapshots at generations that do not decrease, and sends what it has built. -/
def Honest (cfg : Pool.Config Section Response (RuntimeState Link) Course) :
    Pool.Move (Env LinkEnv) Event → Prop
  | .spawn _ _ => True
  | .step _ e => Link.Serves (fun n step => step.Honest n) cfg.shared.network e.network.steps

/-- Snapshots are put into the connection in order, and no reply overtakes an older snapshot: neither in the
writer, nor in the client. -/
def InTurn (cfg : Pool.Config Section Response (RuntimeState Link) Course) :
    Pool.Move (Env LinkEnv) Event → Prop
  | .spawn _ _ => True
  | .step t e => Link.Serves (fun n step => step.InTurn n) cfg.shared.network e.network.steps ∧
      ∀ x, cfg.at t = some (.applySnapshot x) → (cfg.phase t).fresh = true →
        ∀ y ∈ Link.snapshotsIn cfg.shared.pending, gen x ≤ gen y

section Step

open Link

variable {suite : Suite} {peer : Peer} {fuel : ℕ} {s s' : RuntimeState Link} {γ γ' : Course}
  {e : Env LinkEnv}

lemma Ordered.network (h : Ordered s γ) {n : Link} (hn : n.InOrder)
    (habove : ∀ b, s.network.Above b → n.Above b) : Ordered { s with network := n } γ := by
  refine ⟨hn, fun hbroken => ?_, h.single, h.kept, h.taken, h.timely, h.rest, h.outcome⟩
  obtain ⟨hwell, hnode, hpending, hhand⟩ := h.flow hbroken
  refine ⟨hwell, habove _ hnode, fun x hx => ?_, fun x hx => ?_⟩
  · exact ⟨(hpending x hx).1, habove _ (hpending x hx).2⟩
  · exact ⟨(hhand x hx).1, habove _ (hhand x hx).2⟩

lemma Ordered.asked (h : Ordered s γ) : Ordered s { γ with waiting := true } := by
  refine ⟨h.inOrder, fun hbroken => ?_, h.single, h.kept, h.taken, h.timely, h.rest, h.outcome⟩
  obtain ⟨hwell, hnode, hpending, hhand⟩ := h.flow hbroken
  exact ⟨hwell, hnode, hpending, hhand⟩

lemma Ordered.drop (h : Ordered s γ) : Ordered s { γ with hand := none } := by
  refine ⟨h.inOrder, fun hbroken => ?_, h.single, h.kept, nofun, h.timely, h.rest, h.outcome⟩
  obtain ⟨hwell, hnode, hpending, -⟩ := h.flow hbroken
  exact ⟨hwell, hnode, hpending, nofun⟩

variable {message m : ControlMessage} {messages : List ControlMessage} {x : NetworkSnapshot}
  {r : Except Core.CoreError Unit}

lemma Ordered.received (h : Ordered s γ) {rest : List ControlMessage}
    (hwire : s.network.wire = message :: rest) :
    Ordered { s with network := { s.network with wire := rest } }
      { γ with hand := carried message, fresh := true } := by
  have hpopped := h.network (h.inOrder.pop hwire) fun b hb => hb.pop hwire
  refine ⟨hpopped.inOrder, fun hbroken => ?_, h.single, h.kept, nofun, h.timely, h.rest, h.outcome⟩
  obtain ⟨hwell, hnode, hpending, -⟩ := hpopped.flow hbroken
  refine ⟨hwell, hnode, hpending, fun x hx => ?_⟩
  obtain ⟨hmem, habove⟩ := h.inOrder.popped hwire hx
  exact ⟨(h.flow hbroken).node.queue x hmem, habove⟩

lemma Ordered.popPending (h : Ordered s γ) :
    Ordered { s with pending := s.pending.tail }
      { γ with hand := s.pending.head?.bind carried, fresh := false } := by
  cases hpending : s.pending with
  | nil =>
    refine ⟨h.inOrder, fun hbroken => ?_, ?_, nofun, nofun, h.timely, h.rest, h.outcome⟩
    · exact ⟨(h.flow hbroken).well, (h.flow hbroken).node, nofun, nofun⟩
    · exact Nat.zero_le _
  | cons message rest =>
    have hsplit : snapshotsIn s.pending = (carried message).toList ++ snapshotsIn rest := by
      rw [hpending, snapshotsIn_cons]
    have hsingle := h.single
    rw [hsplit, List.length_append] at hsingle
    refine ⟨h.inOrder, fun hbroken => ?_, ?_, fun m hm => ?_, fun _ hhand => ?_, h.timely, h.rest,
      h.outcome⟩
    · obtain ⟨hwell, hnode, hkept, -⟩ := h.flow hbroken
      rw [hsplit] at hkept
      refine ⟨hwell, hnode, fun x hx => hkept x (List.mem_append_right _ hx), fun x hx => ?_⟩
      exact hkept x (List.mem_append_left _ (Option.mem_toList.2 hx))
    · exact (Nat.le_add_left ..).trans hsingle
    · exact h.kept m (hpending ▸ .tail _ hm)
    · -- the queue has one snapshot at most
      obtain ⟨x, hx⟩ := Option.isSome_iff_exists.1 hhand
      have hone : (carried message).toList.length = 1 := by
        change carried message = some x at hx
        rw [hx]
        rfl
      refine List.eq_nil_of_length_eq_zero ?_
      change (snapshotsIn rest).length = 0
      omega

lemma snapshotsIn_filter (messages : List ControlMessage)
    (hkept : ∀ m ∈ messages, (carried m).isSome → isSnapshot m = true) :
    snapshotsIn (messages.filter fun other => !isSnapshot other) = [] := by
  refine List.filterMap_eq_nil_iff.2 fun m hm => ?_
  obtain ⟨hm, hother⟩ := List.mem_filter.1 hm
  cases hcarried : carried m with
  | none => rfl
  | some x =>
    have hsnapshot := hkept m hm (by rw [hcarried]; rfl)
    rw [hsnapshot] at hother
    cases hother

lemma snapshotsIn_replaceSnapshot (hkept : ∀ m ∈ messages, (carried m).isSome → isSnapshot m = true)
    (hany : messages.any isSnapshot = true) :
    snapshotsIn (replaceSnapshot message messages) = (carried message).toList := by
  induction messages with
  | nil => cases hany
  | cons first rest ih =>
    have hrest : ∀ m ∈ rest, (carried m).isSome → isSnapshot m = true :=
      fun m hm => hkept m (.tail _ hm)
    unfold replaceSnapshot
    split
    · rw [snapshotsIn_cons, snapshotsIn_filter rest hrest, List.append_nil]
    · rename_i hfirst
      have hnone : carried first = none := by
        refine Option.not_isSome_iff_eq_none.1 fun hsome => hfirst ?_
        exact hkept first (.head _) hsome
      rw [snapshotsIn_cons, hnone, ih hrest]
      · rfl
      · simpa [hfirst] using hany

lemma snapshotsIn_enqueuePending (hkept : ∀ m ∈ messages, (carried m).isSome → isSnapshot m = true)
    (hmessage : (carried message).isSome → isSnapshot message = true) :
    snapshotsIn (enqueuePending messages message) =
      if isSnapshot message then (carried message).toList else snapshotsIn messages := by
  unfold enqueuePending
  cases hsnapshot : isSnapshot message with
  | false =>
    have hnone : carried message = none := by
      refine Option.not_isSome_iff_eq_none.1 fun hsome => ?_
      rw [hmessage hsome] at hsnapshot
      cases hsnapshot
    simp [hnone]
  | true =>
    cases hany : messages.any isSnapshot with
    | true => simpa using snapshotsIn_replaceSnapshot hkept hany
    | false =>
      have hnone : snapshotsIn messages = [] := by
        refine List.filterMap_eq_nil_iff.2 fun m hm => ?_
        refine Option.not_isSome_iff_eq_none.1 fun hsome => ?_
        have hm' := List.any_eq_false.1 hany m hm
        exact hm' (hkept m hm hsome)
      simp [hnone]

lemma Ordered.enqueuePending (h : Ordered s γ) (hok : γ.ok (.enqueuePending message)) :
    Ordered { s with pending := Runtime.enqueuePending s.pending message }
      { γ with hand := none } := by
  obtain ⟨hhand, hmessage⟩ := hok
  have hsnapshots := snapshotsIn_enqueuePending h.kept hmessage
  refine ⟨h.inOrder, fun hbroken => ?_, ?_, fun m hm => ?_, nofun, h.timely, h.rest, h.outcome⟩
  · obtain ⟨hwell, hnode, hpending, hinHand⟩ := h.flow hbroken
    refine ⟨hwell, hnode, fun x hx => ?_, nofun⟩
    change x ∈ snapshotsIn (Runtime.enqueuePending s.pending message) at hx
    rw [hsnapshots] at hx
    split at hx
    · exact hinHand x (hhand.trans (Option.mem_toList.1 hx))
    · exact hpending x hx
  · change (snapshotsIn (Runtime.enqueuePending s.pending message)).length ≤ 1
    rw [hsnapshots]
    split
    · exact Option.length_toList_le
    · exact h.single
  · rcases mem_enqueuePending hm with rfl | hm
    · exact hmessage
    · exact h.kept m hm

lemma Ordered.pushPending (h : Ordered s γ) (hok : γ.ok (.pushPending message)) :
    Ordered { s with pending := s.pending ++ [message] } { γ with hand := none } := by
  have hnone : carried message = none := hok
  have hsame : snapshotsIn (s.pending ++ [message]) = snapshotsIn s.pending := by
    simp [hnone]
  refine ⟨h.inOrder, fun hbroken => ?_, hsame ▸ h.single, fun m hm => ?_, nofun, h.timely, h.rest,
    h.outcome⟩
  · obtain ⟨hwell, hnode, hpending, -⟩ := h.flow hbroken
    exact ⟨hwell, hnode, hsame ▸ hpending, nofun⟩
  · rcases List.mem_append.1 hm with hm | hm
    · exact h.kept m hm
    · rw [List.mem_singleton.1 hm, hnone]
      exact nofun

lemma Ordered.notOlder (h : Ordered s γ) (hok : γ.ok (.applySnapshot x)) :
    s.node.snapshotGeneration.toNat ≤ gen x :=
  ((h.flow hok.1.1.broken).hand x hok.2).1

lemma Ordered.applySnapshot (h : Ordered s γ) (hok : γ.ok (.applySnapshot x))
    (hexec : exec suite peer link e (.applySnapshot x) s = some (r, s'))
    (hturn : γ.fresh = true → ∀ y ∈ snapshotsIn s.pending, gen x ≤ gen y) :
    Ordered s' (γ.next (.applySnapshot x) r) := by
  obtain ⟨hwell, hnode, hpending, hhand⟩ := h.flow hok.1.1.broken
  have hconcluded : γ.concluded ≠ true := by
    rw [hok.1.1.concluded]
    nofun
  obtain ⟨node, hrun, ⟨rfl, rfl⟩ | ⟨⟨error, rfl⟩, rfl⟩⟩ := exec_applySnapshot hexec
  · refine ⟨h.inOrder, fun hbroken => ?_, h.single, h.kept, nofun, h.timely,
      fun hc => (hconcluded hc).elim, h.outcome⟩
    have hends : (Core.Call.applySnapshot x).Ends suite peer.node s.node true node := ⟨_, hrun, rfl⟩
    obtain ⟨hinstalled, -⟩ := Prog.wp_run (Core.applySnapshot_ok_wp x hwell) hrun rfl
    have hgeneration : node.snapshotGeneration.toNat = gen x := by
      rw [hinstalled.generation]
    refine ⟨hends.wellFormed hwell, ?_, fun y hy => ⟨?_, (hpending y hy).2⟩, nofun⟩
    · change s.network.Above node.snapshotGeneration.toNat
      rw [hgeneration]
      exact (hhand x hok.2).2
    · change node.snapshotGeneration.toNat ≤ gen y
      rw [hgeneration]
      cases hfresh : γ.fresh with
      | true => exact hturn hfresh y hy
      | false =>
        have hempty := h.taken hfresh (by rw [hok.2]; rfl)
        change y ∈ snapshotsIn s.pending at hy
        rw [hempty] at hy
        cases hy
  · -- the node has refused the snapshot, but not as stale
    have herror : error ≠ .staleSnapshot := by
      rintro rfl
      have hlt := Prog.wp_run (Core.applySnapshot_stale_wp x s.node) hrun rfl
      exact absurd (h.notOlder hok) (not_le.2 (UInt64.lt_iff_toNat_lt.1 hlt))
    refine ⟨h.inOrder, nofun, h.single, h.kept, nofun, ?_, fun hc => (hconcluded hc).elim, h.outcome⟩
    exact Bool.or_eq_false_iff.2 ⟨h.timely, decide_eq_false herror⟩

lemma Ordered.registerPeer (h : Ordered s γ) {info : PeerInfo}
    (hexec : exec suite peer link e (.registerPeer info) s = some (r, s')) :
    Ordered s' (γ.next (.registerPeer info) r) := by
  obtain ⟨node, hrun, rfl⟩ := exec_registerPeer hexec
  have hgeneration := Prog.wp_run (Core.registerPeer_generation_wp info s.node) hrun
  have hends : (Core.Call.registerPeer info).Ends suite peer.node s.node r.toOption.isSome node :=
    ⟨_, r, hrun, rfl⟩
  have hflow : γ.broken = false → Flow { s with node } γ := by
    intro hbroken
    obtain ⟨hwell, hnode, hpending, hhand⟩ := h.flow hbroken
    rw [← hgeneration] at hnode hpending hhand
    exact ⟨hends.wellFormed hwell, hnode, hpending, hhand⟩
  cases r with
  | ok _ => exact ⟨h.inOrder, hflow, h.single, h.kept, h.taken, h.timely, h.rest, h.outcome⟩
  | error error =>
    have herror : error ≠ .staleSnapshot := by
      have hfails := Prog.wp_run (Prog.Under.wp (Core.neverStale_registerPeer info)
        (fun _ _ _ _ _ _ => trivial) s.node) hrun
      exact hfails
    refine ⟨h.inOrder, fun hbroken => ?_, h.single, h.kept, h.taken, ?_, h.rest, h.outcome⟩
    · obtain ⟨hwell, hnode, hpending, hhand⟩ := hflow hbroken
      exact ⟨hwell, hnode, hpending, hhand⟩
    · exact Bool.or_eq_false_iff.2 ⟨h.timely, decide_eq_false herror⟩

lemma Ordered.adopt (h : Ordered s γ) : Ordered { s with pending := [] } { γ with joining := true } := by
  refine ⟨h.inOrder, fun hbroken => ?_, Nat.zero_le _, nofun, fun _ _ => rfl, h.timely, h.rest,
    h.outcome⟩
  obtain ⟨hwell, hnode, -, hhand⟩ := h.flow hbroken
  exact ⟨hwell, hnode, nofun, hhand⟩

lemma Ordered.connect (h : Ordered s γ) : Ordered { s with network := .new s.network.built s.network.put } γ :=
  h.network (new_inOrder _ _) fun _ hb => ⟨hb.put, nofun⟩

lemma Ordered.recvWire (h : Ordered s γ) {request : Option String}
    {r : Except CoordClientError ControlMessage}
    (hexec : exec suite peer link e (.recvWire request) s = some (r, s'))
    (hserved : Ordered { s with network := s.network.serve e.network.steps } γ) :
    Ordered s' (γ.next (.recvWire request) r) := by
  obtain ⟨_, rfl, rfl⟩ | hstep := withinTime_cases hexec
  · exact h.drop
  obtain ⟨⟨r', n⟩, hrecv, hrs⟩ := Option.map_eq_some_iff.1 hstep
  cases hrs
  simp only [link] at hrecv
  split at hrecv
  · cases hrecv
    exact hserved.drop
  · cases hrecv
  · rename_i message rest _ hwire
    cases hrecv
    exact hserved.received hwire

/-- **One section.** -/
theorem ordered_step (h : Ordered s γ) {c : Section} {r : Response c} (hok : γ.ok c)
    (hexec : exec suite peer link e c s = some (r, s'))
    (hturn : Serves (fun n step => step.InTurn n) s.network e.network.steps)
    (happly : ∀ x, c = .applySnapshot x → γ.fresh = true → ∀ y ∈ snapshotsIn s.pending, gen x ≤ gen y) :
    Ordered s' (γ.next c r) := by
  have hserved : Ordered { s with network := s.network.serve e.network.steps } γ :=
    h.network (h.inOrder.serve hturn) fun b hb => hb.serve hturn
  -- everywhere else the connection, the queue and the node stay
  have hframe : s'.network = s.network → s'.pending = s.pending → s'.node = s.node →
      s'.outcome = s.outcome → (γ.next c r).hand = γ.hand → (γ.next c r).fresh = γ.fresh →
      (γ.next c r).broken = γ.broken → (γ.next c r).stale = γ.stale →
      (γ.next c r).concluded = γ.concluded → Ordered s' (γ.next c r) := by
    intro hnetwork hpending hnode houtcome hhand hfresh hbroken hstale hconcluded
    refine ⟨hnetwork ▸ h.inOrder, fun hb => ?_, hpending ▸ h.single, hpending ▸ h.kept, ?_,
      hstale.trans h.timely, ?_, houtcome ▸ h.outcome⟩
    · obtain ⟨hwell, habove, hkept, hinHand⟩ := h.flow (hbroken.symm.trans hb)
      rw [← hnetwork, ← hnode] at habove hkept hinHand
      exact ⟨hnode ▸ hwell, habove, hpending ▸ hkept, hhand ▸ hinHand⟩
    · rw [hfresh, hhand, hpending]
      exact h.taken
    · rw [hconcluded, houtcome, hbroken]
      exact h.rest
  cases c with
  | popPending =>
    cases hexec
    exact h.popPending
  | pushPending message =>
    cases hexec
    exact h.pushPending hok
  | enqueuePending message =>
    cases hexec
    exact h.enqueuePending hok
  | send request message =>
    obtain ⟨_, -, rfl⟩ | hstep := withinTime_cases hexec
    · exact h.asked
    · cases hstep
      exact hserved.asked
  | recvWire request => exact h.recvWire hexec hserved
  | connect =>
    cases hexec
    exact h.connect
  | adopt =>
    cases hexec
    exact h.adopt
  | registerPeer info => exact h.registerPeer hexec
  | applySnapshot x => exact h.applySnapshot hok hexec (happly x rfl)
  | conclude outcome =>
    cases hexec
    refine ⟨h.inOrder, fun hbroken => ?_, h.single, h.kept, h.taken, h.timely, ?_, hok.2 h.timely⟩
    · obtain ⟨hwell, hnode, hpending, hhand⟩ := h.flow hbroken
      exact ⟨hwell, hnode, hpending, hhand⟩
    · exact fun _ hrunning => (hok.1 hrunning).good.broken
  | _ =>
    cases hexec
    exact hframe rfl rfl rfl rfl rfl rfl rfl rfl rfl

end Step

/-- **The order of messages does not stop a peer**: the loop does not end for a stale snapshot, and no
snapshot that the peer applies is older than the one before, in every run in which the snapshots are put
into the connection in order and no reply overtakes an older one. -/
theorem order_spares (suite : Suite) (peer : Peer) (fuel : ℕ) (heap : Core.PeerRef → Core.PeerState)
    (built : List NetworkSnapshot) (put : ℕ) (credential : Option MembershipCredential) (stored : Option NetworkSnapshot)
    (dohServers stunServers : List String)
    (cfg : Pool.Config Section Response (RuntimeState Link) Course)
    (h : (runtimePool suite peer fuel link Course.start Course.next).Reachable InTurn
      ((runtimePool suite peer fuel link Course.start Course.next).initial
        (.new peer heap (.new built put) credential stored dohServers stunServers)) cfg) :
    cfg.shared.outcome ≠ .ended (.error (.core .staleSnapshot)) ∧
      ∀ snapshot, cfg.at 0 = some (.applySnapshot snapshot) →
        cfg.shared.node.snapshotGeneration ≤ snapshot.generation := by
  have hinit : Ordered (.new peer heap (.new built put) credential stored dohServers stunServers)
      Course.start := by
    refine ⟨Link.new_inOrder built put, fun _ => ?_, Nat.zero_le _, nofun, nofun, rfl, nofun, nofun⟩
    exact ⟨Core.new_wellFormed heap, ⟨Nat.zero_le _, nofun⟩, nofun, nofun⟩
  have hspawn : ∀ (s : RuntimeState Link) γ, Ordered s γ → γ.AtRest → s.outcome.isRunning = true →
      Ordered s Course.start := by
    intro s γ hi hrest hrunning
    have hbroken : γ.broken = false := by
      rcases hrest with hconcluded | rfl
      · exact hi.rest hconcluded hrunning
      · rfl
    obtain ⟨hwell, hnode, hpending, -⟩ := hi.flow hbroken
    exact ⟨hi.inOrder, fun _ => ⟨hwell, hnode, hpending, nofun⟩, hi.single, hi.kept, nofun, rfl, nofun,
      hi.outcome⟩
  have hstep : ∀ (cfg : Pool.Config Section Response (RuntimeState Link) Course) e c r s',
      Ordered cfg.shared (cfg.phase 0) → InTurn cfg (.step 0 e) →
      cfg.at 0 = some c → (cfg.phase 0).ok c → exec suite peer link e c cfg.shared = some (r, s') →
      Ordered s' ((cfg.phase 0).next c r) := by
    intro cfg e c r s' hi hguard hat hok hexec
    obtain ⟨hturn, happly⟩ := hguard
    refine ordered_step hi hok hexec hturn ?_
    rintro x rfl
    exact happly x hat
  have hinv := course_invariant h hinit hspawn hstep
  refine ⟨hinv.1.outcome, fun snapshot hat => ?_⟩
  have hnotOlder := hinv.1.notOlder (course_allows h hat)
  exact UInt64.le_iff_toNat_le.2 hnotOlder

section Demo

abbrev demoLinkPool : Pool.Spec Section Response (RuntimeState Link) (Env LinkEnv) Event Course :=
  runtimePool demoSuite demoPeer 5 link Course.start Course.next

def demoLinkEnv (n : ℕ) (steps : List ServerStep) : Env LinkEnv where
  network := { steps := steps, fault := none }
  node := List.replicate n Core.demoEnv
  unixTime := 10
  timedOut := false
  hostCandidates := [.host Core.demoPath]
  stun := .ok []
  saveError := none
  virtualMtu := 1190

/-- An event by itself, with what the node and the coordinator do in each of its sections. -/
def demoServed (event : Event) (sections : List (ℕ × List ServerStep)) :
    List (Pool.Move (Env LinkEnv) Event) :=
  .spawn 0 event :: sections.map fun (n, steps) => .step 0 (demoLinkEnv n steps)

/-- Sections without the node and the coordinator. -/
def quiet (n : ℕ) : List (ℕ × List ServerStep) := List.replicate n (0, [])

def demoJoined : List (Pool.Move (Env LinkEnv) Event) :=
  demoServed .opening (quiet 4 ++
    [(0, demoOpening.flatMap fun message =>
      (carried message).toList.map .build ++ [.reply message, .write])] ++ quiet 8 ++ [(16, [])] ++
    quiet 7 ++ [(22, [])] ++ quiet 16)

def demoLinkState : RuntimeState Link := .new demoPeer Core.demoState.heap (.new [] 0) none none [] []

def Outcome.isStale : Outcome → Bool
  | .ended (.error (.core .staleSnapshot)) => true
  | _ => false

/-- A snapshot waits in the slot while the next one is sent as a reply; it comes after it. -/
def demoOvertaken : List (Pool.Move (Env LinkEnv) Event) :=
  demoJoined ++ demoServed .refresh (quiet 3 ++
    [(0, [.build demoFirst, .broadcast demoFirst, .build demoSecond, .reply (.snapshotResponse demoSecond),
      .write, .write])] ++ quiet 1 ++
    [(19, [])] ++ quiet 5) ++ demoServed .recv (quiet 2 ++ [(5, [])] ++ quiet 1)

def honest (cfg : Pool.Config Section Response (RuntimeState Link) Course) :
    Pool.Move (Env LinkEnv) Event → Bool
  | .spawn _ _ => true
  | .step _ e =>
    decide (Link.Serves (fun n step => step.Honest n) cfg.shared.network e.network.steps)

lemma honest_sound (cfg : Pool.Config Section Response (RuntimeState Link) Course)
    (m : Pool.Move (Env LinkEnv) Event) (h : honest cfg m = true) : Honest cfg m := by
  cases m with
  | spawn t event => trivial
  | step t e =>
    have hserves : Link.Serves (fun n step => step.Honest n) cfg.shared.network e.network.steps :=
      of_decide_eq_true h
    exact hserves

def demoOvertakenEnd : {cfg // demoLinkPool.Reachable Honest (demoLinkPool.initial demoLinkState) cfg ∧
      cfg.shared.outcome.isStale = true ∧ cfg.shared.node.snapshotGeneration = 2} :=
  Pool.Spec.reach _ honest_sound demoOvertaken (by decide +kernel)

/-- The coordinator is honest, and the loop ends because a snapshot comes after a newer one. -/
theorem overtaken_broadcast : ∃ cfg,
    demoLinkPool.Reachable Honest (demoLinkPool.initial demoLinkState) cfg ∧
      cfg.shared.outcome = .ended (.error (.core .staleSnapshot)) ∧
      cfg.shared.node.snapshotGeneration = 2 := by
  obtain ⟨cfg, hreachable, hstale, hgeneration⟩ := demoOvertakenEnd
  refine ⟨cfg, hreachable, ?_, hgeneration⟩
  unfold Outcome.isStale at hstale
  split at hstale
  · assumption
  · cases hstale

/-- The conditions of a step, computed. -/
def inTurn (cfg : Pool.Config Section Response (RuntimeState Link) Course) :
    Pool.Move (Env LinkEnv) Event → Bool
  | .spawn _ _ => true
  | .step t e =>
    decide (Link.Serves (fun n step => step.InTurn n) cfg.shared.network e.network.steps) &&
      match cfg.at t with
      | some (.applySnapshot x) => !(cfg.phase t).fresh ||
          decide (∀ y ∈ Link.snapshotsIn cfg.shared.pending, gen x ≤ gen y)
      | _ => true

lemma inTurn_sound (cfg : Pool.Config Section Response (RuntimeState Link) Course)
    (m : Pool.Move (Env LinkEnv) Event) (h : inTurn cfg m = true) : InTurn cfg m := by
  cases m with
  | spawn t event => trivial
  | step t e =>
    obtain ⟨hserves, happly⟩ := Bool.and_eq_true_iff.1 h
    refine ⟨of_decide_eq_true hserves, fun x hat hfresh => ?_⟩
    simpa [hat, hfresh] using happly

def demoBroadcast : List (Pool.Move (Env LinkEnv) Event) :=
  demoJoined ++ demoServed .recv (quiet 1 ++ [(0, [.build demoSecond, .broadcast demoSecond, .write])] ++ [(19, [])] ++ quiet 5)

lemma honest_inTurn_sound (cfg : Pool.Config Section Response (RuntimeState Link) Course)
    (m : Pool.Move (Env LinkEnv) Event) (h : (honest cfg m && inTurn cfg m) = true) :
    Honest cfg m ∧ InTurn cfg m := by
  obtain ⟨hhonest, hturn⟩ := Bool.and_eq_true_iff.1 h
  exact ⟨honest_sound cfg m hhonest, inTurn_sound cfg m hturn⟩

def demoBroadcastEnd : {cfg // demoLinkPool.Reachable (fun cfg m => Honest cfg m ∧ InTurn cfg m)
      (demoLinkPool.initial demoLinkState) cfg ∧ cfg.shared.node.snapshotGeneration = 2} :=
  Pool.Spec.reach _ honest_inTurn_sound demoBroadcast (by decide +kernel)

theorem order_spares_broadcast : ∃ cfg,
    demoLinkPool.Reachable (fun cfg m => Honest cfg m ∧ InTurn cfg m)
      (demoLinkPool.initial demoLinkState) cfg ∧ cfg.shared.node.snapshotGeneration = 2 ∧
      cfg.shared.outcome ≠ .ended (.error (.core .staleSnapshot)) := by
  obtain ⟨cfg, hreachable, hgeneration⟩ := demoBroadcastEnd
  exact ⟨cfg, hreachable, hgeneration,
    (order_spares demoSuite demoPeer 5 _ _ _ _ _ _ _ cfg (hreachable.strengthen fun _ _ _ h => h.2)).1⟩

end Demo

end Vela.Runtime
