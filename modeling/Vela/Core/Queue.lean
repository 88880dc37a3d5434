import Vela.Core.Expiry
import Vela.Core.Attempts

/-!
# The queue of a peer

`flush_queue` pops a packet and hands it to `send_payload`, which puts it back if the session is gone by
then; and it stops at the first packet that is refused.

* `flush_queue_ends` — with a session there at every preparation, each iteration makes the queue shorter
  or ends the loop, whatever other tasks do in between;
* `flush_queue_endless` — without, the loop turns for ever on one packet.
-/

namespace Vela.Core

open Vela.Proto Vela.Crypto Vela.Ip Prog

variable {suite : Suite} {node : Node} {now : UInt64} {s s' : NodeState} {p : PeerRef}

/-! ### Iterations -/

/-- The number of packets that wait for the peer. -/
def NodeState.queued (s : NodeState) (p : PeerRef) : ℕ := (s.heap p).queue.length

/-- One iteration of `flush_queue`: whether the loop goes on. -/
def flushOnce (suite : Suite) (node : Node) (p : PeerRef) : Task Bool := do
  match ← peerCall p .popQueue with
  | none => return false
  | some payload => do
    let result ← (sendPayload suite node p payload).run
    return result.toBool

lemma flushQueue_succ (fuel : ℕ) (p : PeerRef) :
    flushQueue suite node (fuel + 1) p = (flushOnce suite node p).bind fun more =>
      if more then flushQueue suite node fuel p else .ret ⟨⟩ := by
  refine congrArg (Prog.op _) (funext fun popped => ?_)
  cases popped with
  | none => rfl
  | some payload =>
    refine Eq.trans ?_ (Prog.bind_assoc (sendPayload suite node p payload).run _ _).symm
    refine congrArg (Prog.bind (sendPayload suite node p payload).run) (funext fun result => ?_)
    cases result with
    | error error => rfl
    | ok _ => rfl

/-! ### Among other tasks -/

/-- The sections of an iteration after the packet was popped, as long as there is a session. -/
def Flushing : Section → Prop
  | .peer _ (.takeActive _) | .peer _ .takeAttempt | .peer _ .clearQueue | .peer _ .requestReconnect
  | .peer _ (.setConnecting _) | .peer _ .info | .peer _ (.recordSent _ _) => True
  | .peer _ (.prepareActive _) | .validateOutbound _ | .unixTime | .snapshotExpiresAt => True
  | .removeSession _ _ | .emit _ | .encryptPacket _ | .worker | .sendTo _ _ => True
  | _ => False

lemma flushing_step {e : Env} {c : Section} {r : Response c} (hc : Flushing c)
    (he : exec suite node e c s = some (r, s')) (p : PeerRef) : s'.queued p ≤ s.queued p := by
  rcases peer_frame he p with hframe | ⟨_, _, rfl | rfl, -, -⟩
  · have hsame : c.peerWrites .queue = false → s'.queued p ≤ s.queued p :=
      fun hf => (congrArg List.length (hframe.queue hf)).le
    cases c with
    | peer q op =>
      cases op with
      | clearQueue =>
        obtain ⟨-, rfl⟩ := exec_peer he
        unfold NodeState.queued
        rcases @heap_setPeer_cases s q p { s.heap q with queue := [] } with ⟨-, heq⟩ | ⟨-, heq⟩
        · exact heq ▸ Nat.zero_le _
        · exact (congrArg (List.length ∘ PeerState.queue) heq).le
      | _ => first | exact hc.elim | exact hsame rfl
    | _ => first | exact hc.elim | exact hsame rfl
  · exact hc.elim
  · exact hc.elim

section Footprint

variable {D : Discipline Section Response} (hcall : ∀ c, Flushing c → D.holds (call c))

include hcall

lemma holds_invalidation (q : PeerRef) (expected : Option UInt64) (request : Bool) :
    D.holds (invalidateSessionIf q expected request) := by
  refine D.bind (hcall (.peer q (.takeActive expected)) trivial) fun taken => ?_
  cases taken with
  | none => exact D.ret _
  | some sessionId =>
    refine D.bind (holds_whenSome fun id => hcall (.removeSession q id) trivial) fun _ => ?_
    refine D.bind (hcall (.peer q .takeAttempt) trivial) fun hadAttempt => ?_
    refine D.bind (hcall (.peer q .clearQueue) trivial) fun _ => ?_
    refine D.bind (holds_when (hcall (.peer q .requestReconnect) trivial)) fun _ => ?_
    refine D.bind (hcall (.peer q (.setConnecting false)) trivial) fun _ => ?_
    refine holds_when (D.bind (hcall (.peer q .info) trivial) fun info => ?_)
    exact D.bind (hcall (.emit _) trivial) fun _ => D.ret _

lemma holds_sending (packet : PreparedDataPacket) : D.holds (sendPrepared packet).run := by
  refine D.bindExcept (D.lift (hcall (.sendTo packet.path packet.wirePacket) trivial)) fun fault => ?_
  cases fault with
  | none => exact D.lift (hcall (.peer packet.peer (.recordSent _ _)) trivial)
  | some error =>
    exact D.bindExcept (D.lift (holds_invalidation hcall _ _ _)) fun _ => holds_throw _

lemma holds_encryption (q : PeerRef) (session : PreparedSession) (work : List (UInt64 × IpPacket)) :
    D.holds (encryptWork suite node q session work) :=
  holds_encryptWork (hcall .worker trivial) q (fun encryption _ => hcall (.encryptPacket encryption) trivial)
    session work

lemma holds_flushing (hpop : ∀ q, D.holds (peerCall q .popQueue))
    (hpush : ∀ q packets, D.holds (peerCall q (.pushQueue packets))) (fuel : ℕ)
    (hnever : D.holds (call .never)) (q : PeerRef) : D.holds (flushQueue suite node fuel q) := by
  have hprepare : ∀ packets, D.holds (prepareIpPackets suite node q packets) := by
    intro packets
    unfold prepareIpPackets
    split
    · exact D.ret _
    refine D.bind (hcall .unixTime trivial) fun time => ?_
    refine D.bind (hcall .snapshotExpiresAt trivial) fun expiresAt => ?_
    split
    · exact D.bind (holds_invalidation hcall q none true) fun _ => D.ret _
    dsimp only
    split
    · exact D.ret _
    refine D.bind (D.bind (hcall (.peer q (.prepareActive _)) trivial) fun prepared => ?_) fun _ =>
      D.ret _
    cases prepared with
    | none => exact D.bind (hpush q _) fun _ => D.ret _
    | some prepared => exact D.bind (holds_encryption hcall q prepared _) fun _ => D.ret _
  have hsend : ∀ payload, D.holds (sendPayload suite node q payload).run := by
    intro payload
    refine D.bindExcept (holds_ofExcept _) fun packet => ?_
    refine D.bindExcept (D.lift (hcall (.validateOutbound packet) trivial)) fun routed => ?_
    refine D.bindExcept (holds_ofExcept _) fun nodeId => ?_
    split
    · exact holds_throw _
    refine D.bindExcept (D.lift (hprepare [packet])) fun results => ?_
    split
    · exact holds_throw _
    · exact holds_sending hcall _
    · exact holds_pure _
    · exact holds_pure _
  induction fuel with
  | zero => exact hnever
  | succ fuel ih =>
    refine D.bind (hpop q) fun popped => ?_
    cases popped with
    | none => exact D.ret _
    | some payload =>
      refine D.bind (hsend payload) fun result => ?_
      cases result with
      | error error => exact D.ret _
      | ok _ => exact ih

end Footprint

/-- The property of programs that all their sections are such. -/
abbrev flushing : Discipline Section Response := Discipline.within Response Flushing

lemma flushing_call (c : Section) (hc : Flushing c) : flushing.holds (call c) :=
  ⟨hc, fun _ => trivial⟩

section Interference

variable {rely : NodeState → NodeState → Prop}
  (hrely : ∀ s s', rely s s' → s'.queued p ≤ s.queued p)

/-- Where the sequence numbers of a packet are taken, the peer has a session. -/
def Held (p : PeerRef) : Section → NodeState → Prop
  | .peer q (.prepareActive _), s => q = p → (s.heap p).active.isSome
  | _, _ => True

/-- The sections of a program among tasks that change the state as `rely` says, with a session of the
peer `p` wherever one is needed. -/
noncomputable abbrev execHeld (suite : Suite) (node : Node) (rely : NodeState → NodeState → Prop)
    (p : PeerRef) :=
  among (exec suite node) rely (Held p)

include hrely

variable {n : ℕ} {α : Type}

lemma flushing_avoids {prog : Task α} (h : flushing.holds prog) (hs : s.queued p < n) :
    prog.avoids (execHeld suite node rely p) (· = .never) (fun _ s' => s'.queued p < n) s := by
  refine avoids_mono (fun _ _ h => h.1) (Within.avoids
    ?_ ?_ h hs)
  · rintro c hc rfl
    exact hc
  · intro c e s r s' hc hs he
    obtain ⟨⟨hrel, -⟩, he⟩ := among_eq_some.1 he
    exact ((flushing_step hc he p).trans (hrely _ _ hrel)).trans_lt hs

lemma flushing_callBind {c : Section} {f : Response c → Task α} (hc : Flushing c) (hs : s.queued p < n)
    {Q : α → NodeState → Prop}
    (hf : ∀ r s', s'.queued p < n → (f r).avoids (execHeld suite node rely p) (· = .never) Q s') :
    (call c >>= f).avoids (execHeld suite node rely p) (· = .never) Q s :=
  avoids_bind.2 (avoids_mono hf (flushing_avoids hrely (flushing_call _ hc) hs))

lemma prepareValid_held (packets : List IpPacket) (hs : s.queued p < n) :
    (prepareValid suite node p packets).avoids (execHeld suite node rely p) (· = .never)
      (fun _ s' => s'.queued p < n) s := by
  refine avoids_callBind.2 ⟨nofun, fun e prepared s' he => ?_⟩
  obtain ⟨⟨hrel, hheld⟩, he⟩ := among_eq_some.1 he
  have hs' : s'.queued p < n :=
    ((flushing_step (c := .peer p (.prepareActive _)) trivial he p).trans (hrely _ _ hrel)).trans_lt hs
  obtain ⟨session, hsession⟩ := Option.isSome_iff_exists.1 (hheld rfl)
  obtain ⟨hprepared, -⟩ := exec_peer he
  cases prepared with
  | none =>
    -- only without a session is the packet put back
    simp only [performPeer, PeerState.prepareActive, hsession] at hprepared
    cases hprepared
  | some prepared =>
    exact flushing_avoids hrely (flushing.bind (holds_encryption flushing_call p prepared _)
      fun _ => flushing.ret _) hs'

lemma prepareIpPackets_held (packets : List IpPacket) (hs : s.queued p < n) :
    (prepareIpPackets suite node p packets).avoids (execHeld suite node rely p) (· = .never)
      (fun _ s' => s'.queued p < n) s := by
  unfold prepareIpPackets
  split
  · exact hs
  refine flushing_callBind hrely (c := .unixTime) trivial hs fun time s hs => ?_
  refine flushing_callBind hrely (c := .snapshotExpiresAt) trivial hs fun expiresAt s hs => ?_
  split
  · exact flushing_avoids hrely (flushing.bind (holds_invalidation flushing_call p none true)
      fun _ => flushing.ret _) hs
  · dsimp only
    split
    · exact hs
    · exact avoids_bind.2 (avoids_mono (fun _ _ hs => hs) (prepareValid_held hrely _ hs))

lemma sendPayload_held (payload : List UInt8) (hs : s.queued p < n) :
    (sendPayload suite node p payload).run.avoids (execHeld suite node rely p) (· = .never)
      (fun _ s' => s'.queued p < n) s := by
  refine avoids_bindExcept.2 ?_
  cases hparse : IpPacket.parse payload with
  | error error => exact hs
  | ok packet =>
    refine avoids_bindExcept.2 (avoids_lift.2 (avoids_mono (fun routed s hs => ?_)
      (flushing_avoids hrely (flushing_call (.validateOutbound packet) trivial) hs)))
    refine avoids_bindExcept.2 ?_
    cases routed with
    | error error => exact hs
    | ok nodeId =>
      dsimp only [Except.mapError, ofExcept, ExceptT.mk, ExceptT.run, Prog.avoids]
      split
      · exact hs
      refine avoids_bindExcept.2 (avoids_lift.2 (avoids_mono (fun results s hs => ?_)
        (prepareIpPackets_held hrely [packet] hs)))
      dsimp only
      split
      · exact hs
      · exact flushing_avoids hrely (holds_sending flushing_call _) hs
      · exact hs
      · exact hs

lemma flushOnce_held (s : NodeState) :
    (flushOnce suite node p).avoids (execHeld suite node rely p) (· = .never)
      (fun more s' => more = true → s'.queued p < s.queued p) s := by
  refine avoids_callBind.2 ⟨nofun, fun e popped s' he => ?_⟩
  obtain ⟨⟨hrel, -⟩, he⟩ := among_eq_some.1 he
  obtain ⟨hpopped, rfl⟩ := exec_peer he
  cases popped with
  | none => exact nofun
  | some payload =>
    refine avoids_bind.2 (avoids_mono (fun result s' hs' _ => hs')
      (sendPayload_held hrely payload (lt_of_lt_of_le ?_ (hrely _ _ hrel))))
    -- a packet was popped
    have hhead : (e.2.heap p).queue.head? = some payload := hpopped
    obtain ⟨rest, hqueue⟩ := List.head?_eq_some_iff.1 hhead
    simp only [NodeState.queued, heap_setPeer, performPeer, hqueue, List.tail_cons,
      List.length_cons]
    exact Nat.lt_succ_self _

/-- **`flush_queue` comes to an end** among tasks that put no packet into the queue, as long as the
session is there whenever a packet is prepared: each iteration ends the loop or leaves the queue
shorter, so there are no more iterations than packets. -/
theorem flush_queue_ends (suite : Suite) (node : Node) :
    (∀ s, (flushOnce suite node p).avoids (execHeld suite node rely p) (· = .never)
      (fun more s' => more = true → s'.queued p < s.queued p) s) ∧
      ∀ fuel s, s.queued p < fuel → (flushQueue suite node fuel p).avoids
        (execHeld suite node rely p) (· = .never) (fun _ _ => True) s := by
  refine ⟨flushOnce_held hrely, fun fuel => ?_⟩
  induction fuel with
  | zero => exact fun s hs => absurd hs (Nat.not_lt_zero _)
  | succ fuel ih =>
    intro s hs
    rw [flushQueue_succ]
    refine avoids_bind.2 (avoids_mono (fun more s' hmore => ?_) (flushOnce_held hrely s))
    cases more with
    | false => trivial
    | true =>
      have := hmore rfl
      exact ih s' (by omega)

end Interference

/-! ### Without a session -/

/-- A packet that `prepare_ip_packets` puts into the queue: it is for the peer, is not too large, and
there is room, but no session. -/
structure NodeState.Waits (node : Node) (now : UInt64) (s : NodeState) (p : PeerRef)
    (packet : IpPacket) : Prop where
  active : (s.heap p).active = none
  current : ¬ s.snapshotExpiresAt ≤ now
  route : s.routes.validateOutbound packet = .ok p.nodeId
  size : checkSize node packet = .ok packet
  room : s.queued p < node.config.perPeerQueueLimit

/-- The state with the packet at the end of the queue. -/
def NodeState.requeue (s : NodeState) (p : PeerRef) (packet : IpPacket) : NodeState :=
  s.setPeer p { s.heap p with queue := (s.heap p).queue ++ [packet.bytes] }

section Requeue

variable {rely : NodeState → NodeState → Prop} (hrefl : ∀ s, rely s s) {packet : IpPacket}

/-- The sections of a program among tasks that change the state as `rely` says. -/
noncomputable abbrev execAmong (suite : Suite) (node : Node)
    (rely : NodeState → NodeState → Prop) :=
  among (exec suite node) rely fun _ _ => True

include hrefl

lemma among_step {α : Type} {c : Section} {f : Response c → Task α} {Q : α → NodeState → Prop}
    (h : (call c >>= f).avoids (execAmong suite node rely) (· = .never) Q s) (e : Env)
    {r : Response c} (he : exec suite node e c s = some (r, s')) :
    (f r).avoids (execAmong suite node rely) (· = .never) Q s' :=
  h.2 (e, s) r s' (among_eq_some.2 ⟨⟨hrefl s, trivial⟩, he⟩)

lemma prepareIpPackets_requeues (h : s.Waits node now p packet)
    {Q : List Preparation → NodeState → Prop}
    (hQ : (prepareIpPackets suite node p [packet]).avoids (execAmong suite node rely) (· = .never)
      Q s) : Q [.ok none] (s.requeue p packet) := by
  rw [prepareIpPackets, if_neg (List.cons_ne_nil _ _)] at hQ
  have hQ := among_step hrefl (c := .unixTime) hQ { (default : Env) with unixTime := now } rfl
  have hQ := among_step hrefl hQ default rfl
  dsimp only at hQ
  rw [if_neg h.current, List.map_singleton, h.size] at hQ
  have hprepare : exec suite node default (.peer p (.prepareActive [packet.bytes.length])) s =
      some (none, s) := by
    simp only [exec, performPeer, PeerState.prepareActive, h.active, setPeer_heap]
  have hpush : exec suite node default (.peer p (.pushQueue [packet.bytes])) s =
      some ([true], s.requeue p packet) := by
    have hroom : ¬ node.config.perPeerQueueLimit ≤ (s.heap p).queue.length := not_le.2 h.room
    simp only [exec, performPeer, PeerState.queuePush, if_neg hroom, NodeState.requeue]
  have hQ := among_step hrefl (c := .peer p (.prepareActive [packet.bytes.length]))
    (avoids_bind.1 hQ) default hprepare
  exact among_step hrefl (c := .peer p (.pushQueue [packet.bytes])) hQ default hpush

lemma sendPayload_requeues (hrel : rely s s') (h : s'.Waits node now p packet)
    {Q : Except SendError Unit → NodeState → Prop}
    (hQ : (sendPayload suite node p packet.bytes).run.avoids (execAmong suite node rely) (· = .never)
      Q s) : Q (.ok ()) (s'.requeue p packet) := by
  have hQ := avoids_bindExcept.1 hQ
  rw [IpPacket.parse_bytes] at hQ
  have hQ := (avoids_lift.1 (avoids_bindExcept.1 hQ)).2 (default, s') _ _
    (among_eq_some.2 ⟨⟨hrel, trivial⟩, rfl⟩)
  have hQ := avoids_bindExcept.1 hQ
  rw [h.route] at hQ
  dsimp only [Except.mapError, ofExcept, ExceptT.mk, ExceptT.run, Prog.avoids] at hQ
  rw [if_neg (not_not.2 rfl)] at hQ
  have hQ := avoids_lift.1 (avoids_bindExcept.1 hQ)
  exact prepareIpPackets_requeues hrefl h hQ

lemma flushOnce_requeues (hqueue : (s.heap p).queue = [packet.bytes])
    (hrel : rely (s.setPeer p { s.heap p with queue := [] }) s') (h : s'.Waits node now p packet)
    {Q : Bool → NodeState → Prop}
    (hQ : (flushOnce suite node p).avoids (execAmong suite node rely) (· = .never) Q s) :
    Q true (s'.requeue p packet) := by
  have hpop : exec suite node default (.peer p .popQueue) s =
      some (some packet.bytes, s.setPeer p { s.heap p with queue := [] }) := by
    simp only [exec, performPeer, hqueue, List.head?_cons, List.tail_cons]
  have hQ := among_step hrefl hQ default hpop
  exact sendPayload_requeues hrefl hrel h (avoids_bind.1 hQ)

/-- Without a session the loop turns on one packet for ever. -/
lemma flushQueue_turns (hqueue : (s.heap p).queue = [packet.bytes])
    (h : (s.setPeer p { s.heap p with queue := [] }).Waits node now p packet) (fuel : ℕ) :
    ¬ (flushQueue suite node fuel p).avoids (execAmong suite node rely) (· = .never)
      (fun _ _ => True) s := by
  induction fuel with
  | zero => exact fun havoids => havoids.1 rfl
  | succ fuel ih =>
    intro havoids
    rw [flushQueue_succ] at havoids
    have hround := flushOnce_requeues hrefl hqueue (hrefl _) h (avoids_bind.1 havoids)
    -- the packet is back where it was
    have hback : (s.setPeer p { s.heap p with queue := [] }).requeue p packet = s := by
      have heq : ({ s.heap p with queue := [packet.bytes] } : PeerState) = s.heap p := by
        rw [← hqueue]
      simp only [NodeState.requeue, heap_setPeer, setPeer_setPeer, List.nil_append, heq, setPeer_heap]
    rw [if_pos rfl, hback] at hround
    exact ih hround

/-- It is enough that the session is taken once after the packet was popped. -/
lemma flushQueue_taken (hqueue : (s.heap p).queue = [packet.bytes])
    (hrel : rely (s.setPeer p { s.heap p with queue := [] }) s') (h : s'.Waits node now p packet)
    (hempty : (s'.heap p).queue = []) (fuel : ℕ) :
    ¬ (flushQueue suite node fuel p).avoids (execAmong suite node rely) (· = .never)
      (fun _ _ => True) s := by
  cases fuel with
  | zero => exact fun havoids => havoids.1 rfl
  | succ fuel =>
    intro havoids
    rw [flushQueue_succ] at havoids
    have hround := flushOnce_requeues hrefl hqueue hrel h (avoids_bind.1 havoids)
    have hpopped : (s'.requeue p packet).setPeer p
        { (s'.requeue p packet).heap p with queue := [] } = s' := by
      have heq : ({ s'.heap p with queue := [] } : PeerState) = s'.heap p := by
        rw [← hempty]
      simp only [NodeState.requeue, heap_setPeer, setPeer_setPeer, heq, setPeer_heap]
    refine flushQueue_turns hrefl ?_ (by rw [hpopped]; exact h) fuel hround
    simp only [NodeState.requeue, heap_setPeer, hempty, List.nil_append]

end Requeue

/-! ### An invalidation in between -/

/-- What another task does that invalidates the session of the peer: nothing, or all of it. -/
def Invalidates (suite : Suite) (node : Node) (p : PeerRef) (s s' : NodeState) : Prop :=
  s' = s ∨ ∃ es, (invalidateSession p true).run (exec suite node) es s = some ((), s')

lemma invalidates_queued (h : Invalidates suite node p s s') : s'.queued p ≤ s.queued p := by
  obtain rfl | ⟨es, hrun⟩ := h
  · exact le_rfl
  · have hkept : (invalidateSession p true).wp (exec suite node)
        (fun _ t => t.queued p ≤ s.queued p ∧ True) s :=
      Within.wp (fun c e t r t' hc ht he => (flushing_step hc he p).trans ht)
        (holds_invalidation flushing_call p none true) le_rfl
    exact (wp_run hkept hrun).1

section Demo

/-- A packet waits for the peer `1`, whose handshake arrives; the queue is about to be flushed. -/
def demoFlushing : List (Pool.Move Env Request) :=
  demoKnown ++ demoAlone 0 (.sendIp (demoIp 5 1)) 10 ++
    demoAlone 0 (.datagram (demoHello 1 1 7) demoPath) 24

def demoFlushingRun : Option (Pool.Config Section Response NodeState Unit) :=
  (plainPool demoSuite demoNode 3).runMoves (fun _ _ => true)
    ((plainPool demoSuite demoNode 3).initial demoState) demoFlushing

/-- Another task invalidates the session when the packet has been popped. -/
def demoTaken (s : NodeState) : Option (Unit × NodeState) :=
  (invalidateSession demoRef true).run (exec demoSuite demoNode) (List.replicate 8 demoEnv)
    (s.setPeer demoRef { s.heap demoRef with queue := [] })

lemma demoFlushing_facts :
    (demoFlushingRun.bind fun cfg => (demoTaken cfg.shared).map fun taken =>
      (decide ((cfg.shared.heap demoRef).queue = [demoIp 5 1]),
        match cfg.at 0 with
        | some (.peer q .popQueue) => decide (q = demoRef)
        | _ => false,
        decide ((taken.2.heap demoRef).queue = [] ∧ (taken.2.heap demoRef).active.isNone ∧
          ¬ taken.2.snapshotExpiresAt ≤ 10),
        (IpPacket.parse (demoIp 5 1)).toOption.any fun packet => decide (packet.bytes = demoIp 5 1 ∧
          taken.2.routes.validateOutbound packet = .ok demoRef.nodeId ∧
          checkSize demoNode packet = .ok packet))) = some (true, true, true, true) := by
  decide +kernel

lemma demoFlushing_state : ∃ cfg s' packet,
    demoFlushingRun = some cfg ∧ cfg.at 0 = some (.peer demoRef .popQueue) ∧
    (cfg.shared.heap demoRef).queue = [packet.bytes] ∧
    Invalidates demoSuite demoNode demoRef
      (cfg.shared.setPeer demoRef { cfg.shared.heap demoRef with queue := [] }) s' ∧
    (s'.heap demoRef).queue = [] ∧ s'.Waits demoNode 10 demoRef packet := by
  obtain ⟨cfg, hrun, hfacts⟩ := Option.bind_eq_some_iff.1 demoFlushing_facts
  obtain ⟨taken, htaken, hfacts⟩ := Option.map_eq_some_iff.1 hfacts
  simp only [Prod.mk.injEq, decide_eq_true_eq, Option.any_eq_true] at hfacts
  obtain ⟨hqueue, hat, ⟨hempty, hactive, hcurrent⟩, packet, -, hbytes, hroute, hsize⟩ := hfacts
  have hpop : cfg.at 0 = some (.peer demoRef .popQueue) := by
    split at hat
    · rename_i q hq
      rw [hq, of_decide_eq_true hat]
    · cases hat
  refine ⟨cfg, taken.2, packet, hrun, hpop, by rw [hbytes]; exact hqueue, .inr ⟨_, htaken⟩, hempty, ?_⟩
  refine ⟨Option.isNone_iff_eq_none.1 hactive, hcurrent, hroute, hsize, ?_⟩
  rw [NodeState.queued, hempty]
  decide

/-- A run of the node in which `flush_queue` is about to pop its one packet.  If the session is
invalidated after that, the packet is put back, the iteration goes on with a queue that is as long as
before, and the loop is not over after any number of iterations. -/
theorem flush_queue_endless : ∃ cfg, demoFlushingRun = some cfg ∧
    cfg.at 0 = some (.peer demoRef .popQueue) ∧ cfg.shared.queued demoRef = 1 ∧
    (¬ (flushOnce demoSuite demoNode demoRef).avoids
      (execAmong demoSuite demoNode (Invalidates demoSuite demoNode demoRef)) (· = .never)
      (fun more s' => more = true → s'.queued demoRef < cfg.shared.queued demoRef) cfg.shared) ∧
    ∀ fuel, ¬ (flushQueue demoSuite demoNode fuel demoRef).avoids
      (execAmong demoSuite demoNode (Invalidates demoSuite demoNode demoRef)) (· = .never)
      (fun _ _ => True) cfg.shared := by
  obtain ⟨cfg, s', packet, hrun, hpop, hqueue, htaken, hempty, hwaits⟩ := demoFlushing_state
  have hone : cfg.shared.queued demoRef = 1 := by rw [NodeState.queued, hqueue, List.length_singleton]
  refine ⟨cfg, hrun, hpop, hone, fun hround => ?_,
    flushQueue_taken (fun _ => .inl rfl) hqueue htaken hwaits hempty⟩
  have hshorter := flushOnce_requeues (fun _ => .inl rfl) hqueue htaken hwaits hround rfl
  simp only [NodeState.queued, NodeState.requeue, heap_setPeer, hempty, hqueue, List.nil_append,
    List.length_singleton] at hshorter
  exact absurd hshorter (Nat.lt_irrefl 1)

/-- As long as the invalidation does not come before a preparation, the queue of that run is flushed. -/
theorem flush_queue_ends_demo : ∃ cfg, demoFlushingRun = some cfg ∧
    (flushQueue demoSuite demoNode 2 demoRef).avoids
      (execHeld demoSuite demoNode (Invalidates demoSuite demoNode demoRef) demoRef) (· = .never)
      (fun _ _ => True) cfg.shared := by
  obtain ⟨cfg, s', packet, hrun, -, hqueue, -⟩ := demoFlushing_state
  refine ⟨cfg, hrun, (flush_queue_ends (fun _ _ => invalidates_queued) demoSuite demoNode).2 2 _ ?_⟩
  rw [NodeState.queued, hqueue, List.length_singleton]
  decide

end Demo

end Vela.Core
