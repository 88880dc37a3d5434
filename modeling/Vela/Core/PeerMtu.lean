import Vela.Core.PathMtu
import Vela.Core.Responses

/-!
# The path MTU between two nodes

A node learns what its peer takes from the acknowledgement of a probe, and it probes only above its own
conservative MTU.

* `path_mtu_respects` — once both sides are done, the confirmed MTU of a side is at most what the other
  is configured with exactly if its conservative MTU is, or the path carries its lowest probe.
-/

namespace Vela.Core

open Vela.Proto Vela.Crypto Vela.Ip Codec

/-! ### Probes and answers -/

/-- The plaintext of a probe. -/
def mtuProbePlaintext (target : ℕ) (nonce : Vector UInt8 mtuProbeNonceLen) : List UInt8 :=
  nonce.toList ++ List.replicate (target - mtuProbeNonceLen) 0

/-- The plaintext of the answer to a probe. -/
def mtuProbeAnswer (node : Node) (plaintext : List UInt8) : List UInt8 :=
  plaintext.take mtuProbeNonceLen ++ beBytes 2 (min node.config.virtualMtu (2 ^ 16 - 1))

/-- `payload` is what the node answers to a probe, whatever it is encrypted with. -/
def Node.Answers (node : Node) (plaintext payload : List UInt8) : Prop :=
  ∀ (suite : Suite) (session : ActiveSession) (source : SocketAddr) (now : Instant),
    session.handlePlaintext suite node .mtuProbe source plaintext now =
      session.respond suite .mtuProbeAck source payload

lemma handlePlaintext_mtuProbe (node : Node) (target : ℕ) (nonce : Vector UInt8 mtuProbeNonceLen) :
    node.Answers (mtuProbePlaintext target nonce) (mtuProbeAnswer node (mtuProbePlaintext target nonce)) := by
  intro suite session source now
  have hlength : ¬ (mtuProbePlaintext target nonce).length < mtuProbeNonceLen := by
    simp [mtuProbePlaintext]
  simp only [ActiveSession.handlePlaintext, if_neg hlength]
  rfl

lemma respond_demo_inj {session : ActiveSession} {source : SocketAddr} {a b : List UInt8} (ha : a.length < 2 ^ 15)
    (h : session.respond demoSuite .mtuProbeAck source a = session.respond demoSuite .mtuProbeAck source b) :
    a = b := by
  have hrespond : ∀ payload : List UInt8, payload.length + 16 < 2 ^ 16 → ∃ after,
      session.respond demoSuite .mtuProbeAck source payload = (.done none (some
        { packetType := .mtuProbeAck, path := source, sessionId := session.sessionId
          sequence := session.txSequence
          payload := payload ++ (demoTag session.cipher.tx (nonce session.txSequence)).toList }), after) := by
    intro payload hlength
    simp only [ActiveSession.respond, ActiveSession.takeSequence, encryptPayload, Header.new, if_pos hlength]
    exact ⟨_, rfl⟩
  obtain ⟨after, hafter⟩ := hrespond a (by omega)
  by_cases hb : b.length + 16 < 2 ^ 16
  · obtain ⟨after', hafter'⟩ := hrespond b hb
    rw [hafter, hafter'] at h
    simp only [Prod.mk.injEq, DataOutcome.done.injEq, Option.some.injEq, Reply.mk.injEq,
      List.append_cancel_right_eq] at h
    exact h.1.2.2.2.2.2
  · rw [hafter] at h
    simp only [ActiveSession.respond, ActiveSession.takeSequence, encryptPayload, Header.new, if_neg hb] at h
    cases h

/-- There is no other answer: under an encryption that only adds a tag one could tell it apart. -/
lemma Node.Answers.eq {node : Node} {target : ℕ} {nonce : Vector UInt8 mtuProbeNonceLen} {payload : List UInt8}
    (h : node.Answers (mtuProbePlaintext target nonce) payload) (session : ActiveSession) :
    payload = mtuProbeAnswer node (mtuProbePlaintext target nonce) := by
  have hsame := (handlePlaintext_mtuProbe node target nonce demoSuite session session.path 0).symm.trans
    (h demoSuite session session.path 0)
  refine (respond_demo_inj ?_ hsame).symm
  simp [mtuProbeAnswer, mtuProbePlaintext, mtuProbeNonceLen]

lemma mtuProbe_sends (suite : Suite) {peer : PeerState} {session : ActiveSession}
    (hactive : peer.active = some session) (now : Instant) (nonce : Vector UInt8 mtuProbeNonceLen) :
    (∃ session', (peer.mtuProbe suite now nonce).2.active = some session' ∧ session'.path = session.path ∧
      session'.pathMtu = (session.pathMtu.pollProbe now nonce).2) ∧
    ∀ reply, (peer.mtuProbe suite now nonce).1 = some reply → ∃ target nonce',
      (session.pathMtu.pollProbe now nonce).1 = some (target, nonce') ∧
      encryptPayload suite session .mtuProbe session.txSequence (mtuProbePlaintext target nonce') =
        .ok reply.payload := by
  simp only [PeerState.mtuProbe, hactive]
  cases hprobe : (session.pathMtu.pollProbe now nonce).1 with
  | none => exact ⟨⟨_, rfl, rfl, rfl⟩, fun _ h => by cases h⟩
  | some probe =>
    obtain ⟨target, nonce'⟩ := probe
    dsimp only
    split
    · exact ⟨⟨_, rfl, rfl, rfl⟩, fun _ h => by cases h⟩
    · simp only [ActiveSession.takeSequence]
      split
      · exact ⟨⟨_, rfl, rfl, rfl⟩, fun _ h => by cases h⟩
      · rename_i hencrypted
        refine ⟨⟨_, rfl, rfl, rfl⟩, fun _ h => ?_⟩
        cases h
        exact ⟨target, nonce', rfl, hencrypted⟩

lemma handleMtuProbeAck_answer (node : Node) (session : ActiveSession) (target : ℕ)
    (nonce : Vector UInt8 mtuProbeNonceLen) :
    (session.handleMtuProbeAck session.path (mtuProbeAnswer node (mtuProbePlaintext target nonce))).2 =
      { session with pathMtu := (session.pathMtu.acknowledge nonce.toList
          (min node.config.virtualMtu (2 ^ 16 - 1))).2 } := by
  have hnonce : (mtuProbePlaintext target nonce).take mtuProbeNonceLen = nonce.toList := by
    simp [mtuProbePlaintext]
  have hmtu : ofBeBytes (beBytes 2 (min node.config.virtualMtu (2 ^ 16 - 1))) =
      min node.config.virtualMtu (2 ^ 16 - 1) := by
    rw [ofBeBytes_beBytes, Nat.mod_eq_of_lt]
    omega
  have hlength : ¬ (mtuProbeAnswer node (mtuProbePlaintext target nonce)).length ≠
      mtuProbeNonceLen + 2 := by
    simp [mtuProbeAnswer, hnonce]
  simp only [ActiveSession.handleMtuProbeAck, if_neg hlength, ne_eq, not_true_eq_false, if_false]
  have htake : (mtuProbeAnswer node (mtuProbePlaintext target nonce)).take mtuProbeNonceLen =
      nonce.toList := by
    simp [mtuProbeAnswer, hnonce]
  have hdrop : (mtuProbeAnswer node (mtuProbePlaintext target nonce)).drop mtuProbeNonceLen =
      beBytes 2 (min node.config.virtualMtu (2 ^ 16 - 1)) := by
    simp [mtuProbeAnswer, hnonce]
  rw [htake, hdrop, hmtu]
  split <;> rfl

/-- One side of a session with `other` on a path that carries `capacity`: a poll does not find a probe
timed out that the path carries, and the answers to such probes arrive, also late or more than once. -/
inductive Exchanges (suite : Suite) (other : Node) (capacity : ℕ) (session : ActiveSession) :
    ActiveSession → Prop where
  | poll (peer : PeerState) (hactive : peer.active = some session) (now : Instant)
      (nonce : Vector UInt8 mtuProbeNonceLen)
      (hinTime : ∀ probe, session.pathMtu.pending = some probe → probe.target ≤ capacity →
        now - probe.sentAt < mtuProbeTimeout)
      (session' : ActiveSession) (hpolled : (peer.mtuProbe suite now nonce).2.active = some session') :
      Exchanges suite other capacity session session'
  | answer (probe : PendingMtuProbe) (hpending : session.pathMtu.pending = some probe)
      (hfits : probe.target ≤ capacity) (payload : List UInt8)
      (hanswer : other.Answers (mtuProbePlaintext probe.target probe.nonce) payload) :
      Exchanges suite other capacity session (session.handleMtuProbeAck session.path payload).2
  | late (target : ℕ) (nonce : Vector UInt8 mtuProbeNonceLen)
      (hother : ∀ probe, session.pathMtu.pending = some probe → probe.nonce ≠ nonce) (payload : List UInt8)
      (hanswer : other.Answers (mtuProbePlaintext target nonce) payload) :
      Exchanges suite other capacity session (session.handleMtuProbeAck session.path payload).2

/-! ### The lowest probe -/

variable {base target lower : ℕ}

lemma nextMtuProbe_lt (h : nextMtuProbe base (target - 1) = some lower) : lower < target := by
  obtain ⟨hgain, hfit, -⟩ := nextMtuProbe_some h
  omega

/-- The last of the probes that are sent after `target` was lost, if all of them are lost. -/
def lowestProbe (base target : ℕ) : ℕ :=
  match _h : nextMtuProbe base (target - 1) with
  | none => target
  | some lower => lowestProbe base lower
termination_by target
decreasing_by exact nextMtuProbe_lt _h

lemma lowestProbe_none (h : nextMtuProbe base (target - 1) = none) :
    lowestProbe base target = target := by
  rw [lowestProbe]
  split
  · rfl
  · rename_i hsome
    rw [h] at hsome
    cases hsome

lemma lowestProbe_some (h : nextMtuProbe base (target - 1) = some lower) :
    lowestProbe base target = lowestProbe base lower := by
  rw [lowestProbe]
  split
  · rename_i hnone
    rw [h] at hnone
    cases hnone
  · rename_i hsome
    rw [Option.some.inj (h.symm.trans hsome)]

lemma lowestProbe_le (base target : ℕ) : lowestProbe base target ≤ target := by
  induction target using Nat.strong_induction_on with
  | h target ih =>
    cases h : nextMtuProbe base (target - 1) with
    | none => rw [lowestProbe_none h]
    | some lower =>
      rw [lowestProbe_some h]
      exact (ih lower (nextMtuProbe_lt h)).trans (nextMtuProbe_lt h).le

example : lowestProbe 1190 1254 = 1197 := by
  have hfirst : nextMtuProbe 1190 (1254 - 1) = some 1221 := rfl
  have hsecond : nextMtuProbe 1190 (1221 - 1) = some 1205 := rfl
  have hthird : nextMtuProbe 1190 (1205 - 1) = some 1197 := rfl
  rw [lowestProbe_some hfirst, lowestProbe_some hsecond, lowestProbe_some hthird, lowestProbe_none rfl]

/-! ### One side -/

/-- The first probe of a node. -/
def Node.firstProbe (node : Node) : ℕ := min (node.safeVirtualMtu + mtuProbeStep) node.config.virtualMtu

/-- The node sends probes to `other`, and the path carries one of those it sends before any is
acknowledged. -/
def Node.Learns (node : Node) (capacity : ℕ) : Prop :=
  node.safeVirtualMtu < node.config.virtualMtu ∧
    lowestProbe node.safeVirtualMtu node.firstProbe ≤ capacity

/-- How far a side has come with what the other takes. -/
inductive Learning (node other : Node) (capacity : ℕ) (state : PathMtuState) : Prop where
  /-- the node is configured with its conservative MTU, or less -/
  | silent (hmax : node.safeVirtualMtu = node.config.virtualMtu)
      (hconfirmed : state.confirmed = node.safeVirtualMtu) (hidle : state.Idle)
  /-- no probe was acknowledged, and one is on its way -/
  | unanswered (target : ℕ) (hmax : node.safeVirtualMtu < node.config.virtualMtu)
      (hconfirmed : state.confirmed = node.safeVirtualMtu)
      (hprobe : state.next = some target ∨ state.pending.map (·.target) = some target)
      (hlowest : lowestProbe node.safeVirtualMtu target =
        lowestProbe node.safeVirtualMtu node.firstProbe)
  /-- no probe was acknowledged, and the last one was lost -/
  | lost (hconfirmed : state.confirmed = node.safeVirtualMtu) (hidle : state.Idle)
      (hlost : capacity < lowestProbe node.safeVirtualMtu node.firstProbe)
  | answered (hconfirmed : state.confirmed ≤ other.config.virtualMtu) (hlearns : node.Learns capacity)

variable {suite : Suite} {node other : Node} {capacity : ℕ} {state : PathMtuState}

lemma learning_new :
    Learning node other capacity (PathMtuState.new node.safeVirtualMtu node.config.virtualMtu) := by
  have hle : node.safeVirtualMtu ≤ node.config.virtualMtu := min_le_left _ _
  have hconfirmed : (PathMtuState.new node.safeVirtualMtu node.config.virtualMtu).confirmed =
      node.safeVirtualMtu := min_eq_left hle
  rcases hle.eq_or_lt with hmax | hmax
  · refine .silent hmax hconfirmed ⟨?_, rfl⟩
    simp [PathMtuState.new, hmax]
  · refine .unanswered node.firstProbe hmax hconfirmed (.inl ?_) rfl
    simp [PathMtuState.new, hle, hmax, Node.firstProbe]

lemma learning_giveUp {probe : PendingMtuProbe} (hb : state.Bounded node.config.virtualMtu)
    (hmax : node.safeVirtualMtu < node.config.virtualMtu)
    (hconfirmed : state.confirmed = node.safeVirtualMtu) (hpending : state.pending = some probe)
    (hlowest : lowestProbe node.safeVirtualMtu probe.target =
      lowestProbe node.safeVirtualMtu node.firstProbe)
    (hlost : capacity < probe.target) (now : Instant) (nonce : Vector UInt8 mtuProbeNonceLen) :
    Learning node other capacity ((state.giveUp probe).startProbe now nonce).2 := by
  obtain ⟨hlow, hhigh⟩ := hb.pending probe hpending
  have hnext : (state.giveUp probe).next = nextMtuProbe node.safeVirtualMtu (probe.target - 1) := by
    simp only [PathMtuState.giveUp, hconfirmed]
    rw [min_eq_right (by omega)]
  cases hprobe : nextMtuProbe node.safeVirtualMtu (probe.target - 1) with
  | none =>
    rw [hprobe] at hnext
    rw [PathMtuState.startProbe_none hnext]
    refine .lost hconfirmed ⟨hnext, rfl⟩ ?_
    rwa [← hlowest, lowestProbe_none hprobe]
  | some lower =>
    rw [hprobe] at hnext
    rw [PathMtuState.startProbe_some hnext]
    refine .unanswered lower hmax hconfirmed (.inr rfl) ?_
    rw [← lowestProbe_some hprobe, hlowest]

lemma Learning.poll (h : Learning node other capacity state)
    (hb : state.Bounded node.config.virtualMtu) {now : Instant}
    {nonce : Vector UInt8 mtuProbeNonceLen} (hinTime : ∀ probe, state.pending = some probe →
      probe.target ≤ capacity → now - probe.sentAt < mtuProbeTimeout) :
    Learning node other capacity (state.pollProbe now nonce).2 := by
  obtain ⟨heq, -⟩ | ⟨target, hnone, hnext, heq⟩ | ⟨probe, hpending, -, -, heq⟩ |
    ⟨probe, hpending, hlate, -, heq⟩ := PathMtuState.pollProbe_cases state now nonce <;> rw [heq]
  · exact h
  · cases h with
    | silent hmax hconfirmed hidle => cases hidle.1.symm.trans hnext
    | unanswered target' hmax hconfirmed hprobe hlowest =>
      refine .unanswered target' hmax hconfirmed (.inr ?_) hlowest
      rcases hprobe with hsome | hsome
      · exact hnext.symm.trans hsome
      · rw [hnone] at hsome
        cases hsome
    | lost hconfirmed hidle hlost => cases hidle.1.symm.trans hnext
    | answered hconfirmed hlearns => exact .answered hconfirmed hlearns
  · cases h with
    | silent hmax hconfirmed hidle => cases hidle.2.symm.trans hpending
    | unanswered target hmax hconfirmed hprobe hlowest =>
      refine .unanswered target hmax hconfirmed ?_ hlowest
      rw [hpending] at hprobe
      exact hprobe
    | lost hconfirmed hidle hlost => cases hidle.2.symm.trans hpending
    | answered hconfirmed hlearns => exact .answered hconfirmed hlearns
  · have hlost : capacity < probe.target :=
      Nat.lt_of_not_le fun hfits => absurd (hinTime probe hpending hfits) (Nat.not_lt.2 hlate)
    cases h with
    | silent hmax hconfirmed hidle => cases hidle.2.symm.trans hpending
    | unanswered target hmax hconfirmed hprobe hlowest =>
      have htarget : probe.target = target := by
        rcases hprobe with hnext | hsome
        · cases hb.single with
          | inl hnone => cases hnone.symm.trans hnext
          | inr hnone => cases hnone.symm.trans hpending
        · rw [hpending] at hsome
          exact Option.some.inj hsome
      exact learning_giveUp hb hmax hconfirmed hpending (htarget ▸ hlowest) hlost now nonce
    | lost hconfirmed hidle hlost => cases hidle.2.symm.trans hpending
    | answered hconfirmed hlearns =>
      refine .answered ?_ hlearns
      rw [PathMtuState.startProbe_confirmed]
      exact hconfirmed

lemma Learning.acknowledge (h : Learning node other capacity state)
    (hb : state.Bounded node.config.virtualMtu) {nonce : List UInt8}
    (hfits : ∀ probe, state.pending = some probe → nonce = probe.nonce.toList →
      probe.target ≤ capacity) :
    Learning node other capacity
      (state.acknowledge nonce (min other.config.virtualMtu (2 ^ 16 - 1))).2 := by
  have hlearns : ∀ probe, state.pending = some probe → nonce = probe.nonce.toList →
      node.Learns capacity := by
    intro probe hpending hnonce
    cases h with
    | silent hmax hconfirmed hidle => cases hidle.2.symm.trans hpending
    | unanswered target hmax hconfirmed hprobe hlowest =>
      refine ⟨hmax, ?_⟩
      have htarget : target = probe.target := by
        rcases hprobe with hnext | hsome
        · cases hb.single with
          | inl hnone => cases hnone.symm.trans hnext
          | inr hnone => cases hnone.symm.trans hpending
        · rw [hpending] at hsome
          exact (Option.some.inj hsome).symm
      rw [← hlowest, htarget]
      exact (lowestProbe_le _ _).trans (hfits probe hpending hnonce)
    | lost hconfirmed hidle hlost => cases hidle.2.symm.trans hpending
    | answered hconfirmed hlearns => exact hlearns
  obtain ⟨heq, -⟩ | ⟨probe, hpending, hnonce, -, heq⟩ | ⟨probe, hpending, hnonce, hmore, heq⟩ :=
    PathMtuState.acknowledge_cases state nonce (min other.config.virtualMtu (2 ^ 16 - 1)) <;> rw [heq]
  · exact h
  · exact .answered ((min_le_left _ _).trans (min_le_left _ _)) (hlearns probe hpending hnonce)
  · refine .answered (max_le ?_ (hmore.trans (min_le_left _ _))) (hlearns probe hpending hnonce)
    exact (hb.pending probe hpending).1.le.trans (hmore.trans (min_le_left _ _))

/-- Once a side is done, what it has confirmed is at most what the other takes in these cases. -/
lemma Learning.confirmed_le_iff (h : Learning node other capacity state) (hidle : state.Idle) :
    state.confirmed ≤ other.config.virtualMtu ↔
      node.safeVirtualMtu ≤ other.config.virtualMtu ∨ node.Learns capacity := by
  cases h with
  | silent hmax hconfirmed _ =>
    rw [hconfirmed]
    exact ⟨.inl, fun h => h.resolve_right fun hlearns => absurd hlearns.1 hmax.not_lt⟩
  | unanswered target hmax hconfirmed hprobe hlowest =>
    rcases hprobe with hnext | hsome
    · cases hidle.1.symm.trans hnext
    · rw [hidle.2] at hsome
      cases hsome
  | lost hconfirmed _ hlost =>
    rw [hconfirmed]
    exact ⟨.inl, fun h => h.resolve_right fun hlearns => absurd hlearns.2 (Nat.not_le.2 hlost)⟩
  | answered hconfirmed hlearns => exact iff_of_true hconfirmed (.inr hlearns)

/-! ### Both sides -/

/-- The two sides of a session. -/
structure Link where
  near : ActiveSession
  far : ActiveSession

/-- One of the sides goes on. -/
inductive Link.Step (suite : Suite) (a b : Node) (capacity : ℕ) (l : Link) : Link → Prop where
  | near (session : ActiveSession) (h : Exchanges suite b capacity l.near session) :
      Link.Step suite a b capacity l { l with near := session }
  | far (session : ActiveSession) (h : Exchanges suite a capacity l.far session) :
      Link.Step suite a b capacity l { l with far := session }

/-- Both sides begin as `establish` makes them. -/
structure Link.Fresh (a b : Node) (l : Link) : Prop where
  near : l.near.pathMtu = PathMtuState.new a.safeVirtualMtu a.config.virtualMtu
  far : l.far.pathMtu = PathMtuState.new b.safeVirtualMtu b.config.virtualMtu

/-- What holds of one side all the time. -/
structure Side (node other : Node) (capacity : ℕ) (session : ActiveSession) : Prop where
  bounded : session.pathMtu.Bounded node.config.virtualMtu
  learning : Learning node other capacity session.pathMtu

lemma side_fresh {session : ActiveSession}
    (h : session.pathMtu = PathMtuState.new node.safeVirtualMtu node.config.virtualMtu) :
    Side node other capacity session := by
  refine ⟨?_, ?_⟩ <;> rw [h]
  · exact PathMtuState.bounded_new _ _
  · exact learning_new

lemma Side.step {session session' : ActiveSession} (h : Side node other capacity session)
    (hstep : Exchanges suite other capacity session session') : Side node other capacity session' := by
  cases hstep with
  | poll peer hactive now nonce hinTime session' hpolled =>
    obtain ⟨after, hafter, -, hmtu⟩ := (mtuProbe_sends suite hactive now nonce).1
    obtain rfl := Option.some.inj (hafter.symm.trans hpolled)
    refine ⟨?_, ?_⟩ <;> rw [hmtu]
    · exact h.bounded.step node.safeVirtualMtu (.poll now nonce)
    · exact h.learning.poll h.bounded hinTime
  | answer probe hpending hfits payload hanswer =>
    rw [hanswer.eq session, handleMtuProbeAck_answer]
    refine ⟨h.bounded.step node.safeVirtualMtu (.acknowledge _ _), h.learning.acknowledge h.bounded ?_⟩
    rintro probe' hpending' -
    rwa [← Option.some.inj (hpending.symm.trans hpending')]
  | late target nonce hother payload hanswer =>
    rw [hanswer.eq session, handleMtuProbeAck_answer]
    refine ⟨h.bounded.step node.safeVirtualMtu (.acknowledge _ _), h.learning.acknowledge h.bounded ?_⟩
    intro probe hpending hnonce
    exact absurd (Vector.toList_inj.1 hnonce.symm) (hother probe hpending)

lemma sides_of_reached {a b : Node} {l l' : Link} (hfresh : l.Fresh a b)
    (h : Relation.ReflTransGen (Link.Step suite a b capacity) l l') :
    Side a b capacity l'.near ∧ Side b a capacity l'.far := by
  induction h with
  | refl => exact ⟨side_fresh hfresh.near, side_fresh hfresh.far⟩
  | tail _ hstep ih =>
    cases hstep with
    | near session hnear => exact ⟨ih.1.step hnear, ih.2⟩
    | far session hfar => exact ⟨ih.1, ih.2.step hfar⟩

/-- **What two nodes confirm.**  Two nodes with any MTUs have a session over a path with any capacity,
no probe that the path carries is lost, and the path does not change.  Once both sides are done, each
side's confirmed MTU is at most what the other is configured with if and only if for each of them its
conservative MTU is, or one of its probes is carried by the path before any is acknowledged. -/
theorem path_mtu_respects (suite : Suite) (a b : Node) (capacity : ℕ) (l l' : Link) (hfresh : l.Fresh a b)
    (hreach : Relation.ReflTransGen (Link.Step suite a b capacity) l l')
    (hidle : l'.near.pathMtu.Idle ∧ l'.far.pathMtu.Idle) :
    l'.near.pathMtu.confirmed ≤ b.config.virtualMtu ∧ l'.far.pathMtu.confirmed ≤ a.config.virtualMtu ↔
      (a.safeVirtualMtu ≤ b.config.virtualMtu ∨ a.Learns capacity) ∧
      (b.safeVirtualMtu ≤ a.config.virtualMtu ∨ b.Learns capacity) := by
  obtain ⟨hnear, hfar⟩ := sides_of_reached hfresh hreach
  exact and_congr (hnear.learning.confirmed_le_iff hidle.1) (hfar.learning.confirmed_le_iff hidle.2)

/-! ### A peer with a small MTU -/

section Demo

def demoSmall : Node := { demoAcceptor with config := { demoAcceptor.config with virtualMtu := 100 } }

/-- A node that plays the peer `9` accepts the handshake of the peer `5`. -/
def demoJoined (node : Node) : Option (Pool.Config Section Response NodeState Unit) :=
  (plainPool demoSuite node 2).runMoves (fun _ _ => true)
    ((plainPool demoSuite node 2).initial
      (NodeState.new node fun _ => PeerState.withOnline demoSuite (demoInfo 0) false none))
    (demoAlone 0 .start 1 ++ demoAlone 0 (.registerPeer (demoInfo 5)) 3 ++
      demoAlone 0 (.datagram (demoHello 5 5 1) demoPath) 25)

def demoSmallRun : Option (Pool.Config Section Response NodeState Unit) := demoJoined demoSmall

lemma demoSmall_facts :
    ((demoUnansweredRun.bind fun cfg => demoHandled 16 demoGenuine cfg.shared).map
      fun x => (x.2.heap demoResponder).active.map ActiveSession.pathMtu) =
        some (some ⟨1190, 1190, none, none⟩) ∧
    (demoSmallRun.map fun cfg => (cfg.shared.heap demoInitiator).active.map ActiveSession.pathMtu) =
      some (some ⟨100, 100, none, none⟩) := by
  decide +kernel

lemma demoSmall_link : ∃ cfgA r s cfgB, ∃ l : Link, demoUnansweredRun = some cfgA ∧
    demoHandled 16 demoGenuine cfgA.shared = some (r, s) ∧ (s.heap demoResponder).active = some l.near ∧
    demoSmallRun = some cfgB ∧ (cfgB.shared.heap demoInitiator).active = some l.far ∧
    l.near.pathMtu = ⟨1190, 1190, none, none⟩ ∧ l.far.pathMtu = ⟨100, 100, none, none⟩ := by
  obtain ⟨⟨r, s⟩, hrunA, hnear⟩ := Option.map_eq_some_iff.1 demoSmall_facts.1
  obtain ⟨cfgA, hcfgA, hrunA⟩ := Option.bind_eq_some_iff.1 hrunA
  obtain ⟨cfgB, hcfgB, hfar⟩ := Option.map_eq_some_iff.1 demoSmall_facts.2
  obtain ⟨near, hnear, hnearMtu⟩ := Option.map_eq_some_iff.1 hnear
  obtain ⟨far, hfar, hfarMtu⟩ := Option.map_eq_some_iff.1 hfar
  exact ⟨cfgA, r, s, cfgB, ⟨near, far⟩, hcfgA, hrunA, hnear, hcfgB, hfar, hnearMtu, hfarMtu⟩

lemma demoSmall_fresh {l : Link} (hnear : l.near.pathMtu = ⟨1190, 1190, none, none⟩)
    (hfar : l.far.pathMtu = ⟨100, 100, none, none⟩) : l.Fresh demoNode demoSmall :=
  ⟨hnear.trans (by decide), hfar.trans (by decide)⟩

/-- **The conservative MTU exceeds what the peer is configured with**: two nodes have just made a session,
neither has a probe scheduled or outstanding, and one of them sends packets of `1190` bytes to the other,
which takes `100`. -/
theorem conservative_mtu_exceeds : ∃ cfgA r s cfgB, ∃ l : Link, demoUnansweredRun = some cfgA ∧
    demoHandled 16 demoGenuine cfgA.shared = some (r, s) ∧ (s.heap demoResponder).active = some l.near ∧
    demoSmallRun = some cfgB ∧ (cfgB.shared.heap demoInitiator).active = some l.far ∧
    l.Fresh demoNode demoSmall ∧ l.near.pathMtu.Idle ∧ l.far.pathMtu.Idle ∧
    64 ≤ demoSmall.config.virtualMtu ∧ demoSmall.config.virtualMtu < l.near.pathMtu.confirmed := by
  obtain ⟨cfgA, r, s, cfgB, l, hcfgA, hrunA, hactiveA, hcfgB, hactiveB, hnear, hfar⟩ := demoSmall_link
  refine ⟨cfgA, r, s, cfgB, l, hcfgA, hrunA, hactiveA, hcfgB, hactiveB, demoSmall_fresh hnear hfar,
    ?_, ?_, by decide, ?_⟩
  · rw [hnear]
    exact ⟨rfl, rfl⟩
  · rw [hfar]
    exact ⟨rfl, rfl⟩
  · rw [hnear]
    decide

def demoBroad : Node := { demoAcceptor with config := { demoAcceptor.config with virtualMtu := 1300 } }

lemma demoBroad_exchanges {session : ActiveSession} (h : session.pathMtu = ⟨1190, 1300, some 1254, none⟩) :
    ∃ session', Relation.ReflTransGen (Exchanges demoSuite demoBroad 1500) session session' ∧
      session'.pathMtu = ⟨1300, 1300, none, none⟩ := by
  -- a probe that is due is sent, and its answer comes
  have hprobe : ∀ {session : ActiveSession} {confirmed target : ℕ},
      session.pathMtu = ⟨confirmed, 1300, some target, none⟩ → target ≤ 1300 → ∃ session',
        Relation.ReflTransGen (Exchanges demoSuite demoBroad 1500) session session' ∧
        session'.pathMtu = ((⟨confirmed, 1300, none, some ⟨target, Vector.replicate 16 0, 0, 0⟩⟩ :
          PathMtuState).acknowledge (List.replicate 16 0) 1300).2 := by
    intro session confirmed target hmtu htarget
    have hactive : ({ demoState.heap demoRef with active := some session } : PeerState).active = some session := rfl
    obtain ⟨sent, hsent, -, hpending⟩ := (mtuProbe_sends demoSuite hactive 0 (Vector.replicate 16 0)).1
    rw [hmtu] at hpending
    refine ⟨_, .tail (.single (.poll _ hactive 0 _ (by simp [hmtu]) sent hsent))
      (.answer ⟨target, Vector.replicate 16 0, 0, 0⟩ (by rw [hpending]; rfl) (by simp only; omega) _
        (handlePlaintext_mtuProbe _ _ _)), ?_⟩
    rw [handleMtuProbeAck_answer, hpending]
    rfl
  obtain ⟨first, hfirst, hmtu⟩ := hprobe h (by decide)
  have hmtu : first.pathMtu = ⟨1254, 1300, some 1300, none⟩ := hmtu.trans (by decide +kernel)
  obtain ⟨second, hsecond, hdone⟩ := hprobe hmtu (by decide)
  exact ⟨second, hfirst.trans hsecond, hdone.trans (by decide +kernel)⟩

lemma demoBroad_joined : ((demoJoined demoBroad).bind fun cfg =>
    (cfg.shared.heap demoInitiator).active.map ActiveSession.pathMtu) =
      some ⟨1190, 1300, some 1254, none⟩ := by
  decide +kernel

theorem path_mtu_respects_wide : ∃ cfg session, ∃ l' : Link, demoJoined demoBroad = some cfg ∧
    (cfg.shared.heap demoInitiator).active = some session ∧ (Link.mk session session).Fresh demoBroad demoBroad ∧
    Relation.ReflTransGen (Link.Step demoSuite demoBroad demoBroad 1500) ⟨session, session⟩ l' ∧
    l'.near.pathMtu = ⟨1300, 1300, none, none⟩ ∧ l'.far.pathMtu = ⟨1300, 1300, none, none⟩ ∧
    l'.near.pathMtu.confirmed ≤ demoBroad.config.virtualMtu := by
  obtain ⟨cfg, hcfg, hmtu⟩ := Option.bind_eq_some_iff.1 demoBroad_joined
  obtain ⟨session, hactive, hmtu⟩ := Option.map_eq_some_iff.1 hmtu
  obtain ⟨session', hrun, hdone⟩ := demoBroad_exchanges hmtu
  have hfresh : (Link.mk session session).Fresh demoBroad demoBroad :=
    ⟨hmtu.trans (by decide), hmtu.trans (by decide)⟩
  have hnear : Relation.ReflTransGen (Link.Step demoSuite demoBroad demoBroad 1500) ⟨session, session⟩
      ⟨session', session⟩ :=
    Relation.ReflTransGen.lift (fun near => Link.mk near session) (fun _ _ h => Link.Step.near _ h) _ _ hrun
  have hfar : Relation.ReflTransGen (Link.Step demoSuite demoBroad demoBroad 1500) ⟨session', session⟩
      ⟨session', session'⟩ :=
    Relation.ReflTransGen.lift (fun far => Link.mk session' far) (fun _ _ h => Link.Step.far _ h) _ _ hrun
  have hidle : session'.pathMtu.Idle := by
    rw [hdone]
    exact ⟨rfl, rfl⟩
  exact ⟨cfg, session, ⟨session', session'⟩, hcfg, hactive, hfresh, hnear.trans hfar, hdone, hdone,
    ((path_mtu_respects demoSuite demoBroad demoBroad 1500 _ _ hfresh (hnear.trans hfar) ⟨hidle, hidle⟩).2
      ⟨.inl (by decide), .inl (by decide)⟩).1⟩

end Demo

end Vela.Core
