import Vela.Core.Sections

/-!
# What a section may write
-/

namespace Vela.Core

open Vela.Proto Vela.Crypto Vela.Ip

/-! ### The fields of a peer's state -/

inductive PeerField where
  | info
  | membership
  | online
  | failure
  | history
  | connect
  | connecting
  | attempt
  | active
  | reconnect
  | queue
  | counters
  deriving DecidableEq

def PeerOp.fields : PeerOp → List PeerField
  | .setOnline _ => [.online]
  | .storeMembership _ => [.membership]
  | .storeInfo _ => [.info]
  | .unlockConnect => [.connect]
  | .clearFailure | .recordFailure _ => [.failure]
  | .recordPath _ _ => [.history]
  | .setConnecting _ | .swapConnecting => [.connecting]
  | .dropReconnect | .requestReconnect | .finishReconnect | .stopReconnect | .resumeReconnect
  | .startReconnect => [.reconnect]
  | .takeAttempt | .clearAttempt | .newAttempt _ _ | .attemptFromProbe _ _ | .expireAttempt _
  | .candidateProbe _ _ _ | .candidateResponse _ _ => [.attempt]
  | .takeActive _ | .prepareActive _ | .recordSent _ _ | .handleData _ _ _ | .keepalive | .mtuProbe =>
    [.active]
  | .commitRun _ _ _ => [.active, .history, .counters]
  | .clearQueue | .popQueue | .pushQueue _ => [.queue]
  | .count _ => [.counters]
  | .info | .online | .membershipExpiredAt _ | .attempt | .active => []

def PeerOp.writes (op : PeerOp) (f : PeerField) : Bool := op.fields.contains f

/-- The fields that are not written are the same. -/
structure PeerState.Frame (written : PeerField → Bool) (peer peer' : PeerState) : Prop where
  info : written .info = false → peer'.info = peer.info
  membership : written .membership = false → peer'.membershipExpiresAt = peer.membershipExpiresAt
  online : written .online = false → peer'.online = peer.online
  failure : written .failure = false → peer'.lastFailure = peer.lastFailure
  history : written .history = false → peer'.pathHistory = peer.pathHistory
  connect : written .connect = false → peer'.connect = peer.connect
  connecting : written .connecting = false → peer'.connecting = peer.connecting
  attempt : written .attempt = false → peer'.attempt = peer.attempt
  active : written .active = false → peer'.active = peer.active
  reconnect : written .reconnect = false → peer'.reconnect = peer.reconnect
  queue : written .queue = false → peer'.queue = peer.queue
  counters : written .counters = false → peer'.receive = peer.receive

lemma PeerState.Frame.refl (written : PeerField → Bool) (peer : PeerState) : Frame written peer peer := by
  constructor <;> exact fun _ => rfl

lemma PeerState.Frame.trans {written : PeerField → Bool} {a b c : PeerState} (h : Frame written a b)
    (h' : Frame written b c) : Frame written a c where
  info hf := (h'.info hf).trans (h.info hf)
  membership hf := (h'.membership hf).trans (h.membership hf)
  online hf := (h'.online hf).trans (h.online hf)
  failure hf := (h'.failure hf).trans (h.failure hf)
  history hf := (h'.history hf).trans (h.history hf)
  connect hf := (h'.connect hf).trans (h.connect hf)
  connecting hf := (h'.connecting hf).trans (h.connecting hf)
  attempt hf := (h'.attempt hf).trans (h.attempt hf)
  active hf := (h'.active hf).trans (h.active hf)
  reconnect hf := (h'.reconnect hf).trans (h.reconnect hf)
  queue hf := (h'.queue hf).trans (h.queue hf)
  counters hf := (h'.counters hf).trans (h.counters hf)

section PeerOps

variable {suite : Suite} {node : Node} {e : Env} {peer : PeerState}

lemma queuePush_frame (limit : ℕ) (packets : List (List UInt8)) :
    PeerState.Frame (PeerOp.pushQueue packets).writes peer (peer.queuePush limit packets).2 := by
  induction packets generalizing peer with
  | nil => exact .refl _ peer
  | cons packet packets ih =>
    unfold PeerState.queuePush
    split
    · exact ih
    · refine PeerState.Frame.trans ?_ ih
      constructor <;> intro hf <;> first | rfl | cases hf

lemma commitItems_frame (candidates : List Candidate) (unixTime : UInt64) (now : Instant)
    (items : List CommitItem) (peer : PeerState) (session : ActiveSession) :
    PeerState.Frame (fun f => [PeerField.history, .counters].contains f) peer
      (commitItems node candidates unixTime now items peer session).2.1 := by
  have hone : ∀ item (peer : PeerState) session, PeerState.Frame
      (fun f => [PeerField.history, .counters].contains f) peer
      (commitOne node candidates unixTime now item peer session).2.1 := by
    intro item peer session
    unfold commitOne PeerState.recordPath
    dsimp only
    repeat' split
    all_goals constructor <;> intro hf <;> first | rfl | cases hf
  induction items generalizing peer session with
  | nil => exact .refl _ peer
  | cons item items ih => exact (hone item peer session).trans (ih _ _)

/-- **Frame.** -/
theorem performPeer_frame (op : PeerOp) :
    PeerState.Frame op.writes peer (performPeer suite node e peer op).2 := by
  cases op with
  | pushQueue packets => exact queuePush_frame _ packets
  | commitRun sessionId candidates items =>
    simp only [performPeer, PeerState.commitRun]
    split
    · exact .refl _ peer
    split
    · exact .refl _ peer
    · have h := @commitItems_frame node (candidates.getD peer.info.candidates) e.unixTime e.now items peer
        ‹ActiveSession›
      exact { h with active := nofun }
  | resumeReconnect | startReconnect | attemptFromProbe _ _ | expireAttempt _ | takeActive _
  | recordPath _ _ | candidateProbe _ _ _ | candidateResponse _ _ | prepareActive _ | handleData _ _ _
  | keepalive | mtuProbe =>
    simp only [performPeer, PeerState.recordPath, updateCandidate, PeerState.prepareActive,
      PeerState.handleData, PeerState.keepalive, PeerState.mtuProbe]
    repeat' split
    all_goals constructor <;> intro hf <;> first | rfl | cases hf
  | _ => constructor <;> intro hf <;> first | rfl | cases hf

end PeerOps

/-! ### The parts of the node's state -/

inductive NodeField where
  | heap
  | allocated
  | table
  | sessions
  | lock
  | networkId
  | generation
  | addresses
  | expiry
  | flags
  | counters
  | queues
  | spawned
  | events
  | datagrams
  | delivered
  | encrypted
  | keys
  deriving DecidableEq

def Section.fields : Section → List NodeField
  | .peer _ _ | .lockConnect _ | .registerUnchanged _ | .nextReconnect _ | .finishHandshake _ _ _ _ _ =>
    [.heap]
  | .initiate _ _ _ => [.heap, .datagrams]
  | .allocate _ _ => [.heap, .allocated]
  | .registerPeer _ => [.heap, .allocated, .table]
  | .removePeer _ _ | .replacePeers _ _ => [.table]
  | .establish _ _ _ _ _ _ => [.heap, .keys]
  | .insertSession _ _ | .removeSession _ _ | .sessionCipher _ _ => [.sessions]
  | .lockSnapshotUpdate | .unlockSnapshotUpdate => [.lock]
  | .storeNetworkId _ => [.networkId]
  | .storeGeneration _ => [.generation]
  | .storeLocalIpv4 _ | .storeLocalIpv6 _ => [.addresses]
  | .storeExpiresAt _ => [.expiry]
  | .setStarted | .setStopping => [.flags]
  | .count _ _ => [.counters]
  | .trySend _ _ | .recvMany _ => [.queues]
  | .spawn _ => [.spawned]
  | .emit _ => [.events]
  | .deliver _ => [.events, .delivered]
  | .sendTo _ _ | .sendPacket _ _ _ _ _ | .sendBatch _ => [.datagrams]
  | .encryptPacket _ => [.encrypted]
  | _ => []

def Section.writes (c : Section) (f : NodeField) : Bool := c.fields.contains f

/-- The parts that are not written are the same. -/
structure NodeState.Frame (written : NodeField → Bool) (s s' : NodeState) : Prop where
  heap : written .heap = false → s'.heap = s.heap
  allocated : written .allocated = false → s'.allocated = s.allocated
  peers : written .table = false → s'.peers = s.peers
  routes : written .table = false → s'.routes = s.routes
  sessions : written .sessions = false → s'.sessions = s.sessions
  lock : written .lock = false → s'.snapshotUpdate = s.snapshotUpdate
  networkId : written .networkId = false → s'.networkId = s.networkId
  generation : written .generation = false → s'.snapshotGeneration = s.snapshotGeneration
  expiry : written .expiry = false → s'.snapshotExpiresAt = s.snapshotExpiresAt
  stopping : written .flags = false → s'.stopping = s.stopping
  queues : written .queues = false → s'.dataQueues = s.dataQueues
  spawned : written .spawned = false → s'.spawned = s.spawned
  events : written .events = false → s'.events = s.events
  datagrams : written .datagrams = false → s'.datagrams = s.datagrams
  delivered : written .delivered = false → s'.delivered = s.delivered
  encrypted : written .encrypted = false → s'.encrypted = s.encrypted
  keys : written .keys = false → s'.receiveKeys = s.receiveKeys

section Sections

variable {suite : Suite} {node : Node} {e : Env} {s s' : NodeState} {p : PeerRef}

lemma sendTo_state (target : SocketAddr) (datagram : List UInt8) :
    ∃ datagrams, (s.sendTo e target datagram).2 = { s with datagrams } := by
  unfold NodeState.sendTo
  split
  · exact ⟨s.datagrams, rfl⟩
  · exact ⟨_, rfl⟩

lemma sendPacket_state (target : SocketAddr) (packetType : PacketType)
    (sessionId sequence : UInt64) (payload : List UInt8) :
    ∃ datagrams, (s.sendPacket e target packetType sessionId sequence payload).2 =
      { s with datagrams } := by
  unfold NodeState.sendPacket
  split
  · exact ⟨s.datagrams, rfl⟩
  · split
    · exact ⟨s.datagrams, rfl⟩
    · rename_i datagram _
      obtain ⟨datagrams, h⟩ := sendTo_state target datagram
      refine ⟨datagrams, ?_⟩
      rw [← h]
      split
      · rename_i heq
        rw [heq]
      · rename_i heq
        rw [heq]

lemma initiate_state (q : PeerRef) (path : SocketAddr) (sessionId : UInt64) :
    (s.initiate suite node e q path sessionId).2 = s ∨
    ∃ datagrams, (∃ lastFailure, (s.initiate suite node e q path sessionId).2 =
        { s.setPeer q { s.heap q with lastFailure } with datagrams }) ∨
      ∃ attempt payload attempt', (s.heap q).attempt = some attempt ∧
        s.initiatorMessage suite node e (s.heap q).info attempt = .ok (payload, attempt') ∧
        (s.initiate suite node e q path sessionId).2 =
          { s.setPeer q { s.heap q with attempt := some { attempt' with
              handshakePath := some path, lastHandshakeAt := some e.now } } with datagrams } := by
  unfold NodeState.initiate
  dsimp only
  split
  · exact .inl rfl
  rename_i attempt hattempt
  split
  · exact .inl rfl
  split
  · exact .inl rfl
  rename_i payload attempt' hmessage
  obtain ⟨datagrams, h⟩ := sendPacket_state path .handshake sessionId 0 payload
  refine .inr ⟨datagrams, ?_⟩
  split
  · rename_i heq
    rw [heq] at h
    dsimp only at h
    subst h
    exact .inl ⟨_, rfl⟩
  · rename_i heq
    rw [heq] at h
    dsimp only at h
    subst h
    exact .inr ⟨attempt, payload, attempt', hattempt, hmessage, rfl⟩

lemma finishHandshake_state (q : PeerRef) (sessionId : UInt64) (message : List UInt8) (sender : NodeId)
    (info : PeerInfo) :
    (s.finishHandshake suite q sessionId message sender info).2 = s ∨
    ∃ attempt : Attempt, (s.finishHandshake suite q sessionId message sender info).2 =
      s.setPeer q { s.heap q with attempt := some { attempt with handshake := none } } := by
  unfold NodeState.finishHandshake
  dsimp only
  split
  · exact .inl rfl
  rename_i attempt _
  repeat' split
  all_goals first | exact .inl rfl | exact .inr ⟨attempt, rfl⟩

variable {c : Section} {r : Response c} {q : PeerRef} {peer : PeerState}

/-- **Frame.** -/
theorem exec_frame (h : exec suite node e c s = some (r, s')) : NodeState.Frame c.writes s s' := by
  suffices hframe : ∀ x, exec suite node e c s = some x → NodeState.Frame c.writes s x.2 from hframe _ h
  clear h
  intro x hx
  cases c with
  | sendTo target datagram =>
    cases hx
    obtain ⟨datagrams, h⟩ := @sendTo_state e s target datagram
    rw [h]
    constructor <;> intro hf <;> first | rfl | cases hf
  | sendPacket target packetType id sequence payload =>
    cases hx
    obtain ⟨datagrams, h⟩ := @sendPacket_state e s target packetType id sequence payload
    rw [h]
    constructor <;> intro hf <;> first | rfl | cases hf
  | initiate q path id =>
    cases hx
    rcases @initiate_state suite node e s q path id with h | ⟨_, ⟨_, h⟩ | ⟨_, _, _, -, -, h⟩⟩ <;> rw [h] <;>
      constructor <;> intro hf <;> first | rfl | cases hf
  | finishHandshake q id message sender info =>
    cases hx
    rcases @finishHandshake_state suite s q id message sender info with h | ⟨_, h⟩ <;> rw [h] <;>
      constructor <;> intro hf <;> first | rfl | cases hf
  | lockConnect _ | lockSnapshotUpdate | randomSessionId | recvMany _ | trySend _ _ | sendBatch _ =>
    simp only [exec] at hx
    split at hx
    all_goals cases hx
    all_goals constructor <;> intro hf <;> first | rfl | cases hf
  | never => cases hx
  | registerUnchanged _ | removePeer _ _ | establish _ _ _ _ _ _ | removeSession _ _ | sessionCipher _ _
  | nextReconnect _ | emit _ | deliver _ =>
    cases hx
    dsimp only [NodeState.registerUnchanged, NodeState.removePeer, NodeState.establish,
      NodeState.removeSession, NodeState.sessionCipher, NodeState.nextReconnect]
    repeat' split
    all_goals constructor <;> intro hf <;> first | rfl | cases hf
  | _ =>
    cases hx
    constructor <;> intro hf <;> first | rfl | cases hf

lemma exec_peer {op : PeerOp} {r : op.Response} (h : exec suite node e (.peer p op) s = some (r, s')) :
    (performPeer suite node e (s.heap p) op).1 = r ∧
      s.setPeer p (performPeer suite node e (s.heap p) op).2 = s' :=
  Prod.mk.inj (Option.some.inj h)

lemma heap_setPeer_cases {p q : PeerRef} {peer : PeerState} :
    (q = p ∧ (s.setPeer p peer).heap q = peer) ∨ (q ≠ p ∧ (s.setPeer p peer).heap q = s.heap q) := by
  by_cases hq : q = p
  · subst hq
    exact .inl ⟨rfl, by simp [NodeState.setPeer]⟩
  · exact .inr ⟨hq, by simp [NodeState.setPeer, hq]⟩

lemma heap_allocate_cases (info : PeerInfo) (online : Bool) (q : PeerRef) :
    (q = (s.allocate suite node info online).1 ∧ q.address = s.allocated ∧
      (s.allocate suite node info online).2.heap q =
        PeerState.withOnline suite info online node.config.serverPublicKey) ∨
      (s.allocate suite node info online).2.heap q = s.heap q := by
  by_cases hq : q = ⟨s.allocated, info.nodeId⟩
  · subst hq
    exact .inl ⟨rfl, rfl, by simp [NodeState.allocate]⟩
  · exact .inr (by simp [NodeState.allocate, hq])

/-- The state of the peer `p` after a section. -/
inductive HeapEffect (suite : Suite) (node : Node) (e : Env) (s : NodeState) (p : PeerRef)
    (peer : PeerState) : (c : Section) → Response c → Prop
  | same {c : Section} {r : Response c} (hpeer : peer = s.heap p) : HeapEffect suite node e s p peer c r
  /-- a section of the peer -/
  | own (op : PeerOp) (hpeer : peer = (performPeer suite node e (s.heap p) op).2) :
      HeapEffect suite node e s p peer (.peer p op) (performPeer suite node e (s.heap p) op).1
  /-- the handshake of an attempt -/
  | attempt {c : Section} {r : Response c} (attempt : Option Attempt)
      (lastFailure : Option PeerFailureStatus)
      (hpeer : peer = { s.heap p with attempt, lastFailure }) : HeapEffect suite node e s p peer c r
  | locked (hpeer : peer = { s.heap p with connect := true }) :
      HeapEffect suite node e s p peer (.lockConnect p) ()
  | online (info : PeerInfo) (r : Bool) (hpeer : peer = { s.heap p with online := true }) :
      HeapEffect suite node e s p peer (.registerUnchanged info) r
  | reconnect (hpeer : peer = (s.nextReconnect node p).2.heap p) :
      HeapEffect suite node e s p peer (.nextReconnect p) (s.nextReconnect node p).1
  | established (id : UInt64) (path : SocketAddr) (cipher : SessionCipher) (expected : PeerInfo)
      (handshake : NoiseHandshake) (hfree : (s.heap p).active = none)
      (hexpected : (s.heap p).info = expected)
      (hpeer : peer = { s.heap p with
        active := some (freshSession node e id path cipher expected handshake) }) :
      HeapEffect suite node e s p peer (.establish p id path cipher expected handshake) true
  | allocated {c : Section} {r : Response c} (info : PeerInfo) (online : Bool)
      (hc : c = .registerPeer info ∨ c = .allocate info online)
      (hnew : p = ⟨s.allocated, info.nodeId⟩)
      (hpeer : peer = PeerState.withOnline suite info online node.config.serverPublicKey) :
      HeapEffect suite node e s p peer c r

lemma HeapEffect.setPeer (h : q = p → HeapEffect suite node e s p peer c r) :
    HeapEffect suite node e s p ((s.setPeer q peer).heap p) c r := by
  rcases @heap_setPeer_cases s q p peer with ⟨rfl, heq⟩ | ⟨-, heq⟩
  · rw [heq]
    exact h rfl
  · exact .same heq

/-- **One section and one peer.** -/
theorem heap_step (h : exec suite node e c s = some (r, s')) (p : PeerRef) :
    HeapEffect suite node e s p (s'.heap p) c r := by
  have hsame : c.writes .heap = false → HeapEffect suite node e s p (s'.heap p) c r :=
    fun hf => .same (congrFun ((exec_frame h).heap hf) p)
  cases c with
  | peer q op =>
    obtain ⟨rfl, rfl⟩ := exec_peer h
    refine .setPeer ?_
    rintro rfl
    exact .own op rfl
  | lockConnect q =>
    simp only [exec] at h
    split at h
    · cases h
    · cases h
      refine .setPeer ?_
      rintro rfl
      exact .locked rfl
  | registerUnchanged info =>
    obtain rfl : (s.registerUnchanged info).2 = s' := congrArg Prod.snd (Option.some.inj h)
    unfold NodeState.registerUnchanged
    split
    · exact .same rfl
    split
    · refine .setPeer ?_
      rintro rfl
      exact .online info r rfl
    · exact .same rfl
  | registerPeer info =>
    obtain rfl : (s.registerPeer suite node info).2 = s' := congrArg Prod.snd (Option.some.inj h)
    rcases @heap_allocate_cases suite node s info true p with ⟨hnew, -, heq⟩ | heq
    · exact .allocated info true (.inl rfl) hnew heq
    · exact .same heq
  | allocate info online =>
    obtain rfl : (s.allocate suite node info online).2 = s' := congrArg Prod.snd (Option.some.inj h)
    rcases @heap_allocate_cases suite node s info online p with ⟨hnew, -, heq⟩ | heq
    · exact .allocated info online (.inr rfl) hnew heq
    · exact .same heq
  | establish q id path cipher expected handshake =>
    have hestablish : s.establish node e q id path cipher expected handshake = (r, s') :=
      Option.some.inj h
    unfold NodeState.establish at hestablish
    dsimp only at hestablish
    split at hestablish
    · cases hestablish
      exact .same rfl
    · rename_i hfree
      rw [Bool.or_eq_true, not_or, Option.not_isSome_iff_eq_none, bne_iff_ne, not_ne_iff] at hfree
      cases hestablish
      refine HeapEffect.setPeer ?_
      rintro rfl
      exact .established id path cipher expected handshake hfree.1 hfree.2 rfl
  | initiate q path id =>
    obtain rfl : (s.initiate suite node e q path id).2 = s' := congrArg Prod.snd (Option.some.inj h)
    rcases @initiate_state suite node e s q path id with hs | ⟨_, ⟨_, hs⟩ | ⟨_, _, _, -, -, hs⟩⟩
    · exact .same (by rw [hs])
    all_goals
      rw [hs]
      refine HeapEffect.setPeer ?_
      rintro rfl
      exact .attempt _ _ rfl
  | finishHandshake q id message sender info =>
    obtain rfl : (s.finishHandshake suite q id message sender info).2 = s' :=
      congrArg Prod.snd (Option.some.inj h)
    rcases @finishHandshake_state suite s q id message sender info with hs | ⟨_, hs⟩
    · exact .same (by rw [hs])
    · rw [hs]
      refine .setPeer ?_
      rintro rfl
      exact .attempt _ _ rfl
  | nextReconnect q =>
    obtain ⟨rfl, rfl⟩ : (s.nextReconnect node q).1 = r ∧ (s.nextReconnect node q).2 = s' :=
      Prod.mk.inj (Option.some.inj h)
    by_cases hq : q = p
    · subst hq
      exact .reconnect rfl
    · refine .same ?_
      unfold NodeState.nextReconnect
      dsimp only
      split <;> simp [NodeState.setPeer, Ne.symm hq]
  | _ => exact hsame rfl

lemma heap_nextReconnect (s : NodeState) (p : PeerRef) :
    ∃ reconnect, (s.nextReconnect node p).2.heap p = { s.heap p with reconnect } := by
  unfold NodeState.nextReconnect
  dsimp only
  split <;> exact ⟨_, Function.update_self ..⟩

/-- The fields of a peer's state that a section may write, unless it allocates the peer. -/
def Section.peerWrites : Section → PeerField → Bool
  | .peer _ op, f => op.writes f
  | .lockConnect _, f => f == .connect
  | .registerUnchanged _, f => f == .online
  | .nextReconnect _, f => f == .reconnect
  | .initiate _ _ _, f => f == .attempt || f == .failure
  | .finishHandshake _ _ _ _ _, f => f == .attempt
  | .establish _ _ _ _ _ _, f => f == .active
  | _, _ => false

lemma PeerState.Frame.setPeer {written : PeerField → Bool} (h : Frame written (s.heap q) peer) :
    Frame written (s.heap p) ((s.setPeer q peer).heap p) := by
  rcases @heap_setPeer_cases s q p peer with ⟨rfl, heq⟩ | ⟨-, heq⟩
  · rwa [heq]
  · rw [heq]
    exact .refl _ _

/-- The section allocates the peer. -/
def Allocates (suite : Suite) (node : Node) (s : NodeState) (c : Section) (p : PeerRef) (peer : PeerState) :
    Prop :=
  ∃ info online, (c = .registerPeer info ∨ c = .allocate info online) ∧ p = ⟨s.allocated, info.nodeId⟩ ∧
    peer = PeerState.withOnline suite info online node.config.serverPublicKey

/-- **Frame of one peer.** -/
theorem peer_frame (h : exec suite node e c s = some (r, s')) (p : PeerRef) :
    PeerState.Frame c.peerWrites (s.heap p) (s'.heap p) ∨
      Allocates suite node s c p (s'.heap p) := by
  suffices hframe : ∀ x, exec suite node e c s = some x →
      PeerState.Frame c.peerWrites (s.heap p) (x.2.heap p) ∨ Allocates suite node s c p (x.2.heap p) from
    hframe _ h
  intro x hx
  cases c with
  | registerPeer info =>
    cases hx
    rcases @heap_allocate_cases suite node s info true p with ⟨hnew, -, heq⟩ | heq
    · exact .inr ⟨info, true, .inl rfl, hnew, heq⟩
    · exact .inl (heq ▸ .refl _ _)
  | allocate info online =>
    cases hx
    rcases @heap_allocate_cases suite node s info online p with ⟨hnew, -, heq⟩ | heq
    · exact .inr ⟨info, online, .inr rfl, hnew, heq⟩
    · exact .inl (heq ▸ .refl _ _)
  | peer q op =>
    cases hx
    exact .inl (.setPeer (performPeer_frame op))
  | initiate q path id =>
    cases hx
    rcases @initiate_state suite node e s q path id with hs | ⟨_, ⟨_, hs⟩ | ⟨_, _, _, -, -, hs⟩⟩
    · rw [hs]
      exact .inl (.refl _ _)
    all_goals
      rw [hs]
      refine .inl (PeerState.Frame.setPeer ?_)
      constructor <;> intro hf <;> first | rfl | cases hf
  | finishHandshake q id message sender info =>
    cases hx
    rcases @finishHandshake_state suite s q id message sender info with hs | ⟨_, hs⟩
    · rw [hs]
      exact .inl (.refl _ _)
    · rw [hs]
      refine .inl (.setPeer ?_)
      constructor <;> intro hf <;> first | rfl | cases hf
  | lockConnect q =>
    simp only [exec] at hx
    split at hx
    all_goals cases hx
    refine .inl (.setPeer ?_)
    constructor <;> intro hf <;> first | rfl | cases hf
  | registerUnchanged _ | nextReconnect _ | establish _ _ _ _ _ _ =>
    cases hx
    dsimp only [NodeState.registerUnchanged, NodeState.nextReconnect, NodeState.establish]
    repeat' split
    all_goals first | exact .inl (.refl _ _) | refine .inl (PeerState.Frame.setPeer ?_)
    all_goals constructor <;> intro hf <;> first | rfl | cases hf
  | _ => exact .inl (congrFun ((exec_frame hx).heap rfl) p ▸ .refl _ _)

lemma spawned_step (h : exec suite node e c s = some (r, s')) (hc : ∀ task, c ≠ .spawn task) :
    s'.spawned = s.spawned :=
  (exec_frame h).spawned (by cases c <;> first | rfl | exact absurd rfl (hc _))

lemma snapshotUpdate_step (h : exec suite node e c s = some (r, s')) (hlock : c ≠ .lockSnapshotUpdate)
    (hunlock : c ≠ .unlockSnapshotUpdate) :
    s'.snapshotUpdate = s.snapshotUpdate :=
  (exec_frame h).lock (by cases c <;> first | rfl | exact absurd rfl hlock | exact absurd rfl hunlock)

end Sections

end Vela.Core
