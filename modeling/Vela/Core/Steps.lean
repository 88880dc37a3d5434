import Vela.Core.Frames
import Vela.Core.PathMtu

/-!
# What the sections of the node do
-/

namespace Vela.Core

open Vela.Proto Vela.Crypto Vela.Ip

/-! ### Calm sections -/

/-- The sections that neither start, end nor use a session, nor change what is known of the peers or
when that expires, nor encrypt or deliver a packet, nor hold off another update of the snapshot. -/
def Calm : Section → Prop
  | .peer _ (.takeActive _) | .peer _ .keepalive | .peer _ (.handleData _ _ _)
  | .peer _ (.commitRun _ _ _) | .peer _ (.storeInfo _) | .peer _ (.storeMembership _) => False
  | .registerPeer _ | .removePeer _ _ | .allocate _ _ | .replacePeers _ _ => False
  | .establish _ _ _ _ _ _ | .insertSession _ _ | .removeSession _ _ | .sessionCipher _ _ => False
  | .finishHandshake _ _ _ _ _ | .deliver _ | .emit (.ipPacket _ _) => False
  | .encryptPacket _ | .storeExpiresAt _ => False
  | .lockSnapshotUpdate | .unlockSnapshotUpdate => False
  | _ => True

/-- The IP packets handed to the application, the latest first. -/
def NodeState.ipPackets (s : NodeState) : List (NodeId × IpPacket) :=
  s.events.filterMap fun event =>
    match event with
    | .ipPacket peer packet => some (peer, packet)
    | _ => none

/-! ### Sessions over time -/

/-- The same session later: what never changes in it. -/
structure ActiveSession.Continues (a b : ActiveSession) : Prop where
  sessionId : b.sessionId = a.sessionId
  cipher : b.cipher = a.cipher
  madeFor : b.madeFor = a.madeFor
  handshake : b.handshake = a.handshake

/-- The same session with the same replay window. -/
structure ActiveSession.Kept (a b : ActiveSession) : Prop extends ActiveSession.Continues a b where
  replay : b.replay = a.replay

/-- The same session, and nothing was received on it. -/
structure ActiveSession.Unused (a b : ActiveSession) : Prop extends ActiveSession.Kept a b where
  confirmed : b.pathMtu.confirmed = a.pathMtu.confirmed

namespace ActiveSession

lemma Continues.refl (a : ActiveSession) : a.Continues a := ⟨rfl, rfl, rfl, rfl⟩

variable {a b c : ActiveSession}

lemma Continues.trans (h : a.Continues b) (h' : b.Continues c) : a.Continues c :=
  ⟨h'.sessionId.trans h.sessionId, h'.cipher.trans h.cipher, h'.madeFor.trans h.madeFor,
    h'.handshake.trans h.handshake⟩

lemma Kept.refl (a : ActiveSession) : a.Kept a := ⟨Continues.refl a, rfl⟩

lemma Unused.refl (a : ActiveSession) : a.Unused a := ⟨Kept.refl a, rfl⟩

lemma Unused.trans (h : a.Unused b) (h' : b.Unused c) : a.Unused c :=
  ⟨⟨h.toContinues.trans h'.toContinues, h'.replay.trans h.replay⟩, h'.confirmed.trans h.confirmed⟩

end ActiveSession

/-- A peer whose record is the same and whose session was not used. -/
structure SamePeer (a b : PeerState) : Prop where
  info : b.info = a.info
  membership : b.membershipExpiresAt = a.membershipExpiresAt
  active : Option.Rel ActiveSession.Unused a.active b.active

variable {a b : PeerState} {α : Type} {r : α → α → Prop}

lemma optionRel_refl (hr : ∀ a, r a a) (o : Option α) : Option.Rel r o o := by
  cases o with
  | none => exact .none
  | some a => exact .some (hr a)

lemma optionRel_trans (hr : ∀ {a b c}, r a b → r b c → r a c) {x y z : Option α} (h : Option.Rel r x y)
    (h' : Option.Rel r y z) : Option.Rel r x z := by
  cases h with
  | none => exact h'
  | some h =>
    cases h' with
    | some h' => exact .some (hr h h')

lemma SamePeer.of_eq (hinfo : b.info = a.info)
    (hmembership : b.membershipExpiresAt = a.membershipExpiresAt) (hactive : b.active = a.active) :
    SamePeer a b :=
  ⟨hinfo, hmembership, hactive ▸ optionRel_refl ActiveSession.Unused.refl _⟩

lemma SamePeer.refl (a : PeerState) : SamePeer a a := .of_eq rfl rfl rfl

lemma SamePeer.trans {c : PeerState} (h : SamePeer a b) (h' : SamePeer b c) : SamePeer a c :=
  ⟨h'.info.trans h.info, h'.membership.trans h.membership,
    optionRel_trans .trans h.active h'.active⟩

lemma SamePeer.session (h : SamePeer a b) {y : ActiveSession} (hy : b.active = some y) :
    ∃ x, a.active = some x ∧ x.Unused y := by
  have hrel := h.active
  rw [hy] at hrel
  generalize a.active = active at hrel
  cases hrel with
  | some hrel => exact ⟨_, rfl, hrel⟩

section PeerOps

variable {suite : Suite} {node : Node} {e : Env} {peer : PeerState}

lemma recordPath_same (path : SocketAddr) (candidates : List Candidate) (now : UInt64) :
    SamePeer peer (peer.recordPath path candidates now) := by
  unfold PeerState.recordPath
  split
  · exact .refl _
  · exact .of_eq rfl rfl rfl

lemma prepareActive_same (sizes : List ℕ) : SamePeer peer (peer.prepareActive sizes).2 := by
  unfold PeerState.prepareActive
  split
  · exact .refl _
  · rename_i session hactive
    exact ⟨rfl, rfl, hactive ▸ .some ⟨⟨⟨rfl, rfl, rfl, rfl⟩, rfl⟩, rfl⟩⟩

lemma pollProbe_confirmed (state : PathMtuState) (now : Instant)
    (nonce : Vector UInt8 mtuProbeNonceLen) :
    (state.pollProbe now nonce).2.confirmed = state.confirmed := by
  unfold PathMtuState.pollProbe
  split
  · exact PathMtuState.startProbe_confirmed
  · split
    · rfl
    · split
      · rfl
      · exact PathMtuState.startProbe_confirmed

lemma mtuProbe_same (now : Instant) (nonce : Vector UInt8 mtuProbeNonceLen) :
    SamePeer peer (peer.mtuProbe suite now nonce).2 := by
  unfold PeerState.mtuProbe
  split
  · exact .refl _
  · rename_i session hactive
    have hsame : ∀ sequence, ActiveSession.Unused session { session with
        pathMtu := (session.pathMtu.pollProbe now nonce).2, txSequence := sequence } :=
      fun _ => ⟨⟨⟨rfl, rfl, rfl, rfl⟩, rfl⟩, pollProbe_confirmed _ _ _⟩
    dsimp only
    split
    · exact ⟨rfl, rfl, hactive ▸ .some (hsame session.txSequence)⟩
    · split
      · exact ⟨rfl, rfl, hactive ▸ .some (hsame session.txSequence)⟩
      · split
        · exact ⟨rfl, rfl, hactive ▸ .some (hsame _)⟩
        · exact ⟨rfl, rfl, hactive ▸ .some (hsame _)⟩

lemma recordSent_same (sessionId : UInt64) (bytes : ℕ) :
    SamePeer peer { peer with active := peer.active.map fun session =>
      if session.sessionId = sessionId then
        { session with txBytes := session.txBytes + UInt64.ofNat bytes }
      else session } := by
  refine ⟨rfl, rfl, ?_⟩
  cases peer.active with
  | none => exact .none
  | some session =>
    refine .some ?_
    dsimp only
    split
    · exact ⟨⟨⟨rfl, rfl, rfl, rfl⟩, rfl⟩, rfl⟩
    · exact .refl _

variable {op : PeerOp}

lemma performPeer_same {p : PeerRef} (h : Calm (.peer p op)) :
    SamePeer peer (performPeer suite node e peer op).2 := by
  have hframe := @performPeer_frame suite node e peer op
  cases op with
  | takeActive _ | keepalive | handleData _ _ _ | commitRun _ _ _ | storeInfo _
  | storeMembership _ => exact h.elim
  | prepareActive sizes => exact prepareActive_same sizes
  | recordSent sessionId bytes => exact recordSent_same sessionId bytes
  | mtuProbe => exact mtuProbe_same _ _
  | _ => exact .of_eq (hframe.info rfl) (hframe.membership rfl) (hframe.active rfl)

/-! ### Sessions in use -/

lemma observeDataSource_continues (session : ActiveSession) (source : SocketAddr) (now : Instant) :
    session.Continues (session.observeDataSource source now).2 := by
  unfold ActiveSession.observeDataSource
  dsimp only
  split
  · exact ⟨rfl, rfl, rfl, rfl⟩
  · exact ⟨rfl, rfl, rfl, rfl⟩

lemma commitOne_continues (candidates : List Candidate) (unixTime : UInt64) (now : Instant)
    (item : CommitItem) (session : ActiveSession) :
    session.Continues (commitOne node candidates unixTime now item peer session).2.2 := by
  unfold commitOne
  dsimp only
  split
  · exact .refl session
  · have h := observeDataSource_continues
      { session with replay := (session.replay.accept item.sequence).2, lastRx := now } item.source now
    split
    · exact ⟨h.sessionId, h.cipher, h.madeFor, h.handshake⟩
    · exact ⟨h.sessionId, h.cipher, h.madeFor, h.handshake⟩

lemma commitOne_same (candidates : List Candidate) (unixTime : UInt64) (now : Instant)
    (item : CommitItem) (session : ActiveSession) :
    SamePeer peer (commitOne node candidates unixTime now item peer session).2.1 := by
  unfold commitOne
  dsimp only
  split
  · exact .of_eq rfl rfl rfl
  · split
    · exact recordPath_same _ _ _
    · exact .refl peer

lemma commitItems_continues (candidates : List Candidate) (unixTime : UInt64) (now : Instant)
    (items : List CommitItem) (peer : PeerState) (session : ActiveSession) :
    session.Continues (commitItems node candidates unixTime now items peer session).2.2 ∧
      SamePeer peer (commitItems node candidates unixTime now items peer session).2.1 := by
  induction items generalizing peer session with
  | nil => exact ⟨.refl session, .refl peer⟩
  | cons item items ih =>
    obtain ⟨hrest, hsame⟩ := ih (commitOne node candidates unixTime now item peer session).2.1
      (commitOne node candidates unixTime now item peer session).2.2
    exact ⟨(commitOne_continues candidates unixTime now item session).trans hrest,
      (commitOne_same candidates unixTime now item session).trans hsame⟩

lemma respond_kept (session : ActiveSession) (packetType : PacketType) (source : SocketAddr)
    (payload : List UInt8) : session.Kept (session.respond suite packetType source payload).2 := by
  unfold ActiveSession.respond
  dsimp only
  split
  · exact ⟨⟨rfl, rfl, rfl, rfl⟩, rfl⟩
  · exact ⟨⟨rfl, rfl, rfl, rfl⟩, rfl⟩

lemma handleKeepAliveAck_kept (session : ActiveSession) (plaintext : List UInt8) (now : Instant) :
    session.Kept (session.handleKeepAliveAck plaintext now) := by
  unfold ActiveSession.handleKeepAliveAck
  split
  · split
    · exact ⟨⟨rfl, rfl, rfl, rfl⟩, rfl⟩
    · exact .refl session
  · exact .refl session

lemma handleMtuProbeAck_kept (session : ActiveSession) (source : SocketAddr)
    (plaintext : List UInt8) : session.Kept (session.handleMtuProbeAck source plaintext).2 := by
  unfold ActiveSession.handleMtuProbeAck
  split
  · exact .refl session
  split
  · exact .refl session
  dsimp only
  split
  · exact ⟨⟨rfl, rfl, rfl, rfl⟩, rfl⟩
  · exact ⟨⟨rfl, rfl, rfl, rfl⟩, rfl⟩

lemma handlePlaintext_kept (session : ActiveSession) (packetType : PacketType)
    (source : SocketAddr) (plaintext : List UInt8) (now : Instant) :
    session.Kept (session.handlePlaintext suite node packetType source plaintext now).2 := by
  cases packetType with
  | keepAlive | diagnosticPing | mtuProbe =>
    simp only [ActiveSession.handlePlaintext]
    split
    · exact .refl session
    · exact respond_kept _ _ _ _
  | keepAliveAck =>
    simp only [ActiveSession.handlePlaintext]
    split
    · exact .refl session
    · exact handleKeepAliveAck_kept _ _ _
  | diagnosticPong =>
    simp only [ActiveSession.handlePlaintext]
    split
    · exact .refl session
    · exact ⟨⟨rfl, rfl, rfl, rfl⟩, rfl⟩
  | mtuProbeAck => exact handleMtuProbeAck_kept _ _ _
  | data | probe | probeResponse | handshake => exact .refl session

lemma respond_ne_expired (session : ActiveSession) (packetType : PacketType) (source : SocketAddr)
    (payload : List UInt8) : (session.respond suite packetType source payload).1 ≠ .expired := by
  unfold ActiveSession.respond
  dsimp only
  split <;> exact nofun

lemma handlePlaintext_ne_expired (session : ActiveSession) (packetType : PacketType)
    (source : SocketAddr) (plaintext : List UInt8) (now : Instant) :
    (session.handlePlaintext suite node packetType source plaintext now).1 ≠ .expired := by
  cases packetType with
  | keepAlive | diagnosticPing | mtuProbe =>
    simp only [ActiveSession.handlePlaintext]
    split
    · exact nofun
    · exact respond_ne_expired _ _ _ _
  | keepAliveAck | diagnosticPong =>
    simp only [ActiveSession.handlePlaintext]
    split <;> exact nofun
  | mtuProbeAck =>
    simp only [ActiveSession.handlePlaintext, ActiveSession.handleMtuProbeAck]
    split
    · exact nofun
    split
    · exact nofun
    split <;> exact nofun
  | data | probe | probeResponse | handshake => exact nofun

/-- What `handle_data` does to the session: nothing, or the session is taken, or it goes on with the
number of the packet in its window. -/
lemma handleData_cases (info : PeerInfo) (packet : WirePacket) (source : SocketAddr)
    (unixTime : UInt64) (now : Instant) {result : DataOutcome × PeerState}
    (h : peer.handleData suite node info packet source unixTime now = result) :
    (result.1 ≠ .expired ∧ result.2 = peer) ∨
      (∃ session, peer.active = some session ∧ session.sessionId = packet.header.sessionId ∧
        result = (.expired, { peer with active := none })) ∨
      ∃ session session', peer.active = some session ∧ session.Continues session' ∧
        (session.replay.accept packet.header.sequence).1 = true ∧
        session'.replay = (session.replay.accept packet.header.sequence).2 ∧
        result.1 ≠ .expired ∧ result.2 = { peer with active := some session' } := by
  subst h
  unfold PeerState.handleData
  split
  · exact .inl ⟨nofun, rfl⟩
  rename_i session hactive
  split
  · exact .inl ⟨nofun, rfl⟩
  rename_i hid
  split
  · exact .inr (.inl ⟨session, hactive, not_ne_iff.1 hid, rfl⟩)
  split
  · exact .inl ⟨nofun, rfl⟩
  dsimp only
  split
  · exact .inl ⟨nofun, rfl⟩
  rename_i plaintext _ haccept
  have hkept := @handlePlaintext_kept suite node { session with
    replay := (session.replay.accept packet.header.sequence).2
    lastRx := now
    rxBytes := session.rxBytes + UInt64.ofNat packet.payload.length }
    packet.header.packetType source plaintext now
  exact .inr (.inr ⟨session, _, hactive,
    ⟨hkept.sessionId, hkept.cipher, hkept.madeFor, hkept.handshake⟩, by simpa using haccept,
    hkept.replay, handlePlaintext_ne_expired _ _ _ _ _, rfl⟩)

lemma keepalive_cases (now : Instant) (nonce : Vector UInt8 keepaliveNonceLen)
    {result : KeepaliveOutcome × PeerState} (h : peer.keepalive suite node now nonce = result) :
    ((∀ path id, result.1 ≠ .rekey path id) ∧ SamePeer peer result.2) ∨
      ∃ session, peer.active = some session ∧
        result = (.rekey session.path session.sessionId, { peer with active := none }) := by
  subst h
  unfold PeerState.keepalive
  split
  · exact .inl ⟨nofun, .refl peer⟩
  rename_i session hactive
  have hsame : ∀ session', session.Unused session' →
      SamePeer peer { peer with active := some session' } :=
    fun session' h => ⟨rfl, rfl, hactive ▸ .some h⟩
  split
  · exact .inl ⟨nofun, .refl peer⟩
  split
  · exact .inr ⟨session, hactive, rfl⟩
  dsimp only
  split
  · exact .inl ⟨nofun, hsame _ ⟨⟨⟨rfl, rfl, rfl, rfl⟩, rfl⟩, rfl⟩⟩
  · exact .inl ⟨nofun, hsame _ ⟨⟨⟨rfl, rfl, rfl, rfl⟩, rfl⟩, rfl⟩⟩

lemma commitRun_cases (sessionId : UInt64) (candidates : List Candidate)
    (items : List CommitItem) (unixTime : UInt64) (now : Instant)
    {result : Option (List (Option Committed)) × PeerState}
    (h : peer.commitRun node sessionId candidates items unixTime now = result) :
    result = (none, peer) ∨
      ∃ session, peer.active = some session ∧ session.sessionId = sessionId ∧
        let after := commitItems node candidates unixTime now items peer session
        result = (some after.1, { after.2.1 with active := some after.2.2 }) := by
  subst h
  unfold PeerState.commitRun
  split
  · exact .inl rfl
  rename_i session hactive
  split
  · exact .inl rfl
  rename_i hid
  exact .inr ⟨session, hactive, not_ne_iff.1 hid, rfl⟩

lemma takeActive_cases (expected : Option UInt64) :
    performPeer suite node e peer (.takeActive expected) = (none, peer) ∨
      performPeer suite node e peer (.takeActive expected) =
        (some (peer.active.map ActiveSession.sessionId), { peer with active := none }) := by
  simp only [performPeer]
  split
  · exact .inl rfl
  · exact .inr rfl

/-- What a section of a peer does to its session. -/
inductive SessionEffect (peer peer' : PeerState) : (op : PeerOp) → op.Response → Prop
  | kept {op : PeerOp} {r : op.Response}
      (hactive : Option.Rel ActiveSession.Continues peer.active peer'.active) : SessionEffect peer peer' op r
  | taken (expected : Option UInt64) (hactive : peer'.active = none) :
      SessionEffect peer peer' (.takeActive expected) (some (peer.active.map ActiveSession.sessionId))
  | expired (info : PeerInfo) (packet : WirePacket) (source : SocketAddr) (a : ActiveSession)
      (ha : peer.active = some a) (hid : a.sessionId = packet.header.sessionId)
      (hactive : peer'.active = none) : SessionEffect peer peer' (.handleData info packet source) .expired
  | rekeyed (a : ActiveSession) (ha : peer.active = some a) (hactive : peer'.active = none) :
      SessionEffect peer peer' .keepalive (.rekey a.path a.sessionId)

lemma SessionEffect.of_same {peer' : PeerState} {r : op.Response} (h : SamePeer peer peer') :
    SessionEffect peer peer' op r := by
  have hrel := h.active
  refine .kept ?_
  generalize peer.active = a, peer'.active = b at hrel ⊢
  cases hrel with
  | none => exact .none
  | some h => exact .some h.toContinues

lemma performPeer_session (op : PeerOp) :
    SessionEffect peer (performPeer suite node e peer op).2 op (performPeer suite node e peer op).1 := by
  have hrefl : ∀ {op : PeerOp} {r : op.Response}, SessionEffect peer peer op r := .of_same (.refl peer)
  cases op with
  | takeActive expected =>
    rcases @takeActive_cases suite node e peer expected with h | h
    · rw [h]
      exact hrefl
    · rw [h]
      exact .taken expected rfl
  | handleData info packet source =>
    rcases @handleData_cases suite node peer info packet source e.unixTime e.now _ rfl with ⟨-, h⟩ |
      ⟨a, ha, hid, h⟩ | ⟨a, b, ha, hcontinues, -, -, -, h⟩
    · rw [performPeer, h]
      exact hrefl
    · rw [performPeer, h]
      exact .expired info packet source a ha hid rfl
    · rw [performPeer, h]
      exact .kept (ha ▸ .some hcontinues)
  | keepalive =>
    rcases @keepalive_cases suite node peer e.now (e.nonce keepaliveNonceLen) _ rfl with ⟨-, h⟩ | ⟨a, ha, h⟩
    · exact .of_same h
    · rw [performPeer, h]
      exact .rekeyed a ha rfl
  | commitRun sessionId candidates items =>
    rcases @commitRun_cases node peer sessionId (candidates.getD peer.info.candidates) items
      e.unixTime e.now _ rfl with h | ⟨a, ha, -, h⟩
    · rw [performPeer, h]
      exact hrefl
    · rw [performPeer, h]
      exact .kept (ha ▸ .some (commitItems_continues _ _ _ _ _ _).1)
  | storeInfo info => exact .kept (optionRel_refl ActiveSession.Continues.refl _)
  | storeMembership expiresAt => exact .kept (optionRel_refl ActiveSession.Continues.refl _)
  | _ => exact .of_same (performPeer_same (p := ⟨0, peer.info.nodeId⟩) trivial)

lemma performPeer_continues {b : ActiveSession}
    (hb : (performPeer suite node e peer op).2.active = some b) :
    ∃ a, peer.active = some a ∧ a.Continues b := by
  have heffect := @performPeer_session suite node e peer op
  generalize performPeer suite node e peer op = after at hb heffect
  obtain ⟨r, peer'⟩ := after
  cases heffect with
  | kept hrel =>
    rw [show peer'.active = some b from hb] at hrel
    generalize peer.active = active at hrel
    cases hrel with
    | some h => exact ⟨_, rfl, h⟩
  | taken _ hnone => cases hnone.symm.trans hb
  | expired _ _ _ _ _ _ hnone => cases hnone.symm.trans hb
  | rekeyed _ _ hnone => cases hnone.symm.trans hb

end PeerOps

/-! ### The frame of the calm sections -/

/-- What a calm section leaves as it is. -/
structure Calmly (s s' : NodeState) : Prop where
  sessions : s'.sessions = s.sessions
  peers : s'.peers = s.peers
  routes : s'.routes = s.routes
  allocated : s'.allocated = s.allocated
  delivered : s'.delivered = s.delivered
  ipPackets : s'.ipPackets = s.ipPackets
  receiveKeys : s'.receiveKeys = s.receiveKeys
  expiresAt : s'.snapshotExpiresAt = s.snapshotExpiresAt
  peer : ∀ p, SamePeer (s.heap p) (s'.heap p)

namespace Calmly

lemma refl (s : NodeState) : Calmly s s :=
  ⟨rfl, rfl, rfl, rfl, rfl, rfl, rfl, rfl, fun _ => .refl _⟩

lemma trans {a b c : NodeState} (h : Calmly a b) (h' : Calmly b c) : Calmly a c :=
  ⟨h'.sessions.trans h.sessions, h'.peers.trans h.peers, h'.routes.trans h.routes,
    h'.allocated.trans h.allocated, h'.delivered.trans h.delivered, h'.ipPackets.trans h.ipPackets,
    h'.receiveKeys.trans h.receiveKeys, h'.expiresAt.trans h.expiresAt,
    fun p => (h.peer p).trans (h'.peer p)⟩

lemma setPeer {s : NodeState} {p : PeerRef} {peer : PeerState} (h : SamePeer (s.heap p) peer) :
    Calmly s (s.setPeer p peer) := by
  refine ⟨rfl, rfl, rfl, rfl, rfl, rfl, rfl, rfl, fun q => ?_⟩
  by_cases hq : q = p
  · subst hq
    simpa [NodeState.setPeer] using h
  · simpa [NodeState.setPeer, hq] using SamePeer.refl _

end Calmly

section Frame

variable {suite : Suite} {node : Node} {e : Env} {s : NodeState}

lemma encryptPacket_calmly (encryption : Encryption) {s' : NodeState}
    (h : exec suite node e (.encryptPacket encryption) s = some ((), s')) : Calmly s s' := by
  cases h
  exact ⟨rfl, rfl, rfl, rfl, rfl, rfl, rfl, rfl, fun _ => .refl _⟩

lemma finishHandshake_calmly (p : PeerRef) (sessionId : UInt64) (message : List UInt8)
    (sender : NodeId) (info : PeerInfo) :
    Calmly s (s.finishHandshake suite p sessionId message sender info).2 := by
  rcases @finishHandshake_state suite s p sessionId message sender info with h | ⟨_, h⟩
  · rw [h]
    exact .refl s
  · rw [h]
    exact .setPeer (.of_eq rfl rfl rfl)

variable {c : Section} {r : Response c} {s' : NodeState} {peer : PeerState}

lemma calm_writes (hc : Calm c) {f : NodeField}
    (hf : f ∈ [NodeField.sessions, .table, .allocated, .delivered, .keys, .expiry]) :
    c.writes f = false := by
  simp only [List.mem_cons, List.not_mem_nil, or_false] at hf
  rcases hf with rfl | rfl | rfl | rfl | rfl | rfl <;> cases c <;> first | rfl | exact hc.elim

/-- **Calm sections**: sessions, records, tables and deliveries stay as they are. -/
theorem calm_step (hc : Calm c) (h : exec suite node e c s = some (r, s')) : Calmly s s' := by
  have hframe := exec_frame h
  refine ⟨hframe.sessions (calm_writes hc (by decide)), hframe.peers (calm_writes hc (by decide)),
    hframe.routes (calm_writes hc (by decide)), hframe.allocated (calm_writes hc (by decide)),
    hframe.delivered (calm_writes hc (by decide)), ?_, hframe.keys (calm_writes hc (by decide)),
    hframe.expiry (calm_writes hc (by decide)), fun p => ?_⟩
  · cases c with
    | emit event =>
      cases h
      split
      · cases event with
        | ipPacket peer packet => exact hc.elim
        | _ => rfl
      · rfl
    | deliver _ => exact hc.elim
    | _ => rw [NodeState.ipPackets, hframe.events rfl]; rfl
  · cases heap_step h p with
    | same hpeer => exact hpeer ▸ .refl _
    | own op hpeer => exact hpeer ▸ performPeer_same hc
    | attempt _ _ hpeer => exact hpeer ▸ .of_eq rfl rfl rfl
    | locked hpeer => exact hpeer ▸ .of_eq rfl rfl rfl
    | online _ _ hpeer => exact hpeer ▸ .of_eq rfl rfl rfl
    | reconnect hpeer =>
      obtain ⟨_, hreconnect⟩ := @heap_nextReconnect node s p
      exact (hpeer.trans hreconnect) ▸ .of_eq rfl rfl rfl
    | established => exact hc.elim
    | allocated _ _ hallocates => rcases hallocates with rfl | rfl <;> exact hc.elim

/-! ### Records and sessions over one section -/

/-- What one section does to a peer's state, as far as records and sessions go. -/
inductive PeerEffect (node : Node) (e : Env) (s : NodeState) (p : PeerRef) (peer : PeerState) :
    Section → Prop
  /-- the record is the same, and what is left of the session continues it; only a section of this
  very peer may end it -/
  | used {c : Section} (hinfo : peer.info = (s.heap p).info)
      (hactive : ∀ b, peer.active = some b → ∃ a, (s.heap p).active = some a ∧ a.Continues b)
      (hended : (∃ op, c = .peer p op) ∨
        ∀ a, (s.heap p).active = some a → ∃ b, peer.active = some b ∧ a.Continues b) :
      PeerEffect node e s p peer c
  /-- a record is stored -/
  | stored (info : PeerInfo) (hinfo : peer.info = info) (hactive : peer.active = (s.heap p).active) :
      PeerEffect node e s p peer (.peer p (.storeInfo info))
  /-- the peer is allocated -/
  | allocated {c : Section} (haddress : p.address = s.allocated) (hactive : peer.active = none)
      (hattempt : peer.attempt = none)
      (hc : (∃ info, c = .registerPeer info) ∨ ∃ info online, c = .allocate info online) :
      PeerEffect node e s p peer c
  /-- a session starts -/
  | established (id : UInt64) (path : SocketAddr) (cipher : SessionCipher) (expected : PeerInfo)
      (handshake : NoiseHandshake) (hfree : (s.heap p).active = none)
      (hexpected : (s.heap p).info = expected) (hinfo : peer.info = (s.heap p).info)
      (hactive : peer.active = some (freshSession node e id path cipher expected handshake)) :
      PeerEffect node e s p peer (.establish p id path cipher expected handshake)

lemma PeerEffect.same {p : PeerRef} (h : peer = s.heap p) : PeerEffect node e s p peer c :=
  .used (by rw [h]) (fun b hb => ⟨b, by rw [← h, hb], .refl b⟩)
    (.inr fun a ha => ⟨a, by rw [h, ha], .refl a⟩)

lemma performPeer_info {op : PeerOp} (hop : ∀ info, op ≠ .storeInfo info) :
    (performPeer suite node e peer op).2.info = peer.info :=
  (performPeer_frame op).info (by cases op <;> first | rfl | exact absurd rfl (hop _))

/-- **One section and one peer.** -/
theorem peer_step (h : exec suite node e c s = some (r, s')) (p : PeerRef) :
    PeerEffect node e s p (s'.heap p) c := by
  have hother : ∀ {peer : PeerState}, peer.info = (s.heap p).info → peer.active = (s.heap p).active →
      PeerEffect node e s p peer c := fun hinfo hactive =>
    .used hinfo (fun b hb => ⟨b, hactive ▸ hb, .refl b⟩) (.inr fun a ha => ⟨a, hactive ▸ ha, .refl a⟩)
  cases heap_step h p with
  | same hpeer => exact .same hpeer
  | own op hpeer =>
    rw [hpeer]
    by_cases hop : ∃ info, op = .storeInfo info
    · obtain ⟨info, rfl⟩ := hop
      exact .stored info rfl rfl
    · exact .used (performPeer_info fun info hinfo => hop ⟨info, hinfo⟩)
        (fun b hb => performPeer_continues hb) (.inl ⟨op, rfl⟩)
  | attempt _ _ hpeer => exact hpeer ▸ hother rfl rfl
  | locked hpeer => exact hpeer ▸ hother rfl rfl
  | online _ _ hpeer => exact hpeer ▸ hother rfl rfl
  | reconnect hpeer =>
    obtain ⟨_, hreconnect⟩ := @heap_nextReconnect node s p
    exact (hpeer.trans hreconnect) ▸ hother rfl rfl
  | established id path cipher expected handshake hfree hexpected hpeer =>
    exact hpeer ▸ .established id path cipher expected handshake hfree hexpected rfl rfl
  | allocated info online hc hnew hpeer =>
    refine hpeer ▸ .allocated (by rw [hnew]) rfl rfl ?_
    exact hc.imp (fun hc => ⟨info, hc⟩) fun hc => ⟨info, online, hc⟩

/-! ### The table over one section -/

/-- What one section does to the table of peers. -/
inductive TableEffect (s s' : NodeState) : (c : Section) → Response c → Prop
  | same {c : Section} {r : Response c} (hpeers : s'.peers = s.peers)
      (hallocated : s.allocated ≤ s'.allocated) : TableEffect s s' c r
  | allocated {info : PeerInfo} {online : Bool} {p : PeerRef} (hpeers : s'.peers = s.peers)
      (hallocated : s'.allocated = s.allocated + 1) (hp : p = ⟨s.allocated, info.nodeId⟩) :
      TableEffect s s' (.allocate info online) p
  | registered {info : PeerInfo} {previous : Option PeerRef}
      (hprevious : previous = s.peers.lookup info.nodeId)
      (hpeers : s'.peers = s.peers.insert info.nodeId ⟨s.allocated, info.nodeId⟩)
      (hallocated : s'.allocated = s.allocated + 1) : TableEffect s s' (.registerPeer info) previous
  | removed {nodeId : NodeId} {p : PeerRef} (hp : s.peers.lookup nodeId = some p)
      (hpeers : s'.peers = s.peers.erase nodeId) (hallocated : s'.allocated = s.allocated) :
      TableEffect s s' (.removePeer nodeId p) true
  | absent {nodeId : NodeId} {p : PeerRef} (hpeers : s'.peers = s.peers)
      (hallocated : s'.allocated = s.allocated) : TableEffect s s' (.removePeer nodeId p) false
  | replaced {routes : RouteTable} {replacement old : PeerTable} (hold : old = s.peers)
      (hpeers : s'.peers = replacement) (hallocated : s'.allocated = s.allocated) :
      TableEffect s s' (.replacePeers routes replacement) old

/-- **One section and the table.** -/
theorem table_step (h : exec suite node e c s = some (r, s')) : TableEffect s s' c r := by
  have hframe := exec_frame h
  cases c with
  | registerPeer info =>
    cases h
    exact .registered rfl rfl rfl
  | allocate info online =>
    cases h
    exact .allocated rfl rfl rfl
  | removePeer nodeId p =>
    have hremove : s.removePeer nodeId p = (r, s') := Option.some.inj h
    unfold NodeState.removePeer at hremove
    split at hremove
    · rename_i hp
      cases hremove
      exact .removed hp rfl rfl
    · cases hremove
      exact .absent rfl rfl
  | replacePeers routes replacement =>
    cases h
    exact .replaced rfl rfl rfl
  | _ => exact .same (hframe.peers rfl) (hframe.allocated rfl).ge

/-! ### The map of sessions over one section -/

lemma lookup_removeSession (s : NodeState) (p : PeerRef) (sessionId id : UInt64) (q : PeerRef) :
    (s.removeSession p sessionId).sessions.lookup id = some q ↔
      s.sessions.lookup id = some q ∧ ¬ (q = p ∧ id = sessionId) := by
  unfold NodeState.removeSession
  split
  · rename_i hentry
    by_cases hid : id = sessionId
    · subst hid
      rw [AList.lookup_erase, hentry]
      simp only [and_true]
      constructor
      · intro h
        cases h
      · rintro ⟨hq, hne⟩
        exact absurd (Option.some.inj hq).symm hne
    · rw [AList.lookup_erase_ne hid]
      simp [hid]
  · rename_i hentry
    constructor
    · intro h
      refine ⟨h, ?_⟩
      rintro ⟨rfl, rfl⟩
      exact hentry h
    · exact And.left

/-- **One section and an entry of the map.** -/
theorem sessions_step (h : exec suite node e c s = some (r, s')) {id : UInt64} {q : PeerRef}
    (hq : s'.sessions.lookup id = some q) :
    (s.sessions.lookup id = some q ∧ c ≠ .removeSession q id) ∨ c = .insertSession id q := by
  have hframe := exec_frame h
  cases c with
  | insertSession id' p =>
    cases h
    by_cases hid : id = id'
    · subst hid
      obtain rfl := Option.some.inj ((AList.lookup_insert ..).symm.trans hq)
      exact .inr rfl
    · exact .inl ⟨(AList.lookup_insert_ne hid).symm.trans hq, nofun⟩
  | removeSession p id' =>
    cases h
    obtain ⟨hbefore, hother⟩ := (lookup_removeSession s p id' id q).1 hq
    refine .inl ⟨hbefore, fun heq => hother ?_⟩
    obtain ⟨rfl, rfl⟩ := Section.removeSession.inj heq
    exact ⟨rfl, rfl⟩
  | sessionCipher p id' =>
    obtain rfl : (s.sessionCipher p id').2 = s' := congrArg Prod.snd (Option.some.inj h)
    unfold NodeState.sessionCipher at hq
    split at hq
    · split at hq
      · exact .inl ⟨hq, nofun⟩
      · exact .inl ⟨((lookup_removeSession s p id' id q).1 hq).1, nofun⟩
    · exact .inl ⟨((lookup_removeSession s p id' id q).1 hq).1, nofun⟩
  | _ => exact .inl ⟨hframe.sessions rfl ▸ hq, nofun⟩

end Frame

end Vela.Core
