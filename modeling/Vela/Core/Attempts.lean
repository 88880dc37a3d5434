import Vela.Core.Apply

/-!
# Attempts that stay

An attempt is stored by `connect`, by a probe of the peer or by a rekey, and has a time `timeout_at`.
Only `connect` waits for that time and takes its own attempt out; neither `send_ip` nor `handle_probe`
looks at it.

* `stored_attempt_blocks` — both;
* `retransmission_ignored` — the responder does not answer the handshake of the session that it has,
  so that a lost response is not made up for by a retry.
-/

namespace Vela.Core

open Vela.Proto Vela.Crypto Vela.Ip Codec Prog

variable {suite : Suite} {node : Node} {now : UInt64} {s : NodeState} {p : PeerRef}

/-! ### Datagrams -/

/-- The datagram that `send_packet` makes of a payload. -/
def datagramOf (packetType : PacketType) (sessionId sequence : UInt64) (payload : List UInt8) :
    List UInt8 :=
  { version := protocolVersion, packetType, flags := 0, sessionId, sequence
    payloadLen := UInt16.ofNat payload.length : Header }.encode ++ payload

lemma toNat_payloadLen {n : ℕ} (h : n < 2 ^ 16) : (UInt16.ofNat n).toNat = n := by
  rw [UInt16.toNat_ofNat', Nat.mod_eq_of_lt h]

variable {sessionId sequence : UInt64} {payload : List UInt8} {e : Env} {target source path : SocketAddr}
  {packetType : PacketType} {attempt : Attempt} {s' : NodeState} {fuel : ℕ}

lemma sendPacket_datagramOf (hlength : payload.length < 2 ^ 16) (hfault : e.fault = none) :
    s.sendPacket e target packetType sessionId sequence payload =
      (none, { s with
        datagrams := (target, datagramOf packetType sessionId sequence payload) :: s.datagrams }) := by
  have hencode : WirePacket.encode
      { header := { version := protocolVersion, packetType, flags := 0, sessionId, sequence
                    payloadLen := UInt16.ofNat payload.length }
        payload } = .ok (datagramOf packetType sessionId sequence payload) := by
    rw [WirePacket.encode, if_neg (by simp [toNat_payloadLen hlength])]
    rfl
  rw [NodeState.sendPacket, Header.new, if_pos hlength]
  simp only [hencode, NodeState.sendTo, hfault]

lemma decode_datagramOf (hlength : payload.length < 2 ^ 16) :
    WirePacket.decode (datagramOf packetType sessionId sequence payload) =
      .ok { header := { version := protocolVersion, packetType, flags := 0, sessionId, sequence
                        payloadLen := UInt16.ofNat payload.length }
            payload } := by
  refine WirePacket.decode_encode _ _ rfl ?_
  rw [WirePacket.encode, if_neg (by simp [toNat_payloadLen hlength])]
  rfl

/-! ### `send_ip` -/

lemma sendIpPacket_idle_wp (hactive : (s.heap p).active = none) (packet : IpPacket) :
    (sendIpPacket suite node p packet).run.wp (exec suite node)
      (fun r s' => isIo r = false ∧ s'.spawned = s.spawned) s := by
  refine wp_bindExcept (wp_lift ?_)
  refine wp_callBind fun e time s' he => ?_
  cases he
  refine wp_callBind fun e expiresAt s' he => ?_
  cases he
  split
  · refine wp_bind.2 (wp_mono ?_ (invalidateSession_wp s p true))
    rintro _ s' ⟨events, rfl⟩
    obtain ⟨sessions, hsessions⟩ := dropSession_eq s p
    exact ⟨rfl, by rw [hsessions]; rfl⟩
  have hsize : checkSize node packet = .error .packetTooLarge ∨ checkSize node packet = .ok packet := by
    unfold checkSize
    split
    · exact .inl rfl
    · exact .inr rfl
  simp only [List.map_cons, List.map_nil]
  rcases hsize with hsize | hsize
  · rw [hsize]
    exact ⟨rfl, rfl⟩
  · rw [hsize, show oks [(.ok packet : Except SendError IpPacket)] = [packet] from rfl]
    -- there is no session to prepare the packet for
    refine wp_bind.2 ?_
    refine wp_readPeer (r := none) (fun e => ?_) (wp_peerCall fun e => ?_)
    · simp only [performPeer, PeerState.prepareActive, hactive]
    · simp only [performPeer, PeerState.queuePush, List.map_cons, List.map_nil]
      split <;> exact ⟨rfl, rfl⟩

/-- **`send_ip`** does not ask for a connection while an attempt is stored. -/
theorem sendIp_attempt {bytes : List UInt8} {packet : IpPacket} {nodeId : NodeId}
    (hparse : IpPacket.parse bytes = .ok packet) (hroute : s.routes.validateOutbound packet = .ok nodeId)
    (hlookup : s.peers.lookup nodeId = some p) (hactive : (s.heap p).active = none)
    (hattempt : (s.heap p).attempt = some attempt) :
    (sendIp suite node bytes).run.wp (exec suite node) (fun _ s' => s'.spawned = s.spawned) s := by
  refine wp_bindExcept ?_
  rw [hparse]
  refine wp_bindExcept (wp_lift fun e routed s' he => ?_)
  obtain ⟨rfl, rfl⟩ := Prod.mk.inj (Option.some.inj he)
  refine wp_bindExcept ?_
  rw [hroute]
  refine wp_bindExcept (wp_lift fun e found s' he => ?_)
  cases he
  refine wp_bindExcept ?_
  rw [hlookup]
  refine wp_bindExcept (wp_lift ?_)
  refine wp_readPeer (r := none) (fun e => by simp only [performPeer, hactive, Option.map_none]) ?_
  refine wp_readPeer (r := some attempt.sessionId)
    (fun e => by simp only [performPeer, hattempt, Option.map_some]) ?_
  refine wp_bindExcept (wp_lift (wp_mono ?_ (sendIpPacket_idle_wp hactive packet)))
  rintro result s' ⟨hio, hspawned⟩
  simp only [hio, Option.isNone_some, Bool.and_false]
  exact hspawned

/-! ### `handle_probe` -/

/-- The sections of an operation during which the clock stands still and the socket takes everything. -/
def execReliable (suite : Suite) (node : Node) (now : UInt64) (e : Env) :
    (c : Section) → NodeState → Option (Response c × NodeState) :=
  exec suite node { e with unixTime := now, fault := none }

lemma wp_reliable {α : Type} {prog : Task α} {Q : α → NodeState → Prop}
    (h : prog.wp (exec suite node) Q s) : prog.wp (execReliable suite node now) Q s := by
  refine wp_restrict (fun e c s x he => ?_) h
  exact ⟨{ e with unixTime := now, fault := none }, he⟩

/-- `snow` writes the first message of an initiator: two keys and two tags with the payload. -/
def WritesFirst (suite : Suite) : Prop :=
  ∀ identity remotePublic entropy payload, payload.length ≤ 1024 → ∃ message,
    suite.noiseWrite (NoiseHandshake.initiator identity remotePublic) entropy payload = some message ∧
      message.length ≤ payload.length + 96

/-- The probe is one of the peer to this node, and passes all checks at the time. -/
structure Authentic (suite : Suite) (node : Node) (now : UInt64) (s : NodeState) (probe : Probe)
    (p : PeerRef) : Prop where
  receiver : probe.receiver = node.nodeId suite
  known : s.peers.lookup probe.sender = some p
  member : ∀ key, node.config.serverPublicKey = some key →
    validateCredential suite (s.heap p).info key now = .ok ()
  verified : verifyProbe suite probe (s.heap p).info now = .ok ()

/-- The last datagram is the first message of a handshake for the session, and it is new. -/
def NodeState.Initiates (suite : Suite) (node : Node) (s s' : NodeState) (target : SocketAddr)
    (sessionId : UInt64) : Prop :=
  ∃ message rest, s'.datagrams =
    (target, datagramOf .handshake sessionId 0 (handshakePayload suite node 1 message)) :: rest ∧
      s.datagrams <:+ rest

lemma length_handshakeContext : (s.handshakeContext suite node).length = 96 := by
  have hmagic : handshakeContextMagic.length = 10 := by decide
  unfold NodeState.handshakeContext encodeHandshakeContext
  cases s.localIpv4 <;> cases s.localIpv6 <;> simp [encodeOptional, hmagic]

lemma initiate_new (hwrites : WritesFirst suite) {e : Env} (hfault : e.fault = none)
    {attempt : Attempt} (hattempt : (s.heap p).attempt = some attempt) (hnone : attempt.handshake = none)
    (path : SocketAddr) :
    ∃ message peer, s.initiate suite node e p path attempt.sessionId =
      (.ok true, { s with
        datagrams :=
          (path, datagramOf .handshake attempt.sessionId 0 (handshakePayload suite node 1 message)) ::
            s.datagrams : NodeState }.setPeer p peer) := by
  obtain ⟨message, hmessage, hlength⟩ := hwrites node.identity (s.heap p).info.noisePublic e.bytes
    (s.handshakeContext suite node) (by rw [length_handshakeContext]; decide)
  rw [length_handshakeContext] at hlength
  have hsmall : (1 :: (node.nodeId suite).bytes.toList ++ message).length < 2 ^ 16 := by
    rw [List.length_append, List.length_cons, Vector.length_toList]
    omega
  have hrecent : NodeState.recentlySent attempt path e.now = false := by
    simp [NodeState.recentlySent, hnone]
  obtain ⟨begun, hbegun⟩ : ∃ begun, s.initiatorMessage suite node e (s.heap p).info attempt =
      .ok (1 :: (node.nodeId suite).bytes.toList ++ message, begun) := by
    simp only [NodeState.initiatorMessage, hnone, NoiseHandshake.writeMessage, hmessage]
    exact ⟨_, rfl⟩
  refine ⟨message, { s.heap p with attempt := some { begun with
    handshakePath := some path, lastHandshakeAt := some e.now } }, ?_⟩
  simp only [NodeState.initiate, hattempt, ne_eq, not_true_eq_false, decide_false, hrecent,
    Bool.or_self, Bool.false_eq_true, if_false, hbegun, sendPacket_datagramOf hsmall hfault]
  rfl

lemma initiate_stale (hattempt : (s.heap p).attempt = some attempt)
    (hne : attempt.sessionId ≠ sessionId) (path : SocketAddr) :
    s.initiate suite node e p path sessionId = (.ok false, s) := by
  simp only [NodeState.initiate, hattempt, ne_eq, hne, not_false_eq_true, decide_true, Bool.true_or,
    if_true]

/-- What `handle_probe` does not touch before it starts a handshake: sessions and attempts, and what was
sent. -/
structure Unmoved (s s' : NodeState) : Prop where
  datagrams : s'.datagrams = s.datagrams
  active : ∀ q, (s'.heap q).active = (s.heap q).active
  attempt : ∀ q, (s'.heap q).attempt = (s.heap q).attempt

lemma emitPeerConnecting_unmoved :
    (emitPeerConnecting p).wp (exec suite node) (fun _ s' => Unmoved s s') s := by
  refine wp_readPeer
    (fun e => rfl) ?_
  cases (s.heap p).active.map fun session => (session.sessionId, session.path) with
  | some _ => exact ⟨rfl, fun _ => rfl, fun _ => rfl⟩
  | none =>
    have hmoved : Unmoved s (s.setPeer p { s.heap p with connecting := true }) := by
      refine ⟨rfl, fun q => ?_, fun q => ?_⟩ <;> by_cases hq : q = p
      · rw [hq, heap_setPeer]
      · rw [heap_setPeer_ne s _ hq]
      · rw [hq, heap_setPeer]
      · rw [heap_setPeer_ne s _ hq]
    refine wp_peerCall fun e => ?_
    simp only [performPeer]
    cases (s.heap p).connecting with
    | true => exact hmoved
    | false =>
      refine wp_readPeer (fun _ => rfl) (wp_callBind fun e taken s' he => ?_)
      obtain ⟨-, rfl⟩ := Prod.mk.inj (Option.some.inj he)
      split
      · exact ⟨hmoved.datagrams, hmoved.active, hmoved.attempt⟩
      · exact hmoved

lemma verifiedSender_wp {probe : Probe} (h : Authentic suite node now s probe p) :
    (verifiedSender suite node probe).run.wp (execReliable suite node now)
      (fun r s' => r = .ok (p, (s.heap p).info) ∧ s' = s) s := by
  have hmember : (validatePeerMembership suite node (s.heap p).info).run.wp
      (execReliable suite node now) (fun r s' => r = .ok () ∧ s' = s) s := by
    unfold validatePeerMembership
    split
    · exact ⟨rfl, rfl⟩
    · rename_i key hkey
      refine wp_bindExcept (wp_lift fun e time s' he => ?_)
      cases he
      exact ⟨h.member key hkey, rfl⟩
  unfold verifiedSender
  rw [if_neg (not_not.2 h.receiver)]
  refine wp_bindExcept (wp_bindExcept (wp_lift fun e found s' he => ?_))
  cases he
  rw [h.known]
  refine wp_bindExcept (wp_lift fun e info s' he => ?_)
  cases he
  simp only [setPeer_heap]
  refine wp_bindExcept (wp_mono ?_ hmember)
  rintro _ _ ⟨rfl, rfl⟩
  refine wp_bindExcept (wp_lift fun e time s' he => ?_)
  cases he
  refine wp_bindExcept ?_
  dsimp only
  rw [h.verified]
  exact ⟨rfl, rfl⟩

lemma sendPacket_wp (hlength : payload.length < 2 ^ 16) :
    (sendPacket target packetType sessionId sequence payload).run.wp (execReliable suite node now)
      (fun r s' => r = .ok () ∧ s' = { s with
        datagrams := (target, datagramOf packetType sessionId sequence payload) :: s.datagrams }) s := by
  refine wp_bindExcept (wp_lift fun e error s' he => ?_)
  have hsent : exec suite node { e with unixTime := now, fault := none }
      (.sendPacket target packetType sessionId sequence payload) s = _ :=
    congrArg some (sendPacket_datagramOf hlength rfl)
  obtain ⟨rfl, rfl⟩ := Prod.mk.inj (Option.some.inj (he.symm.trans hsent))
  exact ⟨rfl, rfl⟩

lemma length_encodeProbe {sender receiver : NodeId} {timestamp : UInt64} {nonce : Vector UInt8 16}
    {identity : Identity} :
    (encodeProbe suite sender receiver sessionId timestamp nonce identity).length = 160 := by
  simp [encodeProbe, probeFields]

lemma not_initiates_response {id : UInt64}
    (h : s'.datagrams = (source, datagramOf .probeResponse id 0 payload) :: s.datagrams) :
    ¬ s.Initiates suite node s' target sessionId := by
  rintro ⟨message, rest, hdatagrams, -⟩
  rw [h] at hdatagrams
  have heq := (Prod.mk.inj (List.cons.inj hdatagrams).1).2
  have hdecode := congrArg Header.decode heq
  rw [datagramOf, datagramOf, Header.decode_encode _ rfl, Header.decode_encode _ rfl] at hdecode
  have htype := congrArg Header.packetType (Except.ok.inj hdecode)
  cases htype

lemma startInitiator_new (hwrites : WritesFirst suite) {attempt : Attempt} {path : SocketAddr}
    (hactive : (s.heap p).active = none) (hattempt : (s.heap p).attempt = some attempt)
    (hnone : attempt.handshake = none) :
    (startInitiator p path attempt.sessionId).run.wp (execReliable suite node now)
      (fun r s' => r = .ok () ∧ ∃ message, s'.datagrams =
        (path, datagramOf .handshake attempt.sessionId 0 (handshakePayload suite node 1 message)) ::
          s.datagrams) s := by
  refine wp_bindExcept (wp_lift fun e active s' he => ?_)
  cases he
  simp only [hactive, Option.map_none, setPeer_heap]
  refine wp_bindExcept (wp_lift fun e sent s' he => ?_)
  obtain ⟨message, peer, hinitiate⟩ := @initiate_new suite node s p hwrites
    { e with unixTime := now, fault := none } rfl attempt hattempt hnone path
  obtain ⟨rfl, rfl⟩ := Prod.mk.inj (Option.some.inj (he.symm.trans (congrArg some hinitiate)))
  refine wp_bindExcept (wp_lift (wp_mono ?_ (wp_reliable emitPeerConnecting_unmoved)))
  intro _ s' hs'
  exact ⟨rfl, message, hs'.datagrams⟩

lemma startInitiator_stale (hactive : (s.heap p).active = none)
    (hattempt : (s.heap p).attempt = some attempt) (hne : attempt.sessionId ≠ sessionId) :
    (startInitiator p path sessionId).run.wp (execReliable suite node now)
      (fun r s' => r = .ok () ∧ s' = s) s := by
  refine wp_bindExcept (wp_lift fun e active s' he => ?_)
  cases he
  simp only [hactive, Option.map_none, setPeer_heap]
  refine wp_bindExcept (wp_lift fun e sent s' he => ?_)
  have hinitiate : s.initiate suite node { e with unixTime := now, fault := none } p path sessionId =
      (.ok false, s) := initiate_stale hattempt hne path
  obtain ⟨rfl, rfl⟩ := Prod.mk.inj (Option.some.inj (he.symm.trans (congrArg some hinitiate)))
  exact ⟨rfl, rfl⟩

/-- **`handle_probe`** starts a handshake for another session exactly if the stored attempt has no Noise
state. -/
theorem handleProbe_attempt (hwrites : WritesFirst suite) {packet : WirePacket} {probe : Probe}
    {source : SocketAddr} {attempt : Attempt} (hdecode : decodeProbe packet.payload = .ok probe)
    (hprobe : Authentic suite node now s probe p) (hlt : nodeIdLt (node.nodeId suite) probe.sender = true)
    (hactive : (s.heap p).active = none) (hattempt : (s.heap p).attempt = some attempt)
    (hnew : attempt.sessionId ≠ probe.sessionId) :
    (handleProbe suite node packet source).run.wp (execReliable suite node now)
      (fun r s' => r = .ok () ∧
        (s.Initiates suite node s' source probe.sessionId ↔ attempt.handshake = none)) s := by
  refine wp_bindExcept ?_
  rw [hdecode]
  refine wp_bindExcept (wp_mono ?_ (verifiedSender_wp hprobe))
  rintro _ s₀ ⟨rfl, hs₀⟩
  rw [hs₀]
  have hlength : (encodeProbe suite (node.nodeId suite) probe.sender probe.sessionId probe.timestamp
      probe.nonce node.identity).length < 2 ^ 16 := by
    rw [length_encodeProbe]
    decide
  refine wp_bindExcept (wp_mono ?_ (sendPacket_wp hlength))
  rintro _ _ ⟨rfl, rfl⟩
  refine wp_bindExcept (wp_lift (wp_mono ?_ (wp_reliable emitPeerConnecting_unmoved)))
  intro _ s₁ hs₁
  simp only [hlt, if_true]
  have hactive₁ : (s₁.heap p).active = none := (hs₁.active p).trans hactive
  have hattempt₁ : (s₁.heap p).attempt = some attempt := (hs₁.attempt p).trans hattempt
  refine wp_bindExcept (wp_lift fun e _ s₂ he => ?_)
  have hs₂ : s₁.setPeer p (performPeer suite node { e with unixTime := now, fault := none } (s₁.heap p)
      (.attemptFromProbe probe.sessionId (s.heap p).info.candidates)).2 = s₂ :=
    (Prod.mk.inj (Option.some.inj he)).2
  change (startInitiator p source probe.sessionId).run.wp (execReliable suite node now) _ s₂
  cases hstate : attempt.handshake with
  | none =>
    -- the attempt makes way for one with the new id
    have hreplace : performPeer suite node { e with unixTime := now, fault := none } (s₁.heap p)
        (.attemptFromProbe probe.sessionId (s.heap p).info.candidates) =
        ((), { s₁.heap p with attempt := some (freshAttempt node
          { e with unixTime := now, fault := none } probe.sessionId (s.heap p).info.candidates) }) := by
      simp [performPeer, hattempt₁, hstate, hnew]
    rw [hreplace] at hs₂
    subst hs₂
    have hstart := @startInitiator_new suite node now (s₁.setPeer p { s₁.heap p with
        attempt := some (freshAttempt node { e with unixTime := now, fault := none } probe.sessionId
          (s.heap p).info.candidates) }) p hwrites _ source
      (by rw [heap_setPeer]; exact hactive₁) (by rw [heap_setPeer]) rfl
    refine wp_mono ?_ hstart
    rintro r s' ⟨rfl, message, hdatagrams⟩
    refine ⟨rfl, iff_of_true ⟨message, s₁.datagrams, hdatagrams, ?_⟩ rfl⟩
    rw [hs₁.datagrams]
    exact List.suffix_cons _ _
  | some handshake =>
    have hkeep : performPeer suite node { e with unixTime := now, fault := none } (s₁.heap p)
        (.attemptFromProbe probe.sessionId (s.heap p).info.candidates) = ((), s₁.heap p) := by
      simp [performPeer, hattempt₁, hstate]
    rw [hkeep, setPeer_heap] at hs₂
    subst hs₂
    refine wp_mono ?_ (startInitiator_stale hactive₁ hattempt₁ hnew)
    rintro r s' ⟨rfl, rfl⟩
    exact ⟨rfl, iff_of_false (not_initiates_response hs₁.datagrams) (by simp)⟩

/-- **What a stored attempt blocks**, whoever stored it, whether it holds Noise state or not, and whether
its time has run out or not.  The peer has no session: `send_ip` of a packet for it spawns no task to
connect; and if this node is the initiator, an authentic probe with a new session id makes it send the
first message of a handshake for that id exactly if the stored attempt holds no Noise state. -/
theorem stored_attempt_blocks (suite : Suite) (node : Node) (hwrites : WritesFirst suite) (now : UInt64)
    (s : NodeState) (p : PeerRef) (attempt : Attempt) (hactive : (s.heap p).active = none)
    (hattempt : (s.heap p).attempt = some attempt) :
    (∀ bytes packet nodeId, IpPacket.parse bytes = .ok packet →
      s.routes.validateOutbound packet = .ok nodeId → s.peers.lookup nodeId = some p →
      (sendIp suite node bytes).run.wp (exec suite node) (fun _ s' => s'.spawned = s.spawned) s) ∧
    (∀ packet probe source, decodeProbe packet.payload = .ok probe →
      Authentic suite node now s probe p → nodeIdLt (node.nodeId suite) probe.sender = true →
      attempt.sessionId ≠ probe.sessionId →
      (handleProbe suite node packet source).run.wp (execReliable suite node now)
        (fun r s' => r = .ok () ∧
          (s.Initiates suite node s' source probe.sessionId ↔ attempt.handshake = none)) s) :=
  ⟨fun _ _ _ hparse hroute hlookup => sendIp_attempt hparse hroute hlookup hactive hattempt,
    fun _ _ _ hdecode hprobe hlt hnew =>
      handleProbe_attempt hwrites hdecode hprobe hlt hactive hattempt hnew⟩

/-! ### The retry of a handshake -/

lemma sendPacket_inv (h : s.sendPacket e target packetType sessionId sequence payload = (none, s')) :
    payload.length < 2 ^ 16 ∧ s' = { s with
      datagrams := (target, datagramOf packetType sessionId sequence payload) :: s.datagrams } := by
  by_cases hlength : payload.length < 2 ^ 16
  · cases hfault : e.fault with
    | none =>
      rw [sendPacket_datagramOf hlength hfault] at h
      exact ⟨hlength, (Prod.mk.inj h).2.symm⟩
    | some error =>
      rw [NodeState.sendPacket, Header.new, if_pos hlength] at h
      simp only [NodeState.sendTo, hfault] at h
      split at h <;> cases h
  · rw [NodeState.sendPacket, Header.new, if_neg hlength] at h
    cases h

/-- The response to the handshake of a session was lost.  The initiator still has its Noise state and
the message it sent; the responder has the session. -/
structure ResponseLost (suite : Suite) (initiator responder : Node) (a b : NodeState) (q p : PeerRef)
    (sessionId : UInt64) (message : List UInt8) : Prop where
  responder_known : a.peers.lookup (responder.nodeId suite) = some q
  attempt : ∃ attempt, (a.heap q).attempt = some attempt ∧ attempt.sessionId = sessionId ∧
    attempt.handshake.isSome ∧
    attempt.handshakePayload = some (handshakePayload suite initiator 1 message)
  initiator_known : b.peers.lookup (initiator.nodeId suite) = some p
  session : ((b.heap p).active.map fun session => session.sessionId) = some sessionId

lemma initiate_retry (hattempt : (s.heap p).attempt = some attempt) (hstate : attempt.handshake.isSome)
    (hpayload : attempt.handshakePayload = some payload)
    (h : s.initiate suite node e p path sessionId = (.ok true, s')) :
    payload.length < 2 ^ 16 ∧
      s'.datagrams = (path, datagramOf .handshake sessionId 0 payload) :: s.datagrams ∧
      ((s'.heap p).attempt.bind fun attempt => attempt.handshake) = attempt.handshake := by
  obtain ⟨handshake, hstate⟩ := Option.isSome_iff_exists.1 hstate
  simp only [NodeState.initiate, hattempt, NodeState.initiatorMessage, hstate, hpayload] at h
  split at h
  · cases (Prod.mk.inj h).1
  · split at h
    · cases (Prod.mk.inj h).1
    · rename_i s₁ hsend
      obtain ⟨hlength, rfl⟩ := sendPacket_inv hsend
      obtain rfl := (Prod.mk.inj h).2
      refine ⟨hlength, rfl, ?_⟩
      rw [heap_setPeer, hstate]
      rfl

lemma validatePeerMembership_reads (info : PeerInfo) :
    (validatePeerMembership suite node info).run.wp (exec suite node) (fun _ s' => s' = s) s := by
  unfold validatePeerMembership
  split
  · exact rfl
  · refine wp_bindExcept (wp_lift fun e time s' he => ?_)
    cases he
    exact rfl

/-- **`handle_handshake`** does nothing for the session that the sender has already. -/
theorem handleHandshake_active {packet : WirePacket}
    (hlookup : s.peers.lookup ⟨arrayAt 32 packet.payload 1⟩ = some p)
    (hactive : ((s.heap p).active.map fun session => session.sessionId) = some packet.header.sessionId) :
    (handleHandshake suite node fuel packet source).run.wp (exec suite node)
      (fun _ s' => s' = s) s := by
  unfold handleHandshake
  split
  · exact rfl
  refine wp_bindExcept (wp_bindExcept (wp_lift fun e found s' he => ?_))
  obtain ⟨rfl, rfl⟩ := Prod.mk.inj (Option.some.inj he)
  rw [hlookup]
  refine wp_bindExcept (wp_lift fun e info s' he => ?_)
  obtain ⟨rfl, rfl⟩ := Prod.mk.inj (Option.some.inj he)
  simp only [setPeer_heap]
  refine wp_bindExcept (wp_mono ?_ (validatePeerMembership_reads _))
  rintro (error | _) s' hs'
  · exact hs'
  rw [hs']
  refine wp_bindExcept (wp_lift fun e active s'' he => ?_)
  cases he
  have hsame : ((s.heap p).active.map fun session => (session.sessionId, session.path)).map Prod.fst =
      some packet.header.sessionId := by
    rw [Option.map_map]
    exact hactive
  dsimp only [Prog.wp]
  rw [if_pos hsame, setPeer_heap]
  exact rfl

lemma arrayAt_handshakePayload (role : UInt8) (message : List UInt8) :
    (⟨arrayAt 32 (handshakePayload suite node role message) 1⟩ : NodeId) = node.nodeId suite := by
  have hbytes : arrayAt 32 (handshakePayload suite node role message) 1 =
      (node.nodeId suite).bytes := by
    refine Vector.ext fun i hi => ?_
    simp [arrayAt, handshakePayload, Nat.add_comm 1 i, List.getElem?_append_left, hi]
  rw [hbytes]

lemma handlePacket_again {initiator : Node} {message : List UInt8}
    (hlength : (handshakePayload suite initiator 1 message).length < 2 ^ 16)
    (hknown : s.peers.lookup (initiator.nodeId suite) = some p)
    (hsession : ((s.heap p).active.map fun session => session.sessionId) = some sessionId) :
    (handlePacket suite node fuel
      (datagramOf .handshake sessionId 0 (handshakePayload suite initiator 1 message)) source).run.wp
        (exec suite node) (fun _ s' => s' = s) s := by
  refine wp_bindExcept (wp_lift fun e time s' he => ?_)
  cases he
  refine wp_bindExcept (wp_lift fun e expiresAt s' he => ?_)
  cases he
  dsimp only [Prog.wp]
  split
  · exact rfl
  refine wp_bindExcept ?_
  rw [decode_datagramOf hlength]
  refine handleHandshake_active ?_ hsession
  rw [arrayAt_handshakePayload]
  exact hknown

/-- **A lost response stays lost.**  The response to a handshake was lost, and the initiator sends its
message again.  Whatever the environment, the responder takes the retry and does nothing: no response is
sent, and its session stays what it is. -/
theorem retransmission_ignored (suite : Suite) (initiator responder : Node) (fuel : ℕ)
    (a b : NodeState) (q p : PeerRef) (sessionId : UInt64) (message : List UInt8)
    (h : ResponseLost suite initiator responder a b q p sessionId message) (e : Env)
    (path : SocketAddr) (a' : NodeState)
    (hretry : a.initiate suite initiator e q path sessionId = (.ok true, a')) :
    ∃ input, a'.datagrams = (path, input) :: a.datagrams ∧
      ∀ source, (handlePacket suite responder fuel input source).run.wp (exec suite responder)
        (fun _ b' => b' = b) b := by
  obtain ⟨attempt, hattempt, -, hstate, hpayload⟩ := h.attempt
  obtain ⟨hlength, hdatagrams, -⟩ := initiate_retry hattempt hstate hpayload hretry
  exact ⟨_, hdatagrams, fun _ => handlePacket_again hlength h.initiator_known h.session⟩

/-! ### A handshake that was never answered -/

section Demo

def demoProbe (sessionId timestamp : UInt64) : List UInt8 :=
  encodeProbe demoSuite ⟨demoBytes 9⟩ (demoNode.nodeId demoSuite) sessionId timestamp
    (Vector.replicate 16 0) { signing := demoBytes 9, noiseStatic := demoBytes 9 }

def demoResponder : PeerRef := ⟨0, ⟨demoBytes 9⟩⟩

/-- The node has sent the first message of a handshake, and nothing comes back. -/
def demoUnanswered : List (Pool.Move Env Request) :=
  demoAlone 0 .start 1 ++ demoAlone 0 (.registerPeer (demoInfo 9)) 3 ++
    demoAlone 0 (.datagram (demoDatagram .probe 1 0 (demoProbe 1 10)) demoPath) 17

def demoUnansweredRun : Option (Pool.Config Section Response NodeState Unit) :=
  (plainPool demoSuite demoNode 2).runMoves (fun _ _ => true)
    ((plainPool demoSuite demoNode 2).initial demoState) demoUnanswered

def demoLater : UInt64 := 50

def demoNextProbe : WirePacket where
  header := { version := protocolVersion, packetType := .probe, flags := 0, sessionId := 2, sequence := 0
              payloadLen := 160 }
  payload := demoProbe 2 demoLater

def demoNextSender : Probe where
  sender := ⟨demoBytes 9⟩
  receiver := demoNode.nodeId demoSuite
  sessionId := 2
  timestamp := demoLater
  nonce := Vector.replicate 16 0
  signature := Vector.replicate 64 0

lemma demoSuite_writesFirst : WritesFirst demoSuite := by
  intro identity remotePublic entropy payload _
  refine ⟨_, rfl, ?_⟩
  simp [NoiseHandshake.initiator]
  omega

lemma demoNextProbe_decodes : decodeProbe demoNextProbe.payload = .ok demoNextSender := by
  decide +kernel

/-- The packet that is sent then is taken, and no task is spawned; the probe is answered, and no handshake
is sent. -/
def demoUnansweredEnd : {cfg // demoUnansweredRun = some cfg ∧
      (cfg.shared.heap demoResponder).active = none ∧
      ((cfg.shared.heap demoResponder).attempt.map fun attempt =>
        (attempt.sessionId, attempt.handshake.isSome, attempt.timeoutAt)) = some (1, true, 20) ∧
      cfg.shared.peers.lookup ⟨demoBytes 9⟩ = some demoResponder ∧
      (cfg.shared.heap demoResponder).info = demoInfo 9 ∧
      (Prog.run (execReliable demoSuite demoNode demoLater) (sendIp demoSuite demoNode (demoIp 5 9)).run
        (List.replicate 8 demoEnv) cfg.shared).map (fun x => (x.1.toBool, x.2.spawned)) =
          some (true, []) ∧
      (Prog.run (execReliable demoSuite demoNode demoLater)
        (handleProbe demoSuite demoNode demoNextProbe demoPath).run (List.replicate 10 demoEnv)
          cfg.shared).isSome} :=
  Pool.found _ (by decide +kernel)

lemma demoNext_authentic (hlookup : s.peers.lookup ⟨demoBytes 9⟩ = some demoResponder)
    (hinfo : (s.heap demoResponder).info = demoInfo 9) :
    Authentic demoSuite demoNode demoLater s demoNextSender demoResponder := by
  refine ⟨rfl, hlookup, fun key hkey => ?_, ?_⟩
  · cases hkey
    rw [hinfo]
    decide +kernel
  · rw [hinfo]
    decide +kernel

lemma demoNext_initiator : nodeIdLt (demoNode.nodeId demoSuite) demoNextSender.sender = true := by
  decide +kernel

lemma demoNext_new : 1 ≠ demoNextSender.sessionId := by decide

lemma demoUnanswered_reachable {cfg : Pool.Config Section Response NodeState Unit}
    (h : demoUnansweredRun = some cfg) :
    (plainPool demoSuite demoNode 2).Reachable (fun _ _ => True)
      ((plainPool demoSuite demoNode 2).initial demoState) cfg :=
  Pool.Spec.reachable_of_runMoves (fun _ _ _ => trivial) _ .refl h

lemma demoUnanswered_state : ∃ cfg attempt, demoUnansweredRun = some cfg ∧
    (cfg.shared.heap demoResponder).active = none ∧
    (cfg.shared.heap demoResponder).attempt = some attempt ∧ attempt.sessionId = 1 ∧
    attempt.handshake.isSome ∧ attempt.timeoutAt ≤ demoLater ∧
    Authentic demoSuite demoNode demoLater cfg.shared demoNextSender demoResponder := by
  obtain ⟨cfg, hrun, hactive, hattempt, hlookup, hinfo, -⟩ := demoUnansweredEnd
  obtain ⟨attempt, hattempt, hfields⟩ := Option.map_eq_some_iff.1 hattempt
  obtain ⟨hid, hstate, htime⟩ := by simpa only [Prod.mk.injEq] using hfields
  refine ⟨cfg, attempt, hrun, hactive, hattempt, hid, hstate, ?_, demoNext_authentic hlookup hinfo⟩
  rw [htime]
  decide

set_option maxRecDepth 2000 in
theorem stored_attempt_blocks_probe : ∃ cfg attempt, demoUnansweredRun = some cfg ∧
    (cfg.shared.heap demoResponder).attempt = some attempt ∧
    (handleProbe demoSuite demoNode demoNextProbe demoPath).run.wp
      (execReliable demoSuite demoNode demoLater) (fun r s' => r = .ok () ∧
        (cfg.shared.Initiates demoSuite demoNode s' demoPath demoNextSender.sessionId ↔
          attempt.handshake = none))
      cfg.shared := by
  obtain ⟨cfg, attempt, hrun, hactive, hattempt, hid, -, -, hauthentic⟩ := demoUnanswered_state
  refine ⟨cfg, attempt, hrun, hattempt, ?_⟩
  have hblocks := (stored_attempt_blocks demoSuite demoNode demoSuite_writesFirst demoLater cfg.shared
    demoResponder attempt hactive hattempt).2 demoNextProbe demoNextSender demoPath demoNextProbe_decodes
    hauthentic demoNext_initiator
  exact hblocks (by rw [hid]; exact demoNext_new)

set_option maxRecDepth 2000 in
/-- **The attempt has timed out**, and still `send_ip` takes the packet without asking for a connection,
and a probe with a new session id is not followed by a handshake. -/
theorem timed_out_attempt_blocks : ∃ cfg attempt,
    (plainPool demoSuite demoNode 2).Reachable (fun _ _ => True)
      ((plainPool demoSuite demoNode 2).initial demoState) cfg ∧
    (cfg.shared.heap demoResponder).active = none ∧
    (cfg.shared.heap demoResponder).attempt = some attempt ∧ attempt.timeoutAt ≤ demoLater ∧
    (¬ (sendIp demoSuite demoNode (demoIp 5 9)).run.wp (execReliable demoSuite demoNode demoLater)
      (fun r s' => r.toBool = true → .connect ⟨demoBytes 9⟩ ∈ s'.spawned) cfg.shared) ∧
    Authentic demoSuite demoNode demoLater cfg.shared demoNextSender demoResponder ∧
    ¬ (handleProbe demoSuite demoNode demoNextProbe demoPath).run.wp
      (execReliable demoSuite demoNode demoLater)
      (fun _ s' => cfg.shared.Initiates demoSuite demoNode s' demoPath demoNextSender.sessionId)
      cfg.shared := by
  obtain ⟨cfg, attempt, hrun, hactive, hattempt, hid, hstate, htime, hauthentic⟩ := demoUnanswered_state
  obtain ⟨cfg', hrun', -, -, -, -, hsend, hprobe⟩ := demoUnansweredEnd
  obtain rfl := Option.some.inj (hrun.symm.trans hrun')
  refine ⟨cfg, attempt, demoUnanswered_reachable hrun, hactive, hattempt, htime, fun h => ?_, hauthentic,
    fun h => ?_⟩
  · obtain ⟨⟨r, s'⟩, hsend, hfacts⟩ := Option.map_eq_some_iff.1 hsend
    obtain ⟨hok, hspawned⟩ := Prod.mk.inj hfacts
    have hmem := wp_run h hsend hok
    rw [hspawned] at hmem
    cases hmem
  · obtain ⟨⟨r, s'⟩, hprobe⟩ := Option.isSome_iff_exists.1 hprobe
    have hiff := @handleProbe_attempt demoSuite demoNode demoLater cfg.shared demoResponder
      demoSuite_writesFirst demoNextProbe demoNextSender demoPath attempt demoNextProbe_decodes hauthentic
      demoNext_initiator hactive hattempt (by rw [hid]; exact demoNext_new)
    have hnone := (wp_run hiff hprobe).2.1 (wp_run h hprobe)
    rw [hnone] at hstate
    cases hstate

/-! ### A response that was lost -/

def demoAcceptor : Node :=
  { demoNode with
    identity := { signing := demoBytes 9, noiseStatic := demoBytes 9 }
    config := { demoNode.config with virtualIpv4 := some ⟨#v[10, 0, 0, 9]⟩ } }

def demoAcceptorState : NodeState := NodeState.new demoAcceptor fun _ =>
  PeerState.withOnline demoSuite (demoInfo 0) false none

def demoAcceptedRun : Option (Pool.Config Section Response NodeState Unit) :=
  (plainPool demoSuite demoAcceptor 2).runMoves (fun _ _ => true)
    ((plainPool demoSuite demoAcceptor 2).initial demoAcceptorState)
    (demoAlone 0 .start 1 ++ demoAlone 0 (.registerPeer (demoInfo 5)) 3 ++
      demoAlone 0 (.datagram (demoHello 5 5 1) demoPath) 25)

def demoInitiator : PeerRef := ⟨0, ⟨demoBytes 5⟩⟩

def demoFirst : List UInt8 := (demoBytes 5).toList ++ demoState.handshakeContext demoSuite demoNode

def demoRetryEnv : Env := { demoEnv with now := secs 1 }

def demoWaiting : {cfg // demoUnansweredRun = some cfg ∧
      cfg.shared.peers.lookup (demoAcceptor.nodeId demoSuite) = some demoResponder ∧
      ((cfg.shared.heap demoResponder).attempt.map fun attempt =>
        (attempt.sessionId, attempt.handshake.isSome, attempt.handshakePayload)) =
        some (1, true, some (handshakePayload demoSuite demoNode 1 demoFirst)) ∧
      (cfg.shared.initiate demoSuite demoNode demoRetryEnv demoResponder demoPath 1).1.toOption =
        some true} :=
  Pool.found _ (by decide +kernel)

def demoAcceptedEnd : {cfg // demoAcceptedRun = some cfg ∧
      cfg.shared.peers.lookup (demoNode.nodeId demoSuite) = some demoInitiator ∧
      ((cfg.shared.heap demoInitiator).active.map fun session => (session.sessionId, session.txSequence,
        session.rxBytes)) = some (1, 1, 0) ∧
      (Prog.run (execReliable demoSuite demoAcceptor 11)
        (handlePacket demoSuite demoAcceptor 2 (datagramOf .handshake 1 0
          (handshakePayload demoSuite demoNode 1 demoFirst)) demoPath).run (List.replicate 6 demoEnv)
          cfg.shared).map (fun x => x.1.toBool) = some true} :=
  Pool.found _ (by decide +kernel)

lemma demo_responseLost : ∃ cfgA cfgB a', demoUnansweredRun = some cfgA ∧ demoAcceptedRun = some cfgB ∧
    ResponseLost demoSuite demoNode demoAcceptor cfgA.shared cfgB.shared demoResponder demoInitiator 1
      demoFirst ∧
    (∃ session, (cfgB.shared.heap demoInitiator).active = some session ∧ session.sessionId = 1 ∧
      session.txSequence = 1 ∧ session.rxBytes = 0) ∧
    cfgA.shared.initiate demoSuite demoNode demoRetryEnv demoResponder demoPath 1 = (.ok true, a') := by
  obtain ⟨cfgA, hrunA, hresponder, hattempt, hretry⟩ := demoWaiting
  obtain ⟨cfgB, hrunB, hinitiator, hsession, -⟩ := demoAcceptedEnd
  obtain ⟨attempt, hattempt, hfields⟩ := Option.map_eq_some_iff.1 hattempt
  obtain ⟨session, hsession, hunused⟩ := Option.map_eq_some_iff.1 hsession
  simp only [Prod.mk.injEq] at hfields hunused
  obtain ⟨hid, hstate, hpayload⟩ := hfields
  obtain ⟨a', ha'⟩ : ∃ a', cfgA.shared.initiate demoSuite demoNode demoRetryEnv demoResponder demoPath 1 =
      (.ok true, a') := by
    cases hresult : cfgA.shared.initiate demoSuite demoNode demoRetryEnv demoResponder demoPath 1 with
    | mk result a' =>
      rw [hresult] at hretry
      cases result with
      | error error => cases hretry
      | ok sent =>
        obtain rfl : sent = true := Option.some.inj hretry
        exact ⟨a', rfl⟩
  refine ⟨cfgA, cfgB, a', hrunA, hrunB, ⟨hresponder, ⟨attempt, hattempt, hid, hstate, hpayload⟩,
    hinitiator, ?_⟩, ⟨session, hsession, hunused⟩, ha'⟩
  rw [hsession]
  exact congrArg some hunused.1

theorem retransmission_ignored_once : ∃ cfgA cfgB, ∃ a' : NodeState, demoUnansweredRun = some cfgA ∧
    demoAcceptedRun = some cfgB ∧ ∃ input, a'.datagrams = (demoPath, input) :: cfgA.shared.datagrams ∧
      ∀ source, (handlePacket demoSuite demoAcceptor 2 input source).run.wp (exec demoSuite demoAcceptor)
        (fun _ b' => b' = cfgB.shared) cfgB.shared := by
  obtain ⟨cfgA, cfgB, a', hrunA, hrunB, hlost, -, hretry⟩ := demo_responseLost
  exact ⟨cfgA, cfgB, a', hrunA, hrunB, retransmission_ignored demoSuite demoNode demoAcceptor 2
    cfgA.shared cfgB.shared demoResponder demoInitiator 1 demoFirst hlost demoRetryEnv demoPath a' hretry⟩

/-- **The retry is not answered**: both nodes are in reachable states, the session of the responder has
not been used, the initiator sends its message again, and no response follows. -/
theorem lost_response_unanswered : ∃ cfgA cfgB a',
    (plainPool demoSuite demoNode 2).Reachable (fun _ _ => True)
      ((plainPool demoSuite demoNode 2).initial demoState) cfgA ∧
    (plainPool demoSuite demoAcceptor 2).Reachable (fun _ _ => True)
      ((plainPool demoSuite demoAcceptor 2).initial demoAcceptorState) cfgB ∧
    ResponseLost demoSuite demoNode demoAcceptor cfgA.shared cfgB.shared demoResponder demoInitiator 1
      demoFirst ∧
    (∃ session, (cfgB.shared.heap demoInitiator).active = some session ∧ session.sessionId = 1 ∧
      session.txSequence = 1 ∧ session.rxBytes = 0) ∧
    cfgA.shared.initiate demoSuite demoNode demoRetryEnv demoResponder demoPath 1 = (.ok true, a') ∧
    ∃ input, a'.datagrams = (demoPath, input) :: cfgA.shared.datagrams ∧
      ¬ (handlePacket demoSuite demoAcceptor 2 input demoPath).run.wp
        (execReliable demoSuite demoAcceptor 11)
        (fun _ b' => ∃ response, b'.datagrams = (demoPath, response) :: cfgB.shared.datagrams)
        cfgB.shared := by
  obtain ⟨cfgA, cfgB, a', hrunA, hrunB, hlost, hunused, hretry⟩ := demo_responseLost
  obtain ⟨attempt, hattempt, -, hstate, hpayload⟩ := hlost.attempt
  obtain ⟨hlength, hdatagrams, -⟩ := initiate_retry hattempt hstate hpayload hretry
  refine ⟨cfgA, cfgB, a', demoUnanswered_reachable hrunA,
    Pool.Spec.reachable_of_runMoves (fun _ _ _ => trivial) _ .refl hrunB, hlost, hunused, hretry, _,
    hdatagrams, fun hanswer => ?_⟩
  obtain ⟨cfg, hrun, -, -, htaken⟩ := demoAcceptedEnd
  obtain rfl := Option.some.inj (hrunB.symm.trans hrun)
  obtain ⟨⟨r, b'⟩, hrun, -⟩ := Option.map_eq_some_iff.1 htaken
  have hsame : b' = cfgB.shared := wp_run
    (wp_reliable (handlePacket_again hlength hlost.initiator_known hlost.session)) hrun
  obtain ⟨response, hresponse⟩ := wp_run hanswer hrun
  rw [hsame] at hresponse
  exact absurd (congrArg List.length hresponse) (by simp)

end Demo

end Vela.Core
