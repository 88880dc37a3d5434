import Vela.Core.Queue
import Vela.Core.ProbeTrail

/-!
# What is left in the queue

`establish` flushes the queue of its peer, and `flush_queue` stops at the first packet that
`send_payload` refuses.  The packets behind that one stay where they are.

* `queue_delivered_iff` — all packets that can be delivered are, and none is left, exactly if no packet
  but the last is refused.
-/

namespace Vela.Core

open Vela.Proto Vela.Crypto Vela.Ip Codec Prog

variable {suite : Suite} {node : Node} {now : UInt64} {s s' : NodeState} {p : PeerRef}

/-! ### A session that sends -/

/-- A packet that is routed to the peer and fits the path. -/
def deliverable (routes : RouteTable) (p : PeerRef) (mtu : ℕ) (packet : IpPacket) : Bool :=
  decide (routes.validateOutbound packet = .ok p.nodeId ∧ packet.bytes.length ≤ mtu)

/-- The session of the peer has the id, the path and the cipher of `line` and the confirmed MTU. -/
structure NodeState.Serves (s : NodeState) (p : PeerRef) (line : PreparedSession) (mtu : ℕ)
    (routes : RouteTable) (expiresAt : UInt64) : Prop where
  active : ∃ session, (s.heap p).active = some session ∧ session.sessionId = line.sessionId ∧
    session.path = line.path ∧ session.cipher = line.cipher ∧ session.pathMtu.confirmed = mtu
  routes : s.routes = routes
  expiresAt : s.snapshotExpiresAt = expiresAt

/-- The datagram is the packet, encrypted for the peer on `line`. -/
def Carries (suite : Suite) (p : PeerRef) (line : PreparedSession) (packet : IpPacket)
    (datagram : SocketAddr × List UInt8) : Prop :=
  ∃ sequence prepared, prepareEncryptedDataPacket suite p line sequence packet = .ok prepared ∧
    datagram = (line.path, prepared.wirePacket)

variable {line : PreparedSession} {c : Section} {r : Response c}

lemma prepared_fields {sequence : UInt64} {packet : IpPacket} {prepared : PreparedDataPacket}
    (h : prepareEncryptedDataPacket suite p line sequence packet = .ok prepared) :
    prepared.peer = p ∧ prepared.sessionId = line.sessionId ∧ prepared.path = line.path := by
  unfold prepareEncryptedDataPacket at h
  split at h
  · cases h
  split at h
  · cases h
  obtain rfl := Except.ok.inj h
  exact ⟨rfl, rfl, rfl⟩

lemma reliable_call {Q : Response c → NodeState → Prop} (hc : c ≠ .never)
    (hexec : ∀ e, execReliable suite node now e c s = some (r, s')) (h : Q r s') :
    (call c).avoids (execReliable suite node now) (· = .never) Q s := by
  refine ⟨hc, fun e r' s'' he => ?_⟩
  obtain ⟨rfl, rfl⟩ := Prod.mk.inj (Option.some.inj ((hexec e).symm.trans he))
  exact h

lemma reliable_callBind {α : Type} {f : Response c → Task α} {Q : α → NodeState → Prop}
    (hc : c ≠ .never) (hexec : ∀ e, execReliable suite node now e c s = some (r, s'))
    (h : (f r).avoids (execReliable suite node now) (· = .never) Q s') :
    (call c >>= f).avoids (execReliable suite node now) (· = .never) Q s :=
  avoids_bind.2 (reliable_call hc hexec h)

section Session

variable {line : PreparedSession} {mtu : ℕ} {routes : RouteTable} {expiresAt : UInt64}
  {packet : IpPacket}

variable {packets : List IpPacket} {session : ActiveSession} {sequence : UInt64}
  {prepared : PreparedDataPacket} {x : IpPacket}

lemma prepareActive_fits (hactive : (s.heap p).active = some session)
    (hfits : packet.bytes.length ≤ session.pathMtu.confirmed) (e : Env) :
    execReliable suite node now e (.peer p (.prepareActive [packet.bytes.length])) s =
      some (some { sessionId := session.sessionId, path := session.path, cipher := session.cipher
                   sequences := [some session.txSequence] },
        s.setPeer p { s.heap p with
          active := some { session with txSequence := session.txSequence + 1 } }) := by
  simp only [execReliable, exec, performPeer, PeerState.prepareActive, hactive, takeSequences,
    if_neg (not_lt.2 hfits)]

lemma prepareActive_exceeds (hactive : (s.heap p).active = some session)
    (hexceeds : session.pathMtu.confirmed < packet.bytes.length) (e : Env) :
    execReliable suite node now e (.peer p (.prepareActive [packet.bytes.length])) s =
      some (some { sessionId := session.sessionId, path := session.path, cipher := session.cipher
                   sequences := [none] }, s) := by
  have hsame : { s.heap p with active := some session } = s.heap p := by rw [← hactive]
  simp only [execReliable, exec, performPeer, PeerState.prepareActive, hactive, takeSequences,
    if_pos hexceeds, hsame, setPeer_heap]

lemma encryptWork_one (line : PreparedSession)
    (h : prepareEncryptedDataPacket suite p line sequence packet = .ok prepared) :
    (encryptWork suite node p line [(sequence, packet)]).avoids (execReliable suite node now)
      (· = .never) (fun results s' => results = [.ok (some prepared)] ∧
        s' = { s with encrypted := { peer := p, key := line.cipher.tx, sequence, packet } ::
          s.encrypted }) s := by
  -- one packet is encrypted by the task itself
  have hone : encryptWork suite node p line [(sequence, packet)] =
      Prog.collect (encryptOne suite p line) [(sequence, packet)] :=
    if_neg (by simp [dataEncryptParallelThreshold])
  rw [hone, Prog.collect, encryptOne, h]
  exact avoids_bind.2 (reliable_callBind (by simp) (fun e => rfl) ⟨rfl, rfl⟩)

lemma prepareIpPackets_one (hcurrent : ¬ s.snapshotExpiresAt ≤ now)
    (hsize : checkSize node packet = .ok packet) {Q : List Preparation → NodeState → Prop}
    (h : (prepareValid suite node p [packet]).avoids (execReliable suite node now) (· = .never)
      (fun results s' => Q (refill ([.ok packet] : List (Except SendError IpPacket)) results) s') s) :
    (prepareIpPackets suite node p [packet]).avoids (execReliable suite node now) (· = .never) Q s := by
  rw [prepareIpPackets, if_neg (List.cons_ne_nil _ _)]
  refine reliable_callBind (by simp) (fun e => rfl) ?_
  refine reliable_callBind (by simp) (fun e => rfl) ?_
  rw [if_neg hcurrent, List.map_singleton, hsize]
  exact avoids_bind.2 h

lemma sendPayload_routed {Q : Except SendError Unit → NodeState → Prop}
    (hother : s.routes.validateOutbound packet ≠ .ok p.nodeId → ∀ error, Q (.error error) s)
    (h : s.routes.validateOutbound packet = .ok p.nodeId →
      (sendIpPacket suite node p packet).run.avoids (execReliable suite node now) (· = .never) Q s) :
    (sendPayload suite node p packet.bytes).run.avoids (execReliable suite node now) (· = .never)
      Q s := by
  refine avoids_bindExcept.2 ?_
  rw [IpPacket.parse_bytes]
  refine avoids_bindExcept.2 (avoids_lift.2 (reliable_call nofun (fun e => rfl) ?_))
  refine avoids_bindExcept.2 ?_
  cases hroute : s.routes.validateOutbound packet with
  | error error => exact hother (by rw [hroute]; exact nofun) _
  | ok nodeId =>
    dsimp only [Except.mapError, ofExcept, ExceptT.mk, ExceptT.run, Prog.avoids]
    split
    · rename_i hne
      exact hother (by rw [hroute]; exact fun h => hne (Except.ok.inj h)) _
    · rename_i hp
      exact h (by rw [hroute, not_not.1 hp])

lemma prepareIpPackets_delivers (hseal : Seals suite) (hs : s.Serves p line mtu routes expiresAt)
    (hcurrent : ¬ expiresAt ≤ now) (hmtu : mtu + 16 < 2 ^ 16)
    (hsize : checkSize node packet = .ok packet) (hfits : packet.bytes.length ≤ mtu) :
    (prepareIpPackets suite node p [packet]).avoids (execReliable suite node now) (· = .never)
      (fun results s' => ∃ sequence prepared, results = [.ok (some prepared)] ∧
        prepareEncryptedDataPacket suite p line sequence packet = .ok prepared ∧
        s'.Serves p line mtu routes expiresAt ∧ (s'.heap p).queue = (s.heap p).queue ∧
        s'.datagrams = s.datagrams) s := by
  obtain ⟨⟨session, hactive, hid, hpath, hcipher, rfl⟩, rfl, rfl⟩ := hs
  obtain ⟨prepared, hprepared⟩ := @prepared_of_length suite p
    { sessionId := session.sessionId, path := session.path, cipher := session.cipher
      sequences := [some session.txSequence] } hseal session.txSequence packet (by omega)
  refine prepareIpPackets_one hcurrent hsize ?_
  refine reliable_callBind nofun (prepareActive_fits hactive hfits) ?_
  refine avoids_bind.2 (avoids_mono ?_ (encryptWork_one _ hprepared))
  rintro results s' ⟨rfl, hs'⟩
  have hheap : s'.heap p = { s.heap p with
      active := some { session with txSequence := session.txSequence + 1 } } := by
    rw [hs']
    exact heap_setPeer s p _
  refine ⟨session.txSequence, prepared, rfl, ?_,
    ⟨⟨_, congrArg PeerState.active hheap, hid, hpath, hcipher, rfl⟩, by rw [hs']; rfl, by rw [hs']; rfl⟩,
    by rw [hheap], by rw [hs']; rfl⟩
  rw [← hprepared, prepareEncryptedDataPacket, prepareEncryptedDataPacket, hid, hpath, hcipher]

lemma sendPrepared_delivers (hs : s.Serves p line mtu routes expiresAt)
    (hprepared : prepareEncryptedDataPacket suite p line sequence packet = .ok prepared) :
    (sendPrepared prepared).run.avoids (execReliable suite node now) (· = .never)
      (fun r s' => r = .ok () ∧ s'.Serves p line mtu routes expiresAt ∧
        (s'.heap p).queue = (s.heap p).queue ∧
        ∃ datagram, s'.datagrams = datagram :: s.datagrams ∧ Carries suite p line packet datagram) s := by
  obtain ⟨⟨session, hactive, hid, hpath, hcipher, rfl⟩, rfl, rfl⟩ := hs
  obtain ⟨rfl, -, hprepPath⟩ := prepared_fields hprepared
  refine avoids_bindExcept.2 (avoids_lift.2 (reliable_call nofun (fun e => rfl) ?_))
  refine avoids_lift.2 (reliable_call nofun (fun e => rfl) ?_)
  refine ⟨rfl, ⟨?_, rfl, rfl⟩, ?_, _, rfl, sequence, prepared, hprepared, by rw [hprepPath]⟩
  · rw [heap_setPeer]
    refine ⟨_, congrArg (Option.map _) hactive, ?_⟩
    dsimp only
    split <;> exact ⟨hid, hpath, hcipher, rfl⟩
  · rw [heap_setPeer]

lemma sendPayload_delivers (hseal : Seals suite) (hs : s.Serves p line mtu routes expiresAt)
    (hcurrent : ¬ expiresAt ≤ now) (hmtu : mtu + 16 < 2 ^ 16)
    (hsize : checkSize node packet = .ok packet) (h : deliverable routes p mtu packet = true) :
    (sendPayload suite node p packet.bytes).run.avoids (execReliable suite node now) (· = .never)
      (fun r s' => r = .ok () ∧ s'.Serves p line mtu routes expiresAt ∧
        (s'.heap p).queue = (s.heap p).queue ∧
        ∃ datagram, s'.datagrams = datagram :: s.datagrams ∧ Carries suite p line packet datagram) s := by
  obtain ⟨hroute, hfits⟩ := of_decide_eq_true h
  refine sendPayload_routed (fun hother => absurd (hs.routes ▸ hroute) hother) fun _ => ?_
  refine avoids_bindExcept.2 (avoids_lift.2 (avoids_mono ?_
    (prepareIpPackets_delivers hseal hs hcurrent hmtu hsize hfits)))
  rintro results s₁ ⟨sequence, prepared, rfl, hprepared, hs₁, hqueue, hdatagrams⟩
  rw [← hqueue, ← hdatagrams]
  exact sendPrepared_delivers hs₁ hprepared

lemma sendPayload_refused (hs : s.Serves p line mtu routes expiresAt) (hcurrent : ¬ expiresAt ≤ now)
    (hsize : checkSize node packet = .ok packet) (h : deliverable routes p mtu packet = false) :
    (sendPayload suite node p packet.bytes).run.avoids (execReliable suite node now) (· = .never)
      (fun r s' => (∃ error, r = .error error) ∧ s' = s) s := by
  obtain ⟨⟨session, hactive, -, -, -, rfl⟩, rfl, rfl⟩ := hs
  refine sendPayload_routed (fun _ error => ⟨⟨error, rfl⟩, rfl⟩) fun hroute => ?_
  have hexceeds : session.pathMtu.confirmed < packet.bytes.length :=
    not_le.1 fun hfits => of_decide_eq_false h ⟨hroute, hfits⟩
  have hprepare : (prepareIpPackets suite node p [packet]).avoids (execReliable suite node now)
      (· = .never) (fun results s' => results = [.error .packetTooLarge] ∧ s' = s) s :=
    prepareIpPackets_one hcurrent hsize (reliable_callBind nofun
      (prepareActive_exceeds hactive hexceeds) ⟨rfl, rfl⟩)
  refine avoids_bindExcept.2 (avoids_lift.2 (avoids_mono ?_ hprepare))
  rintro results s' ⟨rfl, rfl⟩
  exact ⟨⟨_, rfl⟩, rfl⟩

lemma sendPayload_expired (hexpired : s.snapshotExpiresAt ≤ now)
    (hroute : s.routes.validateOutbound packet = .ok p.nodeId) :
    (sendPayload suite node p packet.bytes).run.avoids (execReliable suite node now) (· = .never)
      (fun r s' => (∃ error, r = .error error) ∧ (s'.heap p).queue = [] ∧
        s'.datagrams = s.datagrams) s := by
  refine sendPayload_routed (fun hother => absurd hroute hother) fun _ => ?_
  have hprepare : (prepareIpPackets suite node p [packet]).avoids (execReliable suite node now)
      (· = .never) (fun results s' => results = [.error .snapshotExpired] ∧
        (s'.heap p).queue = [] ∧ s'.datagrams = s.datagrams) s := by
    rw [prepareIpPackets, if_neg (List.cons_ne_nil _ _)]
    refine reliable_callBind (by simp) (fun e => rfl) ?_
    refine reliable_callBind (by simp) (fun e => rfl) ?_
    rw [if_pos hexpired]
    refine avoids_bind.2 (Within.avoids_of_wp (fun c hc => ?_)
      (holds_invalidation flushing_call p none true) (wp_mono ?_ (wp_reliable (invalidateSession_wp s p true))))
    · rintro rfl
      exact hc
    · rintro _ s' ⟨events, rfl⟩
      obtain ⟨sessions, hdrop⟩ := dropSession_eq s p
      exact ⟨rfl, congrArg PeerState.queue (heap_setPeer _ _ _), by rw [hdrop]; rfl⟩
  refine avoids_bindExcept.2 (avoids_lift.2 (avoids_mono ?_ hprepare))
  rintro results s' ⟨rfl, hqueue, hdatagrams⟩
  exact ⟨⟨_, rfl⟩, hqueue, hdatagrams⟩

/-! ### The whole queue -/

lemma popQueue_nil (hqueue : (s.heap p).queue = []) (e : Env) :
    execReliable suite node now e (.peer p .popQueue) s = some (none, s) := by
  have hsame : ({ s.heap p with queue := [] } : PeerState) = s.heap p := by rw [← hqueue]
  simp only [execReliable, exec, performPeer, hqueue, List.head?_nil, List.tail_nil, hsame,
    setPeer_heap]

lemma popQueue_cons (hqueue : (s.heap p).queue = (x :: packets).map IpPacket.bytes) (e : Env) :
    execReliable suite node now e (.peer p .popQueue) s = some (some x.bytes,
      s.setPeer p { s.heap p with queue := packets.map IpPacket.bytes }) := by
  simp only [execReliable, exec, performPeer, hqueue, List.map_cons, List.head?_cons, List.tail_cons]

lemma serves_popQueue (hs : s.Serves p line mtu routes expiresAt) (queue : List (List UInt8)) :
    (s.setPeer p { s.heap p with queue }).Serves p line mtu routes expiresAt := by
  refine ⟨?_, hs.routes, hs.expiresAt⟩
  rw [heap_setPeer]
  exact hs.active

/-- Before the snapshot expires, `flush_queue` sends the packets up to the first that is refused, drops
that one and leaves the others. -/
lemma flushQueue_leaves (hseal : Seals suite) (hcurrent : ¬ expiresAt ≤ now) (hmtu : mtu + 16 < 2 ^ 16)
    (hsizes : ∀ x ∈ packets, checkSize node x = .ok x) (hs : s.Serves p line mtu routes expiresAt)
    (hqueue : (s.heap p).queue = packets.map IpPacket.bytes) {fuel : ℕ} (hfuel : packets.length < fuel) :
    (flushQueue suite node fuel p).avoids (execReliable suite node now) (· = .never)
      (fun _ s' => (s'.heap p).queue =
          ((packets.dropWhile (deliverable routes p mtu)).tail).map IpPacket.bytes ∧
        ∃ datagrams, s'.datagrams = datagrams.reverse ++ s.datagrams ∧
          List.Forall₂ (Carries suite p line) (packets.takeWhile (deliverable routes p mtu)) datagrams)
      s := by
  induction packets generalizing s fuel with
  | nil =>
    obtain ⟨fuel, rfl⟩ := Nat.exists_eq_succ_of_ne_zero (Nat.ne_of_gt hfuel)
    exact reliable_callBind nofun (popQueue_nil hqueue) ⟨hqueue, [], rfl, .nil⟩
  | cons x packets ih =>
    obtain ⟨fuel, rfl⟩ := Nat.exists_eq_succ_of_ne_zero (Nat.ne_of_gt (Nat.zero_lt_of_lt hfuel))
    refine reliable_callBind nofun (popQueue_cons hqueue) ?_
    have hs₁ := serves_popQueue hs (packets.map IpPacket.bytes)
    have hsize := hsizes x (.head _)
    cases hx : deliverable routes p mtu x with
    | true =>
      refine avoids_bind.2 (avoids_mono ?_
        (sendPayload_delivers hseal hs₁ hcurrent hmtu hsize hx))
      rintro r s₂ ⟨rfl, hs₂, hqueue₂, datagram, hdatagram, hcarries⟩
      rw [heap_setPeer] at hqueue₂
      refine avoids_mono ?_ (ih (fun y hy => hsizes y (.tail _ hy)) hs₂ hqueue₂
        (Nat.lt_of_succ_lt_succ hfuel))
      rintro _ s₃ ⟨hleft, datagrams, hdatagrams, hall⟩
      rw [List.dropWhile_cons_of_pos hx, List.takeWhile_cons_of_pos hx]
      refine ⟨hleft, datagram :: datagrams, ?_, .cons hcarries hall⟩
      rw [hdatagrams, hdatagram, List.reverse_cons, List.append_assoc]
      rfl
    | false =>
      refine avoids_bind.2 (avoids_mono ?_ (sendPayload_refused hs₁ hcurrent hsize hx))
      rintro r s₂ ⟨⟨error, rfl⟩, rfl⟩
      rw [List.dropWhile_cons_of_neg (by simp [hx]), List.takeWhile_cons_of_neg (by simp [hx])]
      exact ⟨congrArg PeerState.queue (heap_setPeer _ _ _), [], rfl, .nil⟩

lemma flushQueue_expired (hexpired : s.snapshotExpiresAt ≤ now)
    (hqueue : (s.heap p).queue = (x :: packets).map IpPacket.bytes) (fuel : ℕ) :
    (flushQueue suite node (fuel + 1) p).avoids (execReliable suite node now) (· = .never)
      (fun _ s' => s'.datagrams = s.datagrams ∧ (s'.heap p).queue =
        if s.routes.validateOutbound x = .ok p.nodeId then [] else packets.map IpPacket.bytes) s := by
  refine reliable_callBind nofun (popQueue_cons hqueue) ?_
  by_cases hroute : s.routes.validateOutbound x = .ok p.nodeId
  · refine avoids_bind.2 (avoids_mono ?_ (sendPayload_expired hexpired hroute))
    rintro r s' ⟨⟨error, rfl⟩, hempty, hdatagrams⟩
    rw [if_pos hroute]
    exact ⟨hdatagrams, hempty⟩
  · have hother : (sendPayload suite node p x.bytes).run.avoids (execReliable suite node now)
        (· = .never) (fun r s' => (∃ error, r = .error error) ∧
          s' = s.setPeer p { s.heap p with queue := packets.map IpPacket.bytes })
        (s.setPeer p { s.heap p with queue := packets.map IpPacket.bytes }) :=
      sendPayload_routed (fun _ error => ⟨⟨error, rfl⟩, rfl⟩) fun h => absurd h hroute
    refine avoids_bind.2 (avoids_mono ?_ hother)
    rintro r s' ⟨⟨error, rfl⟩, rfl⟩
    rw [if_neg hroute]
    exact ⟨rfl, congrArg PeerState.queue (heap_setPeer s p _)⟩

end Session

/-! ### Lists with one failure at the end -/

section Leftover

variable {α : Type} {d : α → Bool}

variable {l : List α}

lemma leftover_eq_nil : (l.dropWhile d).tail = [] ↔ ∀ x ∈ l.dropLast, d x = true := by
  induction l with
  | nil => simp
  | cons a l ih =>
    cases ha : d a with
    | true =>
      rw [List.dropWhile_cons_of_pos ha, ih]
      cases l with
      | nil => simp
      | cons b l => simp [ha]
    | false =>
      rw [List.dropWhile_cons_of_neg (by simp [ha]), List.tail_cons]
      cases l with
      | nil => simp
      | cons b l => simp [ha]

lemma takeWhile_eq_filter (h : ∀ x ∈ l.dropLast, d x = true) : l.takeWhile d = l.filter d := by
  induction l with
  | nil => rfl
  | cons a l ih =>
    cases l with
    | nil => cases ha : d a <;> simp [ha]
    | cons b l =>
      rw [List.dropLast_cons_cons] at h
      obtain ⟨ha, hrest⟩ := List.forall_mem_cons.1 h
      rw [List.takeWhile_cons_of_pos ha, List.filter_cons_of_pos ha, ih hrest]

end Leftover

/-! ### After `establish` -/

/-- The confirmed MTU of a session when it starts. -/
def Node.startMtu (node : Node) : ℕ :=
  (PathMtuState.new node.safeVirtualMtu node.config.virtualMtu).confirmed

lemma startMtu_small (node : Node) : node.startMtu + 16 < 2 ^ 16 := by
  have h : node.startMtu ≤ 1190 := by
    unfold Node.startMtu PathMtuState.new Node.safeVirtualMtu defaultVirtualMtu
    dsimp only
    omega
  omega

/-- Nothing is left in the queue, and every packet that can be delivered was sent, in order. -/
def Delivered (suite : Suite) (node : Node) (s s' : NodeState) (p : PeerRef) (line : PreparedSession)
    (packets : List IpPacket) : Prop :=
  (s'.heap p).queue = [] ∧ ∃ datagrams, s'.datagrams = datagrams.reverse ++ s.datagrams ∧
    List.Forall₂ (Carries suite p line) (packets.filter (deliverable s.routes p node.startMtu)) datagrams

lemma delivered_unsent {packets : List IpPacket} (h : s'.datagrams = s.datagrams) :
    Delivered suite node s s' p line packets ↔ (s'.heap p).queue = [] ∧
      ∀ x ∈ packets, deliverable s.routes p node.startMtu x = false := by
  refine and_congr_right fun _ => ?_
  constructor
  · rintro ⟨datagrams, hsent, hall⟩
    rw [h, List.self_eq_append_left, List.reverse_eq_nil_iff] at hsent
    rw [hsent, List.forall₂_nil_right_iff, List.filter_eq_nil_iff] at hall
    exact fun x hx => Bool.eq_false_iff.2 (hall x hx)
  · intro hnone
    refine ⟨[], h, ?_⟩
    rw [List.filter_eq_nil_iff.2 fun x hx => by simp [hnone x hx]]
    exact .nil

/-- No packet stands in the way of one that can be delivered: only the last may be refused.  Once the
snapshot has expired, the first packet for the peer ends the session. -/
def Unblocked (node : Node) (now : UInt64) (s : NodeState) (p : PeerRef) : List IpPacket → Prop
  | [] => True
  | x :: packets =>
    if s.snapshotExpiresAt ≤ now then
      if s.routes.validateOutbound x = .ok p.nodeId then
        ∀ y ∈ x :: packets, deliverable s.routes p node.startMtu y = false
      else packets = []
    else ∀ y ∈ (x :: packets).dropLast, deliverable s.routes p node.startMtu y = true

section Establish

variable {line : PreparedSession} {mtu : ℕ} {routes : RouteTable} {expiresAt : UInt64}
  {queue : List (List UInt8)} {datagrams : List (SocketAddr × List UInt8)}

/-- The session has started and the queue is still to be flushed. -/
structure Ready (p : PeerRef) (line : PreparedSession) (mtu : ℕ) (routes : RouteTable)
    (expiresAt : UInt64) (queue : List (List UInt8)) (datagrams : List (SocketAddr × List UInt8))
    (s : NodeState) : Prop where
  serves : s.Serves p line mtu routes expiresAt
  queue : (s.heap p).queue = queue
  datagrams : s.datagrams = datagrams

lemma ready_step {α : Type} {op : PeerOp} {f : op.Response → Task α} {Q : α → NodeState → Prop}
    (hop : ∀ e, (performPeer suite node e (s.heap p) op).2.active = (s.heap p).active ∧
      (performPeer suite node e (s.heap p) op).2.queue = (s.heap p).queue)
    (hs : Ready p line mtu routes expiresAt queue datagrams s)
    (h : ∀ r s', Ready p line mtu routes expiresAt queue datagrams s' →
      (f r).avoids (execReliable suite node now) (· = .never) Q s') :
    (peerCall p op >>= f).avoids (execReliable suite node now) (· = .never) Q s := by
  refine avoids_callBind.2 ⟨nofun, fun e r s' he => h r s' ?_⟩
  obtain ⟨-, rfl⟩ := exec_peer he
  obtain ⟨hactive, hqueue⟩ := hop { e with unixTime := now, fault := none }
  refine ⟨⟨?_, hs.serves.routes, hs.serves.expiresAt⟩, ?_, hs.datagrams⟩
  · rw [heap_setPeer, hactive]
    exact hs.serves.active
  · rw [heap_setPeer, hqueue]
    exact hs.queue

lemma establish_ready {sessionId : UInt64} {path : SocketAddr} {cipher : SessionCipher}
    {expected : PeerInfo} {handshake : NoiseHandshake} (hfree : (s.heap p).active = none)
    (hinfo : (s.heap p).info = expected) {fuel : ℕ} {Q : PUnit → NodeState → Prop}
    (h : ∀ s', Ready p ⟨sessionId, path, cipher, []⟩ node.startMtu s.routes s.snapshotExpiresAt
        (s.heap p).queue s.datagrams s' →
      (flushQueue suite node fuel p).avoids (execReliable suite node now) (· = .never) Q s') :
    (establish suite node fuel p sessionId path cipher expected handshake).avoids
      (execReliable suite node now) (· = .never) Q s := by
  refine avoids_callBind.2 ⟨(by simp), fun e established s₁ he => ?_⟩
  have hestablish : s.establish node { e with unixTime := now, fault := none } p sessionId path cipher
      expected handshake = (established, s₁) := Option.some.inj he
  rw [NodeState.establish, if_neg (by simp [hfree, hinfo])] at hestablish
  obtain ⟨rfl, rfl⟩ := Prod.mk.inj hestablish
  refine avoids_callBind.2 ⟨(by simp), fun _ _ s₂ hinsert => ?_⟩
  have hs₂ := (Prod.mk.inj (Option.some.inj hinsert)).2
  have hheap : s₂.heap p = { s.heap p with
      active := some (freshSession node { e with unixTime := now, fault := none } sessionId path cipher
        expected handshake) } := by
    rw [← hs₂]
    exact heap_setPeer s p _
  have hready : Ready p ⟨sessionId, path, cipher, []⟩ node.startMtu s.routes s.snapshotExpiresAt
      (s.heap p).queue s.datagrams s₂ := by
    refine ⟨⟨⟨_, congrArg PeerState.active hheap, rfl, rfl, rfl, rfl⟩, ?_, ?_⟩,
      by rw [hheap], ?_⟩
    all_goals
      rw [← hs₂]
      rfl
  refine ready_step (fun e => ?_) hready fun _ s₃ hready => ?_
  · simp only [performPeer, PeerState.recordPath]
    split <;> exact ⟨rfl, rfl⟩
  refine ready_step (fun e => ⟨rfl, rfl⟩) hready fun _ s₄ hready => ?_
  refine ready_step (fun e => ⟨rfl, rfl⟩) hready fun _ s₅ hready => ?_
  refine ready_step (fun e => ⟨rfl, rfl⟩) hready fun _ s₆ hready => ?_
  refine ready_step (fun e => ⟨rfl, rfl⟩) hready fun _ s₇ hready => ?_
  refine ready_step (fun e => ⟨rfl, rfl⟩) hready fun info s₈ hready => ?_
  refine avoids_callBind.2 ⟨(by simp), fun e _ s₉ he => ?_⟩
  obtain ⟨-, rfl⟩ := Prod.mk.inj (Option.some.inj he)
  refine h _ ?_
  -- the event is taken or not
  split
  · exact ⟨⟨hready.serves.active, hready.serves.routes, hready.serves.expiresAt⟩, hready.queue,
      hready.datagrams⟩
  · exact hready

end Establish

/-- **A queue is flushed when its session starts** exactly if no packet stands in the way of another.
The packets that `send_ip` queued are not too large for the node (`checkSize`); whether they are still
routed to the peer and fit the path decides `deliverable`. -/
theorem queue_delivered_iff (suite : Suite) (node : Node) (hseal : Seals suite) (fuel : ℕ)
    (now : UInt64) (s : NodeState) (p : PeerRef) (sessionId : UInt64) (path : SocketAddr)
    (cipher : SessionCipher) (expected : PeerInfo) (handshake : NoiseHandshake)
    (packets : List IpPacket) (hqueue : (s.heap p).queue = packets.map IpPacket.bytes)
    (hsizes : ∀ x ∈ packets, checkSize node x = .ok x) (hfuel : packets.length < fuel)
    (hfree : (s.heap p).active = none) (hinfo : (s.heap p).info = expected) :
    (establish suite node fuel p sessionId path cipher expected handshake).avoids
      (execReliable suite node now) (· = .never)
      (fun _ s' => Delivered suite node s s' p ⟨sessionId, path, cipher, []⟩ packets ↔
        Unblocked node now s p packets) s := by
  refine establish_ready hfree hinfo fun s₁ hready => ?_
  obtain ⟨hserves, hqueue₁, hdatagrams⟩ := hready
  rw [hqueue] at hqueue₁
  by_cases hexpired : s.snapshotExpiresAt ≤ now
  · obtain ⟨fuel, rfl⟩ := Nat.exists_eq_succ_of_ne_zero (Nat.ne_of_gt (Nat.zero_lt_of_lt hfuel))
    cases packets with
    | nil =>
      exact reliable_callBind nofun (popQueue_nil hqueue₁)
        (iff_of_true ⟨hqueue₁, [], hdatagrams, .nil⟩ trivial)
    | cons x packets =>
      refine avoids_mono ?_ (flushQueue_expired (by rw [hserves.expiresAt]; exact hexpired)
        hqueue₁ fuel)
      rintro _ s' ⟨hsent, hleft⟩
      rw [hdatagrams] at hsent
      rw [hserves.routes] at hleft
      rw [delivered_unsent hsent, Unblocked, if_pos hexpired, hleft]
      split
      · simp
      · rename_i hroute
        have hfirst : deliverable s.routes p node.startMtu x = false :=
          decide_eq_false fun h => hroute h.1
        rw [List.map_eq_nil_iff]
        refine and_iff_left_of_imp ?_
        rintro rfl y hy
        rwa [List.mem_singleton.1 hy]
  · refine avoids_mono ?_ (flushQueue_leaves hseal hexpired (startMtu_small node) hsizes hserves
      hqueue₁ hfuel)
    rintro _ s' ⟨hleft, datagrams, hsent, hall⟩
    rw [hdatagrams] at hsent
    have hunblocked : Unblocked node now s p packets ↔
        ∀ y ∈ packets.dropLast, deliverable s.routes p node.startMtu y = true := by
      cases packets with
      | nil => simp [Unblocked]
      | cons x packets => rw [Unblocked, if_neg hexpired]
    rw [hunblocked]
    constructor
    · rintro ⟨hempty, -⟩
      rw [hempty] at hleft
      exact leftover_eq_nil.1 (List.map_eq_nil_iff.1 hleft.symm)
    · intro hunblocked
      rw [takeWhile_eq_filter hunblocked] at hall
      rw [leftover_eq_nil.2 hunblocked] at hleft
      exact ⟨hleft, datagrams, hsent, hall⟩

section Demo

/-- An IPv4 packet of 1200 bytes, more than a path takes before it is probed. -/
def demoLarge : List UInt8 :=
  let header (check : ℕ) : List UInt8 :=
    [0x45, 0, 4, 176, 0, 0, 0, 0, 0, 0] ++ beBytes 2 check ++ [10, 0, 0, 5, 10, 0, 0, 1]
  header (checksum (header 0)).toNat ++ List.replicate 1180 0

def demoBacklog : List (Pool.Move Env Request) :=
  demoKnown ++ demoAlone 0 (.sendIp demoLarge) 10 ++ demoAlone 0 (.sendIp (demoIp 5 1)) 10

def demoBacklogRun (more : List (Pool.Move Env Request)) :
    Option (Pool.Config Section Response NodeState Unit) :=
  (plainPool demoSuite demoWide 3).runMoves (fun _ _ => true)
    ((plainPool demoSuite demoWide 3).initial (NodeState.new demoWide fun _ =>
      PeerState.withOnline demoSuite (demoInfo 0) false none)) (demoBacklog ++ more)

def demoBacklogEnd : {cfg // demoBacklogRun [] = some cfg ∧
      (cfg.shared.heap demoRef).queue = [demoLarge, demoIp 5 1] ∧ (cfg.shared.heap demoRef).active = none ∧
      (cfg.shared.heap demoRef).info = demoInfo 1 ∧ (¬ cfg.shared.snapshotExpiresAt ≤ 10) ∧
      (IpPacket.parse demoLarge).toOption.any fun x => (IpPacket.parse (demoIp 5 1)).toOption.any
        fun y => decide (checkSize demoWide x = .ok x ∧ checkSize demoWide y = .ok y ∧
          deliverable cfg.shared.routes demoRef demoWide.startMtu x = false ∧
          deliverable cfg.shared.routes demoRef demoWide.startMtu y = true)} :=
  Pool.found _ (by decide +kernel)

lemma bytes_of_toOption {bytes : List UInt8} {z : IpPacket}
    (hz : (IpPacket.parse bytes).toOption = some z) : z.bytes = bytes := by
  cases h : IpPacket.parse bytes with
  | ok w =>
    rw [h] at hz
    obtain rfl := Option.some.inj hz
    exact IpPacket.bytes_of_parse h
  | error error =>
    rw [h] at hz
    cases hz

lemma demoBacklog_state : ∃ cfg x y, demoBacklogRun [] = some cfg ∧
    x.bytes = demoLarge ∧ y.bytes = demoIp 5 1 ∧
    (cfg.shared.heap demoRef).queue = [x, y].map IpPacket.bytes ∧
    (cfg.shared.heap demoRef).active = none ∧ (cfg.shared.heap demoRef).info = demoInfo 1 ∧
    (¬ cfg.shared.snapshotExpiresAt ≤ 10) ∧ (∀ z ∈ [x, y], checkSize demoWide z = .ok z) ∧
    deliverable cfg.shared.routes demoRef demoWide.startMtu x = false ∧
    deliverable cfg.shared.routes demoRef demoWide.startMtu y = true := by
  obtain ⟨cfg, hrun, hqueue, hactive, hinfo, hcurrent, hany⟩ := demoBacklogEnd
  simp only [decide_eq_true_eq, Option.any_eq_true] at hany
  obtain ⟨x, hx, y, hy, hxsize, hysize, hlarge, hsmall⟩ := hany
  refine ⟨cfg, x, y, hrun, bytes_of_toOption hx, bytes_of_toOption hy, ?_, hactive, hinfo, hcurrent, ?_,
    hlarge, hsmall⟩
  · rw [hqueue, List.map_cons, List.map_cons, bytes_of_toOption hx, bytes_of_toOption hy]
    rfl
  · simp [hxsize, hysize]

/-- The large packet is dropped when the session starts, and the small one behind it stays in the queue:
nothing was encrypted. -/
theorem queued_packet_stuck : ∃ before after, demoBacklogRun [] = some before ∧
    (before.shared.heap demoRef).queue = [demoLarge, demoIp 5 1] ∧
    demoBacklogRun (demoAlone 0 (.datagram (demoHello 1 1 7) demoPath) 29) = some after ∧
    after.at 0 = none ∧ (after.shared.heap demoRef).active.isSome ∧
    (after.shared.heap demoRef).queue = [demoIp 5 1] ∧ after.shared.encrypted = [] ∧
    ∃ y, IpPacket.parse (demoIp 5 1) = .ok y ∧
      deliverable after.shared.routes demoRef demoWide.startMtu y = true := by
  obtain ⟨before, x, y, hbefore, hx, hy, hqueue, -⟩ := demoBacklog_state
  have hfacts : (demoBacklogRun (demoAlone 0 (.datagram (demoHello 1 1 7) demoPath) 29)).map (fun cfg =>
      ((cfg.at 0).isNone, decide ((cfg.shared.heap demoRef).active.isSome ∧
        (cfg.shared.heap demoRef).queue = [demoIp 5 1] ∧ cfg.shared.encrypted = []),
        (IpPacket.parse (demoIp 5 1)).toOption.any
          (deliverable cfg.shared.routes demoRef demoWide.startMtu))) = some (true, true, true) := by
    decide +kernel
  obtain ⟨after, hafter, hfacts⟩ := Option.map_eq_some_iff.1 hfacts
  simp only [Prod.mk.injEq, decide_eq_true_eq] at hfacts
  obtain ⟨hdone, ⟨hactive, hleft, hencrypted⟩, hsmall⟩ := hfacts
  have hparse : IpPacket.parse (demoIp 5 1) = .ok y := hy ▸ IpPacket.parse_bytes y
  rw [hparse] at hsmall
  refine ⟨before, after, hbefore, ?_, hafter, Option.isNone_iff_eq_none.1 hdone, hactive, hleft,
    hencrypted, y, hparse, hsmall⟩
  rw [hqueue, List.map_cons, List.map_cons, hx, hy]
  rfl

def demoOrderedEnd : {cfg // (plainPool demoSuite demoWide 3).Reachable (fun _ _ => True)
      ((plainPool demoSuite demoWide 3).initial (NodeState.new demoWide fun _ =>
        PeerState.withOnline demoSuite (demoInfo 0) false none)) cfg ∧
      (cfg.shared.heap demoRef).queue = [demoIp 5 1, demoLarge] ∧ (cfg.shared.heap demoRef).active = none ∧
      (cfg.shared.heap demoRef).info = demoInfo 1 ∧ (¬ cfg.shared.snapshotExpiresAt ≤ 10) ∧
      (IpPacket.parse demoLarge).toOption.any fun x => (IpPacket.parse (demoIp 5 1)).toOption.any
        fun y => decide (checkSize demoWide x = .ok x ∧ checkSize demoWide y = .ok y ∧
          deliverable cfg.shared.routes demoRef demoWide.startMtu y = true)} :=
  Pool.Spec.reach (fun _ _ => true) (fun _ _ _ => trivial)
    (demoKnown ++ demoAlone 0 (.sendIp (demoIp 5 1)) 10 ++ demoAlone 0 (.sendIp demoLarge) 10)
    (by decide +kernel)

theorem queue_delivered_iff_ordered : ∃ cfg packets, (plainPool demoSuite demoWide 3).Reachable (fun _ _ => True)
      ((plainPool demoSuite demoWide 3).initial (NodeState.new demoWide fun _ =>
        PeerState.withOnline demoSuite (demoInfo 0) false none)) cfg ∧
    (cfg.shared.heap demoRef).queue = [demoIp 5 1, demoLarge] ∧
    (establish demoSuite demoWide 3 demoRef 7 demoPath ⟨demoKey, demoKey⟩ (demoInfo 1)
      (NoiseHandshake.responder demoWide.identity)).avoids (execReliable demoSuite demoWide 10)
      (· = .never) (fun _ s' => Delivered demoSuite demoWide cfg.shared s' demoRef
        ⟨7, demoPath, ⟨demoKey, demoKey⟩, []⟩ packets) cfg.shared := by
  obtain ⟨cfg, hreach, hqueue, hactive, hinfo, hcurrent, hany⟩ := demoOrderedEnd
  simp only [decide_eq_true_eq, Option.any_eq_true] at hany
  obtain ⟨x, hx, y, hy, hxsize, hysize, hsmall⟩ := hany
  have hpackets : (cfg.shared.heap demoRef).queue = [y, x].map IpPacket.bytes := by
    rw [hqueue, List.map_cons, List.map_cons, bytes_of_toOption hx, bytes_of_toOption hy]
    rfl
  have hiff := queue_delivered_iff demoSuite demoWide (fun _ _ _ _ _ => rfl) 3 10 cfg.shared demoRef 7
    demoPath ⟨demoKey, demoKey⟩ (demoInfo 1) (NoiseHandshake.responder demoWide.identity) [y, x] hpackets
    (by simp [hxsize, hysize]) (Nat.lt_succ_self 2) hactive hinfo
  refine ⟨cfg, [y, x], hreach, hqueue, avoids_mono (fun _ s' h => h.2 ?_) hiff⟩
  rw [Unblocked, if_neg hcurrent]
  simpa using hsmall

end Demo

end Vela.Core
