import Vela.Core.PathMtu
import Vela.Core.Holding
import Vela.Core.Frames

/-!
# Where a confirmed path MTU comes from

A run is followed by a history of what happens to the path of a session: it is adopted, probes are
prepared for it, and acknowledgements arrive.

* `raised_mtu_owned` — in every such run, an MTU above the conservative one was probed on the current
  path since that path was adopted, and acknowledged from it.
-/

namespace Vela.Core

open Vela.Proto Vela.Crypto Vela.Ip Codec

/-! ### The history -/

inductive MtuFact where
  /-- a session begins on the path, or moves to it -/
  | adopted (p : PeerRef) (path : SocketAddr)
  /-- a probe is encrypted, to be sent to the path -/
  | prepared (p : PeerRef) (path : SocketAddr) (target : ℕ) (nonce : Vector UInt8 mtuProbeNonceLen)
  /-- an acknowledgement arrives that decrypts under the keys of the session -/
  | acknowledged (p : PeerRef) (source : SocketAddr) (nonce : List UInt8)
  deriving DecidableEq

def MtuFact.peer : MtuFact → PeerRef
  | .adopted p _ | .prepared p _ _ _ | .acknowledged p _ _ => p

/-- The paths that the packets of a run move the session to, the latest first. -/
def adoptions (p : PeerRef) : List CommitItem → List (Option Committed) → List MtuFact
  | item :: items, some committed :: results =>
    adoptions p items results ++ if committed.pathChanged then [.adopted p item.source] else []
  | _ :: items, none :: results => adoptions p items results
  | _, _ => []

/-- The nonce of an acknowledgement that decrypts. -/
def ackNonce (suite : Suite) (peer : PeerState) (packet : WirePacket) : Option (List UInt8) :=
  match peer.active with
  | none => none
  | some session =>
    if packet.header.packetType = .mtuProbeAck ∧ session.sessionId = packet.header.sessionId then
      match session.cipher.decrypt suite packet.header.sequence (encodedHeader packet.header)
          packet.payload with
      | .error _ => none
      | .ok plaintext => some (plaintext.take mtuProbeNonceLen)
    else none

/-- The probe that a peer waits for. -/
def PeerState.pendingProbe (peer : PeerState) : Option PendingMtuProbe :=
  peer.active.bind fun session => session.pathMtu.pending

/-- A probe that is sent. -/
def preparedOf (p : PeerRef) : Option Reply → Option PendingMtuProbe → List MtuFact
  | some reply, some probe => [.prepared p reply.path probe.target probe.nonce]
  | _, _ => []

/-- An acknowledgement that decrypts. -/
def acknowledgedOf (p : PeerRef) (source : SocketAddr) : Option (List UInt8) → List MtuFact
  | some nonce => [.acknowledged p source nonce]
  | none => []

/-- What a section adds to the history. -/
def trailOf (suite : Suite) (s : NodeState) : (c : Section) → Response c → NodeState → List MtuFact
  | .establish p _ path _ _ _, established, _ => if established then [.adopted p path] else []
  | .peer p (.commitRun _ _ items), results, _ => adoptions p items (results.getD [])
  | .peer p .mtuProbe, reply, s' => preparedOf p reply (s'.heap p).pendingProbe
  | .peer p (.handleData _ packet source), _, _ =>
    acknowledgedOf p source (ackNonce suite (s.heap p) packet)
  | _, _, _ => []

lemma trailOf_other (suite : Suite) (s s' : NodeState) (p : PeerRef) {op : PeerOp} (r : op.Response)
    (hcommit : ∀ id candidates items, op ≠ .commitRun id candidates items) (hprobe : op ≠ .mtuProbe)
    (hdata : ∀ info packet source, op ≠ .handleData info packet source) :
    trailOf suite s (.peer p op) r s' = [] := by
  cases op with
  | commitRun id candidates items => exact absurd rfl (hcommit id candidates items)
  | mtuProbe => exact absurd rfl hprobe
  | handleData info packet source => exact absurd rfl (hdata info packet source)
  | _ => rfl

/-- Whether a probe with the nonce was prepared for the peer. -/
def nonceUsed (p : PeerRef) (nonce : List UInt8) (trail : List MtuFact) : Bool :=
  trail.any fun fact =>
    match fact with
    | .prepared q _ _ used => q == p && used.toList == nonce
    | _ => false

/-- The nonce of a probe is new; an acknowledgement that decrypts answers a probe. -/
def honest (suite : Suite) (x : Pool.Config Section Response NodeState Unit × List MtuFact) :
    Pool.Move Env Request → Bool
  | .spawn _ _ => true
  | .step t e =>
    match x.1.at t with
    | some (.peer p .mtuProbe) => !nonceUsed p (e.nonce mtuProbeNonceLen).toList x.2
    | some (.peer p (.handleData _ packet _)) =>
      (ackNonce suite (x.1.shared.heap p) packet).all fun nonce => nonceUsed p nonce x.2
    | _ => true

variable {p : PeerRef} {trail : List MtuFact} {node : Node} {session : ActiveSession}

lemma mem_of_nonceUsed {nonce : List UInt8} (h : nonceUsed p nonce trail = true) :
    ∃ path target used, .prepared p path target used ∈ trail ∧ used.toList = nonce := by
  obtain ⟨fact, hmem, hfact⟩ := List.any_eq_true.1 h
  cases fact with
  | adopted _ _ | acknowledged _ _ _ => cases hfact
  | prepared q path target used =>
    rw [Bool.and_eq_true, beq_iff_eq, beq_iff_eq] at hfact
    obtain ⟨rfl, hnonce⟩ := hfact
    exact ⟨path, target, used, hmem, hnonce⟩

lemma nonceUsed_of_mem {path : SocketAddr} {target : ℕ} {nonce : Vector UInt8 mtuProbeNonceLen}
    (h : .prepared p path target nonce ∈ trail) : nonceUsed p nonce.toList trail = true :=
  List.any_eq_true.2 ⟨_, h, by simp⟩

/-! ### What the history says of a session -/

/-- A probe of the size was prepared for the path and then acknowledged from it. -/
def Vouches (p : PeerRef) (path : SocketAddr) (target : ℕ) (facts : List MtuFact) : Prop :=
  ∃ nonce later earlier, facts = later ++ .acknowledged p path nonce.toList :: earlier ∧
    .prepared p path target nonce ∈ earlier

/-- What has happened since the session's path was adopted. -/
structure Owned (node : Node) (trail : List MtuFact) (p : PeerRef) (path : SocketAddr)
    (state : PathMtuState) (facts older : List MtuFact) : Prop where
  split : trail = facts ++ .adopted p path :: older
  latest : ∀ other, .adopted p other ∉ facts
  bounded : state.Bounded node.config.virtualMtu
  raised : node.safeVirtualMtu < state.confirmed →
    ∃ target, state.confirmed ≤ target ∧ Vouches p path target facts
  pending : ∀ probe, state.pending = some probe → .prepared p path probe.target probe.nonce ∈ facts ∨
    nonceUsed p probe.nonce.toList trail = false

section Owned

variable {node : Node} {trail facts older : List MtuFact} {p : PeerRef} {path : SocketAddr}
  {state : PathMtuState}

lemma Vouches.append {target : ℕ} (h : Vouches p path target facts) (new : List MtuFact) :
    Vouches p path target (new ++ facts) := by
  obtain ⟨nonce, later, earlier, rfl, hprepared⟩ := h
  exact ⟨nonce, new ++ later, earlier, by rw [List.append_assoc], hprepared⟩

lemma owned_new (node : Node) (trail : List MtuFact) (p : PeerRef) (path : SocketAddr) :
    Owned node (.adopted p path :: trail) p path
      (PathMtuState.new node.safeVirtualMtu node.config.virtualMtu) [] trail where
  split := rfl
  latest _ := List.not_mem_nil
  bounded := PathMtuState.bounded_new _ _
  raised h := absurd h (Nat.not_lt.2 (min_le_left _ _))
  pending := nofun

lemma Owned.append (h : Owned node trail p path state facts older) (new : List MtuFact)
    (hadopted : ∀ other, .adopted p other ∉ new)
    (hprepared : ∀ other target nonce, .prepared p other target nonce ∉ new) :
    Owned node (new ++ trail) p path state (new ++ facts) older where
  split := by rw [h.split, List.append_assoc]
  latest other hmem := (List.mem_append.1 hmem).elim (hadopted other) (h.latest other)
  bounded := h.bounded
  raised hlt := by
    obtain ⟨target, hle, hvouches⟩ := h.raised hlt
    exact ⟨target, hle, hvouches.append new⟩
  pending probe hprobe := by
    refine (h.pending probe hprobe).imp (List.mem_append_right new) fun hunused => ?_
    rw [← Bool.not_eq_true] at hunused ⊢
    intro hused
    obtain ⟨other, target, nonce, hmem, hnonce⟩ := mem_of_nonceUsed hused
    rcases List.mem_append.1 hmem with hnew | hold
    · exact hprepared other target nonce hnew
    · exact hunused (hnonce ▸ nonceUsed_of_mem hold)

lemma Owned.poll (h : Owned node trail p path state facts older) (now : Instant)
    {nonce : Vector UInt8 mtuProbeNonceLen} (hfresh : nonceUsed p nonce.toList trail = false) :
    Owned node trail p path (state.pollProbe now nonce).2 facts older := by
  have hbounded := h.bounded.step node.safeVirtualMtu (.poll now nonce)
  obtain ⟨heq, -⟩ | ⟨target, -, -, heq⟩ | ⟨probe, hpending, -, -, heq⟩ | ⟨probe, -, -, -, heq⟩ :=
    PathMtuState.pollProbe_cases state now nonce
  · rwa [heq]
  · refine ⟨h.split, h.latest, hbounded, ?_, ?_⟩
    · rw [heq]
      exact h.raised
    · rw [heq]
      rintro _ ⟨⟩
      exact .inr hfresh
  · refine ⟨h.split, h.latest, hbounded, ?_, ?_⟩
    · rw [heq]
      exact h.raised
    · rw [heq]
      rintro _ ⟨⟩
      exact h.pending probe hpending
  · refine ⟨h.split, h.latest, hbounded, ?_, fun probe' hpending => ?_⟩
    · rw [heq, PathMtuState.startProbe_confirmed]
      exact h.raised
    · rw [heq] at hpending
      cases hnext : (state.giveUp probe).next with
      | none =>
        rw [PathMtuState.startProbe_none hnext] at hpending
        cases hpending
      | some target =>
        rw [PathMtuState.startProbe_some hnext] at hpending
        cases hpending
        exact .inr hfresh

lemma Owned.prepare (h : Owned node trail p path state facts older) {probe : PendingMtuProbe}
    (hpending : state.pending = some probe) :
    Owned node (.prepared p path probe.target probe.nonce :: trail) p path state
      (.prepared p path probe.target probe.nonce :: facts) older where
  split := by rw [h.split, List.cons_append]
  latest other hmem := by
    rcases List.mem_cons.1 hmem with heq | hmem
    · cases heq
    · exact h.latest other hmem
  bounded := h.bounded
  raised hlt := by
    obtain ⟨target, hle, hvouches⟩ := h.raised hlt
    exact ⟨target, hle, hvouches.append [_]⟩
  pending probe' hpending' := by
    obtain rfl := Option.some.inj (hpending.symm.trans hpending')
    exact .inl List.mem_cons_self

lemma Owned.acknowledge (h : Owned node trail p path state facts older) {nonce : List UInt8}
    (hused : nonceUsed p nonce trail = true) (peerMaxMtu : ℕ) :
    Owned node (.acknowledged p path nonce :: trail) p path (state.acknowledge nonce peerMaxMtu).2
      (.acknowledged p path nonce :: facts) older := by
  have hbounded := h.bounded.step node.safeVirtualMtu (.acknowledge nonce peerMaxMtu)
  have hkept : Owned node (.acknowledged p path nonce :: trail) p path state
      (.acknowledged p path nonce :: facts) older :=
    h.append [.acknowledged p path nonce] (by simp) (by simp)
  -- the outstanding probe was prepared on this path, since its nonce was used
  have hvouches : ∀ probe, state.pending = some probe → nonce = probe.nonce.toList →
      Vouches p path probe.target (.acknowledged p path nonce :: facts) := by
    rintro probe hpending rfl
    refine ⟨probe.nonce, [], facts, rfl, (h.pending probe hpending).resolve_right ?_⟩
    rw [hused]
    exact nofun
  obtain ⟨heq, -⟩ | ⟨probe, hpending, hnonce, hless, heq⟩ | ⟨probe, hpending, hnonce, -, heq⟩ :=
    PathMtuState.acknowledge_cases state nonce peerMaxMtu
  · rwa [heq]
  · refine ⟨hkept.split, hkept.latest, hbounded, fun _ => ⟨probe.target, ?_, hvouches probe hpending hnonce⟩,
      ?_⟩
    · rw [heq]
      exact (min_le_left _ _).trans hless.le
    · rw [heq]
      exact nofun
  · refine ⟨hkept.split, hkept.latest, hbounded, fun _ => ⟨probe.target, ?_, hvouches probe hpending hnonce⟩,
      ?_⟩
    · rw [heq]
      exact max_le (h.bounded.pending probe hpending).1.le le_rfl
    · rw [heq]
      exact nofun

end Owned

/-- The history accounts for the session. -/
def Owns (node : Node) (trail : List MtuFact) (p : PeerRef) (session : ActiveSession) : Prop :=
  ∃ facts older, Owned node trail p session.path session.pathMtu facts older

lemma Owns.congr {session' : ActiveSession} (h : Owns node trail p session)
    (hpath : session'.path = session.path) (hmtu : session'.pathMtu = session.pathMtu) :
    Owns node trail p session' := by
  unfold Owns
  rwa [hpath, hmtu]

lemma Owns.append {new : List MtuFact} (h : Owns node trail p session)
    (hadopted : ∀ other, .adopted p other ∉ new)
    (hprepared : ∀ other target nonce, .prepared p other target nonce ∉ new) :
    Owns node (new ++ trail) p session := by
  obtain ⟨facts, older, howned⟩ := h
  exact ⟨new ++ facts, older, howned.append new hadopted hprepared⟩

/-! ### Sections of the peer -/

section Sections

variable {suite : Suite} {node : Node} {e : Env} {peer : PeerState} {p : PeerRef}
  {trail : List MtuFact}

/-- One packet of a run: the path stays, or it is the packet's source and the search begins anew. -/
lemma commitOne_path (candidates : List Candidate) (unixTime : UInt64) (now : Instant)
    (item : CommitItem) (peer : PeerState) (session : ActiveSession) :
    let after := commitOne node candidates unixTime now item peer session
    (after.2.2.path = session.path ∧ after.2.2.pathMtu = session.pathMtu ∧
      ∀ committed, after.1 = some committed → committed.pathChanged = false) ∨
    (after.2.2.path = item.source ∧
      after.2.2.pathMtu = PathMtuState.new node.safeVirtualMtu node.config.virtualMtu ∧
      ∃ committed, after.1 = some committed ∧ committed.pathChanged = true) := by
  unfold commitOne ActiveSession.observeDataSource
  dsimp only
  split
  · exact .inl ⟨rfl, rfl, nofun⟩
  · split
    · exact .inr ⟨rfl, rfl, _, rfl, rfl⟩
    · refine .inl ⟨rfl, rfl, ?_⟩
      rintro _ ⟨⟩
      rfl

lemma owns_commitItems (candidates : List Candidate) (unixTime : UInt64) (now : Instant)
    (items : List CommitItem) (peer : PeerState) {session : ActiveSession}
    (h : Owns node trail p session) :
    Owns node (adoptions p items (commitItems node candidates unixTime now items peer session).1 ++ trail)
      p (commitItems node candidates unixTime now items peer session).2.2 := by
  induction items generalizing peer session trail with
  | nil => exact h
  | cons item items ih =>
    -- the first packet, and then the rest with the longer history
    simp only [commitItems]
    have hfirst := @commitOne_path node candidates unixTime now item peer session
    generalize commitOne node candidates unixTime now item peer session = after at hfirst ⊢
    obtain ⟨committed, peer', session'⟩ := after
    obtain ⟨hpath, hmtu, hsame⟩ | ⟨hpath, hmtu, committed', rfl, hchanged⟩ := hfirst
    · have hrest := ih peer' (h.congr hpath hmtu)
      cases committed with
      | none => exact hrest
      | some committed => simpa only [adoptions, hsame committed rfl, Bool.false_eq_true, if_false,
          List.append_nil] using hrest
    · have hadopted : Owns node (.adopted p item.source :: trail) p session' := by
        unfold Owns
        rw [show session'.path = item.source from hpath, show session'.pathMtu = _ from hmtu]
        exact ⟨[], trail, owned_new node trail p item.source⟩
      have hrest := ih peer' hadopted
      simpa only [adoptions, hchanged, if_true, List.append_assoc, List.singleton_append] using hrest

variable {session' : ActiveSession} {now : Instant} {unixTime : UInt64} {info : PeerInfo}
  {packet : WirePacket} {source : SocketAddr}

lemma owns_commitRun {sessionId : UInt64} {candidates : List Candidate} {items : List CommitItem}
    (h : ∀ session, peer.active = some session → Owns node trail p session)
    (hactive : (peer.commitRun node sessionId candidates items unixTime now).2.active = some session') :
    Owns node (adoptions p items
      ((peer.commitRun node sessionId candidates items unixTime now).1.getD []) ++ trail) p session' := by
  rcases commitRun_cases sessionId candidates items unixTime now
    (rfl : peer.commitRun node sessionId candidates items unixTime now = _) with heq | ⟨session, hold, -, heq⟩
  · rw [heq] at hactive ⊢
    have hnone : adoptions p items (Option.getD none []) = [] := by cases items <;> rfl
    rw [hnone]
    exact h session' hactive
  · rw [heq] at hactive ⊢
    cases hactive
    exact owns_commitItems candidates unixTime now items peer (h session hold)

lemma mtuProbe_cases (now : Instant) (nonce : Vector UInt8 mtuProbeNonceLen)
    {result : Option Reply × PeerState} (h : peer.mtuProbe suite now nonce = result) :
    (peer.active = none ∧ result = (none, peer)) ∨
    ∃ session session', peer.active = some session ∧
      result.2 = { peer with active := some session' } ∧ session'.path = session.path ∧
      session'.pathMtu = (session.pathMtu.pollProbe now nonce).2 ∧
      ∀ reply, result.1 = some reply → reply.path = session.path := by
  subst h
  unfold PeerState.mtuProbe
  split
  · exact .inl ⟨‹_›, rfl⟩
  rename_i session hactive
  dsimp only
  split
  · exact .inr ⟨session, _, hactive, rfl, rfl, rfl, nofun⟩
  split
  · exact .inr ⟨session, _, hactive, rfl, rfl, rfl, nofun⟩
  split
  · exact .inr ⟨session, _, hactive, rfl, rfl, rfl, nofun⟩
  · refine .inr ⟨session, _, hactive, rfl, rfl, rfl, ?_⟩
    rintro _ ⟨⟩
    rfl

lemma owns_mtuProbe {nonce : Vector UInt8 mtuProbeNonceLen}
    (h : ∀ session, peer.active = some session → Owns node trail p session)
    (hfresh : nonceUsed p nonce.toList trail = false)
    (hactive : (peer.mtuProbe suite now nonce).2.active = some session') :
    Owns node (preparedOf p (peer.mtuProbe suite now nonce).1
      (peer.mtuProbe suite now nonce).2.pendingProbe ++ trail) p session' := by
  obtain ⟨hnone, heq⟩ | ⟨session, session'', hold, heq, hpath, hmtu, hreply⟩ :=
    mtuProbe_cases now nonce (rfl : peer.mtuProbe suite now nonce = _)
  · rw [heq, hnone] at hactive
    cases hactive
  rw [heq] at hactive
  obtain rfl : session'' = session' := Option.some.inj hactive
  obtain ⟨facts, older, howned⟩ := h session hold
  have hpolled : Owned node trail p session''.path session''.pathMtu facts older := by
    rw [hpath, hmtu]
    exact howned.poll now hfresh
  unfold preparedOf
  split
  · rename_i reply probe hsome hpending
    rw [heq] at hpending
    rw [hreply reply hsome, ← hpath]
    exact ⟨_, older, hpolled.prepare hpending⟩
  · exact ⟨facts, older, hpolled⟩

/-- What a packet of a session does to its path and its search. -/
def Answered (session session' : ActiveSession) (packetType : PacketType) (source : SocketAddr)
    (plaintext : List UInt8) : Prop :=
  session'.path = session.path ∧
    (session'.pathMtu = session.pathMtu ∨ packetType = .mtuProbeAck ∧ source = session.path ∧
      ∃ peerMaxMtu, session'.pathMtu =
        (session.pathMtu.acknowledge (plaintext.take mtuProbeNonceLen) peerMaxMtu).2)

lemma respond_path (session : ActiveSession) (packetType : PacketType) (source : SocketAddr)
    (payload : List UInt8) :
    (session.respond suite packetType source payload).2.path = session.path ∧
      (session.respond suite packetType source payload).2.pathMtu = session.pathMtu := by
  unfold ActiveSession.respond
  dsimp only
  split <;> exact ⟨rfl, rfl⟩

lemma handlePlaintext_answered (session : ActiveSession) (packetType : PacketType)
    (source : SocketAddr) (plaintext : List UInt8) (now : Instant) :
    Answered session (session.handlePlaintext suite node packetType source plaintext now).2 packetType
      source plaintext := by
  have hsame : ∀ {session' : ActiveSession}, session'.path = session.path ∧
      session'.pathMtu = session.pathMtu → Answered session session' packetType source plaintext :=
    fun h => ⟨h.1, .inl h.2⟩
  cases packetType with
  | keepAlive | diagnosticPing | mtuProbe =>
    simp only [ActiveSession.handlePlaintext]
    split
    · exact hsame ⟨rfl, rfl⟩
    · exact hsame (respond_path _ _ _ _)
  | keepAliveAck =>
    simp only [ActiveSession.handlePlaintext]
    split
    · exact hsame ⟨rfl, rfl⟩
    · refine hsame ?_
      unfold ActiveSession.handleKeepAliveAck
      split
      · split <;> exact ⟨rfl, rfl⟩
      · exact ⟨rfl, rfl⟩
  | diagnosticPong =>
    simp only [ActiveSession.handlePlaintext]
    split <;> exact hsame ⟨rfl, rfl⟩
  | mtuProbeAck =>
    simp only [ActiveSession.handlePlaintext, ActiveSession.handleMtuProbeAck]
    split
    · exact hsame ⟨rfl, rfl⟩
    split
    · exact hsame ⟨rfl, rfl⟩
    · rename_i hsource
      refine ⟨?_, .inr ⟨rfl, not_ne_iff.1 hsource, ofBeBytes (plaintext.drop mtuProbeNonceLen), ?_⟩⟩
      · split <;> rfl
      · split <;> rfl
  | data | probe | probeResponse | handshake => exact hsame ⟨rfl, rfl⟩

lemma handleData_active
    (hactive : (peer.handleData suite node info packet source unixTime now).2.active = some session') :
    ∃ session, peer.active = some session ∧ session'.path = session.path ∧
      (session'.pathMtu = session.pathMtu ∨
        ∃ nonce peerMaxMtu, ackNonce suite peer packet = some nonce ∧ source = session.path ∧
          session'.pathMtu = (session.pathMtu.acknowledge nonce peerMaxMtu).2) := by
  have hsame : peer.active = some session' → ∃ session, peer.active = some session ∧
      session'.path = session.path ∧ (session'.pathMtu = session.pathMtu ∨
        ∃ nonce peerMaxMtu, ackNonce suite peer packet = some nonce ∧ source = session.path ∧
          session'.pathMtu = (session.pathMtu.acknowledge nonce peerMaxMtu).2) :=
    fun h => ⟨session', h, rfl, .inl rfl⟩
  unfold PeerState.handleData at hactive
  split at hactive
  · exact hsame hactive
  rename_i session hold
  split at hactive
  · exact hsame hactive
  rename_i hid
  split at hactive
  · cases hactive
  split at hactive
  · exact hsame hactive
  rename_i plaintext hdecrypt
  dsimp only at hactive
  split at hactive
  · exact hsame hactive
  cases hactive
  obtain ⟨hpath, hmtu⟩ := @handlePlaintext_answered suite node { session with
    replay := (session.replay.accept packet.header.sequence).2
    lastRx := now
    rxBytes := session.rxBytes + UInt64.ofNat packet.payload.length }
    packet.header.packetType source plaintext now
  refine ⟨session, hold, hpath, hmtu.imp_right ?_⟩
  rintro ⟨htype, hsource, peerMaxMtu, hack⟩
  refine ⟨_, peerMaxMtu, ?_, hsource, hack⟩
  simp only [ackNonce, hold, if_pos (And.intro htype (not_ne_iff.1 hid)), hdecrypt]

lemma owns_handleData (h : ∀ session, peer.active = some session → Owns node trail p session)
    (hused : ∀ nonce, ackNonce suite peer packet = some nonce → nonceUsed p nonce trail = true)
    (hactive : (peer.handleData suite node info packet source unixTime now).2.active = some session') :
    Owns node (acknowledgedOf p source (ackNonce suite peer packet) ++ trail) p session' := by
  obtain ⟨session, hold, hpath, hmtu⟩ := handleData_active hactive
  obtain ⟨facts, older, howned⟩ := h session hold
  obtain hmtu | ⟨nonce, peerMaxMtu, hack, rfl, hmtu⟩ := hmtu
  · refine ((h session hold).congr hpath hmtu).append (fun other hmem => ?_)
      fun other target nonce hmem => ?_
    · unfold acknowledgedOf at hmem
      split at hmem
      · cases List.mem_singleton.1 hmem
      · cases hmem
    · unfold acknowledgedOf at hmem
      split at hmem
      · cases List.mem_singleton.1 hmem
      · cases hmem
  · rw [hack]
    unfold Owns
    rw [hpath, hmtu]
    exact ⟨_, older, howned.acknowledge (hused nonce hack) peerMaxMtu⟩

lemma performPeer_path {op : PeerOp}
    (hcommit : ∀ id candidates items, op ≠ .commitRun id candidates items) (hprobe : op ≠ .mtuProbe)
    (hdata : ∀ info packet source, op ≠ .handleData info packet source)
    (hactive : (performPeer suite node e peer op).2.active = some session') :
    ∃ session, peer.active = some session ∧ session'.path = session.path ∧
      session'.pathMtu = session.pathMtu := by
  have hsame : (performPeer suite node e peer op).2.active = peer.active →
      ∃ session, peer.active = some session ∧ session'.path = session.path ∧
        session'.pathMtu = session.pathMtu :=
    fun h => ⟨session', h ▸ hactive, rfl, rfl⟩
  cases op with
  | commitRun id candidates items => exact absurd rfl (hcommit id candidates items)
  | mtuProbe => exact absurd rfl hprobe
  | handleData info packet source => exact absurd rfl (hdata info packet source)
  | takeActive expected =>
    rcases @takeActive_cases suite node e peer expected with h | h
    · exact hsame (by rw [h])
    · rw [h] at hactive
      cases hactive
  | keepalive =>
    simp only [performPeer, PeerState.keepalive] at hactive
    split at hactive
    · exact ⟨session', hactive, rfl, rfl⟩
    rename_i session hold
    split at hactive
    · exact ⟨session', hactive, rfl, rfl⟩
    split at hactive
    · cases hactive
    split at hactive
    all_goals
      cases hactive
      exact ⟨session, hold, rfl, rfl⟩
  | prepareActive sizes =>
    simp only [performPeer, PeerState.prepareActive] at hactive
    split at hactive
    · exact ⟨session', hactive, rfl, rfl⟩
    · rename_i session hold
      cases hactive
      exact ⟨session, hold, rfl, rfl⟩
  | recordSent sessionId bytes =>
    obtain ⟨session, hold, rfl⟩ := Option.map_eq_some_iff.1 hactive
    refine ⟨session, hold, ?_⟩
    split <;> exact ⟨rfl, rfl⟩
  | _ => exact hsame ((performPeer_frame _).active rfl)

end Sections

/-! ### Sections of the node -/

section Steps

variable {suite : Suite} {node : Node} {e : Env} {s s' : NodeState} {p : PeerRef}

variable {c : Section} {r : Response c} {session : ActiveSession} {fact : MtuFact} {trail : List MtuFact}

lemma active_elsewhere (h : exec suite node e c s = some (r, s')) (hpeer : ∀ op, c ≠ .peer p op)
    (hestablish : ∀ id path cipher expected handshake, c ≠ .establish p id path cipher expected handshake)
    (hactive : (s'.heap p).active = some session) :
    (s.heap p).active = some session := by
  cases heap_step h p with
  | own op _ => exact absurd rfl (hpeer op)
  | established id path cipher expected handshake _ _ _ =>
    exact absurd rfl (hestablish id path cipher expected handshake)
  | reconnect heq =>
    obtain ⟨_, hreconnect⟩ := @heap_nextReconnect node s p
    rwa [heq, hreconnect] at hactive
  | allocated info online _ _ heq =>
    rw [heq] at hactive
    cases hactive
  | same heq | attempt _ _ heq | locked heq | online _ _ heq =>
    rwa [heq] at hactive

lemma adoptions_peer {items : List CommitItem} {results : List (Option Committed)}
    (h : fact ∈ adoptions p items results) : fact.peer = p := by
  induction items generalizing results with
  | nil => cases h
  | cons item items ih =>
    cases results with
    | nil => cases h
    | cons result results =>
      cases result with
      | none => exact ih h
      | some committed =>
        rcases List.mem_append.1 h with h | h
        · exact ih h
        · split at h
          · rw [List.mem_singleton.1 h]
            rfl
          · cases h

lemma trailOf_peer (h : fact ∈ trailOf suite s c r s') : (∃ op, c = .peer fact.peer op) ∨
      ∃ id path cipher expected handshake, c = .establish fact.peer id path cipher expected handshake := by
  cases c with
  | establish q id path cipher expected handshake =>
    simp only [trailOf] at h
    split at h
    · rw [List.mem_singleton.1 h]
      exact .inr ⟨id, path, cipher, expected, handshake, rfl⟩
    · cases h
  | peer q op =>
    refine .inl ⟨op, ?_⟩
    cases op with
    | commitRun id candidates items => rw [adoptions_peer h]
    | mtuProbe =>
      simp only [trailOf, preparedOf] at h
      split at h
      · rw [List.mem_singleton.1 h]
        rfl
      · cases h
    | handleData info packet source =>
      simp only [trailOf, acknowledgedOf] at h
      split at h
      · rw [List.mem_singleton.1 h]
        rfl
      · cases h
    | _ => cases h
  | _ => cases h

lemma owns_peer {op : PeerOp} {r : op.Response}
    (h : ∀ session, (s.heap p).active = some session → Owns node trail p session)
    (hexec : exec suite node e (.peer p op) s = some (r, s'))
    (hfresh : op = .mtuProbe → nonceUsed p (e.nonce mtuProbeNonceLen).toList trail = false)
    (hused : ∀ info packet source, op = .handleData info packet source → ∀ nonce,
      ackNonce suite (s.heap p) packet = some nonce → nonceUsed p nonce trail = true)
    (hactive : (s'.heap p).active = some session) :
    Owns node (trailOf suite s (.peer p op) r s' ++ trail) p session := by
  obtain ⟨rfl, rfl⟩ := exec_peer hexec
  have hheap : (s.setPeer p (performPeer suite node e (s.heap p) op).2).heap p =
      (performPeer suite node e (s.heap p) op).2 := by
    simp [NodeState.setPeer]
  rw [hheap] at hactive
  by_cases hcommit : ∃ id candidates items, op = .commitRun id candidates items
  · obtain ⟨id, candidates, items, rfl⟩ := hcommit
    exact owns_commitRun h hactive
  by_cases hprobe : op = .mtuProbe
  · subst hprobe
    rw [trailOf, hheap]
    exact owns_mtuProbe h (hfresh rfl) hactive
  by_cases hdata : ∃ info packet source, op = .handleData info packet source
  · obtain ⟨info, packet, source, rfl⟩ := hdata
    exact owns_handleData h (hused info packet source rfl) hactive
  push Not at hcommit hdata
  obtain ⟨old, hold, hpath, hmtu⟩ := performPeer_path hcommit hprobe hdata hactive
  rw [trailOf_other suite s _ p _ hcommit hprobe hdata]
  exact (h old hold).congr hpath hmtu

/-- **One section** of a run that is honest. -/
theorem owns_step (h : ∀ p session, (s.heap p).active = some session → Owns node trail p session)
    (hexec : exec suite node e c s = some (r, s'))
    (hfresh : ∀ p, c = .peer p .mtuProbe → nonceUsed p (e.nonce mtuProbeNonceLen).toList trail = false)
    (hused : ∀ p info packet source, c = .peer p (.handleData info packet source) → ∀ nonce,
      ackNonce suite (s.heap p) packet = some nonce → nonceUsed p nonce trail = true) (p : PeerRef)
    (session : ActiveSession) (hactive : (s'.heap p).active = some session) :
    Owns node (trailOf suite s c r s' ++ trail) p session := by
  by_cases hpeer : ∃ op, c = .peer p op
  · obtain ⟨op, rfl⟩ := hpeer
    exact owns_peer (h p) hexec (fun hop => hfresh p (by rw [hop]))
      (fun info packet source hop => hused p info packet source (by rw [hop])) hactive
  by_cases hestablish : ∃ id path cipher expected handshake,
      c = .establish p id path cipher expected handshake
  · obtain ⟨id, path, cipher, expected, handshake, rfl⟩ := hestablish
    have hresult : s.establish node e p id path cipher expected handshake = (r, s') :=
      Option.some.inj hexec
    unfold NodeState.establish at hresult
    dsimp only at hresult
    split at hresult
    · cases hresult
      exact h p session hactive
    · cases hresult
      have hfresh : session = freshSession node e id path cipher expected handshake := by
        simpa [NodeState.setPeer] using hactive.symm
      subst hfresh
      exact ⟨[], trail, owned_new node trail p path⟩
  · have hquiet : ∀ fact ∈ trailOf suite s c r s', fact.peer ≠ p := by
      rintro fact hfact rfl
      exact (trailOf_peer hfact).elim hpeer hestablish
    have hold := active_elsewhere hexec (fun op hc => hpeer ⟨op, hc⟩)
      (fun id path cipher expected handshake hc => hestablish ⟨id, path, cipher, expected, handshake, hc⟩)
      hactive
    exact (h p session hold).append (fun _ hmem => hquiet _ hmem rfl) fun _ _ _ hmem => hquiet _ hmem rfl

end Steps

/-! ### Runs -/

/-- The history of a run. -/
def Trail.observe (suite : Suite) (trail : List MtuFact) (_ : ℕ) (_ : Unit) (s : NodeState) (c : Section)
    (r : Response c) (s' : NodeState) : List MtuFact :=
  trailOf suite s c r s' ++ trail

/-- **A raised MTU belongs to the current path.**  In every run in which the nonces of probes do not
repeat and only answers to probes decrypt as acknowledgements: if the confirmed MTU of a session is above
the conservative one, then since the session's path was last adopted a probe of at least that size was
prepared for it, and after that its acknowledgement arrived from that path. -/
theorem raised_mtu_owned (suite : Suite) (node : Node) (fuel : ℕ) (heap : PeerRef → PeerState)
    (hheap : ∀ p, (heap p).active = none)
    (x : Pool.Config Section Response NodeState Unit × List MtuFact)
    (h : (plainPool suite node fuel).Recorded (Trail.observe suite) (fun x m => honest suite x m = true)
      ((plainPool suite node fuel).initial (NodeState.new node heap), []) x)
    (p : PeerRef) (session : ActiveSession) (hactive : (x.1.shared.heap p).active = some session)
    (hraised : node.safeVirtualMtu < session.pathMtu.confirmed) :
    ∃ facts older, x.2 = facts ++ .adopted p session.path :: older ∧
      (∀ other, .adopted p other ∉ facts) ∧
      ∃ target, session.pathMtu.confirmed ≤ target ∧ Vouches p session.path target facts := by
  have hinv := h.invariant_shared
    (I := fun s trail => ∀ p session, (s.heap p).active = some session → Owns node trail p session)
    (fun p session hactive => ?_) (fun s s' trail t q hi haccept => ?_)
    (fun x t e c r s' hi hguard hat hexec => ?_)
  · obtain ⟨facts, older, howned⟩ := hinv p session hactive
    exact ⟨facts, older, howned.split, howned.latest, howned.raised hraised⟩
  · cases (hheap p).symm.trans hactive
  · obtain ⟨spawned, rfl⟩ := accept_eq haccept
    exact hi
  · refine owns_step hi hexec (fun p hc => ?_) (fun p info packet source hc nonce hack => ?_)
    · rw [hc] at hat
      simpa only [honest, hat, Bool.not_eq_true'] using hguard
    · rw [hc] at hat
      have hall : (ackNonce suite (x.1.shared.heap p) packet).all fun nonce => nonceUsed p nonce x.2 := by
        simpa only [honest, hat] using hguard
      rw [hack] at hall
      exact hall

/-! ### A run that raises the MTU -/

section Demo

def demoWide : Node := { demoNode with config := { demoNode.config with virtualMtu := 1430 } }

def demoProbeAck : List UInt8 :=
  demoDatagram .mtuProbeAck 7 1
    (List.replicate 16 3 ++ beBytes 2 1430 ++ (demoTag demoKey (nonce 1)).toList)

def demoRaised : Option (Pool.Config Section Response NodeState Unit × List MtuFact) :=
  (plainPool demoSuite demoWide 2).runRecorded (Trail.observe demoSuite) (honest demoSuite)
    ((plainPool demoSuite demoWide 2).initial (NodeState.new demoWide demoState.heap), [])
    (demoConnected ++ demoAlone 0 .mtuRound 3 ++ demoAlone 0 (.datagram demoProbeAck demoPath) 7)

lemma demoRaised_confirmed :
    (demoRaised.map fun x => (x.1.shared.heap demoRef).active.map fun session =>
      (session.path, session.pathMtu.confirmed)) = some (some (demoPath, 1254)) := by
  decide +kernel

theorem raised_mtu_owned_probe : ∃ x facts older, demoRaised = some x ∧
    x.2 = facts ++ .adopted demoRef demoPath :: older ∧
    ∃ target, 1254 ≤ target ∧ Vouches demoRef demoPath target facts := by
  obtain ⟨x, hx, hfacts⟩ := Option.map_eq_some_iff.1 demoRaised_confirmed
  obtain ⟨session, hactive, hfacts⟩ := Option.map_eq_some_iff.1 hfacts
  obtain ⟨hpath, hconfirmed⟩ := Prod.mk.inj hfacts
  have hrun := Pool.Spec.recorded_of_run (fun _ _ h => h) _ .refl hx
  obtain ⟨facts, older, hsplit, -, target, hle, hvouches⟩ := raised_mtu_owned demoSuite demoWide 2
    demoState.heap demoState_active x hrun demoRef session hactive (by rw [hconfirmed]; decide)
  rw [hpath] at hsplit hvouches
  exact ⟨x, facts, older, hx, hsplit, target, hconfirmed ▸ hle, hvouches⟩

end Demo

end Vela.Core
