import Vela.Core.Node
import Vela.Core.Steps

/-!
# What the programs of the node are made of

Most sections have nothing to do with sessions, membership or delivered packets: they are `Calm`.  A
discipline (`Discipline`) that allows the calm sections is met by all programs that are made of
them and of `invalidate_session`.  `Critical` lists the programs that touch the rest; what meets a
discipline for those meets it for every request (`Critical.serve`).
-/

namespace Vela.Core

open Vela.Proto Vela.Crypto Vela.Ip Prog

variable {suite : Suite} {node : Node} {fuel : ℕ} {D : Discipline Section Response}

section Rules

lemma holds_when {condition : Bool} {p : Task PUnit} (hp : D.holds p) :
    D.holds (when condition p) := by
  unfold when
  split
  · exact hp
  · exact D.ret _

variable {α ε : Type} {r : Except ε α}

lemma holds_whenSome {o : Option α} {f : α → Task PUnit} (hf : ∀ a, D.holds (f a)) :
    D.holds (whenSome o f) := by
  unfold whenSome
  split
  · exact hf _
  · exact D.ret _

lemma holds_ofExcept (r : Except ε α) : D.holds (ofExcept r).run := D.ret _

lemma holds_ofExcept_bind {β : Type} {f : α → NodeM ε β} (hf : ∀ a, r = .ok a → D.holds (f a).run) :
    D.holds (ofExcept r >>= f).run := by
  cases r with
  | ok a => exact hf a rfl
  | error e => exact D.ret _

lemma of_mapError {ε' : Type} {f : ε → ε'} {a : α} (h : r.mapError f = .ok a) : r = .ok a := by
  cases r with
  | ok b => simpa [Except.mapError] using h
  | error e => cases h

lemma holds_okOr (o : Option α) (error : ε) : D.holds (okOr o error).run := D.ret _

lemma holds_throw (error : ε) : D.holds (throw error : NodeM ε α).run := D.ret _

lemma holds_pure (a : α) : D.holds (pure a : NodeM ε α).run := D.ret _

end Rules

/-! ### Calm programs -/

/-- The calm sections but the announcements that a session has begun or ended. -/
def Mild : Section → Prop
  | .emit (.peerConnected _) | .emit (.peerDisconnected _) => False
  | c => Calm c

lemma Mild.calm {c : Section} (h : Mild c) : Calm c := by
  unfold Mild at h
  split at h
  · exact h.elim
  · exact h.elim
  · exact h

section CalmPrograms

variable (hcalm : ∀ c, Mild c → D.holds (call c))

include hcalm

variable {p : PeerRef} {op : PeerOp} {ε : Type}

lemma calm_peer (h : Mild (.peer p op)) : D.holds (peerCall p op) :=
  hcalm _ h

lemma calm_lift {c : Section} (h : Mild c) : D.holds (lift (call c) : NodeM ε _).run :=
  D.lift (hcalm c h)

lemma calm_liftPeer (h : Mild (.peer p op)) : D.holds (lift (peerCall p op) : NodeM ε _).run :=
  D.lift (hcalm _ h)

lemma holds_emit {event : VelaEvent} (h : Mild (.emit event)) : D.holds (emit event) :=
  D.bind (hcalm _ h) fun _ => D.ret _

lemma holds_validatePeerMembership (info : PeerInfo) :
    D.holds (validatePeerMembership suite node info).run := by
  unfold validatePeerMembership
  split
  · exact D.ret _
  · exact D.bindExcept (calm_lift hcalm trivial) fun _ => holds_ofExcept _

lemma holds_scheduleReconnect (p : PeerRef) : D.holds (scheduleReconnect p) := by
  refine D.bind (hcalm _ trivial) fun _ => holds_when ?_
  refine D.bind (hcalm _ trivial) fun _ => holds_when ?_
  refine D.bind (calm_peer hcalm trivial) fun _ => holds_when ?_
  refine D.bind (calm_peer hcalm trivial) fun _ => holds_when ?_
  refine D.bind (calm_peer hcalm trivial) fun _ => ?_
  exact D.bind (holds_emit hcalm trivial) fun _ => hcalm _ trivial

lemma holds_verifySignature (snapshot : NetworkSnapshot) :
    D.holds (verifySignature suite node snapshot).run := by
  unfold verifySignature
  split
  · exact D.ret _
  · exact D.bindExcept (calm_lift hcalm trivial) fun _ => holds_ofExcept _

lemma holds_snapshotRoutes (routes : RouteTable) (peers : List PeerRef) :
    D.holds (snapshotRoutes routes peers) := by
  induction peers generalizing routes with
  | nil => exact D.ret _
  | cons p peers ih => exact D.bind (calm_peer hcalm trivial) fun _ => ih _

/-! ### Connections -/

lemma holds_peerFor (nodeId : NodeId) : D.holds (peerFor nodeId).run :=
  D.bindExcept (calm_lift hcalm trivial) fun _ => holds_okOr _ _

lemma holds_sendPacket (target : SocketAddr) (packetType : PacketType) (sessionId sequence : UInt64)
    (payload : List UInt8) :
    D.holds (sendPacket target packetType sessionId sequence payload).run := by
  refine D.bindExcept (calm_lift hcalm trivial) fun error => ?_
  cases error with
  | none => exact D.ret _
  | some error => exact holds_throw _

lemma holds_emitPeerConnecting (p : PeerRef) : D.holds (emitPeerConnecting p) := by
  refine D.bind (calm_peer hcalm trivial) fun _ => holds_when ?_
  refine D.bind (calm_peer hcalm trivial) fun _ => holds_when ?_
  exact D.bind (calm_peer hcalm trivial) fun _ => holds_emit hcalm trivial

lemma holds_handshakeContext : D.holds (handshakeContext suite node) := by
  refine D.bind (hcalm _ trivial) fun _ => D.bind (hcalm _ trivial) fun _ => ?_
  exact D.bind (hcalm _ trivial) fun _ => D.bind (hcalm _ trivial) fun _ => D.ret _

lemma holds_startInitiator (p : PeerRef) (path : SocketAddr) (sessionId : UInt64) :
    D.holds (startInitiator p path sessionId).run := by
  refine D.bindExcept (calm_liftPeer hcalm trivial) fun active => ?_
  split
  · exact D.ret _
  · refine D.bindExcept (calm_lift hcalm trivial) fun result => ?_
    refine D.bindExcept (holds_ofExcept _) fun _ => ?_
    exact D.lift (holds_when (holds_emitPeerConnecting hcalm p))

lemma holds_verifiedSender (probe : Probe) : D.holds (verifiedSender suite node probe).run := by
  unfold verifiedSender
  split
  · exact holds_throw _
  · refine D.bindExcept (holds_peerFor hcalm _) fun p => ?_
    refine D.bindExcept (calm_liftPeer hcalm trivial) fun info => ?_
    refine D.bindExcept (holds_validatePeerMembership hcalm _) fun _ => ?_
    refine D.bindExcept (calm_lift hcalm trivial) fun now => ?_
    exact D.bindExcept (holds_ofExcept _) fun _ => D.ret _

lemma holds_handleProbe (packet : WirePacket) (source : SocketAddr) :
    D.holds (handleProbe suite node packet source).run := by
  refine D.bindExcept (holds_ofExcept _) fun probe => ?_
  refine D.bindExcept (holds_verifiedSender hcalm _) fun sender => ?_
  refine D.bindExcept (holds_sendPacket hcalm _ _ _ _ _) fun _ => ?_
  refine D.bindExcept (D.lift (holds_emitPeerConnecting hcalm _)) fun _ => ?_
  split
  · refine D.bindExcept (calm_liftPeer hcalm trivial) fun _ => ?_
    exact holds_startInitiator hcalm _ _ _
  · exact D.ret _

lemma holds_handleProbeResponse (packet : WirePacket) (source : SocketAddr) :
    D.holds (handleProbeResponse suite node packet source).run := by
  refine D.bindExcept (holds_ofExcept _) fun probe => ?_
  refine D.bindExcept (holds_verifiedSender hcalm _) fun sender => ?_
  refine D.bindExcept (calm_liftPeer hcalm trivial) fun attempt => ?_
  split
  · exact D.ret _
  · refine D.bindExcept (calm_liftPeer hcalm trivial) fun _ => ?_
    split
    · exact holds_startInitiator hcalm _ _ _
    · exact D.ret _

lemma holds_sendProbes (c : Connecting) (candidates : List Candidate) :
    D.holds (sendProbes c candidates) := by
  induction candidates with
  | nil => exact D.ret _
  | cons candidate rest ih =>
    exact D.bind (hcalm _ trivial) fun _ => D.bind (calm_peer hcalm trivial) fun _ => ih

lemma holds_connectTimedOut (c : Connecting) : D.holds (connectTimedOut c).run := by
  refine D.bindExcept (calm_liftPeer hcalm trivial) fun current => ?_
  split
  · refine D.bindExcept (calm_liftPeer hcalm trivial) fun _ => ?_
    refine D.bindExcept (calm_liftPeer hcalm trivial) fun _ => ?_
    exact D.bindExcept (D.lift (holds_emit hcalm trivial)) fun _ => holds_throw _
  · exact holds_throw _

lemma holds_due (condition : Bool) (instant : Instant) : D.holds (due condition instant) := by
  unfold due
  split
  · exact D.bind (hcalm _ trivial) fun _ => D.ret _
  · exact D.ret _

lemma holds_connectLoop (c : Connecting) (loop : ConnectLoop) :
    D.holds (connectLoop c fuel loop).run := by
  induction fuel generalizing loop with
  | zero => exact D.lift (hcalm _ trivial)
  | succ fuel ih =>
    refine D.bindExcept (calm_liftPeer hcalm trivial) fun active => ?_
    split
    · exact D.ret _
    refine D.bindExcept (calm_lift hcalm trivial) fun now => ?_
    split
    · exact holds_connectTimedOut hcalm c
    refine D.bindExcept (calm_liftPeer hcalm trivial) fun attempt => ?_
    refine D.bindExcept (holds_ofExcept _) fun loop => ?_
    refine D.bindExcept (D.lift (holds_due hcalm _ _)) fun fallbackDue => ?_
    refine D.bindExcept (D.lift (holds_due hcalm _ _)) fun probeDue => ?_
    split
    · exact D.bindExcept (D.lift (holds_sendProbes hcalm _ _)) fun _ => ih _
    split
    · refine D.bindExcept (D.lift (holds_sendProbes hcalm _ _)) fun _ => ?_
      exact D.bindExcept (calm_lift hcalm trivial) fun _ => ih _
    refine D.bindExcept (calm_lift hcalm trivial) fun notified => ?_
    split
    · refine D.bindExcept (calm_liftPeer hcalm trivial) fun active => ?_
      refine D.bindExcept (D.lift (holds_due hcalm _ _)) fun timedOut => ?_
      split
      · exact holds_connectTimedOut hcalm c
      · exact ih _
    · exact ih _

lemma holds_connectVia (p : PeerRef) (nodeId : NodeId) (candidates : List Candidate) :
    D.holds (connectVia suite node fuel p nodeId candidates).run := by
  refine D.bindExcept (D.lift (holds_emitPeerConnecting hcalm _)) fun _ => ?_
  refine D.bindExcept (calm_lift hcalm trivial) fun random => ?_
  refine D.bindExcept (calm_lift hcalm trivial) fun sessionId => ?_
  refine D.bindExcept (calm_liftPeer hcalm trivial) fun _ => ?_
  refine D.bindExcept (calm_liftPeer hcalm trivial) fun _ => ?_
  refine D.bindExcept (calm_lift hcalm trivial) fun timestamp => ?_
  refine D.bindExcept (calm_lift hcalm trivial) fun start => ?_
  refine D.bindExcept (D.lift (holds_sendProbes hcalm _ _)) fun _ => ?_
  refine D.bindExcept (calm_lift hcalm trivial) fun sent => ?_
  exact D.bindExcept (calm_lift hcalm trivial) fun now => holds_connectLoop hcalm _ _

lemma holds_connectLocked (p : PeerRef) (nodeId : NodeId) :
    D.holds (connectLocked suite node fuel p nodeId).run := by
  refine D.bindExcept (calm_liftPeer hcalm trivial) fun active => ?_
  split
  · exact D.ret _
  refine D.bindExcept (calm_liftPeer hcalm trivial) fun info => ?_
  dsimp only
  split
  · exact holds_throw _
  · exact holds_connectVia hcalm p nodeId _

lemma holds_connect (nodeId : NodeId) : D.holds (connect suite node fuel nodeId).run := by
  refine D.bindExcept (calm_lift hcalm trivial) fun started => ?_
  split
  · exact holds_throw _
  refine D.bindExcept (calm_lift hcalm trivial) fun now => ?_
  refine D.bindExcept (calm_lift hcalm trivial) fun expiresAt => ?_
  split
  · exact holds_throw _
  refine D.bindExcept (calm_lift hcalm trivial) fun found => ?_
  refine D.bindExcept (holds_okOr _ _) fun p => ?_
  refine D.bindExcept (calm_lift hcalm trivial) fun _ => ?_
  refine D.bindExcept (D.lift (holds_connectLocked hcalm p nodeId)) fun result => ?_
  exact D.bindExcept (calm_liftPeer hcalm trivial) fun _ => holds_ofExcept _

lemma holds_stillWanted (p : PeerRef) : D.holds (stillWanted p) := by
  refine D.bind (hcalm _ trivial) fun stopping => ?_
  split
  · exact D.ret _
  refine D.bind (calm_peer hcalm trivial) fun online => ?_
  split
  · refine D.bind (calm_peer hcalm trivial) fun info => ?_
    exact D.bind (hcalm _ trivial) fun _ => D.ret _
  · exact D.ret _

lemma holds_reconnectLoop (rounds : ℕ) (p : PeerRef) :
    D.holds (reconnectLoop suite node fuel rounds p) := by
  induction rounds with
  | zero => exact hcalm _ trivial
  | succ rounds ih =>
    refine D.bind (hcalm _ trivial) fun delay => ?_
    cases delay with
    | none => exact D.ret _
    | some delay =>
      refine D.bind (holds_stillWanted hcalm p) fun wanted => ?_
      split
      · refine D.bind (calm_peer hcalm trivial) fun info => ?_
        refine D.bind (holds_connect hcalm _) fun result => ?_
        cases result with
        | ok _ => exact calm_peer hcalm trivial
        | error error => exact D.bind (calm_peer hcalm trivial) fun _ => ih
      · exact calm_peer hcalm trivial

lemma holds_mtuRound : D.holds mtuRound := by
  refine D.bind (hcalm _ trivial) fun peers => ?_
  refine D.bind (D.collect _ _ fun p => calm_peer hcalm trivial) fun probes => ?_
  exact D.forM _ _ fun reply => D.bind (hcalm _ trivial) fun _ => D.ret _

lemma holds_authorityExpired (p : PeerRef) : D.holds (authorityExpired node p) := by
  have hrest : ∀ expired : Bool, D.holds (do
      let now ← call .unixTime
      let expiresAt ← call .snapshotExpiresAt
      return decide (expiresAt ≤ now) || expired : Task Bool) := fun expired =>
    D.bind (hcalm _ trivial) fun _ => D.bind (hcalm _ trivial) fun _ => D.ret _
  unfold authorityExpired
  split
  · exact D.bind (hcalm _ trivial) fun _ => D.bind (calm_peer hcalm trivial) hrest
  · exact hrest false

end CalmPrograms

/-! ### Programs that may end a session -/

section WithInvalidation

variable (hcalm : ∀ c, Mild c → D.holds (call c))
  (hencrypt : ∀ encryption, D.holds (call (.encryptPacket encryption)))
  (hinvalidate : ∀ p expected request, D.holds (invalidateSessionIf p expected request))

lemma holds_encryptWork (hworker : D.holds (call .worker)) (p : PeerRef)
    (hencrypt : ∀ encryption, encryption.peer = p → D.holds (call (.encryptPacket encryption)))
    (session : PreparedSession) (work : List (UInt64 × IpPacket)) :
    D.holds (encryptWork suite node p session work) := by
  have hone : ∀ work, D.holds (encryptOne suite p session work) := by
    intro work
    unfold encryptOne
    split
    · exact D.ret _
    · exact D.bind (hencrypt _ rfl) fun _ => D.ret _
  unfold encryptWork
  split
  · refine D.bind (D.collect _ _ fun chunk => ?_) fun _ => D.ret _
    refine D.bind hworker fun failed => ?_
    cases failed with
    | none => exact D.collect _ _ hone
    | some text => exact D.ret _
  · exact D.collect _ _ hone

lemma holds_prepareValid (hworker : D.holds (call .worker)) (p : PeerRef)
    (hencrypt : ∀ encryption, encryption.peer = p → D.holds (call (.encryptPacket encryption)))
    (hprepare : ∀ sizes, D.holds (peerCall p (.prepareActive sizes)))
    (hpush : ∀ packets, D.holds (peerCall p (.pushQueue packets))) (valid : List IpPacket) :
    D.holds (prepareValid suite node p valid) := by
  refine D.bind (hprepare _) fun session => ?_
  cases session with
  | none => exact D.bind (hpush _) fun _ => D.ret _
  | some session => exact D.bind (holds_encryptWork hworker p hencrypt session _) fun _ => D.ret _

lemma holds_shouldConnect {p : PeerRef} (hactive : D.holds (peerCall p .active))
    (hattempt : D.holds (peerCall p .attempt)) : D.holds (shouldConnect p) := by
  refine D.bind hactive fun active => ?_
  cases active with
  | some _ => exact D.ret _
  | none => exact D.bind hattempt fun _ => D.ret _

include hcalm

lemma holds_recordSentBatch (packets : List PreparedDataPacket) :
    D.holds (recordSentBatch packets) := by
  unfold recordSentBatch
  split
  · exact D.ret _
  · exact calm_peer hcalm trivial

lemma holds_requestConnection (nodeId : NodeId) : D.holds (requestConnection nodeId) :=
  D.bind (holds_emit hcalm trivial) fun _ => hcalm _ trivial

lemma holds_scheduleReconnects (results : List (PreparedDataPacket × Except SendError Unit)) :
    D.holds (scheduleReconnects results) := by
  induction results with
  | nil => exact D.ret _
  | cons result results ih =>
    exact D.bind (holds_when (holds_scheduleReconnect hcalm _)) fun _ => ih

include hinvalidate

lemma holds_sendPrepared (packet : PreparedDataPacket) : D.holds (sendPrepared packet).run := by
  refine D.bindExcept (calm_lift hcalm trivial) fun error => ?_
  cases error with
  | none => exact D.lift (holds_recordSentBatch hcalm _)
  | some error => exact D.bindExcept (D.lift (hinvalidate _ _ _)) fun _ => holds_throw _

lemma holds_sendGroup (group : List PreparedDataPacket) : D.holds (sendGroup group) := by
  unfold sendGroup
  split
  · exact D.ret _
  · refine D.bind (hcalm _ trivial) fun result => ?_
    cases result with
    | error error => exact D.bind (hinvalidate _ _ _) fun _ => D.ret _
    | ok sent =>
      dsimp only
      split
      · exact D.bind (holds_recordSentBatch hcalm _) fun _ => D.ret _
      · refine D.bind (holds_recordSentBatch hcalm _) fun _ => ?_
        exact D.bind (hinvalidate _ _ _) fun _ => D.ret _

lemma holds_sendPreparedBatch (prepared : List PreparedDataPacket) :
    D.holds (sendPreparedBatch prepared) :=
  D.bind (D.collect _ _ (holds_sendGroup hcalm hinvalidate)) fun _ => D.ret _

include hencrypt

lemma holds_prepareIpPackets (p : PeerRef) (packets : List IpPacket) :
    D.holds (prepareIpPackets suite node p packets) := by
  unfold prepareIpPackets
  split
  · exact D.ret _
  refine D.bind (hcalm _ trivial) fun now => ?_
  refine D.bind (hcalm _ trivial) fun expiresAt => ?_
  split
  · exact D.bind (hinvalidate p none true) fun _ => D.ret _
  dsimp only
  split
  · exact D.ret _
  · refine D.bind ?_ fun _ => D.ret _
    exact holds_prepareValid (hcalm _ trivial) p (fun x _ => hencrypt x)
      (fun _ => calm_peer hcalm trivial) (fun _ => calm_peer hcalm trivial) _

lemma holds_sendIpPacket (p : PeerRef) (packet : IpPacket) :
    D.holds (sendIpPacket suite node p packet).run := by
  refine D.bindExcept (D.lift (holds_prepareIpPackets hcalm hencrypt hinvalidate p _)) fun results => ?_
  split
  · exact holds_throw _
  · exact holds_sendPrepared hcalm hinvalidate _
  · exact D.ret _
  · exact D.ret _

lemma holds_sendIp (bytes : List UInt8) : D.holds (sendIp suite node bytes).run := by
  refine D.bindExcept (holds_ofExcept _) fun packet => ?_
  refine D.bindExcept (calm_lift hcalm trivial) fun routed => ?_
  refine D.bindExcept (holds_ofExcept _) fun nodeId => ?_
  refine D.bindExcept (calm_lift hcalm trivial) fun found => ?_
  refine D.bindExcept (holds_okOr _ _) fun p => ?_
  refine D.bindExcept (D.lift (holds_shouldConnect (calm_peer hcalm trivial) (calm_peer hcalm trivial))) fun connect => ?_
  refine D.bindExcept (D.lift (holds_sendIpPacket hcalm hencrypt hinvalidate p packet)) fun result => ?_
  refine D.bindExcept (D.lift (holds_when (holds_scheduleReconnect hcalm p))) fun _ => ?_
  refine D.bindExcept (D.lift (holds_when (holds_requestConnection hcalm _))) fun _ => ?_
  exact holds_ofExcept _

lemma holds_sendIpBatch (packets : List (List UInt8)) :
    D.holds (sendIpBatch suite node packets) := by
  refine D.bind (hcalm _ trivial) fun routes => D.bind ?_ fun _ => D.ret _
  refine D.bind (D.collect _ _ fun group => ?_) fun groups => ?_
  · unfold prepareGroup
    split
    · exact D.ret _
    · refine D.bind (holds_shouldConnect (calm_peer hcalm trivial) (calm_peer hcalm trivial)) fun _ => ?_
      exact D.bind (holds_prepareIpPackets hcalm hencrypt hinvalidate _ _) fun _ => D.ret _
  · refine D.bind (holds_sendPreparedBatch hcalm hinvalidate _) fun results => ?_
    refine D.bind (holds_scheduleReconnects hcalm _) fun _ => ?_
    exact D.bind (D.forM _ _ (holds_requestConnection hcalm)) fun _ => D.ret _

lemma holds_flushQueue (p : PeerRef) : D.holds (flushQueue suite node fuel p) := by
  induction fuel with
  | zero => exact hcalm _ trivial
  | succ fuel ih =>
    refine D.bind (calm_peer hcalm trivial) fun payload => ?_
    cases payload with
    | none => exact D.ret _
    | some payload =>
      refine D.bind (D.bindExcept (holds_ofExcept _) fun packet => ?_) fun result => ?_
      · refine D.bindExcept (calm_lift hcalm trivial) fun routed => ?_
        refine D.bindExcept (holds_ofExcept _) fun nodeId => ?_
        split
        · exact holds_throw _
        · exact holds_sendIpPacket hcalm hencrypt hinvalidate p packet
      · cases result with
        | error error => exact D.ret _
        | ok _ => exact ih

omit hencrypt

end WithInvalidation

/-! ### Critical programs by their sections -/

section BySections

lemma holds_retirePeer (hcalm : ∀ c, Mild c → D.holds (call c))
    (htake : ∀ p expected, D.holds (peerCall p (.takeActive expected)))
    (hremove : ∀ p sessionId, D.holds (call (.removeSession p sessionId))) (p : PeerRef) :
    D.holds (retirePeer p) := by
  refine D.bind (calm_peer hcalm trivial) fun _ => ?_
  refine D.bind (calm_peer hcalm trivial) fun _ => ?_
  refine D.bind (htake p none) fun taken => ?_
  refine D.bind (holds_whenSome fun id => hremove p id) fun _ => ?_
  refine D.bind (calm_peer hcalm trivial) fun _ => ?_
  exact D.bind (calm_peer hcalm trivial) fun _ => D.ret _

lemma holds_afterInvalidation (hcalm : ∀ c, Mild c → D.holds (call c)) (p : PeerRef)
    (sessionId : Option UInt64) (request : Bool)
    (hremove : ∀ id, D.holds (call (.removeSession p id)))
    (hannounce : ∀ nodeId, D.holds (emit (.peerDisconnected nodeId))) :
    D.holds (afterInvalidation p sessionId request) := by
  refine D.bind (holds_whenSome hremove) fun _ => ?_
  refine D.bind (calm_peer hcalm trivial) fun hadAttempt => ?_
  refine D.bind (calm_peer hcalm trivial) fun _ => ?_
  refine D.bind (holds_when (calm_peer hcalm trivial)) fun _ => ?_
  refine D.bind (calm_peer hcalm trivial) fun _ => holds_when ?_
  exact D.bind (calm_peer hcalm trivial) fun _ => hannounce _

lemma holds_invalidateSessionIf (hcalm : ∀ c, Mild c → D.holds (call c))
    (htake : ∀ p expected, D.holds (peerCall p (.takeActive expected)))
    (hremove : ∀ p sessionId, D.holds (call (.removeSession p sessionId)))
    (hannounce : ∀ nodeId, D.holds (emit (.peerDisconnected nodeId))) (p : PeerRef)
    (expected : Option UInt64) (request : Bool) :
    D.holds (invalidateSessionIf p expected request) := by
  refine D.bind (htake p expected) fun taken => ?_
  cases taken with
  | none => exact D.ret _
  | some sessionId => exact holds_afterInvalidation hcalm p sessionId request (hremove p) hannounce

variable (hcalm : ∀ c, Mild c → D.holds (call c))

include hcalm

lemma holds_respondHandshake {p : PeerRef} {info : PeerInfo} {sender : NodeId} {sessionId : UInt64}
    {message : List UInt8} {source : SocketAddr}
    (hreplace : ∀ cipher entropy context, D.holds (replaceSession suite node fuel p sessionId source cipher info
      { NoiseHandshake.responder node.identity with calls := [.wrote entropy context, .read message] })) :
    D.holds (respondHandshake suite node fuel p info sender sessionId message source).run := by
  refine holds_ofExcept_bind fun first hread => ?_
  refine D.bindExcept (calm_lift hcalm trivial) fun networkId => ?_
  refine D.bindExcept (holds_ofExcept _) fun _ => ?_
  refine D.bindExcept (D.lift (holds_handshakeContext hcalm)) fun ownContext => ?_
  refine D.bindExcept (calm_lift hcalm trivial) fun entropy => ?_
  refine holds_ofExcept_bind fun second hwrite => ?_
  refine D.bindExcept (holds_ofExcept _) fun keys => ?_
  refine D.bindExcept (holds_sendPacket hcalm _ _ _ _ _) fun _ => D.lift ?_
  have hfirst := NoiseHandshake.readMessage_ok (of_mapError hread)
  have hsecond := NoiseHandshake.writeMessage_ok (of_mapError hwrite)
  rw [hsecond, hfirst]
  exact hreplace _ _ _

/-! ### Data -/

lemma holds_dataDecryptContextAt
    (hinvalidate : ∀ p expected request, D.holds (invalidateSessionIf p expected request))
    (hcipher : ∀ p sessionId, D.holds (call (.sessionCipher p sessionId))) (sessionId now : UInt64) :
    D.holds (dataDecryptContextAt node sessionId now).run := by
  refine D.bindExcept (calm_lift hcalm trivial) fun found => ?_
  cases found with
  | none => exact D.ret _
  | some p =>
    have hrest : ∀ expired : Bool, D.holds (if expired then (do
          lift (invalidateSession p true)
          throw .peerCredentialExpired)
        else (do
          let cipher ← lift (call (.sessionCipher p sessionId))
          return cipher.map fun cipher => (p, cipher)) :
          NodeM CoreError (Option (PeerRef × SessionCipher))).run := by
      intro expired
      split
      · exact D.bindExcept (D.lift (hinvalidate p none true)) fun _ => holds_throw _
      · exact D.bindExcept (D.lift (hcipher p sessionId)) fun _ => D.ret _
    dsimp only
    split
    · exact D.bindExcept (calm_liftPeer hcalm trivial) hrest
    · exact D.bindExcept (holds_pure false) hrest

lemma holds_acceptPacket {parsed : Parsed} (hdeliver : D.holds (call (.deliver parsed.delivery)))
    (committed : Committed) : D.holds (acceptPacket node parsed committed) := by
  refine D.bind (calm_peer hcalm trivial) fun _ => ?_
  refine D.bind (holds_when (holds_emit hcalm trivial)) fun _ => ?_
  refine D.bind (holds_when (holds_emit hcalm trivial)) fun _ => ?_
  exact D.bind hdeliver fun _ => holds_when (calm_peer hcalm trivial)

lemma holds_commitIpData
    (hcommit : ∀ p sessionId candidates items,
      D.holds (peerCall p (.commitRun sessionId candidates items)))
    (hdeliver : ∀ delivery, D.holds (call (.deliver delivery))) (d : Decrypted) :
    D.holds (commitIpData node d).run := by
  unfold commitIpData
  split
  · exact D.bindExcept (calm_liftPeer hcalm trivial) fun _ => holds_throw _
  · refine D.bindExcept (D.lift (hcommit _ _ _ _)) fun result => ?_
    split
    · refine D.bindExcept (calm_lift hcalm trivial) fun isLocal => ?_
      split
      · exact D.lift (holds_acceptPacket hcalm (hdeliver _) _)
      · exact D.bindExcept (calm_liftPeer hcalm trivial) fun _ => holds_throw _
    · exact D.ret _

lemma holds_decryptDataInlineAt
    (hcontext : ∀ sessionId now, D.holds (dataDecryptContextAt node sessionId now).run)
    (hcommit : ∀ d, D.holds (commitIpData node d).run) (packet : DataPacket) (now : UInt64) :
    D.holds (decryptDataInlineAt suite node packet now).run := by
  refine D.bindExcept (hcontext _ _) fun context => ?_
  cases context with
  | none => exact calm_lift hcalm trivial
  | some context =>
    refine D.bindExcept (calm_liftPeer hcalm trivial) fun _ => ?_
    split
    · exact D.bindExcept (calm_liftPeer hcalm trivial) fun _ => holds_throw _
    · exact hcommit _

lemma holds_parseBatch (packets : List Decrypted) : D.holds (parseBatch packets) := by
  induction packets with
  | nil => exact D.ret _
  | cons d packets ih =>
    unfold parseBatch
    split
    · exact D.bind (calm_peer hcalm trivial) fun _ => ih
    · exact D.bind ih fun _ => D.ret _

lemma holds_keepLocal (committed : List (Parsed × Committed)) (isLocal : List Bool) :
    D.holds (keepLocal committed isLocal) := by
  induction committed generalizing isLocal with
  | nil => exact D.ret _
  | cons entry committed ih =>
    cases isLocal with
    | nil => exact D.ret _
    | cons b isLocal =>
      cases b with
      | true => exact D.bind (ih isLocal) fun _ => D.ret _
      | false => exact D.bind (calm_peer hcalm trivial) fun _ => ih isLocal

lemma holds_collectJobs
    (hcontext : ∀ sessionId now, D.holds (dataDecryptContextAt node sessionId now).run)
    (now : UInt64) (contexts : Contexts) (packets : List DataPacket) :
    D.holds (collectJobs node now contexts packets) := by
  induction packets generalizing contexts with
  | nil => exact D.ret _
  | cons packet packets ih =>
    refine D.bind ?_ fun context => ?_
    · unfold batchContext
      split
      · exact D.ret _
      · refine D.bind (hcontext _ _) fun result => ?_
        cases result with
        | ok context => exact D.ret _
        | error error => exact D.ret _
    · cases context with
      | none => exact D.bind (hcalm _ trivial) fun _ => ih _
      | some context =>
        exact D.bind (calm_peer hcalm trivial) fun _ => D.bind (ih _) fun _ => D.ret _

lemma holds_queueParts (parts : List (List DataDecryptJob)) : D.holds (queueParts parts).run := by
  induction parts with
  | nil => exact D.ret _
  | cons part parts ih =>
    refine D.bindExcept (calm_lift hcalm trivial) fun failed => ?_
    cases failed with
    | none => exact ih
    | some text => exact holds_throw _

lemma holds_decryptJobs (jobs : List DataDecryptJob) : D.holds (decryptJobs suite jobs) := by
  induction jobs with
  | nil => exact D.ret _
  | cons job jobs ih =>
    unfold decryptJobs
    split
    · exact D.bind (calm_peer hcalm trivial) fun _ => ih
    · exact D.bind ih fun _ => D.ret _

lemma holds_awaitParts (parts : List (List DataDecryptJob)) :
    D.holds (awaitParts suite parts).run := by
  induction parts with
  | nil => exact D.ret _
  | cons part parts ih =>
    refine D.bindExcept (calm_lift hcalm trivial) fun failed => ?_
    cases failed with
    | none =>
      refine D.bindExcept (D.lift (holds_decryptJobs hcalm part)) fun _ => ?_
      exact D.bindExcept ih fun _ => D.ret _
    | some text => exact holds_throw _

lemma holds_commitIpDataBatch
    (hcommit : ∀ p sessionId candidates items,
      D.holds (peerCall p (.commitRun sessionId candidates items)))
    (hdeliver : ∀ delivery, D.holds (call (.deliver delivery))) (packets : List Decrypted) :
    D.holds (commitIpDataBatch node packets) := by
  unfold commitIpDataBatch
  split
  · exact D.ret _
  refine D.bind (holds_parseBatch hcalm packets) fun parsed => ?_
  refine D.bind (D.collect _ _ fun run => ?_) fun runs => ?_
  · unfold commitGroup
    split
    · exact D.ret _
    · refine D.bind (calm_peer hcalm trivial) fun info => ?_
      refine D.bind (hcommit _ _ _ _) fun results => ?_
      cases results with
      | none => exact D.ret _
      | some results => exact D.ret _
  · refine D.bind (hcalm _ trivial) fun isLocal => ?_
    refine D.bind (holds_keepLocal hcalm _ _) fun accepted => ?_
    exact D.forM _ _ fun entry => holds_acceptPacket hcalm (hdeliver _) _

lemma holds_decryptDataBatch
    (hcontext : ∀ sessionId now, D.holds (dataDecryptContextAt node sessionId now).run)
    (hcommit : ∀ packets, D.holds (commitIpDataBatch node packets)) (packets : List DataPacket)
    (now : UInt64) : D.holds (decryptDataBatch suite node packets now).run := by
  refine D.bindExcept (D.lift (holds_collectJobs hcalm hcontext _ _ _)) fun jobs => ?_
  refine D.bindExcept (holds_queueParts hcalm _) fun _ => ?_
  exact D.bindExcept (holds_awaitParts hcalm _) fun decrypted => D.lift (hcommit decrypted)

/-! ### Packets of a session, keepalives -/

lemma holds_finishData (hremove : ∀ p sessionId, D.holds (call (.removeSession p sessionId)))
    (p : PeerRef) (info : PeerInfo) (sessionId : UInt64) (outcome : DataOutcome)
    (hcurrent : outcome ≠ .expired) : D.holds (finishData p info sessionId outcome).run := by
  cases outcome with
  | gone => exact D.lift (hremove _ _)
  | expired => exact absurd rfl hcurrent
  | failed error => exact holds_throw _
  | ignored => exact D.ret _
  | done events response =>
    refine D.bindExcept (D.lift (holds_whenSome fun _ => holds_emit hcalm trivial)) fun _ => ?_
    cases response with
    | none => exact D.ret _
    | some reply => exact holds_sendPacket hcalm _ _ _ _ _

end BySections

/-! ### Every request -/

/-- The programs that are not calm, and the calm sections: what is to be shown for a discipline. -/
structure Critical (suite : Suite) (node : Node) (fuel : ℕ) (D : Discipline Section Response) :
    Prop where
  calm : ∀ c, Mild c → D.holds (call c)
  encrypt : ∀ encryption, D.holds (call (.encryptPacket encryption))
  invalidate : ∀ p expected request, D.holds (invalidateSessionIf p expected request)
  replacePeer : ∀ info, D.holds (replacePeer info)
  removePeer : ∀ nodeId p, D.holds (removePeerLocked nodeId p)
  snapshot : ∀ snapshot, D.holds (applySnapshot suite node snapshot).run
  data : ∀ packet now, D.holds (decryptDataInlineAt suite node packet now).run
  dataBatch : ∀ packets now, D.holds (decryptDataBatch suite node packets now).run
  sessionPacket : ∀ p packet source, D.holds (handleSessionPacket p packet source).run
  keepalive : ∀ p, D.holds (keepalivePeer suite node p)

namespace Critical

variable (h : Critical suite node fuel D)

include h

lemma handlePacket {input : List UInt8} {source : SocketAddr}
    (hhandshake : ∀ packet, WirePacket.decode input = .ok packet → packet.header.packetType = .handshake →
      D.holds (handleHandshake suite node fuel packet source).run) :
    D.holds (handlePacket suite node fuel input source).run := by
  refine D.bindExcept (calm_lift h.calm trivial) fun now => ?_
  refine D.bindExcept (calm_lift h.calm trivial) fun expiresAt => ?_
  split
  · exact holds_throw _
  refine holds_ofExcept_bind fun packet hpacket => ?_
  have hdata : D.holds (handleData suite node packet source).run := by
    unfold handleData
    split
    · refine D.bindExcept (holds_ofExcept _) fun encoded => ?_
      refine D.bindExcept (holds_ofExcept _) fun packet => ?_
      exact D.bindExcept (calm_lift h.calm trivial) fun now => h.data _ _
    · refine D.bindExcept (calm_lift h.calm trivial) fun found => ?_
      cases found with
      | none => exact D.ret _
      | some p => exact h.sessionPacket _ _ _
  split
  · exact holds_handleProbe h.calm _ _
  · exact holds_handleProbeResponse h.calm _ _
  · exact hhandshake packet (of_mapError hpacket) ‹_›
  all_goals exact hdata

lemma readDatagram {input : List UInt8} {source : SocketAddr}
    (hhandshake : ∀ packet, WirePacket.decode input = .ok packet → packet.header.packetType = .handshake →
      D.holds (handleHandshake suite node fuel packet source).run) :
    D.holds (readDatagram suite node fuel input source) := by
  have hhandle := D.bind (h.handlePacket hhandshake) fun _ => D.ret PUnit.unit
  refine D.bind (h.calm _ trivial) fun _ => ?_
  split
  · exact D.ret _
  split
  · split
    · refine D.bind (h.calm _ trivial) fun _ => ?_
      split
      · exact D.ret _
      · exact D.bind (h.calm _ trivial) fun _ => holds_when (h.calm _ trivial)
    · exact hhandle
  · exact hhandle

lemma dataRound (worker : ℕ) : D.holds (dataRound suite node worker) := by
  refine D.bind (h.calm _ trivial) fun packets => ?_
  refine D.bind (h.calm _ trivial) fun now => ?_
  refine D.bind (h.calm _ trivial) fun expiresAt => ?_
  refine D.bind (h.calm _ trivial) fun _ => ?_
  split
  · exact D.ret _
  unfold decryptData
  split
  · exact D.bind (h.data _ _) fun _ => D.ret _
  · exact D.bind (h.dataBatch _ _) fun _ => D.ret _

/-- **Every request** meets the discipline. -/
theorem serve (q : Request) (hhandshake : ∀ input source, q = .datagram input source → ∀ packet,
      WirePacket.decode input = .ok packet → packet.header.packetType = .handshake →
      D.holds (handleHandshake suite node fuel packet source).run) : D.holds (serve suite node fuel q) := by
  cases q with
  | start => exact h.calm _ trivial
  | shutdown => exact h.calm _ trivial
  | registerPeer info =>
    refine D.bind (D.bindExcept (holds_ofExcept _) fun _ => ?_) fun _ => D.ret _
    refine D.bindExcept (holds_validatePeerMembership h.calm info) fun _ => ?_
    refine D.bindExcept (calm_lift h.calm trivial) fun unchanged => ?_
    exact D.lift (holds_when (h.replacePeer info))
  | removePeer nodeId =>
    refine D.bind (D.bind (h.calm _ trivial) fun found => ?_) fun _ => D.ret _
    cases found with
    | none => exact D.ret _
    | some p =>
      refine D.bind (h.calm _ trivial) fun _ => D.bind (h.removePeer nodeId p) fun _ => ?_
      exact D.bind (calm_peer h.calm trivial) fun _ => D.ret _
  | applySnapshot snapshot =>
    exact D.bind (h.snapshot snapshot) fun _ => D.ret _
  | sendIp packet => exact D.bind (holds_sendIp h.calm h.encrypt h.invalidate packet) fun _ => D.ret _
  | sendIpBatch packets =>
    exact D.bind (holds_sendIpBatch h.calm h.encrypt h.invalidate packets) fun _ => D.ret _
  | connect nodeId => exact D.bind (holds_connect h.calm nodeId) fun _ => D.ret _
  | datagram input source => exact h.readDatagram (hhandshake input source rfl)
  | dataRound worker => exact h.dataRound worker
  | keepaliveRound => exact D.bind (h.calm _ trivial) fun _ => D.forM _ _ h.keepalive
  | mtuRound => exact holds_mtuRound h.calm
  | reconnectLoop p => exact holds_reconnectLoop h.calm fuel p

end Critical

end Vela.Core
