import Vela.Core.Footprint

/-!
# What a task has in hand

A task of the node that has taken a session still has to remove it from the map of sessions; one that
took a peer out of the table still has to take its session; one that replaces a record has read the
old one under the mutex of snapshot updates.  `Holding` follows that, and `Holding.ok` is what every
program of the node does about it (`holding_serve`).
-/

namespace Vela.Core

open Vela.Proto Vela.Crypto Vela.Ip Prog Function

variable {suite : Suite} {node : Node} {fuel : ℕ}

/-- What a task has in hand between its sections. -/
structure Holding where
  /-- it holds the mutex `snapshot_update` -/
  locked : Bool
  /-- the peers it got from the table or allocated, by their ids -/
  refs : List (NodeId × PeerRef)
  /-- the copies of the table that it read -/
  copies : List PeerTable
  /-- the record it read last, if it is of such a peer -/
  known : Option (PeerRef × PeerInfo)
  /-- the peer that stays in the table and whose session it took last, until it stores a record -/
  taken : Option PeerRef
  /-- a session that is taken and may still be in the map -/
  removing : Option (PeerRef × UInt64)
  /-- peers that left the table and whose sessions are not taken yet -/
  retiring : List PeerRef
  /-- the end of a handshake that the node began -/
  finished : Option (PeerRef × NoiseHandshake)

namespace Holding

def start : Holding where
  locked := false
  refs := []
  copies := []
  known := none
  taken := none
  removing := none
  retiring := []
  finished := none

/-- The session of `p` is taken; it had the id `id`. -/
def take (γ : Holding) (p : PeerRef) (id : Option UInt64) : Holding :=
  { γ with
    taken := if p ∈ γ.retiring then γ.taken else some p
    removing := id.map (p, ·)
    retiring := γ.retiring.erase p }

/-- The record of `p` is read. -/
def learn (γ : Holding) (p : PeerRef) (info : PeerInfo) : Holding :=
  { γ with known := if p ∈ γ.refs.map Prod.snd then some (p, info) else none }

/-- The peers of a table that another table does not have. -/
def dropped (old replacement : PeerTable) : List PeerRef :=
  (old.entries.filter fun entry => (replacement.lookup entry.1).isNone).map Sigma.snd

def next (γ : Holding) : (c : Section) → Response c → Holding
  | .lockSnapshotUpdate, _ => { γ with locked := true, known := none, taken := none }
  | .unlockSnapshotUpdate, _ => { γ with locked := false }
  | .peerFor nodeId, found => { γ with refs := found.toList.map (nodeId, ·) ++ γ.refs }
  | .peerTable, table =>
    { γ with
      refs := (table.entries.map fun entry => (entry.1, entry.2)) ++ γ.refs
      copies := table :: γ.copies }
  | .allocate info _, p => { γ with refs := (info.nodeId, p) :: γ.refs }
  | .peer p .info, info => γ.learn p info
  -- without an expected id the session is always taken
  | .peer p (.takeActive none), taken => γ.take p taken.join
  | .peer p (.takeActive (some _)), some id => γ.take p id
  | .peer _ (.storeInfo _), _ => { γ with known := none, taken := none }
  | .peer p .keepalive, .rekey _ id => { γ with removing := some (p, id) }
  | .peer p (.handleData _ packet _), .expired =>
    { γ with removing := some (p, packet.header.sessionId) }
  | .registerPeer _, previous => { γ with retiring := previous.toList }
  | .removePeer _ p, removed => { γ with retiring := if removed then [p] else [] }
  | .replacePeers _ replacement, old => { γ with retiring := dropped old replacement }
  | .establish _ _ _ _ _ _, _ => { γ with finished := none }
  | .removeSession _ _, _ => { γ with removing := none }
  | .finishHandshake p _ _ _ _, .ok (some finished) =>
    { γ with finished := some (p, finished.handshake) }
  | _, _ => γ

/-- The task got the peer from the table or allocated it. -/
def Has (γ : Holding) (p : PeerRef) : Prop := ∃ nodeId, (nodeId, p) ∈ γ.refs

/-- A record is stored under the mutex, over one of the same identity or after the session was
taken. -/
def MayStore (γ : Holding) (p : PeerRef) (info : PeerInfo) : Prop :=
  γ.locked = true ∧ γ.Has p ∧
    (γ.taken = some p ∨ ∃ previous, γ.known = some (p, previous) ∧ sameIdentity previous info = true)

/-- A peer of the old table that is in the new one is the same there. -/
def Retains (old replacement : PeerTable) : Prop :=
  ∀ nodeId p q, old.lookup nodeId = some p → replacement.lookup nodeId = some q → q = p

/-- The sections that the programs perform, by what they have in hand; `R` is what is said of the handshakes
in which the node answers. -/
def okFor (R : NodeId → NoiseHandshake → Prop) (γ : Holding) : Section → Prop
  | .lockSnapshotUpdate => γ.locked = false
  | .unlockSnapshotUpdate => γ.locked = true
  | .peer _ (.takeActive _) | .peer _ .keepalive | .peer _ (.handleData _ _ _) => γ.removing = none
  | .peer p (.storeInfo info) => γ.MayStore p info
  | .registerPeer _ | .removePeer _ _ => γ.retiring = []
  | .replacePeers _ replacement => γ.retiring = [] ∧ γ.locked = true ∧
      (∀ nodeId p, replacement.lookup nodeId = some p → (nodeId, p) ∈ γ.refs) ∧
      ∃ old ∈ γ.copies, Retains old replacement
  | .establish p _ _ _ _ handshake => γ.Has p ∧
      ((∃ nodeId, (nodeId, p) ∈ γ.refs ∧ R nodeId handshake) ∨ γ.finished = some (p, handshake))
  | .finishHandshake p _ _ _ _ => γ.Has p
  | .removeSession p id => ∀ duty, γ.removing = some duty → duty = (p, id)
  | _ => True

abbrev ok : Holding → Section → Prop := okFor fun _ handshake => handshake.isInitiator = false

/-- Nothing is left to do with a session. -/
structure Settled (γ : Holding) : Prop where
  removing : γ.removing = none
  retiring : γ.retiring = []

/-- The task is between two operations. -/
structure AtRest (γ : Holding) : Prop extends Settled γ where
  unlocked : γ.locked = false

/-- Only what the task knows has changed: it may know more peers and another record. -/
structure Learns (γ γ' : Holding) : Prop where
  locked : γ'.locked = γ.locked
  refs : γ.refs ⊆ γ'.refs
  copies : γ.copies ⊆ γ'.copies
  taken : γ'.taken = γ.taken
  removing : γ'.removing = γ.removing
  retiring : γ'.retiring = γ.retiring
  finished : γ'.finished = γ.finished

end Holding

open Holding

lemma Holding.Learns.refl (γ : Holding) : γ.Learns γ :=
  ⟨rfl, List.Subset.refl _, List.Subset.refl _, rfl, rfl, rfl, rfl⟩

variable {γ γ' a b : Holding} {p : PeerRef} {c : Section} {α : Type} {s s' : NodeState} {R : NodeId → NoiseHandshake → Prop}
  {handshake : NoiseHandshake} {table oldPeers : PeerTable} {acc : Replacement} {φ : ℕ → Holding} {t : ℕ}
  {q : Request}

lemma Holding.Learns.trans {c : Holding} (h : a.Learns b) (h' : b.Learns c) : a.Learns c :=
  ⟨h'.locked.trans h.locked, List.Subset.trans h.refs h'.refs, List.Subset.trans h.copies h'.copies,
    h'.taken.trans h.taken, h'.removing.trans h.removing, h'.retiring.trans h.retiring,
    h'.finished.trans h.finished⟩

lemma Holding.Learns.settled (h : γ.Learns γ') (hγ : γ.Settled) : γ'.Settled :=
  ⟨h.removing.trans hγ.removing, h.retiring.trans hγ.retiring⟩

lemma Holding.Learns.has (h : γ.Learns γ') (hp : γ.Has p) : γ'.Has p := by
  obtain ⟨nodeId, hp⟩ := hp
  exact ⟨nodeId, h.refs hp⟩

lemma Holding.okFor.mono {R' : NodeId → NoiseHandshake → Prop} (hok : γ.okFor R c)
    (h : ∀ nodeId handshake, R nodeId handshake → R' nodeId handshake) : γ.okFor R' c := by
  cases c with
  | establish p _ _ _ _ handshake =>
    refine ⟨hok.1, hok.2.imp_left ?_⟩
    rintro ⟨nodeId, hmem, hR⟩
    exact ⟨nodeId, hmem, h nodeId handshake hR⟩
  | peer p op => cases op <;> exact hok
  | _ => exact hok

lemma calm_ok (hc : Calm c) : γ.okFor R c := by
  cases c with
  | peer p op =>
    cases op with
    | takeActive _ | keepalive | handleData _ _ _ | commitRun _ _ _ | storeInfo _
    | storeMembership _ => exact hc.elim
    | _ => trivial
  | registerPeer _ | removePeer _ _ | allocate _ _ | replacePeers _ _ | establish _ _ _ _ _ _
  | insertSession _ _ | removeSession _ _ | sessionCipher _ _ | finishHandshake _ _ _ _ _
  | deliver _ | encryptPacket _ | storeExpiresAt _ | lockSnapshotUpdate | unlockSnapshotUpdate =>
    exact hc.elim
  | _ => trivial

lemma calm_learns (hc : Calm c) (r : Response c) : γ.Learns (γ.next c r) := by
  cases c with
  | peer p op =>
    cases op with
    | takeActive _ | keepalive | handleData _ _ _ | commitRun _ _ _ | storeInfo _
    | storeMembership _ => exact hc.elim
    | info => exact ⟨rfl, List.Subset.refl _, List.Subset.refl _, rfl, rfl, rfl, rfl⟩
    | _ => exact .refl γ
  | registerPeer _ | removePeer _ _ | allocate _ _ | replacePeers _ _ | establish _ _ _ _ _ _
  | insertSession _ _ | removeSession _ _ | sessionCipher _ _ | finishHandshake _ _ _ _ _
  | deliver _ | encryptPacket _ | storeExpiresAt _ | lockSnapshotUpdate | unlockSnapshotUpdate =>
    exact hc.elim
  | peerFor nodeId =>
    exact ⟨rfl, List.subset_append_right _ _, List.Subset.refl _, rfl, rfl, rfl, rfl⟩
  | peerTable =>
    exact ⟨rfl, List.subset_append_right _ _, List.subset_cons_self _ _, rfl, rfl, rfl, rfl⟩
  | _ => exact .refl γ

/-! ### Programs that only learn -/

/-- The discipline of programs that change nothing but what the task knows. -/
def learning (R : NodeId → NoiseHandshake → Prop) : Discipline Section Response where
  holds p := ∀ γ : Holding, p.Meets next (okFor R) (fun γ' _ => γ.Learns γ') γ
  ret _ γ := .refl γ
  bind hp hf γ := Meets.bind (hp γ) fun γ' a hγ' => (hf a γ').mono fun _ _ h => hγ'.trans h

lemma learning_calm (c : Section) (hc : Mild c) : (learning R).holds (call c) :=
  fun _ => ⟨calm_ok hc.calm, fun r => calm_learns hc.calm r⟩

lemma learning_emit (event : VelaEvent) (h : Calm (.emit event)) : (learning R).holds (emit event) :=
  (learning R).bind (fun _ => ⟨calm_ok h, fun r => calm_learns h r⟩) fun _ => (learning R).ret _

lemma learning_call (hok : ∀ γ : Holding, γ.okFor R c) (hnext : ∀ (γ : Holding) r, γ.next c r = γ) :
    (learning R).holds (call c) := by
  intro γ
  refine ⟨hok γ, fun r => ?_⟩
  change γ.Learns (γ.next c r)
  rw [hnext]
  exact .refl γ

/-! ### Sessions are taken -/

lemma meets_removeTaken (γ : Holding) (p : PeerRef) (id : Option UInt64) :
    (whenSome id fun id => call (.removeSession p id)).Meets next (okFor R)
      (fun γ' _ => γ' = γ.take p none) (γ.take p id) := by
  cases id with
  | none => rfl
  | some id =>
    refine ⟨fun duty hduty => ?_, fun _ => rfl⟩
    exact (Option.some.inj hduty).symm

lemma meets_afterInvalidation (γ : Holding) (p : PeerRef) (id : Option UInt64) (request : Bool) :
    (afterInvalidation p id request).Meets next (okFor R) (fun γ' _ => (γ.take p none).Learns γ')
      (γ.take p id) := by
  refine Meets.bind (meets_removeTaken γ p id) fun γ' _ hγ' => ?_
  rw [hγ']
  have hcalm : ∀ {op : PeerOp}, Mild (.peer p op) → (learning R).holds (peerCall p op) :=
    fun hop => calm_peer learning_calm hop
  have hrest : (learning R).holds (do
      let hadAttempt ← peerCall p .takeAttempt
      peerCall p .clearQueue
      when (request && (id.isSome || hadAttempt)) (peerCall p .requestReconnect)
      peerCall p (.setConnecting false)
      when id.isSome do
        let info ← peerCall p .info
        emit (.peerDisconnected info.nodeId)) := by
    refine (learning R).bind (hcalm trivial) fun _ => (learning R).bind (hcalm trivial) fun _ => ?_
    refine (learning R).bind (holds_when (hcalm trivial)) fun _ => ?_
    refine (learning R).bind (hcalm trivial) fun _ => holds_when ?_
    exact (learning R).bind (hcalm trivial) fun _ => learning_emit _ trivial
  exact hrest _

lemma meets_invalidateSession (hγ : γ.removing = none) (p : PeerRef) (request : Bool) :
    (invalidateSession p request).Meets next (okFor R) (fun γ' _ => (γ.take p none).Learns γ') γ := by
  refine Meets.callBind hγ fun taken => ?_
  cases taken with
  | none => exact Learns.refl _
  | some id => exact meets_afterInvalidation γ p id request

lemma meets_invalidateSessionIf (hγ : γ.removing = none) (p : PeerRef) (expected : Option UInt64)
    (request : Bool) :
    (invalidateSessionIf p expected request).Meets next (okFor R)
      (fun γ' _ => γ.Learns γ' ∨ (γ.take p none).Learns γ') γ := by
  cases expected with
  | none => exact (meets_invalidateSession hγ p request).mono fun _ _ h => .inr h
  | some expected =>
    refine Meets.callBind hγ fun taken => ?_
    cases taken with
    | none => exact .inl (.refl γ)
    | some id => exact (meets_afterInvalidation γ p id request).mono fun _ _ h => .inr h

lemma meets_retirePeer (hγ : γ.removing = none) (p : PeerRef) :
    (retirePeer p).Meets next (okFor R) (fun γ' _ => (γ.take p none).Learns γ') γ := by
  have hcalm : ∀ {op : PeerOp}, Mild (.peer p op) → (learning R).holds (peerCall p op) :=
    fun hop => calm_peer learning_calm hop
  refine Meets.callBind trivial fun _ => Meets.callBind trivial fun _ => ?_
  refine Meets.callBind hγ fun taken => ?_
  refine Meets.bind (meets_removeTaken γ p taken.join) fun γ' _ hγ' => ?_
  rw [hγ']
  have hrest : (learning R).holds (do
      peerCall p .clearAttempt
      peerCall p .clearQueue
      return taken.join.isSome) :=
    (learning R).bind (hcalm trivial) fun _ => (learning R).bind (hcalm trivial) fun _ => (learning R).ret _
  exact hrest _

/-! ### Programs that leave nothing behind -/

/-- The task has done what it had to do with sessions, and still knows what it knew. -/
structure Holding.Keeps (γ γ' : Holding) : Prop extends γ'.Settled where
  locked : γ'.locked = γ.locked
  refs : γ.refs ⊆ γ'.refs
  copies : γ.copies ⊆ γ'.copies
  finished : γ'.finished = γ.finished

lemma Holding.Learns.keeps (h : γ.Learns γ') (hγ : γ.Settled) : γ.Keeps γ' :=
  ⟨h.settled hγ, h.locked, h.refs, h.copies, h.finished⟩

lemma Holding.Settled.take (hγ : γ.Settled) (p : PeerRef) : γ.Keeps (γ.take p none) :=
  ⟨⟨rfl, by rw [Holding.take, hγ.retiring]; rfl⟩, rfl, List.Subset.refl _, List.Subset.refl _, rfl⟩

lemma Holding.Keeps.trans {c : Holding} (h : a.Keeps b) (h' : b.Keeps c) : a.Keeps c :=
  ⟨h'.toSettled, h'.locked.trans h.locked, List.Subset.trans h.refs h'.refs,
    List.Subset.trans h.copies h'.copies, h'.finished.trans h.finished⟩

def keeping (R : NodeId → NoiseHandshake → Prop) : Discipline Section Response where
  holds p := ∀ γ : Holding, γ.Settled → p.Meets next (okFor R) (fun γ' _ => γ.Keeps γ') γ
  ret _ γ hγ := (Learns.refl γ).keeps hγ
  bind hp hf γ hγ := Meets.bind (hp γ hγ) fun γ' a hγ' =>
    (hf a γ' hγ'.toSettled).mono fun _ _ h => hγ'.trans h

lemma keeping_of_learning {p : Task α} (h : (learning R).holds p) : (keeping R).holds p :=
  fun γ hγ => (h γ).mono fun _ _ h => h.keeps hγ

lemma keeping_calm (c : Section) (hc : Mild c) : (keeping R).holds (call c) :=
  keeping_of_learning (learning_calm c hc)

lemma keeping_emit (event : VelaEvent) (h : Calm (.emit event)) : (keeping R).holds (emit event) :=
  keeping_of_learning (learning_emit event h)

lemma keeping_call (hok : ∀ γ : Holding, γ.okFor R c) (hnext : ∀ (γ : Holding) r, γ.next c r = γ) :
    (keeping R).holds (call c) :=
  keeping_of_learning (learning_call hok hnext)

lemma keeping_encrypt (encryption : Encryption) : (keeping R).holds (call (.encryptPacket encryption)) :=
  keeping_call (fun _ => trivial) fun _ _ => rfl

lemma keeping_invalidate (p : PeerRef) (expected : Option UInt64) (request : Bool) :
    (keeping R).holds (invalidateSessionIf p expected request) := by
  intro γ hγ
  refine (meets_invalidateSessionIf hγ.removing p expected request).mono fun γ' _ h => ?_
  rcases h with h | h
  · exact h.keeps hγ
  · exact (hγ.take p).trans (h.keeps (hγ.take p).toSettled)

lemma keeping_removeSession (p : PeerRef) (id : UInt64) :
    (keeping R).holds (call (.removeSession p id)) := by
  intro γ hγ
  refine ⟨fun duty hduty => ?_, fun _ =>
    ⟨⟨rfl, hγ.retiring⟩, rfl, List.Subset.refl _, List.Subset.refl _, rfl⟩⟩
  rw [hγ.removing] at hduty
  cases hduty

lemma meets_retired (hγ : γ.Settled) (p : PeerRef) :
    (retirePeer p).Meets next (okFor R) (fun γ' _ => γ.Keeps γ') { γ with retiring := [p] } := by
  refine (meets_retirePeer (γ := { γ with retiring := [p] }) hγ.removing p).mono fun γ' _ h => ?_
  have herase : ({ γ with retiring := [p] } : Holding).take p none =
      { γ with removing := none, retiring := [] } := by
    simp [Holding.take]
  rw [herase] at h
  exact ⟨⟨h.removing, h.retiring⟩, h.locked, h.refs, h.copies, h.finished⟩

lemma keeping_replacePeer (info : PeerInfo) : (keeping R).holds (replacePeer info) := by
  intro γ hγ
  refine Meets.callBind hγ.retiring fun previous => ?_
  cases previous with
  | none => exact ⟨⟨hγ.removing, rfl⟩, rfl, List.Subset.refl _, List.Subset.refl _, rfl⟩
  | some p =>
    refine Meets.callBind trivial fun previousInfo => ?_
    have hknown : (γ.learn p previousInfo).Settled :=
      ⟨hγ.removing, hγ.retiring⟩
    refine Meets.bind (meets_retired hknown p) fun γ' disconnected hγ' => ?_
    have hemit : (keeping R).holds (when disconnected (emit (.peerDisconnected previousInfo.nodeId))) :=
      holds_when (keeping_emit _ trivial)
    refine (hemit γ' hγ'.toSettled).mono fun _ _ h => ?_
    exact Keeps.trans ⟨hγ'.toSettled, hγ'.locked, hγ'.refs, hγ'.copies, hγ'.finished⟩ h

lemma keeping_removePeer (nodeId : NodeId) (p : PeerRef) :
    (keeping R).holds (removePeerLocked nodeId p) := by
  intro γ hγ
  refine Meets.callBind hγ.retiring fun removed => ?_
  cases removed with
  | false => exact ⟨⟨hγ.removing, rfl⟩, rfl, List.Subset.refl _, List.Subset.refl _, rfl⟩
  | true =>
    have hretire : Meets next (okFor R) (fun γ' _ => γ.Keeps γ') { γ with retiring := [p] } (do
        let _ ← retirePeer p
        emit (.peerDisconnected nodeId)) := by
      refine Meets.bind (meets_retired hγ p) fun γ' _ hγ' => ?_
      have hemit : (keeping R).holds (emit (.peerDisconnected nodeId)) := keeping_emit _ trivial
      exact (hemit γ' hγ'.toSettled).mono fun _ _ h => hγ'.trans h
    exact Meets.bind hretire fun γ' _ h => h

lemma keeping_sessionPacket (p : PeerRef) (packet : WirePacket) (source : SocketAddr) :
    (keeping R).holds (handleSessionPacket p packet source).run := by
  refine (keeping R).bindExcept (calm_liftPeer keeping_calm trivial) fun info => ?_
  intro γ hγ
  refine Meets.callBind hγ.removing fun outcome => ?_
  cases outcome with
  | expired =>
    refine Meets.callBind (fun duty hduty => (Option.some.inj hduty).symm) fun _ => ?_
    have hrest : (keeping R).holds (do
        lift (peerCall p .clearAttempt)
        lift (peerCall p .clearQueue)
        lift (emit (.peerDisconnected info.nodeId))
        throw .peerCredentialExpired : NodeM CoreError Unit).run := by
      refine (keeping R).bindExcept (calm_liftPeer keeping_calm trivial) fun _ => ?_
      refine (keeping R).bindExcept (calm_liftPeer keeping_calm trivial) fun _ => ?_
      exact (keeping R).bindExcept ((keeping R).lift (keeping_emit _ trivial)) fun _ => holds_throw _
    have hremoved : ({ γ with removing := none } : Holding).Settled :=
      ⟨rfl, hγ.retiring⟩
    refine (hrest _ hremoved).mono fun _ _ h => ?_
    exact ⟨h.toSettled, h.locked, h.refs, h.copies, h.finished⟩
  | gone => exact holds_finishData keeping_calm keeping_removeSession p info _ .gone nofun γ hγ
  | failed error =>
    exact holds_finishData keeping_calm keeping_removeSession p info _ (.failed error) nofun γ hγ
  | ignored => exact holds_finishData keeping_calm keeping_removeSession p info _ .ignored nofun γ hγ
  | done events response =>
    exact holds_finishData keeping_calm keeping_removeSession p info _ (.done events response) nofun γ hγ

lemma keeping_keepalive (p : PeerRef) : (keeping R).holds (keepalivePeer suite node p) := by
  refine (keeping R).bind (calm_peer keeping_calm trivial) fun info => ?_
  refine (keeping R).bind (holds_authorityExpired keeping_calm p) fun expired => ?_
  split
  · exact keeping_invalidate p none true
  intro γ hγ
  refine Meets.callBind hγ.removing fun outcome => ?_
  cases outcome with
  | idle => exact (keeping R).ret _ γ hγ
  | dead =>
    have hdead : (keeping R).holds (do
        invalidateSession p true
        scheduleReconnect p) :=
      (keeping R).bind (keeping_invalidate p none true) fun _ => holds_scheduleReconnect keeping_calm p
    exact hdead γ hγ
  | rekey path sessionId =>
    refine Meets.callBind (fun duty hduty => (Option.some.inj hduty).symm) fun _ => ?_
    have hrest : (keeping R).holds (do
        peerCall p .clearAttempt
        when (nodeIdLt (node.nodeId suite) info.nodeId) do
          let sessionId ← call .randomSessionId
          peerCall p (.newAttempt sessionId info.candidates)
          let _ ← (startInitiator p path sessionId).run) := by
      refine (keeping R).bind (calm_peer keeping_calm trivial) fun _ => holds_when ?_
      refine (keeping R).bind (keeping_calm _ trivial) fun _ => ?_
      refine (keeping R).bind (calm_peer keeping_calm trivial) fun _ => ?_
      exact (keeping R).bind (holds_startInitiator keeping_calm _ _ _) fun _ => (keeping R).ret _
    have hremoved : ({ γ with removing := none } : Holding).Settled :=
      ⟨rfl, hγ.retiring⟩
    refine (hrest _ hremoved).mono fun _ _ h => ?_
    exact ⟨h.toSettled, h.locked, h.refs, h.copies, h.finished⟩
  | keepalive reply =>
    cases reply with
    | none => exact (keeping R).ret _ γ hγ
    | some reply =>
      have hsend : (keeping R).holds (do
          let _ ← call (.sendPacket reply.path .keepAlive reply.sessionId reply.sequence reply.payload)) :=
        (keeping R).bind (keeping_calm _ trivial) fun _ => (keeping R).ret _
      exact hsend γ hγ

lemma keeping_context (sessionId now : UInt64) :
    (keeping R).holds (dataDecryptContextAt node sessionId now).run :=
  holds_dataDecryptContextAt keeping_calm keeping_invalidate
    (fun _ _ => keeping_call (fun _ => trivial) fun _ _ => rfl) sessionId now

lemma keeping_commitRun (p : PeerRef) (sessionId : UInt64) (candidates : Option (List Candidate))
    (items : List CommitItem) : (keeping R).holds (peerCall p (.commitRun sessionId candidates items)) :=
  keeping_call (fun _ => trivial) fun _ _ => rfl

lemma keeping_deliver (delivery : Delivery) : (keeping R).holds (call (.deliver delivery)) :=
  keeping_call (fun _ => trivial) fun _ _ => rfl

lemma keeping_data (packet : DataPacket) (now : UInt64) :
    (keeping R).holds (decryptDataInlineAt suite node packet now).run :=
  holds_decryptDataInlineAt keeping_calm keeping_context
    (holds_commitIpData keeping_calm keeping_commitRun keeping_deliver) packet now

lemma keeping_dataBatch (packets : List DataPacket) (now : UInt64) :
    (keeping R).holds (decryptDataBatch suite node packets now).run :=
  holds_decryptDataBatch keeping_calm keeping_context
    (holds_commitIpDataBatch keeping_calm keeping_commitRun keeping_deliver) packets now

/-! ### Handshakes -/

lemma Holding.Keeps.atRest (h : γ.Keeps γ') (hγ : γ.AtRest) : γ'.AtRest :=
  ⟨h.toSettled, h.locked.trans hγ.unlocked⟩

lemma meets_establish {nodeId : NodeId} (hγ : γ.AtRest) (hp : (nodeId, p) ∈ γ.refs) (sessionId : UInt64) (path : SocketAddr)
    (cipher : SessionCipher) (expected : PeerInfo)
    (hhandshake : (∃ nodeId, (nodeId, p) ∈ γ.refs ∧ R nodeId handshake) ∨ γ.finished = some (p, handshake)) :
    (establish suite node fuel p sessionId path cipher expected handshake).Meets next (okFor R)
      (fun γ' _ => γ'.AtRest ∧ (nodeId, p) ∈ γ'.refs) γ := by
  refine Meets.callBind ⟨⟨nodeId, hp⟩, hhandshake⟩ fun established => ?_
  cases established with
  | false => exact ⟨⟨⟨hγ.removing, hγ.retiring⟩, hγ.unlocked⟩, hp⟩
  | true =>
    refine Meets.callBind trivial fun _ => ?_
    have hcalm : ∀ {op : PeerOp}, Mild (.peer p op) → (keeping R).holds (peerCall p op) :=
      fun hop => calm_peer keeping_calm hop
    have hrest : (keeping R).holds (do
        peerCall p (.recordPath path expected.candidates)
        peerCall p .clearFailure
        peerCall p (.setConnecting false)
        peerCall p .clearAttempt
        peerCall p .finishReconnect
        let info ← peerCall p .info
        emit (.peerConnected info.nodeId)
        flushQueue suite node fuel p) := by
      refine (keeping R).bind (hcalm trivial) fun _ => (keeping R).bind (hcalm trivial) fun _ => ?_
      refine (keeping R).bind (hcalm trivial) fun _ => (keeping R).bind (hcalm trivial) fun _ => ?_
      refine (keeping R).bind (hcalm trivial) fun _ => (keeping R).bind (hcalm trivial) fun _ => ?_
      refine (keeping R).bind (keeping_emit _ trivial) fun _ => ?_
      exact holds_flushQueue keeping_calm keeping_encrypt keeping_invalidate p
    have hrested : ({ γ with finished := none } : Holding).AtRest := ⟨⟨hγ.removing, hγ.retiring⟩, hγ.unlocked⟩
    exact (hrest _ hrested.toSettled).mono fun _ _ h => ⟨h.atRest hrested, h.refs hp⟩

lemma meets_replaceSession {nodeId : NodeId} (hγ : γ.AtRest) (hp : (nodeId, p) ∈ γ.refs) (sessionId : UInt64) (path : SocketAddr)
    (cipher : SessionCipher) (expected : PeerInfo)
    (hhandshake : (∃ nodeId, (nodeId, p) ∈ γ.refs ∧ R nodeId handshake) ∨ γ.finished = some (p, handshake)) :
    (replaceSession suite node fuel p sessionId path cipher expected handshake).Meets next (okFor R)
      (fun γ' _ => γ'.AtRest ∧ (nodeId, p) ∈ γ'.refs) γ := by
  refine Meets.callBind trivial fun active => ?_
  have hold : (keeping R).holds (when active.isSome (invalidateSession p false)) :=
    holds_when (keeping_invalidate p none false)
  refine Meets.bind (hold γ hγ.toSettled) fun γ' _ h => ?_
  refine meets_establish (h.atRest hγ) (h.refs hp) sessionId path cipher expected ?_
  refine hhandshake.imp ?_ fun hfinished => h.finished.trans hfinished
  rintro ⟨nodeId, hmem, hR⟩
  exact ⟨nodeId, h.refs hmem, hR⟩

lemma meets_completeHandshake {nodeId : NodeId} (hγ : γ.AtRest) (hp : (nodeId, p) ∈ γ.refs) (info : PeerInfo) (sender : NodeId)
    (sessionId : UInt64) (message : List UInt8) (source : SocketAddr) :
    (completeHandshake suite node fuel p info sender sessionId message source).run.Meets next (okFor R)
      (fun γ' _ => γ'.AtRest ∧ (nodeId, p) ∈ γ'.refs) γ := by
  refine Meets.callBind ⟨nodeId, hp⟩ fun result => ?_
  match result with
  | .error error => exact ⟨hγ, hp⟩
  | .ok none => exact ⟨hγ, hp⟩
  | .ok (some finished) =>
    have hfinished : ({ γ with finished := some (p, finished.handshake) } : Holding).AtRest :=
      ⟨⟨hγ.removing, hγ.retiring⟩, hγ.unlocked⟩
    change Meets next (okFor R) _ _ ((replaceSession suite node fuel p sessionId source
      (finished.keys.cipher true) info finished.handshake).bind fun done => .ret (Except.ok done))
    exact Meets.bind (meets_replaceSession hfinished hp _ _ _ _ (.inr rfl)) fun γ' _ h => h

/-- What is said of the handshakes in which the node answers the packet. -/
def Answering (suite : Suite) (node : Node) (R : NodeId → NoiseHandshake → Prop) (packet : WirePacket) : Prop :=
  packet.payload.getD 0 0 = 1 → nodeIdLt (node.nodeId suite) ⟨arrayAt 32 packet.payload 1⟩ = false →
    ∀ entropy context, R ⟨arrayAt 32 packet.payload 1⟩ { NoiseHandshake.responder node.identity with
      calls := [.wrote entropy context, .read (packet.payload.drop 33)] }

lemma resting_handshake {packet : WirePacket} (hpacket : Answering suite node R packet) (source : SocketAddr) :
    (Discipline.monitor next (okFor R) Holding.AtRest).holds
      (handleHandshake suite node fuel packet source).run := by
  intro γ hγ
  unfold handleHandshake
  split
  · exact hγ
  refine Meets.callBind trivial fun found => ?_
  cases found with
  | none => exact ⟨⟨hγ.removing, hγ.retiring⟩, hγ.unlocked⟩
  | some p =>
    have hfound : ({ γ with refs := (⟨arrayAt 32 packet.payload 1⟩, p) :: γ.refs } : Holding).AtRest :=
      ⟨⟨hγ.removing, hγ.retiring⟩, hγ.unlocked⟩
    -- the task is at rest, and has the peer under the id of the sender
    let D : Discipline Section Response := .monitor next (okFor R) fun γ' =>
      γ'.AtRest ∧ (⟨arrayAt 32 packet.payload 1⟩, p) ∈ γ'.refs
    have hcalm : ∀ c, Mild c → D.holds (call c) := fun c hc γ hγ =>
      (keeping_calm c hc γ hγ.1.toSettled).mono fun _ _ h => ⟨h.atRest hγ.1, h.refs hγ.2⟩
    refine Meets.mono (?_ : Meets next (okFor R) (fun γ' _ => γ'.AtRest ∧
      ((⟨arrayAt 32 packet.payload 1⟩ : NodeId), p) ∈ γ'.refs) _ _) fun _ _ h => h.1
    refine (?_ : D.holds _) _ ⟨hfound, .head _⟩
    refine D.bindExcept (calm_liftPeer hcalm trivial) fun info => ?_
    refine D.bindExcept (holds_validatePeerMembership hcalm info) fun _ => ?_
    refine D.bindExcept (calm_liftPeer hcalm trivial) fun active => ?_
    split
    · exact D.ret _
    split
    · rename_i hrole
      split
      · exact D.ret _
      · rename_i horder
        exact holds_respondHandshake hcalm fun cipher entropy context γ hγ =>
          (meets_replaceSession hγ.1 hγ.2 _ _ cipher info
            (.inl ⟨_, hγ.2, hpacket hrole (by simpa using horder) entropy context⟩))
    split
    · split
      · exact D.ret _
      · exact fun γ hγ => meets_completeHandshake hγ.1 hγ.2 info _ _ _ source
    · exact D.ret _

/-! ### Snapshots -/

/-- The task holds the mutex and nothing else. -/
structure Holding.Updating (γ : Holding) : Prop extends γ.Settled where
  locked : γ.locked = true

/-- The task still holds the mutex, and the peers it had. -/
structure Holding.Goes (γ γ' : Holding) : Prop extends γ'.Updating where
  refs : γ.refs ⊆ γ'.refs
  copies : γ.copies ⊆ γ'.copies

lemma Holding.Keeps.goes (h : γ.Keeps γ') (hγ : γ.Updating) : γ.Goes γ' :=
  ⟨⟨h.toSettled, h.locked.trans hγ.locked⟩, h.refs, h.copies⟩

lemma Holding.Goes.trans {c : Holding} (h : a.Goes b) (h' : b.Goes c) : a.Goes c :=
  ⟨h'.toUpdating, List.Subset.trans h.refs h'.refs, List.Subset.trans h.copies h'.copies⟩

lemma Holding.Updating.goes (hγ : γ.Updating) : γ.Goes γ :=
  ⟨hγ, List.Subset.refl _, List.Subset.refl _⟩

lemma meets_canRetainSession (hp : γ.Has p) (info : PeerInfo) :
    (canRetainSession p info).Meets next (okFor R) (fun γ' retain => γ.Learns γ' ∧
      (retain = true → ∃ previous, γ'.known = some (p, previous) ∧ sameIdentity previous info = true))
      γ := by
  refine Meets.callBind trivial fun previous => ?_
  have hlearns : γ.Learns (γ.learn p previous) :=
    ⟨rfl, List.Subset.refl _, List.Subset.refl _, rfl, rfl, rfl, rfl⟩
  have hknown : (γ.learn p previous).known = some (p, previous) := by
    obtain ⟨nodeId, hp⟩ := hp
    exact if_pos (List.mem_map.2 ⟨_, hp, rfl⟩)
  split
  · rename_i hsame
    refine Meets.callBind trivial fun active => ?_
    cases active with
    | some session => exact ⟨hlearns, fun _ => ⟨previous, hknown, hsame⟩⟩
    | none => exact Meets.callBind trivial fun _ => ⟨hlearns, fun _ => ⟨previous, hknown, hsame⟩⟩
  · exact ⟨hlearns, nofun⟩

lemma meets_updateInfo (hγ : γ.Updating) {info : PeerInfo} (hstore : γ.MayStore p info) :
    (updateInfo suite node p info).Meets next (okFor R) (fun γ' _ => γ.Goes γ') γ := by
  refine Meets.callBind trivial fun _ => ?_
  exact ⟨hstore, fun _ => ⟨⟨⟨hγ.removing, hγ.retiring⟩, hγ.locked⟩, List.Subset.refl _, List.Subset.refl _⟩⟩

lemma meets_retainPeer (hγ : γ.Updating) (hp : γ.Has p) (info : PeerInfo) (online : Bool) :
    (retainPeer suite node p info online).Meets next (okFor R) (fun γ' _ => γ.Goes γ') γ := by
  refine Meets.bind (meets_canRetainSession hp info) fun γ₁ retain h => ?_
  obtain ⟨hlearns, hretain⟩ := h
  have hgoes₁ : γ.Goes γ₁ := (hlearns.keeps hγ.toSettled).goes hγ
  -- the session is taken, or the record keeps the identity
  have htake : (when (!retain) (invalidateSession p true)).Meets next (okFor R)
      (fun γ₂ _ => γ₁.Goes γ₂ ∧ γ₂.MayStore p info) γ₁ := by
    cases retain with
    | true => exact ⟨hgoes₁.toUpdating.goes, hgoes₁.locked, hlearns.has hp, .inr (hretain rfl)⟩
    | false =>
      refine (meets_invalidateSession hgoes₁.removing p true).mono fun γ₂ _ h₂ => ?_
      have hkept : γ₁.Goes γ₂ := by
        have hkeeps := hgoes₁.toSettled.take p
        exact (hkeeps.trans (h₂.keeps hkeeps.toSettled)).goes hgoes₁.toUpdating
      refine ⟨hkept, hkept.locked, h₂.has (hlearns.has hp), .inl (h₂.taken.trans ?_)⟩
      rw [Holding.take, hgoes₁.retiring]
      rfl
  refine Meets.bind htake fun γ₂ _ h₂ => ?_
  refine Meets.bind (meets_updateInfo h₂.1.toUpdating h₂.2) fun γ₃ _ h₃ => ?_
  have hgoes₃ : γ.Goes γ₃ := (hgoes₁.trans h₂.1).trans h₃
  have hrest : (keeping R).holds (do
      peerCall p (.setOnline online)
      if online then peerCall p .resumeReconnect else return false) := by
    refine (keeping R).bind (calm_peer keeping_calm trivial) fun _ => ?_
    split
    · exact calm_peer keeping_calm trivial
    · exact (keeping R).ret _
  exact (hrest γ₃ hgoes₃.toSettled).mono fun _ _ h => hgoes₃.trans (h.goes hgoes₃.toUpdating)

/-- The peers of a table are peers that the task has. -/
def Holding.Covers (γ : Holding) (table : PeerTable) : Prop :=
  ∀ nodeId p, table.lookup nodeId = some p → (nodeId, p) ∈ γ.refs

lemma Holding.Covers.insert (h : γ.Covers table) {nodeId : NodeId} (hp : (nodeId, p) ∈ γ.refs) :
    γ.Covers (table.insert nodeId p) := by
  intro nodeId' p' hlookup
  by_cases hid : nodeId' = nodeId
  · subst hid
    rw [AList.lookup_insert] at hlookup
    cases hlookup
    exact hp
  · rw [AList.lookup_insert_ne hid] at hlookup
    exact h nodeId' p' hlookup

/-- The task has a copy of the table and the peers of a new table, which retains those of the copy. -/
structure Holding.Prepares (γ : Holding) (old table : PeerTable) : Prop where
  copied : old ∈ γ.copies
  found : γ.Covers old
  covers : γ.Covers table
  retains : Retains old table

lemma Holding.Prepares.goes (h : γ.Prepares oldPeers table) (hgoes : γ.Goes γ') :
    γ'.Prepares oldPeers table :=
  ⟨hgoes.copies h.copied, fun _ _ hlookup => hgoes.refs (h.found _ _ hlookup),
    fun _ _ hlookup => hgoes.refs (h.covers _ _ hlookup), h.retains⟩

lemma Holding.Prepares.insert (h : γ.Prepares oldPeers table) {nodeId : NodeId}
    (hp : (nodeId, p) ∈ γ.refs) (hold : ∀ q, oldPeers.lookup nodeId = some q → p = q) :
    γ.Prepares oldPeers (table.insert nodeId p) := by
  refine ⟨h.copied, h.found, h.covers.insert hp, fun nodeId' q q' hq hq' => ?_⟩
  by_cases hid : nodeId' = nodeId
  · subst hid
    rw [AList.lookup_insert] at hq'
    cases hq'
    exact hold q hq
  · rw [AList.lookup_insert_ne hid] at hq'
    exact h.retains nodeId' q q' hq hq'

lemma meets_snapshotRemote (hγ : γ.Updating) (hacc : γ.Prepares oldPeers acc.peers)
    (onlinePeers : List NodeId) (info : PeerInfo) :
    (snapshotRemote suite node onlinePeers oldPeers acc info).Meets next (okFor R)
      (fun γ' acc => γ.Goes γ' ∧ γ'.Prepares oldPeers acc.peers) γ := by
  unfold snapshotRemote
  dsimp only
  split
  · rename_i p hp
    have href := hacc.found _ _ hp
    refine Meets.bind (meets_retainPeer hγ ⟨_, href⟩ info _) fun γ' reconnect hgoes => ?_
    refine ⟨hgoes, ?_⟩
    rw [Replacement.retain_peers]
    exact (hacc.goes hgoes).insert (hgoes.refs href) fun q hq => Option.some.inj (hp.symm.trans hq)
  · rename_i hnew
    refine Meets.callBind trivial fun p => ?_
    have hgoes : γ.Goes { γ with refs := (info.nodeId, p) :: γ.refs } :=
      ⟨⟨⟨hγ.removing, hγ.retiring⟩, hγ.locked⟩, List.subset_cons_self .., List.Subset.refl _⟩
    refine ⟨hgoes, (hacc.goes hgoes).insert (.head _) fun q hq => ?_⟩
    cases hnew.symm.trans hq

lemma goes_bindExcept {ε β : Type} (hγ : γ.Updating) {x : NodeM ε α} (hx : (keeping R).holds x.run)
    {f : α → NodeM ε β} {Q : Holding → Except ε β → Prop}
    (hf : ∀ γ' a, γ.Goes γ' → (f a).run.Meets next (okFor R) Q γ')
    (herror : ∀ γ' error, γ.Goes γ' → Q γ' (.error error)) : (x >>= f).run.Meets next (okFor R) Q γ := by
  refine Meets.bindExcept (M := fun γ' _ => γ.Goes γ') ((hx γ hγ.toSettled).mono ?_) hf
  intro γ' result h
  cases result with
  | ok a => exact h.goes hγ
  | error error => exact herror γ' error (h.goes hγ)

/-- What the loop over the records leaves: the new table is prepared. -/
def Replaces (oldPeers : PeerTable) : Holding → Except CoreError Replacement → Prop :=
  Prog.outcome (fun γ acc => γ.Updating ∧ γ.Prepares oldPeers acc.peers) fun γ _ => γ.Updating

lemma meets_snapshotPeers (hγ : γ.Updating) (hacc : γ.Prepares oldPeers acc.peers)
    (onlinePeers : List NodeId) (peers : List PeerInfo) :
    (snapshotPeers suite node onlinePeers oldPeers acc peers).run.Meets next (okFor R)
      (Replaces oldPeers) γ := by
  induction peers generalizing γ acc with
  | nil => exact ⟨hγ, hacc⟩
  | cons info peers ih =>
    refine goes_bindExcept hγ (holds_ofExcept _) (fun γ₁ _ h₁ => ?_) fun _ _ h => h.toUpdating
    refine goes_bindExcept h₁.toUpdating (holds_validatePeerMembership keeping_calm info)
      (fun γ₂ _ h₂ => ?_) fun _ _ h => h.toUpdating
    have hacc₂ := hacc.goes (h₁.trans h₂)
    split
    · exact ih h₂.toUpdating hacc₂
    · refine Meets.bindExcept (M := fun γ' acc => γ₂.Goes γ' ∧ γ'.Prepares oldPeers acc.peers) ?_ ?_
      · exact Meets.bind (meets_snapshotRemote h₂.toUpdating hacc₂ onlinePeers info) fun γ' acc h => h
      · exact fun γ' acc h => ih h.1.toUpdating h.2

lemma meets_dropPeers {replacement : PeerTable} {entries : List (Sigma fun _ : NodeId => PeerRef)}
    (hremoving : γ.removing = none) (hlocked : γ.locked = true)
    (hretiring : γ.retiring =
      (entries.filter fun entry => (replacement.lookup entry.1).isNone).map Sigma.snd) :
    (dropPeers replacement entries).Meets next (okFor R) (fun γ' _ => γ'.Updating) γ := by
  induction entries generalizing γ with
  | nil => exact ⟨⟨hremoving, hretiring⟩, hlocked⟩
  | cons entry entries ih =>
    unfold dropPeers
    cases hdrop : (replacement.lookup entry.1).isNone with
    | false =>
      refine ih hremoving hlocked ?_
      rw [hretiring, List.filter_cons_of_neg (by simp [hdrop])]
    | true =>
      rw [List.filter_cons_of_pos (by simp [hdrop]), List.map_cons] at hretiring
      refine Meets.bind (?_ : Meets next (okFor R) (fun γ' _ => (γ.take entry.2 none).Learns γ') γ _)
        fun γ' _ h => ?_
      · refine Meets.callBind trivial fun _ => Meets.callBind trivial fun _ => ?_
        exact meets_invalidateSession hremoving entry.2 false
      · refine ih h.removing (h.locked.trans hlocked) ?_
        rw [h.retiring, Holding.take, hretiring, List.erase_cons_head]

lemma meets_installSnapshot (hγ : γ.Updating) (snapshot : NetworkSnapshot) (info : PeerInfo)
    {replacement : Replacement} (hprepares : γ.Prepares oldPeers replacement.peers) :
    (installSnapshot snapshot info replacement).Meets next (okFor R) (fun γ' _ => γ'.Updating) γ := by
  have hroutes := holds_snapshotRoutes (keeping_calm (R := R))
    (RouteTable.new (virtualAddresses info.virtualIpv4 info.virtualIpv6))
    (replacement.peers.entries.map Sigma.snd)
  refine Meets.bind (hroutes γ hγ.toSettled) fun γ₁ routes h₁ => ?_
  have hgoes₁ := h₁.goes hγ
  have hprepares₁ := hprepares.goes hgoes₁
  refine Meets.callBind ⟨hgoes₁.retiring, hgoes₁.locked, hprepares₁.covers, oldPeers,
    hprepares₁.copied, hprepares₁.retains⟩ fun oldPeers => ?_
  refine Meets.callBind trivial fun _ => Meets.callBind trivial fun _ => ?_
  refine Meets.callBind trivial fun _ => Meets.callBind trivial fun _ => ?_
  refine Meets.callBind trivial fun _ => ?_
  refine Meets.bind (meets_dropPeers (γ := { γ₁ with retiring := dropped oldPeers replacement.peers })
    hgoes₁.removing hgoes₁.locked rfl) fun γ₂ _ h₂ => ?_
  have hreconnect : (keeping R).holds (replacement.reconnectPeers.forM scheduleReconnect) :=
    (keeping R).forM _ _ (holds_scheduleReconnect keeping_calm)
  exact (hreconnect γ₂ h₂.toSettled).mono fun _ _ h => (h.goes h₂).toUpdating

lemma meets_applySnapshotLocked (hγ : γ.Updating) (snapshot : NetworkSnapshot) :
    (applySnapshotLocked suite node snapshot).run.Meets next (okFor R) (fun γ' _ => γ'.Updating) γ := by
  refine goes_bindExcept hγ (holds_verifySignature keeping_calm snapshot) (fun γ₁ _ h₁ => ?_)
    fun _ _ h => h.toUpdating
  refine goes_bindExcept h₁.toUpdating (calm_lift (c := .unixTime) keeping_calm trivial)
    (fun γ₂ now h₂ => ?_)
    fun _ _ h => h.toUpdating
  refine goes_bindExcept h₂.toUpdating (holds_ofExcept _) (fun γ₃ _ h₃ => ?_)
    fun _ _ h => h.toUpdating
  refine goes_bindExcept h₃.toUpdating (calm_lift (c := .snapshotGeneration) keeping_calm trivial)
    (fun γ₄ generation h₄ => ?_)
    fun _ _ h => h.toUpdating
  refine goes_bindExcept h₄.toUpdating (holds_ofExcept _) (fun γ₅ info h₅ => ?_)
    fun _ _ h => h.toUpdating
  -- the copy of the table
  refine Meets.callBind trivial fun oldPeers => ?_
  set γ₆ := γ₅.next .peerTable oldPeers with hγ₆
  have hcopied : γ₆.Updating := ⟨⟨h₅.removing, h₅.retiring⟩, h₅.locked⟩
  have hempty : ∀ nodeId, (∅ : PeerTable).lookup nodeId = none := fun _ => AList.lookup_empty _
  have hprepares : γ₆.Prepares oldPeers ∅ := by
    refine ⟨.head _, fun nodeId p hlookup => ?_, fun nodeId p hlookup => ?_, fun nodeId p q _ hq => ?_⟩
    · have hmem := AList.mem_lookup_iff.1 (Option.mem_def.2 hlookup)
      exact List.mem_append_left _ (List.mem_map.2 ⟨_, hmem, rfl⟩)
    · cases (hempty nodeId).symm.trans hlookup
    · cases (hempty nodeId).symm.trans hq
  have hloop : (snapshotPeers suite node snapshot.onlinePeers oldPeers ⟨∅, [], []⟩
      snapshot.peers).run.Meets next (okFor R) (Replaces oldPeers) γ₆ :=
    meets_snapshotPeers hcopied hprepares _ _
  refine Meets.bindExcept
    (M := fun (γ' : Holding) (acc : Replacement) => γ'.Updating ∧ γ'.Prepares oldPeers acc.peers) hloop
    fun γ₇ replacement h₇ => ?_
  exact Meets.bind (meets_installSnapshot h₇.1 snapshot info h₇.2) fun _ _ h => h

/-! ### Every request -/

/-- The task is at rest before and after. -/
abbrev resting (R : NodeId → NoiseHandshake → Prop) : Discipline Section Response := .monitor next (okFor R) Holding.AtRest

lemma resting_of_keeping {p : Task α} (h : (keeping R).holds p) : (resting R).holds p :=
  fun γ hγ => (h γ hγ.toSettled).mono fun _ _ h => h.atRest hγ

lemma resting_snapshot (snapshot : NetworkSnapshot) :
    (resting R).holds (applySnapshot suite node snapshot).run := by
  intro γ hγ
  refine Meets.callBind hγ.unlocked fun _ => ?_
  have hlocked : ({ γ with locked := true, known := none, taken := none } : Holding).Updating :=
    ⟨⟨hγ.removing, hγ.retiring⟩, rfl⟩
  refine Meets.bind (meets_applySnapshotLocked hlocked snapshot) fun γ' _ h => ?_
  exact Meets.callBind h.locked fun _ => ⟨⟨h.removing, h.retiring⟩, rfl⟩

lemma critical_resting : Critical suite node fuel (resting R) where
  calm c hc := resting_of_keeping (keeping_calm c hc)
  encrypt encryption := resting_of_keeping (keeping_encrypt encryption)
  invalidate p expected request := resting_of_keeping (keeping_invalidate p expected request)
  replacePeer info := resting_of_keeping (keeping_replacePeer info)
  removePeer nodeId p := resting_of_keeping (keeping_removePeer nodeId p)
  snapshot := resting_snapshot
  data packet now := resting_of_keeping (keeping_data packet now)
  dataBatch packets now := resting_of_keeping (keeping_dataBatch packets now)
  sessionPacket p packet source := resting_of_keeping (keeping_sessionPacket p packet source)
  keepalive p := resting_of_keeping (keeping_keepalive p)

lemma atRest_start : Holding.start.AtRest := ⟨⟨rfl, rfl⟩, rfl⟩

/-- **Every request** does what the monitor says, and leaves nothing behind. -/
theorem holding_serve_for {q : Request} (hq : ∀ input source, q = .datagram input source → ∀ packet,
      WirePacket.decode input = .ok packet → packet.header.packetType = .handshake →
      Answering suite node R packet) :
    (serve suite node fuel q).Meets next (okFor R) (fun γ _ => γ.AtRest) Holding.start := by
  refine critical_resting.serve q (fun input source hinput packet hpacket htype => ?_) _ atRest_start
  exact resting_handshake (hq input source hinput packet hpacket htype) source

theorem holding_serve (suite : Suite) (node : Node) (fuel : ℕ) (q : Request) :
    (serve suite node fuel q).Meets next ok (fun γ _ => γ.AtRest) Holding.start :=
  holding_serve_for fun _ _ _ _ _ _ _ _ _ _ => rfl

/-- **The rule for invariants of the node**, over its state and what its tasks have in hand. -/
theorem holding_invariant {I : NodeState → (ℕ → Holding) → Prop}
    {guard : Pool.Config Section Response NodeState Holding → Pool.Move Env Request → Prop}
    {cfg : Pool.Config Section Response NodeState Holding}
    (h : (nodePool suite node fuel Holding.start Holding.next).Reachable guard
      ((nodePool suite node fuel Holding.start Holding.next).initial s) cfg)
    (hinit : I s fun _ => Holding.start)
    (hspawn : ∀ s s' φ t (q : Request), I s φ → (φ t).AtRest → q.accept s = some s' →
      I s' (update φ t Holding.start))
    (hstep : ∀ (cfg : Pool.Config Section Response NodeState Holding) t e c r s',
      I cfg.shared cfg.phase → guard cfg (.step t e) → cfg.at t = some c → (cfg.phase t).ok c →
      exec suite node e c cfg.shared = some (r, s') →
      I s' (update cfg.phase t ((cfg.phase t).next c r))) :
    I cfg.shared cfg.phase ∧
      ∀ t, (cfg.prog t).Meets next ok (fun γ _ => γ.AtRest) (cfg.phase t) :=
  h.invariant_rest (fun _ => ⟨⟨⟩, rfl⟩) (fun _ => atRest_start) hinit
    (fun _ _ q _ => holding_serve suite node fuel q) hspawn hstep

/-! ### What tasks have in hand is there -/

/-- At most one task holds the mutex, and the peers that tasks and the table point to are allocated,
each under its node id. -/
structure Sound (s : NodeState) (φ : ℕ → Holding) : Prop where
  mutex : ∀ t, (φ t).locked = true → s.snapshotUpdate = true
  sole : ∀ t u, (φ t).locked = true → (φ u).locked = true → t = u
  refs : ∀ t nodeId p, (nodeId, p) ∈ (φ t).refs → p.nodeId = nodeId ∧ p.address < s.allocated
  table : ∀ nodeId p, s.peers.lookup nodeId = some p → p.nodeId = nodeId ∧ p.address < s.allocated

lemma Sound.has (h : Sound s φ) (hp : (φ t).Has p) : p.address < s.allocated := by
  obtain ⟨nodeId, hp⟩ := hp
  exact (h.refs t nodeId p hp).2

lemma sound_initial (heap : PeerRef → PeerState) :
    Sound (NodeState.new node heap) fun _ => Holding.start where
  mutex _ h := by cases h
  sole _ _ h := by cases h
  refs _ _ _ h := by cases h
  table nodeId p h := by
    change (∅ : PeerTable).lookup nodeId = some p at h
    rw [AList.lookup_empty] at h
    cases h

lemma accept_eq (h : q.accept s = some s') : ∃ spawned, s' = { s with spawned } := by
  cases q with
  | datagram _ _ | dataRound _ | keepaliveRound | mtuRound =>
    simp only [Request.accept] at h
    split at h
    · exact ⟨s.spawned, (Option.some.inj h).symm⟩
    · cases h
  | reconnectLoop p =>
    simp only [Request.accept] at h
    split at h
    · exact ⟨_, (Option.some.inj h).symm⟩
    · cases h
  | _ => exact ⟨s.spawned, (Option.some.inj h).symm⟩

lemma sound_spawn (h : Sound s φ) (haccept : q.accept s = some s') :
    Sound s' (update φ t Holding.start) := by
  obtain ⟨spawned, rfl⟩ := accept_eq haccept
  have hlocked : ∀ u, (update φ t Holding.start u).locked = true → (φ u).locked = true := by
    refine Pool.forall_update (P := fun u (γ : Holding) => γ.locked = true → (φ u).locked = true) ?_
      fun _ h => h
    exact nofun
  refine ⟨fun u hu => h.mutex u (hlocked u hu), fun u v hu hv => h.sole u v (hlocked u hu) (hlocked v hv),
    ?_, h.table⟩
  refine Pool.forall_update (P := fun _ (γ : Holding) => ∀ nodeId p, (nodeId, p) ∈ γ.refs →
    p.nodeId = nodeId ∧ p.address < s.allocated) ?_ h.refs
  exact nofun

lemma next_locked (hlock : c ≠ .lockSnapshotUpdate) (hunlock : c ≠ .unlockSnapshotUpdate) (γ : Holding)
    (r : Response c) : (γ.next c r).locked = γ.locked := by
  fun_cases Holding.next γ c r
  case case1 => exact (hlock rfl).elim
  case case2 => exact (hunlock rfl).elim
  all_goals rfl

lemma next_refs (hfind : ∀ nodeId, c ≠ .peerFor nodeId) (htable : c ≠ .peerTable)
    (hallocate : ∀ info online, c ≠ .allocate info online) (γ : Holding) (r : Response c) :
    (γ.next c r).refs = γ.refs := by
  fun_cases Holding.next γ c r
  case case3 => exact (hfind _ rfl).elim
  case case4 => exact (htable rfl).elim
  case case5 => exact (hallocate _ _ rfl).elim
  all_goals rfl

lemma next_refs_subset (γ : Holding) (r : Response c) : γ.refs ⊆ (γ.next c r).refs := by
  by_cases hfind : ∃ nodeId, c = .peerFor nodeId
  · obtain ⟨nodeId, rfl⟩ := hfind
    exact List.subset_append_right _ _
  by_cases htable : c = .peerTable
  · subst htable
    exact List.subset_append_right _ _
  by_cases hallocate : ∃ info online, c = .allocate info online
  · obtain ⟨info, online, rfl⟩ := hallocate
    exact List.subset_cons_self ..
  · rw [next_refs (fun nodeId h => hfind ⟨nodeId, h⟩) htable
      fun info online h => hallocate ⟨info, online, h⟩]
    exact List.Subset.refl _

section Step

variable {s s' : NodeState} {φ : ℕ → Holding} {t : ℕ} {e : Env} {c : Section} {r : Response c}

lemma TableEffect.allocated_le (h : TableEffect s s' c r) : s.allocated ≤ s'.allocated := by
  cases h with
  | same _ h => exact h
  | allocated _ h _ => omega
  | registered _ _ h => omega
  | removed _ _ h => omega
  | absent _ h => omega
  | replaced _ _ h => omega

lemma sound_refs (h : Sound s φ) (hexec : exec suite node e c s = some (r, s')) (nodeId : NodeId)
    (p : PeerRef) (hp : (nodeId, p) ∈ ((φ t).next c r).refs) :
    p.nodeId = nodeId ∧ p.address < s'.allocated := by
  have hle := (table_step hexec).allocated_le
  have hold : (nodeId, p) ∈ (φ t).refs → p.nodeId = nodeId ∧ p.address < s'.allocated :=
    fun hp => ⟨(h.refs t nodeId p hp).1, (h.refs t nodeId p hp).2.trans_le hle⟩
  have hfound : s.peers.lookup nodeId = some p → p.nodeId = nodeId ∧ p.address < s'.allocated :=
    fun hp => ⟨(h.table nodeId p hp).1, (h.table nodeId p hp).2.trans_le hle⟩
  cases c with
  | peerFor nodeId' =>
    obtain ⟨rfl, -⟩ := Prod.mk.inj (Option.some.inj hexec)
    rcases List.mem_append.1 hp with hp | hp
    · obtain ⟨q, hq, heq⟩ := List.mem_map.1 hp
      obtain ⟨rfl, rfl⟩ := Prod.mk.inj heq
      exact hfound (Option.mem_toList.1 hq)
    · exact hold hp
  | peerTable =>
    obtain ⟨rfl, -⟩ := Prod.mk.inj (Option.some.inj hexec)
    rcases List.mem_append.1 hp with hp | hp
    · obtain ⟨entry, hentry, heq⟩ := List.mem_map.1 hp
      obtain ⟨rfl, rfl⟩ := Prod.mk.inj heq
      exact hfound (AList.mem_lookup_iff.2 hentry)
    · exact hold hp
  | allocate info online =>
    obtain ⟨rfl, rfl⟩ := Prod.mk.inj (Option.some.inj hexec)
    rcases List.mem_cons.1 hp with heq | hp
    · obtain ⟨rfl, rfl⟩ := Prod.mk.inj heq
      exact ⟨rfl, Nat.lt_succ_self s.allocated⟩
    · exact hold hp
  | _ =>
    rw [next_refs (by simp) (by simp) (by simp)] at hp
    exact hold hp

lemma sound_table (h : Sound s φ) (hok : (φ t).ok c) (hexec : exec suite node e c s = some (r, s'))
    (nodeId : NodeId) (p : PeerRef) (hp : s'.peers.lookup nodeId = some p) :
    p.nodeId = nodeId ∧ p.address < s'.allocated := by
  have hold : s.allocated ≤ s'.allocated → s.peers.lookup nodeId = some p →
      p.nodeId = nodeId ∧ p.address < s'.allocated :=
    fun hle hp => ⟨(h.table nodeId p hp).1, (h.table nodeId p hp).2.trans_le hle⟩
  cases table_step hexec with
  | same hpeers hle => exact hold hle (hpeers ▸ hp)
  | allocated hpeers hallocated _ => exact hold (by omega) (hpeers ▸ hp)
  | @registered info previous hprevious hpeers hallocated =>
    rw [hpeers] at hp
    by_cases hid : nodeId = info.nodeId
    · subst hid
      rw [AList.lookup_insert] at hp
      cases hp
      exact ⟨rfl, by rw [hallocated]; exact Nat.lt_succ_self _⟩
    · rw [AList.lookup_insert_ne hid] at hp
      exact hold (by omega) hp
  | @removed nodeId' q hq hpeers hallocated =>
    rw [hpeers] at hp
    by_cases hid : nodeId = nodeId'
    · subst hid
      rw [AList.lookup_erase] at hp
      cases hp
    · rw [AList.lookup_erase_ne hid] at hp
      exact hold (by omega) hp
  | absent hpeers hallocated => exact hold (by omega) (hpeers ▸ hp)
  | replaced hprevious hpeers hallocated =>
    rw [hpeers] at hp
    obtain ⟨-, -, hcovers, -⟩ := hok
    rw [hallocated]
    exact h.refs t nodeId p (hcovers nodeId p hp)

lemma sound_step (h : Sound s φ) (hok : (φ t).ok c) (hexec : exec suite node e c s = some (r, s')) :
    Sound s' (update φ t ((φ t).next c r)) := by
  have hle := (table_step hexec).allocated_le
  have hrefs : ∀ u nodeId p, (nodeId, p) ∈ (update φ t ((φ t).next c r) u).refs →
      p.nodeId = nodeId ∧ p.address < s'.allocated := by
    refine Pool.forall_update (P := fun _ (γ : Holding) => ∀ nodeId p, (nodeId, p) ∈ γ.refs →
      p.nodeId = nodeId ∧ p.address < s'.allocated) (sound_refs h hexec) fun u nodeId p hp => ?_
    exact ⟨(h.refs u nodeId p hp).1, (h.refs u nodeId p hp).2.trans_le hle⟩
  by_cases hlock : c = .lockSnapshotUpdate
  · subst hlock
    simp only [exec] at hexec
    split at hexec
    · cases hexec
    rename_i hfree
    obtain ⟨-, rfl⟩ := Prod.mk.inj (Option.some.inj hexec)
    -- nobody else holds the mutex
    have hnone : ∀ u, (φ u).locked = false := by
      intro u
      rw [← Bool.not_eq_true]
      exact fun hu => hfree (h.mutex u hu)
    have honly : ∀ u, (update φ t ((φ t).next .lockSnapshotUpdate r) u).locked = true →
        u = t := by
      intro u hu
      by_contra hne
      rw [update_of_ne hne, hnone u] at hu
      cases hu
    exact ⟨fun _ _ => rfl, fun u v hu hv => (honly u hu).trans (honly v hv).symm, hrefs, h.table⟩
  by_cases hunlock : c = .unlockSnapshotUpdate
  · subst hunlock
    have hmine : (φ t).locked = true := hok
    have hnone : ∀ u, (update φ t ((φ t).next .unlockSnapshotUpdate r) u).locked = true →
        False := by
      intro u hu
      by_cases hut : u = t
      · subst hut
        rw [update_self] at hu
        cases hu
      · rw [update_of_ne hut] at hu
        exact hut (h.sole u t hu hmine)
    exact ⟨fun u hu => (hnone u hu).elim, fun u _ hu _ => (hnone u hu).elim, hrefs,
      sound_table h hok hexec⟩
  · have hlocked : ∀ u, (update φ t ((φ t).next c r) u).locked = (φ u).locked := by
      refine Pool.forall_update (P := fun u (γ : Holding) => γ.locked = (φ u).locked) ?_ fun _ => rfl
      exact next_locked hlock hunlock (φ t) r
    refine ⟨fun u hu => ?_, fun u v hu hv => ?_, hrefs, sound_table h hok hexec⟩
    · rw [snapshotUpdate_step hexec hlock hunlock]
      exact h.mutex u (hlocked u ▸ hu)
    · exact h.sole u v (hlocked u ▸ hu) (hlocked v ▸ hv)

end Step

section Demo

/-- The pool of the small network. -/
abbrev demoPool : Pool.Spec Section Response NodeState Env Request Holding :=
  nodePool demoSuite demoNode 3 Holding.start Holding.next

lemma demoState_active (p : PeerRef) : (demoState.heap p).active = none := rfl

end Demo

end Vela.Core
