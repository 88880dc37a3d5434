import Vela.Runtime.Refusal
import Vela.Coord.Footprint

/-!
# What the runtime's task does

A monitor of the one task that handles events: which snapshot it has received, which it has applied and
not published, whether it is refreshing its candidates or joining the network, and whether the node has
refused a snapshot.  `course_serve` says once, for every event, what the task may do; the invariants of
the later modules rest on it.
-/

namespace Vela.Runtime

open Vela.Proto Vela.Crypto Prog Function
open Vela.Coord (carried)

/-- What is known of the event that is being handled. -/
structure Course where
  /-- the snapshot that came last, and has neither been applied nor put back -/
  hand : Option NetworkSnapshot
  /-- it came from the wire, not from the client's queue -/
  fresh : Bool
  /-- the snapshot that was applied and that the peer's state does not follow yet -/
  loose : Option NetworkSnapshot
  /-- the snapshot that was applied and is to be published -/
  latest : Option NetworkSnapshot
  /-- what was read as the snapshot of the peer's state -/
  seen : Option (Option NetworkSnapshot)
  /-- the candidates are being collected -/
  refreshing : Bool
  /-- a new connection was registered -/
  joining : Bool
  /-- a request was sent, and no snapshot was applied since -/
  waiting : Bool
  /-- the node has refused a snapshot -/
  broken : Bool
  /-- the node has answered that a snapshot is stale -/
  stale : Bool
  concluded : Bool

namespace Course

def start : Course where
  hand := none
  fresh := false
  loose := none
  latest := none
  seen := none
  refreshing := false
  joining := false
  waiting := false
  broken := false
  stale := false
  concluded := false

/-- The node has answered with an error. -/
def refused (γ : Course) (error : Core.CoreError) : Course :=
  { γ with stale := γ.stale || decide (error = .staleSnapshot) }

def next (γ : Course) : (c : Section) → Response c → Course
  | .popPending, r => { γ with hand := r.bind carried, fresh := false }
  | .recvWire _, .ok message => { γ with hand := carried message, fresh := true }
  | .recvWire _, .error _ => { γ with hand := none }
  | .pushPending _, _ | .enqueuePending _, _ => { γ with hand := none }
  | .send _ _, _ => { γ with waiting := true }
  | .localCandidates, _ => { γ with refreshing := true }
  | .adopt, _ => { γ with joining := true }
  -- a refresh does not publish, unless it is part of joining
  | .applySnapshot snapshot, .ok _ =>
    { γ with
      hand := none, loose := some snapshot, seen := none, waiting := false
      latest := if γ.refreshing && !γ.joining then γ.latest else some snapshot }
  | .applySnapshot _, .error error => { γ.refused error with hand := none, broken := true }
  | .registerPeer _, .error error => γ.refused error
  | .storeSnapshot _, _ => { γ with loose := none }
  | .stateSnapshot, r => { γ with seen := some r }
  | .publish _, _ => { γ with latest := none, seen := none, joining := false }
  | .conclude _, _ => { γ with concluded := true }
  | _, _ => γ

/-- Nothing is broken and nothing is half done. -/
structure Good (γ : Course) : Prop where
  broken : γ.broken = false
  loose : γ.loose = none
  concluded : γ.concluded = false

/-- Whatever was applied is published, or the peer is joining. -/
def Idle (γ : Course) : Prop := γ.Good ∧ (γ.latest = none ∨ γ.joining = true)

/-- Whatever was applied is published, and the peer is not joining. -/
structure Clear (γ : Course) : Prop where
  good : γ.Good
  latest : γ.latest = none
  joining : γ.joining = false

lemma Clear.idle {γ : Course} (h : γ.Clear) : γ.Idle := ⟨h.good, .inl h.latest⟩

/-- The loop may go on: whatever was applied is published, or the peer has joined and waits in vain for the
answer to a request. -/
def Done (γ : Course) : Prop := γ.Clear ∨ γ.Good ∧ γ.joining = true ∧ γ.waiting = true

lemma Done.good {γ : Course} (h : γ.Done) : γ.Good := h.elim Clear.good And.left

/-- The snapshot may be published: it was applied last, or it is what was read as the snapshot of the
state since. -/
def Publishes (γ : Course) (snapshot : NetworkSnapshot) : Prop :=
  γ.latest = some snapshot ∨
    γ.latest.isSome ∧ (γ.seen = some (some snapshot) ∨ γ.seen = some none)

/-- What the task may do next. -/
def ok (γ : Course) : Section → Prop
  | .pushPending message => carried message = none
  | .enqueuePending message =>
    γ.hand = carried message ∧ ((carried message).isSome → isSnapshot message = true)
  | .registerPeer _ => γ.Good
  | .applySnapshot snapshot => γ.Idle ∧ γ.hand = some snapshot
  | .storeSnapshot snapshot => γ.loose = some snapshot
  | .stateSnapshot => γ.Good
  | .publish snapshot => γ.Good ∧ γ.Publishes snapshot
  -- a snapshot that a refresh has fetched need not be published
  | .conclude outcome => (outcome.isRunning = true → γ.Done) ∧
      (γ.stale = false → outcome ≠ .ended (.error (.core .staleSnapshot)))
  | _ => True

/-- The event is handled. -/
def AtRest (γ : Course) : Prop := γ.concluded = true ∨ γ = start

end Course

open Course

variable {suite : Suite} {peer : Peer} {fuel : ℕ} {γ γ' : Course}

/-! ### Steps that the monitor does not follow -/

/-- Programs that leave the monitor as it is. -/
def still : Discipline Section Response where
  holds p := ∀ γ : Course, p.Meets next ok (fun γ' _ => γ' = γ) γ
  ret _ _ := rfl
  bind hp hf γ := Meets.bind (hp γ) fun γ' a h => by
    subst h
    exact hf a γ'

variable {α ε ε' β : Type} {snapshot : NetworkSnapshot} {p : Task α} {message : ControlMessage}
  {c : Section} {f : ε → ε'} {post : Course → Except ε β → Prop} {handling : ControlMessage → Handling α}

lemma still_call (hok : ∀ γ : Course, γ.ok c) (hnext : ∀ (γ : Course) r, γ.next c r = γ) :
    still.holds (call c) :=
  fun γ => ⟨hok γ, fun r => hnext γ r⟩

lemma still_bind {x : ExceptT ε Task α} {f : α → ExceptT ε Task β} (hx : still.holds x.run)
    (herror : ∀ e, post γ (.error e)) (hf : ∀ a, (f a).run.Meets next ok post γ) :
    (x >>= f).run.Meets next ok post γ := by
  refine Meets.bindExcept (M := fun γ' _ => γ' = γ) ?_ fun γ' a h => ?_
  · refine (hx γ).mono fun γ' r h => ?_
    subst h
    cases r with
    | ok a => rfl
    | error e => exact herror e
  · subst h
    exact hf a

lemma still_ofExcept (r : Except ε α) : still.holds (ofExcept r).run := still.ret r

lemma still_lift (hok : ∀ γ : Course, γ.ok c) (hnext : ∀ (γ : Course) r, γ.next c r = γ) :
    still.holds (lift (call c) : ExceptT ε Task (Response c)).run :=
  still.lift (still_call hok hnext)

lemma still_verifyPeerCredential (info : PeerInfo) :
    still.holds (CoordinationClient.verifyPeerCredential suite peer info).run :=
  still.bindExcept (still_lift (fun _ => trivial) fun _ _ => rfl) fun _ => still_ofExcept _

lemma still_verifyPublicPeer (value : PublicPeerInfo) :
    still.holds (CoordinationClient.verifyPublicPeer suite peer value).run :=
  still.bindExcept (still_ofExcept _) fun info =>
    still.bindExcept (still_verifyPeerCredential info) fun _ => still.ret _

lemma still_verifyPeerCredentials (infos : List PeerInfo) :
    still.holds (CoordinationClient.verifyPeerCredentials suite peer infos).run := by
  induction infos with
  | nil => exact still.ret _
  | cons info infos ih => exact still.bindExcept (still_verifyPeerCredential info) fun _ => ih

lemma still_verifyPublicPeers (values : List PublicPeerInfo) :
    still.holds (CoordinationClient.verifyPublicPeers suite peer values).run := by
  induction values with
  | nil => exact still.ret _
  | cons value values ih =>
    exact still.bindExcept (still_verifyPublicPeer value) fun _ =>
      still.bindExcept ih fun _ => still.ret _

/-! ### Requests of the client -/

/-- Only the snapshot in hand has changed, and requests may have been sent. -/
def Course.Frame (γ γ' : Course) : Prop :=
  ∃ hand fresh waiting, (γ.waiting = true → waiting = true) ∧ γ' = { γ with hand, fresh, waiting }

lemma Course.Frame.refl (γ : Course) : γ.Frame γ := ⟨γ.hand, γ.fresh, γ.waiting, id, rfl⟩

lemma Course.Frame.trans {a b c : Course} (h : a.Frame b) (h' : b.Frame c) : a.Frame c := by
  obtain ⟨_, _, _, hfirst, rfl⟩ := h
  obtain ⟨hand, fresh, waiting, hsecond, rfl⟩ := h'
  exact ⟨hand, fresh, waiting, fun h => hsecond (hfirst h), rfl⟩

lemma Course.Frame.idle (h : γ.Frame γ') (hγ : γ.Idle) : γ'.Idle := by
  obtain ⟨_, _, _, -, rfl⟩ := h
  exact ⟨⟨hγ.1.broken, hγ.1.loose, hγ.1.concluded⟩, hγ.2⟩

lemma Course.Frame.clear (h : γ.Frame γ') (hγ : γ.Clear) : γ'.Clear := by
  obtain ⟨_, _, _, -, rfl⟩ := h
  exact ⟨⟨hγ.1.broken, hγ.1.loose, hγ.1.concluded⟩, hγ.2, hγ.3⟩

/-- Programs that change nothing but the snapshot in hand, and send requests. -/
def framing : Discipline Section Response where
  holds p := ∀ γ : Course, p.Meets next ok (fun γ' _ => γ.Frame γ') γ
  ret _ γ := .refl γ
  bind hp hf γ := Meets.bind (hp γ) fun γ' a h => (hf a γ').mono fun _ _ h' => h.trans h'

lemma framing_of_still (h : still.holds p) : framing.holds p :=
  fun γ => (h γ).mono fun _ _ h => h ▸ .refl γ

lemma framing_send (request : Option String) (message : ControlMessage) :
    framing.holds (CoordinationClient.send request message).run :=
  fun γ => ⟨trivial, fun _ => ⟨γ.hand, γ.fresh, true, fun _ => rfl, rfl⟩⟩

lemma meets_sendBind {request : Option String} {f : Unit → ClientM β}
    {post : Course → Except CoordClientError β → Prop}
    (herror : ∀ e, post { γ with waiting := true } (.error e))
    (hf : (f ()).run.Meets next ok post { γ with waiting := true }) :
    (CoordinationClient.send request message >>= f).run.Meets next ok post γ := by
  refine ⟨trivial, fun r => ?_⟩
  cases r with
  | error error => exact herror error
  | ok _ => exact hf

lemma framing_mapError {p : ExceptT ε Task α} (h : framing.holds p.run) :
    framing.holds (mapError f p).run :=
  framing.bind h fun _ => framing.ret _

/-- What a request keeps for later is either a snapshot or carries none. -/
def Sorts {α : Type} (handling : ControlMessage → Handling α) : Prop :=
  ∀ message, (handling message = .enqueue → (carried message).isSome → isSnapshot message = true) ∧
    (handling message = .push → carried message = none)

lemma meets_awaitReply (hsorts : Sorts handling) (request : String) (fuel : ℕ) (γ : Course) :
    (awaitReply request handling fuel).run.Meets next ok (fun γ' r => γ.Frame γ' ∧
      ∀ a, r = .ok a → ∃ message, handling message = .answer a ∧ γ'.hand = carried message) γ := by
  induction fuel generalizing γ with
  | zero => exact ⟨.refl γ, (by simp)⟩
  | succ fuel ih =>
    rw [awaitReply]
    refine ⟨trivial, fun r => ?_⟩
    cases r with
    | error error => exact ⟨⟨_, γ.fresh, γ.waiting, id, rfl⟩, (by simp)⟩
    | ok message =>
      have hframe : γ.Frame (γ.next (.recvWire (some request)) (.ok message)) := ⟨_, _, _, id, rfl⟩
      have hlater : ∀ γ', γ.Frame γ' → (awaitReply request handling fuel).run.Meets next ok
          (fun γ' r => γ.Frame γ' ∧ ∀ a, r = .ok a →
            ∃ message, handling message = .answer a ∧ γ'.hand = carried message) γ' :=
        fun γ' h => (ih γ').mono fun _ _ h' => ⟨h.trans h'.1, h'.2⟩
      dsimp only [Prog.bind, ExceptT.bindCont]
      cases hhandling : handling message with
      | answer a =>
        refine ⟨hframe, fun b hb => ?_⟩
        obtain rfl := Except.ok.inj hb
        exact ⟨message, hhandling, rfl⟩
      | enqueue =>
        refine ⟨⟨rfl, (hsorts message).1 hhandling⟩, fun _ => ?_⟩
        exact hlater _ (hframe.trans ⟨_, _, _, id, rfl⟩)
      | push =>
        refine ⟨(hsorts message).2 hhandling, fun _ => ?_⟩
        exact hlater _ (hframe.trans ⟨_, _, _, id, rfl⟩)
      | drop => exact hlater _ hframe
      | refuse error => exact ⟨hframe, (by simp)⟩

lemma sorts_onSnapshotResponse : Sorts onSnapshotResponse := by
  intro message
  cases message <;> simp [onSnapshotResponse, carried, isSnapshot]

lemma sorts_onSnapshot : Sorts onSnapshot := by
  intro message
  cases message <;> simp [onSnapshot, carried]

lemma sorts_onPeerInfo : Sorts onPeerInfo := by
  intro message
  cases message <;> simp [onPeerInfo, isSnapshot]

lemma sorts_onListPeers : Sorts onListPeers := by
  intro message
  cases message <;> simp [onListPeers, isSnapshot]

lemma carried_onSnapshotResponse (h : onSnapshotResponse message = .answer snapshot) :
    carried message = some snapshot := by
  cases message <;> simp [onSnapshotResponse] at h
  rw [carried, h]

lemma carried_onSnapshot (h : onSnapshot message = .answer snapshot) : carried message = some snapshot := by
  cases message <;> simp [onSnapshot] at h
  rw [carried, h]

/-- A request for a snapshot ends with the snapshot in hand. -/
def Course.Fetches {ε : Type} (γ : Course) (γ' : Course) (r : Except ε NetworkSnapshot) : Prop :=
  (γ.Frame γ' ∧ γ'.waiting = true) ∧ ∀ snapshot, r = .ok snapshot → γ'.hand = some snapshot

lemma meets_fetch {request : String} {handling : ControlMessage → Handling NetworkSnapshot}
    (hsorts : Sorts handling)
    (hcarried : ∀ message snapshot, handling message = .answer snapshot → carried message = some snapshot)
    (fuel : ℕ) (γ : Course) :
    (CoordinationClient.send (some request) message >>= fun _ =>
      awaitReply request handling fuel).run.Meets next ok γ.Fetches γ := by
  have hsent : γ.Frame { γ with waiting := true } := ⟨_, _, true, fun _ => rfl, rfl⟩
  refine meets_sendBind (fun _ => ⟨⟨hsent, rfl⟩, nofun⟩) ?_
  refine (meets_awaitReply hsorts request fuel _).mono fun γ' r h => ⟨⟨hsent.trans h.1, ?_⟩, ?_⟩
  · obtain ⟨_, _, _, hwaiting, rfl⟩ := h.1
    exact hwaiting rfl
  rintro snapshot rfl
  obtain ⟨message, hanswer, hhand⟩ := h.2 snapshot rfl
  rw [hhand, hcarried message snapshot hanswer]

lemma meets_requestSnapshot (γ : Course) :
    (CoordinationClient.requestSnapshot fuel).run.Meets next ok γ.Fetches γ :=
  meets_fetch sorts_onSnapshotResponse (fun _ _ => carried_onSnapshotResponse) fuel γ

lemma meets_updateCandidates (candidates : List Candidate) (γ : Course) :
    (CoordinationClient.updateCandidatesAndGetSnapshot fuel candidates).run.Meets next ok
      γ.Fetches γ :=
  meets_fetch sorts_onSnapshot (fun _ _ => carried_onSnapshot) fuel γ

lemma framing_awaitReply (hsorts : Sorts handling) (request : String) :
    framing.holds (awaitReply request handling fuel).run :=
  fun γ => (meets_awaitReply hsorts request fuel γ).mono fun _ _ h => h.1

lemma framing_lookupPeer (nodeId : NodeId) :
    framing.holds (CoordinationClient.lookupPeer suite peer fuel nodeId).run :=
  framing.bindExcept (framing_send _ _) fun _ =>
    framing.bindExcept (framing_awaitReply sorts_onPeerInfo _) fun value =>
      framing_of_still (still_verifyPublicPeer value)

lemma framing_listPeers : framing.holds (CoordinationClient.listPeers fuel).run :=
  framing.bindExcept (framing_send _ _) fun _ => framing_awaitReply sorts_onListPeers _

lemma framing_updateRuntimeStatus (virtualMtu : ℕ) :
    framing.holds (CoordinationClient.updateRuntimeStatus virtualMtu).run := by
  unfold CoordinationClient.updateRuntimeStatus
  split
  · exact framing_send _ _
  · exact framing.ret _

/-! ### Registration -/

lemma meets_register (candidates : List Candidate) (γ : Course) :
    (CoordinationClient.register suite peer candidates).run.Meets next ok (fun γ' r => γ.Frame γ' ∧
      ∀ registered, r = .ok registered → γ'.hand = some registered.snapshot) γ := by
  have hstay : ∀ {ε : Type} {e : ε} {γ' : Course}, γ.Frame γ' → γ.Frame γ' ∧
      ∀ registered : CoordinationClient.Registered, (Except.error e : Except ε _) = .ok registered →
        γ'.hand = some registered.snapshot := fun h => ⟨h, nofun⟩
  refine still_bind (still_lift (fun _ => trivial) fun _ _ => rfl) (fun _ => hstay (.refl γ))
    fun credential => ?_
  refine meets_sendBind (fun _ => hstay ⟨_, _, true, fun _ => rfl, rfl⟩) ?_
  refine ⟨trivial, fun r => ?_⟩
  cases r with
  | error error => exact hstay ⟨none, γ.fresh, true, fun _ => rfl, rfl⟩
  | ok message =>
    have hframe : γ.Frame (Course.next { γ with waiting := true } (.recvWire (some "register")) (.ok message)) :=
      ⟨_, _, true, fun _ => rfl, rfl⟩
    simp only [Prog.bind, ExceptT.bindCont]
    cases message with
    | registerOk credential peers snapshot =>
      -- after the reply, only the clock is read
      refine still_bind (still_ofExcept _) (fun _ => hstay hframe) fun bytes => ?_
      refine still_bind (still_ofExcept _) (fun _ => hstay hframe) fun credential => ?_
      refine still_bind (still_lift (fun _ => trivial) fun _ _ => rfl) (fun _ => hstay hframe) fun now => ?_
      refine still_bind (still_ofExcept _) (fun _ => hstay hframe) fun _ => ?_
      refine still_bind (still_ofExcept _) (fun _ => hstay hframe) fun _ => ?_
      refine still_bind (still_verifyPeerCredentials _) (fun _ => hstay hframe) fun _ => ?_
      refine still_bind (still_lift (fun _ => trivial) fun _ _ => rfl) (fun _ => hstay hframe) fun now => ?_
      refine still_bind (still_ofExcept _) (fun _ => hstay hframe) fun _ => ?_
      refine still_bind (still_verifyPublicPeers _) (fun _ => hstay hframe) fun _ => ?_
      refine ⟨hframe, fun registered hr => ?_⟩
      obtain rfl := Except.ok.inj hr
      rfl
    | _ => exact hstay hframe

/-- The new connection takes the place of the one before where it is registered. -/
lemma meets_reconnectClient (candidates : List Candidate) (γ : Course) :
    (CoordinationClient.reconnect suite peer candidates).run.Meets next ok (fun γ' r => match r with
      | .ok registered => ∃ fresh waiting,
        γ' = { γ with hand := some registered.snapshot, fresh, waiting, joining := true }
      | .error _ => γ.Frame γ') γ := by
  refine still_bind (still_call (fun _ => trivial) fun _ _ => rfl) (fun _ => .refl γ) fun _ => ?_
  refine Meets.bindExcept (M := fun γ' registered => γ.Frame γ' ∧
    γ'.hand = some registered.snapshot) ?_ fun γ' registered h => ?_
  · refine (meets_register candidates γ).mono fun γ' r h => ?_
    cases r with
    | ok registered => exact ⟨h.1, h.2 registered rfl⟩
    | error _ => exact h.1
  · obtain ⟨⟨hand, fresh, waiting, -, rfl⟩, rfl⟩ := h
    exact ⟨trivial, fun _ => ⟨fresh, waiting, rfl⟩⟩

/-! ### The peer -/

lemma meets_liftBind {f : α → ExceptT ε Task β} {M : Course → α → Prop} (h : p.Meets next ok M γ)
    (hf : ∀ γ a, M γ a → (f a).run.Meets next ok post γ) : (lift p >>= f).run.Meets next ok post γ :=
  Meets.bindExcept (Meets.bind h fun _ _ h => h) hf

lemma meets_callBind {f : Response c → ExceptT ε Task β} (hok : γ.ok c)
    (hf : ∀ r, (f r).run.Meets next ok post (γ.next c r)) :
    (lift (call c) >>= f).run.Meets next ok post γ :=
  ⟨hok, hf⟩

lemma meets_mapError {p : ExceptT ε Task α} {post : Course → Except ε' α → Prop}
    (h : p.run.Meets next ok (fun γ r => post γ (r.mapError f)) γ) :
    (mapError f p).run.Meets next ok post γ :=
  Meets.bind h fun _ _ h => h

/-- The monitor after a snapshot was applied and stored. -/
def Course.afterApply (γ : Course) (snapshot : NetworkSnapshot) : Course :=
  { γ with
    hand := none, loose := none, seen := none, waiting := false
    latest := if γ.refreshing && !γ.joining then γ.latest else some snapshot }

lemma meets_applySnapshot (hidle : γ.Idle) (hhand : γ.hand = some snapshot) :
    (DiagnosticPeer.applySnapshot snapshot).run.Meets next ok (fun γ' r => match r with
      | .ok _ => γ' = γ.afterApply snapshot
      | .error e => e.isRetryableControlError = false ∧ e.isSnapshotRequestUnsupported = false) γ := by
  refine ⟨⟨hidle, hhand⟩, fun r => ?_⟩
  cases r with
  | error error => exact ⟨rfl, rfl⟩
  | ok _ =>
    refine ⟨rfl, fun changed => ⟨trivial, fun r => ?_⟩⟩
    cases r with
    | error error => exact ⟨rfl, rfl⟩
    | ok _ => rfl

lemma usableCandidates_error {candidates : List Candidate} {error : DiagnosticError}
    (h : usableCandidates candidates = .error error) : error.isRetryableControlError = false := by
  unfold usableCandidates at h
  split at h
  · cases h
    rfl
  · cases h

lemma meets_collectCandidates (γ : Course) :
    DiagnosticPeer.collectCandidates.run.Meets next ok (fun γ' r => γ' = { γ with refreshing := true } ∧
      ∀ error, r = .error error → error.isRetryableControlError = false) γ := by
  refine meets_callBind trivial fun candidates => meets_callBind trivial fun servers => ?_
  split
  · exact ⟨rfl, fun _ => usableCandidates_error⟩
  · refine meets_callBind trivial fun gathered => ?_
    cases gathered with
    | ok found => exact ⟨rfl, fun _ => usableCandidates_error⟩
    | error error =>
      dsimp only
      split
      · refine ⟨rfl, fun _ h => ?_⟩
        cases h
        rfl
      · exact meets_callBind trivial fun _ => ⟨rfl, fun _ => usableCandidates_error⟩

lemma meets_fetchSnapshot (candidates : List Candidate) (unchanged : Bool) (γ : Course) :
    (DiagnosticPeer.fetchSnapshot fuel candidates unchanged).run.Meets next ok γ.Fetches γ := by
  have hupdate : ∀ γ', γ.Frame γ' →
      (coordination (CoordinationClient.updateCandidatesAndGetSnapshot fuel candidates)).run.Meets
        next ok γ.Fetches γ' := by
    refine fun γ' hframe => meets_mapError ((meets_updateCandidates candidates γ').mono ?_)
    intro γ'' r h
    refine ⟨⟨hframe.trans h.1.1, h.1.2⟩, fun snapshot hr => h.2 snapshot ?_⟩
    cases r with
    | ok _ => exact congrArg Except.ok (Except.ok.inj hr)
    | error _ => cases hr
  unfold DiagnosticPeer.fetchSnapshot
  split
  · refine meets_liftBind (meets_requestSnapshot γ) fun γ' r h => ?_
    cases r with
    | ok snapshot =>
      exact ⟨h.1, fun snapshot' hr => Except.ok.inj hr ▸ h.2 snapshot rfl⟩
    | error error =>
      dsimp only
      split
      · exact hupdate γ' h.1.1
      · exact ⟨h.1, nofun⟩
  · exact hupdate γ (.refl γ)

/-- What a refresh leaves: outside of joining, nothing more is to be published. -/
structure Course.Goes (γ γ' : Course) : Prop where
  good : γ'.Good
  joining : γ'.joining = γ.joining
  latest : γ.joining = false → γ'.latest = γ.latest
  isSome : γ.latest.isSome → γ'.latest.isSome

/-- A refresh fails with a retryable error only where its request is not answered. -/
def Course.Refreshes {α : Type} (γ : Course) : Course → Except DiagnosticError α → Prop
  | γ', .ok _ => γ.Goes γ'
  | γ', .error e => e.isRetryableControlError = true → γ.Goes γ' ∧ γ'.waiting = true

lemma meets_refreshCandidates (hidle : γ.Idle) :
    (DiagnosticPeer.refreshCandidates fuel).run.Meets next ok γ.Refreshes γ := by
  have hgood := hidle.1
  have hcollected : γ.Goes { γ with refreshing := true } :=
    ⟨⟨hgood.broken, hgood.loose, hgood.concluded⟩, rfl, fun _ => rfl, fun h => h⟩
  refine meets_liftBind (meets_collectCandidates γ) fun γ' r h => ?_
  obtain ⟨rfl, hlocal⟩ := h
  cases r with
  | error error =>
    refine meets_callBind trivial fun previous => ?_
    split
    · intro hretry
      rw [hlocal error rfl] at hretry
      cases hretry
    · exact hcollected
  | ok candidates =>
    refine meets_callBind trivial fun previous => ?_
    refine Meets.bindExcept (M := fun γ' snapshot => Frame { γ with refreshing := true } γ' ∧
      γ'.hand = some snapshot) ?_ fun γ' snapshot h => ?_
    · refine (meets_fetchSnapshot candidates _ _).mono fun γ' r h => ?_
      cases r with
      | ok snapshot => exact ⟨h.1.1, h.2 snapshot rfl⟩
      | error error =>
        intro _
        obtain ⟨⟨_, _, _, -, rfl⟩, hwaiting⟩ := h.1
        exact ⟨⟨⟨hgood.broken, hgood.loose, hgood.concluded⟩, rfl, fun _ => rfl, fun h => h⟩, hwaiting⟩
    · obtain ⟨hframe, hhand⟩ := h
      refine Meets.bindExcept (M := fun γ' _ => γ.Goes γ') ?_ fun γ' changed h => ?_
      · refine (meets_applySnapshot (hframe.idle ⟨hcollected.good, hidle.2⟩) hhand).mono fun γ' r h => ?_
        cases r with
        | error error =>
          intro hretry
          rw [h.1] at hretry
          cases hretry
        | ok changed =>
          obtain rfl := h
          obtain ⟨_, _, _, -, rfl⟩ := hframe
          refine ⟨⟨hgood.broken, rfl, hgood.concluded⟩, rfl, fun hjoining => ?_, fun hsome => ?_⟩
          · simp [Course.afterApply, hjoining]
          · unfold Course.afterApply
            dsimp only
            split
            · exact hsome
            · rfl
      · refine meets_callBind trivial fun _ => ⟨trivial, fun r => ?_⟩
        cases r with
        | ok _ => exact h
        | error _ =>
          intro hretry
          cases hretry

/-- A peer that joins ends with a snapshot to publish, unless the loop ends. -/
def Course.Joins : Course → Except DiagnosticError NetworkSnapshot → Prop
  | γ, .ok snapshot => γ.Good ∧ γ.joining = true ∧ γ.Publishes snapshot
  | γ, .error e => e.isRetryableControlError = true → γ.Good ∧ γ.joining = true ∧ γ.waiting = true

lemma meets_join (candidates : List Candidate) {registered : CoordinationClient.Registered}
    (hgood : γ.Good) (hhand : γ.hand = some registered.snapshot) (hjoining : γ.joining = true) :
    (DiagnosticPeer.join fuel candidates registered).run.Meets next ok Course.Joins γ := by
  refine meets_callBind trivial fun _ => meets_callBind trivial fun _ => ?_
  refine Meets.bindExcept (M := fun γ' _ => γ'.Good ∧ γ'.joining = true ∧ γ'.latest.isSome) ?_
    fun γ₁ _ h₁ => ?_
  · refine (meets_applySnapshot ⟨hgood, .inr hjoining⟩ hhand).mono fun γ' r h => ?_
    cases r with
    | error error =>
      intro hretry
      rw [h.1] at hretry
      cases hretry
    | ok changed =>
      obtain rfl := h
      refine ⟨⟨hgood.broken, rfl, hgood.concluded⟩, hjoining, ?_⟩
      simp [Course.afterApply, hjoining]
  obtain ⟨hgood₁, hjoining₁, hlatest₁⟩ := h₁
  refine Meets.bindExcept (M := fun γ' _ => γ'.Good ∧ γ'.joining = true ∧ γ'.latest.isSome) ?_
    fun γ₂ _ h₂ => ?_
  · refine (meets_refreshCandidates ⟨hgood₁, .inr hjoining₁⟩).mono fun γ' r h => ?_
    cases r with
    | ok _ => exact ⟨h.good, h.joining.trans hjoining₁, h.isSome hlatest₁⟩
    | error error =>
      intro hretry
      obtain ⟨h, hwaiting⟩ := h hretry
      exact ⟨h.good, h.joining.trans hjoining₁, hwaiting⟩
  obtain ⟨hgood₂, hjoining₂, hlatest₂⟩ := h₂
  refine ⟨hgood₂, fun snapshot => ?_⟩
  have hgood₃ : Good (γ₂.next .stateSnapshot snapshot) := ⟨hgood₂.broken, hgood₂.loose, hgood₂.concluded⟩
  refine ⟨trivial, fun r => ?_⟩
  cases r with
  | error _ =>
    intro hretry
    cases hretry
  | ok _ =>
    refine ⟨hgood₃, hjoining₂, .inr ⟨hlatest₂, ?_⟩⟩
    cases snapshot with
    | none => exact .inr rfl
    | some snapshot => exact .inl rfl

/-- The same of a client that may not even get a connection. -/
def Course.Rejoins (γ : Course) : Course → Except DiagnosticError NetworkSnapshot → Prop
  | γ', .ok snapshot => γ'.Good ∧ γ'.joining = true ∧ γ'.Publishes snapshot
  | γ', .error e => e.isRetryableControlError = true →
      γ'.Good ∧ (γ'.latest = γ.latest ∧ γ'.joining = γ.joining ∨ γ'.joining = true ∧ γ'.waiting = true)

lemma meets_rejoin (candidates : List Candidate) (hgood : γ.Good) :
    (coordination (CoordinationClient.reconnect suite peer candidates) >>= fun registered =>
      DiagnosticPeer.join fuel candidates registered).run.Meets next ok γ.Rejoins γ := by
  refine Meets.bindExcept (M := fun γ' registered => γ'.Good ∧ γ'.joining = true ∧
    γ'.hand = some registered.snapshot) ?_ fun γ' registered h => ?_
  · refine meets_mapError ((meets_reconnectClient candidates γ).mono fun γ' r h => ?_)
    cases r with
    | ok registered =>
      obtain ⟨_, _, rfl⟩ := h
      exact ⟨⟨hgood.broken, hgood.loose, hgood.concluded⟩, rfl, rfl⟩
    | error error =>
      obtain ⟨_, _, _, -, rfl⟩ := h
      exact fun _ => ⟨⟨hgood.broken, hgood.loose, hgood.concluded⟩, .inl ⟨rfl, rfl⟩⟩
  · obtain ⟨hgood', hjoining, hhand⟩ := h
    refine (meets_join candidates hgood' hhand hjoining).mono fun γ'' r h => ?_
    cases r with
    | ok snapshot => exact h
    | error error => exact fun hretry => ⟨(h hretry).1, .inr (h hretry).2⟩

/-! ### The branches of the loop -/

/-- A branch that leaves nothing to be published, unless it ends the loop. -/
def Course.Rests {α : Type} : Course → Except DiagnosticError α → Prop
  | γ, .ok _ => γ.Done
  | _, .error _ => True

lemma Course.Goes.clear (h : γ.Goes γ') (hγ : γ.Clear) : γ'.Clear :=
  ⟨h.good, (h.latest hγ.joining).trans hγ.latest, h.joining.trans hγ.joining⟩

/-- Programs that keep a branch at rest. -/
def idling : Discipline Section Response := .monitor next ok Course.Clear

lemma idling_of_framing (h : framing.holds p) : idling.holds p :=
  fun γ hγ => (h γ).mono fun _ _ h => h.clear hγ

lemma idling_of_still (h : still.holds p) : idling.holds p :=
  idling_of_framing (framing_of_still h)

lemma idling_lift (hok : ∀ γ : Course, γ.ok c) (hnext : ∀ (γ : Course) r, γ.next c r = γ) :
    idling.holds (lift (call c) : ExceptT ε Task (Response c)).run :=
  idling_of_still (still_lift hok hnext)

lemma idling_retryOr (error : DiagnosticError) : idling.holds (retryOr error).run := by
  unfold retryOr
  split
  · exact idling_lift (fun _ => trivial) fun _ _ => rfl
  · exact idling.ret _

lemma meets_retryOr {error : DiagnosticError}
    (h : error.isRetryableControlError = true → γ.Clear) :
    (retryOr error).run.Meets next ok Course.Rests γ := by
  unfold retryOr
  split
  · exact ⟨trivial, fun _ => .inl (h ‹_›)⟩
  · trivial

lemma meets_refreshAfterConfigChange (hγ : γ.Clear) :
    (refreshAfterConfigChange fuel).run.Meets next ok Course.Rests γ := by
  refine meets_liftBind (meets_refreshCandidates hγ.idle) fun γ' r h => ?_
  cases r with
  | ok _ => exact .inl (h.clear hγ)
  | error error => exact meets_retryOr fun hretry => (h hretry).1.clear hγ

lemma Course.Good.published (h : γ.Good) (snapshot : NetworkSnapshot) :
    Course.Clear (γ.next (.publish snapshot) ()) :=
  ⟨⟨h.broken, h.loose, h.concluded⟩, rfl, rfl⟩

lemma meets_publish (hgood : γ.Good) (hpublishes : γ.Publishes snapshot) (configChanged : Bool) :
    (publish fuel snapshot configChanged).run.Meets next ok Course.Rests γ := by
  refine ⟨⟨hgood, hpublishes⟩, fun _ => ?_⟩
  have hclear : Course.Clear (γ.next (.publish snapshot) ()) := hgood.published snapshot
  refine still_bind (still_lift (fun _ => trivial) fun _ _ => rfl) (fun _ => trivial) fun _ => ?_
  cases configChanged with
  | true => exact meets_refreshAfterConfigChange hclear
  | false => exact .inl hclear

lemma meets_applyPublish (hγ : γ.Clear) (hhand : γ.hand = some snapshot)
    (hrefreshing : γ.refreshing = false) {f : Bool → RuntimeM Unit}
    (hf : ∀ changed γ', γ'.Good → γ'.latest = some snapshot →
      (f changed).run.Meets next ok Course.Rests γ') :
    (DiagnosticPeer.applySnapshot snapshot >>= f).run.Meets next ok Course.Rests γ := by
  refine Meets.bindExcept (M := fun γ' _ => γ'.Good ∧ γ'.latest = some snapshot) ?_
    fun γ' changed h => hf changed γ' h.1 h.2
  refine (meets_applySnapshot hγ.idle hhand).mono fun γ' r h => ?_
  cases r with
  | error error => trivial
  | ok changed =>
    obtain rfl := h
    refine ⟨⟨hγ.1.broken, rfl, hγ.1.concluded⟩, ?_⟩
    simp [Course.afterApply, hrefreshing]

lemma still_mapError {p : ExceptT ε Task α} (h : still.holds p.run) :
    still.holds (mapError f p).run :=
  still.bind h fun _ => still.ret _

/-- A request for a snapshot, and the snapshot that it applies. -/
def Course.Requests (γ : Course) : Course → Except DiagnosticError (NetworkSnapshot × Bool) → Prop
  | γ', .ok (snapshot, _) => γ'.Good ∧ γ'.latest = some snapshot
  | γ', .error e => (e.isRetryableControlError || e.isSnapshotRequestUnsupported) = true → γ.Frame γ'

lemma meets_requestSnapshotPeer (hγ : γ.Clear) (hrefreshing : γ.refreshing = false) :
    (DiagnosticPeer.requestSnapshot fuel).run.Meets next ok γ.Requests γ := by
  refine Meets.bindExcept (M := fun γ' snapshot => γ.Frame γ' ∧ γ'.hand = some snapshot) ?_
    fun γ' snapshot h => ?_
  · refine meets_mapError ((meets_requestSnapshot γ).mono fun γ' r h => ?_)
    cases r with
    | ok snapshot => exact ⟨h.1.1, h.2 snapshot rfl⟩
    | error error => exact fun _ => h.1.1
  · obtain ⟨hframe, hhand⟩ := h
    refine Meets.bindExcept ?_
      fun γ'' changed (h : γ''.Good ∧ γ''.latest = some snapshot) => h
    refine (meets_applySnapshot (hframe.clear hγ).idle hhand).mono fun γ'' r h => ?_
    cases r with
    | error error =>
      intro hretry
      rw [h.1, h.2] at hretry
      cases hretry
    | ok changed =>
      obtain rfl := h
      obtain ⟨_, _, _, -, rfl⟩ := hframe
      refine ⟨⟨hγ.1.broken, rfl, hγ.1.concluded⟩, ?_⟩
      simp [Course.afterApply, hrefreshing]

lemma meets_handleSnapshotExpired (hγ : γ.Clear) (hrefreshing : γ.refreshing = false) :
    (handleSnapshotExpired fuel).run.Meets next ok Course.Rests γ := by
  refine still_bind (still_lift (fun _ => trivial) fun _ _ => rfl) (fun _ => trivial) fun connected => ?_
  refine still_bind (still_lift (fun _ => trivial) fun _ _ => rfl) (fun _ => trivial) fun notified => ?_
  split
  · refine meets_liftBind (meets_requestSnapshotPeer hγ hrefreshing) fun γ' r h => ?_
    cases r with
    | ok result => exact meets_publish h.1 (.inl h.2) result.2
    | error error =>
      dsimp only
      split
      · rename_i hretry
        exact ⟨trivial, fun _ => .inl ((h hretry).clear hγ)⟩
      · trivial
  · exact .inl hγ

lemma meets_handleConnectSignal (hγ : γ.Clear) (source : PublicPeerInfo) :
    (handleConnectSignal suite peer source).run.Meets next ok Course.Rests γ := by
  refine still_bind (still_mapError (still_verifyPublicPeer source)) (fun _ => trivial) fun remote => ?_
  refine ⟨hγ.1, fun r => ?_⟩
  cases r with
  | error error => trivial
  | ok _ => exact ⟨trivial, fun _ => .inl hγ⟩

lemma meets_handleSnapshot (hγ : γ.Clear) (hhand : γ.hand = some snapshot)
    (hrefreshing : γ.refreshing = false) :
    (handleSnapshot fuel snapshot).run.Meets next ok Course.Rests γ :=
  meets_applyPublish hγ hhand hrefreshing fun changed _ hgood hlatest =>
    meets_publish hgood (.inl hlatest) changed

lemma meets_handleMessage (hγ : γ.Clear) (hhand : γ.hand = carried message)
    (hrefreshing : γ.refreshing = false) :
    (handleMessage suite peer fuel message).run.Meets next ok Course.Rests γ := by
  cases message with
  | connectSignal source target =>
    simp only [handleMessage]
    split
    · exact meets_handleConnectSignal hγ source
    · exact .inl hγ
  | snapshot snapshot => exact meets_handleSnapshot hγ hhand hrefreshing
  | revoke nodeId =>
    simp only [handleMessage]
    split
    · trivial
    · exact .inl hγ
  | _ => exact .inl hγ

lemma meets_handleRecv (hγ : γ.Clear) (hrefreshing : γ.refreshing = false) :
    (handleRecv suite peer fuel).run.Meets next ok Course.Rests γ := by
  refine meets_liftBind (M := fun γ' r => γ.Frame γ' ∧ ∀ message, r = .ok message →
    γ'.hand = carried message) ?_ fun γ' r h => ?_
  · refine ⟨trivial, fun queued => ?_⟩
    cases queued with
    | some message =>
      refine ⟨⟨_, _, _, id, rfl⟩, fun message' hr => ?_⟩
      obtain rfl := Except.ok.inj hr
      rfl
    | none =>
      refine ⟨trivial, fun r => ?_⟩
      cases r with
      | ok message =>
        refine ⟨⟨_, _, _, id, rfl⟩, fun message' hr => ?_⟩
        obtain rfl := Except.ok.inj hr
        rfl
      | error error => exact ⟨⟨none, false, _, id, rfl⟩, nofun⟩
  · have hclear := h.1.clear hγ
    cases r with
    | ok message =>
      refine meets_handleMessage hclear (h.2 message rfl) ?_
      obtain ⟨_, _, _, -, rfl⟩ := h.1
      exact hrefreshing
    | error error => exact meets_retryOr fun _ => hclear

lemma framing_requestPeerConnection (nodeId : NodeId) :
    framing.holds (DiagnosticPeer.requestPeerConnection suite peer fuel nodeId).run :=
  framing.bindExcept (framing_mapError (framing_lookupPeer nodeId)) fun _ => framing.ret _

lemma idling_retryPending (waiting : List NodeId) :
    idling.holds (retryPending suite peer fuel waiting).run := by
  induction waiting with
  | nil => exact idling.ret _
  | cons nodeId waiting ih =>
    refine idling.bindExcept (idling.lift (idling_of_framing (framing_requestPeerConnection nodeId)))
      fun r => ?_
    cases r with
    | ok _ => exact idling.bindExcept (idling_lift (fun _ => trivial) fun _ _ => rfl) fun _ => ih
    | error error => exact idling_retryOr error

lemma idling_reportMtu (virtualMtu : ℕ) : idling.holds (reportMtu virtualMtu).run :=
  idling.bindExcept (idling_of_framing (framing_mapError (framing_updateRuntimeStatus virtualMtu)))
    fun _ => idling_lift (fun _ => trivial) fun _ _ => rfl

lemma rests_of_idling {p : RuntimeM α} (h : idling.holds p.run) (hγ : γ.Clear) :
    p.run.Meets next ok Course.Rests γ := by
  refine (h γ hγ).mono fun γ' r h => ?_
  cases r with
  | ok _ => exact .inl h
  | error _ => trivial

lemma meets_reconnect (hgood : γ.Good) :
    (DiagnosticPeer.reconnect suite peer fuel).run.Meets next ok γ.Rejoins γ := by
  have hrefreshing : Good { γ with refreshing := true } := ⟨hgood.broken, hgood.loose, hgood.concluded⟩
  refine ⟨trivial, fun candidates => ?_⟩
  refine still_bind (still_lift (fun _ => trivial) fun _ _ => rfl)
    (fun _ _ => ⟨hrefreshing, .inl ⟨rfl, rfl⟩⟩) fun previous => ?_
  exact meets_rejoin _ hrefreshing

lemma meets_handleReconnect (hγ : γ.Clear) :
    (handleReconnect suite peer fuel).run.Meets next ok Course.Rests γ := by
  refine meets_liftBind (meets_reconnect hγ.1) fun γ' r h => ?_
  cases r with
  | ok snapshot =>
    refine ⟨⟨h.1, h.2.2⟩, fun _ => ?_⟩
    refine rests_of_idling ?_ (h.1.published snapshot)
    refine idling.bindExcept (idling_lift (fun _ => trivial) fun _ _ => rfl) fun _ => ?_
    refine idling.bindExcept (idling_lift (fun _ => trivial) fun _ _ => rfl) fun _ => ?_
    refine idling.bindExcept (idling_lift (fun _ => trivial) fun _ _ => rfl) fun virtualMtu => ?_
    refine idling.bindExcept (idling_reportMtu virtualMtu) fun _ => ?_
    exact idling.bindExcept (idling_lift (fun _ => trivial) fun _ _ => rfl) fun waiting =>
      idling_retryPending waiting
  | error error =>
    dsimp only
    split
    · rename_i hretry
      obtain ⟨hgood, ⟨hlatest, hjoining⟩ | hjoining⟩ := h hretry
      · exact .inl ⟨hgood, hlatest.trans hγ.latest, hjoining.trans hγ.joining⟩
      · exact .inr ⟨hgood, hjoining⟩
    · trivial

lemma idling_handlePeerList : idling.holds (handlePeerList fuel).run := by
  refine idling.bindExcept (idling.lift (idling_of_framing framing_listPeers)) fun r => ?_
  cases r with
  | ok _ => exact idling.ret _
  | error error => exact idling_retryOr _

lemma idling_handleConnectionRequest (nodeId : NodeId) :
    idling.holds (handleConnectionRequest suite peer fuel nodeId).run := by
  refine idling.bindExcept (idling_lift (fun _ => trivial) fun _ _ => rfl) fun connected => ?_
  split
  · exact idling.bindExcept (idling_lift (fun _ => trivial) fun _ _ => rfl) fun _ => idling.ret _
  · refine idling.bindExcept (idling.lift (idling_of_framing (framing_requestPeerConnection nodeId)))
      fun r => ?_
    cases r with
    | ok _ => exact idling.ret _
    | error error =>
      dsimp only
      split
      · refine idling.bindExcept (idling_lift (fun _ => trivial) fun _ _ => rfl) fun _ => ?_
        exact idling.bindExcept (idling_lift (fun _ => trivial) fun _ _ => rfl) fun _ => idling.ret _
      · exact idling.ret _

lemma idling_handleControlEvent (event : ControlEvent) :
    idling.holds (handleControlEvent suite peer fuel event).run := by
  cases event with
  | transportFailed error => exact idling.ret _
  | node event =>
    cases event with
    | peerConnectionRequested nodeId => exact idling_handleConnectionRequest nodeId
    | peerReconnectRequested nodeId => exact idling_handleConnectionRequest nodeId
    | _ => exact idling.ret _

lemma idling_handleEventBatch (events : List ControlEvent) :
    idling.holds (handleEventBatch suite peer fuel events).run := by
  induction events with
  | nil => exact idling.ret _
  | cons event events ih =>
    exact idling.bindExcept (idling_handleControlEvent event) fun _ =>
      idling.bindExcept ih fun _ => idling.ret _

lemma idling_handleControlEvents (events : List ControlEvent) :
    idling.holds (handleControlEvents suite peer fuel events).run := by
  refine idling.bindExcept (idling.ret _) fun _ => ?_
  refine idling.bindExcept (idling_handleEventBatch events) fun changed => ?_
  split
  · refine idling.bindExcept (idling_lift (fun _ => trivial) fun _ _ => rfl) fun virtualMtu => ?_
    refine idling.bindExcept (idling_lift (fun _ => trivial) fun _ _ => rfl) fun connected => ?_
    refine idling.bindExcept (idling_lift (fun _ => trivial) fun _ _ => rfl) fun reported => ?_
    split
    · refine idling.bindExcept (idling.lift (idling_reportMtu virtualMtu)) fun r => ?_
      cases r with
      | ok _ => exact idling.ret _
      | error error => exact idling_retryOr error
    · exact idling.ret _
  · exact idling.ret _

lemma idling_startPing (target : NodeId) (count timeout : ℕ) :
    idling.holds (startPing target count timeout).run := by
  unfold startPing
  split
  · have hsnapshot : idling.holds (lift (call .stateSnapshot) : RuntimeM _).run := fun γ hγ =>
      ⟨hγ.1, fun _ => ⟨⟨hγ.1.broken, hγ.1.loose, hγ.1.concluded⟩, hγ.2, hγ.3⟩⟩
    refine idling.bindExcept hsnapshot fun snapshot => ?_
    split
    · exact idling.ret _
    · rename_i info _
      have hregister : idling.holds (lift (call (.registerPeer info)) : RuntimeM _).run := by
        intro γ hγ
        refine ⟨hγ.1, fun r => ?_⟩
        cases r with
        | ok _ => exact hγ
        | error error => exact ⟨⟨hγ.1.broken, hγ.1.loose, hγ.1.concluded⟩, hγ.2, hγ.3⟩
      refine idling.bindExcept hregister fun r => ?_
      cases r with
      | ok _ => exact idling_lift (fun _ => trivial) fun _ _ => rfl
      | error error => exact idling.ret _
  · exact idling.ret _

lemma meets_initialCandidates (γ : Course) :
    DiagnosticPeer.initialCandidates.run.Meets next ok
      (fun γ' _ => γ' = { γ with refreshing := true }) γ := by
  refine ⟨trivial, fun candidates => ?_⟩
  refine still_bind (still_lift (fun _ => trivial) fun _ _ => rfl) (fun _ => rfl) fun servers => ?_
  split
  · exact rfl
  · refine still_bind (still_lift (fun _ => trivial) fun _ _ => rfl) (fun _ => rfl) fun gathered => ?_
    cases gathered with
    | ok found => exact rfl
    | error error =>
      dsimp only
      split <;> exact rfl

lemma meets_openPeer (hgood : γ.Good) :
    (DiagnosticPeer.openPeer suite peer fuel).run.Meets next ok γ.Rejoins γ := by
  have hrefreshing : Good { γ with refreshing := true } := ⟨hgood.broken, hgood.loose, hgood.concluded⟩
  refine Meets.bindExcept (M := fun γ' _ => γ' = { γ with refreshing := true }) ?_
    fun γ' candidates h => ?_
  · refine (meets_initialCandidates γ).mono fun γ' r h => ?_
    subst h
    cases r with
    | ok _ => rfl
    | error error => exact fun _ => ⟨hrefreshing, .inl ⟨rfl, rfl⟩⟩
  · subst h
    exact meets_rejoin candidates hrefreshing

lemma meets_handleOpen (hγ : γ.Clear) :
    (handleOpen suite peer fuel).run.Meets next ok Course.Rests γ := by
  refine Meets.bindExcept (M := fun γ' snapshot => γ'.Good ∧ γ'.Publishes snapshot) ?_
    fun γ₁ snapshot h₁ => ?_
  · refine (meets_openPeer hγ.1).mono fun γ' r h => ?_
    cases r with
    | ok snapshot => exact ⟨h.1, h.2.2⟩
    | error error => trivial
  refine Meets.bindExcept (M := fun γ' _ => γ'.Good ∧ γ'.Publishes snapshot) ?_ fun γ₂ _ h₂ => ?_
  · refine (framing_mapError framing_listPeers γ₁).mono fun γ' r h => ?_
    cases r with
    | ok _ =>
      obtain ⟨_, _, _, -, rfl⟩ := h
      exact ⟨⟨h₁.1.broken, h₁.1.loose, h₁.1.concluded⟩, h₁.2⟩
    | error error => trivial
  refine ⟨h₂, fun _ => ?_⟩
  refine rests_of_idling ?_ (h₂.1.published snapshot)
  refine idling.bindExcept (idling_of_framing (framing_mapError framing_listPeers)) fun _ => ?_
  refine idling.bindExcept (idling_lift (fun _ => trivial) fun _ _ => rfl) fun virtualMtu => ?_
  exact idling.bindExcept (idling_reportMtu virtualMtu) fun _ =>
    idling_lift (fun _ => trivial) fun _ _ => rfl

lemma meets_handle (event : Event) :
    (handle suite peer fuel event).run.Meets next ok Course.Rests Course.start := by
  have hstart : Course.start.Clear := ⟨⟨rfl, rfl, rfl⟩, rfl, rfl⟩
  have hthen : ∀ {p : RuntimeM Unit}, p.run.Meets next ok Course.Rests Course.start →
      (p >>= fun _ => pure true).run.Meets next ok Course.Rests Course.start := by
    intro p h
    refine Meets.bindExcept (h.mono fun γ r h => ?_) fun _ _ h => h
    cases r with
    | ok _ => exact h
    | error _ => trivial
  cases event with
  | opening => exact hthen (meets_handleOpen hstart)
  | stop => exact .inl hstart
  | snapshotExpired => exact hthen (meets_handleSnapshotExpired hstart rfl)
  | ping target count timeout => exact hthen (rests_of_idling (idling_startPing target count timeout) hstart)
  | commandsClosed => exact .inl hstart
  | recv => exact hthen (meets_handleRecv hstart rfl)
  | refresh => exact hthen (meets_refreshAfterConfigChange hstart)
  | reconnect => exact hthen (meets_handleReconnect hstart)
  | refreshPeers => exact hthen (rests_of_idling idling_handlePeerList hstart)
  | controlEvents events => exact hthen (rests_of_idling (idling_handleControlEvents events) hstart)

lemma next_fresh (γ : Course) (c : Section) (r : Response c) (h : (γ.next c r).stale = false) :
    γ.stale = false ∧ NotStale c r := by
  have hrefused : ∀ {error}, (γ.refused error).stale = false →
      γ.stale = false ∧ (Except.error error : Except Core.CoreError Unit) ≠ .error .staleSnapshot := by
    intro error h
    obtain ⟨hstale, herror⟩ := Bool.or_eq_false_iff.1 h
    exact ⟨hstale, fun hr => of_decide_eq_false herror (Except.error.inj hr)⟩
  cases c with
  | registerPeer info =>
    cases r with
    | ok _ => exact ⟨h, nofun⟩
    | error error => exact hrefused h
  | applySnapshot snapshot =>
    cases r with
    | ok _ => exact ⟨h, nofun⟩
    | error error => exact hrefused h
  | recvWire request => cases r <;> exact ⟨h, trivial⟩
  | _ => exact ⟨h, trivial⟩

/-- **What the runtime's task does**, whatever event it handles. -/
theorem course_serve (suite : Suite) (peer : Peer) (fuel : ℕ) (event : Event) :
    (serve suite peer fuel event).Meets next ok (fun γ _ => γ.AtRest) Course.start := by
  refine Meets.bind ((meets_handle event).under (K := fun γ => γ.stale = false) next_fresh
    fun _ => spares_handle event) fun γ r h => ?_
  refine ⟨⟨fun hrunning => ?_, fun hfresh => ?_⟩, fun _ => .inl rfl⟩
  · cases r with
    | ok _ => exact h.1
    | error error => cases hrunning
  · intro houtcome
    cases r with
    | ok again => cases again <;> cases houtcome
    | error error =>
      injection houtcome with houtcome
      exact h.2 hfresh (Except.error.inj houtcome)

/-! ### What a section does to the node and the snapshots -/

/-- The sections that touch neither the node nor a snapshot, and do not end an event. -/
def Offside : Section → Prop
  | .registerPeer _ | .applySnapshot _ | .storeSnapshot _ | .publish _ | .conclude _ => False
  | _ => True

structure SameView {N : Type} (s s' : RuntimeState N) : Prop where
  node : s'.node = s.node
  snapshot : s'.snapshot = s.snapshot
  published : s'.published = s.published
  applied : s'.applied = s.applied
  outcome : s'.outcome = s.outcome

section Sections

variable {E N : Type} {net : Network E N} {s s' : RuntimeState N} {e : Env E}

lemma withinTime_cases {α : Type} {request : Option String}
    {step : Option (Except CoordClientError α × RuntimeState N)} {r : Except CoordClientError α}
    (h : withinTime e request s step = some (r, s')) :
    (∃ request, r = .error (.timeout request) ∧ s' = s) ∨ step = some (r, s') := by
  unfold withinTime at h
  split at h
  · cases h
    exact .inl ⟨_, rfl, rfl⟩
  · cases h
  · exact .inr h

lemma exec_offside {c : Section} (hc : Offside c) {r : Response c}
    (h : exec suite peer net e c s = some (r, s')) : SameView s s' := by
  cases c with
  | registerPeer _ | applySnapshot _ | storeSnapshot _ | publish _ | conclude _ => exact hc.elim
  | send request message =>
    obtain ⟨_, -, rfl⟩ | hstep := withinTime_cases h
    · exact ⟨rfl, rfl, rfl, rfl, rfl⟩
    · cases hstep
      exact ⟨rfl, rfl, rfl, rfl, rfl⟩
  | recvWire request =>
    obtain ⟨_, -, rfl⟩ | hstep := withinTime_cases h
    · exact ⟨rfl, rfl, rfl, rfl, rfl⟩
    · obtain ⟨_, -, hrs⟩ := Option.map_eq_some_iff.1 hstep
      obtain ⟨-, rfl⟩ := Prod.mk.inj hrs
      exact ⟨rfl, rfl, rfl, rfl, rfl⟩
  | _ =>
    cases h
    exact ⟨rfl, rfl, rfl, rfl, rfl⟩

variable {r : Except Core.CoreError Unit}

lemma exec_registerPeer {info : PeerInfo}
    (h : exec suite peer net e (.registerPeer info) s = some (r, s')) :
    ∃ node, (Core.registerPeer suite peer.node info).run.run (Core.exec suite peer.node) e.node s.node =
      some (r, node) ∧ s' = { s with node } := by
  obtain ⟨⟨r', node⟩, hrun, hrs⟩ := Option.map_eq_some_iff.1 h
  cases hrs
  exact ⟨node, hrun, rfl⟩

lemma exec_applySnapshot {snapshot : NetworkSnapshot}
    (h : exec suite peer net e (.applySnapshot snapshot) s = some (r, s')) :
    ∃ node, (Core.applySnapshot suite peer.node snapshot).run.run (Core.exec suite peer.node) e.node
      s.node = some (r, node) ∧
      (r = .ok () ∧ s' = { s with node, applied := some snapshot } ∨
        (∃ error, r = .error error) ∧ s' = { s with node }) := by
  obtain ⟨⟨r', node⟩, hrun, hrs⟩ := Option.map_eq_some_iff.1 h
  cases r' with
  | ok _ =>
    cases hrs
    exact ⟨node, hrun, .inl ⟨rfl, rfl⟩⟩
  | error error =>
    cases hrs
    exact ⟨node, hrun, .inr ⟨⟨error, rfl⟩, rfl⟩⟩

end Sections

/-! ### Invariants of runs -/

section Runs

variable {E N : Type} {net : Network E N} {s : RuntimeState N}
  {guard : Pool.Config Section Response (RuntimeState N) Course → Pool.Move (Env E) Event → Prop}
  {cfg : Pool.Config Section Response (RuntimeState N) Course}

lemma other_tasks (h : (runtimePool suite peer fuel net Course.start next).Reachable guard
    ((runtimePool suite peer fuel net Course.start next).initial s) cfg) {t : ℕ} (ht : t ≠ 0) :
    ∃ a, cfg.prog t = .ret a := by
  induction h with
  | refl => exact ⟨⟨⟩, rfl⟩
  | @step cfg cfg' m hr hguard hmove ih =>
    cases m with
    | spawn u event =>
      obtain ⟨-, s', haccept, rfl⟩ := Pool.Spec.move_spawn hmove
      have hu : u = 0 := by
        change Event.accept u event cfg.shared = some s' at haccept
        unfold Event.accept at haccept
        split at haccept
        · rename_i hcondition
          exact hcondition.1
        · cases haccept
      simpa [update_of_ne (hu ▸ ht : t ≠ u)] using ih
    | step u e =>
      obtain ⟨c, k, r, s', hprog, -, rfl⟩ := Pool.Spec.move_step hmove
      have hu : t ≠ u := by
        rintro rfl
        obtain ⟨a, ha⟩ := ih
        rw [ha] at hprog
        cases hprog
      simpa [update_of_ne hu] using ih

variable {I : RuntimeState N → Course → Prop}

lemma course_run
    (h : (runtimePool suite peer fuel net Course.start next).Reachable guard
      ((runtimePool suite peer fuel net Course.start next).initial s) cfg) (hinit : I s Course.start)
    (hspawn : ∀ s γ, I s γ → γ.AtRest → s.outcome.isRunning = true → I s Course.start)
    (hstep : ∀ (cfg : Pool.Config Section Response (RuntimeState N) Course) e c r s',
      I cfg.shared (cfg.phase 0) → guard cfg (.step 0 e) → cfg.at 0 = some c → (cfg.phase 0).ok c →
      exec suite peer net e c cfg.shared = some (r, s') → I s' ((cfg.phase 0).next c r)) :
    I cfg.shared (cfg.phase 0) ∧ (cfg.prog 0).Meets next ok (fun γ _ => γ.AtRest) (cfg.phase 0) := by
  have hsolo : (runtimePool suite peer fuel net Course.start next).Reachable
      (fun cfg m => guard cfg m ∧ ∀ t ≠ 0, ∃ a, cfg.prog t = .ret a) _ cfg :=
    h.strengthen fun _ _ hr hguard => ⟨hguard, fun _ ht => other_tasks hr ht⟩
  have hrest : (runtimePool suite peer fuel net Course.start next).start.AtRest := .inr rfl
  have hspawn' : ∀ s s' φ t event, I s (φ 0) → (φ t).AtRest → Event.accept t event s = some s' →
      I s' (update φ t Course.start 0) := by
    intro s s' φ t event hi hatRest haccept
    unfold Event.accept at haccept
    split at haccept
    · rename_i hcondition
      cases haccept
      obtain ⟨rfl, hrunning, -⟩ := hcondition
      rw [update_self]
      exact hspawn s (φ 0) hi hatRest hrunning
    · cases haccept
  have hsolo := hsolo.invariant_rest (fun _ => ⟨⟨⟩, rfl⟩)
    (fun _ => hrest) hinit (fun _ _ event _ => course_serve suite peer fuel event) hspawn'
    fun cfg t e c r s' hi hguard hat hok hexec => by
      have ht : t = 0 := by
        by_contra ht
        obtain ⟨a, ha⟩ := hguard.2 t ht
        unfold Pool.Config.at at hat
        rw [ha] at hat
        cases hat
      subst ht
      rw [update_self]
      exact hstep cfg e c r s' hi hguard.1 hat hok hexec
  exact ⟨hsolo.1, hsolo.2 0⟩

/-- **The rule for invariants of the runtime**, over its state and the event that is being handled. -/
theorem course_invariant
    (h : (runtimePool suite peer fuel net Course.start next).Reachable guard
      ((runtimePool suite peer fuel net Course.start next).initial s) cfg) (hinit : I s Course.start)
    (hspawn : ∀ s γ, I s γ → γ.AtRest → s.outcome.isRunning = true → I s Course.start)
    (hstep : ∀ (cfg : Pool.Config Section Response (RuntimeState N) Course) e c r s',
      I cfg.shared (cfg.phase 0) → guard cfg (.step 0 e) → cfg.at 0 = some c → (cfg.phase 0).ok c →
      exec suite peer net e c cfg.shared = some (r, s') → I s' ((cfg.phase 0).next c r)) :
    I cfg.shared (cfg.phase 0) ∧ (cfg.at 0 = none → (cfg.phase 0).AtRest) := by
  obtain ⟨hinv, hmeets⟩ := course_run h hinit hspawn hstep
  exact ⟨hinv, Pool.Config.post_idle hmeets⟩

lemma course_allows (h : (runtimePool suite peer fuel net Course.start next).Reachable guard
    ((runtimePool suite peer fuel net Course.start next).initial s) cfg) {c : Section}
    (hat : cfg.at 0 = some c) : (cfg.phase 0).ok c := by
  obtain ⟨-, hmeets⟩ := course_run (I := fun _ _ => True) h trivial (fun _ _ _ _ _ => trivial)
    fun _ _ _ _ _ _ _ _ _ _ => trivial
  exact Pool.Config.ok_at hmeets hat

end Runs

/-- The runtime of the small peer. -/
abbrev demoPool : Pool.Spec Section Response (RuntimeState (List ControlMessage)) (Env Unit) Event Course :=
  runtimePool demoSuite demoPeer 5 scripted Course.start Course.next

end Vela.Runtime
