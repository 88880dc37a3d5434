import Vela.Coord.Footprint

/-!
# Connections in the tables of the coordinator

A connection stands in the maps `online` and `runtime_status` under the node it registered as.  The
end of `handle_socket` takes it out under the node id it is registered as then.

* `no_trace_left` — a connection that registers as one node, and whose `Register` does not fail once
  the connection is entered, is in no table after its end;
* `trace_left` — a `Register` that fails after that leaves its connection in `online` for good.
-/

namespace Vela.Coord

open Vela.Proto Vela.Crypto Prog Function

/-! ### The monitor -/

/-- What a task knows of the connection it serves, and of the broadcast it sends. -/
structure Standing where
  connection : Option UInt64
  /-- the message in hand -/
  message : Option ControlMessage
  registered : Option NodeId
  /-- the `Register` in hand has entered the connection under this node, and is not answered yet -/
  entering : Option NodeId
  /-- the connection has left `online` at its end -/
  gone : Bool
  /-- a `Register` failed after it entered the connection under another node -/
  leaked : Bool
  /-- the rows that were found for the message in hand -/
  found : List (NodeId × StoredPeer)
  /-- the connections that the broadcast in hand goes to -/
  senders : List UInt64

namespace Standing

def start : Standing where
  connection := none
  message := none
  registered := none
  entering := none
  gone := false
  leaked := false
  found := []
  senders := []

def enter : Request → Standing
  | .socket connection _ => { start with connection := some connection }
  | _ => start

/-- The `Register` in hand fails. -/
def giveUp (γ : Standing) : Standing :=
  match γ.entering with
  | none => γ
  | some nodeId =>
    { γ with entering := none, leaked := γ.leaked || decide (γ.registered ≠ some nodeId) }

def next (γ : Standing) : (c : Section) → Response c → Standing
  | .recv _ message, _ => { γ with message := some message, found := [] }
  | .loadPeer nodeId, .ok (some peer) => { γ with found := (nodeId, peer) :: γ.found }
  | .onlineInsert nodeId _, _ => { γ with entering := some nodeId }
  | .send _ (.registerOk _ _ _), true =>
    match γ.entering with
    | none => γ
    | some nodeId => { γ with registered := some nodeId, entering := none }
  | .send _ _, false => γ.giveUp
  | .loadPeers, .error _ => γ.giveUp
  | .networkConfig, .error _ => γ.giveUp
  | .onlineLeave _ _, _ => { γ with gone := true }
  | .runtimeLeave _ _, _ => { γ with registered := none, gone := false }
  | .onlineSenders, found => { γ with senders := found.1 }
  | _, _ => γ

/-- The row of the registered node was found for the message in hand. -/
def Known (γ : Standing) : Prop := ∃ row ∈ γ.found, γ.registered = some row.1

/-- What is told to a connection, and in answer to what. -/
def Answers (γ : Standing) (connection : UInt64) : ControlMessage → Prop
  | .registerOk _ _ _ => γ.connection = some connection ∧ γ.entering ≠ none
  | .snapshot _ => γ.connection = some connection ∧ γ.Known
  | .peerInfo _ => γ.connection = some connection ∧ γ.Known
  | .snapshotResponse _ => γ.connection = some connection ∧ γ.message = some .requestSnapshot
  | .listPeersOk _ => γ.connection = some connection ∧ γ.message = some .listPeers
  | _ => True

def Allows (γ : Standing) : Section → Prop
  | .recv connection _ => γ.connection = some connection
  | .onlineInsert _ connection =>
    γ.connection = some connection ∧ γ.entering = none ∧ γ.gone = false
  | .runtimeInsert nodeId connection _ =>
    γ.connection = some connection ∧ γ.registered = some nodeId
  | .onlineLeave nodeId connection =>
    γ.connection = some connection ∧ γ.registered = some nodeId ∧ γ.entering = none
  | .runtimeLeave nodeId connection =>
    γ.connection = some connection ∧ γ.registered = some nodeId ∧ γ.entering = none ∧ γ.gone = true
  | .send connection message => γ.Answers connection message
  | .push connection _ => connection ∈ γ.senders
  | .onlineSenders => γ.connection = none
  | _ => True

/-- The request is finished. -/
def Done (γ : Standing) : Prop := γ.registered = none ∧ γ.entering = none

/-- The sections that change what a task has in hand. -/
def Takes : Section → Prop
  | .recv _ _ | .loadPeer _ | .onlineSenders => True
  | _ => False

variable {c : Section} {connection : UInt64} {message : ControlMessage}

lemma next_in_hand {γ : Standing} (hc : ¬ Takes c) (r : Response c) :
    (γ.next c r).message = γ.message ∧ (γ.next c r).found = γ.found ∧
      (γ.next c r).senders = γ.senders := by
  have hgive : γ.giveUp.message = γ.message ∧ γ.giveUp.found = γ.found ∧
      γ.giveUp.senders = γ.senders := by
    unfold giveUp
    split <;> exact ⟨rfl, rfl, rfl⟩
  cases c with
  | recv | loadPeer | onlineSenders => exact absurd trivial hc
  | loadPeers | networkConfig =>
    cases r with
    | ok _ => exact ⟨rfl, rfl, rfl⟩
    | error e => exact hgive
  | send connection message =>
    cases r with
    | false => cases message <;> exact hgive
    | true =>
      cases message with
      | registerOk credential peers snapshot =>
        simp only [next]
        split <;> exact ⟨rfl, rfl, rfl⟩
      | _ => exact ⟨rfl, rfl, rfl⟩
  | _ => exact ⟨rfl, rfl, rfl⟩

lemma next_senders {γ : Standing} (hc : c ≠ .onlineSenders) (r : Response c) :
    (γ.next c r).senders = γ.senders := by
  by_cases htakes : Takes c
  · cases c with
    | recv => rfl
    | loadPeer => rcases r with e | _ | peer <;> rfl
    | onlineSenders => exact absurd rfl hc
    | _ => cases htakes
  · exact (next_in_hand htakes r).2.2

lemma next_message {γ : Standing} (hc : ∀ connection message, c ≠ .recv connection message)
    (r : Response c) : (γ.next c r).message = γ.message := by
  by_cases htakes : Takes c
  · cases c with
    | recv connection message => exact absurd rfl (hc connection message)
    | loadPeer => rcases r with e | _ | peer <;> rfl
    | onlineSenders => rfl
    | _ => cases htakes
  · exact (next_in_hand htakes r).1

/-! ### Sections that change nothing but the rows that were found -/

lemma answers_of_not_informs {γ : Standing} (h : ¬ Informs message) : γ.Answers connection message := by
  cases message <;> first | trivial | exact absurd trivial h

lemma allows_common {γ : Standing} (h : Common c) : γ.Allows c := by
  cases c with
  | send connection message => exact answers_of_not_informs h
  | recv | onlineInsert | onlineLeave | runtimeInsert | runtimeLeave | push => cases h
  | onlineSenders => exact absurd trivial h
  | _ => trivial

/-- Between two standings only rows were found. -/
def Grows (γ γ' : Standing) : Prop := ∃ found, γ.found ⊆ found ∧ γ' = { γ with found }

lemma Grows.refl (γ : Standing) : γ.Grows γ := ⟨γ.found, List.Subset.refl _, rfl⟩

lemma giveUp_of_entering {γ : Standing} (h : γ.entering = none) : γ.giveUp = γ := by
  unfold giveUp
  rw [h]

lemma next_send {γ : Standing} (h : γ.entering = none) (connection : UInt64)
    (message : ControlMessage) (taken : Bool) : γ.next (.send connection message) taken = γ := by
  cases taken with
  | false => cases message <;> exact giveUp_of_entering h
  | true =>
    cases message <;> first | rfl | skip
    simp only [next, h]

lemma Grows.next {γ γ' : Standing} (h : γ.Grows γ') (hentering : γ.entering = none) (hc : Common c)
    (r : Response c) : γ.Grows (γ'.next c r) := by
  obtain ⟨found, hsub, rfl⟩ := h
  have hself : γ.Grows { γ with found } := ⟨found, hsub, rfl⟩
  have hgive : { γ with found }.giveUp = { γ with found } := giveUp_of_entering hentering
  cases c with
  | loadPeer nodeId =>
    rcases r with e | _ | peer
    · exact hself
    · exact hself
    · exact ⟨_, fun m hm => .tail _ (hsub hm), rfl⟩
  | loadPeers | networkConfig =>
    cases r with
    | ok _ => exact hself
    | error e => exact ⟨found, hsub, hgive⟩
  | send connection message =>
    exact ⟨found, hsub, next_send (γ := { γ with found }) hentering connection message r⟩
  | onlineSenders => exact absurd trivial hc
  | _ => first | exact hself | cases hc

/-- Programs that only find rows. -/
def grown (γ : Standing) : Discipline Section Response := .monitor next Allows γ.Grows

variable {γ γ' : Standing}

lemma grown_call (h : γ.entering = none) (hc : Common c) : γ.grown.holds (call c) :=
  fun _ hγ => ⟨allows_common hc, fun r => hγ.next h hc r⟩

lemma grown_broadcastSnapshot : γ.grown.holds broadcastSnapshot.run := by
  intro γ' hγ
  refine ⟨trivial, fun shouldStart => ?_⟩
  cases shouldStart with
  | false => exact hγ
  | true => exact ⟨trivial, fun _ => hγ⟩

lemma meets_grown {α β : Type} {x : CoordM α} {f : α → CoordM β}
    {post : Standing → Except CoordError β → Prop} (hx : γ.grown.holds x.run)
    (herror : ∀ γ' e, γ.Grows γ' → post γ' (.error e))
    (hf : ∀ γ' a, γ.Grows γ' → (f a).run.Meets next Allows post γ') (hγ : γ.Grows γ') :
    (x >>= f).run.Meets next Allows post γ' := by
  refine Meets.bindExcept ((hx γ' hγ).mono ?_) hf
  rintro γ'' (e | a) hγ
  · exact herror γ'' e hγ
  · exact hγ

lemma meets_send (hentering : γ.entering = none) (hok : γ.Answers connection message) :
    (send connection message).run.Meets next Allows (fun γ' _ => γ' = γ) γ := by
  refine ⟨hok, fun taken => ?_⟩
  rw [next_send hentering]
  cases taken <;> rfl

end Standing

open Standing

/-! ### The programs of a connection -/

/-- Between two messages. -/
structure Attending (connection : UInt64) (registered : Option NodeId) (γ : Standing) : Prop where
  connection : γ.connection = some connection
  registered : γ.registered = registered
  entering : γ.entering = none
  gone : γ.gone = false

/-- How the handling of a message ends. -/
abbrev Attended (connection : UInt64) (registered : Option NodeId) :
    Standing → Except CoordError (Option NodeId) → Prop :=
  outcome (fun γ registered => Attending connection registered γ)
    fun γ _ => Attending connection registered γ

section Programs

variable {prim : Primitives} {server : Server} {connection : UInt64} {registered : Option NodeId}
  {γ γ' : Standing}

lemma Attending.grows (h : Attending connection registered γ) (hγ : γ.Grows γ') :
    Attending connection registered γ' := by
  obtain ⟨found, -, rfl⟩ := hγ
  exact ⟨h.connection, h.registered, h.entering, h.gone⟩

variable {message : ControlMessage} {nodeId : NodeId}

lemma send_attends {rest : Unit → CoordM (Option NodeId)} (h : Attending connection registered γ)
    (hok : γ.Answers connection message)
    (hrest : (rest ()).run.Meets next Allows (Attended connection registered) γ) :
    (send connection message >>= rest).run.Meets next Allows (Attended connection registered) γ := by
  refine Meets.bindExcept (M := fun γ' _ => γ' = γ) ((meets_send h.entering hok).mono ?_) ?_
  · rintro _ (e | _) rfl
    · exact h
    · rfl
  · rintro _ _ rfl
    exact hrest

lemma answer_attends {message : NetworkSnapshot → ControlMessage}
    (h : Attending connection registered γ)
    (hok : ∀ snapshot γ', γ.Grows γ' → γ'.Answers connection (message snapshot)) (hγ : γ.Grows γ') :
    (do
      let snapshot ← networkSnapshot prim server (← onlinePeerIds)
      send connection (message snapshot)
      return registered : CoordM (Option NodeId)).run.Meets next Allows
        (Attended connection registered) γ' := by
  refine meets_grown (γ.grown.lift (grown_call h.entering nofun)) (fun _ _ => h.grows)
    (fun γ' ids hγ => ?_) hγ
  refine meets_grown (holds_networkSnapshot (fun _ hc _ => grown_call h.entering hc) prim server ids)
    (fun _ _ => h.grows) (fun γ' snapshot hγ => ?_) hγ
  exact send_attends (h.grows hγ) (hok snapshot γ' hγ) (h.grows hγ)

lemma networkSnapshot_enters (ids : List NodeId) :
    (networkSnapshot prim server ids).run.Meets next Allows
      (outcome (fun γ' _ => γ' = γ) fun γ' _ => γ' = γ.giveUp) γ := by
  refine ⟨trivial, fun peers => ?_⟩
  cases peers with
  | error e => rfl
  | ok peers =>
    refine ⟨trivial, fun config => ?_⟩
    cases config with
    | error e => rfl
    | ok config => exact ⟨trivial, fun _ => ⟨trivial, fun _ => rfl⟩⟩

/-- A `Register` that fails leaves the connection registered as it was. -/
lemma Attending.giveUp (h : Attending connection registered γ) (nodeId : NodeId) :
    Attending connection registered { γ with entering := some nodeId }.giveUp :=
  ⟨h.connection, h.registered, rfl, h.gone⟩

lemma completeRegister_attends {peer : StoredPeer} {previousPeer : Option StoredPeer}
    (h : Attending connection registered γ) (hγ : γ.Grows γ') :
    (completeRegister prim server connection peer previousPeer).run.Meets next Allows
      (Attended connection registered) γ' := by
  refine meets_grown (grown_call h.entering nofun) (fun _ _ => h.grows) (fun γ' _ hγ => ?_) hγ
  refine meets_grown (grown_call h.entering nofun) (fun _ _ => h.grows) (fun γ' _ hγ => ?_) hγ
  have hγ' := h.grows hγ
  refine ⟨⟨hγ'.connection, hγ'.entering, hγ'.gone⟩, fun wasOnline => ⟨trivial, fun peers => ?_⟩⟩
  cases peers with
  | error e => exact hγ'.giveUp peer.nodeId
  | ok peers =>
    refine ⟨trivial, fun ids => ?_⟩
    refine Meets.bindExcept (M := fun γ'' _ => γ'' = { γ' with entering := some peer.nodeId })
      ((networkSnapshot_enters ids).mono ?_) ?_
    · rintro _ (e | snapshot) rfl
      · exact hγ'.giveUp peer.nodeId
      · rfl
    · rintro _ snapshot rfl
      refine ⟨⟨hγ'.connection, nofun⟩, fun taken => ?_⟩
      cases taken with
      | false => exact hγ'.giveUp peer.nodeId
      | true =>
        have hentered : Attending connection (some peer.nodeId)
            { γ' with registered := some peer.nodeId, entering := none } :=
          ⟨hγ'.connection, rfl, rfl, hγ'.gone⟩
        simp only [Prog.bind]
        split
        · refine ⟨trivial, fun shouldStart => ?_⟩
          cases shouldStart with
          | false => exact hentered
          | true => exact ⟨trivial, fun _ => hentered⟩
        · exact hentered

lemma handleRegister_attends {request : Registration} (h : Attending connection registered γ) :
    (handleRegister prim server connection request).run.Meets next Allows
      (Attended connection registered) γ := by
  refine meets_ofExcept_bind (fun signingPublic _ => ?_) fun _ _ => h
  refine meets_ofExcept_bind (fun noisePublic _ => ?_) fun _ _ => h
  refine meets_ofExcept_bind (fun _ _ => ?_) fun _ _ => h
  refine meets_grown (holds_registerCredential (fun _ hc _ => grown_call h.entering hc) prim server _ _ _)
    (fun _ _ => h.grows) (fun γ' obtained hγ => ?_) (.refl γ)
  refine meets_grown (grown_call h.entering nofun) (fun _ _ => h.grows) (fun γ' previous hγ => ?_) hγ
  refine meets_grown (grown_call h.entering nofun) (fun _ _ => h.grows) (fun γ' allocated hγ => ?_) hγ
  refine meets_grown (grown_call h.entering nofun) (fun _ _ => h.grows) (fun γ' _ hγ => ?_) hγ
  cases obtained.2 with
  | none => exact completeRegister_attends h hγ
  | some registration =>
    refine meets_grown (grown_call h.entering nofun) (fun _ _ => h.grows) (fun γ' _ hγ => ?_) hγ
    exact completeRegister_attends h hγ

lemma Standing.Known.grows {row : NodeId × StoredPeer} (hreg : γ.registered = some row.1)
    (hfound : row ∈ γ.found) (hγ : γ.Grows γ') : γ'.Known := by
  obtain ⟨found, hsub, rfl⟩ := hγ
  exact ⟨row, hsub hfound, hreg⟩

lemma handleUpdateCandidates_attends {candidates : List Candidate}
    (h : Attending connection registered γ) :
    (handleUpdateCandidates prim server connection registered candidates).run.Meets next Allows
      (Attended connection registered) γ := by
  cases registered with
  | none => exact h
  | some nodeId =>
    refine ⟨trivial, fun loaded => ?_⟩
    rcases loaded with e | _ | peer
    · exact h
    · exact h
    · -- from here on the row is known
      let γ₁ : Standing := { γ with found := (nodeId, peer) :: γ.found }
      have hγ₁ : Attending connection (some nodeId) γ₁ :=
        ⟨h.connection, h.registered, h.entering, h.gone⟩
      refine ⟨trivial, fun updated => ?_⟩
      cases updated with
      | error e => exact hγ₁
      | ok _ =>
        refine ⟨trivial, fun touched => ?_⟩
        cases touched with
        | error e => exact hγ₁
        | ok _ =>
          simp only [Prog.bind, ExceptT.bindCont]
          split
          · have hbump : γ₁.grown.holds bumpSnapshot.run := grown_call hγ₁.entering (by simp [Common, Broadcasts])
            refine meets_grown hbump (fun _ _ => hγ₁.grows) (fun γ' _ hγ => ?_) (.refl γ₁)
            exact meets_grown grown_broadcastSnapshot (fun _ _ => hγ₁.grows) (fun _ _ => hγ₁.grows) hγ
          · refine answer_attends hγ₁ (fun snapshot γ' hγ => ?_) (.refl γ₁)
            exact ⟨(hγ₁.grows hγ).connection, .grows hγ₁.registered (.head _) hγ⟩

lemma handleLookupPeer_attends (h : Attending connection registered γ) :
    (handleLookupPeer prim connection registered nodeId).run.Meets next Allows
      (Attended connection registered) γ := by
  cases registered with
  | none => exact h
  | some requester =>
    refine ⟨trivial, fun loaded => ?_⟩
    rcases loaded with e | _ | target
    · exact h
    · exact h
    · refine ⟨trivial, fun loaded => ?_⟩
      have hγ : ∀ found, Attending connection (some requester) { γ with found } := fun _ =>
        ⟨h.connection, h.registered, h.entering, h.gone⟩
      rcases loaded with e | _ | info
      · exact hγ _
      · exact hγ _
      · let γ₁ : Standing := { γ with found := (requester, info) :: (nodeId, target) :: γ.found }
        have hknown : γ₁.Known := ⟨(requester, info), .head _, h.registered⟩
        have hγ₁ : Attending connection (some requester) γ₁ := hγ _
        refine meets_okOr_bind (fun _ _ => send_attends hγ₁ ⟨h.connection, hknown⟩ ?_) hγ₁
        refine meets_grown (γ₁.grown.lift (grown_call hγ₁.entering nofun)) (fun _ _ => hγ₁.grows)
          (fun γ' targets hγ' => ?_) (.refl _)
        refine meets_grown (γ₁.grown.forMExcept _ targets fun target => ?_) (fun _ _ => hγ₁.grows)
          (fun _ _ => hγ₁.grows) hγ'
        exact γ₁.grown.bindExcept (γ₁.grown.lift (grown_call hγ₁.entering nofun))
          fun _ => γ₁.grown.ret _

lemma handleListPeers_attends (h : Attending connection registered γ)
    (hmessage : γ.message = some .listPeers) :
    (handleListPeers connection registered).run.Meets next Allows
      (Attended connection registered) γ := by
  cases registered with
  | none => exact h
  | some requester =>
    refine ⟨trivial, fun listed => ?_⟩
    cases listed with
    | error e => exact h
    | ok listed => exact send_attends h ⟨h.connection, hmessage⟩ h

/-- **Every message** is handled with the connection registered as it is, or as it has just
become. -/
theorem handleMessage_attends (h : Attending connection registered γ)
    (hmessage : γ.message = some message) :
    (handleMessage prim server connection registered message).run.Meets next Allows
      (Attended connection registered) γ := by
  cases message with
  | register request => exact handleRegister_attends h
  | updateCandidates candidates => exact handleUpdateCandidates_attends h
  | requestSnapshot =>
    cases registered with
    | none => exact h
    | some nodeId =>
      refine answer_attends h (fun snapshot γ' hγ => ?_) (.refl γ)
      obtain ⟨found, -, rfl⟩ := hγ
      exact ⟨h.connection, hmessage⟩
  | lookupPeer nodeId => exact handleLookupPeer_attends h
  | listPeers => exact handleListPeers_attends h hmessage
  | runtimeStatus virtualMtu =>
    cases registered with
    | none => exact h
    | some nodeId => exact ⟨⟨h.connection, h.registered⟩, fun _ => h⟩
  | ping nonce => exact send_attends h trivial h
  | pong nonce =>
    cases registered with
    | none => exact h
    | some nodeId =>
      refine ⟨trivial, fun touched => ?_⟩
      cases touched <;> exact h
  | _ => exact h

/-- **A whole connection**, given what holds of every message. -/
theorem serveMessages_meets {ok : Standing → Section → Prop}
    (hok : ∀ γ message, γ.connection = some connection → ok γ (.recv connection message))
    (hcomplain : ∀ γ code text, ok γ (.send connection (errorMessage code text)))
    (hhandle : ∀ registered γ message, Attending connection registered γ →
      γ.message = some message → γ.found = [] →
      (handleMessage prim server connection registered message).run.Meets next ok
        (Attended connection registered) γ) :
    ∀ (messages : List Incoming) (registered : Option NodeId) (γ : Standing),
    Attending connection registered γ →
    (serveMessages prim server connection registered messages).Meets next ok
      (fun γ registered => Attending connection registered γ) γ := by
  refine fun messages => meets_serveMessages
    (fun _ γ message h => hok γ message h.connection) (fun _ γ code text h => ⟨hcomplain γ code text, ?_⟩)
    messages fun message _ registered γ h => ?_
  · exact fun taken => by rwa [next_send h.entering]
  · exact hhandle registered _ message ⟨h.connection, h.registered, h.entering, h.gone⟩ rfl rfl

lemma leave_attends (h : Attending connection (some nodeId) γ) :
    (leave connection nodeId).Meets next Allows (fun γ _ => γ.Done) γ := by
  refine ⟨⟨h.connection, h.registered, h.entering⟩, fun becameOffline => ?_⟩
  refine ⟨⟨h.connection, h.registered, h.entering, rfl⟩, fun _ => ?_⟩
  have hdone : { γ with registered := none, gone := false }.Done := ⟨rfl, h.entering⟩
  cases becameOffline with
  | false => exact hdone
  | true =>
    refine ⟨trivial, fun bumped => ?_⟩
    cases bumped with
    | error e => exact hdone
    | ok _ =>
      refine ⟨trivial, fun shouldStart => ?_⟩
      cases shouldStart with
      | false => exact hdone
      | true => exact ⟨trivial, fun _ => hdone⟩

end Programs

lemma broadcastSnapshotNow_attends (prim : Primitives) (server : Server) :
    (broadcastSnapshotNow prim server).run.Meets next Allows (fun γ _ => γ.Done) start := by
  refine ⟨rfl, fun found => ?_⟩
  let γ₁ : Standing := { start with senders := found.1 }
  have hdone : ∀ γ', γ₁.Grows γ' → γ'.Done := by
    rintro _ ⟨_, -, rfl⟩
    exact ⟨rfl, rfl⟩
  have hentering : γ₁.entering = none := rfl
  refine meets_grown (holds_networkSnapshot (fun _ hc _ => grown_call hentering hc) prim server found.2)
    (fun γ' _ hγ => hdone γ' hγ) (fun γ' snapshot hγ => ?_) (.refl _)
  have hpush : ∀ connection ∈ found.1, ∀ γ', γ₁.Grows γ' →
      (ExceptT.lift (call (.push connection snapshot)) : CoordM PUnit).run.Meets next Allows
        (fun γ' _ => γ₁.Grows γ') γ' := by
    rintro connection hmem _ ⟨_, hsub, rfl⟩
    exact ⟨hmem, fun _ => ⟨_, hsub, rfl⟩⟩
  exact (Meets.forMExcept _ found.1 hγ hpush).mono fun γ' _ hγ => hdone γ' hγ

lemma snapshotBroadcastRound_attends (prim : Primitives) (server : Server) :
    (snapshotBroadcastRound prim server).Meets next Allows (fun γ _ => γ.Done) start := by
  have hcontinue : ∀ γ : Standing, γ.Done → (do
      let shouldContinue ← call .broadcastContinue
      if shouldContinue then call .broadcastSpawn : Task PUnit).Meets next Allows
        (fun γ _ => γ.Done) γ := by
    intro γ hγ
    refine ⟨trivial, fun shouldContinue => ?_⟩
    cases shouldContinue with
    | false => exact hγ
    | true => exact ⟨trivial, fun _ => hγ⟩
  refine Meets.callBind trivial fun shouldBroadcast => ?_
  cases shouldBroadcast with
  | false => exact ⟨rfl, rfl⟩
  | true =>
    refine Meets.bind (broadcastSnapshotNow_attends prim server) fun γ result hγ => ?_
    cases result with
    | ok _ => exact hcontinue γ hγ
    | error e => exact ⟨trivial, fun _ => hcontinue γ hγ⟩

/-- **Every request** keeps to its connection. -/
theorem body_attends (prim : Primitives) (server : Server) (request : Request) :
    (request.body prim server).Meets next Allows (fun γ _ => γ.Done) (enter request) := by
  have hadmin : request ≠ .broadcastLoop →
      (∀ connection messages, request ≠ .socket connection messages) →
      (request.body prim server).Meets next Allows (fun γ _ => γ.Done) start := by
    intro hloop hsocket
    have hholds := holds_administration (D := start.grown) (fun _ hc _ => grown_call rfl hc)
      grown_broadcastSnapshot prim server hloop hsocket
    refine (hholds start (.refl _)).mono ?_
    rintro _ _ ⟨_, -, rfl⟩
    exact ⟨rfl, rfl⟩
  cases request with
  | socket connection messages =>
    have hmessages := @serveMessages_meets prim server connection Allows (fun _ _ => id)
      (fun _ _ _ => trivial) fun _ _ _ h hmessage _ => handleMessage_attends h hmessage
    refine Meets.bind (hmessages messages none _ ⟨rfl, rfl, rfl, rfl⟩) fun γ registered h => ?_
    cases registered with
    | none => exact ⟨h.registered, h.entering⟩
    | some nodeId => exact leave_attends h
  | broadcastLoop => exact snapshotBroadcastRound_attends prim server
  | _ => exact hadmin nofun nofun

/-! ### A connection in the tables -/

/-- The connection stands in `online` under the node. -/
def CoordState.Listed (s : CoordState) (connection : UInt64) (nodeId : NodeId) : Prop :=
  ∃ sessions, s.online.lookup nodeId = some sessions ∧ connection ∈ sessions

/-- The connection stands in `runtime_status` under the node. -/
def CoordState.Reported (s : CoordState) (connection : UInt64) (nodeId : NodeId) : Prop :=
  ∃ sessions, s.runtimeStatus.lookup nodeId = some sessions ∧ connection ∈ sessions

/-- The connection stands in no table. -/
def CoordState.NoTrace (s : CoordState) (connection : UInt64) : Prop :=
  ∀ nodeId, ¬ s.Listed connection nodeId ∧ ¬ s.Reported connection nodeId

/-- The connections of a node are the keys of a map. -/
def CoordState.Distinct (s : CoordState) : Prop :=
  ∀ nodeId sessions, s.online.lookup nodeId = some sessions → sessions.Nodup

section Tables

variable {s : CoordState} {k connection : UInt64} {m nodeId : NodeId}

lemma listed_onlineInsert (h : (s.onlineInsert m connection).2.Listed k nodeId) :
    s.Listed k nodeId ∨ k = connection ∧ nodeId = m := by
  obtain ⟨sessions, hlookup, hk⟩ := h
  rcases AList.lookup_insert_some.1 hlookup with ⟨rfl, rfl⟩ | ⟨-, hlookup⟩
  · rcases List.mem_insert_iff.1 hk with rfl | hk
    · exact .inr ⟨rfl, rfl⟩
    · cases hold : s.online.lookup nodeId with
      | none => simp [hold] at hk
      | some sessions => exact .inl ⟨sessions, hold, by simpa [hold] using hk⟩
  · exact .inl ⟨sessions, hlookup, hk⟩

lemma lookup_onlineLeave {sessions : List UInt64}
    (h : (s.onlineLeave m connection).2.online.lookup nodeId = some sessions) :
    ∃ old, s.online.lookup nodeId = some old ∧
      (nodeId = m ∧ sessions = old.erase connection ∨ nodeId ≠ m ∧ sessions = old) := by
  unfold CoordState.onlineLeave at h
  split at h
  · rename_i hnone
    exact ⟨sessions, h, .inr ⟨fun hm => (by rw [hm, hnone] at h; cases h), rfl⟩⟩
  · rename_i old hold
    simp only at h
    split at h
    · obtain ⟨hm, h⟩ := AList.lookup_erase_some.1 h
      exact ⟨sessions, h, .inr ⟨hm, rfl⟩⟩
    · rcases AList.lookup_insert_some.1 h with ⟨rfl, rfl⟩ | ⟨hm, h⟩
      · exact ⟨old, hold, .inl ⟨rfl, rfl⟩⟩
      · exact ⟨sessions, h, .inr ⟨hm, rfl⟩⟩

lemma listed_onlineLeave (h : (s.onlineLeave m connection).2.Listed k nodeId) :
    s.Listed k nodeId ∧ (s.Distinct → k = connection → nodeId ≠ m) := by
  obtain ⟨sessions, hlookup, hk⟩ := h
  obtain ⟨old, hold, ⟨-, rfl⟩ | ⟨hm, rfl⟩⟩ := lookup_onlineLeave hlookup
  · refine ⟨⟨old, hold, List.mem_of_mem_erase hk⟩, fun hdistinct heq => ?_⟩
    subst heq
    exact absurd hk (hdistinct nodeId old hold).not_mem_erase
  · exact ⟨⟨sessions, hold, hk⟩, fun _ _ => hm⟩

lemma listed_onlineRemove (h : { s with online := s.online.erase m }.Listed k nodeId) :
    s.Listed k nodeId ∧ nodeId ≠ m := by
  obtain ⟨sessions, hlookup, hk⟩ := h
  obtain ⟨hm, hlookup⟩ := AList.lookup_erase_some.1 hlookup
  exact ⟨⟨sessions, hlookup, hk⟩, hm⟩

lemma reported_runtimeInsert {virtualMtu : UInt16}
    (h : (s.runtimeInsert m connection virtualMtu).Reported k nodeId) :
    s.Reported k nodeId ∨ k = connection ∧ nodeId = m := by
  obtain ⟨sessions, hlookup, hk⟩ := h
  rcases AList.lookup_insert_some.1 hlookup with ⟨rfl, rfl⟩ | ⟨-, hlookup⟩
  · rcases (AList.mem_insert _).1 hk with rfl | hk
    · exact .inr ⟨rfl, rfl⟩
    · cases hold : s.runtimeStatus.lookup nodeId with
      | none => simp [hold] at hk
      | some sessions => exact .inl ⟨sessions, hold, by simpa [hold] using hk⟩
  · exact .inl ⟨sessions, hlookup, hk⟩

lemma reported_runtimeLeave (h : (s.runtimeLeave m connection).Reported k nodeId) :
    s.Reported k nodeId ∧ (k = connection → nodeId ≠ m) := by
  obtain ⟨sessions, hlookup, hk⟩ := h
  unfold CoordState.runtimeLeave at hlookup
  split at hlookup
  · rename_i hnone
    exact ⟨⟨sessions, hlookup, hk⟩, fun _ hm => (by rw [hm, hnone] at hlookup; cases hlookup)⟩
  · rename_i old hold
    simp only at hlookup
    split at hlookup
    · obtain ⟨hm, hlookup⟩ := AList.lookup_erase_some.1 hlookup
      exact ⟨⟨sessions, hlookup, hk⟩, fun _ => hm⟩
    · rcases AList.lookup_insert_some.1 hlookup with ⟨rfl, rfl⟩ | ⟨hm, hlookup⟩
      · obtain ⟨hne, hk⟩ := AList.mem_erase.1 hk
        exact ⟨⟨old, hold, hk⟩, fun heq => absurd heq hne⟩
      · exact ⟨⟨sessions, hlookup, hk⟩, fun _ => hm⟩

variable {s' : CoordState}

lemma listed_congr (h : s'.online = s.online) : s'.Listed k nodeId ↔ s.Listed k nodeId := by
  unfold CoordState.Listed
  rw [h]

lemma reported_congr (h : s'.runtimeStatus = s.runtimeStatus) :
    s'.Reported k nodeId ↔ s.Reported k nodeId := by
  unfold CoordState.Reported
  rw [h]

lemma distinct_congr (h : s'.online = s.online) (hs : s.Distinct) : s'.Distinct := by
  unfold CoordState.Distinct
  rwa [h]

lemma distinct_onlineInsert (h : s.Distinct) : (s.onlineInsert m connection).2.Distinct := by
  intro nodeId sessions hlookup
  rcases AList.lookup_insert_some.1 hlookup with ⟨rfl, rfl⟩ | ⟨-, hlookup⟩
  · refine List.Nodup.insert ?_
    cases hold : s.online.lookup nodeId with
    | none => simp
    | some sessions => exact h nodeId sessions hold
  · exact h nodeId sessions hlookup

lemma distinct_onlineLeave (h : s.Distinct) : (s.onlineLeave m connection).2.Distinct := by
  intro nodeId sessions hlookup
  obtain ⟨old, hold, ⟨-, rfl⟩ | ⟨-, rfl⟩⟩ := lookup_onlineLeave hlookup
  · exact (h nodeId old hold).erase connection
  · exact h nodeId sessions hold

lemma distinct_perform {prim : Primitives} {server : Server} (h : s.Distinct) (e : Env)
    (c : Section) : (perform prim server e c s).2.Distinct := by
  by_cases hc : Relocates c
  · cases c with
    | onlineInsert => exact distinct_onlineInsert h
    | onlineRemove => exact fun nodeId sessions hlookup => h _ _ (AList.lookup_erase_some.1 hlookup).2
    | onlineLeave => exact distinct_onlineLeave h
    | _ => cases hc
  · exact distinct_congr (online_frame hc e s) h

end Tables

/-! ### What a section does to the standing of its task -/

/-- What can become of the standing of a task that performs a section. -/
inductive Standing.Step (e : Env) (γ : Standing) : Section → Standing → Prop
  | same (c : Section) (message : Option ControlMessage) (found : List (NodeId × StoredPeer))
      (senders : List UInt64) (hc : ∀ nodeId connection, c ≠ .onlineInsert nodeId connection) :
      Step e γ c { γ with message, found, senders }
  | entered (nodeId : NodeId) (connection : UInt64) :
      Step e γ (.onlineInsert nodeId connection) { γ with entering := some nodeId }
  | answered (c : Section) (nodeId : NodeId) (h : γ.entering = some nodeId) (hc : c.part = .sent) :
      Step e γ c { γ with registered := some nodeId, entering := none }
  | failed (c : Section) (nodeId : NodeId) (h : γ.entering = some nodeId)
      (hc : c.part = .sent ∨ c.part = .nothing) (he : ¬ (e.fault = none ∧ e.isOpen = true)) :
      Step e γ c γ.giveUp
  | left (nodeId : NodeId) (connection : UInt64) :
      Step e γ (.onlineLeave nodeId connection) { γ with gone := true }
  | finished (nodeId : NodeId) (connection : UInt64) :
      Step e γ (.runtimeLeave nodeId connection) { γ with registered := none, gone := false }

section Steps

variable {prim : Primitives} {server : Server}

variable {c : Section} {e : Env} {nodeId : NodeId}

lemma Standing.step_giveUp {γ : Standing} (hc : c.part = .sent ∨ c.part = .nothing)
    (he : ¬ (e.fault = none ∧ e.isOpen = true)) :
    γ.Step e c γ.giveUp := by
  cases hentering : γ.entering with
  | none =>
    rw [giveUp_of_entering hentering]
    refine .same c _ _ _ ?_
    rintro nodeId connection rfl
    simp [Section.part] at hc
  | some nodeId => exact .failed c nodeId hentering hc he

/-- **One section.** -/
theorem Standing.step_perform (e : Env) (γ : Standing) (c : Section) (s : CoordState) :
    γ.Step e c (γ.next c (perform prim server e c s).1) := by
  cases c with
  | onlineInsert nodeId connection => exact .entered nodeId connection
  | onlineLeave nodeId connection => exact .left nodeId connection
  | runtimeLeave nodeId connection => exact .finished nodeId connection
  | loadPeer nodeId =>
    generalize (perform prim server e (.loadPeer nodeId) s).1 = found
    rcases found with error | _ | peer <;> exact .same _ _ _ _ (by simp)
  | loadPeers | networkConfig =>
    cases hfault : e.fault with
    | some error =>
      simp only [perform, Env.database, hfault]
      exact step_giveUp (.inr rfl) (by simp [hfault])
    | none =>
      simp only [perform, Env.database, hfault]
      exact .same _ _ _ _ (by simp)
  | send connection message =>
    cases hopen : e.isOpen with
    | false =>
      have hgive : γ.next (.send connection message) false = γ.giveUp := by cases message <;> rfl
      simp only [perform, hopen, hgive]
      exact step_giveUp (.inl rfl) (by simp [hopen])
    | true =>
      simp only [perform, hopen]
      cases message with
      | registerOk credential peers snapshot =>
        cases hentering : γ.entering with
        | none =>
          simp only [next, hentering]
          exact .same _ _ _ _ (by simp)
        | some nodeId =>
          simp only [next, hentering]
          exact .answered _ nodeId hentering rfl
      | _ => exact .same _ _ _ _ (by simp)
  | _ => exact .same _ _ _ _ (by simp)

lemma Standing.Step.connection {γ γ' : Standing} (h : γ.Step e c γ') :
    γ'.connection = γ.connection := by
  cases h with
  | failed _ nodeId hentering =>
    unfold giveUp
    rw [hentering]
  | _ => rfl

lemma Standing.next_connection (γ : Standing) (c : Section) (r : Response c) :
    { γ with connection := none }.next c r = { γ.next c r with connection := none } := by
  have hgive : { γ with connection := none }.giveUp = { γ.giveUp with connection := none } := by
    obtain ⟨connection, message, registered, entering, gone, leaked, found, senders⟩ := γ
    cases entering <;> rfl
  cases c with
  | loadPeer => rcases r with e | _ | peer <;> rfl
  | loadPeers | networkConfig =>
    cases r with
    | ok _ => rfl
    | error e => exact hgive
  | send connection message =>
    cases r with
    | false => cases message <;> exact hgive
    | true =>
      cases message <;> first | rfl | skip
      obtain ⟨connection, message, registered, entering, gone, leaked, found, senders⟩ := γ
      cases entering <;> rfl
  | _ => rfl

lemma listed_perform {s : CoordState} {k : UInt64} (h : (perform prim server e c s).2.Listed k nodeId) :
    s.Listed k nodeId ∨ c = .onlineInsert nodeId k := by
  by_cases hc : Relocates c
  · cases c with
    | onlineInsert m connection =>
      rcases listed_onlineInsert h with h | ⟨rfl, rfl⟩
      · exact .inl h
      · exact .inr rfl
    | onlineRemove m => exact .inl (listed_onlineRemove h).1
    | onlineLeave m connection => exact .inl (listed_onlineLeave h).1
    | _ => cases hc
  · exact .inl ((listed_congr (online_frame hc e s)).1 h)

lemma reported_perform {s : CoordState} {k : UInt64}
    (h : (perform prim server e c s).2.Reported k nodeId) :
    s.Reported k nodeId ∨ ∃ virtualMtu, c = .runtimeInsert nodeId k virtualMtu := by
  by_cases hc : c.part = .runtime
  · cases c with
    | runtimeInsert m connection virtualMtu =>
      rcases reported_runtimeInsert h with h | ⟨rfl, rfl⟩
      · exact .inl h
      · exact .inr ⟨virtualMtu, rfl⟩
    | runtimeLeave m connection => exact .inl (reported_runtimeLeave h).1
    | _ => cases hc
  · exact .inl ((reported_congr ((perform_frame e c s).runtimeStatus hc)).1 h)

/-! ### The entries of one connection -/

/-- The task of the connection `k` accounts for all its entries. -/
structure Accounted (k : UInt64) (s : CoordState) (γ : Standing) : Prop where
  kept : γ.leaked = false
  entering : ∀ m, γ.entering = some m → γ.registered = none ∨ γ.registered = some m
  listed : ∀ m, s.Listed k m → γ.connection = some k ∧ γ.gone = false ∧
    (γ.registered = some m ∨ γ.entering = some m)
  reported : ∀ m, s.Reported k m → γ.connection = some k ∧ γ.registered = some m

/-- What is asked of a section of the connection's task: a `Register` enters the connection under
the node it is registered as, if there is one, and does not fail after that. -/
def Standing.Orderly (γ : Standing) (c : Section) (e : Env) : Prop :=
  (∀ m connection, c = .onlineInsert m connection → γ.registered = none ∨ γ.registered = some m) ∧
    ∀ m, γ.entering = some m → γ.registered = some m ∨ e.fault = none ∧ e.isOpen = true

variable {k : UInt64} {s s' : CoordState} {γ γ' : Standing}

lemma Accounted.noTrace (h : Accounted k s γ) (hdone : γ.Done) : s.NoTrace k := by
  intro m
  constructor
  · intro hlisted
    obtain ⟨-, -, hm | hm⟩ := h.listed m hlisted
    · cases hdone.1.symm.trans hm
    · cases hdone.2.symm.trans hm
  · intro hreported
    cases hdone.1.symm.trans (h.reported m hreported).2

lemma accounted_enter (h : s.NoTrace k) (request : Request) : Accounted k s (enter request) := by
  have hfresh : (enter request).leaked = false ∧ (enter request).entering = none := by
    cases request <;> exact ⟨rfl, rfl⟩
  refine ⟨hfresh.1, fun m hm => ?_, fun m hm => absurd hm (h m).1, fun m hm => absurd hm (h m).2⟩
  rw [hfresh.2] at hm
  cases hm

lemma Accounted.mono (h : Accounted k s γ) (hlisted : ∀ m, s'.Listed k m → s.Listed k m)
    (hreported : ∀ m, s'.Reported k m → s.Reported k m) : Accounted k s' γ :=
  ⟨h.kept, h.entering, fun m hm => h.listed m (hlisted m hm),
    fun m hm => h.reported m (hreported m hm)⟩

lemma Accounted.other (h : Accounted k s γ) (e : Env) (hok : γ'.Allows c)
    (hforeign : γ'.connection ≠ some k) : Accounted k (perform prim server e c s).2 γ := by
  refine h.mono (fun m hm => ?_) fun m hm => ?_
  · rcases listed_perform hm with hm | rfl
    · exact hm
    · exact absurd hok.1 hforeign
  · rcases reported_perform hm with hm | ⟨virtualMtu, rfl⟩
    · exact hm
    · exact absurd hok.1 hforeign

/-- **A section of the task itself.** -/
theorem Accounted.own (h : Accounted k s γ) (hdistinct : s.Distinct) (e : Env) (hok : γ.Allows c)
    (horderly : γ.Orderly c e) :
    Accounted k (perform prim server e c s).2 (γ.next c (perform prim server e c s).1) := by
  have hstep := @step_perform prim server e γ c s
  have hlisted := fun m (hm : (perform prim server e c s).2.Listed k m) =>
    (listed_perform hm).imp_left (h.listed m)
  have hreported := fun m (hm : (perform prim server e c s).2.Reported k m) =>
    (reported_perform hm).imp_left (h.reported m)
  generalize γ.next c (perform prim server e c s).1 = γ' at hstep
  cases hstep with
  | same _ message found senders hc =>
    refine ⟨h.kept, h.entering, fun m hm => ?_, fun m hm => ?_⟩
    · exact (hlisted m hm).resolve_right (hc m k)
    · rcases hreported m hm with hm | ⟨virtualMtu, rfl⟩
      · exact hm
      · exact hok
  | entered nodeId connection =>
    refine ⟨h.kept, ?_, fun m hm => ?_, fun m hm => (hreported m hm).resolve_right (by simp)⟩
    · rintro m ⟨⟩
      exact horderly.1 nodeId connection rfl
    · rcases hlisted m hm with ⟨hk, hgone, hm | hm⟩ | heq
      · exact ⟨hk, hgone, .inl hm⟩
      · cases hok.2.1.symm.trans hm
      · obtain ⟨rfl, rfl⟩ := Section.onlineInsert.inj heq
        exact ⟨hok.1, hok.2.2, .inr rfl⟩
  | answered _ nodeId hentering hc =>
    -- the connection was registered as this node before, or not at all
    have hbefore : ∀ m, γ.registered = some m → nodeId = m := by
      intro m hm
      rcases h.entering nodeId hentering with hnone | hsame
      · cases hnone.symm.trans hm
      · exact Option.some.inj (hsame.symm.trans hm)
    refine ⟨h.kept, (by simp), fun m hm => ?_, fun m hm => ?_⟩
    · rcases hlisted m hm with ⟨hk, hgone, hm | hm⟩ | rfl
      · exact ⟨hk, hgone, .inl (congrArg some (hbefore m hm))⟩
      · exact ⟨hk, hgone, .inl (hentering.symm.trans hm)⟩
      · cases hc
    · rcases hreported m hm with ⟨hk, hm⟩ | ⟨virtualMtu, rfl⟩
      · exact ⟨hk, congrArg some (hbefore m hm)⟩
      · cases hc
  | failed _ nodeId hentering hc he =>
    have hreg : γ.registered = some nodeId := (horderly.2 nodeId hentering).resolve_right he
    have hgive : γ.giveUp = { γ with entering := none } := by
      unfold giveUp
      rw [hentering]
      simp [hreg]
    rw [hgive]
    refine ⟨h.kept, (by simp), fun m hm => ?_, fun m hm => ?_⟩
    · rcases hlisted m hm with ⟨hk, hgone, hm | hm⟩ | rfl
      · exact ⟨hk, hgone, .inl hm⟩
      · exact ⟨hk, hgone, .inl (hreg.trans (hentering.symm.trans hm))⟩
      · simp [Section.part] at hc
    · rcases hreported m hm with hm | ⟨virtualMtu, rfl⟩
      · exact hm
      · simp [Section.part] at hc
  | left nodeId connection =>
    obtain ⟨hk', hreg, hnone⟩ := hok
    refine ⟨h.kept, h.entering, fun m hm => ?_, fun m hm => (hreported m hm).resolve_right (by simp)⟩
    -- the one entry of the connection was under this node
    obtain ⟨hm, hne⟩ := listed_onlineLeave hm
    obtain ⟨hk, hgone, hreg' | hentering⟩ := h.listed m hm
    · obtain rfl : k = connection := Option.some.inj (hk.symm.trans hk')
      obtain rfl : m = nodeId := Option.some.inj (hreg'.symm.trans hreg)
      exact absurd rfl (hne hdistinct rfl)
    · cases hnone.symm.trans hentering
  | finished nodeId connection =>
    obtain ⟨hk', hreg, hnone, hgone'⟩ := hok
    refine ⟨h.kept, fun m hm => .inl rfl, fun m hm => ?_, fun m hm => ?_⟩
    · obtain ⟨-, hgone, -⟩ := (hlisted m hm).resolve_right (by simp)
      cases hgone'.symm.trans hgone
    · obtain ⟨hm, hne⟩ := reported_runtimeLeave hm
      obtain ⟨hk, hreg'⟩ := h.reported m hm
      obtain rfl : k = connection := Option.some.inj (hk.symm.trans hk')
      obtain rfl : m = nodeId := Option.some.inj (hreg'.symm.trans hreg)
      exact absurd rfl (hne rfl)

end Steps

/-! ### Runs -/

/-- The coordinator, followed by this monitor. -/
abbrev Visited (prim : Primitives) (server : Server) :
    Pool.Spec Section Response CoordState Env Request Standing :=
  coordinator prim server Standing.start Standing.next

abbrev VisitedCfg := Pool.Config Section Response CoordState Standing

/-- The connection id `k` is given to connections of the task `t` only. -/
def ServedBy (k : UInt64) (t : ℕ) : VisitedCfg → Pool.Move Env Request → Prop
  | _, .spawn u request => (enter request).connection = some k → u = t
  | _, .step _ _ => True

/-- Besides, every section of that task is orderly. -/
def OrderlyVisit (k : UInt64) (t : ℕ) (cfg : VisitedCfg) (m : Pool.Move Env Request) : Prop :=
  ServedBy k t cfg m ∧ ∀ e c, m = .step t e → cfg.at t = some c → (cfg.phase t).Orderly c e

/-- The monitor of the pool is that of the proof, without the connection. -/
def Mirrored (cfg : VisitedCfg) (φ : ℕ → Standing) : Prop :=
  ∀ u, cfg.phase u = { φ u with connection := none }

/-- Besides, the connections with the id `k` have the task `t`. -/
structure Housed (k : UInt64) (t : ℕ) (cfg : VisitedCfg) (φ : ℕ → Standing) : Prop where
  owner : ∀ u, (φ u).connection = some k → u = t
  phase : Mirrored cfg φ

/-- What the runs keep: the task of the connection accounts for it. -/
structure OneVisitor (k : UInt64) (t : ℕ) (cfg : VisitedCfg) (φ : ℕ → Standing) : Prop
    extends Housed k t cfg φ where
  distinct : cfg.shared.Distinct
  accounted : Accounted k cfg.shared (φ t)

section Runs

variable {prim : Primitives} {server : Server} {init : CoordState} {k : UInt64} {t u : ℕ}
  {cfg : VisitedCfg} {φ : ℕ → Standing}

variable {request : Request} {s : CoordState}

lemma Mirrored.spawn (h : Mirrored cfg φ) :
    Mirrored
      { shared := s
        prog := update cfg.prog u (request.body prim server)
        phase := update cfg.phase u Standing.start }
      (update φ u (enter request)) := by
  intro v
  by_cases hvu : v = u
  · subst hvu
    cases request <;> simp [Standing.enter] <;> rfl
  · simpa [hvu] using h v

lemma Mirrored.step (h : Mirrored cfg φ) (c : Section) (r : Response c) {s : CoordState}
    {p : Task PUnit} :
    Mirrored
      { shared := s
        prog := update cfg.prog u p
        phase := update cfg.phase u ((cfg.phase u).next c r) }
      (update φ u ((φ u).next c r)) := by
  intro v
  by_cases hvu : v = u
  · subst hvu
    change update cfg.phase v _ v = { update φ v _ v with connection := none }
    rw [update_self, update_self, h v]
    exact Standing.next_connection (φ v) c _
  · simpa [hvu] using h v

lemma Housed.spawn (h : Housed k t cfg φ) (hserved : (enter request).connection = some k → u = t) :
    Housed k t
      { shared := s
        prog := update cfg.prog u (request.body prim server)
        phase := update cfg.phase u Standing.start }
      (update φ u (enter request)) where
  owner := Pool.forall_update (P := fun v (γ : Standing) => γ.connection = some k → v = t) hserved
    h.owner
  phase := h.phase.spawn

lemma Housed.step (h : Housed k t cfg φ) (e : Env) (c : Section) {s : CoordState}
    {p : Task PUnit} :
    Housed k t
      { shared := s
        prog := update cfg.prog u p
        phase := update cfg.phase u
          ((cfg.phase u).next c (perform prim server e c cfg.shared).1) }
      (update φ u ((φ u).next c (perform prim server e c cfg.shared).1)) where
  owner := by
    refine Pool.forall_update (P := fun v (γ : Standing) => γ.connection = some k → v = t) ?_ h.owner
    rw [(Standing.step_perform e (φ u) c cfg.shared).connection]
    exact h.owner u
  phase := h.phase.step c _

lemma oneVisitor_of_reachable (hdistinct : init.Distinct) (hclean : init.NoTrace k)
    (h : (Visited prim server).Reachable (OrderlyVisit k t)
      ((Visited prim server).initial init) cfg) :
    ∃ φ, OneVisitor k t cfg φ ∧
      ∀ u, (cfg.prog u).Meets Standing.next Standing.Allows (fun γ _ => γ.Done) (φ u) := by
  obtain ⟨_, hobserved⟩ := h.observed (fun _ _ _ _ _ _ _ => ()) ()
  refine hobserved.recorded.traced (I := fun cfg φ _ => OneVisitor k t cfg φ)
    (fun _ => Standing.start) (fun _ => ⟨⟨⟩, rfl⟩) (fun _ => ⟨rfl, rfl⟩) ?_
    (fun _ _ request _ => body_attends prim server request) ?_ ?_
  · exact ⟨⟨nofun, fun _ => rfl⟩, hdistinct, accounted_enter hclean .broadcastLoop⟩
  · intro cfg φ _ u request s' hone hguard hdone haccept
    obtain ⟨spawned, rfl⟩ := Request.accept_eq haccept
    refine ⟨hone.toHoused.spawn hguard.1, hone.distinct, ?_⟩
    by_cases htu : t = u
    · subst htu
      rw [update_self]
      exact (accounted_enter (hone.accounted.noTrace hdone) request).mono (fun _ => id) fun _ => id
    · rw [update_of_ne htu]
      exact hone.accounted.mono (fun _ => id) fun _ => id
  · intro cfg φ _ u e c rest r s' hone hguard hprog hok hexec
    obtain ⟨rfl, rfl⟩ := exec_eq hexec
    refine ⟨hone.toHoused.step e c, distinct_perform hone.distinct e c, ?_⟩
    by_cases htu : t = u
    · subst htu
      rw [update_self]
      have horderly := hguard.2 e c rfl (by rw [Pool.Config.at, hprog])
      rw [hone.phase t] at horderly
      exact hone.accounted.own hone.distinct e hok horderly
    · rw [update_of_ne htu]
      exact hone.accounted.other e hok fun hk => htu (hone.owner u hk).symm

/-- **A connection leaves no trace.**  In every run, of any number of connections and requests, in
which the connections with the id `k` are served by the task `t`, and every `Register` of them enters
the connection under the node it is registered as, if there is one, and does not fail after that: once
the task is idle, no entry of either table holds `k`. -/
theorem no_trace_left (prim : Primitives) (server : Server) (init : CoordState) (k : UInt64) (t : ℕ)
    (hdistinct : init.Distinct) (hclean : init.NoTrace k) (cfg : VisitedCfg)
    (h : (Visited prim server).Reachable (OrderlyVisit k t) ((Visited prim server).initial init) cfg)
    (hidle : cfg.at t = none) : cfg.shared.NoTrace k := by
  obtain ⟨φ, hone, hmeets⟩ := oneVisitor_of_reachable hdistinct hclean h
  exact hone.accounted.noTrace (Pool.Config.post_idle (hmeets t) hidle)

end Runs

/-- A client that registers and goes. -/
def visitor : Request := .socket 7 [demoRegister "key" "" (some "token")]

/-- Nothing fails, and the connection is entered once. -/
def smoothly (cfg : VisitedCfg) : Pool.Move Env Request → Bool
  | .spawn u _ => u == 0
  | .step u e => e.fault.isNone && e.isOpen &&
    match cfg.at u with
    | some (.onlineInsert _ _) => (cfg.phase u).registered.isNone
    | _ => true

lemma orderlyVisit_of_smoothly {cfg : VisitedCfg} {m : Pool.Move Env Request}
    (h : smoothly cfg m = true) : OrderlyVisit 7 0 cfg m := by
  cases m with
  | spawn u request =>
    have hu : u = 0 := by simpa [smoothly] using h
    refine ⟨fun _ => hu, fun e c heq _ => ?_⟩
    cases heq
  | step u e =>
    simp only [smoothly, Bool.and_eq_true, Option.isNone_iff_eq_none] at h
    obtain ⟨⟨hfault, hopen⟩, hinsert⟩ := h
    refine ⟨trivial, ?_⟩
    rintro _ c ⟨⟩ hat
    refine ⟨?_, fun _ _ => .inr ⟨hfault, hopen⟩⟩
    rintro m connection rfl
    rw [hat] at hinsert
    exact .inl (by simpa using hinsert)

lemma demoState_noTrace (k : UInt64) : demoState.NoTrace k := by
  intro nodeId
  constructor
  · rintro ⟨sessions, hlookup, -⟩
    cases hlookup
  · rintro ⟨sessions, hlookup, -⟩
    cases hlookup

lemma demoState_distinct : demoState.Distinct := by
  intro nodeId sessions hlookup
  cases hlookup

def visitorEnd : {cfg // (Visited demoPrim demoServer).Reachable (OrderlyVisit 7 0)
      ((Visited demoPrim demoServer).initial demoState) cfg ∧ cfg.at 0 = none ∧
      cfg.shared.sent.length = 1} :=
  Pool.Spec.reach _ (fun _ _ => orderlyVisit_of_smoothly)
    (.spawn 0 visitor :: List.replicate 22 (.step 0 demoEnv)) (by decide +kernel)

theorem no_trace_left_visitor :
    ∃ cfg, (Visited demoPrim demoServer).Reachable (OrderlyVisit 7 0)
        ((Visited demoPrim demoServer).initial demoState) cfg ∧ cfg.at 0 = none ∧
      cfg.shared.sent.length = 1 ∧ cfg.shared.NoTrace 7 := by
  obtain ⟨cfg, hreach, hidle, hsent⟩ := visitorEnd
  refine ⟨cfg, hreach, hidle, hsent, ?_⟩
  exact no_trace_left demoPrim demoServer demoState 7 0 demoState_distinct (demoState_noTrace 7) cfg
    hreach hidle

/-! ### A client that goes too early -/

def closedEnv : Env := { demoEnv with isOpen := false }

lemma early_facts :
    ((Visited demoPrim demoServer).runAlone ((Visited demoPrim demoServer).initial demoState) 0 visitor
      (List.replicate 15 demoEnv ++ [closedEnv, closedEnv])).map
        (fun cfg => ((cfg.at 0).isNone, cfg.shared.online.lookup demoNode)) =
      some (true, some [7]) := by
  decide +kernel

/-- The client is gone when `RegisterOk` is to be sent.  The `Register` fails with the connection in
`online`, the connection counts as not registered, and its end takes nothing out. -/
theorem trace_left :
    ¬ ∀ (prim : Primitives) (server : Server) (init : CoordState) (k : UInt64) (t : ℕ),
      init.Distinct → init.NoTrace k → ∀ cfg, (Visited prim server).Reachable (ServedBy k t)
        ((Visited prim server).initial init) cfg → cfg.at t = none → cfg.shared.NoTrace k := by
  intro h
  obtain ⟨cfg, hrun, hfacts⟩ := Option.map_eq_some_iff.1 early_facts
  obtain ⟨hidle, honline⟩ := Prod.mk.inj hfacts
  have hreach : (Visited demoPrim demoServer).Reachable (ServedBy 7 0)
      ((Visited demoPrim demoServer).initial demoState) cfg :=
    Pool.Spec.reachable_of_runAlone .refl hrun (fun _ => rfl) fun _ _ _ => trivial
  have hclean := h demoPrim demoServer demoState 7 0 demoState_distinct (demoState_noTrace 7) cfg hreach
    (by simpa using hidle)
  exact (hclean demoNode).1 ⟨[7], honline, by simp⟩

end Vela.Coord
