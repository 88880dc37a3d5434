import Vela.Coord.Server

/-!
# What the coordinator's operations touch

For each function of `vela-coord`, the sections it may perform and the value it can return,
whatever the sections answer.
-/

namespace Vela.Coord

open Vela.Proto Vela.Crypto Prog

section Routine

/-- The snapshot that a message carries. -/
def carried : ControlMessage → Option NetworkSnapshot
  | .registerOk _ _ snapshot | .snapshot snapshot | .snapshotResponse snapshot => some snapshot
  | _ => none

/-- The sections that take no part in a change of the tables or in the making of a snapshot. -/
def Routine : Section → Prop
  | .loadPeer _ | .onlineSessions _ | .listPeers | .runtimeInsert _ _ _ | .runtimeLeave _ _
  | .broadcastSchedule | .broadcastSpawn | .broadcastTake | .broadcastRetain
  | .broadcastContinue => True
  | .send _ message => carried message = none
  | _ => False

lemma okOr_within {α : Type} {good : Section → Prop} (o : Option α) (error : CoordError) :
    (okOr o error).run.Within good fun _ => True :=
  trivial

lemma broadcastSnapshot_routine : broadcastSnapshot.run.Within Routine fun _ => True := by
  refine ⟨trivial, fun shouldStart => ?_⟩
  cases shouldStart with
  | false => trivial
  | true => exact ⟨trivial, fun _ => trivial⟩

lemma send_routine (connection : UInt64) {message : ControlMessage} (h : carried message = none) :
    (send connection message).run.Within Routine fun _ => True := by
  refine ⟨h, fun taken => ?_⟩
  cases taken <;> trivial

lemma handleLookupPeer_routine (prim : Primitives) (connection : UInt64)
    (registered : Option NodeId) (nodeId : NodeId) :
    (handleLookupPeer prim connection registered nodeId).run.Within Routine (Yields registered) := by
  refine Within.bindExcept (okOr_within _ _) fun requester => ?_
  refine Within.bindExcept ⟨trivial, fun _ => trivial⟩ fun target => ?_
  refine Within.bindExcept (okOr_within _ _) fun target => ?_
  refine Within.bindExcept ⟨trivial, fun _ => trivial⟩ fun info => ?_
  refine Within.bindExcept (okOr_within _ _) fun info => ?_
  refine Within.bindExcept (send_routine _ rfl) fun _ => ?_
  refine Within.bindExcept ⟨trivial, fun _ => trivial⟩ fun targets => ?_
  refine Within.bindExcept (Within.forMExcept _ _ fun _ => ?_) fun _ => rfl
  exact ⟨rfl, fun _ => trivial⟩

lemma handleListPeers_routine (connection : UInt64) (registered : Option NodeId) :
    (handleListPeers connection registered).run.Within Routine (Yields registered) := by
  refine Within.bindExcept (okOr_within _ _) fun requester => ?_
  refine Within.bindExcept ⟨trivial, fun _ => trivial⟩ fun listed => ?_
  exact Within.bindExcept (send_routine _ rfl) fun _ => rfl

lemma broadcastContinue_routine : (do
    let shouldContinue ← call .broadcastContinue
    if shouldContinue then call .broadcastSpawn : Task PUnit).Within Routine fun _ => True := by
  refine ⟨trivial, fun shouldContinue => ?_⟩
  cases shouldContinue with
  | false => trivial
  | true => exact ⟨trivial, fun _ => trivial⟩

lemma passive_of_routine {α : Type} {p : Task α} {post : α → Prop} (h : p.Within Routine post) :
    p.Within Passive post := by
  refine h.mono (fun c hc => ?_) fun _ ha => ha
  cases c <;> trivial

end Routine

section Passive

variable (prim : Primitives) (server : Server)

lemma networkSnapshot_within (ids : List NodeId) :
    (networkSnapshot prim server ids).run.Within Passive fun _ => True := by
  refine Within.bindExcept ⟨trivial, fun _ => trivial⟩ fun peers => ?_
  refine Within.bindExcept ⟨trivial, fun _ => trivial⟩ fun config => ?_
  exact ⟨trivial, fun _ => ⟨trivial, fun _ => trivial⟩⟩

lemma broadcastSnapshot_within : broadcastSnapshot.run.Within Passive fun _ => True :=
  passive_of_routine broadcastSnapshot_routine

lemma send_within (connection : UInt64) (message : ControlMessage) :
    (send connection message).run.Within Passive fun _ => True := by
  refine ⟨trivial, fun taken => ?_⟩
  cases taken <;> trivial

lemma bump_then_broadcast_within (registered : Option NodeId) :
    (do bumpSnapshot; broadcastSnapshot; pure registered : CoordM (Option NodeId)).run.Within
      Passive (Yields registered) :=
  Within.bindExcept ⟨trivial, fun _ => trivial⟩ fun _ =>
    Within.bindExcept broadcastSnapshot_within fun _ => rfl

lemma answer_within (connection : UInt64) (registered : Option NodeId)
    (answer : NetworkSnapshot → ControlMessage) :
    (do let snapshot ← networkSnapshot prim server (← onlinePeerIds)
        send connection (answer snapshot)
        pure registered : CoordM (Option NodeId)).run.Within Passive (Yields registered) :=
  Within.bindExcept ⟨trivial, fun _ => trivial⟩ fun ids =>
    Within.bindExcept (networkSnapshot_within prim server ids) fun _ =>
      Within.bindExcept (send_within _ _) fun _ => rfl

lemma broadcastSnapshotNow_within :
    (broadcastSnapshotNow prim server).run.Within Passive fun _ => True := by
  refine Within.bindExcept ⟨trivial, fun _ => trivial⟩ fun found => ?_
  refine Within.bindExcept (networkSnapshot_within prim server _) fun snapshot => ?_
  exact Within.forMExcept _ _ fun _ => ⟨trivial, fun _ => trivial⟩

lemma snapshotBroadcastRound_within :
    (snapshotBroadcastRound prim server).Within Passive fun _ => True := by
  have hcontinue := passive_of_routine broadcastContinue_routine
  refine Within.callBind trivial fun shouldBroadcast => ?_
  cases shouldBroadcast with
  | false => trivial
  | true =>
    refine Within.bind (broadcastSnapshotNow_within prim server) fun result _ => ?_
    cases result with
    | ok _ => exact hcontinue
    | error e => exact ⟨trivial, fun _ => hcontinue⟩

/-- The end of a connection. -/
lemma leave_within (connection : UInt64) (nodeId : NodeId) :
    (leave connection nodeId).Within
      (fun c => Routine c ∨ c = .bumpSnapshot ∨ c = .onlineLeave nodeId connection) fun _ => True := by
  refine Within.callBind (.inr (.inr rfl)) fun becameOffline => Within.callBind (.inl trivial) fun _ => ?_
  cases becameOffline with
  | false => trivial
  | true =>
    refine Within.bind ⟨.inr (.inl rfl), fun _ => trivial⟩ fun bumped _ => ?_
    cases bumped with
    | error e => trivial
    | ok _ =>
      refine Within.bind (broadcastSnapshot_routine.mono (fun _ => .inl) fun _ _ => trivial) ?_
      exact fun _ _ => trivial

end Passive

/-! ### The messages of a connection -/

/-- **A whole connection**: what every message keeps, the connection keeps. -/
theorem meets_serveMessages {prim : Primitives} {server : Server} {connection : UInt64} {Γ : Type}
    {next : Γ → (c : Section) → Response c → Γ} {ok : Γ → Section → Prop}
    {I : Option NodeId → Γ → Prop}
    (hrecv : ∀ registered γ message, I registered γ → ok γ (.recv connection message))
    (hcomplain : ∀ registered γ code text, I registered γ →
      ok γ (.send connection (errorMessage code text)) ∧
        ∀ taken, I registered (next γ (.send connection (errorMessage code text)) taken))
    (messages : List Incoming) (hhandle : ∀ message, .text message ∈ messages →
      ∀ registered γ, I registered γ →
      (handleMessage prim server connection registered message).run.Meets next ok
        (outcome (fun γ registered => I registered γ) fun γ _ => I registered γ)
        (next γ (.recv connection message) ())) :
    ∀ registered γ, I registered γ →
      (serveMessages prim server connection registered messages).Meets next ok
        (fun γ registered => I registered γ) γ := by
  induction messages with
  | nil => exact fun _ _ h => h
  | cons incoming rest ih =>
    intro registered γ h
    replace ih := ih fun message hmessage => hhandle message (.tail _ hmessage)
    cases incoming with
    | other => exact ih registered γ h
    | malformed complaint =>
      obtain ⟨hok, hkept⟩ := hcomplain registered γ "invalid_message" complaint h
      exact ⟨hok, fun taken => ih registered _ (hkept taken)⟩
    | text message =>
      refine Meets.callBind (hrecv _ _ _ h) fun _ => ?_
      refine Meets.bind (hhandle message (.head _) registered γ h) fun γ' result hγ' => ?_
      cases result with
      | ok nextRegistered => exact ih nextRegistered γ' hγ'
      | error error =>
        obtain ⟨hok, hkept⟩ := hcomplain registered γ' _ error.toText hγ'
        exact ⟨hok, fun taken => ih registered _ (hkept taken)⟩

/-! ### Names and invites -/

section Administration

/-- The sections of the administrative requests that take nobody out. -/
def Administrative : Section → Prop
  | .unixTime | .updatePeerMetadata _ _ _ => True
  | c => Invites c

lemma updatePeerMetadata_within (nodeId : NodeId) (name notes : String) :
    (updatePeerMetadata nodeId name notes).run.Within
      (fun c => Administrative c ∧ ∀ m name notes, c = .updatePeerMetadata m name notes → m = nodeId)
      fun _ => True := by
  refine Within.callBind ⟨trivial, ?_⟩ fun _ => trivial
  rintro m name notes ⟨⟩
  rfl

lemma createInvite_within (prim : Primitives) (id inviteToken downloadToken name notes : String)
    (ttlSeconds : UInt64) :
    (createInvite prim id inviteToken downloadToken name notes ttlSeconds).run.Within Administrative
      fun _ => True := by
  refine Within.callBind trivial fun _ => Within.callBind trivial fun inserted => ?_
  cases inserted <;> trivial

lemma consumeDownloadToken_within (token : String) :
    (consumeDownloadToken token).run.Within Administrative fun _ => True :=
  Within.callBind trivial fun _ => trivial

lemma deleteInvite_within (id : String) :
    (deleteInvite id).run.Within Administrative fun _ => True :=
  Within.callBind trivial fun _ => trivial

end Administration

/-! ### Disciplines of the whole coordinator -/

section Disciplines

variable {D : Discipline Section Response}

/-- The sections of the broadcast loop and of the request for a broadcast. -/
def Broadcasts : Section → Prop
  | .broadcastSchedule | .broadcastSpawn | .broadcastTake | .broadcastRetain | .broadcastContinue
  | .onlineSenders => True
  | _ => False

/-- The message tells its receiver about other peers. -/
def Informs : ControlMessage → Prop
  | .registerOk _ _ _ | .snapshot _ | .snapshotResponse _ | .peerInfo _ | .listPeersOk _ => True
  | _ => False

/-- The sections that are neither part of the broadcast loop nor of the service of a connection. -/
def Common : Section → Prop
  | .recv _ _ | .onlineInsert _ _ | .onlineLeave _ _ | .runtimeInsert _ _ _ | .runtimeLeave _ _
  | .push _ _ => False
  | .send _ message => ¬ Informs message
  | c => ¬ Broadcasts c

/-- The sections of the handling of a message. -/
def Handles : Section → Prop
  | .recv _ _ => False
  | c => ¬ Broadcasts c

lemma Handles.not_broadcasts {c : Section} (h : Handles c) : ¬ Broadcasts c := by
  cases c <;> first | exact h | exact id

lemma Handles.not_recv {c : Section} (h : Handles c) (connection : UInt64) (message : ControlMessage) :
    c ≠ .recv connection message := by
  rintro rfl
  exact h

lemma Common.handles {c : Section} (h : Common c) : Handles c := by
  cases c <;> first | exact h | exact h.elim | exact id

lemma holds_ofExcept {α : Type} (r : Except CoordError α) : D.holds (ofExcept r).run := D.ret _

lemma holds_okOr {α : Type} (o : Option α) (error : CoordError) : D.holds (okOr o error).run :=
  D.ret _

section Common

variable (hcall : ∀ c, Common c → (∀ peer, c ≠ .updatePeer peer) → D.holds (call c))

include hcall

lemma holds_networkSnapshot (prim : Primitives) (server : Server) (onlinePeers : List NodeId) :
    D.holds (networkSnapshot prim server onlinePeers).run := by
  refine D.bindExcept (hcall _ nofun nofun) fun peers => ?_
  refine D.bindExcept (hcall _ nofun nofun) fun config => ?_
  refine D.bindExcept (D.lift (hcall _ nofun nofun)) fun generation => ?_
  exact D.bindExcept (D.lift (hcall _ nofun nofun)) fun now => D.ret _

lemma holds_registerCredential (prim : Primitives) (server : Server) (request : Registration)
    (signingPublic noisePublic : Vector UInt8 32) :
    D.holds (registerCredential prim server request signingPublic noisePublic).run := by
  unfold registerCredential
  split
  · refine D.bindExcept (holds_okOr _ _) fun token => ?_
    exact D.bindExcept (hcall _ nofun nofun) fun registration => D.ret _
  · refine D.bindExcept (holds_okOr _ _) fun bytes => ?_
    refine D.bindExcept (holds_okOr _ _) fun credential => ?_
    refine D.bindExcept (D.lift (hcall _ nofun nofun)) fun now => ?_
    refine D.bindExcept (holds_ofExcept _) fun _ => ?_
    refine D.bindExcept (hcall _ nofun nofun) fun selected => ?_
    exact D.bindExcept (holds_okOr _ _) fun stored => D.ret _

lemma holds_disconnectPeer (nodeId : NodeId) : D.holds (disconnectPeer nodeId).run := by
  refine D.bindExcept (D.lift (hcall _ nofun nofun)) fun senders => ?_
  refine D.forMExcept _ _ fun connection => ?_
  exact D.bindExcept (D.lift (hcall _ nofun nofun)) fun _ => D.ret _

lemma holds_createInvite (prim : Primitives) (id inviteToken downloadToken name notes : String)
    (ttlSeconds : UInt64) :
    D.holds (createInvite prim id inviteToken downloadToken name notes ttlSeconds).run := by
  refine D.bindExcept (D.lift (hcall _ nofun nofun)) fun createdAt => ?_
  exact D.bindExcept (hcall _ nofun nofun) fun _ => D.ret _

variable (hbroadcast : D.holds broadcastSnapshot.run)

include hbroadcast

lemma holds_afterRemoval (nodeId : NodeId) : D.holds
    (do bumpSnapshot; disconnectPeer nodeId; broadcastSnapshot; pure true : CoordM Bool).run := by
  refine D.bindExcept (hcall _ nofun nofun) fun _ => ?_
  refine D.bindExcept (holds_disconnectPeer hcall nodeId) fun _ => ?_
  exact D.bindExcept hbroadcast fun _ => D.ret _

/-- **What holds of the common sections and of the request for a broadcast** holds of every
administrative request. -/
theorem holds_administration (prim : Primitives) (server : Server) {request : Request}
    (hloop : request ≠ .broadcastLoop) (hsocket : ∀ connection messages,
      request ≠ .socket connection messages) : D.holds (request.body prim server) := by
  cases request with
  | socket connection messages => exact absurd rfl (hsocket connection messages)
  | broadcastLoop => exact absurd rfl hloop
  | revoke nodeId =>
    refine D.bind (D.bindExcept (hcall _ nofun nofun) fun changed => ?_) fun _ => D.ret _
    cases changed with
    | false => exact D.ret _
    | true => exact holds_afterRemoval hcall hbroadcast nodeId
  | delete nodeId =>
    refine D.bind (D.bindExcept (hcall _ nofun nofun) fun changed => ?_) fun _ => D.ret _
    cases changed with
    | false => exact D.ret _
    | true => exact holds_afterRemoval hcall hbroadcast nodeId
  | configure config =>
    refine D.bind (D.bindExcept (hcall _ nofun nofun) fun changed => ?_) fun _ => D.ret _
    cases changed with
    | false => exact D.ret _
    | true => exact D.bindExcept (hcall _ nofun nofun) fun _ => hbroadcast
  | rename nodeId name notes => exact D.bind (hcall _ nofun nofun) fun _ => D.ret _
  | invite id inviteToken downloadToken name notes ttlSeconds =>
    exact D.bind (holds_createInvite hcall prim id inviteToken downloadToken name notes ttlSeconds)
      fun _ => D.ret _
  | download token => exact D.bind (hcall _ nofun nofun) fun _ => D.ret _
  | deleteInvite id => exact D.bind (hcall _ nofun nofun) fun _ => D.ret _

end Common

section Messages

variable (hcall : ∀ c, Handles c → (∀ peer, c ≠ .updatePeer peer) → D.holds (call c))

include hcall

lemma holds_common {c : Section} (h : Common c) (hc : ∀ peer, c ≠ .updatePeer peer) : D.holds (call c) :=
  hcall c h.handles hc

lemma holds_send (connection : UInt64) (message : ControlMessage) :
    D.holds (send connection message).run := by
  refine D.bindExcept (D.lift (hcall _ nofun nofun)) fun taken => ?_
  cases taken <;> exact D.ret _

lemma holds_answer (prim : Primitives) (server : Server) (connection : UInt64)
    (message : NetworkSnapshot → ControlMessage) (registered : Option NodeId) :
    D.holds (do
      let snapshot ← networkSnapshot prim server (← onlinePeerIds)
      send connection (message snapshot)
      return registered : CoordM (Option NodeId)).run := by
  refine D.bindExcept (D.lift (hcall _ nofun nofun)) fun ids => ?_
  refine D.bindExcept (holds_networkSnapshot (fun _ => holds_common hcall) prim server ids) ?_
  exact fun snapshot => D.bindExcept (holds_send hcall _ _) fun _ => D.ret _

lemma holds_handleLookupPeer (prim : Primitives) (connection : UInt64) (registered : Option NodeId)
    (nodeId : NodeId) : D.holds (handleLookupPeer prim connection registered nodeId).run := by
  refine D.bindExcept (holds_okOr _ _) fun requester => ?_
  refine D.bindExcept (hcall _ nofun nofun) fun target => ?_
  refine D.bindExcept (holds_okOr _ _) fun target => ?_
  refine D.bindExcept (hcall _ nofun nofun) fun info => ?_
  refine D.bindExcept (holds_okOr _ _) fun info => ?_
  refine D.bindExcept (holds_send hcall _ _) fun _ => ?_
  refine D.bindExcept (D.lift (hcall _ nofun nofun)) fun targets => ?_
  refine D.bindExcept (D.forMExcept _ _ fun target => ?_) fun _ => D.ret _
  exact D.bindExcept (D.lift (hcall _ nofun nofun)) fun _ => D.ret _

lemma holds_handleListPeers (connection : UInt64) (registered : Option NodeId) :
    D.holds (handleListPeers connection registered).run := by
  refine D.bindExcept (holds_okOr _ _) fun requester => ?_
  refine D.bindExcept (hcall _ nofun nofun) fun found => ?_
  exact D.bindExcept (holds_send hcall _ _) fun _ => D.ret _

/-- The messages that do not write the row of their node. -/
lemma holds_answerMessage (prim : Primitives) (server : Server) (connection : UInt64)
    (registered : Option NodeId) {message : ControlMessage} (hregister : ∀ request, message ≠ .register request)
    (hupdate : ∀ candidates, message ≠ .updateCandidates candidates) :
    D.holds (handleMessage prim server connection registered message).run := by
  cases message with
  | register request => exact absurd rfl (hregister request)
  | updateCandidates candidates => exact absurd rfl (hupdate candidates)
  | runtimeStatus virtualMtu =>
    refine D.bindExcept (holds_okOr _ _) fun nodeId => ?_
    exact D.bindExcept (D.lift (hcall _ nofun nofun)) fun _ => D.ret _
  | requestSnapshot =>
    refine D.bindExcept (holds_okOr _ _) fun _ => ?_
    exact holds_answer hcall prim server connection _ registered
  | lookupPeer nodeId => exact holds_handleLookupPeer hcall prim connection registered nodeId
  | listPeers => exact holds_handleListPeers hcall connection registered
  | ping nonce => exact D.bindExcept (holds_send hcall _ _) fun _ => D.ret _
  | pong nonce =>
    cases registered with
    | none => exact D.ret _
    | some nodeId => exact D.bindExcept (hcall _ nofun nofun) fun _ => D.ret _
  | _ => exact D.ret _

variable (hbroadcast : D.holds broadcastSnapshot.run)

include hbroadcast

lemma holds_completeRegister (prim : Primitives) (server : Server) (connection : UInt64)
    (peer : StoredPeer) (previousPeer : Option StoredPeer) :
    D.holds (completeRegister prim server connection peer previousPeer).run := by
  refine D.bindExcept (hcall _ nofun nofun) fun _ => ?_
  refine D.bindExcept (hcall _ nofun nofun) fun _ => ?_
  refine D.bindExcept (D.lift (hcall _ nofun nofun)) fun wasOnline => ?_
  refine D.bindExcept (hcall _ nofun nofun) fun peers => ?_
  refine D.bindExcept (D.lift (hcall _ nofun nofun)) fun ids => ?_
  refine D.bindExcept (holds_networkSnapshot (fun _ => holds_common hcall) prim server ids) ?_
  refine fun snapshot => D.bindExcept (holds_send hcall _ _) fun _ => ?_
  split
  · exact D.bindExcept hbroadcast fun _ => D.ret _
  · exact D.ret _

variable (hwrite : ∀ peer, D.holds (call (.updatePeer peer)))

include hwrite

lemma holds_handleRegister (prim : Primitives) (server : Server) (connection : UInt64)
    (request : Registration) : D.holds (handleRegister prim server connection request).run := by
  refine D.bindExcept (holds_ofExcept _) fun signingPublic => ?_
  refine D.bindExcept (holds_ofExcept _) fun noisePublic => ?_
  refine D.bindExcept (holds_ofExcept _) fun _ => ?_
  refine D.bindExcept (holds_registerCredential (fun _ => holds_common hcall) prim server _ _ _) ?_
  refine fun obtained => D.bindExcept (hcall _ nofun nofun) fun previousPeer => ?_
  refine D.bindExcept (hcall _ nofun nofun) fun allocated => ?_
  refine D.bindExcept (hwrite _) fun _ => ?_
  cases obtained.2 with
  | none => exact holds_completeRegister hcall hbroadcast prim server _ _ _
  | some registration =>
    refine D.bindExcept (hcall _ nofun nofun) fun _ => ?_
    exact holds_completeRegister hcall hbroadcast prim server _ _ _

lemma holds_handleUpdateCandidates (prim : Primitives) (server : Server) (connection : UInt64)
    (registered : Option NodeId) (candidates : List Candidate) :
    D.holds (handleUpdateCandidates prim server connection registered candidates).run := by
  refine D.bindExcept (holds_okOr _ _) fun nodeId => ?_
  refine D.bindExcept (hcall _ nofun nofun) fun loaded => ?_
  refine D.bindExcept (holds_okOr _ _) fun peer => ?_
  refine D.bindExcept (hwrite _) fun _ => ?_
  refine D.bindExcept (hcall _ nofun nofun) fun _ => ?_
  split
  · refine D.bindExcept (hcall _ nofun nofun) fun _ => ?_
    exact D.bindExcept hbroadcast fun _ => D.ret _
  · exact holds_answer hcall prim server connection _ registered

lemma holds_handleMessage (prim : Primitives) (server : Server) (connection : UInt64)
    (registered : Option NodeId) (message : ControlMessage) :
    D.holds (handleMessage prim server connection registered message).run := by
  cases message with
  | register request => exact holds_handleRegister hcall hbroadcast hwrite prim server connection request
  | updateCandidates candidates =>
    exact holds_handleUpdateCandidates hcall hbroadcast hwrite prim server connection registered candidates
  | _ => exact holds_answerMessage hcall prim server connection registered nofun nofun

end Messages

section Sockets

variable (hcall : ∀ c, ¬ Broadcasts c → D.holds (call c)) (hbroadcast : D.holds broadcastSnapshot.run)

include hcall hbroadcast

lemma holds_serveMessages (prim : Primitives) (server : Server) (connection : UInt64) :
    ∀ (messages : List Incoming) (registered : Option NodeId),
      D.holds (serveMessages prim server connection registered messages) := by
  intro messages
  induction messages with
  | nil => exact fun registered => D.ret _
  | cons incoming rest ih =>
    intro registered
    cases incoming with
    | other => exact ih registered
    | malformed complaint => exact D.bind (hcall _ nofun) fun _ => ih registered
    | text message =>
      refine D.bind (hcall _ nofun) fun _ => ?_
      refine D.bind (holds_handleMessage (fun c hc _ => hcall c hc.not_broadcasts) hbroadcast
        (fun _ => hcall _ nofun) prim server connection registered message) fun result => ?_
      cases result with
      | ok nextRegistered => exact ih nextRegistered
      | error error => exact D.bind (hcall _ nofun) fun _ => ih registered

lemma holds_leave (connection : UInt64) (nodeId : NodeId) : D.holds (leave connection nodeId) := by
  refine D.bind (hcall _ nofun) fun becameOffline => D.bind (hcall _ nofun) fun _ => ?_
  cases becameOffline with
  | false => exact D.ret _
  | true =>
    refine D.bind (hcall _ nofun) fun bumped => ?_
    cases bumped with
    | error e => exact D.ret _
    | ok _ => exact D.bind hbroadcast fun _ => D.ret _

/-- **What holds of the sections and of the request for a broadcast** holds of every request but the
broadcast loop itself. -/
theorem holds_body (prim : Primitives) (server : Server) {request : Request}
    (h : request ≠ .broadcastLoop) : D.holds (request.body prim server) := by
  have hadmin := holds_administration (fun c hc _ => hcall c hc.handles.not_broadcasts) hbroadcast
    prim server h
  cases request with
  | socket connection messages =>
    refine D.bind (holds_serveMessages hcall hbroadcast prim server connection messages none)
      fun registered => ?_
    cases registered with
    | none => exact D.ret _
    | some nodeId => exact holds_leave hcall hbroadcast connection nodeId
  | _ => exact hadmin nofun

end Sockets

end Disciplines

end Vela.Coord
