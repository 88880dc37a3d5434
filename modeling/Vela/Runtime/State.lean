import Vela.Core.Routes
import Vela.Proto.Control

/-!
# The runtime of a peer: its state and its sections

`vela-coord-client` and `vela-diagnostic`: one task owns the client of the coordinator, the node and
the persistent state of the peer.  Each section is one access to any of them; what the coordinator and
the network between do is said by a `Network`, about which nothing is assumed here.
-/

namespace Vela.Runtime

open Vela.Proto Vela.Crypto

/-- The errors of `vela-coord-client`. -/
inductive CoordClientError where
  | webSocket (error : String)
  | serialization (error : String)
  | protocol (error : ProtoError)
  | invalidCredential
  | invalidSnapshot
  | serverKeyRequired
  | server (code message : String)
  | unexpectedMessage
  | invalidRuntimeStatus
  | closed
  | timeout (request : String)
  deriving DecidableEq

/-- The errors with which the runtime's loop can end. -/
inductive DiagnosticError where
  | io (error : String)
  | coordination (error : CoordClientError)
  | core (error : Core.CoreError)
  /-- `Core(CoreError::Stun(..))` -/
  | stun (error : String)
  | transportFailed (error : String)
  | revoked
  | noCandidates
  deriving DecidableEq

def DiagnosticError.isRetryableControlError : DiagnosticError → Bool
  | .coordination (.webSocket _) | .coordination .closed | .coordination (.timeout _) => true
  | _ => false

def DiagnosticError.isSnapshotRequestUnsupported : DiagnosticError → Bool
  | .coordination (.server code _) => code == "unsupported_message"
  | _ => false

/-- What stays the same over the life of a peer. -/
structure Peer where
  node : Core.Node
  manualStunServers : List String
  serverKey : Vector UInt8 32
  /-- the node and the client trust the key of the peer's state -/
  trusted : node.config.serverPublicKey = some serverKey

/-- How `run_loop` ended, or that it goes on. -/
inductive Outcome where
  | running
  | ended (result : Except DiagnosticError Unit)

/-- The state of the runtime; `network` is what lies between it and the coordinator. -/
structure RuntimeState (N : Type) where
  node : Core.NodeState
  network : N
  /-- `client.pending` -/
  pending : List ControlMessage
  /-- `state.credential` -/
  credential : Option MembershipCredential
  /-- `peer.candidates`, and `state.candidates` with it -/
  candidates : List Candidate
  dohServers : List String
  stunServers : List String
  /-- `state.snapshot` -/
  snapshot : Option NetworkSnapshot
  /-- the value of `snapshot_tx`, from which the TUN device gets its routes -/
  published : Option NetworkSnapshot
  snapshotExpiredNotified : Bool
  controlConnected : Bool
  pendingReconnects : List NodeId
  lastReportedMtu : Option ℕ
  /-- the peers that connection and ping tasks were spawned for -/
  connections : List NodeId
  /-- the peer is open and `run_loop` has been entered -/
  started : Bool
  outcome : Outcome
  /-- the snapshot that `node.apply_snapshot` accepted last -/
  applied : Option NetworkSnapshot

/-- What the coordinator and the network do with the messages of the client, in the environment `E`. -/
structure Network (E N : Type) where
  /-- the text is handed to the WebSocket -/
  send : E → ControlMessage → N → Except CoordClientError Unit × N
  /-- the next message that is no ping, if there is one; pings are answered where they are read -/
  recv : E → N → Option (Except CoordClientError ControlMessage × N)
  /-- a new connection takes the place of the one before -/
  connect : E → N → Except CoordClientError Unit × N

/-- The environment's part in one section. -/
structure Env (E : Type) where
  network : E
  /-- the environment of the node's sections, where the node is called -/
  node : List Core.Env
  unixTime : UInt64
  /-- the time of the request has run out -/
  timedOut : Bool
  hostCandidates : List Candidate
  stun : Except String (List Candidate)
  saveError : Option String
  virtualMtu : ℕ

inductive Section where
  | unixTime
  | popPending
  | pushPending (message : ControlMessage)
  | enqueuePending (message : ControlMessage)
  /-- a message is sent, within the time of a request if it is one -/
  | send (request : Option String) (message : ControlMessage)
  /-- `recv_wire`, within the time of a request if it waits for a reply -/
  | recvWire (request : Option String)
  /-- `connect_with_doh`: a replacement of the client is connected -/
  | connect
  /-- `*self = replacement` -/
  | adopt
  | credential
  | storeCredential (credential : MembershipCredential)
  /-- `node.local_candidates()` -/
  | localCandidates
  | stunServers
  | gatherCandidates
  | candidates
  | storeCandidates (candidates : List Candidate)
  | stateSnapshot
  | registerPeer (info : PeerInfo)
  | applySnapshot (snapshot : NetworkSnapshot)
  /-- the fields of the state that follow the snapshot: whether the servers have changed -/
  | storeSnapshot (snapshot : NetworkSnapshot)
  | save
  /-- `snapshot_tx.send_replace(Some(snapshot))` -/
  | publish (snapshot : NetworkSnapshot)
  | snapshotExpiredNotified
  | clearNotified
  | controlConnected
  | setConnected (connected : Bool)
  | pendingReconnects
  | insertReconnect (nodeId : NodeId)
  | removeReconnect (nodeId : NodeId)
  | effectiveVirtualMtu
  | lastReportedMtu
  | storeReportedMtu (virtualMtu : ℕ)
  | spawn (nodeId : NodeId)
  | start
  /-- an event is handled; the loop goes on or returns -/
  | conclude (outcome : Outcome)

abbrev Response : Section → Type
  | .unixTime => UInt64
  | .popPending => Option ControlMessage
  | .send _ _ => Except CoordClientError Unit
  | .recvWire _ => Except CoordClientError ControlMessage
  | .connect => Except CoordClientError Unit
  | .credential => Option MembershipCredential
  | .localCandidates => List Candidate
  | .stunServers => List String
  | .gatherCandidates => Except String (List Candidate)
  | .candidates => List Candidate
  | .stateSnapshot => Option NetworkSnapshot
  | .registerPeer _ => Except Core.CoreError Unit
  | .applySnapshot _ => Except Core.CoreError Unit
  | .storeSnapshot _ => Bool
  | .save => Except String Unit
  | .snapshotExpiredNotified => Bool
  | .controlConnected => Bool
  | .pendingReconnects => List NodeId
  | .effectiveVirtualMtu => ℕ
  | .lastReportedMtu => Option ℕ
  | _ => Unit

/-! ### The client's queue -/

def isSnapshot : ControlMessage → Bool
  | .snapshot _ => true
  | _ => false

/-- The first snapshot in the queue is replaced and later ones are removed. -/
def replaceSnapshot (message : ControlMessage) : List ControlMessage → List ControlMessage
  | [] => []
  | first :: rest =>
    if isSnapshot first then message :: rest.filter fun other => !isSnapshot other
    else first :: replaceSnapshot message rest

lemma mem_replaceSnapshot {m message : ControlMessage} {messages : List ControlMessage}
    (h : m ∈ replaceSnapshot message messages) : m = message ∨ m ∈ messages := by
  induction messages with
  | nil => cases h
  | cons first rest ih =>
    unfold replaceSnapshot at h
    split at h
    · rcases List.mem_cons.1 h with rfl | hm
      · exact .inl rfl
      · exact .inr (.tail _ (List.mem_filter.1 hm).1)
    · rcases List.mem_cons.1 h with rfl | hm
      · exact .inr (.head _)
      · exact (ih hm).imp_right (List.mem_cons_of_mem _)

/-- `enqueue_pending` -/
def enqueuePending (pending : List ControlMessage) (message : ControlMessage) : List ControlMessage :=
  if isSnapshot message && pending.any isSnapshot then replaceSnapshot message pending
  else pending ++ [message]

lemma mem_enqueuePending {m message : ControlMessage} {messages : List ControlMessage}
    (h : m ∈ enqueuePending messages message) : m = message ∨ m ∈ messages := by
  unfold enqueuePending at h
  split at h
  · exact mem_replaceSnapshot h
  · rcases List.mem_append.1 h with hm | hm
    · exact .inr hm
    · exact .inl (List.mem_singleton.1 hm)

/-! ### The peer's state -/

def defaultDohServers : List String := ["https://doh.pub"]

def effectiveDohServers (servers : List String) : List String :=
  if servers.isEmpty then defaultDohServers else servers

def mergeStunServers (own remote : List String) : List String :=
  remote.foldl (fun servers server => if servers.contains server then servers else servers ++ [server])
    own

variable {E N : Type}

def RuntimeState.storeSnapshot (peer : Peer) (s : RuntimeState N) (snapshot : NetworkSnapshot) :
    Bool × RuntimeState N :=
  let dohServers := effectiveDohServers snapshot.dohServers
  let stunServers := mergeStunServers peer.manualStunServers snapshot.stunServers
  (dohServers != s.dohServers || stunServers != s.stunServers,
    { s with dohServers, stunServers, snapshot := some snapshot })

/-- The node's `register_peer`, run to its end. -/
def RuntimeState.registerPeer (suite : Suite) (peer : Peer) (e : Env E) (s : RuntimeState N)
    (info : PeerInfo) : Option (Except Core.CoreError Unit × RuntimeState N) :=
  ((Core.registerPeer suite peer.node info).run.run (Core.exec suite peer.node) e.node s.node).map
    fun (r, node) => (r, { s with node })

/-- The node's `apply_snapshot`, run to its end. -/
def RuntimeState.applySnapshot (suite : Suite) (peer : Peer) (e : Env E) (s : RuntimeState N)
    (snapshot : NetworkSnapshot) : Option (Except Core.CoreError Unit × RuntimeState N) :=
  ((Core.applySnapshot suite peer.node snapshot).run.run (Core.exec suite peer.node) e.node s.node).map
    fun (r, node) => match r with
      | .ok _ => (r, { s with node, applied := some snapshot })
      | .error _ => (r, { s with node })

/-- What `timeout` makes of a step of a request; a step outside of a request has all the time. -/
def withinTime {α : Type} (e : Env E) (request : Option String) (s : RuntimeState N)
    (step : Option (Except CoordClientError α × RuntimeState N)) :
    Option (Except CoordClientError α × RuntimeState N) :=
  match request, e.timedOut with
  | some request, true => some (.error (.timeout request), s)
  | none, true => none
  | _, false => step

variable (suite : Suite) (peer : Peer) (net : Network E N)

/-- A section executed on the state; `none` where it has to wait. -/
def exec (e : Env E) : (c : Section) → RuntimeState N → Option (Response c × RuntimeState N)
  | .unixTime, s => some (e.unixTime, s)
  | .popPending, s => some (s.pending.head?, { s with pending := s.pending.tail })
  | .pushPending message, s => some ((), { s with pending := s.pending ++ [message] })
  | .enqueuePending message, s =>
    some ((), { s with pending := Runtime.enqueuePending s.pending message })
  | .send request message, s =>
    let (r, network) := net.send e.network message s.network
    withinTime e request s (some (r, { s with network }))
  | .recvWire request, s =>
    withinTime e request s ((net.recv e.network s.network).map fun (r, network) =>
      (r, { s with network }))
  | .connect, s =>
    let (r, network) := net.connect e.network s.network
    some (r, { s with network })
  | .adopt, s => some ((), { s with pending := [] })
  | .credential, s => some (s.credential, s)
  | .storeCredential credential, s => some ((), { s with credential := some credential })
  | .localCandidates, s => some (e.hostCandidates, s)
  | .stunServers, s => some (s.stunServers, s)
  | .gatherCandidates, s => some (e.stun, s)
  | .candidates, s => some (s.candidates, s)
  | .storeCandidates candidates, s => some ((), { s with candidates })
  | .stateSnapshot, s => some (s.snapshot, s)
  | .registerPeer info, s => s.registerPeer suite peer e info
  | .applySnapshot snapshot, s => s.applySnapshot suite peer e snapshot
  | .storeSnapshot snapshot, s => some (s.storeSnapshot peer snapshot)
  | .save, s => some ((match e.saveError with
      | some error => .error error
      | none => .ok ()), s)
  | .publish snapshot, s => some ((), { s with published := some snapshot })
  | .snapshotExpiredNotified, s => some (s.snapshotExpiredNotified, s)
  | .clearNotified, s => some ((), { s with snapshotExpiredNotified := false })
  | .controlConnected, s => some (s.controlConnected, s)
  | .setConnected connected, s => some ((), { s with controlConnected := connected })
  | .pendingReconnects, s => some (s.pendingReconnects, s)
  | .insertReconnect nodeId, s =>
    some ((), { s with pendingReconnects := s.pendingReconnects.insert nodeId })
  | .removeReconnect nodeId, s =>
    some ((), { s with pendingReconnects := s.pendingReconnects.erase nodeId })
  | .effectiveVirtualMtu, s => some (e.virtualMtu, s)
  | .lastReportedMtu, s => some (s.lastReportedMtu, s)
  | .storeReportedMtu virtualMtu, s => some ((), { s with lastReportedMtu := some virtualMtu })
  | .spawn nodeId, s => some ((), { s with connections := nodeId :: s.connections })
  | .start, s => some ((), { s with started := true, controlConnected := true })
  | .conclude outcome, s => some ((), { s with outcome })

end Vela.Runtime
