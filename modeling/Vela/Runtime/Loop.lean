import Vela.Runtime.Client
import Vela.Lib.Pool

/-!
# The runtime's loop

`DiagnosticPeer` and `DiagnosticRuntime` of `vela-diagnostic`: how snapshots are fetched, applied and
published, and what each branch of `run_loop` does.  A branch is an event; one task handles events one
after another, and what the branch concludes decides whether the loop goes on.

What only a person sees (the dashboard, logs, ping replies) and the backoff between reconnects are left
out.
-/

namespace Vela.Runtime

open Vela.Proto Vela.Crypto

/-- Programs of the runtime that may fail; `?` is the monad's bind. -/
abbrev RuntimeM := ExceptT DiagnosticError Task

variable (suite : Suite) (peer : Peer) (fuel : ℕ)

/-- A request of the client. -/
def coordination {α : Type} (p : ClientM α) : RuntimeM α := mapError .coordination p

/-- A call of the node. -/
def core (p : Task (Except Core.CoreError Unit)) : RuntimeM Unit := mapError .core (ExceptT.mk p)

def save : RuntimeM Unit := mapError .io (attempt (call .save))

/-! ### Candidates -/

def uniqueCandidates (candidates : List Candidate) : List Candidate :=
  candidates.foldl (fun unique candidate =>
    if unique.contains candidate then unique else unique ++ [candidate]) []

def isServerReflexive : Candidate → Bool
  | .serverReflexive _ => true
  | _ => false

def retainServerReflexiveCandidates (candidates previous : List Candidate) : List Candidate :=
  previous.foldl (fun candidates candidate =>
    if isServerReflexive candidate && !candidates.contains candidate then candidates ++ [candidate]
    else candidates) candidates

/-- The end of the collection of candidates. -/
def usableCandidates (candidates : List Candidate) : Except DiagnosticError (List Candidate) :=
  if (uniqueCandidates candidates).isEmpty then .error .noCandidates
  else .ok (uniqueCandidates candidates)

namespace DiagnosticPeer

def collectCandidates : RuntimeM (List Candidate) := do
  let candidates ← lift (call .localCandidates)
  let stunServers ← lift (call .stunServers)
  if stunServers.isEmpty then ofExcept (usableCandidates candidates)
  else
    match ← lift (call .gatherCandidates) with
    | .ok stunCandidates => ofExcept (usableCandidates (candidates ++ stunCandidates))
    | .error error =>
      if candidates.isEmpty then throw (.stun error)
      else do
        let previous ← lift (call .candidates)
        ofExcept (usableCandidates (retainServerReflexiveCandidates candidates previous))

/-! ### Snapshots -/

/-- Whether the servers that the snapshot configures have changed. -/
def applySnapshot (snapshot : NetworkSnapshot) : RuntimeM Bool := do
  core (call (.applySnapshot snapshot))
  let changed ← lift (call (.storeSnapshot snapshot))
  save
  return changed

/-- The request of `refresh_candidates`. -/
def fetchSnapshot (candidates : List Candidate) (unchanged : Bool) : RuntimeM NetworkSnapshot :=
  if unchanged then do
    match ← lift (CoordinationClient.requestSnapshot fuel).run with
    | .ok snapshot => return snapshot
    | .error error =>
      if (DiagnosticError.coordination error).isSnapshotRequestUnsupported then
        coordination (CoordinationClient.updateCandidatesAndGetSnapshot fuel candidates)
      else throw (.coordination error)
  else coordination (CoordinationClient.updateCandidatesAndGetSnapshot fuel candidates)

def refreshCandidates : RuntimeM Unit := do
  match ← lift collectCandidates.run with
  | .error error => do
    let previous ← lift (call .candidates)
    if previous.isEmpty then throw error
  | .ok candidates => do
    let previous ← lift (call .candidates)
    let snapshot ← fetchSnapshot fuel candidates (candidates == previous)
    let _ ← applySnapshot snapshot
    lift (call (.storeCandidates candidates))
    save

def requestSnapshot : RuntimeM (NetworkSnapshot × Bool) := do
  let snapshot ← coordination (CoordinationClient.requestSnapshot fuel)
  let changed ← applySnapshot snapshot
  return (snapshot, changed)

/-- What `reconnect` and `open` do once they are registered: the newest snapshot. -/
def join (candidates : List Candidate) (registered : CoordinationClient.Registered) :
    RuntimeM NetworkSnapshot := do
  lift (call (.storeCredential registered.credential))
  lift (call (.storeCandidates candidates))
  let _ ← applySnapshot registered.snapshot
  refreshCandidates fuel
  let snapshot ← lift (call .stateSnapshot)
  save
  return snapshot.getD registered.snapshot

def reconnect : RuntimeM NetworkSnapshot := do
  let candidates ← lift (call .localCandidates)
  let previous ← lift (call .candidates)
  let candidates := uniqueCandidates (retainServerReflexiveCandidates candidates previous)
  let registered ← coordination (CoordinationClient.reconnect suite peer candidates)
  join fuel candidates registered

def requestPeerConnection (nodeId : NodeId) : RuntimeM Unit := do
  let _ ← coordination (CoordinationClient.lookupPeer suite peer fuel nodeId)

/-- The candidates with which a peer is opened. -/
def initialCandidates : RuntimeM (List Candidate) := do
  let candidates ← lift (call .localCandidates)
  let stunServers ← lift (call .stunServers)
  if stunServers.isEmpty then ofExcept (usableCandidates candidates)
  else
    match ← lift (call .gatherCandidates) with
    | .ok stunCandidates => ofExcept (usableCandidates (candidates ++ stunCandidates))
    | .error error =>
      if candidates.isEmpty then throw (.stun error) else ofExcept (usableCandidates candidates)

/-- `open_with_mtu` -/
def openPeer : RuntimeM NetworkSnapshot := do
  let candidates ← initialCandidates
  let registered ← coordination (CoordinationClient.reconnect suite peer candidates)
  join fuel candidates registered

end DiagnosticPeer

/-! ### The branches of the loop -/

/-- `DiagnosticPeer::is_retryable_control_error` decides between a reconnect and the loop's end. -/
def retryOr (error : DiagnosticError) : RuntimeM Unit :=
  if error.isRetryableControlError then lift (call (.setConnected false)) else throw error

def refreshAfterConfigChange : RuntimeM Unit := do
  match ← lift (DiagnosticPeer.refreshCandidates fuel).run with
  | .ok _ => pure ()
  | .error error => retryOr error

/-- A snapshot that was applied becomes the one the TUN device follows. -/
def publish (snapshot : NetworkSnapshot) (configChanged : Bool) : RuntimeM Unit := do
  lift (call (.publish snapshot))
  lift (call .clearNotified)
  if configChanged then refreshAfterConfigChange fuel

/-- The command `SnapshotExpired`. -/
def handleSnapshotExpired : RuntimeM Unit := do
  let connected ← lift (call .controlConnected)
  let notified ← lift (call .snapshotExpiredNotified)
  if connected && notified then
    match ← lift (DiagnosticPeer.requestSnapshot fuel).run with
    | .ok (snapshot, configChanged) => publish fuel snapshot configChanged
    | .error error =>
      if error.isRetryableControlError || error.isSnapshotRequestUnsupported then
        lift (call (.setConnected false))
      else throw error

def handleConnectSignal (source : PublicPeerInfo) : RuntimeM Unit := do
  let remote ← coordination (CoordinationClient.verifyPublicPeer suite peer source)
  core (call (.registerPeer remote))
  lift (call (.spawn remote.nodeId))

def handleSnapshot (snapshot : NetworkSnapshot) : RuntimeM Unit := do
  let changed ← DiagnosticPeer.applySnapshot snapshot
  publish fuel snapshot changed

def handleMessage : ControlMessage → RuntimeM Unit
  | .connectSignal source target =>
    if target = peer.node.nodeId suite then handleConnectSignal suite peer source else pure ()
  | .snapshot snapshot => handleSnapshot fuel snapshot
  | .revoke nodeId => if nodeId = peer.node.nodeId suite then throw .revoked else pure ()
  | _ => pure ()

def handleRecv : RuntimeM Unit := do
  match ← lift CoordinationClient.recv.run with
  | .ok message => handleMessage suite peer fuel message
  | .error error => retryOr (.coordination error)

/-- The requests for connections that were made while the coordinator was away. -/
def retryPending : List NodeId → RuntimeM Unit
  | [] => pure ()
  | nodeId :: rest => do
    match ← lift (DiagnosticPeer.requestPeerConnection suite peer fuel nodeId).run with
    | .ok _ => do
      lift (call (.removeReconnect nodeId))
      retryPending rest
    | .error error => retryOr error

def reportMtu (virtualMtu : ℕ) : RuntimeM Unit := do
  coordination (CoordinationClient.updateRuntimeStatus virtualMtu)
  lift (call (.storeReportedMtu virtualMtu))

def handleReconnect : RuntimeM Unit := do
  match ← lift (DiagnosticPeer.reconnect suite peer fuel).run with
  | .ok snapshot => do
    lift (call (.publish snapshot))
    lift (call .clearNotified)
    lift (call (.setConnected true))
    let virtualMtu ← lift (call .effectiveVirtualMtu)
    reportMtu virtualMtu
    let waiting ← lift (call .pendingReconnects)
    retryPending suite peer fuel waiting
  | .error error => if error.isRetryableControlError then pure () else throw error

/-- The list itself is for the dashboard. -/
def handlePeerList : RuntimeM Unit := do
  match ← lift (CoordinationClient.listPeers fuel).run with
  | .ok _ => pure ()
  | .error error => retryOr (.coordination error)

/-- An event of the node, or the failure of its transport. -/
inductive ControlEvent where
  | node (event : Core.VelaEvent)
  | transportFailed (error : String)

def handleConnectionRequest (nodeId : NodeId) : RuntimeM Bool := do
  let connected ← lift (call .controlConnected)
  if !connected then do
    lift (call (.insertReconnect nodeId))
    return false
  else do
    match ← lift (DiagnosticPeer.requestPeerConnection suite peer fuel nodeId).run with
    | .ok _ => return true
    | .error error =>
      if error.isRetryableControlError then do
        lift (call (.insertReconnect nodeId))
        lift (call (.setConnected false))
        return true
      else throw error

/-- Whether the state is to be published to the dashboard. -/
def handleControlEvent : ControlEvent → RuntimeM Bool
  | .node (.peerConnectionRequested nodeId) | .node (.peerReconnectRequested nodeId) =>
    handleConnectionRequest suite peer fuel nodeId
  | .node _ => return true
  | .transportFailed error => throw (.transportFailed error)

def handleEventBatch : List ControlEvent → RuntimeM Bool
  | [] => return false
  | event :: rest => do
    let changed ← handleControlEvent suite peer fuel event
    let later ← handleEventBatch rest
    return changed || later

def handleControlEvents (events : List ControlEvent) : RuntimeM Unit := do
  ofExcept (if events.isEmpty then .error (.transportFailed "Vela node stopped") else .ok ())
  let changed ← handleEventBatch suite peer fuel events
  if changed then
    let virtualMtu ← lift (call .effectiveVirtualMtu)
    let connected ← lift (call .controlConnected)
    let reported ← lift (call .lastReportedMtu)
    if connected && reported != some virtualMtu then
      match ← lift (reportMtu virtualMtu).run with
      | .ok _ => pure ()
      | .error error => retryOr error

def maxPingCount : ℕ := 32

/-- In milliseconds. -/
def minPingTimeout : ℕ := 100

/-- In milliseconds. -/
def maxPingTimeout : ℕ := 60000

def validatePing (count timeout : ℕ) : Bool :=
  decide (1 ≤ count ∧ count ≤ maxPingCount ∧ minPingTimeout ≤ timeout ∧ timeout ≤ maxPingTimeout)

/-- `start_ping`; errors go to whoever asked. -/
def startPing (target : NodeId) (count timeout : ℕ) : RuntimeM Unit := do
  if validatePing count timeout then
    let snapshot ← lift (call .stateSnapshot)
    match snapshot.bind fun snapshot => snapshot.peers.find? fun info => info.nodeId = target with
    | none => pure ()
    | some info => do
      match ← lift (call (.registerPeer info)) with
      | .ok _ => lift (call (.spawn target))
      | .error _ => pure ()

/-- The start of a peer: it is opened, the channel to the TUN device is created with its snapshot, and
`run_loop` is entered. -/
def handleOpen : RuntimeM Unit := do
  let snapshot ← DiagnosticPeer.openPeer suite peer fuel
  let _ ← coordination (CoordinationClient.listPeers fuel)
  lift (call (.publish snapshot))
  let _ ← coordination (CoordinationClient.listPeers fuel)
  let virtualMtu ← lift (call .effectiveVirtualMtu)
  reportMtu virtualMtu
  lift (call .start)

/-! ### The loop as a task -/

inductive Event where
  | opening
  /-- `stop.notified()` -/
  | stop
  | snapshotExpired
  | ping (target : NodeId) (count timeout : ℕ)
  /-- all senders of commands are gone -/
  | commandsClosed
  /-- the client has a message -/
  | recv
  /-- `refresh.tick()` -/
  | refresh
  | reconnect
  /-- `dashboard_peer_refresh.tick()` -/
  | refreshPeers
  | controlEvents (events : List ControlEvent)

/-- The conditions of the branches. -/
def Event.enabled {N : Type} (s : RuntimeState N) : Event → Bool
  | .opening => !s.started
  | .recv | .refresh | .refreshPeers => s.started && s.controlConnected
  | .reconnect => s.started && !s.controlConnected
  | _ => s.started

/-- What an event does; whether the loop goes on. -/
def handle : Event → RuntimeM Bool
  | .opening => do handleOpen suite peer fuel; return true
  | .stop => return false
  | .snapshotExpired => do handleSnapshotExpired fuel; return true
  | .ping target count timeout => do startPing target count timeout; return true
  | .commandsClosed => return false
  | .recv => do handleRecv suite peer fuel; return true
  | .refresh => do refreshAfterConfigChange fuel; return true
  | .reconnect => do handleReconnect suite peer fuel; return true
  | .refreshPeers => do handlePeerList fuel; return true
  | .controlEvents events => do handleControlEvents suite peer fuel events; return true

def outcomeOf : Except DiagnosticError Bool → Outcome
  | .ok true => .running
  | .ok false => .ended (.ok ())
  | .error error => .ended (.error error)

def serve (event : Event) : Task PUnit := do
  let result ← (handle suite peer fuel event).run
  call (.conclude (outcomeOf result))

def Outcome.isRunning : Outcome → Bool
  | .running => true
  | .ended _ => false

variable {E N Γ : Type}

/-- One task handles the events, one at a time, as long as the loop goes on. -/
def Event.accept (t : ℕ) (event : Event) (s : RuntimeState N) : Option (RuntimeState N) :=
  if t = 0 ∧ s.outcome.isRunning ∧ event.enabled s then some s else none

/-- The runtime, with a monitor of its task. -/
def runtimePool (net : Network E N) (start : Γ) (next : Γ → (c : Section) → Response c → Γ) :
    Pool.Spec Section Response (RuntimeState N) (Env E) Event Γ where
  exec := exec suite peer net
  accept := Event.accept
  body := serve suite peer fuel
  start := start
  next := next

/-- A peer that has not been opened yet, with what it has stored. -/
def RuntimeState.new (peer : Peer) (heap : Core.PeerRef → Core.PeerState) (network : N)
    (credential : Option MembershipCredential) (snapshot : Option NetworkSnapshot)
    (dohServers stunServers : List String) : RuntimeState N where
  node := .new peer.node heap
  network := network
  pending := []
  credential := credential
  candidates := []
  dohServers := dohServers
  stunServers := stunServers
  snapshot := snapshot
  published := none
  snapshotExpiredNotified := false
  controlConnected := false
  pendingReconnects := []
  lastReportedMtu := none
  connections := []
  started := false
  outcome := .running
  applied := none

/-! ### A small peer, for concrete runs -/

section Demo

/-- The primitives of the small network; a text is the key with the number of its length. -/
def demoSuite : Suite :=
  { Core.demoSuite with
    base64Decode := fun text => some (List.replicate 32 (UInt8.ofNat text.length)) }

def demoPeer : Peer where
  node := Core.demoNode
  manualStunServers := []
  serverKey := Core.demoBytes 9
  trusted := rfl

/-- A network that has some messages to deliver. -/
def scripted : Network Unit (List ControlMessage) where
  send _ _ messages := (.ok (), messages)
  recv _ messages := match messages with
    | [] => none
    | message :: rest => some (.ok message, rest)
  connect _ messages := (.ok (), messages)

def demoEnv (n : ℕ) : Env Unit where
  network := ()
  node := List.replicate n Core.demoEnv
  unixTime := 10
  timedOut := false
  hostCandidates := [.host Core.demoPath]
  stun := .ok []
  saveError := none
  virtualMtu := 1190

def demoState (messages : List ControlMessage) : RuntimeState (List ControlMessage) :=
  .new demoPeer Core.demoState.heap messages none none [] []

/-- An event by itself, with the number of sections that the node takes in each of its sections. -/
def demoAlone (event : Event) (steps : List ℕ) : List (Pool.Move (Env Unit) Event) :=
  .spawn 0 event :: steps.map fun n => .step 0 (demoEnv n)

/-- The snapshot of the small network with the peer `1`, -/
def demoFirst : NetworkSnapshot :=
  Core.demoSnapshot [Core.demoInfo 5, Core.demoInfo 1] [Core.demoRef.nodeId]

/-- and the next one, without it. -/
def demoSecond : NetworkSnapshot :=
  { Core.demoSnapshot [Core.demoInfo 5] [] with generation := 2 }

def demoOpening : List ControlMessage :=
  [.registerOk "xxxxx" [] demoFirst, .snapshotResponse demoFirst, .listPeersOk [], .listPeersOk []]

def demoOpened : List (Pool.Move (Env Unit) Event) :=
  demoAlone .opening (List.replicate 13 0 ++ [16] ++ List.replicate 7 0 ++ [22] ++ List.replicate 16 0)

end Demo

end Vela.Runtime
