import Vela.Runtime.Loop

/-!
# Why the loop ends

The errors of the node reach the end of the loop as they are, and nothing else makes them: the loop
does not end for a stale snapshot, if the node refuses none (`spares_handle`).
-/

namespace Vela.Runtime

open Vela.Proto Vela.Crypto Prog

variable {suite : Suite} {peer : Peer} {fuel : ℕ} {α β : Type}

/-- The node does not answer that a snapshot is stale. -/
def NotStale : (c : Section) → Response c → Prop
  | .registerPeer _, r | .applySnapshot _, r => r ≠ .error .staleSnapshot
  | _, _ => True

/-- The program does not fail for a stale snapshot, unless the node does. -/
def Spares (p : RuntimeM α) : Prop :=
  p.run.Under NotStale (Fails fun error => error ≠ .core .staleSnapshot)

/-! ### Rules -/

lemma spares_pure (a : α) : Spares (pure a : RuntimeM α) := trivial

variable {error : DiagnosticError} {x : RuntimeM α}

lemma spares_throw (h : error ≠ .core .staleSnapshot) : Spares (throw error : RuntimeM α) := h

lemma spares_bind {f : α → RuntimeM β} (hx : Spares x) (hf : ∀ a, Spares (f a)) : Spares (x >>= f) :=
  Under.bindExcept hx hf

lemma spares_lift (p : Task α) : Spares (lift p) := under_lift p

lemma spares_catch {f : Except DiagnosticError α → RuntimeM β} (hx : Spares x)
    (hok : ∀ a, Spares (f (.ok a)))
    (herror : ∀ error, error ≠ .core .staleSnapshot → Spares (f (.error error))) :
    Spares (lift x.run >>= f) := by
  refine Under.bind (M := fun r => ∃ r', r = .ok r' ∧
    Fails (fun error => error ≠ .core .staleSnapshot) r')
    (Under.bind hx fun r hr => ⟨r, rfl, hr⟩) ?_
  rintro _ ⟨r, rfl, hr⟩
  cases r with
  | ok a => exact hok a
  | error error => exact herror error hr

lemma spares_mapError {ε : Type} {f : ε → DiagnosticError} (hf : ∀ e, f e ≠ .core .staleSnapshot)
    (p : ExceptT ε Task α) : Spares (mapError f p) := by
  refine Under.bind (under_true p.run) fun r _ => ?_
  cases r with
  | ok a => trivial
  | error error => exact hf error

lemma spares_coordination (p : ClientM α) : Spares (coordination p) := spares_mapError nofun p

lemma spares_save : Spares save := spares_mapError nofun _

lemma spares_core {p : Task (Except Core.CoreError Unit)}
    (h : p.Under NotStale fun r => r ≠ .error .staleSnapshot) : Spares (core p) := by
  refine Under.bind h fun r hr => ?_
  cases r with
  | ok a => trivial
  | error error =>
    intro herror
    injection herror with herror
    exact hr (congrArg Except.error herror)

lemma spares_usableCandidates (candidates : List Candidate) :
    Spares (ofExcept (usableCandidates candidates)) := by
  unfold usableCandidates
  split
  · exact spares_throw nofun
  · exact spares_pure _

/-! ### The peer -/

lemma spares_collectCandidates : Spares DiagnosticPeer.collectCandidates := by
  refine spares_bind (spares_lift _) fun candidates => spares_bind (spares_lift _) fun servers => ?_
  split
  · exact spares_usableCandidates _
  refine spares_bind (spares_lift _) fun gathered => ?_
  cases gathered with
  | ok found => exact spares_usableCandidates _
  | error error =>
    dsimp only
    split
    · exact spares_throw nofun
    · exact spares_bind (spares_lift _) fun _ => spares_usableCandidates _

lemma spares_applySnapshot (snapshot : NetworkSnapshot) :
    Spares (DiagnosticPeer.applySnapshot snapshot) :=
  spares_bind (spares_core fun _ hr => hr) fun _ => spares_bind (spares_lift _) fun changed =>
    spares_bind spares_save fun _ => spares_pure changed

lemma spares_fetchSnapshot (candidates : List Candidate) (unchanged : Bool) :
    Spares (DiagnosticPeer.fetchSnapshot fuel candidates unchanged) := by
  unfold DiagnosticPeer.fetchSnapshot
  split
  · refine spares_bind (spares_lift _) fun r => ?_
    cases r with
    | ok snapshot => exact spares_pure snapshot
    | error error =>
      dsimp only
      split
      · exact spares_coordination _
      · exact spares_throw nofun
  · exact spares_coordination _

lemma spares_refreshCandidates : Spares (DiagnosticPeer.refreshCandidates fuel) := by
  refine spares_catch spares_collectCandidates (fun candidates => ?_) fun error herror => ?_
  · refine spares_bind (spares_lift _) fun previous => ?_
    refine spares_bind (spares_fetchSnapshot _ _) fun snapshot => ?_
    refine spares_bind (spares_applySnapshot snapshot) fun _ => ?_
    exact spares_bind (spares_lift _) fun _ => spares_save
  · refine spares_bind (spares_lift _) fun previous => ?_
    split
    · exact spares_throw herror
    · exact spares_pure _

lemma spares_requestSnapshot : Spares (DiagnosticPeer.requestSnapshot fuel) :=
  spares_bind (spares_coordination _) fun snapshot =>
    spares_bind (spares_applySnapshot snapshot) fun _ => spares_pure _

lemma spares_join (candidates : List Candidate) (registered : CoordinationClient.Registered) :
    Spares (DiagnosticPeer.join fuel candidates registered) := by
  refine spares_bind (spares_lift _) fun _ => spares_bind (spares_lift _) fun _ => ?_
  refine spares_bind (spares_applySnapshot _) fun _ => spares_bind spares_refreshCandidates fun _ => ?_
  exact spares_bind (spares_lift _) fun _ => spares_bind spares_save fun _ => spares_pure _

lemma spares_reconnect : Spares (DiagnosticPeer.reconnect suite peer fuel) :=
  spares_bind (spares_lift _) fun _ => spares_bind (spares_lift _) fun _ =>
    spares_bind (spares_coordination _) fun _ => spares_join _ _

lemma spares_requestPeerConnection (nodeId : NodeId) :
    Spares (DiagnosticPeer.requestPeerConnection suite peer fuel nodeId) :=
  spares_bind (spares_coordination _) fun _ => spares_pure _

lemma spares_initialCandidates : Spares DiagnosticPeer.initialCandidates := by
  refine spares_bind (spares_lift _) fun candidates => spares_bind (spares_lift _) fun servers => ?_
  split
  · exact spares_usableCandidates _
  refine spares_bind (spares_lift _) fun gathered => ?_
  cases gathered with
  | ok found => exact spares_usableCandidates _
  | error error =>
    dsimp only
    split
    · exact spares_throw nofun
    · exact spares_usableCandidates _

lemma spares_openPeer : Spares (DiagnosticPeer.openPeer suite peer fuel) :=
  spares_bind spares_initialCandidates fun _ => spares_bind (spares_coordination _) fun _ =>
    spares_join _ _

/-! ### The branches of the loop -/

lemma spares_retryOr (h : error ≠ .core .staleSnapshot) : Spares (retryOr error) := by
  unfold retryOr
  split
  · exact spares_lift _
  · exact spares_throw h

lemma spares_refreshAfterConfigChange : Spares (refreshAfterConfigChange fuel) :=
  spares_catch spares_refreshCandidates (fun _ => spares_pure _) fun _ => spares_retryOr

lemma spares_publish (snapshot : NetworkSnapshot) (configChanged : Bool) :
    Spares (publish fuel snapshot configChanged) := by
  refine spares_bind (spares_lift _) fun _ => spares_bind (spares_lift _) fun _ => ?_
  split
  · exact spares_refreshAfterConfigChange
  · exact spares_pure _

lemma spares_handleSnapshotExpired : Spares (handleSnapshotExpired fuel) := by
  refine spares_bind (spares_lift _) fun _ => spares_bind (spares_lift _) fun _ => ?_
  split
  · refine spares_catch spares_requestSnapshot (fun _ => spares_publish _ _) fun error herror => ?_
    dsimp only
    split
    · exact spares_lift _
    · exact spares_throw herror
  · exact spares_pure _

lemma spares_handleMessage (message : ControlMessage) :
    Spares (handleMessage suite peer fuel message) := by
  cases message with
  | connectSignal source target =>
    simp only [handleMessage]
    split
    · exact spares_bind (spares_coordination _) fun _ => spares_bind (spares_core fun _ hr => hr)
        fun _ => spares_lift _
    · exact spares_pure _
  | snapshot snapshot =>
    exact spares_bind (spares_applySnapshot snapshot) fun _ => spares_publish _ _
  | revoke nodeId =>
    simp only [handleMessage]
    split
    · exact spares_throw nofun
    · exact spares_pure _
  | _ => exact spares_pure _

lemma spares_handleRecv : Spares (handleRecv suite peer fuel) := by
  refine spares_bind (spares_lift _) fun r => ?_
  cases r with
  | ok message => exact spares_handleMessage message
  | error error => exact spares_retryOr nofun

lemma spares_retryPending (waiting : List NodeId) :
    Spares (retryPending suite peer fuel waiting) := by
  induction waiting with
  | nil => exact spares_pure _
  | cons nodeId waiting ih =>
    exact spares_catch (spares_requestPeerConnection nodeId)
      (fun _ => spares_bind (spares_lift _) fun _ => ih) fun _ => spares_retryOr

lemma spares_reportMtu (virtualMtu : ℕ) : Spares (reportMtu virtualMtu) :=
  spares_bind (spares_coordination _) fun _ => spares_lift _

lemma spares_handleReconnect : Spares (handleReconnect suite peer fuel) := by
  refine spares_catch spares_reconnect (fun snapshot => ?_) fun error herror => ?_
  · refine spares_bind (spares_lift _) fun _ => spares_bind (spares_lift _) fun _ => ?_
    refine spares_bind (spares_lift _) fun _ => spares_bind (spares_lift _) fun virtualMtu => ?_
    refine spares_bind (spares_reportMtu virtualMtu) fun _ => ?_
    exact spares_bind (spares_lift _) fun waiting => spares_retryPending waiting
  · dsimp only
    split
    · exact spares_pure _
    · exact spares_throw herror

lemma spares_handlePeerList : Spares (handlePeerList fuel) := by
  refine spares_bind (spares_lift _) fun r => ?_
  cases r with
  | ok _ => exact spares_pure _
  | error error => exact spares_retryOr nofun

lemma spares_handleConnectionRequest (nodeId : NodeId) :
    Spares (handleConnectionRequest suite peer fuel nodeId) := by
  refine spares_bind (spares_lift _) fun connected => ?_
  split
  · exact spares_bind (spares_lift _) fun _ => spares_pure _
  · refine spares_catch (spares_requestPeerConnection nodeId) (fun _ => spares_pure _)
      fun error herror => ?_
    dsimp only
    split
    · exact spares_bind (spares_lift _) fun _ => spares_bind (spares_lift _) fun _ => spares_pure _
    · exact spares_throw herror

lemma spares_handleEventBatch (events : List ControlEvent) :
    Spares (handleEventBatch suite peer fuel events) := by
  induction events with
  | nil => exact spares_pure _
  | cons event events ih =>
    refine spares_bind ?_ fun _ => spares_bind ih fun _ => spares_pure _
    cases event with
    | transportFailed error => exact spares_throw nofun
    | node event =>
      cases event with
      | peerConnectionRequested nodeId => exact spares_handleConnectionRequest nodeId
      | peerReconnectRequested nodeId => exact spares_handleConnectionRequest nodeId
      | _ => exact spares_pure _

lemma spares_handleControlEvents (events : List ControlEvent) :
    Spares (handleControlEvents suite peer fuel events) := by
  refine spares_bind ?_ fun _ => spares_bind (spares_handleEventBatch events) fun changed => ?_
  · split
    · exact spares_throw nofun
    · exact spares_pure _
  split
  · refine spares_bind (spares_lift _) fun virtualMtu => spares_bind (spares_lift _) fun _ => ?_
    refine spares_bind (spares_lift _) fun _ => ?_
    split
    · exact spares_catch (spares_reportMtu virtualMtu) (fun _ => spares_pure _) fun _ => spares_retryOr
    · exact spares_pure _
  · exact spares_pure _

lemma spares_startPing (target : NodeId) (count timeout : ℕ) :
    Spares (startPing target count timeout) := by
  unfold startPing
  split
  · refine spares_bind (spares_lift _) fun snapshot => ?_
    split
    · exact spares_pure _
    · refine spares_bind (spares_lift _) fun r => ?_
      cases r with
      | ok _ => exact spares_lift _
      | error _ => exact spares_pure _
  · exact spares_pure _

lemma spares_handleOpen : Spares (handleOpen suite peer fuel) :=
  spares_bind spares_openPeer fun _ => spares_bind (spares_coordination _) fun _ =>
    spares_bind (spares_lift _) fun _ => spares_bind (spares_coordination _) fun _ =>
      spares_bind (spares_lift _) fun virtualMtu => spares_bind (spares_reportMtu virtualMtu) fun _ =>
        spares_lift _

/-- **No event fails for a stale snapshot, unless the node does.** -/
theorem spares_handle (event : Event) : Spares (handle suite peer fuel event) := by
  have hthen : ∀ {p : RuntimeM Unit}, Spares p → Spares (p >>= fun _ => pure true) :=
    fun h => spares_bind h fun _ => spares_pure _
  cases event with
  | opening => exact hthen spares_handleOpen
  | stop => exact spares_pure _
  | snapshotExpired => exact hthen spares_handleSnapshotExpired
  | ping target count timeout => exact hthen (spares_startPing target count timeout)
  | commandsClosed => exact spares_pure _
  | recv => exact hthen spares_handleRecv
  | refresh => exact hthen spares_refreshAfterConfigChange
  | reconnect => exact hthen spares_handleReconnect
  | refreshPeers => exact hthen spares_handlePeerList
  | controlEvents events => exact hthen (spares_handleControlEvents events)

end Vela.Runtime
