import Vela.Core.Node
import Vela.Core.Steps

/-!
# The loop of `apply_snapshot`

What the loop of `apply_snapshot` does when no other task runs in between.  `PeerState.updated` is what
it makes of a peer that stays, and `Applied` what holds after each iteration.
-/

namespace Vela.Core

open Vela.Proto Vela.Crypto Vela.Ip Prog

variable {suite : Suite} {node : Node}

/-! ### Steps -/

@[simp] lemma heap_setPeer (s : NodeState) (p : PeerRef) (peer : PeerState) :
    (s.setPeer p peer).heap p = peer := by
  simp [NodeState.setPeer]

variable {β : Type} {Q : β → NodeState → Prop} {s : NodeState} {p : PeerRef} {op : PeerOp}
  {f : op.Response → Task β}

lemma heap_setPeer_ne (s : NodeState) {q : PeerRef} (peer : PeerState) (h : q ≠ p) :
    (s.setPeer p peer).heap q = s.heap q := by
  simp [NodeState.setPeer, h]

@[simp] lemma setPeer_setPeer (s : NodeState) (p : PeerRef) (peer peer' : PeerState) :
    (s.setPeer p peer).setPeer p peer' = s.setPeer p peer' := by
  simp [NodeState.setPeer]

@[simp] lemma setPeer_heap (s : NodeState) (p : PeerRef) : s.setPeer p (s.heap p) = s := by
  simp [NodeState.setPeer]

/-- A section that emits changes the events only. -/
def NodeState.setEvents (s : NodeState) (events : List VelaEvent) : NodeState := { s with events }

lemma wp_peerCall
    (h : ∀ e, (f (performPeer suite node e (s.heap p) op).1).wp (exec suite node) Q
      (s.setPeer p (performPeer suite node e (s.heap p) op).2)) :
    (peerCall p op >>= f).wp (exec suite node) Q s := by
  refine wp_callBind fun e r s' he => ?_
  cases he
  exact h e

lemma wp_readPeer {r : op.Response}
    (hread : ∀ e, performPeer suite node e (s.heap p) op = (r, s.heap p))
    (h : (f r).wp (exec suite node) Q s) : (peerCall p op >>= f).wp (exec suite node) Q s := by
  refine wp_peerCall fun e => ?_
  rw [hread e, setPeer_heap]
  exact h

lemma wp_emit {event : VelaEvent} {f : PUnit → Task β}
    (h : ∀ events, (f ⟨⟩).wp (exec suite node) Q (s.setEvents events)) :
    (emit event >>= f).wp (exec suite node) Q s := by
  refine wp_callBind fun e r s' he => ?_
  cases he
  split
  · exact h _
  · exact h s.events

lemma wp_when {condition : Bool} {p : Task PUnit} {f : PUnit → Task β}
    (htrue : condition = true → (p >>= f).wp (exec suite node) Q s)
    (hfalse : condition = false → (f ⟨⟩).wp (exec suite node) Q s) :
    (when condition p >>= f).wp (exec suite node) Q s := by
  cases condition with
  | true => exact htrue rfl
  | false => exact hfalse rfl

/-! ### The end of a session -/

/-- A peer without its session, its attempt and its queue. -/
def PeerState.ended (peer : PeerState) (requestReconnect : Bool) : PeerState :=
  { peer with
    active := none
    attempt := none
    queue := []
    reconnect :=
      if requestReconnect && (peer.active.isSome || peer.attempt.isSome) then
        { peer.reconnect with requested := true, attempts := 0 }
      else peer.reconnect
    connecting := false }

/-- The sessions map without the session of a peer. -/
def NodeState.dropSession (s : NodeState) (p : PeerRef) : NodeState :=
  match (s.heap p).active with
  | none => s
  | some session => s.removeSession p session.sessionId

lemma removeSession_eq (s : NodeState) (p : PeerRef) (sessionId : UInt64) :
    ∃ sessions, s.removeSession p sessionId = { s with sessions } := by
  unfold NodeState.removeSession
  split
  · exact ⟨_, rfl⟩
  · exact ⟨s.sessions, rfl⟩

lemma removeSession_setPeer (s : NodeState) (p q : PeerRef) (peer : PeerState) (sessionId : UInt64) :
    (s.setPeer p peer).removeSession q sessionId = (s.removeSession q sessionId).setPeer p peer := by
  by_cases h : s.sessions.lookup sessionId = some q
  · have h' : (s.setPeer p peer).sessions.lookup sessionId = some q := h
    rw [NodeState.removeSession, if_pos h', NodeState.removeSession, if_pos h]
    rfl
  · have h' : ¬ (s.setPeer p peer).sessions.lookup sessionId = some q := h
    rw [NodeState.removeSession, if_neg h', NodeState.removeSession, if_neg h]

lemma dropSession_eq (s : NodeState) (p : PeerRef) :
    ∃ sessions, s.dropSession p = { s with sessions } := by
  unfold NodeState.dropSession
  split
  · exact ⟨s.sessions, rfl⟩
  · exact removeSession_eq s p _

lemma lookup_dropSession (s : NodeState) (p : PeerRef) (id : UInt64) (q : PeerRef) :
    (s.dropSession p).sessions.lookup id = some q ↔ s.sessions.lookup id = some q ∧
      ¬ (q = p ∧ (s.heap p).active.map ActiveSession.sessionId = some id) := by
  unfold NodeState.dropSession
  split
  · rename_i hactive
    simp [hactive]
  · rename_i session hactive
    rw [lookup_removeSession, hactive]
    simp only [Option.map_some, Option.some.injEq, eq_comm]

lemma afterRemoval_wp (t : NodeState) (p : PeerRef) (sessionId : Option UInt64) (request : Bool) :
    (do let hadAttempt ← peerCall p .takeAttempt
        peerCall p .clearQueue
        when (request && (sessionId.isSome || hadAttempt)) (peerCall p .requestReconnect)
        peerCall p (.setConnecting false)
        when sessionId.isSome do
          let info ← peerCall p .info
          emit (.peerDisconnected info.nodeId) : Task PUnit).wp (exec suite node) (fun _ s' => ∃ events,
      s' = (t.setPeer p { t.heap p with
        attempt := none
        queue := []
        reconnect :=
          if request && (sessionId.isSome || (t.heap p).attempt.isSome) then
            { (t.heap p).reconnect with requested := true, attempts := 0 }
          else (t.heap p).reconnect
        connecting := false }).setEvents events) t := by
  have hend : ∀ s : NodeState, (when sessionId.isSome do
      let info ← peerCall p .info
      emit (.peerDisconnected info.nodeId)).wp (exec suite node)
        (fun _ s' => ∃ events, s' = s.setEvents events) s := by
    intro s
    cases sessionId with
    | none => exact ⟨s.events, rfl⟩
    | some id =>
      exact wp_readPeer (fun _ => rfl) (wp_emit fun events => ⟨events, rfl⟩)
  refine wp_peerCall fun e => wp_peerCall fun e => wp_when (fun hrequest => ?_) fun hrequest => ?_
  · refine wp_peerCall fun e => wp_peerCall fun e => wp_mono ?_ (hend _)
    rintro _ s' ⟨events, rfl⟩
    refine ⟨events, ?_⟩
    simp only [performPeer] at hrequest
    simp only [performPeer, heap_setPeer, setPeer_setPeer, hrequest, if_true]
  · refine wp_peerCall fun e => wp_mono ?_ (hend _)
    rintro _ s' ⟨events, rfl⟩
    refine ⟨events, ?_⟩
    simp only [performPeer] at hrequest
    simp only [performPeer, heap_setPeer, setPeer_setPeer, hrequest, Bool.false_eq_true, if_false]

lemma invalidateSession_wp (s : NodeState) (p : PeerRef) (request : Bool) :
    (invalidateSession p request).wp (exec suite node) (fun _ s' => ∃ events,
      s' = ((s.dropSession p).setPeer p ((s.heap p).ended request)).setEvents events) s := by
  refine wp_peerCall fun e => ?_
  have htake : performPeer suite node e (s.heap p) (.takeActive none) =
      (some ((s.heap p).active.map ActiveSession.sessionId), { s.heap p with active := none }) := rfl
  rw [htake]
  dsimp only
  cases hactive : (s.heap p).active with
  | none =>
    have hdrop : s.dropSession p = s := by
      rw [NodeState.dropSession, hactive]
    refine wp_mono ?_ (afterRemoval_wp _ p none request)
    rintro _ s' ⟨events, rfl⟩
    refine ⟨events, ?_⟩
    simp only [hdrop, heap_setPeer, setPeer_setPeer, PeerState.ended, hactive, Option.isSome_none]
  | some session =>
    refine wp_callBind fun e r s' he => ?_
    cases he
    have hdrop : (s.setPeer p { s.heap p with active := none }).removeSession p session.sessionId =
        (s.dropSession p).setPeer p { s.heap p with active := none } := by
      rw [removeSession_setPeer, NodeState.dropSession, hactive]
    rw [hdrop]
    refine wp_mono ?_ (afterRemoval_wp _ p (some session.sessionId) request)
    rintro _ s' ⟨events, rfl⟩
    refine ⟨events, ?_⟩
    simp only [heap_setPeer, setPeer_setPeer, PeerState.ended, hactive, Option.isSome_some]

/-! ### Peers that stay -/

/-- `can_retain_session` on the peer's state. -/
def PeerState.retains (peer : PeerState) (next : PeerInfo) : Bool :=
  sameIdentity peer.info next &&
    match peer.active with
    | some session => peer.info.candidates == next.candidates ||
        next.candidates.any fun candidate => candidate.address == session.path
    | none => peer.attempt.isNone || peer.info.candidates == next.candidates

lemma canRetainSession_wp (s : NodeState) (p : PeerRef) (next : PeerInfo) :
    (canRetainSession p next).wp (exec suite node)
      (fun retain s' => retain = (s.heap p).retains next ∧ s' = s) s := by
  refine wp_readPeer (fun _ => rfl) ?_
  by_cases hid : sameIdentity (s.heap p).info next = true
  · rw [if_pos hid]
    refine wp_readPeer (fun _ => rfl) ?_
    cases hactive : (s.heap p).active with
    | some session => exact ⟨by simp [PeerState.retains, hid, hactive], rfl⟩
    | none =>
      refine wp_readPeer (fun _ => rfl) ⟨?_, rfl⟩
      simp [PeerState.retains, hid, hactive]
  · rw [if_neg hid]
    exact ⟨by simp [PeerState.retains, hid], rfl⟩

/-- A peer that stays, with its new record. -/
def PeerState.updated (suite : Suite) (node : Node) (peer : PeerState) (info : PeerInfo)
    (online : Bool) : PeerState :=
  let kept := if peer.retains info then peer else peer.ended true
  { kept with
    membershipExpiresAt := Core.membershipExpiresAt suite info node.config.serverPublicKey
    info
    online
    reconnect :=
      if online && kept.reconnect.requested then { kept.reconnect with attempts := 0 }
      else kept.reconnect }

/-- What becomes of the sessions map. -/
def NodeState.keepSession (s : NodeState) (p : PeerRef) (info : PeerInfo) : NodeState :=
  if (s.heap p).retains info then s else s.dropSession p

lemma retainPeer_wp (s : NodeState) (p : PeerRef) (info : PeerInfo) (online : Bool) :
    (retainPeer suite node p info online).wp (exec suite node) (fun _ s' => ∃ events,
      s' = ((s.keepSession p info).setPeer p ((s.heap p).updated suite node info online)).setEvents
        events) s := by
  -- from the state in which the session was dropped or kept
  have hrest : ∀ (t : NodeState) (kept : PeerState), t.heap p = kept →
      (do updateInfo suite node p info
          peerCall p (.setOnline online)
          if online then peerCall p .resumeReconnect else return false : Task Bool).wp
        (exec suite node) (fun _ s' => s' = t.setPeer p { kept with
          membershipExpiresAt := Core.membershipExpiresAt suite info node.config.serverPublicKey
          info
          online
          reconnect :=
            if online && kept.reconnect.requested then { kept.reconnect with attempts := 0 }
            else kept.reconnect }) t := by
    rintro t kept rfl
    refine wp_peerCall fun e => wp_peerCall fun e => wp_peerCall fun e => ?_
    simp only [performPeer, heap_setPeer, setPeer_setPeer]
    cases online with
    | false => rfl
    | true =>
      refine wp_peerCall fun e => ?_
      simp only [performPeer, heap_setPeer, Bool.true_and]
      split
      · simp only [setPeer_setPeer]
        rfl
      · simp only [setPeer_setPeer]
        rfl
  refine wp_bind.2 (wp_mono ?_ (canRetainSession_wp s p info))
  rintro retain s' ⟨rfl, rfl⟩
  refine wp_when (fun hretain => ?_) fun hretain => ?_
  · have hretain : (s'.heap p).retains info = false := by simpa using hretain
    refine wp_bind.2 (wp_mono ?_ (invalidateSession_wp s' p true))
    rintro _ t ⟨events, rfl⟩
    refine wp_mono ?_ (hrest _ _ rfl)
    rintro _ t rfl
    refine ⟨events, ?_⟩
    simp only [NodeState.keepSession, hretain, PeerState.updated, Bool.false_eq_true, if_false]
    simp [NodeState.setPeer, NodeState.setEvents]
  · have hretain : (s'.heap p).retains info = true := by simpa using hretain
    refine wp_mono ?_ (hrest _ _ rfl)
    rintro _ t rfl
    refine ⟨s'.events, ?_⟩
    simp only [NodeState.keepSession, hretain, PeerState.updated, if_true]
    rfl

lemma keepSession_eq (s : NodeState) (p : PeerRef) (info : PeerInfo) :
    ∃ sessions, s.keepSession p info = { s with sessions } := by
  unfold NodeState.keepSession
  split
  · exact ⟨s.sessions, rfl⟩
  · exact dropSession_eq s p

lemma lookup_keepSession (s : NodeState) (p : PeerRef) (info : PeerInfo) (id : UInt64) (q : PeerRef) :
    (s.keepSession p info).sessions.lookup id = some q ↔ s.sessions.lookup id = some q ∧
      ¬ (q = p ∧ (s.heap p).retains info = false ∧
        (s.heap p).active.map ActiveSession.sessionId = some id) := by
  unfold NodeState.keepSession
  split
  · rename_i hretain
    simp [hretain]
  · rename_i hretain
    have hretain : (s.heap p).retains info = false := by simpa using hretain
    rw [lookup_dropSession]
    simp [hretain]

/-! ### The loop -/

/-- What every node has: its peers are in the table under their ids, and were allocated. -/
structure NodeState.WellFormed (s : NodeState) : Prop where
  keyed : s.Keyed
  allocated : ∀ nodeId p, s.peers.lookup nodeId = some p → p.address < s.allocated

/-- The records of a snapshot that are not the node's own. -/
def remotes (suite : Suite) (node : Node) (peers : List PeerInfo) : List PeerInfo :=
  peers.filter fun info => info.nodeId ≠ node.nodeId suite

/-- A session that the loop ends: the peer stays, but its session does not. -/
def Ends (before : NodeState) (done : List PeerInfo) (q : PeerRef) (id : UInt64) : Prop :=
  ∃ info ∈ done, before.peers.lookup info.nodeId = some q ∧
    (before.heap q).retains info = false ∧
    (before.heap q).active.map ActiveSession.sessionId = some id

/-- An entry of the table that the loop builds: a peer that stays, or a new one. -/
structure Replaced (onlinePeers : List NodeId) (before s : NodeState) (record : PeerInfo)
    (p : PeerRef) : Prop where
  nodeId : p.nodeId = record.nodeId
  address : p.address < s.allocated
  info : (s.heap p).info = record
  online : (s.heap p).online = onlinePeers.contains record.nodeId
  origin : before.peers.lookup record.nodeId = some p ∨
    before.peers.lookup record.nodeId = none ∧ before.allocated ≤ p.address ∧
      (s.heap p).active = none

/-- The state after the loop has been through the records `done`. -/
structure Applied (suite : Suite) (node : Node) (onlinePeers : List NodeId) (before : NodeState)
    (done : List PeerInfo) (acc : Replacement) (s : NodeState) : Prop where
  peers : s.peers = before.peers
  routes : s.routes = before.routes
  generation : s.snapshotGeneration = before.snapshotGeneration
  expiresAt : s.snapshotExpiresAt = before.snapshotExpiresAt
  allocated : before.allocated ≤ s.allocated
  known : ∀ info ∈ done, ∀ p, before.peers.lookup info.nodeId = some p →
    s.heap p = (before.heap p).updated suite node info (onlinePeers.contains info.nodeId)
  untouched : ∀ nodeId p, before.peers.lookup nodeId = some p → nodeId ∉ done.map PeerInfo.nodeId →
    s.heap p = before.heap p
  sessions : ∀ id q, s.sessions.lookup id = some q ↔
    before.sessions.lookup id = some q ∧ ¬ Ends before done q id
  table : ∀ nodeId p, acc.peers.lookup nodeId = some p →
    ∃ info ∈ done, info.nodeId = nodeId ∧ Replaced onlinePeers before s info p
  complete : ∀ info ∈ done, (acc.peers.lookup info.nodeId).isSome

section Loop

variable {onlinePeers : List NodeId} {before : NodeState} (hwell : before.WellFormed)
  {done : List PeerInfo} {acc : Replacement} {s : NodeState}

variable {info : PeerInfo} {p : PeerRef}

lemma ends_append {q : PeerRef} {id : UInt64} :
    Ends before (done ++ [info]) q id ↔ Ends before done q id ∨
      (before.peers.lookup info.nodeId = some q ∧ (before.heap q).retains info = false ∧
        (before.heap q).active.map ActiveSession.sessionId = some id) := by
  constructor
  · rintro ⟨info', hmem, h⟩
    rcases List.mem_append.1 hmem with hdone | hlast
    · exact .inl ⟨info', hdone, h⟩
    · obtain rfl := List.mem_singleton.1 hlast
      exact .inr h
  · rintro (⟨info', hmem, h⟩ | h)
    · exact ⟨info', List.mem_append_left _ hmem, h⟩
    · exact ⟨info, List.mem_append_right _ (List.mem_singleton_self _), h⟩

lemma Replaced.frame {s' : NodeState} (h : Replaced onlinePeers before s info p)
    (hallocated : s.allocated ≤ s'.allocated) (hheap : s'.heap p = s.heap p) :
    Replaced onlinePeers before s' info p :=
  ⟨h.nodeId, lt_of_lt_of_le h.address hallocated, hheap ▸ h.info, hheap ▸ h.online, hheap ▸ h.origin⟩

lemma NodeState.WellFormed.lookup_inj (h : before.WellFormed) {a b : NodeId}
    (ha : before.peers.lookup a = some p) (hb : before.peers.lookup b = some p) : a = b :=
  (h.keyed a p ha).symm.trans (h.keyed b p hb)

include hwell

/-- **A peer that stays.** -/
theorem Applied.retain (h : Applied suite node onlinePeers before done acc s)
    (hnew : info.nodeId ∉ done.map PeerInfo.nodeId) (hp : before.peers.lookup info.nodeId = some p)
    (reconnect : Bool) (events : List VelaEvent) :
    Applied suite node onlinePeers before (done ++ [info]) (acc.retain info.nodeId p reconnect)
      (((s.keepSession p info).setPeer p ((s.heap p).updated suite node info
        (onlinePeers.contains info.nodeId))).setEvents events) := by
  have hheap : s.heap p = before.heap p := h.untouched _ _ hp hnew
  obtain ⟨sessions, hkeep⟩ := keepSession_eq s p info
  have hsessions := lookup_keepSession s p info
  rw [hkeep] at hsessions ⊢
  have hself : (({ s with sessions }.setPeer p ((s.heap p).updated suite node info
      (onlinePeers.contains info.nodeId))).setEvents events).heap p =
      (before.heap p).updated suite node info (onlinePeers.contains info.nodeId) := by
    rw [← hheap]
    exact heap_setPeer _ _ _
  have hother : ∀ q, q ≠ p → (({ s with sessions }.setPeer p ((s.heap p).updated suite node info
      (onlinePeers.contains info.nodeId))).setEvents events).heap q = s.heap q :=
    fun q hq => heap_setPeer_ne _ _ hq
  refine ⟨h.peers, h.routes, h.generation, h.expiresAt, h.allocated, ?_, ?_, ?_, ?_, ?_⟩
  · intro info' hmem q hq
    rcases List.mem_append.1 hmem with hdone | hlast
    · have hne : q ≠ p := by
        rintro rfl
        exact hnew (List.mem_map.2 ⟨info', hdone, hwell.lookup_inj hq hp⟩)
      rw [hother q hne]
      exact h.known info' hdone q hq
    · obtain rfl := List.mem_singleton.1 hlast
      obtain rfl := Option.some.inj (hp.symm.trans hq)
      exact hself
  · intro nodeId q hq hnot
    have hne : q ≠ p := by
      rintro rfl
      refine hnot (List.mem_map.2 ⟨info, List.mem_append_right _ (List.mem_singleton_self _), ?_⟩)
      exact hwell.lookup_inj hp hq
    rw [hother q hne]
    exact h.untouched nodeId q hq fun hmem => hnot (by
      rw [List.map_append]
      exact List.mem_append_left _ hmem)
  · intro id q
    rw [ends_append]
    refine (hsessions id q).trans ?_
    rw [h.sessions id q, hheap]
    have hlast : (q = p ∧ (before.heap p).retains info = false ∧
        (before.heap p).active.map ActiveSession.sessionId = some id) ↔
        (before.peers.lookup info.nodeId = some q ∧ (before.heap q).retains info = false ∧
          (before.heap q).active.map ActiveSession.sessionId = some id) := by
      constructor
      · rintro ⟨rfl, hrest⟩
        exact ⟨hp, hrest⟩
      · rintro ⟨hq, hrest⟩
        obtain rfl := Option.some.inj (hp.symm.trans hq)
        exact ⟨rfl, hrest⟩
    rw [hlast]
    tauto
  · intro nodeId q hq
    rw [Replacement.retain_peers] at hq
    by_cases hid : nodeId = info.nodeId
    · subst hid
      rw [AList.lookup_insert] at hq
      cases hq
      refine ⟨info, List.mem_append_right _ (List.mem_singleton_self _), rfl, ?_⟩
      refine ⟨hwell.keyed _ _ hp, ?_, ?_, ?_, .inl hp⟩
      · exact lt_of_lt_of_le (hwell.allocated _ _ hp) h.allocated
      · rw [hself]
        rfl
      · rw [hself]
        rfl
    · rw [AList.lookup_insert_ne hid] at hq
      obtain ⟨info', hmem, rfl, hreplaced⟩ := h.table nodeId q hq
      have hne : q ≠ p := by
        rintro rfl
        exact hid (hreplaced.nodeId.symm.trans (hwell.keyed _ _ hp))
      exact ⟨info', List.mem_append_left _ hmem, rfl, hreplaced.frame le_rfl (hother q hne)⟩
  · intro info' hmem
    rw [Replacement.retain_peers]
    by_cases hid : info'.nodeId = info.nodeId
    · rw [hid, AList.lookup_insert]
      rfl
    · rw [AList.lookup_insert_ne hid]
      rcases List.mem_append.1 hmem with hdone | hlast
      · exact h.complete info' hdone
      · exact absurd (congrArg PeerInfo.nodeId (List.mem_singleton.1 hlast)) hid

/-- **A new peer.** -/
theorem Applied.allocate (h : Applied suite node onlinePeers before done acc s)
    (hnew : info.nodeId ∉ done.map PeerInfo.nodeId) (hp : before.peers.lookup info.nodeId = none) :
    Applied suite node onlinePeers before (done ++ [info])
      { acc with peers := acc.peers.insert info.nodeId ⟨s.allocated, info.nodeId⟩ }
      (s.allocate suite node info (onlinePeers.contains info.nodeId)).2 := by
  have hself : (s.allocate suite node info (onlinePeers.contains info.nodeId)).2.heap
      ⟨s.allocated, info.nodeId⟩ = PeerState.withOnline suite info
        (onlinePeers.contains info.nodeId) node.config.serverPublicKey := by
    simp [NodeState.allocate]
  have hother : ∀ q : PeerRef, q.address < s.allocated →
      (s.allocate suite node info (onlinePeers.contains info.nodeId)).2.heap q = s.heap q := by
    intro q hq
    have hne : q ≠ ⟨s.allocated, info.nodeId⟩ := by
      rintro rfl
      exact lt_irrefl _ hq
    simp [NodeState.allocate, hne]
  have hold : ∀ nodeId q, before.peers.lookup nodeId = some q → q.address < s.allocated :=
    fun nodeId q hq => lt_of_lt_of_le (hwell.allocated nodeId q hq) h.allocated
  refine ⟨h.peers, h.routes, h.generation, h.expiresAt, Nat.le_succ_of_le h.allocated, ?_, ?_, ?_, ?_,
    ?_⟩
  · intro info' hmem q hq
    rw [hother q (hold _ _ hq)]
    rcases List.mem_append.1 hmem with hdone | hlast
    · exact h.known info' hdone q hq
    · obtain rfl := List.mem_singleton.1 hlast
      rw [hp] at hq
      cases hq
  · intro nodeId q hq hnot
    rw [hother q (hold _ _ hq)]
    exact h.untouched nodeId q hq fun hmem => hnot (by
      rw [List.map_append]
      exact List.mem_append_left _ hmem)
  · intro id q
    rw [ends_append]
    refine (h.sessions id q).trans ?_
    simp [hp]
  · intro nodeId q hq
    by_cases hid : nodeId = info.nodeId
    · subst hid
      rw [AList.lookup_insert] at hq
      cases hq
      refine ⟨info, List.mem_append_right _ (List.mem_singleton_self _), rfl, ?_⟩
      refine ⟨rfl, Nat.lt_succ_self _, ?_, ?_, .inr ⟨hp, h.allocated, ?_⟩⟩
      · exact congrArg PeerState.info hself
      · exact congrArg PeerState.online hself
      · exact congrArg PeerState.active hself
    · rw [AList.lookup_insert_ne hid] at hq
      obtain ⟨info', hmem, rfl, hreplaced⟩ := h.table nodeId q hq
      exact ⟨info', List.mem_append_left _ hmem, rfl,
        hreplaced.frame (Nat.le_succ _) (hother q hreplaced.address)⟩
  · intro info' hmem
    by_cases hid : info'.nodeId = info.nodeId
    · rw [hid, AList.lookup_insert]
      rfl
    · rw [AList.lookup_insert_ne hid]
      rcases List.mem_append.1 hmem with hdone | hlast
      · exact h.complete info' hdone
      · exact absurd (congrArg PeerInfo.nodeId (List.mem_singleton.1 hlast)) hid

lemma snapshotRemote_wp (h : Applied suite node onlinePeers before done acc s)
    (hnew : info.nodeId ∉ done.map PeerInfo.nodeId) :
    (snapshotRemote suite node onlinePeers before.peers acc info).wp (exec suite node)
      (fun acc' s' => Applied suite node onlinePeers before (done ++ [info]) acc' s') s := by
  unfold snapshotRemote
  cases hp : before.peers.lookup info.nodeId with
  | none =>
    refine wp_callBind fun e r s' he => ?_
    cases he
    exact h.allocate hwell hnew hp
  | some p =>
    refine wp_bind.2 (wp_mono ?_ (retainPeer_wp s p info _))
    rintro reconnect s' ⟨events, rfl⟩
    exact h.retain hwell hnew hp reconnect events

end Loop

/-- The checks on one record of a snapshot, at the time `now`. -/
def checkPeer (suite : Suite) (node : Node) (info : PeerInfo) (now : UInt64) : Except CoreError Unit := do
  validatePeerInfo suite info
  match node.config.serverPublicKey with
  | none => return ()
  | some key => validateCredential suite info key now

section Clock

/- Runs in which the clock only has the values in `clock`. -/
variable {E : Type} {exec' : E → (c : Section) → NodeState → Option (Response c × NodeState)}
  {clock : Set UInt64} (hclock : clock.Nonempty)
  (hexec : ∀ e c s x, exec' e c s = some x →
    ∃ e' : Env, e'.unixTime ∈ clock ∧ exec suite node e' c s = some x)
include hclock hexec

lemma checkPeer_wp (info : PeerInfo) (s : NodeState) :
    (do ofExcept (validatePeerInfo suite info)
        validatePeerMembership suite node info : NodeM CoreError Unit).run.wp exec'
      (fun r s' => s' = s ∧ ∃ now ∈ clock, r = checkPeer suite node info now) s := by
  obtain ⟨start, hstart⟩ := hclock
  cases hinfo : validatePeerInfo suite info with
  | error error =>
    refine ⟨rfl, start, hstart, ?_⟩
    rw [checkPeer, hinfo]
    rfl
  | ok _ =>
    unfold validatePeerMembership
    cases hkey : node.config.serverPublicKey with
    | none =>
      refine ⟨rfl, start, hstart, ?_⟩
      rw [checkPeer, hinfo, hkey]
      rfl
    | some key =>
      show (lift (call .unixTime) >>= fun now => ofExcept (validateCredential suite info key now) :
        NodeM CoreError Unit).run.wp exec' _ s
      refine wp_bindExcept (wp_lift fun e now s' he => ?_)
      obtain ⟨e', hnow, he'⟩ := hexec _ _ _ _ he
      cases he'
      refine ⟨rfl, e'.unixTime, hnow, ?_⟩
      rw [checkPeer, hinfo, hkey]
      rfl

/-- **The loop over the records.**  It stops at the first one that is refused. -/
theorem snapshotPeers_wp {onlinePeers : List NodeId} {before : NodeState} (hwell : before.WellFormed)
    (rest : List PeerInfo) {done : List PeerInfo} {acc : Replacement} {s : NodeState}
    (h : Applied suite node onlinePeers before done acc s)
    (hnodup : ((done ++ remotes suite node rest).map PeerInfo.nodeId).Nodup) :
    (snapshotPeers suite node onlinePeers before.peers acc rest).run.wp exec' (fun r s' =>
      match r with
      | .ok acc' => Applied suite node onlinePeers before (done ++ remotes suite node rest) acc' s'
      | .error _ => ∃ passed refused others, rest = passed ++ refused :: others ∧
          (∀ info ∈ passed, ∃ now ∈ clock, checkPeer suite node info now = .ok ()) ∧
          (∃ now ∈ clock, ∃ error, checkPeer suite node refused now = .error error) ∧
          ∃ acc', Applied suite node onlinePeers before (done ++ remotes suite node passed) acc' s') s := by
  induction rest generalizing done acc s with
  | nil =>
    rw [remotes, List.filter_nil, List.append_nil] at *
    exact h
  | cons info rest ih =>
    -- the checks first, as one program
    have hassoc : (snapshotPeers suite node onlinePeers before.peers acc (info :: rest)).run =
        ((do ofExcept (validatePeerInfo suite info)
             validatePeerMembership suite node info : NodeM CoreError Unit) >>= fun _ =>
          if info.nodeId = node.nodeId suite then
            snapshotPeers suite node onlinePeers before.peers acc rest
          else do
            let acc ← lift (snapshotRemote suite node onlinePeers before.peers acc info)
            snapshotPeers suite node onlinePeers before.peers acc rest).run := by
      rw [snapshotPeers]
      cases validatePeerInfo suite info with
      | error error => rfl
      | ok _ => rfl
    rw [hassoc]
    refine wp_bindExcept (wp_mono ?_ (checkPeer_wp hclock hexec info s))
    rintro r s' ⟨rfl, now, hnow, rfl⟩
    cases hcheck : checkPeer suite node info now with
    | error error =>
      refine ⟨[], info, rest, rfl, List.forall_mem_nil _, ⟨now, hnow, error, hcheck⟩, acc, ?_⟩
      rw [remotes, List.filter_nil, List.append_nil]
      exact h
    | ok _ =>
      dsimp only
      -- what the rest of the loop reports, with this record in front
      have hfront : ∀ {done' : List PeerInfo} {acc' : Replacement} {t : NodeState},
          Applied suite node onlinePeers before done' acc' t →
          done' ++ remotes suite node rest = done ++ remotes suite node (info :: rest) →
          (∀ passed, done' ++ remotes suite node passed = done ++ remotes suite node (info :: passed)) →
          (snapshotPeers suite node onlinePeers before.peers acc' rest).run.wp exec' (fun r s' =>
            match r with
            | .ok acc' =>
              Applied suite node onlinePeers before (done ++ remotes suite node (info :: rest)) acc' s'
            | .error _ => ∃ passed refused others, info :: rest = passed ++ refused :: others ∧
                (∀ info ∈ passed, ∃ now ∈ clock, checkPeer suite node info now = .ok ()) ∧
                (∃ now ∈ clock, ∃ error, checkPeer suite node refused now = .error error) ∧
                ∃ acc', Applied suite node onlinePeers before (done ++ remotes suite node passed) acc'
                  s') t := by
        intro done' acc' t happlied hall hpassed
        refine wp_mono ?_ (ih happlied (hall ▸ hnodup))
        intro r s' hr
        cases r with
        | ok acc' => exact hall ▸ hr
        | error error =>
          obtain ⟨passed, refused, others, rfl, hok, hrefused, acc', hacc⟩ := hr
          refine ⟨info :: passed, refused, others, rfl, ?_, hrefused, acc', hpassed passed ▸ hacc⟩
          exact List.forall_mem_cons.2 ⟨⟨now, hnow, hcheck⟩, hok⟩
      by_cases hlocal : info.nodeId = node.nodeId suite
      · rw [if_pos hlocal]
        have hskip : ∀ l, remotes suite node (info :: l) = remotes suite node l := by
          intro l
          simp [remotes, hlocal]
        exact hfront h (by rw [hskip]) fun passed => by rw [hskip]
      · rw [if_neg hlocal]
        have hkeep : ∀ l, done ++ [info] ++ remotes suite node l =
            done ++ remotes suite node (info :: l) := by
          intro l
          simp [remotes, hlocal]
        have hnew : info.nodeId ∉ done.map PeerInfo.nodeId := by
          rw [← hkeep, List.map_append, List.map_append, List.nodup_append, List.nodup_append] at hnodup
          intro hmem
          exact hnodup.1.2.2 _ hmem _ (List.mem_singleton_self _) rfl
        refine wp_bindExcept (wp_lift (wp_mono ?_ (wp_restrict
          (fun e c s x hx => (hexec e c s x hx).imp fun _ h => h.2)
          (snapshotRemote_wp hwell h hnew))))
        intro acc' t happlied
        exact hfront happlied (hkeep rest) hkeep

end Clock

end Vela.Core
