import Vela.Runtime.Loop

/-!
# Requests of the client while the coordinator pushes

The coordinator pushes snapshots and connect signals at any time, so they come in between a request and
its reply.  Each request of the client has its own loop for them.

* `client_call_tolerates_iff` — when a call does: `request_snapshot` always, `lookup_peer` and
  `list_peers` if no connect signal is pushed, `register` if nothing is;
* `register_refuses_push` — a registration that meets a pushed snapshot.
-/

namespace Vela.Runtime

open Vela.Proto Vela.Crypto Prog

/-! ### The queue -/

def isConnectSignal : ControlMessage → Bool
  | .connectSignal _ _ => true
  | _ => false

/-- What the coordinator sends without being asked. -/
def isPush (message : ControlMessage) : Bool := isSnapshot message || isConnectSignal message

/-- The queue after some pushes: it has every connect signal, in the order in which they came, and the
newest snapshot only. -/
structure Kept (queue pushes queue' : List ControlMessage) : Prop where
  signals : queue'.filter isConnectSignal =
    queue.filter isConnectSignal ++ pushes.filter isConnectSignal
  snapshots : queue'.filter isSnapshot =
    match (pushes.filter isSnapshot).getLast? with
    | some newest => [newest]
    | none => queue.filter isSnapshot
  only : ∀ message ∈ queue', message ∈ queue ∨ message ∈ pushes

section Queue

variable {queue queue' queue'' pushes : List ControlMessage} {message : ControlMessage}

lemma not_isConnectSignal (h : isSnapshot message = true) : isConnectSignal message = false := by
  cases message <;> first | rfl | cases h

lemma replaceSnapshot_signals (h : isSnapshot message = true) :
    (replaceSnapshot message queue).filter isConnectSignal = queue.filter isConnectSignal := by
  induction queue with
  | nil => rfl
  | cons first rest ih =>
    simp only [replaceSnapshot]
    split
    · rename_i hfirst
      simp only [List.filter_cons, not_isConnectSignal h, not_isConnectSignal hfirst, List.filter_filter]
      refine List.filter_congr fun other _ => ?_
      cases other <;> rfl
    · simp only [List.filter_cons, ih]

lemma replaceSnapshot_snapshots (h : isSnapshot message = true) (hany : queue.any isSnapshot = true) :
    (replaceSnapshot message queue).filter isSnapshot = [message] := by
  induction queue with
  | nil => cases hany
  | cons first rest ih =>
    simp only [replaceSnapshot]
    split
    · simp [List.filter_filter, h]
    · rename_i hfirst
      simp only [List.any_cons, hfirst, Bool.false_or] at hany
      simp [hfirst, ih hany]

lemma kept_nil : Kept queue [] queue := ⟨by simp, rfl, fun _ => Or.inl⟩

/-- **`enqueue_pending`** keeps one more push. -/
theorem Kept.enqueue (h : Kept queue pushes queue') (hpush : isPush message = true) :
    Kept queue (pushes ++ [message]) (enqueuePending queue' message) := by
  have honly : ∀ other, other ∈ queue' ∨ other = message → other ∈ queue ∨ other ∈ pushes ++ [message] := by
    rintro other (hother | rfl)
    · exact (h.only other hother).imp_right (List.mem_append_left _)
    · exact .inr (by simp)
  cases hsnapshot : isSnapshot message with
  | true =>
    have hnewest : ((pushes ++ [message]).filter isSnapshot).getLast? = some message := by
      simp [List.filter_append, hsnapshot]
    have hsignals : (pushes ++ [message]).filter isConnectSignal = pushes.filter isConnectSignal := by
      simp [List.filter_append, not_isConnectSignal hsnapshot]
    unfold enqueuePending
    rw [hsnapshot, Bool.true_and]
    split
    · rename_i hany
      refine ⟨?_, ?_, fun other hother => honly other (mem_replaceSnapshot hother).symm⟩
      · rw [replaceSnapshot_signals hsnapshot, h.signals, hsignals]
      · rw [replaceSnapshot_snapshots hsnapshot hany, hnewest]
    · rename_i hany
      refine ⟨?_, ?_, fun other hother => honly other (by simpa using hother)⟩
      · rw [List.filter_append, h.signals, hsignals]
        simp [not_isConnectSignal hsnapshot]
      · have hnone : queue'.filter isSnapshot = [] := by
          simpa [List.filter_eq_nil_iff] using hany
        rw [List.filter_append, hnone, hnewest]
        simp [hsnapshot]
  | false =>
    have hsignal : isConnectSignal message = true := by simpa [isPush, hsnapshot] using hpush
    unfold enqueuePending
    rw [hsnapshot, Bool.false_and, if_neg Bool.false_ne_true]
    refine ⟨?_, ?_, fun other hother => honly other (by simpa using hother)⟩
    · rw [List.filter_append, h.signals, List.filter_append, List.append_assoc]
    · rw [List.filter_append, h.snapshots, List.filter_append]
      simp [hsnapshot]

lemma kept_foldl (hpushes : ∀ message ∈ pushes, isPush message = true) :
    Kept queue pushes (pushes.foldl enqueuePending queue) := by
  induction pushes using List.reverseRecOn with
  | nil => exact kept_nil
  | append_singleton pushes message ih =>
    rw [List.foldl_append]
    have hfront := ih fun other hother => hpushes other (List.mem_append_left _ hother)
    exact hfront.enqueue (hpushes message (by simp))

end Queue

/-! ### The calls -/

inductive ClientCall where
  | register (token : Option String) (candidates : List Candidate)
  | requestSnapshot
  | lookupPeer (nodeId : NodeId)
  | listPeers

abbrev ClientCall.Result : ClientCall → Type
  | .register _ _ => CoordinationClient.Registered
  | .requestSnapshot => NetworkSnapshot
  | .lookupPeer _ => PeerInfo
  | .listPeers => List PeerSummary

/-- What a reply means to the loop of a request. -/
def Handling.result {α : Type} : Handling α → ClientM α
  | .answer a => return a
  | .refuse error => throw error
  | _ => throw .unexpectedMessage

section Calls

variable (suite : Suite) (peer : Peer) (fuel : ℕ)

def ClientCall.program : (call : ClientCall) → ClientM call.Result
  | .register token candidates =>
    CoordinationClient.registerWithIncarnation suite peer
      (CoordinationClient.recvWithin (some "register")) token candidates
  | .requestSnapshot => CoordinationClient.requestSnapshot fuel
  | .lookupPeer nodeId => CoordinationClient.lookupPeer suite peer fuel nodeId
  | .listPeers => CoordinationClient.listPeers fuel

/-- The result that the reply determines: what is left of the call when the reply is there. -/
def ClientCall.conclude : (call : ClientCall) → ControlMessage → ClientM call.Result
  | .register _ _, reply => CoordinationClient.registerReply suite peer reply
  | .requestSnapshot, reply => (onSnapshotResponse reply).result
  | .lookupPeer _, reply => do
    let value ← (onPeerInfo reply).result
    CoordinationClient.verifyPublicPeer suite peer value
  | .listPeers, reply => (onListPeers reply).result

/-- A section while the time of the request lasts; the messages come one after another. -/
def inTime (e : Env Unit) (c : Section) (s : RuntimeState (List ControlMessage)) :
    Option (Response c × RuntimeState (List ControlMessage)) :=
  if e.timedOut then none else exec suite peer scripted e c s

/-- The call returns what the reply determines, the messages after the reply are still to come, and
every push that came before it is kept. -/
def ClientCall.Tolerates (call : ClientCall) (s : RuntimeState (List ControlMessage))
    (pushes : List ControlMessage) (reply : ControlMessage) (later : List ControlMessage) : Prop :=
  ∃ queue, Kept s.pending pushes queue ∧
    SameRuns (inTime suite peer) (call.program suite peer fuel).run
      { s with network := pushes ++ reply :: later }
      (call.conclude suite peer reply).run { s with network := later, pending := queue }

end Calls

/-! ### The loops -/

section Loops

variable {suite : Suite} {peer : Peer} {s s' : RuntimeState (List ControlMessage)}

variable {α : Type} {message : ControlMessage}

lemma sameRuns_section {c : Section} {k : Response c → Task α} {r : Response c}
    (h : ∀ e : Env Unit, e.timedOut = false → exec suite peer scripted e c s = some (r, s')) :
    SameRuns (inTime suite peer) (.op c k) s (k r) s' := by
  refine .section ⟨demoEnv 0, ?_⟩ fun e x he => ?_
  · unfold inTime
    rw [if_neg (by simp [demoEnv])]
    exact h _ rfl
  · unfold inTime at he
    split at he
    · cases he
    · rename_i htime
      exact Option.some.inj (he.symm.trans (h e (by simpa using htime)))

lemma sameRuns_send {request : String} {f : Unit → ClientM α} :
    SameRuns (inTime suite peer) (CoordinationClient.send (some request) message >>= f).run s
      (f ()).run s := by
  refine sameRuns_section (c := .send (some request) message) (r := .ok ())
    fun e htime => ?_
  simp only [exec, scripted, withinTime, htime]

lemma sameRuns_recvWire {request : Option String} {rest : List ControlMessage}
    {f : ControlMessage → ClientM α} (h : s.network = message :: rest) :
    SameRuns (inTime suite peer) (CoordinationClient.recvWire request >>= f).run s (f message).run
      { s with network := rest } := by
  refine sameRuns_section (c := .recvWire request) (r := .ok message)
    fun e htime => ?_
  cases request <;> simp only [exec, scripted, withinTime, htime, h, Option.map_some]

/-- Whether a loop keeps a message for later. -/
def Handling.keeps {α : Type} : Handling α → Bool
  | .enqueue => true
  | _ => false

/-- **The loop of a request**: pushes are kept or dropped, until the reply comes. -/
theorem sameRuns_awaitReply {α : Type} {handling : ControlMessage → Handling α} {request : String}
    {reply : ControlMessage} {later : List ControlMessage}
    (hreply : (∃ a, handling reply = .answer a) ∨ ∃ error, handling reply = .refuse error)
    (pushes : List ControlMessage)
    (hpushes : ∀ message ∈ pushes, handling message = .enqueue ∨ handling message = .drop) :
    ∀ (fuel : ℕ) (s : RuntimeState (List ControlMessage)), pushes.length < fuel →
      SameRuns (inTime suite peer) (awaitReply request handling fuel).run
        { s with network := pushes ++ reply :: later } (handling reply).result.run
        { s with
          network := later
          pending := (pushes.filter fun message => (handling message).keeps).foldl enqueuePending
            s.pending } := by
  induction pushes with
  | nil =>
    intro fuel s hfuel
    obtain ⟨fuel, rfl⟩ := Nat.exists_eq_succ_of_ne_zero (by omega : fuel ≠ 0)
    refine (sameRuns_recvWire rfl).trans ?_
    rcases hreply with ⟨a, ha⟩ | ⟨error, herror⟩
    · simp only [ha]
      exact .refl _ _
    · simp only [herror]
      exact .refl _ _
  | cons message pushes ih =>
    intro fuel s hfuel
    obtain ⟨fuel, rfl⟩ := Nat.exists_eq_succ_of_ne_zero (by omega : fuel ≠ 0)
    have hlength : pushes.length < fuel := by simpa using hfuel
    have hrest := ih (fun other hother => hpushes other (.tail _ hother)) fuel
    refine (sameRuns_recvWire rfl).trans ?_
    rcases hpushes message (.head _) with hkeep | hdrop
    · simp only [hkeep]
      refine (sameRuns_section fun e _ => rfl).trans ?_
      rw [List.filter_cons_of_pos (by simp [hkeep, Handling.keeps]), List.foldl_cons]
      exact hrest { s with pending := enqueuePending s.pending message } hlength
    · simp only [hdrop]
      rw [List.filter_cons_of_neg (by simp [hdrop, Handling.keeps])]
      exact hrest s hlength

/-- **`register`** takes the next message, from the queue or from the connection, for the reply. -/
theorem sameRuns_register {token : Option String} {candidates : List Candidate}
    (h : s.pending = message :: s'.pending ∧ s'.network = s.network ∨
      s.pending = [] ∧ s'.pending = [] ∧ s.network = message :: s'.network)
    (hs : s' = { s with network := s'.network, pending := s'.pending }) :
    SameRuns (inTime suite peer)
      (CoordinationClient.registerWithIncarnation suite peer
        (CoordinationClient.recvWithin (some "register")) token candidates).run s
      (CoordinationClient.registerReply suite peer message).run s' := by
  refine (sameRuns_section fun _ _ => rfl).trans ?_
  refine sameRuns_send.trans ?_
  refine (sameRuns_section fun _ _ => rfl).trans ?_
  rcases h with ⟨hpending, hnetwork⟩ | ⟨hpending, hrest, hnetwork⟩
  · rw [hpending, hs, hnetwork]
    exact .refl _ _
  · rw [hpending, hs, hrest]
    exact sameRuns_recvWire hnetwork

end Loops

/-! ### What is left of a call when the reply is there -/

section Clock

variable {suite : Suite} {peer : Peer}

/-- Only the clock is read. -/
abbrev ClockOnly {α : Type} (p : ClientM α) : Prop :=
  p.run.Within (fun c => c = .unixTime) fun _ => True

variable {α : Type} {p : Task α} {post : α → Prop} {s : RuntimeState (List ControlMessage)}

lemma clockOnly_ofExcept (r : Except CoordClientError α) : ClockOnly (ofExcept r) := trivial

lemma clockOnly_unixTime : ClockOnly (lift (call .unixTime) : ClientM UInt64) :=
  ⟨rfl, fun _ => trivial⟩

lemma clockOnly_bind {β : Type} {x : ClientM α} {f : α → ClientM β} (hx : ClockOnly x)
    (hf : ∀ a, ClockOnly (f a)) : ClockOnly (x >>= f) :=
  (Discipline.within Response fun c => c = .unixTime).bindExcept hx hf

lemma clockOnly_verifyPeerCredential (info : PeerInfo) :
    ClockOnly (CoordinationClient.verifyPeerCredential suite peer info) :=
  clockOnly_bind clockOnly_unixTime fun _ => clockOnly_ofExcept _

lemma clockOnly_verifyPublicPeer (value : PublicPeerInfo) :
    ClockOnly (CoordinationClient.verifyPublicPeer suite peer value) :=
  clockOnly_bind (clockOnly_ofExcept _) fun info =>
    clockOnly_bind (clockOnly_verifyPeerCredential info) fun _ => trivial

lemma clockOnly_verifyPeerCredentials (infos : List PeerInfo) :
    ClockOnly (CoordinationClient.verifyPeerCredentials suite peer infos) := by
  induction infos with
  | nil => trivial
  | cons info infos ih => exact clockOnly_bind (clockOnly_verifyPeerCredential info) fun _ => ih

lemma clockOnly_verifyPublicPeers (values : List PublicPeerInfo) :
    ClockOnly (CoordinationClient.verifyPublicPeers suite peer values) := by
  induction values with
  | nil => trivial
  | cons value values ih =>
    refine clockOnly_bind (clockOnly_verifyPublicPeer value) fun info => ?_
    exact clockOnly_bind ih fun others => trivial

lemma clockOnly_registerReply (reply : ControlMessage) :
    ClockOnly (CoordinationClient.registerReply suite peer reply) := by
  cases reply with
  | registerOk credential peers snapshot =>
    refine clockOnly_bind (clockOnly_ofExcept _) fun bytes => ?_
    refine clockOnly_bind (clockOnly_ofExcept _) fun credential => ?_
    refine clockOnly_bind clockOnly_unixTime fun now => ?_
    refine clockOnly_bind (clockOnly_ofExcept _) fun _ => ?_
    refine clockOnly_bind (clockOnly_ofExcept _) fun _ => ?_
    refine clockOnly_bind (clockOnly_verifyPeerCredentials _) fun _ => ?_
    refine clockOnly_bind clockOnly_unixTime fun now => ?_
    refine clockOnly_bind (clockOnly_ofExcept _) fun _ => ?_
    exact clockOnly_bind (clockOnly_verifyPublicPeers _) fun peers => trivial
  | _ => trivial

lemma clockOnly_result (handling : Handling α) : ClockOnly handling.result := by
  cases handling <;> trivial

lemma clockOnly_conclude (call : ClientCall) (reply : ControlMessage) :
    ClockOnly (call.conclude suite peer reply) := by
  cases call with
  | register token candidates => exact clockOnly_registerReply reply
  | requestSnapshot => exact clockOnly_result _
  | lookupPeer nodeId =>
    exact clockOnly_bind (clockOnly_result _) fun value => clockOnly_verifyPublicPeer value
  | listPeers => exact clockOnly_result _

lemma wp_of_clockOnly (h : p.Within (fun c => c = .unixTime) post)
    (s : RuntimeState (List ControlMessage)) :
    p.wp (inTime suite peer) (fun _ s' => s' = s) s := by
  induction p with
  | ret a => rfl
  | op c k ih =>
    obtain ⟨rfl, hk⟩ := h
    intro e r s' he
    unfold inTime at he
    split at he
    · cases he
    · cases he
      exact ih _ (hk _)

lemma exists_of_wp (h : p.Within (fun c => c = .unixTime) post)
    {Q : α → RuntimeState (List ControlMessage) → Prop} (hQ : p.wp (inTime suite peer) Q s) :
    ∃ a, Q a s := by
  induction p with
  | ret a => exact ⟨a, hQ⟩
  | op c k ih =>
    obtain ⟨rfl, hk⟩ := h
    exact ih _ (hk _) (hQ (demoEnv 0) 10 s rfl)

lemma ClientCall.Tolerates.state {fuel : ℕ} {call : ClientCall} {t : RuntimeState (List ControlMessage)}
    {pushes later : List ControlMessage} {reply : ControlMessage}
    (h : call.Tolerates suite peer fuel s pushes reply later) {p : ClientM call.Result} (hp : ClockOnly p)
    (hsame : SameRuns (inTime suite peer) (call.program suite peer fuel).run
      { s with network := pushes ++ reply :: later } p.run t) :
    ∃ queue, Kept s.pending pushes queue ∧ t = { s with network := later, pending := queue } := by
  obtain ⟨queue, hkept, hruns⟩ := h
  have hstate := (hruns.symm.trans hsame _).1 (wp_of_clockOnly (clockOnly_conclude call reply) _)
  obtain ⟨-, heq⟩ := exists_of_wp hp hstate
  exact ⟨queue, hkept, heq⟩

end Clock

/-! ### When a call tolerates the pushes -/

/-- What must not come before the reply. -/
def ClientCall.Undisturbed (queue pushes : List ControlMessage) : ClientCall → Prop
  | .register _ _ => queue = [] ∧ pushes = []
  | .requestSnapshot => True
  | .lookupPeer _ | .listPeers => ∀ message ∈ pushes, isSnapshot message = true

section Tolerance

variable {suite : Suite} {peer : Peer} {fuel : ℕ} {s : RuntimeState (List ControlMessage)}
  {pushes later : List ControlMessage} {reply : ControlMessage}

lemma register_tolerates_iff {token : Option String} {candidates : List Candidate} :
    (ClientCall.register token candidates).Tolerates suite peer fuel s pushes reply later ↔
      s.pending = [] ∧ pushes = [] := by
  -- where another message is taken for the reply, the reply is still to come
  have hearly : ∀ (message : ControlMessage) (t : RuntimeState (List ControlMessage)),
      later.length < t.network.length →
      SameRuns (inTime suite peer) ((ClientCall.register token candidates).program suite peer fuel).run
        { s with network := pushes ++ reply :: later }
        (CoordinationClient.registerReply suite peer message).run t →
      ¬ (ClientCall.register token candidates).Tolerates suite peer fuel s pushes reply later := by
    intro message t hlength hsame htolerates
    obtain ⟨queue, -, heq⟩ := htolerates.state (clockOnly_registerReply message) hsame
    rw [heq] at hlength
    exact absurd hlength (lt_irrefl _)
  constructor
  · intro htolerates
    cases hpending : s.pending with
    | cons message rest =>
      refine absurd htolerates (hearly message
        { s with network := pushes ++ reply :: later, pending := rest } ?_ ?_)
      · simp only [List.length_append, List.length_cons]
        omega
      · exact sameRuns_register (.inl ⟨hpending, rfl⟩) rfl
    | nil =>
      refine ⟨rfl, ?_⟩
      cases pushes with
      | nil => rfl
      | cons message rest =>
        refine absurd htolerates (hearly message
          { s with network := rest ++ reply :: later, pending := [] } ?_ ?_)
        · simp only [List.length_append, List.length_cons]
          omega
        · exact sameRuns_register (.inr ⟨hpending, rfl, rfl⟩) rfl
  · rintro ⟨hpending, rfl⟩
    refine ⟨[], by rw [hpending]; exact kept_nil, ?_⟩
    exact sameRuns_register (.inr ⟨hpending, rfl, rfl⟩) rfl

/-- A loop that keeps the snapshots but not the connect signals. -/
lemma kept_snapshots_iff (hpushes : ∀ message ∈ pushes, isPush message = true) :
    Kept s.pending pushes ((pushes.filter isSnapshot).foldl enqueuePending s.pending) ↔
      ∀ message ∈ pushes, isSnapshot message = true := by
  constructor
  · intro hkept
    have hfiltered : Kept s.pending (pushes.filter isSnapshot)
        ((pushes.filter isSnapshot).foldl enqueuePending s.pending) :=
      kept_foldl fun message hmessage => hpushes message (List.mem_filter.1 hmessage).1
    have hnone : (pushes.filter isSnapshot).filter isConnectSignal = [] := by
      rw [List.filter_eq_nil_iff]
      intro message hmessage
      simp [not_isConnectSignal (List.mem_filter.1 hmessage).2]
    have hsignals : pushes.filter isConnectSignal = [] := by
      have heq := hkept.signals.symm.trans hfiltered.signals
      rw [hnone] at heq
      exact List.append_cancel_left heq
    intro message hmessage
    have hnot := List.filter_eq_nil_iff.1 hsignals message hmessage
    simpa [isPush, hnot] using hpushes message hmessage
  · intro hall
    rw [List.filter_eq_self.2 hall]
    exact kept_foldl hpushes

/-- The loops of `lookup_peer` and `list_peers`. -/
structure DropsSignals {α : Type} (handling : ControlMessage → Handling α) : Prop where
  snapshot : ∀ message, isSnapshot message = true → handling message = .enqueue
  signal : ∀ message, isConnectSignal message = true → handling message = .drop
  reply : ∀ message, isPush message = false →
    (∃ a, handling message = .answer a) ∨ ∃ error, handling message = .refuse error

lemma dropsSignals_onPeerInfo : DropsSignals onPeerInfo where
  snapshot message h := by cases message <;> first | rfl | cases h
  signal message h := by cases message <;> first | rfl | cases h
  reply message h := by
    cases message <;> first | exact .inl ⟨_, rfl⟩ | exact .inr ⟨_, rfl⟩ | cases h

lemma dropsSignals_onListPeers : DropsSignals onListPeers where
  snapshot message h := by cases message <;> first | rfl | cases h
  signal message h := by cases message <;> first | rfl | cases h
  reply message h := by
    cases message <;> first | exact .inl ⟨_, rfl⟩ | exact .inr ⟨_, rfl⟩ | cases h

lemma sameRuns_dropsSignals {α : Type} {handling : ControlMessage → Handling α}
    (h : DropsSignals handling) (request : String)
    (hpushes : ∀ message ∈ pushes, isPush message = true) (hreply : isPush reply = false)
    (hfuel : pushes.length < fuel) :
    SameRuns (inTime suite peer) (awaitReply request handling fuel).run
      { s with network := pushes ++ reply :: later } (handling reply).result.run
      { s with
        network := later
        pending := (pushes.filter isSnapshot).foldl enqueuePending s.pending } := by
  have hhandled : ∀ message ∈ pushes, isSnapshot message = true ∧ handling message = .enqueue ∨
      isSnapshot message = false ∧ handling message = .drop := by
    intro message hmessage
    cases hsnapshot : isSnapshot message with
    | true => exact .inl ⟨rfl, h.snapshot message hsnapshot⟩
    | false =>
      have hpush := hpushes message hmessage
      exact .inr ⟨rfl, h.signal message (by simpa [isPush, hsnapshot] using hpush)⟩
  have hfilter : pushes.filter (fun message => (handling message).keeps) = pushes.filter isSnapshot := by
    refine List.filter_congr fun message hmessage => ?_
    rcases hhandled message hmessage with ⟨hsnapshot, heq⟩ | ⟨hsnapshot, heq⟩ <;>
      rw [heq, hsnapshot] <;> rfl
  rw [← hfilter]
  exact sameRuns_awaitReply (h.reply reply hreply) pushes
    (fun message hmessage => (hhandled message hmessage).imp And.right And.right) fuel s hfuel

/-- **A call that drops connect signals** tolerates pushes as long as there are none. -/
theorem tolerates_iff_of_sameRuns {call : ClientCall}
    (hpushes : ∀ message ∈ pushes, isPush message = true)
    (hruns : SameRuns (inTime suite peer) (call.program suite peer fuel).run
      { s with network := pushes ++ reply :: later } (call.conclude suite peer reply).run
      { s with
        network := later
        pending := (pushes.filter isSnapshot).foldl enqueuePending s.pending }) :
    call.Tolerates suite peer fuel s pushes reply later ↔
      ∀ message ∈ pushes, isSnapshot message = true := by
  rw [← kept_snapshots_iff hpushes]
  constructor
  · intro htolerates
    obtain ⟨queue, hkept, heq⟩ := htolerates.state (clockOnly_conclude call reply) hruns
    have hqueue : (pushes.filter isSnapshot).foldl enqueuePending s.pending = queue :=
      congrArg RuntimeState.pending heq
    rwa [hqueue]
  · intro hkept
    exact ⟨_, hkept, hruns⟩

lemma requestSnapshot_tolerates (hpushes : ∀ message ∈ pushes, isPush message = true)
    (hreply : isPush reply = false) (hfuel : pushes.length < fuel) :
    ClientCall.requestSnapshot.Tolerates suite peer fuel s pushes reply later := by
  have hkeep : ∀ message ∈ pushes, onSnapshotResponse message = .enqueue := by
    intro message hmessage
    have hpush := hpushes message hmessage
    cases message <;> first | rfl | cases hpush
  have hanswer : (∃ a, onSnapshotResponse reply = .answer a) ∨
      ∃ error, onSnapshotResponse reply = .refuse error := by
    cases reply <;> first | exact .inl ⟨_, rfl⟩ | exact .inr ⟨_, rfl⟩ | cases hreply
  have hfilter : pushes.filter (fun message => (onSnapshotResponse message).keeps) = pushes := by
    refine List.filter_eq_self.2 fun message hmessage => ?_
    rw [hkeep message hmessage]
    rfl
  refine ⟨_, kept_foldl hpushes, sameRuns_send.trans ?_⟩
  have hruns := @sameRuns_awaitReply suite peer _ onSnapshotResponse "request snapshot" reply later hanswer
    pushes (fun message hmessage => .inl (hkeep message hmessage)) fuel s hfuel
  rwa [hfilter] at hruns

lemma call_tolerates_iff (call : ClientCall) (hpushes : ∀ message ∈ pushes, isPush message = true)
    (hreply : isPush reply = false) (hfuel : pushes.length < fuel) :
    call.Tolerates suite peer fuel s pushes reply later ↔ call.Undisturbed s.pending pushes := by
  cases call with
  | register token candidates => exact register_tolerates_iff
  | requestSnapshot => exact iff_of_true (requestSnapshot_tolerates hpushes hreply hfuel) trivial
  | lookupPeer nodeId =>
    refine tolerates_iff_of_sameRuns hpushes (sameRuns_send.trans ?_)
    exact (sameRuns_dropsSignals dropsSignals_onPeerInfo "lookup peer" hpushes hreply hfuel).bind _
  | listPeers =>
    refine tolerates_iff_of_sameRuns hpushes (sameRuns_send.trans ?_)
    exact sameRuns_dropsSignals dropsSignals_onListPeers "list peers" hpushes hreply hfuel

end Tolerance

/-- **When the calls of the client tolerate pushes.**  For every order in which snapshots and connect
signals are pushed before the reply: the call returns what its reply determines and keeps every connect
signal and the newest snapshot, exactly if it is `request_snapshot`, or `lookup_peer` or `list_peers`
and no connect signal was pushed, or `register` and nothing was pushed. -/
theorem client_call_tolerates_iff (suite : Suite) (peer : Peer) (fuel : ℕ) (call : ClientCall)
    (s : RuntimeState (List ControlMessage)) (pushes : List ControlMessage) (reply : ControlMessage)
    (later : List ControlMessage) (hpushes : ∀ message ∈ pushes, isPush message = true)
    (hreply : isPush reply = false) (hfuel : pushes.length < fuel) :
    call.Tolerates suite peer fuel s pushes reply later ↔ call.Undisturbed s.pending pushes :=
  call_tolerates_iff call hpushes hreply hfuel

/-- **What is kept is not lost**: `recv` yields the queue, in its order, before it waits for the connection. -/
theorem recv_yields (suite : Suite) (peer : Peer) (queue : List ControlMessage)
    (s : RuntimeState (List ControlMessage)) (hqueue : s.pending = queue) :
    SameRuns (inTime suite peer)
      (collect (fun _ : ControlMessage => CoordinationClient.recv.run) queue) s
      (.ret (queue.map .ok)) { s with pending := [] } := by
  induction queue generalizing s with
  | nil =>
    cases s
    cases hqueue
    exact .refl _ _
  | cons message queue ih =>
    have hpop : SameRuns (inTime suite peer) CoordinationClient.recv.run s (.ret (.ok message))
        { s with pending := queue } := by
      intro Q
      constructor
      · intro h
        exact h (demoEnv 0) (some message) _ (by simp [inTime, demoEnv, exec, hqueue])
      · intro h e r s' he
        unfold inTime at he
        split at he
        · cases he
        · simp only [exec, hqueue, List.head?_cons, List.tail_cons, Option.some.injEq, Prod.mk.injEq] at he
          obtain ⟨rfl, rfl⟩ := he
          exact h
    refine (hpop.bind _).trans ?_
    exact ((ih { s with pending := queue } rfl).bind _).trans (.refl _ _)

def demoPushes : List ControlMessage :=
  [.connectSignal
    { nodeId := Core.demoRef.nodeId, incarnation := 1, signingPublic := "", noisePublic := ""
      candidates := [], virtualIpv4 := none, virtualIpv6 := none, credential := "", capabilities := [] }
    (demoPeer.node.nodeId demoSuite),
    .snapshot demoFirst]

theorem requestSnapshot_tolerates_both :
    ClientCall.requestSnapshot.Tolerates demoSuite demoPeer 3 (demoState []) demoPushes
      (.snapshotResponse demoSecond) [] :=
  (client_call_tolerates_iff demoSuite demoPeer 3 .requestSnapshot (demoState []) demoPushes _ []
    (by simp [demoPushes, isPush, isSnapshot, isConnectSignal]) rfl (by decide)).2 trivial

/-- The coordinator pushes a snapshot before `RegisterOk`: the registration fails. -/
theorem register_refuses_push :
    ¬ ∀ (suite : Suite) (peer : Peer) (fuel : ℕ) (call : ClientCall)
      (s : RuntimeState (List ControlMessage)) (pushes : List ControlMessage) (reply : ControlMessage)
      (later : List ControlMessage), (∀ message ∈ pushes, isPush message = true) →
      isPush reply = false → pushes.length < fuel →
      call.Tolerates suite peer fuel s pushes reply later := by
  intro h
  have htolerates := h demoSuite demoPeer 2 (.register none []) (demoState []) [.snapshot demoFirst]
    (.registerOk "xxxxx" [] demoFirst) [] (by simp [isPush, isSnapshot]) rfl (by decide)
  exact absurd (register_tolerates_iff.1 htolerates).2 (by simp)

end Vela.Runtime
