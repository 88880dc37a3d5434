import Vela.Core.Footprint

/-!
# Inbound packets

What is known of an IP packet that the node hands to the application.

* `ipPacket_authentic` — what is known of every packet handed over, and `ipPacket_spoofed`, what is
  not.
-/

namespace Vela.Core

open Vela.Proto Vela.Crypto Vela.Ip Prog

variable {suite : Suite} {node : Node}

/-! ### Where packets come from -/

section Origin

variable (contexts : PeerRef → UInt64 → SessionCipher → Prop) (packets : List DataPacket)

/-- `contexts p sessionId cipher`: this cipher was found for this peer and session id. -/
def DataDecryptJob.Of (job : DataDecryptJob) : Prop :=
  job.packet ∈ packets ∧ contexts job.peer job.packet.header.sessionId job.cipher

def Decrypted.Of (suite : Suite) (d : Decrypted) : Prop :=
  ∃ packet ∈ packets, ∃ cipher, contexts d.peer packet.header.sessionId cipher ∧ d.key = cipher.rx ∧
    decryptPacket suite cipher packet = .ok d.packet

/-- The packet is the plaintext of one of `packets` under the cipher of its session. -/
def Parsed.Of (suite : Suite) (x : Parsed) : Prop :=
  ∃ packet ∈ packets, ∃ cipher, contexts x.peer packet.header.sessionId cipher ∧ x.key = cipher.rx ∧
    x.header = packet.header ∧
    cipher.decrypt suite packet.header.sequence (encodedHeader packet.header) packet.payload =
      .ok x.ipPacket.bytes

variable {contexts packets}

lemma Decrypted.Of.parse {d : Decrypted} (h : d.Of contexts packets suite) {x : Parsed}
    (hx : d.parse = .ok x) : x.Of contexts packets suite := by
  obtain ⟨packet, hpacket, cipher, hcontext, hkey, hdecrypt⟩ := h
  unfold decryptPacket at hdecrypt
  split at hdecrypt
  · cases hdecrypt
  rename_i plaintext hplain
  have hpayload := Except.ok.inj hdecrypt
  unfold Decrypted.parse at hx
  split at hx
  · cases hx
  rename_i ip hparse
  obtain rfl := Except.ok.inj hx
  rw [← hpayload] at hparse ⊢
  refine ⟨packet, hpacket, cipher, hcontext, hkey, rfl, ?_⟩
  rw [hplain]
  exact congrArg _ (IpPacket.bytes_of_parse hparse).symm

lemma decryptJobs_of {jobs : List DataDecryptJob} (h : ∀ job ∈ jobs, job.Of contexts packets) :
    (decryptJobs suite jobs).Within Calm fun ds => ∀ d ∈ ds, d.Of contexts packets suite := by
  induction jobs with
  | nil => exact List.forall_mem_nil _
  | cons job jobs ih =>
    have ih := ih fun job hjob => h job (.tail _ hjob)
    unfold decryptJobs
    split
    · exact ⟨trivial, fun _ => ih⟩
    · rename_i packet hpacket
      refine Within.bind ih fun ds hds => ?_
      obtain ⟨hmem, hcontext⟩ := h job (.head _)
      exact List.forall_mem_cons.2 ⟨⟨job.packet, hmem, job.cipher, hcontext, rfl, hpacket⟩, hds⟩

lemma awaitParts_of {parts : List (List DataDecryptJob)}
    (h : ∀ part ∈ parts, ∀ job ∈ part, job.Of contexts packets) :
    (awaitParts suite parts).run.Within Calm
      (Returns fun ds => ∀ d ∈ ds, d.Of contexts packets suite) := by
  induction parts with
  | nil => exact List.forall_mem_nil _
  | cons part parts ih =>
    have ih := ih fun part hpart => h part (.tail _ hpart)
    refine ⟨trivial, fun failed => ?_⟩
    cases failed with
    | some text => trivial
    | none =>
      have hpart := h part (.head _)
      refine Within.bindReturns (Within.lift (decryptJobs_of hpart)) fun first hfirst => ?_
      refine Within.bindReturns ih fun rest hrest => ?_
      exact List.forall_mem_append.2 ⟨hfirst, hrest⟩

lemma parseBatch_of {ds : List Decrypted} (h : ∀ d ∈ ds, d.Of contexts packets suite) :
    (parseBatch ds).Within Calm fun xs => ∀ x ∈ xs, x.Of contexts packets suite := by
  induction ds with
  | nil => exact List.forall_mem_nil _
  | cons d ds ih =>
    have ih := ih fun d hd => h d (.tail _ hd)
    unfold parseBatch
    split
    · exact ⟨trivial, fun _ => ih⟩
    · rename_i x hx
      refine Within.bind ih fun xs hxs => ?_
      exact List.forall_mem_cons.2 ⟨(h d (.head _)).parse hx, hxs⟩

end Origin

lemma keepLocal_zip (committed : List (Parsed × Committed)) (isLocal : List Bool) :
    (keepLocal committed isLocal).Within Calm fun kept =>
      ∀ entry ∈ kept, (entry, true) ∈ committed.zip isLocal := by
  induction committed generalizing isLocal with
  | nil => exact List.forall_mem_nil _
  | cons entry committed ih =>
    cases isLocal with
    | nil => exact List.forall_mem_nil _
    | cons b isLocal =>
      cases b with
      | true =>
        refine Within.bind (ih isLocal) fun kept hkept => ?_
        refine List.forall_mem_cons.2 ⟨List.mem_cons_self .., fun entry hentry => ?_⟩
        exact .tail _ (hkept entry hentry)
      | false =>
        refine ⟨trivial, fun _ => (ih isLocal).mono (fun _ h => h) fun kept hkept entry hentry => ?_⟩
        exact .tail _ (hkept entry hentry)

lemma mem_of_mem_committedOf {run : List Parsed} {results : List (Option Committed)}
    {entry : Parsed × Committed} (h : entry ∈ committedOf run results) : entry.1 ∈ run := by
  obtain ⟨pair, hpair, hentry⟩ := List.mem_filterMap.1 h
  obtain ⟨committed, -, rfl⟩ := Option.map_eq_some_iff.1 hentry
  exact (List.of_mem_zip hpair).1

/-! ### What the receive path does -/

/-- The sections of the receive path before a packet is delivered. -/
def Tame : Section → Prop
  | .peer _ (.takeActive _) | .peer _ (.commitRun _ _ _) => True
  | .removeSession _ _ | .sessionCipher _ _ => True
  | c => Calm c

/-- What the receive path does to the node: it may deliver packets that satisfy `P`, end sessions and
use them, but starts none. -/
structure Received (P : Delivery → Prop) (s s' : NodeState) : Prop where
  routes : s'.routes = s.routes
  delivered : ∃ new : List Delivery, s'.delivered = new ++ s.delivered ∧
    s'.ipPackets = new.map (fun d => (d.peer, d.packet)) ++ s.ipPackets ∧ ∀ d ∈ new, P d
  sessions : ∀ id p, s'.sessions.lookup id = some p → s.sessions.lookup id = some p
  membership : ∀ p, (s'.heap p).membershipExpiresAt = (s.heap p).membershipExpiresAt
  active : ∀ p b, (s'.heap p).active = some b → ∃ a, (s.heap p).active = some a ∧ a.Continues b

namespace Received

variable {P : Delivery → Prop} {s s' s'' : NodeState}

lemma silent (hroutes : s'.routes = s.routes) (hdelivered : s'.delivered = s.delivered)
    (hpackets : s'.ipPackets = s.ipPackets)
    (hsessions : ∀ id p, s'.sessions.lookup id = some p → s.sessions.lookup id = some p)
    (hmembership : ∀ p, (s'.heap p).membershipExpiresAt = (s.heap p).membershipExpiresAt)
    (hactive : ∀ p b, (s'.heap p).active = some b →
      ∃ a, (s.heap p).active = some a ∧ a.Continues b) : Received P s s' :=
  ⟨hroutes, ⟨[], hdelivered, hpackets, List.forall_mem_nil _⟩, hsessions, hmembership, hactive⟩

lemma refl (s : NodeState) : Received P s s :=
  silent rfl rfl rfl (fun _ _ h => h) (fun _ => rfl) fun _ b h => ⟨b, h, .refl b⟩

lemma trans (h : Received P s s') (h' : Received P s' s'') : Received P s s'' := by
  obtain ⟨new, hnew, hevents, hP⟩ := h.delivered
  obtain ⟨new', hnew', hevents', hP'⟩ := h'.delivered
  refine ⟨h'.routes.trans h.routes, ⟨new' ++ new, ?_, ?_, List.forall_mem_append.2 ⟨hP', hP⟩⟩,
    fun id p hp => h.sessions id p (h'.sessions id p hp),
    fun p => (h'.membership p).trans (h.membership p), fun p c hc => ?_⟩
  · rw [hnew', hnew, List.append_assoc]
  · rw [hevents', hevents, List.map_append, List.append_assoc]
  · obtain ⟨b, hb, hcont⟩ := h'.active p c hc
    obtain ⟨a, ha, hcont'⟩ := h.active p b hb
    exact ⟨a, ha, hcont'.trans hcont⟩

lemma mono {P' : Delivery → Prop} (h : Received P s s') (hP : ∀ d, P d → P' d) :
    Received P' s s' := by
  obtain ⟨new, hnew, hevents, hd⟩ := h.delivered
  exact ⟨h.routes, ⟨new, hnew, hevents, fun d hmem => hP d (hd d hmem)⟩, h.sessions, h.membership,
    h.active⟩

lemma of_calmly (h : Calmly s s') : Received P s s' := by
  refine silent h.routes h.delivered h.ipPackets (fun id p hp => by rwa [← h.sessions])
    (fun p => (h.peer p).membership) fun p b hb => ?_
  obtain ⟨a, ha, hunused⟩ := (h.peer p).session hb
  exact ⟨a, ha, hunused.toContinues⟩

lemma setPeer {p : PeerRef} {peer : PeerState}
    (hmembership : peer.membershipExpiresAt = (s.heap p).membershipExpiresAt)
    (hactive : ∀ b, peer.active = some b → ∃ a, (s.heap p).active = some a ∧ a.Continues b) :
    Received P s (s.setPeer p peer) := by
  refine silent rfl rfl rfl (fun _ _ h => h) (fun q => ?_) fun q => ?_
  all_goals
    by_cases hq : q = p
    · subst hq
      simpa [NodeState.setPeer] using by assumption
  · simp [NodeState.setPeer, hq]
  · simpa [NodeState.setPeer, hq] using fun b hb => ⟨b, hb, .refl b⟩

lemma removeSession (p : PeerRef) (id : UInt64) : Received P s (s.removeSession p id) := by
  unfold NodeState.removeSession
  split
  · refine silent rfl rfl rfl (fun id' q hq => ?_) (fun _ => rfl) fun _ b hb => ⟨b, hb, .refl b⟩
    by_cases hid : id' = id
    · subst hid
      simp at hq
    · simpa [AList.lookup_erase_ne hid] using hq
  · exact refl s

end Received

lemma tame_step {P : Delivery → Prop} {e : Env} {s s' : NodeState} {c : Section} (hc : Tame c)
    {r : Response c} (h : exec suite node e c s = some (r, s')) : Received P s s' := by
  have hcalm : Calm c → Received P s s' := fun hcalm => .of_calmly (calm_step hcalm h)
  cases c with
  | peer p op =>
    obtain ⟨-, rfl⟩ := exec_peer h
    refine .setPeer ((performPeer_frame op).membership ?_) fun b hb => performPeer_continues hb
    cases op <;> first | rfl | exact hc.elim
  | removeSession p id =>
    cases h
    exact .removeSession p id
  | sessionCipher p id =>
    obtain rfl : (s.sessionCipher p id).2 = s' := congrArg Prod.snd (Option.some.inj h)
    unfold NodeState.sessionCipher
    split
    · split
      · exact .refl s
      · exact .removeSession p id
    · exact .removeSession p id
  | _ => exact hcalm hc

lemma tame_wp {P : Delivery → Prop} {α : Type} {p : Task α} {post : α → Prop}
    (h : p.Within Tame post) {s₀ s : NodeState} (hs : Received P s₀ s) :
    p.wp (exec suite node) (fun a s => Received P s₀ s ∧ post a) s :=
  h.wp (fun _ _ _ _ _ hc hs he => hs.trans (tame_step hc he)) hs

lemma tame_calm {c : Section} (h : Calm c) : Tame c := by
  cases c with
  | peer p op => cases op <;> first | exact h | trivial
  | _ => first | exact h | trivial

lemma tame_of_calm {α : Type} {p : Task α} {post : α → Prop} (h : p.Within Calm post) :
    p.Within Tame post :=
  h.mono (fun _ => tame_calm) fun _ ha => ha

lemma invalidateSession_tame (p : PeerRef) (request : Bool) :
    (invalidateSession p request).Within Tame fun _ => True := by
  refine holds_invalidateSessionIf (D := Discipline.within Response Tame) (fun c hc => ?_)
    (fun p expected => ⟨trivial, fun _ => trivial⟩) (fun p id => ⟨trivial, fun _ => trivial⟩)
    (fun nodeId => ⟨trivial, fun _ => trivial⟩) p none request
  exact tame_of_calm ⟨hc.calm, fun _ => trivial⟩

/-! ### Decryption contexts -/

/-- The cipher is that of the session `id` of `p`, which the map of sessions leads to, and the
credential of `p` has not expired. -/
structure Context (node : Node) (s : NodeState) (now : UInt64) (p : PeerRef) (id : UInt64)
    (cipher : SessionCipher) : Prop where
  entry : s.sessions.lookup id = some p
  current : node.config.serverPublicKey.isSome → ¬ (s.heap p).membershipExpiresAt ≤ now
  session : ∃ session, (s.heap p).active = some session ∧ session.sessionId = id ∧
    session.cipher = cipher

lemma Context.before {P : Delivery → Prop} {s₀ s : NodeState} {now : UInt64} {p : PeerRef}
    {id : UInt64} {cipher : SessionCipher} (hs : Received P s₀ s) (h : Context node s now p id cipher) :
    Context node s₀ now p id cipher := by
  obtain ⟨session, hactive, hid, hcipher⟩ := h.session
  obtain ⟨session₀, hactive₀, hcont⟩ := hs.active p session hactive
  refine ⟨hs.sessions id p h.entry, fun hkey => ?_, session₀, hactive₀, ?_, ?_⟩
  · rw [← hs.membership p]
    exact h.current hkey
  · rw [← hcont.sessionId, hid]
  · rw [← hcont.cipher, hcipher]

lemma context_wp {P : Delivery → Prop} {s₀ s : NodeState} (hs : Received P s₀ s) (id now : UInt64) :
    (dataDecryptContextAt node id now).run.wp (exec suite node) (fun r s' => Received P s₀ s' ∧
      Returns (fun found => ∀ p cipher, found = some (p, cipher) →
        Context node s₀ now p id cipher) r) s := by
  refine wp_bindExcept (wp_lift fun e found s' h => ?_)
  cases h
  cases hentry : s.sessions.lookup id with
  | none => exact ⟨hs, nofun⟩
  | some p =>
    -- the check of the credential does not change the state
    have hcipher : (node.config.serverPublicKey.isSome → ¬ (s.heap p).membershipExpiresAt ≤ now) →
        (do let cipher ← lift (call (.sessionCipher p id))
            return cipher.map fun cipher => (p, cipher) :
          NodeM CoreError (Option (PeerRef × SessionCipher))).run.wp (exec suite node)
          (fun r s' => Received P s₀ s' ∧ Returns (fun found => ∀ p cipher,
            found = some (p, cipher) → Context node s₀ now p id cipher) r) s := by
      intro hcurrent e found s' h
      refine ⟨hs.trans (tame_step (c := .sessionCipher p id) trivial h), fun q cipher hq => ?_⟩
      obtain ⟨cipher, rfl, hpair⟩ := Option.map_eq_some_iff.1 hq
      cases hpair
      refine Context.before hs ⟨hentry, hcurrent, ?_⟩
      have hfound : (s.sessionCipher p id).1 = some cipher := congrArg Prod.fst (Option.some.inj h)
      unfold NodeState.sessionCipher at hfound
      split at hfound
      · rename_i session hactive
        split at hfound
        · exact ⟨session, hactive, ‹_›, Option.some.inj hfound⟩
        · cases hfound
      · cases hfound
    dsimp only
    split
    · refine wp_bindExcept (wp_lift fun e expired s' h => ?_)
      cases h
      have hsame : s.setPeer p (s.heap p) = s := by simp [NodeState.setPeer]
      dsimp only [performPeer, Prog.wp]
      rw [hsame]
      split
      · refine wp_bindExcept (wp_lift ?_)
        refine wp_mono (fun _ s' h => ?_) (tame_wp (invalidateSession_tame p true) hs)
        exact ⟨h.1, trivial⟩
      · rename_i hexpired
        exact hcipher fun _ => by simpa using hexpired
    · rename_i hkey
      exact hcipher fun h => absurd h hkey

/-! ### Deliveries -/

/-- A delivery that is due to `packet`: it is the plaintext of the packet under the session that the
packet's id leads to, it goes under the name of the peer of that session, and its destination is one
of the local addresses.  Nothing is said of its source address, since nothing is checked. -/
structure Delivery.Accepted (suite : Suite) (node : Node) (s : NodeState) (now : UInt64)
    (packet : DataPacket) (p : PeerRef) (d : Delivery) : Prop where
  peer : d.peer = p.nodeId
  session : ∃ cipher, Context node s now p packet.header.sessionId cipher ∧ d.key = cipher.rx ∧
    cipher.decrypt suite packet.header.sequence (encodedHeader packet.header) packet.payload =
      .ok d.packet.bytes
  sequence : d.sequence = packet.header.sequence
  destination : s.routes.isLocal d.packet.destination = true

/-- A delivery that is due to one of `packets`. -/
def AcceptedFrom (suite : Suite) (node : Node) (s : NodeState) (now : UInt64)
    (packets : List DataPacket) (d : Delivery) : Prop :=
  ∃ packet ∈ packets, ∃ p, d.Accepted suite node s now packet p

lemma Parsed.Of.accepted {s : NodeState} {now : UInt64} {packets : List DataPacket} {x : Parsed}
    (h : x.Of (Context node s now) packets suite)
    (hlocal : s.routes.isLocal x.ipPacket.destination = true) :
    AcceptedFrom suite node s now packets x.delivery := by
  obtain ⟨packet, hpacket, cipher, hcontext, hkey, hheader, hdecrypt⟩ := h
  refine ⟨packet, hpacket, x.peer, rfl, ⟨cipher, hcontext, hkey, hdecrypt⟩, ?_, hlocal⟩
  exact congrArg Header.sequence hheader

section Commit

variable {P : Delivery → Prop} {s₀ s : NodeState}

lemma deliver_step {e : Env} {d : Delivery} (hd : P d) {taken : Bool} {s' : NodeState}
    (h : exec suite node e (.deliver d) s = some (taken, s')) : Received P s s' := by
  cases h
  split
  · exact ⟨rfl, ⟨[d], rfl, rfl, List.forall_mem_singleton.2 hd⟩, fun _ _ h => h, fun _ => rfl,
      fun _ b hb => ⟨b, hb, .refl b⟩⟩
  · exact .refl s

lemma acceptPacket_wp (hs : Received P s₀ s) {x : Parsed} (hx : P x.delivery)
    (committed : Committed) :
    (acceptPacket node x committed).wp (exec suite node) (fun _ s' => Received P s₀ s') s := by
  let D := Discipline.within Response fun c => Tame c ∨ c = .deliver x.delivery
  have hwithin : D.holds (acceptPacket node x committed) :=
    holds_acceptPacket (D := D) (fun c hc => ⟨.inl (tame_calm hc.calm), fun _ => trivial⟩)
      ⟨.inr rfl, fun _ => trivial⟩ committed
  refine wp_mono (fun _ _ h => h.1) (Within.wp ?_ hwithin hs)
  rintro c e s r s' (hc | rfl) hs he
  · exact hs.trans (tame_step hc he)
  · exact hs.trans (deliver_step hx he)

variable {now : UInt64} {packets : List DataPacket}

lemma commitIpData_wp {d : Decrypted} (hd : d.Of (Context node s₀ now) packets suite)
    (hs : Received (AcceptedFrom suite node s₀ now packets) s₀ s) :
    (commitIpData node d).run.wp (exec suite node)
      (fun _ s' => Received (AcceptedFrom suite node s₀ now packets) s₀ s') s := by
  unfold commitIpData
  split
  · intro e r s' he
    exact hs.trans (tame_step (c := .peer d.peer (.count .ipParseFailures)) trivial he)
  rename_i x hx
  have hx := hd.parse hx
  refine wp_bindExcept (wp_lift fun e result s' he => ?_)
  have hs := hs.trans (tame_step (c := .peer d.peer (.commitRun _ _ _)) trivial he)
  dsimp only [Prog.wp]
  split
  · rename_i committed
    refine wp_bindExcept (wp_lift fun e isLocal s'' he => ?_)
    cases he
    dsimp only [Prog.wp]
    split
    · rename_i hlocal
      refine wp_lift (acceptPacket_wp hs (hx.accepted ?_) committed)
      rw [← hs.routes]
      simpa using hlocal
    · intro e r s' he
      exact hs.trans (tame_step (c := .peer x.peer (.count .invalidDestinations)) trivial he)
  · exact hs

lemma inline_wp {packet : DataPacket} (hpacket : packet ∈ packets)
    (hs : Received (AcceptedFrom suite node s₀ now packets) s₀ s) :
    (decryptDataInlineAt suite node packet now).run.wp (exec suite node)
      (fun _ s' => Received (AcceptedFrom suite node s₀ now packets) s₀ s') s := by
  refine wp_bindExcept (wp_mono (fun r s' h => ?_) (context_wp hs _ _))
  obtain ⟨hs, hcontext⟩ := h
  cases r with
  | error error => exact hs
  | ok found =>
    cases found with
    | none =>
      intro e r s'' he
      exact hs.trans (tame_step (c := .count .unassociatedDataDatagrams 1) trivial he)
    | some found =>
      obtain ⟨p, cipher⟩ := found
      refine wp_bindExcept (wp_lift fun e r s'' he => ?_)
      have hs := hs.trans (tame_step (c := .peer p (.count .workerDataPackets)) trivial he)
      dsimp only [Prog.wp]
      split
      · intro e r s' he
        exact hs.trans (tame_step (c := .peer p (.count .decryptFailures)) trivial he)
      · rename_i decrypted hdecrypted
        exact commitIpData_wp ⟨packet, hpacket, cipher, hcontext p cipher rfl, rfl,
          hdecrypted⟩ hs

lemma collectJobs_wp {contexts : Contexts} (hs : Received P s₀ s)
    (hcontexts : ∀ id p cipher, contexts.lookup id = some (some (p, cipher)) →
      Context node s₀ now p id cipher) :
    (collectJobs node now contexts packets).wp (exec suite node) (fun jobs s' => Received P s₀ s' ∧
      ∀ job ∈ jobs, job.Of (Context node s₀ now) packets) s := by
  induction packets generalizing contexts s with
  | nil => exact ⟨hs, List.forall_mem_nil _⟩
  | cons packet packets ih =>
    have hmono : ∀ {jobs : List DataDecryptJob}, (∀ job ∈ jobs, job.Of (Context node s₀ now) packets) →
        ∀ job ∈ jobs, job.Of (Context node s₀ now) (packet :: packets) :=
      fun h job hjob => ⟨.tail _ (h job hjob).1, (h job hjob).2⟩
    have hfound : (batchContext node contexts packet.header.sessionId now).wp (exec suite node)
        (fun found s' => Received P s₀ s' ∧ ∀ p cipher, found = some (p, cipher) →
          Context node s₀ now p packet.header.sessionId cipher) s := by
      unfold batchContext
      split
      · rename_i found hlookup
        exact ⟨hs, fun p cipher hfound => hcontexts _ p cipher (hfound ▸ hlookup)⟩
      · refine wp_bind.2 (wp_mono (fun r s' h => ?_) (context_wp hs _ _))
        cases r with
        | ok found => exact h
        | error error => exact ⟨h.1, nofun⟩
    refine wp_bind.2 (wp_mono (fun found s' h => ?_) hfound)
    obtain ⟨hs, hcontext⟩ := h
    have hcontexts' : ∀ id p cipher, (contexts.insert packet.header.sessionId found).lookup id =
        some (some (p, cipher)) → Context node s₀ now p id cipher := by
      intro id p cipher hlookup
      by_cases hid : id = packet.header.sessionId
      · subst hid
        rw [AList.lookup_insert] at hlookup
        exact hcontext p cipher (Option.some.inj hlookup)
      · rw [AList.lookup_insert_ne hid] at hlookup
        exact hcontexts id p cipher hlookup
    cases found with
    | none =>
      intro e r s'' he
      have hs := hs.trans (tame_step (c := .count .unassociatedDataDatagrams 1) trivial he)
      exact wp_mono (fun jobs s h => ⟨h.1, hmono h.2⟩) (ih hs hcontexts')
    | some found =>
      obtain ⟨p, cipher⟩ := found
      refine wp_callBind fun e r s'' he => ?_
      have hs := hs.trans (tame_step (c := .peer p (.count .workerDataPackets)) trivial he)
      refine wp_bind.2 (wp_mono (fun jobs s h => ?_) (ih hs hcontexts'))
      refine ⟨h.1, List.forall_mem_cons.2 ⟨?_, hmono h.2⟩⟩
      exact ⟨.head _, hcontext p cipher rfl⟩

lemma commitGroup_within (run : List Parsed) :
    (commitGroup run).Within Tame fun committed => ∀ entry ∈ committed, entry.1 ∈ run := by
  unfold commitGroup
  split
  · exact List.forall_mem_nil _
  · refine ⟨trivial, fun info => ⟨trivial, fun results => ?_⟩⟩
    cases results with
    | none => exact List.forall_mem_nil _
    | some results => exact fun entry hentry => mem_of_mem_committedOf hentry

lemma isLocal_of_mem_zip {f : Parsed × Committed → Bool} {l : List (Parsed × Committed)}
    {entry : Parsed × Committed} (h : (entry, true) ∈ l.zip (l.map f)) : entry ∈ l ∧ f entry = true := by
  induction l with
  | nil => cases h
  | cons a l ih =>
    rcases List.mem_cons.1 h with h | h
    · obtain ⟨rfl, hf⟩ := Prod.mk.inj h
      exact ⟨.head _, hf.symm⟩
    · exact ⟨.tail _ (ih h).1, (ih h).2⟩

lemma commitIpDataBatch_wp {ds : List Decrypted}
    (hds : ∀ d ∈ ds, d.Of (Context node s₀ now) packets suite)
    (hs : Received (AcceptedFrom suite node s₀ now packets) s₀ s) :
    (commitIpDataBatch node ds).wp (exec suite node)
      (fun _ s' => Received (AcceptedFrom suite node s₀ now packets) s₀ s') s := by
  unfold commitIpDataBatch
  split
  · exact hs
  refine wp_bind.2 (wp_mono (fun xs s h => ?_) (tame_wp (tame_of_calm (parseBatch_of hds)) hs))
  obtain ⟨hs, hxs⟩ := h
  have hcommit : (Prog.collect commitGroup (xs.splitBy sameSession)).Within Tame fun runs =>
      ∀ run ∈ runs, ∀ entry ∈ run, entry.1 ∈ xs := by
    refine Within.collect _ _ fun run hrun => ?_
    refine (commitGroup_within run).mono (fun _ hc => hc) fun committed h entry hentry => ?_
    rw [← List.flatten_splitBy sameSession xs]
    exact List.mem_flatten.2 ⟨run, hrun, h entry hentry⟩
  refine wp_bind.2 (wp_mono (fun runs s h => ?_) (tame_wp hcommit hs))
  obtain ⟨hs, hruns⟩ := h
  refine wp_callBind fun e isLocal s' he => ?_
  cases he
  refine wp_bind.2 (wp_mono (fun kept s' h => ?_)
    (tame_wp (tame_of_calm (keepLocal_zip _ _)) hs))
  obtain ⟨hs', hkept⟩ := h
  refine wp_forM _ _ (fun entry hentry s'' hs'' => acceptPacket_wp hs'' ?_ _) hs'
  have hzip := hkept entry hentry
  rw [List.map_map] at hzip
  obtain ⟨hmem, hlocal⟩ := isLocal_of_mem_zip hzip
  obtain ⟨run, hrun, hmem⟩ := List.mem_flatten.1 hmem
  refine (hxs entry.1 (hruns run hrun entry hmem)).accepted ?_
  rw [← hs.routes]
  exact hlocal

lemma batch_wp (hs : Received (AcceptedFrom suite node s₀ now packets) s₀ s) :
    (decryptDataBatch suite node packets now).run.wp (exec suite node)
      (fun _ s' => Received (AcceptedFrom suite node s₀ now packets) s₀ s') s := by
  have hnone : ∀ id p cipher, (∅ : Contexts).lookup id = some (some (p, cipher)) →
      Context node s₀ now p id cipher := nofun
  refine wp_bindExcept (wp_lift (wp_mono (fun jobs s' h => ?_)
    (collectJobs_wp hs hnone)))
  obtain ⟨hs, hjobs⟩ := h
  have hqueue : (queueParts (chunks dataDecryptBatchSize jobs)).run.Within Tame fun _ => True :=
    holds_queueParts (D := Discipline.within Response Tame)
      (fun c hc => ⟨tame_calm hc.calm, fun _ => trivial⟩) _
  refine wp_bindExcept (wp_mono (fun r s' h => ?_) (tame_wp hqueue hs))
  obtain ⟨hs, -⟩ := h
  cases r with
  | error error => exact hs
  | ok queued =>
    have hparts : ∀ part ∈ chunks dataDecryptBatchSize jobs, ∀ job ∈ part,
        job.Of (Context node s₀ now) packets :=
      fun part hpart job hjob => hjobs job (mem_of_mem_chunks hpart hjob)
    refine wp_bindExcept (wp_mono (fun r s' h => ?_)
      (tame_wp (tame_of_calm (awaitParts_of hparts)) hs))
    obtain ⟨hs, hds⟩ := h
    cases r with
    | error error => exact hs
    | ok ds => exact wp_lift (commitIpDataBatch_wp hds hs)

lemma decryptData_wp (hs : Received (AcceptedFrom suite node s₀ now packets) s₀ s) :
    (decryptData suite node packets now).wp (exec suite node)
      (fun _ s' => Received (AcceptedFrom suite node s₀ now packets) s₀ s') s := by
  unfold decryptData
  split
  · exact wp_bind.2 (inline_wp (List.mem_singleton_self _) hs)
  · exact wp_bind.2 (batch_wp hs)

/-- Whatever a round delivers is due to a packet in the worker's queue, and to a time at which the
snapshot was current; `clock` are the times that may be read. -/
lemma dataRound_wp {E : Type} {exec' : E → (c : Section) → NodeState → Option (Response c × NodeState)}
    {clock : Set UInt64}
    (hexec : ∀ e c s x, exec' e c s = some x →
      ∃ e' : Env, e'.unixTime ∈ clock ∧ exec suite node e' c s = some x) (worker : ℕ) (s : NodeState) :
    (dataRound suite node worker).wp exec' (fun _ s' => ∃ now ∈ clock,
      Received (fun d => ¬ s.snapshotExpiresAt ≤ now ∧
        AcceptedFrom suite node s now (s.dataQueues worker) d) s s') s := by
  refine wp_callBind fun e packets s₁ he => ?_
  obtain ⟨e₁, -, he⟩ := hexec _ _ _ _ he
  have hpackets : packets ⊆ s.dataQueues worker := by
    simp only [exec] at he
    split at he
    · cases he
    · cases he
      exact List.take_subset _ _
  refine wp_callBind fun e now s₂ he₂ => ?_
  obtain ⟨e₂, hclock, he₂⟩ := hexec _ _ _ _ he₂
  cases he₂
  refine wp_callBind fun e expiresAt s₃ he₃ => ?_
  obtain ⟨e₃, -, he₃⟩ := hexec _ _ _ _ he₃
  cases he₃
  refine wp_callBind fun e _ s₄ he₄ => ?_
  obtain ⟨e₄, -, he₄⟩ := hexec _ _ _ _ he₄
  have hcalm : Calmly s s₁ := calm_step (c := .recvMany worker) trivial he
  have hs : ∀ P, Received P s s₄ := fun _ =>
    (tame_step (c := .recvMany worker) trivial he).trans
      (tame_step (c := .count .workerDataDatagrams packets.length) trivial he₄)
  split
  · exact ⟨e₂.unixTime, hclock, hs _⟩
  · rename_i hcurrent
    rw [hcalm.expiresAt] at hcurrent
    refine wp_mono (fun _ s' h => ⟨e₂.unixTime, hclock, h.mono ?_⟩) (wp_restrict
      (fun e c s x hx => (hexec e c s x hx).imp fun _ h => h.2) (decryptData_wp (hs _)))
    rintro d ⟨packet, hpacket, h⟩
    exact ⟨hcurrent, packet, hpackets hpacket, h⟩

end Commit

/-- **Inbound packets.**  Whatever is in its queue, alone or many at once, every IP packet that a data
worker hands to the application is the plaintext of a packet of the queue under the active session
that the packet's session id leads to, it is handed over under the name of that session's peer, and
its destination is one of the local addresses.  The source address may be any. -/
theorem ipPacket_authentic (suite : Suite) (node : Node) (worker : ℕ) (s : NodeState) :
    (dataRound suite node worker).wp (exec suite node) (fun _ s' =>
      ∃ new : List (NodeId × IpPacket), s'.ipPackets = new ++ s.ipPackets ∧
        ∀ peer ipPacket, (peer, ipPacket) ∈ new → ∃ packet ∈ s.dataQueues worker, ∃ p session,
          s.sessions.lookup packet.header.sessionId = some p ∧ peer = p.nodeId ∧
          (s.heap p).active = some session ∧ session.sessionId = packet.header.sessionId ∧
          session.cipher.decrypt suite packet.header.sequence (encodedHeader packet.header)
            packet.payload = .ok ipPacket.bytes ∧
          ipPacket.destination ∈ s.routes.localAddresses) s := by
  have hclock : ∀ e c s x, exec suite node e c s = some x →
      ∃ e' : Env, e'.unixTime ∈ Set.univ ∧ exec suite node e' c s = some x :=
    fun e _ _ _ h => ⟨e, trivial, h⟩
  refine wp_mono (fun _ s' h => ?_) (dataRound_wp hclock worker s)
  obtain ⟨now, -, h⟩ := h
  obtain ⟨new, -, hevents, hnew⟩ := h.delivered
  refine ⟨_, hevents, fun peer ipPacket hmem => ?_⟩
  obtain ⟨d, hd, heq⟩ := List.mem_map.1 hmem
  cases heq
  obtain ⟨-, packet, hpacket, p, haccepted⟩ := hnew d hd
  obtain ⟨cipher, hcontext, -, hdecrypt⟩ := haccepted.session
  obtain ⟨session, hactive, hid, rfl⟩ := hcontext.session
  refine ⟨packet, hpacket, p, session, hcontext.entry, haccepted.peer, hactive, hid, hdecrypt, ?_⟩
  simpa [RouteTable.isLocal] using haccepted.destination

def spoofMoves : List (Pool.Move Env Request) :=
  demoConnected ++ demoAlone 0 (.datagram (demoData demoKey 7 1 (demoIp 2 5)) demoPath) 3

def spoofEnd : {cfg // (plainPool demoSuite demoNode 3).Reachable (fun _ _ => True)
      ((plainPool demoSuite demoNode 3).initial demoState) cfg ∧ cfg.shared.ipPackets = [] ∧
      ((dataRound demoSuite demoNode 0).run (exec demoSuite demoNode) (List.replicate 12 demoEnv)
        cfg.shared).any fun result => decide (
          (result.2.ipPackets.map fun entry => (entry.1, entry.2.source)) =
            [(⟨demoBytes 1⟩, .v4 ⟨#v[10, 0, 0, 2]⟩)] ∧
          ((result.2.peers.lookup ⟨demoBytes 1⟩).map fun p => (result.2.heap p).info) =
            some (demoInfo 1))} :=
  Pool.Spec.reach (fun _ _ => true) (fun _ _ _ => trivial) spoofMoves (by decide +kernel)

/-- The application gets a packet from the peer `1` that carries the address of the peer `2`. -/
theorem ipPacket_spoofed :
    ¬ ∀ (suite : Suite) (node : Node) (fuel : ℕ) (heap : PeerRef → PeerState)
        (cfg : Pool.Config Section Response NodeState Unit),
      (plainPool suite node fuel).Reachable (fun _ _ => True)
        ((plainPool suite node fuel).initial (.new node heap)) cfg → ∀ worker,
      (dataRound suite node worker).wp (exec suite node) (fun _ s' =>
        ∃ new : List (NodeId × IpPacket), s'.ipPackets = new ++ cfg.shared.ipPackets ∧
          ∀ peer ipPacket, (peer, ipPacket) ∈ new → ∀ p, s'.peers.lookup peer = some p →
            ipPacket.source ∈ virtualAddresses (s'.heap p).info.virtualIpv4
              (s'.heap p).info.virtualIpv6) cfg.shared := by
  intro h
  obtain ⟨cfg, hreach, hbefore, hrest⟩ := spoofEnd
  obtain ⟨⟨⟨⟩, s'⟩, hround, hfacts⟩ := (Option.any_eq_true _ _).1 hrest
  obtain ⟨hafter, hinfo⟩ := of_decide_eq_true hfacts
  obtain ⟨new, hnew, hsource⟩ := wp_run (h demoSuite demoNode 3 _ cfg hreach 0) hround
  rw [hbefore, List.append_nil] at hnew
  rw [hnew] at hafter
  obtain ⟨⟨peer, ipPacket⟩, rest, rfl, hentry, -⟩ := List.map_eq_cons_iff.1 hafter
  obtain ⟨rfl, hspoofed⟩ := Prod.mk.inj hentry
  obtain ⟨p, hp, hpinfo⟩ := Option.map_eq_some_iff.1 hinfo
  have hmem := hsource _ ipPacket (List.mem_cons_self ..) p hp
  rw [hspoofed, hpinfo] at hmem
  exact absurd hmem (by decide)

end Vela.Core
