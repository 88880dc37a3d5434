import Vela.Core.Identity

/-!
# Who is at the other end of a session

Noise reports the static key of the other side: the initiator gives it before the handshake, the
responder learns it from the first message.  As responder the node compares it with nothing,
so the first message of a handshake may come from any key.  As initiator it uses the key of the
peer's record, and `apply_snapshot` may store another record before the handshake ends.
-/

namespace Vela.Core

open Vela.Proto Vela.Crypto Vela.Ip Holding Function

variable {suite : Suite} {node : Node} {fuel : ℕ}

/-- The Noise state of the attempt. -/
def PeerState.noise (peer : PeerState) : Option NoiseHandshake := peer.attempt.bind Attempt.handshake

/-- The handshake was begun with the holder of `key`. -/
structure Begun (key : Vector UInt8 32) (handshake : NoiseHandshake) : Prop where
  isInitiator : handshake.isInitiator = true
  remotePublic : handshake.remotePublic = some key

variable {handshake : NoiseHandshake} {s s' : NodeState}

lemma Begun.remoteStatic {key : Vector UInt8 32} (h : Begun key handshake) :
    handshake.remoteStatic suite = some key := by
  rw [NoiseHandshake.remoteStatic, if_pos h.isInitiator, h.remotePublic]

/-! ### The Noise state over one section -/

section Noise

variable {s s' : NodeState} {e : Env} {peer : PeerState} {handshake : NoiseHandshake}

lemma updateCandidate_noise (sessionId : UInt64) (address : SocketAddr)
    (f : PeerCandidateAttempt → PeerCandidateAttempt) :
    (updateCandidate peer sessionId address f).noise = peer.noise := by
  unfold updateCandidate
  split
  · rfl
  · rename_i attempt hattempt
    split
    · rfl
    · rw [PeerState.noise, PeerState.noise, hattempt]
      rfl

lemma performPeer_noise {op : PeerOp}
    (h : (performPeer suite node e peer op).2.noise = some handshake) : peer.noise = some handshake := by
  have hframe := @performPeer_frame suite node e peer op
  cases op with
  | takeAttempt | clearAttempt | newAttempt _ _ => cases h
  | attemptFromProbe _ _ | expireAttempt _ =>
    simp only [performPeer] at h
    split at h
    · cases h
    · exact h
  | candidateProbe _ _ _ | candidateResponse _ _ => exact (updateCandidate_noise ..).symm.trans h
  | _ => rwa [PeerState.noise, hframe.attempt rfl] at h

variable {p q : PeerRef} {info : PeerInfo} {id : UInt64} {message : List UInt8} {sender : NodeId}

lemma initiatorMessage_noise {attempt attempt' : Attempt} {payload : List UInt8}
    (h : s.initiatorMessage suite node e info attempt = .ok (payload, attempt'))
    (hnoise : attempt'.handshake = some handshake) :
    attempt.handshake = some handshake ∨ Begun info.noisePublic handshake := by
  unfold NodeState.initiatorMessage at h
  split at h
  · obtain ⟨-, rfl⟩ := Prod.mk.inj (Except.ok.inj h)
    exact .inl hnoise
  · split at h
    · cases h
    · rename_i message begun hwrite
      obtain ⟨-, rfl⟩ := Prod.mk.inj (Except.ok.inj h)
      obtain rfl := Option.some.inj hnoise
      rw [NoiseHandshake.writeMessage_ok hwrite]
      exact .inr ⟨rfl, rfl⟩

lemma initiate_noise {path : SocketAddr}
    (h : ((s.initiate suite node e q path id).2.heap p).noise = some handshake) :
    (s.heap p).noise = some handshake ∨ Begun (s.heap p).info.noisePublic handshake := by
  rcases @initiate_state suite node e s q path id with hs | ⟨_, ⟨_, hs⟩ | ⟨attempt, _, _, hattempt, hmessage, hs⟩⟩
  · rw [hs] at h
    exact .inl h
  all_goals
    rw [hs] at h
    by_cases hp : p = q
    · subst hp
      simp only [NodeState.setPeer, update_self] at h
      first
        | exact .inl h
        | rw [PeerState.noise, hattempt]
          exact initiatorMessage_noise hmessage h
    · simp only [NodeState.setPeer, update_of_ne hp] at h
      exact .inl h

lemma finishHandshake_noise
    (h : ((s.finishHandshake suite q id message sender info).2.heap p).noise = some handshake) :
    (s.heap p).noise = some handshake := by
  rcases @finishHandshake_state suite s q id message sender info with hs | ⟨attempt, hs⟩
  · rwa [hs] at h
  · rw [hs] at h
    by_cases hp : p = q
    · subst hp
      simp [NodeState.setPeer, PeerState.noise] at h
    · simpa [NodeState.setPeer, hp] using h

lemma finishHandshake_begun {finished : FinishedHandshake} {key : Vector UInt8 32}
    (h : (s.finishHandshake suite p id message sender info).1 = .ok (some finished))
    (hbegun : ∀ handshake, (s.heap p).noise = some handshake → Begun key handshake) :
    Begun key finished.handshake := by
  unfold NodeState.finishHandshake at h
  dsimp only at h
  split at h
  · cases h
  rename_i attempt hattempt
  split at h
  · cases h
  split at h
  · cases h
  rename_i handshake hhandshake
  split at h
  · cases h
  rename_i context after hread
  split at h
  · cases h
  split at h
  · cases h
  obtain rfl := Option.some.inj (Except.ok.inj h)
  have hbefore := hbegun handshake (by rw [PeerState.noise, hattempt]; exact hhandshake)
  change Begun key after
  rw [NoiseHandshake.readMessage_ok hread]
  exact ⟨hbefore.isInitiator, hbefore.remotePublic⟩

/-- **One section and a peer's Noise state.** -/
theorem noise_step {c : Section} {r : Response c} (h : exec suite node e c s = some (r, s'))
    (hnoise : (s'.heap p).noise = some handshake) :
    (s.heap p).noise = some handshake ∨
      (Begun (s.heap p).info.noisePublic handshake ∧ (s'.heap p).info = (s.heap p).info) := by
  rcases peer_frame h p with hframe | ⟨_, _, -, -, hpeer⟩
  swap
  · rw [hpeer] at hnoise
    cases hnoise
  cases c with
  | peer q op =>
    obtain ⟨-, rfl⟩ := exec_peer h
    rcases @heap_setPeer_cases s q p (performPeer suite node e (s.heap q) op).2 with ⟨rfl, hp⟩ | ⟨-, hp⟩
    · exact .inl (performPeer_noise (hp ▸ hnoise))
    · exact .inl (hp ▸ hnoise)
  | initiate q path id =>
    obtain rfl : (s.initiate suite node e q path id).2 = s' := congrArg Prod.snd (Option.some.inj h)
    exact (initiate_noise hnoise).imp_right fun hbegun => ⟨hbegun, hframe.info rfl⟩
  | finishHandshake q id message sender info =>
    obtain rfl : (s.finishHandshake suite q id message sender info).2 = s' :=
      congrArg Prod.snd (Option.some.inj h)
    exact .inl (finishHandshake_noise hnoise)
  | _ =>
    rw [PeerState.noise, hframe.attempt rfl] at hnoise
    exact .inl hnoise

end Noise

lemma next_finished {e : Env} {c : Section} {r : Response c} {γ : Holding} {p : PeerRef}
    (hexec : exec suite node e c s = some (r, s')) (h : (γ.next c r).finished = some (p, handshake)) :
    γ.finished = some (p, handshake) ∨ ∃ id message sender info finished,
      c = .finishHandshake p id message sender info ∧
      (s.finishHandshake suite p id message sender info).1 = .ok (some finished) ∧
      finished.handshake = handshake := by
  cases c with
  | establish _ _ _ _ _ _ => cases h
  | peer q op =>
    cases op with
    | takeActive expected => cases expected <;> cases r <;> exact .inl h
    | keepalive | handleData _ _ _ => cases r <;> exact .inl h
    | _ => exact .inl h
  | finishHandshake q id message sender info =>
    have hresult : (s.finishHandshake suite q id message sender info).1 = r :=
      congrArg Prod.fst (Option.some.inj hexec)
    rcases r with error | (_ | finished)
    · exact .inl h
    · exact .inl h
    · cases h
      exact .inr ⟨id, message, sender, info, finished, rfl, hresult, rfl⟩
  | _ => exact .inl h

/-! ### Runs -/

/-- What Noise reports once the node has answered the first message of a handshake. -/
def Shows (suite : Suite) (node : Node) (message : List UInt8) (key : Vector UInt8 32) : Prop :=
  ∀ entropy context, NoiseHandshake.remoteStatic suite { NoiseHandshake.responder node.identity with
    calls := [.wrote entropy context, .read message] } = some key

/-- The first messages that come with the request are among `first`: those from senders that the node, by the
order of the ids, does not begin handshakes with itself. -/
def Brings (suite : Suite) (node : Node) (first : NodeId → List UInt8 → Prop) : Request → Prop
  | .datagram input _ => ∀ packet, WirePacket.decode input = .ok packet →
      packet.header.packetType = .handshake → packet.payload.getD 0 0 = 1 →
      nodeIdLt (node.nodeId suite) ⟨arrayAt 32 packet.payload 1⟩ = false →
      first ⟨arrayAt 32 packet.payload 1⟩ (packet.payload.drop 33)
  | _ => True

/-- What the node would have to see to. -/
def Genuine (suite : Suite) (node : Node) (first : NodeId → List UInt8 → Prop) (s : NodeState)
    (φ : ℕ → Holding) : Section → Prop
  -- where a responder's session is started, the first messages that name the peer are from the key of the record
  | .establish p _ _ _ expected handshake => handshake.isInitiator = false →
      (s.heap p).active = none → (s.heap p).info = expected →
      ∀ message, first p.nodeId message → Shows suite node message expected.noisePublic
  -- a record with another key is stored while no handshake with the peer is under way
  | .peer p (.storeInfo info) => info.noisePublic ≠ (s.heap p).info.noisePublic →
      (s.heap p).noise = none ∧ ∀ t handshake, (φ t).finished ≠ some (p, handshake)
  | _ => True

def GenuineMove (suite : Suite) (node : Node) (first : NodeId → List UInt8 → Prop)
    (cfg : Pool.Config Section Response NodeState Holding) : Pool.Move Env Request → Prop
  | .spawn _ q => Brings suite node first q
  | .step t _ => ∀ c, cfg.at t = some c → Genuine suite node first cfg.shared cfg.phase c

/-- The handshakes in which the node has answered one of the first messages. -/
def Heard (node : Node) (first : NodeId → List UInt8 → Prop) (sender : NodeId) (handshake : NoiseHandshake) :
    Prop :=
  ∃ message entropy context, first sender message ∧ handshake =
    { NoiseHandshake.responder node.identity with calls := [.wrote entropy context, .read message] }

/-- Handshakes under way are with the key of the record, and sessions with the key they were made
for. -/
structure Authenticated (suite : Suite) (s : NodeState) (φ : ℕ → Holding) : Prop extends Sound s φ where
  begun : ∀ p handshake, (s.heap p).noise = some handshake →
    Begun (s.heap p).info.noisePublic handshake
  finished : ∀ t p handshake, (φ t).finished = some (p, handshake) →
    (φ t).Has p ∧ Begun (s.heap p).info.noisePublic handshake
  sessions : ∀ p session, (s.heap p).active = some session →
    session.handshake.remoteStatic suite = some session.madeFor.noisePublic

lemma authenticated_initial {heap : PeerRef → PeerState}
    (hheap : ∀ p, (heap p).active = none ∧ (heap p).attempt = none) :
    Authenticated suite (NodeState.new node heap) fun _ => Holding.start where
  toSound := sound_initial heap
  begun p handshake h := by
    rw [PeerState.noise, show ((NodeState.new node heap).heap p).attempt = none from (hheap p).2] at h
    cases h
  finished _ _ _ h := by cases h
  sessions p session h := by cases (hheap p).1.symm.trans h

lemma authenticated_spawn {φ : ℕ → Holding} (h : Authenticated suite s φ) {q : Request} {t : ℕ}
    (haccept : q.accept s = some s') :
    Authenticated suite s' (update φ t Holding.start) := by
  have hsound := sound_spawn (t := t) h.toSound haccept
  obtain ⟨spawned, rfl⟩ := accept_eq haccept
  refine ⟨hsound, h.begun, ?_, h.sessions⟩
  refine Pool.forall_update (P := fun _ (γ : Holding) => ∀ p handshake,
    γ.finished = some (p, handshake) → γ.Has p ∧ Begun (s.heap p).info.noisePublic handshake) ?_
    h.finished
  exact nofun

section Step

variable {s s' : NodeState} {φ : ℕ → Holding} {t : ℕ} {e : Env} {c : Section} {r : Response c}
  {first : NodeId → List UInt8 → Prop} {p : PeerRef}

lemma noisePublic_step (hgenuine : Genuine suite node first s φ c) (hexec : exec suite node e c s = some (r, s'))
    (hbusy : (s.heap p).noise ≠ none ∨ ∃ u handshake, (φ u).finished = some (p, handshake))
    (hallocated : p.address = s.allocated → (s'.heap p).attempt ≠ none) :
    (s'.heap p).info.noisePublic = (s.heap p).info.noisePublic := by
  cases peer_step hexec p with
  | used hinfo => rw [hinfo]
  | stored info hinfo =>
    rw [hinfo]
    by_contra hkey
    obtain ⟨hnoise, hfinished⟩ := hgenuine hkey
    rcases hbusy with hbusy | ⟨u, handshake, hbusy⟩
    · exact hbusy hnoise
    · exact hfinished u handshake hbusy
  | allocated haddress _ hattempt => exact (hallocated haddress hattempt).elim
  | established _ _ _ _ _ _ _ hinfo => rw [hinfo]

lemma authenticated_begun (h : Authenticated suite s φ) (hgenuine : Genuine suite node first s φ c)
    (hexec : exec suite node e c s = some (r, s')) (p : PeerRef) (handshake : NoiseHandshake)
    (hnoise : (s'.heap p).noise = some handshake) :
    Begun (s'.heap p).info.noisePublic handshake := by
  rcases noise_step hexec hnoise with hbefore | ⟨hbegun, hinfo⟩
  · rw [noisePublic_step hgenuine hexec (.inl (by rw [hbefore]; nofun)) fun _ hattempt => ?_]
    · exact h.begun p handshake hbefore
    · rw [PeerState.noise, hattempt] at hnoise
      cases hnoise
  · rw [hinfo]
    exact hbegun

lemma authenticated_finished (h : Authenticated suite s φ) (hgenuine : Genuine suite node first s φ c)
    (hexec : exec suite node e c s = some (r, s')) {u : ℕ} {handshake : NoiseHandshake}
    (hfinished : (φ u).finished = some (p, handshake)) :
    Begun (s'.heap p).info.noisePublic handshake := by
  obtain ⟨hhas, hbegun⟩ := h.finished u p handshake hfinished
  have haddress := h.has hhas
  rw [noisePublic_step hgenuine hexec (.inr ⟨u, handshake, hfinished⟩) fun hnew => by omega]
  exact hbegun

lemma authenticated_sessions (h : Authenticated suite s φ) (hok : (φ t).okFor (Heard node first) c)
    (hgenuine : Genuine suite node first s φ c) (hexec : exec suite node e c s = some (r, s')) (p : PeerRef)
    (session : ActiveSession) (hactive : (s'.heap p).active = some session) :
    session.handshake.remoteStatic suite = some session.madeFor.noisePublic := by
  cases peer_step hexec p with
  | used _ hsession =>
    obtain ⟨before, hbefore, hcontinues⟩ := hsession session hactive
    rw [hcontinues.handshake, hcontinues.madeFor]
    exact h.sessions p before hbefore
  | stored _ _ hsession => exact h.sessions p session (hsession ▸ hactive)
  | allocated _ hnone => cases hnone.symm.trans hactive
  | established id path cipher expected handshake hfree hexpected _ hstarted =>
    obtain rfl := Option.some.inj (hactive.symm.trans hstarted)
    change handshake.remoteStatic suite = some expected.noisePublic
    obtain ⟨-, ⟨nodeId, hmem, message, entropy, context, hfirst, rfl⟩ | hfinished⟩ := hok
    · rw [← (h.refs t nodeId p hmem).1] at hfirst
      exact hgenuine rfl hfree hexpected message hfirst entropy context
    · rw [← hexpected]
      exact (h.finished t p handshake hfinished).2.remoteStatic

lemma authenticated_step (h : Authenticated suite s φ) (hok : (φ t).okFor (Heard node first) c)
    (hgenuine : Genuine suite node first s φ c) (hexec : exec suite node e c s = some (r, s')) :
    Authenticated suite s' (update φ t ((φ t).next c r)) := by
  have hrole : (φ t).ok c := hok.mono fun _ _ ⟨_, _, _, _, h⟩ => by rw [h]; rfl
  refine ⟨sound_step h.toSound hrole hexec, authenticated_begun h hgenuine hexec, fun u => ?_,
    authenticated_sessions h hok hgenuine hexec⟩
  by_cases hut : u = t
  · subst hut
    rw [update_self]
    intro p handshake hnext
    have hhas : (φ u).Has p → ((φ u).next c r).Has p := by
      rintro ⟨nodeId, hp⟩
      exact ⟨nodeId, next_refs_subset (φ u) r hp⟩
    rcases next_finished hexec hnext with hbefore | ⟨id, message, sender, info, finished, rfl, hend, rfl⟩
    · exact ⟨hhas (h.finished u p handshake hbefore).1, authenticated_finished h hgenuine hexec hbefore⟩
    · refine ⟨hhas hok, ?_⟩
      obtain rfl : (s.finishHandshake suite p id message sender info).2 = s' :=
        congrArg Prod.snd (Option.some.inj hexec)
      rw [((finishHandshake_calmly p id message sender info).peer p).info]
      exact finishHandshake_begun hend (h.begun p)
  · rw [update_of_ne hut]
    intro p handshake hbefore
    exact ⟨(h.finished u p handshake hbefore).1, authenticated_finished h hgenuine hexec hbefore⟩

end Step

/-- **Every session is with the key of the record it was made for**, in every run where the first messages
that name a peer are from that key and a record's key is not replaced during a handshake. -/
theorem session_authenticated (suite : Suite) (node : Node) (fuel : ℕ) (heap : PeerRef → PeerState)
    (hheap : ∀ p, (heap p).active = none ∧ (heap p).attempt = none)
    (first : NodeId → List UInt8 → Prop) (cfg : Pool.Config Section Response NodeState Holding)
    (h : (nodePool suite node fuel Holding.start Holding.next).Reachable (GenuineMove suite node first)
      ((nodePool suite node fuel Holding.start Holding.next).initial (.new node heap)) cfg)
    (p : PeerRef) (session : ActiveSession) (hactive : (cfg.shared.heap p).active = some session) :
    session.handshake.remoteStatic suite = some session.madeFor.noisePublic := by
  have hserve : ∀ q, Brings suite node first q →
      (serve suite node fuel q).Meets next (okFor (Heard node first)) (fun γ _ => γ.AtRest) Holding.start := by
    refine fun q hq => holding_serve_for ?_
    rintro input source rfl packet hpacket htype hrole horder entropy context
    exact ⟨_, entropy, context, hq packet hpacket htype hrole horder, rfl⟩
  have hinv := h.invariant_rest (I := Authenticated suite) (fun _ => ⟨⟨⟩, rfl⟩) (fun _ => atRest_start) (authenticated_initial hheap)
    (fun _ _ q hq => hserve q hq) (fun _ _ _ _ _ hi _ haccept => authenticated_spawn hi haccept)
    (fun cfg t e c r s' hi hguard hat hok hexec => authenticated_step hi hok (hguard c hat) hexec)
  exact hinv.1.sessions p session hactive

section Demo

lemma demoState_fresh (p : PeerRef) :
    (demoState.heap p).active = none ∧ (demoState.heap p).attempt = none :=
  ⟨rfl, rfl⟩

/-- The node knows the peers `1` and `2`, and the holder of the key `2` begins a handshake in the name
of the peer `1`. -/
def demoImpersonated : List (Pool.Move Env Request) :=
  demoKnown ++ demoAlone 0 (.registerPeer (demoInfo 2)) 3 ++
    demoAlone 0 (.datagram (demoHello 1 2 7) demoPath) 25

def demoImpersonatedEnd : {cfg // demoPool.Reachable (fun _ _ => True) (demoPool.initial demoState) cfg ∧
      ((cfg.shared.heap demoRef).active.map fun session =>
        (session.handshake.remoteStatic demoSuite, session.madeFor.noisePublic)) =
        some (some (demoBytes 2), demoBytes 1)} :=
  Pool.Spec.reach (fun _ _ => true) (fun _ _ _ => trivial) demoImpersonated (by decide +kernel)

/-- The node has a session for the peer `1` whose other end holds the key `2`. -/
theorem session_impersonated :
    ¬ ∀ (suite : Suite) (node : Node) (fuel : ℕ) (heap : PeerRef → PeerState),
      (∀ p, (heap p).active = none ∧ (heap p).attempt = none) →
      ∀ cfg : Pool.Config Section Response NodeState Holding,
      (nodePool suite node fuel Holding.start Holding.next).Reachable (fun _ _ => True)
        ((nodePool suite node fuel Holding.start Holding.next).initial (.new node heap)) cfg →
      ∀ p session, (cfg.shared.heap p).active = some session →
      session.handshake.remoteStatic suite = some session.madeFor.noisePublic := by
  intro h
  obtain ⟨cfg, hreach, hfacts⟩ := demoImpersonatedEnd
  obtain ⟨session, hactive, hkeys⟩ := Option.map_eq_some_iff.1 hfacts
  obtain ⟨hremote, hexpected⟩ := Prod.mk.inj hkeys
  have hsame := h demoSuite demoNode 3 demoState.heap demoState_fresh cfg hreach demoRef session hactive
  rw [hremote, hexpected] at hsame
  exact absurd hsame (by decide)

def demoOwned (sender : NodeId) (message : List UInt8) : Prop := demoHash message = sender.bytes

def bringsCheck : Request → Bool
  | .datagram input _ =>
    match WirePacket.decode input with
    | .ok packet => demoHash (packet.payload.drop 33) == arrayAt 32 packet.payload 1
    | .error _ => true
  | _ => true

lemma brings_of_check {q : Request} (h : bringsCheck q = true) : Brings demoSuite demoNode demoOwned q := by
  cases q with
  | datagram input source =>
    intro packet hpacket _ _ _
    simp only [bringsCheck, hpacket] at h
    exact beq_iff_eq.1 h
  | _ => trivial

/-- The conditions of `GenuineMove`, where no record is stored. -/
def genuineCheck (cfg : Pool.Config Section Response NodeState Holding) : Pool.Move Env Request → Bool
  | .spawn _ q => bringsCheck q
  | .step t _ => (cfg.at t).all fun
    | .establish p _ _ _ expected _ => expected.noisePublic == p.nodeId.bytes
    | .peer _ (.storeInfo _) => false
    | _ => true

lemma genuineMove_of_check (cfg : Pool.Config Section Response NodeState Holding)
    (m : Pool.Move Env Request) (hm : genuineCheck cfg m = true) :
    GenuineMove demoSuite demoNode demoOwned cfg m := by
  cases m with
  | spawn t q => exact brings_of_check hm
  | step t e =>
    intro c hc
    simp only [genuineCheck, hc, Option.all_some] at hm
    cases c with
    | establish p id path cipher expected handshake =>
      intro _ _ _ message hfirst entropy context
      exact congrArg some (hfirst.trans (beq_iff_eq.1 hm).symm)
    | peer p op =>
      cases op with
      | storeInfo info => cases hm
      | _ => trivial
    | _ => trivial

def demoGenuineEnd : {cfg // demoPool.Reachable (GenuineMove demoSuite demoNode demoOwned)
      (demoPool.initial demoState) cfg ∧ (cfg.shared.heap demoRef).active.isSome} :=
  Pool.Spec.reach _ genuineMove_of_check demoConnected (by decide +kernel)

theorem session_authenticated_connected : ∃ cfg session,
    demoPool.Reachable (GenuineMove demoSuite demoNode demoOwned) (demoPool.initial demoState) cfg ∧
      (cfg.shared.heap demoRef).active = some session ∧
      session.handshake.remoteStatic demoSuite = some session.madeFor.noisePublic := by
  obtain ⟨cfg, hreach, hsome⟩ := demoGenuineEnd
  obtain ⟨session, hactive⟩ := Option.isSome_iff_exists.1 hsome
  exact ⟨cfg, session, hreach, hactive, session_authenticated demoSuite demoNode 3 demoState.heap
    demoState_fresh demoOwned cfg hreach demoRef session hactive⟩

end Demo

end Vela.Core
