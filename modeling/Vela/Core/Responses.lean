import Vela.Core.Attempts

/-!
# Responses that do not complete a handshake

The initiator takes the Noise state out of its attempt before it reads a response.  A response that is
not authentic, or that carries another context, is refused, and the state is gone.

* `refused_response` — a response that is refused leaves the attempt alone exactly if it is refused
  before the Noise message is read.
-/

namespace Vela.Core

open Vela.Proto Vela.Crypto Vela.Ip Codec Prog

variable {suite : Suite} {node : Node} {now : UInt64} {s : NodeState} {p : PeerRef}

/-! ### The Noise state -/

variable {sessionId : UInt64} {message : List UInt8} {sender : NodeId} {info : PeerInfo}

lemma finishHandshake_error {error : CoreError}
    (h : (s.finishHandshake suite p sessionId message sender info).1 = .error error) :
    ∃ attempt, (s.heap p).attempt = some attempt ∧ attempt.sessionId = sessionId ∧
      attempt.handshake.isSome ∧ (s.finishHandshake suite p sessionId message sender info).2 =
        s.setPeer p { s.heap p with attempt := some { attempt with handshake := none } } := by
  unfold NodeState.finishHandshake at h ⊢
  cases hattempt : (s.heap p).attempt with
  | none =>
    simp only [hattempt] at h
    cases h
  | some attempt =>
    simp only [hattempt] at h ⊢
    by_cases hid : attempt.sessionId = sessionId
    · rw [if_neg (not_not.2 hid)] at h ⊢
      cases hstate : attempt.handshake with
      | none =>
        simp only [hstate] at h
        cases h
      | some handshake =>
        simp only [hstate] at h ⊢
        refine ⟨attempt, rfl, hid, by rw [hstate]; rfl, ?_⟩
        -- the three ways to fail leave the same state
        split
        · rfl
        · split
          · rfl
          · split <;> rfl
    · rw [if_pos hid] at h
      cases h

/-! ### `handle_handshake` -/

/-- The packet passes what `handle_handshake` checks before it looks at the Noise message. -/
def NodeState.Screens (suite : Suite) (node : Node) (now : UInt64) (s : NodeState)
    (packet : WirePacket) : Prop :=
  34 ≤ packet.payload.length ∧ ∃ p, s.peers.lookup ⟨arrayAt 32 packet.payload 1⟩ = some p ∧
    ∀ key, node.config.serverPublicKey = some key →
      validateCredential suite (s.heap p).info key now = .ok ()

lemma validatePeerMembership_wp (info : PeerInfo) :
    (validatePeerMembership suite node info).run.wp (execReliable suite node now)
      (fun r s' => s' = s ∧ (r = .ok () ↔ ∀ key, node.config.serverPublicKey = some key →
        validateCredential suite info key now = .ok ())) s := by
  unfold validatePeerMembership
  cases hkey : node.config.serverPublicKey with
  | none => exact ⟨rfl, iff_of_true rfl nofun⟩
  | some key =>
    refine wp_bindExcept (wp_lift fun e time s' he => ?_)
    cases he
    refine ⟨rfl, fun h key' hkey' => ?_, fun h => h key rfl⟩
    cases hkey'
    exact h

lemma completeHandshake_wp {fuel : ℕ} {source : SocketAddr} :
    (completeHandshake suite node fuel p info sender sessionId message source).run.wp
      (execReliable suite node now) (fun r s' => ∀ error, r = .error error →
        ∃ attempt, (s.heap p).attempt = some attempt ∧ attempt.handshake.isSome ∧
          s' = s.setPeer p { s.heap p with attempt := some { attempt with handshake := none } }) s := by
  refine wp_bindExcept (wp_lift fun e result s' he => ?_)
  have hfinish : s.finishHandshake suite p sessionId message sender info = (result, s') :=
    Option.some.inj he
  cases result with
  | error error =>
    intro _ _
    obtain ⟨attempt, hattempt, -, hstate, hs'⟩ := finishHandshake_error (congrArg Prod.fst hfinish)
    rw [hfinish] at hs'
    exact ⟨attempt, hattempt, hstate, hs'⟩
  | ok finished =>
    cases finished with
    | none => exact nofun
    | some finished => exact wp_lift (wp_of_forall fun _ _ => nofun)

/-- **A refused response.**  Whatever the state, a response for which `handle_handshake` returns an error
leaves the sessions as they are; it leaves the attempts as they are exactly if the packet is refused
before its Noise message is read: because it is too short, or its sender is no peer with a valid
credential. -/
theorem refused_response (suite : Suite) (node : Node) (fuel : ℕ) (now : UInt64) (s : NodeState)
    (packet : WirePacket) (source : SocketAddr) (hrole : packet.payload.getD 0 0 = 2) :
    (handleHandshake suite node fuel packet source).run.wp (execReliable suite node now)
      (fun r s' => ∀ error, r = .error error →
        (∀ q, (s'.heap q).active = (s.heap q).active) ∧
        ((∀ q, (s'.heap q).attempt = (s.heap q).attempt) ↔ ¬ s.Screens suite node now packet)) s := by
  unfold handleHandshake
  split
  · rename_i hshort
    intro _ _
    exact ⟨fun _ => rfl, iff_of_true (fun _ => rfl) fun h => absurd h.1 (Nat.not_le.2 hshort)⟩
  rename_i hlength
  refine wp_bindExcept (wp_bindExcept (wp_lift fun e found s' he => ?_))
  obtain ⟨rfl, rfl⟩ := Prod.mk.inj (Option.some.inj he)
  cases hlookup : s.peers.lookup ⟨arrayAt 32 packet.payload 1⟩ with
  | none =>
    intro _ _
    refine ⟨fun _ => rfl, iff_of_true (fun _ => rfl) ?_⟩
    rintro ⟨-, p, hknown, -⟩
    rw [hlookup] at hknown
    cases hknown
  | some p =>
    refine wp_bindExcept (wp_lift fun e info s' he => ?_)
    obtain ⟨rfl, rfl⟩ := Prod.mk.inj (Option.some.inj he)
    simp only [setPeer_heap]
    refine wp_bindExcept (wp_mono ?_ (validatePeerMembership_wp _))
    rintro (error | _) s' ⟨hs', hmember⟩
    · intro _ _
      rw [hs']
      refine ⟨fun _ => rfl, iff_of_true (fun _ => rfl) ?_⟩
      rintro ⟨-, q, hknown, hvalid⟩
      obtain rfl := Option.some.inj (hlookup.symm.trans hknown)
      cases hmember.2 hvalid
    have hscreens : s.Screens suite node now packet :=
      ⟨Nat.not_lt.1 hlength, p, hlookup, hmember.1 rfl⟩
    rw [hs']
    refine wp_bindExcept (wp_lift fun e active s'' he => ?_)
    obtain ⟨rfl, rfl⟩ := Prod.mk.inj (Option.some.inj he)
    dsimp only [Prog.wp]
    rw [setPeer_heap]
    split
    · exact nofun
    have hresponse : packet.payload.getD 0 0 ≠ 1 := by
      rw [hrole]
      decide
    rw [if_neg hresponse]
    split
    · exact nofun
    refine wp_mono (fun r s'' h error herror => ?_) completeHandshake_wp
    obtain ⟨attempt, hattempt, hstate, rfl⟩ := h error herror
    refine ⟨fun q => ?_, iff_of_false (fun hsame => ?_) (not_not.2 hscreens)⟩
    · by_cases hq : q = p
      · rw [hq, heap_setPeer]
      · rw [heap_setPeer_ne s _ hq]
    · have hkept := hsame p
      rw [heap_setPeer, hattempt] at hkept
      rw [← congrArg Attempt.handshake (Option.some.inj hkept)] at hstate
      cases hstate

/-! ### A forged response -/

section Demo

def demoForged : WirePacket where
  header := { version := protocolVersion, packetType := .handshake, flags := 0, sessionId := 1
              sequence := 0, payloadLen := 66 }
  payload := 2 :: (demoBytes 9).toList ++ List.replicate 33 0

def demoGenuine : WirePacket where
  header := { version := protocolVersion, packetType := .handshake, flags := 0, sessionId := 1
              sequence := 0, payloadLen := 161 }
  payload := handshakePayload demoSuite demoAcceptor 2
    ((demoBytes 9).toList ++ demoAcceptorState.handshakeContext demoSuite demoAcceptor)

def demoHandled (n : ℕ) (packet : WirePacket) (s : NodeState) : Option (Except CoreError Unit × NodeState) :=
  Prog.run (execReliable demoSuite demoNode 11) (handleHandshake demoSuite demoNode 2 packet demoPath).run
    (List.replicate n demoEnv) s

lemma demoGenuine_completes :
    (demoAcceptedRun.map fun cfg => cfg.shared.datagrams) =
      some [(demoPath, datagramOf .handshake 1 0 demoGenuine.payload)] ∧
    ((demoUnansweredRun.bind fun cfg => demoHandled 16 demoGenuine cfg.shared).map
      fun x => (x.1.toBool, (x.2.heap demoResponder).active.isSome)) = some (true, true) := by
  decide +kernel

lemma demoForged_then_genuine :
    (demoUnansweredRun.bind fun cfg => (demoHandled 5 demoForged cfg.shared).bind fun x =>
      (demoHandled 5 demoGenuine x.2).map fun y => (x.1.toBool,
        (cfg.shared.heap demoResponder).attempt.map fun attempt => attempt.handshake.isSome,
        (x.2.heap demoResponder).attempt.map fun attempt => attempt.handshake.isSome,
        (y.2.heap demoResponder).active.isSome)) = some (false, some true, some false, false) := by
  decide +kernel

def demoShort : WirePacket where
  header := { version := protocolVersion, packetType := .handshake, flags := 0, sessionId := 1
              sequence := 0, payloadLen := 33 }
  payload := 2 :: (demoBytes 9).toList

theorem refused_response_short : ∃ cfg s', demoUnansweredRun = some cfg ∧
    demoHandled 0 demoShort cfg.shared = some (.error .invalidHandshake, s') ∧
    (∀ q, (s'.heap q).active = (cfg.shared.heap q).active) ∧
    ∀ q, (s'.heap q).attempt = (cfg.shared.heap q).attempt := by
  obtain ⟨cfg, -, hrun, -⟩ := demoUnanswered_state
  have hhandled : demoHandled 0 demoShort cfg.shared = some (.error .invalidHandshake, cfg.shared) := rfl
  obtain ⟨hactive, hattempt⟩ := wp_run (refused_response demoSuite demoNode 2 11 cfg.shared demoShort demoPath rfl)
    hhandled _ rfl
  have hscreens : ¬ cfg.shared.Screens demoSuite demoNode 11 demoShort := fun h => absurd h.1 (by decide)
  exact ⟨cfg, _, hrun, hhandled, hactive, hattempt.2 hscreens⟩

/-- **A forged response costs the session**: the node waits for the response of its peer in a reachable
state, a forged response is refused and the attempt has changed, and the genuine response, which would
have completed the session, is ignored. -/
theorem forged_response_changes : ∃ cfg,
    (plainPool demoSuite demoNode 2).Reachable (fun _ _ => True)
      ((plainPool demoSuite demoNode 2).initial demoState) cfg ∧
    (∃ r s', demoHandled 16 demoGenuine cfg.shared = some (r, s') ∧
      (s'.heap demoResponder).active.isSome) ∧
    ∃ r s', demoHandled 5 demoForged cfg.shared = some (r, s') ∧ r.toBool = false ∧
      (s'.heap demoResponder).attempt ≠ (cfg.shared.heap demoResponder).attempt ∧
      ∃ r' s'', demoHandled 5 demoGenuine s' = some (r', s'') ∧ (s''.heap demoResponder).active = none := by
  obtain ⟨x, hgenuine, hcompletes⟩ := Option.map_eq_some_iff.1 demoGenuine_completes.2
  obtain ⟨cfg, hcfg, hgenuine⟩ := Option.bind_eq_some_iff.1 hgenuine
  have hboth := demoForged_then_genuine
  rw [hcfg] at hboth
  obtain ⟨y, hforged, hlater⟩ := Option.bind_eq_some_iff.1 (Option.bind_some .. ▸ hboth)
  obtain ⟨z, hlater, hfacts⟩ := Option.map_eq_some_iff.1 hlater
  simp only [Prod.mk.injEq] at hfacts hcompletes
  obtain ⟨herror, hbefore, hafter, hidle⟩ := hfacts
  refine ⟨cfg, demoUnanswered_reachable hcfg, ⟨x.1, x.2, hgenuine, hcompletes.2⟩, y.1, y.2, hforged,
    herror, fun hsame => ?_, z.1, z.2, hlater, ?_⟩
  · rw [hsame, hbefore] at hafter
    cases hafter
  · exact Option.isSome_eq_false_iff.1 hidle |> Option.isNone_iff_eq_none.1

end Demo

end Vela.Core
