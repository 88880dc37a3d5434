import Vela.Coord.Progress
import Vela.Coord.AddressPool

/-!
# Virtual IPv4 addresses

`Register` picks a free address in one section and stores it with the row in a later one.  In between
the address is free for everybody else.

* `addresses_unique` — in every run in which no allocation picks an address that another task is about
  to store for another node, the addresses of the table stay distinct;
* `address_taken_twice` — two registrations that pick the same address.
-/

namespace Vela.Coord

open Vela.Proto Vela.Crypto Function

/-- No two rows of the table, revoked or not, have the same virtual IPv4 address. -/
def CoordState.AddressesDistinct (s : CoordState) : Prop :=
  ∀ m n address, s.addressOf m = some address → s.addressOf n = some address → m = n

variable {prim : Primitives} {server : Server}

/-! ### Claims on addresses -/

/-- The node has the address in its row, or a task is about to store it there. -/
def Claims (s : CoordState) (φ : ℕ → Progress) (n : NodeId) (address : Ipv4Addr) : Prop :=
  s.addressOf n = some address ∨ ∃ t, (φ t).address = some (n, address)

/-- Every address is claimed for at most one node. -/
def ClaimsDistinct (s : CoordState) (φ : ℕ → Progress) : Prop :=
  ∀ m n address, Claims s φ m address → Claims s φ n address → m = n

variable {c : Section} {e : Env} {s : CoordState} {γ : Progress} {n : NodeId} {address : Ipv4Addr} {t : ℕ}

lemma addressOf_perform (hok : γ.Allows prim c)
    (h : (perform prim server e c s).2.addressOf n = some address) :
    s.addressOf n = some address ∨ γ.address = some (n, address) := by
  have hstep := @rowStep_perform prim server e c s n
  obtain ⟨row', hrow', haddress⟩ := Option.bind_eq_some_iff.1 h
  rw [hrow'] at hstep
  unfold CoordState.addressOf
  generalize s.peers.lookup n = before at hstep ⊢
  cases hstep with
  | same => exact .inl haddress
  | noted row => exact .inl haddress
  | revoked row => exact .inl haddress
  | stored peer row hn =>
    subst hn
    have hheld : γ.address = peer.virtualIpv4.map fun address => (peer.nodeId, address) :=
      hok.1.elim (fun h => h.address) fun h => h.address
    rw [hheld]
    cases before with
    | none => exact .inr (by rw [show peer.virtualIpv4 = some address from haddress]; rfl)
    | some row =>
      rcases Option.or_eq_some_iff.1 (show peer.virtualIpv4.or row.virtualIpv4 = some address from
        haddress) with hpeer | ⟨-, hrow⟩
      · exact .inr (by rw [hpeer]; rfl)
      · exact .inl hrow

/-- The sections after which a task may hold another address. -/
def Addresses : Section → Prop
  | .recv _ _ | .loadPeer _ | .allocateVirtualIpv4 _ | .updatePeer _ => True
  | _ => False

lemma next_address (hc : ¬ Addresses c) (r : Response c) :
    (γ.next prim server c r).address = γ.address := by
  unfold Progress.next
  split <;> first | rfl | exact absurd trivial hc | (split <;> rfl)

lemma address_next
    (h : (γ.next prim server c (perform prim server e c s).1).address = some (n, address)) :
    γ.address = some (n, address) ∨ s.addressOf n = some address ∨
      (c = .allocateVirtualIpv4 n ∧ e.fault = none ∧ γ.address = none ∧
        s.allocateVirtualIpv4 prim n = .ok address) := by
  by_cases hc : Addresses c
  · cases c with
    | recv => cases h
    | updatePeer peer =>
      revert h
      simp only [perform, Env.database]
      split
      · intro h
        cases h
      · intro h
        cases h
    | loadPeer m =>
      revert h
      simp only [perform, Env.database]
      split
      · exact fun h => .inl h
      · simp only [Progress.next]
        split
        · intro h
          obtain ⟨found, hfound, heq⟩ := Option.map_eq_some_iff.1 h
          cases heq
          obtain ⟨peer, hpeer, haddress⟩ := Option.bind_eq_some_iff.1 hfound
          obtain ⟨row, hrow, rfl⟩ := Option.map_eq_some_iff.1 hpeer
          refine .inr (.inl (Option.bind_eq_some_iff.2 ⟨row, ?_, haddress⟩))
          exact (Option.filter_eq_some_iff.1 hrow).1
        · exact fun h => .inl h
    | allocateVirtualIpv4 m =>
      revert h
      simp only [perform, Env.database]
      split
      · intro h
        cases h
      · rename_i hfault
        cases hallocated : s.allocateVirtualIpv4 prim m with
        | error error =>
          intro h
          cases h
        | ok found =>
          intro h
          rcases Option.or_eq_some_iff.1 h with hheld | ⟨hnone, hfound⟩
          · exact .inl hheld
          · cases hfound
            exact .inr (.inr ⟨rfl, hfault, hnone, hallocated⟩)
    | _ => cases hc
  · rw [next_address hc] at h
    exact .inl h

/-! ### Runs -/

/-- No allocation picks an address that another task is about to store for another node. -/
def NoDoubleAllocation (prim : Primitives) (cfg : TrackedCfg) : Pool.Move Env Request → Prop
  | .spawn _ _ => True
  | .step t e => ∀ n address, cfg.at t = some (.allocateVirtualIpv4 n) → e.fault = none →
      (cfg.phase t).address = none → cfg.shared.allocateVirtualIpv4 prim n = .ok address →
        ∀ u m, (cfg.phase u).address = some (m, address) → m = n

/-- **One section.** -/
theorem claimsDistinct_step {cfg : TrackedCfg} (h : ClaimsDistinct cfg.shared cfg.phase)
    (hguard : NoDoubleAllocation prim cfg (.step t e)) (hat : cfg.at t = some c)
    (hok : (cfg.phase t).Allows prim c) :
    ClaimsDistinct (perform prim server e c cfg.shared).2 (update cfg.phase t
      ((cfg.phase t).next prim server c (perform prim server e c cfg.shared).1)) := by
  -- a claim afterwards is an old one, or the address that was just allocated
  have hold : ∀ n address, Claims (perform prim server e c cfg.shared).2
      (update cfg.phase t ((cfg.phase t).next prim server c
        (perform prim server e c cfg.shared).1)) n address →
      Claims cfg.shared cfg.phase n address ∨ (c = .allocateVirtualIpv4 n ∧ e.fault = none ∧
        (cfg.phase t).address = none ∧ cfg.shared.allocateVirtualIpv4 prim n = .ok address) := by
    rintro n address (hrow | ⟨u, hu⟩)
    · exact .inl ((addressOf_perform hok hrow).imp_right fun hheld => ⟨t, hheld⟩)
    · by_cases hut : u = t
      · subst hut
        rw [update_self] at hu
        rcases address_next hu with hheld | hrow | hnew
        · exact .inl (.inr ⟨u, hheld⟩)
        · exact .inl (.inl hrow)
        · exact .inr hnew
      · rw [update_of_ne hut] at hu
        exact .inl (.inr ⟨u, hu⟩)
  have hfresh : ∀ m n address, Claims cfg.shared cfg.phase m address →
      c = .allocateVirtualIpv4 n → e.fault = none → (cfg.phase t).address = none →
        cfg.shared.allocateVirtualIpv4 prim n = .ok address → m = n := by
    rintro m n address (hrow | ⟨u, hu⟩) rfl hfault hnone hallocated
    · exact absurd ⟨m, hrow⟩ (allocateVirtualIpv4_ok hallocated).2
    · exact hguard n address hat hfault hnone hallocated u m hu
  intro m n address hm hn
  rcases hold m address hm with hm' | ⟨rfl, hfault, hnone, hallocated⟩
  · rcases hold n address hn with hn' | ⟨hc, hfault, hnone, hallocated⟩
    · exact h m n address hm' hn'
    · exact hfresh m n address hm' hc hfault hnone hallocated
  · rcases hold n address hn with hn' | ⟨hc, -⟩
    · exact (hfresh n m address hn' rfl hfault hnone hallocated).symm
    · exact Section.allocateVirtualIpv4.inj hc

lemma claimsDistinct_spawn {s' : CoordState} {φ : ℕ → Progress} {q : Request} (h : ClaimsDistinct s φ)
    (ha : q.accept s = some s') :
    ClaimsDistinct s' (update φ t Progress.idle) := by
  obtain ⟨spawned, rfl⟩ := Request.accept_eq ha
  have hold : ∀ n address, Claims { s with spawned } (update φ t Progress.idle) n address →
      Claims s φ n address := by
    rintro n address (hrow | ⟨u, hu⟩)
    · exact .inl hrow
    · by_cases hut : u = t
      · subst hut
        rw [update_self] at hu
        cases hu
      · rw [update_of_ne hut] at hu
        exact .inr ⟨u, hu⟩
  exact fun m n address hm hn => h m n address (hold m address hm) (hold n address hn)

/-- **Virtual addresses stay unique outside the gap.** -/
theorem addresses_unique (prim : Primitives) (server : Server) (init : CoordState)
    (hinit : init.AddressesDistinct) (cfg : TrackedCfg)
    (h : (Tracked prim server).Reachable (NoDoubleAllocation prim)
      ((Tracked prim server).initial init) cfg) : cfg.shared.AddressesDistinct := by
  have hstart : ClaimsDistinct init fun _ => Progress.idle := by
    rintro m n address (hm | ⟨_, hm⟩) (hn | ⟨_, hn⟩)
    · exact hinit m n address hm hn
    · cases hn
    · cases hm
    · cases hm
  have hstep : ∀ (cfg : TrackedCfg) t e c r s', ClaimsDistinct cfg.shared cfg.phase →
      NoDoubleAllocation prim cfg (.step t e) → cfg.at t = some c →
      (cfg.phase t).Allows prim c → exec prim server e c cfg.shared = some (r, s') →
      ClaimsDistinct s' (update cfg.phase t ((cfg.phase t).next prim server c r)) := by
    intro cfg t e c r s' hi hguard hat hok hexec
    obtain ⟨rfl, rfl⟩ := Prod.mk.inj (Option.some.inj hexec)
    exact claimsDistinct_step hi hguard hat hok
  obtain ⟨hinv, -⟩ := h.invariant (I := ClaimsDistinct) (fun t => ⟨⟨⟩, rfl⟩) hstart
    (fun _ _ q _ => (body_progresses q).mono fun _ _ _ => trivial)
    (fun s s' φ t q hi ha => claimsDistinct_spawn hi ha) hstep
  exact fun m n address hm hn => hinv m n address (Or.inl hm) (Or.inl hn)

/-! ### Two registrations at once -/

section Twins

def twinKey : Vector UInt8 32 := Vector.ofFn fun i => if i.val < 4 then 1 else 2

/-- A node whose search for a free address starts where that of `demoNode` does. -/
def twinNode : NodeId := ⟨twinKey⟩

def twinPrim : Primitives :=
  { demoPrim with
    base64Decode := fun text => if text = "twin" then some twinKey.toList else demoPrim.base64Decode text }

def twinState : CoordState :=
  { demoState with
    peers := ∅
    invites := demoState.invites.insert (demoHash (stringBytes "ticket")) demoInvite }

def twinRegister : Incoming :=
  .text (.register
    { nodeId := twinNode, incarnation := 1, signingPublic := "twin", noisePublic := "key"
      credential := "", inviteToken := some "ticket", candidates := [], capabilities := [] })

/-- The two addresses at the end of a run. -/
def twinAddresses (cfg : TrackedCfg) : Option Ipv4Addr × Option Ipv4Addr :=
  (cfg.shared.addressOf demoNode, cfg.shared.addressOf twinNode)

/-- Both redeem their invites, look for their rows and pick an address; then both store it. -/
def twinMoves : List (Pool.Move Env Request) :=
  [.spawn 0 (.socket 7 [demoRegister "key" "" (some "token")]), .spawn 1 (.socket 8 [twinRegister]),
    .step 0 demoEnv, .step 0 demoEnv, .step 0 demoEnv, .step 0 demoEnv,
    .step 1 demoEnv, .step 1 demoEnv, .step 1 demoEnv, .step 1 demoEnv,
    .step 0 demoEnv, .step 1 demoEnv]

def twinEnd : {cfg // (Tracked twinPrim demoServer).Reachable (fun _ _ => True)
      ((Tracked twinPrim demoServer).initial twinState) cfg ∧
      twinAddresses cfg = (some ⟨#v[10, 254, 3, 4]⟩, some ⟨#v[10, 254, 3, 4]⟩)} :=
  Pool.Spec.reach (fun _ _ => true) (fun _ _ _ => trivial) twinMoves (by decide +kernel)

/-- The two rows have the same address. -/
theorem address_taken_twice :
    ¬ ∀ (prim : Primitives) (server : Server) (init : CoordState), init.AddressesDistinct →
      ∀ cfg : TrackedCfg, (Tracked prim server).Reachable (fun _ _ => True)
        ((Tracked prim server).initial init) cfg → cfg.shared.AddressesDistinct := by
  intro h
  obtain ⟨cfg, hreach, hfacts⟩ := twinEnd
  obtain ⟨hdemo, htwin⟩ := Prod.mk.inj hfacts
  have hempty : twinState.AddressesDistinct := fun _ _ _ hm => by cases hm
  have hsame : demoNode = twinNode := h twinPrim demoServer twinState hempty cfg hreach _ _ _ hdemo htwin
  exact absurd hsame (by decide)

/-- The same two registrations, one connection after the other on one task. -/
def turnMoves : List (Pool.Move Env Request) :=
  .spawn 0 (.socket 7 [demoRegister "key" "" (some "token")]) ::
    (List.replicate 22 (.step 0 demoEnv) ++
      .spawn 0 (.socket 8 [twinRegister]) :: List.replicate 5 (.step 0 demoEnv))

def turnEnd : {cfg // (Tracked twinPrim demoServer).Reachable (fun _ m => m.task = 0)
      ((Tracked twinPrim demoServer).initial twinState) cfg ∧
      twinAddresses cfg = (some ⟨#v[10, 254, 3, 4]⟩, some ⟨#v[10, 254, 3, 5]⟩)} :=
  Pool.Spec.reach (fun _ m => m.task == 0) (fun _ _ => beq_iff_eq.1) turnMoves (by decide +kernel)

theorem addresses_unique_in_turn :
    ∃ cfg : TrackedCfg, (Tracked twinPrim demoServer).Reachable (NoDoubleAllocation twinPrim)
      ((Tracked twinPrim demoServer).initial twinState) cfg ∧
      (cfg.shared.addressOf demoNode).isSome ∧ (cfg.shared.addressOf twinNode).isSome ∧
      cfg.shared.AddressesDistinct := by
  obtain ⟨cfg, hsolo, hfacts⟩ := turnEnd
  obtain ⟨hdemo, htwin⟩ := Prod.mk.inj hfacts
  -- nobody else holds an address
  have hreach : (Tracked twinPrim demoServer).Reachable (NoDoubleAllocation twinPrim)
      ((Tracked twinPrim demoServer).initial twinState) cfg := by
    refine hsolo.strengthen fun cfg m hcfg hm => ?_
    cases m with
    | spawn t q => trivial
    | step t e =>
      obtain rfl : t = 0 := hm
      intro n address _ _ hnone _ u m hu
      by_cases hut : u = 0
      · subst hut
        rw [hnone] at hu
        cases hu
      · rw [(hcfg.solo (fun _ _ h => h) hut).2] at hu
        cases hu
  refine ⟨cfg, hreach, ?_, ?_, ?_⟩
  · rw [show cfg.shared.addressOf demoNode = _ from hdemo]
    rfl
  · rw [show cfg.shared.addressOf twinNode = _ from htwin]
    rfl
  · exact addresses_unique twinPrim demoServer twinState (fun _ _ _ hm => by cases hm) cfg hreach

end Twins

end Vela.Coord
