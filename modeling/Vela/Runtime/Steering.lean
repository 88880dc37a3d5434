import Vela.Runtime.Course

/-!
# What steers routing

The node routes by the last snapshot it has applied, which the server has signed.  A connect signal is
not signed: of the record it carries, the credential covers the node id and the two keys, and
`register_peer` takes the rest as it comes.

* `signed_data_steers` — they are those of the last snapshot, if every record that was registered agrees
  with the record of the snapshot;
* `signal_steers` — a signal that adds a route.
-/

namespace Vela.Core

open Vela.Proto Vela.Crypto Vela.Ip

variable {suite : Suite} {node : Node} {snapshot : NetworkSnapshot} {s s' : NodeState}

/-- The fields of a record by which packets find their way. -/
structure SameRouting (a b : PeerInfo) : Prop where
  virtualIpv4 : a.virtualIpv4 = b.virtualIpv4
  virtualIpv6 : a.virtualIpv6 = b.virtualIpv6
  incarnation : a.incarnation = b.incarnation
  noisePublic : a.noisePublic = b.noisePublic

lemma SameRouting.refl (info : PeerInfo) : SameRouting info info := ⟨rfl, rfl, rfl, rfl⟩

lemma SameRouting.addresses {a b : PeerInfo} (h : SameRouting a b) : addressesOf a = addressesOf b := by
  rw [addressesOf, addressesOf, h.virtualIpv4, h.virtualIpv6]

/-- The route table, and the records it leads to, are those of the snapshot. -/
structure Steered (suite : Suite) (node : Node) (snapshot : NetworkSnapshot) (s : NodeState) : Prop where
  routes : ∀ a nodeId, s.routes.peerFor a = some nodeId ↔
    nodeId ≠ node.nodeId suite ∧ ∃ info ∈ snapshot.peers, info.nodeId = nodeId ∧ a ∈ addressesOf info
  localAddresses : ∃ own ∈ snapshot.peers, own.nodeId = node.nodeId suite ∧
    ∀ a, s.routes.isLocal a = true ↔ a ∈ addressesOf own
  records : ∀ a nodeId, s.routes.peerFor a = some nodeId → ∃ p, s.peers.lookup nodeId = some p ∧
    ∃ info ∈ snapshot.peers, info.nodeId = nodeId ∧ SameRouting (s.heap p).info info

/-- What is kept while records are registered: the same of all peers, in a valid snapshot. -/
structure Follows (suite : Suite) (node : Node) (snapshot : NetworkSnapshot) (s : NodeState) : Prop where
  valid : snapshot.Valid suite.blake3
  routes : ∀ a nodeId, s.routes.peerFor a = some nodeId ↔
    nodeId ≠ node.nodeId suite ∧ ∃ info ∈ snapshot.peers, info.nodeId = nodeId ∧ a ∈ addressesOf info
  localAddresses : ∃ own ∈ snapshot.peers, own.nodeId = node.nodeId suite ∧
    ∀ a, s.routes.isLocal a = true ↔ a ∈ addressesOf own
  present : ∀ info ∈ snapshot.peers, info.nodeId ≠ node.nodeId suite →
    (s.peers.lookup info.nodeId).isSome
  records : ∀ nodeId p, s.peers.lookup nodeId = some p →
    ∃ info ∈ snapshot.peers, info.nodeId = nodeId ∧ SameRouting (s.heap p).info info

lemma Follows.steered (h : Follows suite node snapshot s) : Steered suite node snapshot s := by
  refine ⟨h.routes, h.localAddresses, fun a nodeId hroute => ?_⟩
  obtain ⟨hremote, info, hinfo, rfl, -⟩ := (h.routes a nodeId).1 hroute
  obtain ⟨p, hp⟩ := Option.isSome_iff_exists.1 (h.present info hinfo hremote)
  exact ⟨p, hp, h.records info.nodeId p hp⟩

lemma Steady.follows (hsteady : Steady s s') (h : Follows suite node snapshot s) :
    Follows suite node snapshot s' := by
  obtain ⟨hvalid, hroutes, hlocal, hpresent, hrecords⟩ := h
  refine ⟨hvalid, ?_, ?_, ?_, ?_⟩
  · simpa only [hsteady.routes] using hroutes
  · simpa only [hsteady.routes] using hlocal
  · simpa only [hsteady.peers] using hpresent
  · simpa only [hsteady.peers, hsteady.info] using hrecords

lemma installed_follows {before : NodeState} (h : Installed suite node snapshot before s)
    (hvalid : snapshot.Valid suite.blake3) : Follows suite node snapshot s := by
  refine ⟨hvalid, h.routes, ?_, fun info hinfo hremote => ?_, fun nodeId p hp => ?_⟩
  · obtain ⟨own, hown, hid, hlocals⟩ := h.localAddresses
    refine ⟨own, hown, hid, fun a => ?_⟩
    rw [RouteTable.isLocal, hlocals, List.contains_iff_mem]
  · exact (h.keys info.nodeId).2 ⟨hremote, List.mem_map_of_mem hinfo⟩
  · obtain ⟨hrecord, hid, -⟩ := h.records nodeId p hp
    exact ⟨_, hrecord, hid, .refl _⟩

/-- The snapshot has a record of the same node that leads packets the same way. -/
def Vouched (suite : Suite) (node : Node) (snapshot : NetworkSnapshot) (info : PeerInfo) : Prop :=
  info.nodeId ≠ node.nodeId suite ∧
    ∃ known ∈ snapshot.peers, known.nodeId = info.nodeId ∧ SameRouting info known

lemma Follows.peerFor_registerPeer (h : Follows suite node snapshot s) (hwell : s.WellFormed)
    {info : PeerInfo} (hvouched : Vouched suite node snapshot info) (a : IpAddr) :
    (s.registerPeer suite node info).2.routes.peerFor a = s.routes.peerFor a := by
  obtain ⟨hremote, known, hknown, hid, hsame⟩ := hvouched
  have hown : a ∈ addressesOf info → s.routes.peerFor a = some info.nodeId := by
    intro ha
    refine (h.routes a info.nodeId).2 ⟨hremote, known, hknown, hid, ?_⟩
    rwa [← hsame.addresses]
  -- the record that is replaced has the same addresses
  have hprevious : (s.peers.lookup info.nodeId).any
      (fun q => decide (a ∈ addressesOf (s.heap q).info)) = true → a ∈ addressesOf info := by
    intro hany
    obtain ⟨q, hq, ha⟩ := (Option.any_eq_true _ _).1 hany
    obtain ⟨other, hother, hid', hsame'⟩ := h.records info.nodeId q hq
    obtain rfl := record_unique h.valid hother hknown (hid'.trans hid.symm)
    rw [hsame.addresses, ← hsame'.addresses]
    exact of_decide_eq_true ha
  rw [registerPeer_peerFor hwell]
  split
  · exact (hown ‹_›).symm
  · rename_i ha
    rw [if_neg fun hany => ha (hprevious hany)]

lemma Follows.registerPeer (h : Follows suite node snapshot s) (hwell : s.WellFormed)
    {info : PeerInfo} (hvouched : Vouched suite node snapshot info) :
    Follows suite node snapshot (s.registerPeer suite node info).2 := by
  refine ⟨h.valid, fun a nodeId => ?_, ?_, fun other hother hremote => ?_, fun nodeId p hp => ?_⟩
  · rw [h.peerFor_registerPeer hwell hvouched]
    exact h.routes a nodeId
  · simpa only [registerPeer_isLocal] using h.localAddresses
  · rw [registerPeer_lookup]
    split
    · rfl
    · exact h.present other hother hremote
  · rw [registerPeer_lookup] at hp
    split at hp
    · rename_i hid
      obtain rfl := Option.some.inj hp
      obtain ⟨-, known, hknown, hid', hsame⟩ := hvouched
      refine ⟨known, hknown, hid'.trans hid.symm, ?_⟩
      rwa [registerPeer_info_new]
    · rw [registerPeer_info_old hwell hp]
      exact h.records nodeId p hp

end Vela.Core

namespace Vela.Runtime

open Vela.Proto Vela.Crypto Course

variable {suite : Suite} {peer : Peer} {fuel : ℕ} {E N : Type} {net : Network E N}

/-- What the node routes by: the snapshot, or nothing. -/
def Routed (R : NetworkSnapshot → Core.NodeState → Prop) :
    Option NetworkSnapshot → Core.NodeState → Prop
  | none, s => ∀ a, s.routes.peerFor a = none
  | some snapshot, s => R snapshot s

/-- The node follows the last snapshot as long as it has not refused one. -/
structure Steering (suite : Suite) (peer : Peer) (s : RuntimeState N) (γ : Course) : Prop where
  follows : γ.broken = false → s.node.WellFormed ∧
    Routed (Core.Follows suite peer.node) s.applied s.node
  rest : γ.concluded = true → s.outcome.isRunning = true → γ.broken = false

/-- The steps that only register records that the last snapshot vouches for. -/
def Vouches (suite : Suite) (peer : Peer) (net : Network E N)
    (cfg : Pool.Config Section Response (RuntimeState N) Course) : Pool.Move (Env E) Event → Prop
  | .spawn _ _ => True
  | .step t e => ∀ info s', cfg.at t = some (.registerPeer info) →
      exec suite peer net e (.registerPeer info) cfg.shared = some (.ok (), s') →
      ∃ snapshot, cfg.shared.applied = some snapshot ∧
        Core.Vouched suite peer.node snapshot info

section Step

variable {s s' : RuntimeState N} {γ : Course} {e : Env E}

lemma routed_steady {applied : Option NetworkSnapshot} {n n' : Core.NodeState}
    (hsteady : Core.Steady n n') (h : Routed (Core.Follows suite peer.node) applied n) :
    Routed (Core.Follows suite peer.node) applied n' := by
  cases applied with
  | none =>
    intro a
    rw [hsteady.routes]
    exact h a
  | some snapshot => exact hsteady.follows h

lemma steering_registerPeer (h : Steering suite peer s γ) {info : PeerInfo}
    {r : Except Core.CoreError Unit}
    (hexec : exec suite peer net e (.registerPeer info) s = some (r, s'))
    (hvouched : r = .ok () → ∃ snapshot, s.applied = some snapshot ∧
      Core.Vouched suite peer.node snapshot info) :
    Steering suite peer s' (γ.next (.registerPeer info) r) := by
  obtain ⟨node, hrun, rfl⟩ := exec_registerPeer hexec
  have hflags : (γ.next (.registerPeer info) r).broken = γ.broken ∧
      (γ.next (.registerPeer info) r).concluded = γ.concluded := by
    cases r <;> exact ⟨rfl, rfl⟩
  refine ⟨fun hbroken => ?_, ?_⟩
  swap
  · rw [hflags.1, hflags.2]
    exact h.rest
  obtain ⟨hwell, hrouted⟩ := h.follows (hflags.1.symm.trans hbroken)
  have hends : (Core.Call.registerPeer info).Ends suite peer.node s.node r.toOption.isSome node :=
    ⟨_, r, hrun, rfl⟩
  refine ⟨hends.wellFormed hwell, ?_⟩
  cases Prog.wp_run (Core.registerPeer_wp s.node info) hrun with
  | refused hsteady => exact routed_steady hsteady hrouted
  | unchanged hsteady => exact routed_steady hsteady hrouted
  | replaced hsteady =>
    obtain ⟨snapshot, happlied, hvouched⟩ := hvouched rfl
    change Routed _ s.applied node
    rw [happlied] at hrouted ⊢
    exact hsteady.follows (Core.Follows.registerPeer hrouted hwell hvouched)

lemma steering_applySnapshot (h : Steering suite peer s γ) {snapshot : NetworkSnapshot}
    {r : Except Core.CoreError Unit} (hok : γ.ok (.applySnapshot snapshot))
    (hexec : exec suite peer net e (.applySnapshot snapshot) s = some (r, s')) :
    Steering suite peer s' (γ.next (.applySnapshot snapshot) r) := by
  have hconcluded : γ.concluded ≠ true := by
    rw [hok.1.1.concluded]
    nofun
  obtain ⟨node, hrun, ⟨rfl, rfl⟩ | ⟨⟨error, rfl⟩, rfl⟩⟩ := exec_applySnapshot hexec
  · refine ⟨fun hbroken => ?_, fun hc => (hconcluded hc).elim⟩
    obtain ⟨hwell, -⟩ := h.follows hbroken
    have hends : (Core.Call.applySnapshot snapshot).Ends suite peer.node s.node true node :=
      ⟨_, hrun, rfl⟩
    obtain ⟨hinstalled, hvalid⟩ := Prog.wp_run (Core.applySnapshot_ok_wp snapshot hwell) hrun rfl
    exact ⟨hends.wellFormed hwell, Core.installed_follows hinstalled hvalid⟩
  · exact ⟨nofun, fun hc => (hconcluded hc).elim⟩

/-- **One section.** -/
theorem steering_step (h : Steering suite peer s γ) {c : Section} {r : Response c} (hok : γ.ok c)
    (hexec : exec suite peer net e c s = some (r, s'))
    (hvouched : ∀ info, c = .registerPeer info →
      exec suite peer net e (.registerPeer info) s = some (.ok (), s') →
      ∃ snapshot, s.applied = some snapshot ∧ Core.Vouched suite peer.node snapshot info) :
    Steering suite peer s' (γ.next c r) := by
  -- everywhere else the node and the monitor's flags stay
  have hframe : s'.node = s.node → s'.applied = s.applied → s'.outcome = s.outcome →
      (γ.next c r).broken = γ.broken → (γ.next c r).concluded = γ.concluded →
      Steering suite peer s' (γ.next c r) := by
    intro hnode happlied houtcome hbroken hconcluded
    refine ⟨?_, ?_⟩
    · rw [hbroken, hnode, happlied]
      exact h.follows
    · rw [hbroken, hconcluded, houtcome]
      exact h.rest
  have hoffside : Offside c → (γ.next c r).broken = γ.broken →
      (γ.next c r).concluded = γ.concluded → Steering suite peer s' (γ.next c r) := by
    intro hc hbroken hconcluded
    have hsame := exec_offside hc hexec
    exact hframe hsame.node hsame.applied hsame.outcome hbroken hconcluded
  cases c with
  | registerPeer info =>
    refine steering_registerPeer h hexec ?_
    rintro rfl
    exact hvouched info rfl hexec
  | applySnapshot snapshot => exact steering_applySnapshot h hok hexec
  | storeSnapshot snapshot | publish snapshot =>
    cases hexec
    exact hframe rfl rfl rfl rfl rfl
  | conclude outcome =>
    cases hexec
    exact ⟨h.follows, fun _ hrunning => (hok.1 hrunning).good.broken⟩
  | recvWire request => cases r <;> exact hoffside trivial rfl rfl
  | _ => exact hoffside trivial rfl rfl

end Step

lemma new_steering (heap : Core.PeerRef → Core.PeerState) (network : N)
    (credential : Option MembershipCredential) (stored : Option NetworkSnapshot)
    (dohServers stunServers : List String) :
    Steering suite peer (.new peer heap network credential stored dohServers stunServers)
      Course.start :=
  ⟨fun _ => ⟨Core.new_wellFormed heap, fun _ => rfl⟩, nofun⟩

/-- **Only signed data steers routing**: whenever an event has been handled and the loop goes on, the
route table and the records it leads to are those of the last snapshot that was applied, in every run
in which the snapshot vouches for each record that is registered. -/
theorem signed_data_steers (suite : Suite) (peer : Peer) (fuel : ℕ) {E N : Type} (net : Network E N)
    (heap : Core.PeerRef → Core.PeerState) (network : N) (credential : Option MembershipCredential)
    (stored : Option NetworkSnapshot) (dohServers stunServers : List String)
    (cfg : Pool.Config Section Response (RuntimeState N) Course)
    (h : (runtimePool suite peer fuel net Course.start Course.next).Reachable (Vouches suite peer net)
      ((runtimePool suite peer fuel net Course.start Course.next).initial
        (.new peer heap network credential stored dohServers stunServers)) cfg)
    (hidle : cfg.at 0 = none) (hrunning : cfg.shared.outcome.isRunning = true) :
    Routed (Core.Steered suite peer.node) cfg.shared.applied cfg.shared.node := by
  have hspawn : ∀ (s : RuntimeState N) γ, Steering suite peer s γ → γ.AtRest →
      s.outcome.isRunning = true → Steering suite peer s Course.start := by
    intro s γ hi hrest hrunning
    refine ⟨fun _ => hi.follows ?_, nofun⟩
    rcases hrest with hconcluded | rfl
    · exact hi.rest hconcluded hrunning
    · rfl
  obtain ⟨hinv, hrest⟩ := course_invariant h
    (new_steering heap network credential stored dohServers stunServers) hspawn
    fun cfg e c r s' hi hguard hat hok hexec => steering_step hi hok hexec
      fun info hc hrun => hguard info s' (hc ▸ hat) hrun
  have hbroken : (cfg.phase 0).broken = false := by
    rcases hrest hidle with hconcluded | hstart
    · exact hinv.rest hconcluded hrunning
    · rw [hstart]
      rfl
  obtain ⟨-, hrouted⟩ := hinv.follows hbroken
  cases happlied : cfg.shared.applied with
  | none =>
    rw [happlied] at hrouted
    exact hrouted
  | some snapshot =>
    rw [happlied] at hrouted
    exact Core.Follows.steered hrouted

section Demo

/-- A signal in the name of the peer `1`, with its credential and an address of the sender's choice. -/
def demoSignal (n : UInt8) : ControlMessage :=
  .connectSignal
    { nodeId := Core.demoRef.nodeId, incarnation := 1, signingPublic := "x", noisePublic := "x"
      candidates := [], virtualIpv4 := some (Core.demoIpv4 n), virtualIpv6 := none, credential := "x"
      capabilities := [] } (demoPeer.node.nodeId demoSuite)

def demoAddress : IpAddr := .v4 ⟨#v[10, 0, 0, 7]⟩

def demoSignalEnd : {cfg // demoPool.Reachable (fun _ _ => True)
      (demoPool.initial (demoState (demoOpening ++ [demoSignal 7]))) cfg ∧ cfg.at 0 = none ∧
      cfg.shared.outcome.isRunning = true ∧ cfg.shared.applied = some demoFirst ∧
      cfg.shared.node.routes.peerFor demoAddress = some Core.demoRef.nodeId} :=
  Pool.Spec.reach (fun _ _ => true) (fun _ _ _ => trivial)
    (demoOpened ++ demoAlone .recv [0, 0, 0, 9, 0, 0]) (by decide +kernel)

/-- A signal adds a route that no snapshot has. -/
theorem signal_steers : ∃ cfg,
    demoPool.Reachable (fun _ _ => True) (demoPool.initial (demoState (demoOpening ++ [demoSignal 7])))
      cfg ∧ cfg.at 0 = none ∧ cfg.shared.outcome.isRunning = true ∧
      ¬ Routed (Core.Steered demoSuite demoPeer.node) cfg.shared.applied cfg.shared.node := by
  obtain ⟨cfg, hreachable, hat, hrunning, happlied, hroute⟩ := demoSignalEnd
  refine ⟨cfg, hreachable, hat, hrunning, ?_⟩
  rw [happlied]
  intro hsteered
  obtain ⟨-, info, hinfo, -, ha⟩ := (hsteered.routes demoAddress _).1 hroute
  have hnone : ∀ info ∈ demoFirst.peers, demoAddress ∉ Core.addressesOf info := by decide
  exact hnone info hinfo ha

/-- The condition of a step, computed. -/
def vouches (cfg : Pool.Config Section Response (RuntimeState (List ControlMessage)) Course) :
    Pool.Move (Env Unit) Event → Bool
  | .spawn _ _ => true
  | .step t _ =>
    match cfg.at t with
    | some (.registerPeer info) => decide (cfg.shared.applied = some demoFirst ∧ info = Core.demoInfo 1)
    | _ => true

lemma vouches_sound (cfg : Pool.Config Section Response (RuntimeState (List ControlMessage)) Course)
    (m : Pool.Move (Env Unit) Event) (h : vouches cfg m = true) :
    Vouches demoSuite demoPeer scripted cfg m := by
  cases m with
  | spawn t event => trivial
  | step t e =>
    intro info s' hat _
    obtain ⟨happlied, rfl⟩ : cfg.shared.applied = some demoFirst ∧ info = Core.demoInfo 1 := by
      simpa [vouches, hat] using h
    refine ⟨demoFirst, happlied, by decide, Core.demoInfo 1, by decide, rfl, .refl _⟩

def demoKnownEnd : {cfg // demoPool.Reachable (Vouches demoSuite demoPeer scripted)
      (demoPool.initial (demoState (demoOpening ++ [demoSignal 1]))) cfg ∧ cfg.at 0 = none ∧
      cfg.shared.outcome.isRunning = true ∧ cfg.shared.applied = some demoFirst} :=
  Pool.Spec.reach _ vouches_sound (demoOpened ++ demoAlone .recv [0, 0, 0, 2, 0, 0]) (by decide +kernel)

theorem signed_data_steers_known : ∃ cfg,
    demoPool.Reachable (Vouches demoSuite demoPeer scripted)
      (demoPool.initial (demoState (demoOpening ++ [demoSignal 1]))) cfg ∧ cfg.at 0 = none ∧
      cfg.shared.outcome.isRunning = true ∧ cfg.shared.applied = some demoFirst ∧
      Routed (Core.Steered demoSuite demoPeer.node) cfg.shared.applied cfg.shared.node := by
  obtain ⟨cfg, hreachable, hat, hrunning, happlied⟩ := demoKnownEnd
  exact ⟨cfg, hreachable, hat, hrunning, happlied,
    signed_data_steers demoSuite demoPeer 5 scripted _ _ _ _ _ _ cfg hreachable hat hrunning⟩

end Demo

end Vela.Runtime
