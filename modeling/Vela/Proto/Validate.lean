import Vela.Proto.Types
import Vela.Lib.Outcome
import Mathlib.Data.List.Nodup

/-!
# Validation of network snapshots

`NetworkSnapshot::validate` of `vela-proto`, with its loops over the peers and the online nodes.
-/

namespace Vela.Proto

open Codec

/-- `u32::from(address)` -/
def Ipv4Addr.toBits (address : Ipv4Addr) : BitVec 32 := BitVec.ofNat 32 (ofBeBytes address.octets.toList)

/-- `u128::from_be_bytes(address.octets())` -/
def Ipv6Addr.toBits (address : Ipv6Addr) : BitVec 128 :=
  BitVec.ofNat 128 (ofBeBytes address.octets.toList)

/-- The first `prefixLen` bits of a word of width `w`. -/
def prefixMask (w : ℕ) (prefixLen : UInt8) : BitVec w :=
  if prefixLen = 0 then 0 else BitVec.allOnes w <<< (w - prefixLen.toNat)

def inNetwork {w : ℕ} (network address : BitVec w) (prefixLen : UInt8) : Bool :=
  let mask := prefixMask w prefixLen
  network &&& mask == address &&& mask && network &&& mask == network

def ipv4InNetwork (network address : Ipv4Addr) (prefixLen : UInt8) : Bool :=
  inNetwork network.toBits address.toBits prefixLen

def ipv6InNetwork (network address : Ipv6Addr) (prefixLen : UInt8) : Bool :=
  inNetwork network.toBits address.toBits prefixLen

namespace NetworkSnapshot

def invalid (message : String) : Except ProtoError Unit := .error (.invalidSnapshot message)

/-- The checks on one of the two CIDRs, in the words of its address family. -/
def validateCidr (family : String) (width prefixLen : ℕ) (canonical : Bool) : Except ProtoError Unit :=
  if width < prefixLen then invalid ("invalid " ++ family ++ " prefix length")
  else if !canonical then invalid (family ++ " network address is not canonical")
  else .ok ()

def validateIpv4Cidr : Option Ipv4Cidr → Except ProtoError Unit
  | none => .ok ()
  | some cidr => validateCidr "IPv4" 32 cidr.prefixLen.toNat
    (ipv4InNetwork cidr.address cidr.address cidr.prefixLen)

def validateIpv6Cidr : Option Ipv6Cidr → Except ProtoError Unit
  | none => .ok ()
  | some cidr => validateCidr "IPv6" 128 cidr.prefixLen.toNat
    (ipv6InNetwork cidr.address cidr.address cidr.prefixLen)

/-- The sets that the loop over the peers has filled. -/
structure Seen where
  nodeIds : List NodeId
  ipv4 : List Ipv4Addr
  ipv6 : List Ipv6Addr

variable (blake3 : List UInt8 → Vector UInt8 32)

/-- One iteration of the loop over the peers. -/
def validatePeer (s : NetworkSnapshot) (seen : Seen) (peer : PeerInfo) : Except ProtoError Seen := do
  if peer.nodeId ∈ seen.nodeIds ∨ peer.nodeId ≠ ⟨blake3 peer.signingPublic.toList⟩ then
    invalid "invalid or duplicate peer identity"
  if let some address := peer.virtualIpv4 then
    let validNetwork := s.virtualIpv4.any fun cidr =>
      ipv4InNetwork cidr.address address cidr.prefixLen
    if address ∈ seen.ipv4 ∨ !validNetwork then invalid "invalid or duplicate virtual IPv4"
  if let some address := peer.virtualIpv6 then
    let validNetwork := s.virtualIpv6.any fun cidr =>
      ipv6InNetwork cidr.address address cidr.prefixLen
    if address ∈ seen.ipv6 ∨ !validNetwork then invalid "invalid or duplicate virtual IPv6"
  return { nodeIds := peer.nodeId :: seen.nodeIds
           ipv4 := peer.virtualIpv4.toList ++ seen.ipv4
           ipv6 := peer.virtualIpv6.toList ++ seen.ipv6 }

/-- One iteration of the loop over the online nodes. -/
def validateOnline (s : NetworkSnapshot) (seen : List NodeId) (nodeId : NodeId) :
    Except ProtoError (List NodeId) := do
  if nodeId ∉ s.peers.map PeerInfo.nodeId ∨ nodeId ∈ seen then
    invalid "invalid or duplicate online peer"
  return nodeId :: seen

def validate (s : NetworkSnapshot) : Except ProtoError Unit := do
  if s.generation = 0 then invalid "generation must be non-zero"
  validateIpv4Cidr s.virtualIpv4
  validateIpv6Cidr s.virtualIpv6
  let _ ← s.peers.foldlM (s.validatePeer blake3) ⟨[], [], []⟩
  let _ ← s.onlinePeers.foldlM s.validateOnline []
  return ()

/-! ### What is accepted -/

/-- What `validate` asks of one record. -/
structure PeerValid (s : NetworkSnapshot) (peer : PeerInfo) : Prop where
  key : peer.nodeId = ⟨blake3 peer.signingPublic.toList⟩
  ipv4 : ∀ address, peer.virtualIpv4 = some address →
    (s.virtualIpv4.any fun cidr => ipv4InNetwork cidr.address address cidr.prefixLen) = true
  ipv6 : ∀ address, peer.virtualIpv6 = some address →
    (s.virtualIpv6.any fun cidr => ipv6InNetwork cidr.address address cidr.prefixLen) = true

/-- What `validate` asks of a snapshot. -/
structure Valid (s : NetworkSnapshot) : Prop where
  generation : s.generation ≠ 0
  ipv4Cidr : validateIpv4Cidr s.virtualIpv4 = .ok ()
  ipv6Cidr : validateIpv6Cidr s.virtualIpv6 = .ok ()
  nodeIds : (s.peers.map PeerInfo.nodeId).Nodup
  ipv4 : (s.peers.filterMap PeerInfo.virtualIpv4).Nodup
  ipv6 : (s.peers.filterMap PeerInfo.virtualIpv6).Nodup
  peers : ∀ peer ∈ s.peers, PeerValid blake3 s peer
  onlineNodup : s.onlinePeers.Nodup
  onlineListed : ∀ nodeId ∈ s.onlinePeers, nodeId ∈ s.peers.map PeerInfo.nodeId

variable {blake3} {s : NetworkSnapshot}

variable {w : ℕ} {prefixLen : UInt8} {α β : Type} {network : BitVec w}

lemma check_eq_ok {c : Prop} [Decidable c] {message : String} {k : Unit → Except ProtoError β} {r : β} :
    (if c then invalid message >>= k else k ()) = .ok r ↔ ¬ c ∧ k () = .ok r := by
  by_cases h : c
  · rw [if_pos h]
    exact iff_of_false nofun fun h' => h'.1 h
  · rw [if_neg h]
    exact ⟨fun hk => ⟨h, hk⟩, And.right⟩

lemma validatePeer_eq_ok {seen seen' : Seen} {peer : PeerInfo} :
    s.validatePeer blake3 seen peer = .ok seen' ↔
      (peer.nodeId ∉ seen.nodeIds ∧ peer.nodeId = ⟨blake3 peer.signingPublic.toList⟩) ∧
      (∀ address, peer.virtualIpv4 = some address → address ∉ seen.ipv4 ∧
        (s.virtualIpv4.any fun cidr => ipv4InNetwork cidr.address address cidr.prefixLen) = true) ∧
      (∀ address, peer.virtualIpv6 = some address → address ∉ seen.ipv6 ∧
        (s.virtualIpv6.any fun cidr => ipv6InNetwork cidr.address address cidr.prefixLen) = true) ∧
      seen' = { nodeIds := peer.nodeId :: seen.nodeIds
                ipv4 := peer.virtualIpv4.toList ++ seen.ipv4
                ipv6 := peer.virtualIpv6.toList ++ seen.ipv6 } := by
  have hpure : ∀ a : Seen, (pure a : Except ProtoError Seen) = .ok seen' ↔ seen' = a :=
    fun a => ⟨fun h => (Except.ok.inj h).symm, fun h => h ▸ rfl⟩
  have hid : ¬ (peer.nodeId ∈ seen.nodeIds ∨ peer.nodeId ≠ ⟨blake3 peer.signingPublic.toList⟩) ↔
      peer.nodeId ∉ seen.nodeIds ∧ peer.nodeId = ⟨blake3 peer.signingPublic.toList⟩ := by
    rw [not_or, not_not]
  have haddress : ∀ {α : Type} {address : α} {addresses : List α} {valid : Bool},
      ¬ (address ∈ addresses ∨ (!valid) = true) ↔ address ∉ addresses ∧ valid = true := by
    intro α address addresses valid
    rw [not_or, Bool.not_eq_true', Bool.not_eq_false]
  unfold validatePeer
  rw [check_eq_ok, hid]
  refine and_congr_right fun _ => ?_
  cases peer.virtualIpv4 with
  | none =>
    cases peer.virtualIpv6 with
    | none => simp [hpure]
    | some b =>
      dsimp only
      rw [check_eq_ok, haddress, hpure]
      simp
  | some a =>
    dsimp only
    rw [check_eq_ok, haddress]
    cases peer.virtualIpv6 with
    | none => simp [hpure]
    | some b =>
      dsimp only
      rw [check_eq_ok, haddress, hpure]
      simp

lemma foldlM_cons_ok {f : β → α → Except ProtoError β} {b : β} {a : α} {l : List α} :
    (∃ r, (a :: l).foldlM f b = .ok r) ↔ ∃ b', f b a = .ok b' ∧ ∃ r, l.foldlM f b' = .ok r := by
  rw [List.foldlM_cons]
  cases h : f b a with
  | error error =>
    constructor
    · rintro ⟨r, hr⟩
      cases hr
    · rintro ⟨b', hb', -⟩
      cases hb'
  | ok b' =>
    constructor
    · rintro ⟨r, hr⟩
      exact ⟨b', rfl, r, hr⟩
    · rintro ⟨b'', hb'', r, hr⟩
      obtain rfl := Except.ok.inj hb''
      exact ⟨r, hr⟩

lemma nodup_toList_append (o : Option α) (l seen : List α) :
    (l ++ (o.toList ++ seen)).Nodup ↔ (o.toList ++ l ++ seen).Nodup := by
  cases o with
  | none => rfl
  | some a => exact List.nodup_middle

lemma peers_ok_iff (l : List PeerInfo) (seen : Seen) (hids : seen.nodeIds.Nodup)
    (h4 : seen.ipv4.Nodup) (h6 : seen.ipv6.Nodup) :
    (∃ seen', l.foldlM (s.validatePeer blake3) seen = .ok seen') ↔
      (l.map PeerInfo.nodeId ++ seen.nodeIds).Nodup ∧
      (l.filterMap PeerInfo.virtualIpv4 ++ seen.ipv4).Nodup ∧
      (l.filterMap PeerInfo.virtualIpv6 ++ seen.ipv6).Nodup ∧ ∀ peer ∈ l, PeerValid blake3 s peer := by
  induction l generalizing seen with
  | nil => simp [hids, h4, h6, pure, Except.pure]
  | cons peer l ih =>
    -- an address that was not seen may be added
    have hadd : ∀ {α : Type} {o : Option α} {seen : List α}, seen.Nodup →
        (∀ a, o = some a → a ∉ seen) → (o.toList ++ seen).Nodup := by
      intro α o seen hseen hnew
      cases o with
      | none => exact hseen
      | some a => exact List.nodup_cons.2 ⟨hnew a rfl, hseen⟩
    -- and conversely
    have hnew : ∀ {α : Type} {o : Option α} {l seen : List α}, (o.toList ++ l ++ seen).Nodup →
        ∀ a, o = some a → a ∉ seen := by
      rintro α o l seen hnodup a rfl hmem
      exact (List.nodup_cons.1 hnodup).1 (List.mem_append_right _ hmem)
    have hfilter : ∀ {α : Type} (f : PeerInfo → Option α),
        (peer :: l).filterMap f = (f peer).toList ++ l.filterMap f := by
      intro α f
      rw [List.filterMap_cons]
      cases f peer <;> rfl
    rw [foldlM_cons_ok, hfilter, hfilter, List.forall_mem_cons]
    constructor
    · rintro ⟨seen', hpeer, hrest⟩
      obtain ⟨⟨hid, hkey⟩, hipv4, hipv6, rfl⟩ := validatePeer_eq_ok.1 hpeer
      have hseen4 := hadd h4 fun a ha => (hipv4 a ha).1
      have hseen6 := hadd h6 fun a ha => (hipv6 a ha).1
      obtain ⟨hids', h4', h6', hvalid⟩ :=
        (ih _ (List.nodup_cons.2 ⟨hid, hids⟩) hseen4 hseen6).1 hrest
      refine ⟨List.nodup_middle.1 hids', (nodup_toList_append _ _ _).1 h4',
        (nodup_toList_append _ _ _).1 h6', ⟨hkey, ?_, ?_⟩, hvalid⟩
      · exact fun a ha => (hipv4 a ha).2
      · exact fun a ha => (hipv6 a ha).2
    · rintro ⟨hids', h4', h6', hpeer, hvalid⟩
      have hid : peer.nodeId ∉ seen.nodeIds := by
        intro hmem
        exact (List.nodup_cons.1 hids').1 (List.mem_append_right _ hmem)
      refine ⟨_, validatePeer_eq_ok.2 ⟨⟨hid, hpeer.key⟩, ?_, ?_, rfl⟩, ?_⟩
      · exact fun a ha => ⟨hnew h4' a ha, hpeer.ipv4 a ha⟩
      · exact fun a ha => ⟨hnew h6' a ha, hpeer.ipv6 a ha⟩
      · refine (ih _ (List.nodup_cons.2 ⟨hid, hids⟩) (hadd h4 (hnew h4')) (hadd h6 (hnew h6'))).2 ?_
        exact ⟨List.nodup_middle.2 hids', (nodup_toList_append _ _ _).2 h4',
          (nodup_toList_append _ _ _).2 h6', hvalid⟩

lemma validateOnline_eq_ok {seen seen' : List NodeId} {nodeId : NodeId} :
    s.validateOnline seen nodeId = .ok seen' ↔
      (nodeId ∈ s.peers.map PeerInfo.nodeId ∧ nodeId ∉ seen) ∧ seen' = nodeId :: seen := by
  unfold validateOnline
  rw [check_eq_ok, not_or, not_not]
  refine and_congr_right fun _ => ?_
  exact ⟨fun h => (Except.ok.inj h).symm, fun h => h ▸ rfl⟩

lemma online_ok_iff (l seen : List NodeId) (hseen : seen.Nodup) :
    (∃ seen', l.foldlM s.validateOnline seen = .ok seen') ↔
      (l ++ seen).Nodup ∧ ∀ nodeId ∈ l, nodeId ∈ s.peers.map PeerInfo.nodeId := by
  induction l generalizing seen with
  | nil => simp [hseen, pure, Except.pure]
  | cons nodeId l ih =>
    rw [foldlM_cons_ok, List.forall_mem_cons]
    constructor
    · rintro ⟨seen', hstep, hrest⟩
      obtain ⟨⟨hlisted, hnew⟩, rfl⟩ := validateOnline_eq_ok.1 hstep
      obtain ⟨hnodup, hall⟩ := (ih _ (List.nodup_cons.2 ⟨hnew, hseen⟩)).1 hrest
      exact ⟨List.nodup_middle.1 hnodup, hlisted, hall⟩
    · rintro ⟨hnodup, hlisted, hall⟩
      have hnew : nodeId ∉ seen := by
        intro hmem
        exact (List.nodup_cons.1 hnodup).1 (List.mem_append_right _ hmem)
      refine ⟨_, validateOnline_eq_ok.2 ⟨⟨hlisted, hnew⟩, rfl⟩, ?_⟩
      exact (ih _ (List.nodup_cons.2 ⟨hnew, hseen⟩)).2 ⟨List.nodup_middle.2 hnodup, hall⟩

/-- **What `validate` accepts.** -/
theorem validate_eq_ok_iff : s.validate blake3 = .ok () ↔ s.Valid blake3 := by
  have hpeers := @peers_ok_iff blake3 s s.peers ⟨[], [], []⟩ .nil .nil .nil
  have honline := online_ok_iff (s := s) s.onlinePeers [] .nil
  simp only [List.append_nil] at hpeers honline
  unfold validate
  rw [check_eq_ok]
  constructor
  · rintro ⟨hgeneration, h⟩
    cases h4 : validateIpv4Cidr s.virtualIpv4 with
    | error error => rw [h4] at h; cases h
    | ok _ =>
      cases h6 : validateIpv6Cidr s.virtualIpv6 with
      | error error => rw [h4, h6] at h; cases h
      | ok _ =>
        cases hp : s.peers.foldlM (s.validatePeer blake3) ⟨[], [], []⟩ with
        | error error => rw [h4, h6, hp] at h; cases h
        | ok seen =>
          cases ho : s.onlinePeers.foldlM s.validateOnline [] with
          | error error => rw [h4, h6, hp, ho] at h; cases h
          | ok online =>
            obtain ⟨hids, hipv4, hipv6, hvalid⟩ := hpeers.1 ⟨seen, hp⟩
            obtain ⟨hnodup, hlisted⟩ := honline.1 ⟨online, ho⟩
            exact ⟨hgeneration, h4, h6, hids, hipv4, hipv6, hvalid, hnodup, hlisted⟩
  · intro h
    refine ⟨h.generation, ?_⟩
    obtain ⟨seen, hp⟩ := hpeers.2 ⟨h.nodeIds, h.ipv4, h.ipv6, h.peers⟩
    obtain ⟨online, ho⟩ := honline.2 ⟨h.onlineNodup, h.onlineListed⟩
    rw [h.ipv4Cidr, h.ipv6Cidr, hp, ho]
    rfl

/-! ### The masks as arithmetic -/

/-- Masking with a prefix rounds down to a multiple of the size of the host part. -/
lemma toNat_and_prefixMask (x : BitVec w) (h : prefixLen.toNat ≤ w) :
    (x &&& prefixMask w prefixLen).toNat =
      x.toNat / 2 ^ (w - prefixLen.toNat) * 2 ^ (w - prefixLen.toNat) := by
  have hmask : prefixMask w prefixLen = BitVec.allOnes w <<< (w - prefixLen.toNat) := by
    unfold prefixMask
    split
    · rename_i hzero
      subst hzero
      -- with no prefix the code avoids the shift by the whole width, which would give zero too
      apply BitVec.eq_of_getLsbD_eq
      intro i hi
      simp [hi]
    · rfl
  rw [hmask, ← BitVec.shiftLeft_ushiftRight, BitVec.toNat_shiftLeft, BitVec.toNat_ushiftRight,
    Nat.shiftRight_eq_div_pow, Nat.shiftLeft_eq]
  apply Nat.mod_eq_of_lt
  exact lt_of_le_of_lt (Nat.div_mul_le_self _ _) x.isLt

lemma inNetwork_iff (network address : BitVec w) (h : prefixLen.toNat ≤ w) :
    inNetwork network address prefixLen = true ↔
      network.toNat / 2 ^ (w - prefixLen.toNat) = address.toNat / 2 ^ (w - prefixLen.toNat) ∧
      2 ^ (w - prefixLen.toNat) ∣ network.toNat := by
  have hpos : 0 < 2 ^ (w - prefixLen.toNat) := Nat.two_pow_pos _
  unfold inNetwork
  rw [Bool.and_eq_true, beq_iff_eq, beq_iff_eq, ← BitVec.toNat_inj, ← BitVec.toNat_inj,
    toNat_and_prefixMask _ h, toNat_and_prefixMask _ h]
  refine and_congr ?_ ?_
  · exact Nat.mul_left_inj hpos.ne'
  · exact (Nat.dvd_iff_div_mul_eq _ _).symm

/-- A network: its prefix fits the width, and the bits beyond the prefix are zero. -/
def IsNetwork {w : ℕ} (network : BitVec w) (prefixLen : UInt8) : Prop :=
  prefixLen.toNat ≤ w ∧ ∀ i < w - prefixLen.toNat, network.getLsbD i = false

/-- Two addresses with the same network part. -/
def SameNetwork {w : ℕ} (network address : BitVec w) (prefixLen : UInt8) : Prop :=
  address.toNat / 2 ^ (w - prefixLen.toNat) = network.toNat / 2 ^ (w - prefixLen.toNat)

lemma two_pow_dvd_iff (x : BitVec w) (k : ℕ) : 2 ^ k ∣ x.toNat ↔ ∀ i < k, x.getLsbD i = false := by
  rw [Nat.dvd_iff_mod_eq_zero]
  constructor
  · intro h i hi
    have hbit := Nat.testBit_mod_two_pow x.toNat k i
    rw [h, Nat.zero_testBit] at hbit
    rw [decide_eq_true hi, Bool.true_and] at hbit
    exact hbit.symm
  · intro h
    apply Nat.eq_of_testBit_eq
    intro i
    rw [Nat.testBit_mod_two_pow, Nat.zero_testBit, Bool.and_eq_false_iff]
    by_cases hi : i < k
    · exact .inr (h i hi)
    · exact .inl (decide_eq_false hi)

lemma validateCidr_eq_ok {family : String} :
    validateCidr family w prefixLen.toNat (inNetwork network network prefixLen) = .ok () ↔
      IsNetwork network prefixLen := by
  unfold validateCidr IsNetwork
  by_cases hlen : prefixLen.toNat ≤ w
  · rw [if_neg (by omega), ← two_pow_dvd_iff]
    have hnetwork := inNetwork_iff network network hlen
    cases hin : inNetwork network network prefixLen with
    | true => exact iff_of_true rfl ⟨hlen, (hnetwork.1 hin).2⟩
    | false =>
      rw [hin] at hnetwork
      exact iff_of_false nofun fun h => nomatch hnetwork.2 ⟨rfl, h.2⟩
  · rw [if_pos (by omega)]
    exact iff_of_false nofun fun h => hlen h.1

lemma inNetwork_of_isNetwork (h : IsNetwork network prefixLen) (address : BitVec w) :
    inNetwork network address prefixLen = true ↔ SameNetwork network address prefixLen := by
  rw [inNetwork_iff _ _ h.1]
  exact ⟨fun hin => hin.1.symm, fun hsame => ⟨hsame.symm, (two_pow_dvd_iff _ _).2 h.2⟩⟩

/-- A snapshot that keeps its own rules, in the terms of addresses as numbers. -/
structure WellFormed (blake3 : List UInt8 → Vector UInt8 32) (s : NetworkSnapshot) : Prop where
  generation : s.generation ≠ 0
  ipv4Cidr : ∀ cidr ∈ s.virtualIpv4, IsNetwork cidr.address.toBits cidr.prefixLen
  ipv6Cidr : ∀ cidr ∈ s.virtualIpv6, IsNetwork cidr.address.toBits cidr.prefixLen
  nodeIds : (s.peers.map PeerInfo.nodeId).Nodup
  keys : ∀ peer ∈ s.peers, peer.nodeId = ⟨blake3 peer.signingPublic.toList⟩
  ipv4Nodup : (s.peers.filterMap PeerInfo.virtualIpv4).Nodup
  ipv4 : ∀ peer ∈ s.peers, ∀ address ∈ peer.virtualIpv4, ∃ cidr ∈ s.virtualIpv4,
    SameNetwork cidr.address.toBits address.toBits cidr.prefixLen
  ipv6Nodup : (s.peers.filterMap PeerInfo.virtualIpv6).Nodup
  ipv6 : ∀ peer ∈ s.peers, ∀ address ∈ peer.virtualIpv6, ∃ cidr ∈ s.virtualIpv6,
    SameNetwork cidr.address.toBits address.toBits cidr.prefixLen
  onlineNodup : s.onlinePeers.Nodup
  onlineListed : ∀ nodeId ∈ s.onlinePeers, ∃ peer ∈ s.peers, peer.nodeId = nodeId

lemma validateIpv4Cidr_eq_ok {cidr : Option Ipv4Cidr} :
    validateIpv4Cidr cidr = .ok () ↔ ∀ c ∈ cidr, IsNetwork c.address.toBits c.prefixLen := by
  cases cidr with
  | none => exact iff_of_true rfl nofun
  | some c =>
    rw [show validateIpv4Cidr (some c) = validateCidr "IPv4" 32 c.prefixLen.toNat
      (inNetwork c.address.toBits c.address.toBits c.prefixLen) from rfl, validateCidr_eq_ok]
    simp

lemma validateIpv6Cidr_eq_ok {cidr : Option Ipv6Cidr} :
    validateIpv6Cidr cidr = .ok () ↔ ∀ c ∈ cidr, IsNetwork c.address.toBits c.prefixLen := by
  cases cidr with
  | none => exact iff_of_true rfl nofun
  | some c =>
    rw [show validateIpv6Cidr (some c) = validateCidr "IPv6" 128 c.prefixLen.toNat
      (inNetwork c.address.toBits c.address.toBits c.prefixLen) from rfl, validateCidr_eq_ok]
    simp

lemma any_inNetwork_iff {cidr : Option α} {network : α → BitVec w} {prefixLen : α → UInt8}
    (hcidr : ∀ c ∈ cidr, IsNetwork (network c) (prefixLen c)) (address : BitVec w) :
    (cidr.any fun c => inNetwork (network c) address (prefixLen c)) = true ↔
      ∃ c ∈ cidr, SameNetwork (network c) address (prefixLen c) := by
  cases cidr with
  | none => exact iff_of_false nofun nofun
  | some c =>
    have hc := inNetwork_of_isNetwork (hcidr c rfl) address
    constructor
    · intro h
      exact ⟨c, rfl, hc.1 h⟩
    · rintro ⟨c', hc', h⟩
      cases hc'
      exact hc.2 h

lemma valid_iff_wellFormed : s.Valid blake3 ↔ s.WellFormed blake3 := by
  have honline : ∀ nodeId, nodeId ∈ s.peers.map PeerInfo.nodeId ↔
      ∃ peer ∈ s.peers, peer.nodeId = nodeId := fun nodeId => List.mem_map
  constructor
  · intro h
    have h4 := validateIpv4Cidr_eq_ok.1 h.ipv4Cidr
    have h6 := validateIpv6Cidr_eq_ok.1 h.ipv6Cidr
    refine ⟨h.generation, h4, h6, h.nodeIds, fun peer hpeer => (h.peers peer hpeer).key, h.ipv4, ?_,
      h.ipv6, ?_, h.onlineNodup, fun nodeId hn => (honline nodeId).1 (h.onlineListed nodeId hn)⟩
    · intro peer hpeer address haddress
      exact (any_inNetwork_iff h4 _).1 ((h.peers peer hpeer).ipv4 address haddress)
    · intro peer hpeer address haddress
      exact (any_inNetwork_iff h6 _).1 ((h.peers peer hpeer).ipv6 address haddress)
  · intro h
    refine ⟨h.generation, validateIpv4Cidr_eq_ok.2 h.ipv4Cidr, validateIpv6Cidr_eq_ok.2 h.ipv6Cidr,
      h.nodeIds, h.ipv4Nodup, h.ipv6Nodup, fun peer hpeer => ⟨h.keys peer hpeer, ?_, ?_⟩,
      h.onlineNodup, fun nodeId hn => (honline nodeId).2 (h.onlineListed nodeId hn)⟩
    · intro address haddress
      exact (any_inNetwork_iff h.ipv4Cidr _).2 (h.ipv4 peer hpeer address haddress)
    · intro address haddress
      exact (any_inNetwork_iff h.ipv6Cidr _).2 (h.ipv6 peer hpeer address haddress)

/-! ### No panic

The same checks with the subtraction and the shift of the masks as Rust has them: `32 - prefix_len`
panics for a longer prefix, and a shift by the whole width does too. -/

def prefixMaskOutcome (w : ℕ) (prefixLen : UInt8) : Outcome ProtoError (BitVec w) := do
  if prefixLen = 0 then return 0
  else
    let shift ← Outcome.sub w prefixLen.toNat
    Outcome.shiftLeft (BitVec.allOnes w) shift

def inNetworkOutcome {w : ℕ} (network address : BitVec w) (prefixLen : UInt8) :
    Outcome ProtoError Bool := do
  let mask ← prefixMaskOutcome w prefixLen
  return network &&& mask == address &&& mask && network &&& mask == network

/-- `cidr.is_some_and(..)` -/
def anyOutcome {α : Type} (test : α → Outcome ProtoError Bool) : Option α → Outcome ProtoError Bool
  | none => .ok false
  | some a => test a

def validateCidrOutcome {w : ℕ} (family : String) (network : BitVec w) (prefixLen : UInt8) :
    Outcome ProtoError Unit := do
  if w < prefixLen.toNat then .ofExcept (invalid ("invalid " ++ family ++ " prefix length"))
  else
    let canonical ← inNetworkOutcome network network prefixLen
    if !canonical then .ofExcept (invalid (family ++ " network address is not canonical"))
    else return ()

def validateIpv4CidrOutcome : Option Ipv4Cidr → Outcome ProtoError Unit
  | none => .ok ()
  | some cidr => validateCidrOutcome "IPv4" cidr.address.toBits cidr.prefixLen

def validateIpv6CidrOutcome : Option Ipv6Cidr → Outcome ProtoError Unit
  | none => .ok ()
  | some cidr => validateCidrOutcome "IPv6" cidr.address.toBits cidr.prefixLen

/-- The check of one optional address of a peer. -/
def validateAddressOutcome {α β : Type} [DecidableEq α] (message : String) (seen : List α)
    (test : β → α → Outcome ProtoError Bool) (cidr : Option β) :
    Option α → Outcome ProtoError Unit
  | none => .ok ()
  | some address => do
    let validNetwork ← anyOutcome (test · address) cidr
    if address ∈ seen ∨ !validNetwork then .ofExcept (invalid message) else return ()

def validatePeerOutcome (blake3 : List UInt8 → Vector UInt8 32) (s : NetworkSnapshot) (seen : Seen)
    (peer : PeerInfo) : Outcome ProtoError Seen := do
  if peer.nodeId ∈ seen.nodeIds ∨ peer.nodeId ≠ ⟨blake3 peer.signingPublic.toList⟩ then
    .ofExcept (invalid "invalid or duplicate peer identity")
  else
    pure ()
  validateAddressOutcome "invalid or duplicate virtual IPv4" seen.ipv4
    (fun cidr address => inNetworkOutcome cidr.address.toBits address.toBits cidr.prefixLen)
    s.virtualIpv4 peer.virtualIpv4
  validateAddressOutcome "invalid or duplicate virtual IPv6" seen.ipv6
    (fun cidr address => inNetworkOutcome cidr.address.toBits address.toBits cidr.prefixLen)
    s.virtualIpv6 peer.virtualIpv6
  return { nodeIds := peer.nodeId :: seen.nodeIds
           ipv4 := peer.virtualIpv4.toList ++ seen.ipv4
           ipv6 := peer.virtualIpv6.toList ++ seen.ipv6 }

/-- `NetworkSnapshot::validate` with its panics. -/
def validateOutcome (blake3 : List UInt8 → Vector UInt8 32) (s : NetworkSnapshot) :
    Outcome ProtoError Unit := do
  if s.generation = 0 then .ofExcept (invalid "generation must be non-zero")
  else
    validateIpv4CidrOutcome s.virtualIpv4
    validateIpv6CidrOutcome s.virtualIpv6
    let _ ← s.peers.foldlM (s.validatePeerOutcome blake3) ⟨[], [], []⟩
    let _ ← s.onlinePeers.foldlM (fun seen nodeId => .ofExcept (s.validateOnline seen nodeId)) []
    return ()

lemma inNetworkOutcome_eq (network address : BitVec w) (h : prefixLen.toNat ≤ w) :
    inNetworkOutcome network address prefixLen = .ok (inNetwork network address prefixLen) := by
  have hmask : prefixMaskOutcome w prefixLen = .ok (prefixMask w prefixLen) := by
    unfold prefixMaskOutcome prefixMask
    split
    · rfl
    · rename_i hne
      have hpos : 0 < prefixLen.toNat := by
        rw [Nat.pos_iff_ne_zero]
        exact fun h0 => hne (UInt8.toNat_inj.1 h0)
      rw [Outcome.sub_of_le h, Outcome.ok_bind, Outcome.shiftLeft_of_lt _ (by omega)]
  unfold inNetworkOutcome
  rw [hmask]
  rfl

lemma validateCidrOutcome_eq (family : String) (network : BitVec w) (prefixLen : UInt8) :
    validateCidrOutcome family network prefixLen =
      .ofExcept (validateCidr family w prefixLen.toNat (inNetwork network network prefixLen)) := by
  unfold validateCidrOutcome validateCidr
  split
  · rfl
  · rename_i hlen
    rw [inNetworkOutcome_eq _ _ (by omega), Outcome.ok_bind, Outcome.ofExcept_ite]
    rfl

/-- Every CIDR that a later test uses has passed its own. -/
lemma validatePeerOutcome_eq (h4 : ∀ cidr ∈ s.virtualIpv4, cidr.prefixLen.toNat ≤ 32)
    (h6 : ∀ cidr ∈ s.virtualIpv6, cidr.prefixLen.toNat ≤ 128) (seen : Seen) (peer : PeerInfo) :
    s.validatePeerOutcome blake3 seen peer = .ofExcept (s.validatePeer blake3 seen peer) := by
  have hany4 : ∀ address : Ipv4Addr, anyOutcome (fun cidr : Ipv4Cidr =>
      inNetworkOutcome cidr.address.toBits address.toBits cidr.prefixLen) s.virtualIpv4 =
        .ok (s.virtualIpv4.any fun cidr => ipv4InNetwork cidr.address address cidr.prefixLen) := by
    intro address
    cases hcidr : s.virtualIpv4 with
    | none => rfl
    | some cidr => exact inNetworkOutcome_eq _ _ (h4 cidr hcidr)
  have hany6 : ∀ address : Ipv6Addr, anyOutcome (fun cidr : Ipv6Cidr =>
      inNetworkOutcome cidr.address.toBits address.toBits cidr.prefixLen) s.virtualIpv6 =
        .ok (s.virtualIpv6.any fun cidr => ipv6InNetwork cidr.address address cidr.prefixLen) := by
    intro address
    cases hcidr : s.virtualIpv6 with
    | none => rfl
    | some cidr => exact inNetworkOutcome_eq _ _ (h6 cidr hcidr)
  unfold validatePeerOutcome validatePeer
  cases peer.virtualIpv4 with
  | none =>
    cases peer.virtualIpv6 with
    | none => split_ifs <;> rfl
    | some b =>
      simp only [validateAddressOutcome, hany6, Outcome.ok_bind]
      split_ifs <;> rfl
  | some a =>
    cases peer.virtualIpv6 with
    | none =>
      simp only [validateAddressOutcome, hany4, Outcome.ok_bind]
      split_ifs <;> rfl
    | some b =>
      simp only [validateAddressOutcome, hany4, hany6, Outcome.ok_bind]
      split_ifs <;> rfl

lemma validateOutcome_eq : s.validateOutcome blake3 = .ofExcept (s.validate blake3) := by
  have h4 : validateIpv4CidrOutcome s.virtualIpv4 = .ofExcept (validateIpv4Cidr s.virtualIpv4) := by
    cases s.virtualIpv4 with
    | none => rfl
    | some cidr => exact validateCidrOutcome_eq ..
  have h6 : validateIpv6CidrOutcome s.virtualIpv6 = .ofExcept (validateIpv6Cidr s.virtualIpv6) := by
    cases s.virtualIpv6 with
    | none => rfl
    | some cidr => exact validateCidrOutcome_eq ..
  unfold validateOutcome validate
  split
  · rfl
  rw [Outcome.ofExcept_bind, h4]
  cases hcidr4 : validateIpv4Cidr s.virtualIpv4 with
  | error error => rfl
  | ok _ =>
    rw [Outcome.ofExcept_ok, Outcome.ok_bind, Outcome.ok_bind, Outcome.ofExcept_bind, h6]
    cases hcidr6 : validateIpv6Cidr s.virtualIpv6 with
    | error error => rfl
    | ok _ =>
      have hpeer : ∀ seen, ∀ peer ∈ s.peers,
          s.validatePeerOutcome blake3 seen peer = .ofExcept (s.validatePeer blake3 seen peer) := by
        intro seen peer _
        apply validatePeerOutcome_eq
        · exact fun cidr hcidr => (validateIpv4Cidr_eq_ok.1 hcidr4 cidr hcidr).1
        · exact fun cidr hcidr => (validateIpv6Cidr_eq_ok.1 hcidr6 cidr hcidr).1
      rw [Outcome.ofExcept_ok, Outcome.ok_bind, Outcome.ok_bind, Outcome.ofExcept_bind,
        Outcome.foldlM_ofExcept hpeer]
      congr 1
      funext seen
      rw [Outcome.ofExcept_bind, Outcome.foldlM_ofExcept fun _ _ _ => rfl]
      rfl

/-- **Validation is exact, and never panics**, whatever the prefix lengths are. -/
theorem validate_exact (blake3 : List UInt8 → Vector UInt8 32) (s : NetworkSnapshot) :
    (s.validateOutcome blake3).Returns ∧
      (s.validateOutcome blake3 = .ok () ↔ s.WellFormed blake3) := by
  rw [validateOutcome_eq]
  refine ⟨Outcome.returns_ofExcept _, ?_⟩
  rw [Outcome.ofExcept_eq_ok, validate_eq_ok_iff, valid_iff_wellFormed]

end NetworkSnapshot

end Vela.Proto
