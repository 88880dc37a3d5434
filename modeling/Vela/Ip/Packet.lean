import Vela.Proto.Types
import Vela.Lib.OnesComplement
import Mathlib

/-!
# IP packets and host routes

`vela-ip`: the validation of IPv4 and IPv6 packets, and the table of host routes.  An `IpPacket`
carries the proof that its bytes were accepted with its fields, so there is no other way to have one
than to parse it.

* `ip_packet_exact` — what `parse` accepts and what the accessors return.
-/

namespace Vela.Ip

open Vela.Proto Codec

inductive IpVersion where
  | v4
  | v6
  deriving DecidableEq, Repr

inductive IpError where
  | truncated
  | unsupportedVersion (version : UInt8)
  | invalidHeaderLength
  | invalidTotalLength
  | lengthMismatch (declared actual : ℕ)
  | invalidChecksum
  | sourceNotLocal (address : IpAddr)
  | destinationUnknown (address : IpAddr)
  deriving DecidableEq, Repr

/-! ### The checksum -/

/-- One round of the loop that folds the carry of a `u32` back into 16 bits; after two the sum of a
16-bit word and another fits. -/
def carry (sum : ℕ) : ℕ := if 65535 < sum then sum % 65536 + sum / 65536 else sum

def checksumLoop : ℕ → List UInt8 → ℕ
  | sum, [] => sum
  | sum, [a] => carry (carry ((sum + a.toNat * 256) % 2 ^ 32))
  | sum, a :: b :: rest =>
    checksumLoop (carry (carry ((sum + (a.toNat * 256 + b.toNat)) % 2 ^ 32))) rest

def checksum (data : List UInt8) : UInt16 := ~~~ UInt16.ofNat (checksumLoop 0 data)

/-! ### Packets -/

/-- What `parse` reads off the header. -/
structure Fields where
  version : IpVersion
  source : IpAddr
  destination : IpAddr
  protocol : UInt8
  deriving DecidableEq, Repr

def ipv4At (bytes : List UInt8) (start : ℕ) : Ipv4Addr :=
  ⟨Vector.ofFn fun i => bytes.getD (start + i) 0⟩

def ipv6At (bytes : List UInt8) (start : ℕ) : Ipv6Addr :=
  ⟨Vector.ofFn fun i => bytes.getD (start + i) 0⟩

/-- `u16::from_be_bytes([bytes[i], bytes[i + 1]])` -/
def u16At (bytes : List UInt8) (start : ℕ) : ℕ := ofBeBytes ((bytes.drop start).take 2)

def parseV4 (bytes : List UInt8) : Except IpError Fields :=
  if bytes.length < 20 then .error .truncated
  else
    let headerLen := (bytes.getD 0 0 &&& 0x0f).toNat * 4
    if headerLen < 20 then .error .invalidHeaderLength
    else if bytes.length < headerLen then .error .truncated
    else
      let totalLen := u16At bytes 2
      if totalLen < headerLen then .error .invalidTotalLength
      else if totalLen ≠ bytes.length then .error (.lengthMismatch totalLen bytes.length)
      else if checksum (bytes.take headerLen) ≠ 0 then .error .invalidChecksum
      else .ok { version := .v4, source := .v4 (ipv4At bytes 12), destination := .v4 (ipv4At bytes 16)
                 protocol := bytes.getD 9 0 }

def parseV6 (bytes : List UInt8) : Except IpError Fields :=
  if bytes.length < 40 then .error .truncated
  else
    let totalLen := 40 + u16At bytes 4
    if totalLen ≠ bytes.length then .error (.lengthMismatch totalLen bytes.length)
    else .ok { version := .v6, source := .v6 (ipv6At bytes 8), destination := .v6 (ipv6At bytes 24)
               protocol := bytes.getD 6 0 }

def parseFields (bytes : List UInt8) : Except IpError Fields :=
  if bytes.isEmpty then .error .truncated
  else
    let version := bytes.getD 0 0 >>> 4
    if version = 4 then parseV4 bytes
    else if version = 6 then parseV6 bytes
    else .error (.unsupportedVersion version)

structure IpPacket where
  bytes : List UInt8
  fields : Fields
  valid : parseFields bytes = .ok fields
  deriving DecidableEq

namespace IpPacket

def parse (bytes : List UInt8) : Except IpError IpPacket :=
  match h : parseFields bytes with
  | .ok fields => .ok ⟨bytes, fields, h⟩
  | .error error => .error error

def intoBytes (packet : IpPacket) : List UInt8 := packet.bytes
def version (packet : IpPacket) : IpVersion := packet.fields.version
def protocol (packet : IpPacket) : UInt8 := packet.fields.protocol
def source (packet : IpPacket) : IpAddr := packet.fields.source
def destination (packet : IpPacket) : IpAddr := packet.fields.destination

lemma parse_bytes (packet : IpPacket) : parse packet.bytes = .ok packet := by
  obtain ⟨bytes, fields, valid⟩ := packet
  unfold parse
  split
  · rename_i fields' h
    obtain rfl : fields' = fields := by
      rw [valid] at h
      exact (Except.ok.inj h).symm
    rfl
  · rename_i error h
    rw [valid] at h
    cases h

lemma bytes_of_parse {bytes : List UInt8} {packet : IpPacket} (h : parse bytes = .ok packet) :
    packet.bytes = bytes := by
  unfold parse at h
  split at h
  · obtain rfl := Except.ok.inj h
    rfl
  · cases h

end IpPacket

/-! ### What is accepted -/

/-- The big-endian words of a byte string; a byte that is left over is the high half of one. -/
def words : List UInt8 → List ℕ
  | [] => []
  | [a] => [a.toNat * 256]
  | a :: b :: rest => (a.toNat * 256 + b.toNat) :: words rest

lemma words_lt (data : List UInt8) : ∀ w ∈ words data, w < 65536 := by
  fun_induction words data with
  | case1 => exact nofun
  | case2 a =>
    have ha := a.toNat_lt
    intro w hw
    obtain rfl := List.mem_singleton.1 hw
    omega
  | case3 a b rest ih =>
    have ha := a.toNat_lt
    have hb := b.toNat_lt
    exact List.forall_mem_cons.2 ⟨by omega, ih⟩

lemma words_append {l : List UInt8} (m : List UInt8) (h : l.length % 2 = 0) :
    words (l ++ m) = words l ++ words m := by
  fun_induction words l with
  | case1 => rfl
  | case2 a => simp at h
  | case3 a b rest ih =>
    have hrest : rest.length % 2 = 0 := by
      simp only [List.length_cons] at h
      omega
    rw [List.cons_append, List.cons_append, words, ih hrest, List.cons_append]

lemma checksumLoop_eq {sum : ℕ} (data : List UInt8) (h : sum < 65536) :
    checksumLoop sum data = (words data).foldl OnesComplement.add sum := by
  have hround : ∀ sum word, sum < 65536 → word < 65536 →
      carry (carry ((sum + word) % 2 ^ 32)) = OnesComplement.add sum word := by
    intro sum word hsum hword
    rw [Nat.mod_eq_of_lt (by omega)]
    unfold carry OnesComplement.add
    split_ifs <;> omega
  fun_induction checksumLoop sum data with
  | case1 sum => rfl
  | case2 sum a =>
    have ha := a.toNat_lt
    exact hround _ _ h (by omega)
  | case3 sum a b rest ih =>
    have ha := a.toNat_lt
    have hb := b.toNat_lt
    have hadd : OnesComplement.add sum (a.toNat * 256 + b.toNat) < 65536 := by
      unfold OnesComplement.add
      split_ifs <;> omega
    rw [hround _ _ h (by omega)] at ih ⊢
    exact ih hadd

lemma checksum_eq (data : List UInt8) :
    (checksum data).toNat = 65535 - OnesComplement.sum (words data) := by
  have hlt := (OnesComplement.foldl_add (by omega : 0 < 65536) (words_lt data)).1
  unfold checksum
  rw [checksumLoop_eq data (by omega), UInt16.toNat_not, UInt16.toNat_ofNat']
  unfold OnesComplement.sum
  simp only [UInt16.size]
  omega

lemma checksum_eq_zero_iff (data : List UInt8) :
    checksum data = 0 ↔ OnesComplement.sum (words data) = 65535 := by
  have hlt := (OnesComplement.foldl_add (by omega : 0 < 65536) (words_lt data)).1
  have heq := checksum_eq data
  rw [← UInt16.toNat_inj]
  unfold OnesComplement.sum at heq ⊢
  rw [heq]
  simp only [UInt16.toNat_zero]
  omega

/-- The header length of an IPv4 packet, in bytes. -/
def ipv4HeaderLen (bytes : List UInt8) : ℕ := (bytes.getD 0 0).toNat % 16 * 4

/-- Everything that is asked of an IPv4 packet but its checksum. -/
structure Ipv4Layout (bytes : List UInt8) : Prop where
  version : (bytes.getD 0 0).toNat / 16 = 4
  headerLen : 5 ≤ (bytes.getD 0 0).toNat % 16 ∧ (bytes.getD 0 0).toNat % 16 ≤ 15
  length : u16At bytes 2 = bytes.length
  header : ipv4HeaderLen bytes ≤ bytes.length

structure Ipv4Valid (bytes : List UInt8) : Prop extends Ipv4Layout bytes where
  checksum : OnesComplement.sum (words (bytes.take (ipv4HeaderLen bytes))) = 0xFFFF

structure Ipv6Valid (bytes : List UInt8) : Prop where
  version : (bytes.getD 0 0).toNat / 16 = 6
  length : u16At bytes 4 + 40 = bytes.length

lemma toNat_shiftRight_four (b : UInt8) : (b >>> 4).toNat = b.toNat / 16 := by
  rw [UInt8.toNat_shiftRight, Nat.shiftRight_eq_div_pow]
  rfl

lemma toNat_and_fifteen (b : UInt8) : (b &&& 0x0f).toNat = b.toNat % 16 := by
  rw [UInt8.toNat_and]
  exact Nat.and_two_pow_sub_one_eq_mod b.toNat 4

/-- Where an accepted packet of a version has what the accessors return. -/
def fieldsAt (version : IpVersion) (bytes : List UInt8) : Fields :=
  match version with
  | .v4 => { version := .v4, source := .v4 (ipv4At bytes 12), destination := .v4 (ipv4At bytes 16)
             protocol := bytes.getD 9 0 }
  | .v6 => { version := .v6, source := .v6 (ipv6At bytes 8), destination := .v6 (ipv6At bytes 24)
             protocol := bytes.getD 6 0 }

variable {bytes : List UInt8} {fields : Fields} {c : UInt16} {n : ℕ}

lemma parseV4_eq_ok (hversion : (bytes.getD 0 0).toNat / 16 = 4) :
    parseV4 bytes = .ok fields ↔ Ipv4Valid bytes ∧ fields = fieldsAt .v4 bytes := by
  have hlen := toNat_and_fifteen (bytes.getD 0 0)
  have hvalid : Ipv4Valid bytes ↔ ¬ bytes.length < 20 ∧ ¬ ipv4HeaderLen bytes < 20 ∧
      ¬ bytes.length < ipv4HeaderLen bytes ∧ ¬ u16At bytes 2 < ipv4HeaderLen bytes ∧
      ¬ u16At bytes 2 ≠ bytes.length ∧ ¬ checksum (bytes.take (ipv4HeaderLen bytes)) ≠ 0 := by
    rw [not_not, not_not, checksum_eq_zero_iff]
    constructor
    · rintro ⟨⟨-, hheader, htotal, hle⟩, hsum⟩
      unfold ipv4HeaderLen at hle ⊢
      refine ⟨?_, ?_, ?_, ?_, htotal, hsum⟩ <;> omega
    · rintro ⟨-, hheader, hle, -, htotal, hsum⟩
      refine ⟨⟨hversion, ?_, htotal, by omega⟩, hsum⟩
      unfold ipv4HeaderLen at hheader
      omega
  unfold parseV4
  simp only [hlen]
  rw [hvalid]
  unfold ipv4HeaderLen
  split_ifs <;> simp_all [fieldsAt, eq_comm]

lemma parseV6_eq_ok (hversion : (bytes.getD 0 0).toNat / 16 = 6) :
    parseV6 bytes = .ok fields ↔ Ipv6Valid bytes ∧ fields = fieldsAt .v6 bytes := by
  unfold parseV6
  by_cases hlen : u16At bytes 4 + 40 = bytes.length
  · rw [if_neg (by omega), if_neg (not_not.2 (by omega))]
    exact ⟨fun h => ⟨⟨hversion, hlen⟩, (Except.ok.inj h).symm⟩, fun h => congrArg Except.ok h.2.symm⟩
  · refine iff_of_false ?_ fun h => hlen h.1.length
    split
    · exact fun h => nomatch h
    · dsimp only
      rw [if_pos (by omega)]
      exact fun h => nomatch h

lemma parseFields_eq_ok :
    parseFields bytes = .ok fields ↔
      (Ipv4Valid bytes ∧ fields = fieldsAt .v4 bytes) ∨ (Ipv6Valid bytes ∧ fields = fieldsAt .v6 bytes) := by
  have hversion : ∀ n : UInt8, bytes.getD 0 0 >>> 4 = n ↔ (bytes.getD 0 0).toNat / 16 = n.toNat := by
    intro n
    rw [← UInt8.toNat_inj, toNat_shiftRight_four]
  unfold parseFields
  by_cases hempty : bytes = []
  · subst hempty
    refine iff_of_false (fun h => nomatch h) ?_
    rintro (⟨h, -⟩ | ⟨h, -⟩)
    · exact absurd h.version (by decide)
    · exact absurd h.version (by decide)
  rw [if_neg (by simpa using hempty)]
  dsimp only
  split_ifs with h4 h6
  · have hv := (hversion 4).1 h4
    rw [parseV4_eq_ok hv, or_iff_left]
    rintro ⟨h, -⟩
    exact absurd (hv.symm.trans h.version) (by decide)
  · have hv := (hversion 6).1 h6
    rw [parseV6_eq_ok hv, or_iff_right]
    rintro ⟨h, -⟩
    exact absurd (hv.symm.trans h.version) (by decide)
  · refine iff_of_false (fun h => nomatch h) ?_
    rintro (⟨h, -⟩ | ⟨h, -⟩)
    · exact h4 ((hversion 4).2 h.version)
    · exact h6 ((hversion 6).2 h.version)

lemma IpPacket.parse_eq_ok {packet : IpPacket} :
    IpPacket.parse bytes = .ok packet ↔ packet.bytes = bytes ∧ parseFields bytes = .ok packet.fields := by
  constructor
  · intro h
    obtain rfl := IpPacket.bytes_of_parse h
    exact ⟨rfl, packet.valid⟩
  · rintro ⟨rfl, -⟩
    exact packet.parse_bytes

/-- The packet with its checksum field overwritten. -/
def withChecksum (bytes : List UInt8) (checksum : UInt16) : List UInt8 :=
  bytes.take 10 ++ (beBytes 2 checksum.toNat ++ bytes.drop 12)

lemma getD_withChecksum {i : ℕ} (hi : i < 10) (hlen : 12 ≤ bytes.length) :
    (withChecksum bytes c).getD i 0 = bytes.getD i 0 := by
  have htake : i < (bytes.take 10).length := by
    rw [List.length_take]
    omega
  unfold withChecksum
  rw [List.getD_eq_getElem?_getD, List.getD_eq_getElem?_getD, List.getElem?_append_left htake,
    List.getElem?_take_of_lt hi]

lemma length_withChecksum (hlen : 12 ≤ bytes.length) :
    (withChecksum bytes c).length = bytes.length := by
  simp [withChecksum]
  omega

lemma Ipv4Layout.withChecksum (h : Ipv4Layout bytes) (c : UInt16) :
    Ipv4Layout (withChecksum bytes c) := by
  have hlen : 20 ≤ bytes.length := by
    have h1 := h.header
    have h2 := h.headerLen.1
    unfold ipv4HeaderLen at h1
    omega
  have h16 : u16At (Ip.withChecksum bytes c) 2 = u16At bytes 2 := by
    have htake : 2 ≤ ((bytes.take 10).drop 2).length := by
      rw [List.length_drop, List.length_take]
      omega
    unfold u16At Ip.withChecksum
    rw [List.drop_append_of_le_length (by rw [List.length_take]; omega), List.take_append_of_le_length htake,
      List.drop_take, List.take_take]
    rfl
  constructor
  · rw [getD_withChecksum (by omega) (by omega)]
    exact h.version
  · rw [getD_withChecksum (by omega) (by omega)]
    exact h.headerLen
  · rw [h16, length_withChecksum (by omega)]
    exact h.length
  · unfold ipv4HeaderLen
    rw [getD_withChecksum (by omega) (by omega), length_withChecksum (by omega)]
    exact h.header

lemma words_withChecksum (c : UInt16) (hn : 12 ≤ n) (hlen : 12 ≤ bytes.length) :
    words ((withChecksum bytes c).take n) =
      words (bytes.take 10) ++ c.toNat :: words ((bytes.drop 12).take (n - 12)) := by
  have htake : (withChecksum bytes c).take n =
      bytes.take 10 ++ (beBytes 2 c.toNat ++ (bytes.drop 12).take (n - 12)) := by
    have h10 : (bytes.take 10).length = 10 := by
      rw [List.length_take]
      omega
    unfold withChecksum
    rw [List.take_append, h10, List.take_of_length_le (by omega : (bytes.take 10).length ≤ n),
      List.take_append, length_beBytes,
      List.take_of_length_le (by rw [length_beBytes]; omega : (beBytes 2 c.toNat).length ≤ n - 10),
      show n - 10 - 2 = n - 12 by omega]
  have hword : words (beBytes 2 c.toNat ++ (bytes.drop 12).take (n - 12)) =
      c.toNat :: words ((bytes.drop 12).take (n - 12)) := by
    have hc := c.toNat_lt
    have hbytes : (UInt8.ofNat (c.toNat / 256 ^ 1)).toNat * 256 + (UInt8.ofNat (c.toNat / 256 ^ 0)).toNat =
        c.toNat := by
      rw [UInt8.toNat_ofNat', UInt8.toNat_ofNat']
      omega
    simp only [beBytes, List.cons_append, List.nil_append, words, hbytes]
  rw [htake, words_append _ (by rw [List.length_take]; omega), hword]

/-- The checksum of the header with a zero in its place makes the sum `0xFFFF`. -/
lemma Ipv4Layout.valid_withChecksum (h : Ipv4Layout bytes) :
    Ipv4Valid (Ip.withChecksum bytes
      (checksum ((Ip.withChecksum bytes 0).take (ipv4HeaderLen bytes)))) := by
  have hlen : 20 ≤ ipv4HeaderLen bytes ∧ ipv4HeaderLen bytes ≤ bytes.length := by
    have h2 := h.headerLen.1
    refine ⟨?_, h.header⟩
    unfold ipv4HeaderLen
    omega
  refine ⟨h.withChecksum _, ?_⟩
  have hheader : ∀ c, ipv4HeaderLen (Ip.withChecksum bytes c) = ipv4HeaderLen bytes := by
    intro c
    unfold ipv4HeaderLen
    rw [getD_withChecksum (by omega) (by omega)]
  rw [hheader, words_withChecksum _ (by omega) (by omega), checksum_eq,
    words_withChecksum _ (by omega) (by omega)]
  exact OnesComplement.sum_complement (words_lt _) (words_lt _)

lemma toList_ofFn_getD {start : ℕ} (h : start + n ≤ bytes.length) :
    (Vector.ofFn fun i : Fin n => bytes.getD (start + i) 0).toList = (bytes.drop start).take n := by
  apply List.ext_getElem
  · simp
    omega
  · intro i hi _
    have hi : i < n := by simpa using hi
    simp [show start + i < bytes.length by omega]

/-- **What `parse` accepts**, what an accepted packet's accessors return, and that a packet with the
right layout is accepted once its checksum is filled in. -/
theorem ip_packet_exact (bytes : List UInt8) :
    ((∃ packet, IpPacket.parse bytes = .ok packet) ↔ Ipv4Valid bytes ∨ Ipv6Valid bytes) ∧
    (∀ packet, IpPacket.parse bytes = .ok packet → packet.intoBytes = bytes ∧
      ((packet.version = .v4 ∧ Ipv4Valid bytes ∧ packet.protocol = bytes.getD 9 0 ∧
        ∃ source destination, packet.source = .v4 source ∧ packet.destination = .v4 destination ∧
          source.octets.toList = (bytes.drop 12).take 4 ∧
          destination.octets.toList = (bytes.drop 16).take 4) ∨
       (packet.version = .v6 ∧ Ipv6Valid bytes ∧ packet.protocol = bytes.getD 6 0 ∧
        ∃ source destination, packet.source = .v6 source ∧ packet.destination = .v6 destination ∧
          source.octets.toList = (bytes.drop 8).take 16 ∧
          destination.octets.toList = (bytes.drop 24).take 16))) ∧
    (Ipv4Layout bytes → ∃ packet, IpPacket.parse (withChecksum bytes
      (checksum ((withChecksum bytes 0).take (ipv4HeaderLen bytes)))) = .ok packet) := by
  have haccept : ∀ bytes, (∃ packet, IpPacket.parse bytes = .ok packet) ↔
      Ipv4Valid bytes ∨ Ipv6Valid bytes := by
    intro bytes
    constructor
    · rintro ⟨packet, h⟩
      rcases parseFields_eq_ok.1 (IpPacket.parse_eq_ok.1 h).2 with h | h
      · exact .inl h.1
      · exact .inr h.1
    · rintro (h | h)
      · exact ⟨⟨bytes, _, parseFields_eq_ok.2 (.inl ⟨h, rfl⟩)⟩, IpPacket.parse_eq_ok.2 ⟨rfl,
          parseFields_eq_ok.2 (.inl ⟨h, rfl⟩)⟩⟩
      · exact ⟨⟨bytes, _, parseFields_eq_ok.2 (.inr ⟨h, rfl⟩)⟩, IpPacket.parse_eq_ok.2 ⟨rfl,
          parseFields_eq_ok.2 (.inr ⟨h, rfl⟩)⟩⟩
  refine ⟨haccept bytes, fun packet h => ?_, fun h => (haccept _).2 (.inl h.valid_withChecksum)⟩
  obtain ⟨hbytes, hfields⟩ := IpPacket.parse_eq_ok.1 h
  refine ⟨hbytes, ?_⟩
  obtain ⟨_, fields, _⟩ := packet
  rcases parseFields_eq_ok.1 hfields with ⟨hvalid, rfl⟩ | ⟨hvalid, rfl⟩
  · have hlen : 20 ≤ bytes.length := by
      have h1 := hvalid.header
      have h2 := hvalid.headerLen.1
      unfold ipv4HeaderLen at h1
      omega
    exact .inl ⟨rfl, hvalid, rfl, _, _, rfl, rfl, toList_ofFn_getD (by omega), toList_ofFn_getD (by omega)⟩
  · have hlen := hvalid.length
    exact .inr ⟨rfl, hvalid, rfl, _, _, rfl, rfl, toList_ofFn_getD (by omega), toList_ofFn_getD (by omega)⟩

/-! ### Routes -/

structure RouteTable where
  localAddresses : List IpAddr
  routes : AList fun _ : IpAddr => NodeId

namespace RouteTable

def new (localAddresses : List IpAddr) : RouteTable := ⟨localAddresses, ∅⟩

def insert (table : RouteTable) (address : IpAddr) (peer : NodeId) : RouteTable :=
  { table with routes := table.routes.insert address peer }

def remove (table : RouteTable) (address : IpAddr) : RouteTable :=
  { table with routes := table.routes.erase address }

def peerFor (table : RouteTable) (address : IpAddr) : Option NodeId := table.routes.lookup address

def isLocal (table : RouteTable) (address : IpAddr) : Bool :=
  table.localAddresses.contains address

def validateOutbound (table : RouteTable) (packet : IpPacket) : Except IpError NodeId :=
  if table.isLocal packet.source then
    match table.peerFor packet.destination with
    | some peer => .ok peer
    | none => .error (.destinationUnknown packet.destination)
  else .error (.sourceNotLocal packet.source)

end RouteTable

end Vela.Ip
