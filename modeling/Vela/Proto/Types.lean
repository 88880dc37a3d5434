import Vela.Lib.Codec
import Mathlib.Data.List.Lex

/-!
# The types of the wire and of the control plane

`vela-proto`: node ids, candidates, peers, signed network snapshots, and the datagram header with its
codec.  A Rust array `[u8; n]` is a `Vector UInt8 n`, a `Vec<u8>` a list of bytes, a `String` a Lean
string (both are valid UTF-8).
-/

namespace Vela.Proto

open Codec

structure NodeId where
  bytes : Vector UInt8 32
  deriving DecidableEq, Repr

/-- The order of `NodeId` (derived from that of `[u8; 32]`): lexicographic. -/
def NodeId.le (a b : NodeId) : Prop :=
  a.bytes.toList.map UInt8.toNat ≤ b.bytes.toList.map UInt8.toNat

instance : DecidableRel NodeId.le := fun a b => by unfold NodeId.le; infer_instance

structure Ipv4Addr where
  octets : Vector UInt8 4
  deriving DecidableEq, Repr

structure Ipv6Addr where
  octets : Vector UInt8 16
  deriving DecidableEq, Repr

inductive IpAddr where
  | v4 (address : Ipv4Addr)
  | v6 (address : Ipv6Addr)
  deriving DecidableEq, Repr

/-- `std::net::SocketAddr`; an IPv6 one also carries its flow information and its scope id. -/
inductive SocketAddr where
  | v4 (ip : Ipv4Addr) (port : UInt16)
  | v6 (ip : Ipv6Addr) (port : UInt16) (flowinfo scopeId : UInt32)
  deriving DecidableEq, Repr

def SocketAddr.ip : SocketAddr → IpAddr
  | .v4 ip _ => .v4 ip
  | .v6 ip _ _ _ => .v6 ip

def SocketAddr.port : SocketAddr → UInt16
  | .v4 _ port => port
  | .v6 _ port _ _ => port

inductive Candidate where
  | host (address : SocketAddr)
  | serverReflexive (address : SocketAddr)
  | peerReflexive (address : SocketAddr)
  deriving DecidableEq, Repr

def Candidate.address : Candidate → SocketAddr
  | .host address => address
  | .serverReflexive address => address
  | .peerReflexive address => address

inductive PeerCapability where
  | diagnosticPing
  deriving DecidableEq, Repr

/-- `capability as u8`: the discriminant. -/
def PeerCapability.toU8 : PeerCapability → UInt8
  | .diagnosticPing => 0

structure PeerInfo where
  nodeId : NodeId
  incarnation : UInt64
  signingPublic : Vector UInt8 32
  noisePublic : Vector UInt8 32
  candidates : List Candidate
  virtualIpv4 : Option Ipv4Addr
  virtualIpv6 : Option Ipv6Addr
  credential : List UInt8
  capabilities : List PeerCapability
  deriving DecidableEq, Repr

structure Ipv4Cidr where
  address : Ipv4Addr
  prefixLen : UInt8
  deriving DecidableEq, Repr

structure Ipv6Cidr where
  address : Ipv6Addr
  prefixLen : UInt8
  deriving DecidableEq, Repr

structure NetworkSnapshot where
  networkId : Vector UInt8 16
  generation : UInt64
  virtualIpv4 : Option Ipv4Cidr
  virtualIpv6 : Option Ipv6Cidr
  dohServers : List String
  stunServers : List String
  peers : List PeerInfo
  onlinePeers : List NodeId
  expiresAt : UInt64
  signature : List UInt8
  deriving DecidableEq, Repr

inductive ProtoError where
  | truncated
  | invalidMagic
  | unsupportedVersion (version : UInt8)
  | unknownPacketType (value : UInt8)
  | payloadTooLarge
  | lengthMismatch
  | trailingBytes
  | invalidNodeId
  | invalidEncoding
  | invalidSnapshot (message : String)
  | hex (message : String)
  deriving DecidableEq, Repr

/-! ### Datagrams -/

inductive PacketType where
  | probe
  | probeResponse
  | handshake
  | data
  | keepAlive
  | diagnosticPing
  | diagnosticPong
  | keepAliveAck
  | mtuProbe
  | mtuProbeAck
  deriving DecidableEq, Repr

namespace PacketType

def toU8 : PacketType → UInt8
  | .probe => 1
  | .probeResponse => 2
  | .handshake => 3
  | .data => 4
  | .keepAlive => 5
  | .diagnosticPing => 6
  | .diagnosticPong => 7
  | .keepAliveAck => 8
  | .mtuProbe => 9
  | .mtuProbeAck => 10

def tryFrom (value : UInt8) : Except ProtoError PacketType :=
  match value with
  | 1 => .ok .probe
  | 2 => .ok .probeResponse
  | 3 => .ok .handshake
  | 4 => .ok .data
  | 5 => .ok .keepAlive
  | 6 => .ok .diagnosticPing
  | 7 => .ok .diagnosticPong
  | 8 => .ok .keepAliveAck
  | 9 => .ok .mtuProbe
  | 10 => .ok .mtuProbeAck
  | value => .error (.unknownPacketType value)

@[simp] lemma tryFrom_toU8 (t : PacketType) : tryFrom t.toU8 = .ok t := by
  cases t <;> rfl

lemma toU8_of_tryFrom {value : UInt8} {t : PacketType} (h : tryFrom value = .ok t) :
    t.toU8 = value := by
  unfold tryFrom at h
  split at h <;> first | (cases h; rfl) | cases h

end PacketType

/-- `b"VELA"`. -/
def magic : List UInt8 := [86, 69, 76, 65]
def protocolVersion : UInt8 := 2
def headerLen : ℕ := 26

structure Header where
  version : UInt8
  packetType : PacketType
  flags : UInt16
  sessionId : UInt64
  sequence : UInt64
  payloadLen : UInt16
  deriving DecidableEq, Repr

namespace Header

def new (packetType : PacketType) (sessionId sequence : UInt64) (payloadLen : ℕ) :
    Except ProtoError Header :=
  if payloadLen < 2 ^ 16 then
    .ok { version := protocolVersion, packetType, flags := 0, sessionId, sequence,
          payloadLen := UInt16.ofNat payloadLen }
  else .error .payloadTooLarge

def encode (h : Header) : List UInt8 :=
  magic ++ [h.version] ++ [h.packetType.toU8] ++ beBytes 2 h.flags.toNat ++
    beBytes 8 h.sessionId.toNat ++ beBytes 8 h.sequence.toNat ++ beBytes 2 h.payloadLen.toNat

/-- The big-endian number in the bytes `from..to` of the input. -/
def field (input : List UInt8) (start stop : ℕ) : ℕ :=
  ofBeBytes ((input.drop start).take (stop - start))

def decode (input : List UInt8) : Except ProtoError Header :=
  if input.length < headerLen then .error .truncated
  else if input.take 4 ≠ magic then .error .invalidMagic
  else
    let version := input.getD 4 0
    if version ≠ protocolVersion then .error (.unsupportedVersion version)
    else do
      let packetType ← PacketType.tryFrom (input.getD 5 0)
      return { version, packetType,
               flags := UInt16.ofNat (field input 6 8),
               sessionId := UInt64.ofNat (field input 8 16),
               sequence := UInt64.ofNat (field input 16 24),
               payloadLen := UInt16.ofNat (field input 24 26) }

end Header

structure WirePacket where
  header : Header
  payload : List UInt8
  deriving DecidableEq, Repr

namespace WirePacket

def encode (p : WirePacket) : Except ProtoError (List UInt8) :=
  if p.payload.length ≠ p.header.payloadLen.toNat then .error .lengthMismatch
  else .ok (p.header.encode ++ p.payload)

def decode (input : List UInt8) : Except ProtoError WirePacket := do
  let header ← Header.decode input
  let stop := headerLen + header.payloadLen.toNat
  if input.length < stop then throw .truncated
  if input.length ≠ stop then throw .trailingBytes
  return { header, payload := (input.drop headerLen).take (stop - headerLen) }

end WirePacket

/-! ### Round trip -/

lemma Header.length_encode (h : Header) : h.encode.length = headerLen := by
  simp [Header.encode, magic, headerLen]

lemma Header.decode_encode (h : Header) (hv : h.version = protocolVersion) (rest : List UInt8) :
    Header.decode (h.encode ++ rest) = .ok h := by
  have hlen : ¬ (h.encode ++ rest).length < headerLen := by
    rw [List.length_append, Header.length_encode]
    omega
  have hbe : ∀ n x, x < 256 ^ n → ofBeBytes (beBytes n x) = x := by
    intro n x hx
    rw [ofBeBytes_beBytes, Nat.mod_eq_of_lt hx]
  have hfield : ∀ (pre bytes post : List UInt8) (start stop : ℕ), pre.length = start →
      bytes.length = stop - start → Header.field (pre ++ (bytes ++ post)) start stop = ofBeBytes bytes := by
    intro pre bytes post start stop hpre hbytes
    rw [Header.field, List.drop_left' hpre, List.take_left' hbytes]
  rw [Header.decode, if_neg hlen]
  have hf : Header.field (h.encode ++ rest) 6 8 = h.flags.toNat := by
    rw [show h.encode ++ rest = (magic ++ [h.version] ++ [h.packetType.toU8]) ++
        (beBytes 2 h.flags.toNat ++ (beBytes 8 h.sessionId.toNat ++ beBytes 8 h.sequence.toNat ++
          beBytes 2 h.payloadLen.toNat ++ rest)) by simp [Header.encode],
      hfield _ _ _ 6 8 rfl (by simp), hbe _ _ h.flags.toNat_lt]
  have hs : Header.field (h.encode ++ rest) 8 16 = h.sessionId.toNat := by
    rw [show h.encode ++ rest = (magic ++ [h.version] ++ [h.packetType.toU8] ++
        beBytes 2 h.flags.toNat) ++ (beBytes 8 h.sessionId.toNat ++ (beBytes 8 h.sequence.toNat ++
          beBytes 2 h.payloadLen.toNat ++ rest)) by simp [Header.encode],
      hfield _ _ _ 8 16 rfl (by simp), hbe _ _ h.sessionId.toNat_lt]
  have hq : Header.field (h.encode ++ rest) 16 24 = h.sequence.toNat := by
    rw [show h.encode ++ rest = (magic ++ [h.version] ++ [h.packetType.toU8] ++
        beBytes 2 h.flags.toNat ++ beBytes 8 h.sessionId.toNat) ++ (beBytes 8 h.sequence.toNat ++
          (beBytes 2 h.payloadLen.toNat ++ rest)) by simp [Header.encode],
      hfield _ _ _ 16 24 rfl (by simp), hbe _ _ h.sequence.toNat_lt]
  have hp : Header.field (h.encode ++ rest) 24 26 = h.payloadLen.toNat := by
    rw [show h.encode ++ rest = (magic ++ [h.version] ++ [h.packetType.toU8] ++
        beBytes 2 h.flags.toNat ++ beBytes 8 h.sessionId.toNat ++ beBytes 8 h.sequence.toNat) ++
          (beBytes 2 h.payloadLen.toNat ++ rest) by simp [Header.encode],
      hfield _ _ _ 24 26 rfl (by simp), hbe _ _ h.payloadLen.toNat_lt]
  rw [hf, hs, hq, hp]
  have h4 : (h.encode ++ rest).take 4 = magic := by simp [Header.encode, magic]
  have hver : (h.encode ++ rest).getD 4 0 = h.version := by simp [Header.encode, magic]
  have htype : (h.encode ++ rest).getD 5 0 = h.packetType.toU8 := by simp [Header.encode, magic]
  rw [h4, hver, htype, if_neg (by simp), PacketType.tryFrom_toU8]
  simp only [hv, ne_eq, not_true_eq_false, if_false]
  cases h
  simp_all [Except.bind, bind, pure, Except.pure]

lemma Header.version_of_decode {input : List UInt8} {h : Header}
    (hdecode : Header.decode input = .ok h) : h.version = protocolVersion := by
  unfold Header.decode at hdecode
  split at hdecode
  · cases hdecode
  split at hdecode
  · cases hdecode
  dsimp only at hdecode
  split at hdecode
  · cases hdecode
  rename_i hversion
  cases htype : PacketType.tryFrom (input.getD 5 0) with
  | error e => rw [htype] at hdecode; cases hdecode
  | ok t =>
    rw [htype] at hdecode
    obtain rfl := Except.ok.inj hdecode
    exact not_not.1 hversion

/-- **What is decoded is encoded back**: an accepted header determines its 26 bytes. -/
theorem Header.encode_of_decode {input : List UInt8} {h : Header} (hdecode : Header.decode input = .ok h) :
    h.encode = input.take headerLen := by
  unfold Header.decode at hdecode
  split at hdecode
  · cases hdecode
  rename_i hlen
  have hlen : 26 ≤ input.length := by simpa [headerLen] using hlen
  split at hdecode
  · cases hdecode
  rename_i hmagic
  have hmagic : input.take 4 = magic := by simpa using hmagic
  dsimp only at hdecode
  split at hdecode
  · cases hdecode
  cases htype : PacketType.tryFrom (input.getD 5 0) with
  | error e => rw [htype] at hdecode; cases hdecode
  | ok t =>
    rw [htype] at hdecode
    obtain rfl := Except.ok.inj hdecode
    have hfield : ∀ start stop, start ≤ stop → stop ≤ 26 →
        beBytes (stop - start) (Header.field input start stop) =
          (input.drop start).take (stop - start) := by
      intro start stop hle hstop
      apply beBytes_ofBeBytes
      rw [List.length_take, List.length_drop]
      omega
    have hlt : ∀ start stop, Header.field input start stop < 256 ^ (stop - start) := by
      intro start stop
      refine lt_of_lt_of_le (ofBeBytes_lt _) (Nat.pow_le_pow_right (by omega) ?_)
      rw [List.length_take]
      omega
    have h16 : ∀ start, (UInt16.ofNat (Header.field input start (start + 2))).toNat =
        Header.field input start (start + 2) := by
      intro start
      rw [UInt16.toNat_ofNat']
      apply Nat.mod_eq_of_lt
      have := hlt start (start + 2)
      simpa using this
    have h64 : ∀ start, (UInt64.ofNat (Header.field input start (start + 8))).toNat =
        Header.field input start (start + 8) := by
      intro start
      rw [UInt64.toNat_ofNat']
      apply Nat.mod_eq_of_lt
      have := hlt start (start + 8)
      simpa using this
    have hbytes : input.take headerLen = input.take 4 ++ [input.getD 4 0] ++ [input.getD 5 0] ++
        (input.drop 6).take 2 ++ (input.drop 8).take 8 ++ (input.drop 16).take 8 ++
        (input.drop 24).take 2 := by
      have hone : ∀ i, i < 26 → [input.getD i 0] = (input.drop i).take 1 := by
        intro i hi
        have hi : i < input.length := by omega
        rw [List.drop_eq_getElem_cons hi, List.getD_eq_getElem?_getD, List.getElem?_eq_getElem hi]
        rfl
      rw [hone 4 (by omega), hone 5 (by omega)]
      rw [show headerLen = 4 + 1 + 1 + 2 + 8 + 8 + 2 from rfl]
      rw [List.take_add, List.take_add, List.take_add, List.take_add, List.take_add, List.take_add]
    rw [hbytes, Header.encode, hmagic, PacketType.toU8_of_tryFrom htype]
    rw [h16 6, h64 8, h64 16, h16 24, hfield 6 8, hfield 8 16, hfield 16 24, hfield 24 26]
    all_goals omega

/-- **A packet that encodes is decoded back**, unless it was built with a foreign version. -/
theorem WirePacket.decode_encode (p : WirePacket) (bytes : List UInt8)
    (hv : p.header.version = protocolVersion) (h : p.encode = .ok bytes) :
    WirePacket.decode bytes = .ok p := by
  unfold WirePacket.encode at h
  split at h
  · cases h
  · rename_i hlen
    have hlen : p.payload.length = p.header.payloadLen.toNat := by simpa using hlen
    obtain rfl : p.header.encode ++ p.payload = bytes := by simpa using h
    have htotal : (p.header.encode ++ p.payload).length = headerLen + p.header.payloadLen.toNat := by
      rw [List.length_append, Header.length_encode, hlen]
    have hdrop : ((p.header.encode ++ p.payload).drop headerLen).take
        (headerLen + p.header.payloadLen.toNat - headerLen) = p.payload := by
      rw [List.drop_left' p.header.length_encode, ← hlen]
      simp
    unfold WirePacket.decode
    rw [Header.decode_encode p.header hv]
    simp only [bind, Except.bind, htotal, lt_irrefl, if_false, ne_eq, not_true_eq_false, hdrop]
    rfl

/-- **What is decoded is what was encoded**, and nothing else: every packet has one encoding. -/
theorem WirePacket.decode_exact (bytes : List UInt8) (p : WirePacket) :
    WirePacket.decode bytes = .ok p ↔
      p.header.version = protocolVersion ∧ p.encode = .ok bytes := by
  refine ⟨fun h => ?_, fun h => WirePacket.decode_encode p bytes h.1 h.2⟩
  unfold WirePacket.decode at h
  cases hheader : Header.decode bytes with
  | error error =>
    rw [hheader] at h
    cases h
  | ok header =>
    rw [hheader] at h
    simp only [bind, Except.bind] at h
    split at h
    · cases h
    split at h
    · cases h
    · rename_i hstop
      obtain rfl := Except.ok.inj h
      have hstop : bytes.length = headerLen + header.payloadLen.toNat := by simpa using hstop
      have hpayload : (bytes.drop headerLen).take
          (headerLen + header.payloadLen.toNat - headerLen) = bytes.drop headerLen :=
        List.take_of_length_le (by simp [hstop])
      refine ⟨Header.version_of_decode hheader, ?_⟩
      rw [WirePacket.encode, hpayload, if_neg (by simp [hstop]), Header.encode_of_decode hheader,
        List.take_append_drop]

end Vela.Proto
