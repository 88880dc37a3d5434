import Vela.Core.Types
import Vela.Proto.Validate

/-!
# Probes, handshake contexts and membership checks

The functions of `vela-core` that are pure: the encodings of probes and of the context inside a Noise
handshake, the split of a data packet, and the checks of a peer's identity and credential.
-/

namespace Vela.Core

open Vela.Proto Vela.Crypto Vela.Ip Codec

variable (suite : Suite)

/-- The bytes `start..stop` as an array; the slice is long enough wherever it is used. -/
def arrayAt (n : ℕ) (bytes : List UInt8) (start : ℕ) : Vector UInt8 n :=
  Vector.ofFn fun i => bytes.getD (start + i) 0

def u64At (bytes : List UInt8) (start : ℕ) : UInt64 :=
  UInt64.ofNat (ofBeBytes ((bytes.drop start).take 8))

/-! ### Probes -/

structure Probe where
  sender : NodeId
  receiver : NodeId
  sessionId : UInt64
  timestamp : UInt64
  nonce : Vector UInt8 16
  signature : Vector UInt8 64
  deriving DecidableEq

/-- The fields of a probe before its signature. -/
def probeFields (sender receiver : NodeId) (sessionId timestamp : UInt64) (nonce : Vector UInt8 16) :
    List UInt8 :=
  sender.bytes.toList ++ receiver.bytes.toList ++ beBytes 8 sessionId.toNat ++
    beBytes 8 timestamp.toNat ++ nonce.toList

def probeSigningBytes (data : List UInt8) : List UInt8 := stringBytes "VELA-PROBE-v1" ++ data

def encodeProbe (sender receiver : NodeId) (sessionId timestamp : UInt64) (nonce : Vector UInt8 16)
    (identity : Identity) : List UInt8 :=
  let data := probeFields sender receiver sessionId timestamp nonce
  data ++ (identity.sign suite (probeSigningBytes data)).toList

def decodeProbe (data : List UInt8) : Except CoreError Probe :=
  if data.length ≠ 160 then .error .invalidProbe
  else .ok { sender := ⟨arrayAt 32 data 0⟩
             receiver := ⟨arrayAt 32 data 32⟩
             sessionId := u64At data 64
             timestamp := u64At data 72
             nonce := arrayAt 16 data 80
             signature := arrayAt 64 data 96 }

/-- `u64::abs_diff` -/
def absDiff (a b : UInt64) : UInt64 := if a < b then b - a else a - b

/-- `verify_probe`; `now` is its read of the clock. -/
def verifyProbe (probe : Probe) (info : PeerInfo) (now : UInt64) : Except CoreError Unit :=
  let data := probeFields probe.sender probe.receiver probe.sessionId probe.timestamp probe.nonce
  if probe.sender ≠ info.nodeId then .error .invalidProbe
  else if ¬ suite.ed25519Key info.signingPublic then .error .invalidProbe
  else if ¬ suite.ed25519Verify info.signingPublic (probeSigningBytes data) probe.signature then
    .error .invalidProbe
  else if 90 < absDiff probe.timestamp now then .error .invalidProbe
  else .ok ()

/-! ### The context of a handshake -/

structure HandshakeContext where
  networkId : Vector UInt8 16
  generation : UInt64
  nodeId : NodeId
  incarnation : UInt64
  virtualIpv4 : Option Ipv4Addr
  virtualIpv6 : Option Ipv6Addr
  deriving DecidableEq

def handshakeContextMagic : List UInt8 := stringBytes "VELA-HS-v2"

/-- An address that may be missing: a flag, and the octets or zeros. -/
def encodeOptional {α : Type} (width : ℕ) (octets : α → List UInt8) : Option α → List UInt8
  | some address => 1 :: octets address
  | none => 0 :: List.replicate width 0

def encodeHandshakeContext (context : HandshakeContext) : List UInt8 :=
  handshakeContextMagic ++ context.networkId.toList ++ beBytes 8 context.generation.toNat ++
    context.nodeId.bytes.toList ++ beBytes 8 context.incarnation.toNat ++
    encodeOptional 4 (fun address : Ipv4Addr => address.octets.toList) context.virtualIpv4 ++
    encodeOptional 16 (fun address : Ipv6Addr => address.octets.toList) context.virtualIpv6

def decodeOptional {α : Type} (flag : UInt8) (address : α) : Option (Option α) :=
  if flag = 0 then some none else if flag = 1 then some (some address) else none

def decodeHandshakeContext (bytes : List UInt8) : Option HandshakeContext :=
  if bytes.length ≠ 10 + 16 + 8 + 32 + 8 + 1 + 4 + 1 + 16 ∨ bytes.take 10 ≠ handshakeContextMagic then
    none
  else do
    let virtualIpv4 ← decodeOptional (bytes.getD 74 0) (⟨arrayAt 4 bytes 75⟩ : Ipv4Addr)
    let virtualIpv6 ← decodeOptional (bytes.getD 79 0) (⟨arrayAt 16 bytes 80⟩ : Ipv6Addr)
    return { networkId := arrayAt 16 bytes 10
             generation := u64At bytes 26
             nodeId := ⟨arrayAt 32 bytes 34⟩
             incarnation := u64At bytes 66
             virtualIpv4, virtualIpv6 }

/-- The comparison of `validate_handshake_context`. -/
def contextMatches (context : HandshakeContext) (networkId : Vector UInt8 16) (sender : NodeId)
    (peer : PeerInfo) : Bool :=
  context.networkId == networkId && context.nodeId == sender && context.nodeId == peer.nodeId &&
    context.incarnation == peer.incarnation && context.virtualIpv4 == peer.virtualIpv4 &&
    context.virtualIpv6 == peer.virtualIpv6

/-- `validate_handshake_context`, with the network id it reads first. -/
def validateHandshakeContext (networkId : Vector UInt8 16) (bytes : List UInt8) (sender : NodeId)
    (peer : PeerInfo) : Except CoreError Unit :=
  match decodeHandshakeContext bytes with
  | none => .error .invalidHandshake
  | some context =>
    if contextMatches context networkId sender peer then .ok () else .error .invalidHandshake

/-! ### Peers -/

def validatePeerInfo (info : PeerInfo) : Except CoreError Unit :=
  if nodeIdOf suite.toPrimitives info.signingPublic ≠ info.nodeId then .error .invalidPeer else .ok ()

/-- `u64::MAX` -/
def u64Max : UInt64 := UInt64.ofNat (2 ^ 64 - 1)

def membershipExpiresAt (info : PeerInfo) (serverPublicKey : Option (Vector UInt8 32)) : UInt64 :=
  match serverPublicKey with
  | none => u64Max
  | some _ =>
    match suite.credentialOfJson info.credential with
    | none => 0
    | some credential => credential.expiresAt

/-- `validate_peer_membership` with a server key; `now` is the clock that `verify` is given. -/
def validateCredential (info : PeerInfo) (serverPublicKey : Vector UInt8 32) (now : UInt64) :
    Except CoreError Unit :=
  match suite.credentialOfJson info.credential with
  | none => .error .invalidPeer
  | some credential =>
    match credential.verify suite.toPrimitives serverPublicKey now with
    | .error _ => .error .peerCredentialExpired
    | .ok _ =>
      if credential.nodeId ≠ info.nodeId ∨ credential.signingPublic ≠ info.signingPublic ∨
          credential.noisePublic ≠ info.noisePublic then .error .invalidPeer
      else .ok ()

/-- `PeerState::with_online` -/
def PeerState.withOnline (info : PeerInfo) (online : Bool)
    (serverPublicKey : Option (Vector UInt8 32)) : PeerState where
  info := info
  membershipExpiresAt := Core.membershipExpiresAt suite info serverPublicKey
  online := online
  lastFailure := none
  pathHistory := []
  connect := false
  connecting := false
  attempt := none
  active := none
  reconnect := { requested := false, running := false, attempts := 0 }
  queue := []
  receive := { workerDataPackets := 0, decryptFailures := 0, replayDrops := 0, ipParseFailures := 0
               invalidDestinations := 0, acceptedIpPackets := 0, eventQueueDrops := 0 }

/-- The virtual addresses of a peer, IPv4 first. -/
def virtualAddresses (ipv4 : Option Ipv4Addr) (ipv6 : Option Ipv6Addr) : List IpAddr :=
  (ipv4.map IpAddr.v4).toList ++ (ipv6.map IpAddr.v6).toList

/-! ### Candidates -/

/-- `Ipv4Addr::is_private` -/
def Ipv4Addr.isPrivate (address : Ipv4Addr) : Bool :=
  let a := address.octets.getD 0 0
  let b := address.octets.getD 1 0
  a == 10 || (a == 172 && 16 ≤ b && b ≤ 31) || (a == 192 && b == 168)

/-- `Ipv6Addr::is_unique_local`: `fc00::/7` -/
def Ipv6Addr.isUniqueLocal (address : Ipv6Addr) : Bool := address.octets.getD 0 0 &&& 0xfe == 0xfc

def isPrivateAddress (address : SocketAddr) : Bool :=
  match address.ip with
  | .v4 ip => Ipv4Addr.isPrivate ip
  | .v6 ip => Ipv6Addr.isUniqueLocal ip

def candidatePriority : Candidate → ℕ
  | .host address => if isPrivateAddress address then 0 else 1
  | .peerReflexive _ => 2
  | .serverReflexive _ => 3

/-- One iteration of `ordered_connection_candidates`. -/
def insertCandidate (ordered : List Candidate) (candidate : Candidate) : List Candidate :=
  match ordered.findIdx? fun existing => existing.address == candidate.address with
  | none => ordered ++ [candidate]
  | some index =>
    if candidatePriority candidate < candidatePriority (ordered.getD index candidate) then
      ordered.set index candidate
    else ordered

/-- `sort_by_key` is a stable sort. -/
def orderedConnectionCandidates (candidates : List Candidate) : List Candidate :=
  (candidates.foldl insertCandidate []).insertionSort
    fun a b => candidatePriority a ≤ candidatePriority b

/-! ### Data packets -/

structure DataPacket where
  header : Header
  encryptedLen : ℕ
  payload : List UInt8
  source : SocketAddr
  deriving DecidableEq

/-- `encoded_header`: as `Header::encode`, but with the protocol version of this build. -/
def encodedHeader (header : Header) : List UInt8 :=
  { header with version := protocolVersion }.encode

def decodeDataPacket (input : List UInt8) (header : Header) (source : SocketAddr) :
    Except ProtoError DataPacket :=
  let stop := headerLen + header.payloadLen.toNat
  if input.length < stop then .error .truncated
  else if input.length ≠ stop then .error .trailingBytes
  else
    let payload := input.drop headerLen
    .ok { header, encryptedLen := payload.length, payload, source }

/-- `encrypt_payload`: the header and the encryption of a packet of the session. -/
def encryptPayload (session : ActiveSession) (packetType : PacketType) (sequence : UInt64)
    (payload : List UInt8) : Except CoreError (List UInt8) :=
  match Header.new packetType session.sessionId sequence (payload.length + 16) with
  | .error error => .error (.protocol error)
  | .ok header =>
    match session.cipher.encrypt suite sequence (encodedHeader header) payload with
    | .error error => .error (.crypto error)
    | .ok encrypted => .ok encrypted

end Vela.Core
