import Vela.Proto.Snapshot

/-!
# Membership credentials and signed snapshots

`MembershipCredential`, `ServerSigner` and `verify_snapshot` of `vela-crypto`.  BLAKE3, Ed25519,
Base64 and the JSON text of a credential come from other crates and are the fields of `Primitives`.
-/

namespace Vela.Crypto

open Vela.Proto Codec

structure PublicIdentity where
  nodeId : NodeId
  signingPublic : Vector UInt8 32
  noisePublic : Vector UInt8 32
  deriving DecidableEq, Repr

structure MembershipCredential where
  nodeId : NodeId
  signingPublic : Vector UInt8 32
  noisePublic : Vector UInt8 32
  tenant : String
  issuedAt : UInt64
  expiresAt : UInt64
  serverKeyId : Vector UInt8 32
  signature : List UInt8
  deriving DecidableEq, Repr

/-- What the crates outside the repository compute. -/
structure Primitives where
  /-- `blake3::hash` -/
  blake3 : List UInt8 → Vector UInt8 32
  /-- the standard Base64 alphabet -/
  base64Encode : List UInt8 → String
  base64Decode : String → Option (List UInt8)
  /-- `SigningKey::verifying_key` -/
  ed25519Public : Vector UInt8 32 → Vector UInt8 32
  ed25519Sign : Vector UInt8 32 → List UInt8 → Vector UInt8 64
  /-- whether `VerifyingKey::from_bytes` accepts the bytes -/
  ed25519Key : Vector UInt8 32 → Bool
  ed25519Verify : Vector UInt8 32 → List UInt8 → Vector UInt8 64 → Bool
  /-- `serde_json` of a credential -/
  credentialToJson : MembershipCredential → List UInt8
  credentialOfJson : List UInt8 → Option MembershipCredential

inductive CryptoError where
  | io
  | serialization
  | invalidKey
  | invalidSignature
  | credentialExpired
  | noise
  | aead
  | invalidSnapshot
  deriving DecidableEq, Repr

variable (prim : Primitives)

/-- The node id of a signing key: `NodeId::new(*blake3::hash(&signing_public).as_bytes())`. -/
def nodeIdOf (signingPublic : Vector UInt8 32) : NodeId := ⟨prim.blake3 signingPublic.toList⟩

structure ServerSigner where
  secret : Vector UInt8 32
  deriving DecidableEq

namespace ServerSigner

def publicKey (signer : ServerSigner) : Vector UInt8 32 := prim.ed25519Public signer.secret

def keyId (signer : ServerSigner) : Vector UInt8 32 := prim.blake3 (signer.publicKey prim).toList

def sign (signer : ServerSigner) (message : List UInt8) : Vector UInt8 64 :=
  prim.ed25519Sign signer.secret message

def signSnapshot (signer : ServerSigner) (snapshot : NetworkSnapshot) : NetworkSnapshot :=
  { snapshot with signature := (signer.sign prim snapshot.unsignedBytes).toList }

end ServerSigner

/-- `u64::saturating_add`. -/
def saturatingAdd (a b : UInt64) : UInt64 :=
  if a.toNat + b.toNat < 2 ^ 64 then a + b else UInt64.ofNat (2 ^ 64 - 1)

/-- A byte slice as an array of exactly `n` bytes, as `try_into` has it. -/
def toArray? (n : ℕ) (bytes : List UInt8) : Option (Vector UInt8 n) :=
  if h : bytes.toArray.size = n then some ⟨bytes.toArray, h⟩ else none

namespace MembershipCredential

/-- `MembershipCredential::unsigned`; `now` is its read of the clock. -/
def unsigned (identity : PublicIdentity) (tenant : String) (expiresAt : UInt64)
    (serverKeyId : Vector UInt8 32) (now : UInt64) : MembershipCredential where
  nodeId := identity.nodeId
  signingPublic := identity.signingPublic
  noisePublic := identity.noisePublic
  tenant := tenant
  issuedAt := now
  expiresAt := expiresAt
  serverKeyId := serverKeyId
  signature := List.replicate 64 0

def signingBytes (c : MembershipCredential) : List UInt8 :=
  c.nodeId.bytes.toList ++ c.signingPublic.toList ++ c.noisePublic.toList ++
    beBytes 4 (stringBytes c.tenant).length ++ stringBytes c.tenant ++
    beBytes 8 c.issuedAt.toNat ++ beBytes 8 c.expiresAt.toNat ++ c.serverKeyId.toList

def sign (c : MembershipCredential) (server : ServerSigner) : MembershipCredential :=
  { c with signature := (server.sign prim c.signingBytes).toList }

def verify (c : MembershipCredential) (serverPublic : Vector UInt8 32) (now : UInt64) :
    Except CryptoError Unit := do
  if c.expiresAt < c.issuedAt ∨ c.expiresAt < now ∨ saturatingAdd now 60 < c.issuedAt then
    throw .credentialExpired
  if c.serverKeyId ≠ prim.blake3 serverPublic.toList then throw .invalidSignature
  if c.nodeId ≠ nodeIdOf prim c.signingPublic then throw .invalidSignature
  if ¬ prim.ed25519Key serverPublic then throw .invalidKey
  match toArray? 64 c.signature with
  | none => throw .invalidSignature
  | some signature =>
    if prim.ed25519Verify serverPublic c.signingBytes signature then pure ()
    else throw .invalidSignature

/-! ### What `verify` accepts -/

/-- The time is within the credential's lifetime, with a minute for a clock that is behind. -/
structure InForce (c : MembershipCredential) (now : UInt64) : Prop where
  ordered : ¬ c.expiresAt < c.issuedAt
  unexpired : ¬ c.expiresAt < now
  issued : ¬ saturatingAdd now 60 < c.issuedAt

/-- The credential names the key and carries a signature made with it. -/
structure SignedBy (c : MembershipCredential) (serverPublic : Vector UInt8 32) : Prop where
  keyId : c.serverKeyId = prim.blake3 serverPublic.toList
  key : prim.ed25519Key serverPublic = true
  signature : ∃ signature, toArray? 64 c.signature = some signature ∧
    prim.ed25519Verify serverPublic c.signingBytes signature = true

variable {prim}

lemma verify_eq_ok_iff {c : MembershipCredential} {serverPublic : Vector UInt8 32} {now : UInt64} :
    c.verify prim serverPublic now = .ok () ↔
      c.InForce now ∧ c.SignedBy prim serverPublic ∧ c.nodeId = nodeIdOf prim c.signingPublic := by
  constructor
  · intro h
    unfold verify at h
    simp only [bind, Except.bind, pure, Except.pure, throw, throwThe, MonadExceptOf.throw] at h
    split_ifs at h with htime hid hnode hkey
    obtain ⟨hordered, hunexpired, hissued⟩ : ¬ c.expiresAt < c.issuedAt ∧ ¬ c.expiresAt < now ∧
        ¬ saturatingAdd now 60 < c.issuedAt := by
      simpa only [not_or] using htime
    refine ⟨⟨hordered, hunexpired, hissued⟩, ⟨not_not.1 hid, by simpa using hkey, ?_⟩,
      not_not.1 hnode⟩
    split at h
    · cases h
    · rename_i signature hsignature
      split_ifs at h with hverify
      exact ⟨signature, hsignature, hverify⟩
  · rintro ⟨htime, ⟨hid, hkey, signature, hsignature, hverify⟩, hnode⟩
    have hwindow : ¬ (c.expiresAt < c.issuedAt ∨ c.expiresAt < now ∨
        saturatingAdd now 60 < c.issuedAt) := by
      rintro (h | h | h)
      · exact htime.ordered h
      · exact htime.unexpired h
      · exact htime.issued h
    unfold verify
    rw [if_neg hwindow, if_neg (not_not.2 hid), if_neg (not_not.2 hnode),
      if_neg (not_not.2 hkey), hsignature]
    simp only [hverify]
    rfl

end MembershipCredential

lemma toArray?_toList {n : ℕ} (v : Vector UInt8 n) : toArray? n v.toList = some v := by
  unfold toArray?
  rw [dif_pos (by simp)]
  simp [Vector.toList]

variable {prim}

/-- Ed25519 does its part for the server: its key is one, and what it signs verifies. -/
structure ServerSigner.Signs (prim : Primitives) (signer : ServerSigner) : Prop where
  key : prim.ed25519Key (signer.publicKey prim) = true
  verifies : ∀ message, prim.ed25519Verify (signer.publicKey prim) message (signer.sign prim message) = true

lemma MembershipCredential.signedBy_sign {signer : ServerSigner} (h : signer.Signs prim)
    {c : MembershipCredential} (hid : c.serverKeyId = signer.keyId prim) :
    (c.sign prim signer).SignedBy prim (signer.publicKey prim) where
  keyId := hid
  key := h.key
  signature := ⟨_, toArray?_toList _, h.verifies _⟩

variable (prim)

def verifySnapshot (snapshot : NetworkSnapshot) (serverPublic : Vector UInt8 32) (now : UInt64) :
    Except CryptoError Unit := do
  if snapshot.expiresAt < now ∨ snapshot.signature.length ≠ 64 then throw .invalidSnapshot
  match toArray? 64 snapshot.signature with
  | none => throw .invalidSnapshot
  | some signature =>
    if ¬ prim.ed25519Key serverPublic then throw .invalidKey
    if prim.ed25519Verify serverPublic snapshot.unsignedBytes signature then pure ()
    else throw .invalidSnapshot

/-! ### What a signature binds -/

lemma MembershipCredential.unambiguous_signingBytes :
    Unambiguous (fun c : MembershipCredential => (stringBytes c.tenant).length < 2 ^ 32)
      (fun c => ((((((c.nodeId, c.signingPublic), c.noisePublic), c.tenant), c.issuedAt), c.expiresAt),
        c.serverKeyId)) MembershipCredential.signingBytes := by
  have hany : ∀ c : MembershipCredential, (stringBytes c.tenant).length < 2 ^ 32 → Any c :=
    fun _ _ => trivial
  have hnode := ((unambiguous_array nodeId_injective).comap MembershipCredential.nodeId).mono hany
  have hkey : ∀ f : MembershipCredential → Vector UInt8 32,
      Unambiguous (fun c => (stringBytes c.tenant).length < 2 ^ 32) f fun c => (f c).toList :=
    fun f => ((unambiguous_array Function.injective_id).comap f).mono hany
  have htime : ∀ f : MembershipCredential → UInt64,
      Unambiguous (fun c => (stringBytes c.tenant).length < 2 ^ 32) f fun c => beBytes 8 (f c).toNat :=
    fun f => (unambiguous_u64.comap f).mono hany
  have htenant := unambiguous_string.comap MembershipCredential.tenant
  have hall := (((((hnode.seq (hkey (·.signingPublic))).seq (hkey (·.noisePublic))).seq htenant).seq
    (htime (·.issuedAt))).seq (htime (·.expiresAt))).seq (hkey (·.serverKeyId))
  refine (?_ : Unambiguous _ _ fun c : MembershipCredential => c.signingBytes)
  simpa only [signingBytes, encodeString, List.append_assoc, id] using hall

/-- A credential and a snapshot have the same bytes only if the node id starts with the snapshot's tag. -/
lemma MembershipCredential.domain_of_unsignedBytes {c : MembershipCredential} {s : NetworkSnapshot}
    (h : c.signingBytes = s.unsignedBytes) : c.nodeId.bytes.toList.take 24 = NetworkSnapshot.domain := by
  have hdomain : NetworkSnapshot.domain.length = 24 := rfl
  have hleft : c.signingBytes.take 24 = c.nodeId.bytes.toList.take 24 := by
    simp only [signingBytes, List.append_assoc]
    exact List.take_append_of_le_length (by simp)
  have hright : s.unsignedBytes.take 24 = NetworkSnapshot.domain := by
    simp only [NetworkSnapshot.unsignedBytes, List.append_assoc]
    exact List.take_left' hdomain
  rw [← hleft, h, hright]

/-- Ed25519 does its part on two messages: the signature of one does not verify for the other. -/
def ServerSigner.Distinguishes (signer : ServerSigner) (message other : List UInt8) : Prop :=
  prim.ed25519Verify (signer.publicKey prim) other (signer.sign prim message) = true → other = message

/-- **A signature binds every field of a credential, and the kind of the message.** -/
theorem credential_signature_binds :
    (∀ c c' : MembershipCredential, (stringBytes c.tenant).length < 2 ^ 32 →
      (stringBytes c'.tenant).length < 2 ^ 32 → c.signingBytes = c'.signingBytes →
      c.nodeId = c'.nodeId ∧ c.signingPublic = c'.signingPublic ∧ c.noisePublic = c'.noisePublic ∧
        c.tenant = c'.tenant ∧ c.issuedAt = c'.issuedAt ∧ c.expiresAt = c'.expiresAt ∧
        c.serverKeyId = c'.serverKeyId) ∧
    (∀ (c : MembershipCredential) (s : NetworkSnapshot), c.signingBytes = s.unsignedBytes →
      c.nodeId.bytes.toList.take 24 = stringBytes "VELA-NETWORK-SNAPSHOT-v4") ∧
    ∀ (prim : Primitives) (signer : ServerSigner) (c : MembershipCredential) (s : NetworkSnapshot)
      (now : UInt64), c.nodeId = nodeIdOf prim c.signingPublic →
      (nodeIdOf prim c.signingPublic).bytes.toList.take 24 ≠ stringBytes "VELA-NETWORK-SNAPSHOT-v4" →
      (signer.Distinguishes prim s.unsignedBytes c.signingBytes →
        { c with signature := (signer.signSnapshot prim s).signature }.verify prim
          (signer.publicKey prim) now ≠ .ok ()) ∧
      (signer.Distinguishes prim c.signingBytes s.unsignedBytes →
        verifySnapshot prim { s with signature := (c.sign prim signer).signature }
          (signer.publicKey prim) now ≠ .ok ()) := by
  refine ⟨fun c c' hc hc' h => ?_, fun _ _ => MembershipCredential.domain_of_unsignedBytes,
    fun prim signer c s now hid havoid => ?_⟩
  · have hall := MembershipCredential.unambiguous_signingBytes.eq_of_eq hc hc' h
    simpa only [Prod.mk.injEq, and_assoc] using hall
  -- equal messages are what the node id rules out
  have hne : c.signingBytes ≠ s.unsignedBytes := fun h =>
    havoid (hid ▸ MembershipCredential.domain_of_unsignedBytes h)
  refine ⟨fun hsign h => ?_, fun hsign h => ?_⟩
  · obtain ⟨-, ⟨-, -, signature, harray, hverify⟩, -⟩ := MembershipCredential.verify_eq_ok_iff.1 h
    obtain rfl := Option.some.inj ((toArray?_toList _).symm.trans harray)
    exact hne (hsign hverify)
  · have hsame : ∀ signature, ({ s with signature } : NetworkSnapshot).unsignedBytes = s.unsignedBytes :=
      fun _ => rfl
    have hfalse : prim.ed25519Verify (signer.publicKey prim) s.unsignedBytes
        (signer.sign prim c.signingBytes) = false :=
      Bool.eq_false_iff.2 fun hverify => hne (hsign hverify).symm
    revert h
    simp only [verifySnapshot, MembershipCredential.sign, toArray?_toList, hsame, hfalse,
      Bool.false_eq_true, if_false]
    split_ifs <;> exact fun h => nomatch h

/-- A stand-in for the other crates: the signature of a message is its first 64 bytes. -/
def startPrim : Primitives where
  blake3 bytes := .ofFn fun i => bytes.getD i 0
  base64Encode _ := ""
  base64Decode _ := none
  ed25519Public key := key
  ed25519Sign _ message := .ofFn fun i => message.getD i 0
  ed25519Key _ := true
  ed25519Verify _ message signature := signature == .ofFn fun i => message.getD i 0
  credentialToJson _ := []
  credentialOfJson _ := none

def startCredential : MembershipCredential where
  nodeId := ⟨.replicate 32 1⟩
  signingPublic := .replicate 32 1
  noisePublic := .replicate 32 1
  tenant := "t"
  issuedAt := 0
  expiresAt := 9
  serverKeyId := .replicate 32 1
  signature := []

def startSnapshot : NetworkSnapshot where
  networkId := .replicate 16 0
  generation := 1
  virtualIpv4 := none
  virtualIpv6 := none
  dohServers := []
  stunServers := []
  peers := []
  onlinePeers := []
  expiresAt := 9
  signature := []

theorem credential_signature_binds_start :
    { startCredential with signature :=
        (ServerSigner.signSnapshot startPrim ⟨.replicate 32 1⟩ startSnapshot).signature }.verify startPrim
      (.replicate 32 1) 5 ≠ .ok () ∧
    verifySnapshot startPrim { startSnapshot with signature :=
        (startCredential.sign startPrim ⟨.replicate 32 1⟩).signature } (.replicate 32 1) 5 ≠ .ok () := by
  obtain ⟨-, -, hkinds⟩ := credential_signature_binds
  obtain ⟨hcredential, hsnapshot⟩ := hkinds startPrim ⟨.replicate 32 1⟩ startCredential startSnapshot 5
    (by decide) (by decide)
  exact ⟨hcredential fun h => absurd h (by decide), hsnapshot fun h => absurd h (by decide)⟩

end Vela.Crypto
