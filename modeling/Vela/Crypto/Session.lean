import Vela.Crypto.Credential

/-!
# Identities, Noise handshakes and datagram encryption

The parts of `vela-crypto` that the data plane uses, at the level of bytes.  `snow`, the AEAD, HKDF
and X25519 are other crates; they are the fields of `Suite`.  A state of `snow` is given by the calls
that led to it, since everything it returns is a function of those and of the random bytes it drew.
-/

namespace Vela.Crypto

open Vela.Proto Codec

/-- One call on a handshake. -/
inductive NoiseCall where
  /-- `write_message`, with the random bytes it drew -/
  | wrote (entropy payload : List UInt8)
  | read (message : List UInt8)
  deriving DecidableEq

/-- `NoiseHandshake`: a `Noise_IK_25519_ChaChaPoly_SHA256` handshake. -/
structure NoiseHandshake where
  isInitiator : Bool
  localPrivate : Vector UInt8 32
  /-- the key given to `remote_public_key`, for an initiator -/
  remotePublic : Option (Vector UInt8 32)
  /-- the calls so far, the latest first -/
  calls : List NoiseCall
  deriving DecidableEq

/-- What the crates outside the repository compute for the data plane. -/
structure Suite extends Primitives where
  /-- the public key of an X25519 secret -/
  x25519Public : Vector UInt8 32 → Vector UInt8 32
  /-- the message of `write_message`, from the state before and the random bytes -/
  noiseWrite : NoiseHandshake → (entropy payload : List UInt8) → Option (List UInt8)
  /-- the payload of `read_message` -/
  noiseRead : NoiseHandshake → (message : List UInt8) → Option (List UInt8)
  noiseFinished : NoiseHandshake → Bool
  noiseHash : NoiseHandshake → List UInt8
  /-- the static key that a responder learned from the first message -/
  noiseRemoteStatic : NoiseHandshake → Option (Vector UInt8 32)
  /-- HKDF-SHA256: salt, input key, info -/
  hkdf : List UInt8 → List UInt8 → List UInt8 → Vector UInt8 32
  /-- ChaCha20-Poly1305: key, nonce, associated data, plaintext; the ciphertext and the tag -/
  aeadEncrypt : Vector UInt8 32 → List UInt8 → List UInt8 → List UInt8 →
    Option (List UInt8 × Vector UInt8 16)
  aeadDecrypt : Vector UInt8 32 → List UInt8 → List UInt8 → List UInt8 → List UInt8 →
    Option (List UInt8)

variable (suite : Suite)

structure Identity where
  signing : Vector UInt8 32
  noiseStatic : Vector UInt8 32
  deriving DecidableEq

namespace Identity

def publicIdentity (identity : Identity) : PublicIdentity :=
  let signingPublic := suite.ed25519Public identity.signing
  { nodeId := nodeIdOf suite.toPrimitives signingPublic
    signingPublic := signingPublic
    noisePublic := suite.x25519Public identity.noiseStatic }

def sign (identity : Identity) (message : List UInt8) : Vector UInt8 64 :=
  suite.ed25519Sign identity.signing message

end Identity

/-! ### Session keys -/

/-- The state of the AEAD is its key. -/
structure SessionCipher where
  tx : Vector UInt8 32
  rx : Vector UInt8 32
  deriving DecidableEq

structure SessionKeys where
  initiator : Vector UInt8 32
  responder : Vector UInt8 32
  deriving DecidableEq

def SessionKeys.cipher (keys : SessionKeys) (initiator : Bool) : SessionCipher where
  tx := if initiator then keys.initiator else keys.responder
  rx := if initiator then keys.responder else keys.initiator

namespace NoiseHandshake

def initiator (identity : Identity) (peerNoisePublic : Vector UInt8 32) : NoiseHandshake where
  isInitiator := true
  localPrivate := identity.noiseStatic
  remotePublic := some peerNoisePublic
  calls := []

def responder (identity : Identity) : NoiseHandshake where
  isInitiator := false
  localPrivate := identity.noiseStatic
  remotePublic := none
  calls := []

def writeMessage (hs : NoiseHandshake) (entropy payload : List UInt8) :
    Except CryptoError (List UInt8 × NoiseHandshake) :=
  match suite.noiseWrite hs entropy payload with
  | none => .error .noise
  | some message => .ok (message, { hs with calls := .wrote entropy payload :: hs.calls })

def readMessage (hs : NoiseHandshake) (message : List UInt8) :
    Except CryptoError (List UInt8 × NoiseHandshake) :=
  match suite.noiseRead hs message with
  | none => .error .noise
  | some payload => .ok (payload, { hs with calls := .read message :: hs.calls })

variable {suite} in
lemma writeMessage_ok {hs hs' : NoiseHandshake} {entropy payload message : List UInt8}
    (h : hs.writeMessage suite entropy payload = .ok (message, hs')) :
    hs' = { hs with calls := .wrote entropy payload :: hs.calls } := by
  unfold writeMessage at h
  split at h
  · cases h
  · cases h
    rfl

variable {suite} in
lemma readMessage_ok {hs hs' : NoiseHandshake} {payload message : List UInt8}
    (h : hs.readMessage suite message = .ok (payload, hs')) :
    hs' = { hs with calls := .read message :: hs.calls } := by
  unfold readMessage at h
  split at h
  · cases h
  · cases h
    rfl

def intoSession (hs : NoiseHandshake) : Except CryptoError SessionKeys :=
  if suite.noiseFinished hs then
    let salt := stringBytes "vela datagram session"
    .ok { initiator := suite.hkdf salt (suite.noiseHash hs) (stringBytes "initiator")
          responder := suite.hkdf salt (suite.noiseHash hs) (stringBytes "responder") }
  else .error .noise

/-- `get_remote_static` of `snow`: the initiator knows it from the start. -/
def remoteStatic (hs : NoiseHandshake) : Option (Vector UInt8 32) :=
  if hs.isInitiator then hs.remotePublic else suite.noiseRemoteStatic hs

end NoiseHandshake

/-! ### Datagrams -/

def nonce (sequence : UInt64) : List UInt8 := List.replicate 4 0 ++ beBytes 8 sequence.toNat

namespace SessionCipher

/-- `encrypt`: the ciphertext with the tag behind it. -/
def encrypt (cipher : SessionCipher) (sequence : UInt64) (associatedData plaintext : List UInt8) :
    Except CryptoError (List UInt8) :=
  match suite.aeadEncrypt cipher.tx (nonce sequence) associatedData plaintext with
  | none => .error .aead
  | some (ciphertext, tag) => .ok (ciphertext ++ tag.toList)

/-- `decrypt_in_place`: the plaintext that is left in the buffer. -/
def decrypt (cipher : SessionCipher) (sequence : UInt64) (associatedData buffer : List UInt8) :
    Except CryptoError (List UInt8) :=
  if buffer.length < 16 then .error .aead
  else
    let split := buffer.length - 16
    match suite.aeadDecrypt cipher.rx (nonce sequence) associatedData (buffer.take split)
        (buffer.drop split) with
    | none => .error .aead
    | some plaintext => .ok plaintext

variable {suite} in
lemma decrypt_append (cipher : SessionCipher) (sequence : UInt64)
    (associatedData ciphertext : List UInt8) (tag : Vector UInt8 16) :
    cipher.decrypt suite sequence associatedData (ciphertext ++ tag.toList) =
      match suite.aeadDecrypt cipher.rx (nonce sequence) associatedData ciphertext tag.toList with
      | none => .error .aead
      | some plaintext => .ok plaintext := by
  have hlen : (ciphertext ++ tag.toList).length = ciphertext.length + 16 := by simp
  have hsplit : (ciphertext ++ tag.toList).length - 16 = ciphertext.length := by omega
  have hshort : ¬ (ciphertext ++ tag.toList).length < 16 := by omega
  rw [decrypt, if_neg hshort]
  dsimp only
  rw [hsplit, List.take_left, List.drop_left]

end SessionCipher

/-- The AEAD encrypts every message as short as a datagram. -/
def Seals (suite : Suite) : Prop :=
  ∀ key nonce associatedData plaintext, plaintext.length < 2 ^ 16 →
    (suite.aeadEncrypt key nonce associatedData plaintext).isSome

end Vela.Crypto
