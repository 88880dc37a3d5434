import Vela.Lib.Symbolic

/-!
# The Noise handshake machine, symbolically

The symmetric state, the handshake state and the processing of message patterns token by token, as
the Noise specification defines them, over symbolic terms.  A message is the list of its fields.

* `derivable_writeMessage`, `derivable_readMessage` — the handshake hash stays computable for
  whoever sees the fields of the messages, whatever the pattern.
-/

set_option linter.unusedSectionVars false

namespace Noise

open Symbolic

variable {Name : Type} [DecidableEq Name]

structure SymmetricState (Name : Type) where
  ck : Term Name
  h : Term Name
  k : Option (Term Name)
  n : ℕ
  deriving DecidableEq

namespace SymmetricState

/-- `InitializeSymmetric` for a protocol name of exactly the hash length: `h` is the name itself. -/
def initializeSymmetric (protocolName : List UInt8) : SymmetricState Name where
  ck := .text protocolName
  h := .text protocolName
  k := none
  n := 0

def mixKey (sym : SymmetricState Name) (ikm : Term Name) : SymmetricState Name :=
  { sym with
    ck := .kdf 0 sym.ck ikm (.text [])
    k := some (.kdf 1 sym.ck ikm (.text []))
    n := 0 }

def mixHash (sym : SymmetricState Name) (data : Term Name) : SymmetricState Name :=
  { sym with h := .hash (.pair sym.h data) }

def encryptAndHash (sym : SymmetricState Name) (plain : Term Name) :
    SymmetricState Name × Term Name :=
  match sym.k with
  | none => (sym.mixHash plain, plain)
  | some key =>
    let cipher := .aead key sym.n sym.h plain
    ({ sym with n := sym.n + 1 }.mixHash cipher, cipher)

def decryptAndHash (sym : SymmetricState Name) (cipher : Term Name) :
    Option (SymmetricState Name × Term Name) :=
  match sym.k with
  | none => some (sym.mixHash cipher, cipher)
  | some key =>
    match cipher with
    | .aead key' n' ad plain =>
      -- the tag covers the key, the nonce and the associated data
      if key' = key ∧ n' = sym.n ∧ ad = sym.h then
        some ({ sym with n := sym.n + 1 }.mixHash cipher, plain)
      else none
    | _ => none

/-- `Split`: the two transport keys, in the order initiator, responder. -/
def split (sym : SymmetricState Name) : Term Name × Term Name :=
  (.kdf 0 sym.ck (.text []) (.text []), .kdf 1 sym.ck (.text []) (.text []))

end SymmetricState

inductive Token where
  | e | s | ee | es | se | ss
  deriving DecidableEq

/-- A handshake pattern whose only pre-message is the responder's static key, as in `NK`, `IK`. -/
abbrev Pattern := List (List Token)

structure HandshakeState (Name : Type) where
  initiator : Bool
  /-- the private keys, static and ephemeral -/
  s : Name
  e : Name
  /-- the public keys of the other side, once known -/
  rs : Option (Term Name)
  re : Option (Term Name)
  sym : SymmetricState Name
  pattern : Pattern
  /-- how many messages of the pattern are done -/
  position : ℕ
  deriving DecidableEq

namespace HandshakeState

/-- `DH(keypair, public_key)`. -/
def dh (key : Name) : Option (Term Name) → Option (Term Name)
  | some (.pub other) => some (.dh s(key, other))
  | _ => none

/-- `Initialize`: protocol name, prologue and the pre-message with the responder's static key. -/
def initializeHandshake (pattern : Pattern) (protocolName prologue : List UInt8) (initiator : Bool)
    (s e : Name) (responderStatic : Term Name) : HandshakeState Name where
  initiator := initiator
  s := s
  e := e
  rs := if initiator then some responderStatic else none
  re := none
  sym := ((SymmetricState.initializeSymmetric protocolName).mixHash (.text prologue)).mixHash responderStatic
  pattern := pattern
  position := 0

/-- The input of `MixKey` for a token, as the role of the party has it. -/
def dhToken (st : HandshakeState Name) : Token → Option (Term Name)
  | .ee => dh st.e st.re
  | .es => if st.initiator then dh st.e st.rs else dh st.s st.re
  | .se => if st.initiator then dh st.s st.re else dh st.e st.rs
  | .ss => dh st.s st.rs
  | .e | .s => none

def writeToken (st : HandshakeState Name) (token : Token) :
    Option (HandshakeState Name × List (Term Name)) :=
  match token with
  | .e => some ({ st with sym := st.sym.mixHash (.pub st.e) }, [.pub st.e])
  | .s =>
    let (sym, cipher) := st.sym.encryptAndHash (.pub st.s)
    some ({ st with sym }, [cipher])
  | token => do
    let ikm ← st.dhToken token
    return ({ st with sym := st.sym.mixKey ikm }, [])

def readToken (st : HandshakeState Name) (token : Token) (message : List (Term Name)) :
    Option (HandshakeState Name × List (Term Name)) :=
  match token, message with
  | .e, field :: rest => some ({ st with re := some field, sym := st.sym.mixHash field }, rest)
  | .s, field :: rest => do
    let (sym, plain) ← st.sym.decryptAndHash field
    return ({ st with rs := some plain, sym }, rest)
  | .e, [] | .s, [] => none
  | token, message => do
    let ikm ← st.dhToken token
    return ({ st with sym := st.sym.mixKey ikm }, message)

def writeTokens (st : HandshakeState Name) :
    List Token → Option (HandshakeState Name × List (Term Name))
  | [] => some (st, [])
  | token :: tokens => do
    let (st, fields) ← st.writeToken token
    let (st, rest) ← st.writeTokens tokens
    return (st, fields ++ rest)

def readTokens (st : HandshakeState Name) :
    List Token → List (Term Name) → Option (HandshakeState Name × List (Term Name))
  | [], message => some (st, message)
  | token :: tokens, message => do
    let (st, message) ← st.readToken token message
    st.readTokens tokens message

def isHandshakeFinished (st : HandshakeState Name) : Bool := st.position == st.pattern.length

/-- The initiator writes the messages at even positions. -/
def isMyTurn (st : HandshakeState Name) : Bool := st.initiator == (st.position % 2 == 0)

def writeMessage (st : HandshakeState Name) (payload : Term Name) :
    Option (HandshakeState Name × List (Term Name)) := do
  guard st.isMyTurn
  let tokens ← st.pattern[st.position]?
  let (st, fields) ← st.writeTokens tokens
  let (sym, cipher) := st.sym.encryptAndHash payload
  return ({ st with sym, position := st.position + 1 }, fields ++ [cipher])

def readMessage (st : HandshakeState Name) (message : List (Term Name)) :
    Option (HandshakeState Name × Term Name) := do
  guard (!st.isMyTurn)
  let tokens ← st.pattern[st.position]?
  let (st, rest) ← st.readTokens tokens message
  match rest with
  | [field] =>
    let (sym, payload) ← st.sym.decryptAndHash field
    return ({ st with sym, position := st.position + 1 }, payload)
  | _ => none

end HandshakeState

/-- Decryption in the sender's state undoes encryption, and both sides mix in the ciphertext. -/
@[simp] lemma SymmetricState.decryptAndHash_encryptAndHash (sym : SymmetricState Name)
    (plain : Term Name) : sym.decryptAndHash (sym.encryptAndHash plain).2 =
      some ((sym.encryptAndHash plain).1, plain) := by
  unfold SymmetricState.decryptAndHash SymmetricState.encryptAndHash
  cases sym.k <;> simp

lemma HandshakeState.readTokens_append (xs ys : List Token) (st : HandshakeState Name)
    (message : List (Term Name)) : st.readTokens (xs ++ ys) message =
      (st.readTokens xs message).bind fun (st, rest) => st.readTokens ys rest := by
  induction xs generalizing st message with
  | nil => rfl
  | cons token xs ih =>
    simp only [List.cons_append, HandshakeState.readTokens, bind]
    rw [Option.bind_assoc]
    congr 1
    funext ⟨st, rest⟩
    exact ih st rest

/-! ### The handshake hash is public -/

section Hash

variable {K : Set (Term Name)} {st st' : HandshakeState Name}

variable {sym : SymmetricState Name} {message : List (Term Name)} {plain payload : Term Name}
  {token : Token}

lemma derivable_mixHash {data : Term Name} (h : Derivable K sym.h) (hd : Derivable K data) :
    Derivable K (sym.mixHash data).h :=
  .hash (.pair h hd)

lemma derivable_encryptAndHash (h : Derivable K sym.h) (hc : (sym.encryptAndHash plain).2 ∈ K) :
    Derivable K (sym.encryptAndHash plain).1.h := by
  unfold SymmetricState.encryptAndHash at hc ⊢
  cases hk : sym.k with
  | none =>
    simp only [hk] at hc ⊢
    exact derivable_mixHash h (.known hc)
  | some key =>
    simp only [hk] at hc ⊢
    exact .hash (.pair h (.known hc))

lemma derivable_decryptAndHash {sym' : SymmetricState Name} {cipher : Term Name} (h : Derivable K sym.h)
    (hc : cipher ∈ K) (hd : sym.decryptAndHash cipher = some (sym', plain)) : Derivable K sym'.h := by
  unfold SymmetricState.decryptAndHash at hd
  split at hd
  · cases hd
    exact derivable_mixHash h (.known hc)
  · split at hd
    · split at hd
      · cases hd
        exact .hash (.pair h (.known hc))
      · cases hd
    · cases hd

lemma derivable_writeToken {fields : List (Term Name)} (h : Derivable K st.sym.h)
    (hw : st.writeToken token = some (st', fields)) (hf : ∀ t ∈ fields, t ∈ K) :
    Derivable K st'.sym.h := by
  have hmix : ∀ token, (do
      let ikm ← st.dhToken token
      return ({ st with sym := st.sym.mixKey ikm }, ([] : List (Term Name)))) = some (st', fields) →
      Derivable K st'.sym.h := by
    intro token hw
    obtain ⟨ikm, -, hret⟩ := Option.bind_eq_some_iff.1 hw
    cases hret
    exact h
  cases token with
  | e =>
    cases hw
    exact derivable_mixHash h (.known (hf _ (List.mem_singleton_self _)))
  | s =>
    cases hw
    exact derivable_encryptAndHash h (hf _ (List.mem_singleton_self _))
  | ee => exact hmix _ hw
  | es => exact hmix _ hw
  | se => exact hmix _ hw
  | ss => exact hmix _ hw

lemma derivable_readToken {rest : List (Term Name)} (h : Derivable K st.sym.h)
    (hr : st.readToken token message = some (st', rest)) (hf : ∀ t ∈ message, t ∈ K) :
    Derivable K st'.sym.h ∧ ∀ t ∈ rest, t ∈ K := by
  have hmix : ∀ token, (do
      let ikm ← st.dhToken token
      return ({ st with sym := st.sym.mixKey ikm }, message)) = some (st', rest) →
      Derivable K st'.sym.h ∧ ∀ t ∈ rest, t ∈ K := by
    intro token hr
    obtain ⟨ikm, -, hret⟩ := Option.bind_eq_some_iff.1 hr
    cases hret
    exact ⟨h, hf⟩
  cases token with
  | e =>
    cases message with
    | nil => cases hr
    | cons field message =>
      cases hr
      exact ⟨derivable_mixHash h (.known (hf _ (.head _))),
        fun t ht => hf t (.tail _ ht)⟩
  | s =>
    cases message with
    | nil => cases hr
    | cons field message =>
      obtain ⟨⟨sym, plain⟩, hd, hret⟩ := Option.bind_eq_some_iff.1 hr
      cases hret
      exact ⟨derivable_decryptAndHash h (hf _ (.head _)) hd,
        fun t ht => hf t (.tail _ ht)⟩
  | ee => exact hmix .ee (by simpa [HandshakeState.readToken] using hr)
  | es => exact hmix .es (by simpa [HandshakeState.readToken] using hr)
  | se => exact hmix .se (by simpa [HandshakeState.readToken] using hr)
  | ss => exact hmix .ss (by simpa [HandshakeState.readToken] using hr)

lemma derivable_writeTokens : ∀ (tokens : List Token) {st st' : HandshakeState Name}
    {fields : List (Term Name)}, Derivable K st.sym.h →
    st.writeTokens tokens = some (st', fields) → (∀ t ∈ fields, t ∈ K) → Derivable K st'.sym.h := by
  intro tokens
  induction tokens with
  | nil =>
    intro st st' fields h hw _
    cases hw
    exact h
  | cons token tokens ih =>
    intro st st' fields h hw hf
    obtain ⟨⟨mid, front⟩, hone, hw⟩ := Option.bind_eq_some_iff.1 hw
    obtain ⟨⟨last, back⟩, hrest, hret⟩ := Option.bind_eq_some_iff.1 hw
    cases hret
    have hmid := derivable_writeToken h hone fun t ht => hf t (List.mem_append_left _ ht)
    exact ih hmid hrest fun t ht => hf t (List.mem_append_right _ ht)

lemma derivable_readTokens : ∀ (tokens : List Token) {st st' : HandshakeState Name}
    {message rest : List (Term Name)}, Derivable K st.sym.h →
    st.readTokens tokens message = some (st', rest) → (∀ t ∈ message, t ∈ K) →
      Derivable K st'.sym.h ∧ ∀ t ∈ rest, t ∈ K := by
  intro tokens
  induction tokens with
  | nil =>
    intro st st' message rest h hr hf
    cases hr
    exact ⟨h, hf⟩
  | cons token tokens ih =>
    intro st st' message rest h hr hf
    obtain ⟨⟨mid, left⟩, hone, hr⟩ := Option.bind_eq_some_iff.1 hr
    obtain ⟨hmid, hleft⟩ := derivable_readToken h hone hf
    exact ih hmid hr hleft

/-- **A written message.**  Whoever can compute the hash before it and sees its fields can compute
the hash after it. -/
theorem derivable_writeMessage (h : Derivable K st.sym.h)
    (hw : st.writeMessage payload = some (st', message)) (hf : ∀ t ∈ message, t ∈ K) :
    Derivable K st'.sym.h := by
  obtain ⟨_, -, hw⟩ := Option.bind_eq_some_iff.1 hw
  obtain ⟨tokens, -, hw⟩ := Option.bind_eq_some_iff.1 hw
  obtain ⟨⟨mid, fields⟩, hfields, hw⟩ := Option.bind_eq_some_iff.1 hw
  cases hw
  have hmid := derivable_writeTokens tokens h hfields fun t ht => hf t (List.mem_append_left _ ht)
  exact derivable_encryptAndHash hmid (hf _ (List.mem_append_right _ (List.mem_singleton_self _)))

/-- **A message read.** -/
theorem derivable_readMessage (h : Derivable K st.sym.h)
    (hr : st.readMessage message = some (st', payload)) (hf : ∀ t ∈ message, t ∈ K) :
    Derivable K st'.sym.h := by
  obtain ⟨_, -, hr⟩ := Option.bind_eq_some_iff.1 hr
  obtain ⟨tokens, -, hr⟩ := Option.bind_eq_some_iff.1 hr
  obtain ⟨⟨mid, rest⟩, hrest, hr⟩ := Option.bind_eq_some_iff.1 hr
  obtain ⟨hmid, hleft⟩ := derivable_readTokens tokens h hrest hf
  simp only at hr
  split at hr
  · obtain ⟨⟨sym, plain⟩, hd, hr⟩ := Option.bind_eq_some_iff.1 hr
    cases hr
    exact derivable_decryptAndHash hmid (hleft _ (List.mem_singleton_self _)) hd
  · cases hr

end Hash

end Noise
