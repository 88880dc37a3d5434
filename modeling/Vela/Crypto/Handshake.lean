import Vela.Lib.Noise

/-!
# The handshake and its session keys

`NoiseHandshake` of `vela-crypto`: a `Noise_IK_25519_ChaChaPoly_SHA256` handshake whose session keys
are not those of Noise's `Split`, but are derived from the handshake hash.

* `session_keys_derivable` — whoever sees the two messages can compute both keys.
-/

set_option linter.unusedSectionVars false

namespace Vela.Crypto.Handshake

open Symbolic Noise

variable {Name : Type} [DecidableEq Name]

/-- The bytes of a string constant. -/
def ascii (s : String) : List UInt8 := s.toByteArray.data.toList

/-- The message patterns of `IK`: `-> e, es, s, ss` and `<- e, ee, se`. -/
def ik : Pattern := [[.e, .es, .s, .ss], [.e, .ee, .se]]

def protocolName : List UInt8 := ascii "Noise_IK_25519_ChaChaPoly_SHA256"

structure NoiseHandshake (Name : Type) where
  state : HandshakeState Name
  deriving DecidableEq

structure SessionKeys (Name : Type) where
  initiator : Term Name
  responder : Term Name
  deriving DecidableEq

namespace NoiseHandshake

/-- `NoiseHandshake::initiator`; `e` names the ephemeral key that the handshake will generate. -/
def initiator (identity e : Name) (peerNoisePublic : Term Name) : NoiseHandshake Name :=
  ⟨HandshakeState.initializeHandshake ik protocolName [] true identity e peerNoisePublic⟩

def responder (identity e : Name) : NoiseHandshake Name :=
  ⟨HandshakeState.initializeHandshake ik protocolName [] false identity e (.pub identity)⟩

def writeMessage (hs : NoiseHandshake Name) (payload : Term Name) :
    Option (NoiseHandshake Name × List (Term Name)) := do
  let (state, message) ← hs.state.writeMessage payload
  return (⟨state⟩, message)

def readMessage (hs : NoiseHandshake Name) (message : List (Term Name)) :
    Option (NoiseHandshake Name × Term Name) := do
  let (state, payload) ← hs.state.readMessage message
  return (⟨state⟩, payload)

def isFinished (hs : NoiseHandshake Name) : Bool := hs.state.isHandshakeFinished

/-- HKDF-SHA256 of the handshake hash with a constant salt. -/
def expand (hash : Term Name) (info : String) : Term Name :=
  .kdf 0 (.text (ascii "vela datagram session")) hash (.text (ascii info))

def intoSession (hs : NoiseHandshake Name) : Option (SessionKeys Name) :=
  if hs.isFinished then
    let hash := hs.state.sym.h
    some { initiator := expand hash "initiator", responder := expand hash "responder" }
  else none

end NoiseHandshake

/-- A whole handshake between two honest nodes: the initiator's and the responder's final state and
the two messages. -/
def handshake (si sr ei er : Name) (payload₁ payload₂ : Term Name) :
    Option (NoiseHandshake Name × NoiseHandshake Name × List (Term Name) × List (Term Name)) := do
  let (ini, message₁) ← (NoiseHandshake.initiator si ei (.pub sr)).writeMessage payload₁
  let (resp, _) ← (NoiseHandshake.responder sr er).readMessage message₁
  let (resp, message₂) ← resp.writeMessage payload₂
  let (ini, _) ← ini.readMessage message₂
  return (ini, resp, message₁, message₂)

/-- The observer: every public key and every field of the two messages, no private key. -/
def observed (message₁ message₂ : List (Term Name)) : Set (Term Name) :=
  { t | (∃ n, t = .pub n) ∨ t ∈ message₁ ∨ t ∈ message₂ }

lemma handshake_cases {si sr ei er : Name} {payload₁ payload₂ : Term Name}
    {ini resp : NoiseHandshake Name} {m₁ m₂ : List (Term Name)}
    (h : handshake si sr ei er payload₁ payload₂ = some (ini, resp, m₁, m₂)) :
    ∃ i r x y, (NoiseHandshake.initiator si ei (.pub sr)).writeMessage payload₁ = some (i, m₁) ∧
      (NoiseHandshake.responder sr er).readMessage m₁ = some (r, x) ∧
      r.writeMessage payload₂ = some (resp, m₂) ∧ i.readMessage m₂ = some (ini, y) := by
  simp only [handshake, Option.bind_eq_bind, Option.bind_eq_some_iff, Prod.exists, Option.pure_def,
    Option.some.injEq, Prod.mk.injEq] at h
  obtain ⟨i, f₁, hi, r, x, hr, r', f₂, hr', i', y, hi', rfl, rfl, rfl, rfl⟩ := h
  exact ⟨i, r, x, y, hi, hr, hr', hi'⟩

/-! ### Completion -/

section Completion

variable (si sr ei er : Name) (payload₁ payload₂ : Term Name)

/-- The symmetric state of both sides before the initiator's static key. -/
def symStatic : SymmetricState Name :=
  ((NoiseHandshake.responder sr ei).state.sym.mixHash (.pub ei)).mixKey (.dh s(ei, sr))

/-- The symmetric state of both sides before the first payload. -/
def symFirst : SymmetricState Name :=
  ((symStatic sr ei).encryptAndHash (.pub si)).1.mixKey (.dh s(si, sr))

/-- The symmetric state of both sides before the second payload. -/
def symSecond : SymmetricState Name :=
  ((((symFirst si sr ei).encryptAndHash payload₁).1.mixHash (.pub er)).mixKey
    (.dh s(ei, er))).mixKey (.dh s(si, er))

def message₁ : List (Term Name) :=
  [.pub ei, ((symStatic sr ei).encryptAndHash (.pub si)).2,
    ((symFirst si sr ei).encryptAndHash payload₁).2]

def message₂ : List (Term Name) :=
  [.pub er, ((symSecond si sr ei er payload₁).encryptAndHash payload₂).2]

lemma initiator_writes :
    (NoiseHandshake.initiator si ei (.pub sr)).writeMessage payload₁ =
      some (⟨⟨true, si, ei, some (.pub sr), none,
        ((symFirst si sr ei).encryptAndHash payload₁).1, ik, 1⟩⟩, message₁ si sr ei payload₁) :=
  rfl

lemma responder_reads_tokens :
    (NoiseHandshake.responder sr er).state.readTokens [.e, .es, .s, .ss] (message₁ si sr ei payload₁) =
      some (⟨false, sr, er, some (.pub si), some (.pub ei), symFirst si sr ei, ik, 0⟩,
        [((symFirst si sr ei).encryptAndHash payload₁).2]) := by
  -- the responder computes the same Diffie–Hellman outputs from the other private keys
  have hes : s(sr, ei) = s(ei, sr) := Sym2.eq_swap
  have hss : s(sr, si) = s(si, sr) := Sym2.eq_swap
  have he : (NoiseHandshake.responder sr er).state.readTokens [.e, .es] (message₁ si sr ei payload₁)
      = some (⟨false, sr, er, none, some (.pub ei), symStatic sr ei, ik, 0⟩,
        (message₁ si sr ei payload₁).tail) := by
    simp only [symStatic, ← hes]
    rfl
  have hs : HandshakeState.readToken ⟨false, sr, er, none, some (.pub ei), symStatic sr ei, ik, 0⟩ .s
      (message₁ si sr ei payload₁).tail = some (⟨false, sr, er, some (.pub si), some (.pub ei),
        ((symStatic sr ei).encryptAndHash (.pub si)).1, ik, 0⟩,
        [((symFirst si sr ei).encryptAndHash payload₁).2]) := by
    simp only [message₁, List.tail_cons, HandshakeState.readToken,
      SymmetricState.decryptAndHash_encryptAndHash]
    rfl
  rw [show [Token.e, .es, .s, .ss] = [.e, .es] ++ [.s, .ss] from rfl,
    HandshakeState.readTokens_append, he]
  simp only [Option.bind_some, HandshakeState.readTokens, hs, bind]
  simp only [symFirst, ← hss]
  rfl

lemma responder_reads :
    (NoiseHandshake.responder sr er).readMessage (message₁ si sr ei payload₁) =
      some (⟨⟨false, sr, er, some (.pub si), some (.pub ei),
        ((symFirst si sr ei).encryptAndHash payload₁).1, ik, 1⟩⟩, payload₁) := by
  have hread : (NoiseHandshake.responder sr er).state.readMessage (message₁ si sr ei payload₁) =
      some (⟨false, sr, er, some (.pub si), some (.pub ei),
        ((symFirst si sr ei).encryptAndHash payload₁).1, ik, 1⟩, payload₁) := by
    have htokens := responder_reads_tokens si sr ei er payload₁
    unfold HandshakeState.readMessage
    rw [show (NoiseHandshake.responder sr er).state.pattern[
      (NoiseHandshake.responder sr er).state.position]? = some [.e, .es, .s, .ss] from rfl]
    simp only [Option.bind_some, bind, htokens, SymmetricState.decryptAndHash_encryptAndHash]
    rfl
  rw [NoiseHandshake.readMessage, hread]
  rfl

lemma responder_writes :
    (NoiseHandshake.mk ⟨false, sr, er, some (.pub si), some (.pub ei),
        ((symFirst si sr ei).encryptAndHash payload₁).1, ik, 1⟩).writeMessage payload₂ =
      some (⟨⟨false, sr, er, some (.pub si), some (.pub ei),
        ((symSecond si sr ei er payload₁).encryptAndHash payload₂).1, ik, 2⟩⟩,
        message₂ si sr ei er payload₁ payload₂) := by
  have hee : s(er, ei) = s(ei, er) := Sym2.eq_swap
  have hse : s(er, si) = s(si, er) := Sym2.eq_swap
  simp only [message₂, symSecond, ← hee, ← hse]
  rfl

lemma initiator_reads :
    (NoiseHandshake.mk ⟨true, si, ei, some (.pub sr), none,
        ((symFirst si sr ei).encryptAndHash payload₁).1, ik, 1⟩).readMessage
          (message₂ si sr ei er payload₁ payload₂) =
      some (⟨⟨true, si, ei, some (.pub sr), some (.pub er),
        ((symSecond si sr ei er payload₁).encryptAndHash payload₂).1, ik, 2⟩⟩, payload₂) := by
  have htokens : HandshakeState.readTokens ⟨true, si, ei, some (.pub sr), none,
      ((symFirst si sr ei).encryptAndHash payload₁).1, ik, 1⟩ [.e, .ee, .se]
        (message₂ si sr ei er payload₁ payload₂) =
      some (⟨true, si, ei, some (.pub sr), some (.pub er), symSecond si sr ei er payload₁, ik, 1⟩,
        [((symSecond si sr ei er payload₁).encryptAndHash payload₂).2]) := rfl
  have hread : HandshakeState.readMessage ⟨true, si, ei, some (.pub sr), none,
      ((symFirst si sr ei).encryptAndHash payload₁).1, ik, 1⟩
        (message₂ si sr ei er payload₁ payload₂) =
      some (⟨true, si, ei, some (.pub sr), some (.pub er),
        ((symSecond si sr ei er payload₁).encryptAndHash payload₂).1, ik, 2⟩, payload₂) := by
    unfold HandshakeState.readMessage
    rw [show ik[1]? = some [.e, .ee, .se] from rfl]
    simp only [Option.bind_some, bind, htokens, SymmetricState.decryptAndHash_encryptAndHash]
    rfl
  rw [NoiseHandshake.readMessage, hread]
  rfl

/-- **Between honest nodes every handshake completes**, both sides in the same symmetric state. -/
theorem handshake_completes :
    ∃ ini resp : NoiseHandshake Name,
      handshake si sr ei er payload₁ payload₂ = some (ini, resp, message₁ si sr ei payload₁,
        message₂ si sr ei er payload₁ payload₂) ∧
      ini.isFinished = true ∧ resp.isFinished = true ∧
      ini.state.sym = ((symSecond si sr ei er payload₁).encryptAndHash payload₂).1 ∧
      resp.state.sym = ini.state.sym := by
  refine ⟨⟨⟨true, si, ei, some (.pub sr), some (.pub er),
    ((symSecond si sr ei er payload₁).encryptAndHash payload₂).1, ik, 2⟩⟩,
    ⟨⟨false, sr, er, some (.pub si), some (.pub ei),
    ((symSecond si sr ei er payload₁).encryptAndHash payload₂).1, ik, 2⟩⟩, ?_, rfl, rfl, rfl, rfl⟩
  rw [handshake, initiator_writes]
  simp only [bind, Option.bind_some]
  rw [responder_reads]
  simp only [Option.bind_some]
  rw [responder_writes]
  simp only [Option.bind_some]
  rw [initiator_reads]
  rfl

end Completion

/-! ### The keys of `into_session` -/

section Observer

variable {si sr ei er : Name} {hs hs' : NoiseHandshake Name} {payload : Term Name}
  {m₁ m₂ : List (Term Name)} {keys : SessionKeys Name}

variable {K : Set (Term Name)} {mid : NoiseHandshake Name} {payload' : Term Name}

lemma derivable_expand {hash : Term Name} (h : Derivable K hash) (info : String) :
    Derivable K (NoiseHandshake.expand hash info) :=
  .kdf 0 (.text _) h (.text _)

lemma derivable_intoSession (h : Derivable K hs.state.sym.h) (hk : hs.intoSession = some keys) :
    Derivable K keys.initiator ∧ Derivable K keys.responder := by
  unfold NoiseHandshake.intoSession at hk
  split at hk
  · cases hk
    exact ⟨derivable_expand h _, derivable_expand h _⟩
  · cases hk

lemma intoSession_of_finished (h : hs.isFinished = true) : hs.intoSession =
    some ⟨NoiseHandshake.expand hs.state.sym.h "initiator",
      NoiseHandshake.expand hs.state.sym.h "responder"⟩ :=
  if_pos h

/-- The hash a handshake starts with: constants and the responder's public key. -/
lemma derivable_start {initiator : Bool} {s e : Name} (h : Term.pub sr ∈ K) :
    Derivable K (HandshakeState.initializeHandshake ik protocolName []
      initiator s e (.pub sr)).sym.h :=
  derivable_mixHash (derivable_mixHash (.text _) (.text _)) (.known h)

lemma pub_mem_observed (n : Name) : Term.pub n ∈ observed m₁ m₂ := Or.inl ⟨n, rfl⟩

lemma derivable_write (h : Derivable K hs.state.sym.h) (hw : hs.writeMessage payload = some (hs', m₁))
    (hm : ∀ t ∈ m₁, t ∈ K) :
    Derivable K hs'.state.sym.h := by
  obtain ⟨⟨state, message⟩, hstate, hret⟩ := Option.bind_eq_some_iff.1 hw
  cases hret
  exact derivable_writeMessage h hstate hm

lemma derivable_read (h : Derivable K hs.state.sym.h) (hr : hs.readMessage m₁ = some (hs', payload))
    (hm : ∀ t ∈ m₁, t ∈ K) :
    Derivable K hs'.state.sym.h := by
  obtain ⟨⟨state, message⟩, hstate, hret⟩ := Option.bind_eq_some_iff.1 hr
  cases hret
  exact derivable_readMessage h hstate hm

lemma derivable_initiator_keys
    (hw : (NoiseHandshake.initiator si ei (.pub sr)).writeMessage payload = some (mid, m₁))
    (hr : mid.readMessage m₂ = some (hs, payload')) (hk : hs.intoSession = some keys) :
    Derivable (observed m₁ m₂) keys.initiator ∧ Derivable (observed m₁ m₂) keys.responder := by
  have hmid : Derivable (observed m₁ m₂) mid.state.sym.h :=
    derivable_write (derivable_start (pub_mem_observed sr)) hw fun t ht => .inr (.inl ht)
  exact derivable_intoSession (derivable_read hmid hr fun t ht => .inr (.inr ht)) hk

end Observer

section Secrecy

variable (si sr ei er : Name) (payload₁ payload₂ : Term Name)

/-- **The session keys are public.**  Every handshake between two honest nodes completes, both sides
return the same keys, and the observer of the two messages derives both of them. -/
theorem session_keys_derivable :
    ∃ ini resp m₁ m₂ keys, handshake si sr ei er payload₁ payload₂ = some (ini, resp, m₁, m₂) ∧
      ini.intoSession = some keys ∧ resp.intoSession = some keys ∧
      Derivable (observed m₁ m₂) keys.initiator ∧ Derivable (observed m₁ m₂) keys.responder := by
  obtain ⟨ini, resp, hrun, hini, hresp, -, hsame⟩ :=
    handshake_completes si sr ei er payload₁ payload₂
  obtain ⟨i, r, x, y, hw, -, -, hr⟩ := handshake_cases hrun
  have hk := intoSession_of_finished hini
  have hk' := intoSession_of_finished hresp
  rw [hsame] at hk'
  exact ⟨ini, resp, _, _, _, hrun, hk, hk', derivable_initiator_keys hw hr hk⟩

/-- One handshake, with empty payloads, whose keys are not secret. -/
theorem session_keys_not_secret :
    ¬ ∀ (si sr ei er : ℕ) (payload₁ payload₂ : Term ℕ) (ini resp : NoiseHandshake ℕ)
      (m₁ m₂ : List (Term ℕ)) (keys : SessionKeys ℕ),
      handshake si sr ei er payload₁ payload₂ = some (ini, resp, m₁, m₂) →
      ini.intoSession = some keys →
      ¬ Derivable (observed m₁ m₂) keys.initiator ∧ ¬ Derivable (observed m₁ m₂) keys.responder := by
  intro h
  obtain ⟨ini, resp, hrun, hini, -⟩ := handshake_completes 0 1 2 3 (.text []) (.text [])
  obtain ⟨i, r, x, y, hw, -, -, hr⟩ := handshake_cases hrun
  have hk := intoSession_of_finished hini
  exact (h 0 1 2 3 _ _ ini resp _ _ _ hrun hk).1 (derivable_initiator_keys hw hr hk).1

/-- The keys of `Split` at the end of the same handshake are out of the observer's reach. -/
lemma split_keys_secret {ini resp : NoiseHandshake Name} {m₁ m₂ : List (Term Name)}
    (h : handshake si sr ei er payload₁ payload₂ = some (ini, resp, m₁, m₂)) :
    ¬ Derivable (observed m₁ m₂) ini.state.sym.split.1 ∧
      ¬ Derivable (observed m₁ m₂) ini.state.sym.split.2 := by
  obtain ⟨ini', resp', hrun, -, -, hsym, -⟩ := handshake_completes si sr ei er payload₁ payload₂
  rw [hrun] at h
  simp only [Option.some.injEq, Prod.mk.injEq] at h
  obtain ⟨rfl, rfl, rfl, rfl⟩ := h
  -- every ciphertext is under a key with a Diffie–Hellman output in it
  have hsafe : ∀ t ∈ observed (message₁ si sr ei payload₁) (message₂ si sr ei er payload₁ payload₂),
      Safe t := by
    rintro t (⟨n, rfl⟩ | ht | ht)
    · trivial
    · simp only [message₁, List.mem_cons, List.not_mem_nil, or_false] at ht
      rcases ht with rfl | rfl | rfl
      · trivial
      · exact fun hkey => absurd hkey.2.1 id
      · exact fun hkey => absurd hkey.2.1 id
    · simp only [message₂, List.mem_cons, List.not_mem_nil, or_false] at ht
      rcases ht with rfl | rfl
      · trivial
      · exact fun hkey => absurd hkey.2.1 id
  rw [hsym]
  exact ⟨fun hd => (hd.of_safe hsafe).1.2.1, fun hd => (hd.of_safe hsafe).1.2.1⟩

end Secrecy

end Vela.Crypto.Handshake
