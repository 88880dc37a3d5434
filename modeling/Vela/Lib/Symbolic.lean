import Mathlib.Data.Sym.Sym2
import Mathlib.Data.Set.Basic

/-!
# Symbolic cryptography

Messages are terms over private keys named by `Name`.  Hash, key derivation and authenticated
encryption are free constructors; a Diffie–Hellman output is the unordered pair of its two keys.
`Derivable K t` is what an observer can compute from the set `K`: the functions are public, an
output of Diffie–Hellman needs one of the two private keys, a plaintext needs the key.

* `Derivable.of_safe` — a set of terms that contains `K` and is closed under the observer's rules
  contains everything derivable; the instance `Safe` treats every private key and every
  Diffie–Hellman output as unknown.
-/

namespace Symbolic

inductive Term (Name : Type) where
  /-- a public byte string -/
  | text (bytes : List UInt8)
  | priv (n : Name)
  | pub (n : Name)
  | dh (keys : Sym2 Name)
  | pair (t u : Term Name)
  | hash (t : Term Name)
  /-- output block `i` of HKDF with this salt, input key material and info -/
  | kdf (i : ℕ) (salt ikm info : Term Name)
  | aead (key : Term Name) (nonce : ℕ) (ad plain : Term Name)
  deriving DecidableEq

variable {Name : Type}

open Term

/-- What an observer who knows `K` can compute. -/
inductive Derivable (K : Set (Term Name)) : Term Name → Prop
  | known {t} : t ∈ K → Derivable K t
  | text (bytes) : Derivable K (text bytes)
  | pub {n} : Derivable K (priv n) → Derivable K (pub n)
  | dh {a b} : Derivable K (priv a) → Derivable K (pub b) → Derivable K (dh s(a, b))
  | pair {t u} : Derivable K t → Derivable K u → Derivable K (pair t u)
  | fst {t u} : Derivable K (.pair t u) → Derivable K t
  | snd {t u} : Derivable K (.pair t u) → Derivable K u
  | hash {t} : Derivable K t → Derivable K (hash t)
  | kdf (i) {salt ikm info} : Derivable K salt → Derivable K ikm → Derivable K info →
      Derivable K (kdf i salt ikm info)
  | encrypt (nonce) {key ad plain} : Derivable K key → Derivable K ad → Derivable K plain →
      Derivable K (aead key nonce ad plain)
  | decrypt {key nonce ad plain} : Derivable K (aead key nonce ad plain) → Derivable K key →
      Derivable K plain

/-- Terms without an unknown: no private key, no Diffie–Hellman output, except below an encryption
whose key has one. -/
def Safe : Term Name → Prop
  | .text _ => True
  | .priv _ => False
  | .pub _ => True
  | .dh _ => False
  | .pair t u => Safe t ∧ Safe u
  | .hash t => Safe t
  | .kdf _ salt ikm info => Safe salt ∧ Safe ikm ∧ Safe info
  | .aead key _ _ plain => Safe key → Safe plain

/-- **Secrecy by a closed set.**  From safe terms only safe terms can be derived. -/
theorem Derivable.of_safe {K : Set (Term Name)} (hK : ∀ t ∈ K, Safe t) {t : Term Name}
    (h : Derivable K t) : Safe t := by
  induction h with
  | known ht => exact hK _ ht
  | text _ => trivial
  | pub _ _ => trivial
  | dh _ _ ha _ => exact ha
  | pair _ _ ht hu => exact ⟨ht, hu⟩
  | fst _ h => exact h.1
  | snd _ h => exact h.2
  | hash _ h => exact h
  | kdf _ _ _ _ hs hk hi => exact ⟨hs, hk, hi⟩
  | encrypt _ _ _ _ _ _ hp => exact fun _ => hp
  | decrypt _ _ hc hk => exact hc hk

end Symbolic
