import Mathlib.Data.List.Basic
import Mathlib.Data.Nat.Basic
import Mathlib.Tactic.Ring

/-!
# Unambiguous encodings

An encoding `enc : α → List β` is read from the front of a stream.  `Unambiguous P v enc` says that
on values satisfying `P` the stream determines the view `v` of the value and the rest of the stream.
The view is the identity for an injective encoding; an encoding that drops a part of the value is
unambiguous for the view without that part.

* `seq`, `comap`, `option`, `list`, `counted` — the combinators of length-prefixed formats;
* `beBytes` — big-endian numbers of a fixed width, and their decoder `ofBeBytes`.
-/

namespace Codec

variable {α β γ δ ε : Type}

/-- On `P`, a stream that starts with an encoded value determines the value's view and the rest. -/
def Unambiguous (P : α → Prop) (v : α → γ) (enc : α → List β) : Prop :=
  ∀ a b r r', P a → P b → enc a ++ r = enc b ++ r' → v a = v b ∧ r = r'

namespace Unambiguous

variable {P Q : α → Prop} {v : α → γ} {w : α → δ} {enc enc' : α → List β}

lemma seq (h : Unambiguous P v enc) (h' : Unambiguous P w enc') :
    Unambiguous P (fun a => (v a, w a)) (fun a => enc a ++ enc' a) := by
  intro a b r r' ha hb heq
  simp only [List.append_assoc] at heq
  obtain ⟨hv, hrest⟩ := h a b _ _ ha hb heq
  obtain ⟨hw, hr⟩ := h' a b _ _ ha hb hrest
  exact ⟨Prod.ext hv hw, hr⟩

lemma comap (f : ε → α) (h : Unambiguous P v enc) :
    Unambiguous (fun x => P (f x)) (fun x => v (f x)) (fun x => enc (f x)) :=
  fun a b r r' ha hb heq => h (f a) (f b) r r' ha hb heq

lemma mono (h : Unambiguous P v enc) (hPQ : ∀ a, Q a → P a) : Unambiguous Q v enc :=
  fun a b r r' ha hb heq => h a b r r' (hPQ a ha) (hPQ b hb) heq

lemma view (h : Unambiguous P v enc) (hvw : ∀ a b, P a → P b → v a = v b → w a = w b) :
    Unambiguous P w enc := by
  intro a b r r' ha hb heq
  obtain ⟨hv, hr⟩ := h a b r r' ha hb heq
  exact ⟨hvw a b ha hb hv, hr⟩

/-- A code whose words all have one length is unambiguous as soon as it is injective. -/
lemma of_length {n : ℕ} (hlen : ∀ a, (enc a).length = n)
    (hinj : ∀ a b, P a → P b → enc a = enc b → v a = v b) : Unambiguous P v enc := by
  intro a b r r' ha hb heq
  obtain ⟨he, hr⟩ := List.append_inj heq ((hlen a).trans (hlen b).symm)
  exact ⟨hinj a b ha hb he, hr⟩

/-- An optional value behind a byte that says whether it is there. -/
lemma option {yes no : β} (hne : yes ≠ no) (h : Unambiguous P v enc) :
    Unambiguous (fun o : Option α => ∀ a, o = some a → P a) (Option.map v)
      (fun o => o.elim [no] fun a => yes :: enc a) := by
  intro o o' r r' ho ho' heq
  rcases o with _ | a <;> rcases o' with _ | b
  · exact ⟨rfl, (List.cons.inj heq).2⟩
  · exact absurd (List.cons.inj heq).1.symm hne
  · exact absurd (List.cons.inj heq).1 hne
  · obtain ⟨hv, hr⟩ := h a b r r' (ho a rfl) (ho' b rfl) (List.cons.inj heq).2
    exact ⟨congrArg some hv, hr⟩

lemma list (h : Unambiguous P v enc) : ∀ (l l' : List α) (r r' : List β), l.length = l'.length →
    (∀ a ∈ l, P a) → (∀ a ∈ l', P a) → l.flatMap enc ++ r = l'.flatMap enc ++ r' →
      l.map v = l'.map v ∧ r = r' := by
  intro l
  induction l with
  | nil =>
    intro l' r r' hlen _ _ heq
    obtain rfl : l' = [] := List.length_eq_zero_iff.1 hlen.symm
    exact ⟨rfl, by simpa using heq⟩
  | cons a l ih =>
    intro l' r r' hlen hl hl' heq
    obtain ⟨b, l', rfl⟩ := List.exists_cons_of_length_pos (by
      rw [← hlen]; exact Nat.succ_pos _)
    simp only [List.flatMap_cons, List.append_assoc] at heq
    obtain ⟨hv, hrest⟩ := h a b _ _ (hl a (List.mem_cons_self ..)) (hl' b (List.mem_cons_self ..)) heq
    obtain ⟨hm, hr⟩ := ih l' r r' (by simpa using hlen)
      (fun x hx => hl x (List.mem_cons_of_mem _ hx)) (fun x hx => hl' x (List.mem_cons_of_mem _ hx))
      hrest
    exact ⟨by simp only [List.map_cons, hv, hm], hr⟩

lemma counted {N : ℕ} {count : ℕ → List β} (hc : Unambiguous (· < N) id count)
    (h : Unambiguous P v enc) :
    Unambiguous (fun l : List α => l.length < N ∧ ∀ a ∈ l, P a) (List.map v)
      (fun l => count l.length ++ l.flatMap enc) := by
  intro l l' r r' hl hl' heq
  simp only [List.append_assoc] at heq
  obtain ⟨hlen, hrest⟩ := hc l.length l'.length _ _ hl.1 hl'.1 heq
  exact list h l l' r r' hlen hl.2 hl'.2 hrest

lemma eq_of_eq (h : Unambiguous P v enc) {a b : α} (ha : P a) (hb : P b) (heq : enc a = enc b) :
    v a = v b :=
  (h a b [] [] ha hb (by rw [heq])).1

end Unambiguous

/-! ### Big-endian numbers -/

/-- The `n` low bytes of `x`, the most significant one first. -/
def beBytes : ℕ → ℕ → List UInt8
  | 0, _ => []
  | n + 1, x => UInt8.ofNat (x / 256 ^ n) :: beBytes n x

/-- The number a big-endian byte string stands for. -/
def ofBeBytes (l : List UInt8) : ℕ := l.foldl (fun x b => x * 256 + b.toNat) 0

@[simp] lemma length_beBytes (n x : ℕ) : (beBytes n x).length = n := by
  induction n with
  | zero => rfl
  | succ n ih => simp [beBytes, ih]

lemma foldl_beBytes (n x acc : ℕ) :
    (beBytes n x).foldl (fun x b => x * 256 + b.toNat) acc = acc * 256 ^ n + x % 256 ^ n := by
  induction n generalizing acc with
  | zero => simp [beBytes, Nat.mod_one]
  | succ n ih =>
    have hmod : x % 256 ^ (n + 1) = x % 256 ^ n + 256 ^ n * (x / 256 ^ n % 256) := by
      rw [pow_succ, Nat.mod_mul]
    have htop : (UInt8.ofNat (x / 256 ^ n)).toNat = x / 256 ^ n % 256 := by
      rw [UInt8.toNat_ofNat']
    rw [beBytes, List.foldl_cons, ih, htop, hmod]
    ring

lemma ofBeBytes_beBytes (n x : ℕ) : ofBeBytes (beBytes n x) = x % 256 ^ n := by
  rw [ofBeBytes, foldl_beBytes, Nat.zero_mul, Nat.zero_add]

lemma foldl_ofBeBytes (l : List UInt8) (acc : ℕ) :
    l.foldl (fun x b => x * 256 + b.toNat) acc = acc * 256 ^ l.length + ofBeBytes l := by
  induction l generalizing acc with
  | nil => simp [ofBeBytes]
  | cons b l ih =>
    have htail : ofBeBytes (b :: l) = b.toNat * 256 ^ l.length + ofBeBytes l := by
      rw [ofBeBytes, List.foldl_cons, ih]
      simp
    rw [List.foldl_cons, ih, htail, List.length_cons]
    ring

lemma ofBeBytes_lt (l : List UInt8) : ofBeBytes l < 256 ^ l.length := by
  induction l with
  | nil => simp [ofBeBytes]
  | cons b l ih =>
    have hb : b.toNat < 256 := b.toNat_lt
    have hbound : (b.toNat + 1) * 256 ^ l.length ≤ 256 * 256 ^ l.length :=
      Nat.mul_le_mul_right _ hb
    have hcons : ofBeBytes (b :: l) = b.toNat * 256 ^ l.length + ofBeBytes l := by
      rw [ofBeBytes, List.foldl_cons, foldl_ofBeBytes]
      simp
    rw [hcons, List.length_cons, pow_succ]
    rw [Nat.add_mul] at hbound
    omega

lemma beBytes_foldl (l : List UInt8) (acc : ℕ) :
    beBytes l.length (l.foldl (fun x b => x * 256 + b.toNat) acc) = l := by
  induction l generalizing acc with
  | nil => rfl
  | cons b l ih =>
    have hhead : (l.foldl (fun x b => x * 256 + b.toNat) (acc * 256 + b.toNat)) / 256 ^ l.length =
        acc * 256 + b.toNat := by
      rw [foldl_ofBeBytes, Nat.mul_comm, Nat.mul_add_div (Nat.pow_pos (by omega)),
        Nat.div_eq_of_lt (ofBeBytes_lt l), Nat.add_zero]
    have hbyte : UInt8.ofNat (acc * 256 + b.toNat) = b := by
      apply UInt8.toNat_inj.1
      rw [UInt8.toNat_ofNat']
      have hb : b.toNat < 256 := b.toNat_lt
      omega
    rw [List.foldl_cons, List.length_cons, beBytes, hhead, hbyte, ih]

/-- The decoder is undone by the encoder. -/
lemma beBytes_ofBeBytes {n : ℕ} {l : List UInt8} (h : l.length = n) : beBytes n (ofBeBytes l) = l := by
  subst h
  exact beBytes_foldl l 0

lemma beBytes_inj {n x y : ℕ} (hx : x < 256 ^ n) (hy : y < 256 ^ n)
    (h : beBytes n x = beBytes n y) : x = y := by
  have := congrArg ofBeBytes h
  rwa [ofBeBytes_beBytes, ofBeBytes_beBytes, Nat.mod_eq_of_lt hx, Nat.mod_eq_of_lt hy] at this

lemma unambiguous_beBytes (n : ℕ) : Unambiguous (· < 256 ^ n) id (beBytes n) :=
  Unambiguous.of_length (length_beBytes n) fun _ _ hx hy h => beBytes_inj hx hy h

end Codec
