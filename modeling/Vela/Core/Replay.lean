import Vela.Lib.Words
import Mathlib.Data.List.Basic

/-!
# The replay window

`ReplayWindow` of `vela-core`: the highest sequence number accepted so far and sixteen 64-bit words,
in which bit `d` stands for the number `d` below the highest one.

* `replay_window_exact` — over every sequence of numbers, `accept` decides the set-based rule
  `Admits`.
-/

namespace Vela.Core

abbrev replayWindowSize : ℕ := 1024
abbrev replayWords : ℕ := 16

structure ReplayWindow where
  highest : Option UInt64
  bits : Vector (BitVec 64) replayWords
  deriving DecidableEq

namespace ReplayWindow

/-- `ReplayWindow::default()`. -/
def fresh : ReplayWindow where
  highest := none
  bits := Vector.replicate replayWords 0

/-- One iteration of the loop of `shift_left`: it writes word `index` only, and reads `old`. -/
def shiftWord (old : Vector (BitVec 64) replayWords) (wordShift bitShift : ℕ)
    (bits : Vector (BitVec 64) replayWords) (index : ℕ) : Vector (BitVec 64) replayWords :=
  let bits := bits.setIfInBounds index (bits.getD index 0 ||| (old.getD (index - wordShift) 0 <<< bitShift))
  if bitShift ≠ 0 ∧ wordShift < index then
    bits.setIfInBounds index
      (bits.getD index 0 ||| (old.getD (index - wordShift - 1) 0 >>> (64 - bitShift)))
  else bits

/-- The indices `(word_shift..REPLAY_WORDS).rev()`. -/
def shiftIndices (wordShift : ℕ) : List ℕ := (List.range' wordShift (replayWords - wordShift)).reverse

def shiftLeft (win : ReplayWindow) (shift : UInt64) : ReplayWindow :=
  if replayWindowSize ≤ shift.toNat then { win with bits := Vector.replicate replayWords 0 }
  else
    let wordShift := shift.toNat / 64
    let bitShift := shift.toNat % 64
    { win with
      bits := (shiftIndices wordShift).foldl (shiftWord win.bits wordShift bitShift)
        (Vector.replicate replayWords 0) }

def accept (win : ReplayWindow) (sequence : UInt64) : Bool × ReplayWindow :=
  match win.highest with
  | none => (true, { highest := some sequence, bits := win.bits.setIfInBounds 0 1 })
  | some highest =>
    if highest < sequence then
      let shifted := win.shiftLeft (sequence - highest)
      (true, { highest := some sequence,
               bits := shifted.bits.setIfInBounds 0 (shifted.bits.getD 0 0 ||| 1) })
    else
      let distance := (highest - sequence).toNat
      if replayWindowSize ≤ distance then (false, win)
      else
        let word := distance / 64
        let bit := distance % 64
        if win.bits.getD word 0 &&& ((1 : BitVec 64) <<< bit) ≠ 0 then (false, win)
        else
          (true, { win with
            bits := win.bits.setIfInBounds word (win.bits.getD word 0 ||| ((1 : BitVec 64) <<< bit)) })

/-! ### The shift -/

lemma getD_shiftWord (old bits : Vector (BitVec 64) replayWords) (q r index j : ℕ)
    (hindex : index < replayWords) (hj : j < replayWords) :
    (shiftWord old q r bits index).getD j 0 =
      if j = index then
        bits.getD j 0 ||| ((old.getD (j - q) 0 <<< r) |||
          (if r ≠ 0 ∧ q < j then old.getD (j - q - 1) 0 >>> (64 - r) else 0))
      else bits.getD j 0 := by
  unfold shiftWord
  by_cases hji : j = index
  · subst hji
    by_cases hc : r ≠ 0 ∧ q < j
    · simp [hc, Vector.getD, hj, BitVec.or_assoc]
    · simp [hc, Vector.getD, hj]
  · have hij : index ≠ j := fun h => hji h.symm
    by_cases hc : r ≠ 0 ∧ q < index
    · simp [hc, Vector.getD, hj, hji, hij]
    · simp [hc, Vector.getD, hj, hji, hij]

/-- The loop as a whole: every index is visited once, so each visited word gets its own formula. -/
lemma getD_foldl_shiftWord (old : Vector (BitVec 64) replayWords) (q r : ℕ) :
    ∀ (l : List ℕ) (bits : Vector (BitVec 64) replayWords), l.Nodup → (∀ i ∈ l, i < replayWords) →
      ∀ j, j < replayWords → (l.foldl (shiftWord old q r) bits).getD j 0 =
        if j ∈ l then
          bits.getD j 0 ||| ((old.getD (j - q) 0 <<< r) |||
            (if r ≠ 0 ∧ q < j then old.getD (j - q - 1) 0 >>> (64 - r) else 0))
        else bits.getD j 0 := by
  intro l
  induction l with
  | nil => intro bits _ _ j _; simp
  | cons i l ih =>
    intro bits hnd hlt j hj
    obtain ⟨hi, hnd'⟩ := List.nodup_cons.1 hnd
    rw [List.foldl_cons, ih _ hnd' (fun k hk => hlt k (.tail _ hk)) j hj,
      getD_shiftWord old bits q r i j (hlt i (.head _)) hj]
    by_cases hji : j = i
    · subst hji
      simp [hi]
    · simp [hji]

lemma mem_shiftIndices {q j : ℕ} (hq : q ≤ replayWords) :
    j ∈ shiftIndices q ↔ q ≤ j ∧ j < replayWords := by
  simp only [shiftIndices, List.mem_reverse, List.mem_range'_1]
  omega

lemma shifted_shiftLeft (win : ReplayWindow) (shift : UInt64) (h : shift.toNat < replayWindowSize) :
    Words.Shifted win.bits (win.shiftLeft shift).bits (shift.toNat / 64) (shift.toNat % 64) := by
  intro j hj
  have hq : shift.toNat / 64 ≤ replayWords := by
    simp only [replayWindowSize, replayWords] at *
    omega
  have hlt : ∀ i ∈ shiftIndices (shift.toNat / 64), i < replayWords :=
    fun i hi => ((mem_shiftIndices hq).1 hi).2
  have hnd : (shiftIndices (shift.toNat / 64)).Nodup :=
    List.pairwise_reverse.2 ((List.nodup_range' ..).imp fun h => h.symm)
  rw [shiftLeft, if_neg (by omega)]
  simp only
  rw [getD_foldl_shiftWord win.bits _ _ _ _ hnd hlt j hj]
  have hz : (Vector.replicate replayWords (0 : BitVec 64)).getD j 0 = 0 := by
    simp [Vector.getD, hj]
  rw [hz]
  by_cases hle : shift.toNat / 64 ≤ j
  · rw [if_pos ((mem_shiftIndices hq).2 ⟨hle, hj⟩), if_pos hle]
    exact BitVec.zero_or
  · rw [if_neg (fun hm => hle ((mem_shiftIndices hq).1 hm).1), if_neg hle]

lemma bit_shiftLeft (win : ReplayWindow) (shift : UInt64) (i : ℕ) :
    Words.bit (win.shiftLeft shift).bits i =
      (decide (shift.toNat ≤ i ∧ i < replayWindowSize) && Words.bit win.bits (i - shift.toNat)) := by
  by_cases h : replayWindowSize ≤ shift.toNat
  · rw [shiftLeft, if_pos h, Words.bit_zero]
    have : ¬ (shift.toNat ≤ i ∧ i < replayWindowSize) := by omega
    simp [this]
  · have hsplit : shift.toNat / 64 * 64 + shift.toNat % 64 = shift.toNat := by omega
    rw [Words.bit_shifted (Nat.mod_lt _ (by decide)) (shifted_shiftLeft win shift (by omega)) i,
      hsplit]
    rfl

end ReplayWindow

/-! ### The set-based rule -/

/-- `h` is the highest of the accepted numbers. -/
def Highest (accepted : List UInt64) (h : UInt64) : Prop := h ∈ accepted ∧ ∀ a ∈ accepted, a ≤ h

/-- The rule of a window of 1024 numbers, over the set of numbers accepted so far. -/
def Admits (accepted : List UInt64) (s : UInt64) : Prop :=
  s ∉ accepted ∧
    (accepted = [] ∨ ∃ h, Highest accepted h ∧ (h < s ∨ h.toNat - s.toNat < replayWindowSize))

/-- The window after exactly the numbers of `accepted` were accepted. -/
structure Tracks (accepted : List UInt64) (win : ReplayWindow) : Prop where
  empty : win.highest = none → accepted = [] ∧ ∀ i, Words.bit win.bits i = false
  highest : ∀ h, win.highest = some h → Highest accepted h
  bits : ∀ h, win.highest = some h → ∀ i, i < replayWindowSize →
    (Words.bit win.bits i = true ↔ ∃ a ∈ accepted, a.toNat + i = h.toNat)

lemma tracks_fresh : Tracks [] ReplayWindow.fresh where
  empty _ := ⟨rfl, fun i => Words.bit_zero i⟩
  highest h hh := by simp [ReplayWindow.fresh] at hh
  bits h hh := by simp [ReplayWindow.fresh] at hh

lemma Highest.unique {accepted : List UInt64} {h h' : UInt64} (hh : Highest accepted h)
    (hh' : Highest accepted h') : h = h' :=
  UInt64.le_antisymm (hh'.2 _ hh.1) (hh.2 _ hh'.1)

namespace Tracks

variable {accepted : List UInt64} {win : ReplayWindow} {s h : UInt64}

lemma bit_zero_set (ws : Vector (BitVec 64) replayWords) (i : ℕ) :
    Words.bit (ws.setIfInBounds 0 (ws.getD 0 0 ||| 1)) i = (decide (i = 0) || Words.bit ws i) :=
  Words.bit_or_set ws (by decide) (i := 0) (by decide) i

lemma accept_first (ht : Tracks accepted win) (hw : win.highest = none) :
    Tracks [s] { highest := some s, bits := win.bits.setIfInBounds 0 1 } := by
  obtain ⟨rfl, hz⟩ := ht.empty hw
  have hword : win.bits.getD 0 0 = 0 := by
    apply BitVec.eq_of_getLsbD_eq
    intro j hj
    have := hz j
    rw [Words.bit, Nat.div_eq_of_lt hj, Nat.mod_eq_of_lt hj] at this
    simpa using this
  have hset : win.bits.setIfInBounds 0 1 = win.bits.setIfInBounds 0 (win.bits.getD 0 0 ||| 1) := by
    rw [hword]
    rfl
  refine ⟨by simp, ?_, ?_⟩
  · intro h hh
    simp only [Option.some.injEq] at hh
    subst hh
    exact ⟨List.mem_singleton_self _, fun a ha => List.mem_singleton.1 ha ▸ UInt64.le_refl _⟩
  · intro h hh i _
    simp only [Option.some.injEq] at hh
    subst hh
    rw [hset, bit_zero_set, hz i]
    simp

/-- A number above the highest one: the window moves up by the gap, however large it is. -/
lemma accept_above (ht : Tracks accepted win) (hw : win.highest = some h) (hlt : h < s) :
    Tracks (s :: accepted)
      { highest := some s,
        bits := (win.shiftLeft (s - h)).bits.setIfInBounds 0
          ((win.shiftLeft (s - h)).bits.getD 0 0 ||| 1) } := by
  have hhigh := ht.highest h hw
  have hgap : (s - h).toNat = s.toNat - h.toNat := UInt64.toNat_sub_of_le _ _ (UInt64.le_of_lt hlt)
  have hlt' : h.toNat < s.toNat := hlt
  refine ⟨by simp, ?_, ?_⟩
  · intro h' hh'
    simp only [Option.some.injEq] at hh'
    subst hh'
    refine ⟨.head _, fun a ha => ?_⟩
    rcases List.mem_cons.1 ha with rfl | ha
    · exact UInt64.le_refl _
    · exact UInt64.le_of_lt (UInt64.lt_of_le_of_lt (hhigh.2 a ha) hlt)
  · intro h' hh' i hi
    simp only [Option.some.injEq] at hh'
    subst hh'
    rw [bit_zero_set, ReplayWindow.bit_shiftLeft, hgap]
    by_cases hi0 : i = 0
    · subst hi0
      simp
    · simp only [hi0, decide_false, Bool.false_or, Bool.and_eq_true, decide_eq_true_eq]
      constructor
      · rintro ⟨⟨hle, -⟩, hb⟩
        obtain ⟨a, ha, hai⟩ := (ht.bits h hw _ (by omega)).1 hb
        exact ⟨a, .tail _ ha, by omega⟩
      · rintro ⟨a, ha, hai⟩
        rcases List.mem_cons.1 ha with rfl | ha
        · omega
        · have hah : a.toNat ≤ h.toNat := hhigh.2 a ha
          exact ⟨⟨by omega, hi⟩, (ht.bits h hw _ (by omega)).2 ⟨a, ha, by omega⟩⟩

lemma accept_inside (ht : Tracks accepted win) (hw : win.highest = some h) (hle : s ≤ h)
    (hd : h.toNat - s.toNat < replayWindowSize) :
    Tracks (s :: accepted) { win with
      bits := win.bits.setIfInBounds ((h.toNat - s.toNat) / 64)
        (win.bits.getD ((h.toNat - s.toNat) / 64) 0 |||
          ((1 : BitVec 64) <<< ((h.toNat - s.toNat) % 64))) } := by
  have hhigh := ht.highest h hw
  have hle' : s.toNat ≤ h.toNat := hle
  refine ⟨by simp [hw], ?_, ?_⟩
  · intro h' hh'
    have : h = h' := by simpa [hw] using hh'
    subst this
    refine ⟨.tail _ hhigh.1, fun a ha => ?_⟩
    rcases List.mem_cons.1 ha with rfl | ha
    · exact hle
    · exact hhigh.2 a ha
  · intro h' hh' i hi
    have : h = h' := by simpa [hw] using hh'
    subst this
    rw [Words.bit_or_set win.bits (by decide) hd i]
    simp only [Bool.or_eq_true, decide_eq_true_eq, List.mem_cons, exists_eq_or_imp]
    rw [ht.bits h hw i hi]
    constructor
    · rintro (rfl | hex)
      · left; omega
      · right; exact hex
    · rintro (hsi | hex)
      · left; omega
      · right; exact hex

lemma mask_iff_mem (ht : Tracks accepted win) (hw : win.highest = some h) (hle : s ≤ h)
    (hd : h.toNat - s.toNat < replayWindowSize) :
    win.bits.getD ((h.toNat - s.toNat) / 64) 0 &&&
      ((1 : BitVec 64) <<< ((h.toNat - s.toNat) % 64)) ≠ 0 ↔ s ∈ accepted := by
  have hle' : s.toNat ≤ h.toNat := hle
  rw [Words.and_mask_ne_zero_iff _ (Nat.mod_lt _ (by decide))]
  change Words.bit win.bits (h.toNat - s.toNat) = true ↔ _
  rw [ht.bits h hw _ hd]
  constructor
  · rintro ⟨a, ha, hai⟩
    have : a = s := UInt64.toNat_inj.1 (by omega)
    exact this ▸ ha
  · intro hs
    exact ⟨s, hs, by omega⟩

end Tracks

/-! ### One call of `accept` -/

variable {accepted : List UInt64} {win : ReplayWindow} {s : UInt64}

lemma accept_iff_admits (ht : Tracks accepted win) : (win.accept s).1 = true ↔ Admits accepted s := by
  unfold ReplayWindow.accept Admits
  cases hw : win.highest with
  | none =>
    obtain ⟨rfl, -⟩ := ht.empty hw
    simp
  | some h =>
    have hhigh := ht.highest h hw
    have hne : accepted ≠ [] := List.ne_nil_of_mem hhigh.1
    by_cases hlt : h < s
    · -- above every accepted number
      have hns : s ∉ accepted := fun hs => absurd (hhigh.2 s hs) (UInt64.not_le.2 hlt)
      simp only [hlt, if_true, hns, not_false_eq_true, true_and, true_iff]
      exact .inr ⟨h, hhigh, .inl hlt⟩
    · have hle : s ≤ h := UInt64.not_lt.1 hlt
      have hgap : (h - s).toNat = h.toNat - s.toNat := UInt64.toNat_sub_of_le _ _ hle
      simp only [hlt, if_false, hgap]
      by_cases hd : replayWindowSize ≤ h.toNat - s.toNat
      · simp only [hd, if_true, Bool.false_eq_true, false_iff, not_and, not_or, not_exists]
        intro _
        refine ⟨hne, fun h' hh' => ?_⟩
        obtain rfl := hhigh.unique hh'
        exact ⟨hlt, by omega⟩
      · have hd' : h.toNat - s.toNat < replayWindowSize := by omega
        have hmask := ht.mask_iff_mem hw hle hd'
        simp only [hd, if_false]
        by_cases hs : s ∈ accepted
        · rw [if_pos (hmask.2 hs)]
          simp [hs]
        · rw [if_neg (fun hm => hs (hmask.1 hm))]
          simp only [hs, not_false_eq_true, true_and, true_iff]
          exact .inr ⟨h, hhigh, .inr hd'⟩

lemma tracks_accept (ht : Tracks accepted win) (ha : (win.accept s).1 = true) :
    Tracks (s :: accepted) (win.accept s).2 := by
  revert ha
  unfold ReplayWindow.accept
  cases hw : win.highest with
  | none =>
    intro _
    obtain ⟨rfl, -⟩ := ht.empty hw
    exact ht.accept_first hw
  | some h =>
    by_cases hlt : h < s
    · intro _
      simp only [hlt, if_true]
      exact ht.accept_above hw hlt
    · have hle : s ≤ h := UInt64.not_lt.1 hlt
      have hgap : (h - s).toNat = h.toNat - s.toNat := UInt64.toNat_sub_of_le _ _ hle
      simp only [hlt, if_false, hgap]
      by_cases hd : replayWindowSize ≤ h.toNat - s.toNat
      · simp [hd]
      · simp only [hd, if_false]
        split
        · intro ha; simp at ha
        · intro _
          simpa only [hw] using ht.accept_inside hw hle (by omega)

lemma accept_refuse (ha : (win.accept s).1 = false) : (win.accept s).2 = win := by
  revert ha
  unfold ReplayWindow.accept
  cases win.highest with
  | none => intro ha; simp at ha
  | some h =>
    simp only
    split
    · intro ha; simp at ha
    · split
      · intro _; rfl
      · split
        · intro _; rfl
        · intro ha; simp at ha

/-! ### A whole sequence -/

/-- The window after a fresh one was fed `xs`. -/
def windowAfter (xs : List UInt64) : ReplayWindow :=
  xs.foldl (fun win s => (win.accept s).2) ReplayWindow.fresh

/-- The numbers of `xs` that `win` accepts when it is fed `xs` in order, the latest first. -/
def acceptedFrom (win : ReplayWindow) (accepted : List UInt64) : List UInt64 → List UInt64
  | [] => accepted
  | s :: xs =>
    acceptedFrom (win.accept s).2 (if (win.accept s).1 then s :: accepted else accepted) xs

/-- The numbers of `xs` that a fresh window accepts. -/
def acceptedAmong (xs : List UInt64) : List UInt64 := acceptedFrom ReplayWindow.fresh [] xs

lemma tracks_feed : ∀ (xs : List UInt64) (accepted : List UInt64) (win : ReplayWindow),
    Tracks accepted win → accepted.Nodup →
      Tracks (acceptedFrom win accepted xs) (xs.foldl (fun win s => (win.accept s).2) win) ∧
        (acceptedFrom win accepted xs).Nodup := by
  intro xs
  induction xs with
  | nil => intro accepted win ht hnd; exact ⟨ht, hnd⟩
  | cons s xs ih =>
    intro accepted win ht hnd
    rw [List.foldl_cons, acceptedFrom]
    by_cases ha : (win.accept s).1 = true
    · rw [if_pos ha]
      have hs : s ∉ accepted := ((accept_iff_admits ht).1 ha).1
      exact ih _ _ (tracks_accept ht ha) (List.nodup_cons.2 ⟨hs, hnd⟩)
    · rw [if_neg ha, accept_refuse (Bool.eq_false_iff.2 ha)]
      exact ih _ _ ht hnd

/-- **The replay window is exact.**  After any sequence `xs` of 64-bit numbers, the next number is
accepted iff the rule over the numbers accepted so far admits it; and nothing is accepted twice. -/
theorem replay_window_exact (xs : List UInt64) :
    (∀ s : UInt64, ((windowAfter xs).accept s).1 = true ↔
      s ∉ acceptedAmong xs ∧
        (acceptedAmong xs = [] ∨ ∃ h, Highest (acceptedAmong xs) h ∧
          (h < s ∨ h.toNat - s.toNat < 1024))) ∧
      (acceptedAmong xs).Nodup := by
  obtain ⟨ht, hnd⟩ := tracks_feed xs [] ReplayWindow.fresh tracks_fresh List.nodup_nil
  exact ⟨fun s => accept_iff_admits ht, hnd⟩

/-- A jump to the largest number, then back: the window has moved past everything below. -/
example : acceptedAmong [100, 98, 101, 98, 18446744073709551615, 101] =
    [18446744073709551615, 101, 98, 100] := by decide +kernel

end Vela.Core
