import Vela.Coord.Presence

/-!
# What a removed peer is told

Revocation and deletion take the row of a node and its entry in `online` out; the connection of the
node stays open, and its task keeps the node it is registered as.

* `removed_told_nothing` — what is told to the connection was asked for before the removal, as long
  as its client asks for neither the snapshot nor the list of peers and the node stays out;
* `removed_still_told` — a removed peer that asks for the snapshot gets it.
-/

namespace Vela.Coord

open Vela.Proto Vela.Crypto Prog Standing Function

/-! ### The history of a connection -/

structure Tale where
  /-- the node that the connection was last entered under -/
  registered : Option NodeId
  /-- the node was taken out since -/
  cut : Bool
  /-- a `Register` has entered the connection and is not answered yet -/
  entered : Bool
  /-- the message or the broadcast in the hands of a task was taken up after the removal -/
  late : ℕ → Bool

namespace Tale

def start : Tale where
  registered := none
  cut := false
  entered := false
  late _ := false

/-- A task takes up a message or a broadcast. -/
def take (h : Tale) (u : ℕ) : Tale := { h with late := update h.late u h.cut }

def observe (k : UInt64) (h : Tale) (u : ℕ) (_ : Standing) (_ : CoordState) :
    (c : Section) → Response c → CoordState → Tale
  | .recv _ _, _, _ => h.take u
  | .onlineSenders, _, _ => h.take u
  | .onlineInsert nodeId connection, _, _ =>
    if connection = k then { h with registered := some nodeId, entered := true } else h
  | .send connection (.registerOk _ _ _), true, _ =>
    -- the answer of a `Register` that entered the connection after the removal
    if connection = k ∧ h.entered = true then
      { h with cut := false, entered := false, late := fun _ => false }
    else h
  | .onlineRemove nodeId, _, _ =>
    if h.registered = some nodeId then { h with cut := true, entered := false } else h
  | _, _, _ => h

/-- What can become of the history with a section of the task `u`. -/
inductive Step (k : UInt64) (h : Tale) (u : ℕ) : Section → Tale → Prop
  | same (c : Section) (hrecv : ∀ connection message, c ≠ .recv connection message)
      (hsenders : c ≠ .onlineSenders) (hinsert : ∀ nodeId, c ≠ .onlineInsert nodeId k) :
      Step k h u c h
  | received (connection : UInt64) (message : ControlMessage) :
      Step k h u (.recv connection message) (h.take u)
  | broadcast : Step k h u .onlineSenders (h.take u)
  | inserted (nodeId : NodeId) :
      Step k h u (.onlineInsert nodeId k) { h with registered := some nodeId, entered := true }
  | answered (c : Section) (hc : c.part = .sent) :
      Step k h u c { h with cut := false, entered := false, late := fun _ => false }
  | removed (nodeId : NodeId) (hreg : h.registered = some nodeId) :
      Step k h u (.onlineRemove nodeId) { h with cut := true, entered := false }

lemma step_observe (k : UInt64) (h : Tale) (u : ℕ) (γ : Standing) (s s' : CoordState) (c : Section)
    (r : Response c) : h.Step k u c (observe k h u γ s c r s') := by
  cases c with
  | recv connection message => exact .received connection message
  | onlineSenders => exact .broadcast
  | onlineInsert nodeId connection =>
    simp only [observe]
    split
    · rename_i hk
      subst hk
      exact .inserted nodeId
    · rename_i hk
      refine .same _ nofun nofun ?_
      rintro m ⟨⟩
      exact hk rfl
  | send connection message =>
    have hsame : h.Step k u (.send connection message) h := .same _ nofun nofun nofun
    cases r with
    | false => cases message <;> exact hsame
    | true =>
      cases message with
      | registerOk credential peers snapshot =>
        simp only [observe]
        split
        · exact .answered _ rfl
        · exact hsame
      | _ => exact hsame
  | onlineRemove nodeId =>
    simp only [observe]
    split
    · rename_i hreg
      exact .removed nodeId hreg
    · exact .same _ nofun nofun nofun
  | _ => exact .same _ nofun nofun nofun

end Tale

/-- The message tells its receiver about other peers, and is no answer to a `Register`. -/
def Discloses : ControlMessage → Prop
  | .snapshot _ | .snapshotResponse _ | .peerInfo _ | .listPeersOk _ => True
  | _ => False

/-- The section tells the connection about other peers. -/
def Tells (k : UInt64) : Section → Prop
  | .send connection message => connection = k ∧ Discloses message
  | .push connection _ => connection = k
  | _ => False

/-! ### The condition on the runs -/

/-- What is asked of a section of the task `u`, where the task `t` serves the connection `k`. -/
structure Discreet (k : UInt64) (t : ℕ) (h : Tale) (s : CoordState) (u : ℕ) (c : Section) : Prop where
  /-- the connection registers as one node only -/
  oneNode : ∀ m, c = .onlineInsert m k → h.registered = none ∨ h.registered = some m
  /-- after the removal, its client asks for neither the snapshot nor the list -/
  asks : ∀ message, c = .recv k message → h.cut = true →
    message ≠ .requestSnapshot ∧ message ≠ .listPeers
  /-- the node stays out as long as the connection asks about it -/
  out : ∀ m, u = t → c = .loadPeer m → h.cut = true → h.registered = some m → s.liveRow m = none
  /-- no broadcast begins while a later `Register` has entered the connection and is not answered -/
  begins : c = .onlineSenders → h.cut = true → h.entered = false

/-- Runs in which the connection `k` is served by the task `t`, and the condition is met. -/
def DiscreetVisit (k : UInt64) (t : ℕ) (x : VisitedCfg × Tale) (m : Pool.Move Env Request) : Prop :=
  ServedBy k t x.1 m ∧ ∀ u e c, m = .step u e → x.1.at u = some c →
    Discreet k t x.2 x.1.shared u c

/-! ### The invariant -/

structure Hushed (k : UInt64) (t : ℕ) (s : CoordState) (φ : ℕ → Standing) (h : Tale) : Prop where
  listed : ∀ m, s.Listed k m → h.registered = some m ∧ (h.cut = true → h.entered = true)
  known : h.cut = true → h.registered ≠ none
  late : ∀ u, h.late u = true → h.cut = true
  senders : ∀ u, h.late u = true → k ∉ (φ u).senders
  sockets : ∀ u, (φ u).connection ≠ none → (φ u).senders = []
  named : (φ t).connection = some k → ∀ m, (φ t).registered = some m ∨ (φ t).entering = some m →
    h.registered = some m
  asked : (φ t).connection = some k → h.late t = true →
    (φ t).message ≠ some .requestSnapshot ∧ (φ t).message ≠ some .listPeers
  found : (φ t).connection = some k → h.late t = true → ∀ row ∈ (φ t).found, h.registered ≠ some row.1

section Steps

variable {prim : Primitives} {server : Server} {k : UInt64} {t u : ℕ} {s : CoordState}
  {φ : ℕ → Standing} {h h' : Tale} {e : Env} {c : Section} {γ γ' : Standing}

lemma Tale.Step.late_of_ne (hstep : h.Step k u c h') {v : ℕ} (hv : v ≠ u)
    (hlate : h'.late v = true) : h.late v = true := by
  cases hstep with
  | received | broadcast => simpa [Tale.take, update_of_ne hv] using hlate
  | answered => cases hlate
  | _ => exact hlate

lemma Tale.Step.late_of_other (hstep : h.Step k u c h') (hsenders : c ≠ .onlineSenders)
    (hrecv : ∀ connection message, c ≠ .recv connection message) {v : ℕ}
    (hlate : h'.late v = true) : h.late v = true := by
  cases hstep with
  | received connection message => exact absurd rfl (hrecv connection message)
  | broadcast => exact absurd rfl hsenders
  | answered => cases hlate
  | _ => exact hlate

variable (hs : Hushed k t s φ h)

include hs

lemma Hushed.listed_step (hdiscreet : Discreet k t h s u c) (hstep : h.Step k u c h') :
    ∀ m, (perform prim server e c s).2.Listed k m →
      h'.registered = some m ∧ (h'.cut = true → h'.entered = true) := by
  intro m hm
  cases hstep with
  | same _ _ _ hinsert =>
    rcases listed_perform hm with hm | rfl
    · exact hs.listed m hm
    · exact absurd rfl (hinsert m)
  | received connection message => exact hs.listed m hm
  | broadcast => exact hs.listed m hm
  | inserted nodeId =>
    refine ⟨?_, fun _ => rfl⟩
    rcases listed_perform hm with hm | heq
    · obtain ⟨hreg, -⟩ := hs.listed m hm
      rcases hdiscreet.oneNode nodeId rfl with hnone | hsome
      · rw [hnone] at hreg
        cases hreg
      · exact hsome.symm.trans hreg
    · exact congrArg some (Section.onlineInsert.inj heq).1
  | answered _ hc =>
    rcases listed_perform hm with hm | rfl
    · exact ⟨(hs.listed m hm).1, nofun⟩
    · cases hc
  | removed nodeId hreg =>
    obtain ⟨hm, hne⟩ := listed_onlineRemove hm
    obtain ⟨hreg', -⟩ := hs.listed m hm
    exact absurd (Option.some.inj (hreg'.symm.trans hreg)) hne

lemma Hushed.late_step (hstep : h.Step k u c h') (v : ℕ) (hv : h'.late v = true) :
    h'.cut = true := by
  have htake : (h.take u).late v = true → h.cut = true := by
    intro hlate
    by_cases hvu : v = u
    · subst hvu
      simpa [Tale.take] using hlate
    · exact hs.late v (by simpa [Tale.take, update_of_ne hvu] using hlate)
  cases hstep with
  | same => exact hs.late v hv
  | received | broadcast => exact htake hv
  | inserted => exact hs.late v hv
  | answered => cases hv
  | removed => rfl

lemma Hushed.senders_step (hok : (φ u).Allows c) (hdiscreet : Discreet k t h s u c)
    (hstep : h.Step k u c h') (v : ℕ) (hv : h'.late v = true) :
    k ∉ (update φ u ((φ u).next c (perform prim server e c s).1) v).senders := by
  by_cases hvu : v = u
  · subst hvu
    rw [update_self]
    cases hstep with
    | received connection message =>
      -- the task of a connection sends no broadcasts
      have hnil := hs.sockets v (by rw [show (φ v).connection = some connection from hok]; simp)
      simp [Standing.next, hnil]
    | broadcast =>
      have hcut : h.cut = true := by simpa [Tale.take] using hv
      intro hmem
      obtain ⟨entry, hentry, hk⟩ := List.mem_flatMap.1 hmem
      have hlisted : s.Listed k entry.1 :=
        ⟨entry.2, AList.mem_lookup_iff.2 hentry, hk⟩
      have hentered := (hs.listed entry.1 hlisted).2 hcut
      rw [hdiscreet.begins rfl hcut] at hentered
      cases hentered
    | same _ hrecv hsenders =>
      rw [next_senders hsenders]
      exact hs.senders v hv
    | inserted => exact hs.senders v hv
    | answered => cases hv
    | removed => exact hs.senders v hv
  · rw [update_of_ne hvu]
    exact hs.senders v (hstep.late_of_ne hvu hv)

lemma Hushed.sockets_step (hok : (φ u).Allows c) (v : ℕ)
    (hv : (update φ u ((φ u).next c (perform prim server e c s).1) v).connection ≠ none) :
    (update φ u ((φ u).next c (perform prim server e c s).1) v).senders = [] := by
  by_cases hvu : v = u
  · subst hvu
    rw [update_self] at hv ⊢
    rw [(step_perform e (φ v) c s).connection] at hv
    by_cases hc : c = .onlineSenders
    · subst hc
      exact absurd hok hv
    · rw [next_senders hc]
      exact hs.sockets v hv
  · rw [update_of_ne hvu] at hv ⊢
    exact hs.sockets v hv

omit hs in
lemma Tale.Step.registered_of_other (howner : (φ u).connection = some k → u = t) (hut : u ≠ t)
    (hok : (φ u).Allows c) (hstep : h.Step k u c h') : h'.registered = h.registered := by
  cases hstep with
  | inserted nodeId => exact absurd (howner hok.1) hut
  | _ => rfl

lemma Hushed.named_step (hok : (φ t).Allows c) (hdiscreet : Discreet k t h s t c)
    (hstep : h.Step k t c h') (hk : (φ t).connection = some k) (m : NodeId)
    (hm : ((φ t).next c (perform prim server e c s).1).registered = some m ∨
      ((φ t).next c (perform prim server e c s).1).entering = some m) : h'.registered = some m := by
  have hsame : (∀ nodeId connection, c ≠ .onlineInsert nodeId connection) →
      h'.registered = h.registered := by
    intro hc
    cases hstep with
    | inserted nodeId => exact absurd rfl (hc nodeId k)
    | _ => rfl
  have hown := @step_perform prim server e (φ t) c s
  generalize (φ t).next c (perform prim server e c s).1 = γ at hown hm
  cases hown with
  | same _ _ _ _ hc =>
    rw [hsame hc]
    exact hs.named hk m hm
  | entered nodeId connection =>
    obtain rfl : k = connection := Option.some.inj (hk.symm.trans hok.1)
    have hnew : h'.registered = some nodeId := by
      cases hstep with
      | same _ _ _ hinsert => exact absurd rfl (hinsert nodeId)
      | inserted => rfl
      | answered _ hc => cases hc
    rw [hnew]
    rcases hm with hm | hm
    · have hreg := hs.named hk m (.inl hm)
      rcases hdiscreet.oneNode nodeId rfl with hnone | hsome
      · rw [hnone] at hreg
        cases hreg
      · exact hsome.symm.trans hreg
    · exact hm
  | answered _ nodeId hentering hc =>
    rw [hsame (by rintro _ _ rfl; cases hc)]
    rcases hm with hm | hm
    · exact hs.named hk m (.inr (hentering.trans hm))
    · cases hm
  | failed _ nodeId hentering hc =>
    rw [hsame (by rintro _ _ rfl; simp [Section.part] at hc)]
    unfold giveUp at hm
    rw [hentering] at hm
    rcases hm with hm | hm
    · exact hs.named hk m (.inl hm)
    · cases hm
  | left nodeId connection =>
    rw [hsame (by simp)]
    exact hs.named hk m hm
  | finished nodeId connection =>
    rw [hsame (by simp)]
    rcases hm with hm | hm
    · cases hm
    · exact hs.named hk m (.inr hm)

lemma Hushed.asked_step (hok : (φ t).Allows c) (hdiscreet : Discreet k t h s t c)
    (hstep : h.Step k t c h') (hk : (φ t).connection = some k) (hlate : h'.late t = true) :
    ((φ t).next c (perform prim server e c s).1).message ≠ some .requestSnapshot ∧
      ((φ t).next c (perform prim server e c s).1).message ≠ some .listPeers := by
  by_cases htakes : Takes c
  · cases c with
    | recv connection message =>
      obtain rfl : k = connection := Option.some.inj (hk.symm.trans hok)
      have hcut := hs.late_step hstep t hlate
      cases hstep with
      | same _ hrecv => exact absurd rfl (hrecv k message)
      | received =>
        obtain ⟨hsnapshot, hlist⟩ := hdiscreet.asks message rfl hcut
        exact ⟨fun heq => hsnapshot (Option.some.inj heq), fun heq => hlist (Option.some.inj heq)⟩
      | answered _ hc => cases hc
    | loadPeer nodeId =>
      have hasked := hs.asked hk (hstep.late_of_other nofun nofun hlate)
      generalize (perform prim server e (.loadPeer nodeId) s).1 = r
      rcases r with error | _ | peer <;> exact hasked
    | onlineSenders =>
      rw [show (φ t).connection = none from hok] at hk
      cases hk
    | _ => cases htakes
  · rw [(next_in_hand htakes _).1]
    refine hs.asked hk (hstep.late_of_other ?_ ?_ hlate)
    · rintro rfl
      exact htakes trivial
    · rintro connection message rfl
      exact htakes trivial

lemma Hushed.found_step (hok : (φ t).Allows c) (hdiscreet : Discreet k t h s t c)
    (hstep : h.Step k t c h') (hk : (φ t).connection = some k) (hlate : h'.late t = true) :
    ∀ row ∈ ((φ t).next c (perform prim server e c s).1).found, h'.registered ≠ some row.1 := by
  by_cases htakes : Takes c
  · cases c with
    | recv connection message => exact fun m hm => absurd hm List.not_mem_nil
    | loadPeer nodeId =>
      have hold := hstep.late_of_other nofun nofun hlate
      have hreg : h'.registered = h.registered := by cases hstep <;> rfl
      have hfound := hs.found hk hold
      rw [hreg]
      cases hfault : e.fault with
      | some error =>
        simp only [perform, Env.database, hfault]
        exact hfound
      | none =>
        simp only [perform, Env.database, hfault]
        cases hload : s.loadPeer nodeId with
        | none => exact hfound
        | some peer =>
          intro row hm
          rcases List.mem_cons.1 hm with rfl | hm
          · intro hregistered
            have hout := hdiscreet.out nodeId rfl rfl (hs.late t hold) hregistered
            simp [CoordState.loadPeer, hout] at hload
          · exact hfound row hm
    | onlineSenders =>
      rw [show (φ t).connection = none from hok] at hk
      cases hk
    | _ => cases htakes
  · rw [(next_in_hand htakes _).2.1]
    have hother : h.late t = true := by
      refine hstep.late_of_other ?_ ?_ hlate
      · rintro rfl
        exact htakes trivial
      · rintro connection message rfl
        exact htakes trivial
    have hfound := hs.found hk hother
    cases hstep with
    | inserted nodeId =>
      -- the connection is entered under the node it was registered as
      rcases hdiscreet.oneNode nodeId rfl with hnone | hsome
      · exact absurd hnone (hs.known (hs.late t hother))
      · rwa [hsome] at hfound
    | received connection message => exact absurd trivial htakes
    | broadcast => exact absurd trivial htakes
    | _ => exact hfound

lemma Hushed.known_step (hstep : h.Step k u c h') : h'.cut = true → h'.registered ≠ none := by
  cases hstep with
  | inserted nodeId => exact fun _ => nofun
  | removed nodeId hreg =>
    intro _ hnone
    rw [show h.registered = none from hnone] at hreg
    cases hreg
  | answered => exact nofun
  | _ => exact hs.known

/-- **One section.** -/
theorem Hushed.step (howner : ∀ u, (φ u).connection = some k → u = t) (hok : (φ u).Allows c)
    (hdiscreet : Discreet k t h s u c) (hstep : h.Step k u c h') :
    Hushed k t (perform prim server e c s).2
      (update φ u ((φ u).next c (perform prim server e c s).1)) h' := by
  refine ⟨hs.listed_step hdiscreet hstep, hs.known_step hstep, hs.late_step hstep,
    hs.senders_step hok hdiscreet hstep, hs.sockets_step hok, ?_, ?_, ?_⟩
  · intro hk m hm
    by_cases hut : u = t
    · subst hut
      rw [update_self] at hk hm
      rw [(step_perform e (φ u) c s).connection] at hk
      exact hs.named_step hok hdiscreet hstep hk m hm
    · rw [update_of_ne (Ne.symm hut)] at hk hm
      rw [hstep.registered_of_other (howner u) hut hok]
      exact hs.named hk m hm
  · intro hk hlate
    by_cases hut : u = t
    · subst hut
      rw [update_self] at hk ⊢
      rw [(step_perform e (φ u) c s).connection] at hk
      exact hs.asked_step hok hdiscreet hstep hk hlate
    · rw [update_of_ne (Ne.symm hut)] at hk ⊢
      exact hs.asked hk (hstep.late_of_ne (Ne.symm hut) hlate)
  · intro hk hlate
    by_cases hut : u = t
    · subst hut
      rw [update_self] at hk ⊢
      rw [(step_perform e (φ u) c s).connection] at hk
      exact hs.found_step hok hdiscreet hstep hk hlate
    · rw [update_of_ne (Ne.symm hut)] at hk ⊢
      rw [hstep.registered_of_other (howner u) hut hok]
      exact hs.found hk (hstep.late_of_ne (Ne.symm hut) hlate)

lemma Hushed.spawn (request : Request) (spawned : ℕ) :
    Hushed k t { s with spawned } (update φ u (enter request)) h := by
  have hfresh : (enter request).senders = [] ∧ (enter request).registered = none ∧
      (enter request).entering = none ∧ (enter request).message = none ∧
      (enter request).found = [] := by
    cases request <;> exact ⟨rfl, rfl, rfl, rfl, rfl⟩
  obtain ⟨hsenders, hregistered, hentering, hmessage, hfound⟩ := hfresh
  have hsend : ∀ v, h.late v = true → k ∉ (update φ u (enter request) v).senders := by
    refine Pool.forall_update (P := fun v (γ : Standing) => h.late v = true → k ∉ γ.senders) ?_
      hs.senders
    rw [hsenders]
    exact fun _ => List.not_mem_nil
  have hsockets : ∀ v, (update φ u (enter request) v).connection ≠ none →
      (update φ u (enter request) v).senders = [] :=
    Pool.forall_update (P := fun _ (γ : Standing) => γ.connection ≠ none → γ.senders = [])
      (fun _ => hsenders) hs.sockets
  by_cases hut : t = u
  · subst hut
    refine ⟨hs.listed, hs.known, hs.late, hsend, hsockets, ?_, ?_, ?_⟩ <;>
      simp [hregistered, hentering, hmessage, hfound]
  · refine ⟨hs.listed, hs.known, hs.late, hsend, hsockets, ?_, ?_, ?_⟩ <;>
      rw [update_of_ne hut]
    exacts [hs.named, hs.asked, hs.found]

lemma Hushed.silent (howner : ∀ u, (φ u).connection = some k → u = t) (hok : (φ u).Allows c)
    (htells : Tells k c) : h.late u = false := by
  have hknown : (φ u).connection = some k → (φ u).Known → h.late u = false := by
    rintro hk ⟨row, hfound, hreg⟩
    obtain rfl := howner u hk
    by_contra hlate
    rw [Bool.not_eq_false] at hlate
    exact hs.found hk hlate row hfound (hs.named hk row.1 (.inl hreg))
  have hasked : (φ u).connection = some k →
      ((φ u).message = some .requestSnapshot ∨ (φ u).message = some .listPeers) →
      h.late u = false := by
    intro hk hmessage
    obtain rfl := howner u hk
    by_contra hlate
    rw [Bool.not_eq_false] at hlate
    obtain ⟨hsnapshot, hlist⟩ := hs.asked hk hlate
    exact hmessage.elim hsnapshot hlist
  cases c with
  | push connection snapshot =>
    obtain rfl : connection = k := htells
    by_contra hlate
    rw [Bool.not_eq_false] at hlate
    exact hs.senders u hlate hok
  | send connection message =>
    obtain ⟨rfl, hdiscloses⟩ := htells
    cases message with
    | snapshot | peerInfo => exact hknown hok.1 hok.2
    | snapshotResponse => exact hasked hok.1 (.inl hok.2)
    | listPeersOk => exact hasked hok.1 (.inr hok.2)
    | _ => cases hdiscloses
  | _ => cases htells

end Steps

/-! ### Runs -/

section Runs

variable {prim : Primitives} {server : Server} {init : CoordState} {k : UInt64} {t : ℕ}

lemma hushed_of_recorded (hclean : init.NoTrace k) {x : VisitedCfg × Tale}
    (h : (Visited prim server).Recorded (Tale.observe k) (DiscreetVisit k t)
      ((Visited prim server).initial init, Tale.start) x) :
    ∃ φ, (Housed k t x.1 φ ∧ Hushed k t x.1.shared φ x.2) ∧
      ∀ u, (x.1.prog u).Meets Standing.next Standing.Allows (fun γ _ => γ.Done) (φ u) := by
  refine h.traced (I := fun cfg φ h => Housed k t cfg φ ∧ Hushed k t cfg.shared φ h)
    (fun _ => Standing.start) (fun _ => ⟨⟨⟩, rfl⟩) (fun _ => ⟨rfl, rfl⟩) ?_
    (fun _ _ request _ => body_attends prim server request) ?_ ?_
  · refine ⟨⟨nofun, fun _ => rfl⟩, ?_⟩
    exact ⟨fun m hm => absurd hm (hclean m).1, nofun, nofun, nofun, nofun, nofun, nofun, nofun⟩
  · intro cfg φ tale u request s' hinv hguard _ haccept
    obtain ⟨spawned, rfl⟩ := Request.accept_eq haccept
    exact ⟨hinv.1.spawn hguard.1, hinv.2.spawn request spawned⟩
  · intro cfg φ tale u e c rest r s' hinv hguard hprog hok hexec
    obtain ⟨rfl, rfl⟩ := exec_eq hexec
    have hdiscreet := hguard.2 u e c rfl (by rw [Pool.Config.at, hprog])
    exact ⟨hinv.1.step e c, hinv.2.step hinv.1.owner hok hdiscreet (Tale.step_observe ..)⟩

/-- Whether the node has been taken out of `online`. -/
def removes (nodeId : NodeId) (b : Bool) : (c : Section) → Response c → Bool
  | .onlineRemove other, _ => b || other == nodeId
  | _, _ => b

lemma removes_true {α : Type} (nodeId : NodeId) (p : Task α) :
    p.Meets (removes nodeId) (fun _ _ => True) (fun b _ => b = true) true := by
  have hstay : ∀ (c : Section) (r : Response c), removes nodeId true c r = true := by
    intro c r
    cases c <;> rfl
  induction p with
  | ret _ => rfl
  | op c k ih => exact ⟨trivial, fun r => by rw [hstay]; exact ih r⟩

/-- **Where the interval begins**: a removal that has returned `Ok(true)` has taken the node out. -/
theorem removed_when_returned (nodeId : NodeId) (program : CoordM Bool)
    (h : program = revokePeerInner nodeId ∨ program = deletePeerInner nodeId) :
    program.run.Meets (removes nodeId) (fun _ _ => True) (fun b r => r = .ok true → b = true) false := by
  rcases h with rfl | rfl <;>
  · refine ⟨trivial, fun changed => ?_⟩
    rcases changed with e | _ | _
    · exact nofun
    · exact nofun
    refine ⟨trivial, fun bumped => ?_⟩
    rcases bumped with e | _
    · exact nofun
    refine ⟨trivial, fun senders => ?_⟩
    have htaken : ∀ b, removes nodeId b (.onlineRemove nodeId) senders = true := by simp [removes]
    rw [htaken]
    exact (removes_true nodeId _).mono fun _ _ hb _ => hb

/-- **A removed peer is told nothing more.**  In every run, of any number of connections and
requests, in which the connection `k` registers as one node only and, once that node was taken out,
asks for neither the snapshot nor the list of peers, finds the row of the node gone whenever it is
looked up, and no broadcast begins between the entry of a later `Register` and its answer: whenever a
snapshot, an answer with a snapshot, a peer or the list of peers is about to be put into a channel of
the connection, the message or the broadcast it belongs to was taken up before the removal. -/
theorem removed_told_nothing (prim : Primitives) (server : Server) (init : CoordState) (k : UInt64)
    (t : ℕ) (hclean : init.NoTrace k) (x : VisitedCfg × Tale)
    (h : (Visited prim server).Recorded (Tale.observe k) (DiscreetVisit k t)
      ((Visited prim server).initial init, Tale.start) x)
    (u : ℕ) (c : Section) (hat : x.1.at u = some c) (htells : Tells k c) : x.2.late u = false := by
  obtain ⟨φ, ⟨hhoused, hhushed⟩, hmeets⟩ := hushed_of_recorded hclean h
  exact hhushed.silent hhoused.owner (Pool.Config.ok_at (hmeets u) hat) htells

end Runs

/-- A client that registers, and asks for the snapshot later. -/
def listener : Request :=
  .socket 7 [demoRegister "key" "" (some "token"), .text .requestSnapshot]

def revokedMoves (before after : ℕ) : List (Pool.Move Env Request) :=
  .spawn 0 listener :: (List.replicate before (.step 0 demoEnv) ++
    .spawn 1 (.revoke demoNode) :: (List.replicate 5 (.step 1 demoEnv) ++
      List.replicate after (.step 0 demoEnv)))

def snapshotResponseFor (k : UInt64) : Option Section → Bool
  | some (.send connection (.snapshotResponse _)) => connection == k
  | _ => false

lemma tells_of_snapshotResponseFor {k : UInt64} {o : Option Section}
    (h : snapshotResponseFor k o = true) : ∃ c, o = some c ∧ Tells k c := by
  unfold snapshotResponseFor at h
  split at h
  · exact ⟨_, rfl, by simpa using h, trivial⟩
  · cases h

/-- Nothing is taken up or looked up after the removal. -/
def discreetly (x : VisitedCfg × Tale) : Pool.Move Env Request → Bool
  | .spawn u request => u == 0 || (enter request).connection.isNone
  | .step u _ =>
    match x.1.at u with
    | some (.onlineInsert _ _) => x.2.registered.isNone
    | some (.recv _ _) | some (.loadPeer _) | some .onlineSenders => !x.2.cut
    | _ => true

lemma discreetVisit_of_discreetly {x : VisitedCfg × Tale} {m : Pool.Move Env Request}
    (h : discreetly x m = true) : DiscreetVisit 7 0 x m := by
  cases m with
  | spawn u request =>
    refine ⟨fun hk => ?_, fun v e c heq _ => ?_⟩
    · simpa [discreetly, hk] using h
    · cases heq
  | step u e =>
    refine ⟨trivial, ?_⟩
    rintro v _ c ⟨⟩ hat
    simp only [discreetly, hat] at h
    constructor
    · rintro m rfl
      exact .inl (by simpa using h)
    · rintro message rfl hcut
      simp [hcut] at h
    · rintro m - rfl hcut
      simp [hcut] at h
    · rintro rfl hcut
      simp [hcut] at h

lemma asked_before_facts :
    ((Visited demoPrim demoServer).runRecorded (Tale.observe 7) discreetly
      ((Visited demoPrim demoServer).initial demoState, Tale.start) (revokedMoves 19 5)).map
        (fun x => (snapshotResponseFor 7 (x.1.at 0), x.2.cut)) = some (true, true) := by
  decide +kernel

theorem removed_told_nothing_asked_before :
    ∃ (x : VisitedCfg × Tale) (c : Section),
      (Visited demoPrim demoServer).Recorded (Tale.observe 7) (DiscreetVisit 7 0)
        ((Visited demoPrim demoServer).initial demoState, Tale.start) x ∧
      x.1.at 0 = some c ∧ Tells 7 c ∧ x.2.cut = true ∧ x.2.late 0 = false := by
  obtain ⟨x, hrun, hfacts⟩ := Option.map_eq_some_iff.1 asked_before_facts
  obtain ⟨htells, hcut⟩ := Prod.mk.inj hfacts
  obtain ⟨c, hat, htells⟩ := tells_of_snapshotResponseFor htells
  have hrecorded : (Visited demoPrim demoServer).Recorded (Tale.observe 7) (DiscreetVisit 7 0)
      ((Visited demoPrim demoServer).initial demoState, Tale.start) x :=
    Pool.Spec.recorded_of_run (fun _ _ => discreetVisit_of_discreetly) _ .refl hrun
  exact ⟨x, c, hrecorded, hat, htells, hcut, removed_told_nothing demoPrim demoServer demoState 7 0
    (demoState_noTrace 7) x hrecorded 0 c hat htells⟩

/-! ### A removed peer that asks -/

/-- The connections are served by the first task. -/
def alone (_ : VisitedCfg × Tale) : Pool.Move Env Request → Bool
  | .spawn u request => u == 0 || (enter request).connection.isNone
  | .step _ _ => true

lemma asked_after_facts :
    ((Visited demoPrim demoServer).runRecorded (Tale.observe 7) alone
      ((Visited demoPrim demoServer).initial demoState, Tale.start) (revokedMoves 18 6)).map
        (fun x => (snapshotResponseFor 7 (x.1.at 0), (x.1.at 1).isNone, x.2.late 0)) =
      some (true, true, true) := by
  decide +kernel

/-- The node was revoked, and the request has returned; then the connection asks for the snapshot,
and the server is about to send it. -/
theorem removed_still_told :
    ¬ ∀ (prim : Primitives) (server : Server) (init : CoordState) (k : UInt64) (t : ℕ),
      init.NoTrace k → ∀ x, (Visited prim server).Recorded (Tale.observe k)
        (fun x m => ServedBy k t x.1 m) ((Visited prim server).initial init, Tale.start) x →
        ∀ u c, x.1.at u = some c → Tells k c → x.2.late u = false := by
  intro h
  obtain ⟨x, hrun, hfacts⟩ := Option.map_eq_some_iff.1 asked_after_facts
  obtain ⟨htells, hrest⟩ := Prod.mk.inj hfacts
  obtain ⟨-, hlate⟩ := Prod.mk.inj hrest
  obtain ⟨c, hat, htells⟩ := tells_of_snapshotResponseFor htells
  have hrecorded : (Visited demoPrim demoServer).Recorded (Tale.observe 7)
      (fun x m => ServedBy 7 0 x.1 m) ((Visited demoPrim demoServer).initial demoState, Tale.start)
      x := by
    refine Pool.Spec.recorded_of_run (fun y m hm => ?_) _ .refl hrun
    cases m with
    | spawn u request =>
      intro hk
      simpa [alone, hk] using hm
    | step u e => trivial
  have hnot := h demoPrim demoServer demoState 7 0 (demoState_noTrace 7) x hrecorded 0 c hat htells
  rw [hnot] at hlate
  cases hlate

end Vela.Coord
