import Vela.Coord.Broadcast

/-!
# Tokens are used once

An invite is a row with three flags; `register_with_invite`, `consume_download_token` and
`delete_invite` each check and set them in one section.

* `tokens_single_use` — no success is followed by one that it excludes;
* `invites_kept` — no invite is lost or reopened.
-/

namespace Vela.Coord

open Vela.Proto Vela.Crypto Prog

/-! ### What a section does to the invites -/

/-- The same invite, later. -/
structure InviteRow.Ages (row row' : InviteRow) : Prop where
  id : row'.id = row.id
  downloadTokenHash : row'.downloadTokenHash = row.downloadTokenHash
  used : row.used = true → row'.used = true
  revoked : row.revoked = true → row'.revoked = true
  downloadUsed : row.downloadUsed = true → row'.downloadUsed = true

lemma InviteRow.Ages.refl (row : InviteRow) : row.Ages row :=
  ⟨rfl, rfl, fun h => h, fun h => h, fun h => h⟩

lemma InviteRow.Ages.trans {a b c : InviteRow} (h : a.Ages b) (h' : b.Ages c) : a.Ages c where
  id := h'.id.trans h.id
  downloadTokenHash := h'.downloadTokenHash.trans h.downloadTokenHash
  used := h'.used ∘ h.used
  revoked := h'.revoked ∘ h.revoked
  downloadUsed := h'.downloadUsed ∘ h.downloadUsed

/-- No row is lost, and a row is new only if the section inserted it under an id of its own. -/
structure Aged (c : Section) (s s' : CoordState) : Prop where
  kept : ∀ key row, s.invites.lookup key = some row →
    ∃ row', s'.invites.lookup key = some row' ∧ row.Ages row'
  known : ∀ key row', s'.invites.lookup key = some row' →
    (∃ row, s.invites.lookup key = some row ∧ row.Ages row') ∨
      c = .insertInvite key row' ∧ ∀ key old, s.invites.lookup key = some old → old.id ≠ row'.id

section Sections

variable {prim : Primitives} {server : Server} {c : Section} {s s' : CoordState}

lemma Aged.of_invites (h : s'.invites = s.invites) : Aged c s s' where
  kept key row hrow := ⟨row, by rwa [h], .refl row⟩
  known key row' hrow := by
    rw [h] at hrow
    exact .inl ⟨row', hrow, .refl row'⟩

lemma aged_updateInvites {matching : InviteRow → Bool} {f : InviteRow → InviteRow}
    (hf : ∀ row : InviteRow, row.Ages (f row)) : Aged c s (s.updateInvites matching f).2 := by
  have hages : ∀ row : InviteRow, row.Ages (if matching row then f row else row) := by
    intro row
    split
    · exact hf row
    · exact .refl row
  refine ⟨fun key row hrow => ?_, fun key row' hrow' => ?_⟩
  · exact ⟨_, by rw [lookup_updateInvites, hrow, Option.map_some], hages row⟩
  · rw [lookup_updateInvites] at hrow'
    obtain ⟨row, hrow, rfl⟩ := Option.map_eq_some_iff.1 hrow'
    exact .inl ⟨row, hrow, hages row⟩

lemma aged_insert {key : Vector UInt8 32} {row row' : InviteRow} {log : List Event}
    (hrow : s.invites.lookup key = some row) (h : row.Ages row') :
    Aged c s { s with invites := s.invites.insert key row', log } := by
  refine ⟨fun key' old hold => ?_, fun key' new hnew => ?_⟩
  · by_cases hkey : key' = key
    · subst hkey
      obtain rfl := Option.some.inj (hrow.symm.trans hold)
      exact ⟨row', AList.lookup_insert _, h⟩
    · exact ⟨old, by rwa [AList.lookup_insert_ne hkey], .refl old⟩
  · by_cases hkey : key' = key
    · subst hkey
      rw [AList.lookup_insert] at hnew
      cases hnew
      exact .inl ⟨row, hrow, h⟩
    · rw [AList.lookup_insert_ne hkey] at hnew
      exact .inl ⟨new, hnew, .refl new⟩

lemma aged_insertInvite (tokenHash : Vector UInt8 32) (row : InviteRow) :
    Aged (.insertInvite tokenHash row) s (s.insertInvite tokenHash row).2 := by
  unfold CoordState.insertInvite
  split
  · exact .of_invites rfl
  · rename_i hfree
    split
    · exact .of_invites rfl
    · rename_i hids
      have hother : ∀ key old, s.invites.lookup key = some old → key ≠ tokenHash := by
        rintro key old hold rfl
        simp [hold] at hfree
      refine ⟨fun key old hold => ?_, fun key new hnew => ?_⟩
      · exact ⟨old, by rwa [AList.lookup_insert_ne (hother key old hold)], .refl old⟩
      · by_cases hkey : key = tokenHash
        · subst hkey
          rw [AList.lookup_insert] at hnew
          cases hnew
          refine .inr ⟨rfl, fun key' old hold hid => hids ?_⟩
          exact List.any_eq_true.2 ⟨⟨key', old⟩, AList.mem_lookup_iff.1 hold, by simp [hid]⟩
        · rw [AList.lookup_insert_ne hkey] at hnew
          exact .inl ⟨new, hnew, .refl new⟩

/-- **What one section does to the table of invites.** -/
theorem aged_perform (e : Env) (c : Section) (s : CoordState) :
    Aged c s (perform prim server e c s).2 := by
  by_cases hc : c.part = .invites
  · cases c with
    | registerWithInvite nodeId signingPublic noisePublic token =>
      refine Env.database_state (.of_invites rfl) ?_
      rcases @registerWithInvite_cases prim server s e.clock nodeId signingPublic
        noisePublic token with ⟨error, h⟩ | ⟨registration, invite, hinvite, -, -, h⟩
      · rw [h]
        exact .of_invites rfl
      · rw [h]
        exact aged_insert hinvite ⟨rfl, rfl, fun _ => rfl, fun h => h, fun _ => rfl⟩
    | insertInvite tokenHash row =>
      exact Env.database_state (.of_invites rfl) (aged_insertInvite tokenHash row)
    | consumeDownloadToken token =>
      exact Env.database_state (.of_invites rfl)
        (aged_updateInvites fun row => ⟨rfl, rfl, fun h => h, fun h => h, fun _ => rfl⟩)
    | deleteInvite id =>
      exact Env.database_state (.of_invites rfl)
        (aged_updateInvites fun row => ⟨rfl, rfl, fun h => h, fun _ => rfl, fun _ => rfl⟩)
    | _ => cases hc
  · exact .of_invites ((perform_frame e c s).invites hc)

end Sections

/-! ### The history -/

/-- A call that succeeded. -/
inductive TokenUse where
  /-- `register_with_invite` returned `Ok` -/
  | registered (token : String)
  /-- `consume_download_token` returned `Ok(true)` -/
  | downloaded (token : String)
  /-- `delete_invite` found an invite with the id -/
  | deleted (id : String)
  deriving DecidableEq

section History

variable (prim : Primitives)

/-- The hash that a token is stored under. -/
def tokenHash (token : String) : Vector UInt8 32 := prim.blake3 (stringBytes token)

namespace TokenUse

def observe (h : List TokenUse) (_ : ℕ) (_ : Unit) (_ : CoordState) :
    (c : Section) → Response c → CoordState → List TokenUse
  | .registerWithInvite _ _ _ token, .ok _, _ => .registered token :: h
  | .consumeDownloadToken token, .ok true, _ => .downloaded token :: h
  | .deleteInvite id, .ok true, _ => .deleted id :: h
  | _, _, _ => h

/-- After the first of the two calls, the second must not succeed: a token is used once, and neither
token of an invite is used after the invite was deleted, or the download token after the invite was
used to register. -/
def Excludes (s : CoordState) : TokenUse → TokenUse → Prop
  | .registered token, .registered token' => token = token'
  | .downloaded token, .downloaded token' => token = token'
  | .deleted id, .registered token =>
    ∃ row, s.invites.lookup (tokenHash prim token) = some row ∧ row.id = id
  | .deleted id, .downloaded token =>
    ∃ key row, s.invites.lookup key = some row ∧
      row.downloadTokenHash = some (tokenHash prim token) ∧ row.id = id
  | .registered token, .downloaded token' =>
    ∃ row, s.invites.lookup (tokenHash prim token) = some row ∧
      row.downloadTokenHash = some (tokenHash prim token')
  | _, _ => False

/-- What the call has left behind in the table. -/
def Recorded (s : CoordState) : TokenUse → Prop
  | .registered token =>
    ∃ row, s.invites.lookup (tokenHash prim token) = some row ∧ row.used = true
  | .downloaded token =>
    (∃ key row, s.invites.lookup key = some row ∧
      row.downloadTokenHash = some (tokenHash prim token)) ∧
    ∀ key row, s.invites.lookup key = some row →
      row.downloadTokenHash = some (tokenHash prim token) → row.downloadUsed = true
  | .deleted id =>
    (∃ key row, s.invites.lookup key = some row ∧ row.id = id) ∧
    ∀ key row, s.invites.lookup key = some row → row.id = id → row.revoked = true

end TokenUse

end History

/-- No two invites have the same download token. -/
def CoordState.DistinctDownloads (s : CoordState) : Prop :=
  ∀ key key' row row', s.invites.lookup key = some row → s.invites.lookup key' = some row' →
    row.downloadTokenHash = row'.downloadTokenHash → row.downloadTokenHash ≠ none → key = key'

/-- A new invite gets a download token that no invite has. -/
def FreshToken (c : Section) (s : CoordState) : Prop :=
  ∀ key new, c = .insertInvite key new →
    ∀ key old, s.invites.lookup key = some old → old.downloadTokenHash ≠ new.downloadTokenHash

/-! ### Steps -/

section Steps

variable {prim : Primitives} {server : Server} {c : Section} {s s' : CoordState} {use use' : TokenUse}

open TokenUse (Excludes Recorded)

lemma Aged.old (h : Aged c s s') (hfresh : FreshToken c s) {key key' : Vector UInt8 32}
    {row row' : InviteRow} (hrow : s.invites.lookup key = some row)
    (hrow' : s'.invites.lookup key' = some row')
    (htoken : row.downloadTokenHash = row'.downloadTokenHash) :
    ∃ old, s.invites.lookup key' = some old ∧ old.Ages row' := by
  rcases h.known key' row' hrow' with hold | ⟨hinsert, -⟩
  · exact hold
  · exact absurd htoken (hfresh key' row' hinsert key row hrow)

lemma distinctDownloads_aged (h : Aged c s s') (hfresh : FreshToken c s)
    (hs : s.DistinctDownloads) : s'.DistinctDownloads := by
  intro key key' row row' hrow hrow' htoken hsome
  rcases h.known key row hrow with ⟨old, hold, hages⟩ | ⟨hinsert, -⟩
  · obtain ⟨old', hold', hages'⟩ := h.old hfresh hold hrow' (hages.downloadTokenHash.symm.trans htoken)
    rw [hages.downloadTokenHash] at htoken hsome
    rw [hages'.downloadTokenHash] at htoken
    exact hs key key' old old' hold hold' htoken hsome
  · rcases h.known key' row' hrow' with ⟨old', hold', hages'⟩ | ⟨hinsert', -⟩
    · rw [hages'.downloadTokenHash] at htoken
      exact absurd htoken.symm (hfresh key row hinsert key' old' hold')
    · injection hinsert.symm.trans hinsert'

lemma recorded_aged (h : Aged c s s') (hfresh : FreshToken c s) (hs : use.Recorded prim s) :
    use.Recorded prim s' := by
  cases use with
  | registered token =>
    obtain ⟨row, hrow, hused⟩ := hs
    obtain ⟨row', hrow', hages⟩ := h.kept _ row hrow
    exact ⟨row', hrow', hages.used hused⟩
  | downloaded token =>
    obtain ⟨⟨key, row, hrow, htoken⟩, hall⟩ := hs
    refine ⟨?_, fun key' new hnew htoken' => ?_⟩
    · obtain ⟨row', hrow', hages⟩ := h.kept key row hrow
      exact ⟨key, row', hrow', hages.downloadTokenHash.trans htoken⟩
    · obtain ⟨old, hold, hages⟩ := h.old hfresh hrow hnew (htoken.trans htoken'.symm)
      rw [hages.downloadTokenHash] at htoken'
      exact hages.downloadUsed (hall key' old hold htoken')
  | deleted id =>
    obtain ⟨⟨key, row, hrow, hid⟩, hall⟩ := hs
    refine ⟨?_, fun key' new hnew hid' => ?_⟩
    · obtain ⟨row', hrow', hages⟩ := h.kept key row hrow
      exact ⟨key, row', hrow', hages.id.trans hid⟩
    · rcases h.known key' new hnew with ⟨old, hold, hages⟩ | ⟨-, hids⟩
      · exact hages.revoked (hall key' old hold (hages.id.symm.trans hid'))
      · -- the id is taken
        exact absurd (hid.trans hid'.symm) (hids key row hrow)

/-- What a call finds when it succeeds. -/
def TokenUse.Open (prim : Primitives) (s : CoordState) : TokenUse → Prop
  | .registered token =>
    ∃ row, s.invites.lookup (tokenHash prim token) = some row ∧ row.revoked = false ∧ row.used = false
  | .downloaded token =>
    ∃ key row, s.invites.lookup key = some row ∧
      row.downloadTokenHash = some (tokenHash prim token) ∧
      row.downloadUsed = false ∧ row.revoked = false ∧ row.used = false
  | .deleted _ => True

/-- The invite of the call is there, before the call and after it. -/
def TokenUse.Known (prim : Primitives) (s : CoordState) : TokenUse → Prop
  | .registered token => ∃ row, s.invites.lookup (tokenHash prim token) = some row
  | .downloaded token => ∃ key row, s.invites.lookup key = some row ∧
      row.downloadTokenHash = some (tokenHash prim token)
  | .deleted _ => True

lemma TokenUse.Recorded.known (h : use.Recorded prim s) : use.Known prim s := by
  cases use with
  | registered token =>
    obtain ⟨row, hrow, -⟩ := h
    exact ⟨row, hrow⟩
  | downloaded token => exact h.1
  | deleted id => trivial

lemma TokenUse.Open.known (h : use.Open prim s) : use.Known prim s := by
  cases use with
  | registered token =>
    obtain ⟨row, hrow, -⟩ := h
    exact ⟨row, hrow⟩
  | downloaded token =>
    obtain ⟨key, row, hrow, htoken, -⟩ := h
    exact ⟨key, row, hrow, htoken⟩
  | deleted id => trivial

lemma excludes_aged (h : Aged c s s') (hfresh : FreshToken c s) (huse : use.Known prim s)
    (huse' : use'.Known prim s) (hexcl : Excludes prim s' use use') : Excludes prim s use use' := by
  -- the row of an invite token that was there
  have hsame : ∀ {token row'}, (∃ row, s.invites.lookup (tokenHash prim token) = some row) →
      s'.invites.lookup (tokenHash prim token) = some row' →
      ∃ row, s.invites.lookup (tokenHash prim token) = some row ∧ row.Ages row' := by
    rintro token new ⟨row, hrow⟩ hnew
    obtain ⟨row', hrow', hages⟩ := h.kept _ row hrow
    obtain rfl := Option.some.inj (hrow'.symm.trans hnew)
    exact ⟨row, hrow, hages⟩
  cases use with
  | registered token =>
    cases use' with
    | downloaded token' =>
      obtain ⟨new, hnew, htoken⟩ := hexcl
      obtain ⟨row, hrow, hages⟩ := hsame huse hnew
      exact ⟨row, hrow, hages.downloadTokenHash.symm.trans htoken⟩
    | _ => exact hexcl
  | downloaded token => cases use' <;> exact hexcl
  | deleted id =>
    cases use' with
    | registered token =>
      obtain ⟨new, hnew, hid⟩ := hexcl
      obtain ⟨row, hrow, hages⟩ := hsame huse' hnew
      exact ⟨row, hrow, hages.id.symm.trans hid⟩
    | downloaded token =>
      obtain ⟨key, row, hrow, htoken⟩ := huse'
      obtain ⟨key', new, hnew, htoken', hid⟩ := hexcl
      obtain ⟨old, hold, hages⟩ := h.old hfresh hrow hnew (htoken.trans htoken'.symm)
      exact ⟨key', old, hold, hages.downloadTokenHash.symm.trans htoken', hages.id.symm.trans hid⟩
    | deleted id' => exact hexcl

/-- **A call does not succeed after one that excludes it.** -/
theorem not_excludes_of_open (hdistinct : s.DistinctDownloads) (huse : use.Recorded prim s)
    (hopen : use'.Open prim s) : ¬ Excludes prim s use use' := by
  intro hexcl
  cases use' with
  | registered token' =>
    obtain ⟨row, hrow, hlive, hunused⟩ := hopen
    cases use with
    | registered token =>
      obtain rfl : token = token' := hexcl
      obtain ⟨row', hrow', hused⟩ := huse
      obtain rfl := Option.some.inj (hrow.symm.trans hrow')
      exact absurd hused (by simp [hunused])
    | downloaded token => exact hexcl
    | deleted id =>
      obtain ⟨row', hrow', hid⟩ := hexcl
      obtain rfl := Option.some.inj (hrow.symm.trans hrow')
      exact absurd (huse.2 _ row hrow hid) (by simp [hlive])
  | downloaded token' =>
    obtain ⟨key, row, hrow, htoken, hfresh, hlive, hunused⟩ := hopen
    -- the download token belongs to one invite only
    have hone : ∀ {key' row'}, s.invites.lookup key' = some row' →
        row'.downloadTokenHash = some (tokenHash prim token') → row' = row := by
      intro key' row' hrow' htoken'
      obtain rfl := hdistinct key' key row' row hrow' hrow (htoken'.trans htoken.symm) (by simp [htoken'])
      exact Option.some.inj (hrow'.symm.trans hrow)
    cases use with
    | registered token =>
      obtain ⟨row', hrow', htoken'⟩ := hexcl
      obtain rfl := hone hrow' htoken'
      obtain ⟨old, hold, hused⟩ := huse
      obtain rfl := Option.some.inj (hrow'.symm.trans hold)
      exact absurd hused (by simp [hunused])
    | downloaded token =>
      obtain rfl : token = token' := hexcl
      exact absurd (huse.2 key row hrow htoken) (by simp [hfresh])
    | deleted id =>
      obtain ⟨key', row', hrow', htoken', hid⟩ := hexcl
      obtain rfl := hone hrow' htoken'
      exact absurd (huse.2 key' _ hrow' hid) (by simp [hlive])
  | deleted id' => cases use <;> exact hexcl

lemma updateInvites_matched {matching : InviteRow → Bool} {f : InviteRow → InviteRow}
    (h : (s.updateInvites matching f).1 = true) :
    ∃ key row, s.invites.lookup key = some row ∧ matching row = true := by
  obtain ⟨⟨key, row⟩, hmem, hmatch⟩ := List.any_eq_true.1 h
  exact ⟨key, row, AList.mem_lookup_iff.2 hmem, hmatch⟩

lemma lookup_updateInvites_eq {matching : InviteRow → Bool} {f : InviteRow → InviteRow}
    {key : Vector UInt8 32} {new : InviteRow}
    (h : (s.updateInvites matching f).2.invites.lookup key = some new) :
    ∃ row, s.invites.lookup key = some row ∧ new = if matching row then f row else row := by
  rw [lookup_updateInvites] at h
  obtain ⟨row, hrow, rfl⟩ := Option.map_eq_some_iff.1 h
  exact ⟨row, hrow, rfl⟩

lemma registered_spec {clock : ℕ → UInt64} {nodeId : NodeId}
    {signingPublic noisePublic : Vector UInt8 32} {token : String} {registration : InviteRegistration}
    (h : (s.registerWithInvite prim server clock nodeId signingPublic noisePublic token).1 =
      .ok registration) :
    (TokenUse.registered token).Open prim s ∧ (TokenUse.registered token).Recorded prim
      (s.registerWithInvite prim server clock nodeId signingPublic noisePublic token).2 := by
  rcases @registerWithInvite_cases prim server s clock nodeId signingPublic
    noisePublic token with ⟨error, heq⟩ | ⟨registration, invite, hinvite, hlive, hunused, heq⟩
  · rw [heq] at h
    cases h
  · rw [heq]
    exact ⟨⟨invite, hinvite, hlive, hunused⟩, _, AList.lookup_insert _, rfl⟩

lemma downloaded_spec {clock : ℕ → UInt64} {token : String}
    (hdistinct : s.DistinctDownloads) (h : (s.consumeDownloadToken prim clock token).1 = true) :
    (TokenUse.downloaded token).Open prim s ∧
      (TokenUse.downloaded token).Recorded prim (s.consumeDownloadToken prim clock token).2 := by
  obtain ⟨key, row, hrow, hmatch⟩ := updateInvites_matched h
  have hopen := hmatch
  simp only [CoordState.downloadable, Bool.and_eq_true, beq_iff_eq, Bool.not_eq_true',
    decide_eq_true_eq] at hopen
  obtain ⟨⟨⟨⟨htoken, hfresh⟩, hlive⟩, hunused⟩, -⟩ := hopen
  refine ⟨⟨key, row, hrow, htoken, hfresh, hlive, hunused⟩, ?_, fun key' new hnew htoken' => ?_⟩
  · have hafter : (s.consumeDownloadToken prim clock token).2.invites.lookup key =
        some { row with downloadUsed := true } := by
      simp [CoordState.consumeDownloadToken, lookup_updateInvites, hrow, hmatch]
    exact ⟨key, _, hafter, htoken⟩
  · obtain ⟨row', hrow', rfl⟩ := lookup_updateInvites_eq hnew
    have htoken'' : row'.downloadTokenHash = some (tokenHash prim token) := by
      split at htoken' <;> exact htoken'
    obtain rfl := hdistinct key' key row' row hrow' hrow (htoken''.trans htoken.symm) (by simp [htoken''])
    obtain rfl := Option.some.inj (hrow.symm.trans hrow')
    rw [if_pos hmatch]

lemma deleted_spec {id : String} (h : (s.deleteInvite id).1 = true) :
    (TokenUse.deleted id).Recorded prim (s.deleteInvite id).2 := by
  obtain ⟨key, row, hrow, hmatch⟩ := updateInvites_matched h
  refine ⟨⟨key, { row with revoked := true, downloadUsed := true }, ?_, by simpa using hmatch⟩,
    fun key' new hnew hid => ?_⟩
  · simp [CoordState.deleteInvite, lookup_updateInvites, hrow, beq_iff_eq.1 hmatch]
  · obtain ⟨row', hrow', rfl⟩ := lookup_updateInvites_eq hnew
    have hid' : row'.id = id := by
      split at hid <;> exact hid
    rw [if_pos (by simpa using hid')]

lemma observe_perform (hdistinct : s.DistinctDownloads) (e : Env) (c : Section) (h : List TokenUse)
    (t : ℕ) :
    TokenUse.observe h t () s c (perform prim server e c s).1 (perform prim server e c s).2 = h ∨
      ∃ use, TokenUse.observe h t () s c (perform prim server e c s).1
          (perform prim server e c s).2 = use :: h ∧
        use.Open prim s ∧ use.Recorded prim (perform prim server e c s).2 := by
  cases c with
  | registerWithInvite nodeId signingPublic noisePublic token =>
    simp only [perform, Env.database]
    split
    · exact .inl rfl
    · cases hresult : (s.registerWithInvite prim server e.clock nodeId signingPublic noisePublic
        token).1 with
      | error error => exact .inl rfl
      | ok registration => exact .inr ⟨_, rfl, registered_spec hresult⟩
  | consumeDownloadToken token =>
    simp only [perform, Env.database]
    split
    · exact .inl rfl
    · cases hresult : (s.consumeDownloadToken prim e.clock token).1 with
      | false => exact .inl rfl
      | true => exact .inr ⟨_, rfl, downloaded_spec hdistinct hresult⟩
  | deleteInvite id =>
    simp only [perform, Env.database]
    split
    · exact .inl rfl
    · cases hresult : (s.deleteInvite id).1 with
      | false => exact .inl rfl
      | true => exact .inr ⟨_, rfl, trivial, deleted_spec hresult⟩
  | _ => exact .inl rfl

end Steps

/-! ### Runs -/

/-- What the runs keep. -/
structure SpentTokens (prim : Primitives) (s : CoordState) (h : List TokenUse) : Prop where
  distinct : s.DistinctDownloads
  recorded : ∀ use ∈ h, use.Recorded prim s
  ordered : h.Pairwise fun newer older => ¬ older.Excludes prim s newer

lemma SpentTokens.step {prim : Primitives} {server : Server} {s : CoordState} {h : List TokenUse}
    (hs : SpentTokens prim s h) (e : Env) {c : Section} (hfresh : FreshToken c s) (t : ℕ) :
    SpentTokens prim (perform prim server e c s).2
      (TokenUse.observe h t () s c (perform prim server e c s).1 (perform prim server e c s).2) := by
  have haged := @aged_perform prim server e c s
  have hrecorded : ∀ use ∈ h, use.Recorded prim (perform prim server e c s).2 := fun use huse =>
    recorded_aged haged hfresh (hs.recorded use huse)
  have hordered : h.Pairwise fun newer older =>
      ¬ older.Excludes prim (perform prim server e c s).2 newer := by
    refine hs.ordered.imp_of_mem fun {newer older} hnewer holder hnot hexcl => hnot ?_
    exact excludes_aged haged hfresh (hs.recorded older holder).known (hs.recorded newer hnewer).known
      hexcl
  have hdistinct := distinctDownloads_aged haged hfresh hs.distinct
  rcases @observe_perform prim server s hs.distinct e c h t with
    heq | ⟨use, heq, hopen, hmade⟩
  · rw [heq]
    exact ⟨hdistinct, hrecorded, hordered⟩
  · rw [heq]
    refine ⟨hdistinct, List.forall_mem_cons.2 ⟨hmade, hrecorded⟩, List.pairwise_cons.2 ⟨?_, hordered⟩⟩
    intro older holder hexcl
    have hold := hs.recorded older holder
    exact not_excludes_of_open hs.distinct hold hopen
      (excludes_aged haged hfresh hold.known hopen.known hexcl)

/-- Every invite that is created gets a download token of its own. -/
def FreshTokens (cfg : Pool.Config Section Response CoordState Unit) (m : Pool.Move Env Request) :
    Prop :=
  ∀ t e c, m = .step t e → cfg.at t = some c → FreshToken c cfg.shared

/-- **Tokens are used once.**  In every interleaving of any requests: an invite token registers at
most once, a download token is taken at most once, neither after the invite was deleted, and the
download token not after the invite was used to register. -/
theorem tokens_single_use (prim : Primitives) (server : Server) (init : CoordState)
    (hinit : init.DistinctDownloads)
    (x : Pool.Config Section Response CoordState Unit × List TokenUse)
    (h : (Plain prim server).Observed TokenUse.observe FreshTokens
      ((Plain prim server).initial init, []) x) :
    x.2.Pairwise fun newer older => ¬ older.Excludes prim x.1.shared newer := by
  have hspent : SpentTokens prim x.1.shared x.2 := by
    refine h.invariant_shared (fun _ => ⟨⟨⟩, rfl⟩) ⟨hinit, nofun, .nil⟩ ?_ ?_
    · intro s s' h t request hs haccept
      obtain ⟨spawned, rfl⟩ := Request.accept_eq haccept
      exact ⟨hs.distinct, hs.recorded, hs.ordered⟩
    · intro cfg h t e c r s' hs hfresh hat hexec
      obtain ⟨rfl, rfl⟩ := exec_eq hexec
      exact hs.step e (hfresh t e c rfl hat) t
  exact hspent.ordered

/-! ### One invite -/

/-- An invite is created, its download token is taken, it is used to register, and then deleted. -/
def inviteMoves : List (Pool.Move Env Request) :=
  [.spawn 0 (.invite "id" "invite" "download" "" "" 60), .step 0 demoEnv, .step 0 demoEnv,
    .spawn 0 (.download "download"), .step 0 demoEnv, .spawn 0 (.download "download"), .step 0 demoEnv,
    .spawn 1 (.socket 7 [demoRegister "key" "" (some "invite")]), .step 1 demoEnv, .step 1 demoEnv,
    .spawn 2 (.socket 8 [demoRegister "key" "" (some "invite")]), .step 2 demoEnv, .step 2 demoEnv,
    .spawn 0 (.deleteInvite "id"), .step 0 demoEnv]

/-- The download token of the new invite is in no row. -/
def freshly (cfg : Pool.Config Section Response CoordState Unit) : Pool.Move Env Request → Bool
  | .spawn _ _ => true
  | .step t _ =>
    match cfg.at t with
    | some (.insertInvite _ new) =>
      cfg.shared.invites.entries.all fun entry => entry.2.downloadTokenHash != new.downloadTokenHash
    | _ => true

lemma freshTokens_of_freshly {cfg : Pool.Config Section Response CoordState Unit}
    {m : Pool.Move Env Request} (h : freshly cfg m = true) : FreshTokens cfg m := by
  rintro t e _ rfl hat key new rfl key' old hold
  simp only [freshly, hat, List.all_eq_true] at h
  simpa using h ⟨key', old⟩ (AList.mem_lookup_iff.1 hold)

lemma inviteMoves_facts :
    ((Plain demoPrim demoServer).runObserved TokenUse.observe freshly
      ((Plain demoPrim demoServer).initial demoState, []) inviteMoves).map (·.2) =
      some [.deleted "id", .registered "invite", .downloaded "download"] := by
  decide +kernel

lemma demoState_distinctDownloads : demoState.DistinctDownloads := by
  intro key key' row row' hrow hrow' htoken hsome
  have hone : ∀ {key row}, demoState.invites.lookup key = some row →
      key = demoHash (stringBytes "token") := by
    intro key row hrow
    have hmem := AList.mem_lookup_iff.1 hrow
    exact congrArg Sigma.fst (List.mem_singleton.1 hmem)
  exact (hone hrow).trans (hone hrow').symm

theorem tokens_single_use_invite :
    ∃ x : Pool.Config Section Response CoordState Unit × List TokenUse,
      (Plain demoPrim demoServer).Observed TokenUse.observe FreshTokens
        ((Plain demoPrim demoServer).initial demoState, []) x ∧
      x.2 = [.deleted "id", .registered "invite", .downloaded "download"] ∧
      x.2.Pairwise fun newer older => ¬ older.Excludes demoPrim x.1.shared newer := by
  obtain ⟨x, hrun, hfacts⟩ := Option.map_eq_some_iff.1 inviteMoves_facts
  have hobserved : (Plain demoPrim demoServer).Observed TokenUse.observe FreshTokens
      ((Plain demoPrim demoServer).initial demoState, []) x :=
    Pool.Spec.observed_of_run (fun _ _ => freshTokens_of_freshly) _ .refl hrun
  exact ⟨x, hobserved, hfacts, tokens_single_use demoPrim demoServer demoState demoState_distinctDownloads x
    hobserved⟩

/-- **No invite is lost or reopened** by any interleaving of requests. -/
theorem invites_kept (prim : Primitives) (server : Server) (init : CoordState)
    (cfg : Pool.Config Section Response CoordState Unit)
    (h : (Plain prim server).Reachable (fun _ _ => True) ((Plain prim server).initial init) cfg)
    (key : Vector UInt8 32) (row : InviteRow) (hrow : init.invites.lookup key = some row) :
    ∃ row', cfg.shared.invites.lookup key = some row' ∧ row.Ages row' := by
  obtain ⟨_, hobserved⟩ := h.observed TokenUse.observe []
  refine hobserved.invariant_shared (I := fun s _ => ∃ row', s.invites.lookup key = some row' ∧ row.Ages row')
    (fun _ => ⟨⟨⟩, rfl⟩) ⟨row, hrow, .refl row⟩ ?_ ?_
  · intro s s' _ t request hkept haccept
    obtain ⟨spawned, rfl⟩ := Request.accept_eq haccept
    exact hkept
  · rintro cfg _ t e c r s' ⟨row', hrow', hages⟩ _ _ hexec
    obtain ⟨rfl, rfl⟩ := exec_eq hexec
    obtain ⟨row'', hrow'', hages'⟩ := (aged_perform e c cfg.shared).kept key row' hrow'
    exact ⟨row'', hrow'', hages.trans hages'⟩

theorem invites_kept_invite : ∃ cfg : Pool.Config Section Response CoordState Unit,
    cfg.shared.invites.entries.length = 2 ∧ ∀ key row, demoState.invites.lookup key = some row →
      ∃ row', cfg.shared.invites.lookup key = some row' ∧ row.Ages row' := by
  obtain ⟨cfg, hreach, htwo⟩ : {cfg // (Plain demoPrim demoServer).Reachable (fun _ _ => True)
      ((Plain demoPrim demoServer).initial demoState) cfg ∧ cfg.shared.invites.entries.length = 2} :=
    Pool.Spec.reach (fun _ _ => true) (fun _ _ _ => trivial) inviteMoves (by decide +kernel)
  exact ⟨cfg, htwo, invites_kept demoPrim demoServer demoState cfg hreach⟩

end Vela.Coord
