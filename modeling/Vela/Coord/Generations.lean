import Vela.Coord.Content

/-!
# What the generation of a snapshot says

A snapshot shows the rows, the online nodes and the configuration, each read in a section of its own,
and carries the generation that was read after them.

* `generations_ordered` — then the generations order the signed snapshots;
* `revoked_peer_listed` — otherwise a snapshot with the generation of a revocation may still list the
  revoked peer;
* `emitted_verifies` — in every run, what is sent is signed and not ahead of the counter.
-/

namespace Vela.Coord

open Vela.Proto Vela.Crypto Function

variable {prim : Primitives} {server : Server}

/-! ### The history of a run -/

/-- How often each part of the content has changed. -/
structure Versions where
  peers : ℕ
  online : ℕ
  config : ℕ
  deriving DecidableEq

namespace Versions

/-- No part is older. -/
structure le (v w : Versions) : Prop where
  peers : v.peers ≤ w.peers
  online : v.online ≤ w.online
  config : v.config ≤ w.config

lemma le.refl (v : Versions) : v.le v := ⟨le_rfl, le_rfl, le_rfl⟩

lemma le.trans {u v w : Versions} (huv : u.le v) (hvw : v.le w) : u.le w :=
  ⟨huv.peers.trans hvw.peers, huv.online.trans hvw.online, huv.config.trans hvw.config⟩

def after (v : Versions) (before now : Content) : Versions where
  peers := if now.peers = before.peers then v.peers else v.peers + 1
  online := if now.online = before.online then v.online else v.online + 1
  config := if now.config = before.config then v.config else v.config + 1

lemma after_self (v : Versions) (content : Content) : v.after content content = v := by
  simp only [after, if_true]

lemma le_after (v : Versions) (before now : Content) : v.le (v.after before now) := by
  constructor <;> simp only [after] <;> split <;> omega

/-- The versions that a task has read, after it has performed a section in the phase `build` of a
snapshot. -/
def readBy (v now : Versions) (build : Build) : Section → Versions
  | .onlinePeerIds | .onlineSenders => { v with online := now.online }
  | .loadPeers => if build = .online then { v with peers := now.peers } else v
  | .networkConfig => if build = .peers then { v with config := now.config } else v
  | _ => v

end Versions

/-- What has been signed so far, and what it was read from. -/
structure History where
  now : Versions
  /-- what every task has read for the snapshot it builds -/
  read : ℕ → Versions
  signed : List (NetworkSnapshot × Versions)
  /-- the removed nodes whose row no `update_peer` has written since, with the generation of their removal -/
  removed : List (NodeId × UInt64)

namespace History

def start : History where
  now := ⟨0, 0, 0⟩
  read _ := ⟨0, 0, 0⟩
  signed := []
  removed := []

variable (prim server) in
def signedBy (signed : List (NetworkSnapshot × Versions)) (γ : Progress) (read : Versions) :
    (c : Section) → Response c → List (NetworkSnapshot × Versions)
  | .unixTime, now =>
    if γ.build = .generation then (γ.snapshot prim server now, read) :: signed else signed
  | _, _ => signed

/-- A removal is assigned its generation when the counter is raised. -/
def removedBy (removed : List (NodeId × UInt64)) (γ : Progress) (s s' : CoordState) :
    (c : Section) → Response c → List (NodeId × UInt64)
  | .bumpSnapshot, .ok _ =>
    match γ.pending with
    | .changed (.remove n) =>
      if (s.liveRow n).isNone then (n, s'.snapshotGeneration) :: removed else removed
    | _ => removed
  | .updatePeer peer, .ok _ => removed.filter fun entry => entry.1 ≠ peer.nodeId
  | _, _ => removed

variable (prim server) in
def observe (h : History) (t : ℕ) (γ : Progress) (s : CoordState) (c : Section) (r : Response c)
    (s' : CoordState) : History where
  now := h.now.after s.content s'.content
  read := update h.read t ((h.read t).readBy h.now γ.build c)
  signed := signedBy prim server h.signed γ (h.read t) c r
  removed := removedBy h.removed γ s s' c r

/-- **The generations order what was signed**: a snapshot shows no part older than one with a smaller
generation does, those of one generation show the same, and none with the generation of a removal or a
later one lists the removed node. -/
structure Ordered (h : History) : Prop where
  newer : ∀ a v b w, (a, v) ∈ h.signed → (b, w) ∈ h.signed → a.generation ≤ b.generation → v.le w
  equal : ∀ a v b w, (a, v) ∈ h.signed → (b, w) ∈ h.signed → a.generation = b.generation →
    a.peers = b.peers ∧ a.onlinePeers.toFinset = b.onlinePeers.toFinset ∧
      a.dohServers = b.dohServers ∧ a.stunServers = b.stunServers
  removed : ∀ n g a v, (n, g) ∈ h.removed → (a, v) ∈ h.signed → g ≤ a.generation →
    n ∉ a.peers.map PeerInfo.nodeId

end History

/-! ### When snapshots and changes keep apart -/

/-- `network_snapshot` and its caller stand between their first and their last read. -/
def Build.Reading : Build → Prop
  | online | peers | config => True
  | idle | generation => False

/-- The next section of `t` does not let a snapshot see a change half made. -/
structure Serialized (prim : Primitives) (server : Server) (cfg : TrackedCfg) (t : ℕ) (e : Env) :
    Prop where
  /-- while a change is in progress, nobody else reads for a snapshot, -/
  changing : ∀ c, cfg.at t = some c →
    ((cfg.phase t).next prim server c (perform prim server e c cfg.shared).1).pending.Open →
    ∀ u, u ≠ t → ¬ (cfg.phase u).build.Reading
  /-- nobody begins to read while the change of another task is in progress, -/
  reading : ∀ c, cfg.at t = some c → ReadsOnline c → ∀ u, u ≠ t → ¬ (cfg.phase u).pending.Open
  /-- no change is given up halfway, -/
  completed : ∀ c change, cfg.at t = some c →
    ((cfg.phase t).next prim server c (perform prim server e c cfg.shared).1).pending ≠ .failed change
  /-- and a row that is written back with the candidates it had is still in the table. -/
  unchanged : ∀ peer, cfg.at t = some (.updatePeer peer) → (cfg.phase t).stored peer = .none →
    (cfg.shared.loadPeer peer.nodeId).map privatePeer = some (privatePeer peer)

variable {s : CoordState} {c : Section} {e : Env} {γ : Progress} {n : NodeId}

lemma content_updatePeer {peer : StoredPeer}
    (h : (s.loadPeer peer.nodeId).map privatePeer = some (privatePeer peer)) :
    (s.updatePeer peer).content = s.content := by
  have hrows : (s.updatePeer peer).loadPeers.map privatePeer = s.loadPeers.map privatePeer := by
    refine visible_congr fun n => ?_
    by_cases hn : n = peer.nodeId
    · subst hn
      rw [h]
      obtain ⟨listed, hlisted, heq⟩ := Option.map_eq_some_iff.1 h
      obtain ⟨row, hrow, rfl⟩ := Option.map_eq_some_iff.1 hlisted
      have hlookup := (Option.filter_eq_some_iff.1 hrow).1
      -- the addresses that `COALESCE` keeps are those of the listed row
      have hipv4 : row.virtualIpv4 = peer.virtualIpv4 := congrArg PeerInfo.virtualIpv4 heq
      have hipv6 : row.virtualIpv6 = peer.virtualIpv6 := congrArg PeerInfo.virtualIpv6 heq
      simp only [CoordState.loadPeer, CoordState.liveRow, CoordState.updatePeer, AList.lookup_insert,
        hlookup, CoordState.upsertRow, hipv4, hipv6, Option.or_self]
      rfl
    · simp only [CoordState.loadPeer, CoordState.liveRow, CoordState.updatePeer,
        AList.lookup_insert_ne hn]
  unfold CoordState.content
  rw [hrows]
  rfl

/-! ### Drafts -/

/-- The generation of a snapshot, what it shows and which versions were read for it. -/
structure Draft where
  generation : UInt64
  content : Content
  versions : Versions

def Progress.draft (γ : Progress) (versions : Versions) : Draft where
  generation := γ.generation
  content := { peers := γ.peers.map privatePeer, online := γ.online.toFinset, config := γ.config }
  versions := versions

def draftOf (snapshot : NetworkSnapshot) (versions : Versions) : Draft where
  generation := snapshot.generation
  content :=
    { peers := snapshot.peers
      online := snapshot.onlinePeers.toFinset
      config := { dohServers := snapshot.dohServers, stunServers := snapshot.stunServers } }
  versions := versions

/-- The snapshot is signed, or a task is about to sign it. -/
def Drafted (h : History) (φ : ℕ → Progress) (d : Draft) : Prop :=
  (∃ entry ∈ h.signed, d = draftOf entry.1 entry.2) ∨
    ∃ t, (φ t).build = .generation ∧ d = (φ t).draft (h.read t)

/-- The draft of a task that reads the generation now. -/
def newDraft (cfg : TrackedCfg) (h : History) (t : ℕ) : Draft :=
  { (cfg.phase t) with generation := cfg.shared.snapshotGeneration : Progress }.draft (h.read t)

/-- The drafts there are, and the one that a task may be about to make. -/
def DraftedOrNew (cfg : TrackedCfg) (h : History) (t : ℕ) (d : Draft) : Prop :=
  Drafted h cfg.phase d ∨ (cfg.phase t).build = .config ∧ d = newDraft cfg h t

/-! ### After one section -/

lemma readBy_of_generation {v now : Versions} {r : Response c}
    (hbuild : (γ.next prim server c r).build = .generation) :
    v.readBy now γ.build c = v := by
  cases c with
  | onlinePeerIds | onlineSenders => cases hbuild
  | loadPeers | networkConfig =>
    cases r with
    | error => cases hbuild
    | ok _ =>
      simp only [Versions.readBy]
      split
      · rename_i hread
        simp only [Progress.next, if_pos hread] at hbuild
        cases hbuild
      · rfl
  | _ => rfl

lemma readBy_cases (v now : Versions) (build : Build) (c : Section) :
    ((v.readBy now build c).online = v.online ∨ (v.readBy now build c).online = now.online) ∧
      ((v.readBy now build c).peers = v.peers ∨ (v.readBy now build c).peers = now.peers) ∧
      ((v.readBy now build c).config = v.config ∨ (v.readBy now build c).config = now.config) := by
  unfold Versions.readBy
  repeat' split
  all_goals simp

lemma perform_builds (hc : Builds c) (e : Env) (s : CoordState) :
    (perform prim server e c s).2 = s := by
  cases c with
  | loadPeers | networkConfig => exact Env.database_state (P := fun s' => s' = s) rfl rfl
  | recv | onlinePeerIds | onlineSenders | loadGeneration | unixTime => rfl
  | _ => cases hc

/-- The state, the phases and the history after a task has performed a section. -/
structure Performed (prim : Primitives) (server : Server) (cfg : TrackedCfg) (h : History) (t : ℕ)
    (e : Env) (c : Section) (s' : CoordState) (φ' : ℕ → Progress) (h' : History) : Prop where
  state : (perform prim server e c cfg.shared).2 = s'
  phase : update cfg.phase t
    ((cfg.phase t).next prim server c (perform prim server e c cfg.shared).1) = φ'
  history : h.observe prim server t (cfg.phase t) cfg.shared c (perform prim server e c cfg.shared).1
    s' = h'

/-- What a task has read for its snapshot is what the server still shows. -/
structure ReadsCurrent (s : CoordState) (h : History) (t : ℕ) (γ : Progress) : Prop where
  online : γ.build.Reading → γ.online.toFinset = s.content.online ∧ (h.read t).online = h.now.online
  peers : γ.build = .peers ∨ γ.build = .config →
    γ.peers.map privatePeer = s.content.peers ∧ (h.read t).peers = h.now.peers
  config : γ.build = .config → γ.config = s.content.config ∧ (h.read t).config = h.now.config

/-- A draft with the current generation shows what the server shows, unless a change is waiting for
its generation. -/
structure UpToDate (s : CoordState) (φ : ℕ → Progress) (h : History) (d : Draft) : Prop where
  generation : d.generation.toNat ≤ s.snapshotGeneration.toNat
  versions : d.versions.le h.now
  latest : d.generation.toNat = s.snapshotGeneration.toNat →
    (∀ t change, (φ t).pending ≠ .bumped change) ∧
      ((d.content = s.content ∧ d.versions = h.now) ∨ ∃ t change, (φ t).pending = .changed change)

/-- The node has no row, and no draft with that generation or a later one lists it. -/
structure Gone (s : CoordState) (φ : ℕ → Progress) (h : History) (n : NodeId) (g : UInt64) : Prop where
  row : s.liveRow n = none
  generation : g.toNat ≤ s.snapshotGeneration.toNat
  unlisted : ∀ d, Drafted h φ d → g.toNat ≤ d.generation.toNat →
    n ∉ d.content.peers.map PeerInfo.nodeId

structure GenerationsHold (s : CoordState) (φ : ℕ → Progress) (h : History) : Prop where
  apart : ∀ t u, (φ t).pending.Open → ¬ (φ u).build.Reading
  current : ∀ t, ReadsCurrent s h t (φ t)
  drafts : ∀ d, Drafted h φ d → UpToDate s φ h d
  ordered : ∀ a b, Drafted h φ a → Drafted h φ b → a.generation.toNat ≤ b.generation.toNat →
    a.versions.le b.versions
  equal : ∀ a b, Drafted h φ a → Drafted h φ b → a.generation.toNat = b.generation.toNat →
    a.content = b.content
  removed : ∀ n g, (n, g) ∈ h.removed → Gone s φ h n g

section

variable {s s' : CoordState} {φ φ' : ℕ → Progress} {h h' : History} {t : ℕ} {γ γ' : Progress}

lemma Progress.SameBuild.refl (γ : Progress) : γ.SameBuild γ := ⟨rfl, rfl, rfl, rfl, rfl, rfl⟩

lemma reading_of_peers (hbuild : γ.build = .peers ∨ γ.build = .config) : γ.build.Reading := by
  rcases hbuild with hbuild | hbuild <;> rw [hbuild] <;> trivial

lemma ReadsCurrent.of_not_reading (hbuild : ¬ γ.build.Reading) : ReadsCurrent s h t γ :=
  ⟨fun hreading => absurd hreading hbuild, fun hpeers => absurd (reading_of_peers hpeers) hbuild,
    fun hconfig => absurd (reading_of_peers (.inr hconfig)) hbuild⟩

lemma ReadsCurrent.of_same (hcurrent : ReadsCurrent s h t γ) (hsame : γ.SameBuild γ')
    (hstable : γ.build.Reading → s'.content = s.content ∧ h'.now = h.now)
    (honline : (h'.read t).online = (h.read t).online ∨ (h'.read t).online = h.now.online)
    (hpeers : (h'.read t).peers = (h.read t).peers ∨ (h'.read t).peers = h.now.peers)
    (hconfig : (h'.read t).config = (h.read t).config ∨ (h'.read t).config = h.now.config) :
    ReadsCurrent s' h' t γ' := by
  refine ⟨fun hbuild => ?_, fun hbuild => ?_, fun hbuild => ?_⟩
  · rw [hsame.build] at hbuild
    obtain ⟨hcontent, hnow⟩ := hstable hbuild
    rw [hsame.online, hcontent, hnow]
    exact (hcurrent.online hbuild).imp_right fun hread => honline.elim (·.trans hread) id
  · rw [hsame.build] at hbuild
    obtain ⟨hcontent, hnow⟩ := hstable (reading_of_peers hbuild)
    rw [hsame.peers, hcontent, hnow]
    exact (hcurrent.peers hbuild).imp_right fun hread => hpeers.elim (·.trans hread) id
  · rw [hsame.build] at hbuild
    obtain ⟨hcontent, hnow⟩ := hstable (reading_of_peers (Or.inr hbuild))
    rw [hsame.config, hcontent, hnow]
    exact (hcurrent.config hbuild).imp_right fun hread => hconfig.elim (·.trans hread) id

lemma UpToDate.of_quiet {d : Draft} (hd : UpToDate s φ h d) (hcontent : s'.content = s.content)
    (hgeneration : s'.snapshotGeneration = s.snapshotGeneration) (hnow : h'.now = h.now)
    (hpending : ∀ u, (φ' u).pending = (φ u).pending ∨ (φ' u).pending = .none ∧ ¬ (φ u).pending.Open) :
    UpToDate s' φ' h' d := by
  refine ⟨hgeneration ▸ hd.generation, hnow ▸ hd.versions, fun hlatest => ?_⟩
  rw [hgeneration] at hlatest
  rw [hcontent, hnow]
  obtain ⟨hbumped, hrest⟩ := hd.latest hlatest
  refine ⟨fun u change hu => ?_, hrest.imp_right ?_⟩
  · rcases hpending u with heq | ⟨heq, -⟩
    · exact hbumped u change (heq ▸ hu)
    · cases heq.symm.trans hu
  · rintro ⟨u, change, hu⟩
    rcases hpending u with heq | ⟨-, hclosed⟩
    · exact ⟨u, change, heq.trans hu⟩
    · rw [hu] at hclosed
      exact absurd trivial hclosed

end

namespace Performed

variable {cfg : TrackedCfg} {h h' : History} {t : ℕ} {e : Env} {c : Section} {s' : CoordState}
  {φ' : ℕ → Progress} (hp : Performed prim server cfg h t e c s' φ' h')
include hp

lemma own :
    (cfg.phase t).next prim server c (perform prim server e c cfg.shared).1 = φ' t := by
  rw [← hp.phase, update_self]

variable {u : ℕ} {d : Draft}

lemma other (hut : u ≠ t) : φ' u = cfg.phase u := by
  rw [← hp.phase, update_of_ne hut]

lemma build : BuildStep prim server cfg.shared (cfg.phase t) (φ' t) c :=
  hp.own ▸ buildStep_next e c cfg.shared (cfg.phase t)

lemma change (hok : (cfg.phase t).Allows prim c) :
    ChangeStep cfg.shared s' (cfg.phase t) (φ' t) c := by
  have hstep := @changeStep_perform prim server e c cfg.shared _ hok
  rwa [hp.own, hp.state] at hstep

lemma read : h'.read t = (h.read t).readBy h.now (cfg.phase t).build c := by
  rw [← hp.history]
  exact update_self ..

lemma read_other (hut : u ≠ t) : h'.read u = h.read u := by
  rw [← hp.history]
  exact update_of_ne hut ..

lemma now (hcontent : s'.content = cfg.shared.content) : h'.now = h.now := by
  rw [← hp.history]
  simp only [History.observe, hcontent, Versions.after_self]

lemma drafted (hd : Drafted h' φ' d) :
    Drafted h cfg.phase d ∨ c = .loadGeneration ∧ (cfg.phase t).build = .config ∧
      d = newDraft cfg h t := by
  rcases hd with ⟨entry, hentry, rfl⟩ | ⟨u, hbuild, rfl⟩
  · -- what is signed now was a draft
    have hold : entry ∈ h.signed → Drafted h cfg.phase (draftOf entry.1 entry.2) :=
      fun hmem => .inl ⟨entry, hmem, rfl⟩
    refine .inl ?_
    rw [← hp.history] at hentry
    cases c with
    | unixTime =>
      by_cases hbuild : (cfg.phase t).build = .generation
      · simp only [History.observe, History.signedBy, if_pos hbuild] at hentry
        rcases List.mem_cons.1 hentry with rfl | hmem
        · exact .inr ⟨t, hbuild, rfl⟩
        · exact hold hmem
      · simp only [History.observe, History.signedBy, if_neg hbuild] at hentry
        exact hold hentry
    | _ => exact hold hentry
  · by_cases hut : u = t
    · subst hut
      rw [hp.read, readBy_of_generation (hp.own ▸ hbuild)]
      cases hp.build with
      | same _ hsame =>
        refine .inl (.inr ⟨u, hsame.build ▸ hbuild, ?_⟩)
        unfold Progress.draft
        rw [hsame.generation, hsame.peers, hsame.online, hsame.config]
      | dropped _ hidle => cases hidle.symm.trans hbuild
      | generation hconfig heq => exact .inr ⟨rfl, hconfig, by rw [heq]; rfl⟩
      | begun _ _ _ _ heq | peers _ heq | config _ heq | signed _ _ heq =>
        rw [heq] at hbuild
        cases hbuild
    · rw [hp.other hut] at hbuild ⊢
      rw [hp.read_other hut]
      exact .inl (.inr ⟨u, hbuild, rfl⟩)

lemma draftedOrNew (hd : Drafted h' φ' d) : DraftedOrNew cfg h t d :=
  (hp.drafted hd).imp_right And.right

lemma reading (hreading : (φ' t).build.Reading) :
    (cfg.phase t).build.Reading ∨ ReadsOnline c := by
  cases hp.build with
  | same _ hsame => exact .inl (hsame.build ▸ hreading)
  | begun _ _ hc => exact .inr hc
  | peers hbuild | config hbuild =>
    rw [hbuild]
    exact .inl trivial
  | dropped _ heq =>
    rw [heq] at hreading
    cases hreading
  | generation _ heq | signed _ _ heq =>
    rw [heq] at hreading
    cases hreading

lemma closed_of_readsOnline (hc : ReadsOnline c) (hok : (cfg.phase t).Allows prim c) :
    ¬ (φ' t).pending.Open := by
  rw [← hp.own]
  cases c with
  | onlinePeerIds | onlineSenders => exact not_open_of_settled hok
  | _ => cases hc

lemma readsCurrent (hcurrent : ReadsCurrent cfg.shared h t (cfg.phase t))
    (hstable : (cfg.phase t).build.Reading → s'.content = cfg.shared.content) :
    ReadsCurrent s' h' t (φ' t) := by
  have hread := hp.read
  have hnow := hp.now
  have hstate := hp.state
  have hkept : Builds c → cfg.shared = s' := fun hc => (perform_builds hc e cfg.shared).symm.trans hstate
  cases hp.build with
  | same _ hsame =>
    obtain ⟨honline, hpeers, hconfig⟩ := readBy_cases (h.read t) h.now (cfg.phase t).build c
    rw [← hread] at honline hpeers hconfig
    exact hcurrent.of_same hsame (fun hbuild => ⟨hstable hbuild, hnow (hstable hbuild)⟩) honline hpeers
      hconfig
  | dropped _ hidle => exact .of_not_reading (by rw [hidle]; exact id)
  | generation _ heq | signed _ _ heq => exact .of_not_reading (by rw [heq]; exact id)
  | begun _ ids hc hids heq =>
    have hbuilds : Builds c := by
      cases c <;> trivial
    obtain rfl := hkept hbuilds
    rw [heq]
    refine ⟨fun _ => ⟨List.toFinset_eq_of_perm _ _ hids, ?_⟩, nofun, nofun⟩
    rw [hread, hnow rfl]
    cases c <;> first | rfl | cases hc
  | peers hbuild heq =>
    obtain rfl := hkept trivial
    obtain ⟨honline, hversion⟩ := hcurrent.online (by rw [hbuild]; trivial)
    simp only [Versions.readBy, if_pos hbuild] at hread
    rw [heq]
    refine ⟨fun _ => ⟨honline, ?_⟩, fun _ => ⟨rfl, ?_⟩, nofun⟩
    · rw [hread, hnow rfl, ← hversion]
    · rw [hread, hnow rfl]
  | config hbuild heq =>
    obtain rfl := hkept trivial
    obtain ⟨honline, hversion⟩ := hcurrent.online (by rw [hbuild]; trivial)
    obtain ⟨hpeers, hversion'⟩ := hcurrent.peers (.inl hbuild)
    simp only [Versions.readBy, if_pos hbuild] at hread
    rw [heq]
    refine ⟨fun _ => ⟨honline, ?_⟩, fun _ => ⟨hpeers, ?_⟩, fun _ => ⟨rfl, ?_⟩⟩
    · rw [hread, hnow rfl, ← hversion]
    · rw [hread, hnow rfl, ← hversion']
    · rw [hread, hnow rfl]

section Step

variable (hinv : GenerationsHold cfg.shared cfg.phase h) (hguard : Serialized prim server cfg t e)
  (hat : cfg.at t = some c) (hok : (cfg.phase t).Allows prim c)
include hguard hat

lemma completed (change : Change) : (φ' t).pending ≠ .failed change :=
  hp.own ▸ hguard.completed c change hat

include hok hinv

lemma stable_of_reading {u : ℕ} (hu : (cfg.phase u).build.Reading) :
    s'.content = cfg.shared.content := by
  cases hp.change hok with
  | quiet _ hcontent => exact hcontent
  | failed _ change hpending => exact absurd hpending (hp.completed hguard hat change)
  | changed _ change _ hbuild _ hpending =>
    have hopen : (φ' t).pending.Open := by
      rw [hpending]
      trivial
    by_cases hut : u = t
    · rw [hut, hbuild] at hu
      cases hu
    · exact absurd hu (hguard.changing c hat (hp.own ▸ hopen) u hut)
  | rewritten peer hstored hstate =>
    rw [hstate]
    exact content_updatePeer (hguard.unchanged peer hat hstored)
  | bumped change hcontent => exact hcontent
  | finished _ change _ hbefore =>
    refine absurd hu (hinv.apart t u ?_)
    rw [hbefore]
    trivial

lemma apart (v u : ℕ) (hopen : (φ' v).pending.Open) : ¬ (φ' u).build.Reading := by
  intro hreading
  by_cases hut : u = t
  · subst hut
    have hbefore := hp.reading hreading
    by_cases hvu : v = u
    · subst hvu
      rcases hbefore with hbefore | hc
      · -- a task that reads for a snapshot does not begin a change
        cases hp.change hok with
        | quiet _ _ _ hpending =>
          rcases hpending with hpending | ⟨hpending, -⟩
          · exact hinv.apart v v (hpending ▸ hopen) hbefore
          · rw [hpending] at hopen
            cases hopen
        | changed _ _ _ hbuild =>
          rw [hbuild] at hbefore
          cases hbefore
        | bumped _ _ _ hchanged =>
          refine hinv.apart v v ?_ hbefore
          rw [hchanged]
          trivial
        | failed _ _ hpending | rewritten _ _ _ _ hpending | finished _ _ _ _ hpending =>
          rw [hpending] at hopen
          cases hopen
      · exact hp.closed_of_readsOnline hc hok hopen
    · rw [hp.other hvu] at hopen
      rcases hbefore with hbefore | hc
      · exact hinv.apart v u hopen hbefore
      · exact hguard.reading c hat hc v hvu hopen
  · rw [hp.other hut] at hreading
    by_cases hvt : v = t
    · subst hvt
      exact hguard.changing c hat (hp.own ▸ hopen) u hut hreading
    · rw [hp.other hvt] at hopen
      exact hinv.apart v u hopen hreading

lemma current (u : ℕ) : ReadsCurrent s' h' u (φ' u) := by
  have hstable := fun u hu => hp.stable_of_reading hinv hguard hat hok (u := u) hu
  by_cases hut : u = t
  · subst hut
    exact hp.readsCurrent (hinv.current u) (hstable u)
  · rw [hp.other hut]
    have hread := hp.read_other hut
    exact (hinv.current u).of_same (.refl _) (fun hbuild => ⟨hstable u hbuild, hp.now (hstable u hbuild)⟩)
      (.inl (by rw [hread])) (.inl (by rw [hread])) (.inl (by rw [hread]))

omit hinv in
lemma upToDate {d : Draft} (hd : UpToDate cfg.shared cfg.phase h d) : UpToDate s' φ' h' d := by
  have hversions : d.versions.le h'.now := by
    rw [← hp.history]
    exact hd.versions.trans (Versions.le_after ..)
  have hpending : (φ' t).pending = (cfg.phase t).pending ∨ (φ' t).pending = .none ∧
      ¬ (cfg.phase t).pending.Open → ∀ u, (φ' u).pending = (cfg.phase u).pending ∨
        (φ' u).pending = .none ∧ ¬ (cfg.phase u).pending.Open := by
    intro hown u
    by_cases hut : u = t
    · exact hut ▸ hown
    · exact Or.inl (by rw [hp.other hut])
  have hnow := hp.now
  cases hp.change hok with
  | quiet _ hcontent hgeneration hown =>
    exact hd.of_quiet hcontent hgeneration (hnow hcontent) (hpending hown)
  | failed _ change hfailed => exact absurd hfailed (hp.completed hguard hat change)
  | rewritten peer hstored hstate hbefore hafter =>
    have hcontent : s'.content = cfg.shared.content := by
      rw [hstate]
      exact content_updatePeer (hguard.unchanged peer hat hstored)
    exact hd.of_quiet hcontent (by rw [hstate]; rfl) (hnow hcontent)
      (hpending (Or.inl (hafter.trans hbefore.symm)))
  | changed _ change hgeneration _ _ hchanged =>
    refine ⟨hgeneration ▸ hd.generation, hversions, fun hlatest => ⟨fun u change hu => ?_, ?_⟩⟩
    · rw [hgeneration] at hlatest
      by_cases hut : u = t
      · rw [hut, hchanged] at hu
        cases hu
      · rw [hp.other hut] at hu
        exact (hd.latest hlatest).1 u change hu
    · exact Or.inr ⟨t, change, hchanged⟩
  | bumped change _ hgeneration =>
    have hle := hd.generation
    refine ⟨by omega, hversions, fun hlatest => ?_⟩
    omega
  | finished _ change hgeneration hbefore =>
    refine ⟨hgeneration ▸ hd.generation, hversions, fun hlatest => ?_⟩
    -- no draft has the generation that the change has raised
    rw [hgeneration] at hlatest
    exact absurd hbefore ((hd.latest hlatest).1 t change)

end Step

end Performed

section Pairs

variable {cfg : TrackedCfg} {h : History} {t : ℕ}

variable (hinv : GenerationsHold cfg.shared cfg.phase h)
include hinv

variable {d a b : Draft}

lemma latest_of_reading {u : ℕ} (hu : (cfg.phase u).build.Reading)
    (hd : UpToDate cfg.shared cfg.phase h d)
    (hlatest : d.generation.toNat = cfg.shared.snapshotGeneration.toNat) :
    d.content = cfg.shared.content ∧ d.versions = h.now := by
  rcases (hd.latest hlatest).2 with hsame | ⟨v, change, hv⟩
  · exact hsame
  · refine absurd hu (hinv.apart v u ?_)
    rw [hv]
    trivial

lemma newDraft_current (hbuild : (cfg.phase t).build = .config) :
    (newDraft cfg h t).content = cfg.shared.content ∧ (newDraft cfg h t).versions = h.now := by
  have hcurrent := hinv.current t
  obtain ⟨honline, hversion⟩ := hcurrent.online (by rw [hbuild]; trivial)
  obtain ⟨hpeers, hversion'⟩ := hcurrent.peers (Or.inr hbuild)
  obtain ⟨hconfig, hversion''⟩ := hcurrent.config hbuild
  constructor
  · unfold newDraft Progress.draft
    simp only [honline, hpeers, hconfig]
  · show h.read t = h.now
    cases hread : h.read t
    cases hnow : h.now
    rw [hread, hnow] at hversion hversion' hversion''
    simp only at hversion hversion' hversion''
    rw [hversion, hversion', hversion'']

lemma upToDate_of_drafted (hd : DraftedOrNew cfg h t d) : UpToDate cfg.shared cfg.phase h d := by
  rcases hd with hd | ⟨hbuild, rfl⟩
  · exact hinv.drafts d hd
  · obtain ⟨hcontent, hversions⟩ := newDraft_current hinv hbuild
    refine ⟨le_rfl, ?_, fun _ => ⟨fun u change hu => ?_, .inl ⟨hcontent, hversions⟩⟩⟩
    · rw [hversions]
      exact .refl _
    · refine hinv.apart u t ?_ (reading_of_peers (.inr hbuild))
      rw [hu]
      trivial

lemma ordered_of_drafted (ha : DraftedOrNew cfg h t a) (hb : DraftedOrNew cfg h t b)
    (hle : a.generation.toNat ≤ b.generation.toNat) : a.versions.le b.versions := by
  have hupa := upToDate_of_drafted hinv ha
  have hupb := upToDate_of_drafted hinv hb
  rcases hb with hb | ⟨hbuild, rfl⟩
  · rcases ha with ha | ⟨hbuild, rfl⟩
    · exact hinv.ordered a b ha hb hle
    · -- the other one has the current generation, too
      have hreading := reading_of_peers (Or.inr hbuild)
      have hbound := hupb.generation
      have hlatest : b.generation.toNat = cfg.shared.snapshotGeneration.toNat := by
        have hnew : (newDraft cfg h t).generation = cfg.shared.snapshotGeneration := rfl
        rw [hnew] at hle
        omega
      rw [(newDraft_current hinv hbuild).2, (latest_of_reading hinv hreading hupb hlatest).2]
      exact .refl _
  · rw [(newDraft_current hinv hbuild).2]
    exact hupa.versions

lemma equal_of_drafted (ha : DraftedOrNew cfg h t a) (hb : DraftedOrNew cfg h t b)
    (heq : a.generation.toNat = b.generation.toNat) : a.content = b.content := by
  have hupa := upToDate_of_drafted hinv ha
  have hupb := upToDate_of_drafted hinv hb
  -- where one of them is new, both show the current content
  have hboth : (cfg.phase t).build = .config →
      b.generation.toNat = cfg.shared.snapshotGeneration.toNat → a.content = b.content := by
    intro hbuild hlatest
    have hreading := reading_of_peers (.inr hbuild)
    rw [(latest_of_reading hinv hreading hupb hlatest).1,
      (latest_of_reading hinv hreading hupa (heq.trans hlatest)).1]
  have hnew : (newDraft cfg h t).generation = cfg.shared.snapshotGeneration := rfl
  rcases hb with hb | ⟨hbuild, rfl⟩
  · rcases ha with ha | ⟨hbuild, rfl⟩
    · exact hinv.equal a b ha hb heq
    · rw [hnew] at heq
      exact hboth hbuild heq.symm
  · exact hboth hbuild rfl

lemma unlisted_of_drafted {n : NodeId} {g : UInt64} (hgone : Gone cfg.shared cfg.phase h n g)
    (hd : DraftedOrNew cfg h t d) (hle : g.toNat ≤ d.generation.toNat) :
    n ∉ d.content.peers.map PeerInfo.nodeId := by
  rcases hd with hd | ⟨hbuild, rfl⟩
  · exact hgone.unlisted d hd hle
  · rw [(newDraft_current hinv hbuild).1]
    intro hlisted
    obtain ⟨info, hinfo, rfl⟩ := List.mem_map.1 hlisted
    have hvisible := mem_visible.1 hinfo
    rw [CoordState.loadPeer, hgone.row] at hvisible
    cases hvisible

end Pairs

/-! ### Removed nodes -/

lemma liveRow_none_perform (hc : ∀ peer, c = .updatePeer peer → e.fault = none → n ≠ peer.nodeId)
    (h : s.liveRow n = none) : (perform prim server e c s).2.liveRow n = none := by
  by_cases hstored : ∃ peer, c = .updatePeer peer ∧ peer.nodeId = n
  · obtain ⟨peer, rfl, rfl⟩ := hstored
    cases hfault : e.fault with
    | some error =>
      simp only [perform, Env.database, hfault]
      exact h
    | none => exact absurd rfl (hc peer rfl hfault)
  · have hstep := @rowStep_perform prim server e c s n
    unfold CoordState.liveRow at h ⊢
    generalize (perform prim server e c s).2.peers.lookup n = after at hstep ⊢
    generalize s.peers.lookup n = before at hstep h
    cases hstep with
    | same => exact h
    | noted _ row =>
      rw [Option.filter_eq_none_iff] at h ⊢
      rintro _ ⟨⟩
      exact h row rfl
    | stored peer _ hn => exact absurd ⟨peer, rfl, hn⟩ hstored
    | revoked => rfl
    | deleted => rfl

lemma generation_of_bump {u : Unit} (h : (perform prim server e .bumpSnapshot s).1 = .ok u) :
    (perform prim server e .bumpSnapshot s).2.snapshotGeneration.toNat =
      s.snapshotGeneration.toNat + 1 := by
  revert h
  simp only [perform, Env.database]
  split
  · simp
  · by_cases hbound : s.snapshotGeneration.toNat + 1 < 2 ^ 63
    · exact fun _ => bumpSnapshot_ok hbound
    · simp only [CoordState.bumpSnapshot, if_neg hbound]
      simp

lemma mem_removedBy {removed : List (NodeId × UInt64)} {g : UInt64}
    (h : (n, g) ∈ History.removedBy removed γ s (perform prim server e c s).2 c
      (perform prim server e c s).1) :
    ((n, g) ∈ removed ∧ ∀ peer, c = .updatePeer peer → e.fault = none → n ≠ peer.nodeId) ∨
      c = .bumpSnapshot ∧ s.liveRow n = none ∧
        g = (perform prim server e c s).2.snapshotGeneration ∧
        (perform prim server e c s).2.snapshotGeneration.toNat = s.snapshotGeneration.toNat + 1 := by
  cases c with
  | bumpSnapshot =>
    cases hr : (perform prim server e .bumpSnapshot s).1 with
    | error error =>
      rw [hr] at h
      exact .inl ⟨h, (by simp)⟩
    | ok u =>
      rw [hr] at h
      simp only [History.removedBy] at h
      split at h
      · split at h
        · rename_i m hpending hnone
          rcases List.mem_cons.1 h with heq | hmem
          · cases heq
            exact .inr ⟨rfl, Option.isNone_iff_eq_none.1 hnone, rfl, generation_of_bump hr⟩
          · exact .inl ⟨hmem, (by simp)⟩
        · exact .inl ⟨h, (by simp)⟩
      · exact .inl ⟨h, (by simp)⟩
  | updatePeer peer =>
    refine .inl ?_
    cases hfault : e.fault with
    | some error =>
      simp only [perform, Env.database, hfault, History.removedBy] at h
      exact ⟨h, (by simp)⟩
    | none =>
      simp only [perform, Env.database, hfault, History.removedBy] at h
      obtain ⟨hmem, hne⟩ := List.mem_filter.1 h
      refine ⟨hmem, fun written heq _ => ?_⟩
      rw [← Section.updatePeer.inj heq]
      exact of_decide_eq_true hne
  | _ => exact .inl ⟨h, (by simp)⟩

lemma generation_mono (e : Env) (c : Section) (s : CoordState) :
    s.snapshotGeneration.toNat ≤ (perform prim server e c s).2.snapshotGeneration.toNat := by
  by_cases hc : c = .bumpSnapshot
  · subst hc
    refine Env.database_state (P := fun s' => s.snapshotGeneration.toNat ≤ s'.snapshotGeneration.toNat)
      le_rfl ?_
    by_cases hbound : s.snapshotGeneration.toNat + 1 < 2 ^ 63
    · rw [bumpSnapshot_ok hbound]
      omega
    · simp only [CoordState.bumpSnapshot, if_neg hbound]
      exact le_rfl
  · rw [generation_perform hc]

namespace Performed

variable {cfg : TrackedCfg} {h h' : History} {t : ℕ} {e : Env} {c : Section} {s' : CoordState}
  {φ' : ℕ → Progress} (hp : Performed prim server cfg h t e c s' φ' h')
  (hinv : GenerationsHold cfg.shared cfg.phase h)
include hp hinv

lemma removed (n : NodeId) (g : UInt64) (hmem : (n, g) ∈ h'.removed) : Gone s' φ' h' n g := by
  have hstate := hp.state
  have hdrafted := fun d hd => hp.drafted (d := d) hd
  rw [← hp.history, ← hstate] at hmem
  rcases mem_removedBy hmem with ⟨hmem, hwritten⟩ | ⟨rfl, hrow, rfl, hraised⟩
  · have hgone := hinv.removed n g hmem
    refine ⟨hstate ▸ liveRow_none_perform hwritten hgone.row, ?_, fun d hd hle => ?_⟩
    · exact hstate ▸ hgone.generation.trans (generation_mono e c cfg.shared)
    · exact unlisted_of_drafted hinv hgone (hp.draftedOrNew hd) hle
  · -- every draft was read before the counter was raised
    refine ⟨hstate ▸ liveRow_none_perform nofun hrow, by rw [hstate], fun d hd hle => ?_⟩
    rcases hdrafted d hd with hd | ⟨hc, -⟩
    · have hbound := (hinv.drafts d hd).generation
      omega
    · cases hc

/-- **One section keeps the order of the generations.** -/
theorem generationsHold (hguard : Serialized prim server cfg t e) (hat : cfg.at t = some c)
    (hok : (cfg.phase t).Allows prim c) : GenerationsHold s' φ' h' where
  apart := hp.apart hinv hguard hat hok
  current := hp.current hinv hguard hat hok
  drafts _ hd := hp.upToDate hguard hat hok (upToDate_of_drafted hinv (hp.draftedOrNew hd))
  ordered _ _ ha hb := ordered_of_drafted hinv (hp.draftedOrNew ha) (hp.draftedOrNew hb)
  equal _ _ ha hb := equal_of_drafted hinv (hp.draftedOrNew ha) (hp.draftedOrNew hb)
  removed := hp.removed hinv

end Performed

lemma generationsHold_spawn {s' : CoordState} {φ : ℕ → Progress} {h : History} {t : ℕ} {q : Request}
    (hinv : GenerationsHold s φ h) (hdone : (φ t).Done) (ha : q.accept s = some s') :
    GenerationsHold s' (update φ t Progress.idle) h := by
  obtain ⟨spawned, rfl⟩ := Request.accept_eq ha
  -- every other task stands where it stood
  have hphase : ∀ u, update φ t Progress.idle u = φ u ∨
      update φ t Progress.idle u = .idle ∧ ¬ (φ u).pending.Open := by
    intro u
    by_cases hut : u = t
    · subst hut
      exact .inr ⟨update_self .., not_open_of_settled hdone.1⟩
    · exact .inl (update_of_ne hut ..)
  have hdrafted : ∀ d, Drafted h (update φ t Progress.idle) d → Drafted h φ d := by
    rintro d (hsigned | ⟨u, hbuild, rfl⟩)
    · exact .inl hsigned
    · rcases hphase u with heq | ⟨heq, -⟩ <;> rw [heq] at hbuild ⊢
      · exact .inr ⟨u, hbuild, rfl⟩
      · cases hbuild
  refine ⟨fun v u hopen hreading => ?_, ?_, fun d hd => ?_, fun a b ha hb => ?_, fun a b ha hb => ?_,
    fun n g hmem => ?_⟩
  · rcases hphase v with hv | ⟨hv, -⟩ <;> rw [hv] at hopen
    · rcases hphase u with hu | ⟨hu, -⟩ <;> rw [hu] at hreading
      · exact hinv.apart v u hopen hreading
      · cases hreading
    · cases hopen
  · exact Pool.forall_update
      ⟨nofun, nofun, nofun⟩
      fun u => (hinv.current u).of_same (.refl _) (fun _ => ⟨rfl, rfl⟩) (.inl rfl) (.inl rfl) (.inl rfl)
  · refine (hinv.drafts d (hdrafted d hd)).of_quiet rfl rfl rfl fun u => ?_
    exact (hphase u).imp (congrArg Progress.pending) (And.imp_left (congrArg Progress.pending))
  · exact hinv.ordered a b (hdrafted a ha) (hdrafted b hb)
  · exact hinv.equal a b (hdrafted a ha) (hdrafted b hb)
  · have hgone := hinv.removed n g hmem
    exact ⟨hgone.row, hgone.generation, fun d hd => hgone.unlisted d (hdrafted d hd)⟩

/-! ### The order of the generations -/

/-- The condition on the moves of a run. -/
def SerializedMove (prim : Primitives) (server : Server) (cfg : TrackedCfg) :
    Pool.Move Env Request → Prop
  | .spawn _ _ => True
  | .step t e => Serialized prim server cfg t e

/-- **Generations order content**, in every run in which snapshots are not read while a change is in
progress. -/
theorem generations_ordered (prim : Primitives) (server : Server) (init : CoordState)
    (x : TrackedCfg × History)
    (h : (Tracked prim server).Observed (History.observe prim server) (SerializedMove prim server)
      ((Tracked prim server).initial init, History.start) x) : x.2.Ordered := by
  have hstart : GenerationsHold init (fun _ => Progress.idle) History.start := by
    have hnone : ∀ d, ¬ Drafted History.start (fun _ => Progress.idle) d := by
      rintro d (⟨entry, hentry, -⟩ | ⟨t, hbuild, -⟩)
      · cases hentry
      · cases hbuild
    refine ⟨fun _ _ hopen => (by cases hopen), fun t => ⟨nofun, nofun, nofun⟩,
      fun d hd => absurd hd (hnone d), fun a b ha => absurd ha (hnone a),
      fun a b ha => absurd ha (hnone a), fun n g hmem => (by cases hmem)⟩
  have hinv : GenerationsHold x.1.shared x.1.phase x.2 := by
    refine (h.invariant (fun t => ⟨⟨⟩, rfl⟩) (fun _ => ⟨trivial, rfl⟩) hstart
      (fun _ _ q _ => body_progresses q) ?_ ?_).1
    · intro s s' φ history t q hinv hdone ha
      exact generationsHold_spawn hinv hdone ha
    · intro cfg history t e c r s' hinv hguard hat hok hexec
      obtain ⟨rfl, rfl⟩ := Prod.mk.inj (Option.some.inj hexec)
      exact Performed.generationsHold ⟨rfl, rfl, rfl⟩ hinv hguard hat hok
  have hsigned : ∀ a v, (a, v) ∈ x.2.signed → Drafted x.2 x.1.phase (draftOf a v) :=
    fun a v hmem => .inl ⟨(a, v), hmem, rfl⟩
  refine ⟨fun a v b w ha hb hle => ?_, fun a v b w ha hb heq => ?_, fun n g a v hmem ha hle => ?_⟩
  · exact hinv.ordered _ _ (hsigned a v ha) (hsigned b w hb) (UInt64.le_iff_toNat_le.1 hle)
  · have hcontent := hinv.equal _ _ (hsigned a v ha) (hsigned b w hb) (congrArg UInt64.toNat heq)
    have hconfig := congrArg Content.config hcontent
    exact ⟨congrArg Content.peers hcontent, congrArg Content.online hcontent,
      congrArg ServerNetworkConfig.dohServers hconfig, congrArg ServerNetworkConfig.stunServers hconfig⟩
  · exact (hinv.removed n g hmem).unlisted _ (hsigned a v ha) (UInt64.le_iff_toNat_le.1 hle)

/-! ### A revocation in the middle of a snapshot -/

section Late

/-- A client asks for a snapshot; when the rows are read, its peer is revoked and the generation is
raised; then the snapshot goes on. -/
def lateMoves : List (Pool.Move Env Request) :=
  .spawn 0 demoClient :: (List.replicate 21 (.step 0 demoEnv) ++
    .spawn 1 (.revoke demoNode) :: (List.replicate 2 (.step 1 demoEnv) ++
      List.replicate 3 (.step 0 demoEnv)))

/-- Whether the snapshot signed last has the generation of the last removal and lists its node. -/
def listsRemoved (h : History) : Bool :=
  match h.removed.head?, h.signed.head? with
  | some (n, g), some (snapshot, _) =>
    decide (g ≤ snapshot.generation) && (snapshot.peers.map PeerInfo.nodeId).contains n
  | _, _ => false

lemma lateMoves_facts :
    ((Tracked demoPrim demoServer).runObserved (History.observe demoPrim demoServer) (fun _ _ => true)
      ((Tracked demoPrim demoServer).initial demoState, History.start) lateMoves).map
        (fun x => listsRemoved x.2) = some true := by
  decide +kernel

theorem revoked_peer_listed :
    ¬ ∀ (prim : Primitives) (server : Server) (init : CoordState) (x : TrackedCfg × History),
      (Tracked prim server).Observed (History.observe prim server) (fun _ _ => True)
        ((Tracked prim server).initial init, History.start) x → x.2.Ordered := by
  intro h
  obtain ⟨x, hrun, hfacts⟩ := Option.map_eq_some_iff.1 lateMoves_facts
  have hobserved := Pool.Spec.observed_of_run (fun _ _ _ => trivial) lateMoves .refl hrun
  have hordered := h demoPrim demoServer demoState x hobserved
  unfold listsRemoved at hfacts
  split at hfacts
  · rename_i n g snapshot v hremoved hsigned
    obtain ⟨hle, hlisted⟩ := Bool.and_eq_true_iff.1 hfacts
    refine hordered.removed n g snapshot v (List.mem_of_mem_head? hremoved)
      (List.mem_of_mem_head? hsigned) (of_decide_eq_true hle) ?_
    exact List.contains_iff_mem.1 hlisted
  · cases hfacts

/-- A client that registers, reports a new address, asks for a snapshot and reports the address once
more. -/
def steadyClient : Request :=
  .socket 7 [demoRegister "key" "credential" none,
    .text (.updateCandidates [.host (.v4 ⟨Vector.replicate 4 1⟩ 5)]), .text .requestSnapshot,
    .text (.updateCandidates [.host (.v4 ⟨Vector.replicate 4 1⟩ 5)])]

/-- One task alone, whose changes go through and whose row is still there. -/
def steadyMove (cfg : TrackedCfg) (m : Pool.Move Env Request) : Bool :=
  m.task == 0 && match m with
  | .spawn _ _ => true
  | .step t e =>
    match cfg.at t with
    | none => true
    | some c =>
      (match ((cfg.phase t).next demoPrim demoServer c
          (perform demoPrim demoServer e c cfg.shared).1).pending with
        | .failed _ => false
        | _ => true) &&
      match c with
      | .updatePeer peer =>
        (cfg.phase t).stored peer != .none ||
          decide ((cfg.shared.loadPeer peer.nodeId).map privatePeer = some (privatePeer peer))
      | _ => true

def steadyMoves : List (Pool.Move Env Request) :=
  .spawn 0 steadyClient :: List.replicate 45 (.step 0 demoEnv) ++
    .spawn 0 (.revoke demoNode) :: List.replicate 4 (.step 0 demoEnv) ++
    .spawn 0 .broadcastLoop :: List.replicate 7 (.step 0 demoEnv)

lemma steadyMoves_facts :
    ((Tracked demoPrim demoServer).runObserved (History.observe demoPrim demoServer) steadyMove
      ((Tracked demoPrim demoServer).initial demoState, History.start) steadyMoves).map
        (fun x => (x.2.signed.map fun entry => entry.1.generation, x.2.removed.map Prod.fst)) =
      some ([5, 3, 3, 2], [demoNode]) := by
  decide +kernel

lemma serialized_of_steady (cfg : TrackedCfg) (m : Pool.Move Env Request)
    (hreach : (Tracked demoPrim demoServer).Reachable (fun cfg m => steadyMove cfg m = true)
      ((Tracked demoPrim demoServer).initial demoState) cfg) (hm : steadyMove cfg m = true) :
    SerializedMove demoPrim demoServer cfg m := by
  have hsolo : ∀ (cfg : TrackedCfg) (m : Pool.Move Env Request), steadyMove cfg m = true → m.task = 0 :=
    fun cfg m hm => by simpa using (Bool.and_eq_true_iff.1 hm).1
  have hidle : ∀ u, u ≠ 0 → cfg.phase u = Progress.idle := fun u hu => (hreach.solo hsolo hu).2
  cases m with
  | spawn t q => trivial
  | step t e =>
    obtain rfl : t = 0 := hsolo _ _ hm
    have hchecks := (Bool.and_eq_true_iff.1 hm).2
    dsimp only at hchecks
    refine ⟨fun c _ _ u hu => ?_, fun c _ _ u hu => ?_, fun c change hat hfailed => ?_,
      fun peer hat hstored => ?_⟩
    · rw [hidle u hu]
      exact id
    · rw [hidle u hu]
      exact id
    · rw [hat] at hchecks
      simp only [hfailed, Bool.false_and] at hchecks
      cases hchecks
    · rw [hat] at hchecks
      simpa [hstored] using (Bool.and_eq_true_iff.1 hchecks).2

theorem generations_ordered_steady :
    ∃ x : TrackedCfg × History, (Tracked demoPrim demoServer).Observed
      (History.observe demoPrim demoServer) (SerializedMove demoPrim demoServer)
      ((Tracked demoPrim demoServer).initial demoState, History.start) x ∧
      x.2.signed.map (fun entry => entry.1.generation) = [5, 3, 3, 2] ∧ x.2.removed.map Prod.fst = [demoNode] ∧
      x.2.Ordered := by
  obtain ⟨x, hrun, hfacts⟩ := Option.map_eq_some_iff.1 steadyMoves_facts
  have hsteady : (Tracked demoPrim demoServer).Observed (History.observe demoPrim demoServer)
      (fun cfg m => steadyMove cfg m = true)
      ((Tracked demoPrim demoServer).initial demoState, History.start) x :=
    Pool.Spec.observed_of_run (fun _ _ h => h) steadyMoves .refl hrun
  have hobserved := hsteady.strengthen serialized_of_steady
  obtain ⟨hsigned, hremoved⟩ := Prod.mk.inj hfacts
  exact ⟨x, hobserved, hsigned, hremoved, generations_ordered demoPrim demoServer demoState x hobserved⟩

end Late

/-! ### Every snapshot that is sent -/

section Sent

lemma verifySnapshot_signSnapshot {signer : ServerSigner} (hsigns : signer.Signs prim)
    {snapshot : NetworkSnapshot} {now : UInt64} (hnow : now ≤ snapshot.expiresAt) :
    verifySnapshot prim (signer.signSnapshot prim snapshot) (signer.publicKey prim) now = .ok () := by
  have hverifies := hsigns.verifies (signer.signSnapshot prim snapshot).unsignedBytes
  unfold verifySnapshot ServerSigner.signSnapshot
  rw [if_neg (by simp [UInt64.not_lt.2 hnow])]
  simp only [toArray?_toList, hsigns.key]
  exact if_pos hverifies

/-- A snapshot of this network that the server has signed, at a generation up to `g`. -/
structure Signed (prim : Primitives) (server : Server) (g : UInt64) (snapshot : NetworkSnapshot) : Prop where
  network : snapshot.networkId = networkId prim server
  generation : snapshot.generation.toNat ≤ g.toNat
  signature : ∃ unsigned, snapshot = server.signer.signSnapshot prim unsigned

/-- What a task has read and signed is not ahead of `g`. -/
structure HoldsSigned (prim : Primitives) (server : Server) (g : UInt64) (γ : Progress) : Prop where
  read : γ.build = .generation → γ.generation.toNat ≤ g.toNat
  signed : ∀ snapshot, γ.signed = some snapshot → Signed prim server g snapshot

variable {g g' : UInt64} {γ γ' : Progress}

lemma Signed.mono {snapshot : NetworkSnapshot} (h : Signed prim server g snapshot) (hle : g.toNat ≤ g'.toNat) :
    Signed prim server g' snapshot :=
  ⟨h.network, h.generation.trans hle, h.signature⟩

lemma HoldsSigned.mono (h : HoldsSigned prim server g γ) (hle : g.toNat ≤ g'.toNat) :
    HoldsSigned prim server g' γ :=
  ⟨fun hbuild => (h.read hbuild).trans hle, fun snapshot hsigned => (h.signed snapshot hsigned).mono hle⟩

lemma HoldsSigned.step {s : CoordState} {c : Section} (h : HoldsSigned prim server s.snapshotGeneration γ)
    (hstep : BuildStep prim server s γ γ' c) : HoldsSigned prim server s.snapshotGeneration γ' := by
  cases hstep with
  | same _ hsame =>
    exact ⟨fun hbuild => hsame.generation ▸ h.read (hsame.build ▸ hbuild),
      fun snapshot hsigned => h.signed snapshot (hsame.signed ▸ hsigned)⟩
  | dropped _ hidle _ hold =>
    exact ⟨fun hbuild => (by cases hidle.symm.trans hbuild),
      fun snapshot hsigned => h.signed snapshot (hold snapshot hsigned)⟩
  | begun _ _ _ _ heq | peers _ heq | config _ heq =>
    subst heq
    exact ⟨fun hbuild => (by cases hbuild), h.signed⟩
  | generation _ heq =>
    subst heq
    exact ⟨fun _ => le_rfl, h.signed⟩
  | signed now hbuild heq =>
    subst heq
    refine ⟨fun hbuild => (by cases hbuild), fun snapshot hsigned => ?_⟩
    obtain rfl := Option.some.inj hsigned
    exact ⟨rfl, h.read hbuild, _, rfl⟩

/-- What the tasks have in hand, and what stands on the connections. -/
structure AllSigned (prim : Primitives) (server : Server) (s : CoordState) (φ : ℕ → Progress) : Prop where
  held : ∀ t, HoldsSigned prim server s.snapshotGeneration (φ t)
  emitted : ∀ snapshot, s.Emitted snapshot → Signed prim server s.snapshotGeneration snapshot

lemma allSigned_step {cfg : TrackedCfg} {t : ℕ} {c : Section} (h : AllSigned prim server cfg.shared cfg.phase)
    (hok : (cfg.phase t).Allows prim c) (e : Env) :
    AllSigned prim server (perform prim server e c cfg.shared).2 (update cfg.phase t
      ((cfg.phase t).next prim server c (perform prim server e c cfg.shared).1)) := by
  -- the counter never goes back
  have hle := @generation_mono prim server e c cfg.shared
  constructor
  · refine Pool.forall_update (P := fun _ => HoldsSigned prim server _) ?_ fun u => (h.held u).mono hle
    exact ((h.held t).step (buildStep_next e c cfg.shared (cfg.phase t))).mono hle
  · intro snapshot hemitted
    rcases emitted_perform hok hemitted with hold | hsigned
    · exact (h.emitted snapshot hold).mono hle
    · exact ((h.held t).signed snapshot hsigned).mono hle

/-- **Every snapshot on a connection verifies, and none is ahead of the server**, in every interleaving. -/
theorem emitted_verifies (prim : Primitives) (server : Server) (hsigns : server.signer.Signs prim)
    (init : CoordState) (hinit : ∀ snapshot, ¬ init.Emitted snapshot) (cfg : TrackedCfg)
    (h : (Tracked prim server).Reachable (fun _ _ => True) ((Tracked prim server).initial init) cfg)
    (snapshot : NetworkSnapshot) (hemitted : cfg.shared.Emitted snapshot) :
    snapshot.networkId = networkId prim server ∧ snapshot.generation ≤ cfg.shared.snapshotGeneration ∧
      ∀ now ≤ snapshot.expiresAt,
        verifySnapshot prim snapshot (server.signer.publicKey prim) now = .ok () := by
  have hidle : ∀ g, HoldsSigned prim server g Progress.idle :=
    fun _ => ⟨fun hbuild => (by cases hbuild), fun _ hsigned => (by cases hsigned)⟩
  have hall : AllSigned prim server cfg.shared cfg.phase := by
    refine (h.invariant_rest (I := AllSigned prim server) (fun t => ⟨⟨⟩, rfl⟩) (fun _ => ⟨trivial, rfl⟩)
      ⟨fun _ => hidle _, fun snapshot h => absurd h (hinit snapshot)⟩
      (fun _ _ q _ => body_progresses q) ?_ ?_).1
    · intro s s' φ t q hall _ ha
      obtain ⟨spawned, rfl⟩ := Request.accept_eq ha
      exact ⟨Pool.forall_update (P := fun _ => HoldsSigned prim server _) (hidle _) hall.held, hall.emitted⟩
    · intro cfg t e c r s' hall _ _ hok hexec
      obtain ⟨rfl, rfl⟩ := Prod.mk.inj (Option.some.inj hexec)
      exact allSigned_step hall hok e
  obtain ⟨hnetwork, hgeneration, unsigned, rfl⟩ := hall.emitted snapshot hemitted
  exact ⟨hnetwork, UInt64.le_iff_toNat_le.2 hgeneration, fun _ => verifySnapshot_signSnapshot hsigns⟩

theorem emitted_verifies_torn :
    ∃ cfg snapshot, (Tracked demoPrim demoServer).Reachable (fun _ _ => True)
      ((Tracked demoPrim demoServer).initial demoState) cfg ∧ cfg.shared.Emitted snapshot ∧
      verifySnapshot demoPrim snapshot (demoServer.signer.publicKey demoPrim) snapshot.expiresAt = .ok () := by
  obtain ⟨cfg, hreach, hfacts⟩ := tornEnd
  obtain ⟨snapshot, hlast, -⟩ := Option.map_eq_some_iff.1 hfacts
  obtain ⟨entry, hhead, hcarried⟩ := Option.bind_eq_some_iff.1 hlast
  have hemitted : cfg.shared.Emitted snapshot :=
    .inl ⟨entry.1, entry.2, List.mem_of_mem_head? hhead, hcarried⟩
  have hinit : ∀ snapshot, ¬ demoState.Emitted snapshot := by
    rintro _ (⟨_, _, hmem, -⟩ | ⟨_, hmem⟩) <;> cases hmem
  exact ⟨cfg, snapshot, hreach, hemitted, (emitted_verifies demoPrim demoServer ⟨rfl, fun _ => rfl⟩
    demoState hinit cfg hreach snapshot hemitted).2.2 _ (UInt64.le_refl _)⟩

end Sent

end Vela.Coord
