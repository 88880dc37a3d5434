import Vela.Coord.Candidates
import Vela.Coord.Content
import Vela.Coord.Revocation
import Vela.Runtime.Order

/-!
# The snapshot that confirms an update of candidates

`update_candidates_and_get_snapshot` sends an update and takes the next snapshot for its reply.  The
coordinator sends the snapshots of its broadcasts over the same connection.

* `update_confirmed` — the snapshot that the call returns was built after the update was stored, if no
  snapshot is on its way when the call is made and no other task puts one with older rows on the
  connection while it waits;
* `broadcast_confirms` — otherwise the call may return a snapshot without the update.
-/

namespace Vela.Coord

open Vela.Proto Vela.Crypto

/-! ### The coordinator under all monitors -/

/-- What is known of a task. -/
abbrev Watch := Progress × Standing × Writing

def Watch.next (prim : Primitives) (server : Server) (γ : Watch) (c : Section) (r : Response c) : Watch :=
  (γ.1.next prim server c r, γ.2.1.next c r, γ.2.2.next c r)

abbrev Watched (prim : Primitives) (server : Server) :
    Pool.Spec Section Response CoordState Env Request Watch :=
  coordinator prim server (Progress.idle, Standing.start, Writing.idle) (Watch.next prim server)

abbrev WatchedCfg := Pool.Config Section Response CoordState Watch

lemma watched_allows {prim : Primitives} {server : Server} {init : CoordState} {cfg : WatchedCfg}
    (h : (Watched prim server).Reachable (fun _ _ => True) ((Watched prim server).initial init) cfg)
    {t : ℕ} {c : Section} (hat : cfg.at t = some c) : (cfg.phase t).1.Allows prim c ∧
      (cfg.phase t).2.1.Mends c ∧ (cfg.phase t).2.2.Allows c := by
  have htracked : (Tracked prim server).Reachable (fun _ _ => True)
      ((Tracked prim server).initial init) (cfg.mapPhase Prod.fst) := by
    refine h.mapPhase (f := Prod.fst) ?_ ?_ ?_ ?_ fun _ _ _ => ?_ <;> rfl
  have hvisited : (Visited prim server).Reachable (fun _ _ => True)
      ((Visited prim server).initial init) (cfg.mapPhase fun γ => γ.2.1) := by
    refine h.mapPhase (f := fun γ => γ.2.1) ?_ ?_ ?_ ?_ fun _ _ _ => ?_ <;> rfl
  have hwriting : (coordinator prim server Writing.idle Writing.next).Reachable (fun _ _ => True)
      ((coordinator prim server Writing.idle Writing.next).initial init)
        (cfg.mapPhase fun γ => γ.2.2) := by
    refine h.mapPhase (f := fun γ => γ.2.2) ?_ ?_ ?_ ?_ fun _ _ _ => ?_ <;> rfl
  have hmeets := (hwriting.invariant (I := fun _ _ => True) (fun _ => ⟨⟨⟩, rfl⟩) trivial
    (fun _ _ q _ => body_disciplined prim server q) (fun _ _ _ _ _ _ _ => trivial)
    fun _ _ _ _ _ _ _ _ _ _ _ => trivial).2 t
  refine ⟨allows_of_reachable htracked hat, mends_of_reachable hvisited hat, ?_⟩
  exact Pool.Config.ok_at hmeets hat

/-! ### The history of an update -/

/-- What has become of an update of candidates that the client has sent. -/
structure Confirmation where
  /-- how many messages are before it on their way to the server, until the server has received it -/
  ahead : Option ℕ
  /-- the task that handles it -/
  taken : Option ℕ
  /-- it was stored, while the connection was registered for the node -/
  stored : Option NodeId
  /-- the row of the node was written again or taken out after that -/
  rewritten : Bool
  /-- the task has read the rows of its snapshot after the update was stored -/
  rowsRead : ℕ → Bool
  /-- and the snapshot that it has signed last is one of such rows -/
  signedAfter : ℕ → Bool
  builtAfter : List NetworkSnapshot

namespace Confirmation

def start : Confirmation where
  ahead := none
  taken := none
  stored := none
  rewritten := false
  rowsRead _ := false
  signedAfter _ := false
  builtAfter := []

/-- A task has another message, or another request. -/
def release (h : Confirmation) (t : ℕ) : Confirmation :=
  { h with taken := h.taken.filter fun u => u ≠ t }

/-- The server receives a message of the client. -/
def received (h : Confirmation) (t : ℕ) : Confirmation :=
  match h.ahead with
  | none => h.release t
  | some 0 => { h with ahead := none, taken := some t }
  | some (j + 1) => { h.release t with ahead := some j }

/-- The row of a node is written, or taken out. -/
def wrote (h : Confirmation) (nodeId : NodeId) : Confirmation :=
  { h with rewritten := h.rewritten || h.stored == some nodeId }

def observe (prim : Primitives) (server : Server) (k : UInt64) (h : Confirmation) (t : ℕ)
    (γ : Watch) : (c : Section) → Response c → Confirmation
  | .recv connection _, _ => if connection = k then h.received t else h.release t
  | .updatePeer peer, .ok _ =>
    if h.stored.isNone ∧ h.taken = some t then { h with stored := γ.2.1.registered }
    else h.wrote peer.nodeId
  | .revokeRow nodeId, .ok true => h.wrote nodeId
  | .deleteRow nodeId, .ok true => h.wrote nodeId
  | .loadPeers, .ok _ =>
    if γ.1.build = .online then { h with rowsRead := Function.update h.rowsRead t h.stored.isSome }
    else h
  | .unixTime, now =>
    if γ.1.build = .generation then
      { h with
        signedAfter := Function.update h.signedAfter t (h.rowsRead t)
        builtAfter :=
          if h.rowsRead t then γ.1.snapshot prim server now :: h.builtAfter else h.builtAfter }
    else h
  | _, _ => h

end Confirmation

/-- The listed peers show the candidates of the node. -/
def Shows (candidates : List Candidate) (nodeId : NodeId) (infos : List PeerInfo) : Prop :=
  (∃ info ∈ infos, info.nodeId = nodeId) ∧
    ∀ info ∈ infos, info.nodeId = nodeId → info.candidates = candidates

/-- The update is stored, and the peers show it unless the row was changed again. -/
def Confirmation.Good (h : Confirmation) (candidates : List Candidate) (infos : List PeerInfo) : Prop :=
  ∃ nodeId, h.stored = some nodeId ∧ (h.rewritten = false → Shows candidates nodeId infos)

lemma shows_loadPeers {s : CoordState} {nodeId : NodeId} {peer : StoredPeer}
    (h : s.loadPeer nodeId = some peer) :
    Shows peer.candidates nodeId (s.loadPeers.map privatePeer) := by
  have hid : peer.nodeId = nodeId := by
    obtain ⟨row, -, rfl⟩ := Option.map_eq_some_iff.1 h
    rfl
  refine ⟨⟨privatePeer peer, mem_visible.2 ?_, hid⟩, fun info hinfo hnode => ?_⟩
  · rw [show (privatePeer peer).nodeId = nodeId from hid, h, Option.map_some]
  · have hvisible := mem_visible.1 hinfo
    rw [hnode, h, Option.map_some] at hvisible
    rw [← Option.some.inj hvisible]
    rfl

/-! ### What one section does to the history -/

section History

variable {prim : Primitives} {server : Server} {k : UInt64} {h h' : Confirmation} {t u : ℕ}
  {γ : Watch} {c : Section} {candidates : List Candidate} {infos : List PeerInfo}

/-- The history goes on. -/
structure Confirmation.Later (h h' : Confirmation) : Prop where
  stored : ∀ nodeId, h.stored = some nodeId → h'.stored = some nodeId
  rewritten : h'.rewritten = false → h.rewritten = false
  built : ∀ snapshot ∈ h.builtAfter, snapshot ∈ h'.builtAfter

/-- The section has written the row of the node, or taken it out. -/
def WritesRow (nodeId : NodeId) : (c : Section) → Response c → Prop
  | .updatePeer peer, .ok _ => peer.nodeId = nodeId
  | .revokeRow removed, .ok true | .deleteRow removed, .ok true => removed = nodeId
  | _, _ => False

/-- What a section can do to the history. -/
inductive Confirmation.Step (k : UInt64) (h : Confirmation) (t : ℕ) (γ : Watch) :
    (c : Section) → Response c → Confirmation → Prop
  | same (c : Section) (r : Response c) (hwrites : ∀ n, ¬ WritesRow n c r)
      (hrecv : ∀ connection message, c ≠ .recv connection message) : Step k h t γ c r h
  | taken (message : ControlMessage) (r : Response (.recv k message)) (hahead : h.ahead = some 0) :
      Step k h t γ (.recv k message) r { h with ahead := none, taken := some t }
  | passed (connection : UInt64) (message : ControlMessage) (r : Response (.recv connection message))
      (ahead : Option ℕ) (hahead : connection ≠ k → ahead = h.ahead) :
      Step k h t γ (.recv connection message) r { h.release t with ahead }
  | stored (peer : StoredPeer) (a : Unit) (hstored : h.stored = none) (htaken : h.taken = some t) :
      Step k h t γ (.updatePeer peer) (.ok a) { h with stored := γ.2.1.registered }
  | wrote (c : Section) (r : Response c) (n : NodeId) (hwrites : ∀ m, WritesRow m c r → m = n)
      (hrecv : ∀ connection message, c ≠ .recv connection message) : Step k h t γ c r (h.wrote n)
  | read (peers : List StoredPeer) : Step k h t γ .loadPeers (.ok peers)
      { h with rowsRead := Function.update h.rowsRead t h.stored.isSome }
  | signed (now : UInt64) (built : List NetworkSnapshot) (hbuilt : h.builtAfter ⊆ built) :
      Step k h t γ .unixTime now
        { h with signedAfter := Function.update h.signedAfter t (h.rowsRead t), builtAfter := built }

lemma Confirmation.observe_step (r : Response c) :
    Step k h t γ c r (h.observe prim server k t γ c r) := by
  cases c with
  | recv connection message =>
    simp only [observe]
    split
    · rename_i hk
      subst hk
      unfold received
      split
      · exact .passed _ _ _ h.ahead fun _ => rfl
      · rename_i hahead
        exact .taken _ _ hahead
      · exact .passed _ _ _ _ fun hne => absurd rfl hne
    · exact .passed _ _ _ h.ahead fun _ => rfl
  | updatePeer peer =>
    cases r with
    | error e => exact .same _ _ nofun nofun
    | ok _ =>
      simp only [observe]
      split
      · rename_i hfirst
        exact .stored _ _ (Option.isNone_iff_eq_none.1 hfirst.1) hfirst.2
      · exact .wrote _ _ _ (fun _ hwrites => Eq.symm hwrites) nofun
  | revokeRow nodeId | deleteRow nodeId =>
    rcases r with e | _ | _
    · exact .same _ _ nofun nofun
    · exact .same _ _ nofun nofun
    · exact .wrote _ _ _ (fun _ hwrites => Eq.symm hwrites) nofun
  | loadPeers =>
    cases r with
    | error e => exact .same _ _ nofun nofun
    | ok peers =>
      simp only [observe]
      split
      · exact .read peers
      · exact .same _ _ nofun nofun
  | unixTime =>
    simp only [observe]
    split
    · refine .signed _ _ ?_
      split
      · exact List.subset_cons_self _ _
      · exact List.Subset.refl _
    · exact .same _ _ nofun nofun
  | _ => exact .same _ _ nofun nofun

lemma Confirmation.later_observe (r : Response c) : h.Later (h.observe prim server k t γ c r) := by
  have hstep := @observe_step prim server k h t γ c r
  generalize h.observe prim server k t γ c r = h' at hstep ⊢
  cases hstep with
  | same | taken | passed | read => exact ⟨fun _ => id, id, fun _ => id⟩
  | stored peer a hnone =>
    refine ⟨fun n hstored => ?_, id, fun _ => id⟩
    cases hnone.symm.trans hstored
  | wrote =>
    refine ⟨fun _ => id, fun hrewritten => ?_, fun _ => id⟩
    simp only [wrote, Bool.or_eq_false_iff] at hrewritten
    exact hrewritten.1
  | signed now built hbuilt => exact ⟨fun _ => id, id, fun _ hmem => hbuilt hmem⟩

lemma Confirmation.Good.later (hgood : h.Good candidates infos) (hlater : h.Later h') :
    h'.Good candidates infos := by
  obtain ⟨nodeId, hstored, hshows⟩ := hgood
  exact ⟨nodeId, hlater.stored nodeId hstored, fun hrewritten => hshows (hlater.rewritten hrewritten)⟩

lemma Confirmation.observe_row (r : Response c) :
    (∃ peer, c = .updatePeer peer ∧ WritesRow peer.nodeId c r ∧ h.taken = some t ∧
      (h.observe prim server k t γ c r).stored = γ.2.1.registered) ∨
    (h.observe prim server k t γ c r).stored = h.stored ∧
      ∀ n, WritesRow n c r → h.stored = some n → (h.observe prim server k t γ c r).rewritten = true := by
  have hstep := @observe_step prim server k h t γ c r
  generalize h.observe prim server k t γ c r = h' at hstep ⊢
  cases hstep with
  | stored peer a _ htaken => exact .inl ⟨peer, rfl, rfl, htaken, rfl⟩
  | same c r hnone => exact .inr ⟨rfl, fun n hwrites => absurd hwrites (hnone n)⟩
  | wrote c r n honly =>
    refine .inr ⟨rfl, fun m hwrites hstored => ?_⟩
    simp [wrote, hstored, honly m hwrites]
  | taken | passed | read | signed => exact .inr ⟨rfl, nofun⟩

lemma Confirmation.observe_frame (r : Response c) :
    (c ≠ .loadPeers → (h.observe prim server k t γ c r).rowsRead = h.rowsRead) ∧
    (c ≠ .unixTime → (h.observe prim server k t γ c r).signedAfter = h.signedAfter ∧
      (h.observe prim server k t γ c r).builtAfter = h.builtAfter) := by
  have hstep := @observe_step prim server k h t γ c r
  generalize h.observe prim server k t γ c r = h' at hstep ⊢
  cases hstep with
  | read => exact ⟨fun hc => absurd rfl hc, fun _ => ⟨rfl, rfl⟩⟩
  | signed => exact ⟨fun _ => rfl, fun hc => absurd rfl hc⟩
  | _ => exact ⟨fun _ => rfl, fun _ => ⟨rfl, rfl⟩⟩

/-- The snapshots of the other tasks are none of the section's business. -/
lemma Confirmation.observe_others (hut : u ≠ t) (r : Response c) :
    (h.observe prim server k t γ c r).rowsRead u = h.rowsRead u ∧
      (h.observe prim server k t γ c r).signedAfter u = h.signedAfter u := by
  have hstep := @observe_step prim server k h t γ c r
  generalize h.observe prim server k t γ c r = h' at hstep ⊢
  cases hstep with
  | read => exact ⟨Function.update_of_ne hut .., rfl⟩
  | signed => exact ⟨rfl, Function.update_of_ne hut ..⟩
  | _ => exact ⟨rfl, rfl⟩

/-- The update is in the hands of the task that has received it, until that receives another message. -/
lemma Confirmation.observe_taken (r : Response c)
    (htaken : (h.observe prim server k t γ c r).taken = some u) :
    (u = t ∧ ∃ message, c = .recv k message ∧ h.ahead = some 0) ∨
      h.taken = some u ∧ (u = t → ∀ connection message, c ≠ .recv connection message) := by
  have hstep := @observe_step prim server k h t γ c r
  generalize h.observe prim server k t γ c r = h' at hstep htaken
  cases hstep with
  | taken message r hahead =>
    cases htaken
    exact .inl ⟨rfl, message, rfl, hahead⟩
  | passed =>
    obtain ⟨htaken, hut⟩ := Option.filter_eq_some_iff.1 htaken
    exact .inr ⟨htaken, fun heq => absurd heq (by simpa using hut)⟩
  | same c r _ hrecv | wrote c r _ _ hrecv => exact .inr ⟨htaken, fun _ => hrecv⟩
  | stored | read | signed => exact .inr ⟨htaken, fun _ => nofun⟩

variable {s : CoordState} {γ' : Progress}

lemma BuildStep.peers_kept {γ : Progress} (h : BuildStep prim server s γ γ' c) (hc : c ≠ .loadPeers)
    (hpeers : γ'.build.hasPeers = true) :
    γ.build.hasPeers = true ∧ γ'.peers = γ.peers := by
  cases h with
  | same c hsame => exact ⟨hsame.build ▸ hpeers, hsame.peers⟩
  | dropped c hbuild =>
    rw [hbuild] at hpeers
    cases hpeers
  | begun c ids _ _ heq =>
    rw [heq] at hpeers
    cases hpeers
  | peers => exact absurd rfl hc
  | config hbuild heq | generation hbuild heq =>
    rw [hbuild, heq]
    exact ⟨rfl, rfl⟩
  | signed now hbuild heq =>
    rw [heq] at hpeers
    cases hpeers

lemma BuildStep.signed_kept {γ : Progress} {snapshot : NetworkSnapshot}
    (h : BuildStep prim server s γ γ' c) (hc : c ≠ .unixTime) (hsigned : γ'.signed = some snapshot) :
    γ.signed = some snapshot := by
  cases h with
  | same c hsame => exact hsame.signed ▸ hsigned
  | dropped c _ _ hkept => exact hkept snapshot hsigned
  | begun c ids _ _ heq => rwa [heq] at hsigned
  | peers hbuild heq | config hbuild heq | generation hbuild heq => rwa [heq] at hsigned
  | signed => exact absurd rfl hc

end History

/-! ### What the history says of the server -/

/-- The history fits the state of the server and what its tasks know. -/
structure Confirmation.Tracks (candidates : List Candidate) (s : CoordState)
    (φ : ℕ → Watch) (h : Confirmation) : Prop where
  taken : ∀ t, h.taken = some t → (φ t).2.1.message = some (.updateCandidates candidates)
  waits : ∀ t, h.taken = some t → h.stored = none → (φ t).2.2.updating = true
  /-- the task that has the update reads the rows of its snapshot after it has stored it -/
  own : ∀ t, h.taken = some t → ((φ t).1.build.hasPeers = true → h.rowsRead t = true) ∧
    ∀ snapshot, (φ t).1.signed = some snapshot → h.signedAfter t = true
  row : ∀ nodeId, h.stored = some nodeId → h.rewritten = false →
    ∃ peer, s.loadPeer nodeId = some peer ∧ peer.candidates = candidates
  rows : ∀ t, h.rowsRead t = true → (φ t).1.build.hasPeers = true →
    h.Good candidates ((φ t).1.peers.map privatePeer)
  signed : ∀ t snapshot, h.signedAfter t = true → (φ t).1.signed = some snapshot →
    snapshot ∈ h.builtAfter
  built : ∀ snapshot ∈ h.builtAfter, h.Good candidates snapshot.peers

section Steps

variable {prim : Primitives} {server : Server} {k : UInt64} {h : Confirmation} {t : ℕ}
  {φ : ℕ → Watch} {s : CoordState} {e : Env} {c : Section} {candidates : List Candidate}

lemma candidates_perform {n : NodeId} (hc : ¬ WritesRow n c (perform prim server e c s).1) :
    ((perform prim server e c s).2.loadPeer n).map StoredPeer.candidates =
      (s.loadPeer n).map StoredPeer.candidates := by
  -- the row of `n` is written only where the database reports that it was
  have hunchanged : (∀ peer, c = .updatePeer peer → peer.nodeId ≠ n) →
      c ≠ .revokeRow n → c ≠ .deleteRow n → ((perform prim server e c s).2.loadPeer n).map
        StoredPeer.candidates = (s.loadPeer n).map StoredPeer.candidates := by
    intro hupdate hrevoke hdelete
    have hstep := @rowStep_perform prim server e c s n
    unfold CoordState.loadPeer CoordState.liveRow
    generalize (perform prim server e c s).2.peers.lookup n = after at hstep ⊢
    generalize s.peers.lookup n = before at hstep ⊢
    cases hstep with
    | same => rfl
    | stored peer _ hn => exact absurd hn (hupdate peer rfl)
    | noted _ row =>
      cases hlive : row.revoked <;> simp [Option.filter, hlive, CoordState.storedPeer]
    | revoked row => exact absurd rfl hrevoke
    | deleted row => exact absurd rfl hdelete
  cases c with
  | updatePeer peer =>
    by_cases hn : peer.nodeId = n
    · cases hfault : e.fault with
      | some error => rw [perform, Env.database, hfault]
      | none =>
        rw [perform, Env.database, hfault] at hc
        exact absurd hn hc
    · exact hunchanged (fun _ heq => by rwa [← Section.updatePeer.inj heq]) (by simp) (by simp)
  | revokeRow removed | deleteRow removed =>
    by_cases hn : removed = n
    · cases hfault : e.fault with
      | some error => simp only [perform, Env.database, hfault]
      | none =>
        simp only [perform, Env.database, hfault, CoordState.revokeRow, CoordState.deleteRow] at hc ⊢
        split at hc
        · rfl
        · exact absurd hn hc
    · exact hunchanged (by simp) (by grind) (by grind)
  | _ => exact hunchanged (by simp) (by simp) (by simp)

lemma loadPeer_updatePeer (s : CoordState) (peer : StoredPeer) :
    ∃ stored, (s.updatePeer peer).loadPeer peer.nodeId = some stored ∧
      stored.candidates = peer.candidates := by
  unfold CoordState.loadPeer CoordState.liveRow CoordState.updatePeer
  simp only [AList.lookup_insert]
  cases s.peers.lookup peer.nodeId <;> exact ⟨_, rfl, rfl⟩

lemma Confirmation.Tracks.taken_step (hs : h.Tracks candidates s φ)
    (hasked : ∀ message, c = .recv k message → h.ahead = some 0 →
      message = .updateCandidates candidates) (r : Response c) :
    ∀ u, (h.observe prim server k t (φ t) c r).taken = some u →
      (Function.update φ t ((φ t).next prim server c r) u).2.1.message =
        some (.updateCandidates candidates) := by
  intro u htaken
  rcases observe_taken r htaken with ⟨rfl, message, rfl, hahead⟩ | ⟨htaken, hne⟩
  · rw [Function.update_self, hasked message rfl hahead]
    rfl
  · have hmessage := hs.taken u htaken
    by_cases hut : u = t
    · subst hut
      rw [Function.update_self]
      exact (Standing.next_message (hne rfl) r).trans hmessage
    · rwa [Function.update_of_ne hut]

lemma Confirmation.Tracks.waits_step (hs : h.Tracks candidates s φ) (hmends : (φ t).2.1.Mends c)
    (hasked : ∀ message, c = .recv k message → h.ahead = some 0 →
      message = .updateCandidates candidates) (r : Response c) :
    ∀ u, (h.observe prim server k t (φ t) c r).taken = some u →
      (h.observe prim server k t (φ t) c r).stored = none →
      (Function.update φ t ((φ t).next prim server c r) u).2.2.updating = true := by
  intro u hobserved hstored
  rcases observe_taken r hobserved with ⟨rfl, message, rfl, hahead⟩ | ⟨htaken, hne⟩
  · rw [Function.update_self, hasked message rfl hahead]
    rfl
  have hbefore : h.stored = none := by
    cases hsome : h.stored with
    | none => rfl
    | some n => cases ((later_observe r).stored n hsome).symm.trans hstored
  have hwaits := hs.waits u htaken hbefore
  by_cases hut : u = t
  · subst hut
    rw [Function.update_self]
    by_cases hwrite : ∃ peer, c = .updatePeer peer
    · obtain ⟨peer, rfl⟩ := hwrite
      cases r with
      | error e => exact hwaits
      | ok _ =>
        -- the update is stored for the registered node
        obtain ⟨n, read, hregistered, -⟩ := hmends candidates (hs.taken u htaken)
        rw [observe, if_pos ⟨by rw [hbefore]; rfl, htaken⟩] at hstored
        cases hregistered.symm.trans hstored
    · exact (Writing.updating_next (hne rfl) (fun peer heq => hwrite ⟨peer, heq⟩) r).trans hwaits
  · rwa [Function.update_of_ne hut]

lemma Confirmation.Tracks.row_step (hs : h.Tracks candidates s φ) (hmends : (φ t).2.1.Mends c) :
    ∀ nodeId, (h.observe prim server k t (φ t) c (perform prim server e c s).1).stored = some nodeId →
      (h.observe prim server k t (φ t) c (perform prim server e c s).1).rewritten = false →
      ∃ peer, (perform prim server e c s).2.loadPeer nodeId = some peer ∧
        peer.candidates = candidates := by
  intro n hstored hrewritten
  have hold := (later_observe (perform prim server e c s).1).rewritten hrewritten
  rcases @observe_row prim server k h t (φ t) c (perform prim server e c s).1 with
    ⟨peer, rfl, hwrites, htaken, hpeer⟩ | ⟨hsame, hwrites⟩
  · -- the task has the update in hand, so it stores these candidates
    obtain ⟨m, read, hregistered, -, hread⟩ := hmends candidates (hs.taken t htaken)
    rw [hpeer, hregistered] at hstored
    cases hstored
    cases hfault : e.fault with
    | some error =>
      rw [perform, Env.database, hfault] at hwrites
      exact hwrites.elim
    | none =>
      obtain ⟨stored, hload, hcandidates⟩ := loadPeer_updatePeer s peer
      rw [perform, Env.database, hfault]
      rw [hread] at hload hcandidates ⊢
      exact ⟨stored, hload, hcandidates⟩
  · rw [hsame] at hstored
    have hkept := candidates_perform fun hwritten =>
      Bool.false_ne_true (hrewritten.symm.trans (hwrites n hwritten hstored))
    obtain ⟨peer, hload, hcandidates⟩ := hs.row n hstored hold
    rw [hload, Option.map_some, hcandidates] at hkept
    exact Option.map_eq_some_iff.1 hkept

variable {r : Response c}

lemma Confirmation.Tracks.rows_step (hs : h.Tracks candidates s φ)
    (hr : r = (perform prim server e c s).1)
    (hread : (h.observe prim server k t (φ t) c r).rowsRead t = true)
    (hpeers : ((φ t).1.next prim server c r).build.hasPeers = true) :
    (h.observe prim server k t (φ t) c r).Good candidates
      (((φ t).1.next prim server c r).peers.map privatePeer) := by
  have hlater := @later_observe prim server k h t (φ t) c r
  by_cases hc : c = .loadPeers
  · subst hc
    cases hfault : e.fault with
    | some error =>
      simp only [perform, Env.database, hfault] at hr
      subst hr
      cases hpeers
    | none =>
      simp only [perform, Env.database, hfault] at hr
      subst hr
      simp only [observe, Progress.next] at hread hpeers hlater ⊢
      by_cases hbuild : (φ t).1.build = .online
      · -- the rows are those of this state
        simp only [hbuild, if_true, Function.update_self] at hread ⊢
        obtain ⟨n, hstored⟩ := Option.isSome_iff_exists.1 hread
        refine ⟨n, hstored, fun hrewritten => ?_⟩
        obtain ⟨peer, hload, rfl⟩ := hs.row n hstored hrewritten
        exact shows_loadPeers hload
      · simp only [hbuild, if_false] at hread hpeers ⊢
        exact hs.rows t hread hpeers
  · rw [(observe_frame r).1 hc] at hread
    have hstep := @buildStep_next prim server e c s (φ t).1
    rw [← hr] at hstep
    obtain ⟨hbuild, hsame⟩ := hstep.peers_kept hc hpeers
    rw [hsame]
    exact (hs.rows t hread hbuild).later hlater

lemma Confirmation.Tracks.signed_step (hs : h.Tracks candidates s φ)
    (hr : r = (perform prim server e c s).1) {snapshot : NetworkSnapshot}
    (hafter : (h.observe prim server k t (φ t) c r).signedAfter t = true)
    (hsigned : ((φ t).1.next prim server c r).signed = some snapshot) :
    snapshot ∈ (h.observe prim server k t (φ t) c r).builtAfter := by
  by_cases hc : c = .unixTime
  · subst hc
    simp only [observe, Progress.next] at hafter hsigned ⊢
    by_cases hbuild : (φ t).1.build = .generation
    · simp only [hbuild, if_true, Function.update_self] at hafter hsigned ⊢
      rw [if_pos hafter, ← Option.some.inj hsigned]
      exact List.mem_cons_self
    · simp only [hbuild, if_false] at hafter hsigned ⊢
      exact hs.signed t snapshot hafter hsigned
  · rw [((observe_frame r).2 hc).1] at hafter
    rw [((observe_frame r).2 hc).2]
    have hstep := @buildStep_next prim server e c s (φ t).1
    rw [← hr] at hstep
    exact hs.signed t snapshot hafter (hstep.signed_kept hc hsigned)

lemma Confirmation.Tracks.own_step (hs : h.Tracks candidates s φ) (hwriting : (φ t).2.2.Allows c)
    (hr : r = (perform prim server e c s).1) :
    ∀ u, (h.observe prim server k t (φ t) c r).taken = some u →
      ((Function.update φ t ((φ t).next prim server c r) u).1.build.hasPeers = true →
        (h.observe prim server k t (φ t) c r).rowsRead u = true) ∧
      ∀ snapshot, (Function.update φ t ((φ t).next prim server c r) u).1.signed = some snapshot →
        (h.observe prim server k t (φ t) c r).signedAfter u = true := by
  intro u hobserved
  rcases observe_taken r hobserved with ⟨rfl, message, rfl, -⟩ | ⟨htaken, -⟩
  · rw [Function.update_self]
    exact ⟨fun hpeers => (by cases hpeers), fun _ hsigned => (by cases hsigned)⟩
  obtain ⟨hrows, hsigned⟩ := hs.own u htaken
  by_cases hut : u = t
  · subst hut
    rw [Function.update_self]
    have hstep := @buildStep_next prim server e c s (φ u).1
    rw [← hr] at hstep
    refine ⟨fun hpeers => ?_, fun snapshot hsnapshot => ?_⟩
    · by_cases hc : c = .loadPeers
      · subst hc
        have hstored : h.stored.isSome = true := by
          cases hsome : h.stored with
          | none => cases (hs.waits u htaken hsome).symm.trans hwriting
          | some n => rfl
        cases r with
        | error e => cases hpeers
        | ok peers =>
          simp only [observe, Watch.next, Progress.next] at hpeers ⊢
          split
          · exact (Function.update_self ..).trans hstored
          · rename_i hbuild
            rw [if_neg hbuild] at hpeers
            exact hrows hpeers
      · rw [(observe_frame r).1 hc]
        exact hrows (hstep.peers_kept hc hpeers).1
    · by_cases hc : c = .unixTime
      · subst hc
        simp only [observe, Watch.next, Progress.next] at hsnapshot ⊢
        split
        · rename_i hbuild
          exact (Function.update_self ..).trans (hrows (by rw [hbuild]; rfl))
        · rename_i hbuild
          rw [if_neg hbuild] at hsnapshot
          exact hsigned snapshot hsnapshot
      · rw [((observe_frame r).2 hc).1]
        exact hsigned snapshot (hstep.signed_kept hc hsnapshot)
  · rw [Function.update_of_ne hut, (observe_others hut r).1, (observe_others hut r).2]
    exact ⟨hrows, hsigned⟩

lemma Confirmation.Tracks.built_step (hs : h.Tracks candidates s φ) (r : Response c) :
    ∀ snapshot ∈ (h.observe prim server k t (φ t) c r).builtAfter,
      (h.observe prim server k t (φ t) c r).Good candidates snapshot.peers := by
  intro snapshot hmem
  have hlater := @later_observe prim server k h t (φ t) c r
  by_cases hc : c = .unixTime
  · subst hc
    simp only [observe] at hmem hlater ⊢
    split at hmem
    · rename_i hbuild
      rw [if_pos hbuild] at hlater ⊢
      simp only at hmem
      split at hmem
      · rename_i hread
        rcases List.mem_cons.1 hmem with rfl | hmem
        · exact (hs.rows t hread (by rw [hbuild]; rfl)).later hlater
        · exact (hs.built snapshot hmem).later hlater
      · exact (hs.built snapshot hmem).later hlater
    · rename_i hbuild
      rw [if_neg hbuild]
      exact hs.built snapshot hmem
  · rw [((observe_frame r).2 hc).2] at hmem
    exact (hs.built snapshot hmem).later hlater

/-- **One section of one task**: the history still fits. -/
theorem Confirmation.Tracks.step (hs : h.Tracks candidates s φ) (hmends : (φ t).2.1.Mends c)
    (hwriting : (φ t).2.2.Allows c)
    (hasked : ∀ message, c = .recv k message → h.ahead = some 0 →
      message = .updateCandidates candidates) {r : Response c} {s' : CoordState}
    (hperform : perform prim server e c s = (r, s')) :
    (h.observe prim server k t (φ t) c r).Tracks candidates s'
      (Function.update φ t ((φ t).next prim server c r)) := by
  have hr : r = (perform prim server e c s).1 := by rw [hperform]
  have hs' : s' = (perform prim server e c s).2 := by rw [hperform]
  have hlater := @later_observe prim server k h t (φ t) c r
  refine ⟨hs.taken_step hasked r, hs.waits_step hmends hasked r, hs.own_step hwriting hr, ?_,
    fun u => ?_, fun u snapshot => ?_, hs.built_step r⟩
  · rw [hs', hr]
    exact hs.row_step hmends
  · by_cases hut : u = t
    · subst hut
      rw [Function.update_self]
      exact hs.rows_step hr
    · rw [Function.update_of_ne hut, (observe_others hut r).1]
      exact fun hread hpeers => (hs.rows u hread hpeers).later hlater
  · by_cases hut : u = t
    · subst hut
      rw [Function.update_self]
      exact hs.signed_step hr
    · rw [Function.update_of_ne hut, (observe_others hut r).2]
      exact fun hafter hsigned => hlater.built snapshot (hs.signed u snapshot hafter hsigned)

lemma Confirmation.Tracks.spawn (hs : h.Tracks candidates s φ) :
    (h.release t).Tracks candidates s (Function.update φ t (Progress.idle, Standing.start, Writing.idle)) := by
  have hkept : ∀ u, (h.release t).taken = some u → h.taken = some u ∧
      Function.update φ t (Progress.idle, Standing.start, Writing.idle) u = φ u := by
    intro u htaken
    obtain ⟨htaken, hut⟩ := Option.filter_eq_some_iff.1 htaken
    exact ⟨htaken, Function.update_of_ne (by simpa using hut) ..⟩
  refine ⟨fun u htaken => ?_, fun u htaken => ?_, fun u htaken => ?_, hs.row, fun u hread hpeers => ?_,
    fun u snapshot hafter hsigned => ?_, hs.built⟩
  · rw [(hkept u htaken).2]
    exact hs.taken u (hkept u htaken).1
  · rw [(hkept u htaken).2]
    exact hs.waits u (hkept u htaken).1
  · rw [(hkept u htaken).2]
    exact hs.own u (hkept u htaken).1
  · by_cases hut : u = t
    · subst hut
      rw [Function.update_self] at hpeers
      cases hpeers
    · rw [Function.update_of_ne hut] at hpeers ⊢
      exact hs.rows u hread hpeers
  · by_cases hut : u = t
    · subst hut
      rw [Function.update_self] at hsigned
      cases hsigned
    · rw [Function.update_of_ne hut] at hsigned
      exact hs.signed u snapshot hafter hsigned

end Steps

end Vela.Coord

namespace Vela.Runtime

open Vela.Proto Vela.Crypto Coord

/-! ### The coordinator and one of its connections -/

/-- The coordinator with all its tasks, what the client has sent to it, and the connection to the
client. -/
structure World where
  server : WatchedCfg
  uplink : List ControlMessage
  link : Link

inductive WorldStep where
  /-- a task of the coordinator begins or goes on -/
  | move (m : Pool.Move Coord.Env Coord.Request)
  /-- one round of the writer task of the connection -/
  | write

section Server

variable (prim : Primitives) (server : Server) (k : UInt64)

/-- What a section of the coordinator does to the connection `k`; it can only receive the next message
of the client. -/
def passThrough (uplink : List ControlMessage) (link : Link) :
    (c : Coord.Section) → Coord.Response c → Option (List ControlMessage × Link)
  | .recv connection message, _ =>
    if connection = k then
      if uplink.head? = some message then some (uplink.tail, link) else none
    else some (uplink, link)
  | .send connection message, true =>
    some (uplink, if connection = k then link.step (.reply message) else link)
  | .push connection snapshot, _ =>
    some (uplink, if connection = k then link.step (.broadcast snapshot) else link)
  | _, _ => some (uplink, link)

/-- One step of the coordinator, with the history of the update that the client waits for. -/
def worldStep : World × Confirmation → WorldStep → Option (World × Confirmation)
  | (w, h), .write => some ({ w with link := w.link.write }, h)
  | (w, h), .move (.spawn t q) =>
    ((Watched prim server).move w.server (.spawn t q)).map fun cfg => ({ w with server := cfg }, h.release t)
  | (w, h), .move (.step t e) =>
    match w.server.at t with
    | none => none
    | some c =>
      let r := (perform prim server e c w.server.shared).1
      (passThrough k w.uplink w.link c r).bind fun (uplink, link) =>
        ((Watched prim server).move w.server (.step t e)).map fun cfg =>
          ({ server := cfg, uplink, link }, h.observe prim server k t (w.server.phase t) c r)

/-- A given course of the coordinator, which stops at a step that fails the check. -/
def runSteps (check : World × Confirmation → WorldStep → Bool) :
    World × Confirmation → List WorldStep → Option (World × Confirmation)
  | x, [] => some x
  | x, step :: rest =>
    if check x step then (worldStep prim server k x step).bind fun x => runSteps check x rest else none

/-- The part of the coordinator in one section of the client. -/
structure WorldEnv where
  steps : List WorldStep
  fault : Option CoordClientError

/-- The client and the coordinator over one connection: the coordinator goes on while the client waits
for a message. -/
def served (check : World × Confirmation → WorldStep → Bool) : Network WorldEnv (World × Confirmation) where
  send e message := fun (w, h) =>
    match e.fault with
    | some fault => (.error fault, (w, h))
    | none =>
      -- the history is that of the last update
      (.ok (), { w with uplink := w.uplink ++ [message] }, match message with
        | .updateCandidates _ => { Confirmation.start with ahead := some w.uplink.length }
        | _ => h)
  recv e x :=
    (runSteps prim server k check x e.steps).bind fun (w, h) =>
      match e.fault, w.link.wire with
      | some fault, _ => some (.error fault, w, h)
      | none, [] => none
      | none, message :: rest => some (.ok message, { w with link := { w.link with wire := rest } }, h)
  -- a call does not open another connection
  connect _ x := (.error .closed, x)

end Server

/-- A snapshot that is put on the connection by another task than that which handles the update was built
from rows that were read after the update was stored. -/
def calm (k : UInt64) (x : World × Confirmation) : WorldStep → Bool
  | .move (.step t _) =>
    match x.1.server.at t with
    | some (.push connection _) => connection ≠ k || x.2.signedAfter t
    | some (.send connection (.snapshot _)) => connection ≠ k || x.2.taken = some t || x.2.signedAfter t
    | _ => true
  | _ => true

/-- The snapshot is on its way to the client. -/
def Link.Carries (link : Link) (snapshot : NetworkSnapshot) : Prop :=
  .snapshot snapshot ∈ link.outbound ∨ link.slot = some snapshot ∨ .snapshot snapshot ∈ link.wire

/-! ### While the client waits -/

/-- The coordinator has come to this by a run of its own. -/
def World.Reached (prim : Primitives) (server : Server) (w : World) : Prop :=
  ∃ init, (Watched prim server).Reachable (fun _ _ => True) ((Watched prim server).initial init) w.server

/-- The client waits for the snapshot of its update. -/
structure Waiting (prim : Primitives) (server : Server) (candidates : List Candidate)
    (x : World × Confirmation) : Prop where
  reached : x.1.Reached prim server
  /-- the server has not received the update yet -/
  asked : ∀ j, x.2.ahead = some j → x.1.uplink[j]? = some (.updateCandidates candidates)
  tracks : x.2.Tracks candidates x.1.server.shared x.1.server.phase
  /-- what comes next was built after the update -/
  carried : ∀ snapshot, x.1.link.Carries snapshot → snapshot ∈ x.2.builtAfter

section Steps

variable {prim : Primitives} {server : Server} {k : UInt64} {candidates : List Candidate}
  {x x' : World × Confirmation}

variable {link link' : Link} {uplink uplink' : List ControlMessage} {c : Coord.Section}
  {r : Coord.Response c} {t : ℕ} {snapshot : NetworkSnapshot}

lemma Link.carries_write (h : link.write.Carries snapshot) : link.Carries snapshot := by
  unfold Link.write at h
  split at h
  · rename_i message rest hout
    rcases h with h | h | h
    · exact .inl (hout ▸ .tail _ h)
    · exact .inr (.inl h)
    · rcases List.mem_append.1 h with h | h
      · exact .inr (.inr h)
      · exact .inl (by rw [hout, List.mem_singleton.1 h]; exact List.mem_cons_self)
  · rename_i waiting hout hslot
    rcases h with h | h | h
    · exact .inl h
    · cases h
    · rcases List.mem_append.1 h with h | h
      · exact .inr (.inr h)
      · have heq : ControlMessage.snapshot snapshot = .snapshot waiting := List.mem_singleton.1 h
        rw [ControlMessage.snapshot.inj heq]
        exact .inr (.inl hslot)
  · exact h

lemma carries_passThrough (h : passThrough k uplink link c r = some (uplink', link'))
    (hcarries : link'.Carries snapshot) :
    link.Carries snapshot ∨ c = .send k (.snapshot snapshot) ∨ c = .push k snapshot := by
  unfold passThrough at h
  split at h
  · split at h
    · split at h
      · cases h
        exact .inl hcarries
      · cases h
    · cases h
      exact .inl hcarries
  · rename_i connection message
    cases h
    split at hcarries
    · rename_i hk
      subst hk
      rcases hcarries with hout | hslot | hwire
      · rcases List.mem_append.1 hout with hout | hout
        · exact .inl (.inl hout)
        · exact .inr (.inl (by rw [List.mem_singleton.1 hout]))
      · exact .inl (.inr (.inl hslot))
      · exact .inl (.inr (.inr hwire))
    · exact .inl hcarries
  · rename_i connection pushed _
    cases h
    split at hcarries
    · rename_i hk
      subst hk
      rcases hcarries with hout | hslot | hwire
      · exact .inl (.inl hout)
      · exact .inr (.inr (by rw [Option.some.inj hslot]))
      · exact .inl (.inr (.inr hwire))
    · exact .inl hcarries
  · cases h
    exact .inl hcarries

/-- Only the next message of the client can be received, and then it is no longer on its way. -/
lemma passThrough_recv {message : ControlMessage} {r : Coord.Response (.recv k message)}
    (h : passThrough k uplink link (.recv k message) r = some (uplink', link')) :
    uplink = message :: uplink' := by
  simp only [passThrough, if_true] at h
  split at h
  · rename_i hhead
    cases h
    exact (List.cons_head?_tail hhead).symm
  · cases h

lemma passThrough_uplink (hc : ∀ message, c ≠ .recv k message)
    (h : passThrough k uplink link c r = some (uplink', link')) : uplink' = uplink := by
  unfold passThrough at h
  split at h
  · rename_i connection message _
    rw [if_neg fun heq : connection = k => hc message (by rw [heq])] at h
    exact (Prod.mk.inj (Option.some.inj h)).1.symm
  all_goals exact (Prod.mk.inj (Option.some.inj h)).1.symm

lemma observe_ahead {h : Confirmation} {γ : Watch} (hc : ∀ message, c ≠ .recv k message)
    (r : Coord.Response c) :
    (h.observe prim server k t γ c r).ahead = h.ahead := by
  have hstep := @Confirmation.observe_step prim server k h t γ c r
  generalize h.observe prim server k t γ c r = h' at hstep ⊢
  cases hstep with
  | taken message => exact absurd rfl (hc message)
  | passed connection message _ _ hahead => exact hahead fun heq => hc message (by rw [heq])
  | _ => rfl

lemma Waiting.asked_step (hw : Waiting prim server candidates x)
    (hpass : passThrough k x.1.uplink x.1.link c r = some (uplink, link)) (j : ℕ)
    (hahead : (x.2.observe prim server k t (x.1.server.phase t) c r).ahead = some j) :
    uplink[j]? = some (.updateCandidates candidates) := by
  by_cases hc : ∃ message, c = .recv k message
  · obtain ⟨message, rfl⟩ := hc
    have huplink := passThrough_recv hpass
    rw [Confirmation.observe, if_pos rfl] at hahead
    unfold Confirmation.received at hahead
    split at hahead
    · rename_i hnone
      exact absurd (hnone.symm.trans hahead) nofun
    · cases hahead
    · rename_i i hsome
      obtain rfl := Option.some.inj hahead
      have hasked := hw.asked (i + 1) hsome
      rwa [huplink, List.getElem?_cons_succ] at hasked
  · have hne : ∀ message, c ≠ .recv k message := fun message heq => hc ⟨message, heq⟩
    rw [observe_ahead hne] at hahead
    rw [passThrough_uplink hne hpass]
    exact hw.asked j hahead

lemma worldStep_move {e : Coord.Env} (h : worldStep prim server k x (.move (.step t e)) = some x') :
    ∃ c r s' uplink link cfg, x.1.server.at t = some c ∧
      perform prim server e c x.1.server.shared = (r, s') ∧
      passThrough k x.1.uplink x.1.link c r = some (uplink, link) ∧
      (Watched prim server).move x.1.server (.step t e) = some cfg ∧ cfg.shared = s' ∧
      cfg.phase = Function.update x.1.server.phase t ((x.1.server.phase t).next prim server c r) ∧
      x' = ({ server := cfg, uplink, link },
        x.2.observe prim server k t (x.1.server.phase t) c r) := by
  obtain ⟨w, h₀⟩ := x
  simp only [worldStep] at h
  split at h
  · cases h
  · rename_i c hat
    obtain ⟨⟨uplink, link⟩, hpass, hrest⟩ := Option.bind_eq_some_iff.1 h
    obtain ⟨cfg, hmove, rfl⟩ := Option.map_eq_some_iff.1 hrest
    obtain ⟨c', cont, r, s', hprog, hexec, hcfg⟩ := Pool.Spec.move_step hmove
    have hc : c' = c := by
      rw [Pool.Config.at, hprog] at hat
      exact Option.some.inj hat
    subst hc
    have hperform : perform prim server e c' w.server.shared = (r, s') := Option.some.inj hexec
    rw [hperform] at hpass ⊢
    exact ⟨c', r, s', uplink, link, cfg, hat, hperform, hpass, hmove, by rw [hcfg], by rw [hcfg]; rfl, rfl⟩

lemma reached_step {step : WorldStep} (hreached : x.1.Reached prim server)
    (hstep : worldStep prim server k x step = some x') : x'.1.Reached prim server := by
  obtain ⟨init, hreachable⟩ := hreached
  cases step with
  | write =>
    cases hstep
    exact ⟨init, hreachable⟩
  | move m =>
    cases m with
    | spawn t q =>
      obtain ⟨cfg, hmove, rfl⟩ := Option.map_eq_some_iff.1 hstep
      exact ⟨init, hreachable.step trivial hmove⟩
    | step t e =>
      obtain ⟨-, -, -, -, -, cfg, -, -, -, hmove, -, -, rfl⟩ := worldStep_move hstep
      exact ⟨init, hreachable.step trivial hmove⟩

/-- **One step of the coordinator** while the client waits. -/
theorem Waiting.step (hw : Waiting prim server candidates x) {step : WorldStep}
    (hcalm : calm k x step = true) (hstep : worldStep prim server k x step = some x') :
    Waiting prim server candidates x' := by
  obtain ⟨init, hreachable⟩ := hw.reached
  have hreached := reached_step hw.reached hstep
  cases step with
  | write =>
    cases hstep
    exact ⟨hreached, hw.asked, hw.tracks, fun snapshot hcarries =>
      hw.carried snapshot (Link.carries_write hcarries)⟩
  | move m =>
    cases m with
    | spawn t q =>
      obtain ⟨cfg, hmove, rfl⟩ := Option.map_eq_some_iff.1 hstep
      obtain ⟨-, s', haccept, hcfg⟩ := Pool.Spec.move_spawn hmove
      obtain ⟨spawned, rfl⟩ := Request.accept_eq haccept
      refine ⟨hreached, hw.asked, ?_, hw.carried⟩
      have htracks := hw.tracks.spawn (t := t)
      rw [hcfg]
      exact ⟨htracks.taken, htracks.waits, htracks.own, htracks.row, htracks.rows, htracks.signed,
        htracks.built⟩
    | step t e =>
      obtain ⟨c, r, s', uplink, link, cfg, hat, hperform, hpass, -, hshared, hphase, rfl⟩ :=
        worldStep_move hstep
      obtain ⟨hallows, hmends, hwriting⟩ := watched_allows hreachable hat
      have hlater := @Confirmation.later_observe prim server k x.2 t (x.1.server.phase t) c r
      refine ⟨hreached, hw.asked_step hpass, ?_, fun snapshot hcarries => ?_⟩
      · have hasked : ∀ message, c = .recv k message → x.2.ahead = some 0 →
            message = .updateCandidates candidates := by
          rintro message rfl hahead
          have hnext := hw.asked 0 hahead
          rw [passThrough_recv hpass] at hnext
          exact Option.some.inj hnext
        rw [hshared, hphase]
        exact hw.tracks.step hmends hwriting hasked hperform
      · -- a snapshot is sent by the task that has signed it
        rcases carries_passThrough hpass hcarries with hold | rfl | rfl
        · exact hlater.built snapshot (hw.carried snapshot hold)
        · have hsigned := hallows snapshot rfl
          have hafter : x.2.signedAfter t = true := by
            rcases (by simpa [calm, hat] using hcalm : x.2.taken = some t ∨ x.2.signedAfter t = true) with
              htaken | hafter
            · exact (hw.tracks.own t htaken).2 snapshot hsigned
            · exact hafter
          exact hlater.built snapshot (hw.tracks.signed t snapshot hafter hsigned)
        · have hsigned : (x.1.server.phase t).1.signed = some snapshot := hallows
          have hafter : x.2.signedAfter t = true := by simpa [calm, hat] using hcalm
          exact hlater.built snapshot (hw.tracks.signed t snapshot hafter hsigned)

/-- **A course of the coordinator.** -/
theorem runSteps_invariant {check : World × Confirmation → WorldStep → Bool}
    {I : World × Confirmation → Prop} (hI : ∀ x step x', I x → check x step = true →
      worldStep prim server k x step = some x' → I x') :
    ∀ (steps : List WorldStep) {x x' : World × Confirmation}, I x →
      runSteps prim server k check x steps = some x' → I x' := by
  intro steps
  induction steps with
  | nil =>
    intro x x' hx hrun
    cases hrun
    exact hx
  | cons step rest ih =>
    intro x x' hx hrun
    simp only [runSteps] at hrun
    split at hrun
    · rename_i hcheck
      obtain ⟨mid, hstep, hrest⟩ := Option.bind_eq_some_iff.1 hrun
      exact ih (hI x step mid hx hcheck hstep) hrest
    · cases hrun

end Steps

/-! ### The call -/

section Call

variable {prim : Primitives} {server : Server} {k : UInt64} {candidates : List Candidate}
  {suite : Suite} {peer : Peer} {s s' : RuntimeState (World × Confirmation)} {e : Env WorldEnv}

lemma waiting_recvWire {request : Option String} {r : Except CoordClientError ControlMessage}
    (hw : Waiting prim server candidates s.network)
    (hexec : exec suite peer (served prim server k (calm k)) e (.recvWire request) s = some (r, s')) :
    Waiting prim server candidates s'.network ∧
      ∀ snapshot, r = .ok (.snapshot snapshot) → snapshot ∈ s'.network.2.builtAfter := by
  obtain ⟨_, rfl, rfl⟩ | hstep := withinTime_cases hexec
  · exact ⟨hw, nofun⟩
  obtain ⟨⟨r', network⟩, hrecv, hrs⟩ := Option.map_eq_some_iff.1 hstep
  cases hrs
  obtain ⟨⟨w, h⟩, hrun, hrecv⟩ := Option.bind_eq_some_iff.1 hrecv
  have hafter := runSteps_invariant
    (fun _ _ _ hw => hw.step) _ hw hrun
  simp only at hrecv
  split at hrecv
  · cases hrecv
    exact ⟨hafter, nofun⟩
  · cases hrecv
  · rename_i message rest _ hwire
    cases hrecv
    constructor
    · refine ⟨hafter.reached, hafter.asked, hafter.tracks, fun snapshot hcarries => ?_⟩
      refine hafter.carried snapshot (hcarries.imp_right fun h => h.imp_right fun hmem => ?_)
      rw [hwire]
      exact .tail _ hmem
    · intro snapshot heq
      refine hafter.carried snapshot (.inr (.inr ?_))
      rw [hwire, Except.ok.inj heq]
      exact List.mem_cons_self

/-- The snapshot was built after the update was stored, and it shows the update unless the row of the
node was changed again. -/
def Confirmed (candidates : List Candidate) (snapshot : NetworkSnapshot) (h : Confirmation) : Prop :=
  snapshot ∈ h.builtAfter ∧ h.Good candidates snapshot.peers

lemma awaitReply_confirmed (request : String) : ∀ (fuel : ℕ) {s : RuntimeState (World × Confirmation)},
    Waiting prim server candidates s.network →
    (awaitReply request onSnapshot fuel).run.wp (exec suite peer (served prim server k (calm k)))
      (fun r s' => ∀ snapshot, r = .ok snapshot → Confirmed candidates snapshot s'.network.2) s := by
  intro fuel
  induction fuel with
  | zero => exact fun _ => nofun
  | succ fuel ih =>
    intro s hw
    refine Prog.wp_bindExcept fun e r s' hexec => ?_
    obtain ⟨hw', hsnapshot⟩ := waiting_recvWire hw hexec
    cases r with
    | error error => exact nofun
    | ok message =>
      cases message with
      | snapshot snapshot =>
        intro answer heq
        obtain rfl := Except.ok.inj heq
        have hbuilt := hsnapshot snapshot rfl
        exact ⟨hbuilt, hw'.tracks.built snapshot hbuilt⟩
      | connectSignal info target =>
        -- the signal is kept for later
        intro e r s'' hkeep
        cases hkeep
        exact ih hw'
      | _ => exact nofun

lemma waiting_send {w : World} (hreached : w.Reached prim server)
    (hquiet : ∀ snapshot, ¬ w.link.Carries snapshot) :
    Waiting prim server candidates ({ w with uplink := w.uplink ++ [.updateCandidates candidates] },
      { Confirmation.start with ahead := some w.uplink.length }) := by
  refine ⟨hreached, fun j hj => ?_, ⟨nofun, nofun, nofun, nofun, nofun, nofun, nofun⟩, fun snapshot hcarries => ?_⟩
  · cases hj
    exact List.getElem?_concat_length
  · exact absurd hcarries (hquiet snapshot)

end Call

/-- **The snapshot that confirms an update.**  The coordinator has come to any state that it can reach,
with all its tasks under way, and no snapshot is on its way to the client.  If the client then calls
`update_candidates_and_get_snapshot`, and while it waits no task but the one that handles the update puts
a snapshot on the connection whose rows were read before the update was stored, then a snapshot that the
call returns was built after the update was stored for the node of the connection, and it lists just
these candidates for the node, unless the row of the node was changed again. -/
theorem update_confirmed (prim : Primitives) (server : Server) (k : UInt64) (suite : Suite) (peer : Peer)
    (fuel : ℕ) (candidates : List Candidate) (s : RuntimeState (World × Confirmation))
    (hreached : s.network.1.Reached prim server)
    (hquiet : ∀ snapshot, ¬ s.network.1.link.Carries snapshot) :
    (CoordinationClient.updateCandidatesAndGetSnapshot fuel candidates).run.wp
      (exec suite peer (served prim server k (calm k)))
      (fun r s' => ∀ snapshot, r = .ok snapshot → Confirmed candidates snapshot s'.network.2) s := by
  refine Prog.wp_bindExcept fun e r s' hexec => ?_
  obtain ⟨_, rfl, -⟩ | hstep := withinTime_cases hexec
  · exact nofun
  cases hstep
  cases hfault : e.network.fault with
  | some fault =>
    simp only [served, hfault]
    exact nofun
  | none =>
    simp only [served, hfault]
    exact awaitReply_confirmed _ fuel (waiting_send hreached hquiet)

/-! ### One client of a small server -/

section Demo

def demoCandidate : Candidate := .host Core.demoPath

def demoSession : Request :=
  .socket 7 [demoRegister "key" "credential" none, .text (.updateCandidates [demoCandidate])]

/-- Some sections of a task. -/
def sections (t n : ℕ) : List WorldStep := List.replicate n (.move (.step t Coord.demoEnv))

def demoRegistered : Option (World × Confirmation) :=
  (runSteps demoPrim demoServer 7 (fun _ _ => true)
    ({ server := (Watched demoPrim demoServer).initial Coord.demoState
       uplink := match demoRegister "key" "credential" none with
         | .text message => [message]
         | _ => []
       link := .new [] 0 }, Confirmation.start)
    (.move (.spawn 0 demoSession) :: sections 0 18)).map fun (w, h) => ({ w with link := .new [] 0 }, h)

def demoClient (x : World × Confirmation) : RuntimeState (World × Confirmation) :=
  .new demoPeer Core.demoState.heap x none none [] []

def demoWorldEnv (steps : List WorldStep) : Env WorldEnv where
  network := { steps := steps, fault := none }
  node := []
  unixTime := 10
  timedOut := false
  hostCandidates := []
  stun := .ok []
  saveError := none
  virtualMtu := 1190

def demoUpdate (check : World × Confirmation → WorldStep → Bool) (steps : List WorldStep)
    (x : World × Confirmation) :
    Option (Except CoordClientError NetworkSnapshot × RuntimeState (World × Confirmation)) :=
  Prog.run (exec demoSuite demoPeer (served demoPrim demoServer 7 check))
    (CoordinationClient.updateCandidatesAndGetSnapshot 1 [demoCandidate]).run
    [demoWorldEnv [], demoWorldEnv steps] (demoClient x)

def demoRound : List WorldStep := .move (.spawn 1 .broadcastLoop) :: sections 1 7 ++ [.write]

/-- The candidates of a returned snapshot, and how many snapshots were built after the update. -/
def shown (result : Except CoordClientError NetworkSnapshot × RuntimeState (World × Confirmation)) :
    Option (List (List Candidate)) × ℕ :=
  (result.1.toOption.map fun snapshot => snapshot.peers.map PeerInfo.candidates,
    result.2.network.2.builtAfter.length)

lemma demoRegistered_reached {x : World × Confirmation} (h : demoRegistered = some x) :
    x.1.Reached demoPrim demoServer ∧ ∀ snapshot, ¬ x.1.link.Carries snapshot := by
  obtain ⟨⟨w, history⟩, hrun, rfl⟩ := Option.map_eq_some_iff.1 h
  have hreached := runSteps_invariant
    (fun _ _ _ hx _ => reached_step hx) _ ⟨Coord.demoState, .refl⟩ hrun
  exact ⟨hreached, by simp [Link.Carries, Link.new]⟩

lemma demoUpdate_facts :
    (demoRegistered.bind (demoUpdate (calm 7) (sections 0 3 ++ demoRound))).map shown =
      some (some [[demoCandidate]], 1) := by
  decide +kernel

theorem update_confirmed_round :
    ∃ (x : World × Confirmation) (snapshot : NetworkSnapshot)
      (s' : RuntimeState (World × Confirmation)), demoRegistered = some x ∧
      demoUpdate (calm 7) (sections 0 3 ++ demoRound) x = some (.ok snapshot, s') ∧
      Confirmed [demoCandidate] snapshot s'.network.2 := by
  obtain ⟨⟨r, s'⟩, hrun, hshown⟩ := Option.map_eq_some_iff.1 demoUpdate_facts
  obtain ⟨x, hx, hupdate⟩ := Option.bind_eq_some_iff.1 hrun
  obtain ⟨hreached, hquiet⟩ := demoRegistered_reached hx
  cases r with
  | error error => cases hshown
  | ok snapshot =>
    refine ⟨x, snapshot, s', hx, hupdate, ?_⟩
    exact Prog.wp_run (update_confirmed demoPrim demoServer 7 demoSuite demoPeer 1 [demoCandidate]
      (demoClient x) hreached hquiet) hupdate snapshot rfl

lemma demoEarly_facts :
    (demoRegistered.bind (demoUpdate (fun _ _ => true) demoRound)).map shown =
      some (some [[]], 0) := by
  decide +kernel

/-- The broadcast of the node's own registration comes after it has sent its update, and before the
server has received it: the call returns a snapshot without the update. -/
theorem broadcast_confirms :
    ¬ ∀ (prim : Primitives) (server : Server) (k : UInt64) (suite : Suite) (peer : Peer) (fuel : ℕ)
      (candidates : List Candidate) (s : RuntimeState (World × Confirmation)),
      s.network.1.Reached prim server → (∀ snapshot, ¬ s.network.1.link.Carries snapshot) →
      (CoordinationClient.updateCandidatesAndGetSnapshot fuel candidates).run.wp
        (exec suite peer (served prim server k fun _ _ => true))
        (fun r s' => ∀ snapshot, r = .ok snapshot → Confirmed candidates snapshot s'.network.2) s := by
  intro h
  obtain ⟨⟨r, s'⟩, hrun, hshown⟩ := Option.map_eq_some_iff.1 demoEarly_facts
  obtain ⟨x, hx, hupdate⟩ := Option.bind_eq_some_iff.1 hrun
  obtain ⟨hreached, hquiet⟩ := demoRegistered_reached hx
  cases r with
  | error error => cases hshown
  | ok snapshot =>
    have hconfirmed := Prog.wp_run (h demoPrim demoServer 7 demoSuite demoPeer 1 [demoCandidate]
      (demoClient x) hreached hquiet) hupdate snapshot rfl
    have hnone : s'.network.2.builtAfter.length = 0 := (Prod.mk.inj hshown).2
    have hmem := hconfirmed.1
    rw [List.length_eq_zero_iff.1 hnone] at hmem
    cases hmem

end Demo

end Vela.Runtime
