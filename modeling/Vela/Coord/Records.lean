import Vela.Coord.Progress

/-!
# Invariants of the stored records

A rule for properties of the rows that do not look at names, candidates or revocation: such a property
holds of every row, of every row that a task has read and of every list of peers it has loaded, if it
holds of what a registration puts together.
-/

namespace Vela.Coord

open Vela.Proto Vela.Crypto Function

/-- Identity, addresses and credential of a row. -/
structure Record where
  nodeId : NodeId
  signingPublic : Vector UInt8 32
  noisePublic : Vector UInt8 32
  virtualIpv4 : Option Ipv4Addr
  virtualIpv6 : Option Ipv6Addr
  credential : List UInt8

def PeerRow.record (row : PeerRow) (nodeId : NodeId) : Record where
  nodeId := nodeId
  signingPublic := row.signingPublic
  noisePublic := row.noisePublic
  virtualIpv4 := row.virtualIpv4
  virtualIpv6 := row.virtualIpv6
  credential := row.credential

def StoredPeer.record (peer : StoredPeer) : Record where
  nodeId := peer.nodeId
  signingPublic := peer.signingPublic
  noisePublic := peer.noisePublic
  virtualIpv4 := peer.virtualIpv4
  virtualIpv6 := peer.virtualIpv6
  credential := peer.credential

/-- `COALESCE`: the addresses that are missing come from the row that was there. -/
def Record.over (record old : Record) : Record :=
  { record with
    virtualIpv4 := record.virtualIpv4.or old.virtualIpv4
    virtualIpv6 := record.virtualIpv6.or old.virtualIpv6 }

lemma record_upsertRow (peer : StoredPeer) (row : PeerRow) :
    (CoordState.upsertRow peer (some row)).record peer.nodeId =
      peer.record.over (row.record peer.nodeId) := rfl

variable {s : CoordState} {c : Section} {peer : StoredPeer} {γ : Progress} {e : Env} {t : ℕ}

lemma mem_loadPeers : peer ∈ s.loadPeers ↔
    ∃ row, s.liveRow peer.nodeId = some row ∧ peer = CoordState.storedPeer peer.nodeId row := by
  unfold CoordState.loadPeers
  rw [List.mem_insertionSort, List.mem_map]
  constructor
  · rintro ⟨⟨n, row⟩, hmem, rfl⟩
    obtain ⟨hentry, hlive⟩ := List.mem_filter.1 hmem
    refine ⟨row, ?_, rfl⟩
    exact Option.filter_eq_some_iff.2 ⟨AList.mem_lookup_iff.2 hentry, hlive⟩
  · rintro ⟨row, hrow, hpeer⟩
    obtain ⟨hlookup, hlive⟩ := Option.filter_eq_some_iff.1 hrow
    exact ⟨⟨peer.nodeId, row⟩, List.mem_filter.2 ⟨AList.mem_lookup_iff.1 hlookup, hlive⟩, hpeer.symm⟩

/-- `K` holds of every row, of the row that a task is about to write back and of the peers that it
has loaded for a snapshot. -/
structure RecordsHold (K : Record → Prop) (s : CoordState) (φ : ℕ → Progress) : Prop where
  rows : ∀ n row, s.peers.lookup n = some row → K (row.record n)
  loaded : ∀ t n peer, (φ t).loaded = some (n, peer) → K { peer.record with nodeId := n }
  listed : ∀ t, ∀ peer ∈ (φ t).peers, K peer.record

variable {prim : Primitives} {server : Server} {K : Record → Prop}

/-- The sections after which a task may have another row in hand. -/
def Loads : Section → Prop
  | .recv _ _ | .loadPeer _ | .updatePeer _ => True
  | _ => False

lemma next_loaded (hc : ¬ Loads c) (r : Response c) : (γ.next prim server c r).loaded = γ.loaded := by
  unfold Progress.next
  split <;> first | rfl | exact absurd trivial hc | (split <;> rfl)

lemma loaded_next {n : NodeId}
    (h : (γ.next prim server c (perform prim server e c s).1).loaded = some (n, peer)) :
    γ.loaded = some (n, peer) ∨ s.loadPeer n = some peer := by
  by_cases hc : Loads c
  · cases c with
    | recv => cases h
    | updatePeer written =>
      revert h
      simp only [perform, Env.database]
      split
      · intro h
        cases h
      · intro h
        cases h
    | loadPeer m =>
      revert h
      simp only [perform, Env.database]
      split
      · exact .inl
      · simp only [Progress.next]
        split
        · intro h
          obtain ⟨found, hfound, heq⟩ := Option.map_eq_some_iff.1 h
          cases heq
          exact .inr hfound
        · exact .inl
    | _ => cases hc
  · rw [next_loaded hc] at h
    exact .inl h

/-- **One section keeps `K`**, if it holds of what a registration stores. -/
theorem recordsHold_step {cfg : TrackedCfg} (hmix : ∀ a b : Record, K a → K b → K (a.over b))
    (h : RecordsHold K cfg.shared cfg.phase) (hok : (cfg.phase t).Allows prim c)
    (hregister : ∀ peer, (cfg.phase t).Registers prim peer → K peer.record) :
    RecordsHold K (perform prim server e c cfg.shared).2 (update cfg.phase t
      ((cfg.phase t).next prim server c (perform prim server e c cfg.shared).1)) := by
  -- what a task stores, whichever message it handles
  have hstored : ∀ peer, c = .updatePeer peer → K peer.record := by
    rintro peer rfl
    rcases hok.1 with hreg | hupd
    · exact hregister peer hreg
    · obtain ⟨row, hrow, hpeer⟩ := hupd.row
      have hk := h.loaded t _ row hrow
      rw [hpeer]
      exact hk
  refine ⟨fun n row hrow => ?_, fun u n peer hu => ?_, fun u peer hpeer => ?_⟩
  · have hstep := @rowStep_perform prim server e c cfg.shared n
    rw [hrow] at hstep
    have hold := h.rows n
    generalize cfg.shared.peers.lookup n = before at hstep hold
    generalize hafter : some row = after at hstep
    cases hstep with
    | same => exact hold row hafter.symm
    | noted _ old =>
      cases hafter
      exact hold old rfl
    | revoked old =>
      cases hafter
      exact hold old rfl
    | deleted => cases hafter
    | stored peer old hn =>
      cases hafter
      subst hn
      cases before with
      | none => exact hstored peer rfl
      | some old =>
        rw [record_upsertRow]
        exact hmix _ _ (hstored peer rfl) (hold old rfl)
  · by_cases hut : u = t
    · subst hut
      rw [update_self] at hu
      rcases loaded_next hu with hold | hload
      · exact h.loaded u n peer hold
      · obtain ⟨row, hrow, rfl⟩ := Option.map_eq_some_iff.1 hload
        exact h.rows n row (Option.filter_eq_some_iff.1 hrow).1
    · rw [update_of_ne hut] at hu
      exact h.loaded u n peer hu
  · by_cases hut : u = t
    · subst hut
      rw [update_self] at hpeer
      have hstep := @buildStep_next prim server e c cfg.shared (cfg.phase u)
      generalize (cfg.phase u).next prim server c _ = γ' at hstep hpeer
      cases hstep with
      | same _ hsame => exact h.listed u peer (hsame.peers ▸ hpeer)
      | dropped _ _ hpeers =>
        rcases hpeers with hpeers | hpeers <;> rw [hpeers] at hpeer
        · exact h.listed u peer hpeer
        · cases hpeer
      | peers _ heq =>
        subst heq
        obtain ⟨row, hrow, hpeer⟩ := mem_loadPeers.1 hpeer
        rw [hpeer]
        exact h.rows _ row (Option.filter_eq_some_iff.1 hrow).1
      | begun _ _ _ _ heq | config _ heq | generation _ heq | signed _ _ heq =>
        subst heq
        exact h.listed u peer hpeer
    · rw [update_of_ne hut] at hpeer
      exact h.listed u peer hpeer

lemma recordsHold_spawn {s' : CoordState} {φ : ℕ → Progress} {q : Request} (h : RecordsHold K s φ)
    (ha : q.accept s = some s') :
    RecordsHold K s' (update φ t Progress.idle) := by
  obtain ⟨spawned, rfl⟩ := Request.accept_eq ha
  refine ⟨h.rows, fun u n peer hu => ?_, fun u peer hpeer => ?_⟩
  · by_cases hut : u = t
    · subst hut
      rw [update_self] at hu
      cases hu
    · rw [update_of_ne hut] at hu
      exact h.loaded u n peer hu
  · by_cases hut : u = t
    · subst hut
      rw [update_self] at hpeer
      cases hpeer
    · rw [update_of_ne hut] at hpeer
      exact h.listed u peer hpeer

lemma recordsHold_initial (h : ∀ n row, s.peers.lookup n = some row → K (row.record n)) :
    RecordsHold K s fun _ => Progress.idle :=
  ⟨h, fun _ _ _ ht => (by cases ht), fun _ _ ht => (by cases ht)⟩

end Vela.Coord
