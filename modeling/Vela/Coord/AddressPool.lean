import Vela.Coord.Server
import Vela.Lib.Probe

/-!
# The pool of virtual IPv4 addresses

A peer's address is a host of the virtual network, looked for from a place that the hash of its id gives.
`allocate_virtual_ipv4` does so for one node; `migrate_virtual_ipv4` goes through the whole table when the
server starts, and gives a new address to every row without a usable one of its own.

* `addresses_allocated` — both searches find a free host whenever there is one, and the rows of a migrated
  table have usable addresses, each its own;
* `migration_keeps_iff` — when the migration leaves the addresses alone that were in order.
-/

namespace Vela.Coord

open Vela.Proto Vela.Crypto Codec

section Hosts

def hostAddress (host : ℕ) : Ipv4Addr := ipv4OfNat (virtualIpv4NetworkBase + host)

/-- A host of the network other than the network itself and the broadcast address. -/
def UsableHost (host : ℕ) : Prop := 1 ≤ host ∧ host ≤ virtualIpv4UsableHosts

def virtualIpv4Host (address : Ipv4Addr) : Option ℕ :=
  let number := ofBeBytes address.octets.toList
  if number < virtualIpv4NetworkBase then none
  else
    let host := number - virtualIpv4NetworkBase
    if 1 ≤ host ∧ host ≤ virtualIpv4UsableHosts then some host else none

lemma ipv4OfNat_octets (n : ℕ) : (ipv4OfNat n).octets.toList = beBytes 4 n := by
  simp [ipv4OfNat, beBytes]

variable {host : ℕ}

lemma hostAddress_number (h : host < 2 ^ 16) :
    ofBeBytes (hostAddress host).octets.toList = virtualIpv4NetworkBase + host := by
  rw [hostAddress, ipv4OfNat_octets, ofBeBytes_beBytes, Nat.mod_eq_of_lt]
  simp only [virtualIpv4NetworkBase]
  omega

lemma hostAddress_ne {other : ℕ} (h : host < 2 ^ 16) (hother : other < 2 ^ 16) (hne : host ≠ other) :
    hostAddress host ≠ hostAddress other := by
  intro heq
  have hnumber := hostAddress_number h
  rw [heq, hostAddress_number hother] at hnumber
  omega

lemma virtualIpv4Host_eq_some {address : Ipv4Addr} :
    virtualIpv4Host address = some host ↔ UsableHost host ∧ address = hostAddress host := by
  have hoctets : address = ipv4OfNat (ofBeBytes address.octets.toList) := by
    have hbytes := beBytes_ofBeBytes (n := 4) (l := address.octets.toList) (by simp)
    rw [← ipv4OfNat_octets] at hbytes
    cases address
    exact congrArg Ipv4Addr.mk (Vector.toList_inj.1 hbytes.symm)
  simp only [virtualIpv4Host]
  constructor
  · intro h
    split at h
    · cases h
    · split at h
      · rename_i hbase husable
        obtain rfl := Option.some.inj h
        refine ⟨husable, hoctets.trans ?_⟩
        rw [hostAddress, Nat.add_sub_of_le (Nat.le_of_not_lt hbase)]
      · cases h
  · rintro ⟨⟨hlow, hhigh⟩, rfl⟩
    rw [hostAddress_number (Nat.lt_of_le_of_lt hhigh (by decide)), if_neg (Nat.not_lt.2 (Nat.le_add_right ..)),
      Nat.add_sub_cancel_left, if_pos ⟨hlow, hhigh⟩]

lemma searchHost_eq (used : Ipv4Addr → Bool) (start rounds offset : ℕ) :
    searchHost used start rounds offset = (Probe.search virtualIpv4UsableHosts
      (fun host => used (hostAddress host)) start rounds offset).map hostAddress := by
  induction rounds generalizing offset with
  | zero => rfl
  | succ rounds ih =>
    simp only [searchHost, Probe.search, ih, apply_ite (Option.map hostAddress)]
    rfl

end Hosts

/-! ### The migration -/

/-- What the migration reads of a row of `peers`. -/
structure AddressRow where
  nodeId : List UInt8
  virtualIpv4 : Option (List UInt8)
  deriving DecidableEq

/-- The usable host that the row has stored. -/
def AddressRow.host (row : AddressRow) : Option ℕ :=
  (row.virtualIpv4.bind fun bytes => (toArray? 4 bytes).map Ipv4Addr.mk).bind virtualIpv4Host

/-- The table `peers` in the order of its primary key. -/
structure PeerTable where
  rows : List AddressRow
  sorted : rows.Pairwise fun a b => a.nodeId < b.nodeId

def AddressRow.update (row : AddressRow) (update : List UInt8 × List UInt8) : AddressRow :=
  if row.nodeId = update.1 then { row with virtualIpv4 := some update.2 } else row

@[simp] lemma AddressRow.update_nodeId (row : AddressRow) (update : List UInt8 × List UInt8) :
    (row.update update).nodeId = row.nodeId := by
  unfold AddressRow.update
  split <;> rfl

/-- `UPDATE peers SET virtual_ipv4 = ?1 WHERE node_id = ?2`. -/
def PeerTable.update (table : PeerTable) (update : List UInt8 × List UInt8) : PeerTable where
  rows := table.rows.map fun row => row.update update
  sorted := List.pairwise_map.2 (table.sorted.imp fun h => by simpa using h)

section Migration

variable (prim : Primitives)

def allocateVirtualIpv4FromUsed (nodeId : NodeId) (usedHosts : Finset ℕ) :
    Except CoordError (Ipv4Addr × Finset ℕ) :=
  let digest := prim.blake3 nodeId.bytes.toList
  let start := ofBeBytes (digest.toList.take 4) % virtualIpv4UsableHosts
  match Probe.search virtualIpv4UsableHosts (fun host => decide (host ∈ usedHosts)) start
      virtualIpv4UsableHosts 0 with
  | some host => .ok (hostAddress host, insert host usedHosts)
  | none => .error .addressPoolExhausted

/-- The loop over the rows: the hosts taken so far, and the updates. -/
def migrateRows : Finset ℕ → List AddressRow → Except CoordError (List (List UInt8 × List UInt8))
  | _, [] => .ok []
  | usedHosts, row :: rows =>
    -- `used_hosts.insert(host)` is false for a host that an earlier row took
    match row.host.filter (· ∉ usedHosts) with
    | some host => migrateRows (insert host usedHosts) rows
    | none =>
      match toArray? 32 row.nodeId with
      | none => .error .invalidPeer
      | some nodeId => do
        let (address, usedHosts) ← allocateVirtualIpv4FromUsed prim ⟨nodeId⟩ usedHosts
        let updates ← migrateRows usedHosts rows
        return (row.nodeId, address.octets.toList) :: updates

/-- One statement of the transaction. -/
def statement (fault : Option CoordError) : Except CoordError Unit :=
  match fault with
  | some error => .error error
  | none => .ok ()

/-- The updates, from statement `k` of the transaction on, and the commit. -/
def executeUpdates (fault : ℕ → Option CoordError) (k : ℕ) :
    List (List UInt8 × List UInt8) → PeerTable → Except CoordError PeerTable
  | [], table => do
    statement (fault k)
    return table
  | update :: updates, table => do
    statement (fault k)
    executeUpdates fault (k + 1) updates (table.update update)

/-- Each statement of the transaction may fail; then the transaction is dropped, and rolled back. -/
def migrateVirtualIpv4 (fault : ℕ → Option CoordError) (table : PeerTable) :
    Except CoordError Unit × PeerTable :=
  let transaction : Except CoordError PeerTable := do
    statement (fault 0)
    statement (fault 1)
    let updates ← migrateRows prim ∅ table.rows
    executeUpdates fault 2 updates table
  match transaction with
  | .ok table' => (.ok (), table')
  | .error error => (.error error, table)

end Migration

lemma AddressRow.host_eq_some {row : AddressRow} {host : ℕ} : row.host = some host ↔
    UsableHost host ∧ row.virtualIpv4 = some (hostAddress host).octets.toList := by
  have hbytes : ∀ bytes, ((toArray? 4 bytes).map Ipv4Addr.mk).bind virtualIpv4Host = some host ↔
      UsableHost host ∧ bytes = (hostAddress host).octets.toList := by
    intro bytes
    unfold toArray?
    split
    · rename_i hsize
      rw [Option.map_some, Option.bind_some, virtualIpv4Host_eq_some]
      refine and_congr_right fun _ => ⟨fun h => by rw [← h]; rfl, ?_⟩
      rintro rfl
      exact congrArg Ipv4Addr.mk (Vector.toArray_inj.1 Array.toArray_toList)
    · rename_i hsize
      refine iff_of_false nofun fun ⟨_, h⟩ => hsize ?_
      rw [h]
      simp
  unfold AddressRow.host
  cases row.virtualIpv4 with
  | none => simp
  | some bytes => simpa using hbytes bytes

/-- The rows have usable addresses outside the hosts `used`, and no two the same. -/
structure Settled (used : Finset ℕ) (rows : List AddressRow) : Prop where
  distinct : rows.Pairwise fun a b => a.host ≠ b.host
  usable : ∀ row ∈ rows, ∃ host, row.host = some host ∧ host ∉ used

section Runs

variable {prim : Primitives} {used : Finset ℕ} {row : AddressRow} {rows rows' : List AddressRow}
  {updates : List (List UInt8 × List UInt8)}

/-- The first host that is not in use, from the one on that the node's hash gives. -/
def FirstHost (prim : Primitives) (used : Finset ℕ) (nodeId : List UInt8) (host : ℕ) : Prop :=
  Probe.First virtualIpv4UsableHosts (fun host => decide (host ∈ used))
    (ofBeBytes ((prim.blake3 nodeId).toList.take 4) % virtualIpv4UsableHosts) host

/-- A run of the loop from some hosts on: the updates, and the rows as they will be. -/
inductive Migrates (prim : Primitives) :
    Finset ℕ → List AddressRow → List (List UInt8 × List UInt8) → List AddressRow → Prop
  | nil (used : Finset ℕ) : Migrates prim used [] [] []
  | keep {used : Finset ℕ} {row : AddressRow} {rows rows' : List AddressRow}
      {updates : List (List UInt8 × List UInt8)} {host : ℕ} (hhost : row.host = some host)
      (hfree : host ∉ used) (rest : Migrates prim (insert host used) rows updates rows') :
      Migrates prim used (row :: rows) updates (row :: rows')
  | move {used : Finset ℕ} {row : AddressRow} {rows rows' : List AddressRow}
      {updates : List (List UInt8 × List UInt8)} {host : ℕ} (hold : ∀ old, row.host = some old → old ∈ used)
      (husable : UsableHost host) (hfree : host ∉ used) (hfirst : FirstHost prim used row.nodeId host)
      (rest : Migrates prim (insert host used) rows updates rows') :
      Migrates prim used (row :: rows) ((row.nodeId, (hostAddress host).octets.toList) :: updates)
        ({ row with virtualIpv4 := some (hostAddress host).octets.toList } :: rows')

lemma migrates_of_ok (h : migrateRows prim used rows = .ok updates) :
    ∃ rows', Migrates prim used rows updates rows' := by
  induction rows generalizing used updates with
  | nil =>
    obtain rfl := Except.ok.inj h
    exact ⟨[], .nil used⟩
  | cons row rows ih =>
    simp only [migrateRows] at h
    split at h
    · rename_i host hhost
      obtain ⟨hhost, hfree⟩ := Option.filter_eq_some_iff.1 hhost
      obtain ⟨rows', hrows⟩ := ih h
      exact ⟨_, .keep hhost (by simpa using hfree) hrows⟩
    · rename_i hold
      split at h
      · cases h
      · rename_i nodeId hid
        simp only [allocateVirtualIpv4FromUsed] at h
        split at h
        · rename_i host hhost
          have hbytes : nodeId.toList = row.nodeId := by
            unfold toArray? at hid
            split at hid
            · cases hid
              rfl
            · cases hid
          obtain ⟨hfree, husable⟩ := Probe.search_some (by decide) hhost
          cases hrest : migrateRows prim (insert host used) rows with
          | error error =>
            simp only [bind, Except.bind, hrest] at h
            cases h
          | ok rest =>
            simp only [bind, Except.bind, hrest] at h
            obtain rfl := Except.ok.inj h
            obtain ⟨rows', hrows⟩ := ih hrest
            refine ⟨_, .move (fun old hrow => ?_) husable (by simpa using hfree) ?_ hrows⟩
            · simpa [hrow] using hold
            · rw [FirstHost, ← hbytes]
              exact Probe.search_first hhost
        · cases h

lemma exists_migrateRows (hids : ∀ row ∈ rows, row.nodeId.length = 32)
    (hcard : used.card + rows.length ≤ virtualIpv4UsableHosts) :
    ∃ updates, migrateRows prim used rows = .ok updates := by
  induction rows generalizing used with
  | nil => exact ⟨[], rfl⟩
  | cons row rows ih =>
    rw [List.length_cons] at hcard
    have hrest : ∀ host, ∃ updates, migrateRows prim (insert host used) rows = .ok updates := by
      intro host
      have hinsert := Finset.card_insert_le host used
      exact ih (fun row hrow => hids row (.tail _ hrow)) (by omega)
    simp only [migrateRows]
    split
    · exact hrest _
    · have hid : ∃ nodeId, toArray? 32 row.nodeId = some nodeId :=
        ⟨_, dif_pos (hids row (.head _))⟩
      obtain ⟨nodeId, hid⟩ := hid
      obtain ⟨host, hhost⟩ := @Probe.exists_search_some virtualIpv4UsableHosts used
        (ofBeBytes ((prim.blake3 nodeId.toList).toList.take 4) % virtualIpv4UsableHosts) (by omega)
      obtain ⟨updates, hupdates⟩ := hrest host
      exact ⟨_, by simp only [hid, allocateVirtualIpv4FromUsed, hhost, bind, Except.bind, hupdates]; rfl⟩

lemma Settled.cons {host : ℕ} (hhost : row.host = some host) (hfree : host ∉ used)
    (h : Settled (insert host used) rows) : Settled used (row :: rows) where
  distinct := by
    refine List.pairwise_cons.2 ⟨fun other hother heq => ?_, h.distinct⟩
    obtain ⟨host', hhost', hnew⟩ := h.usable other hother
    obtain rfl := Option.some.inj (hhost.symm.trans (heq.trans hhost'))
    exact hnew (Finset.mem_insert_self ..)
  usable other hother := by
    rcases List.mem_cons.1 hother with rfl | hother
    · exact ⟨host, hhost, hfree⟩
    · obtain ⟨host', hhost', hnew⟩ := h.usable other hother
      exact ⟨host', hhost', fun hmem => hnew (Finset.mem_insert_of_mem hmem)⟩

lemma Migrates.settled (h : Migrates prim used rows updates rows') : Settled used rows' := by
  induction h with
  | nil used => exact ⟨.nil, nofun⟩
  | keep hhost hfree _ ih => exact ih.cons hhost hfree
  | move _ husable hfree _ _ ih => exact ih.cons (AddressRow.host_eq_some.2 ⟨husable, rfl⟩) hfree

lemma Migrates.update_cases (h : Migrates prim used rows updates rows') {update : List UInt8 × List UInt8}
    (hupdate : update ∈ updates) : ∃ row ∈ rows, row.nodeId = update.1 ∧
      ({ row with virtualIpv4 := some update.2 } : AddressRow) ∈ rows' ∧ row.virtualIpv4 ≠ some update.2 := by
  induction h with
  | nil used => cases hupdate
  | keep _ _ _ ih =>
    obtain ⟨row, hrow, hid, hnew, hne⟩ := ih hupdate
    exact ⟨row, .tail _ hrow, hid, .tail _ hnew, hne⟩
  | move hold husable hfree _ _ ih =>
    rcases List.mem_cons.1 hupdate with rfl | hupdate
    · refine ⟨_, .head _, rfl, .head _, fun hsame => hfree ?_⟩
      exact hold _ (AddressRow.host_eq_some.2 ⟨husable, hsame⟩)
    · obtain ⟨row, hrow, hid, hnew, hne⟩ := ih hupdate
      exact ⟨row, .tail _ hrow, hid, .tail _ hnew, hne⟩

lemma Migrates.keeps (h : Migrates prim used rows updates rows') {host : ℕ} (hrow : row ∈ rows)
    (hhost : row.host = some host) (hfree : host ∉ used)
    (hown : ∀ other ∈ rows, other.host = some host → other = row)
    (hupdates : ∀ update ∈ updates, row.virtualIpv4 ≠ some update.2) : row ∈ rows' := by
  induction h with
  | nil used => cases hrow
  | @keep used first rows rows' updates taken htaken _ _ ih =>
    rcases List.mem_cons.1 hrow with rfl | hrow
    · exact .head _
    · by_cases heq : host = taken
      · rw [hown first (.head _) (heq ▸ htaken)]
        exact .head _
      · refine .tail _ (ih hrow (by simp [heq, hfree]) (fun other hother => ?_) hupdates)
        exact hown other (.tail _ hother)
  | @move used first rows rows' updates taken hold husable _ _ _ ih =>
    rcases List.mem_cons.1 hrow with rfl | hrow
    · exact absurd (hold host hhost) hfree
    · have hne : host ≠ taken := by
        rintro rfl
        exact hupdates _ (.head _) (AddressRow.host_eq_some.1 hhost).2
      refine .tail _ (ih hrow (by simp [hne, hfree]) (fun other hother => ?_) fun update hupdate => ?_)
      · exact hown other (.tail _ hother)
      · exact hupdates update (.tail _ hupdate)

lemma foldl_update_nodeId (row : AddressRow) (updates : List (List UInt8 × List UInt8)) :
    (updates.foldl AddressRow.update row).nodeId = row.nodeId := by
  induction updates generalizing row with
  | nil => rfl
  | cons update updates ih => exact (ih _).trans (row.update_nodeId update)

lemma foldl_update_of_absent (h : ∀ update ∈ updates, row.nodeId ≠ update.1) :
    updates.foldl AddressRow.update row = row := by
  induction updates with
  | nil => rfl
  | cons update updates ih =>
    rw [List.foldl_cons, AddressRow.update, if_neg (h update (.head _))]
    exact ih fun update hupdate => h update (.tail _ hupdate)

lemma Migrates.rows_eq (h : Migrates prim used rows updates rows')
    (hids : rows.Pairwise fun a b => a.nodeId ≠ b.nodeId) :
    rows.map (fun row => updates.foldl AddressRow.update row) = rows' := by
  have hfirst : ∀ {used : Finset ℕ} {rows rows' : List AddressRow}
      {updates : List (List UInt8 × List UInt8)}, Migrates prim used rows updates rows' →
      ∀ row : AddressRow, (∀ other ∈ rows, row.nodeId ≠ other.nodeId) →
        updates.foldl AddressRow.update row = row := by
    intro used rows rows' updates hrest row hne
    refine foldl_update_of_absent fun update hupdate => ?_
    obtain ⟨other, hother, heq, -⟩ := hrest.update_cases hupdate
    rw [← heq]
    exact hne other hother
  induction h with
  | nil used => rfl
  | keep _ _ rest ih =>
    obtain ⟨hne, hids⟩ := List.pairwise_cons.1 hids
    rw [List.map_cons, ih hids, hfirst rest _ hne]
  | @move used row rows rows' updates host _ _ _ _ rest ih =>
    obtain ⟨hne, hids⟩ := List.pairwise_cons.1 hids
    rw [← ih hids, List.map_cons, List.foldl_cons, AddressRow.update, if_pos rfl]
    refine congrArg₂ List.cons (hfirst rest _ hne) (List.map_congr_left fun other hother => ?_)
    rw [List.foldl_cons, AddressRow.update, if_neg (hne other hother).symm]

variable {fault : ℕ → Option CoordError} {table table' : PeerTable}

lemma executeUpdates_rows {k : ℕ} (h : executeUpdates fault k updates table = .ok table') :
    table'.rows = table.rows.map fun row => updates.foldl AddressRow.update row := by
  induction updates generalizing k table with
  | nil =>
    simp only [executeUpdates] at h
    cases hfault : statement (fault k) with
    | error error => rw [hfault] at h; cases h
    | ok _ =>
      rw [hfault] at h
      obtain rfl := Except.ok.inj h
      simp
  | cons update updates ih =>
    simp only [executeUpdates] at h
    cases hfault : statement (fault k) with
    | error error => rw [hfault] at h; cases h
    | ok _ =>
      rw [hfault] at h
      rw [ih h, PeerTable.update, List.map_map]
      rfl

lemma PeerTable.ids (table : PeerTable) : table.rows.Pairwise fun a b => a.nodeId ≠ b.nodeId := by
  refine table.sorted.imp fun {a b} h heq => ?_
  rw [heq] at h
  exact List.lt_irrefl _ h

lemma migrates_of_success (h : migrateVirtualIpv4 prim fault table = (.ok (), table')) :
    ∃ updates, migrateRows prim ∅ table.rows = .ok updates ∧
      table'.rows = table.rows.map (fun row => updates.foldl AddressRow.update row) ∧
      Migrates prim ∅ table.rows updates table'.rows := by
  unfold migrateVirtualIpv4 at h
  cases h₀ : statement (fault 0) with
  | error error => simp only [h₀, bind, Except.bind] at h; cases h
  | ok _ =>
  cases h₁ : statement (fault 1) with
  | error error => simp only [h₀, h₁, bind, Except.bind] at h; cases h
  | ok _ =>
  cases hupdates : migrateRows prim ∅ table.rows with
  | error error => simp only [h₀, h₁, hupdates, bind, Except.bind] at h; cases h
  | ok updates =>
  simp only [h₀, h₁, hupdates, bind, Except.bind] at h
  split at h
  · rename_i hexecute
    obtain rfl := (Prod.mk.inj h).2
    obtain ⟨rows', hrows⟩ := migrates_of_ok hupdates
    have hexecuted := executeUpdates_rows hexecute
    refine ⟨updates, rfl, hexecuted, ?_⟩
    rwa [hexecuted, hrows.rows_eq table.ids]
  · cases h

end Runs

/-! ### Allocation -/

def CoordState.addressOf (s : CoordState) (n : NodeId) : Option Ipv4Addr :=
  (s.peers.lookup n).bind PeerRow.virtualIpv4

/-- A row, revoked or not, has the address. -/
def CoordState.Holds (s : CoordState) (address : Ipv4Addr) : Prop := ∃ n, s.addressOf n = some address

variable {s : CoordState} {address : Ipv4Addr} {prim : Primitives} {n : NodeId}

lemma addressUsed_iff : s.addressUsed address = true ↔ s.Holds address := by
  simp only [CoordState.addressUsed, List.any_eq_true, beq_iff_eq, CoordState.Holds, CoordState.addressOf,
    Option.bind_eq_some_iff]
  constructor
  · rintro ⟨⟨n, row⟩, hentry, haddress⟩
    exact ⟨n, row, AList.mem_lookup_iff.2 hentry, haddress⟩
  · rintro ⟨n, row, hrow, haddress⟩
    exact ⟨⟨n, row⟩, AList.mem_lookup_iff.1 hrow, haddress⟩

lemma allocateVirtualIpv4_ok (h : s.allocateVirtualIpv4 prim n = .ok address) :
    (∃ host, UsableHost host ∧ address = hostAddress host) ∧ ¬ s.Holds address := by
  unfold CoordState.allocateVirtualIpv4 at h
  simp only [searchHost_eq] at h
  split at h
  · rename_i found hfound
    obtain rfl := Except.ok.inj h
    obtain ⟨host, hhost, rfl⟩ := Option.map_eq_some_iff.1 hfound
    obtain ⟨hfree, husable⟩ := Probe.search_some (by decide) hhost
    refine ⟨⟨host, husable, rfl⟩, fun hheld => ?_⟩
    rw [addressUsed_iff.2 hheld] at hfree
    cases hfree
  · cases h

lemma allocateVirtualIpv4_error {error : CoordError} :
    s.allocateVirtualIpv4 prim n = .error error ↔
      error = .addressPoolExhausted ∧ ∀ host, UsableHost host → s.Holds (hostAddress host) := by
  have hfull : ∀ start, searchHost s.addressUsed start virtualIpv4UsableHosts 0 = none ↔
      ∀ host, UsableHost host → s.Holds (hostAddress host) := by
    intro start
    rw [searchHost_eq, Option.map_eq_none_iff, Probe.search_eq_none_iff (by decide)]
    simp only [addressUsed_iff, UsableHost, and_imp]
  unfold CoordState.allocateVirtualIpv4
  simp only
  split
  · rename_i found hfound
    refine iff_of_false nofun fun ⟨_, h⟩ => ?_
    cases ((hfull _).2 h).symm.trans hfound
  · rename_i hnone
    rw [and_iff_left ((hfull _).1 hnone), Except.error.injEq, eq_comm]

/-- **Addresses are allocated while there are any.** -/
theorem addresses_allocated (prim : Primitives) :
    (∀ (s : CoordState) (n : NodeId),
      (∀ address, s.allocateVirtualIpv4 prim n = .ok address →
        (∃ host, UsableHost host ∧ address = hostAddress host) ∧ address ≠ hostAddress 0 ∧
          address ≠ hostAddress (2 ^ 16 - 1) ∧ ¬ s.Holds address) ∧
      ∀ error, s.allocateVirtualIpv4 prim n = .error error ↔
        error = .addressPoolExhausted ∧ ∀ host, UsableHost host → s.Holds (hostAddress host)) ∧
    (∀ table : PeerTable, (∀ row ∈ table.rows, row.nodeId.length = 32) →
      table.rows.length ≤ virtualIpv4UsableHosts →
      ∃ table', migrateVirtualIpv4 prim (fun _ => none) table = (.ok (), table') ∧
        table'.rows.map AddressRow.nodeId = table.rows.map AddressRow.nodeId ∧ Settled ∅ table'.rows) ∧
    ∀ fault table error table', migrateVirtualIpv4 prim fault table = (.error error, table') →
      table' = table := by
  refine ⟨fun s n => ⟨fun address h => ?_, fun error => allocateVirtualIpv4_error⟩, ?_, ?_⟩
  · obtain ⟨⟨host, husable, rfl⟩, hfree⟩ := allocateVirtualIpv4_ok h
    have hhigh : host < 2 ^ 16 - 1 := Nat.lt_of_le_of_lt husable.2 (by decide)
    refine ⟨⟨host, husable, rfl⟩, hostAddress_ne (by omega) (by decide) (by have := husable.1; omega), ?_, hfree⟩
    exact hostAddress_ne (by omega) (by decide) (by omega)
  · intro table hids hcard
    obtain ⟨updates, hupdates⟩ := @exists_migrateRows prim ∅ table.rows hids (by simpa using hcard)
    have hexecute : ∀ updates k table, ∃ table', executeUpdates (fun _ => none) k updates table = .ok table' := by
      intro updates
      induction updates with
      | nil => exact fun k table => ⟨table, rfl⟩
      | cons update updates ih => exact fun k table => ih (k + 1) (table.update update)
    obtain ⟨table', hexecuted⟩ := hexecute updates 2 table
    have hrun : migrateVirtualIpv4 prim (fun _ => none) table = (.ok (), table') := by
      simp only [migrateVirtualIpv4, statement, hupdates, hexecuted, bind, Except.bind]
    obtain ⟨updates', -, hrows, hmigrates⟩ := migrates_of_success hrun
    refine ⟨table', hrun, ?_, hmigrates.settled⟩
    rw [hrows, List.map_map]
    exact List.map_congr_left fun row _ => foldl_update_nodeId row updates'
  · intro fault table error table' h
    unfold migrateVirtualIpv4 at h
    simp only at h
    split at h
    · cases h
    · exact (Prod.mk.inj h).2.symm

/-! ### Addresses that were in order -/

/-- The row has a usable address, and no other row has the same. -/
def PeerTable.InOrder (table : PeerTable) (row : AddressRow) : Prop :=
  row ∈ table.rows ∧ row.host ≠ none ∧ ∀ other ∈ table.rows, other.virtualIpv4 = row.virtualIpv4 → other = row

/-- Wherever a row of the rest has to be given a host, the first one that no row before it has is not that of
a `good` row further down. -/
def Spares (prim : Primitives) (good : AddressRow → Prop) : Finset ℕ → List AddressRow → Prop
  | _, [] => True
  | taken, row :: rows =>
    match row.host.filter (· ∉ taken) with
    | some host => Spares prim good (insert host taken) rows
    | none => ∀ host, FirstHost prim taken row.nodeId host →
      (∀ other ∈ rows, good other → other.host ≠ some host) ∧ Spares prim good (insert host taken) rows

section Spared

variable {prim : Primitives} {used : Finset ℕ} {rows rows' : List AddressRow} {good : AddressRow → Prop}
  {updates : List (List UInt8 × List UInt8)}

lemma Migrates.update_fresh (h : Migrates prim used rows updates rows') {update : List UInt8 × List UInt8}
    (hupdate : update ∈ updates) {row : AddressRow} {host : ℕ} (hhost : row.host = some host)
    (hused : host ∈ used) : row.virtualIpv4 ≠ some update.2 := by
  intro hsame
  obtain ⟨moved, -, -, hnew, -⟩ := h.update_cases hupdate
  obtain ⟨host', hhost', hfree⟩ := h.settled.usable _ hnew
  rw [AddressRow.host, ← hsame] at hhost'
  exact hfree (Option.some.inj (hhost.symm.trans hhost') ▸ hused)

/-- The condition says that no update hands out the address of a good row. -/
lemma Migrates.spares_iff (h : Migrates prim used rows updates rows')
    (hgood : ∀ row, good row → row.host ≠ none) : Spares prim good used rows ↔
      ∀ update ∈ updates, ∀ row ∈ rows, good row → row.virtualIpv4 ≠ some update.2 := by
  induction h with
  | nil used => exact iff_of_true trivial fun _ h => by cases h
  | @keep used first rows rows' updates host hhost hfree rest ih =>
    have hfilter : first.host.filter (· ∉ used) = some host := by simp [hhost, hfree]
    simp only [Spares, hfilter, ih, List.forall_mem_cons]
    refine forall₂_congr fun update hupdate => (and_iff_right fun _ => ?_).symm
    exact rest.update_fresh hupdate hhost (Finset.mem_insert_self ..)
  | @move used first rows rows' updates host hold husable hfree hfirst rest ih =>
    have hfilter : first.host.filter (· ∉ used) = none := by
      rw [Option.filter_eq_none_iff]
      intro old hrow
      simpa using hold old hrow
    have hown : good first → ∀ update ∈ updates, first.virtualIpv4 ≠ some update.2 := by
      intro h update hupdate
      obtain ⟨old, hrow⟩ := Option.ne_none_iff_exists'.1 (hgood first h)
      exact rest.update_fresh hupdate hrow (Finset.mem_insert_of_mem (hold old hrow))
    have hgiven : ∀ row : AddressRow, row.virtualIpv4 = some (hostAddress host).octets.toList ↔
        row.host = some host := fun row => by simp [AddressRow.host_eq_some, husable]
    simp only [Spares, hfilter, List.forall_mem_cons, Ne, hgiven]
    constructor
    · intro h
      obtain ⟨hhost, hrest⟩ := h host hfirst
      exact ⟨⟨fun _ hrow => hfree (hold host hrow), hhost⟩, fun update hupdate =>
        ⟨fun hfirst => hown hfirst update hupdate, ih.1 hrest update hupdate⟩⟩
    · rintro ⟨⟨-, hhost⟩, hrest⟩ host' hfirst'
      obtain rfl := hfirst.unique hfirst'
      exact ⟨hhost, ih.2 fun update hupdate => (hrest update hupdate).2⟩

end Spared

/-- **What the migration leaves alone.** -/
theorem migration_keeps_iff {prim : Primitives} {fault : ℕ → Option CoordError} {table table' : PeerTable}
    (h : migrateVirtualIpv4 prim fault table = (.ok (), table')) :
    (∀ row, table.InOrder row → row ∈ table'.rows) ↔ Spares prim table.InOrder ∅ table.rows := by
  obtain ⟨updates, -, -, hmigrates⟩ := migrates_of_success h
  rw [hmigrates.spares_iff fun row hrow => hrow.2.1]
  constructor
  · intro hkeeps update hupdate row hmem hrow haddress
    obtain ⟨moved, hmoved, -, hnew, hne⟩ := hmigrates.update_cases hupdate
    -- afterwards both rows have the address, so they are one
    have hsame : ({ moved with virtualIpv4 := some update.2 } : AddressRow) = row := by
      refine List.inj_on_of_nodup_map (List.pairwise_map.2 hmigrates.settled.distinct) hnew (hkeeps row hrow) ?_
      unfold AddressRow.host
      rw [haddress]
    have hmoved : moved = row :=
      List.inj_on_of_nodup_map (List.pairwise_map.2 table.ids) hmoved hrow.1 (by rw [← hsame])
    exact hne (by rw [hmoved, haddress])
  · intro hclear row hrow
    obtain ⟨hmem, hhost, hown⟩ := hrow
    obtain ⟨host, hhost⟩ := Option.ne_none_iff_exists'.1 hhost
    refine hmigrates.keeps hmem hhost (by simp) (fun other hother hsame => hown other hother ?_) fun update hupdate =>
      hclear update hupdate row hmem ⟨hmem, by simp [hhost], hown⟩
    rw [(AddressRow.host_eq_some.1 hsame).2, (AddressRow.host_eq_some.1 hhost).2]

/-- A row without an address, and one with the address that the search for the first begins with. -/
def staleTable : PeerTable where
  rows := [⟨List.replicate 32 0, none⟩, ⟨List.replicate 32 1, some [10, 254, 0, 1]⟩]
  sorted := by decide

lemma staleTable_migrated : ∃ table', migrateVirtualIpv4 demoPrim (fun _ => none) staleTable = (.ok (), table') ∧
    table'.rows = [⟨List.replicate 32 0, some [10, 254, 0, 1]⟩, ⟨List.replicate 32 1, some [10, 254, 3, 4]⟩] :=
  ⟨_, rfl, by decide +kernel⟩

/-- The second row loses its address to the first. -/
theorem migration_moves_good_address :
    ¬ ∀ (prim : Primitives) (fault : ℕ → Option CoordError) (table table' : PeerTable),
      migrateVirtualIpv4 prim fault table = (.ok (), table') → ∀ row, table.InOrder row → row ∈ table'.rows := by
  intro h
  obtain ⟨table', hrun, hrows⟩ := staleTable_migrated
  have hkept := h _ _ _ _ hrun ⟨List.replicate 32 1, some [10, 254, 0, 1]⟩
    ⟨by decide, by decide +kernel, by decide⟩
  rw [hrows] at hkept
  exact absurd hkept (by decide)

/-- The second row has the address next to the one that the search for the first begins with. -/
def nextTable : PeerTable where
  rows := [⟨List.replicate 32 0, none⟩, ⟨List.replicate 32 1, some [10, 254, 0, 2]⟩]
  sorted := by decide

theorem migration_keeps_iff_next :
    ∃ table', migrateVirtualIpv4 demoPrim (fun _ => none) nextTable = (.ok (), table') ∧
      table'.rows = [⟨List.replicate 32 0, some [10, 254, 0, 1]⟩, ⟨List.replicate 32 1, some [10, 254, 0, 2]⟩] ∧
      nextTable.InOrder ⟨List.replicate 32 1, some [10, 254, 0, 2]⟩ ∧
      Spares demoPrim nextTable.InOrder ∅ nextTable.rows := by
  have hrun : ∃ table', migrateVirtualIpv4 demoPrim (fun _ => none) nextTable = (.ok (), table') ∧
      table'.rows = [⟨List.replicate 32 0, some [10, 254, 0, 1]⟩,
        ⟨List.replicate 32 1, some [10, 254, 0, 2]⟩] := ⟨_, rfl, by decide +kernel⟩
  obtain ⟨table', hrun, hrows⟩ := hrun
  refine ⟨table', hrun, hrows, ⟨by decide, by decide +kernel, by decide⟩, (migration_keeps_iff hrun).1 ?_⟩
  rintro row ⟨hrow, hhost, -⟩
  rw [hrows]
  rcases List.mem_cons.1 hrow with rfl | hrow
  · exact absurd rfl hhost
  · exact .tail _ hrow

theorem addresses_allocated_stale :
    ∃ table', migrateVirtualIpv4 demoPrim (fun _ => none) staleTable = (.ok (), table') ∧
      table'.rows.map AddressRow.nodeId = staleTable.rows.map AddressRow.nodeId ∧ Settled ∅ table'.rows :=
  (addresses_allocated demoPrim).2.1 staleTable (by decide) (by decide)

end Vela.Coord
