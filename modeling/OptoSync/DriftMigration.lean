import OptoSync.DriftPush
import OptoSync.HybridLogicalClock
import OptoSync.OfflineViews

/-!
# The migration of the Drift queue

The upgrade of a database of version 1 or 2, which gives the pending rows their protocol identity,
and what the client does on the upgraded database.
-/
namespace OptoSync
namespace Dart
open Transition

/-- A row of `local_mutations` before version 3. -/
structure LegacyMutation where
  id : ℕ
  targetTable : String
  recordId : String
  jsonPayload : String
  createdAt : ℕ
  syncStatus : ℤ

/-- A database of version 1, which has no `meta` table, or of version 2. -/
structure LegacyDatabase where
  localMutations : List LegacyMutation
  nextId : ℕ
  metaEntries : Option (String → Option String)
  sorted : localMutations.Pairwise fun a b => a.id < b.id
  fresh : ∀ row ∈ localMutations, row.id < nextId

/-- The two tables of version 3. -/
structure Tables where
  localMutations : List Mutation
  nextId : ℕ
  metaEntries : String → Option String
  sorted : localMutations.Pairwise fun a b => a.id < b.id
  fresh : ∀ row ∈ localMutations, row.id < nextId

def metaDeviceIdKey : String := "hlc.nodeId"
def metaMutationSequenceKey : String := "mutation.seq"

def hexByte (byte : Fin 256) : List Char := (Nat.toDigits 16 byte).leftpad 2 '0'

def randomNodeId {byteLength : ℕ} (bytes : Fin byteLength → Fin 256) : String :=
  String.ofList (List.ofFn fun i => hexByte (bytes i)).flatten

def composeNodeId (deviceId instanceSuffix : String) : String := deviceId ++ "." ++ instanceSuffix

/-- `String.trim` -/
def trim (text : String) : String :=
  String.ofList (trimEnds (fun c => isSpace c || c.toNat = 0x85) text.toList)

/-- The row under the added columns, which have their defaults. -/
def LegacyMutation.row (m : LegacyMutation) : Mutation :=
  { id := m.id, targetTable := m.targetTable, recordId := m.recordId, jsonPayload := m.jsonPayload
    createdAt := m.createdAt, syncStatus := m.syncStatus, clientId := none, mutationId := none
    operation := "upsert", baseRevision := none, resurrect := false, attempts := 0 }

def adopted (clientIdentity : String) (index : ℕ) (row : Mutation) : Mutation :=
  { row with clientId := some clientIdentity, mutationId := some (index + 1).repr }

/-- What the update of one pending row makes of a row. -/
def updated (clientIdentity : String) (row : Mutation) (pending : Mutation × ℕ) : Mutation :=
  if row.id = pending.1.id ∧ isPending row = true then adopted clientIdentity pending.2 row else row

def adoptRow (clientIdentity : String) (rows : List Mutation) (pending : Mutation × ℕ) :
    List Mutation :=
  rows.map fun row => updated clientIdentity row pending

def adoptRows (clientIdentity : String) (rows : List Mutation) : List Mutation :=
  (OptoSyncDatabase.orderById (rows.filter isPending)).zipIdx.foldl (adoptRow clientIdentity) rows

/-- The device id that is kept, or the new one. -/
def clientIdentity (generated : String) (metaEntries : String → Option String) : String :=
  match (metaEntries metaDeviceIdKey).map trim with
  | none => generated
  | some persisted => if persisted = "" then generated else persisted

theorem foldl_adoptRow (identity : String) (entries : List (Mutation × ℕ)) (rows : List Mutation) :
    entries.foldl (adoptRow identity) rows =
      rows.map fun row => entries.foldl (updated identity) row := by
  induction entries generalizing rows with
  | nil => simp
  | cons entry entries ih =>
    rw [List.foldl_cons, ih, adoptRow, List.map_map]
    rfl

theorem updated_id (identity : String) (row : Mutation) (entry : Mutation × ℕ) :
    (updated identity row entry).id = row.id := by
  unfold updated
  split <;> rfl

theorem isPending_updated (identity : String) (row : Mutation) (entry : Mutation × ℕ) :
    isPending (updated identity row entry) = isPending row := by
  unfold updated
  split <;> rfl

section
variable (identity : String) (entries : List (Mutation × ℕ))

theorem foldl_updated_id (row : Mutation) : (entries.foldl (updated identity) row).id = row.id := by
  induction entries generalizing row with
  | nil => rfl
  | cons entry entries ih => rw [List.foldl_cons, ih, updated_id]

theorem isPending_foldl_updated (row : Mutation) :
    isPending (entries.foldl (updated identity) row) = isPending row := by
  induction entries generalizing row with
  | nil => rfl
  | cons entry entries ih => rw [List.foldl_cons, ih, isPending_updated]

theorem foldl_updated_of_not {row : Mutation}
    (h : isPending row = false ∨ ∀ entry ∈ entries, row.id ≠ entry.1.id) :
    entries.foldl (updated identity) row = row := by
  induction entries with
  | nil => rfl
  | cons entry entries ih =>
    have hrow : updated identity row entry = row := by
      unfold updated
      rw [if_neg]
      rintro ⟨hid, hpending⟩
      rcases h with h | h
      · rw [h] at hpending
        cases hpending
      · exact h entry List.mem_cons_self hid
    rw [List.foldl_cons, hrow]
    apply ih
    rcases h with h | h
    · exact Or.inl h
    · exact Or.inr fun other hother => h other (List.mem_cons_of_mem entry hother)

/-- Of the updates only the one with the key of the row changes it. -/
theorem foldl_updated_of_mem {row : Mutation} {entry : Mutation × ℕ}
    (hkeys : entries.Pairwise fun a b => a.1.id ≠ b.1.id) (hmem : entry ∈ entries)
    (hid : row.id = entry.1.id) (hpending : isPending row = true) :
    entries.foldl (updated identity) row = adopted identity entry.2 row := by
  induction entries with
  | nil => cases hmem
  | cons first entries ih =>
    obtain ⟨hfirst, hkeys⟩ := List.pairwise_cons.mp hkeys
    rw [List.foldl_cons]
    rcases List.mem_cons.mp hmem with rfl | hmem
    · have hrow : updated identity row entry = adopted identity entry.2 row :=
        if_pos ⟨hid, hpending⟩
      rw [hrow]
      apply foldl_updated_of_not
      right
      intro other hother
      rw [show (adopted identity entry.2 row).id = row.id from rfl, hid]
      exact hfirst other hother
    · have hrow : updated identity row first = row := by
        apply if_neg
        rintro ⟨heq, -⟩
        exact hfirst entry hmem (heq.symm.trans hid)
      rw [hrow]
      exact ih hkeys hmem

end

theorem adoptRows_eq (identity : String) (rows : List Mutation) :
    adoptRows identity rows = rows.map fun row =>
      (OptoSyncDatabase.orderById (rows.filter isPending)).zipIdx.foldl (updated identity) row :=
  foldl_adoptRow identity _ rows

theorem map_id_adoptRows (identity : String) (rows : List Mutation) :
    (adoptRows identity rows).map Mutation.id = rows.map Mutation.id := by
  rw [adoptRows_eq, List.map_map]
  apply List.map_congr_left
  intro row _
  exact foldl_updated_id identity _ row

theorem adoptRows_sorted {identity : String} {rows : List Mutation}
    (h : rows.Pairwise fun a b => a.id < b.id) :
    (adoptRows identity rows).Pairwise fun a b => a.id < b.id := by
  rw [← List.pairwise_map (R := (· < ·))] at h ⊢
  rwa [map_id_adoptRows]

theorem adoptRows_fresh {identity : String} {rows : List Mutation} {nextId : ℕ}
    (h : ∀ row ∈ rows, row.id < nextId) : ∀ row ∈ adoptRows identity rows, row.id < nextId := by
  intro row hrow
  have hmem := List.mem_map_of_mem (f := Mutation.id) hrow
  rw [map_id_adoptRows] at hmem
  obtain ⟨other, hother, heq⟩ := List.mem_map.mp hmem
  rw [← heq]
  exact h other hother

namespace Tables

/-- `_adoptLegacyProtocolIdentity` -/
def adoptLegacyProtocolIdentity (generated : String) (tables : Tables) : Tables :=
  let identity := clientIdentity generated tables.metaEntries
  let pendingRows := tables.localMutations.filter isPending
  let metaEntries := Function.update tables.metaEntries metaDeviceIdKey (some identity)
  { tables with
    localMutations := adoptRows identity tables.localMutations
    metaEntries := Function.update metaEntries metaMutationSequenceKey
      (some pendingRows.length.repr)
    sorted := adoptRows_sorted tables.sorted
    fresh := adoptRows_fresh tables.fresh }

/-- The queue as the calls of the client see it. -/
def database (tables : Tables) : OptoSyncDatabase :=
  { tables with
    mutationSeq := ((bigIntTryParse
      ((tables.metaEntries metaMutationSequenceKey).getD "0")).getD 0).toNat }

/-- The device id in `meta`, put there if it is missing. -/
def deviceId (generated : String) (tables : Tables) : String × Tables :=
  match (tables.metaEntries metaDeviceIdKey).filter (· ≠ "") with
  | some existing => (existing, tables)
  | none => (generated, { tables with
      metaEntries := Function.update tables.metaEntries metaDeviceIdKey (some generated) })

/-- `clientId()`, which opens the clock first. -/
def openClient (settings : OptoSyncClient) (generated instanceSuffix : String) (tables : Tables) :
    Except String (OptoSyncClient × Tables) :=
  let (deviceId, tables) := tables.deviceId generated
  if validNodeId (composeNodeId deviceId instanceSuffix) = true then
    .ok ({ settings with clientId := deviceId }, tables)
  else .error "nodeId must not contain \"-\""

end Tables

/-- `onUpgrade` to version 3. -/
def onUpgrade (generated : String) (db : LegacyDatabase) : Tables :=
  let tables : Tables :=
    { localMutations := db.localMutations.map LegacyMutation.row
      nextId := db.nextId
      metaEntries := db.metaEntries.getD fun _ => none
      sorted := by simpa [List.pairwise_map, LegacyMutation.row] using db.sorted
      fresh := by simpa [LegacyMutation.row] using db.fresh }
  tables.adoptLegacyProtocolIdentity generated

theorem filter_adoptRows_not (identity : String) (rows : List Mutation) :
    (adoptRows identity rows).filter (!isPending ·) = rows.filter (!isPending ·) := by
  rw [adoptRows_eq, List.filter_map]
  have hfilter : rows.filter ((!isPending ·) ∘ fun row =>
      (OptoSyncDatabase.orderById (rows.filter isPending)).zipIdx.foldl (updated identity) row) =
      rows.filter (!isPending ·) := by
    apply List.filter_congr
    intro row _
    rw [Function.comp_apply, isPending_foldl_updated]
  rw [hfilter]
  conv_rhs => rw [← List.map_id (rows.filter (!isPending ·))]
  apply List.map_congr_left
  intro row hrow
  apply foldl_updated_of_not
  simpa using Or.inl (List.mem_filter.mp hrow).2

/-- The pending rows are numbered in their order. -/
theorem filter_adoptRows {rows : List Mutation} (h : rows.Pairwise fun a b => a.id < b.id)
    (identity : String) : (adoptRows identity rows).filter isPending =
      (rows.filter isPending).zipIdx.map fun row => adopted identity row.2 row.1 := by
  rw [adoptRows_eq, List.filter_map, OptoSyncDatabase.orderById_filter h]
  have hfilter : rows.filter (isPending ∘ fun row =>
      (rows.filter isPending).zipIdx.foldl (updated identity) row) = rows.filter isPending := by
    apply List.filter_congr
    intro row _
    rw [Function.comp_apply, isPending_foldl_updated]
  have hkeys : (rows.filter isPending).zipIdx.Pairwise fun a b => a.1.id ≠ b.1.id := by
    rw [← List.pairwise_map (f := Prod.fst) (R := fun a b : Mutation => a.id ≠ b.id)]
    rw [List.zipIdx_map_fst]
    exact (h.filter isPending).imp fun hlt => hlt.ne
  rw [hfilter]
  calc (rows.filter isPending).map _
      = ((rows.filter isPending).zipIdx.map Prod.fst).map _ := by rw [List.zipIdx_map_fst]
    _ = (rows.filter isPending).zipIdx.map fun row => adopted identity row.2 row.1 := by
      rw [List.map_map]
      apply List.map_congr_left
      intro entry hentry
      have hrow := List.fst_mem_of_mem_zipIdx hentry
      exact foldl_updated_of_mem identity _ hkeys hentry rfl (List.mem_filter.mp hrow).2

namespace LegacyDatabase

def pending (db : LegacyDatabase) : List LegacyMutation :=
  db.localMutations.filter fun m => isPending m.row

/-- The rows in any other status. -/
def others (db : LegacyDatabase) : List LegacyMutation :=
  db.localMutations.filter fun m => !isPending m.row

end LegacyDatabase

/-- The upgraded tables: the rows under their keys, the pending ones numbered from 1 and the others
without an identity, and the number of the pending ones in `meta`. -/
structure Adopted (db : LegacyDatabase) (tables : Tables) (identity : String) : Prop where
  keys : tables.localMutations.map Mutation.id = db.localMutations.map LegacyMutation.id
  pending : tables.localMutations.filter isPending =
    db.pending.zipIdx.map fun m => adopted identity m.2 m.1.row
  others : tables.localMutations.filter (!isPending ·) = db.others.map LegacyMutation.row
  sequence : tables.metaEntries metaMutationSequenceKey = some db.pending.length.repr
  deviceId : tables.metaEntries metaDeviceIdKey = some identity
  nextId : tables.nextId = db.nextId

theorem map_row_sorted (db : LegacyDatabase) :
    (db.localMutations.map LegacyMutation.row).Pairwise fun a b => a.id < b.id := by
  rw [List.pairwise_map]
  exact db.sorted

theorem adopted_onUpgrade (generated : String) (db : LegacyDatabase) :
    Adopted db (onUpgrade generated db)
      (clientIdentity generated (db.metaEntries.getD fun _ => none)) where
  keys := by
    rw [onUpgrade, Tables.adoptLegacyProtocolIdentity, map_id_adoptRows, List.map_map]
    rfl
  pending := by
    rw [onUpgrade, Tables.adoptLegacyProtocolIdentity]
    dsimp only
    rw [filter_adoptRows (map_row_sorted db), List.filter_map, List.zipIdx_map, List.map_map]
    rfl
  others := by
    rw [onUpgrade, Tables.adoptLegacyProtocolIdentity]
    dsimp only
    rw [filter_adoptRows_not, List.filter_map]
    rfl
  sequence := by
    rw [onUpgrade, Tables.adoptLegacyProtocolIdentity]
    dsimp only
    rw [Function.update_self, List.filter_map, List.length_map]
    rfl
  deviceId := by
    rw [onUpgrade, Tables.adoptLegacyProtocolIdentity]
    dsimp only
    rw [Function.update_of_ne (by decide), Function.update_self]
  nextId := rfl

end Dart
end OptoSync
