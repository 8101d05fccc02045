import OptoSync.IndexedDbQueue
import OptoSync.SqliteLocalView

/-!
# The Drift queue

The mutation queue of the Dart client and its local view. A call that throws leaves the database as
it was.
-/
namespace OptoSync
namespace Dart

/-- A row of `local_mutations`. -/
structure Mutation where
  id : ℕ
  targetTable : String
  recordId : String
  jsonPayload : String
  createdAt : ℕ
  syncStatus : ℤ
  clientId : Option String
  mutationId : Option String
  operation : String
  baseRevision : Option String
  resurrect : Bool
  attempts : ℕ
  deriving DecidableEq

/-- The rows in key order, the key generator and the sequence kept in `meta`. -/
structure OptoSyncDatabase where
  localMutations : List Mutation
  nextId : ℕ
  mutationSeq : ℕ
  sorted : localMutations.Pairwise fun a b => a.id < b.id
  fresh : ∀ row ∈ localMutations, row.id < nextId

structure OptoSyncClient where
  clientId : String
  maxPendingMutations : ℕ
  maxQueuedPayloadBytes : ℕ
  defaultConsistencyPolicy : String
  /-- `merge` of the syncer that replays pending writes. -/
  overlaySyncer : Option (String → String → String)

def isPending (row : Mutation) : Bool := row.syncStatus = SyncStatus.pending

namespace OptoSyncDatabase

/-- `orderBy` the row key. -/
def orderById (rows : List Mutation) : List Mutation := rows.mergeSort fun a b => a.id ≤ b.id

theorem orderById_filter {rows : List Mutation} (h : rows.Pairwise fun a b => a.id < b.id)
    (p : Mutation → Bool) : orderById (rows.filter p) = rows.filter p := by
  apply List.mergeSort_of_pairwise
  refine (h.filter p).imp ?_
  intro a b hlt
  exact decide_eq_true hlt.le

def insert (db : OptoSyncDatabase) (row : Mutation) : OptoSyncDatabase :=
  { localMutations := db.localMutations ++ [{ row with id := db.nextId }]
    nextId := db.nextId + 1
    mutationSeq := db.mutationSeq + 1
    sorted := by
      rw [List.pairwise_append]
      refine ⟨db.sorted, List.pairwise_singleton _ _, ?_⟩
      intro a ha b hb
      rw [List.mem_singleton.mp hb]
      exact db.fresh a ha
    fresh := by
      intro r hr
      rcases List.mem_append.mp hr with hr | hr
      · exact Nat.lt_succ_of_lt (db.fresh r hr)
      · rw [List.mem_singleton.mp hr]
        exact Nat.lt_succ_self _ }

def withSynced (ids : List ℕ) (row : Mutation) : Mutation :=
  if row.id ∈ ids then { row with syncStatus := SyncStatus.synced } else row

@[simp] theorem withSynced_id (ids : List ℕ) (row : Mutation) :
    (withSynced ids row).id = row.id := by
  unfold withSynced
  split <;> rfl

/-- The batch of updates that ends `acknowledgePush`. -/
def markSynced (db : OptoSyncDatabase) (ids : List ℕ) : OptoSyncDatabase :=
  { db with
    localMutations := db.localMutations.map (withSynced ids)
    sorted := by simpa [List.pairwise_map] using db.sorted
    fresh := by simpa using db.fresh }

def delete (db : OptoSyncDatabase) (ids : List ℕ) : OptoSyncDatabase :=
  { db with
    localMutations := db.localMutations.filter fun row => row.id ∉ ids
    sorted := db.sorted.filter _
    fresh := fun row h => db.fresh row (List.mem_filter.mp h).1 }

end OptoSyncDatabase

namespace OptoSyncClient
open OptoSync.Dart.OptoSyncDatabase

variable (client : OptoSyncClient)

def assertPayloadQuota (jsonPayload : String) : Except String Unit :=
  if client.maxQueuedPayloadBytes < jsonPayload.utf8ByteSize then .error "PAYLOAD_TOO_LARGE"
  else .ok ()

def assertPendingQuota (db : OptoSyncDatabase) : Except String Unit :=
  if client.maxPendingMutations ≤ (db.localMutations.filter isPending).length then
    .error "QUEUE_FULL"
  else .ok ()

/-- The common part of the two inserts; `row` is complete up to its key and its identity. -/
def queue (db : OptoSyncDatabase) (row : Mutation) (consistencyPolicy : Option String) :
    Except String OptoSyncDatabase := do
  client.assertPayloadQuota row.jsonPayload
  client.assertPendingQuota db
  let _policy ← OptoSync.OptoSyncClient.canonicalizeConsistencyPolicy
    (consistencyPolicy.getD client.defaultConsistencyPolicy)
  pure (db.insert { row with
    clientId := some client.clientId
    mutationId := some (db.mutationSeq + 1).repr })

/-- A row with the defaults of its columns. -/
def blankRow (tableName recordId jsonPayload operation : String) (createdAt : ℕ) : Mutation :=
  { id := 0, targetTable := tableName, recordId, jsonPayload, createdAt
    syncStatus := SyncStatus.pending, clientId := none, mutationId := none, operation
    baseRevision := none, resurrect := false, attempts := 0 }

/-- `jsonPayload` is the stamped payload as `jsonEncode` wrote it. -/
def queueMutation (db : OptoSyncDatabase) (tableName recordId jsonPayload : String)
    (baseRevision : Option String) (resurrect : Bool) (consistencyPolicy : Option String)
    (createdAt : ℕ) : Except String OptoSyncDatabase :=
  client.queue db { blankRow tableName recordId jsonPayload "upsert" createdAt with
    baseRevision, resurrect } consistencyPolicy

def queueDelete (db : OptoSyncDatabase) (tableName recordId : String)
    (baseRevision consistencyPolicy : Option String) (createdAt : ℕ) :
    Except String OptoSyncDatabase :=
  client.queue db { blankRow tableName recordId "\x7b\x7d" "delete" createdAt with
    baseRevision } consistencyPolicy

def pruneConfirmed (db : OptoSyncDatabase) (retain : ℕ) : OptoSyncDatabase :=
  let confirmed := orderById (db.localMutations.filter fun row => row.syncStatus = SyncStatus.synced)
  db.delete ((confirmed.take (confirmed.length - retain)).map Mutation.id)

def rebasePending (overlaySyncer : String → String → String) (serverJson : String)
    (pendingJson : List String) : String :=
  pendingJson.foldl overlaySyncer serverJson

/-- Documents are kept as the texts that `jsonEncode` writes for them. -/
def localView (db : OptoSyncDatabase) (tableName recordId serverPayload : String) :
    Except String String :=
  match client.overlaySyncer with
  | none => .error "localView requires an overlaySyncer"
  | some overlay =>
    let rows := orderById (db.localMutations.filter fun row =>
      row.targetTable = tableName && row.recordId = recordId && isPending row)
    .ok (rebasePending overlay serverPayload (rows.map Mutation.jsonPayload))

end OptoSyncClient
end Dart
end OptoSync
