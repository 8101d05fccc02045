import OptoSync.ProtocolQueueMerge
import OptoSync.SyncDriver

/-!
# The SQLite store

The tables of `SqliteProtocolStore` and its transactions. A transaction that fails leaves the
database as it was, so an operation returns the new database or an error. The queue column holds
text: `queue` is the queue that was written there, and `read` is what `serde_json` reads from its
text. `reconcile` is the merge of the external engine with `resolve_by_timestamp` off, `toText`
stands for `serde_json::to_string`.
-/
namespace OptoSync
open Decimal

/-- The primary key of the record tables: table name and record id. -/
abbrev RecordKey : Type := String × String

abbrev recordOrder : RecordKey → RecordKey → Ordering :=
  compareLex (compareOn Prod.fst) (compareOn Prod.snd)

instance : Std.LawfulEqCmp recordOrder where
  eq_of_compare h := by
    obtain ⟨hfst, hsnd⟩ := compareLex_eq_eq.mp h
    exact Prod.ext (Std.LawfulEqCmp.eq_of_compare hfst) (Std.LawfulEqCmp.eq_of_compare hsnd)

instance : Std.TransCmp recordOrder := Std.instTransCmpCompareLex_batteries

abbrev RecordKeys : Type := Std.ExtTreeSet RecordKey recordOrder

abbrev RecordTable (α : Type) : Type := Std.ExtTreeMap RecordKey α recordOrder

def ProtocolMutation.key (m : ProtocolMutation) : RecordKey := (m.table, m.recordId)
def Change.key (change : Change) : RecordKey := (change.table, change.recordId)
def SnapshotRecord.key (record : SnapshotRecord) : RecordKey := (record.table, record.recordId)

structure AuthoritativeRow where
  recordJson : String
  revision : String
  deriving DecidableEq

/-- A row of the accepted overlays. `content` is the check of the table; the only statement that
writes a row checks the checkpoint before. -/
structure AcceptedOverlay where
  table : String
  recordId : String
  operation : String
  payloadJson : Option String
  acknowledgementCheckpoint : String
  content : operation = "upsert" ∧ payloadJson.isSome = true ∨
    operation = "delete" ∧ payloadJson = none
  canonical : isCanonicalDecimal acknowledgementCheckpoint = true
  deriving DecidableEq

def AcceptedOverlay.key (overlay : AcceptedOverlay) : RecordKey := (overlay.table, overlay.recordId)

structure Database where
  authoritative : RecordTable AuthoritativeRow
  localRecords : RecordTable String
  overlays : Std.ExtTreeMap ℤ AcceptedOverlay compare
  queue : ProtocolQueue

inductive SqliteStoreError
  | sqlite
  | json
  | protocol (error : ProtocolError)
  | invalidRecord (message : String)
  deriving DecidableEq

namespace SqliteProtocolStore

/-- Opening a new file: the tables are created and the queue row is inserted. -/
def openWithLimits (clientId : String) (maxPendingMutations maxQueuedPayloadBytes : ℕ) :
    Except SqliteStoreError Database :=
  match ProtocolQueue.withLimits clientId maxPendingMutations maxQueuedPayloadBytes with
  | .error error => .error (.protocol error)
  | .ok queue => .ok { authoritative := ∅, localRecords := ∅, overlays := ∅, queue }

variable (read : ProtocolQueue → Option ProtocolQueue)
  (reconcile : String → String → Except Unit String) (toText : Json → String)

/-- The column of a queue whose text says what was written. Reading validates. -/
def asWritten (queue : ProtocolQueue) : Option ProtocolQueue :=
  match queue.validate toText with
  | .error _ => none
  | .ok () => some queue

def loadQueueFrom (db : Database) : Except SqliteStoreError ProtocolQueue :=
  match read db.queue with
  | none => .error .json
  | some queue =>
    match queue.validate toText with
    | .error error => .error (.protocol error)
    | .ok () => .ok queue

def persistQueueIn (db : Database) (queue : ProtocolQueue) : Except SqliteStoreError Database :=
  match queue.validate toText with
  | .error error => .error (.protocol error)
  | .ok () => .ok { db with queue }

def writeLocalRecord (db : Database) (key : RecordKey) (recordJson : String) : Database :=
  { db with localRecords := db.localRecords.insert key recordJson }

def overlayLocalRecord (db : Database) (table recordId : String) (payload : Json) :
    Except SqliteStoreError Database :=
  match reconcile (db.localRecords[(table, recordId)]?.getD "{}") (toText payload) with
  | .error () => .error (.invalidRecord "optimistic record merge failed")
  | .ok merged => .ok (writeLocalRecord db (table, recordId) merged)

def applyAuthoritativeChange (db : Database) (change : Change) : Except SqliteStoreError Database :=
  match change.operation with
  | .upsert =>
    match change.record.filter Json.isObject with
    | none => .error (.invalidRecord "upsert change must contain an object record")
    | some record => .ok { db with
        authoritative := db.authoritative.insert change.key
          { recordJson := toText record, revision := change.revision } }
  | .delete =>
    if change.record.isSome then
      .error (.invalidRecord "delete change must not contain a record")
    else .ok { db with authoritative := db.authoritative.erase change.key }

/-- One row of `INSERT INTO _opto_sync_authoritative`, which has no conflict clause. -/
def insertSnapshotRecord (db : Database) (record : SnapshotRecord) :
    Except SqliteStoreError Database :=
  if record.record.isObject = false then
    .error (.invalidRecord "snapshot record must be a JSON object")
  else if record.key ∈ db.authoritative then .error .sqlite
  else .ok { db with
    authoritative := db.authoritative.insert record.key
      { recordJson := toText record.record, revision := record.revision } }

def applyOverlay (view : Option String) (operation : String) (payload : Option String) :
    Except SqliteStoreError (Option String) :=
  if operation = "delete" ∧ payload = none then .ok none
  else if operation = "upsert" then
    match payload with
    | none => .error (.invalidRecord "upsert overlay is missing its payload")
    | some payload =>
      match reconcile (view.getD "{}") payload with
      | .error () => .error (.invalidRecord "record overlay failed")
      | .ok merged => .ok (some merged)
  else .error (.invalidRecord "durable accepted overlay is invalid")

/-- The accepted overlays of a record, in mutation id order. -/
def overlaysOf (overlays : Std.ExtTreeMap ℤ AcceptedOverlay compare) (key : RecordKey) :
    List AcceptedOverlay :=
  (overlays.toList.map Prod.snd).filter fun overlay => overlay.key = key

def replayPending (view : Option String) (m : ProtocolMutation) :
    Except SqliteStoreError (Option String) :=
  match m.operation with
  | .delete => .ok none
  | .upsert =>
    match m.payload with
    | none => .error (.invalidRecord "pending upsert is missing its payload")
    | some payload => applyOverlay reconcile view "upsert" (some (toText payload))

/-- The local record that the other tables and the queue call for. -/
def recomputeView (db : Database) (queue : ProtocolQueue) (key : RecordKey) :
    Except SqliteStoreError (Option String) := do
  let view := db.authoritative[key]?.map (·.recordJson)
  let view ← (overlaysOf db.overlays key).foldlM
    (fun view overlay => applyOverlay reconcile view overlay.operation overlay.payloadJson) view
  (queue.pending.filter fun m => m.key = key).foldlM (replayPending reconcile toText) view

def rebuildLocalRecord (queue : ProtocolQueue) (db : Database) (key : RecordKey) :
    Except SqliteStoreError Database := do
  match ← recomputeView reconcile toText db queue key with
  | some recordJson => pure (writeLocalRecord db key recordJson)
  | none => pure { db with localRecords := db.localRecords.erase key }

def rebuildAllLocal (db : Database) (queue : ProtocolQueue) : Except SqliteStoreError Database :=
  let keys : RecordKeys := .ofList
    (db.authoritative.keys ++ queue.pending.map (·.key) ++
      db.overlays.toList.map fun row => row.2.key) recordOrder
  keys.toList.foldlM (rebuildLocalRecord reconcile toText queue) { db with localRecords := ∅ }

/-- The overlays that the pull checkpoint has reached. -/
def reachedOverlays (through : ℕ) :
    List (ℤ × AcceptedOverlay) → Except SqliteStoreError (List (ℤ × RecordKey))
  | [] => .ok []
  | (mutationId, overlay) :: overlays =>
    match parseU64 overlay.acknowledgementCheckpoint with
    | none => .error (.invalidRecord "durable acknowledgement checkpoint is invalid")
    | some acknowledgedAt => do
      let reached ← reachedOverlays through overlays
      if acknowledgedAt ≤ through then pure ((mutationId, overlay.key) :: reached)
      else pure reached

def clearAcceptedOverlaysThrough (db : Database) (checkpoint : String) :
    Except SqliteStoreError (Database × RecordKeys) :=
  match parseU64 checkpoint with
  | none => .error (.invalidRecord "pull checkpoint is not a canonical decimal")
  | some through => do
    let reached ← reachedOverlays through db.overlays.toList
    pure ({ db with overlays := (reached.map Prod.fst).foldl (·.erase ·) db.overlays },
      .ofList (reached.map Prod.snd) recordOrder)

def wasAccepted (result : MutationResult) : Bool :=
  result.status = .applied ||
    (result.status = .duplicate && result.originalStatus = some .applied)

/-- The overlay of one accepted result, with the id it is stored under. -/
def acceptedOverlay (sent : ProtocolMutation) (result : MutationResult) :
    Except SqliteStoreError (ℤ × AcceptedOverlay) :=
  match result.checkpoint with
  | none => .error (.invalidRecord "accepted mutation result is missing its checkpoint")
  | some checkpoint =>
    if hcheckpoint : isCanonicalDecimal checkpoint = true then
      match parseI64 sent.mutationId with
      | none => .error (.invalidRecord "accepted mutation id does not fit SQLite INTEGER")
      | some mutationId =>
        match sent.operation with
        | .upsert =>
          match sent.payload with
          | none => .error (.invalidRecord "accepted upsert is missing its payload")
          | some payload => .ok (mutationId,
              { table := sent.table, recordId := sent.recordId, operation := "upsert",
                payloadJson := some (toText payload), acknowledgementCheckpoint := checkpoint,
                content := .inl ⟨rfl, rfl⟩, canonical := hcheckpoint })
        | .delete => .ok (mutationId,
            { table := sent.table, recordId := sent.recordId, operation := "delete",
              payloadJson := none, acknowledgementCheckpoint := checkpoint,
              content := .inr ⟨rfl, rfl⟩, canonical := hcheckpoint })
    else .error (.invalidRecord "accepted mutation checkpoint is not a canonical decimal")

/-- One result of the acknowledgement loop. The table refuses ids that are not positive. -/
def retainAccepted (db : Database) (row : ProtocolMutation × MutationResult) :
    Except SqliteStoreError Database :=
  if wasAccepted row.2 = false then .ok db
  else do
    let (mutationId, overlay) ← acceptedOverlay toText row.1 row.2
    if mutationId ≤ 0 then throw .sqlite
    else pure { db with overlays := db.overlays.insert mutationId overlay }

/-- The frame of the three sync transactions: the caller's queue is first merged with the durable
one, and at the end it is stored. The caller keeps the merged queue also when a later step fails. -/
def mergeAndPersist (db : Database) (queue : ProtocolQueue)
    (body : Database → ProtocolQueue → Except SqliteStoreError Database) :
    Except SqliteStoreError Database × ProtocolQueue :=
  match loadQueueFrom read toText db with
  | .error error => (.error error, queue)
  | .ok durable =>
    match queue.mergeConcurrentDurable toText durable with
    | (.error error, merged) => (.error (.protocol error), merged)
    | (.ok (), merged) =>
      (do let db ← body db merged
          persistQueueIn toText db merged, merged)

def persistQueue (db : Database) (queue : ProtocolQueue) :
    Except SqliteStoreError Database × ProtocolQueue :=
  mergeAndPersist read toText db queue fun db _ => .ok db

def persistAcknowledgement (db : Database) (queue : ProtocolQueue) (request : PushRequest)
    (response : PushResponse) : Except SqliteStoreError Database × ProtocolQueue :=
  mergeAndPersist read toText db queue fun db queue => do
    let rows := request.mutations.zip response.results
    let db ← rows.foldlM (retainAccepted toText) db
    let (db, cleared) ← clearAcceptedOverlaysThrough db queue.checkpoint
    let touched := cleared.insertMany (rows.map (·.1.key))
    touched.toList.foldlM (rebuildLocalRecord reconcile toText queue) db

def applyChangesAndPersist (db : Database) (changes : List Change) (queue : ProtocolQueue) :
    Except SqliteStoreError Database × ProtocolQueue :=
  mergeAndPersist read toText db queue fun db queue => do
    let (db, cleared) ← clearAcceptedOverlaysThrough db queue.checkpoint
    let db ← changes.foldlM (applyAuthoritativeChange toText) db
    let touched := cleared.insertMany (changes.map (·.key))
    touched.toList.foldlM (rebuildLocalRecord reconcile toText queue) db

def replaceAuthoritativeAndPersist (db : Database) (records : List SnapshotRecord)
    (queue : ProtocolQueue) : Except SqliteStoreError Database × ProtocolQueue :=
  mergeAndPersist read toText db queue fun db queue => do
    let (db, _) ← clearAcceptedOverlaysThrough db queue.checkpoint
    let db ← records.foldlM (insertSnapshotRecord toText) { db with authoritative := ∅ }
    rebuildAllLocal reconcile toText db queue

/-- Enqueue in the durable queue; the application's own statements run in the same transaction. -/
def queueUpsertWith (db : Database) (table recordId : String) (payload : Json)
    (baseRevision : Option String) (resurrect : Bool)
    (applyOptimistic : Database → String → Json → Except SqliteStoreError Database) :
    Except SqliteStoreError (String × Database) := do
  let queue ← loadQueueFrom read toText db
  match queue.queueUpsert toText table recordId payload baseRevision resurrect with
  | (.error error, _) => throw (.protocol error)
  | (.ok mutationId, queue) =>
    let db ← applyOptimistic db mutationId payload
    let db ← persistQueueIn toText db queue
    pure (mutationId, db)

def queueDeleteWith (db : Database) (table recordId : String) (baseRevision : Option String)
    (applyOptimistic : Database → String → Except SqliteStoreError Database) :
    Except SqliteStoreError (String × Database) := do
  let queue ← loadQueueFrom read toText db
  match queue.queueDelete table recordId baseRevision with
  | (.error error, _) => throw (.protocol error)
  | (.ok mutationId, queue) =>
    let db ← applyOptimistic db mutationId
    let db ← persistQueueIn toText db queue
    pure (mutationId, db)

def queueUpsertRecord (db : Database) (table recordId : String) (payload : Json)
    (baseRevision : Option String) (resurrect : Bool) :
    Except SqliteStoreError (String × Database) :=
  queueUpsertWith read toText db table recordId payload baseRevision resurrect fun db _ payload =>
    overlayLocalRecord reconcile toText db table recordId payload

def queueDeleteRecord (db : Database) (table recordId : String) (baseRevision : Option String) :
    Except SqliteStoreError (String × Database) :=
  queueDeleteWith read toText db table recordId baseRevision fun db _ =>
    .ok { db with localRecords := db.localRecords.erase (table, recordId) }

end SqliteProtocolStore
end OptoSync
