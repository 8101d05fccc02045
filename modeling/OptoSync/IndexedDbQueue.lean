import OptoSync.PolicyAliases

/-!
# The IndexedDB queue

The mutation queue of the TypeScript client. A call that throws leaves the database as it was.
`parse` is `JSON.parse`.
-/
namespace OptoSync
open Decimal

structure LocalMutation where
  id : ℕ
  tableName : String
  recordId : String
  jsonPayload : String
  createdAt : ℕ
  syncStatus : ℤ
  clientId : Option String
  mutationId : Option String
  operation : Option Operation
  baseRevision : Option String
  resurrect : Option Bool
  attempts : Option ℕ
  consistencyPolicy : Option String
  deriving DecidableEq

namespace SyncStatus

def pending : ℤ := 0
def synced : ℤ := 1
def failed : ℤ := 2

end SyncStatus

/-- The store of the queue, in key order, its key generator and the sequence kept in `meta`. -/
structure OptoSyncDatabase where
  localMutations : List LocalMutation
  nextId : ℕ
  mutationSeq : ℕ
  sorted : localMutations.Pairwise fun a b => a.id < b.id
  fresh : ∀ row ∈ localMutations, row.id < nextId

/-- The store as a new device creates it. -/
def OptoSyncDatabase.created : OptoSyncDatabase where
  localMutations := []
  nextId := 1
  mutationSeq := 0
  sorted := .nil
  fresh := fun _ h => absurd h List.not_mem_nil

/-- The default policy is given by the name that it is looked up under. -/
structure OptoSyncClient where
  clientId : String
  maxPendingMutations : ℕ
  maxQueuedPayloadBytes : ℕ
  defaultConsistencyPolicy : String
  client_ne : clientId ≠ ""

structure ProtocolMutationOptions where
  baseRevision : Option String
  resurrect : Option Bool
  consistencyPolicy : Option String
  deriving DecidableEq

/-- The requests of this client: unset fields are left out. -/
structure WireMutation where
  mutationId : String
  operation : Operation
  table : String
  recordId : String
  payload : Option Json
  baseRevision : Option String
  resurrect : Option Bool
  deriving DecidableEq

structure WirePush where
  protocolVersion : ℕ
  clientId : String
  mutations : List WireMutation
  deriving DecidableEq

def noOptions : ProtocolMutationOptions :=
  { baseRevision := none, resurrect := none, consistencyPolicy := none }

/-- `/^(?:0|[1-9]\d*)$/` -/
def decimalPattern (value : String) : Bool :=
  value = "0" || (value.toList ≠ [] && value.toList.head? ≠ some '0' &&
    value.toList.all Char.isDigit)

/-- `/^[1-9]\d*$/` -/
def positiveDecimalPattern (value : String) : Bool := decimalPattern value && value ≠ "0"

/-- `BigInt` of a decimal string. -/
def bigInt (value : String) : ℕ := Nat.ofDigitChars 10 value.toList 0

def requireDecimal (value : Option String) (name : String) (allowZero : Bool) :
    Except String String :=
  match value with
  | some value =>
    if decimalPattern value = false ∨ (allowZero = false ∧ value = "0") then
      .error (name ++ " must be a canonical " ++ (if allowZero then "unsigned" else "positive") ++
        " decimal string")
    else .ok value
  | none =>
    .error (name ++ " must be a canonical " ++ (if allowZero then "unsigned" else "positive") ++
      " decimal string")

section
variable (parse : String → Option Json)

def encodeRow (row : LocalMutation) (defaults : ProtocolMutationOptions) (mutationId : String) :
    Except String WireMutation :=
  let operation := row.operation.getD .upsert
  let mutation : WireMutation :=
    { mutationId, operation, table := row.tableName, recordId := row.recordId, payload := none
      baseRevision := row.baseRevision.or defaults.baseRevision, resurrect := none }
  match operation with
  | .delete => .ok mutation
  | .upsert =>
    match parse row.jsonPayload with
    | some (.object fields) =>
      let resurrect := (row.resurrect.or defaults.resurrect).getD false
      .ok { mutation with
        payload := some (.object fields)
        resurrect := if resurrect then some true else none }
    | some _ => .error ("mutation " ++ mutationId ++ " payload must be a JSON object")
    | none => .error "payload is not JSON"

/-- The rows of a batch one after the other, each with the row before it. -/
def encodeRows (clientId : String) (defaults : ProtocolMutationOptions) :
    Option LocalMutation → List LocalMutation → Except String (List WireMutation)
  | _, [] => .ok []
  | prior, row :: rows => do
    if row.clientId ≠ some clientId then
      throw ("pending row " ++ row.id.repr ++ " belongs to a different client")
    let mutationId ← requireDecimal row.mutationId "mutationId" false
    if prior.any fun prior => bigInt mutationId ≠ bigInt (prior.mutationId.getD "") + 1 then
      throw "pending protocol mutations must be contiguous and insertion ordered"
    let mutation ← encodeRow parse row defaults mutationId
    let mutations ← encodeRows clientId defaults (some row) rows
    pure (mutation :: mutations)

def buildPushRequest (clientId : String) (pending : List LocalMutation)
    (defaults : ProtocolMutationOptions) (limit : ℕ) : Except String WirePush := do
  if clientId = "" ∨ limit < 1 ∨ 100 < limit then
    throw "clientId must be non-empty and limit must be an integer from 1 to 100"
  let mutations ← encodeRows parse clientId defaults none (pending.take limit)
  pure { protocolVersion := 1, clientId, mutations }

end

def validateResult (expected : WireMutation) (result : MutationResult) : Bool :=
  result.mutationId = expected.mutationId && result.checkpoint.all decimalPattern &&
    result.revision.all positiveDecimalPattern && result.originalStatus ≠ some .duplicate &&
      decide (result.status = .duplicate) = result.originalStatus.isSome

def validatePushResponse (request : WirePush) (response : PushResponse) : Except String Unit :=
  if request.protocolVersion = 1 ∧ request.mutations ≠ [] ∧ response.protocolVersion = 1 ∧
      response.clientId = request.clientId ∧ decimalPattern response.lastMutationId = true ∧
      decimalPattern response.checkpoint = true ∧
      response.results.length = request.mutations.length ∧
      some response.lastMutationId = request.mutations.getLast?.map WireMutation.mutationId ∧
      (request.mutations.zip response.results).all (fun row => validateResult row.1 row.2) = true
  then .ok ()
  else .error "push acknowledgement does not match the sent batch"

namespace OptoSyncDatabase

def isPending (row : LocalMutation) : Bool := row.syncStatus = SyncStatus.pending

def pendingMutations (db : OptoSyncDatabase) : List LocalMutation :=
  (db.localMutations.filter isPending).mergeSort fun a b => a.id ≤ b.id

def withStatus (ids : List ℕ) (syncStatus : ℤ) (row : LocalMutation) : LocalMutation :=
  if row.id ∈ ids then { row with syncStatus } else row

@[simp] theorem withStatus_id (ids : List ℕ) (syncStatus : ℤ) (row : LocalMutation) :
    (withStatus ids syncStatus row).id = row.id := by
  unfold withStatus
  split <;> rfl

/-- `bulkUpdate` of one field. -/
def updateStatus (db : OptoSyncDatabase) (ids : List ℕ) (syncStatus : ℤ) : OptoSyncDatabase :=
  { db with
    localMutations := db.localMutations.map (withStatus ids syncStatus)
    sorted := by simpa [List.pairwise_map] using db.sorted
    fresh := by simpa using db.fresh }

def bulkDelete (db : OptoSyncDatabase) (ids : List ℕ) : OptoSyncDatabase :=
  { db with
    localMutations := db.localMutations.filter fun row => row.id ∉ ids
    sorted := db.sorted.filter _
    fresh := fun row h => db.fresh row (List.mem_filter.mp h).1 }

/-- A new row under the next key, with the next mutation id. -/
def add (db : OptoSyncDatabase) (row : LocalMutation) : OptoSyncDatabase :=
  { localMutations := db.localMutations ++ [{ row with id := db.nextId }]
    nextId := db.nextId + 1
    mutationSeq := db.mutationSeq + 1
    sorted := by
      rw [List.pairwise_append]
      refine ⟨db.sorted, List.pairwise_singleton _ _, ?_⟩
      intro a ha b hb
      rw [List.mem_singleton.mp hb]
      exact db.fresh a ha
    fresh := by
      intro r hr
      rcases List.mem_append.mp hr with hr | hr
      · exact Nat.lt_succ_of_lt (db.fresh r hr)
      · rw [List.mem_singleton.mp hr]
        exact Nat.lt_succ_self _ }

end OptoSyncDatabase

namespace OptoSyncClient
open OptoSyncDatabase

variable (client : OptoSyncClient)

def assertPayloadQuota (jsonPayload : String) : Except String Unit :=
  if client.maxQueuedPayloadBytes < jsonPayload.utf8ByteSize then .error "PAYLOAD_TOO_LARGE"
  else .ok ()

def assertPendingQuota (db : OptoSyncDatabase) : Except String Unit :=
  if client.maxPendingMutations ≤ (db.localMutations.filter isPending).length then
    .error "QUEUE_FULL"
  else .ok ()

/-- The common part of the two inserts; `row` is complete up to its key, its identity and its
policy. -/
def insert (db : OptoSyncDatabase) (row : LocalMutation) (policy : Option String) :
    Except String OptoSyncDatabase := do
  client.assertPayloadQuota row.jsonPayload
  client.assertPendingQuota db
  let consistencyPolicy ← PolicyAliases.canonicalizeConsistencyPolicy
    (policy.getD client.defaultConsistencyPolicy)
  let stored ← PolicyAliases.structuredClone consistencyPolicy
  pure (db.add { row with
    syncStatus := SyncStatus.pending
    clientId := some client.clientId
    mutationId := some (db.mutationSeq + 1).repr
    attempts := some 0
    consistencyPolicy := some stored.propertyKey })

def blankRow (tableName recordId jsonPayload : String) (createdAt : ℕ) : LocalMutation :=
  { id := 0, tableName, recordId, jsonPayload, createdAt, syncStatus := SyncStatus.pending
    clientId := none, mutationId := none, operation := none, baseRevision := none
    resurrect := none, attempts := none, consistencyPolicy := none }

/-- `jsonPayload` is the stamped payload as `JSON.stringify` wrote it. -/
def queueMutation (db : OptoSyncDatabase) (tableName recordId jsonPayload : String)
    (protocol : ProtocolMutationOptions) (createdAt : ℕ) : Except String OptoSyncDatabase :=
  client.insert db { blankRow tableName recordId jsonPayload createdAt with
      operation := some .upsert
      baseRevision := protocol.baseRevision
      resurrect := protocol.resurrect } protocol.consistencyPolicy

def queueDelete (db : OptoSyncDatabase) (tableName recordId : String)
    (baseRevision consistencyPolicy : Option String) (createdAt : ℕ) :
    Except String OptoSyncDatabase :=
  client.insert db { blankRow tableName recordId "\x7b\x7d" createdAt with
      operation := some .delete
      baseRevision } consistencyPolicy

def markMutation (db : OptoSyncDatabase) (id : ℕ) (syncStatus : ℤ) : OptoSyncDatabase :=
  db.updateStatus [id] syncStatus

/-- `lastMutationId` is the argument as a `BigInt`. -/
def confirmSyncedUpTo (db : OptoSyncDatabase) (lastMutationId : ℤ) (clientId : Option String) :
    OptoSyncDatabase :=
  let confirmed := db.localMutations.filter fun row =>
    isPending row && row.clientId = some (clientId.getD client.clientId) &&
      row.mutationId.any fun mutationId => (bigInt mutationId : ℤ) ≤ lastMutationId
  db.updateStatus (confirmed.map LocalMutation.id) SyncStatus.synced

def pruneConfirmed (db : OptoSyncDatabase) (retain : ℕ) : OptoSyncDatabase :=
  let confirmed := (db.localMutations.filter fun row => row.syncStatus = SyncStatus.synced).mergeSort
    fun a b => a.id ≤ b.id
  let removable := confirmed.take (confirmed.length - retain)
  db.bulkDelete (removable.map LocalMutation.id)

variable (parse : String → Option Json)

def protocolPushRequest (db : OptoSyncDatabase) (options : ProtocolMutationOptions) (limit : ℕ) :
    Except String WirePush :=
  if options.baseRevision.isSome ∨ options.resurrect.isSome then
    .error
      "protocol options must be persisted by queueMutation; protocolPushRequest only accepts a batch limit"
  else buildPushRequest parse client.clientId db.pendingMutations options limit

def acknowledgePush (db : OptoSyncDatabase) (response : PushResponse) (request : WirePush) :
    Except String OptoSyncDatabase := do
  validatePushResponse request response
  if request.clientId ≠ client.clientId then
    throw "push acknowledgement does not match the sent batch"
  let pending := db.pendingMutations
  let expected ← buildPushRequest parse client.clientId pending noOptions request.mutations.length
  if expected ≠ request then throw "push acknowledgement does not match the sent batch"
  let confirmed := pending.take request.mutations.length
  pure (db.updateStatus (confirmed.map LocalMutation.id) SyncStatus.synced)

/-- `reconcile` is `reconcileIncoming` under the options of the overlay. Documents are kept as the
texts that `JSON.stringify` writes for them. -/
def rebasePending (reconcile : String → String → String) (serverPayload : String)
    (pendingPayloads : List String) : String :=
  pendingPayloads.foldl reconcile serverPayload

def localView (reconcile : String → String → String) (db : OptoSyncDatabase)
    (tableName recordId serverPayload : String) : String :=
  let mutations := db.pendingMutations.filter fun m => m.tableName = tableName
  let pending := mutations.filter fun m => m.recordId = recordId
  rebasePending reconcile serverPayload (pending.map LocalMutation.jsonPayload)

end OptoSyncClient
end OptoSync
