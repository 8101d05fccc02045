import OptoSync.Protocol

/-!
# The Rust protocol queue

`ProtocolQueue` and its operations. An operation on `&mut self` returns its result together with
the queue it leaves behind, also when it fails. `toText` stands for `serde_json::to_string` on a
payload; `to_vec` writes the same bytes.
-/
namespace OptoSync
open Decimal

structure ProtocolQueue where
  clientId : String
  nextMutationId : ℕ
  checkpoint : String
  mutations : List ProtocolMutation
  maxPendingMutations : ℕ
  maxQueuedPayloadBytes : ℕ
  consistencyPolicies : Std.ExtTreeMap String String compare
  deriving DecidableEq

namespace ProtocolQueue

/-- The queue that `with_limits` builds once its arguments are checked. -/
def empty (clientId : String) (maxPendingMutations maxQueuedPayloadBytes : ℕ) : ProtocolQueue :=
  { clientId, nextMutationId := 1, checkpoint := "0", mutations := [], maxPendingMutations,
    maxQueuedPayloadBytes, consistencyPolicies := ∅ }

def withLimits (clientId : String) (maxPendingMutations maxQueuedPayloadBytes : ℕ) :
    Except ProtocolError ProtocolQueue :=
  if clientId.toList = [] then .error .emptyClientId
  else if validScopeId clientId = false then .error .invalidTarget
  else if maxPendingMutations = 0 ∨ maxQueuedPayloadBytes < 2 then .error .invalidQueueLimit
  else .ok (empty clientId maxPendingMutations maxQueuedPayloadBytes)

def new (clientId : String) : Except ProtocolError ProtocolQueue :=
  withLimits clientId defaultMaxPendingMutations defaultMaxQueuedPayloadBytes

def pending (q : ProtocolQueue) : List ProtocolMutation :=
  q.mutations.filter fun m => m.status = .pending

def consistencyPolicy (q : ProtocolQueue) (mutationId : String) : Option String :=
  q.consistencyPolicies[mutationId]?

def queue (q : ProtocolQueue) (mutation : ProtocolMutation) (payloadBytes : ℕ) :
    Except ProtocolError String × ProtocolQueue :=
  if q.maxQueuedPayloadBytes < payloadBytes then (.error .payloadTooLarge, q)
  else if q.maxPendingMutations ≤ q.pending.length then (.error .queueFull, q)
  else if canAllocateMutationId q.nextMutationId = false then (.error .mutationIdExhausted, q)
  else
    match checkedAdd q.nextMutationId 1 with
    | none => (.error .mutationIdExhausted, q)
    | some next =>
      let id := q.nextMutationId.repr
      (.ok id,
        { q with
          nextMutationId := next
          mutations := q.mutations ++ [{ mutation with mutationId := id }]
          consistencyPolicies := q.consistencyPolicies.insertIfNew id Consistency.writeThroughLocalFirst })

def queueUpsert (toText : Json → String) (q : ProtocolQueue) (table recordId : String)
    (payload : Json) (baseRevision : Option String) (resurrect : Bool) :
    Except ProtocolError String × ProtocolQueue :=
  if validScopeId table = false ∨ validRecordId recordId = false then (.error .invalidTarget, q)
  else if payload.isObject = false then (.error .invalidPayload, q)
  else q.queue
    { mutationId := "", operation := .upsert, table, recordId, payload := some payload,
      baseRevision, resurrect, status := .pending } (toText payload).utf8ByteSize

def queueDelete (q : ProtocolQueue) (table recordId : String) (baseRevision : Option String) :
    Except ProtocolError String × ProtocolQueue :=
  if validScopeId table = false ∨ validRecordId recordId = false then (.error .invalidTarget, q)
  else q.queue
    { mutationId := "", operation := .delete, table, recordId, payload := none,
      baseRevision, resurrect := false, status := .pending } 2

/-- Overwrite the policy of the id just allocated; a refusal passes through. -/
def recordPolicy (policy : ConsistencyPolicy) :
    Except ProtocolError String × ProtocolQueue → Except ProtocolError String × ProtocolQueue
  | (.error e, q) => (.error e, q)
  | (.ok id, q) =>
    (.ok id, { q with consistencyPolicies := q.consistencyPolicies.insert id policy.asStr })

def queueUpsertWithConsistency (toText : Json → String) (q : ProtocolQueue)
    (table recordId : String) (payload : Json) (baseRevision : Option String) (resurrect : Bool)
    (policy : ConsistencyPolicy) : Except ProtocolError String × ProtocolQueue :=
  recordPolicy policy (q.queueUpsert toText table recordId payload baseRevision resurrect)

def queueDeleteWithConsistency (q : ProtocolQueue) (table recordId : String)
    (baseRevision : Option String) (policy : ConsistencyPolicy) :
    Except ProtocolError String × ProtocolQueue :=
  recordPolicy policy (q.queueDelete table recordId baseRevision)

def pushRequest (q : ProtocolQueue) (limit : ℕ) : Except ProtocolError PushRequest :=
  if validPushLimit limit = false then .error .invalidLimit
  else .ok { protocolVersion := 1, clientId := q.clientId, mutations := q.pending.take limit }

/-- The per-result part of the acknowledgement check. -/
def resultRefused (sent : ProtocolMutation) (result : MutationResult) : Bool :=
  sent.mutationId ≠ result.mutationId ||
    result.checkpoint.any (fun value => (parseDecimal value).isNone) ||
    result.revision.any (fun value =>
      (parseDecimal value).isNone || (parseDecimal value).any (· = 0)) ||
    result.originalStatus = some .duplicate ||
    (result.status = .duplicate && result.originalStatus.isNone) ||
    (result.status ≠ .duplicate && result.originalStatus.isSome)

/-- The loop over `&mut self.mutations`: it stops at the first row whose id does not parse and
keeps the rows it has already confirmed. -/
def confirmThrough (watermark : ℕ) :
    ℕ → List ProtocolMutation → Except ProtocolError ℕ × List ProtocolMutation
  | changed, [] => (.ok changed, [])
  | changed, m :: ms =>
    match parseDecimal m.mutationId with
    | none => (.error .invalidDecimal, m :: ms)
    | some id =>
      if id ≤ watermark ∧ m.status = .pending then
        let rest := confirmThrough watermark (changed + 1) ms
        (rest.1, { m with status := .confirmed } :: rest.2)
      else
        let rest := confirmThrough watermark changed ms
        (rest.1, m :: rest.2)

def acknowledge (q : ProtocolQueue) (response : PushResponse) (request : PushRequest) :
    Except ProtocolError ℕ × ProtocolQueue :=
  if request.clientId ≠ q.clientId ∨ response.clientId ≠ q.clientId then (.error .wrongClient, q)
  else if request.protocolVersion ≠ 1 ∨ request.mutations = [] ∨ 100 < request.mutations.length ∨
      request.mutations ≠ q.pending.take request.mutations.length ∨
      response.protocolVersion ≠ 1 ∨ response.results.length ≠ request.mutations.length ∨
      request.mutations.getLast?.map (·.mutationId) ≠ some response.lastMutationId ∨
      (parseDecimal response.checkpoint).isNone ∨
      (request.mutations.zip response.results).any (fun p => resultRefused p.1 p.2) = true then
    (.error .invalidAcknowledgement, q)
  else
    match parseDecimal response.lastMutationId with
    | none => (.error .invalidDecimal, q)
    | some watermark =>
      if watermarkIsValid watermark q.nextMutationId = false then (.error .watermarkAhead, q)
      else
        let out := confirmThrough watermark 0 q.mutations
        (out.1, { q with mutations := out.2 })

def setCheckpoint (q : ProtocolQueue) (checkpoint : String) :
    Except ProtocolError Unit × ProtocolQueue :=
  match parseDecimal checkpoint with
  | none => (.error .invalidDecimal, q)
  | some _ => (.ok (), { q with checkpoint })

/-- What `install_snapshot` asks of every snapshot row. -/
def installableRecord (entry : SnapshotRecord) : Bool :=
  validScopeId entry.table && validRecordId entry.recordId && entry.record.isObject &&
    (parseDecimal entry.revision).any (0 < ·)

/-- The callback runs in the monad of the caller: plain in the queue itself, a call to the
application inside a sync cycle. -/
def installSnapshot {m : Type → Type} [Monad m] {ε : Type} (q : ProtocolQueue)
    (snapshot : SnapshotResponse) (replaceAuthoritative : List SnapshotRecord → m (Except ε Unit)) :
    m (Except (SnapshotInstallError ε) Unit × ProtocolQueue) :=
  if snapshot.protocolVersion ≠ 1 ∨ (parseDecimal snapshot.checkpoint).isNone ∨
      snapshot.records.all installableRecord = false then
    pure (.error (.protocol .invalidSnapshot), q)
  else do
    match ← replaceAuthoritative snapshot.records with
    | .error e => pure (.error (.replace e), q)
    | .ok () => pure (.ok (), { q with checkpoint := snapshot.checkpoint })

/-- Remove the oldest confirmed rows, all but `retain` of them. -/
def pruneConfirmed (q : ProtocolQueue) (retain : ℕ) : ℕ × ProtocolQueue :=
  let confirmed := q.mutations.filter fun m => m.status = .confirmed
  let dropCount := confirmed.length - retain
  let dropIds := (confirmed.map (·.mutationId)).take dropCount
  let kept := q.mutations.filter fun m => !dropIds.any (· = m.mutationId)
  (q.mutations.length - kept.length, { q with mutations := kept })

/-- The check of a row's payload and resurrect flag against its operation. -/
def validateContent (toText : Json → String) (maxQueuedPayloadBytes : ℕ) (m : ProtocolMutation) :
    Except ProtocolError Unit :=
  match m.operation with
  | .upsert =>
    match m.payload.filter Json.isObject with
    | none => .error .invalidQueueState
    | some payload =>
      if maxQueuedPayloadBytes < (toText payload).utf8ByteSize then .error .invalidQueueState
      else .ok ()
  | .delete =>
    if m.payload.isSome ∨ m.resurrect = true then .error .invalidQueueState else .ok ()

/-- One row of the validation fold, with the id of the row before it and the pending count. -/
def validateRow (toText : Json → String) (q : ProtocolQueue) (acc : ℕ × ℕ)
    (m : ProtocolMutation) : Except ProtocolError (ℕ × ℕ) :=
  match parseDecimal m.mutationId with
  | none => .error .invalidQueueState
  | some id =>
    if id = 0 ∨ id ≤ acc.1 ∨ q.nextMutationId ≤ id ∨ validScopeId m.table = false ∨
        validRecordId m.recordId = false ∨
        m.baseRevision.any (fun revision => (parseDecimal revision).isNone) = true then
      .error .invalidQueueState
    else
      match validateContent toText q.maxQueuedPayloadBytes m with
      | .error e => .error e
      | .ok () => .ok (id, acc.2 + if m.status = .pending then 1 else 0)

def validate (toText : Json → String) (q : ProtocolQueue) : Except ProtocolError Unit :=
  if validScopeId q.clientId = false ∨ q.maxPendingMutations = 0 ∨ q.maxQueuedPayloadBytes < 2 ∨
      (parseDecimal q.checkpoint).isNone ∨ q.nextMutationId = 0 ∨
      maxI64 + 1 < q.nextMutationId then
    .error .invalidQueueState
  else
    match q.mutations.foldlM (validateRow toText q) (0, 0) with
    | .error e => .error e
    | .ok acc => if q.maxPendingMutations < acc.2 then .error .invalidQueueState else .ok ()

end ProtocolQueue
end OptoSync
