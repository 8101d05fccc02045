import OptoSync.IndexedDbQueueRun
import OptoSync.SyncDriver

/-!
# Writes under a consistency policy

`writeWithConsistency` and `writeDeleteWithConsistency` queue a mutation, wait for sync cycles and
report an outcome. They run beside other writes, cycles of any number of loops and pruning; what
stands between two `await`s is one step.
-/
namespace OptoSync.ConsistencyWrite
open Transition OptoSyncDatabase OptoSyncClient

inductive Optimism
  | background
  | localFirst
  | awaitServer
  deriving DecidableEq, Repr

def optimismToPolicy : Optimism → ConsistencyPolicy
  | .background => .queuedLocalFirst
  | .localFirst => .writeThroughLocalFirst
  | .awaitServer => .remoteAcknowledged

/-- The policy of a canonical identifier. -/
def policyOf (canonical : String) : ConsistencyPolicy :=
  if canonical = Consistency.remoteAcknowledged then .remoteAcknowledged
  else if canonical = Consistency.writeThroughLocalFirst then .writeThroughLocalFirst
  else .queuedLocalFirst

inductive OutcomeStatus
  | confirmed
  | pending
  | rejected
  | transformed
  | ambiguous
  | cancelled
  deriving DecidableEq, Repr

inductive Network
  | acked
  | rejected
  | transformed
  | responseLost
  | cancelled
  | notAttempted
  deriving DecidableEq, Repr

structure ConsistencyOutcome where
  status : OutcomeStatus
  consistencyPolicy : ConsistencyPolicy
  coveredMutationIds : Option (List String)
  message : Option String
  deriving DecidableEq

def outcomeForNetwork (consistencyPolicy : ConsistencyPolicy) (network : Network)
    (coveredMutationIds : List String) : ConsistencyOutcome :=
  let outcome (status : OutcomeStatus) : ConsistencyOutcome :=
    { status, consistencyPolicy, coveredMutationIds := none, message := none }
  if network = .cancelled then outcome .cancelled
  else if consistencyPolicy = .queuedLocalFirst then outcome .pending
  else match network with
    | .notAttempted | .cancelled => outcome .pending
    | .responseLost => { outcome .ambiguous with message := some "committed-but-response-lost" }
    | .rejected => { outcome .rejected with coveredMutationIds := some coveredMutationIds }
    | .transformed => { outcome .transformed with coveredMutationIds := some coveredMutationIds }
    | .acked => { outcome .confirmed with coveredMutationIds := some coveredMutationIds }

structure ConsistencyWriteReceipt extends ConsistencyOutcome where
  queuedMutationId : ℕ
  cycle : Option ProtocolSyncCycleResult
  deriving DecidableEq

/-- The text of an upsert is the stamped payload as `JSON.stringify` wrote it. -/
inductive Write
  | upsert (tableName recordId jsonPayload : String)
  | delete (tableName recordId : String)

structure RxWriteOptions where
  optimism : Option Optimism
  consistency : Option String
  loop : Option ℕ
  protocol : ProtocolMutationOptions

/-- `queueMutation` or `queueDelete`. -/
def Write.queue (client : OptoSyncClient) (db : OptoSyncDatabase) (write : Write)
    (protocol : ProtocolMutationOptions) (createdAt : ℕ) : Except String OptoSyncDatabase :=
  match write with
  | .upsert tableName recordId jsonPayload =>
    client.queueMutation db tableName recordId jsonPayload protocol createdAt
  | .delete tableName recordId =>
    client.queueDelete db tableName recordId protocol.baseRevision protocol.consistencyPolicy
      createdAt

def protocolWithPolicy (protocol : ProtocolMutationOptions) (policy : ConsistencyPolicy) :
    ProtocolMutationOptions := { protocol with consistencyPolicy := some policy.asStr }

/-- What a promise is rejected with. -/
structure SyncError where
  name : String
  message : String
  deriving DecidableEq

def isAbortError (error : SyncError) : Bool := error.name = "AbortError"

/-- Where a call waits: for a cycle or for the read of its row after one. The row is the one that
was still pending after the first cycle. -/
inductive Phase
  | queued
  | cycle (row : Option LocalMutation) (promise : ℕ)
  | read (row : Option LocalMutation) (cycle : ProtocolSyncCycleResult)

/-- A call whose mutation is queued; `mutationId` and the cycles awaited so far are its history. -/
structure Call where
  policy : ConsistencyPolicy
  loop : Option ℕ
  queuedMutationId : ℕ
  mutationId : String
  awaited : List ℕ
  phase : Phase

namespace Call

variable (call : Call)

def receipt (network : Network) (coveredMutationIds : List String)
    (cycle : Option ProtocolSyncCycleResult) : ConsistencyWriteReceipt :=
  { outcomeForNetwork call.policy network coveredMutationIds with
    queuedMutationId := call.queuedMutationId
    cycle }

/-- `settleConsistency` until it calls `syncNow` of a loop; `hint` is what the loop's own call
does. -/
def settleConsistency (aborted : Bool) (hint : Except String Unit) :
    Except String ConsistencyWriteReceipt ⊕ ℕ :=
  if aborted then .inl (.ok (call.receipt .cancelled [] none))
  else if call.policy = .queuedLocalFirst then .inl (.ok (call.receipt .notAttempted [] none))
  else match call.loop with
    | none =>
      if call.policy = .remoteAcknowledged then
        .inl (.error "remote-acknowledged consistency requires a sync loop")
      else .inl (.ok (call.receipt .notAttempted [] none))
    | some loop =>
      match hint with
      | .error message => .inl (.error message)
      | .ok _ => .inr loop

/-- The row after the first cycle: a receipt, or it is still pending. -/
def afterCycle (cycle : ProtocolSyncCycleResult) (row : Option LocalMutation) :
    ConsistencyWriteReceipt ⊕ LocalMutation :=
  match row with
  | none => .inl (call.receipt .acked [""] (some cycle))
  | some row =>
    if row.syncStatus = SyncStatus.failed then
      .inl (call.receipt .rejected [row.mutationId.getD ""] (some cycle))
    else if row.syncStatus = SyncStatus.pending then .inr row
    else .inl (call.receipt .acked [row.mutationId.getD ""] (some cycle))

def afterRetry (row : LocalMutation) (retry : ProtocolSyncCycleResult)
    (after : Option LocalMutation) : ConsistencyWriteReceipt :=
  if after.any isPending then call.receipt .responseLost [] (some retry)
  else call.receipt .acked
    [((after.bind LocalMutation.mutationId).or row.mutationId).getD ""] (some retry)

def caught (error : SyncError) (aborted : Bool) : ConsistencyWriteReceipt :=
  if isAbortError error || aborted then call.receipt .cancelled [] none
  else call.receipt .responseLost [] none

end Call

/-- The result that an acknowledgement brought for a row, and the cycle that did. -/
structure Delivery where
  rowId : ℕ
  result : MutationResult
  cycle : ℕ
  deriving DecidableEq

/-- A cycle holds the request it has sent. -/
inductive Cycle
  | running (request : Option WirePush)
  | finished (result : Except SyncError ProtocolSyncCycleResult)

/-- How a call ended, and all that had been delivered by then. -/
structure Settlement where
  call : Option Call
  outcome : Except String ConsistencyWriteReceipt
  deliveries : List Delivery

/-- The cycle of a promise is at its number. -/
structure Writers where
  db : OptoSyncDatabase
  cycles : List Cycle
  inFlight : ℕ → Option ℕ
  calls : ℕ → Option Call
  deliveries : List Delivery
  settlements : List Settlement

def Writers.start (db : OptoSyncDatabase) : Writers :=
  { db, cycles := [], inFlight := fun _ => none, calls := fun _ => none, deliveries := []
    settlements := [] }

inductive WriteEvent
  | writeWithConsistency (i : ℕ) (write : Write) (options : RxWriteOptions) (createdAt : ℕ)
      (fails : Option String)
  | settle (i : ℕ) (aborted : Bool) (hint : Except String Unit)
  | resume (i : ℕ) (aborted : Bool) (read : Except SyncError Unit)
  | queue (write : Write) (protocol : ProtocolMutationOptions) (createdAt : ℕ)
  | pruneConfirmed (retain : ℕ)
  | syncNow (loop : ℕ)
  | protocolPushRequest (cycle limit : ℕ)
  | acknowledgePush (cycle : ℕ) (response : PushResponse)
  | finish (cycle : ℕ) (result : Except SyncError ProtocolSyncCycleResult)

namespace Writers

variable (client : OptoSyncClient) (parse : String → Option Json) (s : Writers)

/-- The call returns or throws. -/
def settled (i : ℕ) (call : Option Call) (outcome : Except String ConsistencyWriteReceipt) :
    Writers :=
  { s with
    calls := Function.update s.calls i none
    settlements := s.settlements ++ [{ call, outcome, deliveries := s.deliveries }] }

def wait (i : ℕ) (call : Call) (phase : Phase) : Writers :=
  { s with calls := Function.update s.calls i (some { call with phase }) }

/-- `syncNow`: concurrent callers share the promise. -/
def syncNow (loop : ℕ) : ℕ × Writers :=
  match s.inFlight loop with
  | some promise => (promise, s)
  | none => (s.cycles.length, { s with
      cycles := s.cycles ++ [.running none]
      inFlight := Function.update s.inFlight loop (some s.cycles.length) })

def awaitCycle (i : ℕ) (call : Call) (row : Option LocalMutation) (loop : ℕ) : Writers :=
  let (promise, s) := s.syncNow loop
  s.wait i { call with awaited := call.awaited ++ [promise] } (.cycle row promise)

def finish (cycle : ℕ) (result : Except SyncError ProtocolSyncCycleResult) : Writers :=
  { s with
    cycles := s.cycles.set cycle (.finished result)
    inFlight := fun loop => if s.inFlight loop = some cycle then none else s.inFlight loop }

def writeWithConsistency (i : ℕ) (write : Write) (options : RxWriteOptions) (createdAt : ℕ)
    (fails : Option String) : Writers :=
  -- An inherited value goes on to the queue, where its text names no policy and is refused.
  match canonicalizeConsistencyPolicy (options.consistency.getD
    (optimismToPolicy (options.optimism.getD .localFirst)).asStr) with
  | .error message => s.settled i none (.error message)
  | .ok canonical =>
    let policy := policyOf canonical
    match fails with
    | some message => s.settled i none (.error message)
    | none =>
      match write.queue client s.db (protocolWithPolicy options.protocol policy) createdAt with
      | .error message => s.settled i none (.error message)
      | .ok db =>
        { s with
          db
          calls := Function.update s.calls i (some {
            policy, loop := options.loop, queuedMutationId := s.db.nextId
            mutationId := (s.db.mutationSeq + 1).repr, awaited := [], phase := .queued }) }

def settle (i : ℕ) (call : Call) (aborted : Bool) (hint : Except String Unit) : Writers :=
  match call.phase with
  | .queued =>
    match call.settleConsistency aborted hint with
    | .inl outcome => s.settled i (some call) outcome
    | .inr loop => s.awaitCycle i call none loop
  | _ => s

def find (id : ℕ) : Option LocalMutation := s.db.localMutations.find? fun row => row.id = id

def resume (i : ℕ) (call : Call) (aborted : Bool) (read : Except SyncError Unit) : Writers :=
  match call.phase with
  | .queued => s
  | .cycle row promise =>
    match s.cycles[promise]? with
    | some (.finished (.ok cycle)) => s.wait i call (.read row cycle)
    | some (.finished (.error error)) => s.settled i (some call) (.ok (call.caught error aborted))
    | _ => s
  | .read row cycle =>
    match read with
    | .error error => s.settled i (some call) (.ok (call.caught error aborted))
    | .ok _ =>
      match row with
      | none =>
        match call.afterCycle cycle (s.find call.queuedMutationId), call.loop with
        | .inl receipt, _ => s.settled i (some call) (.ok receipt)
        | .inr row, some loop => s.awaitCycle i call (some row) loop
        | .inr _, none => s
      | some row => s.settled i (some call)
          (.ok (call.afterRetry row cycle (s.find call.queuedMutationId)))

/-- The results of a batch, one for each row that is acknowledged. -/
def delivered (cycle : ℕ) (request : WirePush) (response : PushResponse) : List Delivery :=
  ((s.db.pendingMutations.take request.mutations.length).zip response.results).map
    fun entry => { rowId := entry.1.id, result := entry.2, cycle }

def acknowledgePush (cycle : ℕ) (request : WirePush) (response : PushResponse) : Writers :=
  match client.acknowledgePush parse s.db response request with
  | .error message => s.finish cycle (.error { name := "Error", message })
  | .ok db =>
    { s with
      db
      cycles := s.cycles.set cycle (.running none)
      deliveries := s.deliveries ++ s.delivered cycle request response }

def step : WriteEvent → Writers
  | .writeWithConsistency i write options createdAt fails =>
    match s.calls i with
    | some _ => s
    | none => s.writeWithConsistency client i write options createdAt fails
  | .settle i aborted hint =>
    match s.calls i with
    | some call => s.settle i call aborted hint
    | none => s
  | .resume i aborted read =>
    match s.calls i with
    | some call => s.resume i call aborted read
    | none => s
  | .queue write protocol createdAt =>
    match write.queue client s.db protocol createdAt with
    | .ok db => { s with db }
    | .error _ => s
  | .pruneConfirmed retain => { s with db := pruneConfirmed s.db retain }
  | .syncNow loop => (s.syncNow loop).2
  | .protocolPushRequest cycle limit =>
    match s.cycles[cycle]? with
    | some (.running none) =>
      match client.protocolPushRequest parse s.db noOptions limit with
      | .error message => s.finish cycle (.error { name := "Error", message })
      | .ok request =>
        if request.mutations = [] then s
        else { s with cycles := s.cycles.set cycle (.running (some request)) }
    | _ => s
  | .acknowledgePush cycle response =>
    match s.cycles[cycle]? with
    | some (.running (some request)) => s.acknowledgePush client parse cycle request response
    | _ => s
  | .finish cycle result =>
    match s.cycles[cycle]?, result with
    | some (.running none), result => s.finish cycle result
    | some (.running (some _)), .error error => s.finish cycle (.error error)
    | _, _ => s

end Writers

def Committed (result : MutationResult) : Prop :=
  result.status = .applied ∨ (result.status = .duplicate ∧ result.originalStatus = some .applied)

def Rejected (result : MutationResult) : Prop :=
  result.status = .rejected ∨ (result.status = .duplicate ∧ result.originalStatus = some .rejected)

theorem Committed.not_rejected {result : MutationResult} (h : Committed result) :
    ¬ Rejected result := by
  intro hrejected
  rcases h with happlied | ⟨hduplicate, horiginal⟩
  · rcases hrejected with h | h
    · rw [happlied] at h
      cases h
    · rw [happlied] at h
      cases h.1
  · rcases hrejected with h | h
    · rw [hduplicate] at h
      cases h
    · rw [horiginal] at h
      cases h.2

structure ReceiptHonest (call : Call) (deliveries : List Delivery)
    (receipt : ConsistencyWriteReceipt) : Prop where
  confirmed : receipt.status = .confirmed →
    (∃ d ∈ deliveries, d.rowId = call.queuedMutationId ∧ d.result.mutationId = call.mutationId) ∧
      ∀ d ∈ deliveries, d.rowId = call.queuedMutationId → Committed d.result
  rejected : (∃ d ∈ deliveries, d.rowId = call.queuedMutationId ∧ d.cycle ∈ call.awaited ∧
    Rejected d.result) → receipt.status = .rejected
  covered : receipt.status = .confirmed ∨ receipt.status = .rejected →
    receipt.coveredMutationIds = some [call.mutationId]

/-- A call that throws has queued nothing. -/
structure Settlement.Honest (settlement : Settlement) : Prop where
  threw : ∀ message, settlement.outcome = .error message → settlement.call = none
  receipt : ∀ receipt, settlement.outcome = .ok receipt → ∃ call, settlement.call = some call ∧
    ReceiptHonest call settlement.deliveries receipt

def ReceiptsHonest (s : Writers) : Prop := ∀ settlement ∈ s.settlements, settlement.Honest

/-- No awaited cycle has brought a rejection. -/
def NotRejected (s : Writers) (call : Call) : Prop :=
  ∀ d ∈ s.deliveries, d.rowId = call.queuedMutationId → d.cycle ∈ call.awaited →
    ¬ Rejected d.result

/-- What has been brought for the mutation are no rejections. -/
def NothingRefused (s : Writers) (call : Call) : Prop :=
  ∀ d ∈ s.deliveries, d.rowId = call.queuedMutationId → Committed d.result

/-- A row that is found acknowledged was not refused, and was not pruned before the first read;
what throws comes after no rejection. -/
def ResumesHonestly (s : Writers) (call : Call) (read : Except SyncError Unit) : Prop :=
  match call.phase with
  | .queued => True
  | .cycle _ promise =>
    ∀ error, s.cycles[promise]? = some (.finished (.error error)) → NotRejected s call
  | .read row _ =>
    match read with
    | .error _ => NotRejected s call
    | .ok _ =>
      match s.find call.queuedMutationId with
      | none => row ≠ none ∧ NothingRefused s call
      | some current => isPending current = true ∨ NothingRefused s call

/-- A call that goes on to the network under the remote-acknowledged policy has a loop, and the
loop's own `hint` does not throw. -/
def BeginsHonestly (call : Call) (aborted : Bool) (hint : Except String Unit) : Prop :=
  call.phase = .queued → aborted = false → call.policy ≠ .queuedLocalFirst →
    (call.loop = none → call.policy ≠ .remoteAcknowledged) ∧ (call.loop ≠ none → hint = .ok ())

def SettlesHonestly (s : Writers) : WriteEvent → Prop
  | .settle i aborted hint =>
    ∀ call, s.calls i = some call → BeginsHonestly call aborted hint
  | .resume i _ read => ∀ call, s.calls i = some call → ResumesHonestly s call read
  | _ => True

end OptoSync.ConsistencyWrite
