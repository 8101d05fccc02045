import OptoSync.ProtocolQueue
import OptoSync.Interaction

/-!
# The Rust sync drivers

`sync_cycle` and `sync_cycle_atomic` as programs that call a transport and a store. Every call
shows the caller's queue as it is during the call. The queue is returned next to the outcome, also
on an error.
-/
namespace OptoSync
open Decimal

structure ResetRequired where
  protocolVersion : ℕ
  error : String
  snapshotUrl : Option String
  deriving DecidableEq

inductive PullResult
  | changes (page : PullResponse)
  | resetRequired (reset : ResetRequired)
  deriving DecidableEq

structure TransportFailure (ε : Type) where
  source : ε
  retryable : Bool
  retryAfter : Option ℕ
  deriving DecidableEq

inductive ProtocolSyncError (τ α π : Type)
  | transport (failure : TransportFailure τ)
  | application (error : α)
  | persistence (error : π)
  | protocol (error : ProtocolError)
  | invalidResponse (message : String)
  deriving DecidableEq

structure ProtocolSyncOptions where
  pushLimit : ℕ
  pullLimit : ℕ
  maxPushBatchesPerCycle : ℕ
  maxPullPagesPerPhase : ℕ

def ProtocolSyncOptions.default : ProtocolSyncOptions :=
  { pushLimit := 100, pullLimit := 100, maxPushBatchesPerCycle := 10, maxPullPagesPerPhase := 100 }

def ProtocolSyncOptions.validate (options : ProtocolSyncOptions) :
    Except ProtocolError ProtocolSyncOptions :=
  if ¬ (1 ≤ options.pushLimit ∧ options.pushLimit ≤ 100) ∨
      ¬ (1 ≤ options.pullLimit ∧ options.pullLimit ≤ 1000) ∨
      options.maxPushBatchesPerCycle = 0 ∨ options.maxPullPagesPerPhase = 0 then
    .error .invalidLimit
  else .ok options

structure ProtocolSyncCycleResult where
  pushedMutations : ℕ
  acknowledgedMutations : ℕ
  pulledChanges : ℕ
  installedSnapshots : ℕ
  checkpoint : String
  hasMorePending : Bool
  deriving DecidableEq

def validateSnapshot (snapshot : SnapshotResponse) (priorCheckpoint : String) :
    Except String Unit :=
  match parseDecimal snapshot.checkpoint with
  | none => .error "invalid protocol snapshot response"
  | some checkpoint =>
    match parseDecimal priorCheckpoint with
    | none => .error "invalid local protocol checkpoint"
    | some prior =>
      if snapshot.protocolVersion ≠ 1 ∨ checkpoint < prior ∨
          snapshot.records.any (fun record =>
            record.table.toList = [] || record.recordId.toList = [] ||
              record.record.isObject = false || (parseDecimal record.revision).all (· = 0)) = true then
        .error "invalid protocol snapshot response"
      else .ok ()

/-- The record of a change must fit its operation. -/
def changeContentRefused (change : Change) : Bool :=
  match change.operation with
  | .upsert => change.record.all fun record => record.isObject = false
  | .delete => change.record.isSome

/-- One step of the loop over a page: the checkpoint of the change replaces `last`. -/
def validateChange (pageCheckpoint last : ℕ) (change : Change) : Except String ℕ :=
  match parseDecimal change.checkpoint with
  | none => .error "invalid protocol pull change"
  | some checkpoint =>
    if checkpoint ≤ last ∨ pageCheckpoint < checkpoint ∨ change.table.toList = [] ∨
        change.recordId.toList = [] ∨ (parseDecimal change.revision).all (· = 0) = true ∨
        changeContentRefused change = true ∨
        change.source.any (fun source => source.clientId.toList = [] ||
          (parseDecimal source.mutationId).all (· = 0)) = true then
      .error "invalid protocol pull change"
    else .ok checkpoint

def validatePullPage (page : PullResponse) (priorCheckpoint : String) : Except String Unit :=
  match parseDecimal page.checkpoint with
  | none => .error "invalid protocol pull response"
  | some pageCheckpoint =>
    match parseDecimal priorCheckpoint with
    | none => .error "invalid local protocol checkpoint"
    | some last =>
      if page.protocolVersion ≠ 1 ∨ pageCheckpoint < last then
        .error "invalid protocol pull response"
      else
        match page.changes.foldlM (validateChange pageCheckpoint) last with
        | .error message => .error message
        | .ok _ => .ok ()

inductive TransportOp
  | push (request : PushRequest)
  | pull (checkpoint : String) (limit : ℕ)
  | snapshot (reset : ResetRequired)
  deriving DecidableEq

abbrev TransportOp.Answer (τ : Type) : TransportOp → Type
  | push _ => Except (TransportFailure τ) PushResponse
  | pull _ _ => Except (TransportFailure τ) PullResult
  | snapshot _ => Except (TransportFailure τ) SnapshotResponse

/-- The calls of `sync_cycle`: transport, callbacks and queue persistence. -/
inductive CycleOp
  | transport (queue : ProtocolQueue) (op : TransportOp)
  | applyChanges (changes : List Change)
  | replaceAuthoritative (records : List SnapshotRecord)
  | persist (queue : ProtocolQueue)

abbrev CycleOp.Answer (τ α π : Type) : CycleOp → Type
  | transport _ op => op.Answer τ
  | applyChanges _ | replaceAuthoritative _ => Except α Unit
  | persist _ => Except π Unit

/-- The calls of `sync_cycle_atomic`: transport and store. A store may change the queue it is
given; it answers with the queue it leaves. -/
inductive AtomicOp
  | transport (queue : ProtocolQueue) (op : TransportOp)
  | persistAcknowledgement (queue : ProtocolQueue) (request : PushRequest)
      (response : PushResponse)
  | applyChangesAndPersist (changes : List Change) (queue : ProtocolQueue)
  | replaceAuthoritativeAndPersist (records : List SnapshotRecord) (queue : ProtocolQueue)

abbrev AtomicOp.Answer (τ σ : Type) : AtomicOp → Type
  | transport _ op => op.Answer τ
  | persistAcknowledgement .. | applyChangesAndPersist .. | replaceAuthoritativeAndPersist .. =>
    Except σ ProtocolQueue

namespace SyncDriver

def initialResult (queue : ProtocolQueue) : ProtocolSyncCycleResult :=
  { pushedMutations := 0, acknowledgedMutations := 0, pulledChanges := 0, installedSnapshots := 0,
    checkpoint := queue.checkpoint, hasMorePending := false }

abbrev CycleProgram (τ α π β : Type) : Type :=
  Interaction CycleOp (CycleOp.Answer τ α π)
    (Except (ProtocolSyncError τ α π) β × ProtocolQueue)

variable {τ α π σ : Type}

/-- The loop over pull pages; the first argument counts the pages left. -/
def pullToCurrent (options : ProtocolSyncOptions) :
    ℕ → ProtocolQueue → ProtocolSyncCycleResult → CycleProgram τ α π ProtocolSyncCycleResult
  | 0, queue, _ => .done (.error (.invalidResponse "pull page safety limit exceeded"), queue)
  | pages + 1, queue, result =>
    .call (.transport queue (.pull queue.checkpoint options.pullLimit)) fun
    | .error failure => .done (.error (.transport failure), queue)
    | .ok (.resetRequired reset) =>
      if reset.protocolVersion ≠ 1 ∨ reset.error ≠ "RESET_REQUIRED" then
        .done (.error (.invalidResponse "invalid protocol reset response"), queue)
      else .call (.transport queue (.snapshot reset)) fun
        | .error failure => .done (.error (.transport failure), queue)
        | .ok snapshot =>
          match validateSnapshot snapshot queue.checkpoint with
          | .error message => .done (.error (.invalidResponse message), queue)
          | .ok () =>
            (queue.installSnapshot (m := Interaction CycleOp (CycleOp.Answer τ α π)) snapshot
              fun records => .ask (CycleOp.replaceAuthoritative records)).bind fun
            | (.error (.protocol error), installed) => .done (.error (.protocol error), installed)
            | (.error (.replace error), installed) => .done (.error (.application error), installed)
            | (.ok (), installed) =>
              .call (.persist installed) fun
              | .error error => .done (.error (.persistence error), queue)
              | .ok () => pullToCurrent options pages installed
                  { result with installedSnapshots := result.installedSnapshots + 1 }
    | .ok (.changes page) =>
      match validatePullPage page queue.checkpoint with
      | .error message => .done (.error (.invalidResponse message), queue)
      | .ok () =>
        let persistPage (result : ProtocolSyncCycleResult) :
            CycleProgram τ α π ProtocolSyncCycleResult :=
          match queue.setCheckpoint page.checkpoint with
          | (.error error, moved) => .done (.error (.protocol error), moved)
          | (.ok (), moved) =>
            .call (.persist moved) fun
            | .error error => .done (.error (.persistence error), queue)
            | .ok () =>
              if page.hasMore = false then .done (.ok result, moved)
              else if page.checkpoint = queue.checkpoint then
                .done (.error (.invalidResponse "pull response hasMore without checkpoint progress"),
                  moved)
              else pullToCurrent options pages moved result
        if page.changes = [] then persistPage result
        else .call (.applyChanges page.changes) fun
          | .error error => .done (.error (.application error), queue)
          | .ok () => persistPage
              { result with pulledChanges := result.pulledChanges + page.changes.length }

/-- The loop over push batches. -/
def pushPending (options : ProtocolSyncOptions) :
    ℕ → ProtocolQueue → ProtocolSyncCycleResult → CycleProgram τ α π ProtocolSyncCycleResult
  | 0, queue, result => .done (.ok result, queue)
  | batches + 1, queue, result =>
    match queue.pushRequest options.pushLimit with
    | .error error => .done (.error (.protocol error), queue)
    | .ok request =>
      if request.mutations = [] then .done (.ok result, queue)
      else .call (.transport queue (.push request)) fun
        | .error failure => .done (.error (.transport failure), queue)
        | .ok response =>
          match queue.acknowledge response request with
          | (.error error, acknowledged) => .done (.error (.protocol error), acknowledged)
          | (.ok count, acknowledged) =>
            .call (.persist acknowledged) fun
            | .error error => .done (.error (.persistence error), queue)
            | .ok () => pushPending options batches acknowledged
                { result with
                  pushedMutations := result.pushedMutations + request.mutations.length
                  acknowledgedMutations := result.acknowledgedMutations + count }

def syncCycle (options : ProtocolSyncOptions) (queue : ProtocolQueue) :
    CycleProgram τ α π ProtocolSyncCycleResult :=
  (pullToCurrent options options.maxPullPagesPerPhase queue (initialResult queue)).bind fun
  | (.error error, queue) => .done (.error error, queue)
  | (.ok result, queue) =>
    (pushPending options options.maxPushBatchesPerCycle queue result).bind fun
    | (.error error, queue) => .done (.error error, queue)
    | (.ok result, queue) =>
      (pullToCurrent options options.maxPullPagesPerPhase queue
          { result with hasMorePending := queue.pending ≠ [] }).bind fun
      | (.error error, queue) => .done (.error error, queue)
      | (.ok result, queue) => .done (.ok { result with checkpoint := queue.checkpoint }, queue)

abbrev AtomicProgram (τ σ β : Type) : Type :=
  Interaction AtomicOp (AtomicOp.Answer τ σ) (Except (ProtocolSyncError τ σ σ) β × ProtocolQueue)

def pullToCurrentAtomic (options : ProtocolSyncOptions) :
    ℕ → ProtocolQueue → ProtocolSyncCycleResult → AtomicProgram τ σ ProtocolSyncCycleResult
  | 0, queue, _ => .done (.error (.invalidResponse "pull page safety limit exceeded"), queue)
  | pages + 1, queue, result =>
    .call (.transport queue (.pull queue.checkpoint options.pullLimit)) fun
    | .error failure => .done (.error (.transport failure), queue)
    | .ok (.resetRequired reset) =>
      if reset.protocolVersion ≠ 1 ∨ reset.error ≠ "RESET_REQUIRED" then
        .done (.error (.invalidResponse "invalid protocol reset response"), queue)
      else .call (.transport queue (.snapshot reset)) fun
        | .error failure => .done (.error (.transport failure), queue)
        | .ok snapshot =>
          match validateSnapshot snapshot queue.checkpoint with
          | .error message => .done (.error (.invalidResponse message), queue)
          | .ok () =>
            match queue.setCheckpoint snapshot.checkpoint with
            | (.error error, moved) => .done (.error (.protocol error), moved)
            | (.ok (), moved) =>
              .call (.replaceAuthoritativeAndPersist snapshot.records moved) fun
              | .error error => .done (.error (.application error), queue)
              | .ok stored => pullToCurrentAtomic options pages stored
                  { result with installedSnapshots := result.installedSnapshots + 1 }
    | .ok (.changes page) =>
      match validatePullPage page queue.checkpoint with
      | .error message => .done (.error (.invalidResponse message), queue)
      | .ok () =>
        match queue.setCheckpoint page.checkpoint with
        | (.error error, moved) => .done (.error (.protocol error), moved)
        | (.ok (), moved) =>
          .call (.applyChangesAndPersist page.changes moved) fun
          | .error error => .done (.error (.application error), queue)
          | .ok stored =>
            let result :=
              { result with pulledChanges := result.pulledChanges + page.changes.length }
            if page.hasMore = false then .done (.ok result, stored)
            else if page.checkpoint = queue.checkpoint then
              .done (.error (.invalidResponse "pull response hasMore without checkpoint progress"),
                stored)
            else pullToCurrentAtomic options pages stored result

def pushPendingAtomic (options : ProtocolSyncOptions) :
    ℕ → ProtocolQueue → ProtocolSyncCycleResult → AtomicProgram τ σ ProtocolSyncCycleResult
  | 0, queue, result => .done (.ok result, queue)
  | batches + 1, queue, result =>
    match queue.pushRequest options.pushLimit with
    | .error error => .done (.error (.protocol error), queue)
    | .ok request =>
      if request.mutations = [] then .done (.ok result, queue)
      else .call (.transport queue (.push request)) fun
        | .error failure => .done (.error (.transport failure), queue)
        | .ok response =>
          match queue.acknowledge response request with
          | (.error error, acknowledged) => .done (.error (.protocol error), acknowledged)
          | (.ok count, acknowledged) =>
            .call (.persistAcknowledgement acknowledged request response) fun
            | .error error => .done (.error (.persistence error), queue)
            | .ok stored => pushPendingAtomic options batches stored
                { result with
                  pushedMutations := result.pushedMutations + request.mutations.length
                  acknowledgedMutations := result.acknowledgedMutations + count }

def syncCycleAtomic (options : ProtocolSyncOptions) (queue : ProtocolQueue) :
    AtomicProgram τ σ ProtocolSyncCycleResult :=
  (pullToCurrentAtomic options options.maxPullPagesPerPhase queue (initialResult queue)).bind fun
  | (.error error, queue) => .done (.error error, queue)
  | (.ok result, queue) =>
    (pushPendingAtomic options options.maxPushBatchesPerCycle queue result).bind fun
    | (.error error, queue) => .done (.error error, queue)
    | (.ok result, queue) =>
      (pullToCurrentAtomic options options.maxPullPagesPerPhase queue
          { result with hasMorePending := queue.pending ≠ [] }).bind fun
      | (.error error, queue) => .done (.error error, queue)
      | (.ok result, queue) => .done (.ok { result with checkpoint := queue.checkpoint }, queue)

end SyncDriver
end OptoSync
