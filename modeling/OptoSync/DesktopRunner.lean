import OptoSync.DesktopCoordinator
import OptoSync.Transition

/-!
# The desktop runner

`wake_and_run` as the machine it is between transactions: a run stops before every transaction and
around its cycle, and anybody may be first with the next transaction. The log lists the wakes that
were signalled and the cycles that started and succeeded.
-/
namespace OptoSync
open Transition SqliteDesktopCoordinator

inductive DesktopWakeReason
  | processStart | localMutation | remoteChange | connectivity | resume | appUpdate | manual
  deriving DecidableEq, Repr

structure SqliteDesktopCycleContext where
  reasons : List DesktopWakeReason
  ownerId : String
  leaseKey : String
  fence : String
  wakeGeneration : String
  deadlineMs : ℕ
  grant : SqliteDesktopLeaseGrant

structure SqliteDesktopCompleted (ρ : Type) where
  result : ρ
  reasons : List DesktopWakeReason
  fence : String
  wakeGeneration : String
  handledGeneration : String

structure SqliteDesktopCycleFailure (ε : Type) where
  error : ε
  releaseError : Option SqliteDesktopError
  reasons : List DesktopWakeReason
  fence : String
  wakeGeneration : String

inductive SqliteDesktopRunError (ε : Type)
  | coordinator (error : SqliteDesktopError)
  | busy (reasons : List DesktopWakeReason) (retryAfterMs : ℕ) (wakeGeneration : String)
      (handledGeneration : String)
  | cycle (failure : SqliteDesktopCycleFailure ε)

/-- The last fields are what `new` has checked of the times. -/
structure SqliteCoordinatedDesktopSyncRunner where
  leaseKey : String
  ownerId : String
  cycleBudgetMs : ℕ
  leaseTtlMs : ℕ
  busyRetryCapMs : ℕ
  busyWaitBudgetMs : ℕ
  budget_bounds : 1000 ≤ cycleBudgetMs ∧ cycleBudgetMs ≤ 600000
  ttl_covers : cycleBudgetMs + 1000 ≤ leaseTtlMs
  cap_bounds : 0 < busyRetryCapMs ∧ busyRetryCapMs ≤ leaseTtlMs
  wait_bounds : busyRetryCapMs ≤ busyWaitBudgetMs ∧ busyWaitBudgetMs ≤ maxTtlMs * 2

def SqliteCoordinatedDesktopSyncRunner.new (leaseKey ownerId : String)
    (cycleBudgetMs leaseTtlMs busyRetryCapMs busyWaitBudgetMs : ℕ) :
    Except SqliteDesktopError SqliteCoordinatedDesktopSyncRunner := do
  validateIdentifier "lease key" leaseKey
  validateIdentifier "owner id" ownerId
  if hbudget : ¬ (1000 ≤ cycleBudgetMs ∧ cycleBudgetMs ≤ 600000) then
    throw (.invalidConfiguration "cycle_budget_ms must be from 1000 through 600000")
  else
    validateTtl leaseTtlMs
    if httl : leaseTtlMs < cycleBudgetMs + 1000 then
      throw (.invalidConfiguration "lease_ttl_ms must cover cycle_budget_ms plus 1000")
    else if hcap : busyRetryCapMs = 0 ∨ leaseTtlMs < busyRetryCapMs then
      throw (.invalidConfiguration "busy_retry_cap_ms must be from 1 through lease_ttl_ms")
    else if hwait : busyWaitBudgetMs < busyRetryCapMs ∨ maxTtlMs * 2 < busyWaitBudgetMs then
      throw (.invalidConfiguration
        "busy_wait_budget_ms must cover busy_retry_cap_ms and be at most 1800000")
    else
      pure { leaseKey, ownerId, cycleBudgetMs, leaseTtlMs, busyRetryCapMs, busyWaitBudgetMs
             budget_bounds := not_not.mp hbudget
             ttl_covers := Nat.not_lt.mp httl
             cap_bounds := by omega
             wait_bounds := by omega }

/-- Where a run of `wake_and_run` stands. -/
inductive RunPhase (ρ ε : Type)
  | signalling
  | acquiring
  | sleeping (delayMs : ℕ)
  | starting (grant : SqliteDesktopLeaseGrant)
  | cycling (context : SqliteDesktopCycleContext)
  | releasing (grant : SqliteDesktopLeaseGrant) (error : ε)
  | completing (grant : SqliteDesktopLeaseGrant) (result : ρ)
  | renewing (grant : SqliteDesktopLeaseGrant) (completion : SqliteDesktopCompletion)
  | returned (result : Except (SqliteDesktopRunError ε) (List (SqliteDesktopCompleted ρ)))

structure WakeAndRun (ρ ε : Type) where
  runner : SqliteCoordinatedDesktopSyncRunner
  reasons : List DesktopWakeReason
  completed : List (SqliteDesktopCompleted ρ)
  phase : RunPhase ρ ε

/-- What a run is given for its next step: the store clock, whether SQLite fails, the token of the
factory, the time since the first attempt to acquire, and what the cycle returns. -/
structure RunInput (ρ ε : Type) where
  reading : ℤ
  fails : Bool
  token : String
  elapsedMs : ℕ
  cycle : Except ε ρ

/-- A cycle is named by its run and by the number of cycles the run completed before. -/
inductive RunMark
  | signalled (key : String) (generation : ℕ)
  | cycleStarted (run cycle : ℕ) (key : String) (observed : ℕ)
  | cycleSucceeded (run cycle : ℕ)
  deriving DecidableEq, Repr

def generationNumber (generation : String) : ℕ :=
  match parseDecimal "wake generation" generation with
  | .ok n => n
  | .error _ => 0

def attempt {β : Type} (fails : Bool) (transaction : Except SqliteDesktopError β) :
    Except SqliteDesktopError β :=
  if fails then .error .sqlite else transaction

namespace WakeAndRun

variable {ρ ε : Type}

def start (runner : SqliteCoordinatedDesktopSyncRunner) (reason : DesktopWakeReason) :
    WakeAndRun ρ ε :=
  { runner, reasons := [reason], completed := [], phase := .signalling }

def fail (r : WakeAndRun ρ ε) (error : SqliteDesktopRunError ε) : WakeAndRun ρ ε :=
  { r with phase := .returned (.error error) }

def request (r : WakeAndRun ρ ε) (token : String) : SqliteDesktopAcquireRequest :=
  { key := r.runner.leaseKey, ownerId := r.runner.ownerId, token
    leaseTtlMs := r.runner.leaseTtlMs }

def context (r : WakeAndRun ρ ε) (grant : SqliteDesktopLeaseGrant) (nowMs : ℕ) :
    SqliteDesktopCycleContext :=
  { reasons := r.reasons, ownerId := r.runner.ownerId, leaseKey := r.runner.leaseKey
    fence := grant.fence, wakeGeneration := grant.wakeGeneration
    deadlineMs := min (nowMs + r.runner.cycleBudgetMs) Decimal.maxU64, grant }

/-- The attempt to acquire found another holder. -/
def onBusy (r : WakeAndRun ρ ε) (busy : SqliteDesktopBusy) (elapsedMs : ℕ) : WakeAndRun ρ ε :=
  if r.runner.busyWaitBudgetMs ≤ elapsedMs then
    r.fail (.busy r.reasons busy.retryAfterMs busy.wakeGeneration busy.handledGeneration)
  else
    let remainingBudget := r.runner.busyWaitBudgetMs - elapsedMs
    { r with phase := .sleeping (min (min r.runner.busyRetryCapMs (max busy.retryAfterMs 1))
        (max remainingBudget 1)) }

def onCompleted (r : WakeAndRun ρ ε) (grant : SqliteDesktopLeaseGrant) (result : ρ)
    (completion : SqliteDesktopCompletion) : WakeAndRun ρ ε :=
  let completed := r.completed ++ [{ result, reasons := r.reasons, fence := grant.fence
                                     wakeGeneration := grant.wakeGeneration
                                     handledGeneration := completion.handledGeneration }]
  if completion.released then { r with completed, phase := .returned (.ok completed) }
  else { r with completed, phase := .renewing grant completion }

/-- The next step of run `n`: the table, the run and the new marks. -/
def step (n : ℕ) (table : CoordinationTable) (r : WakeAndRun ρ ε) (input : RunInput ρ ε) :
    CoordinationTable × WakeAndRun ρ ε × List RunMark :=
  match r.phase with
  | .signalling =>
    match attempt input.fails (signalWake table r.runner.leaseKey input.reading) with
    | .error error => (table, r.fail (.coordinator error), [])
    | .ok (receipt, table) =>
      (table, { r with phase := .acquiring },
        [.signalled r.runner.leaseKey (generationNumber receipt.generation)])
  | .acquiring =>
    match attempt input.fails (acquire table (r.request input.token) input.reading) with
    | .error error => (table, r.fail (.coordinator error), [])
    | .ok (.acquired grant, table) => (table, { r with phase := .starting grant }, [])
    | .ok (.busy busy, table) => (table, r.onBusy busy input.elapsedMs, [])
  | .sleeping _ => (table, { r with phase := .acquiring }, [])
  | .starting grant =>
    match attempt input.fails (storeNowMs input.reading) with
    | .error error => (table, r.fail (.coordinator error), [])
    | .ok nowMs =>
      let context := r.context grant nowMs
      (table, { r with phase := .cycling context },
        [.cycleStarted n r.completed.length r.runner.leaseKey
          (generationNumber context.wakeGeneration)])
  | .cycling context =>
    match input.cycle with
    | .error error => (table, { r with phase := .releasing context.grant error }, [])
    | .ok result =>
      (table, { r with phase := .completing context.grant result },
        [.cycleSucceeded n r.completed.length])
  | .releasing grant error =>
    let failure (releaseError : Option SqliteDesktopError) : SqliteDesktopRunError ε :=
      .cycle { error, releaseError, reasons := r.reasons, fence := grant.fence
               wakeGeneration := grant.wakeGeneration }
    match attempt input.fails (releaseLease table grant.desktopGrant input.reading) with
    | .error releaseError => (table, r.fail (failure (some releaseError)), [])
    | .ok table => (table, r.fail (failure none), [])
  | .completing grant result =>
    match attempt input.fails (complete table grant grant.wakeGeneration input.reading) with
    | .error error => (table, r.fail (.coordinator error), [])
    | .ok (completion, table) => (table, r.onCompleted grant result completion, [])
  | .renewing grant completion =>
    match attempt input.fails (renew table grant r.runner.leaseTtlMs input.reading) with
    | .error error => (table, r.fail (.coordinator error), [])
    | .ok (none, table) => (table, r.fail (.coordinator .staleFence), [])
    | .ok (some renewed, table) =>
      (table, { r with phase := .starting { renewed with
                  wakeGeneration := completion.currentWakeGeneration
                  handledGeneration := completion.handledGeneration } }, [])
  | .returned _ => (table, r, [])

end WakeAndRun

/-- A call from outside the runs, or from within a cycle. -/
inductive OtherCall
  | signalWake (key : String)
  | acquire (request : SqliteDesktopAcquireRequest)
  | renew (grant : SqliteDesktopLeaseGrant) (leaseTtlMs : ℕ)
  | releaseLease (grant : DesktopLeaseGrant)
  | readState (key : String)

def OtherCall.perform (table : CoordinationTable) (reading : ℤ) :
    OtherCall → Except SqliteDesktopError (CoordinationTable × List RunMark)
  | .signalWake key => do
    let (receipt, table) ← SqliteDesktopCoordinator.signalWake table key reading
    pure (table, [.signalled key (generationNumber receipt.generation)])
  | .acquire request => do
    let (_, table) ← SqliteDesktopCoordinator.acquire table request reading
    pure (table, [])
  | .renew grant leaseTtlMs => do
    let (_, table) ← SqliteDesktopCoordinator.renew table grant leaseTtlMs reading
    pure (table, [])
  | .releaseLease grant => do
    let table ← SqliteDesktopCoordinator.releaseLease table grant reading
    pure (table, [])
  | .readState key => do
    let (_, table) ← SqliteDesktopCoordinator.readState table key reading
    pure (table, [])

structure RunnerSystem (ρ ε : Type) where
  table : CoordinationTable
  runs : ℕ → Option (WakeAndRun ρ ε)
  log : List RunMark

inductive RunnerEvent (ρ ε : Type)
  | begin (run : ℕ) (runner : SqliteCoordinatedDesktopSyncRunner) (reason : DesktopWakeReason)
  | step (run : ℕ) (input : RunInput ρ ε)
  | other (call : OtherCall) (reading : ℤ) (fails : Bool)

namespace RunnerSystem

variable {ρ ε : Type}

def initial : RunnerSystem ρ ε := { table := fun _ => none, runs := fun _ => none, log := [] }

def next (s : RunnerSystem ρ ε) : RunnerEvent ρ ε → RunnerSystem ρ ε
  | .begin n runner reason =>
    match s.runs n with
    | none => { s with runs := Function.update s.runs n (some (.start runner reason)) }
    | some _ => s
  | .step n input =>
    match s.runs n with
    | none => s
    | some r =>
      let (table, r, marks) := r.step n s.table input
      { table, runs := Function.update s.runs n (some r), log := s.log ++ marks }
  | .other call reading fails =>
    match attempt fails (call.perform s.table reading) with
    | .error _ => s
    | .ok (table, marks) => { s with table, log := s.log ++ marks }

end RunnerSystem
end OptoSync
