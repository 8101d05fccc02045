import OptoSync.RetryDelay
import OptoSync.Transition

/-!
# The sync loop

`ProtocolSyncLoop` is one machine in the TypeScript and the Dart client. They differ in the errors
that a cycle ends with and in the arithmetic of the retry delay, which `LoopRules` holds. What a
cycle does between its start and its end is not part of the loop: its outcome is an event.
-/
namespace OptoSync

inductive ProtocolSyncStatus
  | stopped | idle | syncing | offline | backoff | error
  deriving DecidableEq, Repr

inductive CycleOutcome (ε : Type)
  | resolved (hasMorePending : Bool)
  | rejected (error : ε)

structure ScheduledTimer (δ : Type) where
  handle : ℕ
  generation : ℕ
  delay : δ

/-- A cycle in flight. `drive` awaits the ones it has started itself, with the generation that they
began in; `outcome` is there once the handlers of `then` and `catch` have run. -/
structure SyncCycle (ε : Type) where
  generation : ℕ
  driven : Bool
  outcome : Option (CycleOutcome ε)

structure LoopRules (ε δ : Type) where
  cancelled : ε → Bool
  retryable : ε → Bool
  retryDelay : ℕ → Number → ε → Option δ
  noDelay : δ

structure ProtocolSyncLoop (ε δ : Type) where
  started : Bool
  online : Bool
  rerunRequested : Bool
  generation : ℕ
  timer : Option (ScheduledTimer δ)
  /-- How many timers were scheduled so far; the next one gets this handle. -/
  timers : ℕ
  inFlight : Option (SyncCycle ε)
  /-- The outcome that `drive` will see when it resumes, with its generation. -/
  awaited : Option (ℕ × CycleOutcome ε)
  status : ProtocolSyncStatus
  consecutiveFailures : ℕ

inductive SyncLoopEvent (ε : Type)
  | start | stop | hint | syncNow
  | timerFired (handle : ℕ)
  | connectivity (online : Bool)
  | cycleSettled (outcome : CycleOutcome ε)
  | cycleFinalized
  | driveResumed (sample : Number)

namespace ProtocolSyncLoop

variable {ε δ : Type} (rules : LoopRules ε δ)

def new (online : Bool) : ProtocolSyncLoop ε δ :=
  { started := false, online, rerunRequested := false, generation := 0, timer := none, timers := 0
    inFlight := none, awaited := none, status := .stopped, consecutiveFailures := 0 }

def schedule (s : ProtocolSyncLoop ε δ) (delay : δ) : ProtocolSyncLoop ε δ :=
  if s.started = false ∨ s.timer.isSome then s
  else { s with timer := some ⟨s.timers, s.generation, delay⟩, timers := s.timers + 1 }

def enterOffline (s : ProtocolSyncLoop ε δ) : ProtocolSyncLoop ε δ :=
  if s.started = false ∨ s.status = .offline then s
  else { s with
    generation := s.generation + 1
    rerunRequested := false
    timer := none
    status := .offline }

def start (s : ProtocolSyncLoop ε δ) : ProtocolSyncLoop ε δ :=
  if s.started then s
  else
    let s := { s with generation := s.generation + 1, started := true, consecutiveFailures := 0 }
    if s.online then schedule { s with status := .idle } rules.noDelay
    else { s with status := .offline }

def stop (s : ProtocolSyncLoop ε δ) : ProtocolSyncLoop ε δ :=
  { s with
    generation := s.generation + 1
    started := false
    rerunRequested := false
    timer := none
    status := .stopped }

def hint (s : ProtocolSyncLoop ε δ) : ProtocolSyncLoop ε δ :=
  if s.started = false then s
  else if s.online = false then s.enterOffline
  else
    let s := if s.status = .offline then { s with status := .idle } else s
    let s := { s with rerunRequested := true }
    if s.inFlight.isSome then s else schedule { s with timer := none } rules.noDelay

/-- `syncNow`; `driven` where `drive` calls it. -/
def syncNow (s : ProtocolSyncLoop ε δ) (driven : Bool) : ProtocolSyncLoop ε δ :=
  if s.inFlight.isSome then { s with rerunRequested := true }
  else { s with inFlight := some ⟨s.generation, driven, none⟩, status := .syncing }

/-- `drive`, up to where it awaits the cycle. -/
def drive (s : ProtocolSyncLoop ε δ) (generation : ℕ) : ProtocolSyncLoop ε δ :=
  if s.started = false ∨ generation ≠ s.generation then s
  else if s.inFlight.isSome then { s with rerunRequested := true }
  else if s.online = false then s.enterOffline
  else syncNow { s with rerunRequested := false } true

/-- The callback of a timer. A cancelled timer may still fire, it is no longer the current one. -/
def timerFired (s : ProtocolSyncLoop ε δ) (handle : ℕ) : ProtocolSyncLoop ε δ :=
  match s.timer with
  | none => s
  | some scheduled =>
    if scheduled.handle ≠ handle then s
    else
      let s := { s with timer := none }
      if scheduled.generation ≠ s.generation ∨ s.started = false then s
      else s.drive scheduled.generation

/-- A platform's connectivity signal: `isOnline` answers anew, and the listener calls `hint`. -/
def connectivity (s : ProtocolSyncLoop ε δ) (online : Bool) : ProtocolSyncLoop ε δ :=
  hint rules { s with online }

/-- The handlers of `then` and `catch` in `syncNow`. -/
def cycleSettled (s : ProtocolSyncLoop ε δ) (outcome : CycleOutcome ε) : ProtocolSyncLoop ε δ :=
  match s.inFlight with
  | some ⟨generation, driven, none⟩ =>
    let s := { s with inFlight := some ⟨generation, driven, some outcome⟩ }
    if generation ≠ s.generation then s
    else
      match outcome with
      | .resolved _ =>
        { s with status := if s.started then .idle else .stopped, consecutiveFailures := 0 }
      | .rejected _ => { s with status := if s.started then .error else .stopped }
  | _ => s

/-- The handler of `finally` in `syncNow`. Microtasks run in order: where `drive` has still to
resume, it does so before a cycle that began meanwhile gets here. -/
def cycleFinalized (s : ProtocolSyncLoop ε δ) : ProtocolSyncLoop ε δ :=
  match s.inFlight, s.awaited with
  | some ⟨generation, driven, some outcome⟩, none =>
    let s := { s with
      inFlight := none
      awaited := if driven then some (generation, outcome) else none }
    if generation ≠ s.generation ∧ s.started ∧ s.online ∧ s.rerunRequested then
      s.schedule rules.noDelay
    else s
  | _, _ => s

/-- The rest of `drive`. Without a retry delay the policy has thrown, and nothing follows. -/
def driveResumed (s : ProtocolSyncLoop ε δ) (sample : Number) : ProtocolSyncLoop ε δ :=
  match s.awaited with
  | none => s
  | some (generation, outcome) =>
    let s := { s with awaited := none }
    match outcome with
    | .resolved hasMorePending =>
      if generation ≠ s.generation then s
      else if s.started ∧ (s.rerunRequested ∨ hasMorePending) then s.schedule rules.noDelay
      else s
    | .rejected error =>
      if s.started = false ∨ generation ≠ s.generation ∨ rules.cancelled error then s
      else if rules.retryable error = false then { s with status := .error }
      else
        let failures := min (s.consecutiveFailures + 1) 31
        match rules.retryDelay failures sample error with
        | none => s
        | some delay =>
          schedule { s with status := .backoff, consecutiveFailures := failures } delay

def next (s : ProtocolSyncLoop ε δ) : SyncLoopEvent ε → ProtocolSyncLoop ε δ
  | .start => s.start rules
  | .stop => s.stop
  | .hint => s.hint rules
  | .syncNow => s.syncNow false
  | .timerFired handle => s.timerFired handle
  | .connectivity online => s.connectivity rules online
  | .cycleSettled outcome => s.cycleSettled outcome
  | .cycleFinalized => s.cycleFinalized rules
  | .driveResumed sample => s.driveResumed rules sample

end ProtocolSyncLoop

namespace SyncLoop

inductive CycleError
  | abort
  | transport (retryable : Bool) (retryAfterMs : Option Number)
  | other

namespace CycleError

def cancelled : CycleError → Bool
  | abort => true
  | _ => false

def retryable : CycleError → Bool
  | transport retryable _ => retryable
  | _ => true

def retryAfter : CycleError → Number
  | transport _ (some retryAfterMs) => retryAfterMs
  | _ => .finite 0

end CycleError

def rules (policy : RetryPolicy) : LoopRules CycleError ℚ where
  cancelled := CycleError.cancelled
  retryable := CycleError.retryable
  retryDelay failures sample error :=
    computeRetryDelay failures policy.retryBaseMs policy.retryMaxMs sample error.retryAfter
  noDelay := 0

end SyncLoop

namespace Dart

inductive CycleError
  | cancelled
  | transport (retryable : Bool) (retryAfter : Option Duration)
  | other

namespace CycleError

def isCancelled : CycleError → Bool
  | cancelled => true
  | _ => false

def retryable : CycleError → Bool
  | transport retryable _ => retryable
  | _ => true

def retryAfter : CycleError → Duration
  | transport _ (some retryAfter) => retryAfter
  | _ => .zero

end CycleError

def rules (policy : RetryPolicy) : LoopRules CycleError Duration where
  cancelled := CycleError.isCancelled
  retryable := CycleError.retryable
  retryDelay failures sample error :=
    computeProtocolRetryDelay failures policy.retryBase policy.retryMaximum sample error.retryAfter
  noDelay := .zero

end Dart
end OptoSync
