import OptoSync.SyncLifecycle

/-!
# Background sync

`BackgroundSyncRunner` of the Dart package and `createBackgroundSyncOutcomes` over it, whose stream
is listened to throughout. The wake streams are merged; the budget is the event that it runs out.
-/
namespace OptoSync.Background
open Transition Lifecycle

inductive BackgroundWakeReason
  | localMutation | remoteHint | connectivity | operatingSystem | manual
  deriving DecidableEq

inductive CycleError
  | thrown (error : String)
  | timeout
  | transition
  deriving DecidableEq

/-- A cycle that has not been cleared. -/
structure Operation where
  cycle : ℕ
  settled : Bool
  /-- Its context is cancelled. -/
  cancelled : Bool
  deriving DecidableEq

structure BackgroundSyncRunner (R : Type) where
  /-- The invocations of `syncOnce` so far. -/
  cycles : ℕ
  operation : Option Operation
  /-- What the bounded future of each cycle completed with. -/
  results : ℕ → Option (Except CycleError R)
  lifecycle : SyncLifecycleSnapshot

structure BackgroundSyncOutcome (R : Type) where
  wake : BackgroundWakeReason
  ok : Bool
  result : Option R
  error : Option CycleError
  deriving DecidableEq

/-- A wake, with the number of cycles that were started before it. -/
structure Wake where
  reason : BackgroundWakeReason
  before : ℕ
  deriving DecidableEq

structure Emission (R : Type) where
  wake : Wake
  /-- The cycle that the wake waited for. -/
  cycle : ℕ
  outcome : BackgroundSyncOutcome R

/-- `none` where a transition throws. -/
def applyAll (state : SyncLifecycleSnapshot) (events : List SyncLifecycleEvent) :
    Option SyncLifecycleSnapshot :=
  events.foldlM (fun (state : SyncLifecycleSnapshot) event =>
    (state.compute event).filter (·.isValid)) state

variable {R : Type}

namespace BackgroundSyncRunner

def initial : BackgroundSyncRunner R where
  cycles := 0
  operation := none
  results := fun _ => none
  lifecycle := .initial

def apply (runner : BackgroundSyncRunner R) (events : List SyncLifecycleEvent) :
    Option (BackgroundSyncRunner R) :=
  (applyAll runner.lifecycle events).map fun lifecycle => { runner with lifecycle }

/-- The cycle whose bounded future is returned. -/
def runOnce (runner : BackgroundSyncRunner R) : Option (BackgroundSyncRunner R × ℕ) :=
  match runner.operation with
  | some operation => (runner.apply [.join]).map fun runner => (runner, operation.cycle)
  | none =>
    (runner.apply [.wake, .beginAcquire, .acquireGranted]).map fun runner =>
      ({ runner with
        cycles := runner.cycles + 1
        operation := some ⟨runner.cycles, false, false⟩ }, runner.cycles)

def complete (runner : BackgroundSyncRunner R) (cycle : ℕ) (result : Except CycleError R) :
    BackgroundSyncRunner R :=
  { runner with results := Function.update runner.results cycle (some result) }

/-- The future of the cycle settles, and its bounded future with it unless it timed out. -/
def settle (runner : BackgroundSyncRunner R) (result : Except CycleError R) :
    BackgroundSyncRunner R :=
  match runner.operation with
  | none => runner
  | some operation =>
    if operation.settled then runner
    else
      let runner := { runner with operation := some { operation with settled := true } }
      if (runner.results operation.cycle).isSome then runner
      else runner.complete operation.cycle result

/-- `onTimeout`; its timer stops when the cycle settles. -/
def timeout (runner : BackgroundSyncRunner R) : BackgroundSyncRunner R :=
  match runner.operation with
  | none => runner
  | some operation =>
    if operation.settled || (runner.results operation.cycle).isSome then runner
    else
      let runner := { runner with operation := some { operation with cancelled := true } }
      match runner.apply [.cancel] with
      | none => runner.complete operation.cycle (.error .transition)
      | some runner => runner.complete operation.cycle (.error .timeout)

def cancel (runner : BackgroundSyncRunner R) : BackgroundSyncRunner R :=
  match runner.operation with
  | none => runner
  | some operation =>
    let runner := { runner with operation := some { operation with cancelled := true } }
    (runner.apply [.cancel]).getD runner

def clearIfCurrent (runner : BackgroundSyncRunner R) : BackgroundSyncRunner R :=
  match runner.operation with
  | none => runner
  | some operation =>
    if operation.settled then
      ((runner.apply [.cycleSettled, .releaseSettled]).map fun runner =>
        { runner with operation := none }).getD runner
    else runner

end BackgroundSyncRunner

/-- What is emitted for a wake whose run completed. -/
def outcomeOf (wake : BackgroundWakeReason) : Except CycleError R → BackgroundSyncOutcome R
  | .ok result => { wake, ok := true, result := some result, error := none }
  | .error error => { wake, ok := false, result := none, error := some error }

def emissionOf (wake : Wake) (cycle : ℕ) (result : Except CycleError R) : Emission R where
  wake
  cycle
  outcome := outcomeOf wake.reason result

structure BackgroundSyncOutcomes (R : Type) where
  runner : BackgroundSyncRunner R
  /-- The wake that the debounce holds. -/
  debounced : Option Wake
  /-- The wakes that wait for the active one. -/
  queue : List Wake
  /-- The wake whose run is awaited, and the cycle of that run. -/
  active : Option (Wake × ℕ)
  /-- The wakes that passed the debounce. -/
  passed : List Wake
  /-- The wakes that `runOnce` was called for. -/
  taken : List (Wake × ℕ)
  emitted : List (Emission R)

inductive Action (R : Type)
  | wake (reason : BackgroundWakeReason)
  /-- The debounce passes. -/
  | fire
  /-- A direct caller. -/
  | runOnce
  | settle (result : Except CycleError R)
  | timeout
  | cancel
  | clear
  /-- The run of the active wake is completed. -/
  | deliver

namespace BackgroundSyncOutcomes

def initial : BackgroundSyncOutcomes R where
  runner := .initial
  debounced := none
  queue := []
  active := none
  passed := []
  taken := []
  emitted := []

/-- The mapper of `flatMap`. -/
def take (stream : BackgroundSyncOutcomes R) (wake : Wake) : BackgroundSyncOutcomes R :=
  match stream.runner.runOnce with
  | none => stream
  | some (runner, cycle) =>
    { stream with
      runner
      active := some (wake, cycle)
      taken := stream.taken ++ [(wake, cycle)] }

def fire (stream : BackgroundSyncOutcomes R) : BackgroundSyncOutcomes R :=
  match stream.debounced with
  | none => stream
  | some wake =>
    let stream := { stream with debounced := none, passed := stream.passed ++ [wake] }
    if stream.active.isNone then stream.take wake
    else { stream with queue := stream.queue ++ [wake] }

def deliver (stream : BackgroundSyncOutcomes R) : BackgroundSyncOutcomes R :=
  match stream.active with
  | none => stream
  | some (wake, cycle) =>
    match stream.runner.results cycle with
    | none => stream
    | some result =>
      let stream := { stream with
        active := none
        emitted := stream.emitted ++ [emissionOf wake cycle result] }
      match stream.queue with
      | [] => stream
      | wake :: queue => ({ stream with queue }).take wake

def next (stream : BackgroundSyncOutcomes R) : Action R → BackgroundSyncOutcomes R
  | .wake reason => { stream with debounced := some { reason, before := stream.runner.cycles } }
  | .fire => stream.fire
  | .runOnce => { stream with runner := (stream.runner.runOnce.map Prod.fst).getD stream.runner }
  | .settle result => { stream with runner := stream.runner.settle result }
  | .timeout => { stream with runner := stream.runner.timeout }
  | .cancel => { stream with runner := stream.runner.cancel }
  | .clear => { stream with runner := stream.runner.clearIfCurrent }
  | .deliver => stream.deliver

end BackgroundSyncOutcomes

/-- No wake is lost, and what is emitted for a wake is the outcome of the cycle it waited for. -/
structure Accounted (stream : BackgroundSyncOutcomes R) : Prop where
  passed : stream.passed = stream.taken.map Prod.fst ++ stream.queue
  waiting : stream.queue ≠ [] → stream.active.isSome
  served : stream.taken =
    stream.emitted.map (fun (emission : Emission R) => (emission.wake, emission.cycle)) ++
      stream.active.toList
  outcome : ∀ emission ∈ stream.emitted, ∃ result,
    stream.runner.results emission.cycle = some result ∧
      emission.outcome = outcomeOf emission.wake.reason result

/-- A wake that had its turn waits for a cycle that was started, and no earlier than the wake. -/
structure Covered (stream : BackgroundSyncOutcomes R) : Prop extends Accounted stream where
  followed : ∀ wake cycle, (wake, cycle) ∈ stream.taken →
    wake.before ≤ cycle ∧ cycle < stream.runner.cycles

/-- The runner is idle, or its cycle started no earlier than the wake. -/
def FreshFor (runner : BackgroundSyncRunner R) (wake : Wake) : Prop :=
  ∀ operation, runner.operation = some operation → wake.before ≤ operation.cycle

/-- A wake whose turn it is does not find a cycle that started before it and is not cleared yet. -/
def FindsFresh (stream : BackgroundSyncOutcomes R) : Action R → Prop
  | .fire => ∀ wake, stream.debounced = some wake → stream.active = none →
    FreshFor stream.runner wake
  | .deliver => ∀ wake queue, stream.queue = wake :: queue →
    (∃ served cycle result, stream.active = some (served, cycle) ∧
      stream.runner.results cycle = some result) → FreshFor stream.runner wake
  | _ => True

/-- The lifecycle while a cycle is not cleared. -/
def working (cancelled : Bool) : SyncLifecycleSnapshot where
  phase := .running
  wakePending := false
  closeRequested := false
  cancelRequested := cancelled
  permitHeld := true

structure Ready (runner : BackgroundSyncRunner R) : Prop where
  idle : runner.operation = none → runner.lifecycle = .initial
  busy : ∀ operation, runner.operation = some operation →
    runner.lifecycle = working operation.cancelled ∧ operation.cycle + 1 = runner.cycles

theorem applyAll_join (cancelled : Bool) :
    applyAll (working cancelled) [.join] = some (working cancelled) := by
  cases cancelled <;> rfl

theorem applyAll_cancel (cancelled : Bool) :
    applyAll (working cancelled) [.cancel] = some (working true) := by
  cases cancelled <;> rfl

theorem applyAll_clear (cancelled : Bool) :
    applyAll (working cancelled) [.cycleSettled, .releaseSettled] = some .initial := by
  cases cancelled <;> rfl

variable {runner : BackgroundSyncRunner R} {stream : BackgroundSyncOutcomes R}

namespace BackgroundSyncRunner

theorem runOnce_join (hready : Ready runner) {operation : Operation}
    (h : runner.operation = some operation) : runner.runOnce = some (runner, operation.cycle) := by
  have hlifecycle := (hready.busy operation h).1
  simp only [runOnce, h, apply, hlifecycle, applyAll_join, Option.map_some]
  rw [← hlifecycle, ← h]

theorem runOnce_start (hready : Ready runner) (h : runner.operation = none) :
    runner.runOnce = some ({ runner with
      cycles := runner.cycles + 1
      operation := some ⟨runner.cycles, false, false⟩
      lifecycle := working false }, runner.cycles) := by
  simp only [runOnce, h, apply, hready.idle h]
  rfl

theorem timeout_some (hready : Ready runner) {operation : Operation}
    (h : runner.operation = some operation) (hsettled : operation.settled = false)
    (hresult : runner.results operation.cycle = none) :
    runner.timeout = ({ runner with
      operation := some { operation with cancelled := true }
      lifecycle := working true }).complete operation.cycle (.error .timeout) := by
  simp only [timeout, h, hsettled, hresult, apply, (hready.busy operation h).1, applyAll_cancel,
    Option.map_some, Option.isSome_none, Bool.or_self, Bool.false_eq_true, if_false]

theorem cancel_some (hready : Ready runner) {operation : Operation}
    (h : runner.operation = some operation) :
    runner.cancel = { runner with
      operation := some { operation with cancelled := true }
      lifecycle := working true } := by
  simp only [cancel, h, apply, (hready.busy operation h).1, applyAll_cancel, Option.map_some,
    Option.getD_some]

theorem clearIfCurrent_some (hready : Ready runner) {operation : Operation}
    (h : runner.operation = some operation) (hsettled : operation.settled = true) :
    runner.clearIfCurrent = { runner with operation := none, lifecycle := .initial } := by
  simp only [clearIfCurrent, h, hsettled, if_true, apply, (hready.busy operation h).1,
    applyAll_clear, Option.map_some, Option.getD_some]

end BackgroundSyncRunner

/-- A later runner: it forgets no cycle and no result. -/
structure Extends (runner later : BackgroundSyncRunner R) : Prop where
  cycles : runner.cycles ≤ later.cycles
  results : ∀ cycle result, runner.results cycle = some result →
    later.results cycle = some result

theorem Extends.refl (runner : BackgroundSyncRunner R) : Extends runner runner where
  cycles := le_rfl
  results := fun _ _ h => h

theorem Extends.complete {cycle : ℕ} (h : runner.results cycle = none)
    (result : Except CycleError R) : Extends runner (runner.complete cycle result) where
  cycles := le_rfl
  results := by
    intro other held hheld
    have hne : other ≠ cycle := by
      rintro rfl
      rw [h] at hheld
      cases hheld
    exact (Function.update_of_ne hne _ _).trans hheld

namespace BackgroundSyncRunner

theorem runOnce_spec (hready : Ready runner) :
    ∃ later cycle, runner.runOnce = some (later, cycle) ∧ Ready later ∧ Extends runner later ∧
      cycle < later.cycles ∧
      ∀ wake : Wake, wake.before ≤ runner.cycles →
        (wake.before ≤ cycle ↔ FreshFor runner wake) := by
  cases hoperation : runner.operation with
  | none =>
    refine ⟨_, _, runOnce_start hready hoperation, ⟨?_, ?_⟩, ⟨?_, ?_⟩, ?_, ?_⟩
    · intro h
      cases h
    · intro operation h
      cases h
      exact ⟨rfl, rfl⟩
    · exact Nat.le_succ _
    · exact fun _ _ h => h
    · exact Nat.lt_succ_self _
    · intro wake hwake
      refine iff_of_true hwake fun operation h => ?_
      rw [hoperation] at h
      cases h
  | some operation =>
    have hlast := (hready.busy operation hoperation).2
    refine ⟨runner, _, runOnce_join hready hoperation, hready, .refl _, by omega, ?_⟩
    intro wake _
    constructor
    · intro hfresh other h
      rw [hoperation] at h
      cases h
      exact hfresh
    · exact fun hfresh => hfresh operation hoperation

theorem settle_spec (hready : Ready runner) (result : Except CycleError R) :
    Ready (runner.settle result) ∧ Extends runner (runner.settle result) := by
  unfold settle
  cases hoperation : runner.operation with
  | none => exact ⟨hready, .refl _⟩
  | some operation =>
    dsimp only
    split
    · exact ⟨hready, .refl _⟩
    · obtain ⟨hlifecycle, hlast⟩ := hready.busy operation hoperation
      have hsettled : Ready { runner with operation := some { operation with settled := true } } := by
        refine ⟨fun h => (by cases h), fun later h => ?_⟩
        cases h
        exact ⟨hlifecycle, hlast⟩
      split
      · exact ⟨hsettled, ⟨le_rfl, fun _ _ h => h⟩⟩
      · next hresult =>
        have hnone : runner.results operation.cycle = none := by simpa using hresult
        exact ⟨⟨hsettled.idle, hsettled.busy⟩, ⟨le_rfl, (Extends.complete hnone result).results⟩⟩

theorem timeout_spec (hready : Ready runner) :
    Ready runner.timeout ∧ Extends runner runner.timeout := by
  cases hoperation : runner.operation with
  | none =>
    have heq : runner.timeout = runner := by simp [timeout, hoperation]
    exact ⟨heq.symm ▸ hready, heq.symm ▸ .refl _⟩
  | some operation =>
    by_cases hpending : operation.settled = false ∧ runner.results operation.cycle = none
    · rw [timeout_some hready hoperation hpending.1 hpending.2]
      refine ⟨⟨fun h => (by cases h), fun later h => ?_⟩,
        ⟨le_rfl, (Extends.complete hpending.2 _).results⟩⟩
      cases h
      exact ⟨rfl, (hready.busy operation hoperation).2⟩
    · have heq : runner.timeout = runner := by
        simp only [timeout, hoperation]
        rw [if_pos]
        cases hsettled : operation.settled with
        | true => rfl
        | false => simpa [hsettled, Option.isSome_iff_ne_none] using hpending
      exact ⟨heq.symm ▸ hready, heq.symm ▸ .refl _⟩

theorem cancel_spec (hready : Ready runner) :
    Ready runner.cancel ∧ Extends runner runner.cancel := by
  cases hoperation : runner.operation with
  | none =>
    have heq : runner.cancel = runner := by simp [cancel, hoperation]
    exact ⟨heq.symm ▸ hready, heq.symm ▸ .refl _⟩
  | some operation =>
    rw [cancel_some hready hoperation]
    refine ⟨⟨fun h => (by cases h), fun later h => ?_⟩, ⟨le_rfl, fun _ _ h => h⟩⟩
    cases h
    exact ⟨rfl, (hready.busy operation hoperation).2⟩

theorem clearIfCurrent_spec (hready : Ready runner) :
    Ready runner.clearIfCurrent ∧ Extends runner runner.clearIfCurrent := by
  by_cases h : ∃ operation, runner.operation = some operation ∧ operation.settled = true
  · obtain ⟨operation, hoperation, hsettled⟩ := h
    rw [clearIfCurrent_some hready hoperation hsettled]
    exact ⟨⟨fun _ => rfl, fun later h => by cases h⟩, ⟨le_rfl, fun _ _ h => h⟩⟩
  · have heq : runner.clearIfCurrent = runner := by
      unfold clearIfCurrent
      cases hoperation : runner.operation with
      | none => rfl
      | some operation =>
        have hsettled : ¬ operation.settled = true := fun hs => h ⟨operation, hoperation, hs⟩
        exact if_neg hsettled
    exact ⟨heq.symm ▸ hready, heq.symm ▸ .refl _⟩

end BackgroundSyncRunner

/-- Holds in every run. -/
structure Sound (stream : BackgroundSyncOutcomes R) : Prop where
  ready : Ready stream.runner
  debounced : ∀ wake, stream.debounced = some wake → wake.before ≤ stream.runner.cycles
  queued : ∀ wake ∈ stream.queue, wake.before ≤ stream.runner.cycles
  accounted : Accounted stream

/-- A runner that goes on by itself keeps what is known of the stream. -/
theorem Sound.extend (hsound : Sound stream) {later : BackgroundSyncRunner R}
    (hready : Ready later) (hextends : Extends stream.runner later) :
    Sound { stream with runner := later } where
  ready := hready
  debounced := fun wake h => (hsound.debounced wake h).trans hextends.cycles
  queued := fun wake h => (hsound.queued wake h).trans hextends.cycles
  accounted := by
    refine ⟨hsound.accounted.passed, hsound.accounted.waiting, hsound.accounted.served, ?_⟩
    intro emission hemission
    obtain ⟨result, hresult, heq⟩ := hsound.accounted.outcome emission hemission
    exact ⟨result, hextends.results _ _ hresult, heq⟩

theorem Covered.extend (hcovered : Covered stream) (hsound : Sound stream)
    {later : BackgroundSyncRunner R} (hready : Ready later)
    (hextends : Extends stream.runner later) : Covered { stream with runner := later } where
  toAccounted := (hsound.extend hready hextends).accounted
  followed := by
    intro wake cycle htaken
    obtain ⟨hbefore, hcycle⟩ := hcovered.followed wake cycle htaken
    exact ⟨hbefore, hcycle.trans_le hextends.cycles⟩

/-- A wake whose turn it is: it has passed, and is on no list yet. -/
structure AtTurn (stream : BackgroundSyncOutcomes R) (wake : Wake) : Prop where
  ready : Ready stream.runner
  debounced : ∀ other, stream.debounced = some other → other.before ≤ stream.runner.cycles
  queued : ∀ other ∈ stream.queue, other.before ≤ stream.runner.cycles
  before : wake.before ≤ stream.runner.cycles
  free : stream.active = none
  passed : stream.passed = stream.taken.map Prod.fst ++ wake :: stream.queue
  served : stream.taken =
    stream.emitted.map fun (emission : Emission R) => (emission.wake, emission.cycle)
  outcome : ∀ emission ∈ stream.emitted, ∃ result,
    stream.runner.results emission.cycle = some result ∧
      emission.outcome = outcomeOf emission.wake.reason result

theorem AtTurn.take {wake : Wake} (hturn : AtTurn stream wake) :
    Sound (stream.take wake) ∧
      ((∀ other cycle, (other, cycle) ∈ stream.taken →
          other.before ≤ cycle ∧ cycle < stream.runner.cycles) →
        (Covered (stream.take wake) ↔ FreshFor stream.runner wake)) := by
  obtain ⟨later, cycle, hrun, hready, hextends, hlast, hfresh⟩ :=
    BackgroundSyncRunner.runOnce_spec hturn.ready
  have htake : stream.take wake = { stream with
      runner := later
      active := some (wake, cycle)
      taken := stream.taken ++ [(wake, cycle)] } := by
    simp only [BackgroundSyncOutcomes.take, hrun]
  have hsound : Sound (stream.take wake) := by
    rw [htake]
    refine ⟨hready, ?_, ?_, ?_, ?_, ?_, ?_⟩
    · exact fun other h => (hturn.debounced other h).trans hextends.cycles
    · exact fun other h => (hturn.queued other h).trans hextends.cycles
    · simp [hturn.passed]
    · exact fun _ => rfl
    · simp [hturn.served]
    · intro emission hemission
      obtain ⟨result, hresult, heq⟩ := hturn.outcome emission hemission
      exact ⟨result, hextends.results _ _ hresult, heq⟩
  refine ⟨hsound, fun hfollowed => ?_⟩
  rw [← hfresh wake hturn.before]
  constructor
  · intro hcovered
    rw [htake] at hcovered
    exact (hcovered.followed wake cycle (by simp)).1
  · refine fun hbefore => ⟨hsound.accounted, ?_⟩
    rw [htake]
    intro other otherCycle htaken
    rcases List.mem_append.mp htaken with htaken | htaken
    · obtain ⟨hother, hcycle⟩ := hfollowed other otherCycle htaken
      exact ⟨hother, hcycle.trans_le hextends.cycles⟩
    · cases List.mem_singleton.mp htaken
      exact ⟨hbefore, hlast⟩

theorem Sound.initial : Sound (BackgroundSyncOutcomes.initial : BackgroundSyncOutcomes R) where
  ready := ⟨fun _ => rfl, fun _ h => (by cases h)⟩
  debounced := fun _ h => (by cases h)
  queued := fun _ h => (by cases h)
  accounted := ⟨rfl, fun h => absurd rfl h, rfl, fun _ h => (by cases h)⟩

/-- A wake has its turn, or waits behind the active one. -/
theorem Sound.fire (hsound : Sound stream) :
    Sound stream.fire ∧ (Covered stream → (Covered stream.fire ↔ FindsFresh stream .fire)) := by
  cases hdebounced : stream.debounced with
  | none =>
    have hfire : stream.fire = stream := by simp only [BackgroundSyncOutcomes.fire, hdebounced]
    rw [hfire]
    refine ⟨hsound, fun hcovered => iff_of_true hcovered fun wake h => ?_⟩
    rw [hdebounced] at h
    cases h
  | some wake =>
    have hbefore := hsound.debounced wake hdebounced
    cases hactive : stream.active with
    | none =>
      have hfire : stream.fire =
          ({ stream with debounced := none, passed := stream.passed ++ [wake] }).take wake := by
        simp only [BackgroundSyncOutcomes.fire, hdebounced, hactive, Option.isNone_none, if_true]
      have hqueue : stream.queue = [] := by
        by_contra hne
        have hbusy := hsound.accounted.waiting hne
        rw [hactive] at hbusy
        cases hbusy
      have hturn : AtTurn { stream with debounced := none, passed := stream.passed ++ [wake] }
          wake := {
        ready := hsound.ready
        debounced := fun _ h => (by cases h)
        queued := hsound.queued
        before := hbefore
        free := hactive
        passed := by simp [hsound.accounted.passed, hqueue]
        served := by simpa [hactive] using hsound.accounted.served
        outcome := hsound.accounted.outcome }
      rw [hfire]
      refine ⟨hturn.take.1, fun hcovered => (hturn.take.2 hcovered.followed).trans ?_⟩
      constructor
      · intro hfresh other hother _
        cases hdebounced.symm.trans hother
        exact hfresh
      · exact fun hfresh => hfresh wake hdebounced hactive
    | some active =>
      have hfire : stream.fire = { stream with
          debounced := none, passed := stream.passed ++ [wake], queue := stream.queue ++ [wake] } := by
        simp [BackgroundSyncOutcomes.fire, hdebounced, hactive]
      have haccounted : Accounted stream.fire := by
        rw [hfire]
        refine ⟨?_, fun _ => ?_, hsound.accounted.served, hsound.accounted.outcome⟩
        · simp [hsound.accounted.passed]
        · simp [hactive]
      rw [hfire] at haccounted ⊢
      refine ⟨⟨hsound.ready, fun _ h => (by cases h), ?_, haccounted⟩, fun hcovered => ?_⟩
      · intro other hother
        rcases List.mem_append.mp hother with hother | hother
        · exact hsound.queued other hother
        · rw [List.mem_singleton.mp hother]
          exact hbefore
      · refine iff_of_true ⟨haccounted, hcovered.followed⟩ fun other _ hfree => ?_
        rw [hactive] at hfree
        cases hfree

/-- The active wake is answered, and the next one of the queue has its turn. -/
theorem Sound.deliver (hsound : Sound stream) :
    Sound stream.deliver ∧
      (Covered stream → (Covered stream.deliver ↔ FindsFresh stream .deliver)) := by
  by_cases hdone : ∃ served cycle result, stream.active = some (served, cycle) ∧
      stream.runner.results cycle = some result
  · obtain ⟨served, cycle, result, hactive, hresult⟩ := hdone
    have hserved : stream.taken = (stream.emitted ++ [emissionOf served cycle result]).map
        fun (emission : Emission R) => (emission.wake, emission.cycle) := by
      simp [hsound.accounted.served, hactive, emissionOf]
    have houtcome : ∀ emission ∈ stream.emitted ++ [emissionOf served cycle result], ∃ result,
        stream.runner.results emission.cycle = some result ∧
          emission.outcome = outcomeOf emission.wake.reason result := by
      intro emission hemission
      rcases List.mem_append.mp hemission with hemission | hemission
      · exact hsound.accounted.outcome emission hemission
      · rw [List.mem_singleton.mp hemission]
        exact ⟨result, hresult, rfl⟩
    cases hqueue : stream.queue with
    | nil =>
      have hdeliver : stream.deliver = { stream with
          active := none, emitted := stream.emitted ++ [emissionOf served cycle result] } := by
        simp only [BackgroundSyncOutcomes.deliver, hactive, hresult, hqueue]
      have haccounted : Accounted stream.deliver := by
        rw [hdeliver]
        refine ⟨hsound.accounted.passed, fun h => absurd hqueue h, ?_, houtcome⟩
        simpa using hserved
      rw [hdeliver] at haccounted ⊢
      refine ⟨⟨hsound.ready, hsound.debounced, hsound.queued, haccounted⟩, fun hcovered => ?_⟩
      refine iff_of_true ⟨haccounted, hcovered.followed⟩ fun other rest hother => ?_
      rw [hqueue] at hother
      cases hother
    | cons wake queue =>
      have hdeliver : stream.deliver = ({ stream with
          active := none, queue,
          emitted := stream.emitted ++ [emissionOf served cycle result] }).take wake := by
        simp only [BackgroundSyncOutcomes.deliver, hactive, hresult, hqueue]
      have hturn : AtTurn { stream with
          active := none, queue,
          emitted := stream.emitted ++ [emissionOf served cycle result] } wake := {
        ready := hsound.ready
        debounced := hsound.debounced
        queued := fun other hother => hsound.queued other (by simp [hqueue, hother])
        before := hsound.queued wake (by simp [hqueue])
        free := rfl
        passed := by simpa [hqueue] using hsound.accounted.passed
        served := hserved
        outcome := houtcome }
      rw [hdeliver]
      refine ⟨hturn.take.1, fun hcovered => (hturn.take.2 hcovered.followed).trans ?_⟩
      constructor
      · intro hfresh other rest hother _
        cases hqueue.symm.trans hother
        exact hfresh
      · exact fun hfresh => hfresh wake queue hqueue ⟨served, cycle, result, hactive, hresult⟩
  · have hdeliver : stream.deliver = stream := by
      unfold BackgroundSyncOutcomes.deliver
      cases hactive : stream.active with
      | none => rfl
      | some active =>
        cases hresult : stream.runner.results active.2 with
        | none => simp only [hresult]
        | some result => exact absurd ⟨active.1, active.2, result, hactive, hresult⟩ hdone
    rw [hdeliver]
    exact ⟨hsound, fun hcovered => iff_of_true hcovered fun _ _ _ h => absurd h hdone⟩

/-- What one step does. -/
theorem Sound.next (hsound : Sound stream) (action : Action R) :
    Sound (stream.next action) ∧
      (Covered stream → (Covered (stream.next action) ↔ FindsFresh stream action)) := by
  have runs : ∀ later, Ready later → Extends stream.runner later →
      Sound { stream with runner := later } ∧
        (Covered stream → (Covered { stream with runner := later } ↔ True)) := by
    intro later hready hextends
    exact ⟨hsound.extend hready hextends,
      fun hcovered => iff_of_true (hcovered.extend hsound hready hextends) trivial⟩
  cases action with
  | wake reason =>
    refine ⟨⟨hsound.ready, fun wake h => ?_, hsound.queued, ?_⟩, fun hcovered => ?_⟩
    · cases h
      exact le_rfl
    · exact ⟨hsound.accounted.passed, hsound.accounted.waiting, hsound.accounted.served,
        hsound.accounted.outcome⟩
    · exact iff_of_true ⟨⟨hcovered.passed, hcovered.waiting, hcovered.served, hcovered.outcome⟩,
        hcovered.followed⟩ trivial
  | fire => exact hsound.fire
  | runOnce =>
    obtain ⟨later, cycle, hrun, hready, hextends, -⟩ :=
      BackgroundSyncRunner.runOnce_spec hsound.ready
    simp only [BackgroundSyncOutcomes.next, hrun, Option.map_some, Option.getD_some]
    exact runs later hready hextends
  | settle result =>
    obtain ⟨hready, hextends⟩ := BackgroundSyncRunner.settle_spec hsound.ready result
    exact runs _ hready hextends
  | timeout =>
    obtain ⟨hready, hextends⟩ := BackgroundSyncRunner.timeout_spec hsound.ready
    exact runs _ hready hextends
  | cancel =>
    obtain ⟨hready, hextends⟩ := BackgroundSyncRunner.cancel_spec hsound.ready
    exact runs _ hready hextends
  | clear =>
    obtain ⟨hready, hextends⟩ := BackgroundSyncRunner.clearIfCurrent_spec hsound.ready
    exact runs _ hready hextends
  | deliver => exact hsound.deliver

/-- In the runs where no wake whose turn it is finds an earlier cycle, and in no others, every wake
is followed by a cycle that starts at or after it and gets the outcome of such a cycle. -/
theorem outcomes_cover_iff (actions : List (Action R)) :
    StatesMeet BackgroundSyncOutcomes.next Covered .initial actions ↔
      StepsMeet BackgroundSyncOutcomes.next FindsFresh .initial actions := by
  refine statesMeet_iff_stepsMeet (fun stream action (hsound : Sound stream) => (hsound.next action).1)
    (fun stream action hsound hcovered => (hsound.next action).2 hcovered) .initial ?_ actions
  exact ⟨Sound.initial.accounted, fun _ _ h => (by cases h)⟩

/-- A wake that passes the debounce during a direct caller's cycle is answered by that cycle. -/
theorem directCycle_answers_later_wake :
    ¬ StatesMeet BackgroundSyncOutcomes.next Covered
      (BackgroundSyncOutcomes.initial : BackgroundSyncOutcomes ℕ)
      [.runOnce, .wake .localMutation, .fire, .settle (.ok 0), .deliver] := by
  intro h
  have hlast := statesMeet_iff_prefix.mp h _ (List.prefix_refl _)
  have hfollowed := hlast.followed ⟨.localMutation, 1⟩ 0 (by decide)
  exact absurd hfollowed.1 (by decide)

end OptoSync.Background
