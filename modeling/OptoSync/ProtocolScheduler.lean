import OptoSync.Protocol
import OptoSync.Transition

/-!
# The protocol scheduler

The reducer that decides when a sync cycle runs. Generations tell the callbacks of a stopped or
interrupted session from those of the current one.
-/
namespace OptoSync
open Transition

inductive ProtocolSchedulerPhase
  | stopped | idle | syncing | offline | backoff | error
  deriving DecidableEq, Repr

inductive ProtocolSchedulerResetPhase
  | none | snapshotRequested | snapshotInstalled
  deriving DecidableEq, Repr

structure ProtocolSchedulerState where
  phase : ProtocolSchedulerPhase
  online : Bool
  generation : ℕ
  timerPending : Bool
  timerGeneration : ℕ
  staleTimerPending : Bool
  cyclePending : Bool
  cycleGeneration : ℕ
  networkActive : Bool
  wakePending : Bool
  consecutiveFailures : ℕ
  resetPhase : ProtocolSchedulerResetPhase
  pagesSeen : ℕ
  deriving DecidableEq, Repr

inductive ProtocolSchedulerEvent
  | start | stop | hint | goOffline | goOnline
  | timerFire | timerJoin | staleTimerFire
  | pageMore | beginReset | finishReset
  | cycleSuccess | cycleSuccessMore | cycleRetryableFailure | cyclePermanentFailure
  | malformedResponse | staleCycleSuccess | staleCycleFailure | idle
  deriving DecidableEq, Repr

structure ProtocolSchedulerTransitionError where
  event : ProtocolSchedulerEvent
  phase : ProtocolSchedulerPhase
  deriving DecidableEq, Repr

namespace ProtocolSchedulerState

def default : ProtocolSchedulerState :=
  { phase := .stopped, online := true, generation := 0, timerPending := false, timerGeneration := 0
    staleTimerPending := false, cyclePending := false, cycleGeneration := 0, networkActive := false
    wakePending := false, consecutiveFailures := 0, resetPhase := .none, pagesSeen := 0 }

def maxConsecutiveFailures : ℕ := 31
def maxPagesPerRefinementTrace : ℕ := 2

def currentTimerEnabled (s : ProtocolSchedulerState) : Bool :=
  s.phase ≠ .stopped && s.online && s.timerPending && s.timerGeneration = s.generation

def currentCycleEnabled (s : ProtocolSchedulerState) : Bool :=
  s.phase = .syncing && s.networkActive && s.cyclePending && s.cycleGeneration = s.generation

def settleEnabled (s : ProtocolSchedulerState) : Bool :=
  s.currentCycleEnabled && s.resetPhase ≠ .snapshotRequested

def settleSuccess (s : ProtocolSchedulerState) (hasMore : Bool) : ProtocolSchedulerState :=
  { s with
    phase := .idle
    timerPending := hasMore || s.wakePending
    timerGeneration := s.generation
    cyclePending := false
    networkActive := false
    wakePending := false
    consecutiveFailures := 0
    resetPhase := .none
    pagesSeen := 0 }

def stateIsSafe (s : ProtocolSchedulerState) : Bool :=
  let networkOwned := !s.networkActive ||
    (s.phase = .syncing && s.online && s.cyclePending && s.cycleGeneration = s.generation)
  let inactiveBoundaries := !s.networkActive || (s.phase ≠ .stopped && s.phase ≠ .offline)
  let resetOrdered := s.resetPhase = .none || s.currentCycleEnabled
  let timerOwned := !s.timerPending || s.currentTimerEnabled
  networkOwned && inactiveBoundaries && resetOrdered && timerOwned

def start (s : ProtocolSchedulerState) : Option ProtocolSchedulerState :=
  if s.phase ≠ .stopped then none
  else (checkedAdd s.generation 1).map fun generation =>
    { s with
      phase := if s.online then .idle else .offline
      generation
      timerPending := s.online
      timerGeneration := generation
      wakePending := false
      consecutiveFailures := 0
      resetPhase := .none
      pagesSeen := 0 }

/-- The end of a session: what was pending belongs to an older generation from now on. -/
def interrupt (s : ProtocolSchedulerState) (phase : ProtocolSchedulerPhase) (online : Bool)
    (generation : ℕ) : ProtocolSchedulerState :=
  { s with
    phase, online, generation
    staleTimerPending := s.staleTimerPending || s.timerPending
    timerPending := false
    networkActive := false
    wakePending := false
    resetPhase := .none
    pagesSeen := 0 }

def stop (s : ProtocolSchedulerState) : Option ProtocolSchedulerState :=
  if s.phase = .stopped then none
  else (checkedAdd s.generation 1).map (s.interrupt .stopped s.online)

def goOffline (s : ProtocolSchedulerState) : Option ProtocolSchedulerState :=
  if s.phase = .stopped ∨ s.online = false then none
  else (checkedAdd s.generation 1).map (s.interrupt .offline false)

def hint (s : ProtocolSchedulerState) : Option ProtocolSchedulerState :=
  if s.phase = .stopped ∨ s.online = false then none
  else
    let s := if s.phase = .offline then { s with phase := .idle } else s
    if s.cyclePending then some { s with wakePending := true }
    else some { s with
      staleTimerPending := s.staleTimerPending || s.timerPending
      timerPending := true
      timerGeneration := s.generation }

def goOnline (s : ProtocolSchedulerState) : Option ProtocolSchedulerState :=
  if s.phase ≠ .offline ∨ s.online = true then none
  else some { s with
    phase := .idle
    online := true
    timerPending := !s.cyclePending
    timerGeneration := s.generation
    wakePending := s.cyclePending }

def timerFire (s : ProtocolSchedulerState) : Option ProtocolSchedulerState :=
  if s.currentTimerEnabled = false ∨ s.cyclePending = true then none
  else some { s with
    phase := .syncing
    timerPending := false
    cyclePending := true
    cycleGeneration := s.generation
    networkActive := true
    wakePending := false
    resetPhase := .none
    pagesSeen := 0 }

def timerJoin (s : ProtocolSchedulerState) : Option ProtocolSchedulerState :=
  if s.currentTimerEnabled = false ∨ s.cyclePending = false then none
  else some { s with timerPending := false, wakePending := true }

def staleTimerFire (s : ProtocolSchedulerState) : Option ProtocolSchedulerState :=
  if s.staleTimerPending = false then none else some { s with staleTimerPending := false }

def pageMore (s : ProtocolSchedulerState) : Option ProtocolSchedulerState :=
  if s.currentCycleEnabled = false ∨ s.resetPhase = .snapshotRequested ∨
      maxPagesPerRefinementTrace ≤ s.pagesSeen then none
  else some { s with pagesSeen := s.pagesSeen + 1 }

/-- A reset phase is entered from the one before it. -/
def advanceReset (s : ProtocolSchedulerState) (before after : ProtocolSchedulerResetPhase) :
    Option ProtocolSchedulerState :=
  if s.currentCycleEnabled = false ∨ s.resetPhase ≠ before then none
  else some { s with resetPhase := after }

def settle (s : ProtocolSchedulerState) (hasMore : Bool) : Option ProtocolSchedulerState :=
  if s.settleEnabled = false then none else some (s.settleSuccess hasMore)

def cycleRetryableFailure (s : ProtocolSchedulerState) : Option ProtocolSchedulerState :=
  if s.currentCycleEnabled = false then none
  else some { s with
    phase := .backoff
    timerPending := true
    timerGeneration := s.generation
    cyclePending := false
    networkActive := false
    wakePending := false
    consecutiveFailures := min (s.consecutiveFailures + 1) maxConsecutiveFailures
    resetPhase := .none
    pagesSeen := 0 }

def cyclePermanentFailure (s : ProtocolSchedulerState) : Option ProtocolSchedulerState :=
  if s.currentCycleEnabled = false then none
  else some { s with
    phase := .error
    timerPending := false
    cyclePending := false
    networkActive := false
    wakePending := false
    resetPhase := .none
    pagesSeen := 0 }

/-- A cycle of an older generation ends; only in phase idle is its end a wake. -/
def staleCycleSettled (s : ProtocolSchedulerState) : Option ProtocolSchedulerState :=
  if s.cyclePending = false ∨ s.cycleGeneration = s.generation then none
  else
    let s := if s.phase = .idle then { s with timerPending := true, timerGeneration := s.generation }
      else s
    some { s with cyclePending := false, wakePending := false }

/-- The state that an event leads to if it is enabled, before the guard. -/
def transition (s : ProtocolSchedulerState) : ProtocolSchedulerEvent → Option ProtocolSchedulerState
  | .idle => some s
  | .start => s.start
  | .stop => s.stop
  | .hint => s.hint
  | .goOffline => s.goOffline
  | .goOnline => s.goOnline
  | .timerFire => s.timerFire
  | .timerJoin => s.timerJoin
  | .staleTimerFire => s.staleTimerFire
  | .pageMore => s.pageMore
  | .beginReset => s.advanceReset .none .snapshotRequested
  | .finishReset => s.advanceReset .snapshotRequested .snapshotInstalled
  | .cycleSuccess => s.settle false
  | .cycleSuccessMore => s.settle true
  | .cycleRetryableFailure => s.cycleRetryableFailure
  | .cyclePermanentFailure | .malformedResponse => s.cyclePermanentFailure
  | .staleCycleSuccess | .staleCycleFailure => s.staleCycleSettled

def apply (s : ProtocolSchedulerState) (event : ProtocolSchedulerEvent) :
    Except ProtocolSchedulerTransitionError ProtocolSchedulerState :=
  match s.transition event with
  | none => .error { event, phase := s.phase }
  | some next => if next.stateIsSafe then .ok next else .error { event, phase := s.phase }

/-- A refused event leaves the state as it is. -/
def next (s : ProtocolSchedulerState) (event : ProtocolSchedulerEvent) : ProtocolSchedulerState :=
  match s.apply event with
  | .error _ => s
  | .ok next => next

/-- What all reached states have in common. The last five fields are what keeps the first six. -/
structure Safe (s : ProtocolSchedulerState) : Prop where
  offline : s.phase = .offline ↔ s.phase ≠ .stopped ∧ s.online = false
  syncing : s.phase = .syncing ↔ s.networkActive = true
  network : s.networkActive = true ↔ s.cyclePending = true ∧ s.cycleGeneration = s.generation
  backoff : s.phase = .backoff → s.timerPending = true
  older : s.cyclePending = true → s.cycleGeneration < s.generation →
    s.phase = .stopped ∨ s.phase = .offline ∨ s.phase = .idle
  failures : s.consecutiveFailures ≤ maxConsecutiveFailures
  cycle : s.cycleGeneration ≤ s.generation
  timer : s.timerPending = true →
    s.phase ≠ .stopped ∧ s.online = true ∧ s.timerGeneration = s.generation
  reset : s.resetPhase ≠ .none → s.phase = .syncing
  single : s.phase = .syncing → s.timerPending = false

variable {s s' : ProtocolSchedulerState}

theorem safe_default : Safe default := by
  constructor
  all_goals simp [default]

/-- The guard of `apply` follows from the invariant. -/
theorem Safe.stateIsSafe (h : Safe s) : s.stateIsSafe = true := by
  obtain ⟨hoffline, hsyncing, hnetwork, -, -, -, -, htimer, hreset, -⟩ := h
  simp only [ProtocolSchedulerState.stateIsSafe, currentCycleEnabled, currentTimerEnabled]
  grind -ring -linarith

theorem currentCycleEnabled_iff : s.currentCycleEnabled = true ↔ s.phase = .syncing ∧
    s.networkActive = true ∧ s.cyclePending = true ∧ s.cycleGeneration = s.generation := by
  simp [currentCycleEnabled, and_assoc]

theorem currentTimerEnabled_iff : s.currentTimerEnabled = true ↔ s.phase ≠ .stopped ∧
    s.online = true ∧ s.timerPending = true ∧ s.timerGeneration = s.generation := by
  simp [currentTimerEnabled, and_assoc]

theorem Safe.start (h : Safe s) (hs : s.start = some s') : Safe s' := by
  unfold ProtocolSchedulerState.start at hs
  split at hs
  · cases hs
  · rename_i hstopped
    obtain ⟨generation, hgeneration, rfl⟩ := Option.map_eq_some_iff.mp hs
    obtain ⟨-, rfl⟩ := checkedAdd_eq_some.mp hgeneration
    obtain ⟨hoffline, hsyncing, hnetwork, -, -, -, hcycle, -, hreset, -⟩ := h
    constructor
    all_goals grind -ring -linarith

/-- Stopping and going offline: no timer and no cycle belongs to the new generation. -/
theorem Safe.interrupt (h : Safe s) {phase : ProtocolSchedulerPhase} {online : Bool} {n : ℕ}
    (hphase : phase = .stopped ∨ phase = .offline ∧ online = false) (hn : s.generation < n) :
    Safe (s.interrupt phase online n) := by
  obtain ⟨-, -, -, -, -, hfailures, hcycle, -, -, -⟩ := h
  constructor
  all_goals
    simp only [ProtocolSchedulerState.interrupt]
    grind -ring -linarith

theorem Safe.stop (h : Safe s) (hs : s.stop = some s') : Safe s' := by
  unfold ProtocolSchedulerState.stop at hs
  split at hs
  · cases hs
  · obtain ⟨generation, hgeneration, rfl⟩ := Option.map_eq_some_iff.mp hs
    obtain ⟨-, rfl⟩ := checkedAdd_eq_some.mp hgeneration
    exact h.interrupt (.inl rfl) (Nat.lt_succ_self _)

theorem Safe.goOffline (h : Safe s) (hs : s.goOffline = some s') : Safe s' := by
  unfold ProtocolSchedulerState.goOffline at hs
  split at hs
  · cases hs
  · obtain ⟨generation, hgeneration, rfl⟩ := Option.map_eq_some_iff.mp hs
    obtain ⟨-, rfl⟩ := checkedAdd_eq_some.mp hgeneration
    exact h.interrupt (.inr ⟨rfl, rfl⟩) (Nat.lt_succ_self _)

theorem Safe.hint (h : Safe s) (hs : s.hint = some s') : Safe s' := by
  unfold ProtocolSchedulerState.hint at hs
  split at hs
  · cases hs
  · rename_i henabled
    obtain ⟨hoffline, hsyncing, hnetwork, hbackoff, holder, hfailures, hcycle, htimer, hreset, hsingle⟩ := h
    -- online, so the phase is not offline
    have hphase : s.phase ≠ .offline := by grind -ring -linarith
    rw [if_neg hphase] at hs
    dsimp only at hs
    split at hs
    · cases hs
      constructor
      all_goals grind -ring -linarith
    · cases hs
      constructor
      all_goals grind -ring -linarith

theorem Safe.goOnline (h : Safe s) (hs : s.goOnline = some s') : Safe s' := by
  unfold ProtocolSchedulerState.goOnline at hs
  split at hs
  · cases hs
  · cases hs
    obtain ⟨hoffline, hsyncing, hnetwork, -, -, hfailures, hcycle, -, hreset, -⟩ := h
    constructor
    all_goals grind -ring -linarith

theorem Safe.timerFire (h : Safe s) (hs : s.timerFire = some s') : Safe s' := by
  unfold ProtocolSchedulerState.timerFire at hs
  split at hs
  · cases hs
  · rename_i henabled
    cases hs
    rw [not_or, Bool.not_eq_false, currentTimerEnabled_iff] at henabled
    have hfailures := h.failures
    constructor
    all_goals grind -ring -linarith

theorem Safe.timerJoin (h : Safe s) (hs : s.timerJoin = some s') : Safe s' := by
  unfold ProtocolSchedulerState.timerJoin at hs
  split at hs
  · cases hs
  · cases hs
    obtain ⟨hoffline, hsyncing, hnetwork, hbackoff, holder, hfailures, hcycle, htimer, hreset, hsingle⟩ := h
    constructor
    all_goals grind -ring -linarith

theorem Safe.settle (h : Safe s) {hasMore : Bool} (hs : s.settle hasMore = some s') : Safe s' := by
  unfold ProtocolSchedulerState.settle at hs
  split at hs
  · cases hs
  · rename_i henabled
    cases hs
    simp only [settleEnabled, Bool.not_eq_false, Bool.and_eq_true, currentCycleEnabled_iff] at henabled
    obtain ⟨hoffline, -, -, -, -, -, hcycle, -, -, -⟩ := h
    constructor
    all_goals
      simp only [settleSuccess]
      grind -ring -linarith

/-- A failure ends the current cycle; a phase other than backoff may follow without a timer. -/
theorem Safe.cycleFailure (h : Safe s)
    (hs : s.cycleRetryableFailure = some s' ∨ s.cyclePermanentFailure = some s') : Safe s' := by
  unfold cycleRetryableFailure cyclePermanentFailure at hs
  by_cases henabled : s.currentCycleEnabled = false
  · rw [if_pos henabled, if_pos henabled] at hs
    simp at hs
  · rw [if_neg henabled, if_neg henabled] at hs
    rw [Bool.not_eq_false, currentCycleEnabled_iff] at henabled
    obtain ⟨hoffline, -, -, -, -, hfailures, hcycle, -, -, -⟩ := h
    obtain hs | hs := hs
    · cases hs
      constructor
      all_goals grind -ring -linarith
    · cases hs
      constructor
      all_goals grind -ring -linarith

theorem Safe.staleCycleSettled (h : Safe s) (hs : s.staleCycleSettled = some s') : Safe s' := by
  unfold ProtocolSchedulerState.staleCycleSettled at hs
  split at hs
  · cases hs
  · obtain ⟨hoffline, hsyncing, hnetwork, hbackoff, holder, hfailures, hcycle, htimer, hreset, hsingle⟩ := h
    split at hs
    · cases hs
      constructor
      all_goals grind -ring -linarith
    · cases hs
      constructor
      all_goals grind -ring -linarith

/-- The events of a running cycle leave everything that the invariant reads but the reset phase. -/
theorem Safe.cycleProgress (h : Safe s) {resetPhase : ProtocolSchedulerResetPhase} {pagesSeen : ℕ}
    (henabled : s.currentCycleEnabled = true) : Safe { s with resetPhase, pagesSeen } := by
  rw [currentCycleEnabled_iff] at henabled
  exact ⟨h.offline, h.syncing, h.network, h.backoff, h.older, h.failures, h.cycle, h.timer,
    fun _ => henabled.1, h.single⟩

theorem Safe.pageMore (h : Safe s) (hs : s.pageMore = some s') : Safe s' := by
  unfold ProtocolSchedulerState.pageMore at hs
  split at hs
  · cases hs
  · rename_i henabled
    cases hs
    exact h.cycleProgress (by simpa using fun hc => henabled (.inl hc))

theorem Safe.advanceReset (h : Safe s) {before after : ProtocolSchedulerResetPhase}
    (hs : s.advanceReset before after = some s') : Safe s' := by
  unfold ProtocolSchedulerState.advanceReset at hs
  split at hs
  · cases hs
  · rename_i henabled
    cases hs
    exact h.cycleProgress (by simpa using fun hc => henabled (.inl hc))

theorem Safe.transition (h : Safe s) {event : ProtocolSchedulerEvent} (hs : s.transition event = some s') :
    Safe s' := by
  cases event with
  | start => exact h.start hs
  | stop => exact h.stop hs
  | hint => exact h.hint hs
  | goOffline => exact h.goOffline hs
  | goOnline => exact h.goOnline hs
  | timerFire => exact h.timerFire hs
  | timerJoin => exact h.timerJoin hs
  | staleTimerFire =>
    simp only [ProtocolSchedulerState.transition, staleTimerFire] at hs
    split at hs
    · cases hs
    · cases hs
      exact ⟨h.offline, h.syncing, h.network, h.backoff, h.older, h.failures, h.cycle, h.timer,
        h.reset, h.single⟩
  | pageMore => exact h.pageMore hs
  | beginReset => exact h.advanceReset hs
  | finishReset => exact h.advanceReset hs
  | cycleSuccess => exact h.settle hs
  | cycleSuccessMore => exact h.settle hs
  | cycleRetryableFailure => exact h.cycleFailure (.inl hs)
  | cyclePermanentFailure => exact h.cycleFailure (.inr hs)
  | malformedResponse => exact h.cycleFailure (.inr hs)
  | staleCycleSuccess => exact h.staleCycleSettled hs
  | staleCycleFailure => exact h.staleCycleSettled hs
  | idle =>
    cases hs
    exact h

/-- On safe states the guard rejects nothing. -/
theorem Safe.next_eq (h : Safe s) (event : ProtocolSchedulerEvent) :
    s.next event = (s.transition event).getD s := by
  unfold ProtocolSchedulerState.next apply
  cases hs : s.transition event with
  | none => rfl
  | some s' =>
    dsimp only
    rw [if_pos (h.transition hs).stateIsSafe]
    rfl

theorem Safe.next (h : Safe s) (event : ProtocolSchedulerEvent) : Safe (s.next event) := by
  rw [h.next_eq]
  cases hs : s.transition event with
  | none => exact h
  | some s' => exact h.transition hs

/-- Every state of every run is safe, and there the guard rejects no enabled event. -/
theorem run_safe (events : List ProtocolSchedulerEvent) :
    let s := run ProtocolSchedulerState.next default events
    (s.phase = .offline ↔ s.phase ≠ .stopped ∧ s.online = false) ∧
    (s.phase = .syncing ↔ s.networkActive = true) ∧
    (s.networkActive = true ↔ s.cyclePending = true ∧ s.cycleGeneration = s.generation) ∧
    (s.phase = .backoff → s.timerPending = true) ∧
    (s.cyclePending = true → s.cycleGeneration < s.generation →
      s.phase = .stopped ∨ s.phase = .offline ∨ s.phase = .idle) ∧
    s.consecutiveFailures ≤ maxConsecutiveFailures ∧
    ∀ event s', s.transition event = some s' → s.apply event = .ok s' := by
  intro s
  have h : Safe s := run_invariant (fun _ event h => h.next event) safe_default events
  refine ⟨h.offline, h.syncing, h.network, h.backoff, h.older, h.failures, fun event s' hs => ?_⟩
  unfold apply
  rw [hs]
  dsimp only
  rw [if_pos (h.transition hs).stateIsSafe]

/-- A timer will fire, or the end of the pending cycle will see the wake. -/
def WakeKept (s : ProtocolSchedulerState) : Prop :=
  s.timerPending = true ∨ s.wakePending = true ∧ s.cyclePending = true

/-- A running session that keeps a wake. -/
structure Owes (s : ProtocolSchedulerState) : Prop where
  started : s.phase ≠ .stopped
  online : s.online = true
  kept : WakeKept s

/-- The events that ask for a cycle; a start asks for one when online. -/
def Wakes (s : ProtocolSchedulerState) : ProtocolSchedulerEvent → Prop
  | .start => s.online = true
  | .hint | .goOnline | .cycleSuccessMore => True
  | _ => False

/-- The events that serve or cancel a wake. -/
def Ends : ProtocolSchedulerEvent → Prop
  | .timerFire | .stop | .goOffline | .cyclePermanentFailure | .malformedResponse => True
  | _ => False

theorem hint_owes (hs : s.hint = some s') : Owes s' := by
  unfold hint at hs
  split at hs
  · cases hs
  · rename_i henabled
    rw [not_or, Bool.not_eq_false] at henabled
    obtain ⟨hstarted, honline⟩ := henabled
    have hresumed : ∀ r : ProtocolSchedulerState, r = (if s.phase = .offline then
        { s with phase := .idle } else s) → r.phase ≠ .stopped ∧ r.online = true := by
      grind -ring -linarith
    generalize (if s.phase = .offline then { s with phase := .idle } else s) = r at hs hresumed
    obtain ⟨hphase, honline'⟩ := hresumed r rfl
    dsimp only at hs
    split at hs
    · rename_i hcycle
      cases hs
      exact ⟨hphase, honline', .inr ⟨rfl, hcycle⟩⟩
    · cases hs
      exact ⟨hphase, honline', .inl rfl⟩

theorem Safe.owes_of_wakes (h : Safe s) {event : ProtocolSchedulerEvent} (hwakes : s.Wakes event)
    (hs : s.transition event = some s') : Owes s' := by
  cases event with
  | start =>
    have honline : s.online = true := hwakes
    simp only [ProtocolSchedulerState.transition, ProtocolSchedulerState.start] at hs
    split at hs
    · cases hs
    · obtain ⟨generation, -, rfl⟩ := Option.map_eq_some_iff.mp hs
      exact ⟨by simp, honline, .inl honline⟩
  | hint => exact hint_owes hs
  | goOnline =>
    simp only [ProtocolSchedulerState.transition, ProtocolSchedulerState.goOnline] at hs
    split at hs
    · cases hs
    · cases hs
      refine ⟨by simp, rfl, ?_⟩
      cases hcycle : s.cyclePending with
      | true => exact .inr ⟨rfl, rfl⟩
      | false => exact .inl rfl
  | cycleSuccessMore =>
    simp only [ProtocolSchedulerState.transition, ProtocolSchedulerState.settle] at hs
    split at hs
    · cases hs
    · rename_i henabled
      cases hs
      simp only [settleEnabled, Bool.not_eq_false, Bool.and_eq_true, currentCycleEnabled_iff]
        at henabled
      have honline : s.online = true := by
        have hoffline := h.offline
        grind -ring -linarith
      exact ⟨by simp [settleSuccess], honline, .inl rfl⟩
  | _ => exact hwakes.elim

theorem Safe.owes_of_settle (h : Safe s) (howes : Owes s) {hasMore : Bool}
    (hs : s.settle hasMore = some s') : Owes s' := by
  unfold ProtocolSchedulerState.settle at hs
  split at hs
  · cases hs
  · rename_i henabled
    cases hs
    simp only [settleEnabled, Bool.not_eq_false, Bool.and_eq_true, currentCycleEnabled_iff] at henabled
    -- while syncing no timer is pending, so the wake is recorded
    have hwake : s.wakePending = true := by
      obtain htimer | ⟨hwake, -⟩ := howes.kept
      · rw [h.single henabled.1.1] at htimer
        cases htimer
      · exact hwake
    exact ⟨by simp [settleSuccess], howes.online, .inl (by simp [settleSuccess, hwake])⟩

theorem Safe.owes_of_staleCycleSettled (h : Safe s) (howes : Owes s)
    (hs : s.staleCycleSettled = some s') : Owes s' := by
  unfold ProtocolSchedulerState.staleCycleSettled at hs
  split at hs
  · cases hs
  · rename_i henabled
    rw [not_or, Bool.not_eq_false] at henabled
    obtain ⟨hpending, hgeneration⟩ := henabled
    have hidle : s.phase = .idle := by
      have holder := h.older hpending (lt_of_le_of_ne h.cycle hgeneration)
      have hoffline := h.offline
      have hstarted := howes.started
      have honline := howes.online
      grind -ring -linarith
    rw [if_pos hidle] at hs
    cases hs
    exact ⟨howes.started, howes.online, .inl rfl⟩

/-- Every enabled event but the ending ones keeps a wake. -/
theorem Safe.owes (h : Safe s) (howes : Owes s) {event : ProtocolSchedulerEvent}
    (hends : ¬ Ends event) (hs : s.transition event = some s') : Owes s' := by
  cases event with
  | start =>
    simp only [ProtocolSchedulerState.transition, ProtocolSchedulerState.start, if_pos howes.started] at hs
    cases hs
  | hint => exact hint_owes hs
  | goOnline =>
    simp only [ProtocolSchedulerState.transition, ProtocolSchedulerState.goOnline, howes.online, or_true, if_true] at hs
    cases hs
  | timerJoin =>
    simp only [ProtocolSchedulerState.transition, ProtocolSchedulerState.timerJoin] at hs
    split at hs
    · cases hs
    · rename_i henabled
      rw [not_or, Bool.not_eq_false, Bool.not_eq_false] at henabled
      cases hs
      exact ⟨howes.started, howes.online, .inr ⟨rfl, henabled.2⟩⟩
  | staleTimerFire =>
    simp only [ProtocolSchedulerState.transition, ProtocolSchedulerState.staleTimerFire] at hs
    split at hs
    · cases hs
    · cases hs
      exact ⟨howes.started, howes.online, howes.kept⟩
  | pageMore =>
    simp only [ProtocolSchedulerState.transition, ProtocolSchedulerState.pageMore] at hs
    split at hs
    · cases hs
    · cases hs
      exact ⟨howes.started, howes.online, howes.kept⟩
  | beginReset =>
    simp only [ProtocolSchedulerState.transition, ProtocolSchedulerState.advanceReset] at hs
    split at hs
    · cases hs
    · cases hs
      exact ⟨howes.started, howes.online, howes.kept⟩
  | finishReset =>
    simp only [ProtocolSchedulerState.transition, ProtocolSchedulerState.advanceReset] at hs
    split at hs
    · cases hs
    · cases hs
      exact ⟨howes.started, howes.online, howes.kept⟩
  | cycleSuccess => exact h.owes_of_settle howes hs
  | cycleSuccessMore => exact h.owes_of_settle howes hs
  | cycleRetryableFailure =>
    simp only [ProtocolSchedulerState.transition, ProtocolSchedulerState.cycleRetryableFailure] at hs
    split at hs
    · cases hs
    · cases hs
      exact ⟨by simp, howes.online, .inl rfl⟩
  | staleCycleSuccess => exact h.owes_of_staleCycleSettled howes hs
  | staleCycleFailure => exact h.owes_of_staleCycleSettled howes hs
  | idle =>
    cases hs
    exact howes
  | timerFire | stop | goOffline | cyclePermanentFailure | malformedResponse =>
    exact absurd trivial hends

/-- After an event that asks for a cycle, the wake is kept until an event that ends it is
accepted. -/
theorem run_wakeKept {before : List ProtocolSchedulerEvent} {event : ProtocolSchedulerEvent}
    (hwakes : (run ProtocolSchedulerState.next default before).Wakes event)
    (haccepted : (run ProtocolSchedulerState.next default before).apply event =
      .ok (run ProtocolSchedulerState.next default (before ++ [event])))
    {later : List ProtocolSchedulerEvent}
    (hlater : StepsMeet ProtocolSchedulerState.next (fun s e => Ends e → ∃ error, s.apply e = .error error)
      (run ProtocolSchedulerState.next default (before ++ [event])) later) :
    WakeKept (run ProtocolSchedulerState.next default (before ++ [event] ++ later)) := by
  have hsafe : ∀ events, Safe (run ProtocolSchedulerState.next default events) :=
    run_invariant (fun _ event h => h.next event) safe_default
  have hstart : Owes (run ProtocolSchedulerState.next default (before ++ [event])) := by
    unfold apply at haccepted
    cases hs : (run ProtocolSchedulerState.next default before).transition event with
    | none =>
      rw [hs] at haccepted
      cases haccepted
    | some s' =>
      rw [hs] at haccepted
      dsimp only at haccepted
      rw [if_pos ((hsafe before).transition hs).stateIsSafe, Except.ok.injEq] at haccepted
      exact haccepted ▸ (hsafe before).owes_of_wakes hwakes hs
  have hstep : ∀ s e, (Ends e → ∃ error, s.apply e = .error error) → Safe s ∧ Owes s →
      Safe (s.next e) ∧ Owes (s.next e) := by
    intro s e hends hs
    obtain ⟨h, howes⟩ := hs
    refine ⟨h.next e, ?_⟩
    by_cases hend : Ends e
    · obtain ⟨error, herror⟩ := hends hend
      rw [ProtocolSchedulerState.next, herror]
      exact howes
    · rw [h.next_eq]
      cases hs : s.transition e with
      | none => exact howes
      | some s' => exact h.owes howes hend hs
  rw [run_append]
  exact (run_invariant_of_stepsMeet hstep ⟨hsafe _, hstart⟩ hlater).2.kept

/-- Going online starts a cycle's timer; a hint during the cycle is kept. -/
theorem run_wakeKept_hint :
    WakeKept (run ProtocolSchedulerState.next default [.start, .timerFire, .hint, .pageMore]) :=
  @run_wakeKept [.start, .timerFire] .hint trivial rfl [.pageMore] ⟨fun h => h.elim, trivial⟩

/-- A start while offline asks for no cycle: going online will. -/
theorem start_offline_keeps_nothing :
    (run ProtocolSchedulerState.next default [.start, .goOffline, .stop]).apply .start =
        .ok (run ProtocolSchedulerState.next default [.start, .goOffline, .stop, .start]) ∧
      ¬ WakeKept (run ProtocolSchedulerState.next default [.start, .goOffline, .stop, .start]) := by
  refine ⟨by decide, ?_⟩
  unfold WakeKept
  decide

end ProtocolSchedulerState
end OptoSync
