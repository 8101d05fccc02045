import OptoSync.DesktopRunner
import OptoSync.SyncLifecycle

/-!
# The desktop drain

`DesktopSyncRunner` of the TypeScript and the Dart package, as the machine it is between microtasks.
Its drain stops at every await, and its marker is cleared by a reaction of its own.
-/
namespace OptoSync.Drain
open Transition Lifecycle

/-- Where the packages differ. -/
structure Package where
  /-- The order in which the reasons of a cycle are listed. -/
  before : DesktopWakeReason → DesktopWakeReason → Bool
  /-- `DesktopSyncRunner` has an outcome callback. -/
  onOutcome : Bool
  /-- Each attempt to acquire takes the pending reasons, unless the SQLite runner is closed. -/
  takesEach : Bool
  /-- A close ends the sleep of a busy acquisition. -/
  abortsSleep : Bool
  /-- The release after a failed cycle is awaited. -/
  awaitsRelease : Bool
  /-- A wake that could not be signalled is reported to the callback. -/
  reportsUnsignalled : Bool

def wakeText : DesktopWakeReason → String
  | .processStart => "process-start"
  | .localMutation => "local-mutation"
  | .remoteChange => "remote-change"
  | .connectivity => "connectivity"
  | .resume => "resume"
  | .appUpdate => "app-update"
  | .manual => "manual"

def wakeIndex : DesktopWakeReason → ℕ
  | .processStart => 0
  | .localMutation => 1
  | .remoteChange => 2
  | .connectivity => 3
  | .resume => 4
  | .appUpdate => 5
  | .manual => 6

def typeScript : Package where
  before left right := wakeText left ≤ wakeText right
  onOutcome := true
  takesEach := false
  abortsSleep := true
  awaitsRelease := true
  reportsUnsignalled := false

def dart : Package where
  before left right := wakeIndex left ≤ wakeIndex right
  onOutcome := false
  takesEach := true
  abortsSleep := false
  awaitsRelease := false
  reportsUnsignalled := true

def Package.sorted (package : Package) (reasons : List DesktopWakeReason) :
    List DesktopWakeReason :=
  reasons.insertionSort fun left right => package.before left right = true

structure Wakes where
  pendingReasons : List DesktopWakeReason
  /-- The accepted wakes, each with the number of attempts that started before it. -/
  accepted : List (DesktopWakeReason × ℕ)
  /-- The reasons of the attempts to run a cycle. -/
  attempts : List (List DesktopWakeReason)

namespace Wakes

def initial : Wakes where
  pendingReasons := []
  accepted := []
  attempts := []

def add (wakes : Wakes) (reason : DesktopWakeReason) : Wakes :=
  { wakes with
    pendingReasons := if reason ∈ wakes.pendingReasons then wakes.pendingReasons
      else wakes.pendingReasons ++ [reason]
    accepted := wakes.accepted ++ [(reason, wakes.attempts.length)] }

/-- The reasons of a cycle and the pending ones. -/
def absorb (wakes : Wakes) (reasons : List DesktopWakeReason) : List DesktopWakeReason :=
  reasons ++ wakes.pendingReasons.filter (· ∉ reasons)

/-- An attempt starts; it takes the pending reasons. -/
def take (package : Package) (wakes : Wakes) (reasons : List DesktopWakeReason) : Wakes :=
  { wakes with
    pendingReasons := []
    attempts := wakes.attempts ++ [package.sorted (wakes.absorb reasons)] }

def clear (wakes : Wakes) : Wakes := { wakes with pendingReasons := [] }

def TakenUp (wakes : Wakes) (reason : DesktopWakeReason) (before : ℕ) : Prop :=
  ∃ (attempt : ℕ) (reasons : List DesktopWakeReason), before ≤ attempt ∧
    wakes.attempts[attempt]? = some reasons ∧ reason ∈ reasons

/-- The reason of each accepted wake is among those of an attempt that started after it. -/
def Attempted (wakes : Wakes) : Prop :=
  ∀ reason before, (reason, before) ∈ wakes.accepted → wakes.TakenUp reason before

/-- No reason was dropped. -/
structure Kept (wakes : Wakes) : Prop where
  stamp : ∀ reason before, (reason, before) ∈ wakes.accepted → before ≤ wakes.attempts.length
  held : ∀ reason before, (reason, before) ∈ wakes.accepted →
    reason ∈ wakes.pendingReasons ∨ wakes.TakenUp reason before

variable {wakes : Wakes}

theorem Kept.add (hkept : wakes.Kept) (reason : DesktopWakeReason) : (wakes.add reason).Kept := by
  have hpending : ∀ other, other ∈ (wakes.add reason).pendingReasons ↔
      other ∈ wakes.pendingReasons ∨ other = reason := by
    intro other
    by_cases hmem : reason ∈ wakes.pendingReasons
    · simp only [Wakes.add, if_pos hmem]
      exact ⟨.inl, fun h => h.elim id fun heq => heq ▸ hmem⟩
    · simp [Wakes.add, if_neg hmem]
  constructor
  · intro other before haccepted
    rcases List.mem_append.mp haccepted with haccepted | haccepted
    · exact hkept.stamp other before haccepted
    · cases List.mem_singleton.mp haccepted
      exact le_rfl
  · intro other before haccepted
    rw [hpending]
    rcases List.mem_append.mp haccepted with haccepted | haccepted
    · exact (hkept.held other before haccepted).imp_left .inl
    · cases List.mem_singleton.mp haccepted
      exact .inl (.inr rfl)

theorem add_pending (wakes : Wakes) (reason : DesktopWakeReason) :
    (wakes.add reason).pendingReasons ≠ [] := by
  unfold add
  split
  · next hmem => exact List.ne_nil_of_mem hmem
  · exact List.append_ne_nil_of_right_ne_nil _ (List.cons_ne_nil _ _)

theorem mem_sorted_absorb (package : Package) {reason : DesktopWakeReason}
    (hreason : reason ∈ wakes.pendingReasons) (reasons : List DesktopWakeReason) :
    reason ∈ package.sorted (wakes.absorb reasons) := by
  rw [Package.sorted, List.mem_insertionSort, absorb, List.mem_append, List.mem_filter]
  by_cases hmem : reason ∈ reasons
  · exact .inl hmem
  · exact .inr ⟨hreason, by simpa using hmem⟩

theorem Kept.take (hkept : wakes.Kept) (package : Package) (reasons : List DesktopWakeReason) :
    (wakes.take package reasons).Kept := by
  constructor
  · intro reason before haccepted
    have hstamp := hkept.stamp reason before haccepted
    simp only [Wakes.take, List.length_append, List.length_singleton]
    omega
  · intro reason before haccepted
    right
    rcases hkept.held reason before haccepted with hpending | ⟨attempt, listed, hbefore, hlisted, hmem⟩
    · refine ⟨wakes.attempts.length, _, hkept.stamp reason before haccepted, ?_,
        mem_sorted_absorb package hpending reasons⟩
      simp [Wakes.take]
    · refine ⟨attempt, listed, hbefore, ?_, hmem⟩
      simp only [Wakes.take]
      rw [List.getElem?_append_left (List.getElem?_eq_some_iff.mp hlisted).1]
      exact hlisted

theorem Kept.attempted (hkept : wakes.Kept) (hpending : wakes.pendingReasons = []) :
    wakes.Attempted := by
  intro reason before haccepted
  rcases hkept.held reason before haccepted with hreason | htaken
  · rw [hpending] at hreason
    cases hreason
  · exact htaken

end Wakes

/-- The law: while no drain executes and the runner is open, nothing is pending and every accepted
wake was taken up. -/
def Unstranded (executing closed : Bool) (wakes : Wakes) : Prop :=
  executing = false → closed = false → wakes.pendingReasons = [] ∧ wakes.Attempted

/-- Holds in every run: an open runner drops no reason, and a closed one holds none. -/
structure Sound (closed : Bool) (wakes : Wakes) : Prop where
  kept : closed = false → wakes.Kept
  cleared : closed = true → wakes.pendingReasons = []

theorem Sound.unstranded_iff {executing closed : Bool} {wakes : Wakes} (hsound : Sound closed wakes) :
    Unstranded executing closed wakes ↔ executing = true ∨ wakes.pendingReasons = [] := by
  cases executing with
  | true => exact iff_of_true (fun h => by cases h) (.inl rfl)
  | false =>
    constructor
    · intro hlaw
      cases closed with
      | true => exact .inr (hsound.cleared rfl)
      | false => exact .inr (hlaw rfl rfl).1
    · rintro (h | hpending) - hopen
      · cases h
      · exact ⟨hpending, (hsound.kept hopen).attempted hpending⟩

theorem Sound.initial : Sound false .initial where
  kept := fun _ => ⟨fun _ _ h => (by cases h), fun _ _ h => (by cases h)⟩
  cleared := fun h => (by cases h)

theorem Sound.add {closed : Bool} {wakes : Wakes} (hsound : Sound closed wakes)
    (hopen : closed = false) (reason : DesktopWakeReason) : Sound closed (wakes.add reason) where
  kept := fun h => (hsound.kept h).add reason
  cleared := fun h => (by rw [hopen] at h; cases h)

theorem Sound.take {closed : Bool} {wakes : Wakes} (hsound : Sound closed wakes) (package : Package)
    (reasons : List DesktopWakeReason) : Sound closed (wakes.take package reasons) where
  kept := fun h => (hsound.kept h).take package reasons
  cleared := fun _ => rfl

theorem Sound.close (wakes : Wakes) : Sound true wakes.clear where
  kept := fun h => (by cases h)
  cleared := fun _ => rfl

inductive DesktopSyncOutcomeStatus
  | completed | busy | failed | cancelled
  deriving DecidableEq

inductive DesktopSyncFailurePhase
  | acquire | cycle | release
  deriving DecidableEq

structure DesktopSyncOutcome where
  status : DesktopSyncOutcomeStatus
  reasons : List DesktopWakeReason
  failurePhase : Option DesktopSyncFailurePhase
  deriving DecidableEq

/-- Where a drain stands whose marker is set. -/
inductive DrainPhase
  | acquiring (reasons : List DesktopWakeReason)
  | cycling (reasons : List DesktopWakeReason) (aborted : Bool)
  /-- With what the cycle came to, if there was one. -/
  | releasing (reasons : List DesktopWakeReason) (cycle : Option Bool)
  /-- `runCycle` has returned. -/
  | settled (outcome : DesktopSyncOutcome)
  /-- `runCycle` has thrown. -/
  | rejected
  /-- The loop is over, and the reaction that clears the marker waits. -/
  | finished
  deriving DecidableEq

structure DesktopSyncRunner where
  wakes : Wakes
  lifecycle : SyncLifecycleSnapshot
  drain : Option DrainPhase
  outcomes : List DesktopSyncOutcome

/-- What `tryAcquire` settles with. -/
inductive AcquireAnswer
  | granted | refused | failed

inductive Action
  /-- A wake, with whether the token factory gives a valid token if a drain starts. -/
  | wake (reason : DesktopWakeReason) (token : Bool)
  | close
  | acquire (answer : AcquireAnswer)
  | timeout
  /-- The cycle settles. -/
  | settle (ok : Bool)
  | release (ok : Bool)
  /-- The drain goes on after `runCycle`, with what the callback and the token factory do. -/
  | resume (returns token : Bool)
  /-- The reaction to the end of the drain. -/
  | clear

namespace DesktopSyncRunner

def initial : DesktopSyncRunner where
  wakes := .initial
  lifecycle := .initial
  drain := none
  outcomes := []

def closed (runner : DesktopSyncRunner) : Bool :=
  runner.lifecycle.phase = .closed || runner.lifecycle.closeRequested

/-- In `runCycle` a transition that throws rejects. -/
def apply (runner : DesktopSyncRunner) (event : SyncLifecycleEvent)
    (andThen : SyncLifecycleSnapshot → DrainPhase) : DesktopSyncRunner :=
  match runner.lifecycle.transition event with
  | none => { runner with drain := some .rejected }
  | some lifecycle => { runner with lifecycle, drain := some (andThen lifecycle) }

def runCycle (runner : DesktopSyncRunner) (reasons : List DesktopWakeReason) (token : Bool) :
    DesktopSyncRunner :=
  if token then runner.apply .beginAcquire fun _ => .acquiring reasons
  else { runner with drain := some .rejected }

/-- The head of the loop. -/
def drainPending (package : Package) (runner : DesktopSyncRunner) (token : Bool) :
    DesktopSyncRunner :=
  if !runner.closed && !runner.wakes.pendingReasons.isEmpty then
    let reasons := package.sorted (runner.wakes.absorb [])
    ({ runner with wakes := runner.wakes.take package [] }).runCycle reasons token
  else { runner with drain := some .finished }

def wake (package : Package) (runner : DesktopSyncRunner) (reason : DesktopWakeReason)
    (token : Bool) : DesktopSyncRunner :=
  if runner.closed then runner
  else
    let runner := { runner with wakes := runner.wakes.add reason }
    match runner.lifecycle.transition .wake with
    | none => runner
    | some lifecycle =>
      let runner := { runner with lifecycle }
      if runner.drain.isSome then runner else runner.drainPending package token

def abort : DrainPhase → DrainPhase
  | .cycling reasons _ => .cycling reasons true
  | phase => phase

def close (runner : DesktopSyncRunner) : DesktopSyncRunner :=
  if runner.closed then runner
  else match runner.lifecycle.transition .close with
    | none => runner
    | some lifecycle =>
      { runner with lifecycle, wakes := runner.wakes.clear, drain := runner.drain.map abort }

def acquire (runner : DesktopSyncRunner) (answer : AcquireAnswer) : DesktopSyncRunner :=
  match runner.drain with
  | some (.acquiring reasons) =>
    match answer with
    | .failed => runner.apply .acquireDeferred fun _ => .settled ⟨.failed, reasons, some .acquire⟩
    | .refused => runner.apply .acquireDeferred fun _ => .settled ⟨.busy, reasons, none⟩
    | .granted => runner.apply .acquireGranted fun lifecycle =>
      if lifecycle.phase = .releasing then .releasing reasons none else .cycling reasons false
  | _ => runner

/-- A timer that throws leaves the lifecycle as it is. -/
def timeout (runner : DesktopSyncRunner) : DesktopSyncRunner :=
  match runner.drain with
  | some (.cycling reasons _) =>
    { runner with
      lifecycle := (runner.lifecycle.transition .cancel).getD runner.lifecycle
      drain := some (.cycling reasons true) }
  | _ => runner

def settle (runner : DesktopSyncRunner) (ok : Bool) : DesktopSyncRunner :=
  match runner.drain with
  | some (.cycling reasons aborted) =>
    runner.apply .cycleSettled fun _ => .releasing reasons (some (ok && !aborted))
  | _ => runner

def outcomeOf (reasons : List DesktopWakeReason) (cycle : Option Bool) (released : Bool) :
    DesktopSyncOutcome :=
  match cycle, released with
  | some false, _ => ⟨.failed, reasons, some .cycle⟩
  | _, false => ⟨.failed, reasons, some .release⟩
  | none, true => ⟨.cancelled, reasons, none⟩
  | some true, true => ⟨.completed, reasons, none⟩

def release (runner : DesktopSyncRunner) (ok : Bool) : DesktopSyncRunner :=
  match runner.drain with
  | some (.releasing reasons cycle) =>
    runner.apply .releaseSettled fun _ => .settled (outcomeOf reasons cycle ok)
  | _ => runner

def resume (package : Package) (runner : DesktopSyncRunner) (returns token : Bool) :
    DesktopSyncRunner :=
  match runner.drain with
  | some (.settled outcome) =>
    let runner := { runner with outcomes := runner.outcomes ++ [outcome] }
    if package.onOutcome && !returns then { runner with drain := some .finished }
    else runner.drainPending package token
  | some .rejected => { runner with drain := some .finished }
  | _ => runner

def clear (runner : DesktopSyncRunner) : DesktopSyncRunner :=
  if runner.drain = some .finished then { runner with drain := none } else runner

def next (package : Package) (runner : DesktopSyncRunner) : Action → DesktopSyncRunner
  | .wake reason token => runner.wake package reason token
  | .close => runner.close
  | .acquire answer => runner.acquire answer
  | .timeout => runner.timeout
  | .settle ok => runner.settle ok
  | .release ok => runner.release ok
  | .resume returns token => runner.resume package returns token
  | .clear => runner.clear

end DesktopSyncRunner

def executes (drain : Option DrainPhase) : Bool := drain.any (· ≠ .finished)

namespace DesktopSyncRunner

/-- `runCycle` has thrown, or the outcome callback throws. -/
def Throws (package : Package) (runner : DesktopSyncRunner) (returns : Bool) : Prop :=
  runner.drain = some .rejected ∨
    (∃ outcome, runner.drain = some (.settled outcome)) ∧ package.onOutcome = true ∧ returns = false

/-- No wake is accepted between the end of a drain's loop and the clearing of its marker, and a drain
that throws leaves nothing pending behind. -/
def LeavesNone (package : Package) (runner : DesktopSyncRunner) : Action → Prop
  | .wake _ _ => runner.closed = false → runner.drain ≠ some .finished
  | .resume returns _ => runner.Throws package returns → runner.wakes.pendingReasons = []
  | _ => True

end DesktopSyncRunner

/-- The lifecycle phase that goes with each phase of the drain. -/
def Fits (phase : SyncLifecyclePhase) : Option DrainPhase → Prop
  | some (.acquiring _) => phase = .acquiring
  | some (.cycling _ _) => phase = .running
  | some (.releasing _ _) => phase = .releasing
  | _ => phase = .idle ∨ phase = .closed

theorem fits_closed {drain : Option DrainPhase} (h : Fits .idle drain) : Fits .closed drain := by
  rcases drain with _ | phase
  · exact .inr rfl
  · cases phase with
    | acquiring => cases h
    | cycling => cases h
    | releasing => cases h
    | settled => exact .inr rfl
    | rejected => exact .inr rfl
    | finished => exact .inr rfl

theorem fits_abort {phase : SyncLifecyclePhase} {drain : Option DrainPhase} (h : Fits phase drain) :
    Fits phase (drain.map DesktopSyncRunner.abort) := by
  rcases drain with _ | drain
  · exact h
  · cases drain <;> exact h

/-- The transitions that `runCycle` and its timer make after an acquisition. -/
inductive Inner : SyncLifecyclePhase → SyncLifecycleEvent → Prop
  | granted : Inner .acquiring .acquireGranted
  | deferred : Inner .acquiring .acquireDeferred
  | cancel : Inner .running .cancel
  | cycleSettled : Inner .running .cycleSettled
  | releaseSettled : Inner .releasing .releaseSettled

/-- What an inner transition leaves: a close and a pending wake are not forgotten. -/
structure Continues (state later : SyncLifecycleSnapshot) : Prop where
  valid : later.isValid = true
  closeRequested : later.closeRequested = state.closeRequested
  wakePending : state.closeRequested = false → later.wakePending = state.wakePending

theorem Inner.transition {state : SyncLifecycleSnapshot} {event : SyncLifecycleEvent}
    (hinner : Inner state.phase event) (hvalid : state.isValid = true) :
    ∃ later, state.transition event = some later ∧ Continues state later ∧
      SyncLifecycleSnapshot.Moves state.phase event later.phase := by
  have hpermit := (SyncLifecycleSnapshot.isValid_iff.mp hvalid).1
  have hsome : ∃ later, state.compute event = some later ∧
      later.closeRequested = state.closeRequested ∧
      (state.closeRequested = false → later.wakePending = state.wakePending) := by
    obtain ⟨phase, wakePending, closeRequested, cancelRequested, permitHeld⟩ := state
    cases hinner with
    | granted => exact ⟨_, rfl, rfl, fun _ => rfl⟩
    | deferred => exact ⟨_, rfl, rfl, fun h => if_neg (by simpa using h)⟩
    | cancel => exact ⟨_, rfl, rfl, fun _ => rfl⟩
    | cycleSettled =>
      obtain rfl : permitHeld = true := hpermit.mpr (.inl rfl)
      exact ⟨_, rfl, rfl, fun _ => rfl⟩
    | releaseSettled =>
      obtain rfl : permitHeld = true := hpermit.mpr (.inr rfl)
      exact ⟨_, rfl, rfl, fun h => if_neg (by simpa using h)⟩
  obtain ⟨later, hlater, hclose, hwake⟩ := hsome
  refine ⟨later, ?_, ⟨SyncLifecycleSnapshot.compute_isValid hvalid hlater, hclose, hwake⟩,
    SyncLifecycleSnapshot.compute_moves hlater⟩
  rw [SyncLifecycleSnapshot.transition_of_isValid hvalid, hlater]

/-- A drain executes, or nothing is pending. -/
def DesktopSyncRunner.Minded (runner : DesktopSyncRunner) : Prop :=
  executes runner.drain = true ∨ runner.wakes.pendingReasons = []

/-- Holds in every run. -/
structure Ready (runner : DesktopSyncRunner) : Prop where
  valid : runner.lifecycle.isValid = true
  fits : Fits runner.lifecycle.phase runner.drain
  pendingWake : runner.closed = false → runner.wakes.pendingReasons ≠ [] →
    runner.lifecycle.wakePending = true
  sound : Sound runner.closed runner.wakes

variable {package : Package} {runner : DesktopSyncRunner}

theorem closed_eq (hvalid : runner.lifecycle.isValid = true) :
    runner.closed = runner.lifecycle.closeRequested := by
  have hclosed := (SyncLifecycleSnapshot.isValid_iff.mp hvalid).2.1
  cases hrequested : runner.lifecycle.closeRequested with
  | true => simp [DesktopSyncRunner.closed, hrequested]
  | false =>
    have hphase : runner.lifecycle.phase ≠ .closed := by
      intro h
      rw [hclosed h] at hrequested
      cases hrequested
    simp [DesktopSyncRunner.closed, hrequested, hphase]

/-- A step of the lifecycle and of the drain that leaves the wakes alone. -/
theorem Ready.continue (hready : Ready runner) {lifecycle : SyncLifecycleSnapshot}
    (hcontinues : Continues runner.lifecycle lifecycle) {drain : Option DrainPhase}
    (hfits : Fits lifecycle.phase drain) : Ready { runner with lifecycle, drain } := by
  have hclosed : ({ runner with lifecycle, drain } : DesktopSyncRunner).closed = runner.closed := by
    rw [closed_eq hcontinues.valid, closed_eq hready.valid]
    exact hcontinues.closeRequested
  refine ⟨hcontinues.valid, hfits, fun hopen hpending => ?_, ?_⟩
  · rw [hclosed] at hopen
    rw [← hready.pendingWake hopen hpending]
    rw [closed_eq hready.valid] at hopen
    exact hcontinues.wakePending hopen
  · rw [hclosed]
    exact hready.sound

/-- `apply` after an acquisition. -/
theorem Ready.apply (hready : Ready runner) {phase : SyncLifecyclePhase} {event : SyncLifecycleEvent}
    {andThen : SyncLifecycleSnapshot → DrainPhase} (hphase : runner.lifecycle.phase = phase)
    (hinner : Inner phase event)
    (hfits : ∀ later, SyncLifecycleSnapshot.Moves phase event later.phase →
      Fits later.phase (some (andThen later)))
    (hexecutes : ∀ later, andThen later ≠ .finished) :
    Ready (runner.apply event andThen) ∧ (runner.Minded → (runner.apply event andThen).Minded) := by
  subst hphase
  obtain ⟨later, htransition, hcontinues, hmoves⟩ := hinner.transition hready.valid
  have happly : runner.apply event andThen =
      { runner with lifecycle := later, drain := some (andThen later) } := by
    simp only [DesktopSyncRunner.apply, htransition]
  rw [happly]
  exact ⟨hready.continue hcontinues (hfits later hmoves),
    fun _ => .inl (by simp [executes, hexecutes later])⟩

def DesktopSyncRunner.NeverStrands (runner : DesktopSyncRunner) : Prop :=
  Unstranded (executes runner.drain) runner.closed runner.wakes

theorem Ready.neverStrands_iff (hready : Ready runner) : runner.NeverStrands ↔ runner.Minded :=
  hready.sound.unstranded_iff

theorem Ready.drainPending (hready : Ready runner) (package : Package)
    (hphase : runner.lifecycle.phase = .idle ∨ runner.lifecycle.phase = .closed) (token : Bool) :
    Ready (runner.drainPending package token) ∧ (runner.drainPending package token).Minded := by
  unfold DesktopSyncRunner.drainPending
  split
  · next hhead =>
    simp only [Bool.and_eq_true, Bool.not_eq_true', List.isEmpty_eq_false_iff] at hhead
    obtain ⟨hopen, hpending⟩ := hhead
    have hsound := hready.sound.take package []
    cases token with
    | false =>
      refine ⟨⟨hready.valid, hphase, fun _ h => absurd rfl h, hsound⟩, .inl rfl⟩
    | true =>
      have hwake := hready.pendingWake hopen hpending
      rw [closed_eq hready.valid] at hopen
      have hidle : runner.lifecycle.phase = .idle := by
        refine hphase.resolve_right fun h => ?_
        have hclosed := (SyncLifecycleSnapshot.isValid_iff.mp hready.valid).2.1 h
        rw [hopen] at hclosed
        cases hclosed
      have hcompute : runner.lifecycle.compute .beginAcquire =
          some { runner.lifecycle with phase := .acquiring, wakePending := false } := by
        simp [SyncLifecycleSnapshot.compute, hidle, hwake, hopen]
      have hvalid := SyncLifecycleSnapshot.compute_isValid hready.valid hcompute
      simp only [DesktopSyncRunner.runCycle, if_true, DesktopSyncRunner.apply,
        SyncLifecycleSnapshot.transition_of_isValid hready.valid, hcompute]
      refine ⟨⟨hvalid, rfl, fun _ h => absurd rfl h, ?_⟩, .inl rfl⟩
      rw [closed_eq hvalid]
      rw [closed_eq hready.valid] at hsound
      exact hsound
  · next hhead =>
    refine ⟨⟨hready.valid, hphase, hready.pendingWake, hready.sound⟩, .inr ?_⟩
    cases hclosed : runner.closed with
    | true => exact hready.sound.cleared hclosed
    | false => simpa [hclosed] using hhead

theorem Ready.wake (hready : Ready runner) (reason : DesktopWakeReason) (token : Bool) :
    Ready (runner.wake package reason token) ∧
      (runner.Minded → ((runner.wake package reason token).Minded ↔
        (runner.closed = false → runner.drain ≠ some .finished))) := by
  unfold DesktopSyncRunner.wake
  cases hclosed : runner.closed with
  | true => exact ⟨hready, fun hminded => iff_of_true hminded fun h => by cases h⟩
  | false =>
    have hrequested : runner.lifecycle.closeRequested = false :=
      (closed_eq hready.valid).symm.trans hclosed
    have hphase : runner.lifecycle.phase ≠ .closed := by
      intro h
      rw [(SyncLifecycleSnapshot.isValid_iff.mp hready.valid).2.1 h] at hrequested
      cases hrequested
    have hcompute : runner.lifecycle.compute .wake =
        some { runner.lifecycle with wakePending := true } := by
      simp [SyncLifecycleSnapshot.compute, hrequested, hphase]
    have hvalid := SyncLifecycleSnapshot.compute_isValid hready.valid hcompute
    have hadded : Ready { runner with
        wakes := runner.wakes.add reason
        lifecycle := { runner.lifecycle with wakePending := true } } :=
      ⟨hvalid, hready.fits, fun _ _ => rfl, hready.sound.add hclosed reason⟩
    simp only [Bool.false_eq_true, if_false, SyncLifecycleSnapshot.transition_of_isValid hready.valid,
      hcompute]
    cases hdrain : runner.drain with
    | none =>
      have hfits := hready.fits
      rw [hdrain] at hfits
      obtain ⟨hlater, hminded⟩ := hadded.drainPending package hfits token
      rw [hdrain] at hlater hminded
      exact ⟨hlater, fun _ => iff_of_true hminded fun _ h => by cases h⟩
    | some phase =>
      rw [hdrain] at hadded
      refine ⟨hadded, fun _ => ?_⟩
      have hpending := runner.wakes.add_pending reason
      simp [DesktopSyncRunner.Minded, executes, hpending]

theorem Ready.close (hready : Ready runner) :
    Ready runner.close ∧ (runner.Minded → runner.close.Minded) := by
  unfold DesktopSyncRunner.close
  cases hclosed : runner.closed with
  | true => exact ⟨hready, id⟩
  | false =>
    have hcompute : ∃ later, runner.lifecycle.compute .close = some later ∧
        later.closeRequested = true ∧
        Fits later.phase (runner.drain.map DesktopSyncRunner.abort) := by
      rw [closed_eq hready.valid] at hclosed
      have hphase : runner.lifecycle.phase ≠ .closed := by
        intro h
        rw [(SyncLifecycleSnapshot.isValid_iff.mp hready.valid).2.1 h] at hclosed
        cases hclosed
      simp only [SyncLifecycleSnapshot.compute, if_neg hphase]
      split
      · next hidle => exact ⟨_, rfl, rfl, fits_abort (fits_closed (hidle ▸ hready.fits))⟩
      · exact ⟨_, rfl, rfl, fits_abort hready.fits⟩
    obtain ⟨later, hlater, hrequested, hfits⟩ := hcompute
    have hvalid := SyncLifecycleSnapshot.compute_isValid hready.valid hlater
    simp only [Bool.false_eq_true, if_false, SyncLifecycleSnapshot.transition_of_isValid hready.valid,
      hlater]
    refine ⟨⟨hvalid, hfits, fun _ h => absurd rfl h, ?_⟩, fun _ => .inr rfl⟩
    rw [closed_eq hvalid]
    exact hrequested ▸ Sound.close runner.wakes

theorem Ready.acquire (hready : Ready runner) (answer : AcquireAnswer) :
    Ready (runner.acquire answer) ∧ (runner.Minded → (runner.acquire answer).Minded) := by
  unfold DesktopSyncRunner.acquire
  split
  · next reasons hdrain =>
    have hphase : runner.lifecycle.phase = .acquiring := by
      have hfits := hready.fits
      rw [hdrain] at hfits
      exact hfits
    have hdeferred : ∀ outcome : DesktopSyncOutcome, ∀ later : SyncLifecycleSnapshot,
        SyncLifecycleSnapshot.Moves .acquiring .acquireDeferred later.phase →
          Fits later.phase (some (.settled outcome)) := by
      intro outcome later hmoves
      generalize later.phase = after at hmoves
      cases hmoves with
      | deferred => exact .inl rfl
      | deferredLate => exact .inr rfl
    cases answer with
    | failed => exact hready.apply hphase .deferred (hdeferred _) fun _ h => by cases h
    | refused => exact hready.apply hphase .deferred (hdeferred _) fun _ h => by cases h
    | granted =>
      refine hready.apply hphase .granted (fun later hmoves => ?_) fun later => ?_
      · generalize later.phase = after at hmoves
        cases hmoves with
        | granted => rfl
        | grantedLate => rfl
      · split <;> exact fun h => by cases h
  · exact ⟨hready, id⟩

theorem Ready.timeout (hready : Ready runner) :
    Ready runner.timeout ∧ (runner.Minded → runner.timeout.Minded) := by
  unfold DesktopSyncRunner.timeout
  split
  · next reasons aborted hdrain =>
    have hphase : runner.lifecycle.phase = .running := by
      have hfits := hready.fits
      rw [hdrain] at hfits
      exact hfits
    have hinner : Inner runner.lifecycle.phase .cancel := hphase ▸ .cancel
    obtain ⟨later, htransition, hcontinues, hmoves⟩ := hinner.transition hready.valid
    rw [htransition, Option.getD_some]
    refine ⟨hready.continue hcontinues ?_, fun _ => .inl rfl⟩
    rw [hphase] at hmoves
    generalize later.phase = after at hmoves
    cases hmoves
    rfl
  · exact ⟨hready, id⟩

theorem Ready.settle (hready : Ready runner) (ok : Bool) :
    Ready (runner.settle ok) ∧ (runner.Minded → (runner.settle ok).Minded) := by
  unfold DesktopSyncRunner.settle
  split
  · next reasons aborted hdrain =>
    have hphase : runner.lifecycle.phase = .running := by
      have hfits := hready.fits
      rw [hdrain] at hfits
      exact hfits
    refine hready.apply hphase .cycleSettled (fun later hmoves => ?_) fun _ h => by cases h
    generalize later.phase = after at hmoves
    cases hmoves
    rfl
  · exact ⟨hready, id⟩

theorem Ready.release (hready : Ready runner) (ok : Bool) :
    Ready (runner.release ok) ∧ (runner.Minded → (runner.release ok).Minded) := by
  unfold DesktopSyncRunner.release
  split
  · next reasons cycle hdrain =>
    have hphase : runner.lifecycle.phase = .releasing := by
      have hfits := hready.fits
      rw [hdrain] at hfits
      exact hfits
    refine hready.apply hphase .releaseSettled (fun later hmoves => ?_) fun _ h => by cases h
    generalize later.phase = after at hmoves
    cases hmoves with
    | released => exact .inl rfl
    | releasedLate => exact .inr rfl
  · exact ⟨hready, id⟩

theorem Ready.resume (hready : Ready runner) (package : Package) (returns token : Bool) :
    Ready (runner.resume package returns token) ∧
      (runner.Minded → ((runner.resume package returns token).Minded ↔
        (runner.Throws package returns → runner.wakes.pendingReasons = []))) := by
  -- a drain that throws ends here, whatever is pending
  have ended : ∀ outcomes, Fits runner.lifecycle.phase (some .finished) →
      runner.Throws package returns →
      Ready { runner with drain := some .finished, outcomes } ∧
        (DesktopSyncRunner.Minded { runner with drain := some .finished, outcomes } ↔
          (runner.Throws package returns → runner.wakes.pendingReasons = [])) := by
    intro outcomes hfits hthrows
    refine ⟨⟨hready.valid, hfits, hready.pendingWake, hready.sound⟩, ?_⟩
    simp [DesktopSyncRunner.Minded, executes, hthrows]
  unfold DesktopSyncRunner.resume
  have hfits := hready.fits
  split
  · next outcome hdrain =>
    rw [hdrain] at hfits
    dsimp only
    cases hthrow : package.onOutcome && !returns with
    | true =>
      have hcallback : package.onOutcome = true ∧ returns = false := by simpa using hthrow
      have hended := ended (runner.outcomes ++ [outcome]) hfits (.inr ⟨⟨outcome, hdrain⟩, hcallback⟩)
      exact ⟨hended.1, fun _ => hended.2⟩
    | false =>
      have hreported : Ready { runner with outcomes := runner.outcomes ++ [outcome] } :=
        ⟨hready.valid, hready.fits, hready.pendingWake, hready.sound⟩
      obtain ⟨hlater, hminded⟩ := hreported.drainPending package hfits token
      refine ⟨hlater, fun _ => iff_of_true hminded ?_⟩
      rintro (hrejected | ⟨-, hcallback, hreturns⟩)
      · rw [hdrain] at hrejected
        cases hrejected
      · rw [hcallback, hreturns] at hthrow
        cases hthrow
  · next hdrain =>
    rw [hdrain] at hfits
    have hended := ended runner.outcomes hfits (.inl hdrain)
    exact ⟨hended.1, fun _ => hended.2⟩
  · next hsettled hrejected =>
    refine ⟨hready, fun hminded => iff_of_true hminded ?_⟩
    rintro (hdrain | ⟨⟨outcome, hdrain⟩, -⟩)
    · exact absurd hdrain hrejected
    · exact absurd hdrain (hsettled outcome)

theorem Ready.clear (hready : Ready runner) :
    Ready runner.clear ∧ (runner.Minded → runner.clear.Minded) := by
  unfold DesktopSyncRunner.clear
  split
  · next hdrain =>
    have hfits := hready.fits
    rw [hdrain] at hfits
    refine ⟨⟨hready.valid, hfits, hready.pendingWake, hready.sound⟩, fun hminded => ?_⟩
    rw [DesktopSyncRunner.Minded, hdrain] at hminded
    exact .inr (hminded.resolve_left (by simp [executes]))
  · exact ⟨hready, id⟩

theorem Ready.next (hready : Ready runner) (package : Package) (action : Action) :
    Ready (runner.next package action) ∧
      (runner.Minded → ((runner.next package action).Minded ↔ runner.LeavesNone package action)) := by
  have kept : ∀ {later : DesktopSyncRunner}, Ready later ∧ (runner.Minded → later.Minded) →
      Ready later ∧ (runner.Minded → (later.Minded ↔ True)) := by
    rintro later ⟨hlater, hminded⟩
    exact ⟨hlater, fun h => iff_of_true (hminded h) trivial⟩
  cases action with
  | wake reason token => exact hready.wake reason token
  | close => exact kept hready.close
  | acquire answer => exact kept (hready.acquire answer)
  | timeout => exact kept hready.timeout
  | settle ok => exact kept (hready.settle ok)
  | release ok => exact kept (hready.release ok)
  | resume returns token => exact hready.resume package returns token
  | clear => exact kept hready.clear

theorem Ready.initial : Ready .initial where
  valid := rfl
  fits := .inl rfl
  pendingWake := fun _ h => absurd rfl h
  sound := .initial

theorem desktop_strands_none_iff (package : Package) (actions : List Action) :
    StatesMeet (DesktopSyncRunner.next package) DesktopSyncRunner.NeverStrands .initial actions ↔
      StepsMeet (DesktopSyncRunner.next package) (DesktopSyncRunner.LeavesNone package) .initial
        actions := by
  refine statesMeet_iff_stepsMeet (I := Ready)
    (fun runner action hready => (hready.next package action).1) (fun runner action hready hlaw => ?_)
    .initial (Ready.initial.neverStrands_iff.mpr (.inr rfl)) actions
  obtain ⟨hlater, hiff⟩ := hready.next package action
  rw [hlater.neverStrands_iff]
  exact hiff (hready.neverStrands_iff.mp hlaw)

end OptoSync.Drain
