import OptoSync.Transition

/-!
# The sync lifecycle

The lifecycle machine of the desktop runners and its generation-fenced adapter. The adapter asks
for the generation of each settlement, so that a late one is told from a current one.
-/
namespace OptoSync.Lifecycle

inductive SyncLifecyclePhase
  | idle | acquiring | running | releasing | closed
  deriving DecidableEq

inductive SyncLifecycleEvent
  | wake | join | beginAcquire | acquireGranted | acquireDeferred
  | cancel | cycleSettled | releaseSettled | close | processAbort
  deriving DecidableEq

structure SyncLifecycleSnapshot where
  phase : SyncLifecyclePhase
  wakePending : Bool
  closeRequested : Bool
  cancelRequested : Bool
  permitHeld : Bool
  deriving DecidableEq

namespace SyncLifecycleSnapshot

def initial : SyncLifecycleSnapshot where
  phase := .idle
  wakePending := false
  closeRequested := false
  cancelRequested := false
  permitHeld := false

def isValid (state : SyncLifecycleSnapshot) : Bool :=
  let activePermit := state.phase = .running || state.phase = .releasing
  if state.permitHeld ≠ activePermit then false
  else if state.phase = .closed then
    state.closeRequested && !state.wakePending && !state.cancelRequested && !state.permitHeld
  else if state.closeRequested && state.wakePending then false
  else !state.cancelRequested || state.phase = .running

/-- The state that a transition computes, before it is checked. -/
def compute (state : SyncLifecycleSnapshot) : SyncLifecycleEvent → Option SyncLifecycleSnapshot
  | .wake =>
    if state.phase = .closed || state.closeRequested then none
    else some { state with wakePending := true }
  | .join =>
    if state.phase = .acquiring || state.phase = .running || state.phase = .releasing then some state
    else none
  | .beginAcquire =>
    if state.phase ≠ .idle || !state.wakePending || state.closeRequested then none
    else some { state with phase := .acquiring, wakePending := false }
  | .acquireGranted =>
    if state.phase ≠ .acquiring then none
    else some { state with
      phase := if state.closeRequested then .releasing else .running
      permitHeld := true
      cancelRequested := false }
  | .acquireDeferred =>
    if state.phase ≠ .acquiring then none
    else some { state with
      phase := if state.closeRequested then .closed else .idle
      wakePending := if state.closeRequested then false else state.wakePending
      cancelRequested := false
      permitHeld := false }
  | .cancel =>
    if state.phase ≠ .running then none else some { state with cancelRequested := true }
  | .cycleSettled =>
    if state.phase ≠ .running || !state.permitHeld then none
    else some { state with phase := .releasing, cancelRequested := false }
  | .releaseSettled =>
    if state.phase ≠ .releasing || !state.permitHeld then none
    else some { state with
      phase := if state.closeRequested then .closed else .idle
      wakePending := if state.closeRequested then false else state.wakePending
      cancelRequested := false
      permitHeld := false }
  | .close =>
    if state.phase = .closed then none
    else if state.phase = .idle then
      some { state with
        wakePending := false, closeRequested := true, phase := .closed, cancelRequested := false }
    else
      some { state with
        wakePending := false, closeRequested := true, cancelRequested := state.phase = .running }
  | .processAbort =>
    if state.phase = .acquiring || state.phase = .running || state.phase = .releasing then
      some { state with
        phase := if state.closeRequested then .closed else .idle
        wakePending := false
        cancelRequested := false
        permitHeld := false }
    else none

def transition (state : SyncLifecycleSnapshot) (event : SyncLifecycleEvent) :
    Option SyncLifecycleSnapshot :=
  if state.isValid then (state.compute event).filter isValid else none

theorem isValid_iff {state : SyncLifecycleSnapshot} :
    state.isValid = true ↔
      (state.permitHeld = true ↔ state.phase = .running ∨ state.phase = .releasing) ∧
        (state.phase = .closed → state.closeRequested = true) ∧
          (state.closeRequested = true → state.wakePending = false) ∧
            (state.cancelRequested = true → state.phase = .running) := by
  obtain ⟨phase, wakePending, closeRequested, cancelRequested, permitHeld⟩ := state
  cases phase <;> cases permitHeld <;> cases cancelRequested <;> cases closeRequested <;>
    simp [isValid]

theorem compute_isValid {state next : SyncLifecycleSnapshot} {event : SyncLifecycleEvent}
    (hvalid : state.isValid = true) (h : state.compute event = some next) :
    next.isValid = true := by
  rw [isValid_iff] at hvalid ⊢
  obtain ⟨hpermit, hclosed, hclose, hcancel⟩ := hvalid
  cases event with
  | wake =>
    simp only [compute, Option.ite_none_left_eq_some, Bool.or_eq_true, decide_eq_true_eq, not_or,
      Option.some.injEq] at h
    obtain ⟨hguard, rfl⟩ := h
    exact ⟨hpermit, hclosed, fun hrequested => absurd hrequested hguard.2, hcancel⟩
  | join =>
    simp only [compute, Option.ite_none_right_eq_some, Option.some.injEq] at h
    obtain ⟨-, rfl⟩ := h
    exact ⟨hpermit, hclosed, hclose, hcancel⟩
  | beginAcquire =>
    simp only [compute, Option.ite_none_left_eq_some, Option.some.injEq] at h
    obtain ⟨hguard, rfl⟩ := h
    simp_all
  | acquireGranted =>
    simp only [compute, Option.ite_none_left_eq_some, Option.some.injEq] at h
    obtain ⟨hguard, rfl⟩ := h
    cases hrequested : state.closeRequested <;> simp_all
  | acquireDeferred =>
    simp only [compute, Option.ite_none_left_eq_some, Option.some.injEq] at h
    obtain ⟨hguard, rfl⟩ := h
    cases hrequested : state.closeRequested <;> simp_all
  | cancel =>
    simp only [compute, Option.ite_none_left_eq_some, Option.some.injEq] at h
    obtain ⟨hguard, rfl⟩ := h
    simp_all
  | cycleSettled =>
    simp only [compute, Option.ite_none_left_eq_some, Option.some.injEq] at h
    obtain ⟨hguard, rfl⟩ := h
    simp_all
  | releaseSettled =>
    simp only [compute, Option.ite_none_left_eq_some, Option.some.injEq] at h
    obtain ⟨hguard, rfl⟩ := h
    cases hrequested : state.closeRequested <;> simp_all
  | close =>
    simp only [compute, Option.ite_none_left_eq_some] at h
    obtain ⟨hguard, h⟩ := h
    split at h
    · cases h
      simp_all
    · cases h
      simp_all
  | processAbort =>
    simp only [compute, Option.ite_none_right_eq_some, Option.some.injEq] at h
    obtain ⟨hguard, rfl⟩ := h
    cases hrequested : state.closeRequested <;> simp_all
/-- How an event moves the phase. -/
inductive Moves : SyncLifecyclePhase → SyncLifecycleEvent → SyncLifecyclePhase → Prop
  | wake (phase) : Moves phase .wake phase
  | join (phase) : Moves phase .join phase
  | beginAcquire : Moves .idle .beginAcquire .acquiring
  | granted : Moves .acquiring .acquireGranted .running
  | grantedLate : Moves .acquiring .acquireGranted .releasing
  | deferred : Moves .acquiring .acquireDeferred .idle
  | deferredLate : Moves .acquiring .acquireDeferred .closed
  | cancel : Moves .running .cancel .running
  | cycleSettled : Moves .running .cycleSettled .releasing
  | released : Moves .releasing .releaseSettled .idle
  | releasedLate : Moves .releasing .releaseSettled .closed
  | closed : Moves .idle .close .closed
  | closing (phase) : Moves phase .close phase
  | aborted {phase} (active : phase = .acquiring ∨ phase = .running ∨ phase = .releasing) :
      Moves phase .processAbort .idle
  | abortedLate {phase} (active : phase = .acquiring ∨ phase = .running ∨ phase = .releasing) :
      Moves phase .processAbort .closed

theorem compute_moves {state next : SyncLifecycleSnapshot} {event : SyncLifecycleEvent}
    (h : state.compute event = some next) : Moves state.phase event next.phase := by
  cases event with
  | wake =>
    simp only [compute, Option.ite_none_left_eq_some, Option.some.injEq] at h
    rw [← h.2]
    exact .wake _
  | join =>
    simp only [compute, Option.ite_none_right_eq_some, Option.some.injEq] at h
    rw [← h.2]
    exact .join _
  | beginAcquire =>
    simp only [compute, Option.ite_none_left_eq_some, Option.some.injEq, Bool.or_eq_true,
      decide_eq_true_eq, not_or, not_not, ne_eq] at h
    rw [h.1.1.1, ← h.2]
    exact .beginAcquire
  | acquireGranted =>
    simp only [compute, Option.ite_none_left_eq_some, Option.some.injEq, not_not, ne_eq] at h
    rw [h.1, ← h.2]
    cases state.closeRequested
    · exact .granted
    · exact .grantedLate
  | acquireDeferred =>
    simp only [compute, Option.ite_none_left_eq_some, Option.some.injEq, not_not, ne_eq] at h
    rw [h.1, ← h.2]
    cases state.closeRequested
    · exact .deferred
    · exact .deferredLate
  | cancel =>
    simp only [compute, Option.ite_none_left_eq_some, Option.some.injEq, not_not, ne_eq] at h
    rw [← h.2, h.1]
    exact .cancel
  | cycleSettled =>
    simp only [compute, Option.ite_none_left_eq_some, Option.some.injEq, Bool.or_eq_true,
      decide_eq_true_eq, not_or, not_not, ne_eq] at h
    rw [h.1.1, ← h.2]
    exact .cycleSettled
  | releaseSettled =>
    simp only [compute, Option.ite_none_left_eq_some, Option.some.injEq, Bool.or_eq_true,
      decide_eq_true_eq, not_or, not_not, ne_eq] at h
    rw [h.1.1, ← h.2]
    cases state.closeRequested
    · exact .released
    · exact .releasedLate
  | close =>
    simp only [compute, Option.ite_none_left_eq_some] at h
    obtain ⟨-, h⟩ := h
    split at h
    · next hidle =>
      rw [hidle, ← Option.some.inj h]
      exact .closed
    · rw [← Option.some.inj h]
      exact .closing _
  | processAbort =>
    simp only [compute, Option.ite_none_right_eq_some, Option.some.injEq, Bool.or_eq_true,
      decide_eq_true_eq, or_assoc] at h
    rw [← h.2]
    cases state.closeRequested
    · exact .aborted h.1
    · exact .abortedLate h.1

/-- While a cycle runs, a cancellation or a close stays requested. -/
theorem compute_running {state next : SyncLifecycleSnapshot} {event : SyncLifecycleEvent}
    (h : state.compute event = some next) (hbefore : state.phase = .running)
    (hafter : next.phase = .running) (hcancel : next.cancelRequested = false)
    (hclose : next.closeRequested = false) :
    (state.cancelRequested = false ∧ state.closeRequested = false) ∧ event ≠ .cancel ∧
      event ≠ .close := by
  have hmoves := compute_moves h
  rw [hbefore, hafter] at hmoves
  cases hmoves with
  | wake =>
    simp only [compute, Option.ite_none_left_eq_some, Option.some.injEq] at h
    obtain ⟨-, rfl⟩ := h
    exact ⟨⟨hcancel, hclose⟩, by simp, by simp⟩
  | join =>
    simp only [compute, Option.ite_none_right_eq_some, Option.some.injEq] at h
    obtain ⟨-, rfl⟩ := h
    exact ⟨⟨hcancel, hclose⟩, by simp, by simp⟩
  | cancel =>
    simp only [compute, Option.ite_none_left_eq_some, Option.some.injEq] at h
    obtain ⟨-, rfl⟩ := h
    cases hcancel
  | closing =>
    simp only [compute, hbefore, reduceCtorEq, if_false, Option.some.injEq] at h
    subst h
    cases hclose

/-- The check of the computed state never refuses. -/
theorem transition_of_isValid {state : SyncLifecycleSnapshot} (hvalid : state.isValid = true)
    (event : SyncLifecycleEvent) : state.transition event = state.compute event := by
  rw [transition, if_pos hvalid]
  cases h : state.compute event with
  | none => rfl
  | some next => rw [Option.filter_some, if_pos (compute_isValid hvalid h)]

end SyncLifecycleSnapshot

namespace Fenced

inductive TransitionDisposition
  | applied | rejected | stale
  deriving DecidableEq

structure SyncLifecycleCommand where
  event : SyncLifecycleEvent
  generation : Option UInt64
  deriving DecidableEq

structure SyncLifecycleSnapshot where
  lifecycle : Lifecycle.SyncLifecycleSnapshot
  generation : UInt64
  deriving DecidableEq

namespace SyncLifecycleSnapshot

def initial : SyncLifecycleSnapshot where
  lifecycle := .initial
  generation := 0

def isValid (state : SyncLifecycleSnapshot) : Bool := state.lifecycle.isValid

def mayRunSyncWork (state : SyncLifecycleSnapshot) : Bool :=
  state.lifecycle.phase = .running && state.lifecycle.permitHeld &&
    !state.lifecycle.cancelRequested && !state.lifecycle.closeRequested

end SyncLifecycleSnapshot

structure SyncLifecycleTransition where
  disposition : TransitionDisposition
  before : SyncLifecycleSnapshot
  after : SyncLifecycleSnapshot
  command : SyncLifecycleCommand
  deriving DecidableEq

def SyncLifecycleTransition.applied (transition : SyncLifecycleTransition) : Bool :=
  transition.disposition = .applied

def requiresGeneration : SyncLifecycleEvent → Bool
  | .acquireGranted | .acquireDeferred | .cycleSettled | .releaseSettled | .processAbort => true
  | _ => false

def validateGeneration (state : SyncLifecycleSnapshot) (command : SyncLifecycleCommand) :
    Except TransitionDisposition Unit :=
  if !requiresGeneration command.event then .ok ()
  else match command.generation with
    | none => .error .rejected
    | some generation => if generation ≠ state.generation then .error .stale else .ok ()

/-- `checked_add` for the generation. -/
def advanceGeneration (state : SyncLifecycleSnapshot) (event : SyncLifecycleEvent) :
    Option UInt64 :=
  if event = .beginAcquire then
    if state.generation.toNat + 1 < UInt64.size then some (state.generation + 1) else none
  else some state.generation

def unchanged (state : SyncLifecycleSnapshot) (command : SyncLifecycleCommand)
    (disposition : TransitionDisposition) : SyncLifecycleTransition where
  disposition
  before := state
  after := state
  command

def reduce (state : SyncLifecycleSnapshot) (command : SyncLifecycleCommand) :
    SyncLifecycleTransition :=
  if !state.isValid then unchanged state command .rejected
  else match validateGeneration state command with
    | .error disposition => unchanged state command disposition
    | .ok () =>
      match state.lifecycle.transition command.event with
      | none => unchanged state command .rejected
      | some lifecycle =>
        match advanceGeneration state command.event with
        | none => unchanged state command .rejected
        | some generation =>
          let after := { lifecycle, generation : SyncLifecycleSnapshot }
          if !after.isValid then unchanged state command .rejected
          else { disposition := .applied, before := state, after, command }

/-- The machine, with the decisions that `dispatch` returned so far. -/
structure SyncLifecycleMachine where
  state : SyncLifecycleSnapshot
  decisions : List SyncLifecycleTransition

def SyncLifecycleMachine.new : SyncLifecycleMachine where
  state := .initial
  decisions := []

def SyncLifecycleMachine.dispatch (machine : SyncLifecycleMachine)
    (command : SyncLifecycleCommand) : SyncLifecycleMachine :=
  let decision := reduce machine.state command
  { state := if decision.applied then decision.after else machine.state
    decisions := machine.decisions ++ [decision] }

end Fenced
end OptoSync.Lifecycle
