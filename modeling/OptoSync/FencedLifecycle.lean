import OptoSync.SyncLifecycle

/-!
# Runs of the fenced lifecycle

In every run each generation has one acquisition, one settlement of its cycle and one end.
-/
namespace OptoSync.Lifecycle.Fenced
open Transition

/-- The command takes the state to `after`. -/
def Applies (state : SyncLifecycleSnapshot) (command : SyncLifecycleCommand)
    (after : SyncLifecycleSnapshot) : Prop :=
  validateGeneration state command = .ok () ∧
    state.lifecycle.compute command.event = some after.lifecycle ∧
      advanceGeneration state command.event = some after.generation

theorem reduce_cases {state : SyncLifecycleSnapshot} (hvalid : state.isValid = true)
    (command : SyncLifecycleCommand) :
    (∃ after, Applies state command after ∧
        reduce state command = { disposition := .applied, before := state, after, command }) ∨
      (validateGeneration state command ≠ .ok () ∨
          state.lifecycle.compute command.event = none ∨
            advanceGeneration state command.event = none) ∧
        ∃ disposition, disposition ≠ .applied ∧
          reduce state command = unchanged state command disposition := by
  unfold reduce
  rw [hvalid, Lifecycle.SyncLifecycleSnapshot.transition_of_isValid hvalid]
  simp only [Bool.not_true, Bool.false_eq_true, if_false]
  cases hgeneration : validateGeneration state command with
  | error disposition =>
    refine Or.inr ⟨Or.inl (by simp), disposition, ?_, rfl⟩
    rintro rfl
    unfold validateGeneration at hgeneration
    split at hgeneration
    · cases hgeneration
    · split at hgeneration
      · cases hgeneration
      · split at hgeneration <;> cases hgeneration
  | ok _ =>
    cases hcompute : state.lifecycle.compute command.event with
    | none => exact Or.inr ⟨Or.inr (Or.inl rfl), .rejected, by simp, rfl⟩
    | some lifecycle =>
      cases hadvance : advanceGeneration state command.event with
      | none => exact Or.inr ⟨Or.inr (Or.inr rfl), .rejected, by simp, rfl⟩
      | some generation =>
        have hnext : SyncLifecycleSnapshot.isValid { lifecycle, generation } = true :=
          Lifecycle.SyncLifecycleSnapshot.compute_isValid hvalid hcompute
        refine Or.inl ⟨{ lifecycle, generation }, ⟨hgeneration, hcompute, hadvance⟩, ?_⟩
        simp only [hnext, Bool.not_true, Bool.false_eq_true, if_false]

theorem generation_of_validateGeneration {state : SyncLifecycleSnapshot}
    {command : SyncLifecycleCommand} (h : validateGeneration state command = .ok ())
    (hrequires : requiresGeneration command.event = true) :
    command.generation = some state.generation := by
  rw [validateGeneration, hrequires] at h
  cases hgeneration : command.generation with
  | none =>
    rw [hgeneration] at h
    cases h
  | some generation =>
    rw [hgeneration] at h
    by_cases hsame : generation = state.generation
    · rw [hsame]
    · simp [hsame] at h

theorem Applies.generation {state after : SyncLifecycleSnapshot} {command : SyncLifecycleCommand}
    (h : Applies state command after) :
    after.generation.toNat =
      state.generation.toNat + if command.event = .beginAcquire then 1 else 0 := by
  have hadvance := h.2.2
  unfold advanceGeneration at hadvance
  split
  · next hbegin =>
    rw [if_pos hbegin] at hadvance
    split at hadvance
    · next hsize =>
      rw [← Option.some.inj hadvance, UInt64.toNat_add, UInt64.toNat_one]
      exact Nat.mod_eq_of_lt hsize
    · cases hadvance
  · next hbegin =>
    rw [if_neg hbegin] at hadvance
    rw [← Option.some.inj hadvance]
    rfl

/-- The applied decisions of a generation whose event meets the test. -/
def applications (test : SyncLifecycleEvent → Bool) (generation : UInt64)
    (decisions : List SyncLifecycleTransition) : ℕ :=
  decisions.countP fun decision =>
    decision.applied && decision.before.generation = generation && test decision.command.event

theorem applications_concat (test : SyncLifecycleEvent → Bool) (generation : UInt64)
    (decisions : List SyncLifecycleTransition) (decision : SyncLifecycleTransition) :
    applications test generation (decisions ++ [decision]) =
      applications test generation decisions +
        if decision.applied ∧ decision.before.generation = generation ∧
          test decision.command.event then 1 else 0 := by
  rw [applications, List.countP_append, List.countP_singleton]
  simp only [Bool.and_eq_true, decide_eq_true_eq, and_assoc]
  rfl

/-- Events that happen in the open phases only, and close them. -/
structure Closing (test : SyncLifecycleEvent → Bool) (isOpen : SyncLifecyclePhase → Bool) : Prop where
  closes : ∀ {phase next : SyncLifecyclePhase} {event : SyncLifecycleEvent},
    Lifecycle.SyncLifecycleSnapshot.Moves phase event next → test event = true →
      isOpen phase = true ∧ isOpen next = false
  keeps : ∀ {phase next : SyncLifecyclePhase} {event : SyncLifecycleEvent},
    Lifecycle.SyncLifecycleSnapshot.Moves phase event next → event ≠ .beginAcquire →
      isOpen next = true → isOpen phase = true
  other : test .beginAcquire = false

def isAcquireResult : SyncLifecycleEvent → Bool
  | .acquireGranted | .acquireDeferred => true
  | _ => false

def isCycleSettled (event : SyncLifecycleEvent) : Bool := event = .cycleSettled

def isEnd : SyncLifecycleEvent → Bool
  | .acquireDeferred | .releaseSettled | .processAbort => true
  | _ => false

def untilResult (phase : SyncLifecyclePhase) : Bool := phase = .acquiring

def untilSettled : SyncLifecyclePhase → Bool
  | .acquiring | .running => true
  | _ => false

def untilEnd : SyncLifecyclePhase → Bool
  | .acquiring | .running | .releasing => true
  | _ => false

theorem closing_acquireResult : Closing isAcquireResult untilResult where
  closes h htest := by cases h <;> first | exact ⟨rfl, rfl⟩ | cases htest
  keeps h hbegin hopen := by
    cases h <;> first | exact hopen | exact absurd rfl hbegin | cases hopen
  other := rfl

theorem closing_cycleSettled : Closing isCycleSettled untilSettled where
  closes h htest := by cases h <;> first | exact ⟨rfl, rfl⟩ | cases htest
  keeps h hbegin hopen := by
    cases h <;> first | exact hopen | rfl | exact absurd rfl hbegin | cases hopen
  other := rfl

theorem closing_end : Closing isEnd untilEnd where
  closes h htest := by
    cases h with
    | aborted active => rcases active with rfl | rfl | rfl <;> exact ⟨rfl, rfl⟩
    | abortedLate active => rcases active with rfl | rfl | rfl <;> exact ⟨rfl, rfl⟩
    | _ => first | exact ⟨rfl, rfl⟩ | cases htest
  keeps h hbegin hopen := by
    cases h <;> first | exact hopen | rfl | exact absurd rfl hbegin | cases hopen
  other := rfl

/-- At most one application in each generation, and none in the current one while it is open. -/
structure AtMostOnce (test : SyncLifecycleEvent → Bool) (isOpen : SyncLifecyclePhase → Bool)
    (machine : SyncLifecycleMachine) : Prop where
  once : ∀ generation, applications test generation machine.decisions ≤ 1
  fresh : isOpen machine.state.lifecycle.phase = true →
    applications test machine.state.generation machine.decisions = 0

/-- No decision is of a later generation. -/
def NoneLater (machine : SyncLifecycleMachine) : Prop :=
  ∀ decision ∈ machine.decisions,
    decision.before.generation.toNat ≤ machine.state.generation.toNat

theorem NoneLater.applications_eq_zero {machine : SyncLifecycleMachine} (h : NoneLater machine)
    (test : SyncLifecycleEvent → Bool) {generation : UInt64}
    (hlater : machine.state.generation.toNat < generation.toNat) :
    applications test generation machine.decisions = 0 := by
  rw [applications, List.countP_eq_zero]
  intro decision hmem htest
  simp only [Bool.and_eq_true, decide_eq_true_eq] at htest
  have hle := h decision hmem
  rw [htest.1.2] at hle
  omega

variable {machine : SyncLifecycleMachine} {command : SyncLifecycleCommand}

theorem dispatch_applied {after : SyncLifecycleSnapshot}
    (h : reduce machine.state command =
      { disposition := .applied, before := machine.state, after, command }) :
    machine.dispatch command = ⟨after, machine.decisions ++
      [{ disposition := .applied, before := machine.state, after, command }]⟩ := by
  rw [SyncLifecycleMachine.dispatch, h]
  rfl

theorem dispatch_refused {disposition : TransitionDisposition} (hne : disposition ≠ .applied)
    (h : reduce machine.state command = unchanged machine.state command disposition) :
    machine.dispatch command = ⟨machine.state, machine.decisions ++
      [unchanged machine.state command disposition]⟩ := by
  rw [SyncLifecycleMachine.dispatch, h]
  simp [SyncLifecycleTransition.applied, unchanged, hne]

theorem NoneLater.dispatch (h : NoneLater machine) (hvalid : machine.state.isValid = true)
    (command : SyncLifecycleCommand) : NoneLater (machine.dispatch command) := by
  rcases reduce_cases hvalid command with ⟨after, happlies, hreduce⟩ | ⟨-, disposition, hne, hreduce⟩
  · rw [dispatch_applied hreduce]
    have hgeneration := happlies.generation
    intro decision hmem
    rcases List.mem_append.mp hmem with hmem | hmem
    · have hle := h decision hmem
      show _ ≤ after.generation.toNat
      omega
    · rw [List.mem_singleton.mp hmem]
      show machine.state.generation.toNat ≤ after.generation.toNat
      omega
  · rw [dispatch_refused hne hreduce]
    intro decision hmem
    rcases List.mem_append.mp hmem with hmem | hmem
    · exact h decision hmem
    · rw [List.mem_singleton.mp hmem]
      exact le_rfl

theorem AtMostOnce.dispatch {test : SyncLifecycleEvent → Bool}
    {isOpen : SyncLifecyclePhase → Bool} (hclosing : Closing test isOpen)
    (h : AtMostOnce test isOpen machine) (hlater : NoneLater machine)
    (hvalid : machine.state.isValid = true) (command : SyncLifecycleCommand) :
    AtMostOnce test isOpen (machine.dispatch command) := by
  rcases reduce_cases hvalid command with ⟨after, happlies, hreduce⟩ | ⟨-, disposition, hne, hreduce⟩
  · rw [dispatch_applied hreduce]
    have hmoves := Lifecycle.SyncLifecycleSnapshot.compute_moves happlies.2.1
    have hgeneration := happlies.generation
    have hcount := fun generation => applications_concat test generation machine.decisions
      { disposition := .applied, before := machine.state, after, command }
    refine ⟨fun generation => ?_, fun hopen => ?_⟩
    · rw [hcount]
      split
      · next hnew =>
        have hzero := h.fresh (hclosing.closes hmoves hnew.2.2).1
        rw [hnew.2.1] at hzero
        omega
      · exact h.once generation
    · rw [hcount]
      by_cases hbegin : command.event = .beginAcquire
      · rw [if_pos hbegin] at hgeneration
        have hless : machine.state.generation.toNat < after.generation.toNat := by omega
        rw [hlater.applications_eq_zero test hless, if_neg]
        rintro ⟨-, hsame, -⟩
        have hne : machine.state.generation.toNat = after.generation.toNat :=
          congrArg UInt64.toNat hsame
        omega
      · rw [if_neg hbegin] at hgeneration
        have hsame : after.generation = machine.state.generation :=
          UInt64.toNat_inj.mp hgeneration
        show applications test after.generation _ + _ = 0
        rw [hsame, h.fresh (hclosing.keeps hmoves hbegin hopen), if_neg]
        rintro ⟨-, -, htest⟩
        rw [(hclosing.closes hmoves htest).2] at hopen
        cases hopen
  · rw [dispatch_refused hne hreduce]
    have hsame : ∀ generation, applications test generation (machine.decisions ++
        [unchanged machine.state command disposition]) =
          applications test generation machine.decisions := by
      intro generation
      simp [applications_concat, SyncLifecycleTransition.applied, unchanged, hne]
    exact ⟨fun generation => (hsame generation).trans_le (h.once generation),
      fun hopen => (hsame _).trans (h.fresh hopen)⟩

/-- The generation counts the acquisitions that were begun. -/
def CountsAcquisitions (machine : SyncLifecycleMachine) : Prop :=
  machine.state.generation.toNat = machine.decisions.countP fun decision =>
    decision.applied && decision.command.event = .beginAcquire

/-- The applied grant of the current generation, with what was decided since: nothing has ended the
cycle, and as long as none is requested, no cancellation and no close was even asked for. -/
structure Granted (machine : SyncLifecycleMachine) (later : List SyncLifecycleTransition) :
    Prop where
  grant : ∃ earlier decision, machine.decisions = earlier ++ decision :: later ∧
    decision.applied = true ∧ decision.command.event = .acquireGranted ∧
      decision.before.generation = machine.state.generation
  unsettled : ∀ decision ∈ later, decision.applied = true →
    isCycleSettled decision.command.event = false ∧ isEnd decision.command.event = false
  undisturbed : machine.state.lifecycle.cancelRequested = false →
    machine.state.lifecycle.closeRequested = false →
      ∀ decision ∈ later, decision.command.event ≠ .cancel ∧ decision.command.event ≠ .close

theorem CountsAcquisitions.dispatch (h : CountsAcquisitions machine)
    (hvalid : machine.state.isValid = true) (command : SyncLifecycleCommand) :
    CountsAcquisitions (machine.dispatch command) := by
  rcases reduce_cases hvalid command with ⟨after, happlies, hreduce⟩ | ⟨-, disposition, hne, hreduce⟩
  · rw [dispatch_applied hreduce]
    have hgeneration := happlies.generation
    rw [CountsAcquisitions] at h
    rw [CountsAcquisitions, List.countP_append, ← h, List.countP_singleton, hgeneration]
    simp [SyncLifecycleTransition.applied]
  · rw [dispatch_refused hne hreduce]
    rw [CountsAcquisitions] at h
    rw [CountsAcquisitions, List.countP_append, ← h, List.countP_singleton]
    simp [SyncLifecycleTransition.applied, unchanged, hne]

/-- A command that does not apply while a cycle runs is no cancellation and no close. -/
theorem refused_running {state : SyncLifecycleSnapshot} (hphase : state.lifecycle.phase = .running)
    (h : validateGeneration state command ≠ .ok () ∨
      state.lifecycle.compute command.event = none ∨ advanceGeneration state command.event = none) :
    command.event ≠ .cancel ∧ command.event ≠ .close := by
  constructor
  · intro hevent
    rcases h with h | h | h
    · exact h (by simp [validateGeneration, requiresGeneration, hevent])
    · simp [hevent, Lifecycle.SyncLifecycleSnapshot.compute, hphase] at h
    · simp [hevent, advanceGeneration] at h
  · intro hevent
    rcases h with h | h | h
    · exact h (by simp [validateGeneration, requiresGeneration, hevent])
    · simp [hevent, Lifecycle.SyncLifecycleSnapshot.compute, hphase] at h
    · simp [hevent, advanceGeneration] at h

theorem moves_running {phase : SyncLifecyclePhase} {event : SyncLifecycleEvent}
    (h : Lifecycle.SyncLifecycleSnapshot.Moves phase event .running) :
    event = .acquireGranted ∨ phase = .running ∧ event ≠ .beginAcquire ∧
      isCycleSettled event = false ∧ isEnd event = false := by
  cases h with
  | granted => exact Or.inl rfl
  | _ => exact Or.inr ⟨rfl, by simp, rfl, rfl⟩

theorem granted_dispatch
    (h : machine.state.lifecycle.phase = .running → ∃ later, Granted machine later)
    (hvalid : machine.state.isValid = true) (command : SyncLifecycleCommand)
    (hrunning : (machine.dispatch command).state.lifecycle.phase = .running) :
    ∃ later, Granted (machine.dispatch command) later := by
  rcases reduce_cases hvalid command with ⟨after, happlies, hreduce⟩ | ⟨hwhy, disposition, hne, hreduce⟩
  · rw [dispatch_applied hreduce] at hrunning ⊢
    have hmoves := Lifecycle.SyncLifecycleSnapshot.compute_moves happlies.2.1
    have hgeneration := happlies.generation
    have hphase : after.lifecycle.phase = .running := hrunning
    rw [hphase] at hmoves
    have hsame : command.event ≠ .beginAcquire → after.generation = machine.state.generation := by
      intro hbegin
      rw [if_neg hbegin] at hgeneration
      exact UInt64.toNat_inj.mp hgeneration
    rcases moves_running hmoves with hgrant | ⟨hbefore, hbegin, hsettled, hend⟩
    · refine ⟨[], ⟨machine.decisions, _, rfl, rfl, hgrant, ?_⟩, by simp, by simp⟩
      exact (hsame (by simp [hgrant])).symm
    · obtain ⟨later, hgranted⟩ := h hbefore
      obtain ⟨earlier, decision, hdecisions, happlied, hevent, hcurrent⟩ := hgranted.grant
      refine ⟨later ++ [⟨.applied, machine.state, after, command⟩],
        ⟨earlier, decision, ?_, happlied, hevent, hcurrent.trans (hsame hbegin).symm⟩, ?_, ?_⟩
      · simp [hdecisions]
      · intro decision hmem happlied
        rcases List.mem_append.mp hmem with hmem | hmem
        · exact hgranted.unsettled decision hmem happlied
        · rw [List.mem_singleton.mp hmem]
          exact ⟨hsettled, hend⟩
      · intro hcancel hclose decision hmem
        obtain ⟨⟨hcancel', hclose'⟩, hevents⟩ := Lifecycle.SyncLifecycleSnapshot.compute_running
          happlies.2.1 hbefore hphase hcancel hclose
        rcases List.mem_append.mp hmem with hmem | hmem
        · exact hgranted.undisturbed hcancel' hclose' decision hmem
        · rw [List.mem_singleton.mp hmem]
          exact hevents
  · rw [dispatch_refused hne hreduce] at hrunning ⊢
    obtain ⟨later, hgranted⟩ := h hrunning
    obtain ⟨earlier, decision, hdecisions, hgrant⟩ := hgranted.grant
    refine ⟨later ++ [unchanged machine.state command disposition], ⟨earlier, decision, ?_, hgrant⟩,
      ?_, ?_⟩
    · simp [hdecisions]
    · intro decision hmem happlied
      rcases List.mem_append.mp hmem with hmem | hmem
      · exact hgranted.unsettled decision hmem happlied
      · rw [List.mem_singleton.mp hmem] at happlied
        simp [SyncLifecycleTransition.applied, unchanged, hne] at happlied
    · intro hcancel hclose decision hmem
      rcases List.mem_append.mp hmem with hmem | hmem
      · exact hgranted.undisturbed hcancel hclose decision hmem
      · rw [List.mem_singleton.mp hmem]
        exact refused_running hrunning hwhy

structure Inv (machine : SyncLifecycleMachine) : Prop where
  valid : machine.state.isValid = true
  noneLater : NoneLater machine
  counts : CountsAcquisitions machine
  results : AtMostOnce isAcquireResult untilResult machine
  settled : AtMostOnce isCycleSettled untilSettled machine
  ended : AtMostOnce isEnd untilEnd machine
  granted : machine.state.lifecycle.phase = .running → ∃ later, Granted machine later

theorem inv_new : Inv .new where
  valid := rfl
  noneLater := by simp [NoneLater, SyncLifecycleMachine.new]
  counts := rfl
  results := ⟨fun _ => Nat.zero_le _, fun _ => rfl⟩
  settled := ⟨fun _ => Nat.zero_le _, fun _ => rfl⟩
  ended := ⟨fun _ => Nat.zero_le _, fun _ => rfl⟩
  granted h := by cases h

theorem Inv.dispatch (h : Inv machine) (command : SyncLifecycleCommand) :
    Inv (machine.dispatch command) where
  valid := by
    rcases reduce_cases h.valid command with
      ⟨after, happlies, hreduce⟩ | ⟨-, disposition, hne, hreduce⟩
    · rw [dispatch_applied hreduce]
      exact Lifecycle.SyncLifecycleSnapshot.compute_isValid h.valid happlies.2.1
    · rw [dispatch_refused hne hreduce]
      exact h.valid
  noneLater := h.noneLater.dispatch h.valid command
  counts := h.counts.dispatch h.valid command
  results := h.results.dispatch closing_acquireResult h.noneLater h.valid command
  settled := h.settled.dispatch closing_cycleSettled h.noneLater h.valid command
  ended := h.ended.dispatch closing_end h.noneLater h.valid command
  granted := granted_dispatch h.granted h.valid command

/-- What the generations fence. -/
structure GenerationFenced (machine : SyncLifecycleMachine) : Prop where
  counts : CountsAcquisitions machine
  results : ∀ generation, applications isAcquireResult generation machine.decisions ≤ 1
  settled : ∀ generation, applications isCycleSettled generation machine.decisions ≤ 1
  ended : ∀ generation, applications isEnd generation machine.decisions ≤ 1
  /-- A settlement without the current generation changes nothing. -/
  stale : ∀ command, requiresGeneration command.event = true →
    command.generation ≠ some machine.state.generation →
      (machine.dispatch command).state = machine.state
  work : machine.state.mayRunSyncWork = true → ∃ later, Granted machine later ∧
    ∀ decision ∈ later, decision.command.event ≠ .cancel ∧ decision.command.event ≠ .close
  /-- A refusal is due to the generation of the command, the guard of the event, or the end of the
  generations, never to the state that is computed. -/
  refusals : ∀ command, (reduce machine.state command).applied = false →
    validateGeneration machine.state command ≠ .ok () ∨
      machine.state.lifecycle.compute command.event = none ∨
        advanceGeneration machine.state command.event = none

theorem run_generationFenced (commands : List SyncLifecycleCommand) :
    GenerationFenced (run SyncLifecycleMachine.dispatch .new commands) := by
  have hinv : Inv (run SyncLifecycleMachine.dispatch .new commands) :=
    run_invariant (fun _ command h => h.dispatch command) inv_new commands
  generalize run SyncLifecycleMachine.dispatch .new commands = machine at hinv
  refine ⟨hinv.counts, hinv.results.once, hinv.settled.once, hinv.ended.once, ?_, ?_, ?_⟩
  · intro command hrequires hgeneration
    rcases reduce_cases hinv.valid command with
      ⟨after, happlies, -⟩ | ⟨-, disposition, hne, hreduce⟩
    · exact absurd (generation_of_validateGeneration happlies.1 hrequires) hgeneration
    · rw [dispatch_refused hne hreduce]
  · intro hwork
    simp only [SyncLifecycleSnapshot.mayRunSyncWork, Bool.and_eq_true, decide_eq_true_eq,
      Bool.not_eq_true'] at hwork
    obtain ⟨later, hgranted⟩ := hinv.granted hwork.1.1.1
    exact ⟨later, hgranted, hgranted.undisturbed hwork.1.2 hwork.2⟩
  · intro command hrefused
    rcases reduce_cases hinv.valid command with ⟨after, -, hreduce⟩ | ⟨hwhy, -⟩
    · rw [hreduce] at hrefused
      cases hrefused
    · exact hwhy

end OptoSync.Lifecycle.Fenced
