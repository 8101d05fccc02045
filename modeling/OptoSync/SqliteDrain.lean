import OptoSync.DesktopDrain

/-!
# The drain of the SQLite runners

`SqliteCoordinatedDesktopSyncRunner` of the TypeScript and the Dart package between microtasks. The
coordinator and the clock are the answers that a run gets.
-/
namespace OptoSync.Drain
open Transition

namespace Sqlite

inductive SqliteDesktopSyncOutcomeStatus
  | completed | busy | failed
  deriving DecidableEq

inductive SqliteDesktopFailurePhase
  | acquire | cycle | complete | renew | release
  deriving DecidableEq

structure SqliteDesktopSyncOutcome where
  status : SqliteDesktopSyncOutcomeStatus
  reasons : List DesktopWakeReason
  failurePhase : Option SqliteDesktopFailurePhase
  deriving DecidableEq

def failure (reasons : List DesktopWakeReason) (failurePhase : SqliteDesktopFailurePhase) :
    SqliteDesktopSyncOutcome :=
  ⟨.failed, reasons, some failurePhase⟩

/-- Where a drain stands whose marker is set. `produced` are the outcomes of earlier cycles under the
same lease. -/
inductive DrainPhase
  | sleeping (reasons : List DesktopWakeReason)
  | cycling (reasons : List DesktopWakeReason) (produced : List SqliteDesktopSyncOutcome)
      (aborted : Bool)
  | releasing (produced : List SqliteDesktopSyncOutcome)
  /-- `runUntilReleased` has returned. -/
  | settled (produced : List SqliteDesktopSyncOutcome)
  /-- `runUntilReleased` has thrown. -/
  | rejected
  /-- The loop is over, and the reaction that clears the marker waits. -/
  | finished
  deriving DecidableEq

structure SqliteCoordinatedDesktopSyncRunner where
  wakes : Wakes
  closed : Bool
  drain : Option DrainPhase
  outcomes : List SqliteDesktopSyncOutcome

/-- What an attempt to acquire meets. -/
inductive AcquireAnswer
  | tokenThrows
  | throws
  | acquired
  /-- Another owner has the lease, and the waiting time is over or not. -/
  | busy (spent : Bool)
  deriving DecidableEq

/-- What the completion of a cycle meets, and the renewal for a trailing one. -/
inductive CompleteAnswer
  | throws | released | renewThrows | renewRefused | renewed
  deriving DecidableEq

inductive Action
  /-- A wake, with whether it can be signalled and what an attempt to acquire meets. -/
  | wake (reason : DesktopWakeReason) (signalled : Bool) (answer : AcquireAnswer)
  | close
  | awake (answer : AcquireAnswer)
  /-- The close aborts the sleep. -/
  | abortSleep
  | timeout
  /-- The cycle settles. -/
  | settle (ok released : Bool) (answer : CompleteAnswer)
  /-- The awaited release is over. -/
  | released
  /-- The drain goes on after `runUntilReleased`; the callback may throw at an outcome. -/
  | resume (throwsAt : Option ℕ) (answer : AcquireAnswer)
  /-- The reaction to the end of the drain. -/
  | clear

namespace SqliteCoordinatedDesktopSyncRunner

def initial : SqliteCoordinatedDesktopSyncRunner where
  wakes := .initial
  closed := false
  drain := none
  outcomes := []

variable (package : Package) (runner : SqliteCoordinatedDesktopSyncRunner)

/-- An attempt takes the pending reasons and goes on with its own. -/
def absorb (reasons : List DesktopWakeReason) (andThen : List DesktopWakeReason → DrainPhase) :
    SqliteCoordinatedDesktopSyncRunner :=
  { runner with
    wakes := runner.wakes.take package reasons
    drain := some (andThen (package.sorted (runner.wakes.absorb reasons))) }

def acquire (reasons : List DesktopWakeReason) (answer : AcquireAnswer) :
    SqliteCoordinatedDesktopSyncRunner :=
  match answer with
  | .tokenThrows => { runner with drain := some .rejected }
  | .throws => { runner with drain := some (.settled [failure reasons .acquire]) }
  | .acquired => runner.absorb package reasons fun reasons => .cycling reasons [] false
  | .busy true => { runner with drain := some (.settled [⟨.busy, reasons, none⟩]) }
  | .busy false => { runner with drain := some (.sleeping reasons) }

/-- One turn of the loop that acquires. -/
def tryAcquire (reasons : List DesktopWakeReason) (answer : AcquireAnswer) :
    SqliteCoordinatedDesktopSyncRunner :=
  if package.takesEach then
    let taken := package.sorted (runner.wakes.absorb reasons)
    let runner := { runner with wakes := runner.wakes.take package reasons }
    if runner.closed then { runner with drain := some (.settled [failure taken .acquire]) }
    else runner.acquire package taken answer
  else runner.acquire package reasons answer

/-- The head of the loop. -/
def drainPending (answer : AcquireAnswer) : SqliteCoordinatedDesktopSyncRunner :=
  if !runner.closed && !runner.wakes.pendingReasons.isEmpty then
    let reasons := package.sorted (runner.wakes.absorb [])
    ({ runner with wakes := runner.wakes.take package [] }).tryAcquire package reasons answer
  else { runner with drain := some .finished }

def wake (reason : DesktopWakeReason) (signalled : Bool) (answer : AcquireAnswer) :
    SqliteCoordinatedDesktopSyncRunner :=
  if runner.closed then runner
  else if !signalled then
    if package.reportsUnsignalled then
      { runner with outcomes := runner.outcomes ++ [failure [reason] .acquire] }
    else runner
  else
    let runner := { runner with wakes := runner.wakes.add reason }
    if runner.drain.isSome then runner else runner.drainPending package answer

def abort : DrainPhase → DrainPhase
  | .cycling reasons produced _ => .cycling reasons produced true
  | phase => phase

def close : SqliteCoordinatedDesktopSyncRunner :=
  if runner.closed then runner
  else { runner with
    closed := true, wakes := runner.wakes.clear, drain := runner.drain.map abort }

def awake (answer : AcquireAnswer) : SqliteCoordinatedDesktopSyncRunner :=
  match runner.drain with
  | some (.sleeping reasons) => runner.tryAcquire package reasons answer
  | _ => runner

def abortSleep : SqliteCoordinatedDesktopSyncRunner :=
  match runner.drain with
  | some (.sleeping reasons) =>
    if package.abortsSleep && runner.closed then
      { runner with drain := some (.settled [failure reasons .acquire]) }
    else runner
  | _ => runner

def timeout : SqliteCoordinatedDesktopSyncRunner := { runner with drain := runner.drain.map abort }

/-- The outcome of a renewal that is refused names another phase in each package. -/
def refusedPhase : SqliteDesktopFailurePhase := if package.takesEach then .renew else .complete

def complete (reasons : List DesktopWakeReason) (produced : List SqliteDesktopSyncOutcome)
    (answer : CompleteAnswer) : SqliteCoordinatedDesktopSyncRunner :=
  let completed := produced ++ [⟨.completed, reasons, none⟩]
  match answer with
  | .throws => { runner with drain := some (.settled (produced ++ [failure reasons .complete])) }
  | .released => { runner with drain := some (.settled completed) }
  | .renewThrows => runner.absorb package reasons fun _ => .rejected
  | .renewRefused => runner.absorb package reasons fun reasons =>
    .settled (completed ++ [failure reasons (refusedPhase package)])
  | .renewed => runner.absorb package reasons fun reasons => .cycling reasons completed false

def settle (ok released : Bool) (answer : CompleteAnswer) : SqliteCoordinatedDesktopSyncRunner :=
  match runner.drain with
  | some (.cycling reasons produced aborted) =>
    if ok && !aborted then runner.complete package reasons produced answer
    else
      let produced := produced ++ [failure reasons (if released then .cycle else .release)]
      let phase := if package.awaitsRelease then .releasing produced else .settled produced
      { runner with drain := some phase }
  | _ => runner

def released : SqliteCoordinatedDesktopSyncRunner :=
  match runner.drain with
  | some (.releasing produced) => { runner with drain := some (.settled produced) }
  | _ => runner

def resume (throwsAt : Option ℕ) (answer : AcquireAnswer) : SqliteCoordinatedDesktopSyncRunner :=
  match runner.drain with
  | some (.settled produced) =>
    match throwsAt.filter (· < produced.length) with
    | some last =>
      { runner with
        outcomes := runner.outcomes ++ produced.take (last + 1), drain := some .finished }
    | none => ({ runner with outcomes := runner.outcomes ++ produced }).drainPending package answer
  | some .rejected => { runner with drain := some .finished }
  | _ => runner

def clear : SqliteCoordinatedDesktopSyncRunner :=
  if runner.drain = some .finished then { runner with drain := none } else runner

def next (package : Package) (runner : SqliteCoordinatedDesktopSyncRunner) :
    Action → SqliteCoordinatedDesktopSyncRunner
  | .wake reason signalled answer => runner.wake package reason signalled answer
  | .close => runner.close
  | .awake answer => runner.awake package answer
  | .abortSleep => runner.abortSleep package
  | .timeout => runner.timeout
  | .settle ok released answer => runner.settle package ok released answer
  | .released => runner.released
  | .resume throwsAt answer => runner.resume package throwsAt answer
  | .clear => runner.clear

end SqliteCoordinatedDesktopSyncRunner

def executes (drain : Option DrainPhase) : Bool := drain.any (· ≠ .finished)

namespace SqliteCoordinatedDesktopSyncRunner

/-- `runUntilReleased` has thrown, or the outcome callback throws. -/
def Throws (runner : SqliteCoordinatedDesktopSyncRunner) (throwsAt : Option ℕ) : Prop :=
  runner.drain = some .rejected ∨
    ∃ produced last, runner.drain = some (.settled produced) ∧ throwsAt = some last ∧
      last < produced.length

/-- No wake is accepted between the end of a drain's loop and the clearing of its marker, and a drain
that throws leaves nothing pending behind. -/
def LeavesNone (runner : SqliteCoordinatedDesktopSyncRunner) : Action → Prop
  | .wake _ signalled _ => runner.closed = false → signalled = true → runner.drain ≠ some .finished
  | .resume throwsAt _ => runner.Throws throwsAt → runner.wakes.pendingReasons = []
  | _ => True

def NeverStrands (runner : SqliteCoordinatedDesktopSyncRunner) : Prop :=
  Unstranded (executes runner.drain) runner.closed runner.wakes

/-- A drain executes, or nothing is pending. -/
def Minded (runner : SqliteCoordinatedDesktopSyncRunner) : Prop :=
  executes runner.drain = true ∨ runner.wakes.pendingReasons = []

end SqliteCoordinatedDesktopSyncRunner

/-- Holds in every run. -/
def Ready (runner : SqliteCoordinatedDesktopSyncRunner) : Prop := Sound runner.closed runner.wakes

variable {package : Package} {runner : SqliteCoordinatedDesktopSyncRunner}

/-- The runner is ready, and its drain executes. -/
def Executing (runner : SqliteCoordinatedDesktopSyncRunner) : Prop :=
  Ready runner ∧ executes runner.drain = true

theorem Executing.minded (hexecuting : Executing runner) : runner.Minded := .inl hexecuting.2

theorem Ready.at (hready : Ready runner) {phase : DrainPhase} (hphase : phase ≠ .finished) :
    Executing { runner with drain := some phase } :=
  ⟨hready, by simp [executes, hphase]⟩

theorem Ready.absorb (hready : Ready runner) (package : Package) (reasons : List DesktopWakeReason)
    {andThen : List DesktopWakeReason → DrainPhase} (hphase : ∀ taken, andThen taken ≠ .finished) :
    Executing (runner.absorb package reasons andThen) :=
  ⟨hready.take package reasons, by simp [SqliteCoordinatedDesktopSyncRunner.absorb, executes, hphase]⟩

theorem Ready.acquire (hready : Ready runner) (package : Package) (reasons : List DesktopWakeReason)
    (answer : AcquireAnswer) : Executing (runner.acquire package reasons answer) := by
  unfold SqliteCoordinatedDesktopSyncRunner.acquire
  split
  · exact hready.at (by simp)
  · exact hready.at (by simp)
  · exact hready.absorb package reasons (by simp)
  · exact hready.at (by simp)
  · exact hready.at (by simp)

theorem Ready.tryAcquire (hready : Ready runner) (package : Package)
    (reasons : List DesktopWakeReason) (answer : AcquireAnswer) :
    Executing (runner.tryAcquire package reasons answer) := by
  have htaken : Ready { runner with wakes := runner.wakes.take package reasons } :=
    hready.take package reasons
  unfold SqliteCoordinatedDesktopSyncRunner.tryAcquire
  split
  · dsimp only
    split
    · exact htaken.at (by simp)
    · exact htaken.acquire package _ answer
  · exact hready.acquire package reasons answer

theorem Ready.drainPending (hready : Ready runner) (package : Package) (answer : AcquireAnswer) :
    Ready (runner.drainPending package answer) ∧ (runner.drainPending package answer).Minded := by
  unfold SqliteCoordinatedDesktopSyncRunner.drainPending
  split
  · have htaken : Ready { runner with wakes := runner.wakes.take package [] } :=
      hready.take package []
    have hexecuting := htaken.tryAcquire package (package.sorted (runner.wakes.absorb [])) answer
    exact ⟨hexecuting.1, hexecuting.minded⟩
  · next hhead =>
    refine ⟨hready, .inr ?_⟩
    cases hclosed : runner.closed with
    | true => exact hready.cleared hclosed
    | false => simpa [hclosed] using hhead

theorem Ready.wake (hready : Ready runner) (package : Package) (reason : DesktopWakeReason)
    (signalled : Bool) (answer : AcquireAnswer) :
    Ready (runner.wake package reason signalled answer) ∧
      (runner.Minded → ((runner.wake package reason signalled answer).Minded ↔
        (runner.closed = false → signalled = true → runner.drain ≠ some .finished))) := by
  unfold SqliteCoordinatedDesktopSyncRunner.wake
  split
  · next hclosed =>
    refine ⟨hready, fun hminded => iff_of_true hminded fun hopen => ?_⟩
    rw [hclosed] at hopen
    cases hopen
  · next hopen =>
    rw [Bool.not_eq_true] at hopen
    cases signalled with
    | false =>
      simp only [Bool.not_false, if_true]
      split
      · exact ⟨hready, fun hminded => iff_of_true hminded fun _ h => by cases h⟩
      · exact ⟨hready, fun hminded => iff_of_true hminded fun _ h => by cases h⟩
    | true =>
      have hadded : Ready { runner with wakes := runner.wakes.add reason } :=
        Sound.add hready hopen reason
      rw [if_neg (by simp)]
      dsimp only
      split
      · next hdrain =>
        refine ⟨hadded, fun _ => ?_⟩
        obtain ⟨phase, hphase⟩ := Option.isSome_iff_exists.mp hdrain
        have hpending := runner.wakes.add_pending reason
        simp [SqliteCoordinatedDesktopSyncRunner.Minded, executes, hpending, hphase, hopen]
      · next hdrain =>
        obtain ⟨hlater, hminded⟩ := hadded.drainPending package answer
        refine ⟨hlater, fun _ => iff_of_true hminded fun _ _ h => ?_⟩
        rw [h] at hdrain
        exact hdrain rfl

/-- A step that leaves the wakes alone, and the marker where it is. -/
theorem Ready.mapDrain (hready : Ready runner) {change : DrainPhase → DrainPhase}
    (hchange : ∀ phase, change phase = .finished → phase = .finished) :
    Ready { runner with drain := runner.drain.map change } ∧
      (runner.Minded → SqliteCoordinatedDesktopSyncRunner.Minded
        { runner with drain := runner.drain.map change }) := by
  refine ⟨hready, fun hminded => hminded.imp_left fun hexecutes => ?_⟩
  cases hdrain : runner.drain with
  | none =>
    rw [hdrain] at hexecutes
    cases hexecutes
  | some phase =>
    rw [hdrain] at hexecutes
    have hphase : phase ≠ .finished := by simpa [executes] using hexecutes
    simpa [executes] using fun h => hphase (hchange phase h)

theorem abort_finished (phase : DrainPhase)
    (h : SqliteCoordinatedDesktopSyncRunner.abort phase = .finished) : phase = .finished := by
  cases phase with
  | cycling => cases h
  | _ => exact h

theorem Ready.close (hready : Ready runner) :
    Ready runner.close ∧ (runner.Minded → runner.close.Minded) := by
  unfold SqliteCoordinatedDesktopSyncRunner.close
  split
  · exact ⟨hready, id⟩
  · exact ⟨Sound.close runner.wakes, fun _ => .inr rfl⟩

theorem Ready.awake (hready : Ready runner) (package : Package) (answer : AcquireAnswer) :
    Ready (runner.awake package answer) ∧ (runner.Minded → (runner.awake package answer).Minded) := by
  unfold SqliteCoordinatedDesktopSyncRunner.awake
  split
  · next reasons _ =>
    have hexecuting := hready.tryAcquire package reasons answer
    exact ⟨hexecuting.1, fun _ => hexecuting.minded⟩
  · exact ⟨hready, id⟩

theorem Ready.abortSleep (hready : Ready runner) (package : Package) :
    Ready (runner.abortSleep package) ∧
      (runner.Minded → (runner.abortSleep package).Minded) := by
  unfold SqliteCoordinatedDesktopSyncRunner.abortSleep
  split
  · split
    · exact ⟨hready, fun _ => .inl rfl⟩
    · exact ⟨hready, id⟩
  · exact ⟨hready, id⟩

theorem Ready.complete (hready : Ready runner) (package : Package)
    (reasons : List DesktopWakeReason) (produced : List SqliteDesktopSyncOutcome)
    (answer : CompleteAnswer) : Executing (runner.complete package reasons produced answer) := by
  unfold SqliteCoordinatedDesktopSyncRunner.complete
  cases answer with
  | throws => exact hready.at (by simp)
  | released => exact hready.at (by simp)
  | renewThrows => exact hready.absorb package reasons (by simp)
  | renewRefused => exact hready.absorb package reasons (by simp)
  | renewed => exact hready.absorb package reasons (by simp)

theorem Ready.settle (hready : Ready runner) (package : Package) (ok released : Bool)
    (answer : CompleteAnswer) :
    Ready (runner.settle package ok released answer) ∧
      (runner.Minded → (runner.settle package ok released answer).Minded) := by
  unfold SqliteCoordinatedDesktopSyncRunner.settle
  split
  · next reasons produced aborted _ =>
    split
    · have hexecuting := hready.complete package reasons produced answer
      exact ⟨hexecuting.1, fun _ => hexecuting.minded⟩
    · refine ⟨hready, fun _ => .inl ?_⟩
      cases package.awaitsRelease <;> rfl
  · exact ⟨hready, id⟩

theorem Ready.released (hready : Ready runner) :
    Ready runner.released ∧ (runner.Minded → runner.released.Minded) := by
  unfold SqliteCoordinatedDesktopSyncRunner.released
  split
  · exact ⟨hready, fun _ => .inl rfl⟩
  · exact ⟨hready, id⟩

theorem Ready.resume (hready : Ready runner) (package : Package) (throwsAt : Option ℕ)
    (answer : AcquireAnswer) :
    Ready (runner.resume package throwsAt answer) ∧
      (runner.Minded → ((runner.resume package throwsAt answer).Minded ↔
        (runner.Throws throwsAt → runner.wakes.pendingReasons = []))) := by
  -- a drain that throws ends here, whatever is pending
  have ended : ∀ outcomes, runner.Throws throwsAt →
      (SqliteCoordinatedDesktopSyncRunner.Minded { runner with drain := some .finished, outcomes } ↔
        (runner.Throws throwsAt → runner.wakes.pendingReasons = [])) := by
    intro outcomes hthrows
    simp [SqliteCoordinatedDesktopSyncRunner.Minded, executes, hthrows]
  unfold SqliteCoordinatedDesktopSyncRunner.resume
  split
  · next produced hdrain =>
    split
    · next last hlast =>
      obtain ⟨hthrow, hbound⟩ := Option.filter_eq_some_iff.mp hlast
      exact ⟨hready, fun _ => ended _ (.inr ⟨produced, last, hdrain, hthrow, by simpa using hbound⟩)⟩
    · next hnone =>
      have hreported : Ready { runner with outcomes := runner.outcomes ++ produced } := hready
      obtain ⟨hlater, hminded⟩ := hreported.drainPending package answer
      refine ⟨hlater, fun _ => iff_of_true hminded ?_⟩
      rintro (hrejected | ⟨others, last, hsettled, hthrow, hbound⟩)
      · rw [hdrain] at hrejected
        cases hrejected
      · cases hdrain.symm.trans hsettled
        rw [hthrow, Option.filter_some, if_pos (by simpa using hbound)] at hnone
        cases hnone
  · next hdrain => exact ⟨hready, fun _ => ended _ (.inl hdrain)⟩
  · next hsettled hrejected =>
    refine ⟨hready, fun hminded => iff_of_true hminded ?_⟩
    rintro (hdrain | ⟨produced, last, hdrain, -⟩)
    · exact absurd hdrain hrejected
    · exact absurd hdrain (hsettled produced)

theorem Ready.clear (hready : Ready runner) :
    Ready runner.clear ∧ (runner.Minded → runner.clear.Minded) := by
  unfold SqliteCoordinatedDesktopSyncRunner.clear
  split
  · next hdrain =>
    refine ⟨hready, fun hminded => .inr ?_⟩
    rw [SqliteCoordinatedDesktopSyncRunner.Minded, hdrain] at hminded
    exact hminded.resolve_left (by simp [executes])
  · exact ⟨hready, id⟩

theorem Ready.next (hready : Ready runner) (package : Package) (action : Action) :
    Ready (runner.next package action) ∧
      (runner.Minded → ((runner.next package action).Minded ↔ runner.LeavesNone action)) := by
  have kept : ∀ {later : SqliteCoordinatedDesktopSyncRunner},
      Ready later ∧ (runner.Minded → later.Minded) →
        Ready later ∧ (runner.Minded → (later.Minded ↔ True)) := by
    rintro later ⟨hlater, hminded⟩
    exact ⟨hlater, fun h => iff_of_true (hminded h) trivial⟩
  cases action with
  | wake reason signalled answer => exact hready.wake package reason signalled answer
  | close => exact kept hready.close
  | awake answer => exact kept (hready.awake package answer)
  | abortSleep => exact kept (hready.abortSleep package)
  | timeout => exact kept (hready.mapDrain abort_finished)
  | settle ok released answer => exact kept (hready.settle package ok released answer)
  | released => exact kept hready.released
  | resume throwsAt answer => exact hready.resume package throwsAt answer
  | clear => exact kept hready.clear

theorem sqlite_strands_none_iff (package : Package) (actions : List Action) :
    StatesMeet (SqliteCoordinatedDesktopSyncRunner.next package)
        SqliteCoordinatedDesktopSyncRunner.NeverStrands .initial actions ↔
      StepsMeet (SqliteCoordinatedDesktopSyncRunner.next package)
        SqliteCoordinatedDesktopSyncRunner.LeavesNone .initial actions := by
  have hinitial : Ready .initial := Sound.initial
  refine statesMeet_iff_stepsMeet (I := Ready)
    (fun runner action hready => (hready.next package action).1) (fun runner action hready hlaw => ?_)
    hinitial (hinitial.unstranded_iff.mpr (.inr rfl)) actions
  obtain ⟨hlater, hiff⟩ := hready.next package action
  exact hlater.unstranded_iff.trans (hiff (hready.unstranded_iff.mp hlaw))

end Sqlite

/-- In both packages and for both runners, the runs that strand no wake are those that accept none
between the end of a drain's loop and the clearing of its marker, and none of whose drains throws
with a reason pending. -/
theorem runners_strand_none_iff (package : Package) :
    (∀ actions, StatesMeet (DesktopSyncRunner.next package) DesktopSyncRunner.NeverStrands .initial
        actions ↔
      StepsMeet (DesktopSyncRunner.next package) (DesktopSyncRunner.LeavesNone package) .initial
        actions) ∧
    ∀ actions, StatesMeet (Sqlite.SqliteCoordinatedDesktopSyncRunner.next package)
        Sqlite.SqliteCoordinatedDesktopSyncRunner.NeverStrands .initial actions ↔
      StepsMeet (Sqlite.SqliteCoordinatedDesktopSyncRunner.next package)
        Sqlite.SqliteCoordinatedDesktopSyncRunner.LeavesNone .initial actions := by
  exact ⟨desktop_strands_none_iff package, Sqlite.sqlite_strands_none_iff package⟩

/-- A wake between the end of the loop and the clearing of the marker, wakes behind a token factory
that throws, and wakes behind a callback that throws at a failed cycle. -/
theorem wakes_are_stranded :
    (¬ StatesMeet (DesktopSyncRunner.next typeScript) DesktopSyncRunner.NeverStrands .initial
      [.wake .manual true, .acquire .granted, .settle true, .release true, .resume true true,
        .wake .localMutation true, .clear]) ∧
    (¬ StatesMeet (DesktopSyncRunner.next dart) DesktopSyncRunner.NeverStrands .initial
      [.wake .manual false, .wake .localMutation true, .resume true true, .clear]) ∧
    ∀ package ∈ [typeScript, dart],
      ¬ StatesMeet (Sqlite.SqliteCoordinatedDesktopSyncRunner.next package)
        Sqlite.SqliteCoordinatedDesktopSyncRunner.NeverStrands .initial
        [.wake .manual true .acquired, .wake .localMutation true .acquired,
          .settle false true .throws, .released, .resume (some 0) .acquired, .clear] := by
  refine ⟨fun h => ?_, fun h => ?_, fun package hpackage h => ?_⟩
  · have hlast := statesMeet_iff_prefix.mp h _ (List.prefix_refl _)
    exact absurd (hlast rfl rfl).1 (by decide)
  · have hlast := statesMeet_iff_prefix.mp h _ (List.prefix_refl _)
    exact absurd (hlast rfl rfl).1 (by decide)
  · have hlast := statesMeet_iff_prefix.mp h _ (List.prefix_refl _)
    simp only [List.mem_cons, List.not_mem_nil, or_false] at hpackage
    rcases hpackage with rfl | rfl
    · exact absurd (hlast rfl rfl).1 (by decide)
    · exact absurd (hlast rfl rfl).1 (by decide)

end OptoSync.Drain
