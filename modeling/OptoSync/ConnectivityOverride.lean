import OptoSync.Transition

/-!
# The total-offline override

The connectivity watcher behind its lock. `publish_at` and `set_total_offline` take the lock more
than once, and between two of their critical sections those of other threads may come.
-/
namespace OptoSync.Connectivity

inductive ConnectivityState
  | unknown | offline | link | internet
  deriving DecidableEq

inductive ConnectivityMode
  | automatic | offline
  deriving DecidableEq

inductive ConnectivitySource
  | initial | manual | platform | probe | forcedOffline
  deriving DecidableEq

structure ConnectivitySnapshot where
  state : ConnectivityState
  mode : ConnectivityMode
  source : ConnectivitySource
  changedAtMs : ℕ
  verifiedAtMs : Option ℕ
  deriving DecidableEq

/-- What is observed without regard to the override. -/
structure Observation extends ConnectivitySnapshot where
  observed : mode = .automatic

structure WatcherState where
  current : ConnectivitySnapshot
  automatic : Observation

def observation (state : ConnectivityState) (source : ConnectivitySource)
    (changedAtMs observedAtMs : ℕ) : Observation where
  state := state
  mode := .automatic
  source := source
  changedAtMs := changedAtMs
  verifiedAtMs := if state = .internet then some observedAtMs else none
  observed := rfl

def WatcherState.new (initialState : ConnectivityState) (now : ℕ) : WatcherState where
  current := (observation initialState .initial now now).toConnectivitySnapshot
  automatic := observation initialState .initial now now

/-- The first section of `publish_at`. -/
def WatcherState.observe (watcher : WatcherState) (state : ConnectivityState)
    (source : ConnectivitySource) (observedAtMs : ℕ) : WatcherState :=
  let changedAtMs :=
    if watcher.automatic.state = state then watcher.automatic.changedAtMs else observedAtMs
  { watcher with automatic := observation state source changedAtMs observedAtMs }

/-- The candidate of `set_total_offline(true)`. -/
def forcedOffline (now : ℕ) : ConnectivitySnapshot where
  state := .offline
  mode := .offline
  source := .forcedOffline
  changedAtMs := now
  verifiedAtMs := none

/-- The candidate of `set_total_offline(false)`. -/
def Observation.resumed (automatic : Observation) (now : ℕ) : ConnectivitySnapshot :=
  { automatic.toConnectivitySnapshot with changedAtMs := now }

def changed (previous candidate : ConnectivitySnapshot) : Bool :=
  previous.state != candidate.state || previous.mode != candidate.mode

/-- What `transition` makes of its candidate. -/
def settled (previous candidate : ConnectivitySnapshot) : ConnectivitySnapshot :=
  { candidate with
    changedAtMs :=
      if changed previous candidate then candidate.changedAtMs else previous.changedAtMs }

@[simp] theorem settled_mode (previous candidate : ConnectivitySnapshot) :
    (settled previous candidate).mode = candidate.mode := rfl

@[simp] theorem forcedOffline_mode (now : ℕ) : (forcedOffline now).mode = .offline := rfl

@[simp] theorem resumed_mode (automatic : Observation) (now : ℕ) :
    (automatic.resumed now).mode = .automatic := automatic.observed

@[simp] theorem observe_current (watcher : WatcherState) (state : ConnectivityState)
    (source : ConnectivitySource) (observedAtMs : ℕ) :
    (watcher.observe state source observedAtMs).current = watcher.current := rfl

inductive Call
  | publishAt (state : ConnectivityState) (source : ConnectivitySource) (observedAtMs : ℕ)
  | setTotalOffline (enabled : Bool)
  deriving DecidableEq

/-- Where a thread stands between two critical sections. -/
inductive Phase
  | ready (returned : Option ConnectivitySnapshot)
  /-- `publish_at` with `expose`: the transition is next. -/
  | exposing (automatic : Observation)
  /-- `publish_at` without `expose`: the snapshot is next. -/
  | hiding
  /-- `set_total_offline(true)` saw automatic mode: the transition is next. -/
  | enabling
  /-- `set_total_offline(false)` saw the override: reading `automatic` is next. -/
  | disabling
  | resuming (automatic : Observation)

inductive Caller
  | publishAt | setTotalOffline (enabled : Bool)
  deriving DecidableEq

/-- A change handed to the listeners. -/
structure Published where
  caller : Caller
  previous : ConnectivitySnapshot
  next : ConnectivitySnapshot
  /-- What the last `set_total_offline` asked for once the change was made. -/
  totalOffline : Option Bool

/-- A `set_total_offline` counts from its last critical section on. -/
structure System where
  watcher : WatcherState
  thread : ℕ → Phase
  totalOffline : Option Bool
  published : List Published

def System.new (initialState : ConnectivityState) (now : ℕ) : System where
  watcher := .new initialState now
  thread := fun _ => .ready none
  totalOffline := none
  published := []

inductive Event
  | begin (thread : ℕ) (call : Call)
  /-- The next critical section of a thread; `now` is what `now_ms` answered before it. -/
  | proceed (thread : ℕ) (now : ℕ)

namespace System

def moveTo (s : System) (thread : ℕ) (phase : Phase) : System :=
  { s with thread := Function.update s.thread thread phase }

def returning (s : System) (thread : ℕ) : System :=
  s.moveTo thread (.ready (some s.watcher.current))

/-- The critical section of `transition`, and its return. -/
def transition (s : System) (thread : ℕ) (caller : Caller) (candidate : ConnectivitySnapshot)
    (totalOffline : Option Bool) : System :=
  let previous := s.watcher.current
  let next := settled previous candidate
  let published :=
    if changed previous candidate then
      s.published ++ [⟨caller, previous, next, totalOffline⟩]
    else s.published
  returning { s with
    watcher := { s.watcher with current := next }
    totalOffline := totalOffline
    published := published } thread

/-- The first critical section of a call. -/
def start (s : System) (thread : ℕ) (call : Call) : System :=
  match call with
  | .publishAt state source observedAtMs =>
    let watcher := s.watcher.observe state source observedAtMs
    let expose := watcher.current.mode = .automatic
    { s with watcher := watcher }.moveTo thread
      (if expose then .exposing watcher.automatic else .hiding)
  | .setTotalOffline enabled =>
    if enabled = decide (s.watcher.current.mode = .offline) then
      { s with totalOffline := some enabled }.returning thread
    else s.moveTo thread (if enabled then .enabling else .disabling)

def proceed (s : System) (thread now : ℕ) : System :=
  match s.thread thread with
  | .ready _ => s
  | .exposing automatic =>
    s.transition thread .publishAt automatic.toConnectivitySnapshot s.totalOffline
  | .hiding => s.returning thread
  | .enabling => s.transition thread (.setTotalOffline true) (forcedOffline now) (some true)
  | .disabling => s.moveTo thread (.resuming s.watcher.automatic)
  | .resuming automatic =>
    s.transition thread (.setTotalOffline false) (automatic.resumed now) (some false)

/-- A thread begins a call only when it has returned from the one before. -/
def step (s : System) : Event → System
  | .begin thread call =>
    match s.thread thread with
    | .ready _ => s.start thread call
    | _ => s
  | .proceed thread now => s.proceed thread now

end System

/-- Total offline holds: the current mode and every change that was published under it are
offline, and only `set_total_offline(false)` publishes a change out of it. -/
structure OverrideHolds (s : System) : Prop where
  current_offline : s.totalOffline = some true → s.watcher.current.mode = .offline
  published_offline : ∀ p ∈ s.published, p.totalOffline = some true → p.next.mode = .offline
  lifted : ∀ p ∈ s.published, p.previous.mode = .offline → p.next.mode ≠ .offline →
    p.caller = .setTotalOffline false

/-- The step is not the transition of a `publish_at` that an override has overtaken since its first
section. -/
def NotOvertaken (s : System) : Event → Prop
  | .begin _ _ => True
  | .proceed thread _ =>
    ∀ automatic, s.thread thread = .exposing automatic → s.totalOffline ≠ some true

/-- Offline mode is the mark of the override. -/
def ModeMarksOverride (s : System) : Prop :=
  s.watcher.current.mode = .offline → s.totalOffline = some true

section Transition

variable {s : System} {thread : ℕ} {caller : Caller} {candidate : ConnectivitySnapshot}
  {totalOffline : Option Bool}

theorem mem_published_transition {p : Published}
    (hp : p ∈ (s.transition thread caller candidate totalOffline).published) :
    p ∈ s.published ∨
      p = ⟨caller, s.watcher.current, settled s.watcher.current candidate, totalOffline⟩ := by
  have hp' : p ∈ if changed s.watcher.current candidate then
      s.published ++ [⟨caller, s.watcher.current, settled s.watcher.current candidate,
        totalOffline⟩] else s.published := hp
  split at hp'
  · rcases List.mem_append.mp hp' with hold | hnew
    · exact .inl hold
    · exact .inr (List.mem_singleton.mp hnew)
  · exact .inl hp'

theorem ModeMarksOverride.transition
    (h : candidate.mode = .offline → totalOffline = some true) :
    ModeMarksOverride (s.transition thread caller candidate totalOffline) := h

/-- A change keeps the law if its mode agrees with the override in force after it, and the caller
may make it. -/
theorem OverrideHolds.transition (h : OverrideHolds s)
    (hmode : totalOffline = some true → candidate.mode = .offline)
    (hcaller : s.watcher.current.mode = .offline → candidate.mode ≠ .offline →
      caller = .setTotalOffline false) :
    OverrideHolds (s.transition thread caller candidate totalOffline) where
  current_offline := hmode
  published_offline := by
    intro p hp hoverride
    rcases mem_published_transition hp with hold | hnew
    · exact h.published_offline p hold hoverride
    · rw [hnew] at hoverride ⊢
      exact hmode hoverride
  lifted := by
    intro p hp hprevious hnext
    rcases mem_published_transition hp with hold | hnew
    · exact h.lifted p hold hprevious hnext
    · rw [hnew] at hprevious hnext ⊢
      exact hcaller hprevious hnext

end Transition

theorem ModeMarksOverride.start {s : System} (h : ModeMarksOverride s) (thread : ℕ) (call : Call) :
    ModeMarksOverride (s.start thread call) := by
  cases call with
  | publishAt state source observedAtMs => exact h
  | setTotalOffline enabled =>
    unfold System.start
    by_cases henabled : enabled = decide (s.watcher.current.mode = .offline)
    · intro hmode
      simp only [if_pos henabled] at hmode ⊢
      exact congrArg some (henabled.trans (decide_eq_true hmode))
    · simp only [if_neg henabled]
      exact h

theorem OverrideHolds.start {s : System} (h : OverrideHolds s) (thread : ℕ) (call : Call) :
    OverrideHolds (s.start thread call) := by
  cases call with
  | publishAt state source observedAtMs => exact ⟨h.current_offline, h.published_offline, h.lifted⟩
  | setTotalOffline enabled =>
    unfold System.start
    by_cases henabled : enabled = decide (s.watcher.current.mode = .offline)
    · simp only [if_pos henabled]
      refine ⟨fun hoverride => ?_, h.published_offline, h.lifted⟩
      exact of_decide_eq_true (henabled.symm.trans (Option.some.inj hoverride))
    · simp only [if_neg henabled]
      exact ⟨h.current_offline, h.published_offline, h.lifted⟩

theorem ModeMarksOverride.step {s : System} (h : ModeMarksOverride s) (e : Event) :
    ModeMarksOverride (s.step e) := by
  cases e with
  | begin thread call =>
    simp only [System.step]
    cases hphase : s.thread thread with
    | ready returned => exact h.start thread call
    | _ => exact h
  | proceed thread now =>
    simp only [System.step, System.proceed]
    cases hphase : s.thread thread with
    | exposing automatic =>
      exact .transition fun hmode => absurd (automatic.observed.symm.trans hmode) (by decide)
    | enabling => exact .transition fun _ => rfl
    | resuming automatic =>
      exact .transition fun hmode => absurd ((resumed_mode automatic now).symm.trans hmode) (by decide)
    | _ => exact h

/-- From a state where total offline holds, only an overtaken `publish_at` breaks it. -/
theorem OverrideHolds.step_iff {s : System} (hI : ModeMarksOverride s) (h : OverrideHolds s)
    (e : Event) : OverrideHolds (s.step e) ↔ NotOvertaken s e := by
  cases e with
  | begin thread call =>
    refine ⟨fun _ => trivial, fun _ => ?_⟩
    simp only [System.step]
    cases hphase : s.thread thread with
    | ready returned => exact h.start thread call
    | _ => exact h
  | proceed thread now =>
    simp only [System.step, System.proceed, NotOvertaken]
    cases hphase : s.thread thread with
    | exposing automatic =>
      constructor
      · intro hnext published _ hoverride
        have hmode : automatic.mode = .offline := hnext.current_offline hoverride
        rw [automatic.observed] at hmode
        cases hmode
      · intro hovertaken
        have hnone := hovertaken automatic rfl
        exact h.transition (fun hoverride => absurd hoverride hnone)
          fun hoffline _ => absurd (hI hoffline) hnone
    | enabling =>
      refine iff_of_true ?_ fun _ hfalse => by cases hfalse
      exact h.transition (fun _ => rfl) fun _ hmode => absurd rfl hmode
    | resuming automatic =>
      refine iff_of_true ?_ fun _ hfalse => by cases hfalse
      exact h.transition (fun hfalse => by cases hfalse) fun _ _ => rfl
    | _ =>
      refine iff_of_true ?_ fun _ hfalse => by cases hfalse
      exact ⟨h.current_offline, h.published_offline, h.lifted⟩

/-- Total offline holds in every state of a run exactly when no override overtakes a `publish_at`
between its two critical sections. -/
theorem totalOffline_holds_iff (initialState : ConnectivityState) (now : ℕ)
    (events : List Event) :
    Transition.StatesMeet System.step OverrideHolds (.new initialState now) events ↔
      Transition.StepsMeet System.step NotOvertaken (.new initialState now) events := by
  refine Transition.statesMeet_iff_stepsMeet (I := ModeMarksOverride) (fun s e hI => hI.step e)
    (fun s e hI hP => hP.step_iff hI e) ?_ ?_ events
  · intro hmode
    cases hmode
  · refine ⟨fun h => ?_, fun p hp => ?_, fun p hp => ?_⟩
    · cases h
    · cases hp
    · cases hp

/-- A probe's `publish_at` decides to expose its observation, `set_total_offline(true)` runs as a
whole, and the observation becomes the current mode. -/
theorem publishAt_overtaken_lifts_override :
    ¬ Transition.StatesMeet System.step OverrideHolds (.new .unknown 0)
      [.begin 0 (.publishAt .internet .probe 1), .begin 1 (.setTotalOffline true), .proceed 1 2,
        .proceed 0 3] := by
  intro h
  have hmode := h.2.2.2.2.current_offline rfl
  cases hmode

end OptoSync.Connectivity
