import OptoSync.ConnectivityOverride

/-!
# The browser connectivity watcher

`BrowserConnectivityWatcher` of the TypeScript client with a probe URL: browser events, the override,
timers and callers, and one probe at a time. The times of a snapshot and the listeners are left out.
-/
namespace OptoSync.Connectivity.Browser
open Transition

inductive ConnectivitySource
  | initial | manual | browserEvent | probe | forcedOffline
  deriving DecidableEq

structure ConnectivitySnapshot where
  state : ConnectivityState
  mode : ConnectivityMode
  source : ConnectivitySource
  deriving DecidableEq

/-- Between its settlement and its end a probe has two reactions. -/
inductive ProbePhase
  | fetching
  | settled (ok : Bool)
  | published
  deriving DecidableEq

structure Probe where
  id : ℕ
  /-- The offline events and overrides before it started. -/
  epoch : ℕ
  aborted : Bool
  /-- `cancelProbe` aborted it. -/
  cancelled : Bool
  phase : ProbePhase
  deriving DecidableEq

/-- An initial state of internet would be the application's own. -/
structure BrowserConnectivityWatcherOptions where
  initialState : ConnectivityState
  unverified : initialState ≠ .internet
  initialMode : ConnectivityMode
  probeIntervalMs : ℕ

structure BrowserConnectivityWatcher where
  current : ConnectivitySnapshot
  automatic : ConnectivitySnapshot
  started : Bool
  timer : Bool
  /-- `navigator.onLine` is not false. -/
  onLine : Bool
  probePromise : Option Probe
  probeController : Option ℕ
  probes : ℕ
  /-- The offline events and overrides so far. -/
  epoch : ℕ
  /-- The epochs of the probes that succeeded. -/
  succeeded : List ℕ
  /-- For each refresh in automatic mode with the link up: its probe was already cancelled. -/
  answers : List Bool

inductive Action
  | start | stop | online | offline
  | setMode (mode : ConnectivityMode)
  | tick | refresh
  /-- The browser's flag changes. -/
  | link (onLine : Bool)
  /-- The fetch settles. -/
  | settle (ok : Bool)
  | timeout
  /-- The reaction to the settlement. -/
  | react
  /-- The reaction that ends the probe. -/
  | finish

namespace BrowserConnectivityWatcher

def initial (options : BrowserConnectivityWatcherOptions) (onLine : Bool) :
    BrowserConnectivityWatcher where
  current := match options.initialMode with
    | .automatic => ⟨options.initialState, .automatic, .initial⟩
    | .offline => ⟨.offline, .offline, .forcedOffline⟩
  automatic := ⟨options.initialState, .automatic, .initial⟩
  started := false
  timer := false
  onLine := onLine
  probePromise := none
  probeController := none
  probes := 0
  epoch := 0
  succeeded := []
  answers := []

def publish (watcher : BrowserConnectivityWatcher) (state : ConnectivityState)
    (source : ConnectivitySource) : BrowserConnectivityWatcher :=
  let watcher := { watcher with automatic := ⟨state, .automatic, source⟩ }
  if watcher.current.mode = .automatic then
    { watcher with current := ⟨state, .automatic, source⟩ }
  else watcher

/-- The link as the browser shows it. -/
def linkState (watcher : BrowserConnectivityWatcher) : ConnectivityState :=
  if watcher.onLine then .link else .offline

def cancelProbe (watcher : BrowserConnectivityWatcher) : BrowserConnectivityWatcher :=
  { watcher with
    probeController := none
    probePromise := watcher.probePromise.map fun probe =>
      if watcher.probeController = some probe.id then
        { probe with aborted := true, cancelled := true }
      else probe }

def refresh (watcher : BrowserConnectivityWatcher) : BrowserConnectivityWatcher :=
  if watcher.current.mode = .offline then watcher
  else if !watcher.onLine then watcher.publish .offline .browserEvent
  else
    match watcher.probePromise with
    | some probe => { watcher with answers := watcher.answers ++ [probe.cancelled] }
    | none =>
      { watcher with
        probePromise := some ⟨watcher.probes, watcher.epoch, false, false, .fetching⟩
        probeController := some watcher.probes
        probes := watcher.probes + 1
        answers := watcher.answers ++ [false] }

section
variable (probeIntervalMs : ℕ)

def schedulePeriodicProbe (watcher : BrowserConnectivityWatcher) : BrowserConnectivityWatcher :=
  if watcher.timer || !watcher.started || watcher.current.mode = .offline || probeIntervalMs = 0 then
    watcher
  else { watcher with timer := true }

def observeBrowserLink (watcher : BrowserConnectivityWatcher) : BrowserConnectivityWatcher :=
  if watcher.current.mode = .offline then watcher
  else watcher.publish watcher.linkState .browserEvent

def start (watcher : BrowserConnectivityWatcher) : BrowserConnectivityWatcher :=
  if watcher.started then watcher
  else
    let watcher := ({ watcher with started := true }).observeBrowserLink
    (watcher.schedulePeriodicProbe probeIntervalMs).refresh

def stop (watcher : BrowserConnectivityWatcher) : BrowserConnectivityWatcher :=
  if watcher.started then { ({ watcher with started := false }).cancelProbe with timer := false }
  else watcher

def handleOnline (watcher : BrowserConnectivityWatcher) : BrowserConnectivityWatcher :=
  if watcher.current.mode = .offline then watcher
  else (watcher.publish .link .browserEvent).refresh

def handleOffline (watcher : BrowserConnectivityWatcher) : BrowserConnectivityWatcher :=
  let watcher := { watcher with epoch := watcher.epoch + 1 }
  if watcher.current.mode = .offline then watcher
  else watcher.cancelProbe.publish .offline .browserEvent

def setMode (watcher : BrowserConnectivityWatcher) (mode : ConnectivityMode) :
    BrowserConnectivityWatcher :=
  if mode = watcher.current.mode then watcher
  else
    match mode with
    | .offline =>
      let watcher := { watcher with
        current := ⟨.offline, .offline, .forcedOffline⟩, epoch := watcher.epoch + 1 }
      { watcher.cancelProbe with timer := false }
    | .automatic =>
      let watcher := watcher.publish watcher.linkState .browserEvent
      let watcher := { watcher with current := watcher.automatic }
      if watcher.started then (watcher.schedulePeriodicProbe probeIntervalMs).refresh else watcher

/-- A fetch whose signal was aborted only fails. -/
def settle (watcher : BrowserConnectivityWatcher) (ok : Bool) : BrowserConnectivityWatcher :=
  match watcher.probePromise with
  | some probe =>
    if probe.phase = .fetching then
      { watcher with probePromise := some { probe with phase := .settled (ok && !probe.aborted) } }
    else watcher
  | none => watcher

/-- The time of a probe is up. -/
def timeout (watcher : BrowserConnectivityWatcher) : BrowserConnectivityWatcher :=
  { watcher with probePromise := watcher.probePromise.map ({ · with aborted := true }) }

def react (watcher : BrowserConnectivityWatcher) : BrowserConnectivityWatcher :=
  match watcher.probePromise with
  | some probe =>
    match probe.phase with
    | .settled ok =>
      let watcher := { watcher with
        probePromise := some { probe with phase := .published }
        succeeded := if ok then watcher.succeeded ++ [probe.epoch] else watcher.succeeded }
      if watcher.current.mode = .automatic then
        watcher.publish (if ok then .internet else watcher.linkState) .probe
      else watcher
    | _ => watcher
  | none => watcher

def finish (watcher : BrowserConnectivityWatcher) : BrowserConnectivityWatcher :=
  match watcher.probePromise with
  | some probe =>
    if probe.phase = .published then
      { watcher with
        probePromise := none
        probeController :=
          if watcher.probeController = some probe.id then none else watcher.probeController }
    else watcher
  | none => watcher

/-- The browser's events reach a watcher that is started. -/
def next (watcher : BrowserConnectivityWatcher) : Action → BrowserConnectivityWatcher
  | .start => watcher.start probeIntervalMs
  | .stop => watcher.stop
  | .online => if watcher.started then watcher.handleOnline else watcher
  | .offline => if watcher.started then watcher.handleOffline else watcher
  | .setMode mode => watcher.setMode probeIntervalMs mode
  | .tick => if watcher.timer then watcher.refresh else watcher
  | .refresh => watcher.refresh
  | .link onLine => { watcher with onLine }
  | .settle ok => watcher.settle ok
  | .timeout => watcher.timeout
  | .react => watcher.react
  | .finish => watcher.finish

end

/-- The state is internet after a probe of this epoch has succeeded only, and every refresh has had
the answer of a probe that was not cancelled before. -/
structure Verified (watcher : BrowserConnectivityWatcher) : Prop where
  internet : watcher.current.state = .internet → watcher.epoch ∈ watcher.succeeded
  answered : ∀ cancelled ∈ watcher.answers, cancelled = false

/-- The action makes a refresh in automatic mode with the link up. -/
def Refreshes (watcher : BrowserConnectivityWatcher) : Action → Prop
  | .start => watcher.started = false ∧ watcher.current.mode = .automatic ∧ watcher.onLine = true
  | .online => watcher.started = true ∧ watcher.current.mode = .automatic ∧ watcher.onLine = true
  | .setMode mode => mode = .automatic ∧ watcher.current.mode = .offline ∧ watcher.started = true ∧
      watcher.onLine = true
  | .tick => watcher.timer = true ∧ watcher.current.mode = .automatic ∧ watcher.onLine = true
  | .refresh => watcher.current.mode = .automatic ∧ watcher.onLine = true
  | _ => False

/-- A refresh finds no cancelled probe, and in automatic mode no success of a probe from before the
last offline event or override is published. -/
structure Fresh (watcher : BrowserConnectivityWatcher) (action : Action) : Prop where
  refreshes : watcher.Refreshes action → ∀ probe, watcher.probePromise = some probe →
    probe.cancelled = false
  publishes : action = .react → watcher.current.mode = .automatic →
    ∀ probe, watcher.probePromise = some probe → probe.phase = .settled true →
      probe.epoch = watcher.epoch

/-! ## What every interleaving keeps -/

structure Inv (watcher : BrowserConnectivityWatcher) : Prop where
  forced : watcher.current.mode = .offline → watcher.current.state ≠ .internet
  automatic : watcher.automatic.mode = .automatic
  controlled : ∀ probe, watcher.probePromise = some probe → probe.cancelled = false →
    watcher.probeController = some probe.id
  live : ∀ probe, watcher.probePromise = some probe → probe.cancelled = false →
    watcher.current.mode = .automatic ∧ probe.epoch = watcher.epoch
  older : ∀ probe, watcher.probePromise = some probe →
    probe.epoch ≤ watcher.epoch ∧ ∀ epoch ∈ watcher.succeeded, epoch ≤ probe.epoch
  past : ∀ epoch ∈ watcher.succeeded, epoch ≤ watcher.epoch

section
variable {watcher later : BrowserConnectivityWatcher}

/-- A publication leaves the probe and its answers. -/
theorem publish_frame (state : ConnectivityState) (source : ConnectivitySource) :
    ∃ current automatic, automatic.mode = .automatic ∧ current.mode = watcher.current.mode ∧
      (current = watcher.current ∨ current.mode = .automatic ∧ current.state = state) ∧
      watcher.publish state source = { watcher with current, automatic } := by
  rw [publish]
  split
  · next h => exact ⟨_, _, rfl, h.symm, .inr ⟨rfl, rfl⟩, rfl⟩
  · exact ⟨watcher.current, _, rfl, rfl, .inl rfl, rfl⟩

theorem Inv.publish (h : Inv watcher) (state : ConnectivityState) (source : ConnectivitySource) :
    Inv (watcher.publish state source) := by
  obtain ⟨current, automatic, hautomatic, hmode, hcurrent, hpublish⟩ :=
    @publish_frame watcher state source
  rw [hpublish]
  refine ⟨?_, hautomatic, h.controlled, ?_, h.older, h.past⟩
  · intro hoffline
    rcases hcurrent with hsame | ⟨hnew, -⟩
    · rw [hsame] at hoffline ⊢
      exact h.forced hoffline
    · exact absurd (hnew.symm.trans hoffline) (by decide)
  · intro probe hprobe hlive
    obtain ⟨hold, hepoch⟩ := h.live probe hprobe hlive
    exact ⟨hmode.trans hold, hepoch⟩

theorem Verified.publish (h : Verified watcher) {state : ConnectivityState}
    (hstate : state ≠ .internet) (source : ConnectivitySource) :
    Verified (watcher.publish state source) := by
  obtain ⟨current, automatic, -, -, hcurrent, hpublish⟩ := @publish_frame watcher state source
  rw [hpublish]
  refine ⟨fun hinternet => ?_, h.answered⟩
  rcases hcurrent with hsame | ⟨-, hnew⟩
  · exact h.internet (hsame ▸ hinternet)
  · exact absurd (hnew.symm.trans hinternet) hstate

/-- In automatic mode what is published is the state. -/
theorem verified_publish (hmode : watcher.current.mode = .automatic) {state : ConnectivityState}
    (hstate : state ≠ .internet) {source : ConnectivitySource}
    (hanswers : ∀ cancelled ∈ watcher.answers, cancelled = false) :
    Verified (watcher.publish state source) := by
  rw [BrowserConnectivityWatcher.publish]
  split
  · exact ⟨fun hinternet => absurd hinternet hstate, hanswers⟩
  · next hother => exact absurd hmode hother

theorem linkState_ne : watcher.linkState ≠ .internet := by
  rw [linkState]
  split <;> decide

theorem Inv.refresh (h : Inv watcher) : Inv watcher.refresh := by
  rw [BrowserConnectivityWatcher.refresh]
  split
  · exact h
  · next hmode =>
    split
    · exact h.publish _ _
    · split
      · exact ⟨h.forced, h.automatic, h.controlled, h.live, h.older, h.past⟩
      · refine ⟨h.forced, h.automatic, ?_, ?_, ?_, h.past⟩
        · rintro _ ⟨⟩ _
          rfl
        · rintro _ ⟨⟩ _
          refine ⟨?_, rfl⟩
          cases hnow : watcher.current.mode with
          | automatic => rfl
          | offline => exact absurd hnow hmode
        · rintro _ ⟨⟩
          exact ⟨le_rfl, h.past⟩

/-- Whoever refreshes in automatic mode with the link up has the answer of the probe in flight. -/
theorem Verified.refresh_iff (h : Verified watcher) : Verified watcher.refresh ↔
    (watcher.current.mode = .automatic ∧ watcher.onLine = true →
      ∀ probe, watcher.probePromise = some probe → probe.cancelled = false) := by
  rw [BrowserConnectivityWatcher.refresh]
  split
  · next hmode =>
    refine iff_of_true h fun hlink => ?_
    rw [hmode] at hlink
    cases hlink.1
  · next hmode =>
    split
    · next honLine =>
      refine iff_of_true (h.publish (by decide) _) fun hlink => ?_
      rw [hlink.2] at honLine
      cases honLine
    · next honLine =>
      have hlink : watcher.current.mode = .automatic ∧ watcher.onLine = true := by
        refine ⟨?_, by simpa using honLine⟩
        cases hnow : watcher.current.mode with
        | automatic => rfl
        | offline => exact absurd hnow hmode
      split
      · next probe hprobe =>
        constructor
        · intro hnext _ other hother
          rw [hprobe] at hother
          cases hother
          exact hnext.answered _ (List.mem_append_right _ (List.mem_singleton_self _))
        · intro hfresh
          refine ⟨h.internet, fun cancelled hmem => ?_⟩
          rcases List.mem_append.mp hmem with hold | hnew
          · exact h.answered cancelled hold
          · rw [List.mem_singleton.mp hnew]
            exact hfresh hlink probe hprobe
      · next hnone =>
        refine iff_of_true ⟨h.internet, fun cancelled hmem => ?_⟩ fun _ probe hprobe => ?_
        · rcases List.mem_append.mp hmem with hold | hnew
          · exact h.answered cancelled hold
          · exact List.mem_singleton.mp hnew
        · rw [hnone] at hprobe
          cases hprobe

/-- The probe in flight is cancelled, and is the one it was. -/
theorem Inv.cancelProbe (h : Inv watcher) {probe : Probe}
    (hprobe : watcher.cancelProbe.probePromise = some probe) :
    probe.cancelled = true ∧ ∃ before, watcher.probePromise = some before ∧
      probe.epoch = before.epoch := by
  rw [BrowserConnectivityWatcher.cancelProbe, Option.map_eq_some_iff] at hprobe
  obtain ⟨before, hbefore, hprobe⟩ := hprobe
  split at hprobe
  · rw [← hprobe]
    exact ⟨rfl, before, hbefore, rfl⟩
  · next hother =>
    rw [← hprobe]
    refine ⟨?_, before, hbefore, rfl⟩
    by_contra hlive
    exact hother (h.controlled before hbefore (Bool.eq_false_iff.mpr hlive))

/-- All that a cancellation leaves to check is what it is made for. -/
theorem Inv.cancelled (h : Inv watcher) (hcurrent : later.current.mode = .offline →
      later.current.state ≠ .internet) (hautomatic : later.automatic.mode = .automatic)
    (hprobe : later.probePromise = watcher.cancelProbe.probePromise)
    (hepoch : watcher.epoch ≤ later.epoch) (hsucceeded : later.succeeded = watcher.succeeded) :
    Inv later := by
  refine ⟨hcurrent, hautomatic, ?_, ?_, ?_, ?_⟩
  · intro probe hnow hlive
    rw [hprobe] at hnow
    exact absurd ((h.cancelProbe hnow).1.symm.trans hlive) (by decide)
  · intro probe hnow hlive
    rw [hprobe] at hnow
    exact absurd ((h.cancelProbe hnow).1.symm.trans hlive) (by decide)
  · intro probe hnow
    rw [hprobe] at hnow
    obtain ⟨-, before, hbefore, hsame⟩ := h.cancelProbe hnow
    rw [hsame, hsucceeded]
    exact ⟨(h.older before hbefore).1.trans hepoch, (h.older before hbefore).2⟩
  · intro epoch hmem
    rw [hsucceeded] at hmem
    exact (h.past epoch hmem).trans hepoch

theorem Inv.stop (h : Inv watcher) : Inv watcher.stop := by
  rw [BrowserConnectivityWatcher.stop]
  split
  · exact h.cancelled h.forced h.automatic rfl le_rfl rfl
  · exact h

theorem Inv.handleOffline (h : Inv watcher) : Inv watcher.handleOffline := by
  have hcancelled : Inv ({ watcher with epoch := watcher.epoch + 1 }).cancelProbe :=
    h.cancelled h.forced h.automatic rfl (Nat.le_succ _) rfl
  rw [BrowserConnectivityWatcher.handleOffline]
  split
  · next hmode =>
    refine ⟨h.forced, h.automatic, h.controlled, ?_, ?_, ?_⟩
    · intro probe hprobe hlive
      have hmode : watcher.current.mode = .offline := hmode
      rw [(h.live probe hprobe hlive).1] at hmode
      cases hmode
    · intro probe hprobe
      exact ⟨(h.older probe hprobe).1.trans (Nat.le_succ _), (h.older probe hprobe).2⟩
    · intro epoch hmem
      exact (h.past epoch hmem).trans (Nat.le_succ _)
  · exact hcancelled.publish _ _

theorem Inv.schedulePeriodicProbe (h : Inv watcher) (probeIntervalMs : ℕ) :
    Inv (watcher.schedulePeriodicProbe probeIntervalMs) := by
  rw [BrowserConnectivityWatcher.schedulePeriodicProbe]
  split
  · exact h
  · exact ⟨h.forced, h.automatic, h.controlled, h.live, h.older, h.past⟩

theorem Inv.started (h : Inv watcher) : Inv ({ watcher with started := true }).observeBrowserLink := by
  have hstarted : Inv { watcher with started := true } :=
    ⟨h.forced, h.automatic, h.controlled, h.live, h.older, h.past⟩
  rw [observeBrowserLink]
  split
  · exact hstarted
  · exact hstarted.publish _ _

theorem Inv.restored (h : Inv watcher) (state : ConnectivityState) (source : ConnectivitySource) :
    Inv { watcher.publish state source with current := (watcher.publish state source).automatic } := by
  have hpublished := h.publish state source
  refine ⟨?_, hpublished.automatic, hpublished.controlled, ?_, hpublished.older, hpublished.past⟩
  · intro hoffline
    exact absurd (hpublished.automatic.symm.trans hoffline) (by decide)
  · intro probe hprobe hlive
    exact ⟨hpublished.automatic, (hpublished.live probe hprobe hlive).2⟩

theorem Inv.setMode (h : Inv watcher) (probeIntervalMs : ℕ) (mode : ConnectivityMode) :
    Inv (watcher.setMode probeIntervalMs mode) := by
  unfold BrowserConnectivityWatcher.setMode
  split
  · exact h
  · cases mode with
    | offline =>
      refine h.cancelled (fun _ => ?_) h.automatic rfl (Nat.le_succ _) rfl
      exact ConnectivityState.noConfusion
    | automatic =>
      simp only
      split
      · exact ((h.restored _ _).schedulePeriodicProbe probeIntervalMs).refresh
      · exact h.restored _ _

theorem Inv.start (h : Inv watcher) (probeIntervalMs : ℕ) : Inv (watcher.start probeIntervalMs) := by
  rw [BrowserConnectivityWatcher.start]
  split
  · exact h
  · exact (h.started.schedulePeriodicProbe probeIntervalMs).refresh

/-- The probe in flight goes on. -/
theorem Inv.proceed (h : Inv watcher) {probe after : Probe}
    (hprobe : watcher.probePromise = some probe) (hid : after.id = probe.id)
    (hepoch : after.epoch = probe.epoch) (hcancelled : after.cancelled = probe.cancelled) :
    Inv { watcher with probePromise := some after } := by
  refine ⟨h.forced, h.automatic, ?_, ?_, ?_, h.past⟩
  · rintro _ ⟨⟩ hlive
    rw [hid]
    exact h.controlled probe hprobe (hcancelled.symm.trans hlive)
  · rintro _ ⟨⟩ hlive
    rw [hepoch]
    exact h.live probe hprobe (hcancelled.symm.trans hlive)
  · rintro _ ⟨⟩
    rw [hepoch]
    exact h.older probe hprobe

theorem Inv.settle (h : Inv watcher) (ok : Bool) : Inv (watcher.settle ok) := by
  rw [BrowserConnectivityWatcher.settle]
  split
  · next probe hprobe =>
    split
    · exact h.proceed hprobe rfl rfl rfl
    · exact h
  · exact h

theorem Inv.timeout (h : Inv watcher) : Inv watcher.timeout := by
  rw [BrowserConnectivityWatcher.timeout]
  cases hprobe : watcher.probePromise with
  | none =>
    have hsame : { watcher with probePromise := none } = watcher := by rw [← hprobe]
    exact hsame ▸ h
  | some probe => exact h.proceed hprobe rfl rfl rfl

theorem Inv.react (h : Inv watcher) : Inv watcher.react := by
  rw [BrowserConnectivityWatcher.react]
  split
  · next probe hprobe =>
    split
    · next ok _ =>
      obtain ⟨hepoch, hpast⟩ := h.older probe hprobe
      have hreacted : Inv { watcher with
          probePromise := some { probe with phase := .published }
          succeeded := if ok then watcher.succeeded ++ [probe.epoch] else watcher.succeeded } := by
        have hproceed : Inv { watcher with probePromise := some { probe with phase := .published } } :=
          h.proceed hprobe rfl rfl rfl
        have hsucceeded : ∀ epoch ∈ (if ok then watcher.succeeded ++ [probe.epoch]
            else watcher.succeeded), epoch ≤ probe.epoch := by
          intro epoch hmem
          split at hmem
          · rcases List.mem_append.mp hmem with hold | hnew
            · exact hpast epoch hold
            · exact (List.mem_singleton.mp hnew).le
          · exact hpast epoch hmem
        refine ⟨h.forced, h.automatic, hproceed.controlled, hproceed.live, ?_, ?_⟩
        · rintro _ ⟨⟩
          exact ⟨hepoch, hsucceeded⟩
        · intro epoch hmem
          exact (hsucceeded epoch hmem).trans hepoch
      simp only
      split
      · exact hreacted.publish _ _
      · exact hreacted
    · exact h
  · exact h

theorem Inv.finish (h : Inv watcher) : Inv watcher.finish := by
  rw [BrowserConnectivityWatcher.finish]
  split
  · split
    · refine ⟨h.forced, h.automatic, ?_, ?_, ?_, h.past⟩
      · intro _ hnow
        cases hnow
      · intro _ hnow
        cases hnow
      · intro _ hnow
        cases hnow
    · exact h
  · exact h

theorem Inv.next (h : Inv watcher) (probeIntervalMs : ℕ) (action : Action) :
    Inv (watcher.next probeIntervalMs action) := by
  cases action with
  | start => exact h.start probeIntervalMs
  | stop => exact h.stop
  | online =>
    simp only [BrowserConnectivityWatcher.next, handleOnline]
    split
    · split
      · exact h
      · exact (h.publish _ _).refresh
    · exact h
  | offline =>
    simp only [BrowserConnectivityWatcher.next]
    split
    · exact h.handleOffline
    · exact h
  | setMode mode => exact h.setMode probeIntervalMs mode
  | tick =>
    simp only [BrowserConnectivityWatcher.next]
    split
    · exact h.refresh
    · exact h
  | refresh => exact h.refresh
  | link onLine => exact ⟨h.forced, h.automatic, h.controlled, h.live, h.older, h.past⟩
  | settle ok => exact h.settle ok
  | timeout => exact h.timeout
  | react => exact h.react
  | finish => exact h.finish

/-! ## What the condition keeps -/

theorem fresh_iff {action : Action} (h : action ≠ .react) : watcher.Fresh action ↔
    (watcher.Refreshes action → ∀ probe, watcher.probePromise = some probe →
      probe.cancelled = false) :=
  ⟨Fresh.refreshes, fun hrefreshes => ⟨hrefreshes, fun hreact => absurd hreact h⟩⟩

/-- Neither the state shown nor the answers change, nor what they are measured by. -/
theorem Verified.same (h : Verified watcher) (hcurrent : later.current = watcher.current)
    (hepoch : later.epoch = watcher.epoch) (hsucceeded : later.succeeded = watcher.succeeded)
    (hanswers : later.answers = watcher.answers) : Verified later := by
  refine ⟨?_, ?_⟩
  · rw [hcurrent, hepoch, hsucceeded]
    exact h.internet
  · rw [hanswers]
    exact h.answered

/-- A timer is no matter for the refresh that comes after. -/
theorem Verified.scheduled_iff (h : Verified watcher) (probeIntervalMs : ℕ) :
    Verified (watcher.schedulePeriodicProbe probeIntervalMs).refresh ↔
      (watcher.current.mode = .automatic ∧ watcher.onLine = true →
        ∀ probe, watcher.probePromise = some probe → probe.cancelled = false) := by
  rw [schedulePeriodicProbe]
  split
  · exact h.refresh_iff
  · have htimer : Verified { watcher with timer := true } := h.same rfl rfl rfl rfl
    exact htimer.refresh_iff

theorem Verified.observe (h : Verified watcher) : ∃ current automatic,
    current.mode = watcher.current.mode ∧
      watcher.observeBrowserLink = { watcher with current, automatic } ∧
      Verified { watcher with current, automatic } := by
  rw [observeBrowserLink]
  split
  · exact ⟨_, _, rfl, rfl, h⟩
  · have hverified := h.publish (@linkState_ne watcher) .browserEvent
    obtain ⟨current, automatic, -, hmode, -, hpublish⟩ :=
      @publish_frame watcher watcher.linkState .browserEvent
    rw [hpublish] at hverified ⊢
    exact ⟨current, automatic, hmode, rfl, hverified⟩

theorem Verified.start_iff (h : Verified watcher) (probeIntervalMs : ℕ) :
    Verified (watcher.start probeIntervalMs) ↔ watcher.Fresh .start := by
  rw [fresh_iff Action.noConfusion, BrowserConnectivityWatcher.start, Refreshes]
  split
  · next hstarted =>
    refine iff_of_true h fun hrefreshes => ?_
    exact absurd (hrefreshes.1.symm.trans hstarted) Bool.false_ne_true
  · next hstarted =>
    have hstart : Verified { watcher with started := true } := h.same rfl rfl rfl rfl
    obtain ⟨current, automatic, hmode, hobserve, hverified⟩ := hstart.observe
    simp only [hobserve]
    rw [hverified.scheduled_iff probeIntervalMs]
    simp only [hmode, Bool.eq_false_iff.mpr hstarted, true_and]

theorem Verified.setMode_iff (h : Verified watcher) (probeIntervalMs : ℕ) (mode : ConnectivityMode) :
    Verified (watcher.setMode probeIntervalMs mode) ↔ watcher.Fresh (.setMode mode) := by
  rw [fresh_iff Action.noConfusion, Refreshes]
  unfold BrowserConnectivityWatcher.setMode
  split
  · next hsame =>
    refine iff_of_true h fun hrefreshes => ?_
    rw [hsame] at hrefreshes
    exact absurd (hrefreshes.1.symm.trans hrefreshes.2.1) (by decide)
  · next hother =>
    cases mode with
    | offline =>
      refine iff_of_true ⟨fun hinternet => ?_, h.answered⟩ fun hrefreshes => ?_
      · cases hinternet
      · cases hrefreshes.1
    | automatic =>
      have hmode : watcher.current.mode = .offline := by
        cases hnow : watcher.current.mode with
        | automatic => exact absurd hnow.symm hother
        | offline => rfl
      have hpublish : watcher.publish watcher.linkState .browserEvent =
          { watcher with automatic := ⟨watcher.linkState, .automatic, .browserEvent⟩ } := by
        rw [BrowserConnectivityWatcher.publish, if_neg]
        rw [hmode]
        exact ConnectivityMode.noConfusion
      have hrestored : Verified { watcher with
          automatic := ⟨watcher.linkState, .automatic, .browserEvent⟩
          current := ⟨watcher.linkState, .automatic, .browserEvent⟩ } :=
        ⟨fun hinternet => absurd hinternet linkState_ne, h.answered⟩
      simp only [hpublish]
      split
      · next hstarted =>
        rw [hrestored.scheduled_iff probeIntervalMs]
        simp only [hmode, hstarted, true_and]
      · next hstopped =>
        refine iff_of_true hrestored fun hrefreshes => ?_
        exact absurd hrefreshes.2.2.1 hstopped

theorem Verified.react_iff (h : Verified watcher) (hinv : Inv watcher) :
    Verified watcher.react ↔ watcher.Fresh .react := by
  have hfresh : watcher.Fresh .react ↔ (watcher.current.mode = .automatic →
      ∀ probe, watcher.probePromise = some probe → probe.phase = .settled true →
        probe.epoch = watcher.epoch) := by
    constructor
    · intro hfresh
      exact hfresh.publishes rfl
    · intro hpublishes
      exact ⟨fun hrefreshes => hrefreshes.elim, fun _ => hpublishes⟩
  rw [hfresh, BrowserConnectivityWatcher.react]
  split
  · next probe hprobe =>
    split
    · next ok hphase =>
      obtain ⟨hbefore, hpast⟩ := hinv.older probe hprobe
      simp only
      split
      · next hmode =>
        have hmode : watcher.current.mode = .automatic := hmode
        cases ok with
        | false =>
          refine iff_of_true ?_ fun _ other hother hsettled => ?_
          · apply verified_publish
            · exact hmode
            · exact linkState_ne
            · exact h.answered
          · rw [hprobe] at hother
            cases hother
            rw [hphase] at hsettled
            cases hsettled
        | true =>
          simp only [if_true, BrowserConnectivityWatcher.publish, hmode]
          constructor
          · intro hnext _ other hother _
            rw [hprobe] at hother
            cases hother
            rcases List.mem_append.mp (hnext.internet rfl) with hold | hnew
            · exact le_antisymm hbefore (hpast _ hold)
            · exact (List.mem_singleton.mp hnew).symm
          · intro hepoch
            refine ⟨fun _ => List.mem_append_right _ ?_, h.answered⟩
            exact List.mem_singleton.mpr (hepoch trivial probe hprobe hphase).symm
      · next hmode =>
        have hoffline : watcher.current.mode = .offline := by
          cases hnow : watcher.current.mode with
          | automatic => exact absurd hnow hmode
          | offline => rfl
        refine iff_of_true ⟨fun hinternet => absurd hinternet (hinv.forced hoffline), h.answered⟩ ?_
        intro hautomatic
        exact absurd hautomatic hmode
    · next hphase =>
      refine iff_of_true h fun _ other hother hsettled => ?_
      rw [hprobe] at hother
      cases hother
      exact absurd hsettled (hphase true)
  · next hnone =>
    refine iff_of_true h fun _ probe hprobe => ?_
    rw [hnone] at hprobe
    cases hprobe

theorem Verified.next_iff (h : Verified watcher) (hinv : Inv watcher) (probeIntervalMs : ℕ)
    (action : Action) :
    Verified (watcher.next probeIntervalMs action) ↔ watcher.Fresh action := by
  cases action with
  | start => exact h.start_iff probeIntervalMs
  | stop =>
    rw [fresh_iff Action.noConfusion]
    refine iff_of_true ?_ fun hrefreshes => hrefreshes.elim
    show Verified watcher.stop
    rw [BrowserConnectivityWatcher.stop]
    split
    · exact h.same rfl rfl rfl rfl
    · exact h
  | online =>
    rw [fresh_iff Action.noConfusion, Refreshes]
    simp only [BrowserConnectivityWatcher.next, handleOnline]
    split
    · next hstarted =>
      split
      · next hmode =>
        refine iff_of_true h fun hrefreshes => ?_
        exact absurd (hmode.symm.trans hrefreshes.2.1) (by decide)
      · next hmode =>
        have hlink := @Verified.publish watcher h .link ConnectivityState.noConfusion .browserEvent
        obtain ⟨current, automatic, -, hsame, -, hpublish⟩ := @publish_frame watcher .link .browserEvent
        rw [hpublish] at hlink ⊢
        rw [hlink.refresh_iff]
        simp only [hsame, hstarted, true_and]
    · next hstopped => exact iff_of_true h fun hrefreshes => absurd hrefreshes.1 hstopped
  | offline =>
    rw [fresh_iff Action.noConfusion]
    refine iff_of_true ?_ fun hrefreshes => hrefreshes.elim
    simp only [BrowserConnectivityWatcher.next, handleOffline]
    split
    · split
      · next hmode =>
        exact ⟨fun hinternet => absurd hinternet (hinv.forced hmode), h.answered⟩
      · next hmode =>
        have hautomatic : watcher.current.mode = .automatic := by
          cases hnow : watcher.current.mode with
          | automatic => rfl
          | offline => exact absurd hnow hmode
        apply verified_publish
        · exact hautomatic
        · exact ConnectivityState.noConfusion
        · exact h.answered
    · exact h
  | setMode mode => exact h.setMode_iff probeIntervalMs mode
  | tick =>
    rw [fresh_iff Action.noConfusion, Refreshes]
    simp only [BrowserConnectivityWatcher.next]
    split
    · next htimer =>
      rw [h.refresh_iff]
      simp only [htimer, true_and]
    · next htimer => exact iff_of_true h fun hrefreshes => absurd hrefreshes.1 htimer
  | refresh =>
    rw [fresh_iff Action.noConfusion, Refreshes]
    exact h.refresh_iff
  | link onLine =>
    rw [fresh_iff Action.noConfusion]
    exact iff_of_true (h.same rfl rfl rfl rfl) fun hrefreshes => hrefreshes.elim
  | settle ok =>
    rw [fresh_iff Action.noConfusion]
    refine iff_of_true ?_ fun hrefreshes => hrefreshes.elim
    show Verified (watcher.settle ok)
    rw [BrowserConnectivityWatcher.settle]
    split
    · split
      · exact h.same rfl rfl rfl rfl
      · exact h
    · exact h
  | timeout =>
    rw [fresh_iff Action.noConfusion]
    exact iff_of_true (h.same rfl rfl rfl rfl) fun hrefreshes => hrefreshes.elim
  | react => exact h.react_iff hinv
  | finish =>
    rw [fresh_iff Action.noConfusion]
    refine iff_of_true ?_ fun hrefreshes => hrefreshes.elim
    show Verified watcher.finish
    rw [BrowserConnectivityWatcher.finish]
    split
    · split
      · exact h.same rfl rfl rfl rfl
      · exact h
    · exact h

end

end BrowserConnectivityWatcher

open BrowserConnectivityWatcher

end OptoSync.Connectivity.Browser
