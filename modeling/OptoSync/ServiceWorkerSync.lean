import OptoSync.SingleFlight
import OptoSync.Transition
import OptoSync.Utf16

/-!
# Service-worker sync

`installOptoSyncServiceWorker` of the reactive package. The microtasks are events of their own; a
timer fires only between tasks, when no settled callback is left uncleared.
-/
namespace OptoSync.ServiceWorker
open Transition SingleFlight

def backgroundTag : String := "opto-sync"

def legacyBackgroundTag : String := "opto-sync:background"

def wakeMessage : String := "opto-sync:sync"

def resultMessage : String := "opto-sync:sync-result"

def failureCode : String := "SYNC_FAILED"

/-- A property of a message; texts are lists of code units. -/
inductive Value
  | string (units : List ℕ)
  | other
  deriving DecidableEq

/-- The data of a message, with its `type` and `requestId`. -/
inductive Data
  | primitive
  | object (type requestId : Value)

inductive AbortReason
  | timeout
  | closed
  deriving DecidableEq

/-- What a wake is refused with. -/
inductive Failure (ε : Type)
  | thrown (error : ε)
  | timeout
  deriving DecidableEq

structure ServiceWorkerSyncOptions where
  tag : Option String := none
  additionalTags : Option (List String) := none
  /-- `some none` where it is not a finite number. -/
  timeoutMs : Option (Option ℚ) := none
  runOnActivate : Bool := false

/-- A caller of `runNow`. -/
structure Caller where
  /-- `none` where the controller was closed. -/
  flight : Option ℕ
  /-- The `requestId` of a message whose source can be answered. -/
  request : Option (Option (List ℕ))

structure SyncResult (ρ : Type) where
  type : String
  requestId : Option (List ℕ)
  outcome : Except String ρ

variable {ρ ε : Type}

structure Worker (ρ ε : Type) where
  /-- Its slot holds `operation` and `visibleResult`, which are set and removed together. -/
  pool : Flights (Except ε ρ)
  activeController : Option ℕ
  /-- Why the controller of each flight was aborted. -/
  signals : ℕ → Option AbortReason
  /-- Who won the race of each flight. -/
  visible : ℕ → Option (Except (Failure ε) ρ)
  /-- The calls of `onError`. -/
  errors : List (ℕ × Failure ε)
  closed : Bool
  callers : List Caller
  /-- The messages posted, each with its caller. -/
  posted : List (ℕ × SyncResult ρ)

inductive Event (ρ ε : Type)
  | runNow
  /-- A `sync` or `periodicsync` event. -/
  | sync (tag : Option String)
  | message (data : Data) (source : Bool)
  | activate
  /-- The microtask that calls `syncOnce`. -/
  | start (flight : ℕ)
  | settle (flight : ℕ) (result : Except ε ρ)
  | timer (flight : ℕ)
  /-- The microtask that hears of a lost race. -/
  | report (flight : ℕ)
  | clear (flight : ℕ)
  /-- The microtask that answers a caller. -/
  | reply (caller : ℕ)
  | close

def Data.wakeRequest : Data → Option (Option (List ℕ))
  | .primitive => none
  | .object type requestId =>
    if type = .string (Utf16.encode wakeMessage.toList) then
      some (match requestId with
        | .string units => some (units.take 128)
        | .other => none)
    else none

def Worker.initial : Worker ρ ε where
  pool := .empty
  activeController := none
  signals := fun _ => none
  visible := fun _ => none
  errors := []
  closed := false
  callers := []
  posted := []

namespace ServiceWorkerSyncOptions

variable (options : ServiceWorkerSyncOptions)

def acceptedTags : List String :=
  let tag := options.tag.getD backgroundTag
  tag :: options.additionalTags.getD (if tag = backgroundTag then [legacyBackgroundTag] else [])

/-- An empty tag is not accepted, even if it is listed. -/
def accepts (tag : Option String) : Bool :=
  tag.any fun tag => tag ≠ "" && options.acceptedTags.contains tag

def install : Except String (Worker ρ ε) :=
  match options.timeoutMs.getD (some 25000) with
  | some timeoutMs =>
    if timeoutMs < 1000 ∨ timeoutMs > 10 * 60000 then
      .error "timeoutMs must be from 1000 through 600000"
    else .ok .initial
  | none => .error "timeoutMs must be from 1000 through 600000"

end ServiceWorkerSyncOptions

def syncResult (requestId : Option (List ℕ)) : Except (Failure ε) ρ → SyncResult ρ
  | .ok value => ⟨resultMessage, requestId, .ok value⟩
  | .error _ => ⟨resultMessage, requestId, .error failureCode⟩

namespace Worker

def clearIfCurrent (w : Worker ρ ε) (flight : ℕ) : Worker ρ ε :=
  if w.pool.slot = some flight ∧ (w.pool.settled flight).isSome then
    { w with
      pool := w.pool.remove flight
      activeController := if w.activeController = some flight then none else w.activeController }
  else w

def runNow (w : Worker ρ ε) : Worker ρ ε × Option ℕ :=
  if w.closed then (w, none)
  else
    match w.pool.slot with
    | some flight => (w, some flight)
    | none =>
      let (pool, flight) := w.pool.join false
      ({ w with pool, activeController := some flight }, some flight)

/-- A caller that waits for what `runNow` returns. -/
def wake (w : Worker ρ ε) (request : Option (Option (List ℕ))) : Worker ρ ε :=
  let (w, flight) := w.runNow
  { w with callers := w.callers ++ [⟨flight, request⟩] }

/-- A controller keeps the first reason that it was aborted for. -/
def abort (w : Worker ρ ε) (flight : ℕ) (reason : AbortReason) : Worker ρ ε :=
  { w with signals := Function.update w.signals flight (w.signals flight <|> some reason) }

/-- A race keeps its first outcome. -/
def race (w : Worker ρ ε) (flight : ℕ) (outcome : Option (Except (Failure ε) ρ)) : Worker ρ ε :=
  { w with visible := Function.update w.visible flight (w.visible flight <|> outcome) }

def settle (w : Worker ρ ε) (flight : ℕ) (result : Except ε ρ) : Worker ρ ε :=
  let pool := w.pool.settle flight result
  { w with pool }.race flight ((pool.settled flight).map (Except.mapError .thrown))

def deadline (w : Worker ρ ε) (flight : ℕ) : Worker ρ ε :=
  if flight < w.pool.flights.length ∧ w.pool.settled flight = none ∧ w.visible flight = none then
    (w.abort flight .timeout).race flight (some (.error .timeout))
  else w

def reported (w : Worker ρ ε) (flight : ℕ) : Bool := (w.errors.map Prod.fst).contains flight

def report (w : Worker ρ ε) (flight : ℕ) : Worker ρ ε :=
  match w.visible flight with
  | some (.error error) =>
    if w.reported flight then w else { w with errors := w.errors ++ [(flight, error)] }
  | _ => w

/-- What the promise that `runNow` returned settled with. -/
def returned (w : Worker ρ ε) (flight : ℕ) : Option (Except (Failure ε) ρ) :=
  match w.visible flight with
  | some (.ok value) => some (.ok value)
  | some (.error error) => if w.reported flight then some (.error error) else none
  | none => none

def answer (w : Worker ρ ε) (caller : ℕ) (requestId : Option (List ℕ))
    (outcome : Except (Failure ε) ρ) : Worker ρ ε :=
  if (w.posted.map Prod.fst).contains caller then w
  else { w with posted := w.posted ++ [(caller, syncResult requestId outcome)] }

def reply (w : Worker ρ ε) (caller : ℕ) : Worker ρ ε :=
  match w.callers[caller]? with
  | some ⟨some flight, some requestId⟩ =>
    match w.returned flight with
    | some outcome => w.answer caller requestId outcome
    | none => w
  | _ => w

def close (w : Worker ρ ε) : Worker ρ ε :=
  if w.closed then w
  else
    match w.activeController with
    | some flight => { w.abort flight .closed with closed := true }
    | none => { w with closed := true }

/-- The listeners are removed when the controller closes. -/
def next (options : ServiceWorkerSyncOptions) (w : Worker ρ ε) : Event ρ ε → Worker ρ ε
  | .runNow => w.wake none
  | .sync tag => if !w.closed && options.accepts tag then w.wake none else w
  | .message data source =>
    match data.wakeRequest with
    | some requestId =>
      if w.closed then w else w.wake (if source then some requestId else none)
    | none => w
  | .activate => if !w.closed && options.runOnActivate then w.wake none else w
  | .start flight => { w with pool := w.pool.start flight }
  | .settle flight result => w.settle flight result
  | .timer flight => w.deadline flight
  | .report flight => w.report flight
  | .clear flight => w.clearIfCurrent flight
  | .reply caller => w.reply caller
  | .close => w.close

/-- A controller is aborted for its deadline or because the worker closed. -/
def Reason (w : Worker ρ ε) (flight : ℕ) : AbortReason → Prop
  | .timeout => w.visible flight = some (.error .timeout)
  | .closed => w.closed = true

structure Flying (w : Worker ρ ε) : Prop where
  single : w.pool.Single
  controller : w.activeController = w.pool.slot
  won : ∀ k outcome, w.visible k = some outcome →
    outcome = .error .timeout ∨
      ∃ result, w.pool.settled k = some result ∧ outcome = result.mapError .thrown
  raced : ∀ k, (w.pool.settled k).isSome → (w.visible k).isSome
  told : ∀ k, w.visible k = some (.error .timeout) → (w.signals k).isSome
  closing : ∀ k, w.closed = true → w.pool.slot = some k → (w.signals k).isSome
  aborted : ∀ k reason, w.signals k = some reason → w.Reason k reason

theorem eq_of_install {options : ServiceWorkerSyncOptions} {w : Worker ρ ε}
    (h : options.install = .ok w) : w = initial := by
  rw [ServiceWorkerSyncOptions.install] at h
  split at h
  · split at h
    · cases h
    · cases h
      rfl
  · cases h

theorem Flying.installed {options : ServiceWorkerSyncOptions} {w : Worker ρ ε}
    (h : options.install = .ok w) : w.Flying := by
  rw [eq_of_install h]
  exact ⟨.empty, rfl, by simp [initial], by simp [initial, Flights.settled, Flights.empty],
    by simp [initial], by simp [initial], by simp [initial]⟩

section

variable {w : Worker ρ ε}

theorem Flying.runNow (h : w.Flying) : w.runNow.1.Flying := by
  rw [Worker.runNow]
  split
  · exact h
  · rename_i hclosed
    split
    · exact h
    · rename_i hslot
      rw [Flights.join_of_none hslot]
      have hpool := h.single.join false
      have hsettled := w.pool.settled_join false
      rw [Flights.join_of_none hslot] at hpool hsettled
      refine ⟨hpool, rfl, fun k outcome hk => ?_, fun k hk => ?_, h.told, fun k hk => ?_, h.aborted⟩
      · rw [hsettled]
        exact h.won k outcome hk
      · rw [hsettled] at hk
        exact h.raced k hk
      · exact absurd hk hclosed

theorem Flying.start (h : w.Flying) (k : ℕ) : { w with pool := w.pool.start k }.Flying where
  single := h.single.start k
  controller := h.controller
  won j outcome hj := by
    rw [Flights.settled_start]
    exact h.won j outcome hj
  raced j hj := h.raced j (by rwa [Flights.settled_start] at hj)
  told := h.told
  closing := h.closing
  aborted := h.aborted

theorem visible_race (w : Worker ρ ε) (k : ℕ) (outcome : Option (Except (Failure ε) ρ)) (j : ℕ) :
    (w.race k outcome).visible j = if j = k then w.visible j <|> outcome else w.visible j := by
  by_cases h : j = k
  · simp [race, h]
  · simp [race, h]

theorem visible_race_of_some {k j : ℕ} {outcome : Except (Failure ε) ρ} (h : w.visible j = some outcome)
    (other : Option (Except (Failure ε) ρ)) : (w.race k other).visible j = some outcome := by
  rw [visible_race]
  split
  · rw [h]
    rfl
  · exact h

theorem visible_race_self {k : ℕ} (h : w.visible k = none)
    (outcome : Option (Except (Failure ε) ρ)) : (w.race k outcome).visible k = outcome := by
  rw [visible_race, if_pos rfl, h]
  rfl

/-- An outcome is an old one or the one that was raced. -/
theorem of_visible_race {k j : ℕ} {outcome : Except (Failure ε) ρ}
    {other : Option (Except (Failure ε) ρ)} (h : (w.race k other).visible j = some outcome) :
    w.visible j = some outcome ∨ j = k ∧ w.visible j = none ∧ other = some outcome := by
  rw [visible_race] at h
  split at h
  · cases hj : w.visible j with
    | none => exact Or.inr ⟨‹_›, rfl, by simpa [hj] using h⟩
    | some old => exact Or.inl (by simpa [hj] using h)
  · exact Or.inl h

theorem Reason.race {k j : ℕ} {reason : AbortReason} (h : w.Reason j reason)
    (outcome : Option (Except (Failure ε) ρ)) : (w.race k outcome).Reason j reason := by
  cases reason with
  | timeout => exact visible_race_of_some h outcome
  | closed => exact h

theorem signals_abort (w : Worker ρ ε) (k : ℕ) (reason : AbortReason) (j : ℕ) :
    (w.abort k reason).signals j = if j = k then w.signals j <|> some reason else w.signals j := by
  by_cases h : j = k
  · simp [abort, h]
  · simp [abort, h]

theorem isSome_signals_abort {k j : ℕ} (h : (w.signals j).isSome ∨ j = k) (reason : AbortReason) :
    ((w.abort k reason).signals j).isSome := by
  rw [signals_abort]
  by_cases hjk : j = k
  · rw [if_pos hjk]
    cases w.signals j <;> rfl
  · rw [if_neg hjk]
    exact h.resolve_right hjk

/-- A reason is an old one or the one that was given. -/
theorem of_signals_abort {k j : ℕ} {reason given : AbortReason}
    (h : (w.abort k given).signals j = some reason) :
    w.signals j = some reason ∨ j = k ∧ reason = given := by
  rw [signals_abort] at h
  split at h
  · cases hj : w.signals j with
    | none => exact Or.inr ⟨‹_›, by simpa [hj, eq_comm] using h⟩
    | some old => exact Or.inl (by simpa [hj] using h)
  · exact Or.inl h

theorem Flying.settle (h : w.Flying) (k : ℕ) (result : Except ε ρ) : (w.settle k result).Flying where
  single := h.single.settle k result
  controller := h.controller
  won j outcome hj := by
    obtain hj | ⟨rfl, -, hj⟩ := of_visible_race hj
    · obtain ht | ⟨settled, hs, ho⟩ := h.won j outcome hj
      · exact Or.inl ht
      · exact Or.inr ⟨settled, Flights.settled_settle_of_settled hs, ho⟩
    · obtain ⟨settled, hs, ho⟩ := Option.map_eq_some_iff.mp hj
      exact Or.inr ⟨settled, hs, ho.symm⟩
  raced j hj := by
    change ((race _ _ _).visible j).isSome
    rw [visible_race]
    obtain hs | ⟨rfl, -, hs⟩ := w.pool.settled_settle k result j
    · change ((w.pool.settle k result).settled j).isSome at hj
      rw [hs] at hj
      obtain ⟨outcome, ho⟩ := Option.isSome_iff_exists.mp (h.raced j hj)
      simp [ho]
    · simp [hs]
  told j hj := by
    obtain hj | ⟨rfl, -, hj⟩ := of_visible_race hj
    · exact h.told j hj
    · obtain ⟨settled, -, ho⟩ := Option.map_eq_some_iff.mp hj
      cases settled <;> cases ho
  closing := h.closing
  aborted j reason hj := Reason.race (h.aborted j reason hj) _

theorem Flying.deadline (h : w.Flying) (k : ℕ) : (w.deadline k).Flying := by
  rw [Worker.deadline]
  split
  · refine ⟨h.single, h.controller, fun j outcome hj => ?_, fun j hj => ?_, fun j hj => ?_,
      fun j hclosed hslot => ?_, fun j reason hj => ?_⟩
    · obtain hj | ⟨-, -, hj⟩ := of_visible_race hj
      · exact h.won j outcome hj
      · cases hj
        exact Or.inl rfl
    · obtain ⟨outcome, ho⟩ := Option.isSome_iff_exists.mp (h.raced j hj)
      rw [visible_race_of_some (w := w.abort k .timeout) ho]
      rfl
    · obtain hj | ⟨hj, -⟩ := of_visible_race hj
      · exact isSome_signals_abort (Or.inl (h.told j hj)) .timeout
      · exact isSome_signals_abort (Or.inr hj) .timeout
    · exact isSome_signals_abort (Or.inl (h.closing j hclosed hslot)) .timeout
    · obtain hj | ⟨rfl, rfl⟩ := of_signals_abort hj
      · exact Reason.race (w := w.abort k .timeout) (h.aborted j reason hj) _
      · rename_i hpending
        exact visible_race_self (w := w.abort j .timeout) hpending.2.2 _
  · exact h

theorem Flying.clearIfCurrent (h : w.Flying) (k : ℕ) : (w.clearIfCurrent k).Flying := by
  rw [Worker.clearIfCurrent]
  split
  · rename_i hk
    have hslot : (w.pool.remove k).slot = none := by simp [Flights.remove, hk]
    refine ⟨h.single.remove k, ?_, fun j outcome hj => ?_, fun j hj => ?_, h.told,
      fun j _ hj => ?_, h.aborted⟩
    · rw [hslot]
      exact if_pos (h.controller.trans hk.1)
    · rw [Flights.settled_remove]
      exact h.won j outcome hj
    · rw [Flights.settled_remove] at hj
      exact h.raced j hj
    · rw [hslot] at hj
      cases hj
  · exact h

theorem Flying.close (h : w.Flying) : w.close.Flying := by
  rw [Worker.close]
  split
  · exact h
  · split
    · rename_i k hk
      refine ⟨h.single, h.controller, h.won, h.raced, fun j hj => ?_, fun j _ hj => ?_,
        fun j reason hj => ?_⟩
      · exact isSome_signals_abort (Or.inl (h.told j hj)) .closed
      · have hslot : w.pool.slot = some k := h.controller.symm.trans hk
        exact isSome_signals_abort (Or.inr (Option.some_inj.mp (hj.symm.trans hslot))) .closed
      · obtain hj | ⟨-, rfl⟩ := of_signals_abort hj
        · cases reason with
          | timeout => exact h.aborted j .timeout hj
          | closed => rfl
        · rfl
    · rename_i hk
      refine ⟨h.single, h.controller, h.won, h.raced, h.told, fun j _ hj => ?_,
        fun j reason hj => ?_⟩
      · have hslot : w.pool.slot = none := h.controller.symm.trans hk
        cases hj.symm.trans hslot
      · cases reason with
        | timeout => exact h.aborted j .timeout hj
        | closed => rfl

theorem Flying.wake (h : w.Flying) (request : Option (Option (List ℕ))) :
    (w.wake request).Flying :=
  have hnow := h.runNow
  ⟨hnow.single, hnow.controller, hnow.won, hnow.raced, hnow.told, hnow.closing, hnow.aborted⟩

theorem Flying.report (h : w.Flying) (k : ℕ) : (w.report k).Flying := by
  rw [Worker.report]
  split
  · split
    · exact h
    · exact ⟨h.single, h.controller, h.won, h.raced, h.told, h.closing, h.aborted⟩
  · exact h

theorem Flying.reply (h : w.Flying) (caller : ℕ) : (w.reply caller).Flying := by
  rw [Worker.reply]
  split
  · split
    · rw [Worker.answer]
      split
      · exact h
      · exact ⟨h.single, h.controller, h.won, h.raced, h.told, h.closing, h.aborted⟩
    · exact h
  · exact h

theorem Flying.next (h : w.Flying) (options : ServiceWorkerSyncOptions) (event : Event ρ ε) :
    (w.next options event).Flying := by
  cases event with
  | runNow => exact h.wake none
  | sync tag =>
    rw [Worker.next]
    split
    · exact h.wake none
    · exact h
  | message data source =>
    rw [Worker.next]
    split
    · split
      · exact h
      · exact h.wake _
    · exact h
  | activate =>
    rw [Worker.next]
    split
    · exact h.wake none
    · exact h
  | start k => exact h.start k
  | settle k result => exact h.settle k result
  | timer k => exact h.deadline k
  | report k => exact h.report k
  | clear k => exact h.clearIfCurrent k
  | reply caller => exact h.reply caller
  | close => exact h.close

/-- Outcomes and callers stay. -/
structure Extends (w later : Worker ρ ε) : Prop where
  visible : ∀ k outcome, w.visible k = some outcome → later.visible k = some outcome
  callers : w.callers <+: later.callers

theorem Extends.refl (w : Worker ρ ε) : w.Extends w := ⟨fun _ _ h => h, List.prefix_refl _⟩

theorem Extends.trans {middle later : Worker ρ ε} (h : w.Extends middle)
    (hlater : middle.Extends later) : w.Extends later :=
  ⟨fun k outcome hk => hlater.visible k outcome (h.visible k outcome hk),
    h.callers.trans hlater.callers⟩

/-- A step that neither calls `onError` nor posts. -/
structure Quiet (w later : Worker ρ ε) : Prop extends w.Extends later where
  errors : later.errors = w.errors
  posted : later.posted = w.posted

theorem Quiet.refl (w : Worker ρ ε) : w.Quiet w := ⟨.refl w, rfl, rfl⟩

/-- Whatever is not an outcome, a caller, an error or a posted message may change. -/
theorem Quiet.of_eq {later : Worker ρ ε} (hvisible : later.visible = w.visible)
    (hcallers : w.callers <+: later.callers) (herrors : later.errors = w.errors)
    (hposted : later.posted = w.posted) : w.Quiet later :=
  ⟨⟨fun k outcome h => by rwa [hvisible], hcallers⟩, herrors, hposted⟩

theorem visible_of_returned {k : ℕ} {outcome : Except (Failure ε) ρ}
    (h : w.returned k = some outcome) : w.visible k = some outcome := by
  rw [returned] at h
  split at h
  · rwa [← h]
  · split at h
    · rwa [← h]
    · cases h
  · cases h

theorem runNow_fst (w : Worker ρ ε) :
    ∃ pool activeController, w.runNow.1 = { w with pool, activeController } := by
  rw [runNow]
  split
  · exact ⟨_, _, rfl⟩
  · split <;> exact ⟨_, _, rfl⟩

theorem Quiet.wake (w : Worker ρ ε) (request : Option (Option (List ℕ))) :
    w.Quiet (w.wake request) := by
  obtain ⟨pool, activeController, h⟩ := w.runNow_fst
  have hwake : w.wake request =
      { w with pool, activeController, callers := w.callers ++ [⟨w.runNow.2, request⟩] } := by
    simp [Worker.wake, h]
  rw [hwake]
  exact .of_eq rfl (List.prefix_append ..) rfl rfl

theorem Quiet.race {later : Worker ρ ε} (h : w.Quiet later) (k : ℕ)
    (outcome : Option (Except (Failure ε) ρ)) : w.Quiet (later.race k outcome) :=
  ⟨⟨fun j old hj => visible_race_of_some (h.visible j old hj) outcome, h.callers⟩, h.errors,
    h.posted⟩

theorem Quiet.settle (w : Worker ρ ε) (k : ℕ) (result : Except ε ρ) :
    w.Quiet (w.settle k result) := by
  have h : w.Quiet { w with pool := w.pool.settle k result } :=
    .of_eq rfl (List.prefix_refl _) rfl rfl
  exact h.race k _

theorem Quiet.deadline (w : Worker ρ ε) (k : ℕ) : w.Quiet (w.deadline k) := by
  rw [Worker.deadline]
  split
  · have h : w.Quiet (w.abort k .timeout) := .of_eq rfl (List.prefix_refl _) rfl rfl
    exact h.race k _
  · exact .refl w

theorem Quiet.clearIfCurrent (w : Worker ρ ε) (k : ℕ) : w.Quiet (w.clearIfCurrent k) := by
  rw [Worker.clearIfCurrent]
  split
  · exact .of_eq rfl (List.prefix_refl _) rfl rfl
  · exact .refl w

theorem Quiet.close (w : Worker ρ ε) : w.Quiet w.close := by
  rw [Worker.close]
  split
  · exact .refl w
  · split <;> exact .of_eq rfl (List.prefix_refl _) rfl rfl

/-- A step is quiet, or calls `onError`, or answers a caller. -/
theorem next_cases (options : ServiceWorkerSyncOptions) (w : Worker ρ ε) (event : Event ρ ε) :
    w.Quiet (w.next options event) ∨
      (∃ k error, w.visible k = some (.error error) ∧ k ∉ w.errors.map Prod.fst ∧
        w.next options event = { w with errors := w.errors ++ [(k, error)] }) ∨
      ∃ caller k requestId outcome, w.callers[caller]? = some ⟨some k, some requestId⟩ ∧
        w.visible k = some outcome ∧ caller ∉ w.posted.map Prod.fst ∧
        w.next options event =
          { w with posted := w.posted ++ [(caller, syncResult requestId outcome)] } := by
  cases event with
  | runNow => exact Or.inl (.wake w none)
  | sync tag =>
    rw [next]
    split
    · exact Or.inl (.wake w none)
    · exact Or.inl (.refl w)
  | message data source =>
    rw [next]
    split
    · split
      · exact Or.inl (.refl w)
      · exact Or.inl (.wake w _)
    · exact Or.inl (.refl w)
  | activate =>
    rw [next]
    split
    · exact Or.inl (.wake w none)
    · exact Or.inl (.refl w)
  | start k => exact Or.inl (.of_eq rfl (List.prefix_refl _) rfl rfl)
  | settle k result => exact Or.inl (.settle w k result)
  | timer k => exact Or.inl (.deadline w k)
  | report k =>
    rw [next, report]
    split
    · split
      · exact Or.inl (.refl w)
      · rename_i error hvisible hnew
        exact Or.inr (Or.inl ⟨k, error, hvisible, by simpa [reported] using hnew, rfl⟩)
    · exact Or.inl (.refl w)
  | clear k => exact Or.inl (.clearIfCurrent w k)
  | reply caller =>
    rw [next, reply]
    split
    · rename_i k requestId hcaller
      split
      · rename_i outcome hreturned
        rw [answer]
        split
        · exact Or.inl (.refl w)
        · rename_i hnew
          exact Or.inr (Or.inr ⟨caller, k, requestId, outcome, hcaller,
            visible_of_returned hreturned, by simpa using hnew, rfl⟩)
      · exact Or.inl (.refl w)
    · exact Or.inl (.refl w)
  | close => exact Or.inl (.close w)

theorem next_extends (options : ServiceWorkerSyncOptions) (w : Worker ρ ε) (event : Event ρ ε) :
    w.Extends (w.next options event) := by
  obtain h | ⟨k, error, -, -, h⟩ | ⟨caller, k, requestId, outcome, -, -, -, h⟩ :=
    w.next_cases options event
  · exact h.toExtends
  · rw [h]
    exact ⟨fun _ _ hk => hk, List.prefix_refl _⟩
  · rw [h]
    exact ⟨fun _ _ hk => hk, List.prefix_refl _⟩

theorem run_extends (options : ServiceWorkerSyncOptions) (w : Worker ρ ε)
    (events : List (Event ρ ε)) : w.Extends (run (next options) w events) := by
  induction events generalizing w with
  | nil => exact .refl w
  | cons event events ih => exact (w.next_extends options event).trans (ih _)

/-- `onError` hears of a failure once, a caller is answered once, with the outcome of its flight. -/
structure Logged (w : Worker ρ ε) : Prop where
  errors : ∀ entry ∈ w.errors, w.visible entry.1 = some (.error entry.2)
  errors_nodup : (w.errors.map Prod.fst).Nodup
  posted : ∀ entry ∈ w.posted, ∃ k requestId outcome,
    w.callers[entry.1]? = some ⟨some k, some requestId⟩ ∧ w.visible k = some outcome ∧
      entry.2 = syncResult requestId outcome
  posted_nodup : (w.posted.map Prod.fst).Nodup

theorem Logged.installed {options : ServiceWorkerSyncOptions}
    (h : options.install = .ok w) : w.Logged := by
  rw [eq_of_install h]
  exact ⟨by simp [initial], by simp [initial], by simp [initial], by simp [initial]⟩

theorem Extends.callers_getElem? {later : Worker ρ ε} (h : w.Extends later) {i : ℕ} {caller : Caller}
    (hi : w.callers[i]? = some caller) : later.callers[i]? = some caller := by
  obtain ⟨more, hmore⟩ := h.callers
  rw [← hmore, List.getElem?_append_left (List.getElem?_eq_some_iff.mp hi).1]
  exact hi

theorem Logged.quiet {later : Worker ρ ε} (h : w.Logged) (hq : w.Quiet later) : later.Logged where
  errors entry hentry := by
    rw [hq.errors] at hentry
    exact hq.visible _ _ (h.errors entry hentry)
  errors_nodup := by
    rw [hq.errors]
    exact h.errors_nodup
  posted entry hentry := by
    rw [hq.posted] at hentry
    obtain ⟨k, requestId, outcome, hcaller, hvisible, hreply⟩ := h.posted entry hentry
    exact ⟨k, requestId, outcome, hq.callers_getElem? hcaller, hq.visible _ _ hvisible, hreply⟩
  posted_nodup := by
    rw [hq.posted]
    exact h.posted_nodup

theorem nodup_concat {α β : Type} {entries : List (α × β)} {entry : α × β}
    (h : (entries.map Prod.fst).Nodup) (hnew : entry.1 ∉ entries.map Prod.fst) :
    ((entries ++ [entry]).map Prod.fst).Nodup := by
  rw [List.map_append]
  exact List.nodup_append.mpr ⟨h, List.nodup_singleton _, fun a ha b hb => by
    rintro rfl
    exact hnew (by rwa [List.mem_singleton.mp hb] at ha)⟩

theorem Logged.next (h : w.Logged) (options : ServiceWorkerSyncOptions) (event : Event ρ ε) :
    (w.next options event).Logged := by
  obtain hq | ⟨k, error, hk, hnew, hw⟩ | ⟨caller, k, requestId, outcome, hcaller, hk, hnew, hw⟩ :=
    w.next_cases options event
  · exact h.quiet hq
  · rw [hw]
    refine ⟨fun entry hentry => ?_, nodup_concat h.errors_nodup hnew, h.posted, h.posted_nodup⟩
    rcases List.mem_append.mp hentry with hold | hlast
    · exact h.errors entry hold
    · rw [List.mem_singleton.mp hlast]
      exact hk
  · rw [hw]
    refine ⟨h.errors, h.errors_nodup, fun entry hentry => ?_, nodup_concat h.posted_nodup hnew⟩
    rcases List.mem_append.mp hentry with hold | hlast
    · exact h.posted entry hold
    · rw [List.mem_singleton.mp hlast]
      exact ⟨k, requestId, outcome, hcaller, hk, rfl⟩

structure Guarded (w : Worker ρ ε) : Prop where
  exclusive : ∀ j k, w.pool.Running j → w.pool.Running k → j = k
  joins : ∀ k, w.pool.Running k → w.closed = false → w.runNow = (w, some k)
  cancelled : ∀ k, w.pool.Running k → w.closed = true ∨ w.visible k = some (.error .timeout) →
    (w.signals k).isSome
  aborted : ∀ k reason, w.signals k = some reason → w.Reason k reason

theorem Flying.guarded (h : w.Flying) : w.Guarded where
  exclusive _ _ := h.single.exclusive
  joins k hk hclosed := by
    simp [Worker.runNow, hclosed, h.single.slot_of_running hk]
  cancelled k hk hcause := by
    rcases hcause with hclosed | htimeout
    · exact h.closing k hclosed (h.single.slot_of_running hk)
    · exact h.told k htimeout
  aborted := h.aborted

/-- What is said is what `later` still says. -/
structure Answered (w later : Worker ρ ε) : Prop where
  errors : ∀ entry ∈ w.errors, later.visible entry.1 = some (.error entry.2)
  errors_nodup : (w.errors.map Prod.fst).Nodup
  posted : ∀ entry ∈ w.posted, ∃ k requestId outcome,
    w.callers[entry.1]? = some ⟨some k, some requestId⟩ ∧ later.visible k = some outcome ∧
      entry.2 = syncResult requestId outcome ∧
      (outcome = .error .timeout ∨
        ∃ result, w.pool.settled k = some result ∧ outcome = result.mapError .thrown)
  posted_nodup : (w.posted.map Prod.fst).Nodup

theorem Logged.answered {later : Worker ρ ε} (h : w.Logged) (hw : w.Flying)
    (hlater : w.Extends later) : w.Answered later where
  errors entry hentry := hlater.visible _ _ (h.errors entry hentry)
  errors_nodup := h.errors_nodup
  posted entry hentry := by
    obtain ⟨k, requestId, outcome, hcaller, hvisible, hreply⟩ := h.posted entry hentry
    exact ⟨k, requestId, outcome, hcaller, hlater.visible _ _ hvisible, hreply,
      hw.won k outcome hvisible⟩
  posted_nodup := h.posted_nodup

end

end Worker

open Worker

theorem install_default : ({} : ServiceWorkerSyncOptions).install = .ok (initial : Worker ρ ε) := by
  have h : ¬((25000 : ℚ) < 1000 ∨ (25000 : ℚ) > 10 * 60000) := by norm_num
  exact if_neg h

/-- At most one callback runs at a time, even after its deadline; its signal is aborted by then. -/
theorem runs_guarded {options : ServiceWorkerSyncOptions} {w : Worker ρ ε}
    (h : options.install = .ok w) (events : List (Event ρ ε)) :
    StatesMeet (next options) Guarded w events :=
  .imp (fun _ hw => hw.guarded)
    (.of_invariant (fun _ event hw => hw.next options event) (Flying.installed h) events)

/-- Background Sync wakes the worker, and the callback outlives its deadline. -/
def lateEvents : List (Event ℕ String) :=
  [.sync (some "opto-sync"), .start 0, .timer 0,
    .message (.object (.string (Utf16.encode wakeMessage.toList)) .other) true, .report 0, .reply 1]

theorem runs_guarded_late :
    StatesMeet (next {}) Guarded Worker.initial lateEvents ∧
      (run (next {}) Worker.initial lateEvents).signals 0 = some .timeout :=
  ⟨runs_guarded install_default lateEvents, by decide⟩

/-- Every caller is answered at most once, and for good, with the outcome of the flight it joined. -/
theorem runs_answered {options : ServiceWorkerSyncOptions} {w : Worker ρ ε}
    (h : options.install = .ok w) (events more : List (Event ρ ε)) :
    (run (next options) w events).Answered (run (next options) w (events ++ more)) := by
  have hflying : (run (next options) w events).Flying :=
    run_invariant (fun _ event hw => hw.next options event) (Flying.installed h) events
  have hlogged : (run (next options) w events).Logged :=
    run_invariant (fun _ event hw => hw.next options event) (Logged.installed h) events
  rw [run_append]
  exact hlogged.answered hflying (run_extends options _ more)

theorem runs_answered_late :
    (run (next {}) Worker.initial lateEvents).Answered
      (run (next {}) Worker.initial (lateEvents ++ [.settle 0 (.ok 2), .clear 0, .close])) ∧
        (run (next {}) Worker.initial lateEvents).posted.map Prod.fst = [1] :=
  ⟨runs_answered install_default lateEvents [.settle 0 (.ok 2), .clear 0, .close], by decide⟩

end OptoSync.ServiceWorker
