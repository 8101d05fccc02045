import OptoSync.ReactiveRecord

/-!
# The record controller

`ReactiveRecordController` of the Dart package. The sources of a session are behind `switchMap`,
their events behind `asyncMap`: while a projection is awaited they wait, and a session may switch.
-/
namespace OptoSync.Reactive.Dart
open Transition

inductive SyncSession
  | authenticated (identity : SyncSessionIdentity)
  | anonymous | unauthenticated | degraded

/-- What is awaited: the result of a duplicate is null, a projection may throw. -/
inductive Awaited
  | duplicate
  | projection (event : SyncRecordEvent) (result : Option Json)

structure ReactiveRecordController where
  /-- The last session that `distinct` let through. -/
  previous : Option SyncSession
  identity : Option SyncSessionIdentity
  localView : Option SyncRecordEvent
  authoritative : Option SyncRecordEvent
  value : Json
  seen : List String
  awaited : Option Awaited
  /-- The events that wait behind the projection. -/
  waiting : List SyncRecordEvent
  snapshots : List ReactiveRecordSnapshot

def ReactiveRecordController.start : ReactiveRecordController where
  previous := none
  identity := none
  localView := none
  authoritative := none
  value := .null
  seen := []
  awaited := none
  waiting := []
  snapshots := []

inductive Action
  | session (session : SyncSession)
  /-- An event of a source that is subscribed. -/
  | source (event : SyncRecordEvent)
  /-- What is awaited completes. -/
  | settle
  /-- The first event that waits is delivered. -/
  | deliver

section
variable (host : JsonHost) (project : Json → Json → Bool → Option Json)
variable (table recordId : String) (maxRememberedEvents : ℕ)

def sameSession (previous next : SyncSession) : Bool :=
  match previous, next with
  | .authenticated previous, .authenticated next =>
    host.transportSessionKey previous = host.transportSessionKey next
  | .anonymous, .anonymous | .unauthenticated, .unauthenticated | .degraded, .degraded => true
  | _, _ => false

namespace ReactiveRecordController

/-- A session that is not authenticated makes the mapper throw, and the sources stay. -/
def onSession (controller : ReactiveRecordController) (session : SyncSession) :
    ReactiveRecordController :=
  if controller.previous.any (sameSession host · session) then controller
  else
    let controller := { controller with previous := some session }
    match session with
    | .authenticated identity =>
      { controller with
        identity := some identity, localView := none, authoritative := none, value := .null,
        seen := [] }
    | _ => controller

/-- The filter on the sources of the current session. -/
def admits (controller : ReactiveRecordController) (event : SyncRecordEvent) : Bool :=
  controller.identity.any fun identity =>
    event.sessionPartition = host.transportSessionKey identity && event.table = table &&
      event.recordId = recordId

/-- `_apply` up to its await. -/
def apply (controller : ReactiveRecordController) (event : SyncRecordEvent) :
    ReactiveRecordController :=
  let key := host.recordEventDedupeKey event
  if controller.seen.contains key then { controller with awaited := some .duplicate }
  else
    let seen := remember controller.seen key maxRememberedEvents
    let controller := match event.authority with
      | .localView => { controller with seen, localView := some event }
      | .authoritative => { controller with seen, authoritative := some event }
    let result := project (payloadOf controller.authoritative) (payloadOf controller.localView)
      (controller.localView.any (·.pending))
    { controller with awaited := some (.projection event result) }

def onEvent (controller : ReactiveRecordController) (event : SyncRecordEvent) :
    ReactiveRecordController :=
  if controller.admits host table recordId event then
    if controller.awaited.isNone && controller.waiting.isEmpty then
      controller.apply host project maxRememberedEvents event
    else { controller with waiting := controller.waiting ++ [event] }
  else controller

/-- `_apply` from its await on: the session is read again. -/
def settle (controller : ReactiveRecordController) : ReactiveRecordController :=
  match controller.awaited with
  | none => controller
  | some .duplicate | some (.projection _ none) => { controller with awaited := none }
  | some (.projection event (some projected)) =>
    if host.sameProjectedValue controller.value projected && event.authority ≠ .localView then
      { controller with awaited := none }
    else
      match controller.identity with
      | none => { controller with awaited := none }
      | some session =>
        { controller with
          awaited := none
          value := projected
          snapshots := controller.snapshots ++ [{
            session
            table
            recordId
            value := projected
            localView := controller.localView
            authoritative := controller.authoritative
            lastEvent := event }] }

def deliver (controller : ReactiveRecordController) : ReactiveRecordController :=
  match controller.awaited, controller.waiting with
  | none, event :: waiting =>
    ({ controller with waiting }).apply host project maxRememberedEvents event
  | _, _ => controller

def next (controller : ReactiveRecordController) : Action → ReactiveRecordController
  | .session session => controller.onSession host session
  | .source event => controller.onEvent host project table recordId maxRememberedEvents event
  | .settle => controller.settle host table recordId
  | .deliver => controller.deliver host project maxRememberedEvents

def sessionKey (controller : ReactiveRecordController) : Option String :=
  controller.identity.map host.transportSessionKey

end ReactiveRecordController

/-- The value is the projection of events of one session, all of them sent. -/
def ProjectedFrom (Sent : SyncRecordEvent → Prop) (session : String) (value : Json) : Prop :=
  ∃ authoritative localView : Option SyncRecordEvent,
    (∀ event, localView = some event ∨ authoritative = some event →
      Sent event ∧ event.sessionPartition = session) ∧
    project (payloadOf authoritative) (payloadOf localView) (localView.any (·.pending)) = some value

/-- What the snapshot shows comes from events of its own session. -/
structure Isolated (Sent : SyncRecordEvent → Prop) (snapshot : ReactiveRecordSnapshot) : Prop where
  held : ∀ event, snapshot.localView = some event ∨ snapshot.authoritative = some event →
    event.sessionPartition = host.transportSessionKey snapshot.session
  lastEvent : snapshot.lastEvent.sessionPartition = host.transportSessionKey snapshot.session
  value : ProjectedFrom project Sent (host.transportSessionKey snapshot.session) snapshot.value

/-- The events that the controller holds are of the current session. -/
def HoldsOwn (controller : ReactiveRecordController) : Prop :=
  ∀ event, controller.localView = some event ∨ controller.authoritative = some event →
    controller.sessionKey host = some event.sessionPartition

/-- Every action but the events of other sessions. -/
def ofSession (session : String) : Action → Bool
  | .source event => event.sessionPartition = session
  | _ => true

def ReactiveRecordController.labelled (controller : ReactiveRecordController) (session : String) :
    List ReactiveRecordSnapshot :=
  controller.snapshots.filter fun snapshot => host.transportSessionKey snapshot.session = session

/-- A switch to another session finds nothing awaited and nothing waiting. -/
def QuietSwitch (controller : ReactiveRecordController) : Action → Prop
  | .session (.authenticated identity) =>
    controller.sessionKey host ≠ some (host.transportSessionKey identity) →
      controller.awaited = none ∧ controller.waiting = []
  | _ => True

end

section
variable {host : JsonHost} {project : Json → Json → Bool → Option Json}
variable {table recordId : String} {maxRememberedEvents : ℕ}
variable {controller : ReactiveRecordController}

namespace ReactiveRecordController

theorem apply_frame (event : SyncRecordEvent) :
    (controller.apply host project maxRememberedEvents event).previous = controller.previous ∧
      (controller.apply host project maxRememberedEvents event).identity = controller.identity ∧
      ∀ snapshots, ({ controller with snapshots }).apply host project maxRememberedEvents event =
        { controller.apply host project maxRememberedEvents event with snapshots } := by
  simp only [apply]
  by_cases hseen : controller.seen.contains (host.recordEventDedupeKey event) = true
  · simp only [hseen, if_true]
    exact ⟨trivial, trivial, fun _ => trivial⟩
  · simp only [hseen, Bool.false_eq_true, if_false]
    cases event.authority <;> exact ⟨rfl, rfl, fun _ => rfl⟩

/-- Everything but a session leaves the session as it is. -/
theorem next_session {action : Action} (h : ∀ session, action ≠ .session session) :
    (controller.next host project table recordId maxRememberedEvents action).previous =
        controller.previous ∧
      (controller.next host project table recordId maxRememberedEvents action).identity =
        controller.identity := by
  cases action with
  | session session => exact absurd rfl (h session)
  | source event =>
    simp only [next, onEvent]
    split
    · split
      · exact ⟨apply_frame event |>.1, apply_frame event |>.2.1⟩
      · exact ⟨rfl, rfl⟩
    · exact ⟨rfl, rfl⟩
  | settle =>
    simp only [next, settle]
    repeat' split
    all_goals exact ⟨rfl, rfl⟩
  | deliver =>
    simp only [next, deliver]
    split
    · exact ⟨apply_frame _ |>.1, apply_frame _ |>.2.1⟩
    · exact ⟨rfl, rfl⟩

/-- What an action shows does not depend on what was shown, and is of the current session. -/
theorem next_shows (action : Action) : ∃ shown : List ReactiveRecordSnapshot,
    (∀ snapshots, ({ controller with snapshots }).next host project table recordId
        maxRememberedEvents action =
      { controller.next host project table recordId maxRememberedEvents action with
        snapshots := snapshots ++ shown }) ∧
    ∀ snapshot ∈ shown, controller.sessionKey host =
      some (host.transportSessionKey snapshot.session) := by
  cases action with
  | session session =>
    refine ⟨[], fun snapshots => ?_, fun _ h => absurd h List.not_mem_nil⟩
    simp only [next, onSession, List.append_nil]
    by_cases h : controller.previous.any (sameSession host · session) = true
    · simp only [h, if_true]
    · simp only [h, Bool.false_eq_true, if_false]
      cases session <;> rfl
  | source event =>
    refine ⟨[], fun snapshots => ?_, fun _ h => absurd h List.not_mem_nil⟩
    have hadmits : ({ controller with snapshots }).admits host table recordId event =
        controller.admits host table recordId event := rfl
    simp only [next, onEvent, hadmits, List.append_nil]
    cases controller.admits host table recordId event with
    | false => rfl
    | true =>
      cases hidle : controller.awaited.isNone && controller.waiting.isEmpty with
      | false => simp only [if_true, Bool.false_eq_true, if_false]
      | true => exact (apply_frame event).2.2 snapshots
  | settle =>
    have hnothing : ∀ snapshot ∈ ([] : List ReactiveRecordSnapshot), controller.sessionKey host =
        some (host.transportSessionKey snapshot.session) := fun _ h => absurd h List.not_mem_nil
    obtain ⟨previous, identity, localView, authoritative, value, seen, awaited, waiting, _⟩ :=
      controller
    simp only [next, settle]
    cases awaited with
    | none => exact ⟨[], fun snapshots => by rw [List.append_nil], hnothing⟩
    | some awaited =>
      cases awaited with
      | duplicate => exact ⟨[], fun snapshots => by rw [List.append_nil], hnothing⟩
      | projection event result =>
        cases result with
        | none => exact ⟨[], fun snapshots => by rw [List.append_nil], hnothing⟩
        | some projected =>
          simp only
          split
          · exact ⟨[], fun snapshots => by rw [List.append_nil], hnothing⟩
          · cases identity with
            | none => exact ⟨[], fun snapshots => by rw [List.append_nil], hnothing⟩
            | some session =>
              refine ⟨_, fun snapshots => rfl, ?_⟩
              intro snapshot hmem
              rw [List.mem_singleton.mp hmem]
              rfl
  | deliver =>
    refine ⟨[], fun snapshots => ?_, fun _ h => absurd h List.not_mem_nil⟩
    rw [List.append_nil]
    obtain ⟨previous, identity, localView, authoritative, value, seen, awaited, waiting, shown⟩ :=
      controller
    cases awaited with
    | some awaited => rfl
    | none =>
      cases waiting with
      | nil => rfl
      | cons event waiting =>
        exact (@apply_frame host project maxRememberedEvents ⟨previous, identity, localView,
          authoritative, value, seen, none, waiting, shown⟩ event).2.2 snapshots

end ReactiveRecordController

/-- A run and the run without the events of other sessions: the same while the session is current,
and nothing held in the second while it is not. -/
structure Agrees (host : JsonHost) (session : String) (controller silent : ReactiveRecordController) :
    Prop where
  previous : silent.previous = controller.previous
  identity : silent.identity = controller.identity
  labelled : silent.labelled host session = controller.labelled host session
  current : controller.sessionKey host = some session →
    silent = { controller with snapshots := silent.snapshots }
  other : controller.sessionKey host ≠ some session →
    silent = { ReactiveRecordController.start with
      previous := silent.previous, identity := silent.identity, snapshots := silent.snapshots }

variable {session : String} {silent : ReactiveRecordController}

theorem labelled_append {shown : List ReactiveRecordSnapshot}
    (h : controller.snapshots = silent.snapshots ++ shown) :
    controller.labelled host session = silent.labelled host session ++ shown.filter fun snapshot =>
      host.transportSessionKey snapshot.session = session := by
  rw [ReactiveRecordController.labelled, h, List.filter_append]
  rfl

theorem Agrees.next_of_current (h : Agrees host session controller silent)
    (hcurrent : controller.sessionKey host = some session) {action : Action}
    (haction : ∀ session, action ≠ .session session) :
    Agrees host session
      (controller.next host project table recordId maxRememberedEvents action)
      (silent.next host project table recordId maxRememberedEvents action) := by
  obtain ⟨shown, hshows, -⟩ := @ReactiveRecordController.next_shows host project table recordId
    maxRememberedEvents controller action
  have hsilent := h.current hcurrent
  have hnext : silent.next host project table recordId maxRememberedEvents action =
      { controller.next host project table recordId maxRememberedEvents action with
        snapshots := silent.snapshots ++ shown } := by
    rw [hsilent]
    exact hshows silent.snapshots
  have hsnapshots : (controller.next host project table recordId maxRememberedEvents action).snapshots =
      controller.snapshots ++ shown :=
    (congrArg ReactiveRecordController.snapshots (hshows controller.snapshots):)
  obtain ⟨-, hidentity⟩ := @ReactiveRecordController.next_session host project table recordId
    maxRememberedEvents controller _ haction
  refine ⟨?_, ?_, ?_, ?_, ?_⟩
  · rw [hnext]
  · rw [hnext]
  · rw [labelled_append hsnapshots, ← h.labelled]
    exact labelled_append (by rw [hnext])
  · intro _
    rw [hnext]
  · intro hother
    rw [ReactiveRecordController.sessionKey, hidentity] at hother
    exact absurd hcurrent hother

/-- While another session is current, what happens does not concern the labelled snapshots. -/
theorem Agrees.absorb (h : Agrees host session controller silent)
    (hother : controller.sessionKey host ≠ some session) {action : Action}
    (haction : ∀ session, action ≠ .session session) :
    Agrees host session (controller.next host project table recordId maxRememberedEvents action)
      silent := by
  obtain ⟨shown, hshows, hlabels⟩ := @ReactiveRecordController.next_shows host project table recordId
    maxRememberedEvents controller action
  obtain ⟨hprevious, hidentity⟩ := @ReactiveRecordController.next_session host project table recordId
    maxRememberedEvents controller _ haction
  have hsnapshots : (controller.next host project table recordId maxRememberedEvents action).snapshots =
      controller.snapshots ++ shown :=
    (congrArg ReactiveRecordController.snapshots (hshows controller.snapshots):)
  refine ⟨h.previous.trans hprevious.symm, h.identity.trans hidentity.symm, ?_, ?_, ?_⟩
  · have hnone : (shown.filter fun snapshot =>
        host.transportSessionKey snapshot.session = session) = [] := by
      apply List.filter_eq_nil_iff.mpr
      intro snapshot hmem hlabel
      apply hother
      rw [hlabels snapshot hmem, of_decide_eq_true hlabel]
    rw [labelled_append hsnapshots, hnone, List.append_nil]
    exact h.labelled
  · intro hcurrent
    rw [ReactiveRecordController.sessionKey, hidentity] at hcurrent
    exact absurd hcurrent hother
  · intro _
    exact h.other hother

/-- Where nothing is held nothing happens but a session, or an event of the current one. -/
theorem next_of_blank
    (hblank : silent = { ReactiveRecordController.start with
      previous := silent.previous, identity := silent.identity, snapshots := silent.snapshots })
    {action : Action} (haction : ∀ session, action ≠ .session session)
    (hevent : ∀ event, action = .source event → silent.admits host table recordId event = false) :
    silent.next host project table recordId maxRememberedEvents action = silent := by
  cases action with
  | session session => exact absurd rfl (haction session)
  | source event => simp [ReactiveRecordController.next, ReactiveRecordController.onEvent, hevent]
  | settle =>
    rw [hblank]
    rfl
  | deliver =>
    rw [hblank]
    rfl

theorem admits_session {event : SyncRecordEvent}
    (h : controller.admits host table recordId event = true) :
    controller.sessionKey host = some event.sessionPartition := by
  rw [ReactiveRecordController.admits, Option.any_eq_true] at h
  obtain ⟨identity, hidentity, h⟩ := h
  simp only [Bool.and_eq_true, decide_eq_true_eq] at h
  rw [ReactiveRecordController.sessionKey, hidentity, h.1.1]
  rfl

theorem Agrees.onSession (h : Agrees host session controller silent) {next : SyncSession}
    (hquiet : QuietSwitch host controller (.session next)) :
    Agrees host session (controller.onSession host next) (silent.onSession host next) := by
  simp only [ReactiveRecordController.onSession, h.previous]
  by_cases hsame : controller.previous.any (sameSession host · next) = true
  · simp only [hsame, if_true]
    exact h
  · simp only [hsame, Bool.false_eq_true, if_false]
    cases next with
    | authenticated identity =>
      refine ⟨rfl, rfl, h.labelled, fun hnew => ?_, fun hnew => ?_⟩
      · by_cases hcurrent : controller.sessionKey host = some session
        · rw [h.current hcurrent]
        · have hleft : controller.sessionKey host ≠ some (host.transportSessionKey identity) :=
            fun hkey => hcurrent (hkey.trans hnew)
          obtain ⟨hawaited, hwaiting⟩ := hquiet hleft
          rw [h.other hcurrent, hawaited, hwaiting]
          rfl
      · by_cases hcurrent : controller.sessionKey host = some session
        · have hleft : controller.sessionKey host ≠ some (host.transportSessionKey identity) :=
            fun hkey => hnew (hkey.symm.trans hcurrent)
          obtain ⟨hawaited, hwaiting⟩ := hquiet hleft
          rw [h.current hcurrent, hawaited, hwaiting]
          rfl
        · rw [h.other hcurrent]
          rfl
    | anonymous | unauthenticated | degraded =>
      refine ⟨rfl, h.identity, h.labelled, fun hcurrent => ?_, fun hother => ?_⟩
      · rw [h.current hcurrent]
      · rw [h.other hother]

theorem Agrees.kept (h : Agrees host session controller silent) {action : Action}
    (hquiet : QuietSwitch host controller action) (hkeep : ofSession session action = true) :
    Agrees host session (controller.next host project table recordId maxRememberedEvents action)
      (silent.next host project table recordId maxRememberedEvents action) := by
  by_cases haction : ∀ session, action ≠ .session session
  · by_cases hcurrent : controller.sessionKey host = some session
    · exact h.next_of_current hcurrent haction
    · rw [next_of_blank (h.other hcurrent) haction ?_]
      · exact h.absorb hcurrent haction
      · intro event hevent
        rw [hevent] at hkeep
        rw [Bool.eq_false_iff]
        intro hadmits
        apply hcurrent
        rw [← of_decide_eq_true hkeep, ← admits_session hadmits]
        simp only [ReactiveRecordController.sessionKey, h.identity]
  · simp only [ne_eq, not_forall, not_not] at haction
    obtain ⟨next, rfl⟩ := haction
    exact h.onSession hquiet

theorem Agrees.dropped (h : Agrees host session controller silent) {action : Action}
    (hdrop : ofSession session action = false) :
    Agrees host session (controller.next host project table recordId maxRememberedEvents action)
      silent := by
  cases action with
  | session | settle | deliver => cases hdrop
  | source event =>
    by_cases hcurrent : controller.sessionKey host = some session
    · have hadmits : ¬ controller.admits host table recordId event = true := by
        intro hadmits
        have hkey := (admits_session hadmits).symm.trans hcurrent
        exact of_decide_eq_false hdrop (Option.some.inj hkey)
      rw [ReactiveRecordController.next, ReactiveRecordController.onEvent, if_neg hadmits]
      exact h
    · exact h.absorb hcurrent fun _ => Action.noConfusion

theorem agrees_start : Agrees host session .start .start :=
  ⟨rfl, rfl, rfl, fun _ => rfl, fun _ => rfl⟩

structure Own (host : JsonHost) (project : Json → Json → Bool → Option Json)
    (Sent : SyncRecordEvent → Prop) (controller : ReactiveRecordController) : Prop where
  held : HoldsOwn host controller
  sent : ∀ event, controller.localView = some event ∨ controller.authoritative = some event ∨
    event ∈ controller.waiting → Sent event
  waiting : ∀ event ∈ controller.waiting, controller.sessionKey host = some event.sessionPartition
  awaited : ∀ event result, controller.awaited = some (.projection event result) →
    controller.sessionKey host = some event.sessionPartition ∧
      ∀ value, result = some value → ProjectedFrom project Sent event.sessionPartition value
  snapshots : ∀ snapshot ∈ controller.snapshots, Isolated host project Sent snapshot

variable {Sent : SyncRecordEvent → Prop}

theorem own_start : Own host project Sent .start where
  held _ h := by rcases h with h | h <;> cases h
  sent _ h := by
    rcases h with h | h | h
    · cases h
    · cases h
    · exact absurd h List.not_mem_nil
  waiting _ h := absurd h List.not_mem_nil
  awaited _ _ h := by cases h
  snapshots _ h := absurd h List.not_mem_nil

/-- The event is held in its place, and the result awaited is the projection of what is held. -/
theorem Own.hold (h : Own host project Sent controller) {event : SyncRecordEvent}
    (hevent : controller.sessionKey host = some event.sessionPartition) (hsent : Sent event)
    {localView authoritative : Option SyncRecordEvent} (seen : List String)
    (hlocal : localView = some event ∨ localView = controller.localView)
    (hauthoritative : authoritative = some event ∨ authoritative = controller.authoritative) :
    Own host project Sent { controller with
      localView, authoritative, seen
      awaited := some (.projection event (project (payloadOf authoritative) (payloadOf localView)
        (localView.any (·.pending)))) } := by
  have hheld : ∀ held, localView = some held ∨ authoritative = some held →
      controller.sessionKey host = some held.sessionPartition := by
    intro held hheld
    rcases hheld with hheld | hheld
    · rcases hlocal with hlocal | hlocal
      · rw [hevent, Option.some.inj (hlocal.symm.trans hheld)]
      · exact h.held held (.inl (hlocal.symm.trans hheld))
    · rcases hauthoritative with hauthoritative | hauthoritative
      · rw [hevent, Option.some.inj (hauthoritative.symm.trans hheld)]
      · exact h.held held (.inr (hauthoritative.symm.trans hheld))
  have hallSent : ∀ held, localView = some held ∨ authoritative = some held ∨
      held ∈ controller.waiting → Sent held := by
    intro held hheld
    rcases hheld with hheld | hheld | hheld
    · rcases hlocal with hlocal | hlocal
      · exact Option.some.inj (hlocal.symm.trans hheld) ▸ hsent
      · exact h.sent held (.inl (hlocal.symm.trans hheld))
    · rcases hauthoritative with hauthoritative | hauthoritative
      · exact Option.some.inj (hauthoritative.symm.trans hheld) ▸ hsent
      · exact h.sent held (.inr (.inl (hauthoritative.symm.trans hheld)))
    · exact h.sent held (.inr (.inr hheld))
  refine ⟨hheld, hallSent, h.waiting, ?_, h.snapshots⟩
  rintro _ _ ⟨⟩
  refine ⟨hevent, fun value hvalue => ⟨authoritative, localView, ?_, hvalue⟩⟩
  intro held hmem
  exact ⟨hallSent held (hmem.imp_right .inl),
    Option.some.inj ((hheld held hmem).symm.trans hevent)⟩

theorem Own.apply (h : Own host project Sent controller) {event : SyncRecordEvent}
    (hevent : controller.sessionKey host = some event.sessionPartition) (hsent : Sent event) :
    Own host project Sent (controller.apply host project maxRememberedEvents event) := by
  rw [ReactiveRecordController.apply]
  by_cases hseen : controller.seen.contains (host.recordEventDedupeKey event) = true
  · simp only [hseen, if_true]
    exact ⟨h.held, h.sent, h.waiting, fun _ _ hawaited => (by cases hawaited), h.snapshots⟩
  · simp only [hseen, Bool.false_eq_true, if_false]
    cases event.authority with
    | localView => exact h.hold hevent hsent _ (.inl rfl) (.inr rfl)
    | authoritative => exact h.hold hevent hsent _ (.inr rfl) (.inl rfl)

theorem Own.onSession (h : Own host project Sent controller) {next : SyncSession}
    (hquiet : QuietSwitch host controller (.session next)) :
    Own host project Sent (controller.onSession host next) := by
  rw [ReactiveRecordController.onSession]
  split
  · exact h
  · cases next with
    | anonymous | unauthenticated | degraded =>
      exact ⟨h.held, h.sent, h.waiting, h.awaited, h.snapshots⟩
    | authenticated identity =>
      have hnone : ∀ event : SyncRecordEvent, none = some event ∨ none = some event →
          some (host.transportSessionKey identity) = some event.sessionPartition := by
        intro event hheld
        rcases hheld with hheld | hheld <;> cases hheld
      have hsent : ∀ event : SyncRecordEvent, none = some event ∨ none = some event ∨
          event ∈ controller.waiting → Sent event := by
        intro event hheld
        rcases hheld with hheld | hheld | hheld
        · cases hheld
        · cases hheld
        · exact h.sent event (.inr (.inr hheld))
      by_cases hkey : controller.sessionKey host = some (host.transportSessionKey identity)
      · refine ⟨hnone, hsent, fun event hmem => ?_, fun event result hawaited => ?_, h.snapshots⟩
        · exact hkey.symm.trans (h.waiting event hmem)
        · obtain ⟨hevent, hvalue⟩ := h.awaited event result hawaited
          exact ⟨hkey.symm.trans hevent, hvalue⟩
      · obtain ⟨hawaited, hwaiting⟩ := hquiet hkey
        refine ⟨hnone, hsent, fun event hmem => ?_, fun event result hsome => ?_, h.snapshots⟩
        · rw [hwaiting] at hmem
          exact absurd hmem List.not_mem_nil
        · cases hawaited.symm.trans hsome

theorem Own.onEvent (h : Own host project Sent controller) {event : SyncRecordEvent}
    (hsent : Sent event) :
    Own host project Sent
      (controller.onEvent host project table recordId maxRememberedEvents event) := by
  rw [ReactiveRecordController.onEvent]
  split
  · next hadmits =>
    have hevent := admits_session hadmits
    split
    · exact h.apply hevent hsent
    · refine ⟨h.held, fun held hheld => ?_, fun waiting hmem => ?_, h.awaited, h.snapshots⟩
      · rcases hheld with hheld | hheld | hheld
        · exact h.sent held (.inl hheld)
        · exact h.sent held (.inr (.inl hheld))
        · rcases List.mem_append.mp hheld with hheld | hheld
          · exact h.sent held (.inr (.inr hheld))
          · rw [List.mem_singleton.mp hheld]
            exact hsent
      · rcases List.mem_append.mp hmem with hmem | hmem
        · exact h.waiting waiting hmem
        · rw [List.mem_singleton.mp hmem]
          exact hevent
  · exact h

theorem Own.settle (h : Own host project Sent controller) :
    Own host project Sent (controller.settle host table recordId) := by
  have hidle : Own host project Sent { controller with awaited := none } :=
    ⟨h.held, h.sent, h.waiting, fun _ _ hawaited => (by cases hawaited), h.snapshots⟩
  rw [ReactiveRecordController.settle]
  split
  · exact h
  · exact hidle
  · exact hidle
  · next event projected hawaited =>
    obtain ⟨hevent, hvalue⟩ := h.awaited event (some projected) hawaited
    split
    · exact hidle
    · split
      · exact hidle
      · next session hsession =>
        have hkey : controller.sessionKey host = some (host.transportSessionKey session) := by
          rw [ReactiveRecordController.sessionKey, hsession]
          rfl
        have hown : host.transportSessionKey session = event.sessionPartition :=
          Option.some.inj (hkey.symm.trans hevent)
        refine ⟨h.held, h.sent, h.waiting, fun _ _ hawaited => (by cases hawaited),
          fun snapshot hmem => ?_⟩
        rcases List.mem_append.mp hmem with hmem | hmem
        · exact h.snapshots snapshot hmem
        · rw [List.mem_singleton.mp hmem]
          refine ⟨fun held hheld => ?_, hown.symm, ?_⟩
          · exact Option.some.inj ((h.held held hheld).symm.trans hkey)
          · rw [hown]
            exact hvalue projected rfl

theorem Own.deliver (h : Own host project Sent controller) :
    Own host project Sent (controller.deliver host project maxRememberedEvents) := by
  rw [ReactiveRecordController.deliver]
  split
  · next event waiting hawaited hwaiting =>
    have hmem : ∀ later ∈ event :: waiting, controller.sessionKey host =
        some later.sessionPartition := by
      intro later hlater
      exact h.waiting later (hwaiting ▸ hlater)
    have hrest : Own host project Sent { controller with waiting } :=
      ⟨h.held, fun held hheld => h.sent held (hheld.imp_right (.imp_right fun hlater =>
          hwaiting ▸ List.mem_cons_of_mem _ hlater)),
        fun later hlater => hmem later (List.mem_cons_of_mem _ hlater), h.awaited, h.snapshots⟩
    exact hrest.apply (hmem event List.mem_cons_self)
      (h.sent event (.inr (.inr (hwaiting ▸ List.mem_cons_self))))
  · exact h

theorem Own.next (h : Own host project Sent controller) {action : Action}
    (hquiet : QuietSwitch host controller action)
    (hsent : ∀ event, action = .source event → Sent event) :
    Own host project Sent
      (controller.next host project table recordId maxRememberedEvents action) := by
  cases action with
  | session next => exact h.onSession hquiet
  | source event => exact h.onEvent (hsent event rfl)
  | settle => exact h.settle
  | deliver => exact h.deliver

theorem Agrees.run {actions : List Action} (h : Agrees host session controller silent)
    (hquiet : StepsMeet
      (ReactiveRecordController.next host project table recordId maxRememberedEvents)
      (QuietSwitch host) controller actions) :
    Agrees host session
      (run (ReactiveRecordController.next host project table recordId maxRememberedEvents) controller
        actions)
      (run (ReactiveRecordController.next host project table recordId maxRememberedEvents) silent
        (actions.filter (ofSession session))) := by
  apply run_filter_related _ _ h hquiet
  · intro _ _ _ hquiet hkeep hagrees
    exact hagrees.kept hquiet hkeep
  · intro _ _ _ _ hdrop hagrees
    exact hagrees.dropped hdrop

end

/-- In a run that never leaves a session while one of its events is awaited or waits, snapshots and
state are of their own session, and the snapshots of a session are those of the run in which no
event of another session happens. -/
theorem controller_isolates (host : JsonHost) (project : Json → Json → Bool → Option Json)
    (table recordId : String) (maxRememberedEvents : ℕ) (actions : List Action)
    (h : StepsMeet
      (ReactiveRecordController.next host project table recordId maxRememberedEvents)
      (QuietSwitch host) .start actions) :
    StatesMeet (ReactiveRecordController.next host project table recordId maxRememberedEvents)
        (fun controller => HoldsOwn host controller ∧
          ∀ snapshot ∈ controller.snapshots,
            Isolated host project (.source · ∈ actions) snapshot) .start actions ∧
      ∀ session,
        (run (ReactiveRecordController.next host project table recordId maxRememberedEvents) .start
            (actions.filter (ofSession session))).labelled host session =
          (run (ReactiveRecordController.next host project table recordId maxRememberedEvents) .start
            actions).labelled host session := by
  constructor
  · have hown := StatesMeet.of_stepsMeet (I := Own host project (.source · ∈ actions))
      (fun _ _ hstep hown => hown.next hstep.1 fun event hsource => hsource ▸ hstep.2) own_start
      h.and_mem
    exact hown.imp fun _ hown => ⟨hown.held, hown.snapshots⟩
  · intro session
    exact (agrees_start.run h).labelled

def todoIdentity (sharedUserId : String) : SyncSessionIdentity :=
  { todoOptions.identity with sharedUserId }

def eventOf (sharedUserId payload : String) : SyncRecordEvent :=
  { todoEvent .authoritative "1" payload false with
    sessionPartition := plainHost.transportSessionKey (todoIdentity sharedUserId) }

/-- The first user's event is shown before the second signs in. -/
def inTurn : List Action :=
  [.session (.authenticated (todoIdentity "a")), .source (eventOf "a" "first"), .settle,
    .session (.authenticated (todoIdentity "b")), .source (eventOf "b" "second"), .settle]

/-- The second user signs in while the first one's event is projected. -/
def inFlight : List Action :=
  [.session (.authenticated (todoIdentity "a")), .source (eventOf "a" "first"),
    .session (.authenticated (todoIdentity "b")), .settle]

def projectNow (authoritative localView : Json) (localPending : Bool) : Option Json :=
  some (defaultProject authoritative localView localPending)

theorem controller_isolates_inTurn :
    StatesMeet (ReactiveRecordController.next plainHost projectNow "todos" "a" 2048)
        (fun controller => HoldsOwn plainHost controller ∧
          ∀ snapshot ∈ controller.snapshots,
            Isolated plainHost projectNow (.source · ∈ inTurn) snapshot) .start inTurn ∧
      ∀ session,
        (run (ReactiveRecordController.next plainHost projectNow "todos" "a" 2048) .start
            (inTurn.filter (ofSession session))).labelled plainHost session =
          (run (ReactiveRecordController.next plainHost projectNow "todos" "a" 2048) .start
            inTurn).labelled plainHost session :=
  controller_isolates plainHost projectNow "todos" "a" 2048 inTurn
    ⟨fun _ => ⟨rfl, rfl⟩, trivial, trivial, fun _ => ⟨rfl, rfl⟩, trivial, trivial, trivial⟩

/-- The second user is shown what the first one's event brought. -/
theorem inFlight_shows_other :
    ∃ snapshot ∈ (run (ReactiveRecordController.next plainHost projectNow "todos" "a" 2048) .start
        inFlight).snapshots,
      snapshot.session = todoIdentity "b" ∧ snapshot.value = .string "first" ∧
        ¬ Isolated plainHost projectNow (.source · ∈ inFlight) snapshot := by
  refine ⟨_, List.mem_singleton.mpr rfl, rfl, rfl, ?_⟩
  intro h
  exact absurd h.lastEvent (by decide)

end OptoSync.Reactive.Dart
