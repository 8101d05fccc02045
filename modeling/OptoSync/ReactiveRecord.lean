import OptoSync.IndexedDbQueue
import OptoSync.RecordEvents
import OptoSync.Transition

/-!
# The reactive record

`createReactiveRecord$` with the default projection: the events of the sources, one after the
other, through an accumulator to the snapshots of one record. Beside it the value that the events
so far call for, whatever their order.
-/
namespace OptoSync.Reactive
open Transition

structure ReactiveRecordOptions where
  table : String
  recordId : String
  identity : SyncSessionIdentity
  maxRememberedEvents : ℕ

structure RecordAccumulator where
  localView : Option SyncRecordEvent
  authoritative : Option SyncRecordEvent
  /-- The remembered keys, the oldest first. -/
  seen : List String
  value : Json

structure ReactiveRecordSnapshot where
  session : SyncSessionIdentity
  table : String
  recordId : String
  value : Json
  localView : Option SyncRecordEvent
  authoritative : Option SyncRecordEvent
  lastEvent : SyncRecordEvent

def payloadOf (event : Option SyncRecordEvent) : Json := (event.map (·.payload)).getD .null

/-- Remember one more key, and forget the oldest where they are too many. -/
def remember (seen : List String) (key : String) (maxRemembered : ℕ) : List String :=
  let seen := seen ++ [key]
  if maxRemembered < seen.length then seen.tail else seen

section
variable (host : JsonHost) (options : ReactiveRecordOptions)

def ReactiveRecordOptions.relevant (event : SyncRecordEvent) : Bool :=
  event.sessionPartition = host.transportSessionKey options.identity &&
    event.table = options.table && event.recordId = options.recordId

/-- The accumulator once the event is remembered and held. -/
def RecordAccumulator.hold (accumulator : RecordAccumulator) (event : SyncRecordEvent) :
    RecordAccumulator :=
  let seen := remember accumulator.seen (host.recordEventDedupeKey event)
    options.maxRememberedEvents
  match event.authority with
  | .localView => { accumulator with seen, localView := some event }
  | .authoritative => { accumulator with seen, authoritative := some event }

/-- The projection of the accumulator. -/
def RecordAccumulator.projected (accumulator : RecordAccumulator) : Json :=
  defaultProject (payloadOf accumulator.authoritative) (payloadOf accumulator.localView)
    (accumulator.localView.any (·.pending))

def RecordAccumulator.receive (accumulator : RecordAccumulator) (event : SyncRecordEvent) :
    RecordAccumulator × Option ReactiveRecordSnapshot :=
  if !options.relevant host event then (accumulator, none)
  else
    if accumulator.seen.contains (host.recordEventDedupeKey event) then (accumulator, none)
    else
      let accumulator := accumulator.hold host options event
      let projected := accumulator.projected
      -- The event is the local one exactly when it is a local view.
      if host.sameProjectedValue accumulator.value projected && event.authority ≠ .localView then
        (accumulator, none)
      else
        ({ accumulator with value := projected }, some {
          session := options.identity
          table := options.table
          recordId := options.recordId
          value := projected
          localView := accumulator.localView
          authoritative := accumulator.authoritative
          lastEvent := event })

/-- A session of the record: the accumulator, what was emitted and what was received. -/
structure RecordSession where
  accumulator : RecordAccumulator
  snapshots : List ReactiveRecordSnapshot
  received : List SyncRecordEvent

def RecordSession.start : RecordSession where
  accumulator := { localView := none, authoritative := none, seen := [], value := .null }
  snapshots := []
  received := []

def RecordSession.next (session : RecordSession) (event : SyncRecordEvent) : RecordSession :=
  let (accumulator, snapshot) := session.accumulator.receive host options event
  { accumulator
    snapshots := session.snapshots ++ snapshot.toList
    received := session.received ++ if options.relevant host event then [event] else [] }

end

/-- The value of the last snapshot. -/
def RecordSession.current (session : RecordSession) : Option Json :=
  session.snapshots.getLast?.map (·.value)

def latestLocal : List SyncRecordEvent → Option SyncRecordEvent :=
  List.foldl (fun latest event => if event.authority = .localView then some event else latest) none

/-- The greater of two revisions, the later event where they are equal. -/
def newer (newest : Option SyncRecordEvent) (event : SyncRecordEvent) : Option SyncRecordEvent :=
  match newest with
  | none => some event
  | some best => if bigInt best.revision ≤ bigInt event.revision then some event else some best

def newestAuthoritative : List SyncRecordEvent → Option SyncRecordEvent :=
  List.foldl (fun newest event =>
    if event.authority = .authoritative then newer newest event else newest) none

/-- The local payload while it is pending or nothing authoritative is known, else the payload of
the newest authoritative event. -/
def wanted : Option SyncRecordEvent → Option SyncRecordEvent → Json
  | some event, some newest => if event.pending then event.payload else newest.payload
  | some event, none => event.payload
  | none, newest => payloadOf newest

def reference (received : List SyncRecordEvent) : Json :=
  wanted (latestLocal received) (newestAuthoritative received)

/-- After an event there is a value, and it is the one called for. -/
def Shows (host : JsonHost) (session : RecordSession) : Prop :=
  session.received ≠ [] → ∃ value, session.current = some value ∧
    host.sameProjectedValue value (reference session.received) = true

section
variable (host : JsonHost)

def SamePayload (a b : SyncRecordEvent) : Prop :=
  host.sameProjectedValue a.payload b.payload = true

/-- An event that brings nothing new after the events so far. -/
def Repeats (received : List SyncRecordEvent) (event : SyncRecordEvent) : Prop :=
  match event.authority with
  | .localView => ∃ latest, latestLocal received = some latest ∧
      latest.pending = event.pending ∧ SamePayload host latest event
  | .authoritative => ∃ newest, newestAuthoritative received = some newest ∧
      (bigInt event.revision < bigInt newest.revision ∨ SamePayload host newest event)

/-- An authoritative event older than the newest, with another payload. -/
def Stale (received : List SyncRecordEvent) (event : SyncRecordEvent) : Prop :=
  event.authority = .authoritative ∧ ∃ newest, newestAuthoritative received = some newest ∧
    bigInt event.revision < bigInt newest.revision ∧ ¬ SamePayload host newest event

/-- The newest authoritative event is a tombstone, and the latest local one, not pending, is
none. -/
def TombstoneHidden (received : List SyncRecordEvent) : Prop :=
  ∃ event newest, latestLocal received = some event ∧ newestAuthoritative received = some newest ∧
    event.pending = false ∧ newest.payload = .null ∧ event.payload ≠ .null

/-- The condition on one event. -/
def Faithful (options : ReactiveRecordOptions) (session : RecordSession) (event : SyncRecordEvent) :
    Prop :=
  options.relevant host event = true →
    (if session.accumulator.seen.contains (host.recordEventDedupeKey event) then
      Repeats host session.received event
    else ¬ Stale host session.received event) ∧
    ¬ TombstoneHidden (session.received ++ [event]) ∧
    (session.received = [] → event.authority = .authoritative → event.payload ≠ .null)

end

section
variable {host : JsonHost}

theorem latestLocal_concat (received : List SyncRecordEvent) (event : SyncRecordEvent) :
    latestLocal (received ++ [event]) =
      if event.authority = .localView then some event else latestLocal received := by
  rw [latestLocal, List.foldl_append]
  rfl

theorem newestAuthoritative_concat (received : List SyncRecordEvent) (event : SyncRecordEvent) :
    newestAuthoritative (received ++ [event]) =
      if event.authority = .authoritative then newer (newestAuthoritative received) event
      else newestAuthoritative received := by
  rw [newestAuthoritative, List.foldl_append]
  rfl

/-- Two local events that the projection does not tell apart. -/
def Alike (host : JsonHost) (a b : SyncRecordEvent) : Prop :=
  a.pending = b.pending ∧ SamePayload host a b

theorem SamePayload.null_iff {a b : SyncRecordEvent} (h : SamePayload host a b) :
    a.payload = .null ↔ b.payload = .null := by
  constructor
  · intro ha
    rw [SamePayload, ha] at h
    exact host.sameProjectedValue_null.mp (JsonHost.sameProjectedValue_symm h)
  · intro hb
    rw [SamePayload, hb] at h
    exact host.sameProjectedValue_null.mp h

theorem defaultProject_alike {own latest kept newest : Option SyncRecordEvent}
    (hlocal : Option.Rel (Alike host) own latest)
    (hauthoritative : Option.Rel (SamePayload host) kept newest)
    (hshown : ∀ event tombstone, latest = some event → newest = some tombstone →
      event.pending = false → tombstone.payload = .null → event.payload = .null) :
    host.sameProjectedValue
      (defaultProject (payloadOf kept) (payloadOf own) (own.any (·.pending)))
      (wanted latest newest) = true := by
  cases hlocal with
  | none =>
    have hproject : ∀ payload, defaultProject payload (payloadOf none) false = payload := by
      intro payload
      by_cases hnull : payload = .null <;> simp [defaultProject, payloadOf, hnull]
    show host.sameProjectedValue (defaultProject (payloadOf kept) (payloadOf none) false) _ = true
    rw [hproject]
    cases hauthoritative with
    | none => exact host.sameProjectedValue_refl _
    | some hsame => exact hsame
  | @some own latest hown =>
    obtain ⟨hpending, hpayload⟩ := hown
    have hproject : ∀ payload, own.pending = true ∨ payload = .null →
        defaultProject payload own.payload own.pending = own.payload := by
      intro payload h
      rcases h with h | h <;> simp [defaultProject, h]
    show host.sameProjectedValue (defaultProject (payloadOf kept) own.payload own.pending) _ = true
    cases hauthoritative with
    | none =>
      rw [hproject (payloadOf none) (Or.inr rfl)]
      exact hpayload
    | @some kept newest hsame =>
      cases hp : latest.pending with
      | true =>
        rw [hproject _ (Or.inl (hpending.trans hp)), wanted, if_pos hp]
        exact hpayload
      | false =>
        have hquiet : ¬ own.pending = true := by simp [hpending, hp]
        rw [wanted, if_neg (by simp [hp])]
        by_cases hkept : kept.payload = .null
        · have hnewest := hsame.null_iff.mp hkept
          have hlatest := hshown latest newest rfl rfl hp hnewest
          rw [hproject (payloadOf (some kept)) (Or.inr hkept), hnewest, hpayload.null_iff.mpr hlatest]
          exact host.sameProjectedValue_refl _
        · have hkeeps : defaultProject (payloadOf (some kept)) own.payload own.pending =
              kept.payload := by
            rw [defaultProject, if_neg hquiet]
            exact if_neg hkept
          rw [hkeeps]
          exact hsame

/-- The accumulator holds what the events so far call for, and the last snapshot is current. -/
structure Inv (host : JsonHost) (session : RecordSession) : Prop where
  localView : Option.Rel (Alike host) session.accumulator.localView (latestLocal session.received)
  authoritative : Option.Rel (SamePayload host) session.accumulator.authoritative
    (newestAuthoritative session.received)
  start : session.received = [] → session.accumulator.value = .null
  current : session.received ≠ [] → session.current = some session.accumulator.value
  projected : host.sameProjectedValue session.accumulator.value session.accumulator.projected = true
  shown : ¬ TombstoneHidden session.received

theorem Inv.shows {session : RecordSession} (h : Inv host session) : Shows host session := by
  intro hne
  refine ⟨_, h.current hne, JsonHost.sameProjectedValue_trans h.projected ?_⟩
  refine defaultProject_alike h.localView h.authoritative ?_
  intro event tombstone hlatest hnewest hquiet hnull
  by_contra hne
  exact h.shown ⟨event, tombstone, hlatest, hnewest, hquiet, hnull, hne⟩

theorem inv_start : Inv host .start where
  localView := .none
  authoritative := .none
  start _ := rfl
  current h := absurd rfl h
  projected := host.sameProjectedValue_refl _
  shown h := by
    obtain ⟨event, newest, hlatest, -⟩ := h
    cases hlatest

theorem Alike.refl (event : SyncRecordEvent) : Alike host event event :=
  ⟨rfl, host.sameProjectedValue_refl _⟩

variable {options : ReactiveRecordOptions} {session : RecordSession} {event : SyncRecordEvent}

/-- What is known repeats: the events call for the same as before. -/
theorem Inv.repeated (h : Inv host session) (hrepeats : Repeats host session.received event) :
    session.received ≠ [] ∧
      Option.Rel (Alike host) session.accumulator.localView
        (latestLocal (session.received ++ [event])) ∧
      Option.Rel (SamePayload host) session.accumulator.authoritative
        (newestAuthoritative (session.received ++ [event])) := by
  have hlocal := h.localView
  have hauthoritative := h.authoritative
  rw [latestLocal_concat, newestAuthoritative_concat]
  rw [Repeats] at hrepeats
  cases hauthority : event.authority with
  | localView =>
    simp only [hauthority] at hrepeats
    obtain ⟨latest, hlatest, hpending, hpayload⟩ := hrepeats
    refine ⟨?_, ?_, hauthoritative⟩
    · intro hempty
      rw [hempty] at hlatest
      cases hlatest
    · rw [hlatest] at hlocal
      generalize session.accumulator.localView = own at hlocal
      cases hlocal with
      | some halike =>
        exact .some ⟨halike.1.trans hpending, JsonHost.sameProjectedValue_trans halike.2 hpayload⟩
  | authoritative =>
    simp only [hauthority] at hrepeats
    obtain ⟨newest, hnewest, hknown⟩ := hrepeats
    refine ⟨?_, hlocal, ?_⟩
    · intro hempty
      rw [hempty] at hnewest
      cases hnewest
    · rw [hnewest] at hauthoritative
      rw [if_pos rfl, hnewest, newer]
      split
      · next hle =>
        have hpayload : SamePayload host newest event := hknown.resolve_left (by omega)
        generalize session.accumulator.authoritative = kept at hauthoritative
        cases hauthoritative with
        | some hsame => exact .some (JsonHost.sameProjectedValue_trans hsame hpayload)
      · exact hauthoritative

/-- An event that is not stale is held as what the events call for. -/
theorem Inv.held (h : Inv host session) (hstale : ¬ Stale host session.received event) :
    Option.Rel (Alike host) (session.accumulator.hold host options event).localView
        (latestLocal (session.received ++ [event])) ∧
      Option.Rel (SamePayload host) (session.accumulator.hold host options event).authoritative
        (newestAuthoritative (session.received ++ [event])) := by
  rw [latestLocal_concat, newestAuthoritative_concat, RecordAccumulator.hold]
  cases hauthority : event.authority with
  | localView => exact ⟨.some (Alike.refl event), h.authoritative⟩
  | authoritative =>
    refine ⟨h.localView, ?_⟩
    rw [if_pos rfl]
    cases hnewest : newestAuthoritative session.received with
    | none => exact .some (host.sameProjectedValue_refl _)
    | some newest =>
      rw [newer]
      by_cases hle : bigInt newest.revision ≤ bigInt event.revision
      · rw [if_pos hle]
        exact .some (host.sameProjectedValue_refl _)
      · rw [if_neg hle]
        refine .some (JsonHost.sameProjectedValue_symm ?_)
        by_contra hne
        exact hstale ⟨hauthority, newest, hnewest, by omega, hne⟩

theorem Inv.next (hfaithful : Faithful host options session event) (h : Inv host session) :
    Inv host (session.next host options event) := by
  unfold RecordSession.next RecordAccumulator.receive
  by_cases hrelevant : options.relevant host event = true
  · obtain ⟨hkey, hshown, hfirst⟩ := hfaithful hrelevant
    simp only [hrelevant, Bool.not_true, Bool.false_eq_true, if_false, if_true]
    by_cases hseen : session.accumulator.seen.contains (host.recordEventDedupeKey event) = true
    · rw [if_pos hseen] at hkey ⊢
      obtain ⟨hne, hlocal, hauthoritative⟩ := h.repeated hkey
      refine ⟨hlocal, hauthoritative, by simp, ?_, h.projected, hshown⟩
      intro _
      simpa [RecordSession.current] using h.current hne
    · rw [if_neg hseen] at hkey ⊢
      obtain ⟨hlocal, hauthoritative⟩ := @Inv.held _ options _ _ h hkey
      have hvalue : (session.accumulator.hold host options event).value =
          session.accumulator.value := by
        rw [RecordAccumulator.hold]
        cases event.authority <;> rfl
      by_cases hsame : (host.sameProjectedValue session.accumulator.value
          (session.accumulator.hold host options event).projected &&
            decide (event.authority ≠ .localView)) = true
      · simp only [hvalue, hsame, if_true]
        simp only [Bool.and_eq_true, decide_eq_true_eq] at hsame
        refine ⟨hlocal, hauthoritative, by simp, ?_, ?_, hshown⟩
        · intro _
          -- A first event whose value is null is a tombstone.
          have hne : session.received ≠ [] := by
            intro hempty
            have hauthority : event.authority = .authoritative := by
              cases h : event.authority with
              | localView => exact absurd h hsame.2
              | authoritative => rfl
            refine hfirst hempty hauthority (host.sameProjectedValue_null.mp ?_)
            have hprojected : (session.accumulator.hold host options event).projected =
                event.payload := by
              have hown := h.localView
              rw [hempty] at hown
              generalize session.accumulator = accumulator at hown
              obtain ⟨own, kept, seen, value⟩ := accumulator
              cases hown
              by_cases hnull : event.payload = .null <;>
                simp [RecordAccumulator.hold, hauthority, RecordAccumulator.projected,
                  defaultProject, payloadOf, hnull]
            rw [hprojected, h.start hempty] at hsame
            exact JsonHost.sameProjectedValue_symm hsame.1
          simpa [RecordSession.current, hvalue] using h.current hne
        · simpa only [hvalue] using hsame.1
      · simp only [hvalue, hsame, Bool.false_eq_true, if_false]
        refine ⟨hlocal, hauthoritative, by simp, ?_, host.sameProjectedValue_refl _, hshown⟩
        intro _
        simp [RecordSession.current]
  · simp only [hrelevant, Bool.not_false, if_true]
    simpa using h

/-- In a run of events that are all faithful, the record shows after each event what the events so
far call for. -/
theorem record_shows (host : JsonHost) (options : ReactiveRecordOptions)
    (events : List SyncRecordEvent)
    (h : StepsMeet (RecordSession.next host options) (Faithful host options) .start events) :
    StatesMeet (RecordSession.next host options) (Shows host) .start events :=
  (StatesMeet.of_stepsMeet (fun _ _ hfaithful hinv => hinv.next hfaithful) inv_start h).imp
    fun _ hinv => hinv.shows

end

def plainStringify : Json → String
  | .null => "null"
  | .string value => "\"" ++ value ++ "\""
  | _ => ""

theorem plainStringify_null (value : Json) (h : plainStringify value = plainStringify .null) :
    value = .null := by
  cases value with
  | null => rfl
  | string value =>
    have hhead := congrArg (fun text : String => text.toList.head?) h
    simp [plainStringify] at hhead
  | _ => simp [plainStringify] at h

def plainHost : JsonHost where
  keyLe a b := a ≤ b
  stringify := plainStringify
  encodeComponent := id
  stringify_null := plainStringify_null

def todoOptions : ReactiveRecordOptions where
  table := "todos"
  recordId := "a"
  identity := { sharedUserId := "u", provider := "p", providerTenant := "t", sessionId := some "s" }
  maxRememberedEvents := 2048

def todoEvent (authority : SyncRecordAuthority) (revision payload : String) (pending : Bool) :
    SyncRecordEvent where
  table := "todos"
  recordId := "a"
  operation := "upsert"
  payload := .string payload
  revision
  authority
  pending
  dedupeKey := none
  sessionPartition := "p:t:u:s"

theorem record_shows_todo :
    StatesMeet (RecordSession.next plainHost todoOptions) (Shows plainHost) .start
      [todoEvent .localView "m1" "mine" true, todoEvent .authoritative "7" "mine" false] :=
  record_shows plainHost todoOptions _ (by
    refine ⟨fun _ => ⟨?_, ?_, ?_⟩, fun _ => ⟨?_, ?_, ?_⟩, trivial⟩
    · rw [if_neg (by decide)]
      exact fun h => SyncRecordAuthority.noConfusion h.1
    · intro h
      obtain ⟨event, newest, -, hnewest, -⟩ := h
      cases hnewest
    · exact fun _ h => SyncRecordAuthority.noConfusion h
    · rw [if_neg (by decide)]
      intro h
      obtain ⟨-, newest, hnewest, -⟩ := h
      cases hnewest
    · intro h
      obtain ⟨event, newest, hlatest, -, hquiet, -⟩ := h
      cases hlatest
      cases hquiet
    · exact fun h => absurd h (by decide))

/-- Revision 9 arrives after revision 10 and is shown. -/
theorem staleRevision_is_shown :
    ¬ StatesMeet (RecordSession.next plainHost todoOptions) (Shows plainHost) .start
      [todoEvent .authoritative "10" "new" false, todoEvent .authoritative "9" "old" false] := by
  rintro ⟨-, -, h⟩
  obtain ⟨value, hcurrent, hsame⟩ := h (by decide)
  cases hcurrent
  revert hsame
  decide

end OptoSync.Reactive
