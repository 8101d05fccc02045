import OptoSync.Json
import OptoSync.Transition

/-!
# Cross-tab coordination

`startCrossTabCoordinator` of the TypeScript client in any number of tabs, over an exclusive lock
and a broadcast channel. An observer is called last and caught, so what it throws changes nothing.
-/
namespace OptoSync.CrossTab
open Transition

/-- Where a tab's request for the lock stands. -/
inductive LockRequest
  | unrequested
  | queued
  /-- The grant is decided, and its callback has not run. -/
  | granted
  /-- The promise of the callback is pending. -/
  | held
  /-- The promise is resolved, and the lock manager has not reacted. -/
  | resolved
  /-- Released, or aborted in the queue. -/
  | ended
  deriving DecidableEq

structure Tab where
  request : LockRequest
  leader : Bool
  disposed : Bool
  /-- The loop is between its start and its stop. -/
  running : Bool
  deriving DecidableEq

/-- What was posted, and the tabs that it has not been delivered to. -/
structure Message where
  data : Json
  pending : Finset ℕ

structure Coordinators where
  tabs : ℕ → Tab
  /-- The tabs whose channel is open. -/
  opened : Finset ℕ
  holder : Option ℕ
  /-- The posts and the hints of leaders so far; each is named by its number. -/
  posts : ℕ
  messages : ℕ → Option Message
  /-- The hints that the loops got, each with what caused it. -/
  hints : List (ℕ × ℕ)
  leadershipChanges : List (ℕ × Bool)
  remoteStates : List (ℕ × Json)

inductive Action
  | start (tab : ℕ)
  /-- The lock manager decides to grant the request. -/
  | grant (tab : ℕ)
  | callback (tab : ℕ)
  /-- The lock manager sees that the promise is resolved. -/
  | release (tab : ℕ)
  | hint (tab : ℕ)
  | publishState (tab : ℕ) (state : Json)
  /-- Another script posts to the channel. -/
  | post (data : Json)
  | deliver (message tab : ℕ)
  | dispose (tab : ℕ)

/-- A field of the value, an undefined one if it has none. -/
def field (key : String) : Json → Option Json
  | .object fields => (fields.find? (·.1 = key)).map (·.2)
  | _ => none

def isRecord : Json → Bool
  | .array _ | .object _ => true
  | _ => false

def statuses : List String := ["stopped", "idle", "syncing", "offline", "backoff", "error"]

/-- A number that is integral is an `int`. -/
def isSyncState (value : Json) : Bool :=
  isRecord value &&
    (match field "status" value with
      | some (.string status) => statuses.contains status
      | _ => false) &&
    (match field "consecutiveFailures" value with
      | some (.number (.int failures)) => 0 ≤ failures
      | _ => false) &&
    (match field "nextRetryAt" value with
      | none | some (.number _) => true
      | _ => false) &&
    (match field "lastError" value with
      | none | some (.string _) => true
      | _ => false)

def hintFrame : Json := .object [("type", .string "hint")]

def stateFrame (state : Json) : Json := .object [("state", state), ("type", .string "state")]

namespace Coordinators

def initial : Coordinators where
  tabs := fun _ => ⟨.unrequested, false, false, false⟩
  opened := ∅
  holder := none
  posts := 0
  messages := fun _ => none
  hints := []
  leadershipChanges := []
  remoteStates := []

def setTab (s : Coordinators) (tab : ℕ) (state : Tab) : Coordinators :=
  { s with tabs := Function.update s.tabs tab state }

/-- The tab was started and is not disposed. -/
def active (s : Coordinators) (tab : ℕ) : Bool :=
  (s.tabs tab).request ≠ .unrequested && !(s.tabs tab).disposed

def start (s : Coordinators) (tab : ℕ) : Coordinators :=
  if (s.tabs tab).request = .unrequested then
    { s.setTab tab { s.tabs tab with request := .queued } with opened := insert tab s.opened }
  else s

def grant (s : Coordinators) (tab : ℕ) : Coordinators :=
  if (s.tabs tab).request = .queued ∧ s.holder = none then
    { s.setTab tab { s.tabs tab with request := .granted } with holder := some tab }
  else s

def becomeLeader (s : Coordinators) (tab : ℕ) : Coordinators :=
  if (s.tabs tab).disposed then s
  else
    { s.setTab tab { s.tabs tab with leader := true, running := true } with
      leadershipChanges := s.leadershipChanges ++ [(tab, true)] }

/-- The callback of the lock request. -/
def callback (s : Coordinators) (tab : ℕ) : Coordinators :=
  if (s.tabs tab).request = .granted then
    if (s.tabs tab).disposed then s.setTab tab { s.tabs tab with request := .resolved }
    else (s.setTab tab { s.tabs tab with request := .held }).becomeLeader tab
  else s

def release (s : Coordinators) (tab : ℕ) : Coordinators :=
  if (s.tabs tab).request = .resolved then
    { s.setTab tab { s.tabs tab with request := .ended } with holder := none }
  else s

def postMessage (s : Coordinators) (data : Json) (pending : Finset ℕ) : Coordinators :=
  { s with
    posts := s.posts + 1
    messages := Function.update s.messages s.posts (some ⟨data, pending⟩) }

def hint (s : Coordinators) (tab : ℕ) : Coordinators :=
  if !s.active tab then s
  else if (s.tabs tab).leader then
    { s with posts := s.posts + 1, hints := s.hints ++ [(s.posts, tab)] }
  else s.postMessage hintFrame (s.opened.erase tab)

def publishState (s : Coordinators) (tab : ℕ) (state : Json) : Coordinators :=
  if !s.active tab then s else s.postMessage (stateFrame state) (s.opened.erase tab)

def onMessage (s : Coordinators) (message tab : ℕ) (data : Json) : Coordinators :=
  if (s.tabs tab).disposed || !isRecord data then s
  else if field "type" data = some (.string "hint") && (s.tabs tab).leader then
    { s with hints := s.hints ++ [(message, tab)] }
  else if field "type" data = some (.string "state") && !(s.tabs tab).leader then
    match field "state" data with
    | some state =>
      if isSyncState state then { s with remoteStates := s.remoteStates ++ [(tab, state)] } else s
    | none => s
  else s

def deliver (s : Coordinators) (message tab : ℕ) : Coordinators :=
  match s.messages message with
  | none => s
  | some posted =>
    if tab ∈ posted.pending then
      let left := { posted with pending := posted.pending.erase tab }
      ({ s with messages := Function.update s.messages message (some left) }).onMessage message tab
        posted.data
    else s

/-- The abort takes a request out of the queue, and resolving the promise hands the lock back. -/
def dispose (s : Coordinators) (tab : ℕ) : Coordinators :=
  if !s.active tab then s
  else
    let state := s.tabs tab
    let request := match state.request with
      | .queued => .ended
      | .held => .resolved
      | request => request
    { s.setTab tab { request, leader := false, disposed := true
                     running := if state.leader then false else state.running } with
      opened := s.opened.erase tab
      leadershipChanges := s.leadershipChanges ++ if state.leader then [(tab, false)] else [] }

def next (s : Coordinators) : Action → Coordinators
  | .start tab => s.start tab
  | .grant tab => s.grant tab
  | .callback tab => s.callback tab
  | .release tab => s.release tab
  | .hint tab => s.hint tab
  | .publishState tab state => s.publishState tab state
  | .post data => s.postMessage data s.opened
  | .deliver message tab => s.deliver message tab
  | .dispose tab => s.dispose tab

def leads (s : Coordinators) (tab : ℕ) : Prop := (s.tabs tab).leader = true

/-- The tabs whose loops were hinted for one cause. -/
def hintedBy (s : Coordinators) (cause : ℕ) : List ℕ :=
  (s.hints.filter (·.1 = cause)).map (·.2)

/-- Every open tab that the message was posted to has it. -/
def Delivered (s : Coordinators) (message : ℕ) : Prop :=
  ∀ posted, s.messages message = some posted → ∀ tab ∈ posted.pending, (s.tabs tab).disposed = true

end Coordinators

/-- The promises of the lock: one loop at a time and under the lock, none in a disposed tab, and no
lock kept by a disposed tab whose callbacks have run. -/
structure Exclusive (s : Coordinators) : Prop where
  locked : ∀ tab, (s.tabs tab).running = true → s.holder = some tab
  single : ∀ tab other, (s.tabs tab).running = true → (s.tabs other).running = true → tab = other
  stopped : ∀ tab, (s.tabs tab).disposed = true → (s.tabs tab).running = false
  free : ∀ tab, (s.tabs tab).disposed = true → (s.tabs tab).request ≠ .granted →
    (s.tabs tab).request ≠ .resolved → s.holder ≠ some tab
  handsBack : ∀ tab, (s.tabs tab).disposed = true →
    (run Coordinators.next s [.callback tab, .release tab]).holder ≠ some tab

structure TabFits (state : Tab) (holds opened : Prop) : Prop where
  leader : state.leader = true ↔ state.request = .held
  running : state.running = state.leader
  disposed : state.disposed = true →
    state.request = .granted ∨ state.request = .resolved ∨ state.request = .ended
  holds : holds ↔ state.request = .granted ∨ state.request = .held ∨ state.request = .resolved
  opened : opened ↔ state.request ≠ .unrequested ∧ state.disposed = false

/-- Holds in every run. -/
structure Consistent (s : Coordinators) : Prop where
  tabs : ∀ tab, TabFits (s.tabs tab) (s.holder = some tab) (tab ∈ s.opened)
  unused : ∀ id, s.posts ≤ id → s.messages id = none ∧ s.hintedBy id = []

variable {s : Coordinators}

/-- A step of one tab: what it leaves of the lock and the channel of the others. -/
theorem Consistent.setTab (hs : Consistent s) {tab : ℕ} {state : Tab} {holder : Option ℕ}
    {opened : Finset ℕ} (hfits : TabFits state (holder = some tab) (tab ∈ opened))
    (hholder : ∀ other, other ≠ tab → (holder = some other ↔ s.holder = some other))
    (hopened : ∀ other, other ≠ tab → (other ∈ opened ↔ other ∈ s.opened)) (other : ℕ) :
    TabFits (Function.update s.tabs tab state other) (holder = some other) (other ∈ opened) := by
  by_cases hother : other = tab
  · subst hother
    rw [Function.update_self]
    exact hfits
  · rw [Function.update_of_ne hother, hholder other hother, hopened other hother]
    exact hs.tabs other

theorem Consistent.active_iff (hs : Consistent s) (tab : ℕ) :
    s.active tab = true ↔ tab ∈ s.opened := by
  rw [(hs.tabs tab).opened]
  simp [Coordinators.active]

theorem Consistent.start (hs : Consistent s) (tab : ℕ) : Consistent (s.start tab) := by
  unfold Coordinators.start
  split
  · next hrequest =>
    have hfits := hs.tabs tab
    refine ⟨hs.setTab ?_ (fun _ _ => Iff.rfl) fun other hother => ?_, hs.unused⟩
    · constructor
      · simpa [hrequest] using hfits.leader
      · exact hfits.running
      · intro hdisposed
        have hended := hfits.disposed hdisposed
        simp [hrequest] at hended
      · simpa [hrequest, Coordinators.setTab] using hfits.holds
      · have hdisposed : (s.tabs tab).disposed = false := by
          by_contra h
          have hended := hfits.disposed (by simpa using h)
          simp [hrequest] at hended
        simp [hdisposed]
    · exact Finset.mem_insert.trans (or_iff_right hother)
  · exact hs

theorem Consistent.grant (hs : Consistent s) (tab : ℕ) : Consistent (s.grant tab) := by
  unfold Coordinators.grant
  split
  · next h =>
    obtain ⟨hrequest, hholder⟩ := h
    have hfits := hs.tabs tab
    refine ⟨hs.setTab ?_ (fun other hother => ?_) fun _ _ => Iff.rfl, hs.unused⟩
    · constructor
      · simpa [hrequest] using hfits.leader
      · exact hfits.running
      · exact fun _ => .inl rfl
      · simp
      · simpa [hrequest, Coordinators.setTab] using hfits.opened
    · simp [hholder, Ne.symm hother]
  · exact hs

theorem Consistent.callback (hs : Consistent s) (tab : ℕ) : Consistent (s.callback tab) := by
  unfold Coordinators.callback
  split
  · next hrequest =>
    have hfits := hs.tabs tab
    split
    · refine ⟨hs.setTab ?_ (fun _ _ => Iff.rfl) fun _ _ => Iff.rfl, hs.unused⟩
      constructor
      · simpa [hrequest] using hfits.leader
      · exact hfits.running
      · exact fun _ => .inr (.inl rfl)
      · simpa [hrequest, Coordinators.setTab] using hfits.holds
      · simpa [hrequest, Coordinators.setTab] using hfits.opened
    · next hdisposed =>
      have hleads : (s.setTab tab { s.tabs tab with request := .held }).becomeLeader tab =
          { s.setTab tab { s.tabs tab with request := .held, leader := true, running := true } with
            leadershipChanges := s.leadershipChanges ++ [(tab, true)] } := by
        simp [Coordinators.becomeLeader, Coordinators.setTab, hdisposed]
      rw [hleads]
      refine ⟨hs.setTab ?_ (fun _ _ => Iff.rfl) fun _ _ => Iff.rfl, hs.unused⟩
      constructor
      · simp
      · rfl
      · exact fun h => absurd h hdisposed
      · simpa [hrequest, Coordinators.setTab] using hfits.holds
      · simpa [hrequest, Coordinators.setTab] using hfits.opened
  · exact hs

theorem Consistent.release (hs : Consistent s) (tab : ℕ) : Consistent (s.release tab) := by
  unfold Coordinators.release
  split
  · next hrequest =>
    have hfits := hs.tabs tab
    have hholder : s.holder = some tab := hfits.holds.mpr (.inr (.inr hrequest))
    refine ⟨hs.setTab ?_ (fun other hother => ?_) fun _ _ => Iff.rfl, hs.unused⟩
    · constructor
      · simpa [hrequest] using hfits.leader
      · exact hfits.running
      · exact fun _ => .inr (.inr rfl)
      · simp
      · simpa [hrequest, Coordinators.setTab] using hfits.opened
    · simp [hholder, Ne.symm hother]
  · exact hs

theorem Consistent.dispose (hs : Consistent s) (tab : ℕ) : Consistent (s.dispose tab) := by
  unfold Coordinators.dispose
  split
  · exact hs
  · next hactive =>
    have hfits := hs.tabs tab
    refine ⟨hs.setTab ?_ (fun _ _ => Iff.rfl) fun other hother => ?_, hs.unused⟩
    · have hrunning := hfits.running
      have hholds := hfits.holds
      constructor
      · cases hrequest : (s.tabs tab).request <;> simp
      · cases hleader : (s.tabs tab).leader <;> simp_all
      · intro _
        have hstarted : (s.tabs tab).request ≠ .unrequested := by
          simp [Coordinators.active] at hactive
          exact hactive.1
        cases hrequest : (s.tabs tab).request <;> simp_all
      · dsimp only [Coordinators.setTab]
        cases hrequest : (s.tabs tab).request <;> simp_all
      · simp
    · exact Finset.mem_erase.trans (and_iff_right hother)

def isHint (data : Json) : Bool := isRecord data && field "type" data = some (.string "hint")

theorem hintedBy_append {later : Coordinators} {entries : List (ℕ × ℕ)}
    (h : later.hints = s.hints ++ entries) (cause : ℕ) :
    later.hintedBy cause = s.hintedBy cause ++ (entries.filter (·.1 = cause)).map (·.2) := by
  simp only [Coordinators.hintedBy, h, List.filter_append, List.map_append]

/-- A delivery leaves the tabs alone, and hints the loop of a leader that hears a hint. -/
theorem onMessage_spec (s : Coordinators) (message tab : ℕ) (data : Json) :
    ∃ hints remoteStates, s.onMessage message tab data = { s with hints, remoteStates } ∧
      hints = s.hints ++
        if isHint data = true ∧ (s.tabs tab).leader = true ∧ (s.tabs tab).disposed = false then
          [(message, tab)] else [] := by
  unfold Coordinators.onMessage
  split
  · next hignored =>
    refine ⟨_, _, rfl, ?_⟩
    rw [if_neg, List.append_nil]
    rintro ⟨hhint, -, hdisposed⟩
    simp only [isHint, Bool.and_eq_true] at hhint
    simp [hhint.1, hdisposed] at hignored
  · next hheard =>
    simp only [Bool.or_eq_true, Bool.not_eq_true', not_or, Bool.not_eq_true, Bool.not_eq_false]
      at hheard
    split
    · next hhint =>
      simp only [Bool.and_eq_true, decide_eq_true_eq] at hhint
      refine ⟨_, s.remoteStates, rfl, ?_⟩
      rw [if_pos ⟨by simp [isHint, hheard.2, hhint.1], hhint.2, hheard.1⟩]
    · next hhint =>
      have hnone : ¬(isHint data = true ∧ (s.tabs tab).leader = true ∧
          (s.tabs tab).disposed = false) := by
        rintro ⟨h, hleader, -⟩
        simp only [isHint, Bool.and_eq_true, decide_eq_true_eq] at h
        simp [h.2, hleader] at hhint
      rw [if_neg hnone, List.append_nil]
      split
      · split
        · split
          · exact ⟨_, _, rfl, rfl⟩
          · exact ⟨_, _, rfl, rfl⟩
        · exact ⟨_, _, rfl, rfl⟩
      · exact ⟨_, _, rfl, rfl⟩

theorem Consistent.postMessage (hs : Consistent s) (data : Json) (pending : Finset ℕ) :
    Consistent (s.postMessage data pending) := by
  refine ⟨hs.tabs, fun id hid => ⟨?_, (hs.unused id (Nat.le_of_succ_le hid)).2⟩⟩
  have hne : id ≠ s.posts := by
    have hle : s.posts + 1 ≤ id := hid
    omega
  exact (Function.update_of_ne hne _ _).trans (hs.unused id (Nat.le_of_succ_le hid)).1

theorem Consistent.hint (hs : Consistent s) (tab : ℕ) : Consistent (s.hint tab) := by
  unfold Coordinators.hint
  split
  · exact hs
  · split
    · refine ⟨hs.tabs, fun id hid => ?_⟩
      have hle : s.posts + 1 ≤ id := hid
      obtain ⟨hmessage, hhinted⟩ := hs.unused id (by omega)
      refine ⟨hmessage, (hintedBy_append rfl id).trans ?_⟩
      have hne : s.posts ≠ id := by omega
      simp [hhinted, hne]
    · exact hs.postMessage _ _

/-- The message is one that was posted, so no later post takes its number. -/
theorem Consistent.posted (hs : Consistent s) {message : ℕ} {posted : Message}
    (h : s.messages message = some posted) : message < s.posts := by
  by_contra hle
  rw [(hs.unused message (Nat.not_lt.mp hle)).1] at h
  cases h

theorem deliver_spec (s : Coordinators) (message tab : ℕ) :
    s.deliver message tab = s ∨
      ∃ posted hints remoteStates, s.messages message = some posted ∧ tab ∈ posted.pending ∧
        s.deliver message tab = { s with
          messages := Function.update s.messages message
            (some { posted with pending := posted.pending.erase tab })
          hints, remoteStates } ∧
        hints = s.hints ++ if isHint posted.data = true ∧ (s.tabs tab).leader = true ∧
          (s.tabs tab).disposed = false then [(message, tab)] else [] := by
  unfold Coordinators.deliver
  split
  · exact .inl rfl
  · next posted hposted =>
    split
    · next hpending =>
      right
      obtain ⟨hints, remoteStates, heq, hhints⟩ := onMessage_spec { s with
        messages := Function.update s.messages message
          (some { posted with pending := posted.pending.erase tab }) } message tab posted.data
      exact ⟨posted, hints, remoteStates, hposted, hpending, heq, hhints⟩
    · exact .inl rfl

theorem Consistent.deliver (hs : Consistent s) (message tab : ℕ) :
    Consistent (s.deliver message tab) := by
  obtain heq | ⟨posted, hints, remoteStates, hposted, -, heq, hhints⟩ := deliver_spec s message tab
  · rw [heq]
    exact hs
  · have hmessage := hs.posted hposted
    rw [heq]
    refine ⟨hs.tabs, fun id hid => ?_⟩
    have hle : s.posts ≤ id := hid
    obtain ⟨hnone, hhinted⟩ := hs.unused id hle
    have hne : id ≠ message := by omega
    refine ⟨(Function.update_of_ne hne _ _).trans hnone, ?_⟩
    refine (hintedBy_append hhints id).trans ?_
    rw [hhinted]
    split
    · simp [Ne.symm hne]
    · rfl

theorem Consistent.next (hs : Consistent s) (action : Action) : Consistent (s.next action) := by
  cases action with
  | start tab => exact hs.start tab
  | grant tab => exact hs.grant tab
  | callback tab => exact hs.callback tab
  | release tab => exact hs.release tab
  | hint tab => exact hs.hint tab
  | publishState tab state =>
    simp only [Coordinators.next, Coordinators.publishState]
    split
    · exact hs
    · exact hs.postMessage _ _
  | post data => exact hs.postMessage _ _
  | deliver message tab => exact hs.deliver message tab
  | dispose tab => exact hs.dispose tab

theorem Consistent.initial : Consistent .initial where
  tabs := fun _ => by constructor <;> simp [Coordinators.initial]
  unused := fun _ _ => ⟨rfl, rfl⟩

/-- A step that does not concern the cause. -/
structure Ignores (s later : Coordinators) (cause : ℕ) : Prop where
  used : cause < later.posts
  message : later.messages cause = s.messages cause
  hinted : later.hintedBy cause = s.hintedBy cause

/-- A delivery of the message of the cause. -/
structure Delivers (s later : Coordinators) (cause tab : ℕ) (posted : Message) : Prop where
  used : cause < later.posts
  tabs : later.tabs = s.tabs
  message : s.messages cause = some posted
  pending : tab ∈ posted.pending
  erased : later.messages cause = some { posted with pending := posted.pending.erase tab }
  hinted : later.hintedBy cause = s.hintedBy cause ++
    if isHint posted.data = true ∧ (s.tabs tab).leader = true ∧ (s.tabs tab).disposed = false then
      [tab] else []

section
variable {cause : ℕ} (hused : cause < s.posts)
include hused

theorem postMessage_ignores (data : Json) (pending : Finset ℕ) :
    Ignores s (s.postMessage data pending) cause :=
  ⟨Nat.lt_succ_of_lt hused, Function.update_of_ne hused.ne _ _, rfl⟩

theorem hint_ignores (tab : ℕ) : Ignores s (s.hint tab) cause := by
  unfold Coordinators.hint
  split
  · exact ⟨hused, rfl, rfl⟩
  · split
    · refine ⟨Nat.lt_succ_of_lt hused, rfl, (hintedBy_append rfl cause).trans ?_⟩
      simp [hused.ne']
    · exact postMessage_ignores hused _ _

theorem deliver_cases (message tab : ℕ) :
    Ignores s (s.deliver message tab) cause ∨
      ∃ posted, Delivers s (s.deliver message tab) cause tab posted := by
  obtain heq | ⟨posted, hints, remoteStates, hposted, hpending, heq, hhints⟩ :=
    deliver_spec s message tab
  · rw [heq]
    exact .inl ⟨hused, rfl, rfl⟩
  · rw [heq]
    by_cases hcause : cause = message
    · subst hcause
      refine .inr ⟨posted, hused, rfl, hposted, hpending, Function.update_self _ _ _, ?_⟩
      refine (hintedBy_append hhints cause).trans ?_
      split <;> simp
    · refine .inl ⟨hused, Function.update_of_ne hcause _ _, (hintedBy_append hhints cause).trans ?_⟩
      split <;> simp [Ne.symm hcause]

/-- The steps that concern one cause are the deliveries of its message. -/
theorem next_cause (action : Action) :
    Ignores s (s.next action) cause ∨ ∃ tab posted, Delivers s (s.next action) cause tab posted := by
  cases action with
  | start tab =>
    simp only [Coordinators.next, Coordinators.start]
    split <;> exact .inl ⟨hused, rfl, rfl⟩
  | grant tab =>
    simp only [Coordinators.next, Coordinators.grant]
    split <;> exact .inl ⟨hused, rfl, rfl⟩
  | callback tab =>
    simp only [Coordinators.next, Coordinators.callback, Coordinators.becomeLeader]
    split
    · split
      · exact .inl ⟨hused, rfl, rfl⟩
      · split <;> exact .inl ⟨hused, rfl, rfl⟩
    · exact .inl ⟨hused, rfl, rfl⟩
  | release tab =>
    simp only [Coordinators.next, Coordinators.release]
    split <;> exact .inl ⟨hused, rfl, rfl⟩
  | hint tab => exact .inl (hint_ignores hused tab)
  | publishState tab state =>
    simp only [Coordinators.next, Coordinators.publishState]
    split
    · exact .inl ⟨hused, rfl, rfl⟩
    · exact .inl (postMessage_ignores hused _ _)
  | post data => exact .inl (postMessage_ignores hused _ _)
  | deliver message tab =>
    obtain hignores | ⟨posted, hdelivers⟩ := deliver_cases hused message tab
    · exact .inl hignores
    · exact .inr ⟨tab, posted, hdelivers⟩
  | dispose tab =>
    simp only [Coordinators.next, Coordinators.dispose]
    split <;> exact .inl ⟨hused, rfl, rfl⟩

end

theorem next_disposed (action : Action) {tab : ℕ} (h : (s.tabs tab).disposed = true) :
    ((s.next action).tabs tab).disposed = true := by
  have updated : ∀ other state, (state.disposed = true ∨ state.disposed = (s.tabs other).disposed) →
      (Function.update s.tabs other state tab).disposed = true := by
    intro other state hstate
    by_cases hother : tab = other
    · subst hother
      rw [Function.update_self]
      exact hstate.elim id fun heq => heq.trans h
    · rw [Function.update_of_ne hother]
      exact h
  cases action with
  | start other =>
    simp only [Coordinators.next, Coordinators.start]
    split
    · exact updated other _ (.inr rfl)
    · exact h
  | grant other =>
    simp only [Coordinators.next, Coordinators.grant]
    split
    · exact updated other _ (.inr rfl)
    · exact h
  | callback other =>
    simp only [Coordinators.next, Coordinators.callback, Coordinators.becomeLeader]
    split
    · split
      · exact updated other _ (.inr rfl)
      · split
        · exact updated other _ (.inr rfl)
        · simp only [Coordinators.setTab, Function.update_idem, Function.update_self]
          exact updated other _ (.inr rfl)
    · exact h
  | release other =>
    simp only [Coordinators.next, Coordinators.release]
    split
    · exact updated other _ (.inr rfl)
    · exact h
  | hint other =>
    simp only [Coordinators.next, Coordinators.hint]
    split
    · exact h
    · split <;> exact h
  | publishState other state =>
    simp only [Coordinators.next, Coordinators.publishState]
    split <;> exact h
  | post data => exact h
  | deliver message other =>
    obtain heq | ⟨posted, hints, remoteStates, -, -, heq, -⟩ := deliver_spec s message other
    · exact (congrArg (fun later => (later.tabs tab).disposed) heq).trans h
    · exact (congrArg (fun later => (later.tabs tab).disposed) heq).trans h
  | dispose other =>
    simp only [Coordinators.next, Coordinators.dispose]
    split
    · exact h
    · exact updated other _ (.inl rfl)

/-- The tabs that a cause hinted are final. -/
structure Settled (s : Coordinators) (cause : ℕ) (hinted : List ℕ) : Prop where
  used : cause < s.posts
  hinted : s.hintedBy cause = hinted
  delivered : s.Delivered cause

theorem Settled.next {cause : ℕ} {hinted : List ℕ} (hsettled : Settled s cause hinted)
    (action : Action) : Settled (s.next action) cause hinted := by
  obtain hignores | ⟨tab, posted, hdelivers⟩ := next_cause hsettled.used action
  · refine ⟨hignores.used, hignores.hinted.trans hsettled.hinted, fun posted hposted tab htab => ?_⟩
    rw [hignores.message] at hposted
    exact next_disposed action (hsettled.delivered posted hposted tab htab)
  · have hdisposed := hsettled.delivered posted hdelivers.message tab hdelivers.pending
    refine ⟨hdelivers.used, ?_, fun later hlater other hother => ?_⟩
    · rw [hdelivers.hinted, hsettled.hinted]
      simp [hdisposed]
    · rw [hdelivers.erased] at hlater
      cases hlater
      exact next_disposed action
        (hsettled.delivered posted hdelivers.message other (Finset.mem_of_mem_erase hother))

/-- While one tab leads, the hint of a follower is on its way to that tab, or has hinted its loop
and no other. -/
structure Awaits (s : Coordinators) (cause leader : ℕ) : Prop where
  used : cause < s.posts
  posted : ∃ pending, s.messages cause = some ⟨hintFrame, pending⟩ ∧
    s.hintedBy cause = if leader ∈ pending then [] else [leader]

theorem Consistent.leader_unique (hs : Consistent s) {tab other : ℕ} (htab : s.leads tab)
    (hother : s.leads other) : tab = other := by
  have hholds : ∀ tab, s.leads tab → s.holder = some tab := fun tab h =>
    (hs.tabs tab).holds.mpr (.inr (.inl ((hs.tabs tab).leader.mp h)))
  exact Option.some.inj ((hholds tab htab).symm.trans (hholds other hother))

theorem Consistent.leader_open (hs : Consistent s) {tab : ℕ} (h : s.leads tab) :
    (s.tabs tab).disposed = false := by
  by_contra hdisposed
  have hended := (hs.tabs tab).disposed (by simpa using hdisposed)
  rw [(hs.tabs tab).leader.mp h] at hended
  simp at hended

theorem Awaits.next {cause leader : ℕ} (hawaits : Awaits s cause leader) (hs : Consistent s)
    (hleads : s.leads leader) (action : Action) : Awaits (s.next action) cause leader := by
  obtain ⟨pending, hmessage, hhinted⟩ := hawaits.posted
  obtain hignores | ⟨tab, posted, hdelivers⟩ := next_cause hawaits.used action
  · exact ⟨hignores.used, pending, hignores.message.trans hmessage, hignores.hinted.trans hhinted⟩
  · have hposted := hdelivers.message
    rw [hmessage] at hposted
    cases hposted
    refine ⟨hdelivers.used, pending.erase tab, hdelivers.erased, ?_⟩
    rw [hdelivers.hinted, hhinted]
    by_cases htab : tab = leader
    · subst htab
      have hheard : isHint hintFrame = true ∧ (s.tabs tab).leader = true ∧
          (s.tabs tab).disposed = false := ⟨by decide, hleads, hs.leader_open hleads⟩
      rw [if_pos hdelivers.pending, if_pos hheard]
      simp
    · have hdeaf : ¬(isHint hintFrame = true ∧ (s.tabs tab).leader = true ∧
          (s.tabs tab).disposed = false) := fun h => htab (hs.leader_unique h.2.1 hleads)
      rw [if_neg hdeaf, List.append_nil]
      simp [Ne.symm htab]

/-- The callback of a disposed tab resolves at once, and the lock manager's reaction frees the lock. -/
theorem Consistent.handsBack (hs : Consistent s) {tab : ℕ} (hdisposed : (s.tabs tab).disposed = true) :
    ((s.callback tab).release tab).holder ≠ some tab := by
  have hfits := hs.tabs tab
  rcases hfits.disposed hdisposed with hrequest | hrequest | hrequest
  · simp [Coordinators.callback, Coordinators.release, Coordinators.setTab, hrequest, hdisposed]
  · simp [Coordinators.callback, Coordinators.release, hrequest]
  · have hholds : s.holder ≠ some tab := by simp [hfits.holds, hrequest]
    simpa [Coordinators.callback, Coordinators.release, hrequest] using hholds

theorem Consistent.exclusive (hs : Consistent s) : Exclusive s := by
  have hlocked : ∀ tab, (s.tabs tab).running = true → s.holder = some tab := by
    intro tab hrunning
    have hfits := hs.tabs tab
    rw [hfits.running] at hrunning
    exact hfits.holds.mpr (.inr (.inl (hfits.leader.mp hrunning)))
  refine ⟨hlocked, ?_, ?_, ?_, fun tab hdisposed => hs.handsBack hdisposed⟩
  · intro tab other htab hother
    exact Option.some.inj ((hlocked tab htab).symm.trans (hlocked other hother))
  · intro tab hdisposed
    rw [(hs.tabs tab).running]
    by_contra hleader
    have hleads : s.leads tab := by simpa [Coordinators.leads] using hleader
    rw [hs.leader_open hleads] at hdisposed
    cases hdisposed
  · intro tab hdisposed hgranted hresolved
    have hended : (s.tabs tab).request = .ended :=
      (((hs.tabs tab).disposed hdisposed).resolve_left hgranted).resolve_left hresolved
    simp [(hs.tabs tab).holds, hended]

theorem consistent_run (actions : List Action) : Consistent (run Coordinators.next .initial actions) :=
  run_invariant (I := Consistent) (fun _ action hs => hs.next action) .initial actions

theorem Settled.run {cause : ℕ} {hinted : List ℕ} (hsettled : Settled s cause hinted)
    (actions : List Action) : Settled (run Coordinators.next s actions) cause hinted :=
  run_invariant (I := fun s => Settled s cause hinted) (fun _ action h => h.next action) hsettled
    actions

/-- A leader's own hint. -/
theorem Consistent.settled_hint (hs : Consistent s) {tab : ℕ} (hleads : s.leads tab) :
    Settled (s.next (.hint tab)) s.posts [tab] := by
  have hactive : s.active tab = true := by
    rw [hs.active_iff, (hs.tabs tab).opened]
    refine ⟨?_, hs.leader_open hleads⟩
    rw [(hs.tabs tab).leader.mp hleads]
    simp
  have hhint : s.next (.hint tab) =
      { s with posts := s.posts + 1, hints := s.hints ++ [(s.posts, tab)] } := by
    have hleader : (s.tabs tab).leader = true := hleads
    simp [Coordinators.next, Coordinators.hint, hactive, hleader]
  obtain ⟨hmessage, hhinted⟩ := hs.unused s.posts le_rfl
  rw [hhint]
  refine ⟨Nat.lt_succ_self _, (hintedBy_append rfl _).trans ?_, fun posted hposted => ?_⟩
  · simp [hhinted]
  · rw [hmessage] at hposted
    cases hposted

/-- A follower's hint, on its way to the tab that leads. -/
theorem Consistent.awaits_hint (hs : Consistent s) {tab leader : ℕ} (hactive : s.active tab = true)
    (hfollows : ¬ s.leads tab) (hleads : s.leads leader) :
    Awaits (s.next (.hint tab)) s.posts leader := by
  have hhint : s.next (.hint tab) = s.postMessage hintFrame (s.opened.erase tab) := by
    have hleader : (s.tabs tab).leader = false := by simpa [Coordinators.leads] using hfollows
    simp [Coordinators.next, Coordinators.hint, hactive, hleader]
  have hopen : leader ∈ s.opened := by
    rw [(hs.tabs leader).opened]
    refine ⟨?_, hs.leader_open hleads⟩
    rw [(hs.tabs leader).leader.mp hleads]
    simp
  have hne : leader ≠ tab := by
    rintro rfl
    exact hfollows hleads
  rw [hhint]
  refine ⟨Nat.lt_succ_self _, s.opened.erase tab, Function.update_self _ _ _, ?_⟩
  rw [if_pos (Finset.mem_erase.mpr ⟨hne, hopen⟩)]
  exact (hs.unused s.posts le_rfl).2

/-- While the tab leads, and until then: on its way, or delivered. -/
theorem Awaits.run {cause leader : ℕ} (hawaits : Awaits s cause leader) (hs : Consistent s)
    {actions : List Action}
    (hleads : StatesMeet Coordinators.next (fun s => s.leads leader) s actions) :
    Consistent (run Coordinators.next s actions) ∧
      Awaits (run Coordinators.next s actions) cause leader :=
  run_invariant_of_stepsMeet (I := fun s => Consistent s ∧ Awaits s cause leader)
    (fun _ action hleads h => ⟨h.1.next action, h.2.next h.1 hleads action⟩) ⟨hs, hawaits⟩
    hleads.stepsMeet

/-- Once it has been delivered, the hint of a follower has hinted the leader's loop and no other. -/
theorem Awaits.settled {cause leader : ℕ} (hawaits : Awaits s cause leader) (hs : Consistent s)
    (hleads : s.leads leader) (hdelivered : s.Delivered cause) : Settled s cause [leader] := by
  obtain ⟨pending, hmessage, hhinted⟩ := hawaits.posted
  refine ⟨hawaits.used, hhinted.trans (if_neg fun hpending => ?_), hdelivered⟩
  have hdisposed := hdelivered _ hmessage leader hpending
  rw [hs.leader_open hleads] at hdisposed
  cases hdisposed

/-- In every run the loops exclude each other under the lock and no disposed tab keeps it; a leader's
hint hints its own loop once and no other, ever; and so does a follower's hint the loop of the tab
that leads from the post to the last delivery. -/
theorem tabs_coordinate (actions : List Action) :
    StatesMeet Coordinators.next Exclusive .initial actions ∧
    (∀ tab later, (run Coordinators.next .initial actions).leads tab →
      (run Coordinators.next .initial (actions ++ .hint tab :: later)).hintedBy
        (run Coordinators.next .initial actions).posts = [tab]) ∧
    ∀ tab leader deliveries later, (run Coordinators.next .initial actions).active tab = true →
      ¬ (run Coordinators.next .initial actions).leads tab →
      (run Coordinators.next .initial actions).leads leader →
      StatesMeet Coordinators.next (fun s => s.leads leader)
        (run Coordinators.next .initial (actions ++ [.hint tab])) deliveries →
      (run Coordinators.next .initial (actions ++ .hint tab :: deliveries)).Delivered
        (run Coordinators.next .initial actions).posts →
      (run Coordinators.next .initial (actions ++ .hint tab :: deliveries ++ later)).hintedBy
        (run Coordinators.next .initial actions).posts = [leader] := by
  have hs := consistent_run actions
  refine ⟨?_, ?_, ?_⟩
  · have hconsistent := StatesMeet.of_invariant (I := Consistent)
      (fun _ action hs => hs.next action) .initial actions
    exact hconsistent.imp fun _ hs => hs.exclusive
  · intro tab later hleads
    rw [run_append, run_cons]
    exact ((hs.settled_hint hleads).run later).hinted
  · intro tab leader deliveries later hactive hfollows hleads hsteady hdelivered
    rw [run_append] at hsteady hdelivered
    rw [run_append, run_append]
    rw [run_cons] at hdelivered ⊢
    obtain ⟨hlater, hawaits⟩ := (hs.awaits_hint hactive hfollows hleads).run (hs.next _) hsteady
    exact ((hawaits.settled hlater hsteady.last hdelivered).run later).hinted

/-- Two tabs; the second hints, and the first is disposed after the delivery. -/
theorem tabs_coordinate_two :
    (run Coordinators.next .initial
      ([.start 0, .start 1, .grant 0, .callback 0] ++ .hint 1 :: [.deliver 0 0] ++
        [.dispose 0])).hintedBy 0 = [0] ∧
    (run Coordinators.next .initial
      ([.start 0, .start 1, .grant 0, .callback 0] ++ .hint 0 :: [.dispose 0])).hintedBy 0 = [0] := by
  have h := tabs_coordinate [.start 0, .start 1, .grant 0, .callback 0]
  refine ⟨h.2.2 1 0 [.deliver 0 0] [.dispose 0] rfl Bool.false_ne_true rfl ⟨rfl, rfl⟩ ?_,
    h.2.1 0 [.dispose 0] rfl⟩
  intro posted hposted tab hpending
  cases hposted
  have hempty : (({0, 1} : Finset ℕ).erase 1).erase 0 = ∅ := by decide
  exact absurd (hempty ▸ hpending) (Finset.notMem_empty tab)

end OptoSync.CrossTab
