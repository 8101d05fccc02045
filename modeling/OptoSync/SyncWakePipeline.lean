import OptoSync.Transition

/-!
# The sync wake pipeline

`createSyncWakePipeline` of the reactive TypeScript package over one subscription: the audit window,
the queue of `concatMap` and the browser's lock. Another party is another tab, or a cycle of this
tab that an earlier subscription started.
-/
namespace OptoSync.SyncWake
open Transition

variable {H R E : Type}

/-- A hint and when it came. -/
structure Delivered (H : Type) where
  hint : H
  time : ℕ
  deriving DecidableEq

/-- The hints of one window; the last of them is the trigger. -/
structure Wake (H : Type) where
  last : Delivered H
  earlier : List (Delivered H)
  deriving DecidableEq

def Wake.hints (wake : Wake H) : List (Delivered H) := wake.last :: wake.earlier

structure SyncWakeResult (H R E : Type) where
  ok : Bool
  trigger : H
  result : Option R
  error : Option E
  deriving DecidableEq

/-- Of a promise that may resolve to null. -/
def SyncWakeResult.ofOutcome (trigger : H) : Except E (Option R) → SyncWakeResult H R E
  | .ok result => ⟨true, trigger, result, none⟩
  | .error error => ⟨false, trigger, none, some error⟩

/-- Where the inner stream of `concatMap` stands. -/
inductive Phase (R E : Type)
  /-- The lock manager has not answered. -/
  | requesting
  | running
  /-- The promise has settled, and the stream has not reacted. -/
  | settled (outcome : Except E (Option R))

structure Cycle (H R E : Type) where
  wake : Wake H
  phase : Phase R E

structure Pipeline (H R E : Type) where
  now : ℕ
  subscribed : Bool
  /-- All hint streams are. -/
  completed : Bool
  window : Option (Wake H)
  queue : List (Wake H)
  active : Option (Cycle H R E)
  /-- The other party that holds the lock. -/
  holder : Option ℕ
  results : List (SyncWakeResult H R E)
  delivered : List (Delivered H)
  /-- When this tab started `syncNow`. -/
  starts : List ℕ
  /-- When which other party started it. -/
  otherStarts : List (ℕ × ℕ)
  /-- The wakes that found the lock held, each with the holder. -/
  refused : List (Wake H × ℕ)

inductive Action (H R E : Type)
  | hint (hint : H)
  | windowEnd
  | lockAnswer
  /-- The request for the lock rejects. -/
  | lockFailure (error : E)
  | cycleEnd (outcome : Except E R)
  | react
  | otherStart (party : ℕ)
  | otherEnd
  /-- The last hint stream completes. -/
  | complete
  /-- The last subscriber leaves, or a hint stream fails. -/
  | stop

namespace Pipeline

def initial : Pipeline H R E where
  now := 0
  subscribed := true
  completed := false
  window := none
  queue := []
  active := none
  holder := none
  results := []
  delivered := []
  starts := []
  otherStarts := []
  refused := []

def syncNow (s : Pipeline H R E) (wake : Wake H) : Pipeline H R E :=
  { s with active := some ⟨wake, .running⟩, starts := s.now :: s.starts }

def settle (s : Pipeline H R E) (wake : Wake H) (outcome : Except E (Option R)) : Pipeline H R E :=
  { s with active := some ⟨wake, .settled outcome⟩ }

/-- Without Web Locks the work starts at once. -/
def runWithBrowserSyncLock (webLocks : Bool) (s : Pipeline H R E) (wake : Wake H) : Pipeline H R E :=
  if webLocks then { s with active := some ⟨wake, .requesting⟩ } else s.syncNow wake

/-- `auditTime`: the first hint opens the window, each replaces the trigger. -/
def audit (s : Pipeline H R E) (hint : H) : Pipeline H R E :=
  if s.subscribed ∧ ¬ s.completed then
    { s with
      window := some ⟨⟨hint, s.now⟩, (s.window.map Wake.hints).getD []⟩
      delivered := ⟨hint, s.now⟩ :: s.delivered }
  else s

/-- `concatMap` at the end of a window. -/
def windowEnd (webLocks : Bool) (s : Pipeline H R E) : Pipeline H R E :=
  match s.window with
  | none => s
  | some wake =>
    if s.active.isSome then { s with window := none, queue := s.queue ++ [wake] }
    else { s with window := none }.runWithBrowserSyncLock webLocks wake

def lockAnswer (s : Pipeline H R E) : Pipeline H R E :=
  match s.active with
  | some ⟨wake, .requesting⟩ =>
    match s.holder with
    | none => s.syncNow wake
    | some holder => { s.settle wake (.ok none) with refused := (wake, holder) :: s.refused }
  | _ => s

def lockFailure (s : Pipeline H R E) (error : E) : Pipeline H R E :=
  match s.active with
  | some ⟨wake, .requesting⟩ => s.settle wake (.error error)
  | _ => s

def cycleEnd (s : Pipeline H R E) (outcome : Except E R) : Pipeline H R E :=
  match s.active with
  | some ⟨wake, .running⟩ => s.settle wake (outcome.map some)
  | _ => s

/-- The inner stream emits and completes, and the next wake takes its place. -/
def react (webLocks : Bool) (s : Pipeline H R E) : Pipeline H R E :=
  match s.active with
  | some ⟨wake, .settled outcome⟩ =>
    let s := { s with
      active := none
      results := if s.subscribed then s.results ++ [SyncWakeResult.ofOutcome wake.last.hint outcome]
        else s.results }
    match s.queue with
    | [] => s
    | next :: queue => { s with queue := queue }.runWithBrowserSyncLock webLocks next
  | _ => s

/-- This tab holds the lock while its cycle runs. -/
def holds (s : Pipeline H R E) : Bool :=
  match s.active with
  | some ⟨_, .running⟩ => true
  | _ => false

def otherStart (webLocks : Bool) (s : Pipeline H R E) (party : ℕ) : Pipeline H R E :=
  if webLocks ∧ s.holder = none ∧ ¬ s.holds then
    { s with holder := some party, otherStarts := (party, s.now) :: s.otherStarts }
  else s

/-- The cycle that was started goes on. -/
def stop (s : Pipeline H R E) : Pipeline H R E :=
  { s with subscribed := false, window := none, queue := [] }

def perform (webLocks : Bool) (s : Pipeline H R E) : Action H R E → Pipeline H R E
  | .hint hint => s.audit hint
  | .windowEnd => s.windowEnd webLocks
  | .lockAnswer => s.lockAnswer
  | .lockFailure error => s.lockFailure error
  | .cycleEnd outcome => s.cycleEnd outcome
  | .react => s.react webLocks
  | .otherStart party => s.otherStart webLocks party
  | .otherEnd => { s with holder := none }
  | .complete => { s with completed := true }
  | .stop => s.stop

def next (webLocks : Bool) (s : Pipeline H R E) (action : Action H R E) : Pipeline H R E :=
  { s.perform webLocks action with now := s.now + 1 }

/-- The hints that the operators hold for a later cycle. -/
def held (s : Pipeline H R E) : List (Delivered H) :=
  (s.window.map Wake.hints).getD [] ++ s.queue.flatMap Wake.hints

/-- The hints of the wake that waits for the lock. -/
def requested (s : Pipeline H R E) : List (Delivered H) :=
  match s.active with
  | some ⟨wake, .requesting⟩ => wake.hints
  | _ => []

/-- The hints that a cycle of this tab is still due for. -/
def due (s : Pipeline H R E) : List (Delivered H) := s.held ++ s.requested

def Started (s : Pipeline H R E) (hint : Delivered H) : Prop :=
  ∃ time ∈ s.starts, hint.time ≤ time

/-- The party has started a cycle since the hint. -/
def StartedBy (s : Pipeline H R E) (party : ℕ) (hint : Delivered H) : Prop :=
  ∃ start ∈ s.otherStarts, start.1 = party ∧ hint.time ≤ start.2

/-- This tab has started a cycle since the hint, or the party that held the lock when the wake of
the hint asked for it. -/
def Answered (s : Pipeline H R E) (hint : Delivered H) : Prop :=
  s.Started hint ∨ ∃ refusal ∈ s.refused, hint ∈ refusal.1.hints ∧ s.StartedBy refusal.2 hint

/-- Each hint has been answered or will be, and at most one wake is queued. -/
structure Served (s : Pipeline H R E) : Prop where
  answered : ∀ hint ∈ s.delivered, s.Answered hint ∨ hint ∈ s.due
  queued : s.queue.length ≤ 1

/-- A window ends with no wake queued behind an active one. A wake that is refused, that cannot ask
for the lock, or that is dropped has hints that a cycle has been started since. -/
def Meets (s : Pipeline H R E) : Action H R E → Prop
  | .windowEnd => s.window = none ∨ s.active = none ∨ s.queue = []
  | .lockAnswer =>
    ∀ holder, s.holder = some holder → ∀ hint ∈ s.requested,
      s.Started hint ∨ s.StartedBy holder hint
  | .lockFailure _ => ∀ hint ∈ s.requested, s.Started hint
  | .stop => ∀ hint ∈ s.held, s.Started hint
  | _ => True

/-- The hints of the wakes that were refused. -/
def refusals (s : Pipeline H R E) : List (Delivered H) := s.refused.flatMap (·.1.hints)

/-- The hints `gone` are no longer due, and only they may have been refused. -/
structure Effect (s t : Pipeline H R E) (gone : List (Delivered H)) : Prop where
  now : t.now = s.now
  delivered : t.delivered = s.delivered
  due : s.due.Perm (t.due ++ gone)
  starts : s.starts ⊆ t.starts
  otherStarts : s.otherStarts ⊆ t.otherStarts
  refused : t.refused = s.refused ∨
    ∃ wake holder, gone = wake.hints ∧ t.refused = (wake, holder) :: s.refused

/-- A step that keeps the history and the hints that wait. -/
theorem Effect.of_eq {s t : Pipeline H R E} (hnow : t.now = s.now)
    (hdelivered : t.delivered = s.delivered) (hdue : s.due.Perm t.due) (hstarts : t.starts = s.starts)
    (hother : s.otherStarts ⊆ t.otherStarts) (hrefused : t.refused = s.refused) : s.Effect t [] where
  now := hnow
  delivered := hdelivered
  due := by rwa [List.append_nil]
  starts := by rw [hstarts]; exact List.Subset.refl _
  otherStarts := hother
  refused := .inl hrefused

theorem Effect.refl (s : Pipeline H R E) : s.Effect s [] :=
  .of_eq rfl rfl (List.Perm.refl _) rfl (List.Subset.refl _) rfl

/-- The hints that leave are those of a cycle that starts. -/
def Launches (s t : Pipeline H R E) : Prop :=
  ∃ gone, s.Effect t gone ∧ ∀ hint ∈ gone, hint.time ≤ s.now → t.Started hint

theorem Effect.launches {s t : Pipeline H R E} (h : s.Effect t []) : s.Launches t :=
  ⟨[], h, fun _ hmem => absurd hmem List.not_mem_nil⟩

/-- Where a wake asks for the lock its hints stay due, else its cycle starts. -/
theorem launches_runWithBrowserSyncLock (webLocks : Bool) {s t : Pipeline H R E} {wake : Wake H}
    (hnow : t.now = s.now) (hdelivered : t.delivered = s.delivered) (hstarts : t.starts = s.starts)
    (hother : t.otherStarts = s.otherStarts) (hrefused : t.refused = s.refused)
    (hdue : s.due.Perm (t.held ++ wake.hints)) :
    s.Launches (t.runWithBrowserSyncLock webLocks wake) := by
  have hotherStarts : s.otherStarts ⊆ t.otherStarts := by rw [hother]; exact List.Subset.refl _
  cases webLocks with
  | true =>
    apply Effect.launches
    exact .of_eq hnow hdelivered hdue hstarts hotherStarts hrefused
  | false =>
    have hheld : (t.syncNow wake).due = t.held := List.append_nil t.held
    refine ⟨wake.hints, ⟨hnow, hdelivered, ?_, ?_, hotherStarts, .inl hrefused⟩, ?_⟩
    · rwa [← hheld] at hdue
    · rw [← hstarts]
      exact List.subset_cons_self _ _
    · intro hint _ htime
      exact ⟨t.now, List.mem_cons_self, by rwa [hnow]⟩

theorem launches_windowEnd (webLocks : Bool) (s : Pipeline H R E) :
    s.Launches (s.windowEnd webLocks) := by
  unfold windowEnd
  cases hwindow : s.window with
  | none => exact (Effect.refl s).launches
  | some wake =>
    have hheld : s.held = wake.hints ++ s.queue.flatMap Wake.hints := by
      rw [held, hwindow, Option.map_some, Option.getD_some]
    by_cases hactive : s.active.isSome = true
    · simp only [hactive, if_true]
      apply Effect.launches
      refine .of_eq rfl rfl ?_ rfl (List.Subset.refl _) rfl
      refine List.Perm.append_right _ ?_
      rw [hheld]
      simp only [held, Option.map_none, Option.getD_none, List.nil_append, List.flatMap_append,
        List.flatMap_cons, List.flatMap_nil, List.append_nil]
      exact List.perm_append_comm
    · simp only [hactive, Bool.false_eq_true, if_false]
      have hrequested : s.requested = [] := by
        rw [requested, Option.not_isSome_iff_eq_none.mp hactive]
      refine launches_runWithBrowserSyncLock webLocks rfl rfl rfl rfl rfl ?_
      rw [due, hrequested, List.append_nil, hheld]
      exact List.perm_append_comm

theorem requested_eq_nil {s : Pipeline H R E} (h : ∀ wake, s.active ≠ some ⟨wake, .requesting⟩) :
    s.requested = [] := by
  unfold requested
  split
  next wake hactive => exact absurd hactive (h wake)
  · rfl

theorem effect_lockAnswer (s : Pipeline H R E) : s.Effect s.lockAnswer s.requested := by
  unfold lockAnswer
  split
  next wake hactive =>
    have hrequested : s.requested = wake.hints := by rw [requested, hactive]
    have hdue : s.due.Perm (s.held ++ [] ++ s.requested) := by rw [List.append_nil, due]
    cases s.holder with
    | none => exact ⟨rfl, rfl, hdue, List.subset_cons_self _ _, List.Subset.refl _, .inl rfl⟩
    | some holder =>
      exact ⟨rfl, rfl, hdue, List.Subset.refl _, List.Subset.refl _,
        .inr ⟨wake, holder, hrequested, rfl⟩⟩
  next hidle =>
    rw [requested_eq_nil hidle]
    exact .refl s

theorem effect_lockFailure (s : Pipeline H R E) (error : E) :
    s.Effect (s.lockFailure error) s.requested := by
  unfold lockFailure
  split
  next wake hactive =>
    have hdue : s.due.Perm (s.held ++ [] ++ s.requested) := by rw [List.append_nil, due]
    exact ⟨rfl, rfl, hdue, List.Subset.refl _, List.Subset.refl _, .inl rfl⟩
  next hidle =>
    rw [requested_eq_nil hidle]
    exact .refl s

theorem effect_cycleEnd (s : Pipeline H R E) (outcome : Except E R) :
    s.Effect (s.cycleEnd outcome) [] := by
  unfold cycleEnd
  split
  next wake hactive =>
    have hrequested : s.requested = [] := by rw [requested, hactive]
    have hdue : s.due = (s.settle wake (outcome.map some)).due := by
      rw [due, hrequested]
      rfl
    exact .of_eq rfl rfl (hdue ▸ List.Perm.refl _) rfl (List.Subset.refl _) rfl
  · exact .refl s

theorem launches_react (webLocks : Bool) (s : Pipeline H R E) :
    s.Launches (s.react webLocks) := by
  unfold react
  split
  next wake outcome hactive =>
    have hdue : s.due = s.held := by rw [due, requested, hactive, List.append_nil]
    cases hqueue : s.queue with
    | nil =>
      apply Effect.launches
      refine .of_eq rfl rfl ?_ rfl (List.Subset.refl _) rfl
      rw [hdue, due, held, held, hqueue, requested, List.append_nil]
    | cons next queue =>
      refine launches_runWithBrowserSyncLock webLocks rfl rfl rfl rfl rfl ?_
      rw [hdue, held, hqueue, List.flatMap_cons, held, List.append_assoc]
      exact List.Perm.append_left _ List.perm_append_comm
  · exact (Effect.refl s).launches

theorem effect_otherStart (webLocks : Bool) (s : Pipeline H R E) (party : ℕ) :
    s.Effect (s.otherStart webLocks party) [] := by
  unfold otherStart
  split
  · exact .of_eq rfl rfl (List.Perm.refl _) rfl (List.subset_cons_self _ _) rfl
  · exact .refl s

theorem effect_stop (s : Pipeline H R E) : s.Effect s.stop s.held where
  now := rfl
  delivered := rfl
  due := List.perm_append_comm
  starts := List.Subset.refl _
  otherStarts := List.Subset.refl _
  refused := .inl rfl

structure Consistent (s : Pipeline H R E) : Prop where
  earlier : ∀ hint ∈ s.delivered, hint.time < s.now
  delivered : ∀ hint ∈ s.due ++ s.refusals, hint ∈ s.delivered
  once : (s.due ++ s.refusals).Nodup

theorem Consistent.initial : (initial : Pipeline H R E).Consistent where
  earlier := by simp [Pipeline.initial]
  delivered := by simp [Pipeline.initial, due, held, requested, refusals]
  once := by simp [Pipeline.initial, due, held, requested, refusals]

theorem Consistent.not_mem_refusals {s : Pipeline H R E} (h : s.Consistent) {hint : Delivered H}
    (hdue : hint ∈ s.due) : hint ∉ s.refusals :=
  List.disjoint_of_nodup_append h.once hdue

/-- A hint that waits can only be answered by a cycle of this tab. -/
theorem Consistent.answered_iff {s : Pipeline H R E} (h : s.Consistent) {hint : Delivered H}
    (hdue : hint ∈ s.due) : s.Answered hint ↔ s.Started hint := by
  refine ⟨fun hanswered => hanswered.resolve_right ?_, Or.inl⟩
  intro hrefused
  obtain ⟨refusal, hmem, hhint, -⟩ := hrefused
  exact h.not_mem_refusals hdue (List.mem_flatMap.mpr ⟨refusal, hmem, hhint⟩)

/-- The hints that leave are refused at most. -/
theorem Effect.ledger {s t : Pipeline H R E} {gone : List (Delivered H)} (h : s.Effect t gone) :
    (t.due ++ t.refusals).Subperm (s.due ++ s.refusals) := by
  have hdue : (s.due ++ s.refusals).Perm (t.due ++ (gone ++ s.refusals)) := by
    rw [← List.append_assoc]
    exact h.due.append_right _
  refine List.Subperm.trans ?_ hdue.symm.subperm
  rcases h.refused with hrefused | ⟨wake, holder, rfl, hrefused⟩
  · rw [refusals, hrefused, refusals]
    exact ((List.sublist_append_right gone _).append_left t.due).subperm
  · rw [refusals, hrefused, List.flatMap_cons, refusals]

theorem Effect.consistent {s t : Pipeline H R E} {gone : List (Delivered H)} (h : s.Effect t gone)
    (hs : s.Consistent) : t.Consistent where
  earlier := by
    rw [h.delivered, h.now]
    exact hs.earlier
  delivered := by
    rw [h.delivered]
    intro hint hmem
    exact hs.delivered hint (h.ledger.subset hmem)
  once := by
    obtain ⟨kept, hperm, hsublist⟩ := h.ledger
    exact hperm.nodup_iff.mp (hs.once.sublist hsublist)

theorem Effect.answered {s t : Pipeline H R E} {gone : List (Delivered H)} (h : s.Effect t gone)
    {hint : Delivered H} (hanswered : s.Answered hint) : t.Answered hint := by
  rcases hanswered with ⟨time, hmem, htime⟩ | ⟨refusal, hrefusal, hhint, start, hmem, hstart⟩
  · exact .inl ⟨time, h.starts hmem, htime⟩
  · refine .inr ⟨refusal, ?_, hhint, start, h.otherStarts hmem, hstart⟩
    rcases h.refused with hrefused | ⟨wake, holder, -, hrefused⟩
    · rwa [hrefused]
    · rw [hrefused]
      exact List.mem_cons_of_mem _ hrefusal

/-- The step lemma: what leaves must have been answered. -/
theorem Effect.served_iff {s t : Pipeline H R E} {gone : List (Delivered H)} (h : s.Effect t gone)
    (hs : s.Consistent) (hserved : s.Served) :
    t.Served ↔ (∀ hint ∈ gone, t.Answered hint) ∧ t.queue.length ≤ 1 := by
  have hdue : ∀ hint, hint ∈ s.due ↔ hint ∈ t.due ∨ hint ∈ gone := by
    intro hint
    rw [h.due.mem_iff, List.mem_append]
  constructor
  · intro ht
    refine ⟨fun hint hgone => ?_, ht.queued⟩
    have hdelivered : hint ∈ t.delivered := by
      rw [h.delivered]
      exact hs.delivered hint (List.mem_append_left _ ((hdue hint).mpr (.inr hgone)))
    refine (ht.answered hint hdelivered).resolve_right fun hmem => ?_
    have honce := h.due.nodup_iff.mp (List.Nodup.of_append_left hs.once)
    exact List.disjoint_of_nodup_append honce hmem hgone
  · intro ht
    refine ⟨fun hint hdelivered => ?_, ht.2⟩
    rw [h.delivered] at hdelivered
    rcases hserved.answered hint hdelivered with hanswered | hmem
    · exact .inl (h.answered hanswered)
    · rcases (hdue hint).mp hmem with hmem | hgone
      · exact .inr hmem
      · exact .inl (ht.1 hint hgone)

theorem Launches.served_iff {s t : Pipeline H R E} (h : s.Launches t) (hs : s.Consistent)
    (hserved : s.Served) : t.Served ↔ t.queue.length ≤ 1 := by
  obtain ⟨gone, heffect, hstarted⟩ := h
  rw [heffect.served_iff hs hserved, and_iff_right_iff_imp]
  intro _ hint hgone
  have hdelivered : hint ∈ s.delivered := by
    refine hs.delivered hint (List.mem_append_left _ ?_)
    exact heffect.due.mem_iff.mpr (List.mem_append_right _ hgone)
  exact .inl (hstarted hint hgone (hs.earlier hint hdelivered).le)

theorem queue_runWithBrowserSyncLock (webLocks : Bool) (s : Pipeline H R E) (wake : Wake H) :
    (s.runWithBrowserSyncLock webLocks wake).queue = s.queue := by
  cases webLocks <;> rfl

theorem queue_windowEnd (webLocks : Bool) (s : Pipeline H R E) (hqueue : s.queue.length ≤ 1) :
    (s.windowEnd webLocks).queue.length ≤ 1 ↔ s.Meets .windowEnd := by
  unfold windowEnd Meets
  cases s.window with
  | none => exact iff_of_true hqueue (by simp)
  | some wake =>
    cases hactive : s.active with
    | none =>
      simp only [Option.isSome_none, Bool.false_eq_true, if_false, queue_runWithBrowserSyncLock]
      exact iff_of_true hqueue (by simp)
    | some cycle =>
      simp only [Option.isSome_some, if_true, List.length_append, List.length_singleton]
      rw [← List.length_eq_zero_iff]
      simp

theorem queue_react (webLocks : Bool) (s : Pipeline H R E) :
    (s.react webLocks).queue.length ≤ s.queue.length := by
  unfold react
  split
  · cases hqueue : s.queue with
    | nil => simp
    | cons next queue => simp [queue_runWithBrowserSyncLock]
  · exact le_rfl

theorem queue_lockAnswer (s : Pipeline H R E) : s.lockAnswer.queue = s.queue := by
  unfold lockAnswer
  split
  · cases s.holder <;> rfl
  · rfl

theorem queue_lockFailure (s : Pipeline H R E) (error : E) :
    (s.lockFailure error).queue = s.queue := by
  unfold lockFailure
  split <;> rfl

theorem queue_cycleEnd (s : Pipeline H R E) (outcome : Except E R) :
    (s.cycleEnd outcome).queue = s.queue := by
  unfold cycleEnd
  split <;> rfl

theorem queue_otherStart (webLocks : Bool) (s : Pipeline H R E) (party : ℕ) :
    (s.otherStart webLocks party).queue = s.queue := by
  unfold otherStart
  split <;> rfl

/-- A hint that comes is due for the next window's wake. -/
theorem due_audit {s : Pipeline H R E} (h : s.subscribed = true ∧ ¬ s.completed = true) (hint : H) :
    (s.audit hint).due = ⟨hint, s.now⟩ :: s.due := by
  rw [audit, if_pos h]
  rfl

theorem served_audit (s : Pipeline H R E) (hint : H) (hserved : s.Served) :
    (s.audit hint).Served := by
  by_cases h : s.subscribed = true ∧ ¬ s.completed = true
  · have hdelivered : (s.audit hint).delivered = ⟨hint, s.now⟩ :: s.delivered := by
      rw [audit, if_pos h]
    have hanswered : ∀ other, s.Answered other → (s.audit hint).Answered other := by
      rw [audit, if_pos h]
      exact fun _ hother => hother
    constructor
    · rw [hdelivered, due_audit h]
      intro other hother
      rcases List.mem_cons.mp hother with rfl | hother
      · exact .inr List.mem_cons_self
      · exact (hserved.answered other hother).imp (hanswered other) (List.mem_cons_of_mem _)
    · rw [audit, if_pos h]
      exact hserved.queued
  · rwa [audit, if_neg h]

theorem mem_due_of_requested {s : Pipeline H R E} {hint : Delivered H} (h : hint ∈ s.requested) :
    hint ∈ s.due :=
  List.mem_append_right _ h

/-- The hints of a refused wake have the holder's cycle left. -/
theorem answered_lockAnswer {s : Pipeline H R E} (hs : s.Consistent) {holder : ℕ}
    (hholder : s.holder = some holder) {hint : Delivered H} (hhint : hint ∈ s.requested) :
    s.lockAnswer.Answered hint ↔ s.Started hint ∨ s.StartedBy holder hint := by
  unfold requested at hhint
  unfold lockAnswer
  split at hhint
  next wake hactive =>
    simp only [hholder]
    have hrequested : s.requested = wake.hints := by rw [requested, hactive]
    have hdue : hint ∈ s.due := mem_due_of_requested (hrequested ▸ hhint)
    constructor
    · intro hanswered
      rcases hanswered with hstarted | ⟨refusal, hmem, hrefusal, hstart⟩
      · exact .inl hstarted
      · rcases List.mem_cons.mp hmem with rfl | hmem
        · exact .inr hstart
        · exact .inl ((hs.answered_iff hdue).mp (.inr ⟨refusal, hmem, hrefusal, hstart⟩))
    · intro h
      rcases h with hstarted | hstart
      · exact .inl hstarted
      · exact .inr ⟨(wake, holder), List.mem_cons_self, hhint, hstart⟩
  next => cases hhint

/-- A wake that gets the lock starts its cycle. -/
theorem started_lockAnswer {s : Pipeline H R E} (hholder : s.holder = none) {hint : Delivered H}
    (hhint : hint ∈ s.requested) (htime : hint.time ≤ s.now) : s.lockAnswer.Started hint := by
  unfold requested at hhint
  unfold lockAnswer
  split at hhint
  next wake hactive =>
    simp only [hholder]
    exact ⟨s.now, List.mem_cons_self, htime⟩
  next => cases hhint

theorem answered_lockFailure (s : Pipeline H R E) (error : E) (hint : Delivered H) :
    (s.lockFailure error).Answered hint ↔ s.Answered hint := by
  unfold lockFailure
  split <;> rfl

theorem meets_lockAnswer {s : Pipeline H R E} (hs : s.Consistent) :
    (∀ hint ∈ s.requested, s.lockAnswer.Answered hint) ↔ s.Meets .lockAnswer := by
  unfold Meets
  cases hholder : s.holder with
  | none =>
    refine iff_of_true (fun hint hhint => ?_) (by simp)
    have hdelivered : hint ∈ s.delivered :=
      hs.delivered hint (List.mem_append_left _ (mem_due_of_requested hhint))
    exact .inl (started_lockAnswer hholder hhint (hs.earlier hint hdelivered).le)
  | some holder =>
    constructor
    · intro h other hother hint hhint
      obtain rfl := Option.some.inj hother
      exact (answered_lockAnswer hs hholder hhint).mp (h hint hhint)
    · intro h hint hhint
      exact (answered_lockAnswer hs hholder hhint).mpr (h holder rfl hint hhint)

theorem served_perform_iff (webLocks : Bool) {s : Pipeline H R E} (hs : s.Consistent)
    (hserved : s.Served) (action : Action H R E) :
    (s.perform webLocks action).Served ↔ s.Meets action := by
  cases action with
  | hint hint => exact iff_of_true (served_audit s hint hserved) trivial
  | windowEnd =>
    exact ((launches_windowEnd webLocks s).served_iff hs hserved).trans
      (queue_windowEnd webLocks s hserved.queued)
  | lockAnswer =>
    refine ((effect_lockAnswer s).served_iff hs hserved).trans ?_
    rw [queue_lockAnswer, and_iff_left hserved.queued]
    exact meets_lockAnswer hs
  | lockFailure error =>
    refine ((effect_lockFailure s error).served_iff hs hserved).trans ?_
    rw [queue_lockFailure, and_iff_left hserved.queued]
    refine forall₂_congr fun hint hhint => ?_
    rw [answered_lockFailure, hs.answered_iff (mem_due_of_requested hhint)]
  | cycleEnd outcome =>
    refine ((effect_cycleEnd s outcome).launches.served_iff hs hserved).trans ?_
    exact iff_of_true (by rw [queue_cycleEnd]; exact hserved.queued) trivial
  | react =>
    refine ((launches_react webLocks s).served_iff hs hserved).trans ?_
    exact iff_of_true ((queue_react webLocks s).trans hserved.queued) trivial
  | otherStart party =>
    refine ((effect_otherStart webLocks s party).launches.served_iff hs hserved).trans ?_
    exact iff_of_true (by rw [queue_otherStart]; exact hserved.queued) trivial
  | otherEnd => exact iff_of_true ⟨hserved.answered, hserved.queued⟩ trivial
  | complete => exact iff_of_true ⟨hserved.answered, hserved.queued⟩ trivial
  | stop =>
    have hqueue : s.stop.queue.length ≤ 1 := Nat.zero_le 1
    refine ((effect_stop s).served_iff hs hserved).trans ?_
    rw [and_iff_left hqueue]
    exact forall₂_congr fun hint hhint => hs.answered_iff (List.mem_append_left _ hhint)

theorem Consistent.audit {s : Pipeline H R E} (h : s.Consistent) (hint : H) :
    ({ s.audit hint with now := s.now + 1 } : Pipeline H R E).Consistent := by
  by_cases hopen : s.subscribed = true ∧ ¬ s.completed = true
  · have hnew : (⟨hint, s.now⟩ : Delivered H) ∉ s.due ++ s.refusals := by
      intro hmem
      exact absurd (h.earlier _ (h.delivered _ hmem)) (lt_irrefl s.now)
    have hledger : ({ s.audit hint with now := s.now + 1 } : Pipeline H R E).due ++
        ({ s.audit hint with now := s.now + 1 } : Pipeline H R E).refusals =
          ⟨hint, s.now⟩ :: (s.due ++ s.refusals) := by
      rw [Pipeline.audit, if_pos hopen]
      rfl
    have hdelivered : (s.audit hint).delivered = ⟨hint, s.now⟩ :: s.delivered := by
      rw [Pipeline.audit, if_pos hopen]
    constructor
    · intro other hother
      rcases List.mem_cons.mp (hdelivered ▸ hother) with rfl | hother
      · exact Nat.lt_succ_self _
      · exact (h.earlier other hother).trans (Nat.lt_succ_self _)
    · rw [hledger]
      intro other hother
      change other ∈ (s.audit hint).delivered
      rw [hdelivered]
      rcases List.mem_cons.mp hother with rfl | hother
      · exact List.mem_cons_self
      · exact List.mem_cons_of_mem _ (h.delivered other hother)
    · rw [hledger]
      exact List.nodup_cons.mpr ⟨hnew, h.once⟩
  · rw [Pipeline.audit, if_neg hopen]
    exact ⟨fun other hother => (h.earlier other hother).trans (Nat.lt_succ_self _), h.delivered,
      h.once⟩

theorem effect_perform (webLocks : Bool) (s : Pipeline H R E) (action : Action H R E) :
    (∃ hint, action = .hint hint) ∨ ∃ gone, s.Effect (s.perform webLocks action) gone := by
  cases action with
  | hint hint => exact .inl ⟨hint, rfl⟩
  | windowEnd => exact .inr ((launches_windowEnd webLocks s).imp fun _ h => h.1)
  | lockAnswer => exact .inr ⟨_, effect_lockAnswer s⟩
  | lockFailure error => exact .inr ⟨_, effect_lockFailure s error⟩
  | cycleEnd outcome => exact .inr ⟨_, effect_cycleEnd s outcome⟩
  | react => exact .inr ((launches_react webLocks s).imp fun _ h => h.1)
  | otherStart party => exact .inr ⟨_, effect_otherStart webLocks s party⟩
  | otherEnd => exact .inr ⟨[], .of_eq rfl rfl (List.Perm.refl _) rfl (List.Subset.refl _) rfl⟩
  | complete => exact .inr ⟨[], .of_eq rfl rfl (List.Perm.refl _) rfl (List.Subset.refl _) rfl⟩
  | stop => exact .inr ⟨_, effect_stop s⟩

theorem Consistent.next (webLocks : Bool) (s : Pipeline H R E) (action : Action H R E)
    (h : s.Consistent) : (s.next webLocks action).Consistent := by
  rcases effect_perform webLocks s action with ⟨hint, rfl⟩ | ⟨gone, heffect⟩
  · exact h.audit hint
  · have hperform := heffect.consistent h
    refine ⟨fun hint hhint => ?_, hperform.delivered, hperform.once⟩
    have hearlier := hperform.earlier hint hhint
    rw [heffect.now] at hearlier
    exact hearlier.trans (Nat.lt_succ_self _)

theorem served_next_iff (webLocks : Bool) (s : Pipeline H R E) (action : Action H R E)
    (hs : s.Consistent) (hserved : s.Served) :
    (s.next webLocks action).Served ↔ s.Meets action := by
  rw [← served_perform_iff webLocks hs hserved action]
  exact ⟨fun h => ⟨h.answered, h.queued⟩, fun h => ⟨h.answered, h.queued⟩⟩

theorem Served.initial : (initial : Pipeline H R E).Served where
  answered := by simp [Pipeline.initial]
  queued := Nat.zero_le 1

/-- Nothing is under way in this tab. -/
structure AtRest (s : Pipeline H R E) : Prop where
  window : s.window = none
  queue : s.queue = []
  active : s.active = none

/-- Once the pipeline has come to rest, what was due has been done. -/
theorem Served.answered_of_atRest {s : Pipeline H R E} (h : s.Served) (hrest : s.AtRest)
    {hint : Delivered H} (hhint : hint ∈ s.delivered) : s.Answered hint := by
  refine (h.answered hint hhint).resolve_right ?_
  simp [due, held, requested, hrest.window, hrest.queue, hrest.active]

/-- In a run every hint is served and the queue stays within one wake exactly if no step refuses,
fails or drops a wake with a hint that no cycle has been started since, and no window ends behind a
queued wake. -/
theorem statesServed_iff (webLocks : Bool) (actions : List (Action H R E)) :
    StatesMeet (next webLocks) Served initial actions ↔
      StepsMeet (next webLocks) Meets initial actions :=
  statesMeet_iff_stepsMeet (Consistent.next webLocks) (served_next_iff webLocks) .initial .initial
    actions

/-- The holder started before the hint came; when both are done, nobody has run a cycle for it. And
two windows that end behind one cycle leave two wakes queued. -/
theorem hint_lost_behindHolder :
    (∃ s : Pipeline Unit Unit Unit,
      s = run (next true) initial
        [.otherStart 7, .hint (), .windowEnd, .lockAnswer, .react, .otherEnd] ∧
      s.AtRest ∧ s.holder = none ∧ ∃ hint ∈ s.delivered, ¬ s.Answered hint) ∧
    ∃ s : Pipeline Unit Unit Unit,
      s = run (next true) initial
        [.hint (), .windowEnd, .lockAnswer, .hint (), .windowEnd, .hint (), .windowEnd] ∧
      s.queue.length = 2 := by
  constructor
  · refine ⟨_, rfl, ⟨rfl, rfl, rfl⟩, rfl, ⟨(), 1⟩, List.mem_singleton_self _, ?_⟩
    intro hanswered
    rcases hanswered with ⟨time, hmem, -⟩ | ⟨refusal, hrefusal, -, start, hstart, -, htime⟩
    · cases hmem
    · obtain rfl := List.mem_singleton.mp hstart
      exact absurd htime (by decide)
  · exact ⟨_, rfl, rfl⟩

end Pipeline

end OptoSync.SyncWake
