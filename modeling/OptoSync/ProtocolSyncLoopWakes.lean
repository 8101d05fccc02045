import OptoSync.ProtocolSyncLoop

/-!
# The wakes of the sync loop

What the last cycle of a loop owes: a wake that arrived since it began, rows that it left pending, a
failure to be retried. An idle loop that owes a cycle should have a timer. A cycle that the loop's
own timer began sees to that, and so does a cycle of an older generation; one that a call of
`syncNow` began does not.
-/
namespace OptoSync
open Transition

/-- What happened since the last cycle began. -/
structure LastCycle where
  wake : Bool
  morePending : Bool
  failedRetryably : Bool
  deriving DecidableEq

def LastCycle.begun : LastCycle := ⟨false, false, false⟩

def LastCycle.Owes (last : LastCycle) : Prop :=
  last.wake = true ∨ last.morePending = true ∨ last.failedRetryably = true

structure WatchedLoop (ε δ : Type) where
  loop : ProtocolSyncLoop ε δ
  last : LastCycle

namespace CycleOutcome

variable {ε δ : Type}

def hasMorePending : CycleOutcome ε → Bool
  | resolved hasMorePending => hasMorePending
  | rejected _ => false

def failedRetryably (rules : LoopRules ε δ) : CycleOutcome ε → Bool
  | resolved _ => false
  | rejected error => !rules.cancelled error && rules.retryable error

end CycleOutcome

namespace ProtocolSyncLoop

variable {ε δ : Type}

/-- A timer that fires is a wake if it is the current one. -/
def isWake (s : ProtocolSyncLoop ε δ) : SyncLoopEvent ε → Bool
  | .hint | .syncNow | .connectivity _ => true
  | .timerFired handle => s.timer.any (·.handle = handle)
  | _ => false

def running (s : ProtocolSyncLoop ε δ) : Bool :=
  match s.inFlight with
  | some ⟨_, _, none⟩ => true
  | _ => false

/-- No timer is pending, and a cycle of this generation is one of the session that still runs. -/
structure Unattended (s : ProtocolSyncLoop ε δ) (generation : ℕ) : Prop where
  current : generation = s.generation
  started : s.started = true
  online : s.online = true
  timer : s.timer = none

end ProtocolSyncLoop

namespace WatchedLoop

variable {ε δ : Type} (rules : LoopRules ε δ)

def new (online : Bool) : WatchedLoop ε δ := ⟨.new online, .begun⟩

def lastAfter (w : WatchedLoop ε δ) (event : SyncLoopEvent ε) : LastCycle :=
  if w.loop.inFlight.isNone && (w.loop.next rules event).inFlight.isSome then .begun
  else
    match event with
    | .cycleSettled outcome =>
      if w.loop.running then
        { w.last with
          morePending := outcome.hasMorePending
          failedRetryably := outcome.failedRetryably rules }
      else w.last
    | event => { w.last with wake := w.last.wake || w.loop.isWake event }

def next (w : WatchedLoop ε δ) (event : SyncLoopEvent ε) : WatchedLoop ε δ :=
  ⟨w.loop.next rules event, w.lastAfter rules event⟩

/-- A started and online loop without a cycle has a timer if the last cycle owes one. -/
def WakeKept (w : WatchedLoop ε δ) : Prop :=
  w.loop.started = true → w.loop.online = true → w.loop.inFlight = none → w.loop.awaited = none →
    w.last.Owes → w.loop.timer.isSome = true

/-- Nothing is owed where the loop schedules no timer: at the end of a cycle that `syncNow` began
itself, and where `drive` gives up on a failure; and the delay of a retry can be computed. -/
def NothingOwed (valid : Number → ε → Prop) (w : WatchedLoop ε δ) : SyncLoopEvent ε → Prop
  | .cycleFinalized => ∀ generation outcome,
      w.loop.inFlight = some ⟨generation, false, some outcome⟩ → w.loop.awaited = none →
        w.loop.Unattended generation → ¬ w.last.Owes
  | .driveResumed sample => ∀ generation error,
      w.loop.awaited = some (generation, .rejected error) → w.loop.inFlight = none →
        w.loop.Unattended generation →
          if rules.cancelled error = true ∨ rules.retryable error = false then w.last.wake = false
          else valid sample error
  | _ => True

end WatchedLoop

namespace ProtocolSyncLoop

variable {ε δ : Type} {rules : LoopRules ε δ} (s : ProtocolSyncLoop ε δ)

section
variable (delay : δ)

@[simp] theorem schedule_started : (s.schedule delay).started = s.started := by
  unfold schedule
  split <;> rfl

@[simp] theorem schedule_online : (s.schedule delay).online = s.online := by
  unfold schedule
  split <;> rfl

@[simp] theorem schedule_generation : (s.schedule delay).generation = s.generation := by
  unfold schedule
  split <;> rfl

@[simp] theorem schedule_rerunRequested :
    (s.schedule delay).rerunRequested = s.rerunRequested := by
  unfold schedule
  split <;> rfl

@[simp] theorem schedule_inFlight : (s.schedule delay).inFlight = s.inFlight := by
  unfold schedule
  split <;> rfl

@[simp] theorem schedule_awaited : (s.schedule delay).awaited = s.awaited := by
  unfold schedule
  split <;> rfl

variable {s}

theorem schedule_isSome (hstarted : s.started = true) : (s.schedule delay).timer.isSome = true := by
  unfold schedule
  split
  · rename_i h
    rcases h with h | h
    · rw [hstarted] at h
      cases h
    · exact h
  · rfl

/-- A timer belongs to the session that runs. -/
def TimerCurrent (s : ProtocolSyncLoop ε δ) : Prop :=
  ∀ timer, s.timer = some timer → s.started = true ∧ timer.generation = s.generation

theorem TimerCurrent.schedule (h : s.TimerCurrent) : (s.schedule delay).TimerCurrent := by
  unfold ProtocolSyncLoop.schedule
  split
  · exact h
  · rename_i hnot
    intro timer htimer
    cases htimer
    exact ⟨by simpa using fun hs => hnot (.inl hs), rfl⟩

end

section
variable {s}

theorem timerCurrent_of_none (h : s.timer = none) : s.TimerCurrent := by
  intro timer htimer
  rw [h] at htimer
  cases htimer

/-- What an event other than the end of a cycle can do. -/
inductive Effect (s s' : ProtocolSyncLoop ε δ) (wake : Bool) : Prop
  | unchanged (same : s' = s) (quiet : wake = false)
  | paused (silent : s'.started = true → s'.online = true → False)
      (timer : s'.TimerCurrent) (inFlight : s'.inFlight = s.inFlight)
      (awaited : s'.awaited = s.awaited) (generation : s.generation ≤ s'.generation)
  | started (armed : s'.timer.isSome = true) (timer : s'.TimerCurrent)
      (inFlight : s'.inFlight = s.inFlight) (awaited : s'.awaited = s.awaited)
      (generation : s'.generation = s.generation + 1)
  | woken (rerun : s'.rerunRequested = true)
      (armed : s.inFlight = none → s'.timer.isSome = true) (timer : s'.TimerCurrent)
      (inFlight : s'.inFlight = s.inFlight) (awaited : s'.awaited = s.awaited)
      (generation : s'.generation = s.generation)
  | begun (idle : s.inFlight = none) (driven : Bool) (timer : s'.TimerCurrent)
      (inFlight : s'.inFlight = some ⟨s.generation, driven, none⟩)
      (awaited : s'.awaited = s.awaited) (generation : s'.generation = s.generation)

theorem effect_start (h : s.TimerCurrent) : Effect s (s.start rules) false := by
  unfold ProtocolSyncLoop.start
  split
  · exact .unchanged rfl rfl
  · rename_i hstarted
    have htimer : s.timer = none := by
      cases ht : s.timer with
      | none => rfl
      | some timer => exact absurd (h timer ht).1 hstarted
    dsimp only
    split
    · refine .started (schedule_isSome _ rfl) (TimerCurrent.schedule _ ?_) ?_ ?_ ?_
      · exact timerCurrent_of_none htimer
      · simp
      · simp
      · simp
    · rename_i honline
      exact .paused (fun _ h => honline h) (timerCurrent_of_none htimer) rfl rfl (Nat.le_succ _)

theorem effect_stop : Effect s s.stop false :=
  .paused (fun h _ => Bool.false_ne_true h) (timerCurrent_of_none rfl) rfl rfl (Nat.le_succ _)

theorem effect_enterOffline (h : s.TimerCurrent) (honline : s.online = false) (wake : Bool) :
    Effect s s.enterOffline wake := by
  have hsilent : s.online = true → False := by simp [honline]
  unfold enterOffline
  split
  · exact .paused (fun _ => hsilent) h rfl rfl le_rfl
  · exact .paused (fun _ => hsilent) (timerCurrent_of_none rfl) rfl rfl (Nat.le_succ _)

theorem effect_hint (h : s.TimerCurrent) : Effect s (s.hint rules) true := by
  unfold ProtocolSyncLoop.hint
  split
  · rename_i hstarted
    exact .paused (by simp [hstarted]) h rfl rfl le_rfl
  · rename_i hstarted
    rw [Bool.not_eq_false] at hstarted
    split
    · rename_i honline
      exact effect_enterOffline h honline true
    · dsimp only
      have hawake : ∀ status, Effect s
          (if ({ s with status, rerunRequested := true }).inFlight.isSome = true then
            { s with status, rerunRequested := true }
          else schedule { s with status, rerunRequested := true, timer := none } rules.noDelay)
          true := by
        intro status
        split
        · rename_i hflight
          refine .woken rfl (fun hnone => ?_) h rfl rfl rfl
          dsimp only at hflight
          rw [hnone] at hflight
          cases hflight
        · refine .woken (by simp) (fun _ => schedule_isSome _ hstarted) ?_ ?_ ?_ ?_
          · exact TimerCurrent.schedule _ (timerCurrent_of_none rfl)
          · simp
          · simp
          · simp
      split
      · exact hawake .idle
      · exact hawake s.status

theorem effect_syncNow (h : s.TimerCurrent) (driven : Bool) :
    Effect s (s.syncNow driven) true := by
  unfold ProtocolSyncLoop.syncNow
  split
  · rename_i hflight
    refine .woken rfl (fun hnone => ?_) h rfl rfl rfl
    rw [hnone] at hflight
    cases hflight
  · rename_i hflight
    exact .begun (by simpa using hflight) driven h rfl rfl rfl

theorem effect_drive (h : s.TimerCurrent) (hstarted : s.started = true) :
    Effect s (s.drive s.generation) true := by
  unfold drive
  split
  · rename_i hstop
    rcases hstop with hstop | hstop
    · rw [hstarted] at hstop
      cases hstop
    · exact absurd rfl hstop
  · split
    · rename_i hflight
      refine .woken rfl (fun hnone => ?_) h rfl rfl rfl
      rw [hnone] at hflight
      cases hflight
    · rename_i hflight
      split
      · rename_i honline
        exact effect_enterOffline h honline true
      · unfold ProtocolSyncLoop.syncNow
        rw [if_neg hflight]
        exact .begun (by simpa using hflight) true h rfl rfl rfl

/-- An event that is a wake does the same from two states that differ in timer or connectivity. -/
theorem Effect.congr {t s' : ProtocolSyncLoop ε δ} (h : Effect s s' true)
    (hflight : s.inFlight = t.inFlight) (hawaited : s.awaited = t.awaited)
    (hgeneration : s.generation = t.generation) : Effect t s' true := by
  cases h with
  | unchanged same quiet => cases quiet
  | paused silent timer inFlight awaited generation =>
    exact .paused silent timer (inFlight.trans hflight) (awaited.trans hawaited)
      (hgeneration ▸ generation)
  | started armed timer inFlight awaited generation =>
    exact .started armed timer (inFlight.trans hflight) (awaited.trans hawaited)
      (hgeneration ▸ generation)
  | woken rerun armed timer inFlight awaited generation =>
    exact .woken rerun (hflight ▸ armed) timer (inFlight.trans hflight) (awaited.trans hawaited)
      (hgeneration ▸ generation)
  | begun idle driven timer inFlight awaited generation =>
    exact .begun (hflight ▸ idle) driven timer (hgeneration ▸ inFlight) (awaited.trans hawaited)
      (hgeneration ▸ generation)

theorem effect_timerFired (h : s.TimerCurrent) (handle : ℕ) :
    Effect s (s.timerFired handle) (s.isWake (.timerFired (ε := ε) handle)) := by
  unfold timerFired isWake
  cases htimer : s.timer with
  | none => exact .unchanged rfl rfl
  | some scheduled =>
    dsimp only [Option.any_some]
    split
    · rename_i hhandle
      exact .unchanged rfl (by simpa using hhandle)
    · rename_i hhandle
      obtain ⟨hstarted, hgeneration⟩ := h scheduled htimer
      have hnot : ¬ (scheduled.generation ≠ s.generation ∨ s.started = false) := by
        simp [hstarted, hgeneration]
      rw [if_neg hnot, hgeneration, decide_eq_true (not_not.mp hhandle)]
      let unarmed : ProtocolSyncLoop ε δ := { s with timer := none }
      have hdrive : Effect unarmed (unarmed.drive unarmed.generation) true :=
        effect_drive (timerCurrent_of_none rfl) hstarted
      exact hdrive.congr rfl rfl rfl

theorem effect_connectivity (h : s.TimerCurrent) (online : Bool) :
    Effect s (s.connectivity rules online) true :=
  Effect.congr (effect_hint (s := { s with online }) h) rfl rfl rfl

end

end ProtocolSyncLoop

namespace WatchedLoop
open ProtocolSyncLoop

variable {ε δ : Type} {rules : LoopRules ε δ} {w : WatchedLoop ε δ}

/-- The record shows the outcome of a cycle that has settled. -/
structure Reports (rules : LoopRules ε δ) (last : LastCycle) (outcome : CycleOutcome ε) : Prop where
  more : last.morePending = outcome.hasMorePending
  failed : last.failedRetryably = outcome.failedRetryably rules

/-- What a started and online loop has noted of the wakes it owes. -/
structure Watching (w : WatchedLoop ε δ) : Prop where
  superseded : ∀ cycle, w.loop.inFlight = some cycle → cycle.generation ≠ w.loop.generation →
    w.loop.rerunRequested = true ∨ w.loop.timer.isSome = true
  driven : ∀ cycle, w.loop.inFlight = some cycle → cycle.driven = true →
    cycle.generation = w.loop.generation → w.last.wake = true → w.loop.rerunRequested = true
  dropped : w.loop.inFlight = none → ∀ generation outcome,
    w.loop.awaited = some (generation, outcome) → generation ≠ w.loop.generation →
      w.loop.timer.isSome = true
  resuming : w.loop.inFlight = none → ∀ generation outcome,
    w.loop.awaited = some (generation, outcome) → generation = w.loop.generation →
      w.last.wake = true → w.loop.rerunRequested = true

structure Inv (rules : LoopRules ε δ) (w : WatchedLoop ε δ) : Prop where
  timer : w.loop.TimerCurrent
  flight_le : ∀ cycle, w.loop.inFlight = some cycle → cycle.generation ≤ w.loop.generation
  awaited_le : ∀ generation outcome, w.loop.awaited = some (generation, outcome) →
    generation ≤ w.loop.generation
  settled : ∀ generation driven outcome,
    w.loop.inFlight = some ⟨generation, driven, some outcome⟩ → Reports rules w.last outcome
  finalized : w.loop.inFlight = none → ∀ generation outcome,
    w.loop.awaited = some (generation, outcome) → Reports rules w.last outcome
  watching : w.loop.started = true → w.loop.online = true → Watching w

theorem Inv.new (online : Bool) : Inv rules (WatchedLoop.new (δ := δ) online) where
  timer := timerCurrent_of_none rfl
  flight_le _ h := by cases h
  awaited_le _ _ h := by cases h
  settled _ _ _ h := by cases h
  finalized _ _ _ h := by cases h
  watching h := by cases h

theorem WakeKept.new (online : Bool) : WakeKept (WatchedLoop.new (ε := ε) (δ := δ) online) := by
  intro h
  cases h

section
variable {s' : ProtocolSyncLoop ε δ} {wake : Bool}

/-- The fields of the invariant that hold as long as the cycle in flight stays the same. -/
theorem Inv.of_same (h : Inv rules w) {wake : Bool} (timer : s'.TimerCurrent)
    (inFlight : s'.inFlight = w.loop.inFlight) (awaited : s'.awaited = w.loop.awaited)
    (generation : w.loop.generation ≤ s'.generation)
    (watching : s'.started = true → s'.online = true →
      Watching ⟨s', { w.last with wake := w.last.wake || wake }⟩) :
    Inv rules ⟨s', { w.last with wake := w.last.wake || wake }⟩ where
  timer := timer
  flight_le cycle hcycle := (h.flight_le cycle (inFlight ▸ hcycle)).trans generation
  awaited_le g outcome hg := (h.awaited_le g outcome (awaited ▸ hg)).trans generation
  settled g driven outcome hg :=
    have hreports := h.settled g driven outcome (inFlight ▸ hg)
    ⟨hreports.more, hreports.failed⟩
  finalized hnone g outcome hg :=
    have hreports := h.finalized (inFlight ▸ hnone) g outcome (awaited ▸ hg)
    ⟨hreports.more, hreports.failed⟩
  watching := watching

/-- What `lastAfter` makes of the record, unless a cycle settles. -/
def record (w : WatchedLoop ε δ) (s' : ProtocolSyncLoop ε δ) (wake : Bool) : LastCycle :=
  if w.loop.inFlight.isNone && s'.inFlight.isSome then .begun
  else { w.last with wake := w.last.wake || wake }

theorem record_of_same (inFlight : s'.inFlight = w.loop.inFlight) :
    w.record s' wake = { w.last with wake := w.last.wake || wake } := by
  unfold record
  rw [inFlight]
  cases w.loop.inFlight with
  | none => rfl
  | some cycle => rfl

theorem Inv.effect (h : Inv rules w) (heffect : Effect w.loop s' wake) :
    Inv rules ⟨s', w.record s' wake⟩ := by
  cases heffect with
  | unchanged same quiet =>
    subst same quiet
    rw [record_of_same rfl]
    refine h.of_same h.timer rfl rfl le_rfl fun hstarted honline => ?_
    simpa using h.watching hstarted honline
  | paused silent timer inFlight awaited generation =>
    rw [record_of_same inFlight]
    exact h.of_same timer inFlight awaited generation fun hs ho => (silent hs ho).elim
  | started armed timer inFlight awaited generation =>
    rw [record_of_same inFlight]
    refine h.of_same timer inFlight awaited (by omega) fun _ _ => ?_
    refine ⟨fun _ _ _ => .inr armed, ?_, fun _ _ _ _ _ => armed, ?_⟩
    · intro cycle hcycle _ hgeneration
      have := h.flight_le cycle (inFlight ▸ hcycle)
      dsimp only at hgeneration
      omega
    · intro _ g outcome hawaited hgeneration
      have := h.awaited_le g outcome (awaited ▸ hawaited)
      dsimp only at hgeneration
      omega
  | woken rerun armed timer inFlight awaited generation =>
    rw [record_of_same inFlight]
    refine h.of_same timer inFlight awaited generation.ge fun _ _ => ?_
    exact ⟨fun _ _ _ => .inl rerun, fun _ _ _ _ _ => rerun,
      fun hnone _ _ _ _ => armed (inFlight ▸ hnone), fun _ _ _ _ _ _ => rerun⟩
  | begun idle driven timer inFlight awaited generation =>
    have hrecord : w.record s' wake = .begun := by
      unfold record
      rw [idle, inFlight]
      rfl
    rw [hrecord]
    exact {
      timer
      flight_le := by
        intro cycle hcycle
        rw [inFlight] at hcycle
        cases hcycle
        exact generation.ge
      awaited_le := fun g outcome hg => generation ▸ h.awaited_le g outcome (awaited ▸ hg)
      settled := by
        intro g d outcome hcycle
        rw [inFlight] at hcycle
        cases hcycle
      finalized := by
        intro hnone
        rw [inFlight] at hnone
        cases hnone
      watching := by
        intro _ _
        refine ⟨?_, fun _ _ _ _ hwake => (Bool.false_ne_true hwake).elim, ?_, ?_⟩
        · intro cycle hcycle hgeneration
          rw [inFlight] at hcycle
          cases hcycle
          exact absurd generation.symm hgeneration
        · intro hnone
          rw [inFlight] at hnone
          cases hnone
        · intro hnone
          rw [inFlight] at hnone
          cases hnone }

theorem WakeKept.effect (h : WakeKept w) (heffect : Effect w.loop s' wake) :
    WakeKept ⟨s', w.record s' wake⟩ := by
  intro hstarted honline hflight hawaited howes
  cases heffect with
  | unchanged same quiet =>
    subst same quiet
    rw [record_of_same rfl] at howes
    exact h hstarted honline hflight hawaited (by simpa using howes)
  | paused silent => exact (silent hstarted honline).elim
  | started armed => exact armed
  | woken rerun armed timer inFlight => exact armed (inFlight ▸ hflight)
  | begun idle driven timer inFlight =>
    rw [inFlight] at hflight
    cases hflight

end

end WatchedLoop
end OptoSync
