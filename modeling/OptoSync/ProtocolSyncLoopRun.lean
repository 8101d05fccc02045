import OptoSync.ProtocolSyncLoopWakes

/-!
# Runs of the sync loop

A cycle that ends is where a wake is kept or lost. A run keeps them all exactly when nothing is
owed at the ends for which the loop schedules no timer.
-/
namespace OptoSync
open Transition

namespace WatchedLoop
open ProtocolSyncLoop

variable {ε δ : Type} {rules : LoopRules ε δ} {w : WatchedLoop ε δ}

theorem lastAfter_eq_record {event : SyncLoopEvent ε}
    (hevent : ∀ outcome, event ≠ .cycleSettled outcome) :
    w.lastAfter rules event = w.record (w.loop.next rules event) (w.loop.isWake event) := by
  unfold lastAfter record
  cases event with
  | cycleSettled outcome => exact absurd rfl (hevent outcome)
  | _ => rfl

theorem cycleSettled_eq {s : ProtocolSyncLoop ε δ} {generation : ℕ} {driven : Bool}
    (hflight : s.inFlight = some ⟨generation, driven, none⟩) (outcome : CycleOutcome ε) :
    ∃ status failures, s.cycleSettled outcome = { s with
      inFlight := some ⟨generation, driven, some outcome⟩
      status
      consecutiveFailures := failures } := by
  unfold ProtocolSyncLoop.cycleSettled
  rw [hflight]
  dsimp only
  split
  · exact ⟨s.status, s.consecutiveFailures, rfl⟩
  · cases outcome with
    | resolved hasMorePending => exact ⟨_, _, rfl⟩
    | rejected error => exact ⟨_, _, rfl⟩

theorem exists_of_running {s : ProtocolSyncLoop ε δ} (h : s.running = true) :
    ∃ generation driven, s.inFlight = some ⟨generation, driven, none⟩ := by
  unfold running at h
  split at h
  · rename_i generation driven hflight
    exact ⟨generation, driven, hflight⟩
  · cases h

theorem cycleSettled_of_not_running {s : ProtocolSyncLoop ε δ} (h : ¬ s.running = true)
    (outcome : CycleOutcome ε) : s.cycleSettled outcome = s := by
  unfold running at h
  unfold ProtocolSyncLoop.cycleSettled
  cases hflight : s.inFlight with
  | none => rfl
  | some cycle =>
    obtain ⟨generation, driven, settled⟩ := cycle
    cases settled with
    | none =>
      rw [hflight] at h
      exact absurd rfl h
    | some settled => rfl

/-- A cycle settles once, and nothing but the report of its end changes. -/
theorem next_cycleSettled (w : WatchedLoop ε δ) (outcome : CycleOutcome ε) :
    w.next rules (.cycleSettled outcome) = w ∨
      ∃ generation driven status failures,
        w.loop.inFlight = some ⟨generation, driven, none⟩ ∧
        w.next rules (.cycleSettled outcome) =
          ⟨{ w.loop with
              inFlight := some ⟨generation, driven, some outcome⟩
              status
              consecutiveFailures := failures },
            { w.last with
              morePending := outcome.hasMorePending
              failedRetryably := outcome.failedRetryably rules }⟩ := by
  unfold WatchedLoop.next lastAfter
  by_cases hrunning : w.loop.running = true
  · obtain ⟨generation, driven, hflight⟩ := exists_of_running hrunning
    obtain ⟨status, failures, hloop⟩ := cycleSettled_eq hflight outcome
    change w.loop.next rules (.cycleSettled outcome) = _ at hloop
    refine .inr ⟨generation, driven, status, failures, hflight, ?_⟩
    rw [hloop, if_neg (by simp [hflight])]
    dsimp only
    rw [if_pos hrunning]
  · have hloop : w.loop.next rules (.cycleSettled outcome) = w.loop :=
      cycleSettled_of_not_running hrunning outcome
    left
    rw [hloop, if_neg (by simp)]
    dsimp only
    rw [if_neg hrunning]

theorem Inv.cycleSettled (h : Inv rules w) (outcome : CycleOutcome ε) :
    Inv rules (w.next rules (.cycleSettled outcome)) := by
  rcases next_cycleSettled w outcome with hsame | ⟨generation, driven, _, _, hflight, hnext⟩
  · rw [hsame]
    exact h
  · rw [hnext]
    exact {
      timer := h.timer
      flight_le := by
        intro cycle hcycle
        cases hcycle
        exact h.flight_le ⟨generation, driven, none⟩ hflight
      awaited_le := h.awaited_le
      settled := by
        intro g d o hcycle
        cases hcycle
        exact ⟨rfl, rfl⟩
      finalized := fun hnone => by cases hnone
      watching := by
        intro hstarted honline
        have hwatching := h.watching hstarted honline
        refine ⟨?_, ?_, fun hnone => ?_, fun hnone => ?_⟩
        · intro cycle hcycle
          cases hcycle
          exact hwatching.superseded ⟨generation, driven, none⟩ hflight
        · intro cycle hcycle
          cases hcycle
          exact hwatching.driven ⟨generation, driven, none⟩ hflight
        · cases hnone
        · cases hnone }

theorem WakeKept.cycleSettled (h : WakeKept w) (outcome : CycleOutcome ε) :
    WakeKept (w.next rules (.cycleSettled outcome)) := by
  rcases next_cycleSettled w outcome with hsame | ⟨generation, driven, _, _, hflight, hnext⟩
  · rw [hsame]
    exact h
  · rw [hnext]
    intro _ _ hnone
    cases hnone

/-- The loop after the `finally` of a cycle, before it may schedule. -/
def finished (s : ProtocolSyncLoop ε δ) (generation : ℕ) (driven : Bool)
    (outcome : CycleOutcome ε) : ProtocolSyncLoop ε δ :=
  { s with inFlight := none, awaited := if driven then some (generation, outcome) else none }

theorem cycleFinalized_eq {s : ProtocolSyncLoop ε δ} {generation : ℕ} {driven : Bool}
    {outcome : CycleOutcome ε} (hflight : s.inFlight = some ⟨generation, driven, some outcome⟩)
    (hawaited : s.awaited = none) :
    s.cycleFinalized rules =
      if generation ≠ s.generation ∧ s.started ∧ s.online ∧ s.rerunRequested then
        (finished s generation driven outcome).schedule rules.noDelay
      else finished s generation driven outcome := by
  unfold ProtocolSyncLoop.cycleFinalized
  rw [hflight, hawaited]
  rfl

theorem next_cycleFinalized (w : WatchedLoop ε δ) :
    w.next rules .cycleFinalized = ⟨w.loop.cycleFinalized rules, w.last⟩ := by
  have hnone : (w.loop.inFlight.isNone && (w.loop.cycleFinalized rules).inFlight.isSome) =
      false := by
    unfold ProtocolSyncLoop.cycleFinalized
    split
    · rename_i hflight _
      rw [hflight]
      rfl
    · simp
  unfold WatchedLoop.next lastAfter ProtocolSyncLoop.next
  simp only [hnone, isWake, Bool.or_false, Bool.false_eq_true, if_false]

/-- Where no cycle has settled, or `drive` has still to resume, `finally` has not come. -/
theorem cycleFinalized_same {s : ProtocolSyncLoop ε δ}
    (h : ∀ generation driven outcome, s.inFlight = some ⟨generation, driven, some outcome⟩ →
      s.awaited ≠ none) : s.cycleFinalized rules = s := by
  unfold ProtocolSyncLoop.cycleFinalized
  split
  · rename_i generation driven outcome hflight hawaited
    exact absurd hawaited (h generation driven outcome hflight)
  · rfl

section
variable {generation : ℕ} {driven : Bool} {outcome : CycleOutcome ε}

theorem Inv.of_finished (h : Inv rules w)
    (hflight : w.loop.inFlight = some ⟨generation, driven, some outcome⟩)
    {s' : ProtocolSyncLoop ε δ} (timer : s'.TimerCurrent) (inFlight : s'.inFlight = none)
    (awaited : s'.awaited = if driven then some (generation, outcome) else none)
    (same : s'.generation = w.loop.generation)
    (dropped : s'.started = true → s'.online = true → generation ≠ w.loop.generation →
      s'.timer.isSome = true)
    (resuming : s'.started = true → s'.online = true → driven = true →
      generation = w.loop.generation → w.last.wake = true → s'.rerunRequested = true) :
    Inv rules ⟨s', w.last⟩ := by
  have hdriven : ∀ g o, s'.awaited = some (g, o) →
      driven = true ∧ g = generation ∧ o = outcome := by
    intro g o hg
    rw [awaited] at hg
    split at hg
    · rename_i hdriven
      cases hg
      exact ⟨hdriven, rfl, rfl⟩
    · cases hg
  exact {
    timer
    flight_le := by
      intro cycle hcycle
      rw [inFlight] at hcycle
      cases hcycle
    awaited_le := by
      intro g o hg
      obtain ⟨-, rfl, -⟩ := hdriven g o hg
      exact (h.flight_le _ hflight).trans same.ge
    settled := by
      intro g d o hcycle
      rw [inFlight] at hcycle
      cases hcycle
    finalized := by
      intro _ g o hg
      obtain ⟨-, rfl, rfl⟩ := hdriven g o hg
      exact h.settled _ _ _ hflight
    watching := by
      intro hstarted honline
      refine ⟨?_, ?_, ?_, ?_⟩
      · intro cycle hcycle
        rw [inFlight] at hcycle
        cases hcycle
      · intro cycle hcycle
        rw [inFlight] at hcycle
        cases hcycle
      · intro _ g o hg hgeneration
        obtain ⟨-, rfl, -⟩ := hdriven g o hg
        exact dropped hstarted honline (same ▸ hgeneration)
      · intro _ g o hg hgeneration hwake
        obtain ⟨hd, rfl, -⟩ := hdriven g o hg
        exact resuming hstarted honline hd (same ▸ hgeneration) hwake }

theorem Inv.cycleFinalized (h : Inv rules w) : Inv rules (w.next rules .cycleFinalized) := by
  rw [next_cycleFinalized]
  by_cases hcycle : ∀ generation driven outcome,
      w.loop.inFlight = some ⟨generation, driven, some outcome⟩ → w.loop.awaited ≠ none
  · rw [cycleFinalized_same hcycle]
    exact h
  · push Not at hcycle
    obtain ⟨generation, driven, outcome, hflight, hawaited⟩ := hcycle
    rw [cycleFinalized_eq hflight hawaited]
    split
    · rename_i hsuperseded
      refine h.of_finished hflight (TimerCurrent.schedule _ h.timer) (by simp [finished])
        (by simp [finished]) (by simp [finished]) ?_ ?_
      · intro _ _ _
        exact schedule_isSome _ hsuperseded.2.1
      · intro _ _ _ hgeneration
        exact absurd hgeneration hsuperseded.1
    · rename_i hkept
      refine h.of_finished hflight h.timer rfl rfl rfl ?_ ?_
      · intro hstarted honline hgeneration
        rcases (h.watching hstarted honline).superseded _ hflight hgeneration with hrerun | htimer
        · exact absurd ⟨hgeneration, hstarted, honline, hrerun⟩ hkept
        · exact htimer
      · intro hstarted honline hdriven hgeneration hwake
        exact (h.watching hstarted honline).driven _ hflight hdriven hgeneration hwake

theorem wakeKept_cycleFinalized (h : Inv rules w) (hkept : WakeKept w)
    (valid : Number → ε → Prop) :
    WakeKept (w.next rules .cycleFinalized) ↔ NothingOwed rules valid w .cycleFinalized := by
  rw [next_cycleFinalized]
  by_cases hcycle : ∀ generation driven outcome,
      w.loop.inFlight = some ⟨generation, driven, some outcome⟩ → w.loop.awaited ≠ none
  · rw [cycleFinalized_same hcycle]
    constructor
    · intro _ generation outcome hflight hawaited
      exact absurd hawaited (hcycle _ _ _ hflight)
    · intro _
      exact hkept
  · push Not at hcycle
    obtain ⟨generation, driven, outcome, hflight, hawaited⟩ := hcycle
    rw [cycleFinalized_eq hflight hawaited]
    constructor
    · intro hnext g o hg _ hunattended howes
      rw [hflight] at hg
      cases hg
      obtain ⟨hgeneration, hstarted, honline, htimer⟩ := hunattended
      rw [if_neg fun hsuperseded => hsuperseded.1 hgeneration] at hnext
      have harmed : w.loop.timer.isSome = true := hnext hstarted honline rfl rfl howes
      rw [htimer] at harmed
      cases harmed
    · intro hnothing
      split
      · rename_i hsuperseded
        intro _ _ _ _ _
        exact schedule_isSome _ hsuperseded.2.1
      · rename_i hunscheduled
        intro hstarted honline _ hdirect howes
        cases driven with
        | true => cases hdirect
        | false =>
          by_cases hgeneration : generation = w.loop.generation
          · cases htimer : w.loop.timer with
            | some timer =>
              change w.loop.timer.isSome = true
              rw [htimer]
              rfl
            | none =>
              have hunattended : w.loop.Unattended generation :=
                ⟨hgeneration, hstarted, honline, htimer⟩
              exact absurd howes (hnothing generation outcome hflight hawaited hunattended)
          · rcases (h.watching hstarted honline).superseded _ hflight hgeneration with
              hrerun | htimer
            · exact absurd ⟨hgeneration, hstarted, honline, hrerun⟩ hunscheduled
            · exact htimer

end

/-- Resuming ends the wait, and may schedule. -/
theorem driveResumed_cases (rules : LoopRules ε δ) {s : ProtocolSyncLoop ε δ} {generation : ℕ}
    {outcome : CycleOutcome ε}
    (hawaited : s.awaited = some (generation, outcome)) (sample : Number) :
    ∃ status failures,
      let resumed := { s with awaited := none, status, consecutiveFailures := failures }
      s.driveResumed rules sample = resumed ∨
        ∃ delay, s.driveResumed rules sample = resumed.schedule delay := by
  unfold ProtocolSyncLoop.driveResumed
  rw [hawaited]
  dsimp only
  cases outcome with
  | resolved hasMorePending =>
    refine ⟨s.status, s.consecutiveFailures, ?_⟩
    dsimp only
    split
    · exact .inl rfl
    · split
      · exact .inr ⟨rules.noDelay, rfl⟩
      · exact .inl rfl
  | rejected error =>
    dsimp only
    split
    · exact ⟨s.status, s.consecutiveFailures, .inl rfl⟩
    · split
      · exact ⟨.error, s.consecutiveFailures, .inl rfl⟩
      · split
        · exact ⟨s.status, s.consecutiveFailures, .inl rfl⟩
        · rename_i delay _
          exact ⟨.backoff, _, .inr ⟨delay, rfl⟩⟩

/-- The fields that resuming leaves as they are. -/
structure ResumesTo (s s' : ProtocolSyncLoop ε δ) : Prop where
  started : s'.started = s.started
  online : s'.online = s.online
  rerun : s'.rerunRequested = s.rerunRequested
  generation : s'.generation = s.generation
  inFlight : s'.inFlight = s.inFlight
  awaited : s'.awaited = none
  timer : s.TimerCurrent → s'.TimerCurrent
  armed : s.timer.isSome = true → s'.timer.isSome = true

theorem driveResumed_frame (s : ProtocolSyncLoop ε δ) (sample : Number) :
    ResumesTo s (s.driveResumed rules sample) := by
  cases hawaited : s.awaited with
  | none =>
    have hsame : s.driveResumed rules sample = s := by
      unfold ProtocolSyncLoop.driveResumed
      rw [hawaited]
    rw [hsame]
    exact ⟨rfl, rfl, rfl, rfl, rfl, hawaited, id, id⟩
  | some wait =>
    obtain ⟨generation, outcome⟩ := wait
    obtain ⟨status, failures, heq | ⟨delay, heq⟩⟩ :=
      driveResumed_cases rules hawaited sample
    · rw [heq]
      exact ⟨rfl, rfl, rfl, rfl, rfl, rfl, id, id⟩
    · rw [heq]
      refine ⟨by simp, by simp, by simp, by simp, by simp, by simp,
        fun h => TimerCurrent.schedule _ h, fun harmed => ?_⟩
      unfold schedule
      rw [if_pos (.inr harmed)]
      exact harmed

theorem next_driveResumed (w : WatchedLoop ε δ) (sample : Number) :
    w.next rules (.driveResumed sample) = ⟨w.loop.driveResumed rules sample, w.last⟩ := by
  have hflight : (w.loop.driveResumed rules sample).inFlight = w.loop.inFlight :=
    (driveResumed_frame w.loop sample).inFlight
  have hnone : (w.loop.inFlight.isNone && (w.loop.driveResumed rules sample).inFlight.isSome) =
      false := by
    rw [hflight]
    simp
  unfold WatchedLoop.next lastAfter ProtocolSyncLoop.next
  simp only [hnone, isWake, Bool.or_false, Bool.false_eq_true, if_false]

theorem Inv.driveResumed (h : Inv rules w) (sample : Number) :
    Inv rules (w.next rules (.driveResumed sample)) := by
  rw [next_driveResumed]
  have hframe : ResumesTo w.loop (w.loop.driveResumed rules sample) :=
    driveResumed_frame w.loop sample
  exact {
    timer := hframe.timer h.timer
    flight_le := by
      intro cycle hcycle
      rw [hframe.generation]
      exact h.flight_le cycle (hframe.inFlight ▸ hcycle)
    awaited_le := by
      intro g o hg
      rw [hframe.awaited] at hg
      cases hg
    settled := fun g d o hcycle => h.settled g d o (hframe.inFlight ▸ hcycle)
    finalized := by
      intro _ g o hg
      rw [hframe.awaited] at hg
      cases hg
    watching := by
      intro hstarted honline
      have hwatching := h.watching (hframe.started ▸ hstarted) (hframe.online ▸ honline)
      refine ⟨?_, ?_, ?_, ?_⟩
      · intro cycle hcycle hgeneration
        rcases hwatching.superseded cycle (hframe.inFlight ▸ hcycle)
          (hframe.generation ▸ hgeneration) with hrerun | harmed
        · exact .inl (hframe.rerun.trans hrerun)
        · exact .inr (hframe.armed harmed)
      · intro cycle hcycle hdriven hgeneration hwake
        exact hframe.rerun.trans (hwatching.driven cycle (hframe.inFlight ▸ hcycle) hdriven
          (hframe.generation ▸ hgeneration) hwake)
      · intro _ g o hg
        rw [hframe.awaited] at hg
        cases hg
      · intro _ g o hg
        rw [hframe.awaited] at hg
        cases hg }

section
variable {s : ProtocolSyncLoop ε δ} {generation : ℕ}

theorem driveResumed_resolved {hasMorePending : Bool}
    (hawaited : s.awaited = some (generation, .resolved hasMorePending))
    (hgeneration : generation = s.generation) (hstarted : s.started = true)
    (hwanted : s.rerunRequested = true ∨ hasMorePending = true) (sample : Number) :
    (s.driveResumed rules sample).timer.isSome = true := by
  unfold ProtocolSyncLoop.driveResumed
  rw [hawaited]
  dsimp only
  rw [if_neg (not_not.mpr hgeneration), if_pos ⟨hstarted, hwanted⟩]
  exact schedule_isSome _ hstarted

/-- After a failure a timer is scheduled for a retry only. -/
theorem driveResumed_rejected {error : ε}
    (hawaited : s.awaited = some (generation, .rejected error))
    (hunattended : s.Unattended generation) (sample : Number) :
    (s.driveResumed rules sample).timer.isSome = true ↔
      ¬ (rules.cancelled error = true ∨ rules.retryable error = false) ∧
        (rules.retryDelay (min (s.consecutiveFailures + 1) 31) sample error).isSome = true := by
  obtain ⟨hgeneration, hstarted, -, htimer⟩ := hunattended
  unfold ProtocolSyncLoop.driveResumed
  rw [hawaited]
  dsimp only
  split
  · rename_i hreturn
    have hcancelled : rules.cancelled error = true := by
      rcases hreturn with hstop | hstale | hcancelled
      · exact absurd hstop (by simp [hstarted])
      · exact absurd hgeneration hstale
      · exact hcancelled
    simp [htimer, hcancelled]
  · rename_i hcontinue
    have hcancelled : rules.cancelled error = false := by
      simpa using fun h => hcontinue (.inr (.inr h))
    split
    · rename_i hpermanent
      simp [htimer, hpermanent]
    · rename_i hretryable
      rw [Bool.not_eq_false] at hretryable
      split
      · rename_i hdelay
        simp [htimer, hdelay]
      · rename_i delay hdelay
        have harmed : (schedule { s with
            awaited := none
            status := .backoff
            consecutiveFailures := min (s.consecutiveFailures + 1) 31 } delay).timer.isSome =
              true := schedule_isSome _ hstarted
        simp [harmed, hdelay, hcancelled, hretryable]

end

/-- A loop without a cycle or a timer, when `drive` resumes in its own generation. -/
theorem wakeKept_resumed (h : Inv rules w) {valid : Number → ε → Prop}
    (hvalid : ∀ failures sample error, 1 ≤ failures →
      ((rules.retryDelay failures sample error).isSome = true ↔ valid sample error))
    {generation : ℕ} {outcome : CycleOutcome ε} (hflight : w.loop.inFlight = none)
    (hawaited : w.loop.awaited = some (generation, outcome))
    (hunattended : w.loop.Unattended generation) (sample : Number) :
    (w.last.Owes → (w.loop.driveResumed rules sample).timer.isSome = true) ↔
      ∀ error, outcome = .rejected error →
        if rules.cancelled error = true ∨ rules.retryable error = false then w.last.wake = false
        else valid sample error := by
  have hreports : Reports rules w.last outcome := h.finalized hflight _ _ hawaited
  have hwake : w.last.wake = true → w.loop.rerunRequested = true :=
    (h.watching hunattended.started hunattended.online).resuming hflight _ _ hawaited
      hunattended.current
  cases outcome with
  | resolved hasMorePending =>
    constructor
    · intro _ error herror
      cases herror
    · intro _ howes
      refine driveResumed_resolved hawaited hunattended.current hunattended.started ?_ sample
      rcases howes with howes | howes | howes
      · exact .inl (hwake howes)
      · exact .inr (hreports.more.symm.trans howes)
      · rw [hreports.failed] at howes
        cases howes
  | rejected error =>
    rw [driveResumed_rejected hawaited hunattended, hvalid _ _ _ (by omega)]
    have howes : w.last.Owes ↔ w.last.wake = true ∨
        ¬ (rules.cancelled error = true ∨ rules.retryable error = false) := by
      simp [LastCycle.Owes, hreports.more, hreports.failed, CycleOutcome.hasMorePending,
        CycleOutcome.failedRetryably]
    rw [howes]
    by_cases hgivenUp : rules.cancelled error = true ∨ rules.retryable error = false
    · simp [hgivenUp]
    · simp [hgivenUp]

theorem wakeKept_driveResumed (h : Inv rules w) (hkept : WakeKept w) {valid : Number → ε → Prop}
    (hvalid : ∀ failures sample error, 1 ≤ failures →
      ((rules.retryDelay failures sample error).isSome = true ↔ valid sample error))
    (sample : Number) :
    WakeKept (w.next rules (.driveResumed sample)) ↔
      NothingOwed rules valid w (.driveResumed sample) := by
  have hframe : ResumesTo w.loop (w.loop.driveResumed rules sample) :=
    driveResumed_frame w.loop sample
  rw [next_driveResumed]
  constructor
  · intro hnext generation error hawaited hflight hunattended
    have hresumed := (wakeKept_resumed h hvalid hflight hawaited hunattended sample).mp
      fun howes => hnext (hframe.started.trans hunattended.started)
        (hframe.online.trans hunattended.online) (hframe.inFlight.trans hflight) hframe.awaited
        howes
    exact hresumed error rfl
  · intro hnothing hstarted honline hflight _ howes
    have hstarted : w.loop.started = true := hframe.started ▸ hstarted
    have honline : w.loop.online = true := hframe.online ▸ honline
    have hflight : w.loop.inFlight = none := hframe.inFlight ▸ hflight
    cases hawaited : w.loop.awaited with
    | none => exact hframe.armed (hkept hstarted honline hflight hawaited howes)
    | some wait =>
      obtain ⟨generation, outcome⟩ := wait
      cases htimer : w.loop.timer with
      | some timer => exact hframe.armed (by rw [htimer]; rfl)
      | none =>
        by_cases hgeneration : generation = w.loop.generation
        · have hunattended : w.loop.Unattended generation :=
            ⟨hgeneration, hstarted, honline, htimer⟩
          refine (wakeKept_resumed h hvalid hflight hawaited hunattended sample).mpr ?_ howes
          intro error herror
          subst herror
          exact hnothing generation error hawaited hflight hunattended
        · exact hframe.armed
            ((h.watching hstarted honline).dropped hflight _ _ hawaited hgeneration)

theorem Inv.next (h : Inv rules w) (event : SyncLoopEvent ε) : Inv rules (w.next rules event) := by
  have hplain : ∀ event : SyncLoopEvent ε, (∀ outcome, event ≠ .cycleSettled outcome) →
      Effect w.loop (w.loop.next rules event) (w.loop.isWake event) →
        Inv rules (w.next rules event) := by
    intro event hevent heffect
    unfold WatchedLoop.next
    rw [lastAfter_eq_record hevent]
    exact h.effect heffect
  cases event with
  | start => exact hplain _ (by simp) (effect_start h.timer)
  | stop => exact hplain _ (by simp) effect_stop
  | hint => exact hplain _ (by simp) (effect_hint h.timer)
  | syncNow => exact hplain _ (by simp) (effect_syncNow h.timer false)
  | timerFired handle => exact hplain _ (by simp) (effect_timerFired h.timer handle)
  | connectivity online => exact hplain _ (by simp) (effect_connectivity h.timer online)
  | cycleSettled outcome => exact h.cycleSettled outcome
  | cycleFinalized => exact h.cycleFinalized
  | driveResumed sample => exact h.driveResumed sample

theorem wakeKept_next (h : Inv rules w) (hkept : WakeKept w) {valid : Number → ε → Prop}
    (hvalid : ∀ failures sample error, 1 ≤ failures →
      ((rules.retryDelay failures sample error).isSome = true ↔ valid sample error))
    (event : SyncLoopEvent ε) :
    WakeKept (w.next rules event) ↔ NothingOwed rules valid w event := by
  have hplain : ∀ event : SyncLoopEvent ε, (∀ outcome, event ≠ .cycleSettled outcome) →
      Effect w.loop (w.loop.next rules event) (w.loop.isWake event) →
        (WakeKept (w.next rules event) ↔ True) := by
    intro event hevent heffect
    unfold WatchedLoop.next
    rw [lastAfter_eq_record hevent]
    exact iff_true_intro (hkept.effect heffect)
  cases event with
  | start => exact hplain _ (by simp) (effect_start h.timer)
  | stop => exact hplain _ (by simp) effect_stop
  | hint => exact hplain _ (by simp) (effect_hint h.timer)
  | syncNow => exact hplain _ (by simp) (effect_syncNow h.timer false)
  | timerFired handle => exact hplain _ (by simp) (effect_timerFired h.timer handle)
  | connectivity online => exact hplain _ (by simp) (effect_connectivity h.timer online)
  | cycleSettled outcome => exact iff_true_intro (hkept.cycleSettled outcome)
  | cycleFinalized => exact wakeKept_cycleFinalized h hkept valid
  | driveResumed sample => exact wakeKept_driveResumed h hkept hvalid sample

theorem run_wakeKept_iff_nothingOwed {valid : Number → ε → Prop}
    (hvalid : ∀ failures sample error, 1 ≤ failures →
      ((rules.retryDelay failures sample error).isSome = true ↔ valid sample error))
    (online : Bool) (events : List (SyncLoopEvent ε)) :
    StatesMeet (WatchedLoop.next rules) WakeKept (new online) events ↔
      StepsMeet (WatchedLoop.next rules) (NothingOwed rules valid) (new online) events :=
  statesMeet_iff_stepsMeet (I := Inv rules) (fun _ event h => h.next event)
    (fun _ event h hkept => wakeKept_next h hkept hvalid event) (Inv.new online)
    (WakeKept.new online) events

end WatchedLoop

namespace SyncLoop

/-- What the retry after a failure needs: a sample, and a delay that `computeRetryDelay` takes. -/
def ValidRetry (sample : Number) (error : CycleError) : Prop :=
  sample.IsSample ∧ error.retryAfter.IsDelay

theorem RetryPolicy.delay_isSome (policy : RetryPolicy) (failures : ℕ) (sample : Number)
    (error : CycleError) (hfailures : 1 ≤ failures) :
    ((rules policy).retryDelay failures sample error).isSome = true ↔ ValidRetry sample error := by
  have hpolicy := (computeRetryDelay_isSome le_rfl).mp policy.valid
  exact (computeRetryDelay_isSome hfailures).trans (and_iff_right hpolicy.1)

theorem syncLoop_wakes_iff (policy : RetryPolicy) (online : Bool)
    (events : List (SyncLoopEvent CycleError)) :
    StatesMeet (WatchedLoop.next (rules policy)) WatchedLoop.WakeKept (.new online) events ↔
      StepsMeet (WatchedLoop.next (rules policy))
        (WatchedLoop.NothingOwed (rules policy) ValidRetry) (.new online) events :=
  WatchedLoop.run_wakeKept_iff_nothingOwed policy.delay_isSome online events

/-- The write path: `hint`, then `syncNow`, whose cycle the timer of the hint joins. -/
def writePath : List (SyncLoopEvent CycleError) :=
  [.start, .hint, .syncNow, .timerFired 1, .cycleSettled (.resolved false), .cycleFinalized]

theorem writePath_loses_wake :
    ¬ ∀ (policy : RetryPolicy) (online : Bool) (events : List (SyncLoopEvent CycleError)),
      StatesMeet (WatchedLoop.next (rules policy)) WatchedLoop.WakeKept (.new online) events := by
  intro h
  have hrun := statesMeet_iff_prefix.mp (h ⟨.finite 500, .finite 30000, by decide⟩ true writePath)
    writePath (List.prefix_refl _)
  exact Bool.false_ne_true (hrun rfl rfl rfl rfl (.inl rfl))

end SyncLoop

namespace Dart

def ValidRetry (sample : Number) (error : CycleError) : Prop :=
  sample.IsSample ∧ 0 ≤ error.retryAfter.inMicroseconds

theorem RetryPolicy.delay_isSome (policy : RetryPolicy) (failures : ℕ) (sample : Number)
    (error : CycleError) (hfailures : 1 ≤ failures) :
    ((rules policy).retryDelay failures sample error).isSome = true ↔ ValidRetry sample error := by
  have hpolicy := (computeProtocolRetryDelay_isSome le_rfl).mp policy.valid
  exact (computeProtocolRetryDelay_isSome hfailures).trans (and_iff_right hpolicy.1)

end Dart
end OptoSync
