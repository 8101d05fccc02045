import OptoSync.HybridLogicalClockRun

/-!
# Bounded trust

How far a clock can be ahead. A run only calls `next` and `observe`, with the wall clock free at
every call and any remote timestamps.
-/
namespace OptoSync
open Transition HybridLogicalClock

inductive ClockCall
  | next (physical : ℕ)
  | observe (remote : String) (now : ℕ)

/-- The clock, with the timestamps that it issued, its wall readings and its counter overflows. -/
structure ClockHistory where
  clock : HybridLogicalClock
  issued : List String
  readings : List ℕ
  carries : ℕ

/-- The branch of `next` that carries into the milliseconds. -/
def HybridLogicalClock.carries (clock : HybridLogicalClock) (physical : ℕ) : Bool :=
  ¬ clock.millis < physical ∧ maxCounter < clock.counter + 1

namespace ClockHistory

def start (clock : HybridLogicalClock) : ClockHistory :=
  { clock, issued := [], readings := [], carries := 0 }

/-- A failed assertion of `next` leaves the advanced clock. What is no timestamp is ignored before
the wall clock is read. -/
def next (s : ClockHistory) : ClockCall → ClockHistory
  | .next physical =>
    let carries := s.carries + (s.clock.carries physical).toNat
    match s.clock.next physical with
    | some (ts, clock) =>
      { clock, issued := ts :: s.issued, readings := physical :: s.readings, carries }
    | none =>
      { s with clock := s.clock.advance physical, readings := physical :: s.readings, carries }
  | .observe remote now =>
    match parseHlc remote, s.clock.observe remote now with
    | some _, some (_, clock) => { s with clock, readings := now :: s.readings }
    | _, _ => s

/-- The largest of the restored milliseconds and every reading plus the drift bound. -/
def horizon (restored maxDriftMs : ℕ) (readings : List ℕ) : ℕ :=
  readings.foldr (fun reading bound => max (reading + maxDriftMs) bound) restored

end ClockHistory

namespace HybridLogicalClock

theorem advance_millis (clock : HybridLogicalClock) (physical : ℕ) :
    (clock.advance physical).millis ≤
      max clock.millis physical + (clock.carries physical).toNat := by
  unfold advance carries
  by_cases hlt : clock.millis < physical
  · simp [hlt]
  · by_cases hcarry : maxCounter < clock.counter + 1
    · simp [hlt, hcarry]
    · simp [hlt, hcarry]

theorem advance_maxDriftMs (clock : HybridLogicalClock) (physical : ℕ) :
    (clock.advance physical).maxDriftMs = clock.maxDriftMs := by
  unfold advance
  split
  · rfl
  · split <;> rfl

/-- What `next` issues is printed from the advanced clock. -/
theorem next_eq_some {clock clock' : HybridLogicalClock} {physical : ℕ} {ts : String}
    (h : clock.next physical = some (ts, clock')) :
    clock' = { clock.advance physical with saved := some ts } ∧
      formatHlc (clock.advance physical).peek = some ts := by
  obtain ⟨ts', hformat, heq⟩ := Option.map_eq_some_iff.mp h
  cases heq
  exact ⟨rfl, hformat⟩

/-- What is not refused is within the drift bound. -/
theorem within_drift {clock clock' : HybridLogicalClock} {remote : String} {parsed : HlcParts}
    (hparsed : parseHlc remote = some parsed) {now : ℕ}
    (h : clock.observe remote now = some (.ok (), clock')) :
    parsed.millis ≤ now + clock.maxDriftMs := by
  by_contra hahead
  have hdrift : now < parsed.millis ∧ clock.maxDriftMs < parsed.millis - now := by omega
  unfold observe at h
  simp only [hparsed, hdrift, and_self, if_true] at h
  cases h

end HybridLogicalClock

namespace ClockHistory

theorem le_horizon_cons (restored maxDriftMs reading : ℕ) (readings : List ℕ) :
    horizon restored maxDriftMs readings ≤ horizon restored maxDriftMs (reading :: readings) :=
  le_max_right _ _

theorem reading_le_horizon (restored maxDriftMs reading : ℕ) (readings : List ℕ) :
    reading + maxDriftMs ≤ horizon restored maxDriftMs (reading :: readings) := le_max_left _ _

/-- How far a clock that was restored at some milliseconds may be. -/
structure Within (restored maxDriftMs : ℕ) (s : ClockHistory) : Prop where
  drift_eq : s.clock.maxDriftMs = maxDriftMs
  millis_le : s.clock.millis ≤ horizon restored maxDriftMs s.readings + s.carries

theorem next_issue (s : ClockHistory) (physical : ℕ) :
    (s.next (.next physical)).readings = physical :: s.readings ∧
      (s.next (.next physical)).carries = s.carries + (s.clock.carries physical).toNat ∧
      (s.next (.next physical)).clock.millis = (s.clock.advance physical).millis ∧
      (s.next (.next physical)).clock.maxDriftMs = s.clock.maxDriftMs := by
  have hdrift := advance_maxDriftMs s.clock physical
  simp only [ClockHistory.next]
  cases hnext : s.clock.next physical with
  | none => exact ⟨rfl, rfl, rfl, hdrift⟩
  | some issued =>
    obtain ⟨ts, clock⟩ := issued
    obtain ⟨rfl, -⟩ := next_eq_some hnext
    exact ⟨rfl, rfl, rfl, hdrift⟩

theorem Within.next {restored maxDriftMs : ℕ} {s : ClockHistory} (h : Within restored maxDriftMs s)
    (call : ClockCall) : Within restored maxDriftMs (s.next call) := by
  have hmillis := h.millis_le
  cases call with
  | next physical =>
    obtain ⟨hreadings, hcarries, hclock, hdrift⟩ := s.next_issue physical
    refine ⟨hdrift.trans h.drift_eq, ?_⟩
    have hadvance := advance_millis s.clock physical
    have hcons := le_horizon_cons restored maxDriftMs physical s.readings
    have hreading := reading_le_horizon restored maxDriftMs physical s.readings
    rw [hclock, hreadings, hcarries]
    omega
  | observe remote now =>
    have hcons := le_horizon_cons restored maxDriftMs now s.readings
    cases hparsed : parseHlc remote with
    | none => simpa only [ClockHistory.next, hparsed] using h
    | some parsed =>
      obtain ⟨error, hrefused⟩ | ⟨-, hkept⟩ | ⟨-, ts, hadopted, -⟩ :=
        observe_cases s.clock hparsed now
      · simp only [ClockHistory.next, hparsed, hrefused]
        exact ⟨h.drift_eq, by dsimp only; omega⟩
      · simp only [ClockHistory.next, hparsed, hkept]
        exact ⟨h.drift_eq, by dsimp only; omega⟩
      · have hwithin := within_drift hparsed hadopted
        have hreading := reading_le_horizon restored maxDriftMs now s.readings
        rw [h.drift_eq] at hwithin
        simp only [ClockHistory.next, hparsed, hadopted]
        refine ⟨h.drift_eq, ?_⟩
        dsimp only [adopt]
        omega

/-- In every run of a clock, its milliseconds stay below the horizon of the wall readings so far,
but for one for each counter overflow. -/
theorem run_millis_le (clock : HybridLogicalClock) (calls : List ClockCall) :
    let s := run ClockHistory.next (start clock) calls
    s.clock.millis ≤ horizon clock.millis clock.maxDriftMs s.readings + s.carries := by
  have hstart : Within clock.millis clock.maxDriftMs (start clock) := ⟨rfl, le_refl _⟩
  have hrun := run_invariant (I := Within clock.millis clock.maxDriftMs)
    (fun _ call h => Within.next h call) hstart calls
  exact hrun.millis_le

end ClockHistory
end OptoSync
