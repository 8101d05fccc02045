import OptoSync.HybridLogicalClock

/-!
# Runs of the clock

A run issues timestamps, observes those of other nodes and restarts from what was saved, with the
wall clock free at every step.
-/
namespace OptoSync
open Transition

/-- The clock, and the timestamps that it issued or observed. -/
structure ClockRun where
  clock : HybridLogicalClock
  seen : List String

inductive ClockEvent
  | next (physical : ℕ)
  | observe (remote : String) (now : ℕ)
  | restart (nodeId : String) (maxDriftMs : ℕ)

namespace ClockRun

/-- A text that is no timestamp of this format is not observed but ignored. -/
def next (s : ClockRun) : ClockEvent → ClockRun
  | .next physical =>
    match s.clock.next physical with
    | some (ts, clock) => { clock, seen := ts :: s.seen }
    | none => s
  | .observe remote now =>
    match s.clock.observe remote now with
    | some (.ok (), clock) =>
      { clock, seen := if (parseHlc remote).isSome then remote :: s.seen else s.seen }
    | some (.error _, clock) => { s with clock }
    | none => s
  | .restart nodeId maxDriftMs =>
    match HybridLogicalClock.withMaxDrift nodeId s.clock.saved maxDriftMs with
    | .ok clock => { s with clock }
    | .error _ => s

/-- The reading fits thirteen digits, and the clock is not at the last timestamp there is. -/
def Representable (s : ClockRun) : ClockEvent → Prop
  | .next physical => physical ≤ maxMillis ∧
      (physical ≤ s.clock.millis → s.clock.millis = maxMillis → s.clock.counter < maxCounter)
  | _ => True

end ClockRun

namespace HlcParts

theorem not_before_self (p : HlcParts) : ¬ p.Before p := by
  unfold Before
  omega

theorem Before.of_not_before {p q r : HlcParts} (h : ¬ q.Before p) (hr : q.Before r) :
    p.Before r := by
  unfold Before at h hr ⊢
  omega

theorem Before.not_before {p q r : HlcParts} (h : ¬ q.Before p) (hr : q.Before r) :
    ¬ r.Before p := by
  unfold Before at h hr ⊢
  omega

end HlcParts

namespace HybridLogicalClock

/-- The state fits the format. -/
def Fits (clock : HybridLogicalClock) : Prop :=
  clock.millis ≤ maxMillis ∧ clock.counter ≤ maxCounter

theorem save_eq {clock : HybridLogicalClock} (h : clock.Fits) :
    ∃ ts, clock.save = some (ts, { clock with saved := some ts }) ∧
      parseHlc ts = some clock.peek := by
  have hvalid : clock.peek.millis ≤ maxMillis ∧ clock.peek.counter ≤ maxCounter ∧
      validNodeId clock.peek.nodeId = true := ⟨h.1, h.2, clock.node_valid⟩
  obtain ⟨ts, hts⟩ : ∃ ts, formatHlc clock.peek = some ts := by
    rw [formatHlc, if_pos hvalid]
    exact ⟨_, rfl⟩
  exact ⟨ts, by rw [save, hts]; rfl, formatHlc_eq_some.mp hts⟩

theorem restore_eq {ts : String} {parts : HlcParts} (h : parseHlc ts = some parts) :
    restore (some ts) = (parts.millis, parts.counter) := by
  simp [restore, h]

theorem bounds_of_parse {ts : String} {parts : HlcParts} (h : parseHlc ts = some parts) :
    parts.millis ≤ maxMillis ∧ parts.counter ≤ maxCounter := by
  have hformat := formatHlc_eq_some.mpr h
  unfold formatHlc at hformat
  split at hformat
  · rename_i hvalid
    exact ⟨hvalid.1, hvalid.2.1⟩
  · cases hformat

theorem restore_le (saved : Option String) :
    (restore saved).1 ≤ maxMillis ∧ (restore saved).2 ≤ maxCounter := by
  unfold restore
  split
  · rename_i parts hparts
    obtain ⟨ts, -, hts⟩ := Option.bind_eq_some_iff.mp hparts
    exact bounds_of_parse hts
  · exact ⟨Nat.zero_le _, Nat.zero_le _⟩

theorem before_advance (clock : HybridLogicalClock) (physical : ℕ) :
    clock.peek.Before (clock.advance physical).peek := by
  unfold advance HlcParts.Before peek
  split
  · rename_i h
    exact Or.inl h
  · split
    · exact Or.inl (Nat.lt_succ_self _)
    · exact Or.inr ⟨rfl, Nat.lt_succ_self _⟩

theorem Fits.advance {clock : HybridLogicalClock} (h : clock.Fits) {physical : ℕ}
    (hphysical : physical ≤ maxMillis)
    (hroom : physical ≤ clock.millis → clock.millis = maxMillis → clock.counter < maxCounter) :
    (clock.advance physical).Fits := by
  obtain ⟨hmillis, hcounter⟩ := h
  unfold Fits HybridLogicalClock.advance
  split
  · exact ⟨hphysical, Nat.zero_le _⟩
  · split
    · exact ⟨by dsimp only; omega, Nat.zero_le _⟩
    · exact ⟨hmillis, by dsimp only; omega⟩

/-- Where an observed timestamp takes the clock. -/
def adopt (clock : HybridLogicalClock) (parsed : HlcParts) : HybridLogicalClock :=
  { clock with millis := parsed.millis, counter := parsed.counter }

/-- An observation is refused, or the clock is past the timestamp already, or adopts it. -/
theorem observe_cases (clock : HybridLogicalClock) {remote : String} {parsed : HlcParts}
    (hparsed : parseHlc remote = some parsed) (now : ℕ) :
    (∃ error, clock.observe remote now = some (.error error, clock)) ∨
    (¬ clock.peek.Before parsed ∧ clock.observe remote now = some (.ok (), clock)) ∨
    (clock.peek.Before parsed ∧ ∃ ts,
      clock.observe remote now = some (.ok (), { clock.adopt parsed with saved := some ts }) ∧
      parseHlc ts = some (clock.adopt parsed).peek) := by
  have hadopt : (clock.adopt parsed).Fits := bounds_of_parse hparsed
  obtain ⟨ts, hsave, hts⟩ := save_eq hadopt
  unfold observe
  simp only [hparsed]
  split
  · exact Or.inl ⟨_, rfl⟩
  · split
    · rename_i hlt
      refine Or.inr (Or.inr ⟨Or.inl hlt, ts, ?_, hts⟩)
      exact congrArg (Option.map _) hsave
    · split
      · rename_i heq
        have hsame : ({ clock with counter := parsed.counter } : HybridLogicalClock) =
            clock.adopt parsed := by
          simp [adopt, heq.1]
        refine Or.inr (Or.inr ⟨Or.inr ⟨heq.1.symm, heq.2⟩, ts, ?_, hts⟩)
        rw [hsame]
        exact congrArg (Option.map _) hsave
      · rename_i hge hne
        refine Or.inr (Or.inl ⟨?_, rfl⟩)
        unfold HlcParts.Before peek
        dsimp only
        omega

theorem observe_ignored {clock : HybridLogicalClock} {remote : String}
    (hparsed : parseHlc remote = none) (now : ℕ) :
    clock.observe remote now = some (.ok (), clock) := by
  unfold observe
  rw [hparsed]

/-- A refused observation leaves the clock unchanged, whatever its state. -/
theorem observe_error {clock clock' : HybridLogicalClock} {remote : String} {now : ℕ}
    {error : ClockError} (h : clock.observe remote now = some (.error error, clock')) :
    clock' = clock := by
  cases hparsed : parseHlc remote with
  | none =>
    rw [observe_ignored hparsed] at h
    cases h
  | some parsed =>
    obtain ⟨e, hrefused⟩ | ⟨-, hkept⟩ | ⟨-, ts, hadopted, -⟩ := observe_cases clock hparsed now
    · rw [hrefused] at h
      exact (Prod.mk.inj (Option.some.inj h)).2.symm
    · rw [hkept] at h
      cases h
    · rw [hadopted] at h
      cases h

end HybridLogicalClock

namespace ClockRun
open HybridLogicalClock

structure Inv (s : ClockRun) : Prop where
  fits : s.clock.Fits
  restored : restore s.clock.saved = (s.clock.millis, s.clock.counter)
  seen : ∀ t ∈ s.seen, ∃ p, parseHlc t = some p ∧ ¬ s.clock.peek.Before p

theorem inv_of_new {nodeId : String} {saved : Option String} {maxDriftMs : ℕ}
    {clock : HybridLogicalClock} (h : withMaxDrift nodeId saved maxDriftMs = .ok clock) :
    Inv { clock, seen := [] } := by
  unfold withMaxDrift at h
  split at h
  · obtain rfl := Except.ok.inj h
    exact ⟨restore_le saved, rfl, by simp⟩
  · cases h

/-- The next timestamp is printed, and is above everything seen. -/
theorem Inv.issue {s : ClockRun} (h : s.Inv) {physical : ℕ}
    (hrepresentable : Representable s (.next physical)) :
    ∃ ts, s.clock.next physical =
        some (ts, { s.clock.advance physical with saved := some ts }) ∧
      parseHlc ts = some (s.clock.advance physical).peek ∧ ∀ t ∈ s.seen, t < ts := by
  obtain ⟨ts, hsave, hts⟩ := save_eq (h.fits.advance hrepresentable.1 hrepresentable.2)
  refine ⟨ts, hsave, hts, ?_⟩
  intro t ht
  obtain ⟨p, hp, hnot⟩ := h.seen t ht
  exact lt_of_before hp hts (.of_not_before hnot (before_advance s.clock physical))

theorem Inv.next {s : ClockRun} {e : ClockEvent} (he : Representable s e) (h : s.Inv) :
    (ClockRun.next s e).Inv := by
  cases e with
  | next physical =>
    obtain ⟨ts, hnext, hts, -⟩ := h.issue he
    have hbefore := before_advance s.clock physical
    simp only [ClockRun.next, hnext]
    refine ⟨h.fits.advance he.1 he.2, restore_eq hts, ?_⟩
    intro t ht
    rcases List.mem_cons.mp ht with rfl | ht
    · exact ⟨_, hts, HlcParts.not_before_self _⟩
    · obtain ⟨p, hp, hnot⟩ := h.seen t ht
      exact ⟨p, hp, HlcParts.Before.not_before hnot hbefore⟩
  | observe remote now =>
    cases hparsed : parseHlc remote with
    | none => simpa [ClockRun.next, observe_ignored hparsed, hparsed] using h
    | some parsed =>
      obtain ⟨error, hrefused⟩ | ⟨hnot, hkept⟩ | ⟨hbefore, ts, hadopted, hts⟩ :=
        observe_cases s.clock hparsed now
      · simpa [ClockRun.next, hrefused] using h
      · simp only [ClockRun.next, hkept, hparsed, Option.isSome_some, if_true]
        refine ⟨h.fits, h.restored, ?_⟩
        intro t ht
        rcases List.mem_cons.mp ht with rfl | ht
        · exact ⟨parsed, hparsed, hnot⟩
        · exact h.seen t ht
      · simp only [ClockRun.next, hadopted, hparsed, Option.isSome_some, if_true]
        have hrestored := restore_eq hts
        refine ⟨bounds_of_parse hparsed, hrestored, ?_⟩
        intro t ht
        rcases List.mem_cons.mp ht with rfl | ht
        · exact ⟨parsed, hparsed, HlcParts.not_before_self parsed⟩
        · obtain ⟨p, hp, hnot⟩ := h.seen t ht
          exact ⟨p, hp, HlcParts.Before.not_before hnot hbefore⟩
  | restart nodeId maxDriftMs =>
    unfold ClockRun.next withMaxDrift
    dsimp only
    by_cases hvalid : validNodeId nodeId = true
    · simp only [hvalid, dif_pos, h.restored]
      exact ⟨h.fits, h.restored, h.seen⟩
    · simp only [hvalid, Bool.false_eq_true, dif_neg, not_false_eq_true]
      exact h

/-- From a clock that restored what was saved, in every run whose readings fit and that does not
exhaust the format: the next timestamp is issued and is above, as a string, every timestamp issued
or observed before; and an observation that is refused changes nothing. -/
theorem run_next_greater {nodeId : String} {saved : Option String} {maxDriftMs : ℕ}
    {clock : HybridLogicalClock} (hnew : withMaxDrift nodeId saved maxDriftMs = .ok clock)
    {es : List ClockEvent} (hes : StepsMeet ClockRun.next Representable { clock, seen := [] } es) :
    let s := run ClockRun.next { clock, seen := [] } es
    (∀ physical, Representable s (.next physical) →
      ∃ ts clock', s.clock.next physical = some (ts, clock') ∧ ∀ t ∈ s.seen, t < ts) ∧
    ∀ remote now, ∃ result clock', s.clock.observe remote now = some (result, clock') ∧
      ∀ error, result = .error error → clock' = s.clock := by
  intro s
  have h : s.Inv := run_invariant_of_stepsMeet (fun s e he h => h.next he) (inv_of_new hnew) hes
  constructor
  · intro physical hphysical
    obtain ⟨ts, hnext, -, hlt⟩ := h.issue hphysical
    exact ⟨ts, _, hnext, hlt⟩
  · intro remote now
    obtain ⟨result, hresult⟩ : ∃ result, s.clock.observe remote now = some result := by
      cases hparsed : parseHlc remote with
      | none => exact ⟨_, observe_ignored hparsed now⟩
      | some parsed =>
        obtain ⟨error, hrefused⟩ | ⟨-, hkept⟩ | ⟨-, ts, hadopted, -⟩ :=
          observe_cases s.clock hparsed now
        · exact ⟨_, hrefused⟩
        · exact ⟨_, hkept⟩
        · exact ⟨_, hadopted⟩
    refine ⟨result.1, result.2, hresult, ?_⟩
    rintro error herror
    have hrefused : s.clock.observe remote now = some (.error error, result.2) := by
      rw [hresult, ← herror]
    exact observe_error hrefused

theorem run_next_greater_backwards :
    let clock : HybridLogicalClock :=
      { nodeId := "aaaa", millis := 0, counter := 0, maxDriftMs := 60000, saved := none
        node_valid := rfl }
    let s := run ClockRun.next { clock, seen := [] }
      [.next 1721822400000, .observe "1721822401000-00ff-bbbb" 1721822400000,
        .restart "aaaa" 60000]
    s.seen = ["1721822401000-00ff-bbbb", "1721822400000-0000-aaaa"] ∧
      ∃ ts clock', s.clock.next 1721822100000 = some (ts, clock') ∧ ∀ t ∈ s.seen, t < ts := by
  intro clock s
  have hnew : withMaxDrift "aaaa" none 60000 = .ok clock := rfl
  have hes : StepsMeet ClockRun.next Representable { clock, seen := [] }
      [.next 1721822400000, .observe "1721822401000-00ff-bbbb" 1721822400000,
        .restart "aaaa" 60000] := ⟨⟨by decide, by decide⟩, trivial, trivial, trivial⟩
  refine ⟨by decide, (run_next_greater hnew hes).1 1721822100000 ⟨by decide, ?_⟩⟩
  intro _ hlast
  exact absurd hlast (by decide)

end ClockRun
end OptoSync
