import Mathlib

/-!
# Retry delays

Full-jitter exponential backoff as the TypeScript and the Dart loop compute it, `none` where they
throw a `RangeError`. A loop checks its policy when it is built, the sample and the delay that the
server asks for at every failure.
-/
namespace OptoSync

/-- A floating-point number; `notFinite` stands for `NaN` and the infinities. -/
inductive Number
  | finite (value : ℚ) | notFinite
  deriving DecidableEq

namespace Number

/-- What `random()` has to return. -/
def IsSample : Number → Prop
  | finite value => 0 ≤ value ∧ value ≤ 1
  | notFinite => False

def IsDelay : Number → Prop
  | finite value => 0 ≤ value
  | notFinite => False

end Number

namespace SyncLoop

def computeRetryDelay (consecutiveFailure : ℕ) (baseMs maxMs sample retryAfterMs : Number) :
    Option ℚ :=
  match baseMs, maxMs, retryAfterMs with
  | .finite baseMs, .finite maxMs, .finite retryAfterMs =>
    if consecutiveFailure < 1 ∨ baseMs < 1 ∨ maxMs < baseMs ∨ retryAfterMs < 0 then none
    else
      match sample with
      | .finite sample =>
        if sample < 0 ∨ 1 < sample then none
        else
          let exponent := min (consecutiveFailure - 1) 30
          let ceiling := min maxMs (baseMs * 2 ^ exponent)
          some (max (⌈ceiling * sample⌉ : ℚ) ⌈retryAfterMs⌉)
      | .notFinite => none
  | _, _, _ => none

/-- The retry options of a loop, with what its constructor has checked. -/
structure RetryPolicy where
  retryBaseMs : Number
  retryMaxMs : Number
  valid : (computeRetryDelay 1 retryBaseMs retryMaxMs (.finite 0) (.finite 0)).isSome = true

theorem computeRetryDelay_isSome {failures : ℕ} (hfailures : 1 ≤ failures)
    {baseMs maxMs sample retryAfterMs : Number} :
    (computeRetryDelay failures baseMs maxMs sample retryAfterMs).isSome = true ↔
      (∃ base max, baseMs = .finite base ∧ maxMs = .finite max ∧ 1 ≤ base ∧ base ≤ max) ∧
        sample.IsSample ∧ retryAfterMs.IsDelay := by
  cases baseMs with
  | notFinite => simp [computeRetryDelay]
  | finite base =>
    cases maxMs with
    | notFinite => simp [computeRetryDelay]
    | finite max =>
      cases retryAfterMs with
      | notFinite => simp [computeRetryDelay, Number.IsDelay]
      | finite retryAfter =>
        cases sample with
        | notFinite => simp [computeRetryDelay, Number.IsSample]
        | finite sample =>
          simp only [computeRetryDelay, Number.IsSample, Number.IsDelay]
          split
          · rename_i hinvalid
            simp only [← not_le, ← not_and_or] at hinvalid
            simp only [Option.isSome_none, Bool.false_eq_true, false_iff]
            rintro ⟨⟨_, _, ⟨⟩, ⟨⟩, hbase, hmax⟩, -, hretry⟩
            exact hinvalid ⟨hfailures, hbase, hmax, hretry⟩
          · rename_i hvalid
            simp only [not_or, not_lt] at hvalid
            obtain ⟨-, hbase, hmax, hretry⟩ := hvalid
            split
            · rename_i hsample
              simp only [Option.isSome_none, Bool.false_eq_true, false_iff]
              rintro ⟨-, ⟨hlow, hhigh⟩, -⟩
              rcases hsample with h | h
              · exact absurd hlow (not_le.mpr h)
              · exact absurd hhigh (not_le.mpr h)
            · rename_i hsample
              simp only [not_or, not_lt] at hsample
              simp only [Option.isSome_some, true_iff]
              exact ⟨⟨base, max, rfl, rfl, hbase, hmax⟩, hsample, hretry⟩

end SyncLoop

namespace Dart

structure Duration where
  inMicroseconds : ℤ
  deriving DecidableEq

namespace Duration

def zero : Duration := ⟨0⟩

def inMilliseconds (duration : Duration) : ℤ := duration.inMicroseconds.tdiv 1000

def ofMilliseconds (ms : ℤ) : Duration := ⟨(ms * 1000).bmod (2 ^ 64)⟩

end Duration

def computeProtocolRetryDelay (consecutiveFailure : ℕ) (base maximum : Duration) (sample : Number)
    (retryAfter : Duration) : Option Duration :=
  if consecutiveFailure < 1 ∨ base.inMicroseconds ≤ 0 ∨
      maximum.inMicroseconds < base.inMicroseconds ∨ retryAfter.inMicroseconds < 0 then none
  else
    match sample with
    | .finite sample =>
      if sample < 0 ∨ 1 < sample then none
      else
        let exponent := min (consecutiveFailure - 1) 30
        let exponential := (base.inMilliseconds * 2 ^ exponent).bmod (2 ^ 64)
        let ceiling := min maximum.inMilliseconds exponential
        let jittered := ⌈ceiling * sample⌉
        some (.ofMilliseconds (max jittered retryAfter.inMilliseconds))
    | .notFinite => none

structure RetryPolicy where
  retryBase : Duration
  retryMaximum : Duration
  valid : (computeProtocolRetryDelay 1 retryBase retryMaximum (.finite 0) .zero).isSome = true

theorem computeProtocolRetryDelay_isSome {failures : ℕ} (hfailures : 1 ≤ failures)
    {base maximum retryAfter : Duration} {sample : Number} :
    (computeProtocolRetryDelay failures base maximum sample retryAfter).isSome = true ↔
      (0 < base.inMicroseconds ∧ base.inMicroseconds ≤ maximum.inMicroseconds) ∧
        sample.IsSample ∧ 0 ≤ retryAfter.inMicroseconds := by
  cases sample with
  | notFinite => simp [computeProtocolRetryDelay, Number.IsSample]
  | finite sample =>
    simp only [computeProtocolRetryDelay, Number.IsSample]
    split
    · rename_i hinvalid
      simp only [Option.isSome_none, Bool.false_eq_true, false_iff]
      omega
    · rename_i hvalid
      split
      · rename_i hsample
        simp only [Option.isSome_none, Bool.false_eq_true, false_iff]
        rintro ⟨-, ⟨hlow, hhigh⟩, -⟩
        rcases hsample with h | h
        · exact absurd hlow (not_le.mpr h)
        · exact absurd hhigh (not_le.mpr h)
      · rename_i hsample
        simp only [not_or, not_lt] at hsample
        simp only [Option.isSome_some, true_iff]
        exact ⟨by omega, hsample, by omega⟩

end Dart
end OptoSync
