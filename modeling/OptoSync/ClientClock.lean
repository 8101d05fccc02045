import OptoSync.HybridLogicalClockRun
import OptoSync.Utf16

/-!
# The clock of the TypeScript and the Dart client

One machine in both languages, over the format of the Rust client. The state is advanced before it
is formatted, and a `RangeError` of `formatHlc` does not take it back.
-/
namespace OptoSync.ClientClock

structure HybridLogicalClock where
  nodeId : String
  maxDriftMs : ℤ
  millis : ℕ
  counter : ℕ
  node_valid : validNodeId nodeId = true

/-- The order of the strings, by code units. -/
def compareHlc (a b : String) : Ordering :=
  if Utf16.encode a.toList < Utf16.encode b.toList then .lt
  else if Utf16.encode b.toList < Utf16.encode a.toList then .gt
  else .eq

/-- What `observe` does about a remote timestamp. -/
inductive Observed
  | ignored
  | refused (driftMs : ℤ)
  | adopted (saved : Option String)
  deriving DecidableEq

namespace HybridLogicalClock

def peek (clock : HybridLogicalClock) : HlcParts :=
  { millis := clock.millis, counter := clock.counter, nodeId := clock.nodeId }

def restore (clock : HybridLogicalClock) (saved : Option String) : HybridLogicalClock :=
  match saved.bind parseHlc with
  | some parts => { clock with millis := parts.millis, counter := parts.counter }
  | none => clock

def advance (clock : HybridLogicalClock) (physical : ℤ) : HybridLogicalClock :=
  if (clock.millis : ℤ) < physical then { clock with millis := physical.toNat, counter := 0 }
  else if maxCounter < clock.counter + 1 then
    { clock with millis := clock.millis + 1, counter := 0 }
  else { clock with counter := clock.counter + 1 }

/-- The timestamp that is saved and then returned, `none` for a `RangeError`. -/
def next (clock : HybridLogicalClock) (physical : ℤ) : Option String × HybridLogicalClock :=
  (formatHlc (clock.advance physical).peek, clock.advance physical)

def observe (clock : HybridLogicalClock) (remoteTimestamp : String) (now : ℤ) :
    Observed × HybridLogicalClock :=
  match parseHlc remoteTimestamp with
  | none => (.ignored, clock)
  | some remote =>
    let drift := remote.millis - now
    if clock.maxDriftMs < drift then (.refused drift, clock)
    else if clock.millis < remote.millis then
      let clock := { clock with millis := remote.millis, counter := remote.counter }
      (.adopted (formatHlc clock.peek), clock)
    else if remote.millis = clock.millis ∧ clock.counter < remote.counter then
      let clock := { clock with counter := remote.counter }
      (.adopted (formatHlc clock.peek), clock)
    else (.ignored, clock)

end HybridLogicalClock

def Observed.saved : Observed → Option String
  | .adopted saved => saved
  | _ => none

theorem digits_ascii {w n : ℕ} {cs : List Char} (h : Numeral decimal w n cs) :
    ∀ c ∈ cs, c.toNat < 0x10000 := by
  intro c hc
  have := digit_bounds.mp (h.digits c hc)
  omega

theorem hexDigits_ascii {w n : ℕ} {cs : List Char} (h : Numeral lowerHex w n cs) :
    ∀ c ∈ cs, c.toNat < 0x10000 := by
  intro c hc
  have := lowerHexDigit_bounds.mp (h.digits c hc)
  omega

/-- The two numerals with their dashes, as they start a timestamp. -/
theorem encode_timestamp {a : String} {p : HlcParts} (h : parseHlc a = some p) :
    ∃ ms cs, Numeral decimal millisDigits p.millis ms ∧ Numeral lowerHex 4 p.counter cs ∧
      Utf16.encode a.toList =
        (ms ++ (['-'] ++ (cs ++ ['-']))).map Char.toNat ++ Utf16.encode p.nodeId.toList := by
  obtain ⟨ms, cs, hlist, hms, hcs, -⟩ := parseHlc_eq_some.mp h
  refine ⟨ms, cs, hms, hcs, ?_⟩
  have hascii : ∀ c ∈ ms ++ (['-'] ++ (cs ++ ['-'])), c.toNat < 0x10000 := by
    intro c hc
    simp only [List.mem_append, List.mem_singleton] at hc
    rcases hc with hc | rfl | hc | rfl
    · exact digits_ascii hms c hc
    · decide
    · exact hexDigits_ascii hcs c hc
    · decide
  rw [← Utf16.encode_of_lt hascii, ← Utf16.encode_append, hlist]
  simp

theorem encode_lt_of_before {a b : String} {p q : HlcParts} (ha : parseHlc a = some p)
    (hb : parseHlc b = some q) (h : p.Before q) :
    Utf16.encode a.toList < Utf16.encode b.toList := by
  obtain ⟨ms, cs, hms, hcs, ha⟩ := encode_timestamp ha
  obtain ⟨ms', cs', hms', hcs', hb⟩ := encode_timestamp hb
  have hlt : ms ++ (['-'] ++ (cs ++ ['-'])) < ms' ++ (['-'] ++ (cs' ++ ['-'])) := by
    apply FixedWidth.lt_of_fields hms.digits hms'.digits hcs.digits hcs'.digits
      (hms.length.trans hms'.length.symm) (hcs.length.trans hcs'.length.symm)
    rw [hms.value, hms'.value, hcs.value, hcs'.value]
    exact h
  rw [ha, hb]
  apply FixedWidth.append_lt_append _ (Utf16.map_toNat_lt hlt)
  simp [hms.length, hms'.length, hcs.length, hcs'.length]

theorem compareHlc_lt {a b : String} :
    compareHlc a b = .lt ↔ Utf16.encode a.toList < Utf16.encode b.toList := by
  unfold compareHlc
  split
  · simp [*]
  · split <;> simp [*]

theorem compareHlc_ne_gt {a b : String} :
    compareHlc a b ≠ .gt ↔ Utf16.encode a.toList ≤ Utf16.encode b.toList := by
  rw [← not_lt]
  unfold compareHlc
  split
  · rename_i h
    simp [h.le]
  · split <;> simp [*]

theorem compareHlc_trans {a b c : String} (hab : compareHlc a b ≠ .gt) (hbc : compareHlc b c ≠ .gt) :
    compareHlc a c ≠ .gt :=
  compareHlc_ne_gt.mpr ((compareHlc_ne_gt.mp hab).trans (compareHlc_ne_gt.mp hbc))

theorem compareHlc_of_before {a b : String} {p q : HlcParts} (ha : parseHlc a = some p)
    (hb : parseHlc b = some q) (h : p.Before q) : compareHlc a b = .lt :=
  compareHlc_lt.mpr (encode_lt_of_before ha hb h)

theorem not_before_of_compareHlc {a b : String} {p q : HlcParts} (ha : parseHlc a = some p)
    (hb : parseHlc b = some q) (h : compareHlc a b ≠ .gt) : ¬ q.Before p := by
  intro hbefore
  exact absurd (encode_lt_of_before hb ha hbefore) (compareHlc_ne_gt.mp h).not_gt

/-- What one call does to the clock: it stays or goes forward, and a saved timestamp is its new
state. -/
structure Moves (clock clock' : HybridLogicalClock) (saves : Option String) : Prop where
  nodeId : clock'.nodeId = clock.nodeId
  forward : clock' = clock ∨ clock.peek.Before clock'.peek
  saved : ∀ ts, saves = some ts →
    clock.peek.Before clock'.peek ∧ parseHlc ts = some clock'.peek

theorem Moves.stay (clock : HybridLogicalClock) : Moves clock clock none where
  nodeId := rfl
  forward := .inl rfl
  saved := fun _ h => by cases h

theorem Moves.adopt {clock clock' : HybridLogicalClock} (hnode : clock'.nodeId = clock.nodeId)
    (h : clock.peek.Before clock'.peek) : Moves clock clock' (formatHlc clock'.peek) where
  nodeId := hnode
  forward := .inr h
  saved := fun _ hts => ⟨h, formatHlc_eq_some.mp hts⟩

namespace HybridLogicalClock

theorem restore_peek (clock : HybridLogicalClock) {saved : String} {parts : HlcParts}
    (h : parseHlc saved = some parts) : (clock.restore (some saved)).millis = parts.millis ∧
      (clock.restore (some saved)).counter = parts.counter := by
  simp [restore, h]

theorem before_advance (clock : HybridLogicalClock) (physical : ℤ) :
    clock.peek.Before (clock.advance physical).peek := by
  unfold advance HlcParts.Before peek
  split
  · rename_i h
    left
    dsimp only
    omega
  · split
    · exact Or.inl (Nat.lt_succ_self _)
    · exact Or.inr ⟨rfl, Nat.lt_succ_self _⟩

theorem advance_nodeId (clock : HybridLogicalClock) (physical : ℤ) :
    (clock.advance physical).nodeId = clock.nodeId := by
  unfold advance
  split
  · rfl
  · split <;> rfl

theorem next_moves (clock : HybridLogicalClock) (physical : ℤ) :
    Moves clock (clock.next physical).2 (clock.next physical).1 where
  nodeId := clock.advance_nodeId physical
  forward := .inr (clock.before_advance physical)
  saved := fun _ hts => ⟨clock.before_advance physical, formatHlc_eq_some.mp hts⟩

theorem observe_moves (clock : HybridLogicalClock) (remoteTimestamp : String) (now : ℤ) :
    Moves clock (clock.observe remoteTimestamp now).2
      (clock.observe remoteTimestamp now).1.saved := by
  unfold observe
  cases hremote : parseHlc remoteTimestamp with
  | none => exact .stay clock
  | some remote =>
    dsimp only
    by_cases hdrift : clock.maxDriftMs < remote.millis - now
    · rw [if_pos hdrift]
      exact .stay clock
    · rw [if_neg hdrift]
      by_cases hmillis : clock.millis < remote.millis
      · rw [if_pos hmillis]
        exact .adopt rfl (.inl hmillis)
      · rw [if_neg hmillis]
        by_cases hcounter : remote.millis = clock.millis ∧ clock.counter < remote.counter
        · rw [if_pos hcounter]
          exact .adopt rfl (.inr ⟨rfl, hcounter.2⟩)
        · rw [if_neg hcounter]
          exact .stay clock

end HybridLogicalClock
end OptoSync.ClientClock
