import OptoSync.Transition

/-!
# Capturing the output of a process

Two calls of `capture_stream` of the `fmctl` runner reserve bytes from one counter. A step is one
read or one access to the counter. A relaxed load may give a value that the counter had before.
-/
namespace OptoSync.Runner
open Transition

inductive Output
  | stdout
  | stderr
  deriving DecidableEq

def bufferBytes : ℕ := 16 * 1024

structure CapturedStream where
  bytes : List UInt8
  truncated : Bool
  deriving DecidableEq

inductive Phase
  | reading
  /-- `reserve_output_bytes` loads the counter next. -/
  | loading (chunk : List UInt8)
  /-- It has seen a value below the limit, and tries to exchange it next. -/
  | exchanging (chunk : List UInt8) (current : ℕ)
  | ended
  /-- A read failed. -/
  | failed

/-- A call of `capture_stream`. -/
structure Capture where
  /-- What the reader has not delivered yet. -/
  left : List UInt8
  bytes : List UInt8 := []
  truncated : Bool := false
  phase : Phase := .reading

namespace Capture

/-- The reader delivers at least one byte before the end of its stream. -/
def read (capture : Capture) (more : ℕ) : Capture :=
  let chunk := capture.left.take (min (more + 1) bufferBytes)
  if chunk = [] then { capture with phase := .ended }
  else { capture with left := capture.left.drop chunk.length, phase := .loading chunk }

/-- What `capture_stream` does with the bytes that were reserved for a chunk. -/
def reserved (capture : Capture) (chunk : List UInt8) (granted : ℕ) : Capture :=
  { capture with
    bytes := capture.bytes ++ chunk.take granted
    truncated := capture.truncated || granted < chunk.length
    phase := .reading }

/-- The loop of `reserve_output_bytes` goes on with a value of the counter. -/
def observe (limit : ℕ) (capture : Capture) (chunk : List UInt8) (current : ℕ) : Capture :=
  if current ≥ limit then capture.reserved chunk 0
  else { capture with phase := .exchanging chunk current }

def result (capture : Capture) : Option CapturedStream :=
  match capture.phase with
  | .ended => some { bytes := capture.bytes, truncated := capture.truncated }
  | _ => none

end Capture

structure Captures where
  counter : ℕ
  /-- The values that the counter had before, the latest first. -/
  past : List ℕ
  calls : Output → Capture

inductive Event
  /-- The reader delivers `more` bytes beyond the first, if it has them and they fit the buffer. -/
  | read (output : Output) (more : ℕ)
  | fail (output : Output)
  | load (output : Output) (age : ℕ)
  /-- The weak exchange may fail on the value that it expects. -/
  | exchange (output : Output) (spurious : Bool) (age : ℕ)

namespace Captures

def start (streams : Output → List UInt8) : Captures where
  counter := 0
  past := []
  calls output := { left := streams output }

def seen (s : Captures) (age : ℕ) : ℕ := (s.counter :: s.past).getD age s.counter

def set (s : Captures) (output : Output) (capture : Capture) : Captures :=
  { s with calls := Function.update s.calls output capture }

def compareExchangeWeak (limit : ℕ) (s : Captures) (output : Output) (chunk : List UInt8)
    (current : ℕ) (spurious : Bool) (age : ℕ) : Captures :=
  let granted := min chunk.length (limit - current)
  if s.counter = current ∧ spurious = false then
    { s.set output ((s.calls output).reserved chunk granted) with
      counter := current + granted
      past := s.counter :: s.past }
  else s.set output ((s.calls output).observe limit chunk (s.seen age))

def next (limit : ℕ) (s : Captures) : Event → Captures
  | .read output more =>
    match (s.calls output).phase with
    | .reading => s.set output ((s.calls output).read more)
    | _ => s
  | .fail output =>
    match (s.calls output).phase with
    | .reading => s.set output { s.calls output with phase := .failed }
    | _ => s
  | .load output age =>
    match (s.calls output).phase with
    | .loading chunk => s.set output ((s.calls output).observe limit chunk (s.seen age))
    | _ => s
  | .exchange output spurious age =>
    match (s.calls output).phase with
    | .exchanging chunk current => s.compareExchangeWeak limit output chunk current spurious age
    | _ => s

end Captures

/-- The bytes that were read and are not decided on. -/
def Phase.chunk : Phase → List UInt8
  | .loading chunk | .exchanging chunk _ => chunk
  | .reading | .ended | .failed => []

/-- A chunk is not empty, and an expected value is below the limit. -/
def Phase.Sound (limit : ℕ) : Phase → Prop
  | .loading chunk => chunk ≠ []
  | .exchanging chunk current => chunk ≠ [] ∧ current < limit
  | .reading | .ended | .failed => True

/-- The stream is what was captured, what was dropped after it, the chunk, and what is left. Bytes
are dropped only once the counter has reached the limit. -/
structure Capture.Inv (limit counter : ℕ) (stream : List UInt8) (capture : Capture) : Prop where
  split : ∃ dropped, stream = capture.bytes ++ dropped ++ capture.phase.chunk ++ capture.left ∧
    (capture.truncated = true ↔ dropped ≠ [])
  full : capture.truncated = true → counter = limit
  phase : capture.phase.Sound limit
  ended : capture.phase = .ended → capture.left = []

namespace Capture.Inv

variable {limit counter : ℕ} {stream : List UInt8} {capture : Capture}

theorem start (limit : ℕ) (stream : List UInt8) :
    Capture.Inv limit 0 stream { left := stream } where
  split := ⟨[], rfl, by simp⟩
  full := fun h => absurd h Bool.false_ne_true
  phase := trivial
  ended := fun h => by cases h

/-- Nothing was dropped while the counter is below the limit. -/
theorem advance (h : capture.Inv limit counter stream) (hlt : counter < limit) (later : ℕ) :
    capture.Inv limit later stream where
  split := h.split
  full := fun htruncated => absurd (h.full htruncated) hlt.ne
  phase := h.phase
  ended := h.ended

theorem read (h : capture.Inv limit counter stream) (hphase : capture.phase = .reading)
    (more : ℕ) : (capture.read more).Inv limit counter stream := by
  obtain ⟨dropped, hsplit, hdropped⟩ := h.split
  rw [hphase, Phase.chunk, List.append_nil] at hsplit
  unfold Capture.read
  dsimp only
  split
  · rename_i hempty
    have hleft : capture.left = [] := by
      rcases List.take_eq_nil_iff.mp hempty with hzero | hleft
      · exact absurd hzero (by simp [bufferBytes])
      · exact hleft
    exact ⟨⟨dropped, by rw [hsplit]; simp [Phase.chunk], hdropped⟩, h.full, trivial,
      fun _ => hleft⟩
  · rename_i hchunk
    have hrest : capture.left =
        capture.left.take (min (more + 1) bufferBytes) ++
          capture.left.drop (capture.left.take (min (more + 1) bufferBytes)).length := by
      rw [List.length_take]
      conv_lhs => rw [← List.take_append_drop (min (more + 1) bufferBytes) capture.left]
      rw [List.append_cancel_left_eq]
      rcases Nat.le_total (min (more + 1) bufferBytes) capture.left.length with hle | hle
      · rw [min_eq_left hle]
      · rw [min_eq_right hle, List.drop_length, List.drop_of_length_le hle]
    refine ⟨⟨dropped, ?_, hdropped⟩, h.full, hchunk, fun heq => by cases heq⟩
    rw [Phase.chunk, List.append_assoc, ← hrest]
    exact hsplit

/-- A chunk is taken as far as bytes are granted; less than all are only granted up to the limit. -/
theorem reserved (h : capture.Inv limit counter stream) {granted later : ℕ}
    (htruncated : capture.truncated = true → granted = 0)
    (hlater : capture.truncated = true ∨ granted < capture.phase.chunk.length → later = limit) :
    (capture.reserved capture.phase.chunk granted).Inv limit later stream := by
  obtain ⟨dropped, hsplit, hdropped⟩ := h.split
  refine ⟨⟨dropped ++ capture.phase.chunk.drop granted, ?_, ?_⟩, ?_, trivial, fun heq => by cases heq⟩
  · rw [hsplit]
    cases hcase : capture.truncated with
    | true =>
      rw [htruncated hcase]
      simp [Capture.reserved, Phase.chunk]
    | false =>
      have hnil : dropped = [] := by
        rw [← not_not (a := dropped = []), ← ne_eq, ← hdropped, hcase]
        exact Bool.false_ne_true
      rw [hnil]
      simp [Capture.reserved, Phase.chunk]
  · simp only [Capture.reserved, Bool.or_eq_true, decide_eq_true_eq, hdropped, ne_eq,
      List.append_eq_nil_iff, List.drop_eq_nil_iff, not_and_or, not_le]
  · simpa only [Capture.reserved, Bool.or_eq_true, decide_eq_true_eq] using hlater

/-- A value at the limit grants nothing. -/
theorem observe (h : capture.Inv limit counter stream) {current : ℕ} (hle : counter ≤ limit)
    (hcurrent : current ≤ counter) (hchunk : capture.phase.chunk ≠ []) :
    (Capture.observe limit capture capture.phase.chunk current).Inv limit counter stream := by
  unfold Capture.observe
  split
  · exact h.reserved (fun _ => rfl) fun _ => by omega
  · rename_i hlt
    exact ⟨h.split, h.full, ⟨hchunk, not_le.mp hlt⟩, fun heq => by cases heq⟩

end Capture.Inv

theorem Capture.observe_bytes (limit : ℕ) (capture : Capture) (chunk : List UInt8) (current : ℕ) :
    (Capture.observe limit capture chunk current).bytes = capture.bytes := by
  unfold Capture.observe
  split
  · simp [Capture.reserved]
  · rfl

theorem Capture.read_bytes (capture : Capture) (more : ℕ) :
    (capture.read more).bytes = capture.bytes := by
  unfold Capture.read
  dsimp only
  split <;> rfl

namespace Captures

/-- The counter is what was captured, it never falls, and it stays within the limit. -/
structure Inv (limit : ℕ) (streams : Output → List UInt8) (s : Captures) : Prop where
  counter_eq : s.counter = (s.calls .stdout).bytes.length + (s.calls .stderr).bytes.length
  counter_le : s.counter ≤ limit
  past_le : ∀ value ∈ s.past, value ≤ s.counter
  calls : ∀ output, (s.calls output).Inv limit s.counter (streams output)

variable {limit : ℕ} {streams : Output → List UInt8} {s : Captures}

theorem inv_start (limit : ℕ) (streams : Output → List UInt8) : (start streams).Inv limit streams where
  counter_eq := rfl
  counter_le := Nat.zero_le _
  past_le := fun _ h => absurd h List.not_mem_nil
  calls := fun output => .start limit (streams output)

theorem Inv.seen_le (h : s.Inv limit streams) (age : ℕ) : s.seen age ≤ s.counter := by
  unfold seen
  rw [List.getD_eq_getElem?_getD]
  cases hget : (s.counter :: s.past)[age]? with
  | none => exact le_rfl
  | some value =>
    rcases List.mem_cons.mp (List.mem_of_getElem? hget) with rfl | hmem
    · exact le_rfl
    · exact h.past_le value hmem

/-- A step of one call that captures nothing. -/
theorem Inv.set (h : s.Inv limit streams) {output : Output} {capture : Capture}
    (hcapture : capture.Inv limit s.counter (streams output))
    (hbytes : capture.bytes = (s.calls output).bytes) : (s.set output capture).Inv limit streams where
  counter_eq := by
    rw [Captures.set, h.counter_eq]
    cases output <;> simp [hbytes]
  counter_le := h.counter_le
  past_le := h.past_le
  calls := by
    intro other
    by_cases heq : other = output
    · subst heq
      simpa [Captures.set] using hcapture
    · simpa [Captures.set, heq] using h.calls other

theorem Inv.observe (h : s.Inv limit streams) {output : Output} (age : ℕ)
    (hchunk : (s.calls output).phase.chunk ≠ []) :
    (s.set output ((s.calls output).observe limit (s.calls output).phase.chunk (s.seen age))).Inv
      limit streams :=
  h.set ((h.calls output).observe h.counter_le (h.seen_le age) hchunk)
    (Capture.observe_bytes limit _ _ _)

theorem Inv.exchange (h : s.Inv limit streams) {output : Output} {chunk : List UInt8} {current : ℕ}
    (hphase : (s.calls output).phase = .exchanging chunk current) (spurious : Bool) (age : ℕ) :
    (s.compareExchangeWeak limit output chunk current spurious age).Inv limit streams := by
  have hchunk : (s.calls output).phase.chunk = chunk := by rw [hphase, Phase.chunk]
  obtain ⟨hne, hlt⟩ : chunk ≠ [] ∧ current < limit := by
    have hsound := (h.calls output).phase
    rw [hphase] at hsound
    exact hsound
  unfold compareExchangeWeak
  dsimp only
  split
  · rename_i hexchanged
    obtain ⟨rfl, -⟩ := hexchanged
    have hopen : (s.calls output).truncated = true → min chunk.length (limit - s.counter) = 0 :=
      fun htruncated => absurd ((h.calls output).full htruncated) hlt.ne
    have hfull : (s.calls output).truncated = true ∨
        min chunk.length (limit - s.counter) < (s.calls output).phase.chunk.length →
        s.counter + min chunk.length (limit - s.counter) = limit := by
      rintro (htruncated | hpart)
      · exact absurd ((h.calls output).full htruncated) hlt.ne
      · rw [hchunk] at hpart
        omega
    have hreserved := (h.calls output).reserved hopen hfull
    rw [hchunk] at hreserved
    have hlength : ((s.calls output).reserved chunk
        (min chunk.length (limit - s.counter))).bytes.length =
          (s.calls output).bytes.length + min chunk.length (limit - s.counter) := by
      simp [Capture.reserved]
    constructor
    case counter_eq =>
      have hcounter := h.counter_eq
      cases output <;> simp [Captures.set, hlength] <;> omega
    case counter_le =>
      dsimp only
      omega
    case past_le =>
      dsimp only
      intro value hmem
      rcases List.mem_cons.mp hmem with rfl | hmem
      · omega
      · exact (h.past_le value hmem).trans (Nat.le_add_right _ _)
    case calls =>
      intro other
      by_cases heq : other = output
      · subst heq
        simpa [Captures.set] using hreserved
      · simpa [Captures.set, heq] using (h.calls other).advance hlt _
  · rw [← hchunk] at hne ⊢
    exact h.observe age hne

theorem Inv.next (h : s.Inv limit streams) (event : Event) : (s.next limit event).Inv limit streams := by
  cases event with
  | read output more =>
    unfold Captures.next
    dsimp only
    split
    · rename_i hphase
      exact h.set ((h.calls output).read hphase more) (Capture.read_bytes _ more)
    · exact h
  | fail output =>
    unfold Captures.next
    dsimp only
    split
    · rename_i hphase
      have hcall := h.calls output
      refine h.set ⟨?_, hcall.full, trivial, fun heq => by cases heq⟩ rfl
      have hsplit := hcall.split
      rw [hphase] at hsplit
      exact hsplit
    · exact h
  | load output age =>
    unfold Captures.next
    dsimp only
    split
    · rename_i chunk hphase
      have hchunk : (s.calls output).phase.chunk = chunk := by rw [hphase, Phase.chunk]
      have hsound := (h.calls output).phase
      rw [hphase] at hsound
      rw [← hchunk]
      exact h.observe age (hchunk ▸ hsound)
    · exact h
  | exchange output spurious age =>
    unfold Captures.next
    dsimp only
    split
    · rename_i chunk current hphase
      exact h.exchange hphase spurious age
    · exact h

end Captures

/-- A call that has ended has captured a beginning of its stream, and says whether it is all of it. -/
theorem Capture.Inv.captured {limit counter : ℕ} {stream : List UInt8} {capture : Capture}
    (h : capture.Inv limit counter stream) {captured : CapturedStream}
    (hresult : capture.result = some captured) :
    captured.bytes = capture.bytes ∧ (captured.truncated = true → counter = limit) ∧
      captured.bytes <+: stream ∧
      (captured.truncated = true ↔ captured.bytes.length < stream.length) := by
  unfold Capture.result at hresult
  split at hresult
  · rename_i hphase
    obtain rfl := Option.some.inj hresult
    obtain ⟨dropped, hsplit, hdropped⟩ := h.split
    rw [hphase, Phase.chunk, h.ended hphase, List.append_nil, List.append_nil] at hsplit
    refine ⟨rfl, h.full, hsplit ▸ List.prefix_append _ _, ?_⟩
    rw [hsplit, List.length_append, hdropped, ← List.length_pos_iff]
    dsimp only
    omega
  · cases hresult

/-- However the reads and the accesses to the counter are interleaved, the two calls share the limit:
only if they have captured as many bytes together has either of them dropped any. -/
theorem captures_share_limit (limit : ℕ) (streams : Output → List UInt8) (events : List Event)
    (captured : Output → CapturedStream)
    (h : ∀ output, ((run (Captures.next limit) (Captures.start streams) events).calls output).result =
      some (captured output)) :
    (∀ output, (captured output).bytes <+: streams output ∧
      ((captured output).truncated = true ↔
        (captured output).bytes.length < (streams output).length)) ∧
    (captured .stdout).bytes.length + (captured .stderr).bytes.length ≤ limit ∧
    ((∃ output, (captured output).truncated = true) →
      (captured .stdout).bytes.length + (captured .stderr).bytes.length = limit) := by
  have hinv : (run (Captures.next limit) (Captures.start streams) events).Inv limit streams :=
    run_invariant (fun _ event hs => hs.next event) (Captures.inv_start limit streams) events
  have hcaptured := fun output => (hinv.calls output).captured (h output)
  have hcounter := hinv.counter_eq
  rw [← (hcaptured .stdout).1, ← (hcaptured .stderr).1] at hcounter
  refine ⟨fun output => (hcaptured output).2.2, hcounter ▸ hinv.counter_le, ?_⟩
  rintro ⟨output, htruncated⟩
  rw [← hcounter]
  exact (hcaptured output).2.1 htruncated

/-- Both calls load the counter before either exchanges it, and one exchange fails for no reason. -/
def contended : List Event :=
  [.read .stdout 2, .read .stderr 1, .load .stdout 0, .load .stderr 0, .exchange .stdout false 0,
    .exchange .stderr false 0, .exchange .stderr true 0, .exchange .stderr false 0,
    .read .stdout 0, .read .stderr 0]

def threeAndTwo : Output → List UInt8
  | .stdout => [1, 2, 3]
  | .stderr => [4, 5]

theorem captures_share_four :
    (run (Captures.next 4) (Captures.start threeAndTwo) contended).counter = 4 ∧
      [1, 2, 3].length + [4].length = 4 := by
  have h := captures_share_limit 4 threeAndTwo contended
    (fun output => match output with
      | .stdout => ⟨[1, 2, 3], false⟩
      | .stderr => ⟨[4], true⟩)
    (by rintro (_ | _) <;> rfl)
  exact ⟨rfl, h.2.2 ⟨.stderr, rfl⟩⟩

end OptoSync.Runner
