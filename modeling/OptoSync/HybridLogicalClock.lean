import OptoSync.Decimal
import OptoSync.FixedWidth
import OptoSync.Transition

/-!
# The hybrid logical clock

Timestamps are `<13-digit millis>-<4-hex counter>-<node id>`. An assertion of the code that fails
is `none`.
-/
namespace OptoSync
open FixedWidth

structure HlcParts where
  millis : ℕ
  counter : ℕ
  nodeId : String
  deriving DecidableEq, Repr

inductive ClockError
  | invalidNodeId (nodeId : String)
  | drift (remote : String) (driftMs maxDriftMs : ℕ)
  deriving DecidableEq, Repr

def millisDigits : ℕ := 13
def maxCounter : ℕ := 0xffff
def maxMillis : ℕ := 9999999999999
def defaultMaxDriftMs : ℕ := 60000

def validNodeId (nodeId : String) : Bool := nodeId.toList ≠ [] && !nodeId.toList.contains '-'

def formatHlc (parts : HlcParts) : Option String :=
  if parts.millis ≤ maxMillis ∧ parts.counter ≤ maxCounter ∧ validNodeId parts.nodeId = true then
    some (String.ofList
      ((Nat.toDigits 10 parts.millis).leftpad millisDigits '0' ++ '-' ::
        ((Nat.toDigits 16 parts.counter).leftpad 4 '0' ++ '-' :: parts.nodeId.toList)))
  else none

/-- The text up to the first dash and the text after it. -/
def splitDash : List Char → Option (List Char × List Char)
  | [] => none
  | c :: cs => if c = '-' then some ([], cs) else (splitDash cs).map fun (a, b) => (c :: a, b)

def isLowerHexDigit (c : Char) : Bool := c.isDigit || ('a'.toNat ≤ c.toNat && c.toNat ≤ 'f'.toNat)

/-- `u32::from_str_radix(_, 16)` on four lowercase digits. -/
def fromHex (cs : List Char) : ℕ :=
  cs.foldl (fun n c => 16 * n + if c.isDigit then c.toNat - '0'.toNat else c.toNat - 'a'.toNat + 10) 0

def parseHlc (timestamp : String) : Option HlcParts := do
  let (millis, rest) ← splitDash timestamp.toList
  let (counter, nodeId) ← splitDash rest
  if millis.length ≠ millisDigits ∨ millis.all Char.isDigit = false then none
  else if counter.length ≠ 4 ∨ counter.all isLowerHexDigit = false then none
  else if validNodeId (String.ofList nodeId) = false then none
  else
    let millis ← Decimal.parseU64 (String.ofList millis)
    some { millis, counter := fromHex counter, nodeId := String.ofList nodeId }

/-- The clock and the last timestamp its persistence saved. -/
structure HybridLogicalClock where
  nodeId : String
  millis : ℕ
  counter : ℕ
  maxDriftMs : ℕ
  saved : Option String
  node_valid : validNodeId nodeId = true

namespace HybridLogicalClock

def restore (saved : Option String) : ℕ × ℕ :=
  match saved.bind parseHlc with
  | some parts => (parts.millis, parts.counter)
  | none => (0, 0)

def withMaxDrift (nodeId : String) (saved : Option String) (maxDriftMs : ℕ) :
    Except ClockError HybridLogicalClock :=
  if h : validNodeId nodeId = true then
    .ok { nodeId, millis := (restore saved).1, counter := (restore saved).2, maxDriftMs, saved
          node_valid := h }
  else .error (.invalidNodeId nodeId)

def new (nodeId : String) (saved : Option String) : Except ClockError HybridLogicalClock :=
  withMaxDrift nodeId saved defaultMaxDriftMs

def peek (clock : HybridLogicalClock) : HlcParts :=
  { millis := clock.millis, counter := clock.counter, nodeId := clock.nodeId }

/-- Formatting the state and saving it. -/
def save (clock : HybridLogicalClock) : Option (String × HybridLogicalClock) :=
  (formatHlc clock.peek).map fun ts => (ts, { clock with saved := some ts })

def advance (clock : HybridLogicalClock) (physical : ℕ) : HybridLogicalClock :=
  if clock.millis < physical then { clock with millis := physical, counter := 0 }
  else if maxCounter < clock.counter + 1 then
    { clock with millis := clock.millis + 1, counter := 0 }
  else { clock with counter := clock.counter + 1 }

def next (clock : HybridLogicalClock) (physical : ℕ) : Option (String × HybridLogicalClock) :=
  (clock.advance physical).save

def observe (clock : HybridLogicalClock) (remote : String) (now : ℕ) :
    Option (Except ClockError Unit × HybridLogicalClock) :=
  match parseHlc remote with
  | none => some (.ok (), clock)
  | some parsed =>
    if now < parsed.millis ∧ clock.maxDriftMs < parsed.millis - now then
      some (.error (.drift remote (parsed.millis - now) clock.maxDriftMs), clock)
    else if clock.millis < parsed.millis then
      ({ clock with millis := parsed.millis, counter := parsed.counter } : HybridLogicalClock).save.map
        fun (_, clock) => (.ok (), clock)
    else if parsed.millis = clock.millis ∧ clock.counter < parsed.counter then
      ({ clock with counter := parsed.counter } : HybridLogicalClock).save.map
        fun (_, clock) => (.ok (), clock)
    else some (.ok (), clock)

end HybridLogicalClock

theorem digit_bounds {c : Char} : c.isDigit = true ↔ 48 ≤ c.toNat ∧ c.toNat ≤ 57 := by
  simp only [Char.isDigit, Bool.and_eq_true, decide_eq_true_eq]
  exact Iff.rfl

theorem lowerHexDigit_bounds {c : Char} :
    isLowerHexDigit c = true ↔ 48 ≤ c.toNat ∧ c.toNat ≤ 57 ∨ 97 ≤ c.toNat ∧ c.toNat ≤ 102 := by
  have ha : 'a'.toNat = 97 := by decide
  have hf : 'f'.toNat = 102 := by decide
  simp [isLowerHexDigit, digit_bounds, ha, hf]

theorem char_lt_of_toNat_lt {c d : Char} (h : c.toNat < d.toNat) : c < d := h

def decimal : Radix Char where
  base := 10
  digit c := c.toNat - '0'.toNat
  IsDigit c := c.isDigit = true
  digit_lt {c} h := by
    have hz : '0'.toNat = 48 := by decide
    have := digit_bounds.mp h
    omega
  lt_of_digit_lt {c d} hc hd h := by
    have hz : '0'.toNat = 48 := by decide
    have := digit_bounds.mp hc
    exact char_lt_of_toNat_lt (by omega)
  eq_of_digit_eq {c d} hc hd h := by
    have hz : '0'.toNat = 48 := by decide
    have := digit_bounds.mp hc
    have := digit_bounds.mp hd
    exact Char.toNat_inj.mp (by omega)

def lowerHex : Radix Char where
  base := 16
  digit c := if c.isDigit then c.toNat - '0'.toNat else c.toNat - 'a'.toNat + 10
  IsDigit c := isLowerHexDigit c = true
  digit_lt {c} h := by
    have hz : '0'.toNat = 48 := by decide
    have ha : 'a'.toNat = 97 := by decide
    have := lowerHexDigit_bounds.mp h
    simp only [digit_bounds]
    split <;> omega
  lt_of_digit_lt {c d} hc hd h := by
    have hz : '0'.toNat = 48 := by decide
    have ha : 'a'.toNat = 97 := by decide
    have := lowerHexDigit_bounds.mp hc
    have := lowerHexDigit_bounds.mp hd
    simp only [digit_bounds] at h
    apply char_lt_of_toNat_lt
    split at h <;> split at h <;> omega
  eq_of_digit_eq {c d} hc hd h := by
    have hz : '0'.toNat = 48 := by decide
    have ha : 'a'.toNat = 97 := by decide
    have := lowerHexDigit_bounds.mp hc
    have := lowerHexDigit_bounds.mp hd
    simp only [digit_bounds] at h
    apply Char.toNat_inj.mp
    split at h <;> split at h <;> omega

instance : DecidablePred decimal.IsDigit := fun c =>
  inferInstanceAs (Decidable (c.isDigit = true))

instance : DecidablePred lowerHex.IsDigit := fun c =>
  inferInstanceAs (Decidable (isLowerHexDigit c = true))

/-- A numeral of width `w` for `n`. -/
structure Numeral (r : Radix Char) (w n : ℕ) (cs : List Char) : Prop where
  length : cs.length = w
  digits : ∀ c ∈ cs, r.IsDigit c
  value : r.value cs = n

theorem Numeral.unique {r : Radix Char} {w n : ℕ} {cs ds : List Char} (hc : Numeral r w n cs)
    (hd : Numeral r w n ds) : cs = ds :=
  r.value_inj hc.digits hd.digits (hc.length.trans hd.length.symm) (hc.value.trans hd.value.symm)

theorem Numeral.lt {r : Radix Char} {w n : ℕ} {cs : List Char} (h : Numeral r w n cs) :
    n < r.base ^ w := by
  rw [← h.value, ← h.length]
  exact r.value_lt h.digits

/-- The digits that are printed are the digits that are read. -/
def Printed (r : Radix Char) : Prop :=
  1 < r.base ∧ ∀ d, d < r.base → r.IsDigit (Nat.digitChar d) ∧ r.digit (Nat.digitChar d) = d

theorem printed_decimal : Printed decimal := by
  refine ⟨by decide, fun d hd => ?_⟩
  replace hd : d < 10 := hd
  interval_cases d <;> exact ⟨by decide, by decide⟩

theorem printed_lowerHex : Printed lowerHex := by
  refine ⟨by decide, fun d hd => ?_⟩
  replace hd : d < 16 := hd
  interval_cases d <;> exact ⟨by decide, by decide⟩

theorem Printed.toDigits {r : Radix Char} (h : Printed r) (n : ℕ) :
    (∀ c ∈ Nat.toDigits r.base n, r.IsDigit c) ∧ r.value (Nat.toDigits r.base n) = n := by
  have hbase := h.1
  induction n using Nat.strong_induction_on with
  | _ n ih =>
    rcases Nat.lt_or_ge n r.base with hlt | hge
    · rw [Nat.toDigits_of_lt_base hlt]
      obtain ⟨hdigit, hvalue⟩ := h.2 n hlt
      exact ⟨by simpa using hdigit, by simpa [Radix.value_cons] using hvalue⟩
    · obtain ⟨hdigits, hvalue⟩ := ih (n / r.base) (Nat.div_lt_self (by omega) h.1)
      obtain ⟨hlast, hlastValue⟩ := h.2 (n % r.base) (Nat.mod_lt _ (by omega))
      rw [Nat.toDigits_of_base_le h.1 hge]
      constructor
      · intro c hc
        rcases List.mem_append.mp hc with hc | hc
        · exact hdigits c hc
        · rw [List.mem_singleton.mp hc]
          exact hlast
      · rw [Radix.value_append_singleton, hvalue, hlastValue]
        exact Nat.div_add_mod n r.base

theorem Printed.numeral {r : Radix Char} (h : Printed r) {w n : ℕ} (hw : 0 < w)
    (hn : n < r.base ^ w) : Numeral r w n ((Nat.toDigits r.base n).leftpad w '0') := by
  obtain ⟨hdigits, hvalue⟩ := h.toDigits n
  obtain ⟨hzero, hzeroValue⟩ : r.IsDigit '0' ∧ r.digit '0' = 0 := h.2 0 (Nat.zero_lt_of_lt h.1)
  constructor
  · rw [List.length_leftpad]
    exact max_eq_left ((Nat.length_toDigits_le_iff h.1 hw).mpr hn)
  · intro c hc
    rcases List.mem_append.mp hc with hc | hc
    · rw [(List.mem_replicate.mp hc).2]
      exact hzero
    · exact hdigits c hc
  · rw [List.leftpad, r.value_replicate_zero hzeroValue, hvalue]

theorem splitDash_eq_some {cs a b : List Char} :
    splitDash cs = some (a, b) ↔ cs = a ++ '-' :: b ∧ '-' ∉ a := by
  induction cs generalizing a with
  | nil => simp [splitDash]
  | cons c cs ih =>
    unfold splitDash
    split
    · rename_i hc
      subst hc
      cases a with
      | nil => simp [eq_comm]
      | cons d a =>
        simp only [Option.some.injEq, Prod.mk.injEq, reduceCtorEq, false_and, false_iff,
          List.cons_append, List.cons.injEq, List.mem_cons, not_or]
        rintro ⟨⟨rfl, -⟩, hne, -⟩
        exact hne rfl
    · rename_i hc
      cases a with
      | nil => simp [hc]
      | cons d a =>
        simp only [Option.map_eq_some_iff, Prod.mk.injEq, List.cons.injEq, Prod.exists,
          List.cons_append, List.mem_cons, not_or]
        constructor
        · rintro ⟨a', b', h, ⟨rfl, rfl⟩, rfl⟩
          obtain ⟨rfl, hnot⟩ := ih.mp h
          exact ⟨⟨rfl, rfl⟩, Ne.symm hc, hnot⟩
        · rintro ⟨⟨rfl, rfl⟩, -, hnot⟩
          exact ⟨a, b, ih.mpr ⟨rfl, hnot⟩, ⟨rfl, rfl⟩, rfl⟩

theorem parseU64_decimal {cs : List Char} {n : ℕ} (h : Numeral decimal millisDigits n cs) :
    Decimal.parseU64 (String.ofList cs) = some n := by
  have hne : cs ≠ [] := by
    rintro rfl
    exact absurd h.length (by decide)
  have hall : cs.all Char.isDigit = true := List.all_eq_true.mpr h.digits
  have hvalue : Nat.ofDigitChars 10 cs 0 = n := by
    rw [← h.value]
    rfl
  have hle : n ≤ Decimal.maxU64 := by
    have hlt : n < 10 ^ 13 := h.lt
    have hmax : (10 : ℕ) ^ 13 ≤ 2 ^ 64 - 1 := by norm_num
    unfold Decimal.maxU64
    omega
  have hplus : ∀ ds, cs ≠ '+' :: ds := by
    rintro ds rfl
    exact absurd (h.digits '+' List.mem_cons_self) (by decide)
  unfold Decimal.parseU64
  rw [String.toList_ofList]
  split
  · exact absurd rfl (hplus _)
  · simp [Decimal.parseDigits, hne, hall, hvalue, hle]

theorem numeral_of_digits {cs : List Char} (hlength : cs.length = millisDigits)
    (hall : cs.all Char.isDigit = true) : Numeral decimal millisDigits (decimal.value cs) cs :=
  ⟨hlength, List.all_eq_true.mp hall, rfl⟩

/-- The timestamps that are accepted, field by field. -/
theorem parseHlc_eq_some {timestamp : String} {parts : HlcParts} :
    parseHlc timestamp = some parts ↔
      ∃ ms cs, timestamp.toList = ms ++ '-' :: (cs ++ '-' :: parts.nodeId.toList) ∧
        Numeral decimal millisDigits parts.millis ms ∧ Numeral lowerHex 4 parts.counter cs ∧
          validNodeId parts.nodeId = true := by
  unfold parseHlc
  constructor
  · intro h
    simp only [Option.bind_eq_bind, Option.bind_eq_some_iff, Prod.exists] at h
    obtain ⟨ms, rest, hms, cs, nodeId, hcs, h⟩ := h
    split at h
    · cases h
    split at h
    · cases h
    split at h
    · cases h
    rename_i hmillis hcounter hnode
    simp only [not_or, not_not, Bool.not_eq_false] at hmillis hcounter hnode
    have hnumeral := numeral_of_digits hmillis.1 hmillis.2
    rw [parseU64_decimal hnumeral] at h
    obtain rfl := Option.some.inj h
    obtain ⟨hlist, -⟩ := splitDash_eq_some.mp hms
    obtain ⟨rfl, -⟩ := splitDash_eq_some.mp hcs
    refine ⟨ms, cs, by rw [hlist, String.toList_ofList], hnumeral, ?_, hnode⟩
    exact ⟨hcounter.1, List.all_eq_true.mp hcounter.2, rfl⟩
  · rintro ⟨ms, cs, hlist, hms, hcs, hnode⟩
    have hmsDash : '-' ∉ ms := fun hmem => absurd (hms.digits '-' hmem) (by decide)
    have hcsDash : '-' ∉ cs := fun hmem => absurd (hcs.digits '-' hmem) (by decide)
    have hmillis : ¬ (ms.length ≠ millisDigits ∨ ms.all Char.isDigit = false) := by
      rw [not_or, not_not, Bool.not_eq_false]
      exact ⟨hms.length, List.all_eq_true.mpr hms.digits⟩
    have hcounter : ¬ (cs.length ≠ 4 ∨ cs.all isLowerHexDigit = false) := by
      rw [not_or, not_not, Bool.not_eq_false]
      exact ⟨hcs.length, List.all_eq_true.mpr hcs.digits⟩
    have hvalue : fromHex cs = parts.counter := hcs.value
    rw [splitDash_eq_some.mpr ⟨hlist, hmsDash⟩]
    simp only [Option.bind_eq_bind, Option.bind_some]
    rw [splitDash_eq_some.mpr ⟨rfl, hcsDash⟩]
    simp only [Option.bind_some]
    rw [if_neg hmillis, if_neg hcounter, String.ofList_toList, hnode, if_neg (by decide),
      parseU64_decimal hms, hvalue]
    rfl

/-- Formatting and parsing are inverse to each other: the format has one text for each value. -/
theorem formatHlc_eq_some {timestamp : String} {parts : HlcParts} :
    formatHlc parts = some timestamp ↔ parseHlc timestamp = some parts := by
  rw [parseHlc_eq_some]
  constructor
  · intro h
    unfold formatHlc at h
    split at h
    · rename_i hvalid
      obtain ⟨hmillis, hcounter, hnode⟩ := hvalid
      obtain rfl := Option.some.inj h
      refine ⟨_, _, String.toList_ofList, ?_, ?_, hnode⟩
      · apply printed_decimal.numeral (by decide)
        show parts.millis < 10 ^ 13
        unfold maxMillis at hmillis
        omega
      · apply printed_lowerHex.numeral (by decide)
        show parts.counter < 16 ^ 4
        unfold maxCounter at hcounter
        omega
    · cases h
  · rintro ⟨ms, cs, hlist, hms, hcs, hnode⟩
    have hmillis : parts.millis < 10 ^ 13 := hms.lt
    have hcounter : parts.counter < 16 ^ 4 := hcs.lt
    have hvalid : parts.millis ≤ maxMillis ∧ parts.counter ≤ maxCounter ∧
        validNodeId parts.nodeId = true := by
      refine ⟨?_, ?_, hnode⟩
      · unfold maxMillis
        omega
      · unfold maxCounter
        omega
    rw [formatHlc, if_pos hvalid, Option.some.injEq]
    apply String.toList_inj.mp
    rw [String.toList_ofList, hlist]
    have hmsEq := (printed_decimal.numeral (by decide) hms.lt).unique hms
    have hcsEq := (printed_lowerHex.numeral (by decide) hcs.lt).unique hcs
    exact congrArg₂ (fun a b => a ++ '-' :: (b ++ '-' :: parts.nodeId.toList)) hmsEq hcsEq

/-- The logical order of timestamps, the node ids left out. -/
def HlcParts.Before (p q : HlcParts) : Prop :=
  p.millis < q.millis ∨ p.millis = q.millis ∧ p.counter < q.counter

theorem lt_of_before {a b : String} {p q : HlcParts} (ha : parseHlc a = some p)
    (hb : parseHlc b = some q) (h : p.Before q) : a < b := by
  obtain ⟨ms, cs, hlist, hms, hcs, -⟩ := parseHlc_eq_some.mp ha
  obtain ⟨ms', cs', hlist', hms', hcs', -⟩ := parseHlc_eq_some.mp hb
  rw [String.lt_iff_toList_lt, hlist, hlist']
  apply lt_of_fields hms.digits hms'.digits hcs.digits hcs'.digits
    (hms.length.trans hms'.length.symm) (hcs.length.trans hcs'.length.symm) ?_ ['-']
  rw [hms.value, hms'.value, hcs.value, hcs'.value]
  exact h

end OptoSync
