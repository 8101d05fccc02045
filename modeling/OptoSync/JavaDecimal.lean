import OptoSync.JsonGrammar

/-!
# Java decimals

What `java.lang.Character` counts as a digit, and the numbers that `java.math.BigDecimal` reads from
a text.
-/
namespace OptoSync.Java

open JsonGrammar

def minInt : ℤ := -2 ^ 31
def maxInt : ℤ := 2 ^ 31 - 1

/-- The zeros of the decimal digits among the UTF-16 code units, each followed by its one to nine. -/
def zeros : List ℕ :=
  [0x0030, 0x0660, 0x06f0, 0x07c0, 0x0966, 0x09e6, 0x0a66, 0x0ae6, 0x0b66, 0x0be6, 0x0c66, 0x0ce6,
    0x0d66, 0x0de6, 0x0e50, 0x0ed0, 0x0f20, 0x1040, 0x1090, 0x17e0, 0x1810, 0x1946, 0x19d0, 0x1a80,
    0x1a90, 0x1b50, 0x1bb0, 0x1c40, 0x1c50, 0xa620, 0xa8d0, 0xa900, 0xa9d0, 0xa9f0, 0xaa50, 0xabf0,
    0xff10]

/-- `A`, `a` and their fullwidth forms, each followed by the rest of its alphabet. -/
def alphabets : List ℕ := [0x41, 0x61, 0xff21, 0xff41]

def decimalValue (u : UInt16) : Option ℕ :=
  (zeros.find? fun z => z ≤ u.toNat ∧ u.toNat < z + 10).map fun z => u.toNat - z

def letterValue (u : UInt16) : Option ℕ :=
  (alphabets.find? fun a => a ≤ u.toNat ∧ u.toNat < a + 26).map fun a => u.toNat - a + 10

namespace Character

def isDigit (u : UInt16) : Bool := (decimalValue u).isSome

/-- `none` where Java returns `-1`. -/
def digit (u : UInt16) (radix : ℕ) : Option ℕ :=
  ((decimalValue u).orElse fun _ => letterValue u).filter (· < radix)

end Character

/-- The digits of a text that Java reads. -/
def digits : Digits where
  digit u := Character.digit u 10
  hexDigit u := Character.digit u 16

theorem decimalValue_lt {u : UInt16} {v : ℕ} (h : decimalValue u = some v) : v < 10 := by
  obtain ⟨z, hfind, rfl⟩ := Option.map_eq_some_iff.mp h
  have hz := List.find?_some hfind
  simp only [decide_eq_true_eq] at hz
  omega

theorem le_letterValue {u : UInt16} {v : ℕ} (h : letterValue u = some v) : 10 ≤ v := by
  obtain ⟨a, -, rfl⟩ := Option.map_eq_some_iff.mp h
  omega

theorem digit_ten (u : UInt16) : Character.digit u 10 = decimalValue u := by
  unfold Character.digit
  cases hdecimal : decimalValue u with
  | some v => simp [decimalValue_lt hdecimal]
  | none =>
    cases hletter : letterValue u with
    | none => rfl
    | some v => simp [le_letterValue hletter]

theorem isDigit_iff {u : UInt16} : Character.isDigit u = true ↔ ∃ v, digits.digit u = some v := by
  rw [Character.isDigit, Option.isSome_iff_exists]
  simp only [digits, digit_ten]

theorem isDigit_eq_false {u : UInt16} : Character.isDigit u = false ↔ digits.digit u = none := by
  rw [Character.isDigit, Option.isSome_eq_false_iff, Option.isNone_iff_eq_none]
  simp only [digits, digit_ten]

structure BigDecimal where
  unscaled : ℤ
  scale : ℤ
  inRange : minInt ≤ scale ∧ scale ≤ maxInt
  deriving DecidableEq, Repr

namespace BigDecimal

def value (n : BigDecimal) : ℚ := n.unscaled * 10 ^ (-n.scale)

/-- An optional sign. -/
def readSign : List UInt16 → Bool × List UInt16
  | [] => (false, [])
  | u :: us =>
    if u = unit '-' then (true, us) else if u = unit '+' then (false, us) else (false, u :: us)

def readFraction : List UInt16 → List ℕ × List UInt16
  | [] => ([], [])
  | u :: us => if u = unit '.' then readDigits digits.digit us else ([], u :: us)

/-- The exponent has to fit an `int` and its negation too. -/
def readExponent : List UInt16 → Option ℤ
  | [] => some 0
  | u :: us =>
    if u = unit 'e' ∨ u = unit 'E' then
      let (negative, rest) := readSign us
      let (exponent, rest) := readDigits digits.digit rest
      if exponent = [] ∨ rest ≠ [] ∨ maxInt < natural exponent then none
      else some (signed negative (natural exponent))
    else none

/-- `new BigDecimal(text)`, where `none` stands for a `NumberFormatException`. -/
def ofText (text : List UInt16) : Option BigDecimal :=
  let (negative, rest) := readSign text
  let (integer, rest) := readDigits digits.digit rest
  let (fraction, rest) := readFraction rest
  if integer = [] ∧ fraction = [] then none
  else do
    let exponent ← readExponent rest
    let scale := fraction.length - exponent
    if h : minInt ≤ scale ∧ scale ≤ maxInt then
      some { unscaled := signed negative (natural (integer ++ fraction)), scale, inRange := h }
    else none

/-- Neither the exponent nor the scale leaves the range of an `int`. -/
def Fits (n : Numeral) : Prop :=
  n.exponent.natAbs ≤ maxInt ∧ minInt ≤ n.fraction.length - n.exponent ∧
    n.fraction.length - n.exponent ≤ maxInt

instance (n : Numeral) : Decidable (Fits n) := inferInstanceAs (Decidable (_ ∧ _ ∧ _))

def ofNumeral (n : Numeral) (h : Fits n) : BigDecimal where
  unscaled := signed n.negative (natural (n.integer ++ n.fraction))
  scale := n.fraction.length - n.exponent
  inRange := h.2

theorem value_ofNumeral (n : Numeral) (h : Fits n) : (ofNumeral n h).value = n.value := by
  have hten : (10 : ℚ) ≠ 0 := by norm_num
  unfold value ofNumeral Numeral.value
  simp only
  rw [neg_sub, zpow_sub₀ hten, signed_mul, natural_append]
  push_cast
  rw [zpow_natCast]
  field_simp

/-- The characters of a JSON text, outside of its strings, that are no digits. -/
def marks : List Char :=
  ['-', '+', '.', 'e', 'E', '[', ']', '{', '}', ',', ':', '\"', 't', 'f', 'n', ' ', '\n', '\r', '\t']

theorem digit_marks {c : Char} (hc : c ∈ marks) : digits.digit (unit c) = none := by
  fin_cases hc <;> decide

theorem ne_of_digit {u : UInt16} {v : ℕ} (h : digits.digit u = some v) {c : Char}
    (hc : c ∈ marks) : u ≠ unit c := by
  intro heq
  rw [heq, digit_marks hc] at h
  simp at h

theorem readSign_digit {u : UInt16} {v : ℕ} (h : digits.digit u = some v) (us : List UInt16) :
    readSign (u :: us) = (false, u :: us) := by
  rw [readSign, if_neg (ne_of_digit h (by decide)), if_neg (ne_of_digit h (by decide))]

/-- A text of digits, as its first digit and the others. -/
theorem exists_digit {text : List UInt16} {values : List ℕ} (hne : text ≠ [])
    (h : text.map digits.digit = values.map some) :
    ∃ u us v, text = u :: us ∧ digits.digit u = some v := by
  cases text with
  | nil => exact absurd rfl hne
  | cons u us =>
    cases values with
    | nil => simp at h
    | cons v vs => exact ⟨u, us, v, rfl, (List.cons.inj h).1⟩

theorem readSign_digits {text : List UInt16} {values : List ℕ} (hne : text ≠ [])
    (h : text.map digits.digit = values.map some) (rest : List UInt16) :
    readSign (text ++ rest) = (false, text ++ rest) := by
  obtain ⟨u, us, v, rfl, hu⟩ := exists_digit hne h
  exact readSign_digit hu (us ++ rest)

theorem readSign_sign {sign text : List UInt16} {negative : Bool} {values : List ℕ}
    (hsign : Sign sign negative) (hne : text ≠ []) (h : text.map digits.digit = values.map some) :
    readSign (sign ++ text) = (negative, text) := by
  cases hsign with
  | absent => simpa using readSign_digits hne h []
  | plus => rfl
  | minus => rfl

theorem readSign_minus (negative : Bool) {text : List UInt16} {values : List ℕ} (hne : text ≠ [])
    (h : text.map digits.digit = values.map some) (rest : List UInt16) :
    readSign (minus negative ++ (text ++ rest)) = (negative, text ++ rest) := by
  cases negative with
  | false => exact readSign_digits hne h rest
  | true => rfl

theorem ne_nil_of_map {text : List UInt16} {values : List ℕ} (hne : text ≠ [])
    (h : text.map digits.digit = values.map some) : values ≠ [] := by
  rintro rfl
  exact hne (List.map_eq_nil_iff.mp h)

/-- An exponent starts with no digit, so that the digits before it end there. -/
theorem ends_exponent {e : List UInt16} {exponent : ℤ} (h : ExponentPart digits e exponent)
    {rest : List UInt16} (hrest : Ends digits.digit rest) : Ends digits.digit (e ++ rest) := by
  cases h with
  | absent => exact hrest
  | present hmark =>
    intro u hu
    obtain rfl : _ = u := by simpa using hu
    rcases hmark with rfl | rfl
    · exact digit_marks (by decide)
    · exact digit_marks (by decide)

theorem ends_fraction {f : List UInt16} {fraction : List ℕ} (h : FractionPart digits f fraction)
    {rest : List UInt16} (hrest : Ends digits.digit rest) : Ends digits.digit (f ++ rest) := by
  cases h with
  | absent => exact hrest
  | present =>
    intro u hu
    obtain rfl : unit '.' = u := by simpa using hu
    exact digit_marks (by decide)

theorem readFraction_part {f e : List UInt16} {fraction : List ℕ} {exponent : ℤ}
    (hfraction : FractionPart digits f fraction) (hexponent : ExponentPart digits e exponent)
    (hends : Ends digits.digit e) : readFraction (f ++ e) = (fraction, e) := by
  cases hfraction with
  | present hrun => rw [List.cons_append, readFraction, if_pos rfl, readDigits_run hrun.2 hends]
  | absent =>
    cases hexponent with
    | absent => rfl
    | present hmark =>
      rw [List.nil_append, readFraction, if_neg]
      rcases hmark with rfl | rfl <;> decide

theorem readExponent_part {text : List UInt16} {exponent : ℤ}
    (h : ExponentPart digits text exponent) :
    readExponent text = if exponent.natAbs ≤ maxInt then some exponent else none := by
  cases h with
  | absent => rfl
  | @present mark sign run negative values hmark hsign hrun =>
    have hvalues : values ≠ [] := ne_nil_of_map hrun.1 hrun.2
    have hread := readDigits_run hrun.2 ends_nil
    rw [List.append_nil] at hread
    have habs : (signed negative (natural values)).natAbs = natural values := by
      unfold signed
      split <;> simp
    rw [readExponent, if_pos hmark, readSign_sign hsign hrun.1 hrun.2, habs]
    simp only [hread, hvalues, ne_eq, not_true_eq_false, false_or]
    by_cases hmax : (natural values : ℤ) ≤ maxInt
    · rw [if_neg (not_lt.mpr hmax), if_pos hmax]
    · rw [if_pos (not_le.mp hmax), if_neg hmax]

/-- The constructor reads a numeral exactly, or refuses it for its range. -/
theorem ofText_number {text : List UInt16} {n : Numeral} (h : NumberText digits text n) :
    ofText text = if h : Fits n then some (ofNumeral n h) else none := by
  obtain ⟨hinteger, hfraction, hexponent⟩ := h
  rename_i i f e negative integer fraction exponent
  have hmap := hinteger.map_digit (by decide)
  have hne := ne_nil_of_map hinteger.ne_nil hmap
  have hends : Ends digits.digit e := by
    simpa using ends_exponent hexponent ends_nil
  rw [ofText, readSign_minus negative hinteger.ne_nil hmap]
  simp only [readDigits_run hmap (ends_fraction hfraction hends),
    readFraction_part hfraction hexponent hends, readExponent_part hexponent, hne, false_and,
    if_false]
  by_cases habs : (exponent.natAbs : ℤ) ≤ maxInt
  · rw [if_pos habs]
    by_cases hscale : minInt ≤ fraction.length - exponent ∧ fraction.length - exponent ≤ maxInt
    · rw [dif_pos ⟨habs, hscale⟩]
      exact dif_pos hscale
    · rw [dif_neg fun hfits => hscale hfits.2]
      exact dif_neg hscale
  · rw [if_neg habs, dif_neg fun hfits => habs hfits.1]
    rfl

end BigDecimal

end OptoSync.Java
