import OptoSync.IngestPortsShape
import OptoSync.JsonText

/-!
# Agreement of the ported ingest validators

All four demand the shape of an envelope. They differ in the spellings of numbers, in the nodes of
hybrid timestamps and in where they cut a text at its dashes.
-/
namespace OptoSync.Ingest
open Json Utf16

open Ingest.Gleam (wideHlc cutsNode)

/-- The envelope has a version or an upsert with a timestamp of the given kinds. -/
def hasValue (version : Option Json → Bool) (timestamp : Json → Bool) (value : Json) : Bool :=
  (match value with
    | .object root => version (member root "formatVersion")
    | _ => false) || (recordsOf value).any (hasTimestamp timestamp)

/-- Dashes in the node. -/
def innerDash (text : String) : Bool := (text.toList.drop 19).contains '-'

section
variable (numerals : Numerals)

/-- The number as a double. -/
def doubled : JsonNumber → Option ℚ
  | .int value => numerals.round value
  | .float literal => numerals.round (numerals.exact literal)

/-- A version that is one as a double. -/
def lenientVersion : Option Json → Bool
  | some (.number value) => doubled numerals value = some 1
  | _ => false

/-- A safe integer as a double, or a text of one of the forms, up to dashes in the node. -/
def lenientTimestamp : Json → Bool
  | .number value => (doubled numerals value).any safeDouble
  | .string text => isDigits text || wideHlc text || isIso8601 text
  | _ => false

/-- The shape that all demand, where they differ with the most lenient of them. -/
def demanded : Json → Bool :=
  envelopeShaped (lenientVersion numerals) (recordShaped (lenientTimestamp numerals) List.isEmpty)

namespace Go

/-- `big.Rat` does not read it as one. -/
def oddVersion : Option Json → Bool
  | some (.number value) => numerals.setString (numberText value) ≠ some 1
  | _ => false

/-- The literal is long, or `big.Rat` does not read the number of its double; or the node has
dashes. -/
def oddTimestamp : Json → Bool
  | .number (.float literal) =>
    256 < literal.utf8ByteSize ||
      numerals.setString literal ≠ numerals.round (numerals.exact literal)
  | .string text => wideHlc text && innerDash text
  | _ => false

def refuses : Json → Bool := hasValue (oddVersion numerals) (oddTimestamp numerals)

end Go

namespace Java

def oddVersion : Option Json → Bool
  | some (.number value) => decimalValue numerals value ≠ 1
  | _ => false

/-- The literal has another number than its double; or the node has dashes. -/
def oddTimestamp : Json → Bool
  | .number (.float literal) =>
    numerals.round (numerals.exact literal) ≠ some (numerals.exact literal)
  | .string text => wideHlc text && innerDash text
  | _ => false

def refuses : Json → Bool := hasValue (oddVersion numerals) (oddTimestamp numerals)

end Java

end

namespace Dart

/-- The node has dashes or more than 128 code units. -/
def oddTimestamp : Json → Bool
  | .string text => wideHlc text && (innerDash text || longNode text)
  | _ => false

def refuses : Json → Bool := hasValue (fun _ => false) oddTimestamp

end Dart

namespace Gleam

/-- The version is written with a fraction or an exponent. -/
def oddVersion : Option Json → Bool
  | some (.number (.float _)) => true
  | _ => false

/-- The text is cut elsewhere than at the dashes before the node. -/
def oddTimestamp (strings : GleamString) : Json → Bool
  | .string text => wideHlc text && !cutsNode strings text
  | _ => false

def refuses (strings : GleamString) : Json → Bool := hasValue oddVersion (oddTimestamp strings)

end Gleam

/-- A validator that of what all demand refuses some versions and some timestamps. -/
theorem envelopeShaped_eq {numerals : Numerals} {version oddVersion : Option Json → Bool}
    {timestamp oddTimestamp : Json → Bool}
    (hversion : ∀ value, version value = (lenientVersion numerals value && !oddVersion value))
    (htimestamp : ∀ value, timestamp value =
      (lenientTimestamp numerals value && !oddTimestamp value)) (value : Json) :
    envelopeShaped version (recordShaped timestamp List.isEmpty) value =
      (demanded numerals value && !hasValue oddVersion oddTimestamp value) := by
  have hrecord : ∀ item, recordShaped timestamp List.isEmpty item =
      (recordShaped (lenientTimestamp numerals) List.isEmpty item &&
        !hasTimestamp oddTimestamp item) := by
    intro item
    rw [← recordShaped_timestamps, funext htimestamp]
  cases value with
  | object root =>
    rw [demanded, envelopeShaped, envelopeShaped, hversion, recordsShaped_and_not hrecord, hasValue,
      recordsOf, Bool.not_or]
    ac_rfl
  | _ => rfl

section
variable {numerals : Numerals} (lawful : LawfulNumerals numerals)
include lawful

/-- An integer is one as a double only if it is one. -/
theorem round_eq_one {z : ℤ} : numerals.round z = some 1 ↔ z = 1 := by
  have hone : numerals.round (1 : ℤ) = some ((1 : ℤ) : ℚ) := lawful.round_int 1 (by decide)
  constructor
  · intro h
    rcases lt_trichotomy z 1 with hlt | heq | hgt
    · have hzero : numerals.round (0 : ℤ) = some ((0 : ℤ) : ℚ) := lawful.round_int 0 (by decide)
      have hle : (z : ℚ) ≤ (0 : ℤ) := by exact_mod_cast Int.lt_add_one_iff.mp hlt
      have := lawful.round_mono hle h hzero
      norm_num at this
    · exact heq
    · have htwo : numerals.round (2 : ℤ) = some ((2 : ℤ) : ℚ) := lawful.round_int 2 (by decide)
      have hle : ((2 : ℤ) : ℚ) ≤ z := by exact_mod_cast hgt
      have := lawful.round_mono hle htwo h
      norm_num at this
  · rintro rfl
    simpa using hone

theorem round_safe {z : ℤ} (hzero : 0 ≤ z) (hmax : z ≤ maxSafeTimestampInteger) :
    numerals.round z = some (z : ℚ) := by
  refine lawful.round_int z ?_
  rw [abs_of_nonneg hzero]
  exact hmax.trans (by decide)

omit lawful in
theorem safeDouble_int {z : ℤ} :
    safeDouble z = true ↔ 0 ≤ z ∧ z ≤ maxSafeTimestampInteger := by
  have hzero : (0 : ℚ) ≤ z ↔ 0 ≤ z := by exact_mod_cast Iff.rfl
  have hmax : (z : ℚ) ≤ maxSafeTimestampInteger ↔ z ≤ maxSafeTimestampInteger := by
    exact_mod_cast Iff.rfl
  simp [safeDouble, hzero, hmax]

omit lawful in
/-- The safe doubles are the safe integers. -/
theorem exists_of_safeDouble {q : ℚ} (h : safeDouble q = true) :
    ∃ z : ℤ, q = z ∧ 0 ≤ z ∧ z ≤ maxSafeTimestampInteger := by
  have hden : q.den = 1 := by
    simp only [safeDouble, Bool.and_eq_true, decide_eq_true_eq] at h
    exact h.2
  have hq : q = (q.num : ℚ) := (Rat.coe_int_num_of_den_eq_one hden).symm
  rw [hq] at h
  exact ⟨q.num, hq, safeDouble_int.mp h⟩

theorem round_safeDouble {q : ℚ} (h : safeDouble q = true) : numerals.round q = some q := by
  obtain ⟨z, rfl, hzero, hmax⟩ := exists_of_safeDouble h
  exact round_safe lawful hzero hmax

/-- The integers that are safe as doubles are safe. -/
theorem any_round_int (z : ℤ) :
    (numerals.round z).any safeDouble = true ↔ 0 ≤ z ∧ z ≤ maxSafeTimestampInteger := by
  constructor
  · intro h
    obtain ⟨q, hq, hsafe⟩ := (Option.any_eq_true _ _).mp h
    obtain ⟨y, rfl, hzero, hmax⟩ := exists_of_safeDouble hsafe
    constructor
    · by_contra hneg
      have hminus : numerals.round (-1 : ℤ) = some ((-1 : ℤ) : ℚ) :=
        lawful.round_int (-1) (by decide)
      have hle : (z : ℚ) ≤ ((-1 : ℤ) : ℚ) := by exact_mod_cast Int.le_sub_one_of_lt (not_le.mp hneg)
      have hy : y ≤ -1 := by exact_mod_cast lawful.round_mono hle hq hminus
      omega
    · by_contra hlarge
      have hbound : numerals.round (2 ^ 53 : ℤ) = some ((2 ^ 53 : ℤ) : ℚ) :=
        lawful.round_int (2 ^ 53) (by decide)
      have hge : (2 ^ 53 : ℤ) ≤ z := by
        simp only [maxSafeTimestampInteger] at hlarge
        omega
      have hle : ((2 ^ 53 : ℤ) : ℚ) ≤ z := by exact_mod_cast hge
      have hy : (2 ^ 53 : ℤ) ≤ y := by exact_mod_cast lawful.round_mono hle hbound hq
      simp only [maxSafeTimestampInteger] at hmax
      omega
  · rintro ⟨hzero, hmax⟩
    rw [round_safe lawful hzero hmax]
    exact safeDouble_int.mpr ⟨hzero, hmax⟩

theorem Go.any_isExactOne (value : Option Json) :
    value.any (Go.isExactOne numerals) =
      (lenientVersion numerals value && !Go.oddVersion numerals value) := by
  rcases value with - | value
  · rfl
  · cases value with
    | number value =>
      have hlenient : numerals.setString (numberText value) = some 1 →
          doubled numerals value = some 1 := by
        intro h
        cases value with
        | int z =>
          rw [numberText, lawful.setString_int] at h
          have hz : z = 1 := by exact_mod_cast Option.some.inj h
          exact (round_eq_one lawful).mpr hz
        | float literal =>
          have hexact : (1 : ℚ) = numerals.exact literal := lawful.setString_exact h
          rw [doubled, ← hexact]
          simpa using lawful.round_int 1 (by decide)
      by_cases h : numerals.setString (numberText value) = some 1
      · simp [Go.isExactOne, lenientVersion, Go.oddVersion, h, hlenient h]
      · simp [Go.isExactOne, Go.oddVersion, h]
    | _ => rfl

theorem Java.any_isExactOne (value : Option Json) :
    value.any (Java.isExactOne numerals) =
      (lenientVersion numerals value && !Java.oddVersion numerals value) := by
  rcases value with - | value
  · rfl
  · cases value with
    | number value =>
      have hlenient : Java.decimalValue numerals value = 1 → doubled numerals value = some 1 := by
        intro h
        have hone : numerals.round 1 = some 1 := by simpa using lawful.round_int 1 (by decide)
        cases value with
        | int z =>
          rw [Java.decimalValue] at h
          rw [doubled, h, hone]
        | float literal =>
          rw [Java.decimalValue] at h
          rw [doubled, h, hone]
      by_cases h : Java.decimalValue numerals value = 1
      · simp [Java.isExactOne, lenientVersion, Java.oddVersion, h, hlenient h]
      · simp [Java.isExactOne, Java.oddVersion, h]
    | _ => rfl

theorem Dart.any_isOne (value : Option Json) :
    value.any (Dart.isOne numerals) = (lenientVersion numerals value && !false) := by
  rcases value with - | value
  · rfl
  · cases value with
    | number value =>
      rw [Bool.not_false, Bool.and_true]
      cases value with
      | int z =>
        have hone := round_eq_one lawful (z := z)
        simp only [Option.any_some, Dart.isOne, Dart.decode, lenientVersion, doubled, hone]
        split
        · next heq =>
          split at heq
          · cases heq
            rfl
          · cases heq
        · next heq =>
          split at heq
          · cases heq
          · cases heq
            simp only [hone]
      | float literal => rfl
    | _ => rfl

theorem Gleam.decide_version (value : Option Json) :
    decide (value = some (.number (.int 1))) =
      (lenientVersion numerals value && !Gleam.oddVersion value) := by
  rcases value with - | value
  · rfl
  · cases value with
    | number value =>
      cases value with
      | int z => simp [lenientVersion, doubled, Gleam.oddVersion, round_eq_one lawful]
      | float literal => simp [Gleam.oddVersion]
    | _ => simp [lenientVersion]

omit lawful in
theorem isNativeHlc_eq_wide (text : String) :
    isNativeHlc text = (wideHlc text && !innerDash text) := by
  rw [Bool.eq_iff_iff, isNativeHlc_iff]
  simp only [wideHlc, innerDash, Bool.and_eq_true, Bool.not_eq_true', Bool.eq_false_iff, ne_eq,
    List.contains_iff_mem, Option.any_eq_true, decide_eq_true_eq]
  constructor
  · rintro ⟨node, hhead, hlen, hdash⟩
    obtain ⟨millis, counter, htext, ⟨hml, -⟩, hcl, -⟩ := hlcHead_eq_some.mp hhead
    obtain ⟨-, -, h19⟩ := Gleam.parts_of_hlc htext hml hcl
    rw [h19]
    exact ⟨⟨node, hhead, hlen⟩, hdash⟩
  · rintro ⟨⟨node, hhead, hlen⟩, hdash⟩
    obtain ⟨millis, counter, htext, ⟨hml, -⟩, hcl, -⟩ := hlcHead_eq_some.mp hhead
    obtain ⟨-, -, h19⟩ := Gleam.parts_of_hlc htext hml hcl
    rw [h19] at hdash
    exact ⟨node, hhead, hlen, hdash⟩

omit lawful in
/-- What is refused of the hybrid timestamps is refused of all forms. -/
theorem forms_and_not {text : String} {odd : Bool} :
    (isDigits text || (wideHlc text && !odd) || isIso8601 text) =
      ((isDigits text || wideHlc text || isIso8601 text) && !(wideHlc text && odd)) := by
  cases hwide : wideHlc text with
  | false => simp
  | true =>
    obtain ⟨node, hhead, -⟩ := (Option.any_eq_true _ _).mp hwide
    rw [isDigits_eq, isIso8601_eq, not_digits_of_hlcHead hhead, not_iso_of_hlcHead hhead]
    simp

omit lawful in
theorem timestampPatterns_eq (text : String) :
    Canonical.timestampPatterns text =
      ((isDigits text || wideHlc text || isIso8601 text) &&
        !(wideHlc text && innerDash text)) := by
  have hhlc : hlcPattern Char.toNat text.toList = isNativeHlc text := by
    rw [Bool.eq_iff_iff, isNativeHlc_iff]
    simp only [hlcPattern, Option.any_eq_true, Bool.and_eq_true, decide_eq_true_eq,
      List.all_eq_true, ne_eq, Char.toNat_inj]
    constructor
    · rintro ⟨node, hhead, hlen, hdash⟩
      exact ⟨node, hhead, hlen, fun hmem => hdash '-' hmem rfl⟩
    · rintro ⟨node, hhead, hlen, hdash⟩
      refine ⟨node, hhead, hlen, ?_⟩
      rintro c hc rfl
      exact hdash hc
  rw [Canonical.timestampPatterns, hhlc, ← isDigits_eq, ← isIso8601_eq, isNativeHlc_eq_wide,
    forms_and_not]

omit lawful in
/-- The literal of a safe integer is short. -/
theorem utf8ByteSize_repr {z : ℤ} (hzero : 0 ≤ z) (hmax : z ≤ maxSafeTimestampInteger) :
    z.repr.utf8ByteSize ≤ 256 := by
  obtain ⟨n, rfl⟩ := Int.eq_ofNat_of_zero_le hzero
  have hn : n < 10 ^ 16 := by
    simp only [maxSafeTimestampInteger] at hmax
    omega
  have hlength : n.repr.toList.length ≤ 16 := (Nat.length_repr_le_iff (by decide)).mpr hn
  have hascii : ∀ c ∈ n.repr.toList, c.toNat < 128 := by
    intro c hc
    rw [Decimal.toList_repr] at hc
    exact ascii_isDigit ((Decimal.canonical_toDigits n).2.1 c hc)
  show n.repr.utf8ByteSize ≤ 256
  rw [utf8ByteSize_of_lt hascii]
  omega

omit lawful in
theorem Go.isSafeJSONInteger_eq (text : String) :
    Go.isSafeJSONInteger numerals text =
      (!decide (256 < text.utf8ByteSize) && (numerals.setString text).any safeDouble) := by
  unfold Go.isSafeJSONInteger
  by_cases hsize : 256 < text.utf8ByteSize
  · simp [hsize]
  · cases numerals.setString text with
    | none => simp
    | some q => simp [hsize, safeDouble, Bool.and_comm, Bool.and_left_comm]

theorem Go.isTimestamp_eq (value : Json) :
    Go.isTimestamp numerals value =
      (lenientTimestamp numerals value && !Go.oddTimestamp numerals value) := by
  cases value with
  | number value =>
    cases value with
    | int z =>
      rw [Bool.eq_iff_iff]
      simp only [Go.isTimestamp, Go.isSafeJSONInteger_eq, numberText, lawful.setString_int,
        lenientTimestamp, doubled, Go.oddTimestamp, Bool.not_false, Bool.and_true,
        any_round_int lawful, Option.any_some, Bool.and_eq_true, safeDouble_int, Bool.not_eq_true',
        decide_eq_false_iff_not, not_lt]
      exact ⟨fun h => h.2, fun h => ⟨utf8ByteSize_repr h.1 h.2, h⟩⟩
    | float literal =>
      rw [Bool.eq_iff_iff]
      simp only [Go.isTimestamp, Go.isSafeJSONInteger_eq, numberText, lenientTimestamp, doubled,
        Go.oddTimestamp, Bool.and_eq_true, Bool.not_eq_true', Bool.or_eq_false_iff,
        decide_eq_false_iff_not, not_not]
      constructor
      · rintro ⟨hsize, hany⟩
        obtain ⟨q, hq, hsafe⟩ := (Option.any_eq_true _ _).mp hany
        have hround := round_safeDouble lawful hsafe
        obtain rfl := lawful.setString_exact hq
        rw [hround, hq]
        exact ⟨hsafe, hsize, rfl⟩
      · rintro ⟨hany, hsize, hset⟩
        rw [hset]
        exact ⟨hsize, hany⟩
  | string text => exact timestampPatterns_eq text
  | _ => rfl

theorem Java.isTimestamp_eq (value : Json) :
    Java.isTimestamp numerals value =
      (lenientTimestamp numerals value && !Java.oddTimestamp numerals value) := by
  have hsafe : ∀ q : ℚ, (if q < 0 ∨ maxSafeTimestampInteger < q then false else decide (q.den = 1)) =
      safeDouble q := by
    intro q
    rw [Bool.eq_iff_iff]
    simp only [safeDouble, Bool.and_eq_true, decide_eq_true_eq]
    split
    · next h =>
      refine ⟨fun hf => absurd hf (by simp), fun hq => ?_⟩
      rcases h with h | h
      · exact absurd hq.1.1 (not_le.mpr h)
      · exact absurd hq.1.2 (not_le.mpr h)
    · next h =>
      obtain ⟨hzero, hmax⟩ := not_or.mp h
      rw [decide_eq_true_eq]
      exact ⟨fun hden => ⟨⟨not_lt.mp hzero, not_lt.mp hmax⟩, hden⟩, fun hq => hq.2⟩
  cases value with
  | number value =>
    simp only [Java.isTimestamp, hsafe]
    cases value with
    | int z =>
      rw [Bool.eq_iff_iff, Java.decimalValue, safeDouble_int]
      simp only [lenientTimestamp, doubled, Java.oddTimestamp, Bool.not_false, Bool.and_true,
        any_round_int lawful]
    | float literal =>
      simp only [Java.decimalValue, lenientTimestamp, doubled, Java.oddTimestamp]
      by_cases h : numerals.round (numerals.exact literal) = some (numerals.exact literal)
      · simp [h]
      · have hunsafe : safeDouble (numerals.exact literal) = false := by
          rw [Bool.eq_false_iff]
          exact fun hs => h (round_safeDouble lawful hs)
        simp [h, hunsafe]
  | string text => exact timestampPatterns_eq text
  | _ => rfl

theorem Dart.isTimestamp_eq (value : Json) :
    Dart.isTimestamp numerals value =
      (lenientTimestamp numerals value && !Dart.oddTimestamp value) := by
  cases value with
  | number value =>
    simp only [Dart.oddTimestamp, Bool.not_false, Bool.and_true, lenientTimestamp, Dart.isTimestamp]
    have hdouble : ∀ value : Option ℚ, (value.any fun value : ℚ =>
        0 ≤ value && value ≤ maxSafeTimestampInteger && value.den = 1) = value.any safeDouble :=
      fun _ => rfl
    cases value with
    | int z =>
      rw [Bool.eq_iff_iff, Dart.decode, doubled]
      by_cases hrange : -(2 ^ 63) ≤ z ∧ z < 2 ^ 63
      · simp only [if_pos hrange, any_round_int lawful, Bool.and_eq_true, decide_eq_true_eq]
        exact ⟨fun h => h.1, fun h => ⟨h, round_safe lawful h.1 h.2⟩⟩
      · simp only [if_neg hrange, hdouble]
    | float literal =>
      simp only [Dart.decode, hdouble, doubled]
  | string text =>
    have htext := timestampPatterns_encode text
    simp only [Dart.isTimestamp, htext, lenientTimestamp, Dart.oddTimestamp, isNativeHlc_eq_wide,
      forms_and_not]
    cases hlong : longNode text with
    | false => simp
    | true =>
      obtain ⟨node, hhead, -⟩ := (Option.any_eq_true _ _).mp hlong
      rw [isDigits_eq, isIso8601_eq, not_digits_of_hlcHead hhead, not_iso_of_hlcHead hhead]
      cases wideHlc text <;> simp
  | _ => rfl

theorem Gleam.isTimestamp_eq {strings : GleamString} (hstrings : LawfulGleamString strings)
    (value : Json) :
    Gleam.isTimestamp numerals strings value =
      (lenientTimestamp numerals value && !Gleam.oddTimestamp strings value) := by
  cases value with
  | number value =>
    simp only [Gleam.oddTimestamp, Bool.not_false, Bool.and_true, lenientTimestamp]
    cases value with
    | int z =>
      rw [Bool.eq_iff_iff, doubled, any_round_int lawful]
      simp [Gleam.isTimestamp, Gleam.asInt]
    | float literal =>
      have hfloor : ∀ q : ℚ, (q.floor : ℚ) = q ↔ q.den = 1 := by
        intro q
        constructor
        · intro h
          rw [← h]
          exact Rat.den_intCast _
        · intro h
          rw [← Rat.coe_int_num_of_den_eq_one h, Rat.floor_intCast]
      simp only [Gleam.isTimestamp, Gleam.asInt, Gleam.asFloat, doubled]
      cases numerals.round (numerals.exact literal) with
      | none => rfl
      | some q => simp only [hfloor, Option.any_some, safeDouble]
  | string text =>
    simp only [Gleam.isTimestamp, Gleam.asInt, Gleam.asFloat, Gleam.asString, lenientTimestamp,
      Gleam.oddTimestamp, Gleam.isDigits_graphemes hstrings, ← isDigits_eq,
      Gleam.isNativeHlc_graphemes hstrings, Gleam.isIso8601_graphemes hstrings]
    have hforms := @forms_and_not text (!cutsNode strings text)
    rwa [Bool.not_not] at hforms
  | _ => rfl

theorem Go.isOk_eq (value : Json) :
    (Go.validateCanonical numerals value).isOk =
      (demanded numerals value && !Go.refuses numerals value) := by
  rw [Go.validateCanonical, Canonical.isOk_validateCanonical]
  exact envelopeShaped_eq (Go.any_isExactOne lawful) (Go.isTimestamp_eq lawful) value

theorem Java.isOk_eq (value : Json) :
    (Java.validateCanonical numerals value).isOk =
      (demanded numerals value && !Java.refuses numerals value) := by
  rw [Java.validateCanonical, Canonical.isOk_validateCanonical]
  exact envelopeShaped_eq (Java.any_isExactOne lawful) (Java.isTimestamp_eq lawful) value

theorem Dart.isOk_eq (value : Json) :
    (Dart.parseEnvelope numerals value).isOk =
      (demanded numerals value && !Dart.refuses value) := by
  rw [Dart.isOk_parseEnvelope]
  exact envelopeShaped_eq (Dart.any_isOne lawful) (Dart.isTimestamp_eq lawful) value

theorem Gleam.isOk_eq {strings : GleamString} (hstrings : LawfulGleamString strings)
    (value : Json) :
    (Gleam.validateCanonical numerals strings value).isOk =
      (demanded numerals value && !Gleam.refuses strings value) := by
  rw [Gleam.isOk_validateCanonical hstrings]
  exact envelopeShaped_eq (Gleam.decide_version lawful) (Gleam.isTimestamp_eq lawful hstrings) value

end

/-- All accept the document, or all refuse it. -/
def PortsAgree (numerals : Numerals) (strings : GleamString) (value : Json) : Prop :=
  (Go.validateCanonical numerals value).isOk = (Java.validateCanonical numerals value).isOk ∧
    (Java.validateCanonical numerals value).isOk = (Dart.parseEnvelope numerals value).isOk ∧
    (Dart.parseEnvelope numerals value).isOk =
      (Gleam.validateCanonical numerals strings value).isOk

/-- They agree where none refuses alone what all demand. -/
theorem ports_agree_iff {numerals : Numerals} (lawful : LawfulNumerals numerals)
    {strings : GleamString} (hstrings : LawfulGleamString strings) (value : Json) :
    PortsAgree numerals strings value ↔
      (demanded numerals value = true →
        Go.refuses numerals value = Java.refuses numerals value ∧
          Java.refuses numerals value = Dart.refuses value ∧
          Dart.refuses value = Gleam.refuses strings value) := by
  rw [PortsAgree, Go.isOk_eq lawful, Java.isOk_eq lawful, Dart.isOk_eq lawful,
    Gleam.isOk_eq lawful hstrings]
  cases demanded numerals value with
  | false => simp
  | true => simp

/-- The integers and 1.0, each its own double. -/
def plainNumeral (literal : String) : Option ℚ :=
  match readInt literal.toList with
  | some (z, []) => some z
  | some (1, ['.', '0']) => some 1
  | _ => none

theorem plainNumeral_repr (z : ℤ) : plainNumeral z.repr = some (z : ℚ) := by
  have htext : z.repr.toList = printInt z := by
    cases z with
    | ofNat n => exact Decimal.toList_repr n
    | negSucc n =>
      show ("-" ++ (n + 1).repr).toList = _
      rw [String.toList_append, Decimal.toList_repr]
      rfl
  have hread := readInt_printInt z (r := []) (by simp [Ends])
  rw [List.append_nil] at hread
  rw [plainNumeral, htext, hread]

def plainNumerals : Numerals where
  exact literal := (plainNumeral literal).getD 0
  round value := some value
  setString := plainNumeral

theorem lawful_plainNumerals : LawfulNumerals plainNumerals where
  round_int _ _ := rfl
  round_mono hle hp hq := by
    cases hp
    cases hq
    exact hle
  setString_exact h := (congrArg (·.getD 0) h).symm
  setString_int := plainNumeral_repr

/-- Every character is a grapheme. -/
def plainStrings : GleamString where
  graphemes text := text.toList.map String.singleton
  split text := (text.toList.splitOn '-').map String.ofList

theorem lawful_plainStrings : LawfulGleamString plainStrings where
  graphemes_join text := by
    simp [plainStrings, List.flatMap_map]
  graphemes_ascii _ _ := rfl
  split_join text := by
    simp [plainStrings, Function.comp_def, List.intercalate_splitOn]

theorem ports_agree_iff_deletion : PortsAgree plainNumerals plainStrings (oneDeletion (.int 1)) :=
  (ports_agree_iff lawful_plainNumerals lawful_plainStrings (oneDeletion (.int 1))).mpr
    fun _ => by decide

/-- The version 1.0 is the number one to three of them and no integer to the Gleam decoder. -/
theorem floatVersion_splits :
    ¬ PortsAgree plainNumerals plainStrings (oneDeletion (.float "1.0")) := by
  rintro ⟨-, -, h⟩
  rw [Dart.isOk_parseEnvelope, Gleam.isOk_validateCanonical lawful_plainStrings] at h
  revert h
  decide

end OptoSync.Ingest
