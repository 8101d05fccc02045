import OptoSync.CanonicalForm

/-!
# Canonical JSON of the adapter stream

`canonical_json_bytes` of `fmctl` and `CanonicalJSON` of the Go adapter SDK. A value is a JSON
document: an integer numeral is its integer, every other numeral (a fraction, an exponent, or `-0`)
its spelling. The Go function reads the document itself, and its decoder stops at a depth.
-/
namespace OptoSync.CanonicalJson

open CanonicalForm

/-- `number.is_i64() || number.is_u64()`. Other integers, and `-0`, are read as floats. -/
def integerNumber : JsonNumber → Option ℤ
  | .int value => if -2 ^ 63 ≤ value ∧ value < 2 ^ 64 then some value else none
  | .float _ => none

/-- `serde_json::to_string`. -/
def toString (v : Json) : String := Json.text (fun _ => false) v

def canonicalizeJson (v : Json) : Option Json := canonicalize integerNumber toString v

def canonicalJsonBytes (v : Json) : Option String := (canonicalizeJson v).map toString

/-! ## The Go SDK -/

namespace Go

/-- The characters that `json.Marshal` escapes besides the control characters. -/
def htmlEscaped (c : Char) : Bool :=
  c = '<' || c = '>' || c = '&' || c = '\u2028' || c = '\u2029'

def marshal (v : Json) : String := Json.text htmlEscaped v

def numberText : JsonNumber → String
  | .int value => String.ofList (Json.printInt value)
  | .float literal => literal

/-- `SetString` of a `big.Int` in base 10. -/
def setString (text : String) : Option ℤ :=
  match text.toList with
  | '-' :: cs => (Decimal.parseDigits cs).map fun n : ℕ => -(n : ℤ)
  | '+' :: cs => (Decimal.parseDigits cs).map fun n : ℕ => (n : ℤ)
  | cs => (Decimal.parseDigits cs).map fun n : ℕ => (n : ℤ)

def minInt64 : ℤ := -2 ^ 63
def maxUint64 : ℤ := 2 ^ 64 - 1

def canonicalNumber (number : JsonNumber) : Option ℤ :=
  let text := numberText number
  if text.toList.any fun c => ['.', 'e', 'E'].contains c then none
  else
    match setString text with
    | none => none
    | some integer =>
      if integer < 0 ∧ integer < minInt64 then none
      else if integer ≥ 0 ∧ integer > maxUint64 then none
      else some integer

def canonicalize (v : Json) : Option Json := CanonicalForm.canonicalize canonicalNumber marshal v

/-- `maxNestingDepth` of the decoder. -/
def maxNestingDepth : ℕ := 10000

def canonicalJSON (v : Json) : Option String :=
  if v.depth ≤ maxNestingDepth then (canonicalize v).map marshal else none

end Go

open Go (canonicalNumber htmlEscaped)

theorem faithful_text {escaped : Char → Bool} (h : Json.BasicPlane escaped) :
    Faithful (Json.text escaped) := fun _ _ hv hw heq => Json.text_inj h hv hw heq

theorem faithful_toString : Faithful toString :=
  faithful_text fun _ h => Bool.noConfusion h

theorem faithful_marshal : Faithful Go.marshal := by
  refine faithful_text fun c hc => ?_
  simp only [htmlEscaped, Bool.or_eq_true, decide_eq_true_eq] at hc
  obtain (((rfl | rfl) | rfl) | rfl) | rfl := hc <;> decide

theorem setString_printInt (z : ℤ) : Go.setString (String.ofList (Json.printInt z)) = some z := by
  unfold Go.setString
  rw [String.toList_ofList]
  cases z with
  | ofNat n =>
    have hm := Decimal.head_toDigits_ne (n := n) (c := '-') (by decide)
    have hp := Decimal.head_toDigits_ne (n := n) (c := '+') (by decide)
    rw [Json.printInt]
    split
    · rename_i cs heq
      simp [heq] at hm
    · rename_i cs heq
      simp [heq] at hp
    · rw [Decimal.parseDigits_toDigits]
      rfl
  | negSucc n =>
    simp only [Json.printInt, Decimal.parseDigits_toDigits]
    rfl

theorem printInt_plain (z : ℤ) :
    (Json.printInt z).any (fun c => ['.', 'e', 'E'].contains c) = false := by
  have hdigits : ∀ n, (Nat.toDigits 10 n).any (fun c => ['.', 'e', 'E'].contains c) = false := by
    intro n
    rw [List.any_eq_false]
    intro c hc
    have hdigit := (Decimal.canonical_toDigits n).2.1 c hc
    intro hmem
    simp only [List.contains_cons, List.contains_nil, Bool.or_false, Bool.or_eq_true,
      beq_iff_eq] at hmem
    obtain rfl | rfl | rfl := hmem <;> exact absurd hdigit (by decide)
  cases z with
  | ofNat n => exact hdigits n
  | negSucc n => simpa [Json.printInt] using hdigits (n + 1)

/-- The two rules differ on `-0` alone. -/
theorem canonicalNumber_int (z : ℤ) : canonicalNumber (.int z) = integerNumber (.int z) := by
  simp only [canonicalNumber, Go.numberText, String.toList_ofList, printInt_plain,
    setString_printInt, integerNumber, Go.minInt64, Go.maxUint64]
  norm_num
  split_ifs <;> first | rfl | omega

theorem canonicalNumber_fix {n : JsonNumber} {z : ℤ} (h : canonicalNumber n = some z) :
    canonicalNumber (.int z) = some z := by
  have hbounds : -2 ^ 63 ≤ z ∧ z < 2 ^ 64 := by
    simp only [canonicalNumber] at h
    split at h
    · cases h
    · split at h
      · cases h
      · split at h
        · cases h
        · split at h
          · cases h
          · rename_i integer _ hlow hhigh
            obtain rfl := Option.some.inj h
            simp only [Go.minInt64, Go.maxUint64] at hlow hhigh
            omega
  rw [canonicalNumber_int, integerNumber, if_pos hbounds]

theorem integerNumber_float (literal : String) : integerNumber (.float literal) = none := rfl

/-- A value of the adapter subset, with `-0` counted as an integer. -/
def InSubset (v : Json) : Prop := Admissible canonicalNumber toString v

theorem canonicalize_floatFree {p : Char → Bool} {key₁ key₂ : Json → String}
    (hkey : ∀ w : Json, w.floatFree = true → w.allChars p = true → key₁ w = key₂ w) {v : Json}
    (hfree : v.floatFree = true) (hchars : v.allChars p = true) :
    CanonicalForm.canonicalize integerNumber key₁ v =
      CanonicalForm.canonicalize canonicalNumber key₂ v :=
  canonicalize_congr (fun z => (canonicalNumber_int z).symm) hkey v hfree hchars

theorem accepted_go_iff (v : Json) : Accepted canonicalNumber Go.marshal v ↔ InSubset v := by
  have htransfers : Transfers canonicalNumber v := transfers (fun _ _ h => canonicalNumber_fix h) v
  rw [InSubset, ← accepted_iff faithful_toString]
  constructor
  · intro h
    exact (htransfers _ _ faithful_marshal faithful_toString h).1
  · intro h
    exact (htransfers _ _ faithful_toString faithful_marshal h).1

theorem allChars_true (v : Json) : v.allChars (fun _ => true) = true :=
  Json.allChars_of_forall v fun _ h => Bool.noConfusion h

/-- `fmctl` takes the same subset without `-0`. -/
theorem accepted_rust_iff (v : Json) :
    Accepted integerNumber toString v ↔ v.floatFree = true ∧ InSubset v := by
  rw [InSubset, ← accepted_iff faithful_toString]
  have hcongr : v.floatFree = true →
      (Accepted integerNumber toString v ↔ Accepted canonicalNumber toString v) := fun hfree =>
    (Accepted.congr (canonicalize_floatFree (fun _ _ _ => rfl) hfree (allChars_true v))).1
  constructor
  · intro h
    have hfree := floatFree_of_accepted integerNumber_float v h
    exact ⟨hfree, (hcongr hfree).mp h⟩
  · rintro ⟨hfree, h⟩
    exact (hcongr hfree).mpr h

theorem onlyInStrings_of_htmlEscaped {c : Char} (h : htmlEscaped c = true) :
    Json.OnlyInStrings c := by
  simp only [htmlEscaped, Bool.or_eq_true, decide_eq_true_eq] at h
  obtain (((rfl | rfl) | rfl) | rfl) | rfl := h <;> exact ⟨by decide, by decide, by decide⟩

/-- An escaped character of the value is in the text of `fmctl`, and in no text of the SDK. -/
theorem htmlFree_of_text_eq {v w : Json} (hv : v.floatFree = true) (hw : w.floatFree = true)
    (h : toString v = Go.marshal w) : v.allChars (fun c => !htmlEscaped c) = true := by
  refine Json.allChars_of_forall v fun c hc => ?_
  have hescaped : htmlEscaped c = true := by simpa using hc
  have honly := onlyInStrings_of_htmlEscaped hescaped
  have hprint : Json.print (fun _ => false) v = Json.print htmlEscaped w := String.ofList_injective h
  have hgo : c ∉ Json.print htmlEscaped w := by
    rw [Json.mem_print honly w hw, hescaped]
    simp
  rw [← hprint, Json.mem_print honly v hv] at hgo
  simpa using hgo

/-- Where the two functions answer alike: outside the subset; where a value with `-0`, which only
the SDK takes, is too deep for its decoder; and on values that are not too deep and have no
character that the SDK escapes. -/
theorem canonical_json_agree_iff (v : Json) :
    canonicalJsonBytes v = Go.canonicalJSON v ↔
      ¬InSubset v ∨ (v.floatFree = false ∧ Go.maxNestingDepth < v.depth) ∨
        (v.floatFree = true ∧ v.depth ≤ Go.maxNestingDepth ∧
          v.allChars (fun c => !htmlEscaped c) = true) := by
  have hrust := accepted_rust_iff v
  have hgo := accepted_go_iff v
  by_cases hsubset : InSubset v
  case neg =>
    have hr : canonicalizeJson v = none :=
      Option.not_isSome_iff_eq_none.mp fun h => hsubset (hrust.mp h).2
    have hg : Go.canonicalize v = none :=
      Option.not_isSome_iff_eq_none.mp fun h => hsubset (hgo.mp h)
    simp [canonicalJsonBytes, Go.canonicalJSON, hr, hg, hsubset]
  case pos =>
    have hg : Go.canonicalize v = some (form canonicalNumber Go.marshal v) :=
      (hgo.mpr hsubset).eq_form
    by_cases hfree : v.floatFree = true
    case neg =>
      -- only the SDK takes `-0`
      have hr : canonicalizeJson v = none :=
        Option.not_isSome_iff_eq_none.mp fun h => hfree (hrust.mp h).1
      have hfalse : v.floatFree = false := by simpa using hfree
      simp only [canonicalJsonBytes, Go.canonicalJSON, hr, hg, hsubset, hfalse, Option.map_none,
        Option.map_some]
      split_ifs with hdepth <;> simpa using hdepth
    case pos =>
      have haccepted := hrust.mpr ⟨hfree, hsubset⟩
      have hr : canonicalizeJson v = some (form integerNumber toString v) := haccepted.eq_form
      simp only [canonicalJsonBytes, Go.canonicalJSON, hr, hg, hsubset, hfree, Option.map_some]
      by_cases hdepth : v.depth ≤ Go.maxNestingDepth
      case neg => simp [hdepth]
      case pos =>
        simp only [hdepth, if_true, Option.some.injEq, not_true_eq_false, Bool.true_eq_false,
          false_and, true_and, false_or]
        constructor
        · intro h
          have hhtml := htmlFree_of_text_eq (form_floatFree v haccepted)
            (form_floatFree v (hgo.mpr hsubset)) h
          exact (allChars_form v haccepted).mp hhtml
        · intro hhtml
          have htext : ∀ w : Json, w.floatFree = true →
              w.allChars (fun c => !htmlEscaped c) = true → toString w = Go.marshal w :=
            fun w _ hw => Json.text_congr (fun c hc => by simpa using hc) hw
          have hforms := (Accepted.congr (canonicalize_floatFree htext hfree hhtml)).2
          rw [← hforms]
          exact htext _ (form_floatFree v haccepted) ((allChars_form v haccepted).mpr hhtml)

/-- The string `<`. -/
theorem marshal_escapes_less_than :
    canonicalJsonBytes (.string "<") = some "\"<\"" ∧
      Go.canonicalJSON (.string "<") = some "\"\\u003c\"" ∧
      ¬∀ v, canonicalJsonBytes v = Go.canonicalJSON v := by
  have hrust : canonicalJsonBytes (.string "<") = some "\"<\"" := by decide
  have hgo : Go.canonicalJSON (.string "<") = some "\"\\u003c\"" := by decide
  refine ⟨hrust, hgo, fun h => ?_⟩
  have heq := h (.string "<")
  rw [hrust, hgo] at heq
  exact absurd heq (by decide)

end OptoSync.CanonicalJson
