import OptoSync.JavaDecimal

/-!
# The digits of a JSON text

A scan that looks for digits other than those of ASCII where the grammar has digits: outside of the
strings and in their `\u` escapes. Between the two grammars it makes the difference.
-/
namespace OptoSync.StrictJson

open JsonGrammar Java

inductive Place
  | outside
  | inside
  | escape
  /-- So many digits of an escape follow after the next one. -/
  | hex (left : ℕ)
  deriving DecidableEq, Repr

/-- The place before so many digits of an escape. -/
def Place.beforeHex : ℕ → Place
  | 0 => .inside
  | left + 1 => .hex left

/-- The place after a unit, or none if the unit is a digit that ASCII does not have. -/
def step : Place → UInt16 → Option Place
  | .outside, u =>
    if u = unit '\"' then some .inside
    else if Character.isDigit u = true ∧ asciiDigit u = none then none
    else some .outside
  | .inside, u =>
    if u = unit '\"' then some .outside
    else if u = unit '\\' then some .escape
    else some .inside
  | .escape, u => if u = unit 'u' then some (.beforeHex 4) else some .inside
  | .hex left, u => if asciiHexDigit u = none then none else some (.beforeHex left)

def scan (place : Place) (text : List UInt16) : Option Place := text.foldlM step place

/-- Where the text writes a number or a code unit, it does so with the digits of ASCII. -/
def asciiDigits (text : List UInt16) : Bool := (scan .outside text).isSome

theorem digit_of_ascii {u : UInt16} {v : ℕ} (h : asciiDigit u = some v) :
    digits.digit u = some v := by
  unfold asciiDigit at h
  split at h
  · rename_i hu
    have hfind : zeros.find? (fun z => z ≤ u.toNat ∧ u.toNat < z + 10) = some 0x30 :=
      List.find?_cons_of_pos (by simp; omega)
    rw [show digits.digit u = decimalValue u from digit_ten u, decimalValue, hfind]
    exact h
  · simp at h

theorem decimalValue_letter {u : UInt16} (hlow : 0x3a ≤ u.toNat) (hhigh : u.toNat < 0x660) :
    decimalValue u = none := by
  rw [decimalValue, Option.map_eq_none_iff, List.find?_eq_none]
  intro z hz
  have hbounds : z = 0x30 ∨ 0x660 ≤ z := by
    revert hz z
    decide
  simp only [decide_eq_true_eq]
  omega

theorem hexDigit_of_ascii {u : UInt16} {v : ℕ} (h : asciiHexDigit u = some v) :
    digits.hexDigit u = some v := by
  have hdigit : ∀ {w : ℕ}, w < 16 → (decimalValue u).orElse (fun _ => letterValue u) = some w →
      digits.hexDigit u = some w := by
    intro w hw heq
    show ((decimalValue u).orElse fun _ => letterValue u).filter (· < 16) = some w
    rw [heq, Option.filter_some, if_pos (by simpa using hw)]
  unfold asciiHexDigit at h
  split_ifs at h with hnumber hupper hlower
  · have hascii : asciiDigit u = some v := by rw [asciiDigit, if_pos hnumber, h]
    have hvalue := (digit_ten u).symm.trans (digit_of_ascii hascii)
    exact hdigit ((decimalValue_lt hvalue).trans (by omega)) (by rw [hvalue]; rfl)
  · have hletter : letterValue u = some (u.toNat - 0x41 + 10) := by
      rw [letterValue, alphabets, List.find?_cons_of_pos (by simp; omega), Option.map_some]
    obtain rfl : u.toNat - 0x37 = v := Option.some.inj h
    refine hdigit (by omega) ?_
    rw [decimalValue_letter (by omega) (by omega), hletter]
    exact congrArg some (by omega)
  · have hletter : letterValue u = some (u.toNat - 0x61 + 10) := by
      rw [letterValue, alphabets, List.find?_cons_of_neg (by simp; omega),
        List.find?_cons_of_pos (by simp; omega), Option.map_some]
    obtain rfl : u.toNat - 0x57 = v := Option.some.inj h
    refine hdigit (by omega) ?_
    rw [decimalValue_letter (by omega) (by omega), hletter]
    exact congrArg some (by omega)

theorem step_digit {u : UInt16} {v : ℕ} (h : asciiDigit u = some v) :
    step .outside u = some .outside := by
  have hquote : u ≠ unit '\"' := BigDecimal.ne_of_digit (digit_of_ascii h) (by decide)
  rw [step, if_neg hquote, if_neg (by simp [h])]

theorem step_hex {u : UInt16} {v : ℕ} (h : asciiHexDigit u = some v) (left : ℕ) :
    step (.hex left) u = some (.beforeHex left) := by
  rw [step, if_neg (by simp [h])]

theorem ascii_of_step {u : UInt16} {v : ℕ} (h : digits.digit u = some v)
    (hstep : step .outside u ≠ none) : asciiDigit u = some v := by
  have hquote : u ≠ unit '\"' := BigDecimal.ne_of_digit h (by decide)
  cases hascii : asciiDigit u with
  | none => simp [step, hquote, isDigit_iff.mpr ⟨v, h⟩, hascii] at hstep
  | some w => rw [← h, digit_of_ascii hascii]

theorem asciiHex_of_step {u : UInt16} {v left : ℕ} (h : digits.hexDigit u = some v)
    (hstep : step (.hex left) u ≠ none) : asciiHexDigit u = some v := by
  cases hascii : asciiHexDigit u with
  | none => simp [step, hascii] at hstep
  | some w => rw [← h, hexDigit_of_ascii hascii]

theorem scan_cons (place : Place) (u : UInt16) (us : List UInt16) :
    scan place (u :: us) = (step place u).bind fun next => scan next us := by
  rw [scan, List.foldlM_cons]
  rfl

theorem scan_append (place : Place) (text rest : List UInt16) :
    scan place (text ++ rest) = (scan place text).bind fun next => scan next rest := by
  rw [scan, List.foldlM_append]
  rfl

/-- A part of a text, outside of strings before and after it, with digits of ASCII only. -/
def Plain (text : List UInt16) : Prop := scan .outside text = some .outside

instance (text : List UInt16) : Decidable (Plain text) :=
  inferInstanceAs (Decidable (scan .outside text = some .outside))

theorem Plain.append {text rest : List UInt16} (htext : Plain text) (hrest : Plain rest) :
    Plain (text ++ rest) := by
  rw [Plain, scan_append, htext]
  exact hrest

theorem Plain.cons {u : UInt16} {us : List UInt16} (hu : step .outside u = some .outside)
    (hus : Plain us) : Plain (u :: us) := by
  rw [Plain, scan_cons, hu]
  exact hus

theorem plain_nil : Plain [] := rfl

theorem plain_whitespace {w : List UInt16} (hw : Whitespace w) : Plain w := by
  induction w with
  | nil => exact plain_nil
  | cons u us ih =>
    refine .cons ?_ (ih fun v hv => hw v (List.mem_cons_of_mem u hv))
    have hu := hw u List.mem_cons_self
    simp only [isBlank, decide_eq_true_eq] at hu
    rcases hu with rfl | rfl | rfl | rfl <;> decide

theorem plain_structural {c : Char} (hc : step .outside (unit c) = some .outside)
    {text : List UInt16} (h : Structural c text) : Plain text := by
  obtain ⟨before, after, hbefore, hafter, rfl⟩ := h
  exact (plain_whitespace hbefore).append (.cons hc (plain_whitespace hafter))

theorem scan_left {place : Place} {text rest : List UInt16} (h : scan place (text ++ rest) ≠ none) :
    scan place text ≠ none := by
  intro hnone
  rw [scan_append, hnone] at h
  exact h rfl

theorem Plain.scan_right {text rest : List UInt16} (htext : Plain text)
    (h : scan .outside (text ++ rest) ≠ none) : scan .outside rest ≠ none := by
  rw [scan_append, htext] at h
  exact h

theorem plain_run {text : List UInt16} {values : List ℕ}
    (h : text.map asciiDigit = values.map some) : Plain text := by
  induction text generalizing values with
  | nil => exact plain_nil
  | cons u us ih =>
    cases values with
    | nil => simp at h
    | cons v vs =>
      obtain ⟨hu, hus⟩ := List.cons.inj h
      exact .cons (step_digit hu) (ih hus)

theorem run_of_ascii {text : List UInt16} {values : List ℕ} (h : DigitRun rfc8259 text values) :
    DigitRun digits text values ∧ Plain text := by
  obtain ⟨hne, hvalues⟩ := h
  refine ⟨⟨hne, ?_⟩, plain_run hvalues⟩
  rw [← hvalues]
  refine List.map_congr_left fun u hu => ?_
  obtain ⟨v, -, hv⟩ := List.mem_map.mp (hvalues ▸ List.mem_map_of_mem hu)
  exact (digit_of_ascii hv.symm).trans hv

theorem ascii_of_run {text : List UInt16} {values : List ℕ} (h : DigitRun digits text values)
    (hscan : scan .outside text ≠ none) : DigitRun rfc8259 text values := by
  refine ⟨h.1, ?_⟩
  replace h := h.2
  induction text generalizing values with
  | nil => exact h
  | cons u us ih =>
    cases values with
    | nil => simp at h
    | cons v vs =>
      obtain ⟨hu, hus⟩ := List.cons.inj h
      have hstep : step .outside u ≠ none := by
        intro hnone
        rw [scan_cons, hnone] at hscan
        exact hscan rfl
      have hascii := ascii_of_step hu hstep
      rw [scan_cons, step_digit hascii] at hscan
      exact congrArg₂ List.cons hascii (ih hscan hus)

theorem integer_of_ascii {text : List UInt16} {values : List ℕ}
    (h : IntegerPart rfc8259 text values) : IntegerPart digits text values ∧ Plain text := by
  cases h with
  | zero => exact ⟨.zero, by decide⟩
  | digits hrun hfirst => exact ⟨.digits (run_of_ascii hrun).1 hfirst, (run_of_ascii hrun).2⟩

theorem ascii_of_integer {text : List UInt16} {values : List ℕ} (h : IntegerPart digits text values)
    (hscan : scan .outside text ≠ none) : IntegerPart rfc8259 text values := by
  cases h with
  | zero => exact .zero
  | digits hrun hfirst => exact .digits (ascii_of_run hrun hscan) hfirst

theorem fraction_of_ascii {text : List UInt16} {values : List ℕ}
    (h : FractionPart rfc8259 text values) : FractionPart digits text values ∧ Plain text := by
  cases h with
  | absent => exact ⟨.absent, plain_nil⟩
  | present hrun => exact ⟨.present (run_of_ascii hrun).1, .cons (by decide) (run_of_ascii hrun).2⟩

theorem plain_point : Plain [unit '.'] := by decide

theorem ascii_of_fraction {text : List UInt16} {values : List ℕ}
    (h : FractionPart digits text values) (hscan : scan .outside text ≠ none) :
    FractionPart rfc8259 text values := by
  cases h with
  | absent => exact .absent
  | present hrun => exact .present (ascii_of_run hrun (plain_point.scan_right hscan))

theorem plain_sign {text : List UInt16} {negative : Bool} (h : Sign text negative) : Plain text := by
  cases h with
  | absent => exact plain_nil
  | plus => decide
  | minus => decide

theorem plain_mark {mark : UInt16} (h : mark = unit 'e' ∨ mark = unit 'E') : Plain [mark] := by
  rcases h with rfl | rfl <;> decide

theorem exponent_of_ascii {text : List UInt16} {exponent : ℤ}
    (h : ExponentPart rfc8259 text exponent) : ExponentPart digits text exponent ∧ Plain text := by
  cases h with
  | absent => exact ⟨.absent, plain_nil⟩
  | present hmark hsign hrun =>
    refine ⟨.present hmark hsign (run_of_ascii hrun).1, ?_⟩
    exact (plain_mark hmark).append ((plain_sign hsign).append (run_of_ascii hrun).2)

theorem ascii_of_exponent {text : List UInt16} {exponent : ℤ}
    (h : ExponentPart digits text exponent) (hscan : scan .outside text ≠ none) :
    ExponentPart rfc8259 text exponent := by
  cases h with
  | absent => exact .absent
  | present hmark hsign hrun =>
    have hrest := (plain_sign hsign).scan_right ((plain_mark hmark).scan_right hscan)
    exact .present hmark hsign (ascii_of_run hrun hrest)

theorem plain_minus (negative : Bool) : Plain (minus negative) := by
  cases negative <;> decide

theorem number_of_ascii {text : List UInt16} {n : Numeral} (h : NumberText rfc8259 text n) :
    NumberText digits text n ∧ Plain text := by
  obtain ⟨hinteger, hfraction, hexponent⟩ := h
  obtain ⟨hinteger, hi⟩ := integer_of_ascii hinteger
  obtain ⟨hfraction, hf⟩ := fraction_of_ascii hfraction
  obtain ⟨hexponent, he⟩ := exponent_of_ascii hexponent
  exact ⟨.number hinteger hfraction hexponent, (plain_minus _).append (hi.append (hf.append he))⟩

theorem ascii_of_number {text : List UInt16} {n : Numeral} (h : NumberText digits text n)
    (hscan : scan .outside text ≠ none) : NumberText rfc8259 text n := by
  obtain ⟨hinteger, hfraction, hexponent⟩ := h
  have hscan := (plain_minus _).scan_right hscan
  have hinteger := ascii_of_integer hinteger (scan_left hscan)
  have hscan := (integer_of_ascii hinteger).2.scan_right hscan
  have hfraction := ascii_of_fraction hfraction (scan_left hscan)
  have hscan := (fraction_of_ascii hfraction).2.scan_right hscan
  exact .number hinteger hfraction (ascii_of_exponent hexponent hscan)

theorem step_inside {u : UInt16} (hquote : u ≠ unit '\"') (hslash : u ≠ unit '\\') :
    step .inside u = some .inside := by
  rw [step, if_neg hquote, if_neg hslash]

theorem step_short {u v : UInt16} (h : shortEscape u = some v) : step .escape u = some .inside := by
  have hu : u ≠ unit 'u' := by
    have hnone : shortEscape (unit 'u') = none := by decide
    intro heq
    rw [heq, hnone] at h
    simp at h
  rw [step, if_neg hu]

theorem escape_of_ascii {text : List UInt16} {v : UInt16} (h : Escape rfc8259 text v) :
    Escape digits text v ∧ scan .escape text = some .inside := by
  cases h with
  | short h => exact ⟨.short h, by rw [scan_cons, step_short h]; rfl⟩
  | hex ha hb hc he =>
    refine ⟨.hex (hexDigit_of_ascii ha) (hexDigit_of_ascii hb) (hexDigit_of_ascii hc)
      (hexDigit_of_ascii he), ?_⟩
    have hu : step .escape (unit 'u') = some (.hex 3) := by decide
    simp only [scan_cons, hu, step_hex ha, step_hex hb, step_hex hc, step_hex he, Option.bind_some,
      Place.beforeHex]
    rfl

theorem ascii_of_escape {text : List UInt16} {v : UInt16} (h : Escape digits text v)
    (hscan : scan .escape text ≠ none) : Escape rfc8259 text v := by
  have hhead : ∀ {left : ℕ} {u : UInt16} {us : List UInt16},
      scan (.hex left) (u :: us) ≠ none → step (.hex left) u ≠ none := by
    intro left u us h hnone
    rw [scan_cons, hnone] at h
    exact h rfl
  cases h with
  | short h => exact .short h
  | hex ha hb hc he =>
    have hu : step .escape (unit 'u') = some (.hex 3) := by decide
    rw [scan_cons, hu, Option.bind_some] at hscan
    have ha := asciiHex_of_step ha (hhead hscan)
    rw [scan_cons, step_hex ha, Option.bind_some, Place.beforeHex] at hscan
    have hb := asciiHex_of_step hb (hhead hscan)
    rw [scan_cons, step_hex hb, Option.bind_some, Place.beforeHex] at hscan
    have hc := asciiHex_of_step hc (hhead hscan)
    rw [scan_cons, step_hex hc, Option.bind_some, Place.beforeHex] at hscan
    exact .hex ha hb hc (asciiHex_of_step he (hhead hscan))

theorem characters_of_ascii {text value : List UInt16} (h : Characters rfc8259 text value) :
    Characters digits text value ∧ scan .inside text = some .inside := by
  induction h with
  | nil => exact ⟨.nil, rfl⟩
  | unescaped hlow hquote hslash _ ih =>
    refine ⟨.unescaped hlow hquote hslash ih.1, ?_⟩
    rw [scan_cons, step_inside hquote hslash]
    exact ih.2
  | escaped hescape _ ih =>
    obtain ⟨hescape, hscan⟩ := escape_of_ascii hescape
    refine ⟨.escaped hescape ih.1, ?_⟩
    have hslash : step .inside (unit '\\') = some .escape := by decide
    rw [scan_cons, hslash, Option.bind_some, scan_append, hscan]
    exact ih.2

theorem ascii_of_characters {text value : List UInt16} (h : Characters digits text value)
    (hscan : scan .inside text ≠ none) : Characters rfc8259 text value := by
  induction h with
  | nil => exact .nil
  | unescaped hlow hquote hslash _ ih =>
    rw [scan_cons, step_inside hquote hslash] at hscan
    exact .unescaped hlow hquote hslash (ih hscan)
  | escaped hescape _ ih =>
    have hslash : step .inside (unit '\\') = some .escape := by decide
    rw [scan_cons, hslash, Option.bind_some] at hscan
    have hescape := ascii_of_escape hescape (scan_left hscan)
    rw [scan_append, (escape_of_ascii hescape).2] at hscan
    exact .escaped hescape (ih hscan)

theorem string_of_ascii {text value : List UInt16} (h : StringText rfc8259 text value) :
    StringText digits text value ∧ Plain text := by
  obtain ⟨hchars⟩ := h
  obtain ⟨hchars, hscan⟩ := characters_of_ascii hchars
  refine ⟨.quoted hchars, ?_⟩
  have hquote : step .outside (unit '\"') = some .inside := by decide
  rw [Plain, scan_cons, hquote, Option.bind_some, scan_append, hscan]
  decide

theorem ascii_of_string {text value : List UInt16} (h : StringText digits text value)
    (hscan : scan .outside text ≠ none) : StringText rfc8259 text value := by
  obtain ⟨hchars⟩ := h
  have hquote : step .outside (unit '\"') = some .inside := by decide
  rw [scan_cons, hquote, Option.bind_some] at hscan
  exact .quoted (ascii_of_characters hchars (scan_left hscan))

mutual

theorem value_of_ascii {text : List UInt16} {tree : Value Numeral} :
    ValueText rfc8259 text tree → ValueText digits text tree ∧ Plain text
  | .null => ⟨.null, by decide⟩
  | .true => ⟨.true, by decide⟩
  | .false => ⟨.false, by decide⟩
  | .number h => ⟨.number (number_of_ascii h).1, (number_of_ascii h).2⟩
  | .string h => ⟨.string (string_of_ascii h).1, (string_of_ascii h).2⟩
  | .emptyArray ho hc => ⟨.emptyArray ho hc,
      (plain_structural (by decide) ho).append (plain_structural (by decide) hc)⟩
  | .array ho hitems hc => ⟨.array ho (items_of_ascii hitems).1 hc,
      (plain_structural (by decide) ho).append
        ((items_of_ascii hitems).2.append (plain_structural (by decide) hc))⟩
  | .emptyObject ho hc => ⟨.emptyObject ho hc,
      (plain_structural (by decide) ho).append (plain_structural (by decide) hc)⟩
  | .object ho hmembers hc => ⟨.object ho (members_of_ascii hmembers).1 hc,
      (plain_structural (by decide) ho).append
        ((members_of_ascii hmembers).2.append (plain_structural (by decide) hc))⟩

theorem items_of_ascii {text : List UInt16} {trees : List (Value Numeral)} :
    ItemsText rfc8259 text trees → ItemsText digits text trees ∧ Plain text
  | .last hv => ⟨.last (value_of_ascii hv).1, (value_of_ascii hv).2⟩
  | .more hv hs hvs => ⟨.more (value_of_ascii hv).1 hs (items_of_ascii hvs).1,
      (value_of_ascii hv).2.append
        ((plain_structural (by decide) hs).append (items_of_ascii hvs).2)⟩

theorem members_of_ascii {text : List UInt16} {members : List (List UInt16 × Value Numeral)} :
    MembersText rfc8259 text members → MembersText digits text members ∧ Plain text
  | .last hm => ⟨.last (member_of_ascii hm).1, (member_of_ascii hm).2⟩
  | .more hm hs hms => ⟨.more (member_of_ascii hm).1 hs (members_of_ascii hms).1,
      (member_of_ascii hm).2.append
        ((plain_structural (by decide) hs).append (members_of_ascii hms).2)⟩

theorem member_of_ascii {text : List UInt16} {member : List UInt16 × Value Numeral} :
    MemberText rfc8259 text member → MemberText digits text member ∧ Plain text
  | .member hname hs hv => ⟨.member (string_of_ascii hname).1 hs (value_of_ascii hv).1,
      (string_of_ascii hname).2.append
        ((plain_structural (by decide) hs).append (value_of_ascii hv).2)⟩

end

mutual

theorem ascii_of_value {text : List UInt16} {tree : Value Numeral}
    (h : ValueText digits text tree) (hscan : scan .outside text ≠ none) :
    ValueText rfc8259 text tree := by
  cases h with
  | null => exact .null
  | true => exact .true
  | false => exact .false
  | number h => exact .number (ascii_of_number h hscan)
  | string h => exact .string (ascii_of_string h hscan)
  | emptyArray ho hc => exact .emptyArray ho hc
  | array ho hitems hc =>
    have hscan := (plain_structural (by decide) ho).scan_right hscan
    exact .array ho (ascii_of_items hitems (scan_left hscan)) hc
  | emptyObject ho hc => exact .emptyObject ho hc
  | object ho hmembers hc =>
    have hscan := (plain_structural (by decide) ho).scan_right hscan
    exact .object ho (ascii_of_members hmembers (scan_left hscan)) hc

theorem ascii_of_items {text : List UInt16} {trees : List (Value Numeral)}
    (h : ItemsText digits text trees) (hscan : scan .outside text ≠ none) :
    ItemsText rfc8259 text trees := by
  cases h with
  | last hv => exact .last (ascii_of_value hv hscan)
  | more hv hs hvs =>
    have hv := ascii_of_value hv (scan_left hscan)
    have hscan := (value_of_ascii hv).2.scan_right hscan
    have hscan := (plain_structural (by decide) hs).scan_right hscan
    exact .more hv hs (ascii_of_items hvs hscan)

theorem ascii_of_members {text : List UInt16} {members : List (List UInt16 × Value Numeral)}
    (h : MembersText digits text members) (hscan : scan .outside text ≠ none) :
    MembersText rfc8259 text members := by
  cases h with
  | last hm => exact .last (ascii_of_member hm hscan)
  | more hm hs hms =>
    have hm := ascii_of_member hm (scan_left hscan)
    have hscan := (member_of_ascii hm).2.scan_right hscan
    have hscan := (plain_structural (by decide) hs).scan_right hscan
    exact .more hm hs (ascii_of_members hms hscan)

theorem ascii_of_member {text : List UInt16} {member : List UInt16 × Value Numeral}
    (h : MemberText digits text member) (hscan : scan .outside text ≠ none) :
    MemberText rfc8259 text member := by
  cases h with
  | member hname hs hv =>
    have hname := ascii_of_string hname (scan_left hscan)
    have hscan := (string_of_ascii hname).2.scan_right hscan
    have hscan := (plain_structural (by decide) hs).scan_right hscan
    exact .member hname hs (ascii_of_value hv hscan)

end

/-- A JSON text is one with the digits of Java that has no others than those of ASCII. -/
theorem jsonText_iff {text : List UInt16} {tree : Value Numeral} :
    JsonText rfc8259 text tree ↔ JsonText digits text tree ∧ asciiDigits text = true := by
  constructor
  · intro h
    obtain ⟨hbefore, hv, hafter⟩ := h
    obtain ⟨hv, hplain⟩ := value_of_ascii hv
    have hall := (plain_whitespace hbefore).append (hplain.append (plain_whitespace hafter))
    refine ⟨.text hbefore hv hafter, ?_⟩
    rw [asciiDigits, hall]
    rfl
  · rintro ⟨h, hscan⟩
    obtain ⟨hbefore, hv, hafter⟩ := h
    have hscan := (plain_whitespace hbefore).scan_right (Option.isSome_iff_ne_none.mp hscan)
    exact .text hbefore (ascii_of_value hv (scan_left hscan)) hafter

end OptoSync.StrictJson
