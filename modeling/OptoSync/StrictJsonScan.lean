import OptoSync.StrictJsonDecoder

/-!
# The scanners of the strict JSON decoder

What the loops over single characters take from a text: blanks, digits, numerals and strings, each
against its rule of the grammar. The digits are those of `java.lang.Character`.
-/
namespace OptoSync.StrictJson

open JsonGrammar Java

theorem bind_eq_ok {α β : Type} {x : Except Failure α} {f : α → Except Failure β} {b : β} :
    (x >>= f) = .ok b ↔ ∃ a, x = .ok a ∧ f a = .ok b := by
  cases x with
  | error e => simp [bind, Except.bind]
  | ok a => simp [bind, Except.bind]

theorem map_eq_ok {α β : Type} {x : Except Failure α} {f : α → β} {b : β} :
    x.map f = .ok b ↔ ∃ a, x = .ok a ∧ f a = b := by
  cases x with
  | error e => simp [Except.map]
  | ok a => simp [Except.map]

/-- The fuel was enough for this result. -/
def Settles {α : Type} (x : Except Failure α) : Prop := x ≠ .error .exhausted

@[simp] theorem settles_ok {α : Type} (a : α) : Settles (.ok a : Except Failure α) := by
  simp [Settles]

theorem Settles.bind {α β : Type} {x : Except Failure α} {f : α → Except Failure β} (hx : Settles x)
    (hf : ∀ a, x = .ok a → Settles (f a)) : Settles (x >>= f) := by
  cases x with
  | error e => simpa [Settles, Bind.bind, Except.bind] using hx
  | ok a => exact hf a rfl

theorem Settles.map {α β : Type} {x : Except Failure α} {f : α → β} (hx : Settles x) :
    Settles (x.map f) := by
  cases x with
  | error e => simpa [Settles, Except.map] using hx
  | ok a => simp [Except.map]

section
variable {input : List UInt16}

@[simp] theorem error_ne_ok {α : Type} {message : String} {rest : List UInt16} {a : α} :
    error input message rest ≠ .ok a := by
  simp [error]

@[simp] theorem settles_error {α : Type} (message : String) (rest : List UInt16) :
    Settles (error input message rest : Except Failure α) := by
  simp [Settles, error]

theorem tryConsume_eq_some {c : Char} {rest r : List UInt16} :
    tryConsume c rest = some r ↔ rest = unit c :: r := by
  cases rest with
  | nil => simp [tryConsume]
  | cons u us =>
    rw [tryConsume]
    split
    · rename_i hu
      simp [hu]
    · rename_i hu
      simp [hu]

theorem tryConsume_eq_none {c : Char} {rest : List UInt16} :
    tryConsume c rest = none ↔ rest.head? ≠ some (unit c) := by
  cases rest with
  | nil => simp [tryConsume]
  | cons u us => simp [tryConsume]

theorem consume_eq_ok {c : Char} {rest r : List UInt16} :
    consume input c rest = .ok r ↔ rest = unit c :: r := by
  cases rest with
  | nil => simp [consume]
  | cons u us =>
    rw [consume]
    split
    · rename_i hu
      simp [hu]
    · rename_i hu
      simp [hu]

theorem settles_consume (c : Char) (rest : List UInt16) : Settles (consume input c rest) := by
  cases rest with
  | nil => exact settles_error _ _
  | cons u us =>
    rw [consume]
    split
    · exact settles_ok _
    · exact settles_error _ _

theorem exists_skipWhitespace (rest : List UInt16) :
    ∃ w, Whitespace w ∧ rest = w ++ skipWhitespace rest :=
  ⟨rest.takeWhile isBlank, fun _ hu => List.mem_takeWhile_imp hu,
    List.takeWhile_append_dropWhile.symm⟩

theorem skipWhitespace_append {w : List UInt16} (hw : Whitespace w) (rest : List UInt16) :
    skipWhitespace (w ++ rest) = skipWhitespace rest :=
  List.dropWhile_append_of_pos hw

theorem skipWhitespace_cons {u : UInt16} (hu : isBlank u = false) (us : List UInt16) :
    skipWhitespace (u :: us) = u :: us := by
  simp [skipWhitespace, hu]

theorem skipWhitespace_idem (rest : List UInt16) :
    skipWhitespace (skipWhitespace rest) = skipWhitespace rest :=
  List.dropWhile_idempotent _ rest

theorem length_skipWhitespace_le (rest : List UInt16) :
    (skipWhitespace rest).length ≤ rest.length := by
  obtain ⟨w, -, h⟩ := exists_skipWhitespace rest
  have hlength := congrArg List.length h
  rw [List.length_append] at hlength
  omega

theorem isDigit_all_iff {text : List UInt16} :
    (∀ u ∈ text, Character.isDigit u = true) ↔
      ∃ values : List ℕ, text.map digits.digit = values.map some := by
  constructor
  · intro h
    induction text with
    | nil => exact ⟨[], rfl⟩
    | cons u us ih =>
      obtain ⟨v, hv⟩ := isDigit_iff.mp (h u List.mem_cons_self)
      obtain ⟨vs, hvs⟩ := ih fun w hw => h w (List.mem_cons_of_mem u hw)
      exact ⟨v :: vs, by rw [List.map_cons, List.map_cons, hv, hvs]⟩
  · intro h u hu
    obtain ⟨values, hvalues⟩ := h
    have hmem : digits.digit u ∈ values.map some := hvalues ▸ List.mem_map_of_mem hu
    obtain ⟨v, -, hv⟩ := List.mem_map.mp hmem
    exact isDigit_iff.mpr ⟨v, hv.symm⟩

theorem ends_dropWhile (rest : List UInt16) :
    Ends digits.digit (rest.dropWhile Character.isDigit) := by
  intro u hu
  have hhead := List.head?_dropWhile_not Character.isDigit rest
  rw [Option.mem_def.mp hu] at hhead
  exact isDigit_eq_false.mp (by simpa using hhead)

theorem dropWhile_ends {rest : List UInt16} (h : Ends digits.digit rest) :
    rest.dropWhile Character.isDigit = rest := by
  cases rest with
  | nil => rfl
  | cons u us => rw [List.dropWhile_cons_of_neg (by simp [isDigit_eq_false.mpr (h u rfl)])]

theorem requireDigits_eq_ok {rest r : List UInt16} :
    requireDigits input rest = .ok r ↔
      ∃ text values, DigitRun digits text values ∧ Ends digits.digit r ∧ rest = text ++ r := by
  unfold requireDigits
  have hsplit := List.takeWhile_append_dropWhile (p := Character.isDigit) (l := rest)
  constructor
  · intro h
    dsimp only at h
    split at h
    · simp at h
    · rename_i hlength
      cases h
      obtain ⟨values, hvalues⟩ := isDigit_all_iff.mp fun u hu => List.mem_takeWhile_imp hu
      refine ⟨_, values, ⟨?_, hvalues⟩, ends_dropWhile rest, hsplit.symm⟩
      intro hnil
      rw [hnil, List.nil_append] at hsplit
      exact hlength (congrArg List.length hsplit)
  · rintro ⟨text, values, ⟨hne, hvalues⟩, hr, rfl⟩
    have hstop : (text ++ r).dropWhile Character.isDigit = r := by
      rw [List.dropWhile_append_of_pos (isDigit_all_iff.mpr ⟨values, hvalues⟩), dropWhile_ends hr]
    dsimp only
    rw [hstop, if_neg]
    simpa using hne

theorem settles_requireDigits (rest : List UInt16) : Settles (requireDigits input rest) := by
  unfold requireDigits
  dsimp only
  split
  · exact settles_error _ _
  · exact settles_ok _

/-- What may follow a numeral: nothing that would continue it. -/
def Follows (rest : List UInt16) : Prop :=
  ∀ u ∈ rest.head?, digits.digit u = none ∧ u ≠ unit '.' ∧ u ≠ unit 'e' ∧ u ≠ unit 'E'

theorem Follows.ends {rest : List UInt16} (h : Follows rest) : Ends digits.digit rest :=
  fun u hu => (h u hu).1

theorem scanInteger_eq_ok {rest r : List UInt16} :
    scanInteger input rest = .ok r ↔
      ∃ text values, IntegerPart digits text values ∧ Ends digits.digit r ∧ rest = text ++ r := by
  unfold scanInteger
  cases hzero : tryConsume '0' rest with
  | none =>
    have hhead := tryConsume_eq_none.mp hzero
    dsimp only
    rw [requireDigits_eq_ok]
    constructor
    · rintro ⟨text, values, hrun, hr, rfl⟩
      refine ⟨text, values, .digits hrun ?_, hr, rfl⟩
      rwa [List.head?_append_of_ne_nil _ hrun.1] at hhead
    · rintro ⟨text, values, hinteger, hr, rfl⟩
      cases hinteger with
      | zero => exact absurd rfl hhead
      | digits hrun => exact ⟨text, values, hrun, hr, rfl⟩
  | some rest' =>
    obtain rfl := tryConsume_eq_some.mp hzero
    have hends : rest'.head?.any Character.isDigit = false ↔ Ends digits.digit rest' := by
      cases rest' with
      | nil => simp [Ends]
      | cons u us => simp [Ends, isDigit_eq_false]
    dsimp only
    constructor
    · intro h
      split at h
      · simp at h
      · rename_i hdigit
        cases h
        exact ⟨_, _, .zero, hends.mp (by simpa using hdigit), rfl⟩
    · rintro ⟨text, values, hinteger, hr, heq⟩
      cases hinteger with
      | zero =>
        obtain rfl : rest' = r := (List.cons.inj heq).2
        rw [hends.mpr hr]
        rfl
      | digits hrun hfirst =>
        obtain ⟨u, us, v, rfl, hu⟩ := BigDecimal.exists_digit hrun.1 hrun.2
        have hzero' : unit '0' = u := (List.cons.inj heq).1
        exact absurd (by rw [hzero']; rfl) hfirst

theorem scanFraction_sound {rest r : List UInt16} (h : scanFraction input rest = .ok r) :
    ∃ text values, FractionPart digits text values ∧ rest = text ++ r := by
  unfold scanFraction at h
  cases hpoint : tryConsume '.' rest with
  | none =>
    rw [hpoint] at h
    cases h
    exact ⟨[], [], .absent, rfl⟩
  | some rest' =>
    obtain rfl := tryConsume_eq_some.mp hpoint
    rw [hpoint] at h
    obtain ⟨text, values, hrun, -, rfl⟩ := requireDigits_eq_ok.mp h
    exact ⟨_, values, .present hrun, rfl⟩

theorem scanFraction_complete {f rest : List UInt16} {fraction : List ℕ}
    (hf : FractionPart digits f fraction) (hends : Ends digits.digit rest)
    (hpoint : rest.head? ≠ some (unit '.')) : scanFraction input (f ++ rest) = .ok rest := by
  unfold scanFraction
  cases hf with
  | absent => rw [List.nil_append, tryConsume_eq_none.mpr hpoint]
  | present hrun =>
    rw [List.cons_append, tryConsume_eq_some.mpr rfl]
    exact requireDigits_eq_ok.mpr ⟨_, _, hrun, hends, rfl⟩

/-- The optional sign of an exponent, before something that is no sign. -/
theorem tryConsume_sign {sign text : List UInt16} {negative : Bool} (hsign : Sign sign negative)
    (hplus : text.head? ≠ some (unit '+')) (hminus : text.head? ≠ some (unit '-')) :
    ((tryConsume '+' (sign ++ text)).or (tryConsume '-' (sign ++ text))).getD (sign ++ text) =
      text := by
  cases hsign with
  | absent =>
    rw [List.nil_append, tryConsume_eq_none.mpr hplus, tryConsume_eq_none.mpr hminus]
    rfl
  | plus => rfl
  | minus => rfl

theorem exists_sign (rest : List UInt16) :
    ∃ sign negative, Sign sign negative ∧
      rest = sign ++ ((tryConsume '+' rest).or (tryConsume '-' rest)).getD rest := by
  cases hplus : tryConsume '+' rest with
  | some r =>
    obtain rfl := tryConsume_eq_some.mp hplus
    exact ⟨_, _, .plus, rfl⟩
  | none =>
    cases hminus : tryConsume '-' rest with
    | some r =>
      obtain rfl := tryConsume_eq_some.mp hminus
      exact ⟨_, _, .minus, rfl⟩
    | none => exact ⟨_, _, .absent, rfl⟩

/-- The mark of an exponent, and what follows it. -/
theorem tryConsume_mark {rest r : List UInt16} :
    (tryConsume 'e' rest).or (tryConsume 'E' rest) = some r ↔
      ∃ mark, (mark = unit 'e' ∨ mark = unit 'E') ∧ rest = mark :: r := by
  cases rest with
  | nil => simp [tryConsume]
  | cons u us =>
    have hne : unit 'E' ≠ unit 'e' := by decide
    by_cases he : u = unit 'e'
    · simp [tryConsume, he]
    · by_cases hE : u = unit 'E'
      · simp [tryConsume, hE, hne]
      · simp [tryConsume, he, hE]

theorem scanExponent_sound {rest r : List UInt16} (h : scanExponent input rest = .ok r) :
    ∃ text exponent, ExponentPart digits text exponent ∧ rest = text ++ r := by
  unfold scanExponent at h
  cases hconsume : (tryConsume 'e' rest).or (tryConsume 'E' rest) with
  | none =>
    rw [hconsume] at h
    cases h
    exact ⟨[], 0, .absent, rfl⟩
  | some rest' =>
    rw [hconsume] at h
    obtain ⟨mark, hmark, rfl⟩ := tryConsume_mark.mp hconsume
    obtain ⟨text, values, hrun, -, hrest⟩ := requireDigits_eq_ok.mp h
    obtain ⟨sign, negative, hsign, hsplit⟩ := exists_sign rest'
    rw [hrest] at hsplit
    refine ⟨_, _, .present hmark hsign hrun, ?_⟩
    rw [hsplit, List.cons_append, List.append_assoc]

theorem scanExponent_complete {e rest : List UInt16} {exponent : ℤ}
    (he : ExponentPart digits e exponent) (hrest : Follows rest) :
    scanExponent input (e ++ rest) = .ok rest := by
  unfold scanExponent
  cases he with
  | absent =>
    have hnone : (tryConsume 'e' rest).or (tryConsume 'E' rest) = none := by
      rw [Option.or_eq_none_iff, tryConsume_eq_none, tryConsume_eq_none]
      exact ⟨fun h => (hrest _ h).2.2.1 rfl, fun h => (hrest _ h).2.2.2 rfl⟩
    rw [List.nil_append, hnone]
  | @present mark sign text negative values hmark hsign hrun =>
    obtain ⟨u, us, v, rfl, hu⟩ := BigDecimal.exists_digit hrun.1 hrun.2
    have hplus : u ≠ unit '+' := BigDecimal.ne_of_digit hu (by decide)
    have hminus : u ≠ unit '-' := BigDecimal.ne_of_digit hu (by decide)
    rw [List.cons_append, List.append_assoc, tryConsume_mark.mpr ⟨mark, hmark, rfl⟩]
    dsimp only
    rw [tryConsume_sign hsign (by simpa using hplus) (by simpa using hminus)]
    exact requireDigits_eq_ok.mpr ⟨_, _, hrun, hrest.ends, rfl⟩

theorem tryConsume_minus (negative : Bool) {text : List UInt16}
    (htext : text.head? ≠ some (unit '-')) :
    (tryConsume '-' (minus negative ++ text)).getD (minus negative ++ text) = text := by
  cases negative with
  | true => rfl
  | false =>
    rw [minus, if_neg (by decide), List.nil_append, tryConsume_eq_none.mpr htext]
    rfl

theorem exists_minus (rest : List UInt16) :
    ∃ negative, rest = minus negative ++ (tryConsume '-' rest).getD rest := by
  cases hminus : tryConsume '-' rest with
  | some r =>
    obtain rfl := tryConsume_eq_some.mp hminus
    exact ⟨true, rfl⟩
  | none => exact ⟨false, rfl⟩

theorem parseNumber_sound {start r : List UInt16} {value : BigDecimal}
    (h : parseNumber input start = .ok (value, r)) :
    ∃ text n, NumberText digits text n ∧ start = text ++ r ∧
      ∃ hfits : BigDecimal.Fits n, value = BigDecimal.ofNumeral n hfits := by
  unfold parseNumber at h
  split at h
  · simp at h
  simp only [bind_eq_ok] at h
  obtain ⟨rest₁, hscan₁, rest₂, hscan₂, rest₃, hscan₃, h⟩ := h
  obtain ⟨i, integer, hinteger, -, hi⟩ := scanInteger_eq_ok.mp hscan₁
  obtain ⟨f, fraction, hfraction, rfl⟩ := scanFraction_sound hscan₂
  obtain ⟨e, exponent, hexponent, rfl⟩ := scanExponent_sound hscan₃
  obtain ⟨negative, hstart⟩ := exists_minus start
  have hnumber : NumberText digits (minus negative ++ (i ++ (f ++ e)))
      ⟨negative, integer, fraction, exponent⟩ := .number hinteger hfraction hexponent
  have htext : start = (minus negative ++ (i ++ (f ++ e))) ++ rest₃ := by
    rw [hi] at hstart
    simpa using hstart
  have htake : start.take (start.length - rest₃.length) = minus negative ++ (i ++ (f ++ e)) := by
    rw [htext, List.length_append, Nat.add_sub_cancel, List.take_left]
  rw [htake, BigDecimal.ofText_number hnumber] at h
  by_cases hfits : BigDecimal.Fits ⟨negative, integer, fraction, exponent⟩
  · rw [dif_pos hfits] at h
    cases h
    exact ⟨_, _, hnumber, htext, hfits, rfl⟩
  · rw [dif_neg hfits] at h
    simp at h

theorem parseNumber_complete {text r : List UInt16} {n : Numeral} (h : NumberText digits text n)
    (hr : Follows r) (hfits : BigDecimal.Fits n) :
    parseNumber input (text ++ r) = .ok (BigDecimal.ofNumeral n hfits, r) := by
  have hread := BigDecimal.ofText_number h
  obtain ⟨hinteger, hfraction, hexponent⟩ := h
  rename_i i f e negative integer fraction exponent
  have hmap := hinteger.map_digit (by decide)
  obtain ⟨u, us, v, rfl, hu⟩ := BigDecimal.exists_digit hinteger.ne_nil hmap
  have hends := BigDecimal.ends_exponent hexponent hr.ends
  have hminus : u ≠ unit '-' := BigDecimal.ne_of_digit hu (by decide)
  have hpoint : (e ++ r).head? ≠ some (unit '.') := by
    cases hexponent with
    | absent => exact fun hhead => (hr _ hhead).2.1 rfl
    | present hmark => rcases hmark with rfl | rfl <;> simp <;> decide
  have hstart : minus negative ++ ((u :: us) ++ (f ++ e)) ++ r =
      minus negative ++ ((u :: us) ++ (f ++ (e ++ r))) := by
    simp only [List.append_assoc]
  have hsign := tryConsume_minus negative (show ((u :: us) ++ (f ++ (e ++ r))).head? ≠ _ by
    simpa using hminus)
  have hsome : tryConsume '-' (minus negative ++ ((u :: us) ++ (f ++ (e ++ r)))) ≠ some [] := by
    intro hnil
    rw [hnil] at hsign
    simp at hsign
  have htake : (minus negative ++ ((u :: us) ++ (f ++ e)) ++ r).take
      ((minus negative ++ ((u :: us) ++ (f ++ e)) ++ r).length - r.length) =
      minus negative ++ ((u :: us) ++ (f ++ e)) := by
    rw [List.length_append, Nat.add_sub_cancel, List.take_left]
  unfold parseNumber
  rw [if_neg (hstart ▸ hsome), hstart, hsign, ← hstart]
  simp only [bind_eq_ok]
  refine ⟨_, scanInteger_eq_ok.mpr ⟨_, _, hinteger, BigDecimal.ends_fraction hfraction hends, rfl⟩,
    _, scanFraction_complete hfraction hends hpoint, _, scanExponent_complete hexponent hr, ?_⟩
  rw [htake, hread, dif_pos hfits]

theorem settles_scanInteger (rest : List UInt16) : Settles (scanInteger input rest) := by
  unfold scanInteger
  split
  · split
    · exact settles_error _ _
    · exact settles_ok _
  · exact settles_requireDigits _

theorem settles_scanFraction (rest : List UInt16) : Settles (scanFraction input rest) := by
  unfold scanFraction
  split
  · exact settles_requireDigits _
  · exact settles_ok _

theorem settles_scanExponent (rest : List UInt16) : Settles (scanExponent input rest) := by
  unfold scanExponent
  split
  · exact settles_requireDigits _
  · exact settles_ok _

theorem settles_parseNumber (start : List UInt16) : Settles (parseNumber input start) := by
  unfold parseNumber
  split
  · exact settles_error _ _
  refine (settles_scanInteger _).bind fun rest₁ _ => ?_
  refine (settles_scanFraction rest₁).bind fun rest₂ _ => ?_
  refine (settles_scanExponent rest₂).bind fun rest₃ _ => ?_
  split
  · exact settles_ok _
  · exact settles_error _ _

theorem hexDigit_lt {u : UInt16} {v : ℕ} (h : digits.hexDigit u = some v) : v < 16 := by
  have hfilter : ((decimalValue u).orElse fun _ => letterValue u).filter (· < 16) = some v := h
  simpa using (Option.filter_eq_some_iff.mp hfilter).2

theorem shiftLeft_or_eq {a b : ℕ} (hb : b < 16) : a <<< 4 ||| b = a * 16 + b := by
  rw [← Nat.shiftLeft_add_eq_or_of_lt (i := 4) (by omega), Nat.shiftLeft_eq]

theorem escapeDigit_eq_ok {u : UInt16} {rest : List UInt16} {v : ℕ} :
    escapeDigit input u rest = .ok v ↔ digits.hexDigit u = some v := by
  have hdigit : digits.hexDigit u = Character.digit u 16 := rfl
  rw [escapeDigit, hdigit]
  cases Character.digit u 16 with
  | none => simp
  | some digit => simp

theorem settles_escapeDigit (u : UInt16) (rest : List UInt16) :
    Settles (escapeDigit input u rest) := by
  unfold escapeDigit
  split
  · exact settles_ok _
  · exact settles_error _ _

theorem parseUnicodeEscape_eq_ok {rest r : List UInt16} {u : UInt16} :
    parseUnicodeEscape input rest = .ok (u, r) ↔
      ∃ a b c e w x y z, digits.hexDigit a = some w ∧ digits.hexDigit b = some x ∧
        digits.hexDigit c = some y ∧ digits.hexDigit e = some z ∧ rest = a :: b :: c :: e :: r ∧
        u = hexUnit w x y z := by
  have hvalue : ∀ {a b c e : UInt16} {w x y z : ℕ}, digits.hexDigit a = some w →
      digits.hexDigit b = some x → digits.hexDigit c = some y → digits.hexDigit e = some z →
      UInt16.ofNat ([w, x, y, z].foldl (fun value digit => value <<< 4 ||| digit) 0) =
        hexUnit w x y z := by
    intro a b c e w x y z ha hb hc he
    simp only [List.foldl_cons, List.foldl_nil, shiftLeft_or_eq (hexDigit_lt ha),
      shiftLeft_or_eq (hexDigit_lt hb), shiftLeft_or_eq (hexDigit_lt hc),
      shiftLeft_or_eq (hexDigit_lt he), Nat.zero_mul, Nat.zero_add]
    rfl
  constructor
  · intro h
    unfold parseUnicodeEscape at h
    split at h
    · rename_i a b c e rest'
      simp only [bind_eq_ok, escapeDigit_eq_ok] at h
      obtain ⟨w, hw, x, hx, y, hy, z, hz, h⟩ := h
      rw [hvalue hw hx hy hz] at h
      cases h
      exact ⟨a, b, c, e, w, x, y, z, hw, hx, hy, hz, rfl, rfl⟩
    · simp at h
  · rintro ⟨a, b, c, e, w, x, y, z, hw, hx, hy, hz, rfl, rfl⟩
    unfold parseUnicodeEscape
    simp only [bind_eq_ok, escapeDigit_eq_ok]
    exact ⟨w, hw, x, hx, y, hy, z, hz, by rw [hvalue hw hx hy hz]⟩

theorem settles_parseUnicodeEscape (rest : List UInt16) :
    Settles (parseUnicodeEscape input rest) := by
  unfold parseUnicodeEscape
  split
  · refine (settles_escapeDigit _ _).bind fun w _ => ?_
    refine (settles_escapeDigit _ _).bind fun x _ => ?_
    refine (settles_escapeDigit _ _).bind fun y _ => ?_
    refine (settles_escapeDigit _ _).bind fun z _ => ?_
    exact settles_ok _
  · exact settles_error _ _

theorem parseEscape_eq_ok {rest r : List UInt16} {v : UInt16} :
    parseEscape input rest = .ok (v, r) ↔ ∃ text, Escape digits text v ∧ rest = text ++ r := by
  have hu : shortEscape (unit 'u') = none := by decide
  cases rest with
  | nil =>
    constructor
    · intro h
      simp [parseEscape] at h
    · rintro ⟨text, hescape, hnil⟩
      cases hescape with
      | short => simp at hnil
      | hex => simp at hnil
  | cons escape rest =>
    have hround : parseEscape input (escape :: rest) =
        match shortEscape escape with
        | some v => .ok (v, rest)
        | none =>
          if escape = unit 'u' then parseUnicodeEscape input rest
          else error input "invalid string escape" rest := by
      simp only [parseEscape, shortEscape]
      split_ifs <;> rfl
    rw [hround]
    constructor
    · intro h
      cases hshort : shortEscape escape with
      | some w =>
        rw [hshort] at h
        cases h
        exact ⟨[escape], .short hshort, rfl⟩
      | none =>
        rw [hshort] at h
        dsimp only at h
        split at h
        · rename_i hescape
          obtain ⟨a, b, c, e, w, x, y, z, ha, hb, hc, he, rfl, rfl⟩ :=
            parseUnicodeEscape_eq_ok.mp h
          exact ⟨_, .hex ha hb hc he, by rw [hescape]; rfl⟩
        · simp at h
    · rintro ⟨text, hescape, heq⟩
      cases hescape with
      | short hshort =>
        obtain ⟨rfl, rfl⟩ := List.cons.inj heq
        rw [hshort]
      | hex ha hb hc he =>
        obtain ⟨rfl, rfl⟩ := List.cons.inj heq
        rw [hu]
        exact parseUnicodeEscape_eq_ok.mpr ⟨_, _, _, _, _, _, _, _, ha, hb, hc, he, rfl, rfl⟩

theorem settles_parseEscape (rest : List UInt16) : Settles (parseEscape input rest) := by
  cases rest with
  | nil => exact settles_error _ _
  | cons escape rest =>
    rw [parseEscape]
    split_ifs
    any_goals exact settles_ok _
    · exact settles_parseUnicodeEscape _
    · exact settles_error _ _

theorem stringLoop_sound {fuel : ℕ} {output rest value r : List UInt16}
    (h : stringLoop input fuel output rest = .ok (value, r)) :
    ∃ text s, Characters digits text s ∧ rest = text ++ unit '\"' :: r ∧ value = output ++ s := by
  induction fuel generalizing output rest with
  | zero => simp [stringLoop] at h
  | succ fuel ih =>
    cases rest with
    | nil => simp [stringLoop] at h
    | cons u us =>
      rw [stringLoop] at h
      split_ifs at h with hquote hslash hlow
      · cases h
        exact ⟨[], [], .nil, by rw [hquote, List.nil_append], by rw [List.append_nil]⟩
      · obtain ⟨⟨v, rest⟩, hescape, hloop⟩ := bind_eq_ok.mp h
        obtain ⟨e, he, rfl⟩ := parseEscape_eq_ok.mp hescape
        obtain ⟨text, s, hchars, rfl, rfl⟩ := ih hloop
        exact ⟨_, _, .escaped he hchars, by simp [hslash], by simp⟩
      · simp at h
      · obtain ⟨text, s, hchars, rfl, rfl⟩ := ih h
        exact ⟨_, _, .unescaped (UInt16.not_lt.mp hlow) hquote hslash hchars, rfl, by simp⟩

theorem stringLoop_complete {text s : List UInt16} (h : Characters digits text s)
    (r : List UInt16) {fuel : ℕ} (output : List UInt16) (hfuel : text.length < fuel) :
    stringLoop input fuel output (text ++ unit '\"' :: r) = .ok (output ++ s, r) := by
  obtain ⟨n, rfl⟩ := Nat.exists_eq_add_one_of_ne_zero (Nat.ne_of_gt (Nat.zero_lt_of_lt hfuel))
  induction h generalizing n output with
  | nil => rw [List.nil_append, stringLoop, if_pos rfl, List.append_nil]
  | unescaped hlow hquote hslash _ ih =>
    rw [List.length_cons] at hfuel
    obtain ⟨m, rfl⟩ := Nat.exists_eq_add_one_of_ne_zero (show n ≠ 0 by omega)
    rw [List.cons_append, stringLoop, if_neg hquote, if_neg hslash,
      if_neg (UInt16.not_lt.mpr hlow), ih _ m (by omega), List.append_assoc,
      List.singleton_append]
  | @escaped e text value v hescape _ ih =>
    rw [List.length_cons, List.length_append] at hfuel
    obtain ⟨m, rfl⟩ := Nat.exists_eq_add_one_of_ne_zero (show n ≠ 0 by omega)
    have hquote : unit '\\' ≠ unit '\"' := by decide
    rw [List.cons_append, List.append_assoc, stringLoop, if_neg hquote, if_pos rfl]
    refine bind_eq_ok.mpr ⟨_, parseEscape_eq_ok.mpr ⟨e, hescape, rfl⟩, ?_⟩
    dsimp only
    rw [ih _ m (by omega), List.append_assoc, List.singleton_append]

theorem settles_stringLoop {fuel : ℕ} {output rest : List UInt16} (h : rest.length < fuel) :
    Settles (stringLoop input fuel output rest) := by
  induction fuel generalizing output rest with
  | zero => omega
  | succ fuel ih =>
    cases rest with
    | nil => exact settles_error _ _
    | cons u us =>
      rw [List.length_cons] at h
      rw [stringLoop]
      split
      · exact settles_ok _
      split
      · refine (settles_parseEscape us).bind fun step hstep => ih ?_
        obtain ⟨text, -, rfl⟩ := parseEscape_eq_ok.mp hstep
        rw [List.length_append] at h
        omega
      split
      · exact settles_error _ _
      · exact ih (by omega)

theorem parseString_eq_ok {rest value r : List UInt16} :
    parseString input rest = .ok (value, r) ↔
      ∃ text, StringText digits text value ∧ rest = text ++ r := by
  unfold parseString
  simp only [bind_eq_ok, consume_eq_ok]
  constructor
  · rintro ⟨rest', rfl, h⟩
    obtain ⟨text, s, hchars, rfl, rfl⟩ := stringLoop_sound h
    exact ⟨_, .quoted hchars, by simp⟩
  · rintro ⟨text, ⟨hchars⟩, rfl⟩
    rename_i text
    refine ⟨text ++ unit '\"' :: r, by simp, ?_⟩
    exact stringLoop_complete hchars r [] (by rw [List.length_append]; omega)

theorem settles_parseString (rest : List UInt16) : Settles (parseString input rest) := by
  unfold parseString
  exact (settles_consume _ _).bind fun rest' _ => settles_stringLoop (Nat.lt_succ_self _)

theorem parseLiteral_eq_ok {literal : String} {value v : Value BigDecimal} {rest r : List UInt16} :
    parseLiteral input literal value rest = .ok (v, r) ↔ v = value ∧ rest = units literal ++ r := by
  unfold parseLiteral
  constructor
  · intro h
    split at h
    · rename_i hstart
      obtain ⟨tail, rfl⟩ := List.isPrefixOf_iff_prefix.mp hstart
      rw [List.drop_left] at h
      cases h
      exact ⟨rfl, rfl⟩
    · simp at h
  · rintro ⟨rfl, rfl⟩
    rw [if_pos (List.isPrefixOf_iff_prefix.mpr ⟨r, rfl⟩), List.drop_left]

theorem settles_parseLiteral (literal : String) (value : Value BigDecimal) (rest : List UInt16) :
    Settles (parseLiteral input literal value rest) := by
  unfold parseLiteral
  split
  · exact settles_ok _
  · exact settles_error _ _

end

end OptoSync.StrictJson
