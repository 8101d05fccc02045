import OptoSync.StrictJsonValue

/-!
# Completeness of the strict JSON decoder

Every value of the grammar that keeps to the limits is returned, before anything that may follow it.
A structural character takes the whitespace around it, which the parser leaves for its next step.
-/
namespace OptoSync.StrictJson

open JsonGrammar Java InsertionOrder

theorem blank_cases {u : UInt16} (h : isBlank u = true) :
    ∃ c ∈ [' ', '\n', '\r', '\t'], u = unit c := by
  simp only [isBlank, decide_eq_true_eq] at h
  rcases h with rfl | rfl | rfl | rfl
  · exact ⟨' ', by decide, rfl⟩
  · exact ⟨'\n', by decide, rfl⟩
  · exact ⟨'\r', by decide, rfl⟩
  · exact ⟨'\t', by decide, rfl⟩

theorem follows_cons {c : Char} (hc : c ∈ [' ', '\n', '\r', '\t', ',', ']', '}'])
    (r : List UInt16) : Follows (unit c :: r) := by
  intro u hu
  obtain rfl : unit c = u := by simpa using hu
  fin_cases hc <;> decide

theorem follows_whitespace {w : List UInt16} (hw : Whitespace w) {r : List UInt16}
    (hr : Follows r) : Follows (w ++ r) := by
  cases w with
  | nil => exact hr
  | cons u us =>
    obtain ⟨c, hc, rfl⟩ := blank_cases (hw u List.mem_cons_self)
    exact follows_cons (List.mem_append_left [',', ']', '}'] hc) _

theorem follows_structural {c : Char} (hc : c ∈ [',', ']', '}']) {text : List UInt16}
    (h : Structural c text) (r : List UInt16) : Follows (text ++ r) := by
  obtain ⟨before, after, hbefore, -, rfl⟩ := h
  rw [List.append_assoc]
  exact follows_whitespace hbefore
    (follows_cons (List.mem_append_right [' ', '\n', '\r', '\t'] hc) _)

/-- Up to a structural character there is only whitespace to skip. -/
theorem skipWhitespace_structural {c : Char} (hc : isBlank (unit c) = false) {text : List UInt16}
    (h : Structural c text) :
    ∃ after, Whitespace after ∧ after.length < text.length ∧ ∀ {w : List UInt16}, Whitespace w →
      ∀ r, skipWhitespace (w ++ (text ++ r)) = unit c :: (after ++ r) := by
  obtain ⟨before, after, hbefore, hafter, rfl⟩ := h
  refine ⟨after, hafter, by simp; omega, fun hw r => ?_⟩
  rw [skipWhitespace_append hw, List.append_assoc, skipWhitespace_append hbefore, List.cons_append,
    skipWhitespace_cons hc]

theorem isBlank_of_digit {u : UInt16} {v : ℕ} (h : digits.digit u = some v) : isBlank u = false := by
  rw [Bool.eq_false_iff]
  intro hblank
  obtain ⟨c, hc, rfl⟩ := blank_cases hblank
  exact BigDecimal.ne_of_digit h (by fin_cases hc <;> decide) rfl

/-- The characters that start a numeral: none of the others that the parser looks for. -/
theorem number_start {text : List UInt16} {n : Numeral} (h : NumberText digits text n) :
    ∃ u us, text = u :: us ∧ isBlank u = false ∧
      ∀ c ∈ ['{', '[', '\"', 't', 'f', 'n', ']'], u ≠ unit c := by
  obtain ⟨hinteger, -, -⟩ := h
  rename_i i f e negative integer fraction exponent
  cases negative with
  | true =>
    refine ⟨unit '-', _, rfl, by decide, fun c hc => ?_⟩
    fin_cases hc <;> decide
  | false =>
    obtain ⟨u, us, v, rfl, hu⟩ :=
      BigDecimal.exists_digit hinteger.ne_nil (hinteger.map_digit (by decide))
    refine ⟨u, _, rfl, isBlank_of_digit hu, fun c hc => BigDecimal.ne_of_digit hu ?_⟩
    fin_cases hc <;> decide

/-- No value starts with a closing bracket. -/
theorem value_start {text : List UInt16} {tree : Value Numeral} (h : ValueText digits text tree)
    {w : List UInt16} (hw : Whitespace w) (r : List UInt16) :
    tryConsume ']' (skipWhitespace (w ++ (text ++ r))) = none := by
  have hchar : ∀ {c : Char}, isBlank (unit c) = false → unit c ≠ unit ']' → ∀ us,
      tryConsume ']' (skipWhitespace (w ++ (unit c :: us))) = none := by
    intro c hblank hc us
    rw [skipWhitespace_append hw, skipWhitespace_cons hblank]
    exact tryConsume_eq_none.mpr (by simpa using hc)
  have hopening : ∀ {c : Char}, isBlank (unit c) = false → unit c ≠ unit ']' →
      ∀ {opening : List UInt16}, Structural c opening → ∀ us,
      tryConsume ']' (skipWhitespace (w ++ (opening ++ us))) = none := by
    intro c hblank hc opening hopening us
    obtain ⟨after, -, -, hskip⟩ := skipWhitespace_structural hblank hopening
    rw [hskip hw]
    exact tryConsume_eq_none.mpr (by simpa using hc)
  cases h with
  | null => exact hchar (c := 'n') (by decide) (by decide) _
  | true => exact hchar (c := 't') (by decide) (by decide) _
  | false => exact hchar (c := 'f') (by decide) (by decide) _
  | number hnumber =>
    obtain ⟨u, us, rfl, hblank, hu⟩ := number_start hnumber
    rw [skipWhitespace_append hw, List.cons_append, skipWhitespace_cons hblank]
    exact tryConsume_eq_none.mpr (by simpa using hu ']' (by decide))
  | string hstring =>
    obtain ⟨hchars⟩ := hstring
    exact hchar (c := '\"') (by decide) (by decide) _
  | emptyArray ho | array ho =>
    rw [List.append_assoc]
    exact hopening (by decide) (by decide) ho _
  | emptyObject ho | object ho =>
    rw [List.append_assoc]
    exact hopening (by decide) (by decide) ho _

section
variable {input : List UInt16} {fuel depth : ℕ} {rest us : List UInt16}

theorem parseValue_eq {u : UInt16} (hdepth : depth ≤ maxDepth)
    (hskip : skipWhitespace rest = u :: us) :
    parseValue input (fuel + 1) depth rest =
      if u = unit '{' then parseObject input fuel (depth + 1) (u :: us)
      else if u = unit '[' then parseArray input fuel (depth + 1) (u :: us)
      else if u = unit '\"' then (parseString input (u :: us)).map (Prod.map .string id)
      else if u = unit 't' then parseLiteral input "true" (.bool true) (u :: us)
      else if u = unit 'f' then parseLiteral input "false" (.bool false) (u :: us)
      else if u = unit 'n' then parseLiteral input "null" .null (u :: us)
      else (parseNumber input (u :: us)).map (Prod.map .number id) := by
  rw [parseValue, if_neg (not_lt.mpr hdepth), hskip]

theorem parseValue_object (hdepth : depth ≤ maxDepth) (hskip : skipWhitespace rest = unit '{' :: us) :
    parseValue input (fuel + 1) depth rest =
      parseObject input fuel (depth + 1) (unit '{' :: us) := by
  rw [parseValue_eq hdepth hskip, if_pos rfl]

theorem parseValue_array (hdepth : depth ≤ maxDepth) (hskip : skipWhitespace rest = unit '[' :: us) :
    parseValue input (fuel + 1) depth rest =
      parseArray input fuel (depth + 1) (unit '[' :: us) := by
  rw [parseValue_eq hdepth hskip, if_neg (by decide), if_pos rfl]

theorem parseValue_string (hdepth : depth ≤ maxDepth)
    (hskip : skipWhitespace rest = unit '\"' :: us) :
    parseValue input (fuel + 1) depth rest =
      (parseString input (unit '\"' :: us)).map (Prod.map .string id) := by
  rw [parseValue_eq hdepth hskip, if_neg (by decide), if_neg (by decide), if_pos rfl]

theorem parseValue_true (hdepth : depth ≤ maxDepth) (hskip : skipWhitespace rest = unit 't' :: us) :
    parseValue input (fuel + 1) depth rest =
      parseLiteral input "true" (.bool true) (unit 't' :: us) := by
  rw [parseValue_eq hdepth hskip, if_neg (by decide), if_neg (by decide), if_neg (by decide),
    if_pos rfl]

theorem parseValue_false (hdepth : depth ≤ maxDepth) (hskip : skipWhitespace rest = unit 'f' :: us) :
    parseValue input (fuel + 1) depth rest =
      parseLiteral input "false" (.bool false) (unit 'f' :: us) := by
  rw [parseValue_eq hdepth hskip, if_neg (by decide), if_neg (by decide), if_neg (by decide),
    if_neg (by decide), if_pos rfl]

theorem parseValue_null (hdepth : depth ≤ maxDepth) (hskip : skipWhitespace rest = unit 'n' :: us) :
    parseValue input (fuel + 1) depth rest = parseLiteral input "null" .null (unit 'n' :: us) := by
  rw [parseValue_eq hdepth hskip, if_neg (by decide), if_neg (by decide), if_neg (by decide),
    if_neg (by decide), if_neg (by decide), if_pos rfl]

theorem parseValue_number {u : UInt16} (hdepth : depth ≤ maxDepth)
    (hskip : skipWhitespace rest = u :: us)
    (hu : ∀ c ∈ ['{', '[', '\"', 't', 'f', 'n', ']'], u ≠ unit c) :
    parseValue input (fuel + 1) depth rest =
      (parseNumber input (u :: us)).map (Prod.map .number id) := by
  rw [parseValue_eq hdepth hskip, if_neg (hu _ (by decide)), if_neg (hu _ (by decide)),
    if_neg (hu _ (by decide)), if_neg (hu _ (by decide)), if_neg (hu _ (by decide)),
    if_neg (hu _ (by decide))]

theorem arrayLoop_skipWhitespace (hdepth : depth ≤ maxDepth) (values : List (Value BigDecimal)) :
    arrayLoop input fuel depth values (skipWhitespace rest) =
      arrayLoop input fuel depth values rest := by
  cases fuel with
  | zero => rfl
  | succ fuel =>
    have hvalue : parseValue input fuel depth (skipWhitespace rest) =
        parseValue input fuel depth rest := by
      cases fuel with
      | zero => rfl
      | succ fuel =>
        rw [parseValue, parseValue, if_neg (not_lt.mpr hdepth), if_neg (not_lt.mpr hdepth),
          skipWhitespace_idem]
    rw [arrayLoop, arrayLoop, hvalue]

theorem objectLoop_skipWhitespace (m : InsertionMap (List UInt16) (Value BigDecimal)) :
    objectLoop input fuel depth m (skipWhitespace rest) = objectLoop input fuel depth m rest := by
  cases fuel with
  | zero => rfl
  | succ fuel => rw [objectLoop, objectLoop, skipWhitespace_idem]

end

section
variable {input : List UInt16}

/-- With the fuel the functions of the parser return all that the grammar derives. -/
structure Complete (input : List UInt16) (fuel : ℕ) : Prop where
  value : ∀ {depth : ℕ} {w text r : List UInt16} {tree : Value Numeral}, Whitespace w →
    ValueText digits text tree → WithinLimits depth tree → Follows r →
    3 * (w ++ (text ++ r)).length < fuel →
    ∃ v w', Whitespace w' ∧ parseValue input fuel depth (w ++ (text ++ r)) = .ok (v, w' ++ r) ∧
      Decodes depth tree v
  array : ∀ {depth : ℕ} {w text closing r : List UInt16} {trees : List (Value Numeral)},
    Whitespace w → ItemsText digits text trees → Structural ']' closing →
    WithinLimits depth (.array trees) → 3 * (w ++ (text ++ (closing ++ r))).length + 2 < fuel →
    ∃ v w', Whitespace w' ∧
      parseArray input fuel (depth + 1) (unit '[' :: (w ++ (text ++ (closing ++ r)))) =
        .ok (v, w' ++ r) ∧ Decodes depth (.array trees) v
  arrayLoop : ∀ {depth : ℕ} {values : List (Value BigDecimal)} {w text closing r : List UInt16}
    {trees : List (Value Numeral)}, Whitespace w → ItemsText digits text trees →
    Structural ']' closing → (∀ tree ∈ trees, WithinLimits depth tree) →
    3 * (w ++ (text ++ (closing ++ r))).length + 1 < fuel →
    ∃ vs w', Whitespace w' ∧ arrayLoop input fuel depth values (w ++ (text ++ (closing ++ r))) =
      .ok (.array (values ++ vs), w' ++ r) ∧ List.Forall₂ (Decodes depth) trees vs
  object : ∀ {depth : ℕ} {w text closing r : List UInt16}
    {members : List (List UInt16 × Value Numeral)}, Whitespace w →
    MembersText digits text members → Structural '}' closing →
    WithinLimits depth (.object members) → 3 * (w ++ (text ++ (closing ++ r))).length + 2 < fuel →
    ∃ v w', Whitespace w' ∧
      parseObject input fuel (depth + 1) (unit '{' :: (w ++ (text ++ (closing ++ r)))) =
        .ok (v, w' ++ r) ∧ Decodes depth (.object members) v
  objectLoop : ∀ {depth : ℕ} {m : InsertionMap (List UInt16) (Value BigDecimal)}
    {w text closing r : List UInt16} {members : List (List UInt16 × Value Numeral)}, Whitespace w →
    MembersText digits text members → Structural '}' closing →
    (∀ m ∈ members, WithinLimits depth m.2) →
    3 * (w ++ (text ++ (closing ++ r))).length + 1 < fuel →
    ∃ pairs w', Whitespace w' ∧ objectLoop input fuel depth m (w ++ (text ++ (closing ++ r))) =
      .ok (.object (pairs.foldl (fun m pair => m.set pair.1 pair.2) m).entries, w' ++ r) ∧
      List.Forall₂ (MemberDecodes depth) members pairs

theorem parseArray_empty {fuel depth : ℕ} {w closing r : List UInt16} (hw : Whitespace w)
    (hclosing : Structural ']' closing) :
    ∃ w', Whitespace w' ∧ parseArray input (fuel + 1) depth (unit '[' :: (w ++ (closing ++ r))) =
      .ok (.array [], w' ++ r) := by
  obtain ⟨after, hafter, -, hskip⟩ := skipWhitespace_structural (by decide) hclosing
  refine ⟨after, hafter, ?_⟩
  rw [parseArray]
  refine bind_eq_ok.mpr ⟨_, consume_eq_ok.mpr rfl, ?_⟩
  rw [hskip hw, tryConsume_eq_some.mpr rfl]

theorem parseObject_empty {fuel depth : ℕ} {w closing r : List UInt16} (hw : Whitespace w)
    (hclosing : Structural '}' closing) :
    ∃ w', Whitespace w' ∧ parseObject input (fuel + 1) depth (unit '{' :: (w ++ (closing ++ r))) =
      .ok (.object [], w' ++ r) := by
  obtain ⟨after, hafter, -, hskip⟩ := skipWhitespace_structural (by decide) hclosing
  refine ⟨after, hafter, ?_⟩
  rw [parseObject]
  refine bind_eq_ok.mpr ⟨_, consume_eq_ok.mpr rfl, ?_⟩
  rw [hskip hw, tryConsume_eq_some.mpr rfl]

theorem complete_array {fuel : ℕ} (h : Complete input fuel) {depth : ℕ} {w text closing r : List UInt16}
    {trees : List (Value Numeral)} (hw : Whitespace w) (htext : ItemsText digits text trees)
    (hclosing : Structural ']' closing) (hlimits : WithinLimits depth (.array trees))
    (hfuel : 3 * (w ++ (text ++ (closing ++ r))).length + 2 < fuel + 1) :
    ∃ v w', Whitespace w' ∧
      parseArray input (fuel + 1) (depth + 1) (unit '[' :: (w ++ (text ++ (closing ++ r)))) =
        .ok (v, w' ++ r) ∧ Decodes depth (.array trees) v := by
  obtain ⟨hdepth, hitems⟩ := withinLimits_array.mp hlimits
  have hstart : tryConsume ']' (skipWhitespace (w ++ (text ++ (closing ++ r)))) = none := by
    cases htext with
    | last hv => exact value_start hv hw _
    | more hv =>
      rw [List.append_assoc]
      exact value_start hv hw _
  have hinner : depth + 1 ≤ maxDepth := by
    cases htext with
    | last hv => exact (hitems _ List.mem_cons_self).depth_le
    | more hv => exact (hitems _ List.mem_cons_self).depth_le
  obtain ⟨vs, w', hw', hloop, hall⟩ :=
    h.arrayLoop (r := r) hw htext hclosing hitems (by omega)
  refine ⟨.array vs, w', hw', ?_, .array hdepth hall⟩
  rw [parseArray]
  refine bind_eq_ok.mpr ⟨_, consume_eq_ok.mpr rfl, ?_⟩
  rw [hstart, arrayLoop_skipWhitespace hinner, hloop, List.nil_append]

theorem complete_object {fuel : ℕ} (h : Complete input fuel) {depth : ℕ}
    {w text closing r : List UInt16} {members : List (List UInt16 × Value Numeral)}
    (hw : Whitespace w) (htext : MembersText digits text members)
    (hclosing : Structural '}' closing) (hlimits : WithinLimits depth (.object members))
    (hfuel : 3 * (w ++ (text ++ (closing ++ r))).length + 2 < fuel + 1) :
    ∃ v w', Whitespace w' ∧
      parseObject input (fuel + 1) (depth + 1) (unit '{' :: (w ++ (text ++ (closing ++ r)))) =
        .ok (v, w' ++ r) ∧ Decodes depth (.object members) v := by
  obtain ⟨hdepth, hmembers⟩ := withinLimits_object.mp hlimits
  have hstart : tryConsume '}' (skipWhitespace (w ++ (text ++ (closing ++ r)))) = none := by
    rw [skipWhitespace_append hw]
    cases htext with
    | last hm =>
      obtain ⟨⟨hchars⟩, -, -⟩ := hm
      rfl
    | more hm =>
      obtain ⟨⟨hchars⟩, -, -⟩ := hm
      rfl
  obtain ⟨pairs, w', hw', hloop, hall⟩ :=
    h.objectLoop (r := r) hw htext hclosing hmembers (by omega)
  refine ⟨_, w', hw', ?_, .object hdepth hall⟩
  rw [parseObject]
  refine bind_eq_ok.mpr ⟨_, consume_eq_ok.mpr rfl, ?_⟩
  rw [hstart, objectLoop_skipWhitespace, hloop]

theorem complete_arrayLoop {fuel : ℕ} (h : Complete input fuel) {depth : ℕ}
    {values : List (Value BigDecimal)} {w text closing r : List UInt16}
    {trees : List (Value Numeral)} (hw : Whitespace w) (htext : ItemsText digits text trees)
    (hclosing : Structural ']' closing) (hlimits : ∀ tree ∈ trees, WithinLimits depth tree)
    (hfuel : 3 * (w ++ (text ++ (closing ++ r))).length + 1 < fuel + 1) :
    ∃ vs w', Whitespace w' ∧
      arrayLoop input (fuel + 1) depth values (w ++ (text ++ (closing ++ r))) =
        .ok (.array (values ++ vs), w' ++ r) ∧ List.Forall₂ (Decodes depth) trees vs := by
  cases htext with
  | last hv =>
    obtain ⟨v, w₁, hw₁, hparse, hdecodes⟩ := h.value hw hv (hlimits _ List.mem_cons_self)
      (follows_structural (by decide) hclosing r) (by omega)
    obtain ⟨after, hafter, -, hskip⟩ :=
      skipWhitespace_structural (c := ']') (by decide) hclosing
    refine ⟨[v], after, hafter, ?_, .cons hdecodes .nil⟩
    rw [arrayLoop]
    refine bind_eq_ok.mpr ⟨_, hparse, ?_⟩
    dsimp only
    rw [hskip hw₁, tryConsume_eq_some.mpr rfl]
  | @more text separator rest tree trees hv hseparator hvs =>
    obtain ⟨hlimit, hlimits⟩ := List.forall_mem_cons.mp hlimits
    have hassoc : w ++ ((text ++ (separator ++ rest)) ++ (closing ++ r)) =
        w ++ (text ++ (separator ++ (rest ++ (closing ++ r)))) := by
      simp only [List.append_assoc]
    rw [hassoc] at hfuel ⊢
    obtain ⟨v, w₁, hw₁, hparse, hdecodes⟩ :=
      h.value hw hv hlimit
        (follows_structural (by decide) hseparator (rest ++ (closing ++ r))) (by omega)
    obtain ⟨after, hafter, hlength, hskip⟩ :=
      skipWhitespace_structural (c := ',') (by decide) hseparator
    have hcomma : ∀ us, tryConsume ']' (unit ',' :: us) = none := fun _ => rfl
    obtain ⟨vs, w', hw', hloop, hall⟩ :=
      h.arrayLoop (r := r) hafter hvs hclosing hlimits (by
        simp only [List.length_append] at hfuel ⊢
        omega)
    refine ⟨v :: vs, w', hw', ?_, .cons hdecodes hall⟩
    rw [arrayLoop]
    refine bind_eq_ok.mpr ⟨_, hparse, ?_⟩
    dsimp only
    rw [hskip hw₁, hcomma]
    refine bind_eq_ok.mpr ⟨_, consume_eq_ok.mpr rfl, ?_⟩
    rw [hloop, List.append_assoc, List.singleton_append]

/-- A round of the loop over the members of an object, up to what follows the member. -/
theorem complete_member {fuel : ℕ} (h : Complete input fuel) {depth : ℕ} {w text r : List UInt16}
    {member : List UInt16 × Value Numeral} (hw : Whitespace w) (htext : MemberText digits text member)
    (hlimits : WithinLimits depth member.2) (hr : Follows r)
    (hfuel : 3 * (w ++ (text ++ r)).length + 1 < fuel + 1) :
    ∃ v w', Whitespace w' ∧ MemberDecodes depth member (member.1, v) ∧
      ∀ m, objectLoop input (fuel + 1) depth m (w ++ (text ++ r)) =
        match tryConsume '}' (skipWhitespace (w' ++ r)) with
        | some rest => .ok (.object (m.set member.1 v).entries, rest)
        | none => consume input ',' (skipWhitespace (w' ++ r)) >>=
          objectLoop input fuel depth (m.set member.1 v) := by
  obtain ⟨hname, hseparator, hv⟩ := htext
  rename_i name separator text key tree
  obtain ⟨after, hafter, hlength, hcolon⟩ :=
    skipWhitespace_structural (c := ':') (by decide) hseparator
  obtain ⟨v, w', hw', hparse, hdecodes⟩ := h.value (r := r) hafter hv hlimits hr (by
    simp only [List.length_append] at hfuel ⊢
    omega)
  have hskip : skipWhitespace (w ++ ((name ++ (separator ++ text)) ++ r)) =
      name ++ (separator ++ (text ++ r)) := by
    obtain ⟨hchars⟩ := hname
    rw [skipWhitespace_append hw, List.append_assoc, List.append_assoc, List.cons_append]
    exact skipWhitespace_cons (by decide) _
  have hhead : (name ++ (separator ++ (text ++ r))).head? = some (unit '\"') := by
    obtain ⟨hchars⟩ := hname
    rfl
  refine ⟨v, w', hw', ⟨rfl, hdecodes⟩, fun m => ?_⟩
  rw [objectLoop, hskip, if_neg (not_not_intro hhead),
    parseString_eq_ok.mpr ⟨name, hname, rfl⟩]
  show consume input ':' (skipWhitespace ([] ++ (separator ++ (text ++ r)))) >>= _ = _
  rw [hcolon whitespace_nil, consume_eq_ok.mpr rfl]
  show parseValue input fuel depth (after ++ (text ++ r)) >>= _ = _
  rw [hparse]
  rfl

theorem complete_objectLoop {fuel : ℕ} (h : Complete input fuel) {depth : ℕ}
    {m : InsertionMap (List UInt16) (Value BigDecimal)} {w text closing r : List UInt16}
    {members : List (List UInt16 × Value Numeral)} (hw : Whitespace w)
    (htext : MembersText digits text members) (hclosing : Structural '}' closing)
    (hlimits : ∀ m ∈ members, WithinLimits depth m.2)
    (hfuel : 3 * (w ++ (text ++ (closing ++ r))).length + 1 < fuel + 1) :
    ∃ pairs w', Whitespace w' ∧
      objectLoop input (fuel + 1) depth m (w ++ (text ++ (closing ++ r))) =
        .ok (.object (pairs.foldl (fun m pair => m.set pair.1 pair.2) m).entries, w' ++ r) ∧
      List.Forall₂ (MemberDecodes depth) members pairs := by
  cases htext with
  | last hm =>
    obtain ⟨v, w₁, hw₁, hdecodes, hround⟩ := complete_member h hw hm
      (hlimits _ List.mem_cons_self) (follows_structural (by decide) hclosing r) hfuel
    obtain ⟨after, hafter, -, hskip⟩ :=
      skipWhitespace_structural (c := '}') (by decide) hclosing
    refine ⟨[_], after, hafter, ?_, .cons hdecodes .nil⟩
    rw [hround, hskip hw₁, tryConsume_eq_some.mpr rfl]
    rfl
  | @more text separator rest member members hm hseparator hms =>
    obtain ⟨hlimit, hlimits⟩ := List.forall_mem_cons.mp hlimits
    have hassoc : w ++ ((text ++ (separator ++ rest)) ++ (closing ++ r)) =
        w ++ (text ++ (separator ++ (rest ++ (closing ++ r)))) := by
      simp only [List.append_assoc]
    rw [hassoc] at hfuel ⊢
    obtain ⟨v, w₁, hw₁, hdecodes, hround⟩ :=
      complete_member h hw hm hlimit (follows_structural (by decide) hseparator _) hfuel
    obtain ⟨after, hafter, hlength, hskip⟩ :=
      skipWhitespace_structural (c := ',') (by decide) hseparator
    have hcomma : ∀ us, tryConsume '}' (unit ',' :: us) = none := fun _ => rfl
    obtain ⟨pairs, w', hw', hloop, hall⟩ :=
      h.objectLoop (r := r) hafter hms hclosing hlimits (by
        simp only [List.length_append] at hfuel ⊢
        omega)
    refine ⟨(member.1, v) :: pairs, w', hw', ?_, .cons hdecodes hall⟩
    rw [hround, hskip hw₁, hcomma]
    exact bind_eq_ok.mpr ⟨_, consume_eq_ok.mpr rfl, hloop⟩

theorem complete_value {fuel : ℕ} (h : Complete input fuel) {depth : ℕ} {w text r : List UInt16}
    {tree : Value Numeral} (hw : Whitespace w) (htext : ValueText digits text tree)
    (hlimits : WithinLimits depth tree) (hr : Follows r)
    (hfuel : 3 * (w ++ (text ++ r)).length < fuel + 1) :
    ∃ v w', Whitespace w' ∧
      parseValue input (fuel + 1) depth (w ++ (text ++ r)) = .ok (v, w' ++ r) ∧
      Decodes depth tree v := by
  have hdepth := hlimits.depth_le
  -- Of the scalars the parser leaves just what follows them.
  have hskip : ∀ {u us}, text = u :: us → isBlank u = false →
      skipWhitespace (w ++ (text ++ r)) = u :: (us ++ r) := by
    rintro u us rfl hu
    rw [skipWhitespace_append hw, List.cons_append, skipWhitespace_cons hu]
  cases htext with
  | null =>
    refine ⟨.null, [], whitespace_nil, ?_, hlimits, rfl⟩
    rw [parseValue_null hdepth (hskip rfl (by decide))]
    exact parseLiteral_eq_ok.mpr ⟨rfl, rfl⟩
  | true =>
    refine ⟨.bool true, [], whitespace_nil, ?_, hlimits, rfl⟩
    rw [parseValue_true hdepth (hskip rfl (by decide))]
    exact parseLiteral_eq_ok.mpr ⟨rfl, rfl⟩
  | false =>
    refine ⟨.bool false, [], whitespace_nil, ?_, hlimits, rfl⟩
    rw [parseValue_false hdepth (hskip rfl (by decide))]
    exact parseLiteral_eq_ok.mpr ⟨rfl, rfl⟩
  | @number text n hnumber =>
    obtain ⟨u, us, rfl, hblank, hu⟩ := number_start hnumber
    have hfits : BigDecimal.Fits n := hlimits.fits n List.mem_cons_self
    refine ⟨.number (BigDecimal.ofNumeral n hfits), [], whitespace_nil, ?_, hlimits, ?_⟩
    · rw [parseValue_number hdepth (hskip rfl hblank) hu]
      exact map_eq_ok.mpr ⟨_, parseNumber_complete hnumber hr hfits, rfl⟩
    · rw [Value.map, BigDecimal.value_ofNumeral, Value.denote]
  | string hstring =>
    obtain ⟨hchars⟩ := id hstring
    refine ⟨.string _, [], whitespace_nil, ?_, hlimits, rfl⟩
    rw [parseValue_string hdepth (hskip rfl (by decide))]
    exact map_eq_ok.mpr ⟨_, parseString_eq_ok.mpr ⟨_, hstring, rfl⟩, rfl⟩
  | @emptyArray opening closing hopening hclosing =>
    obtain ⟨after, hafter, hlength, hopen⟩ :=
      skipWhitespace_structural (c := '[') (by decide) hopening
    simp only [List.append_assoc, List.length_append] at hfuel ⊢
    obtain ⟨n, rfl⟩ := Nat.exists_eq_add_one_of_ne_zero (show fuel ≠ 0 by omega)
    obtain ⟨w', hw', hparse⟩ := parseArray_empty hafter hclosing
    exact ⟨.array [], w', hw', by rw [parseValue_array hdepth (hopen hw _), hparse],
      .array hdepth .nil⟩
  | @array opening text closing trees hopening hitems hclosing =>
    obtain ⟨after, hafter, hlength, hopen⟩ :=
      skipWhitespace_structural (c := '[') (by decide) hopening
    simp only [List.append_assoc, List.length_append] at hfuel ⊢
    obtain ⟨v, w', hw', hparse, hdecodes⟩ := h.array (r := r) hafter hitems hclosing hlimits (by
      simp only [List.length_append]
      omega)
    exact ⟨v, w', hw', by rw [parseValue_array hdepth (hopen hw _), hparse], hdecodes⟩
  | @emptyObject opening closing hopening hclosing =>
    obtain ⟨after, hafter, hlength, hopen⟩ :=
      skipWhitespace_structural (c := '{') (by decide) hopening
    simp only [List.append_assoc, List.length_append] at hfuel ⊢
    obtain ⟨n, rfl⟩ := Nat.exists_eq_add_one_of_ne_zero (show fuel ≠ 0 by omega)
    obtain ⟨w', hw', hparse⟩ := parseObject_empty hafter hclosing
    exact ⟨.object [], w', hw', by rw [parseValue_object hdepth (hopen hw _), hparse],
      .object hdepth .nil⟩
  | @object opening text closing members hopening hmembers hclosing =>
    obtain ⟨after, hafter, hlength, hopen⟩ :=
      skipWhitespace_structural (c := '{') (by decide) hopening
    simp only [List.append_assoc, List.length_append] at hfuel ⊢
    obtain ⟨v, w', hw', hparse, hdecodes⟩ := h.object (r := r) hafter hmembers hclosing hlimits (by
      simp only [List.length_append]
      omega)
    exact ⟨v, w', hw', by rw [parseValue_object hdepth (hopen hw _), hparse], hdecodes⟩

theorem complete (input : List UInt16) (fuel : ℕ) : Complete input fuel := by
  induction fuel with
  | zero =>
    constructor
    · intro depth w text r tree _ _ _ _ hfuel
      omega
    · intro depth w text closing r trees _ _ _ _ hfuel
      omega
    · intro depth values w text closing r trees _ _ _ _ hfuel
      omega
    · intro depth w text closing r members _ _ _ _ hfuel
      omega
    · intro depth m w text closing r members _ _ _ _ hfuel
      omega
  | succ fuel ih =>
    exact ⟨complete_value ih, complete_array ih, complete_arrayLoop ih, complete_object ih,
      complete_objectLoop ih⟩

/-- A result leaves no more than there was. -/
theorem parseValue_length {fuel depth : ℕ} {rest r : List UInt16} {v : Value BigDecimal}
    (h : parseValue input fuel depth rest = .ok (v, r)) : r.length ≤ rest.length := by
  obtain ⟨w, text, tree, -, rfl, -, -⟩ := (sound input fuel).value h
  simp only [List.length_append]
  omega

/-- The parser does not run out of fuel that goes with the length of its text. -/
structure Settled (input : List UInt16) (fuel : ℕ) : Prop where
  value : ∀ {depth : ℕ} {rest : List UInt16}, 3 * rest.length < fuel →
    Settles (parseValue input fuel depth rest)
  array : ∀ {depth : ℕ} {rest : List UInt16}, rest ≠ [] → 3 * rest.length ≤ fuel →
    Settles (parseArray input fuel depth rest)
  arrayLoop : ∀ {depth : ℕ} {values : List (Value BigDecimal)} {rest : List UInt16},
    3 * rest.length + 1 < fuel → Settles (arrayLoop input fuel depth values rest)
  object : ∀ {depth : ℕ} {rest : List UInt16}, rest ≠ [] → 3 * rest.length ≤ fuel →
    Settles (parseObject input fuel depth rest)
  objectLoop : ∀ {depth : ℕ} {m : InsertionMap (List UInt16) (Value BigDecimal)}
    {rest : List UInt16}, 3 * rest.length + 1 < fuel → Settles (objectLoop input fuel depth m rest)

theorem settled_value {fuel : ℕ} (h : Settled input fuel) {depth : ℕ} {rest : List UInt16}
    (hfuel : 3 * rest.length < fuel + 1) : Settles (parseValue input (fuel + 1) depth rest) := by
  have hlength := length_skipWhitespace_le rest
  rw [parseValue]
  split
  · exact settles_error _ _
  split
  · exact settles_error _ _
  rename_i u us hskip
  rw [hskip] at hlength
  have hbound : 3 * (u :: us).length ≤ fuel := by omega
  split_ifs
  · exact h.object (List.cons_ne_nil u us) hbound
  · exact h.array (List.cons_ne_nil u us) hbound
  · exact (settles_parseString _).map
  · exact settles_parseLiteral _ _ _
  · exact settles_parseLiteral _ _ _
  · exact settles_parseLiteral _ _ _
  · exact (settles_parseNumber _).map

theorem settled_array {fuel : ℕ} (h : Settled input fuel) {depth : ℕ} {rest : List UInt16}
    (hfuel : 3 * rest.length ≤ fuel + 1) : Settles (parseArray input (fuel + 1) depth rest) := by
  rw [parseArray]
  refine (settles_consume _ _).bind fun us hconsume => ?_
  obtain rfl := consume_eq_ok.mp hconsume
  have hlength := length_skipWhitespace_le us
  rw [List.length_cons] at hfuel
  split
  · exact settles_ok _
  · exact h.arrayLoop (by omega)

theorem settled_object {fuel : ℕ} (h : Settled input fuel) {depth : ℕ} {rest : List UInt16}
    (hfuel : 3 * rest.length ≤ fuel + 1) : Settles (parseObject input (fuel + 1) depth rest) := by
  rw [parseObject]
  refine (settles_consume _ _).bind fun us hconsume => ?_
  obtain rfl := consume_eq_ok.mp hconsume
  have hlength := length_skipWhitespace_le us
  rw [List.length_cons] at hfuel
  split
  · exact settles_ok _
  · exact h.objectLoop (by omega)

theorem settled_arrayLoop {fuel : ℕ} (h : Settled input fuel) {depth : ℕ}
    {values : List (Value BigDecimal)} {rest : List UInt16}
    (hfuel : 3 * rest.length + 1 < fuel + 1) :
    Settles (arrayLoop input (fuel + 1) depth values rest) := by
  rw [arrayLoop]
  refine (h.value (by omega)).bind fun result hparse => ?_
  have hlength := parseValue_length hparse
  dsimp only
  split
  · exact settles_ok _
  refine (settles_consume _ _).bind fun us hconsume => h.arrayLoop ?_
  have hskip := length_skipWhitespace_le result.2
  rw [consume_eq_ok.mp hconsume, List.length_cons] at hskip
  omega

theorem settled_objectLoop {fuel : ℕ} (h : Settled input fuel) {depth : ℕ}
    {m : InsertionMap (List UInt16) (Value BigDecimal)} {rest : List UInt16}
    (hfuel : 3 * rest.length + 1 < fuel + 1) :
    Settles (objectLoop input (fuel + 1) depth m rest) := by
  rw [objectLoop]
  split
  · exact settles_error _ _
  refine (settles_parseString _).bind fun name hname => ?_
  obtain ⟨text, -, htext⟩ := parseString_eq_ok.mp hname
  have hrest := length_skipWhitespace_le rest
  rw [htext, List.length_append] at hrest
  refine (settles_consume _ _).bind fun us hcolon => ?_
  have hus := length_skipWhitespace_le name.2
  rw [consume_eq_ok.mp hcolon, List.length_cons] at hus
  refine (h.value (by omega)).bind fun result hparse => ?_
  have hlength := parseValue_length hparse
  dsimp only
  split
  · exact settles_ok _
  refine (settles_consume _ _).bind fun us' hcomma => h.objectLoop ?_
  have hskip := length_skipWhitespace_le result.2
  rw [consume_eq_ok.mp hcomma, List.length_cons] at hskip
  omega

theorem settled (input : List UInt16) (fuel : ℕ) : Settled input fuel := by
  induction fuel with
  | zero =>
    constructor
    · intro depth rest hfuel
      omega
    · intro depth rest hne hfuel
      exact absurd (List.length_eq_zero_iff.mp (by omega)) hne
    · intro depth values rest hfuel
      omega
    · intro depth rest hne hfuel
      exact absurd (List.length_eq_zero_iff.mp (by omega)) hne
    · intro depth m rest hfuel
      omega
  | succ fuel ih =>
    exact ⟨settled_value ih, fun _ => settled_array ih, settled_arrayLoop ih,
      fun _ => settled_object ih, settled_objectLoop ih⟩

end

end OptoSync.StrictJson
