import OptoSync.StrictJsonScan

/-!
# The values of the strict JSON decoder

The recursion of the parser against the grammar with the digits of Java. What it returns is a value
of the grammar, and it returns every value of the grammar that keeps to its limits.
-/
namespace OptoSync.StrictJson

open JsonGrammar Java InsertionOrder

/-- Inside `depth` containers the decoder refuses the tree neither for its nesting nor for a number. -/
structure WithinLimits (depth : ℕ) (tree : Value Numeral) : Prop where
  nesting_le : depth + tree.nesting ≤ maxDepth
  fits : ∀ n ∈ tree.numbers, BigDecimal.Fits n

/-- What the parser returns for a tree that it meets inside `depth` containers. -/
structure Decodes (depth : ℕ) (tree : Value Numeral) (v : Value BigDecimal) : Prop
    extends WithinLimits depth tree where
  value_eq : v.map BigDecimal.value = tree.denote

def MemberDecodes (depth : ℕ) (m : List UInt16 × Value Numeral)
    (pair : List UInt16 × Value BigDecimal) : Prop :=
  m.1 = pair.1 ∧ Decodes depth m.2 pair.2

theorem withinLimits_leaf {depth : ℕ} {tree : Value Numeral} (hdepth : depth ≤ maxDepth)
    (hnesting : tree.nesting = 0) (hnumbers : ∀ n ∈ tree.numbers, BigDecimal.Fits n) :
    WithinLimits depth tree :=
  ⟨by rwa [hnesting], hnumbers⟩

theorem WithinLimits.depth_le {depth : ℕ} {tree : Value Numeral} (h : WithinLimits depth tree) :
    depth ≤ maxDepth :=
  (Nat.le_add_right _ _).trans h.nesting_le

theorem withinLimits_array {depth : ℕ} {items : List (Value Numeral)} :
    WithinLimits depth (.array items) ↔
      depth ≤ maxDepth ∧ ∀ tree ∈ items, WithinLimits (depth + 1) tree := by
  constructor
  · intro h
    have hnesting := Value.nestingItems_le.mp (Nat.le_sub_of_add_le' h.nesting_le)
    refine ⟨h.depth_le, fun tree htree => ⟨?_, fun n hn => ?_⟩⟩
    · have hle := hnesting tree htree
      have hdepth := h.depth_le
      omega
    · exact h.fits n (Value.mem_numbersItems.mpr ⟨tree, htree, hn⟩)
  · rintro ⟨hdepth, hitems⟩
    refine ⟨?_, fun n hn => ?_⟩
    · have hnesting : Value.nestingItems items ≤ maxDepth - depth :=
        Value.nestingItems_le.mpr fun tree htree => by
          have hle := (hitems tree htree).nesting_le
          omega
      rw [Value.nesting]
      omega
    · obtain ⟨tree, htree, hn⟩ := Value.mem_numbersItems.mp hn
      exact (hitems tree htree).fits n hn

theorem withinLimits_object {depth : ℕ} {members : List (List UInt16 × Value Numeral)} :
    WithinLimits depth (.object members) ↔
      depth ≤ maxDepth ∧ ∀ m ∈ members, WithinLimits (depth + 1) m.2 := by
  -- The keys have no part in the limits.
  have harray : WithinLimits depth (.object members) ↔
      WithinLimits depth (.array (members.map Prod.snd)) := by
    have hnesting : (Value.object members).nesting =
        (Value.array (members.map Prod.snd)).nesting := Value.nestingMembers_eq members
    have hnumbers : (Value.object members).numbers =
        (Value.array (members.map Prod.snd)).numbers := Value.numbersMembers_eq members
    constructor
    · intro h
      exact ⟨hnesting ▸ h.nesting_le, hnumbers ▸ h.fits⟩
    · intro h
      exact ⟨hnesting ▸ h.nesting_le, hnumbers ▸ h.fits⟩
  rw [harray, withinLimits_array, List.forall_mem_map]

theorem Decodes.array {depth : ℕ} {trees : List (Value Numeral)} {vs : List (Value BigDecimal)}
    (hdepth : depth ≤ maxDepth) (h : List.Forall₂ (Decodes (depth + 1)) trees vs) :
    Decodes depth (.array trees) (.array vs) := by
  have hlimits : ∀ tree ∈ trees, WithinLimits (depth + 1) tree := by
    induction h with
    | nil => simp
    | cons hv _ ih => exact List.forall_mem_cons.mpr ⟨hv.toWithinLimits, ih⟩
  have hvalue : Value.mapItems BigDecimal.value vs = Value.denoteItems trees := by
    induction h with
    | nil => rfl
    | cons hv _ ih =>
      rw [Value.mapItems, Value.denoteItems, hv.value_eq,
        ih (List.forall_mem_cons.mp hlimits).2]
  exact ⟨withinLimits_array.mpr ⟨hdepth, hlimits⟩, by rw [Value.map, hvalue, Value.denote]⟩

theorem Decodes.object {depth : ℕ} {members : List (List UInt16 × Value Numeral)}
    {pairs : List (List UInt16 × Value BigDecimal)} (hdepth : depth ≤ maxDepth)
    (h : List.Forall₂ (MemberDecodes (depth + 1)) members pairs) :
    Decodes depth (.object members) (.object
      (pairs.foldl (fun m pair => m.set pair.1 pair.2) InsertionMap.empty).entries) := by
  have hlimits : ∀ m ∈ members, WithinLimits (depth + 1) m.2 := by
    induction h with
    | nil => simp
    | cons hm _ ih => exact List.forall_mem_cons.mpr ⟨hm.2.toWithinLimits, ih⟩
  have hvalue : Value.mapMembers BigDecimal.value pairs = Value.denoteMembers members := by
    induction h with
    | nil => rfl
    | cons hm _ ih =>
      rw [Value.mapMembers, Value.denoteMembers, hm.1, hm.2.value_eq,
        ih (List.forall_mem_cons.mp hlimits).2]
  refine ⟨withinLimits_object.mpr ⟨hdepth, hlimits⟩, ?_⟩
  rw [Value.map, Value.mapMembers_foldl_set, hvalue, Value.denote]

section
variable {input : List UInt16}

/-- What the functions of the parser return with the fuel comes from the grammar. -/
structure Sound (input : List UInt16) (fuel : ℕ) : Prop where
  value : ∀ {depth : ℕ} {rest r : List UInt16} {v : Value BigDecimal},
    parseValue input fuel depth rest = .ok (v, r) →
    ∃ w text tree, Whitespace w ∧ rest = w ++ (text ++ r) ∧ ValueText digits text tree ∧
      Decodes depth tree v
  array : ∀ {depth : ℕ} {rest r : List UInt16} {v : Value BigDecimal}, depth ≤ maxDepth →
    parseArray input fuel (depth + 1) rest = .ok (v, r) →
    ∃ text tree, rest = text ++ r ∧ ValueText digits text tree ∧ Decodes depth tree v
  arrayLoop : ∀ {depth : ℕ} {values : List (Value BigDecimal)} {rest r : List UInt16}
    {v : Value BigDecimal}, arrayLoop input fuel depth values rest = .ok (v, r) →
    ∃ w text closing trees vs, Whitespace w ∧ rest = w ++ (text ++ (closing ++ r)) ∧
      ItemsText digits text trees ∧ Structural ']' closing ∧ v = .array (values ++ vs) ∧
      List.Forall₂ (Decodes depth) trees vs
  object : ∀ {depth : ℕ} {rest r : List UInt16} {v : Value BigDecimal}, depth ≤ maxDepth →
    parseObject input fuel (depth + 1) rest = .ok (v, r) →
    ∃ text tree, rest = text ++ r ∧ ValueText digits text tree ∧ Decodes depth tree v
  objectLoop : ∀ {depth : ℕ} {m : InsertionMap (List UInt16) (Value BigDecimal)}
    {rest r : List UInt16} {v : Value BigDecimal}, objectLoop input fuel depth m rest = .ok (v, r) →
    ∃ w text closing members pairs, Whitespace w ∧ rest = w ++ (text ++ (closing ++ r)) ∧
      MembersText digits text members ∧ Structural '}' closing ∧
      v = .object (pairs.foldl (fun m pair => m.set pair.1 pair.2) m).entries ∧
      List.Forall₂ (MemberDecodes depth) members pairs

theorem sound_value {fuel : ℕ} (h : Sound input fuel) {depth : ℕ} {rest r : List UInt16}
    {v : Value BigDecimal} (hparse : parseValue input (fuel + 1) depth rest = .ok (v, r)) :
    ∃ w text tree, Whitespace w ∧ rest = w ++ (text ++ r) ∧ ValueText digits text tree ∧
      Decodes depth tree v := by
  obtain ⟨w, hw, hrest⟩ := exists_skipWhitespace rest
  rw [parseValue] at hparse
  split at hparse
  · simp at hparse
  rename_i hdepth
  have hdepth : depth ≤ maxDepth := not_lt.mp hdepth
  -- What is left after the whitespace is the text of a value and the rest.
  suffices hvalue : ∃ text tree, skipWhitespace rest = text ++ r ∧ ValueText digits text tree ∧
      Decodes depth tree v by
    obtain ⟨text, tree, htext, hvalue, hdecodes⟩ := hvalue
    exact ⟨w, text, tree, hw, by rw [← htext]; exact hrest, hvalue, hdecodes⟩
  cases hskip : skipWhitespace rest with
  | nil =>
    rw [hskip] at hparse
    simp at hparse
  | cons u us =>
    rw [hskip] at hparse
    dsimp only at hparse
    split_ifs at hparse with hobject harray hstring htrue hfalse hnull
    · exact h.object hdepth hparse
    · exact h.array hdepth hparse
    · obtain ⟨⟨s, r'⟩, hscan, heq⟩ := map_eq_ok.mp hparse
      cases heq
      obtain ⟨text, htext, heq⟩ := parseString_eq_ok.mp hscan
      exact ⟨text, .string s, heq, .string htext,
        withinLimits_leaf hdepth rfl (by simp [Value.numbers]), rfl⟩
    · obtain ⟨rfl, heq⟩ := parseLiteral_eq_ok.mp hparse
      exact ⟨_, .bool true, heq, .true, withinLimits_leaf hdepth rfl (by simp [Value.numbers]), rfl⟩
    · obtain ⟨rfl, heq⟩ := parseLiteral_eq_ok.mp hparse
      exact ⟨_, .bool false, heq, .false, withinLimits_leaf hdepth rfl (by simp [Value.numbers]),
        rfl⟩
    · obtain ⟨rfl, heq⟩ := parseLiteral_eq_ok.mp hparse
      exact ⟨_, .null, heq, .null, withinLimits_leaf hdepth rfl (by simp [Value.numbers]), rfl⟩
    · obtain ⟨⟨n, r'⟩, hscan, heq⟩ := map_eq_ok.mp hparse
      cases heq
      obtain ⟨text, numeral, htext, heq, hfits, rfl⟩ := parseNumber_sound hscan
      refine ⟨text, .number numeral, heq, .number htext,
        withinLimits_leaf hdepth rfl (by simpa [Value.numbers] using hfits), ?_⟩
      rw [Value.map, BigDecimal.value_ofNumeral, Value.denote]

theorem sound_array {fuel : ℕ} (h : Sound input fuel) {depth : ℕ} {rest r : List UInt16}
    {v : Value BigDecimal} (hdepth : depth ≤ maxDepth)
    (hparse : parseArray input (fuel + 1) (depth + 1) rest = .ok (v, r)) :
    ∃ text tree, rest = text ++ r ∧ ValueText digits text tree ∧ Decodes depth tree v := by
  rw [parseArray] at hparse
  obtain ⟨us, hconsume, hbody⟩ := bind_eq_ok.mp hparse
  obtain rfl := consume_eq_ok.mp hconsume
  obtain ⟨w, hw, hus⟩ := exists_skipWhitespace us
  cases hclose : tryConsume ']' (skipWhitespace us) with
  | some rest =>
    rw [hclose] at hbody
    cases hbody
    rw [tryConsume_eq_some.mp hclose] at hus
    refine ⟨(unit '[' :: w) ++ [unit ']'], .array [], by simp [hus], .emptyArray ⟨[], w, ?_⟩ ?_,
      .array hdepth .nil⟩
    · exact ⟨whitespace_nil, hw, rfl⟩
    · exact ⟨[], [], whitespace_nil, whitespace_nil, rfl⟩
  | none =>
    rw [hclose] at hbody
    obtain ⟨w', text, closing, trees, vs, hw', hskip, hitems, hclosing, rfl, hall⟩ :=
      h.arrayLoop hbody
    rw [hskip] at hus
    refine ⟨(unit '[' :: (w ++ w')) ++ (text ++ closing), .array trees, by simp [hus],
      .array ⟨[], w ++ w', whitespace_nil, hw.append hw', rfl⟩ hitems hclosing, ?_⟩
    exact .array hdepth hall

theorem sound_arrayLoop {fuel : ℕ} (h : Sound input fuel) {depth : ℕ}
    {values : List (Value BigDecimal)} {rest r : List UInt16} {v : Value BigDecimal}
    (hparse : arrayLoop input (fuel + 1) depth values rest = .ok (v, r)) :
    ∃ w text closing trees vs, Whitespace w ∧ rest = w ++ (text ++ (closing ++ r)) ∧
      ItemsText digits text trees ∧ Structural ']' closing ∧ v = .array (values ++ vs) ∧
      List.Forall₂ (Decodes depth) trees vs := by
  rw [arrayLoop] at hparse
  obtain ⟨⟨value, rest₁⟩, hvalue, hbody⟩ := bind_eq_ok.mp hparse
  obtain ⟨w, text, tree, hw, rfl, htext, hdecodes⟩ := h.value hvalue
  obtain ⟨w₁, hw₁, hrest₁⟩ := exists_skipWhitespace rest₁
  dsimp only at hbody
  cases hclose : tryConsume ']' (skipWhitespace rest₁) with
  | some rest₂ =>
    rw [hclose] at hbody
    cases hbody
    rw [tryConsume_eq_some.mp hclose] at hrest₁
    exact ⟨w, text, w₁ ++ [unit ']'], [tree], [value], hw, by simp [hrest₁], .last htext,
      ⟨w₁, [], hw₁, whitespace_nil, rfl⟩, rfl, .cons hdecodes .nil⟩
  | none =>
    rw [hclose] at hbody
    obtain ⟨rest₂, hconsume, hloop⟩ := bind_eq_ok.mp hbody
    rw [consume_eq_ok.mp hconsume] at hrest₁
    obtain ⟨w₂, text₂, closing, trees, vs, hw₂, rfl, hitems, hclosing, rfl, hall⟩ :=
      h.arrayLoop hloop
    exact ⟨w, text ++ ((w₁ ++ unit ',' :: w₂) ++ text₂), closing, tree :: trees, value :: vs, hw,
      by simp [hrest₁], .more htext ⟨w₁, w₂, hw₁, hw₂, rfl⟩ hitems, hclosing, by simp,
      .cons hdecodes hall⟩

theorem sound_object {fuel : ℕ} (h : Sound input fuel) {depth : ℕ} {rest r : List UInt16}
    {v : Value BigDecimal} (hdepth : depth ≤ maxDepth)
    (hparse : parseObject input (fuel + 1) (depth + 1) rest = .ok (v, r)) :
    ∃ text tree, rest = text ++ r ∧ ValueText digits text tree ∧ Decodes depth tree v := by
  rw [parseObject] at hparse
  obtain ⟨us, hconsume, hbody⟩ := bind_eq_ok.mp hparse
  obtain rfl := consume_eq_ok.mp hconsume
  obtain ⟨w, hw, hus⟩ := exists_skipWhitespace us
  cases hclose : tryConsume '}' (skipWhitespace us) with
  | some rest =>
    rw [hclose] at hbody
    cases hbody
    rw [tryConsume_eq_some.mp hclose] at hus
    refine ⟨(unit '{' :: w) ++ [unit '}'], .object [], by simp [hus], .emptyObject ⟨[], w, ?_⟩ ?_,
      .object hdepth .nil⟩
    · exact ⟨whitespace_nil, hw, rfl⟩
    · exact ⟨[], [], whitespace_nil, whitespace_nil, rfl⟩
  | none =>
    rw [hclose] at hbody
    obtain ⟨w', text, closing, members, pairs, hw', hskip, hmembers, hclosing, rfl, hall⟩ :=
      h.objectLoop hbody
    rw [hskip] at hus
    refine ⟨(unit '{' :: (w ++ w')) ++ (text ++ closing), .object members, by simp [hus],
      .object ⟨[], w ++ w', whitespace_nil, hw.append hw', rfl⟩ hmembers hclosing, ?_⟩
    exact .object hdepth hall

theorem sound_objectLoop {fuel : ℕ} (h : Sound input fuel) {depth : ℕ}
    {m : InsertionMap (List UInt16) (Value BigDecimal)} {rest r : List UInt16}
    {v : Value BigDecimal} (hparse : objectLoop input (fuel + 1) depth m rest = .ok (v, r)) :
    ∃ w text closing members pairs, Whitespace w ∧ rest = w ++ (text ++ (closing ++ r)) ∧
      MembersText digits text members ∧ Structural '}' closing ∧
      v = .object (pairs.foldl (fun m pair => m.set pair.1 pair.2) m).entries ∧
      List.Forall₂ (MemberDecodes depth) members pairs := by
  rw [objectLoop] at hparse
  split at hparse
  · simp at hparse
  obtain ⟨w, hw, hrest⟩ := exists_skipWhitespace rest
  obtain ⟨⟨key, rest₁⟩, hkey, hnamed⟩ := bind_eq_ok.mp hparse
  obtain ⟨name, hname, hskip⟩ := parseString_eq_ok.mp hkey
  obtain ⟨w₁, hw₁, hrest₁⟩ := exists_skipWhitespace rest₁
  obtain ⟨rest₂, hcolon, hseparated⟩ := bind_eq_ok.mp hnamed
  obtain ⟨⟨value, rest₃⟩, hvalue, hbody⟩ := bind_eq_ok.mp hseparated
  obtain ⟨w₂, text, tree, hw₂, rfl, htext, hdecodes⟩ := h.value hvalue
  obtain ⟨w₃, hw₃, hrest₃⟩ := exists_skipWhitespace rest₃
  rw [consume_eq_ok.mp hcolon] at hrest₁
  rw [hskip, hrest₁] at hrest
  have hmember : MemberText digits (name ++ ((w₁ ++ unit ':' :: w₂) ++ text)) (key, tree) :=
    .member hname ⟨w₁, w₂, hw₁, hw₂, rfl⟩ htext
  dsimp only at hbody
  cases hclose : tryConsume '}' (skipWhitespace rest₃) with
  | some rest₄ =>
    rw [hclose] at hbody
    cases hbody
    rw [tryConsume_eq_some.mp hclose] at hrest₃
    exact ⟨w, _, w₃ ++ [unit '}'], [(key, tree)], [(key, value)], hw, by simp [hrest, hrest₃],
      .last hmember, ⟨w₃, [], hw₃, whitespace_nil, rfl⟩, rfl, .cons ⟨rfl, hdecodes⟩ .nil⟩
  | none =>
    rw [hclose] at hbody
    obtain ⟨rest₄, hcomma, hloop⟩ := bind_eq_ok.mp hbody
    rw [consume_eq_ok.mp hcomma] at hrest₃
    obtain ⟨w₄, text₂, closing, members, pairs, hw₄, rfl, hmembers, hclosing, rfl, hall⟩ :=
      h.objectLoop hloop
    exact ⟨w, _, closing, (key, tree) :: members, (key, value) :: pairs, hw,
      by simp [hrest, hrest₃], .more hmember ⟨w₃, w₄, hw₃, hw₄, rfl⟩ hmembers, hclosing, rfl,
      .cons ⟨rfl, hdecodes⟩ hall⟩

theorem sound (input : List UInt16) (fuel : ℕ) : Sound input fuel := by
  induction fuel with
  | zero =>
    constructor
    · intro depth rest r v h
      simp [parseValue] at h
    · intro depth rest r v _ h
      simp [parseArray] at h
    · intro depth values rest r v h
      simp [arrayLoop] at h
    · intro depth rest r v _ h
      simp [parseObject] at h
    · intro depth m rest r v h
      simp [objectLoop] at h
  | succ fuel ih =>
    exact ⟨sound_value ih, sound_array ih, sound_arrayLoop ih, sound_object ih, sound_objectLoop ih⟩

end

end OptoSync.StrictJson
