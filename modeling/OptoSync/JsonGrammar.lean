import Mathlib
import OptoSync.InsertionOrder

/-!
# The JSON grammar

The grammar of RFC 8259 over UTF-16 code units, one relation for each rule. What counts as a digit is
a parameter: `rfc8259` has the digits of the grammar itself.
-/
namespace OptoSync.JsonGrammar

open InsertionOrder

def unit (c : Char) : UInt16 := c.toNat.toUInt16

def units (s : String) : List UInt16 := s.toList.map unit

/-- The members of an object stand in their order, with their repetitions. -/
inductive Value (ν : Type) where
  | null
  | bool (value : Bool)
  | number (value : ν)
  | string (value : List UInt16)
  | array (items : List (Value ν))
  | object (members : List (List UInt16 × Value ν))

structure Numeral where
  negative : Bool
  integer : List ℕ
  fraction : List ℕ
  exponent : ℤ
  deriving DecidableEq, Repr

def natural (digits : List ℕ) : ℕ := Nat.ofDigits 10 digits.reverse

def signed (negative : Bool) (n : ℤ) : ℤ := if negative then -n else n

/-- The exact number that the numeral writes. -/
def Numeral.value (n : Numeral) : ℚ :=
  signed n.negative 1 * (natural n.integer + natural n.fraction / 10 ^ n.fraction.length) *
    10 ^ n.exponent

structure Digits where
  digit : UInt16 → Option ℕ
  hexDigit : UInt16 → Option ℕ

def isBlank (u : UInt16) : Bool :=
  u = unit ' ' ∨ u = unit '\n' ∨ u = unit '\r' ∨ u = unit '\t'

def Whitespace (text : List UInt16) : Prop := ∀ u ∈ text, isBlank u = true

/-- A structural character and the whitespace around it. -/
def Structural (c : Char) (text : List UInt16) : Prop :=
  ∃ before after, Whitespace before ∧ Whitespace after ∧ text = before ++ unit c :: after

section
variable (d : Digits)

def DigitRun (text : List UInt16) (digits : List ℕ) : Prop :=
  text ≠ [] ∧ text.map d.digit = digits.map some

inductive IntegerPart : List UInt16 → List ℕ → Prop
  | zero : IntegerPart [unit '0'] [0]
  | digits {text : List UInt16} {digits : List ℕ} (hrun : DigitRun d text digits)
      (hfirst : text.head? ≠ some (unit '0')) : IntegerPart text digits

inductive FractionPart : List UInt16 → List ℕ → Prop
  | absent : FractionPart [] []
  | present {text : List UInt16} {digits : List ℕ} (hrun : DigitRun d text digits) :
      FractionPart (unit '.' :: text) digits

inductive Sign : List UInt16 → Bool → Prop
  | absent : Sign [] false
  | plus : Sign [unit '+'] false
  | minus : Sign [unit '-'] true

inductive ExponentPart : List UInt16 → ℤ → Prop
  | absent : ExponentPart [] 0
  | present {mark : UInt16} {sign text : List UInt16} {negative : Bool} {digits : List ℕ}
      (hmark : mark = unit 'e' ∨ mark = unit 'E') (hsign : Sign sign negative)
      (hrun : DigitRun d text digits) :
      ExponentPart (mark :: (sign ++ text)) (signed negative (natural digits))

def minus (negative : Bool) : List UInt16 := if negative then [unit '-'] else []

inductive NumberText : List UInt16 → Numeral → Prop
  | number {i f e : List UInt16} {negative : Bool} {integer fraction : List ℕ} {exponent : ℤ}
      (hinteger : IntegerPart d i integer) (hfraction : FractionPart d f fraction)
      (hexponent : ExponentPart d e exponent) :
      NumberText (minus negative ++ (i ++ (f ++ e))) ⟨negative, integer, fraction, exponent⟩

/-- What a character that follows a backslash stands for, unless it is a `u`. -/
def shortEscape (u : UInt16) : Option UInt16 :=
  if u = unit '\"' ∨ u = unit '\\' ∨ u = unit '/' then some u
  else if u = unit 'b' then some (unit '\x08')
  else if u = unit 'f' then some (unit '\x0c')
  else if u = unit 'n' then some (unit '\n')
  else if u = unit 'r' then some (unit '\r')
  else if u = unit 't' then some (unit '\t')
  else none

def hexUnit (w x y z : ℕ) : UInt16 := UInt16.ofNat (((w * 16 + x) * 16 + y) * 16 + z)

/-- What follows a backslash. -/
inductive Escape : List UInt16 → UInt16 → Prop
  | short {u v : UInt16} (h : shortEscape u = some v) : Escape [u] v
  | hex {a b c e : UInt16} {w x y z : ℕ} (ha : d.hexDigit a = some w) (hb : d.hexDigit b = some x)
      (hc : d.hexDigit c = some y) (he : d.hexDigit e = some z) :
      Escape [unit 'u', a, b, c, e] (hexUnit w x y z)

/-- The characters between the quotes of a string. -/
inductive Characters : List UInt16 → List UInt16 → Prop
  | nil : Characters [] []
  | unescaped {u : UInt16} {text value : List UInt16} (hlow : 0x20 ≤ u) (hquote : u ≠ unit '\"')
      (hslash : u ≠ unit '\\') (htext : Characters text value) : Characters (u :: text) (u :: value)
  | escaped {e text value : List UInt16} {v : UInt16} (hescape : Escape d e v)
      (htext : Characters text value) : Characters (unit '\\' :: (e ++ text)) (v :: value)

inductive StringText : List UInt16 → List UInt16 → Prop
  | quoted {text value : List UInt16} (htext : Characters d text value) :
      StringText (unit '\"' :: (text ++ [unit '\"'])) value

mutual

inductive ValueText : List UInt16 → Value Numeral → Prop
  | null : ValueText (units "null") .null
  | true : ValueText (units "true") (.bool Bool.true)
  | false : ValueText (units "false") (.bool Bool.false)
  | number {text : List UInt16} {n : Numeral} (h : NumberText d text n) : ValueText text (.number n)
  | string {text value : List UInt16} (h : StringText d text value) : ValueText text (.string value)
  | emptyArray {opening closing : List UInt16} (hopening : Structural '[' opening)
      (hclosing : Structural ']' closing) : ValueText (opening ++ closing) (.array [])
  | array {opening text closing : List UInt16} {items : List (Value Numeral)}
      (hopening : Structural '[' opening) (hitems : ItemsText text items)
      (hclosing : Structural ']' closing) : ValueText (opening ++ (text ++ closing)) (.array items)
  | emptyObject {opening closing : List UInt16} (hopening : Structural '{' opening)
      (hclosing : Structural '}' closing) : ValueText (opening ++ closing) (.object [])
  | object {opening text closing : List UInt16} {members : List (List UInt16 × Value Numeral)}
      (hopening : Structural '{' opening) (hmembers : MembersText text members)
      (hclosing : Structural '}' closing) :
      ValueText (opening ++ (text ++ closing)) (.object members)

inductive ItemsText : List UInt16 → List (Value Numeral) → Prop
  | last {text : List UInt16} {v : Value Numeral} (hv : ValueText text v) : ItemsText text [v]
  | more {text separator rest : List UInt16} {v : Value Numeral} {vs : List (Value Numeral)}
      (hv : ValueText text v) (hseparator : Structural ',' separator) (hvs : ItemsText rest vs) :
      ItemsText (text ++ (separator ++ rest)) (v :: vs)

inductive MembersText : List UInt16 → List (List UInt16 × Value Numeral) → Prop
  | last {text : List UInt16} {m : List UInt16 × Value Numeral} (hm : MemberText text m) :
      MembersText text [m]
  | more {text separator rest : List UInt16} {m : List UInt16 × Value Numeral}
      {ms : List (List UInt16 × Value Numeral)} (hm : MemberText text m)
      (hseparator : Structural ',' separator) (hms : MembersText rest ms) :
      MembersText (text ++ (separator ++ rest)) (m :: ms)

inductive MemberText : List UInt16 → List UInt16 × Value Numeral → Prop
  | member {name separator text key : List UInt16} {v : Value Numeral}
      (hname : StringText d name key) (hseparator : Structural ':' separator)
      (hv : ValueText text v) : MemberText (name ++ (separator ++ text)) (key, v)

end

/-- A JSON text. -/
inductive JsonText : List UInt16 → Value Numeral → Prop
  | text {before text after : List UInt16} {v : Value Numeral} (hbefore : Whitespace before)
      (hv : ValueText d text v) (hafter : Whitespace after) : JsonText (before ++ (text ++ after)) v

end

theorem Whitespace.append {w w' : List UInt16} (hw : Whitespace w) (hw' : Whitespace w') :
    Whitespace (w ++ w') := by
  intro u hu
  exact (List.mem_append.mp hu).elim (hw u) (hw' u)

theorem whitespace_nil : Whitespace [] := by
  simp [Whitespace]

theorem natural_append (integer fraction : List ℕ) :
    natural (integer ++ fraction) =
      natural integer * 10 ^ fraction.length + natural fraction := by
  unfold natural
  rw [List.reverse_append, Nat.ofDigits_append, List.length_reverse]
  ring

theorem signed_mul (negative : Bool) (n : ℤ) : signed negative n = signed negative 1 * n := by
  unfold signed
  split <;> ring

/-- The digits that a text starts with, and the rest of it. -/
def readDigits (digit : UInt16 → Option ℕ) : List UInt16 → List ℕ × List UInt16
  | [] => ([], [])
  | u :: us =>
    match digit u with
    | some v => (v :: (readDigits digit us).1, (readDigits digit us).2)
    | none => ([], u :: us)

/-- The first unit, if there is one, is no digit. -/
def Ends (digit : UInt16 → Option ℕ) (rest : List UInt16) : Prop :=
  ∀ u ∈ rest.head?, digit u = none

theorem ends_nil {digit : UInt16 → Option ℕ} : Ends digit [] := by
  simp [Ends]

theorem readDigits_of_ends {digit : UInt16 → Option ℕ} {rest : List UInt16} (h : Ends digit rest) :
    readDigits digit rest = ([], rest) := by
  cases rest with
  | nil => rfl
  | cons u us => rw [readDigits, h u rfl]

theorem readDigits_run {digit : UInt16 → Option ℕ} {text rest : List UInt16} {digits : List ℕ}
    (h : text.map digit = digits.map some) (hrest : Ends digit rest) :
    readDigits digit (text ++ rest) = (digits, rest) := by
  induction text generalizing digits with
  | nil =>
    have hnil : digits = [] := by simpa using h.symm
    rw [hnil, List.nil_append, readDigits_of_ends hrest]
  | cons u us ih =>
    cases digits with
    | nil => simp at h
    | cons v vs =>
      simp only [List.map_cons, List.cons.injEq] at h
      rw [List.cons_append, readDigits, h.1]
      simp only [ih h.2]

theorem IntegerPart.ne_nil {d : Digits} {text : List UInt16} {digits : List ℕ}
    (h : IntegerPart d text digits) : text ≠ [] := by
  cases h with
  | zero => simp
  | digits hrun => exact hrun.1

theorem IntegerPart.map_digit {d : Digits} (hzero : d.digit (unit '0') = some 0) {text : List UInt16}
    {digits : List ℕ} (h : IntegerPart d text digits) : text.map d.digit = digits.map some := by
  cases h with
  | zero => simp [hzero]
  | digits hrun => exact hrun.2

def asciiDigit (u : UInt16) : Option ℕ :=
  if 0x30 ≤ u.toNat ∧ u.toNat ≤ 0x39 then some (u.toNat - 0x30) else none

def asciiHexDigit (u : UInt16) : Option ℕ :=
  if 0x30 ≤ u.toNat ∧ u.toNat ≤ 0x39 then some (u.toNat - 0x30)
  else if 0x41 ≤ u.toNat ∧ u.toNat ≤ 0x46 then some (u.toNat - 0x37)
  else if 0x61 ≤ u.toNat ∧ u.toNat ≤ 0x66 then some (u.toNat - 0x57)
  else none

def rfc8259 : Digits where
  digit := asciiDigit
  hexDigit := asciiHexDigit

namespace Value

variable {ν μ : Type}

mutual

/-- In how many containers the innermost value lies. -/
def nesting : Value ν → ℕ
  | .null | .bool _ | .number _ | .string _ => 0
  | .array items => nestingItems items
  | .object members => nestingMembers members

def nestingItems : List (Value ν) → ℕ
  | [] => 0
  | v :: vs => max (nesting v + 1) (nestingItems vs)

def nestingMembers : List (List UInt16 × Value ν) → ℕ
  | [] => 0
  | (_, v) :: ms => max (nesting v + 1) (nestingMembers ms)

end

mutual

def numbers : Value ν → List ν
  | .null | .bool _ | .string _ => []
  | .number n => [n]
  | .array items => numbersItems items
  | .object members => numbersMembers members

def numbersItems : List (Value ν) → List ν
  | [] => []
  | v :: vs => numbers v ++ numbersItems vs

def numbersMembers : List (List UInt16 × Value ν) → List ν
  | [] => []
  | (_, v) :: ms => numbers v ++ numbersMembers ms

end

theorem nestingItems_le {items : List (Value ν)} {n : ℕ} :
    nestingItems items ≤ n ↔ ∀ v ∈ items, nesting v + 1 ≤ n := by
  induction items with
  | nil => simp [nestingItems]
  | cons v vs ih => simp only [nestingItems, max_le_iff, ih, List.forall_mem_cons]

theorem nestingMembers_eq (members : List (List UInt16 × Value ν)) :
    nestingMembers members = nestingItems (members.map Prod.snd) := by
  induction members with
  | nil => rfl
  | cons m ms ih => rw [nestingMembers, ih, List.map_cons, nestingItems]

theorem mem_numbersItems {items : List (Value ν)} {n : ν} :
    n ∈ numbersItems items ↔ ∃ v ∈ items, n ∈ numbers v := by
  induction items with
  | nil => simp [numbersItems]
  | cons v vs ih => simp only [numbersItems, List.mem_append, ih, List.exists_mem_cons_iff]

theorem numbersMembers_eq (members : List (List UInt16 × Value ν)) :
    numbersMembers members = numbersItems (members.map Prod.snd) := by
  induction members with
  | nil => rfl
  | cons m ms ih => rw [numbersMembers, ih, List.map_cons, numbersItems]

mutual

def map (f : ν → μ) : Value ν → Value μ
  | .null => .null
  | .bool b => .bool b
  | .number n => .number (f n)
  | .string s => .string s
  | .array items => .array (mapItems f items)
  | .object members => .object (mapMembers f members)

def mapItems (f : ν → μ) : List (Value ν) → List (Value μ)
  | [] => []
  | v :: vs => map f v :: mapItems f vs

def mapMembers (f : ν → μ) : List (List UInt16 × Value ν) → List (List UInt16 × Value μ)
  | [] => []
  | (k, v) :: ms => (k, map f v) :: mapMembers f ms

end

/-- The value of the last member with the key. -/
def lastOf (key : List UInt16) (members : List (List UInt16 × Value ν)) : Option (Value ν) :=
  (members.reverse.find? fun m => m.1 = key).map Prod.snd

/-- One entry for each key, with the value of its last member. -/
def collect (members : List (List UInt16 × Value ν)) : List (List UInt16 × Value ν) :=
  (firsts (members.map Prod.fst)).filterMap fun key => (lastOf key members).map fun v => (key, v)

theorem lastOf_concat (members : List (List UInt16 × Value ν)) (k key : List UInt16) (v : Value ν) :
    lastOf key (members ++ [(k, v)]) = if k = key then some v else lastOf key members := by
  unfold lastOf
  rw [List.reverse_append, List.reverse_singleton, List.singleton_append, List.find?_cons]
  by_cases hk : k = key
  · simp [hk]
  · simp [hk]

theorem exists_lastOf {members : List (List UInt16 × Value ν)} {key : List UInt16}
    (h : key ∈ firsts (members.map Prod.fst)) : ∃ v, lastOf key members = some v := by
  obtain ⟨m, hm, rfl⟩ := List.mem_map.mp (mem_firsts.mp h)
  have hsome : (members.reverse.find? fun n => n.1 = m.1).isSome = true := by
    rw [List.find?_isSome]
    exact ⟨m, List.mem_reverse.mpr hm, by simp⟩
  obtain ⟨n, hn⟩ := Option.isSome_iff_exists.mp hsome
  exact ⟨n.2, by rw [lastOf, hn, Option.map_some]⟩

theorem keys_collect (members : List (List UInt16 × Value ν)) :
    (collect members).map Prod.fst = firsts (members.map Prod.fst) := by
  unfold collect
  rw [List.map_filterMap]
  have hkeys : ∀ key ∈ firsts (members.map Prod.fst),
      ((lastOf key members).map fun v => (key, v)).map Prod.fst = some key := by
    intro key hkey
    obtain ⟨v, hv⟩ := exists_lastOf hkey
    rw [hv]
    rfl
  rw [List.filterMap_congr hkeys]
  exact List.filterMap_some

/-- One more member replaces what an earlier one of its key says, or comes last. -/
theorem collect_concat (members : List (List UInt16 × Value ν)) (k : List UInt16) (v : Value ν) :
    collect (members ++ [(k, v)]) =
      if k ∈ (collect members).map Prod.fst then
        (collect members).map (InsertionMap.replaceEntry k v)
      else collect members ++ [(k, v)] := by
  rw [keys_collect]
  unfold collect
  rw [List.map_append, List.map_singleton, firsts_concat, push]
  split
  · rename_i hk
    rw [List.map_filterMap]
    refine List.filterMap_congr fun key hkey => ?_
    rw [lastOf_concat]
    obtain ⟨w, hw⟩ := exists_lastOf hkey
    by_cases heq : k = key
    · simp [heq, hw, InsertionMap.replaceEntry]
    · simp [heq, hw, InsertionMap.replaceEntry, Ne.symm heq]
  · rename_i hk
    rw [List.filterMap_append]
    congr 1
    · refine List.filterMap_congr fun key hkey => ?_
      have hne : k ≠ key := by
        rintro rfl
        exact hk hkey
      rw [lastOf_concat, if_neg hne]
    · simp [lastOf_concat]

mutual

/-- The numbers themselves, and of each object what its last members say. -/
def denote : Value Numeral → Value ℚ
  | .null => .null
  | .bool b => .bool b
  | .number n => .number n.value
  | .string s => .string s
  | .array items => .array (denoteItems items)
  | .object members => .object (collect (denoteMembers members))

def denoteItems : List (Value Numeral) → List (Value ℚ)
  | [] => []
  | v :: vs => denote v :: denoteItems vs

def denoteMembers : List (List UInt16 × Value Numeral) → List (List UInt16 × Value ℚ)
  | [] => []
  | (k, v) :: ms => (k, denote v) :: denoteMembers ms

end

theorem mapMembers_eq (f : ν → μ) (members : List (List UInt16 × Value ν)) :
    mapMembers f members = members.map (Prod.map id (map f)) := by
  induction members with
  | nil => rfl
  | cons m ms ih =>
    obtain ⟨k, v⟩ := m
    rw [mapMembers, ih]
    rfl

/-- Setting a member of a map shows in what it means as one more member. -/
theorem mapMembers_set (f : ν → μ) (m : InsertionMap (List UInt16) (Value ν)) (k : List UInt16)
    (v : Value ν) {members : List (List UInt16 × Value μ)}
    (h : mapMembers f m.entries = collect members) :
    mapMembers f (m.set k v).entries = collect (members ++ [(k, map f v)]) := by
  have hkeys : (collect members).map Prod.fst = m.entries.map Prod.fst := by
    rw [← h, mapMembers_eq, List.map_map]
    rfl
  rw [collect_concat, hkeys, ← h]
  simp only [mapMembers_eq, InsertionMap.set]
  split
  · rw [List.map_map, List.map_map]
    refine List.map_congr_left fun entry _ => ?_
    by_cases hentry : entry.1 = k
    · simp [InsertionMap.replaceEntry, hentry]
    · simp [InsertionMap.replaceEntry, hentry]
  · simp

/-- A map that is filled member by member means what its members mean together. -/
theorem mapMembers_foldl_set (f : ν → μ) (pairs : List (List UInt16 × Value ν)) :
    mapMembers f (pairs.foldl (fun m pair => m.set pair.1 pair.2) InsertionMap.empty).entries =
      collect (mapMembers f pairs) := by
  induction pairs using List.reverseRecOn with
  | nil => rfl
  | append_singleton pairs pair ih =>
    rw [List.foldl_append, List.foldl_cons, List.foldl_nil, mapMembers_set f _ _ _ ih,
      mapMembers_eq, mapMembers_eq, List.map_append]
    rfl

end Value

end OptoSync.JsonGrammar
