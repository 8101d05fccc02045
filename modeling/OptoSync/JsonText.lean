import OptoSync.Decimal
import OptoSync.Json

/-!
# JSON text

The text that `serde_json::to_string`, `json.Marshal` and their like print for a value, and a reader
of such text. Printers differ in the characters that they spell as `\u` escapes. The reader takes
every spelling back, so the text of a value without floats determines the value.
-/
namespace OptoSync.Json

def hex4 (n : ℕ) : List Char :=
  [n / 4096 % 16, n / 256 % 16, n / 16 % 16, n % 16].map Nat.digitChar

/-- A character between the quotes. Besides the control characters, those of `escaped` are spelled
as `\u` escapes. -/
def spell (escaped : Char → Bool) (c : Char) : List Char :=
  if c = '\"' then ['\\', '\"']
  else if c = '\\' then ['\\', '\\']
  else if c = '\x08' then ['\\', 'b']
  else if c = '\x0c' then ['\\', 'f']
  else if c = '\n' then ['\\', 'n']
  else if c = '\r' then ['\\', 'r']
  else if c = '\t' then ['\\', 't']
  else if c.toNat < 32 ∨ escaped c = true then '\\' :: 'u' :: hex4 c.toNat
  else [c]

/-- A string with its closing quote, but without the opening one. -/
def printString (escaped : Char → Bool) (value : String) : List Char :=
  value.toList.flatMap (spell escaped) ++ ['\"']

def printInt : ℤ → List Char
  | .ofNat n => Nat.toDigits 10 n
  | .negSucc n => '-' :: Nat.toDigits 10 (n + 1)

mutual
def print (escaped : Char → Bool) : Json → List Char
  | .null => ['n', 'u', 'l', 'l']
  | .bool true => ['t', 'r', 'u', 'e']
  | .bool false => ['f', 'a', 'l', 's', 'e']
  | .number (.int value) => printInt value
  | .number (.float literal) => literal.toList
  | .string value => '\"' :: printString escaped value
  | .array [] => ['[', ']']
  | .array (v :: vs) => '[' :: (print escaped v ++ printItems escaped vs)
  | .object [] => ['{', '}']
  | .object ((k, v) :: fs) =>
    '{' :: '\"' :: (printString escaped k ++ ':' :: (print escaped v ++ printFields escaped fs))

/-- The items after the first, and the closing bracket. -/
def printItems (escaped : Char → Bool) : List Json → List Char
  | [] => [']']
  | v :: vs => ',' :: (print escaped v ++ printItems escaped vs)

def printFields (escaped : Char → Bool) : List (String × Json) → List Char
  | [] => ['}']
  | (k, v) :: fs =>
    ',' :: '\"' :: (printString escaped k ++ ':' :: (print escaped v ++ printFields escaped fs))
end

def text (escaped : Char → Bool) (v : Json) : String := String.ofList (print escaped v)

def hexValue (c : Char) : Option ℕ :=
  if c.isDigit then some (c.toNat - 48)
  else if 97 ≤ c.toNat ∧ c.toNat ≤ 102 then some (c.toNat - 87)
  else if 65 ≤ c.toNat ∧ c.toNat ≤ 70 then some (c.toNat - 55)
  else none

/-- What stands behind a backslash. The printers above never write a surrogate pair. -/
def readEscape : List Char → Option (Char × List Char)
  | '\"' :: r => some ('\"', r)
  | '\\' :: r => some ('\\', r)
  | '/' :: r => some ('/', r)
  | 'b' :: r => some ('\x08', r)
  | 'f' :: r => some ('\x0c', r)
  | 'n' :: r => some ('\n', r)
  | 'r' :: r => some ('\r', r)
  | 't' :: r => some ('\t', r)
  | 'u' :: a :: b :: c :: d :: r => do
    let n := (((← hexValue a) * 16 + (← hexValue b)) * 16 + (← hexValue c)) * 16 + (← hexValue d)
    if n.isValidChar then some (Char.ofNat n, r) else none
  | _ => none

def readString : ℕ → List Char → Option (List Char × List Char)
  | 0, _ | _ + 1, [] => none
  | n + 1, c :: r =>
    if c = '\"' then some ([], r)
    else
      (if c = '\\' then readEscape r else some (c, r)).bind fun p =>
        (readString n p.2).map fun q => (p.1 :: q.1, q.2)

def readNat (cs : List Char) : Option (ℕ × List Char) :=
  (Decimal.parseDigits (cs.takeWhile Char.isDigit)).map fun n => (n, cs.dropWhile Char.isDigit)

def readInt : List Char → Option (ℤ × List Char)
  | '-' :: cs => (readNat cs).map fun p => (-(p.1 : ℤ), p.2)
  | cs => (readNat cs).map fun p => ((p.1 : ℤ), p.2)

mutual
/-- Read one value without blanks and without floats. -/
def readValue : ℕ → List Char → Option (Json × List Char)
  | 0, _ => none
  | _ + 1, 'n' :: 'u' :: 'l' :: 'l' :: r => some (.null, r)
  | _ + 1, 't' :: 'r' :: 'u' :: 'e' :: r => some (.bool true, r)
  | _ + 1, 'f' :: 'a' :: 'l' :: 's' :: 'e' :: r => some (.bool false, r)
  | n + 1, '\"' :: r => do
    let (value, r) ← readString n r
    some (.string (String.ofList value), r)
  | _ + 1, '[' :: ']' :: r => some (.array [], r)
  | n + 1, '[' :: r => do
    let (v, r) ← readValue n r
    let (vs, r) ← readItems n r
    some (.array (v :: vs), r)
  | _ + 1, '{' :: '}' :: r => some (.object [], r)
  | n + 1, '{' :: r => do
    let (f, r) ← readField n r
    let (fs, r) ← readFields n r
    some (.object (f :: fs), r)
  | _ + 1, r => (readInt r).map fun p => (.number (.int p.1), p.2)

def readItems : ℕ → List Char → Option (List Json × List Char)
  | _ + 1, ']' :: r => some ([], r)
  | n + 1, ',' :: r => do
    let (v, r) ← readValue n r
    let (vs, r) ← readItems n r
    some (v :: vs, r)
  | _, _ => none

def readField : ℕ → List Char → Option ((String × Json) × List Char)
  | n + 1, '\"' :: r => do
    match ← readString n r with
    | (key, ':' :: r) =>
      let (v, r) ← readValue n r
      some ((String.ofList key, v), r)
    | _ => none
  | _, _ => none

def readFields : ℕ → List Char → Option (List (String × Json) × List Char)
  | _ + 1, '}' :: r => some ([], r)
  | n + 1, ',' :: r => do
    let (f, r) ← readField n r
    let (fs, r) ← readFields n r
    some (f :: fs, r)
  | _, _ => none
end

def read (value : String) : Option Json :=
  match readValue (value.toList.length + 1) value.toList with
  | some (v, []) => some v
  | _ => none

variable {escaped : Char → Bool}

/-- Each escaped character fits in one `\u` escape. -/
def BasicPlane (escaped : Char → Bool) : Prop := ∀ c, escaped c = true → c.toNat < 0x10000

theorem hexValue_digitChar : ∀ n < 16, hexValue (Nat.digitChar n) = some n := by decide

theorem readEscape_hex4 {c : Char} (hc : c.toNat < 0x10000) (r : List Char) :
    readEscape ('u' :: (hex4 c.toNat ++ r)) = some (c, r) := by
  have hdigit : ∀ n, hexValue (Nat.digitChar (n % 16)) = some (n % 16) := fun n =>
    hexValue_digitChar _ (Nat.mod_lt n (by decide))
  have hsum : ((c.toNat / 4096 % 16 * 16 + c.toNat / 256 % 16) * 16 + c.toNat / 16 % 16) * 16 +
      c.toNat % 16 = c.toNat := by omega
  have hvalid : c.toNat.isValidChar := c.valid
  simp [hex4, readEscape, hdigit, hsum, hvalid]

theorem one_le_length_spell (escaped : Char → Bool) (c : Char) : 1 ≤ (spell escaped c).length := by
  unfold spell
  repeat' split
  all_goals simp

theorem length_le_flatMap_spell (escaped : Char → Bool) (cs : List Char) :
    cs.length ≤ (cs.flatMap (spell escaped)).length := by
  induction cs with
  | nil => simp
  | cons c cs ih =>
    have hc := one_le_length_spell escaped c
    simp only [List.flatMap_cons, List.length_append, List.length_cons]
    omega

theorem readString_spell (hescaped : BasicPlane escaped) (c : Char) (n : ℕ)
    (r : List Char) :
    readString (n + 1) (spell escaped c ++ r) =
      (readString n r).map fun p => (c :: p.1, p.2) := by
  unfold spell
  split_ifs with hquote hslash hb hf hn hr ht hu
  any_goals
    subst c
    simp [readString, readEscape]
  · have hc : c.toNat < 0x10000 := hu.elim (fun h => by omega) (hescaped c)
    simp [readString, readEscape_hex4 hc]
  · simp [readString, hquote, hslash]

theorem readString_print (hescaped : BasicPlane escaped) (cs : List Char) {n : ℕ}
    (hn : cs.length < n) (r : List Char) :
    readString n (cs.flatMap (spell escaped) ++ '\"' :: r) = some (cs, r) := by
  induction cs generalizing n with
  | nil =>
    obtain ⟨m, rfl⟩ := Nat.exists_eq_add_of_lt hn
    simp [readString]
  | cons c cs ih =>
    obtain ⟨m, rfl⟩ : ∃ m, n = m + 1 := ⟨n - 1, by simp at hn; omega⟩
    have hm : cs.length < m := by simpa using hn
    simp [readString_spell hescaped, ih hm]

/-- What may follow a number. -/
def Ends (r : List Char) : Prop := ∀ c ∈ r.head?, c.isDigit = false

theorem readNat_toDigits (n : ℕ) {r : List Char} (hr : Ends r) :
    readNat (Nat.toDigits 10 n ++ r) = some (n, r) := by
  have hdigits := (Decimal.canonical_toDigits n).2.1
  rw [readNat, List.takeWhile_append_of_pos hdigits, List.dropWhile_append_of_pos hdigits]
  cases r with
  | nil => simp [Decimal.parseDigits_toDigits]
  | cons c r => simp [hr c rfl, Decimal.parseDigits_toDigits]

theorem readInt_printInt (z : ℤ) {r : List Char} (hr : Ends r) :
    readInt (printInt z ++ r) = some (z, r) := by
  cases z with
  | ofNat n =>
    have hminus := Decimal.head_toDigits_ne (n := n) (c := '-') (by decide)
    have hread := readNat_toDigits n hr
    obtain ⟨c, cs, hcs⟩ := List.exists_cons_of_ne_nil (Decimal.canonical_toDigits n).1
    have hc : c ≠ '-' := by simpa [hcs] using hminus
    rw [hcs] at hread
    rw [printInt, hcs, List.cons_append]
    unfold readInt
    split
    · rename_i heq
      exact absurd (List.cons.inj heq).1 hc
    · rw [← List.cons_append, hread]
      rfl
  | negSucc n =>
    rw [printInt, List.cons_append, readInt, readNat_toDigits (n + 1) hr]
    rfl

mutual
/-- No float anywhere inside. -/
def floatFree : Json → Bool
  | .number (.float _) => false
  | .array items => floatFreeItems items
  | .object fields => floatFreeFields fields
  | _ => true

def floatFreeItems : List Json → Bool
  | [] => true
  | v :: vs => floatFree v && floatFreeItems vs

def floatFreeFields : List (String × Json) → Bool
  | [] => true
  | (_, v) :: fs => floatFree v && floatFreeFields fs
end

mutual
/-- No float inside is spelled with a control character. -/
def visibleFloats : Json → Bool
  | .number (.float literal) => literal.toList.all fun c => 32 ≤ c.toNat
  | .array items => visibleFloatsItems items
  | .object fields => visibleFloatsFields fields
  | _ => true

def visibleFloatsItems : List Json → Bool
  | [] => true
  | v :: vs => visibleFloats v && visibleFloatsItems vs

def visibleFloatsFields : List (String × Json) → Bool
  | [] => true
  | (_, v) :: fs => visibleFloats v && visibleFloatsFields fs
end

mutual
/-- All characters of the strings and keys inside meet `p`. -/
def allChars (p : Char → Bool) : Json → Bool
  | .string value => value.toList.all p
  | .array items => allCharsItems p items
  | .object fields => allCharsFields p fields
  | _ => true

def allCharsItems (p : Char → Bool) : List Json → Bool
  | [] => true
  | v :: vs => allChars p v && allCharsItems p vs

def allCharsFields (p : Char → Bool) : List (String × Json) → Bool
  | [] => true
  | (k, v) :: fs => k.toList.all p && allChars p v && allCharsFields p fs
end

theorem allCharsItems_iff {p : Char → Bool} {items : List Json} :
    allCharsItems p items = true ↔ ∀ v ∈ items, allChars p v = true := by
  induction items with
  | nil => simp [allCharsItems]
  | cons v vs ih => simp [allCharsItems, ih]

theorem allCharsFields_iff {p : Char → Bool} {fields : List (String × Json)} :
    allCharsFields p fields = true ↔
      ∀ f ∈ fields, f.1.toList.all p = true ∧ allChars p f.2 = true := by
  induction fields with
  | nil => simp [allCharsFields]
  | cons f fs ih => simp [allCharsFields, ih]

mutual
/-- A failing character can be named. -/
theorem allChars_of_forall {p : Char → Bool} (v : Json)
    (h : ∀ c, p c = false → allChars (fun d => d ≠ c) v = true) : allChars p v = true := by
  cases v with
  | string value =>
    rw [allChars, List.all_eq_true]
    intro c hc
    by_contra hp
    have hne := h c (by simpa using hp)
    rw [allChars, List.all_eq_true] at hne
    simpa using hne c hc
  | array items => exact allCharsItems_of_forall items h
  | object fields => exact allCharsFields_of_forall fields h
  | _ => rfl

theorem allCharsItems_of_forall {p : Char → Bool} (vs : List Json)
    (h : ∀ c, p c = false → allCharsItems (fun d => d ≠ c) vs = true) :
    allCharsItems p vs = true := by
  cases vs with
  | nil => rfl
  | cons v vs =>
    simp only [allCharsItems, Bool.and_eq_true] at h ⊢
    exact ⟨allChars_of_forall v fun c hc => (h c hc).1,
      allCharsItems_of_forall vs fun c hc => (h c hc).2⟩

theorem allCharsFields_of_forall {p : Char → Bool} (fs : List (String × Json))
    (h : ∀ c, p c = false → allCharsFields (fun d => d ≠ c) fs = true) :
    allCharsFields p fs = true := by
  cases fs with
  | nil => rfl
  | cons f fs =>
    obtain ⟨k, v⟩ := f
    simp only [allCharsFields, Bool.and_eq_true] at h ⊢
    refine ⟨⟨?_, allChars_of_forall v fun c hc => (h c hc).1.2⟩,
      allCharsFields_of_forall fs fun c hc => (h c hc).2⟩
    rw [List.all_eq_true]
    intro c hc
    by_contra hp
    have hne := List.all_eq_true.mp (h c (by simpa using hp)).1.1 c hc
    simp at hne
end

theorem floatFreeItems_iff {items : List Json} :
    floatFreeItems items = true ↔ ∀ v ∈ items, floatFree v = true := by
  induction items with
  | nil => simp [floatFreeItems]
  | cons v vs ih => simp [floatFreeItems, ih]

theorem floatFreeFields_iff {fields : List (String × Json)} :
    floatFreeFields fields = true ↔ ∀ f ∈ fields, floatFree f.2 = true := by
  induction fields with
  | nil => simp [floatFreeFields]
  | cons f fs ih => simp [floatFreeFields, ih]

theorem visibleFloatsItems_iff {items : List Json} :
    visibleFloatsItems items = true ↔ ∀ v ∈ items, visibleFloats v = true := by
  induction items with
  | nil => simp [visibleFloatsItems]
  | cons v vs ih => simp [visibleFloatsItems, ih]

theorem visibleFloatsFields_iff {fields : List (String × Json)} :
    visibleFloatsFields fields = true ↔ ∀ f ∈ fields, visibleFloats f.2 = true := by
  induction fields with
  | nil => simp [visibleFloatsFields]
  | cons f fs ih => simp [visibleFloatsFields, ih]

mutual
theorem visibleFloats_of_floatFree (v : Json) (hv : floatFree v = true) :
    visibleFloats v = true := by
  cases v with
  | number value =>
    cases value with
    | int z => rfl
    | float literal => simp [floatFree] at hv
  | array items => exact visibleFloatsItems_of_floatFree items hv
  | object fields => exact visibleFloatsFields_of_floatFree fields hv
  | _ => rfl

theorem visibleFloatsItems_of_floatFree (vs : List Json) (hvs : floatFreeItems vs = true) :
    visibleFloatsItems vs = true := by
  cases vs with
  | nil => rfl
  | cons v vs =>
    simp only [floatFreeItems, Bool.and_eq_true] at hvs
    simp only [visibleFloatsItems, visibleFloats_of_floatFree v hvs.1,
      visibleFloatsItems_of_floatFree vs hvs.2, Bool.and_self]

theorem visibleFloatsFields_of_floatFree (fs : List (String × Json))
    (hfs : floatFreeFields fs = true) : visibleFloatsFields fs = true := by
  cases fs with
  | nil => rfl
  | cons f fs =>
    obtain ⟨k, v⟩ := f
    simp only [floatFreeFields, Bool.and_eq_true] at hfs
    simp only [visibleFloatsFields, visibleFloats_of_floatFree v hfs.1,
      visibleFloatsFields_of_floatFree fs hfs.2, Bool.and_self]
end

mutual
/-- No object inside has a key twice. -/
def distinctKeys : Json → Bool
  | .array items => distinctKeysItems items
  | .object fields => decide (fields.map Prod.fst).Nodup && distinctKeysFields fields
  | _ => true

def distinctKeysItems : List Json → Bool
  | [] => true
  | v :: vs => distinctKeys v && distinctKeysItems vs

def distinctKeysFields : List (String × Json) → Bool
  | [] => true
  | (_, v) :: fs => distinctKeys v && distinctKeysFields fs
end

theorem ends_printItems (escaped : Char → Bool) (vs : List Json) (r : List Char) :
    Ends (printItems escaped vs ++ r) := by
  cases vs <;> simp [printItems, Ends]

theorem ends_printFields (escaped : Char → Bool) (fs : List (String × Json)) (r : List Char) :
    Ends (printFields escaped fs ++ r) := by
  cases fs <;> simp [printFields, Ends]

theorem printInt_cons (z : ℤ) :
    ∃ c cs, printInt z = c :: cs ∧ ∀ d, d ≠ '-' → d.isDigit = false → c ≠ d := by
  cases z with
  | ofNat n =>
    obtain ⟨hne, hdigits, -⟩ := Decimal.canonical_toDigits n
    obtain ⟨c, cs, hcs⟩ := List.exists_cons_of_ne_nil hne
    have hc : c.isDigit = true := hdigits c (by simp [hcs])
    refine ⟨c, cs, hcs, ?_⟩
    rintro d - hd rfl
    simp [hd] at hc
  | negSucc n => exact ⟨'-', _, rfl, fun d hd _ h => hd h.symm⟩

/-- The first character of a printed number tells it from the other values. -/
theorem readValue_int (z : ℤ) (n : ℕ) {r : List Char} (hr : Ends r) :
    readValue (n + 1) (printInt z ++ r) = some (.number (.int z), r) := by
  have hread := readInt_printInt z hr
  obtain ⟨c, cs, hcs, hother⟩ := printInt_cons z
  rw [hcs, List.cons_append] at hread ⊢
  rw [readValue, hread]
  · rfl
  all_goals
    intros
    rename_i heq
    exact hother _ (by decide) (by decide) (List.cons.inj heq).1

theorem print_ne_bracket {v : Json} (hv : floatFree v = true) (r s : List Char) :
    print escaped v ++ r ≠ ']' :: s := by
  cases v with
  | number value =>
    cases value with
    | float literal => simp [floatFree] at hv
    | int z =>
      obtain ⟨c, cs, hcs, hother⟩ := printInt_cons z
      simp [print, hcs, hother ']' (by decide) (by decide)]
  | bool b => cases b <;> simp [print]
  | array items => cases items <;> simp [print]
  | object fields => cases fields <;> simp [print]
  | null => simp [print]
  | string value => simp [print]

theorem readString_printString (hescaped : BasicPlane escaped) (value : String) {n : ℕ}
    (hn : (printString escaped value).length ≤ n) (r : List Char) :
    readString n (printString escaped value ++ r) = some (value.toList, r) := by
  have hlength := length_le_flatMap_spell escaped value.toList
  simp only [printString, List.length_append, List.length_cons, List.length_nil] at hn
  simpa [printString] using readString_print hescaped value.toList (n := n) (by omega) r

theorem readField_print (hescaped : BasicPlane escaped) (k : String) {v : Json} {n : ℕ}
    (hn : (printString escaped k).length ≤ n) {r : List Char}
    (hvalue : readValue n (print escaped v ++ r) = some (v, r)) :
    readField (n + 1) ('\"' :: (printString escaped k ++ ':' :: (print escaped v ++ r))) =
      some ((k, v), r) := by
  have hkey := readString_printString hescaped k hn (':' :: (print escaped v ++ r))
  simp [readField, hkey, hvalue]

mutual
/-- By recursion on the value; the length of its text bounds the fuel. -/
theorem readValue_print (hescaped : BasicPlane escaped) (v : Json)
    (hv : floatFree v = true) {n : ℕ}
    (hn : (print escaped v).length ≤ n) {r : List Char} (hr : Ends r) :
    readValue n (print escaped v ++ r) = some (v, r) := by
  obtain ⟨m, rfl⟩ : ∃ m, n = m + 1 := by
    have hne : print escaped v ≠ [] := fun h =>
      print_ne_bracket hv [']'] [] (congrArg (· ++ [']']) h)
    have hpos := List.length_pos_of_ne_nil hne
    exact ⟨n - 1, by omega⟩
  cases v with
  | null => simp [print, readValue]
  | bool b => cases b <;> simp [print, readValue]
  | number value =>
    cases value with
    | float literal => simp [floatFree] at hv
    | int z => exact readValue_int z m hr
  | string value =>
    simp only [print, List.length_cons] at hn
    simp [print, readValue, readString_printString hescaped value (n := m) (by omega) r]
  | array items =>
    cases items with
    | nil => simp [print, readValue]
    | cons v vs =>
      simp only [floatFree, floatFreeItems, Bool.and_eq_true] at hv
      simp only [print, List.length_cons, List.length_append] at hn
      have hhead := readValue_print hescaped v hv.1 (n := m) (by omega)
        (ends_printItems escaped vs r)
      have htail := readItems_print hescaped vs hv.2 (n := m) (by omega) r
      rw [print, List.cons_append, List.append_assoc, readValue]
      · simp [hhead, htail]
      · exact fun s => print_ne_bracket hv.1 _ s
  | object fields =>
    cases fields with
    | nil => simp [print, readValue]
    | cons f fs =>
      obtain ⟨k, v⟩ := f
      simp only [floatFree, floatFreeFields, Bool.and_eq_true] at hv
      simp only [print, List.length_cons, List.length_append] at hn
      obtain ⟨l, rfl⟩ : ∃ l, m = l + 1 := ⟨m - 1, by omega⟩
      have hvalue := readValue_print hescaped v hv.1 (n := l) (by omega)
        (ends_printFields escaped fs r)
      have hhead := readField_print hescaped k (by omega) hvalue
      have htail := readFields_print hescaped fs hv.2 (n := l + 1) (by omega) r
      simp [print, readValue, hhead, htail]

theorem readItems_print (hescaped : BasicPlane escaped) (vs : List Json)
    (hvs : floatFreeItems vs = true) {n : ℕ}
    (hn : (printItems escaped vs).length ≤ n) (r : List Char) :
    readItems n (printItems escaped vs ++ r) = some (vs, r) := by
  cases vs with
  | nil =>
    obtain ⟨m, rfl⟩ : ∃ m, n = m + 1 := ⟨n - 1, by simp [printItems] at hn; omega⟩
    simp [printItems, readItems]
  | cons v vs =>
    simp only [floatFreeItems, Bool.and_eq_true] at hvs
    simp only [printItems, List.length_cons, List.length_append] at hn
    obtain ⟨m, rfl⟩ : ∃ m, n = m + 1 := ⟨n - 1, by omega⟩
    have hhead := readValue_print hescaped v hvs.1 (n := m) (by omega)
        (ends_printItems escaped vs r)
    have htail := readItems_print hescaped vs hvs.2 (n := m) (by omega) r
    simp [printItems, readItems, hhead, htail]

theorem readFields_print (hescaped : BasicPlane escaped) (fs : List (String × Json))
    (hfs : floatFreeFields fs = true) {n : ℕ}
    (hn : (printFields escaped fs).length ≤ n) (r : List Char) :
    readFields n (printFields escaped fs ++ r) = some (fs, r) := by
  cases fs with
  | nil =>
    obtain ⟨m, rfl⟩ : ∃ m, n = m + 1 := ⟨n - 1, by simp [printFields] at hn; omega⟩
    simp [printFields, readFields]
  | cons f fs =>
    obtain ⟨k, v⟩ := f
    simp only [floatFreeFields, Bool.and_eq_true] at hfs
    simp only [printFields, List.length_cons, List.length_append] at hn
    obtain ⟨m, rfl⟩ : ∃ m, n = m + 1 := ⟨n - 1, by omega⟩
    obtain ⟨l, rfl⟩ : ∃ l, m = l + 1 := ⟨m - 1, by omega⟩
    have hvalue := readValue_print hescaped v hfs.1 (n := l) (by omega)
        (ends_printFields escaped fs r)
    have hhead := readField_print hescaped k (by omega) hvalue
    have htail := readFields_print hescaped fs hfs.2 (n := l + 1) (by omega) r
    simp [printFields, readFields, hhead, htail]
end

theorem read_text (hescaped : BasicPlane escaped) {v : Json} (hv : floatFree v = true) :
    read (text escaped v) = some v := by
  have hread := readValue_print hescaped v hv (n := (print escaped v).length + 1) (by omega)
    (r := []) (by simp [Ends])
  rw [List.append_nil] at hread
  simp [read, text, hread]

theorem text_inj (hescaped : BasicPlane escaped) {v w : Json} (hv : floatFree v = true)
    (hw : floatFree w = true) (h : text escaped v = text escaped w) : v = w := by
  have hread := read_text hescaped hv
  rw [h, read_text hescaped hw] at hread
  exact (Option.some.inj hread).symm

theorem spell_congr {escaped₁ escaped₂ : Char → Bool} {c : Char} (h : escaped₁ c = escaped₂ c) :
    spell escaped₁ c = spell escaped₂ c := by
  unfold spell
  rw [h]

theorem printString_congr {p escaped₁ escaped₂ : Char → Bool}
    (h : ∀ c, p c = true → escaped₁ c = escaped₂ c) {value : String}
    (hvalue : value.toList.all p = true) :
    printString escaped₁ value = printString escaped₂ value := by
  rw [printString, printString]
  congr 1
  exact List.flatMap_congr fun c hc => spell_congr (h c (List.all_eq_true.mp hvalue c hc))

mutual
theorem print_congr {p escaped₁ escaped₂ : Char → Bool}
    (h : ∀ c, p c = true → escaped₁ c = escaped₂ c) (v : Json) (hv : allChars p v = true) :
    print escaped₁ v = print escaped₂ v := by
  cases v with
  | null => simp [print]
  | bool b => cases b <;> simp [print]
  | number value => cases value <;> simp [print]
  | string value => simp [print, printString_congr h (by simpa [allChars] using hv)]
  | array items =>
    cases items with
    | nil => simp [print]
    | cons v vs =>
      simp only [allChars, allCharsItems, Bool.and_eq_true] at hv
      simp [print, print_congr h v hv.1, printItems_congr h vs hv.2]
  | object fields =>
    cases fields with
    | nil => simp [print]
    | cons f fs =>
      obtain ⟨k, v⟩ := f
      simp only [allChars, allCharsFields, Bool.and_eq_true] at hv
      simp [print, printString_congr h hv.1.1, print_congr h v hv.1.2,
        printFields_congr h fs hv.2]

theorem printItems_congr {p escaped₁ escaped₂ : Char → Bool}
    (h : ∀ c, p c = true → escaped₁ c = escaped₂ c) (vs : List Json)
    (hvs : allCharsItems p vs = true) : printItems escaped₁ vs = printItems escaped₂ vs := by
  cases vs with
  | nil => simp [printItems]
  | cons v vs =>
    simp only [allCharsItems, Bool.and_eq_true] at hvs
    simp [printItems, print_congr h v hvs.1, printItems_congr h vs hvs.2]

theorem printFields_congr {p escaped₁ escaped₂ : Char → Bool}
    (h : ∀ c, p c = true → escaped₁ c = escaped₂ c) (fs : List (String × Json))
    (hfs : allCharsFields p fs = true) : printFields escaped₁ fs = printFields escaped₂ fs := by
  cases fs with
  | nil => simp [printFields]
  | cons f fs =>
    obtain ⟨k, v⟩ := f
    simp only [allCharsFields, Bool.and_eq_true] at hfs
    simp [printFields, printString_congr h hfs.1.1, print_congr h v hfs.1.2,
      printFields_congr h fs hfs.2]
end

theorem text_congr {p escaped₁ escaped₂ : Char → Bool}
    (h : ∀ c, p c = true → escaped₁ c = escaped₂ c) {v : Json} (hv : allChars p v = true) :
    text escaped₁ v = text escaped₂ v := by
  rw [text, text, print_congr h v hv]

/-- A character that a printer writes only where a string contains it. -/
def OnlyInStrings (c : Char) : Prop :=
  32 ≤ c.toNat ∧ c.isDigit = false ∧
    c ∉ ['\"', '\\', '{', '}', '[', ']', ':', ',', '-', 'a', 'b', 'c', 'd', 'e', 'f', 'l', 'n', 'r',
      's', 't', 'u']

theorem digitChar_mem : ∀ n < 16, (Nat.digitChar n).isDigit = true ∨
    Nat.digitChar n ∈ ['a', 'b', 'c', 'd', 'e', 'f'] := by
  decide

theorem not_mem_hex4 {c : Char} (hc : OnlyInStrings c) (n : ℕ) : c ∉ hex4 n := by
  obtain ⟨-, hdigit, hletter⟩ := hc
  intro h
  obtain ⟨m, hm, rfl⟩ := List.mem_map.mp h
  have hlt : m < 16 := by
    simp only [List.mem_cons, List.not_mem_nil, or_false] at hm
    omega
  rcases digitChar_mem m hlt with hd | hl
  · rw [hd] at hdigit
    cases hdigit
  · refine hletter ?_
    revert hl
    generalize Nat.digitChar m = d
    intro hl
    simp only [List.mem_cons, List.not_mem_nil, or_false] at hl ⊢
    tauto

theorem mem_spell {c : Char} (hc : OnlyInStrings c) (d : Char) :
    c ∈ spell escaped d ↔ d = c ∧ escaped c = false := by
  have hhex := not_mem_hex4 hc d.toNat
  obtain ⟨hlow, hdigit, hletter⟩ := hc
  simp only [List.mem_cons, List.not_mem_nil, or_false, not_or] at hletter
  unfold spell
  split_ifs with h1 h2 h3 h4 h5 h6 h7 hlong
  any_goals
    subst d
    refine iff_of_false (by simp [hletter]) ?_
    rintro ⟨rfl, -⟩
    first
      | exact absurd hlow (by decide)
      | simp at hletter
  · refine iff_of_false (by simp [hletter, hhex]) ?_
    rintro ⟨rfl, hc⟩
    rcases hlong with hlong | hlong
    · omega
    · rw [hlong] at hc
      cases hc
  · rw [List.mem_singleton]
    constructor
    · rintro rfl
      exact ⟨rfl, by simpa using (not_or.mp hlong).2⟩
    · exact fun h => h.1.symm

theorem mem_printString {c : Char} (hc : OnlyInStrings c) (value : String) :
    c ∈ printString escaped value ↔
      escaped c = false ∧ value.toList.all (fun d => d ≠ c) = false := by
  have hquote : c ≠ '\"' := fun h => hc.2.2 (by simp [h])
  simp only [printString, List.mem_append, List.mem_flatMap, mem_spell hc, List.mem_singleton,
    hquote, or_false, List.all_eq_false, decide_eq_true_eq, not_not]
  constructor
  · rintro ⟨d, hd, rfl, he⟩
    exact ⟨he, d, hd, rfl⟩
  · rintro ⟨he, d, hd, rfl⟩
    exact ⟨d, hd, rfl, he⟩

theorem not_mem_printInt {c : Char} (hc : OnlyInStrings c) (z : ℤ) : c ∉ printInt z := by
  have hdigits : ∀ n, c ∉ Nat.toDigits 10 n := fun n h => by
    have hdigit := (Decimal.canonical_toDigits n).2.1 c h
    rw [hc.2.1] at hdigit
    cases hdigit
  have hminus : c ≠ '-' := fun h => hc.2.2 (by simp [h])
  cases z with
  | ofNat n => exact hdigits n
  | negSucc n => simp [printInt, hminus, hdigits]

mutual
theorem mem_print {c : Char} (hc : OnlyInStrings c) (v : Json) (hv : floatFree v = true) :
    c ∈ print escaped v ↔ escaped c = false ∧ allChars (fun d => d ≠ c) v = false := by
  have hother := hc.2.2
  simp only [List.mem_cons, List.not_mem_nil, or_false, not_or] at hother
  cases v with
  | null => simp [print, allChars, hother]
  | bool b => cases b <;> simp [print, allChars, hother]
  | number value =>
    cases value with
    | float literal => simp [floatFree] at hv
    | int z => simp [print, allChars, not_mem_printInt hc z]
  | string value => simp [print, allChars, hother, mem_printString hc]
  | array items =>
    cases items with
    | nil => simp [print, allChars, allCharsItems, hother]
    | cons v vs =>
      simp only [floatFree, floatFreeItems, Bool.and_eq_true] at hv
      simp only [print, allChars, allCharsItems, List.mem_cons, List.mem_append, hother, false_or,
        mem_print hc v hv.1, mem_printItems hc vs hv.2, Bool.and_eq_false_iff, and_or_left]
  | object fields =>
    cases fields with
    | nil => simp [print, allChars, allCharsFields, hother]
    | cons f fs =>
      obtain ⟨k, v⟩ := f
      simp only [floatFree, floatFreeFields, Bool.and_eq_true] at hv
      simp only [print, allChars, allCharsFields, List.mem_cons, List.mem_append, hother, false_or,
        mem_printString hc, mem_print hc v hv.1, mem_printFields hc fs hv.2,
        Bool.and_eq_false_iff, and_or_left, or_assoc]

theorem mem_printItems {c : Char} (hc : OnlyInStrings c) (vs : List Json)
    (hvs : floatFreeItems vs = true) :
    c ∈ printItems escaped vs ↔ escaped c = false ∧ allCharsItems (fun d => d ≠ c) vs = false := by
  have hother := hc.2.2
  simp only [List.mem_cons, List.not_mem_nil, or_false, not_or] at hother
  cases vs with
  | nil => simp [printItems, allCharsItems, hother]
  | cons v vs =>
    simp only [floatFreeItems, Bool.and_eq_true] at hvs
    simp only [printItems, allCharsItems, List.mem_cons, List.mem_append, hother, false_or,
      mem_print hc v hvs.1, mem_printItems hc vs hvs.2, Bool.and_eq_false_iff, and_or_left]

theorem mem_printFields {c : Char} (hc : OnlyInStrings c) (fs : List (String × Json))
    (hfs : floatFreeFields fs = true) :
    c ∈ printFields escaped fs ↔
      escaped c = false ∧ allCharsFields (fun d => d ≠ c) fs = false := by
  have hother := hc.2.2
  simp only [List.mem_cons, List.not_mem_nil, or_false, not_or] at hother
  cases fs with
  | nil => simp [printFields, allCharsFields, hother]
  | cons f fs =>
    obtain ⟨k, v⟩ := f
    simp only [floatFreeFields, Bool.and_eq_true] at hfs
    simp only [printFields, allCharsFields, List.mem_cons, List.mem_append, hother, false_or,
      mem_printString hc, mem_print hc v hfs.1, mem_printFields hc fs hfs.2,
      Bool.and_eq_false_iff, and_or_left, or_assoc]
end

end OptoSync.Json
