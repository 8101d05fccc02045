import OptoSync.JsonDocument
import OptoSync.JsonText
import OptoSync.TextOrder

/-!
# Printed JSON as bytes

The UTF-8 bytes of a printed value are read back as the document of the value.
-/
namespace OptoSync.Document

open Json (printString printInt print printItems printFields spell)

def encode (cs : List Char) : List UInt8 := cs.flatMap String.utf8EncodeChar

@[simp] theorem encode_nil : encode [] = [] := rfl

@[simp] theorem encode_append (cs ds : List Char) : encode (cs ++ ds) = encode cs ++ encode ds :=
  List.flatMap_append

theorem encode_cons (c : Char) (cs : List Char) :
    encode (c :: cs) = String.utf8EncodeChar c ++ encode cs := rfl

theorem toNat_toUInt8 {c : Char} (hc : c.toNat < 0x80) : c.toUInt8.toNat = c.toNat := by
  have htoNat : c.val.toNat = c.toNat := rfl
  rw [Char.toUInt8, UInt32.toNat_toUInt8, htoNat]
  exact Nat.mod_eq_of_lt (by omega)

theorem encodeChar_ascii {c : Char} (hc : c.toNat < 0x80) :
    String.utf8EncodeChar c = [c.toUInt8] := by
  have hbytes := TextOrder.bytes_eq c
  rw [if_pos (by omega)] at hbytes
  obtain ⟨b, hb, hnat⟩ := List.map_eq_singleton_iff.mp hbytes
  rw [hb, List.singleton_inj]
  exact UInt8.toNat_inj.mp (hnat.trans (toNat_toUInt8 hc).symm)

/-- The first byte of a character, which is a character of its own only in ASCII. -/
theorem encodeChar_cons (c : Char) : ∃ b rest, String.utf8EncodeChar c = b :: rest ∧
    (c.toNat < 0x80 → b.toNat = c.toNat) ∧ (0x80 ≤ c.toNat → 0xc0 ≤ b.toNat) := by
  have hbytes := TextOrder.bytes_eq c
  have hcons : ∀ {n : ℕ} {ns : List ℕ}, TextOrder.bytes c = n :: ns →
      (c.toNat < 0x80 → n = c.toNat) → (0x80 ≤ c.toNat → 0xc0 ≤ n) →
      ∃ b rest, String.utf8EncodeChar c = b :: rest ∧
        (c.toNat < 0x80 → b.toNat = c.toNat) ∧ (0x80 ≤ c.toNat → 0xc0 ≤ b.toNat) := by
    intro n ns hn hlow hhigh
    obtain ⟨b, rest, hb, rfl, -⟩ := List.map_eq_cons_iff.mp hn
    exact ⟨b, rest, hb, hlow, hhigh⟩
  split_ifs at hbytes with h1 h2 h3
  · exact hcons hbytes (fun _ => rfl) (fun _ => by omega)
  · exact hcons hbytes (fun _ => by omega) (fun _ => by omega)
  · exact hcons hbytes (fun _ => by omega) (fun _ => by omega)
  · exact hcons hbytes (fun _ => by omega) (fun _ => by omega)

theorem continuation_of_toNat {b : UInt8} {n : ℕ} (hb : b.toNat = n + 0x80) (hn : n < 64) :
    continuation b = some n := by
  have hrange : 0x80 ≤ b.toNat ∧ b.toNat < 0xc0 := by omega
  rw [continuation, if_pos hrange, Option.some_inj]
  omega

theorem readContinuations_succ {b : UInt8} {n : ℕ} (hb : b.toNat = n + 0x80) (hn : n < 64)
    (low count point : ℕ) (r : List UInt8) :
    readContinuations low (count + 1) point (b :: r) =
      readContinuations low count (point * 64 + n) r := by
  simp [readContinuations, continuation_of_toNat hb hn]

theorem readContinuations_zero {c : Char} {low point : ℕ} (hpoint : point = c.toNat)
    (hlow : low ≤ c.toNat) (r : List UInt8) : readContinuations low 0 point r = some (c, r) := by
  have hvalid : c.toNat.isValidChar := c.valid
  rw [readContinuations, hpoint, if_pos ⟨hlow, hvalid⟩, Char.ofNat_toNat]

theorem readChar_encodeChar (c : Char) (r : List UInt8) :
    readChar (String.utf8EncodeChar c ++ r) = some (c, r) := by
  have hbytes := TextOrder.bytes_eq c
  have hbounds := TextOrder.toNat_bounds c
  unfold TextOrder.bytes at hbytes
  split_ifs at hbytes with h1 h2 h3
  · obtain ⟨b, hb, hnat⟩ := List.map_eq_singleton_iff.mp hbytes
    rw [hb, List.singleton_append, readChar, if_pos (by omega), hnat, Char.ofNat_toNat]
  · obtain ⟨b, rest, hb, hnat, hrest⟩ := List.map_eq_cons_iff.mp hbytes
    obtain ⟨b₁, rfl, hnat₁⟩ := List.map_eq_singleton_iff.mp hrest
    rw [hb, List.cons_append, List.singleton_append, readChar, if_neg (by omega),
      if_neg (by omega), if_pos (by omega), readContinuations_succ hnat₁ (by omega)]
    exact readContinuations_zero (by omega) (by omega) r
  · obtain ⟨b, rest, hb, hnat, hrest⟩ := List.map_eq_cons_iff.mp hbytes
    obtain ⟨b₁, rest, rfl, hnat₁, hrest⟩ := List.map_eq_cons_iff.mp hrest
    obtain ⟨b₂, rfl, hnat₂⟩ := List.map_eq_singleton_iff.mp hrest
    rw [hb, List.cons_append, List.cons_append, List.singleton_append, readChar,
      if_neg (by omega), if_neg (by omega), if_neg (by omega), if_pos (by omega),
      readContinuations_succ hnat₁ (by omega), readContinuations_succ hnat₂ (by omega)]
    exact readContinuations_zero (by omega) (by omega) r
  · obtain ⟨b, rest, hb, hnat, hrest⟩ := List.map_eq_cons_iff.mp hbytes
    obtain ⟨b₁, rest, rfl, hnat₁, hrest⟩ := List.map_eq_cons_iff.mp hrest
    obtain ⟨b₂, rest, rfl, hnat₂, hrest⟩ := List.map_eq_cons_iff.mp hrest
    obtain ⟨b₃, rfl, hnat₃⟩ := List.map_eq_singleton_iff.mp hrest
    rw [hb, List.cons_append, List.cons_append, List.cons_append, List.singleton_append, readChar,
      if_neg (by omega), if_neg (by omega), if_neg (by omega), if_neg (by omega),
      if_pos (by omega), readContinuations_succ hnat₁ (by omega),
      readContinuations_succ hnat₂ (by omega), readContinuations_succ hnat₃ (by omega)]
    exact readContinuations_zero (by omega) (by omega) r

variable {escaped : Char → Bool}

theorem hexValue_digitChar : ∀ n < 16, hexValue (Nat.digitChar n).toUInt8 = some n := by decide

theorem digitChar_ascii : ∀ n < 16, (Nat.digitChar n).toNat < 0x80 := by decide

theorem encode_hex4 (n : ℕ) : encode (Json.hex4 n) =
    [n / 4096 % 16, n / 256 % 16, n / 16 % 16, n % 16].map fun d => (Nat.digitChar d).toUInt8 := by
  have hdigit : ∀ d, String.utf8EncodeChar (Nat.digitChar (d % 16)) =
      [(Nat.digitChar (d % 16)).toUInt8] :=
    fun d => encodeChar_ascii (digitChar_ascii _ (Nat.mod_lt d (by decide)))
  simp [Json.hex4, encode, hdigit]

theorem readHex4_encode {n : ℕ} (hn : n < 0x10000) (r : List UInt8) :
    readHex4 (encode (Json.hex4 n) ++ r) = some (n, r) := by
  have hdigit : ∀ d, hexValue (Nat.digitChar (d % 16)).toUInt8 = some (d % 16) :=
    fun d => hexValue_digitChar _ (Nat.mod_lt d (by decide))
  have hsum : ((n / 4096 % 16 * 16 + n / 256 % 16) * 16 + n / 16 % 16) * 16 + n % 16 = n := by omega
  simp [encode_hex4, readHex4, hdigit, hsum]

theorem readUnicode_encode {c : Char} (hc : c.toNat < 0x10000) (r : List UInt8) :
    readUnicode (encode (Json.hex4 c.toNat) ++ r) = some (some c, r) := by
  have hvalid : c.toNat.isValidChar := c.valid
  simp [readUnicode, readHex4_encode hc, hvalid]

/-- What a backslash begins. -/
theorem readString_escape (bytes : List UInt8) {c : Char} {r : List UInt8}
    (h : readEscape bytes = some (some c, r)) (n : ℕ) :
    readString (n + 1) ('\\'.toUInt8 :: bytes) =
      (readString n r).map fun p => (some c :: p.1, p.2) := by
  have hquote : '\\'.toUInt8 ≠ '\"'.toUInt8 := by decide
  have hlow : ¬ '\\'.toUInt8.toNat < 0x20 := by decide
  rw [readString, if_neg hquote, if_neg hlow, if_pos rfl, h]
  cases hrest : readString n r <;> simp [hrest]

/-- A character that is spelled as itself. -/
theorem readString_char {c : Char} (hquote : c ≠ '\"') (hslash : c ≠ '\\') (hlow : 32 ≤ c.toNat)
    (n : ℕ) (r : List UInt8) : readString (n + 1) (String.utf8EncodeChar c ++ r) =
      (readString n r).map fun p => (some c :: p.1, p.2) := by
  have hread := readChar_encodeChar c r
  obtain ⟨b, rest, hcons, hascii, hlong⟩ := encodeChar_cons c
  have hne : ∀ d : Char, d.toNat < 0x80 → c ≠ d → b ≠ d.toUInt8 := by
    rintro d hd hcd rfl
    rw [toNat_toUInt8 hd] at hascii hlong
    rcases lt_or_ge c.toNat 0x80 with hc | hc
    · exact hcd (Char.toNat_inj.mp (hascii hc).symm)
    · have hhigh := hlong hc
      omega
  have hb : ¬ b.toNat < 0x20 := by
    rcases lt_or_ge c.toNat 0x80 with hc | hc
    · rw [hascii hc]
      omega
    · have hhigh := hlong hc
      omega
  rw [hcons, List.cons_append] at hread ⊢
  rw [readString, if_neg (hne '\"' (by decide) hquote), if_neg hb,
    if_neg (hne '\\' (by decide) hslash), hread]
  cases hrest : readString n r <;> simp [hrest]

theorem readString_spell (hescaped : Json.BasicPlane escaped) (c : Char) (n : ℕ) (r : List UInt8) :
    readString (n + 1) (encode (spell escaped c) ++ r) =
      (readString n r).map fun p => (some c :: p.1, p.2) := by
  unfold spell
  split_ifs with hquote hslash hb hf hn hr ht hu
  · exact readString_escape ('\"'.toUInt8 :: r) (by subst hquote; rfl) n
  · exact readString_escape ('\\'.toUInt8 :: r) (by subst hslash; rfl) n
  · exact readString_escape ('b'.toUInt8 :: r) (by subst hb; rfl) n
  · exact readString_escape ('f'.toUInt8 :: r) (by subst hf; rfl) n
  · exact readString_escape ('n'.toUInt8 :: r) (by subst hn; rfl) n
  · exact readString_escape ('r'.toUInt8 :: r) (by subst hr; rfl) n
  · exact readString_escape ('t'.toUInt8 :: r) (by subst ht; rfl) n
  · have hc : c.toNat < 0x10000 := hu.elim (fun h => by omega) (hescaped c)
    refine readString_escape ('u'.toUInt8 :: (encode (Json.hex4 c.toNat) ++ r)) ?_ n
    exact readUnicode_encode hc r
  · rw [encode_cons, encode_nil, List.append_nil]
    exact readString_char hquote hslash (by omega) n r

theorem readString_print (hescaped : Json.BasicPlane escaped) (cs : List Char) {n : ℕ}
    (hn : cs.length < n) (r : List UInt8) :
    readString n (encode (cs.flatMap (spell escaped)) ++ '\"'.toUInt8 :: r) =
      some (cs.map some, r) := by
  induction cs generalizing n with
  | nil =>
    obtain ⟨m, rfl⟩ := Nat.exists_eq_add_of_lt hn
    rfl
  | cons c cs ih =>
    obtain ⟨m, rfl⟩ : ∃ m, n = m + 1 := ⟨n - 1, by simp at hn; omega⟩
    have hm : cs.length < m := by simpa using hn
    rw [List.flatMap_cons, encode_append, List.append_assoc, readString_spell hescaped, ih hm]
    rfl

/-- No character vanishes in its bytes. -/
theorem length_le_encode (cs : List Char) : cs.length ≤ (encode cs).length := by
  induction cs with
  | nil => simp
  | cons c cs ih =>
    obtain ⟨b, rest, hcons, -⟩ := encodeChar_cons c
    rw [encode_cons, hcons]
    simp only [List.cons_append, List.length_cons, List.length_append]
    omega

theorem encode_printString (value : String) : encode (printString escaped value) =
    encode (value.toList.flatMap (spell escaped)) ++ ['\"'.toUInt8] := by
  rw [printString, encode_append]
  rfl

theorem readText_print (hescaped : Json.BasicPlane escaped) (value : String) (r : List UInt8) :
    readText (encode (printString escaped value) ++ r) = some (⟨value, true⟩, r) := by
  have hlength := (Json.length_le_flatMap_spell escaped value.toList).trans (length_le_encode _)
  rw [encode_printString, List.append_assoc, List.singleton_append, readText,
    readString_print hescaped value.toList (by simp only [List.length_append, List.length_cons]; omega)]
  simp [Function.comp_def, List.all_map]

theorem isDigit_bounds {c : Char} (hc : c.isDigit = true) : 48 ≤ c.toNat ∧ c.toNat ≤ 57 := by
  simp only [Char.isDigit, Bool.and_eq_true, decide_eq_true_eq] at hc
  exact hc

theorem encode_digits {cs : List Char} (hcs : ∀ c ∈ cs, c.isDigit = true) :
    encode cs = cs.map Char.toUInt8 := by
  induction cs with
  | nil => rfl
  | cons c cs ih =>
    have hc := isDigit_bounds (hcs c (by simp))
    rw [encode_cons, encodeChar_ascii (by omega), ih fun d hd => hcs d (by simp [hd])]
    rfl

theorem isDigit_toUInt8 {c : Char} (hc : c.isDigit = true) : isDigit c.toUInt8 = true := by
  have hbounds := isDigit_bounds hc
  simp [isDigit, toNat_toUInt8 (c := c) (by omega), hbounds]

/-- What may follow a numeral. -/
def Ends (r : List UInt8) : Prop :=
  ∀ b ∈ r.head?, isDigit b = false ∧ b ≠ '.'.toUInt8 ∧ b ≠ 'e'.toUInt8 ∧ b ≠ 'E'.toUInt8

theorem readDigits_digits {cs : List Char} (hne : cs ≠ []) (hcs : ∀ c ∈ cs, c.isDigit = true)
    {r : List UInt8} (hr : Ends r) :
    readDigits (cs.map Char.toUInt8 ++ r) = some (cs.map Char.toUInt8, r) := by
  have hdigits : ∀ b ∈ cs.map Char.toUInt8, isDigit b = true := by
    intro b hb
    obtain ⟨c, hc, rfl⟩ := List.mem_map.mp hb
    exact isDigit_toUInt8 (hcs c hc)
  have hrest : r.takeWhile isDigit = [] ∧ r.dropWhile isDigit = r := by
    cases r with
    | nil => exact ⟨rfl, rfl⟩
    | cons b r => simp [(hr b rfl).1]
  rw [readDigits, List.takeWhile_append_of_pos hdigits, List.dropWhile_append_of_pos hdigits,
    hrest.1, hrest.2, List.append_nil, if_neg (by simpa using hne)]

theorem foldl_digits {cs : List Char} (hcs : ∀ c ∈ cs, c.isDigit = true) (n : ℕ) :
    (cs.map Char.toUInt8).foldl (fun n b => n * 10 + (b.toNat - 48)) n =
      Nat.ofDigitChars 10 cs n := by
  induction cs generalizing n with
  | nil => rw [Nat.ofDigitChars_nil]; rfl
  | cons c cs ih =>
    have hc := isDigit_bounds (hcs c (by simp))
    have hzero : '0'.toNat = 48 := rfl
    rw [List.map_cons, List.foldl_cons, ih fun d hd => hcs d (by simp [hd]),
      Nat.ofDigitChars_cons, toNat_toUInt8 (by omega), hzero, Nat.mul_comm n 10]

theorem readFraction_ends {r : List UInt8} (hr : Ends r) : readFraction r = some ([], r) := by
  cases r with
  | nil => rfl
  | cons b r => rw [readFraction, if_neg (hr b rfl).2.1]

theorem readExponent_ends {r : List UInt8} (hr : Ends r) : readExponent r = some ([], r) := by
  cases r with
  | nil => rfl
  | cons b r =>
    obtain ⟨-, -, hlower, hupper⟩ := hr b rfl
    simp [readExponent, hlower, hupper]

/-- Behind the sign. -/
theorem readNumber_digits (negative : Bool) {n : ℕ} {bytes r : List UInt8} (hr : Ends r)
    (hhead : decide (bytes.head? = some '-'.toUInt8) = negative)
    (htail : (if negative then bytes.tail else bytes) = (Nat.toDigits 10 n).map Char.toUInt8 ++ r)
    (hzero : negative = true → n ≠ 0) :
    readNumber bytes = some (.int (if negative then -(n : ℤ) else n), r) := by
  obtain ⟨hne, hdigits, hcanonical⟩ := Decimal.canonical_toDigits n
  have hlead : ¬(1 < ((Nat.toDigits 10 n).map Char.toUInt8).length ∧
      ((Nat.toDigits 10 n).map Char.toUInt8).head? = some '0'.toUInt8) := by
    rintro ⟨hlong, hfirst⟩
    rw [List.head?_map, Option.map_eq_some_iff] at hfirst
    obtain ⟨c, hc, heq⟩ := hfirst
    have hbounds := isDigit_bounds (hdigits c (List.mem_of_head? hc))
    have hnat : c.toNat = '0'.toNat := by
      rw [← toNat_toUInt8 (c := c) (by omega), heq]
      rfl
    rw [Char.toNat_inj.mp hnat] at hc
    rw [List.length_map, hcanonical hc] at hlong
    omega
  have hvalue := foldl_digits hdigits 0
  rw [Nat.ofDigitChars_ten_toDigits] at hvalue
  have hnumeral : numeralOf negative ((Nat.toDigits 10 n).map Char.toUInt8) ([] ++ []) =
      .int (if negative then -(n : ℤ) else n) := by
    have hplain : ¬(negative = true ∧ n = 0) := fun h => hzero h.1 h.2
    simp only [numeralOf, hvalue]
    rw [if_pos ⟨rfl, hplain⟩]
  rw [readNumber]
  simp only [hhead, htail, readDigits_digits hne hdigits hr, Option.bind_eq_bind, Option.bind_some,
    if_neg hlead, readFraction_ends hr, readExponent_ends hr, hnumeral]

theorem readNumber_print (z : ℤ) {r : List UInt8} (hr : Ends r) :
    readNumber (encode (printInt z) ++ r) = some (.int z, r) := by
  cases z with
  | ofNat n =>
    obtain ⟨hne, hdigits, -⟩ := Decimal.canonical_toDigits n
    rw [printInt, encode_digits hdigits]
    refine readNumber_digits false hr ?_ rfl (by simp)
    obtain ⟨c, cs, hcs⟩ := List.exists_cons_of_ne_nil hne
    have hbounds := isDigit_bounds (hdigits c (by simp [hcs]))
    rw [hcs, decide_eq_false_iff_not]
    intro hhead
    have hminus := congrArg UInt8.toNat (Option.some_inj.mp hhead)
    rw [toNat_toUInt8 (by omega)] at hminus
    have hforty : '-'.toUInt8.toNat = 45 := rfl
    omega
  | negSucc n =>
    obtain ⟨-, hdigits, -⟩ := Decimal.canonical_toDigits (n + 1)
    have hminus : String.utf8EncodeChar '-' = ['-'.toUInt8] := rfl
    rw [printInt, encode_cons, hminus, encode_digits hdigits]
    exact readNumber_digits true hr rfl rfl fun _ => Nat.succ_ne_zero n

mutual
/-- The document that spells the value as it is. -/
def ofJson : Json → Document
  | .null => .null
  | .bool value => .bool value
  | .number value => .number value
  | .string value => .string ⟨value, true⟩
  | .array items => .array (ofItems items)
  | .object fields => .object (ofFields fields)

def ofItems : List Json → List Document
  | [] => []
  | v :: vs => ofJson v :: ofItems vs

def ofFields : List (String × Json) → List (Text × Document)
  | [] => []
  | (k, v) :: fs => (⟨k, true⟩, ofJson v) :: ofFields fs
end

theorem encode_ascii_cons {c : Char} (hc : c.toNat < 0x80) (cs : List Char) :
    encode (c :: cs) = c.toUInt8 :: encode cs := by
  rw [encode_cons, encodeChar_ascii hc, List.singleton_append]

theorem skipBlanks_cons {c : Char} (hlow : 0x20 < c.toNat) (hhigh : c.toNat < 0x80)
    (r : List UInt8) : skipBlanks (c.toUInt8 :: r) = c.toUInt8 :: r := by
  have hblank : isBlank c.toUInt8 = false := by
    simp only [isBlank, toNat_toUInt8 hhigh, Bool.or_eq_false_iff, decide_eq_false_iff_not]
    omega
  rw [skipBlanks, List.dropWhile_cons_of_neg (by simp [hblank])]

theorem toUInt8_inj {c d : Char} (hc : c.toNat < 0x80) (hd : d.toNat < 0x80) :
    c.toUInt8 = d.toUInt8 ↔ c = d := by
  constructor
  · intro h
    have hnat := congrArg UInt8.toNat h
    rw [toNat_toUInt8 hc, toNat_toUInt8 hd] at hnat
    exact Char.toNat_inj.mp hnat
  · rintro rfl
    rfl

theorem printInt_head (z : ℤ) : ∃ c cs, printInt z = c :: cs ∧ (c = '-' ∨ c.isDigit = true) := by
  cases z with
  | ofNat n =>
    obtain ⟨hne, hdigits, -⟩ := Decimal.canonical_toDigits n
    obtain ⟨c, cs, hcs⟩ := List.exists_cons_of_ne_nil hne
    exact ⟨c, cs, hcs, Or.inr (hdigits c (by simp [hcs]))⟩
  | negSucc n => exact ⟨'-', _, rfl, Or.inl rfl⟩

/-- A printed value begins with a character that is no blank and closes nothing. -/
theorem print_head (escaped : Char → Bool) {v : Json} (hv : v.floatFree = true) :
    ∃ c cs, print escaped v = c :: cs ∧ 0x20 < c.toNat ∧ c.toNat < 0x80 ∧ c ≠ ']' := by
  cases v with
  | null => exact ⟨_, _, by rw [print], by decide⟩
  | bool b => cases b <;> exact ⟨_, _, by rw [print], by decide⟩
  | number value =>
    cases value with
    | float literal => simp [Json.floatFree] at hv
    | int z =>
      obtain ⟨c, cs, hcs, hc⟩ := printInt_head z
      refine ⟨c, cs, by rw [print, hcs], ?_⟩
      rcases hc with rfl | hdigit
      · decide
      · have hbounds := isDigit_bounds hdigit
        refine ⟨by omega, by omega, ?_⟩
        rintro rfl
        cases hdigit
  | string value => exact ⟨_, _, by rw [print], by decide⟩
  | array items => cases items <;> exact ⟨_, _, by rw [print], by decide⟩
  | object fields => cases fields <;> exact ⟨_, _, by rw [print], by decide⟩

theorem ends_printItems (escaped : Char → Bool) (vs : List Json) (r : List UInt8) :
    Ends (encode (printItems escaped vs) ++ r) := by
  cases vs with
  | nil =>
    rw [printItems, encode_ascii_cons (by decide)]
    rintro b ⟨⟩
    decide
  | cons v vs =>
    rw [printItems, encode_ascii_cons (by decide)]
    rintro b ⟨⟩
    decide

theorem ends_printFields (escaped : Char → Bool) (fs : List (String × Json)) (r : List UInt8) :
    Ends (encode (printFields escaped fs) ++ r) := by
  cases fs with
  | nil =>
    rw [printFields, encode_ascii_cons (by decide)]
    rintro b ⟨⟩
    decide
  | cons f fs =>
    rw [printFields, encode_ascii_cons (by decide)]
    rintro b ⟨⟩
    decide

theorem readValue_int (z : ℤ) (n : ℕ) {r : List UInt8} (hr : Ends r) :
    readValue (n + 1) (encode (printInt z) ++ r) = some (.number (.int z), r) := by
  have hread := readNumber_print z hr
  obtain ⟨c, cs, hcs, hc⟩ := printInt_head z
  have hbounds : 0x20 < c.toNat ∧ c.toNat < 0x80 := by
    rcases hc with rfl | hdigit
    · decide
    · have hbounds := isDigit_bounds hdigit
      omega
  have hne : ∀ d : Char, d.toNat < 0x80 → d ≠ '-' → d.isDigit = false → c.toUInt8 ≠ d.toUInt8 := by
    intro d hd hminus hdigit heq
    rw [toUInt8_inj hbounds.2 hd] at heq
    subst heq
    rcases hc with rfl | hc
    · exact hminus rfl
    · rw [hdigit] at hc
      cases hc
  rw [hcs, encode_ascii_cons hbounds.2, List.cons_append] at hread ⊢
  rw [readValue, skipBlanks_cons hbounds.1 hbounds.2]
  dsimp only
  rw [if_neg (hne '\"' (by decide) (by decide) (by decide)),
    if_neg (hne '[' (by decide) (by decide) (by decide)),
    if_neg (hne '\x7b' (by decide) (by decide) (by decide)),
    if_neg (hne 'n' (by decide) (by decide) (by decide)),
    if_neg (hne 't' (by decide) (by decide) (by decide)),
    if_neg (hne 'f' (by decide) (by decide) (by decide)), hread]
  rfl

mutual
/-- By recursion on the fuel, which the length of the text bounds. -/
theorem readValue_print (hescaped : Json.BasicPlane escaped) (v : Json) (hv : v.floatFree = true)
    {n : ℕ} (hn : (print escaped v).length ≤ n) {r : List UInt8} (hr : Ends r) :
    readValue n (encode (print escaped v) ++ r) = some (ofJson v, r) := by
  obtain ⟨m, rfl⟩ : ∃ m, n = m + 1 := by
    obtain ⟨c, cs, hcs, -⟩ := print_head escaped hv
    rw [hcs, List.length_cons] at hn
    exact ⟨n - 1, by omega⟩
  cases v with
  | null => rfl
  | bool b => cases b <;> rfl
  | number value =>
    cases value with
    | float literal => simp [Json.floatFree] at hv
    | int z => exact readValue_int z m hr
  | string value =>
    rw [print, encode_ascii_cons (by decide), List.cons_append, readValue,
      skipBlanks_cons (by decide) (by decide)]
    dsimp only
    rw [if_pos rfl, readText_print hescaped]
    rfl
  | array items =>
    cases items with
    | nil => rfl
    | cons v vs =>
      simp only [Json.floatFree, Json.floatFreeItems, Bool.and_eq_true] at hv
      simp only [print, List.length_cons, List.length_append] at hn
      have hitems := readItems_print hescaped v hv.1 vs hv.2 (n := m) (by omega) r
      obtain ⟨c, cs, hcs, hlow, hhigh, hclose⟩ := print_head escaped hv.1
      rw [print, encode_ascii_cons (by decide), List.cons_append, readValue,
        skipBlanks_cons (by decide) (by decide)]
      rw [hcs, List.cons_append, encode_ascii_cons hhigh, List.cons_append] at hitems ⊢
      dsimp only
      rw [if_neg (by decide), if_pos rfl, skipBlanks_cons hlow hhigh, List.head?_cons, if_neg ?_,
        hitems]
      · rfl
      · rw [Option.some_inj, toUInt8_inj hhigh (by decide)]
        exact hclose
  | object fields =>
    cases fields with
    | nil => rfl
    | cons f fs =>
      obtain ⟨k, v⟩ := f
      simp only [Json.floatFree, Json.floatFreeFields, Bool.and_eq_true] at hv
      simp only [print, List.length_cons, List.length_append] at hn
      have hmembers := readMembers_print hescaped k v hv.1 fs hv.2 (n := m) (by omega) r
      rw [print, encode_ascii_cons (by decide), List.cons_append, readValue,
        skipBlanks_cons (by decide) (by decide)]
      rw [encode_ascii_cons (by decide), List.cons_append] at hmembers ⊢
      dsimp only
      rw [if_neg (by decide), if_neg (by decide), if_pos rfl,
        skipBlanks_cons (by decide) (by decide), List.head?_cons, if_neg (by decide), hmembers]
      rfl
termination_by n

theorem readItems_print (hescaped : Json.BasicPlane escaped) (v : Json) (hv : v.floatFree = true)
    (vs : List Json) (hvs : Json.floatFreeItems vs = true) {n : ℕ}
    (hn : (print escaped v).length + (printItems escaped vs).length ≤ n) (r : List UInt8) :
    readItems n (encode (print escaped v ++ printItems escaped vs) ++ r) =
      some (ofItems (v :: vs), r) := by
  obtain ⟨m, rfl⟩ : ∃ m, n = m + 1 := by
    cases vs <;> simp only [printItems, List.length_cons] at hn <;> exact ⟨n - 1, by omega⟩
  have hlength : (print escaped v).length ≤ m := by
    cases vs <;> simp only [printItems, List.length_cons] at hn <;> omega
  have hvalue := readValue_print hescaped v hv hlength (ends_printItems escaped vs r)
  rw [encode_append, List.append_assoc, readItems, hvalue]
  cases vs with
  | nil =>
    rw [printItems, encode_ascii_cons (by decide), List.cons_append]
    simp only [Option.bind_eq_bind, Option.bind_some, skipBlanks_cons (c := ']') (by decide) (by decide)]
    rfl
  | cons w ws =>
    simp only [Json.floatFreeItems, Bool.and_eq_true] at hvs
    simp only [printItems, List.length_cons, List.length_append] at hn
    have hitems := readItems_print hescaped w hvs.1 ws hvs.2 (n := m) (by omega) r
    rw [printItems, encode_ascii_cons (by decide), List.cons_append]
    simp only [Option.bind_eq_bind, Option.bind_some,
      skipBlanks_cons (c := ',') (by decide) (by decide), hitems]
    rfl
termination_by n

theorem readMembers_print (hescaped : Json.BasicPlane escaped) (k : String) (v : Json)
    (hv : v.floatFree = true) (fs : List (String × Json)) (hfs : Json.floatFreeFields fs = true)
    {n : ℕ}
    (hn : (printString escaped k).length + (print escaped v).length +
      (printFields escaped fs).length ≤ n) (r : List UInt8) :
    readMembers n (encode ('\"' :: (printString escaped k ++
        ':' :: (print escaped v ++ printFields escaped fs))) ++ r) =
      some (ofFields ((k, v) :: fs), r) := by
  obtain ⟨m, rfl⟩ : ∃ m, n = m + 1 := by
    cases fs <;> simp only [printFields, List.length_cons] at hn <;> exact ⟨n - 1, by omega⟩
  have hlength : (print escaped v).length ≤ m := by
    cases fs <;> simp only [printFields, List.length_cons] at hn <;> omega
  have hvalue := readValue_print hescaped v hv hlength (ends_printFields escaped fs r)
  have hkey := readText_print hescaped k
    (':'.toUInt8 :: (encode (print escaped v) ++ (encode (printFields escaped fs) ++ r)))
  have htext : encode ('\"' :: (printString escaped k ++
      ':' :: (print escaped v ++ printFields escaped fs))) ++ r =
        '\"'.toUInt8 :: (encode (printString escaped k) ++
          (':'.toUInt8 :: (encode (print escaped v) ++ (encode (printFields escaped fs) ++ r)))) := by
    simp only [encode_ascii_cons (c := '\"') (by decide), encode_ascii_cons (c := ':') (by decide),
      encode_append, List.cons_append, List.append_assoc]
  rw [htext, readMembers, skipBlanks_cons (by decide) (by decide), List.head?_cons, if_pos rfl,
    List.tail_cons, hkey]
  simp only [Option.bind_eq_bind, Option.bind_some,
    skipBlanks_cons (c := ':') (by decide) (by decide), List.head?_cons, if_true, List.tail_cons,
    hvalue]
  cases fs with
  | nil =>
    rw [printFields, encode_ascii_cons (by decide), List.cons_append]
    simp only [skipBlanks_cons (c := '\x7d') (by decide) (by decide)]
    rfl
  | cons f fs =>
    obtain ⟨l, w⟩ := f
    simp only [Json.floatFreeFields, Bool.and_eq_true] at hfs
    simp only [printFields, List.length_cons, List.length_append] at hn
    have hmembers := readMembers_print hescaped l w hfs.1 fs hfs.2 (n := m) (by omega) r
    rw [printFields, encode_ascii_cons (by decide), List.cons_append]
    simp only [skipBlanks_cons (c := ',') (by decide) (by decide), hmembers]
    rfl
termination_by n
end

theorem read_print (hescaped : Json.BasicPlane escaped) {v : Json} (hv : v.floatFree = true) :
    read (encode (print escaped v)) = some (ofJson v) := by
  have hlength := length_le_encode (print escaped v)
  have hvalue := readValue_print hescaped v hv (n := 2 * (encode (print escaped v)).length + 2)
    (by omega) (r := []) (fun _ h => by cases h)
  rw [List.append_nil] at hvalue
  rw [read, hvalue]
  rfl

theorem low_le_of_mem_encode {cs : List Char} (hcs : ∀ c ∈ cs, 32 ≤ c.toNat) {b : UInt8}
    (hb : b ∈ encode cs) : 32 ≤ b.toNat := by
  obtain ⟨c, hc, hbc⟩ := List.mem_flatMap.mp hb
  have hlow := hcs c hc
  have hbytes : b.toNat ∈ TextOrder.bytes c := List.mem_map.mpr ⟨b, hbc, rfl⟩
  rw [TextOrder.bytes_eq] at hbytes
  split_ifs at hbytes <;> simp only [List.mem_cons, List.not_mem_nil, or_false] at hbytes <;> omega

theorem low_le_hex4 {c : Char} {n : ℕ} (hc : c ∈ Json.hex4 n) : 32 ≤ c.toNat := by
  obtain ⟨d, hd, rfl⟩ := List.mem_map.mp hc
  have hlow : ∀ d < 16, 32 ≤ (Nat.digitChar d).toNat := by decide
  refine hlow d ?_
  simp only [List.mem_cons, List.not_mem_nil, or_false] at hd
  omega

theorem low_le_spell {c d : Char} (hd : d ∈ spell escaped c) : 32 ≤ d.toNat := by
  have hpair : ∀ e : Char, 32 ≤ e.toNat → d ∈ ['\\', e] → 32 ≤ d.toNat := by
    intro e he hd
    rcases List.mem_cons.mp hd with rfl | hd
    · decide
    · rwa [List.mem_singleton.mp hd]
  unfold spell at hd
  split_ifs at hd with h1 h2 h3 h4 h5 h6 h7 h8
  · exact hpair _ (by decide) hd
  · exact hpair _ (by decide) hd
  · exact hpair _ (by decide) hd
  · exact hpair _ (by decide) hd
  · exact hpair _ (by decide) hd
  · exact hpair _ (by decide) hd
  · exact hpair _ (by decide) hd
  · rcases List.mem_cons.mp hd with rfl | hd
    · decide
    · rcases List.mem_cons.mp hd with rfl | hd
      · decide
      · exact low_le_hex4 hd
  · rw [List.mem_singleton.mp hd]
    omega

theorem low_le_printString {value : String} {c : Char} (hc : c ∈ printString escaped value) :
    32 ≤ c.toNat := by
  rcases List.mem_append.mp hc with hc | hc
  · obtain ⟨d, -, hd⟩ := List.mem_flatMap.mp hc
    exact low_le_spell hd
  · rw [List.mem_singleton.mp hc]
    decide

theorem low_le_printInt {z : ℤ} {c : Char} (hc : c ∈ printInt z) : 32 ≤ c.toNat := by
  have hdigits : ∀ n, c ∈ Nat.toDigits 10 n → 32 ≤ c.toNat := by
    intro n hn
    have hbounds := isDigit_bounds ((Decimal.canonical_toDigits n).2.1 c hn)
    omega
  cases z with
  | ofNat n => exact hdigits n hc
  | negSucc n =>
    rcases List.mem_cons.mp hc with rfl | hc
    · decide
    · exact hdigits _ hc

mutual
theorem low_le_print_of_visible {v : Json} (hv : v.visibleFloats = true) {c : Char}
    (hc : c ∈ print escaped v) : 32 ≤ c.toNat := by
  cases v with
  | null =>
    have hall : ∀ d ∈ ['n', 'u', 'l', 'l'], 32 ≤ d.toNat := by simp
    exact hall c (by rwa [print] at hc)
  | bool b =>
    have htrue : ∀ d ∈ ['t', 'r', 'u', 'e'], 32 ≤ d.toNat := by simp
    have hfalse : ∀ d ∈ ['f', 'a', 'l', 's', 'e'], 32 ≤ d.toNat := by simp
    cases b with
    | true => exact htrue c (by rwa [print] at hc)
    | false => exact hfalse c (by rwa [print] at hc)
  | number value =>
    cases value with
    | float literal =>
      rw [print] at hc
      exact of_decide_eq_true (List.all_eq_true.mp hv c hc)
    | int z => exact low_le_printInt (by rwa [print] at hc)
  | string value =>
    rw [print] at hc
    rcases List.mem_cons.mp hc with rfl | hc
    · decide
    · exact low_le_printString hc
  | array items =>
    cases items with
    | nil =>
      have hall : ∀ d ∈ ['[', ']'], 32 ≤ d.toNat := by simp
      exact hall c (by rwa [print] at hc)
    | cons v vs =>
      simp only [Json.visibleFloats, Json.visibleFloatsItems, Bool.and_eq_true] at hv
      rw [print, List.mem_cons, List.mem_append] at hc
      rcases hc with rfl | hc | hc
      · decide
      · exact low_le_print_of_visible hv.1 hc
      · exact low_le_printItems hv.2 hc
  | object fields =>
    cases fields with
    | nil =>
      have hall : ∀ d ∈ ['\x7b', '\x7d'], 32 ≤ d.toNat := by simp
      exact hall c (by rwa [print] at hc)
    | cons f fs =>
      obtain ⟨k, v⟩ := f
      simp only [Json.visibleFloats, Json.visibleFloatsFields, Bool.and_eq_true] at hv
      rw [print, List.mem_cons, List.mem_cons, List.mem_append, List.mem_cons, List.mem_append] at hc
      rcases hc with rfl | rfl | hc | rfl | hc | hc
      · decide
      · decide
      · exact low_le_printString hc
      · decide
      · exact low_le_print_of_visible hv.1 hc
      · exact low_le_printFields hv.2 hc

theorem low_le_printItems {vs : List Json} (hvs : Json.visibleFloatsItems vs = true) {c : Char}
    (hc : c ∈ printItems escaped vs) : 32 ≤ c.toNat := by
  cases vs with
  | nil =>
    rw [printItems, List.mem_singleton] at hc
    rw [hc]
    decide
  | cons v vs =>
    simp only [Json.visibleFloatsItems, Bool.and_eq_true] at hvs
    rw [printItems, List.mem_cons, List.mem_append] at hc
    rcases hc with rfl | hc | hc
    · decide
    · exact low_le_print_of_visible hvs.1 hc
    · exact low_le_printItems hvs.2 hc

theorem low_le_printFields {fs : List (String × Json)} (hfs : Json.visibleFloatsFields fs = true)
    {c : Char} (hc : c ∈ printFields escaped fs) : 32 ≤ c.toNat := by
  cases fs with
  | nil =>
    rw [printFields, List.mem_singleton] at hc
    rw [hc]
    decide
  | cons f fs =>
    obtain ⟨k, v⟩ := f
    simp only [Json.visibleFloatsFields, Bool.and_eq_true] at hfs
    rw [printFields, List.mem_cons, List.mem_cons, List.mem_append, List.mem_cons,
      List.mem_append] at hc
    rcases hc with rfl | rfl | hc | rfl | hc | hc
    · decide
    · decide
    · exact low_le_printString hc
    · decide
    · exact low_le_print_of_visible hfs.1 hc
    · exact low_le_printFields hfs.2 hc
end

theorem low_le_print {v : Json} (hv : v.floatFree = true) {c : Char} (hc : c ∈ print escaped v) :
    32 ≤ c.toNat :=
  low_le_print_of_visible (Json.visibleFloats_of_floatFree v hv) hc

end OptoSync.Document
