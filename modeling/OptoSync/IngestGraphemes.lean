import OptoSync.IngestPorts

/-!
# The grammars on graphemes

The Gleam predicates test one grapheme after the other, each against ASCII characters. A text that
passes such tests is a text of ASCII characters, whose graphemes are its characters.
-/
namespace OptoSync.Ingest
open Json

namespace Gleam

/-- The predicate holds of the texts of one character that meets the test, a printable one. -/
structure Reads (predicate : String → Bool) (test : Char → Bool) : Prop where
  iff : ∀ character,
    predicate character = true ↔ ∃ c, character = String.singleton c ∧ test c = true
  printable : ∀ c, test c = true → 32 ≤ c.toNat ∧ c.toNat ≤ 126

theorem Reads.singleton {predicate : String → Bool} {test : Char → Bool}
    (h : Reads predicate test) (c : Char) : predicate (String.singleton c) = test c := by
  rw [Bool.eq_iff_iff, h.iff]
  constructor
  · rintro ⟨d, hd, ht⟩
    rwa [String.singleton_inj.mp hd]
  · exact fun ht => ⟨c, rfl, ht⟩

theorem Reads.or {p q : String → Bool} {s t : Char → Bool} (hp : Reads p s) (hq : Reads q t) :
    Reads (fun character => p character || q character) fun c => s c || t c where
  iff character := by
    simp only [Bool.or_eq_true, hp.iff character, hq.iff character]
    constructor
    · rintro (⟨c, hc, hs⟩ | ⟨c, hc, ht⟩)
      · exact ⟨c, hc, .inl hs⟩
      · exact ⟨c, hc, .inr ht⟩
    · rintro ⟨c, hc, hs | ht⟩
      · exact .inl ⟨c, hc, hs⟩
      · exact .inr ⟨c, hc, ht⟩
  printable c hc := by
    rcases Bool.or_eq_true_iff.mp hc with h | h
    · exact hp.printable c h
    · exact hq.printable c h

theorem Reads.congr {predicate : String → Bool} {s t : Char → Bool} (h : Reads predicate s)
    (htest : ∀ c, s c = t c) : Reads predicate t := by
  have hst : s = t := funext htest
  rwa [← hst]

theorem reads_eq {d : Char} (hd : 32 ≤ d.toNat ∧ d.toNat ≤ 126) :
    Reads (fun character => character = String.singleton d) fun c => c = d where
  iff character := by simp
  printable c hc := by
    rw [of_decide_eq_true hc]
    exact hd

theorem reads_contains (chars : List Char) (hchars : ∀ c ∈ chars, 32 ≤ c.toNat ∧ c.toNat ≤ 126) :
    Reads (fun character => (chars.map String.singleton).contains character)
      (chars.contains ·) where
  iff character := by
    simp only [List.contains_iff_mem, List.mem_map]
    constructor
    · rintro ⟨c, hc, rfl⟩
      exact ⟨c, rfl, hc⟩
    · rintro ⟨c, rfl, hc⟩
      exact ⟨c, hc, rfl⟩
  printable c hc := hchars c (List.contains_iff_mem.mp hc)

theorem digit_mem (c : Char) :
    ['0', '1', '2', '3', '4', '5', '6', '7', '8', '9'].contains c = c.isDigit := by
  rw [Bool.eq_iff_iff, List.contains_iff_mem, ← digit_toNat, digit, Bool.and_eq_true,
    decide_eq_true_eq, decide_eq_true_eq]
  constructor
  · intro hc
    fin_cases hc <;> decide
  · rintro ⟨hlow, hhigh⟩
    rw [← Char.ofNat_toNat c]
    interval_cases c.toNat <;> decide

theorem hexLetter_mem (c : Char) :
    ['a', 'b', 'c', 'd', 'e', 'f'].contains c = (97 ≤ c.toNat && c.toNat ≤ 102) := by
  rw [Bool.eq_iff_iff, List.contains_iff_mem, Bool.and_eq_true, decide_eq_true_eq,
    decide_eq_true_eq]
  constructor
  · intro hc
    fin_cases hc <;> decide
  · rintro ⟨hlow, hhigh⟩
    rw [← Char.ofNat_toNat c]
    interval_cases c.toNat <;> decide

theorem reads_isDigit : Reads isDigit Char.isDigit :=
  (reads_contains ['0', '1', '2', '3', '4', '5', '6', '7', '8', '9'] (by simp)).congr digit_mem

theorem reads_isLowerHex : Reads isLowerHex hexCode := by
  have h := reads_isDigit.or (reads_contains ['a', 'b', 'c', 'd', 'e', 'f'] (by simp))
  refine h.congr fun c => ?_
  rw [hexLetter_mem]
  rfl

theorem ascii_of_alphabetic {c : Char} (h : asciiAlphabetic c = true) : c.toNat < 128 :=
  ascii_alphabetic c.toNat h

theorem lower_ne_upper {c : Char} (h : c.toNat < 128) :
    decide (c.toLower ≠ c.toUpper) = asciiAlphabetic c := by
  rw [← Char.ofNat_toNat c]
  interval_cases c.toNat <;> decide

/-- A text of one byte is one ASCII character. -/
theorem utf8ByteSize_eq_one {text : String} :
    text.utf8ByteSize = 1 ↔ ∃ c : Char, text = String.singleton c ∧ c.toNat < 128 := by
  have hsize : ∀ c : Char, c.utf8Size = 1 ↔ c.toNat < 128 := by
    intro c
    rw [Char.utf8Size_eq_one_iff, UInt32.le_iff_toNat_le]
    exact Nat.lt_succ_iff.symm
  constructor
  · intro h
    cases hlist : text.toList with
    | nil =>
      rw [String.toList_eq_nil_iff.mp hlist] at h
      exact absurd h (by decide)
    | cons c cs =>
      have htext : text = String.singleton c ++ String.ofList cs := by
        apply String.toList_inj.mp
        simp [hlist]
      have hpos := c.utf8Size_pos
      rw [htext, String.utf8ByteSize_append, String.utf8ByteSize_singleton] at h
      have hrest : String.ofList cs = "" := by
        apply String.utf8ByteSize_eq_zero_iff.mp
        omega
      refine ⟨c, ?_, (hsize c).mp (by omega)⟩
      rw [htext, hrest, String.append_empty]
  · rintro ⟨c, rfl, hc⟩
    rw [String.utf8ByteSize_singleton]
    exact (hsize c).mpr hc

theorem reads_isAlpha : Reads isAlpha asciiAlphabetic where
  iff character := by
    simp only [isAlpha, Bool.and_eq_true, decide_eq_true_eq, utf8ByteSize_eq_one]
    constructor
    · rintro ⟨hcase, c, rfl, hc⟩
      refine ⟨c, rfl, ?_⟩
      rw [← lower_ne_upper hc]
      simpa using hcase
    · rintro ⟨c, rfl, hc⟩
      have hascii := ascii_of_alphabetic hc
      rw [← lower_ne_upper hascii, decide_eq_true_eq] at hc
      exact ⟨by simpa using hc, c, rfl, hascii⟩
  printable c hc := by
    simp only [← alphabetic_toNat, alphabetic, Bool.or_eq_true, Bool.and_eq_true,
      decide_eq_true_eq] at hc
    omega

theorem reads_isSuffixChar : Reads isSuffixChar (suffixCode Char.toNat) := by
  have h := ((((reads_isAlpha.or reads_isDigit).or (reads_eq (d := '.') (by decide))).or
    (reads_eq (d := '_') (by decide))).or (reads_eq (d := '~') (by decide))).or
      (reads_eq (d := '-') (by decide))
  refine h.congr fun c => ?_
  simp only [suffixCode, alphabetic_toNat, digit_toNat, Char.toNat_inj]

def Singles (characters : List String) : Prop :=
  ∀ character ∈ characters, ∃ c, character = String.singleton c ∧ 32 ≤ c.toNat ∧ c.toNat ≤ 126

theorem Singles.nil : Singles [] := fun _ hmem => absurd hmem List.not_mem_nil

theorem Singles.append {characters others : List String} (h : Singles characters)
    (hothers : Singles others) : Singles (characters ++ others) := by
  intro character hmem
  rcases List.mem_append.mp hmem with hmem | hmem
  · exact h character hmem
  · exact hothers character hmem

theorem Reads.single {predicate : String → Bool} {test : Char → Bool} (h : Reads predicate test)
    {character : String} (hp : predicate character = true) : Singles [character] := by
  intro other hmem
  obtain ⟨c, hc, htest⟩ := (h.iff character).mp hp
  rw [List.mem_singleton.mp hmem]
  exact ⟨c, hc, h.printable c htest⟩

theorem Reads.singles {predicate : String → Bool} {test : Char → Bool} (h : Reads predicate test)
    {characters : List String} (hall : characters.all predicate = true) : Singles characters :=
  fun character hmem =>
    h.single (List.all_eq_true.mp hall character hmem) character List.mem_cons_self

theorem Reads.all {predicate : String → Bool} {test : Char → Bool} (h : Reads predicate test)
    (cs : List Char) : (cs.map String.singleton).all predicate = cs.all test := by
  rw [List.all_map]
  congr 1
  funext c
  exact h.singleton c

section
variable {strings : GleamString} (lawful : LawfulGleamString strings)
include lawful

theorem graphemes_printable {text : String}
    (h : ∀ c ∈ text.toList, 32 ≤ c.toNat ∧ c.toNat ≤ 126) :
    strings.graphemes text = text.toList.map String.singleton :=
  lawful.graphemes_ascii text fun c hc =>
    ⟨UInt32.le_iff_toNat_le.mpr (h c hc).1, UInt32.le_iff_toNat_le.mpr (h c hc).2⟩

/-- A predicate on graphemes that only texts of single printable characters meet is one on
characters. -/
theorem on_graphemes (onGraphemes : List String → Bool) (onChars : List Char → Bool)
    (hsingles : ∀ characters, onGraphemes characters = true → Singles characters)
    (hmap : ∀ cs : List Char, onGraphemes (cs.map String.singleton) = onChars cs) (text : String) :
    onGraphemes (strings.graphemes text) = onChars text.toList := by
  rw [Bool.eq_iff_iff]
  constructor
  · intro h
    have hgraphemes : strings.graphemes text = text.toList.map String.singleton := by
      rw [← lawful.graphemes_join text]
      generalize strings.graphemes text = characters at h
      have hall := hsingles characters h
      clear h
      induction characters with
      | nil => rfl
      | cons character characters ih =>
        obtain ⟨c, rfl, -⟩ := hall character List.mem_cons_self
        rw [List.flatMap_cons, List.map_append,
          ← ih fun other hother => hall other (List.mem_cons_of_mem _ hother)]
        simp
    rwa [hgraphemes, hmap] at h
  · intro h
    rw [← hmap] at h
    rw [graphemes_printable lawful fun c hc => ?_]
    · exact h
    · obtain ⟨d, hd, hrange⟩ := hsingles _ h _ (List.mem_map_of_mem hc)
      rwa [String.singleton_inj.mp hd]

/-- A test of every grapheme reads characters, and the graphemes of a text that passes it are as
many as its characters. -/
theorem allChars_eq {predicate : String → Bool} {test : Char → Bool} (h : Reads predicate test)
    (text : String) : allChars strings text predicate = text.toList.all test :=
  on_graphemes lawful (fun characters => characters.all predicate) _
    (fun _ hall => h.singles hall) h.all text

theorem length_graphemes {predicate : String → Bool} {test : Char → Bool}
    (h : Reads predicate test) {text : String} (hall : text.toList.all test = true) :
    (strings.graphemes text).length = text.toList.length := by
  have hprintable : ∀ c ∈ text.toList, 32 ≤ c.toNat ∧ c.toNat ≤ 126 :=
    fun c hc => h.printable c (List.all_eq_true.mp hall c hc)
  rw [graphemes_printable lawful hprintable, List.length_map]

theorem isDigits_graphemes (text : String) :
    isDigits strings text = digitsPattern Char.toNat text.toList := by
  have hdigit : digit Char.toNat = Char.isDigit := rfl
  simp only [isDigits, digitsPattern, allChars_eq lawful reads_isDigit, hdigit]
  cases hall : text.toList.all Char.isDigit with
  | false => simp only [Bool.and_false]
  | true => rw [length_graphemes lawful reads_isDigit hall]

theorem isIdentifier_graphemes (text : String) :
    isIdentifier strings text = Ingest.isIdentifier text := by
  have hfirst := reads_isAlpha.or (reads_eq (d := '_') (by decide))
  have hrest := (reads_isAlpha.or reads_isDigit).or (reads_eq (d := '_') (by decide))
  let onGraphemes : List String → Bool := fun characters =>
    characters.head?.any (fun first => isAlpha first || first = "_") &&
      characters.tail.length ≤ 62 &&
      characters.tail.all fun character => isAlpha character || isDigit character || character = "_"
  let onChars : List Char → Bool := fun cs =>
    cs.head?.any (fun c => asciiAlphabetic c || c = '_') && cs.tail.length ≤ 62 &&
      cs.tail.all fun c => asciiAlphabetic c || c.isDigit || c = '_'
  have hgraphemes : isIdentifier strings text = onGraphemes (strings.graphemes text) := by
    unfold isIdentifier
    cases strings.graphemes text <;> rfl
  have hchars : Ingest.isIdentifier text = onChars text.toList := by
    unfold Ingest.isIdentifier
    cases text.toList <;> rfl
  rw [hgraphemes, hchars]
  refine on_graphemes lawful onGraphemes onChars ?_ ?_ text
  · intro characters h
    cases characters with
    | nil => exact .nil
    | cons first rest =>
      simp only [onGraphemes, List.head?_cons, Option.any_some, List.tail_cons,
        Bool.and_eq_true] at h
      obtain ⟨⟨hf, -⟩, hr⟩ := h
      exact (hfirst.single hf).append (hrest.singles hr)
  · intro cs
    cases cs with
    | nil => rfl
    | cons c rest =>
      simp only [onGraphemes, onChars, List.map_cons, List.head?_cons, Option.any_some,
        List.tail_cons, List.length_map]
      have hc : (isAlpha (String.singleton c) || decide (String.singleton c = "_")) =
          (asciiAlphabetic c || decide (c = '_')) := hfirst.singleton c
      have hr : ((rest.map String.singleton).all fun character =>
          isAlpha character || isDigit character || decide (character = "_")) =
          rest.all fun c => asciiAlphabetic c || c.isDigit || decide (c = '_') := hrest.all rest
      rw [hc, hr]
      rfl

theorem isDecimalString_graphemes (text : String) :
    isDecimalString strings text = Ingest.isDecimalString text := by
  let onGraphemes : List String → Bool := fun characters =>
    characters = ["0"] || characters ≠ [] && characters.head? ≠ some "0" && characters.all isDigit
  let onChars : List Char → Bool := fun cs =>
    cs = ['0'] || cs ≠ [] && cs.head? ≠ some '0' && cs.all Char.isDigit
  have hgraphemes : isDecimalString strings text = onGraphemes (strings.graphemes text) := by
    unfold isDecimalString
    split
    · next h => simp [onGraphemes, h]
    · next h => simp [onGraphemes, h]
    · next tail hone h =>
      have htail : tail ≠ [] := hone
      simp [onGraphemes, h, htail]
    · next hne hzero hother =>
      have hhead : (strings.graphemes text).head? ≠ some "0" := fun h =>
        hother _ (List.head?_eq_some_iff.mp h).choose_spec
      have hnonempty : strings.graphemes text ≠ [] := hne
      have hone : strings.graphemes text ≠ ["0"] := hzero
      simp only [onGraphemes, ne_eq, hnonempty, hone, hhead, not_false_eq_true, decide_true, decide_false,
        Bool.false_or, Bool.true_and]
  have hchars : Ingest.isDecimalString text = onChars text.toList := by
    unfold Ingest.isDecimalString
    split
    · next h => simp [onChars, h]
    · next h => simp [onChars, h]
    · next tail hone h =>
      have htail : tail ≠ [] := hone
      simp [onChars, h, htail]
    · next hne hzero hother =>
      have hhead : (text.toList).head? ≠ some '0' := fun h =>
        hother _ (List.head?_eq_some_iff.mp h).choose_spec
      have hnonempty : text.toList ≠ [] := hne
      have hone : text.toList ≠ ['0'] := hzero
      simp only [onChars, ne_eq, hnonempty, hone, hhead, not_false_eq_true, decide_true, decide_false,
        Bool.false_or, Bool.true_and]
  rw [hgraphemes, hchars]
  refine on_graphemes lawful onGraphemes onChars ?_ ?_ text
  · intro characters h
    simp only [onGraphemes, Bool.or_eq_true, Bool.and_eq_true, decide_eq_true_eq] at h
    rcases h with rfl | h
    · exact reads_isDigit.single rfl
    · exact reads_isDigit.singles h.2
  · intro cs
    have hzero : cs.map String.singleton = ["0"] ↔ cs = ['0'] := by
      rw [show ["0"] = ['0'].map String.singleton from rfl]
      exact (List.map_injective_iff.mpr fun _ _ => String.singleton_inj.mp).eq_iff
    have hhead : (cs.map String.singleton).head? = some "0" ↔ cs.head? = some '0' := by
      rw [List.head?_map, Option.map_eq_some_iff]
      constructor
      · rintro ⟨c, hc, hs⟩
        obtain rfl : c = '0' := String.singleton_inj.mp hs
        exact hc
      · exact fun h => ⟨'0', h, rfl⟩
    simp only [onGraphemes, onChars, hzero, hhead, ne_eq, List.map_eq_nil_iff, reads_isDigit.all]

/-- The form of a hybrid timestamp, up to dashes in the node. -/
def wideHlc (text : String) : Bool :=
  (hlcHead Char.toNat text.toList).any fun node => 1 ≤ node.length && node.length ≤ 128

/-- `string.split` cuts the text behind the 13 and the 4 first characters and nowhere else. -/
def cutsNode (strings : GleamString) (text : String) : Bool :=
  strings.split text = [String.ofList (text.toList.take 13),
    String.ofList ((text.toList.drop 14).take 4), String.ofList (text.toList.drop 19)]

omit lawful in
theorem parts_of_hlc {millis counter node cs : List Char}
    (hcs : cs = millis ++ '-' :: (counter ++ '-' :: node)) (hmillis : millis.length = 13)
    (hcounter : counter.length = 4) :
    cs.take 13 = millis ∧ (cs.drop 14).take 4 = counter ∧ cs.drop 19 = node := by
  have hrest : cs.drop 14 = counter ++ '-' :: node := by
    rw [hcs, ← List.singleton_append, ← List.append_assoc]
    exact List.drop_left' (by simp [hmillis])
  refine ⟨?_, ?_, ?_⟩
  · rw [hcs]
    exact List.take_left' hmillis
  · rw [hrest]
    exact List.take_left' hcounter
  · rw [show 19 = 14 + 5 from rfl, ← List.drop_drop, hrest, ← List.singleton_append,
      ← List.append_assoc]
    exact List.drop_left' (by simp [hcounter])

theorem isNativeHlc_graphemes (text : String) :
    isNativeHlc strings text = (wideHlc text && cutsNode strings text) := by
  rw [Bool.eq_iff_iff]
  constructor
  · intro h
    unfold isNativeHlc at h
    split at h
    · next millis counter node hsplit =>
      rw [allChars_eq lawful reads_isDigit,
        allChars_eq lawful reads_isLowerHex] at h
      simp only [Bool.and_eq_true, decide_eq_true_eq] at h
      obtain ⟨⟨⟨⟨⟨hml, hm⟩, hcl⟩, hc⟩, hpos⟩, hlen⟩ := h
      rw [length_graphemes lawful reads_isDigit hm] at hml
      rw [length_graphemes lawful reads_isLowerHex hc] at hcl
      have htext : text.toList = millis.toList ++ '-' :: (counter.toList ++ '-' :: node.toList) := by
        have hjoin := lawful.split_join text
        rw [hsplit] at hjoin
        simpa [List.intercalate] using hjoin.symm
      have hhead : hlcHead Char.toNat text.toList = some node.toList :=
        hlcHead_eq_some.mpr ⟨millis.toList, counter.toList, htext, ⟨hml, hm⟩, hcl, hc⟩
      obtain ⟨h13, h4, h19⟩ := parts_of_hlc htext hml hcl
      simp [wideHlc, cutsNode, hhead, hpos, hlen, hsplit, h13, h4, h19]
    · cases h
  · intro h
    simp only [wideHlc, cutsNode, Bool.and_eq_true, decide_eq_true_eq, Option.any_eq_true] at h
    obtain ⟨⟨node, hhead, hpos, hlen⟩, hsplit⟩ := h
    obtain ⟨millis, counter, htext, ⟨hml, hm⟩, hcl, hc⟩ := hlcHead_eq_some.mp hhead
    obtain ⟨h13, h4, h19⟩ := parts_of_hlc htext hml hcl
    rw [h13, h4, h19] at hsplit
    have hmillis : (String.ofList millis).toList.all Char.isDigit = true := by simpa using hm
    have hcounter : (String.ofList counter).toList.all hexCode = true := by simpa using hc
    unfold isNativeHlc
    rw [hsplit]
    simp only [allChars_eq lawful reads_isDigit,
      allChars_eq lawful reads_isLowerHex,
      length_graphemes lawful reads_isDigit hmillis,
      length_graphemes lawful reads_isLowerHex hcounter, hmillis, hcounter]
    simp [hml, hcl, hpos, hlen]

/-- The rest after a text of the shape. -/
def readShape : List String → List Char → Option (List Char)
  | [], cs => some cs
  | _ :: _, [] => none
  | wanted :: shape, c :: cs =>
    if (if wanted = "d" then isDigit (String.singleton c) else String.singleton c = wanted) then
      readShape shape cs
    else none

omit lawful in
theorem readShape_digits (count : ℕ) (shape : List String) :
    readShape (List.replicate count "d" ++ shape) = fun cs =>
      exactly Char.isDigit count cs >>= readShape shape := by
  funext cs
  induction count generalizing cs with
  | zero => rfl
  | succ count ih =>
    cases cs with
    | nil => rfl
    | cons c cs =>
      simp only [List.replicate_succ, List.cons_append, readShape, if_true, ih,
        reads_isDigit.singleton, exactly]
      by_cases hc : c.isDigit = true <;> simp [hc]

omit lawful in
theorem readShape_literally {d : Char} (hd : String.singleton d ≠ "d") (shape : List String) :
    readShape (String.singleton d :: shape) = fun cs =>
      literally Char.toNat d cs >>= readShape shape := by
  funext cs
  rw [literally_toNat]
  cases cs with
  | nil => rfl
  | cons c cs =>
    simp only [readShape, if_neg hd, String.singleton_inj, exactly]
    by_cases hc : c = d <;> simp [hc]

omit lawful in
theorem readShape_isoShape : readShape isoShape = isoHead Char.toNat := by
  have hdigits : digit Char.toNat = Char.isDigit := rfl
  have hdash : "-" = String.singleton '-' := rfl
  have htime : "T" = String.singleton 'T' := rfl
  have hcolon : ":" = String.singleton ':' := rfl
  have hshape : isoShape = List.replicate 4 "d" ++ "-" :: (List.replicate 2 "d" ++
      "-" :: (List.replicate 2 "d" ++ "T" :: (List.replicate 2 "d" ++ ":" ::
        (List.replicate 2 "d" ++ ":" :: (List.replicate 2 "d" ++ []))))) := rfl
  have hnil : readShape [] = some := rfl
  have hpure : ∀ x : Option (List Char), (x >>= some) = x := bind_pure
  rw [hshape, hdash, htime, hcolon]
  funext cs
  simp only [readShape_digits, readShape_literally (d := '-') (by decide),
    readShape_literally (d := 'T') (by decide), readShape_literally (d := ':') (by decide), hnil,
    hpure, isoHead, hdigits]

omit lawful in
/-- The shape of as many characters as it has is that of the text. -/
theorem matchesShape_take (shape : List String) (cs : List Char) :
    matchesShape ((cs.take shape.length).map String.singleton) shape =
      (readShape shape cs).isSome := by
  induction shape generalizing cs with
  | nil => simp [matchesShape, readShape]
  | cons wanted shape ih =>
    cases cs with
    | nil => simp [matchesShape, readShape]
    | cons c cs =>
      have h := ih cs
      simp only [matchesShape, List.length_map] at h
      simp only [matchesShape, List.length_cons, List.take_succ_cons, List.map_cons,
        List.zip_cons_cons, List.all_cons, readShape, List.length_map, Nat.add_right_cancel_iff]
      rw [Bool.and_left_comm, h]
      by_cases hw : wanted = "d"
      · by_cases hd : isDigit (String.singleton c) = true <;> simp [hw, hd]
      · by_cases hd : String.singleton c = wanted <;> simp [hw, hd]

omit lawful in
theorem drop_of_readShape {shape : List String} {cs rest : List Char}
    (h : readShape shape cs = some rest) : rest = cs.drop shape.length := by
  induction shape generalizing cs with
  | nil => exact (Option.some.inj h).symm
  | cons wanted shape ih =>
    cases cs with
    | nil => cases h
    | cons c cs =>
      rw [readShape, Option.ite_none_right_eq_some] at h
      exact ih h.2

omit lawful in
theorem singles_of_matchesShape {characters shape : List String} (hshape : Singles shape)
    (h : matchesShape characters shape = true) : Singles characters := by
  induction shape generalizing characters with
  | nil =>
    cases characters with
    | nil => exact .nil
    | cons character characters => exact absurd h (by simp [matchesShape])
  | cons wanted shape ih =>
    cases characters with
    | nil => exact .nil
    | cons character characters =>
      simp only [matchesShape, List.length_cons, Nat.add_right_cancel_iff, List.zip_cons_cons,
        List.all_cons, Bool.and_eq_true, decide_eq_true_eq] at h
      obtain ⟨hlen, hfirst, hrest⟩ := h
      have hw : Singles [wanted] := fun other hmem =>
        hshape other (List.mem_cons.mpr (.inl (List.mem_singleton.mp hmem)))
      have hs : Singles shape := fun other hmem => hshape other (List.mem_cons_of_mem _ hmem)
      have htail : Singles characters := by
        refine ih hs ?_
        simp only [matchesShape, hlen, decide_true, Bool.true_and]
        exact hrest
      show Singles ([character] ++ characters)
      refine Singles.append ?_ htail
      split at hfirst
      · exact reads_isDigit.single hfirst
      · rw [of_decide_eq_true hfirst]
        exact hw

omit lawful in
theorem afterFraction_map (rest : List Char) :
    afterFraction (rest.map String.singleton) =
      (parseFraction rest).map (List.map String.singleton) := by
  cases rest with
  | nil => rfl
  | cons c tail =>
    by_cases hc : c = '.'
    · subst hc
      have hcount : ((tail.map String.singleton).takeWhile isDigit).length =
          (tail.takeWhile Char.isDigit).length := by
        have hdigit : isDigit ∘ String.singleton = Char.isDigit :=
          funext fun c => reads_isDigit.singleton c
        rw [List.takeWhile_map, List.length_map, hdigit]
      show (if _ then _ else _) = Option.map _ (if _ then _ else _)
      rw [hcount]
      split
      · rw [Option.map_some, List.map_drop]
      · rfl
    · have hs : String.singleton c ≠ "." := fun h => hc (String.singleton_inj.mp h)
      have hleft : afterFraction ((c :: tail).map String.singleton) =
          some ((c :: tail).map String.singleton) := by
        unfold afterFraction
        split
        · next h => exact absurd (List.cons.inj h).1 hs
        · rfl
      have hright : parseFraction (c :: tail) = some (c :: tail) := by
        unfold parseFraction
        split
        · next h => exact absurd (List.cons.inj h).1 hc
        · rfl
      rw [hleft, hright, Option.map_some]

omit lawful in
/-- What follows the fraction. -/
theorem isoRest_map (rest : List Char) :
    isoRest (rest.map String.singleton) =
      (parseFraction rest >>= literally Char.toNat 'Z').any isoSuffix := by
  unfold isoRest
  rw [afterFraction_map]
  cases parseFraction rest with
  | none => rfl
  | some rest =>
    simp only [Option.map_some, Option.bind_eq_bind, Option.bind_some]
    cases rest with
    | nil => rfl
    | cons c suffix =>
      by_cases hc : c = 'Z'
      · subst hc
        have hz : literally Char.toNat 'Z' ('Z' :: suffix) = some suffix :=
          literally_eq_some.mpr rfl
        rw [hz, Option.any_some, isoSuffix]
        cases suffix with
        | nil => rfl
        | cons d suffix =>
          by_cases hd : d = '-'
          · subst hd
            have hdash : literally Char.toNat '-' ('-' :: suffix) = some suffix :=
              literally_eq_some.mpr rfl
            rw [hdash]
            have hall := reads_isSuffixChar.all suffix
            cases suffix with
            | nil => rfl
            | cons e suffix =>
              show (decide _ && _) = (false || (true && _))
              rw [hall]
              simp
          · have hs : String.singleton d ≠ "-" := fun h => hd (String.singleton_inj.mp h)
            have hnone : literally Char.toNat '-' (d :: suffix) = none := by
              rw [literally_toNat, exactly, if_neg (by simpa using hd)]
            rw [hnone]
            split
            · next h => cases h
            · next h => cases h
            · next h => exact absurd (List.cons.inj (List.cons.inj (Option.some.inj h)).2).1 hs
            · rfl
      · have hs : String.singleton c ≠ "Z" := fun h => hc (String.singleton_inj.mp h)
        have hnone : literally Char.toNat 'Z' (c :: suffix) = none := by
          rw [literally_toNat, exactly, if_neg (by simpa using hc)]
        rw [hnone]
        split
        · next h => cases h
        · next h => exact absurd (List.cons.inj (Option.some.inj h)).1 hs
        · next h => exact absurd (List.cons.inj (Option.some.inj h)).1 hs
        · rfl

omit lawful in
theorem singles_of_afterFraction {rest l : List String} (h : afterFraction rest = some l)
    (hl : Singles l) : Singles rest := by
  have hpoint : Singles ["."] := (reads_eq (d := '.') (by decide)).single (decide_eq_true rfl)
  unfold afterFraction at h
  split at h
  · next tail =>
    dsimp only at h
    rw [Option.ite_none_right_eq_some] at h
    obtain ⟨digits, hdigits⟩ := List.takeWhile_prefix isDigit (l := tail)
    have hdrop := congrArg (List.drop (tail.takeWhile isDigit).length) hdigits
    rw [List.drop_left, Option.some.inj h.2] at hdrop
    rw [hdrop] at hdigits
    rw [← hdigits]
    exact hpoint.append ((reads_isDigit.singles List.all_takeWhile).append hl)
  · rwa [Option.some.inj h]

omit lawful in
theorem singles_of_isoRest {rest : List String} (h : isoRest rest = true) : Singles rest := by
  have hz : Singles ["Z"] := (reads_eq (d := 'Z') (by decide)).single (decide_eq_true rfl)
  have hdash : Singles ["-"] := (reads_eq (d := '-') (by decide)).single (decide_eq_true rfl)
  unfold isoRest at h
  split at h
  · cases h
  · next hrest => exact singles_of_afterFraction hrest hz
  · next suffix hrest =>
    rw [Bool.and_eq_true] at h
    exact singles_of_afterFraction hrest (hz.append (hdash.append (reads_isSuffixChar.singles h.2)))
  · cases h

omit lawful in
theorem singles_isoShape : Singles isoShape := by
  intro character hmem
  fin_cases hmem
  all_goals first
    | exact ⟨'d', rfl, by decide⟩
    | exact ⟨'-', rfl, by decide⟩
    | exact ⟨'T', rfl, by decide⟩
    | exact ⟨':', rfl, by decide⟩

theorem isIso8601_graphemes (text : String) :
    isIso8601 strings text = Ingest.isIso8601 text := by
  let onGraphemes : List String → Bool := fun characters =>
    matchesShape (characters.take 19) isoShape && isoRest (characters.drop 19)
  let onChars : List Char → Bool := fun cs => (parseHead cs).any isoSuffix
  rw [isIso8601_eq_any]
  refine on_graphemes lawful onGraphemes onChars ?_ ?_ text
  · intro characters h
    simp only [onGraphemes, Bool.and_eq_true] at h
    rw [← List.take_append_drop 19 characters]
    exact (singles_of_matchesShape singles_isoShape h.1).append (singles_of_isoRest h.2)
  · intro cs
    simp only [onGraphemes, onChars, ← List.map_take, ← List.map_drop, isoRest_map]
    have hshape := matchesShape_take isoShape cs
    rw [show isoShape.length = 19 from rfl] at hshape
    rw [hshape, parseHead_eq, ← readShape_isoShape]
    cases hread : readShape isoShape cs with
    | none => rfl
    | some rest =>
      rw [drop_of_readShape hread]
      rfl

end

end Gleam

end OptoSync.Ingest
