import OptoSync.IngestSchema

/-!
# The grammars on characters and on code units

The regular expressions read code units and the hand-written parsers read characters. They accept
the same texts, but for the length of the node in a hybrid timestamp.
-/
namespace OptoSync.Ingest
open Utf16

/-- A test that only ASCII meets. -/
def Ascii (test : ℕ → Bool) : Prop := ∀ n, test n = true → n < 128

theorem Ascii.eq_false {test : ℕ → Bool} (h : Ascii test) {n : ℕ} (hn : 128 ≤ n) :
    test n = false := by
  by_contra hne
  have := h n (by simpa using hne)
  omega

theorem all_units {test : ℕ → Bool} (h : Ascii test) (c : Char) :
    (units c).all test = test c.toNat := by
  rcases units_cases c with hunits | ⟨first, second, hunits, hfirst, -, hc⟩
  · simp [hunits]
  · have hne : test first = false := h.eq_false (by omega)
    have hnc : test c.toNat = false := h.eq_false (by omega)
    simp [hunits, hne, hnc]

theorem any_units {test : ℕ → Bool} (h : Ascii test) (c : Char) :
    (units c).any test = test c.toNat := by
  rcases units_cases c with hunits | ⟨first, second, hunits, hfirst, hsecond, hc⟩
  · simp [hunits]
  · have hne : test first = false := h.eq_false (by omega)
    have hns : test second = false := h.eq_false (by omega)
    have hnc : test c.toNat = false := h.eq_false (by omega)
    simp [hunits, hne, hns, hnc]

theorem all_encode {test : ℕ → Bool} (h : Ascii test) (cs : List Char) :
    (encode cs).all test = cs.all fun c => test c.toNat := by
  induction cs with
  | nil => rfl
  | cons c cs ih => rw [encode_cons, List.all_append, all_units h, ih, List.all_cons]

theorem any_encode {test : ℕ → Bool} (h : Ascii test) (cs : List Char) :
    (encode cs).any test = cs.any fun c => test c.toNat := by
  induction cs with
  | nil => rfl
  | cons c cs ih => rw [encode_cons, List.any_append, any_units h, ih, List.any_cons]

theorem length_encode {test : ℕ → Bool} (h : Ascii test) {cs : List Char}
    (hall : (cs.all fun c => test c.toNat) = true) : (encode cs).length = cs.length := by
  have hlt : ∀ c ∈ cs, c.toNat < 0x10000 := by
    intro c hc
    have := h _ (List.all_eq_true.mp hall c hc)
    omega
  rw [encode_of_lt hlt, List.length_map]

/-- Where only ASCII passes, the number of code units is the number of characters. -/
theorem length_all_encode {test : ℕ → Bool} (h : Ascii test) (p : ℕ → Bool) (cs : List Char) :
    (p (encode cs).length && (encode cs).all test) =
      (p cs.length && cs.all fun c => test c.toNat) := by
  rw [all_encode h]
  by_cases hall : (cs.all fun c => test c.toNat) = true
  · rw [length_encode h hall]
  · rw [Bool.eq_false_iff.mpr hall, Bool.and_false, Bool.and_false]

theorem isEmpty_encode (cs : List Char) : (encode cs).isEmpty = cs.isEmpty := by
  cases cs with
  | nil => rfl
  | cons c cs =>
    have hle := length_le_encode (c :: cs)
    cases h : encode (c :: cs) with
    | nil => rw [h] at hle; simp at hle
    | cons a l => rfl

/-- The reader of code units does on an encoded text what the reader of characters does on the
text. -/
def Transfers (onUnits : List ℕ → Option (List ℕ)) (onText : List Char → Option (List Char)) :
    Prop :=
  ∀ cs, onUnits (encode cs) = (onText cs).map encode

theorem Transfers.bind {f g : List ℕ → Option (List ℕ)} {f' g' : List Char → Option (List Char)}
    (hf : Transfers f f') (hg : Transfers g g') :
    Transfers (fun l => f l >>= g) (fun cs => f' cs >>= g') := by
  intro cs
  simp only [hf cs]
  cases f' cs with
  | none => rfl
  | some rest => exact hg rest

theorem Transfers.any {f : List ℕ → Option (List ℕ)} {f' : List Char → Option (List Char)}
    (hf : Transfers f f') {p : List ℕ → Bool} {q : List Char → Bool}
    (hp : ∀ cs, p (encode cs) = q cs) (cs : List Char) :
    (f (encode cs)).any p = (f' cs).any q := by
  rw [hf cs]
  cases f' cs with
  | none => rfl
  | some rest => exact hp rest

theorem transfers_exactly {test : ℕ → Bool} (h : Ascii test) (count : ℕ) :
    Transfers (exactly test count) (exactly (fun c => test c.toNat) count) := by
  induction count with
  | zero => exact fun cs => rfl
  | succ count ih =>
    intro cs
    cases cs with
    | nil => rfl
    | cons c cs =>
      rcases units_cases c with hunits | ⟨first, second, hunits, hfirst, -, hc⟩
      · simp only [encode_cons, hunits, List.singleton_append, exactly, ih cs]
        by_cases ht : test c.toNat = true
        · simp only [ht, if_true]
        · simp only [ht, Bool.false_eq_true, if_false, Option.map_none]
      · have hne : test first = false := h.eq_false (by omega)
        have hnc : test c.toNat = false := h.eq_false (by omega)
        simp [encode_cons, hunits, exactly, hne, hnc]

theorem exactly_eq_some {α : Type} {test : α → Bool} {count : ℕ} {l rest : List α} :
    exactly test count l = some rest ↔
      ∃ start, l = start ++ rest ∧ start.length = count ∧ start.all test = true := by
  induction count generalizing l with
  | zero =>
    constructor
    · intro h
      exact ⟨[], Option.some.inj h, rfl, rfl⟩
    · rintro ⟨start, rfl, hlen, -⟩
      rw [List.length_eq_zero_iff.mp hlen]
      rfl
  | succ count ih =>
    cases l with
    | nil =>
      constructor
      · intro h
        cases h
      · rintro ⟨start, hl, hlen, -⟩
        rw [List.nil_eq, List.append_eq_nil_iff] at hl
        rw [hl.1] at hlen
        cases hlen
    | cons a l =>
      rw [exactly]
      constructor
      · intro h
        split at h
        · next ha =>
          obtain ⟨start, rfl, hlen, hall⟩ := ih.mp h
          exact ⟨a :: start, rfl, by rw [List.length_cons, hlen], by simp [ha, hall]⟩
        · cases h
      · rintro ⟨start, hl, hlen, hall⟩
        cases start with
        | nil => cases hlen
        | cons b start =>
          rw [List.cons_append, List.cons.injEq] at hl
          rw [List.all_cons, Bool.and_eq_true] at hall
          rw [hl.1, if_pos hall.1]
          exact ih.mpr ⟨start, hl.2, by simpa using hlen, hall.2⟩

theorem digit_toNat (c : Char) : digit Char.toNat c = c.isDigit := rfl

theorem alphabetic_toNat (c : Char) : alphabetic Char.toNat c = asciiAlphabetic c := rfl

theorem literally_toNat (d : Char) (cs : List Char) :
    literally Char.toNat d cs = exactly (· = d) 1 cs := by
  simp only [literally, Char.toNat_inj]

theorem ascii_digit : Ascii (digit id) := by
  intro n h
  simp only [digit, id_eq, Bool.and_eq_true, decide_eq_true_eq] at h
  omega

theorem ascii_alphabetic : Ascii (alphabetic id) := by
  intro n h
  simp only [alphabetic, id_eq, Bool.or_eq_true, Bool.and_eq_true, decide_eq_true_eq] at h
  omega

theorem ascii_eq {c : Char} (hc : c.toNat < 128) : Ascii fun n => n = c.toNat := by
  intro n h
  rw [decide_eq_true_eq.mp h]
  exact hc

theorem Ascii.or {p q : ℕ → Bool} (hp : Ascii p) (hq : Ascii q) : Ascii fun n => p n || q n := by
  intro n h
  rcases (Bool.or_eq_true _ _).mp h with h | h
  · exact hp n h
  · exact hq n h

theorem ascii_range {low high : ℕ} (h : high < 128) : Ascii fun n => low ≤ n && n ≤ high := by
  intro n hn
  simp only [Bool.and_eq_true, decide_eq_true_eq] at hn
  omega

theorem transfers_digits (count : ℕ) :
    Transfers (exactly (digit id) count) (exactly (digit Char.toNat) count) :=
  transfers_exactly ascii_digit count

theorem transfers_literally {c : Char} (hc : c.toNat < 128) :
    Transfers (literally id c) (literally Char.toNat c) :=
  transfers_exactly (ascii_eq hc) 1

theorem transfers_hlcHead : Transfers (hlcHead id) (hlcHead Char.toNat) := by
  have hdash := transfers_literally (c := '-') (by decide)
  have hcounter : Transfers (exactly (fun a => digit id a || (97 ≤ a && a ≤ 102)) 4)
      (exactly (fun a => digit Char.toNat a || (97 ≤ a.toNat && a.toNat ≤ 102)) 4) :=
    transfers_exactly (ascii_digit.or (ascii_range (by omega))) 4
  exact (transfers_digits 13).bind (hdash.bind (hcounter.bind hdash))

theorem transfers_isoHead : Transfers (isoHead id) (isoHead Char.toNat) := by
  have hdash := transfers_literally (c := '-') (by decide)
  have hcolon := transfers_literally (c := ':') (by decide)
  have htime := transfers_literally (c := 'T') (by decide)
  have htwo := transfers_digits 2
  exact (transfers_digits 4).bind (hdash.bind (htwo.bind (hdash.bind (htwo.bind
    (htime.bind (htwo.bind (hcolon.bind (htwo.bind (hcolon.bind htwo)))))))))

theorem ascii_suffixCode : Ascii (suffixCode id) :=
  ((((ascii_alphabetic.or ascii_digit).or (ascii_eq (c := '.') (by decide))).or
    (ascii_eq (c := '_') (by decide))).or (ascii_eq (c := '~') (by decide))).or
      (ascii_eq (c := '-') (by decide))

theorem isoEnd_encode (cs : List Char) : isoEnd id (encode cs) = isoEnd Char.toNat cs := by
  refine (transfers_literally (by decide)).any (fun suffix => ?_) cs
  congr 1
  · exact isEmpty_encode suffix
  · refine (transfers_literally (by decide)).any (fun rest => ?_) suffix
    rw [isEmpty_encode, all_encode ascii_suffixCode]
    rfl

theorem isoPattern_encode (cs : List Char) :
    isoPattern id (encode cs) = isoPattern Char.toNat cs := by
  refine transfers_isoHead.any (fun rest => ?_) cs
  congr 1
  · exact isoEnd_encode rest
  · refine (transfers_literally (by decide)).any (fun fraction => ?_) rest
    congr 1
    funext count
    exact (transfers_digits count).any isoEnd_encode fraction

theorem identifierPattern_encode (cs : List Char) :
    identifierPattern id (encode cs) = identifierPattern Char.toNat cs := by
  have hunder := ascii_eq (c := '_') (by decide)
  refine (transfers_exactly (ascii_alphabetic.or hunder) 1).any (fun rest => ?_) cs
  exact length_all_encode ((ascii_alphabetic.or ascii_digit).or hunder) (fun n => n ≤ 62) rest

theorem decimalPattern_encode (cs : List Char) :
    decimalPattern id (encode cs) = decimalPattern Char.toNat cs := by
  have hfirst : Ascii fun a => 49 ≤ a && a ≤ 57 := ascii_range (by omega)
  have hzero := (transfers_literally (c := '0') (by decide)).any isEmpty_encode cs
  have hother := (transfers_exactly hfirst 1).any (p := fun rest => rest.all (digit id))
    (fun rest => all_encode ascii_digit rest) cs
  exact congrArg₂ or hzero hother

theorem digitsPattern_encode (cs : List Char) :
    digitsPattern id (encode cs) = digitsPattern Char.toNat cs :=
  length_all_encode ascii_digit (fun n => 1 ≤ n && n ≤ 20) cs

theorem ascii_isDigit {c : Char} (h : c.isDigit = true) : c.toNat < 128 := ascii_digit _ h

theorem isDigits_eq (text : String) : isDigits text = digitsPattern Char.toNat text.toList := by
  have hdigits : digit Char.toNat = Char.isDigit := rfl
  rw [isDigits, digitsPattern, hdigits]
  by_cases hall : text.toList.all Char.isDigit = true
  · have hsize := utf8ByteSize_of_lt fun c hc => ascii_isDigit (List.all_eq_true.mp hall c hc)
    rw [hsize]
  · rw [Bool.eq_false_iff.mpr hall, Bool.and_false, Bool.and_false]

theorem isIdentifier_eq (text : String) :
    isIdentifier text = identifierPattern Char.toNat text.toList := by
  have hunder : ∀ c : Char, decide (c.toNat = '_'.toNat) = decide (c = '_') := fun c =>
    decide_eq_decide.mpr Char.toNat_inj
  rw [isIdentifier, identifierPattern]
  cases text.toList with
  | nil => rfl
  | cons c rest =>
    simp only [exactly, alphabetic_toNat, digit_toNat, hunder]
    by_cases hc : (asciiAlphabetic c || decide (c = '_')) = true
    · rw [if_pos hc, hc, Bool.true_and]
      rfl
    · rw [if_neg hc, Bool.eq_false_iff.mpr hc, Bool.false_and, Bool.false_and]
      rfl

theorem isDecimalString_eq (text : String) :
    isDecimalString text = decimalPattern Char.toNat text.toList := by
  rw [isDecimalString, decimalPattern, literally_toNat]
  split
  · next h => rw [h]; rfl
  · next h => rw [h]; rfl
  · next rest hne h =>
    rw [h]
    cases rest with
    | nil => exact absurd rfl hne
    | cons c rest => rfl
  · next hne hzero hlead =>
    cases hcs : text.toList with
    | nil => exact absurd hcs hne
    | cons c rest =>
      have hc : c ≠ '0' := fun hc => hlead rest (by rw [hcs, hc])
      have hfirst : c.isDigit = (49 ≤ c.toNat && c.toNat ≤ 57) := by
        have hcode : c.toNat ≠ 48 := fun h => hc (Char.toNat_inj.mp h)
        rw [← digit_toNat, digit, Bool.eq_iff_iff, Bool.and_eq_true, Bool.and_eq_true,
          decide_eq_true_eq, decide_eq_true_eq, decide_eq_true_eq]
        omega
      simp only [exactly, decide_eq_true_eq, if_neg hc, Option.any_none, Bool.false_or,
        List.all_cons, hfirst]
      by_cases h : (decide (49 ≤ c.toNat) && decide (c.toNat ≤ 57)) = true
      · rw [if_pos h, h, Bool.true_and]
        rfl
      · rw [if_neg h, Bool.eq_false_iff.mpr h, Bool.false_and]
        rfl

/-- What may follow the `Z`. -/
def isoSuffix (suffix : List Char) : Bool :=
  suffix.isEmpty || (literally Char.toNat '-' suffix).any fun rest =>
    !rest.isEmpty && rest.all (suffixCode Char.toNat)

theorem parseHead_eq (cs : List Char) :
    parseHead cs = isoHead Char.toNat cs >>= fun rest =>
      parseFraction rest >>= literally Char.toNat 'Z' := by
  have hdigits : digit Char.toNat = Char.isDigit := rfl
  have hliterally : ∀ c, literally Char.toNat c = exactly (· = c) 1 := fun c =>
    funext (literally_toNat c)
  simp only [parseHead, isoHead, hliterally, hdigits, bind_assoc]

theorem isIso8601_eq_any (text : String) :
    isIso8601 text = (parseHead text.toList).any isoSuffix := by
  have hcode : suffixCode Char.toNat = fun c =>
      asciiAlphabetic c || c.isDigit || c = '.' || c = '_' || c = '~' || c = '-' := by
    funext c
    simp only [suffixCode, alphabetic_toNat, digit_toNat, Char.toNat_inj]
  rw [isIso8601]
  cases parseHead text.toList with
  | none => rfl
  | some rest =>
    cases rest with
    | nil => rfl
    | cons c suffix =>
      by_cases hc : c = '-'
      · subst hc
        simp only [Option.any_some, isoSuffix, literally_toNat, exactly, List.isEmpty_cons,
          Bool.false_or, decide_true, if_true, hcode]
        cases suffix <;> rfl
      · have hnone : literally Char.toNat '-' (c :: suffix) = none := by
          rw [literally_toNat, exactly, if_neg (by simpa using hc)]
        rw [Option.any_some, isoSuffix, hnone]
        split
        · next h => cases h
        · next h => cases h
        · next h =>
          cases h
          exact absurd rfl hc
        · rfl

theorem isoEnd_of_isDigit {c : Char} (hc : c.isDigit = true) (rest : List Char) :
    isoEnd Char.toNat (c :: rest) = false := by
  have hne : c ≠ 'Z' := by
    rintro rfl
    cases hc
  rw [isoEnd, literally_toNat, exactly, if_neg (by simpa using hne)]
  rfl

/-- The fraction ends where its digits do. -/
theorem any_exactly_isoEnd (count : ℕ) (fraction : List Char) :
    (exactly Char.isDigit count fraction).any (isoEnd Char.toNat) =
      (decide (count = (fraction.takeWhile Char.isDigit).length) &&
        isoEnd Char.toNat (fraction.drop count)) := by
  induction count generalizing fraction with
  | zero =>
    cases fraction with
    | nil => rfl
    | cons c rest =>
      rw [exactly, Option.any_some, List.drop_zero]
      by_cases hc : c.isDigit = true
      · rw [isoEnd_of_isDigit hc, Bool.and_false]
      · rw [List.takeWhile_cons_of_neg hc]
        rfl
  | succ count ih =>
    cases fraction with
    | nil => rfl
    | cons c rest =>
      by_cases hc : c.isDigit = true
      · rw [exactly, if_pos hc, ih rest, List.takeWhile_cons_of_pos hc, List.length_cons,
          List.drop_succ_cons]
        simp only [Nat.add_right_cancel_iff]
      · rw [exactly, if_neg hc, List.takeWhile_cons_of_neg hc]
        rfl

theorem any_parseFraction (rest : List Char) :
    (parseFraction rest).any (isoEnd Char.toNat) =
      (isoEnd Char.toNat rest || (literally Char.toNat '.' rest).any fun fraction =>
        (List.range' 1 9).any fun count =>
          (exactly (digit Char.toNat) count fraction).any (isoEnd Char.toNat)) := by
  cases rest with
  | nil => rfl
  | cons c fraction =>
    by_cases hc : c = '.'
    · subst hc
      have hdot : literally Char.toNat '.' ('.' :: fraction) = some fraction := rfl
      have hend : isoEnd Char.toNat ('.' :: fraction) = false := rfl
      have hdigits : digit Char.toNat = Char.isDigit := rfl
      rw [hdot, hend, Bool.false_or, Option.any_some, parseFraction, hdigits, Bool.eq_iff_iff]
      simp only [any_exactly_isoEnd, List.any_eq_true, List.mem_range'_1, Bool.and_eq_true,
        decide_eq_true_eq]
      generalize (fraction.takeWhile Char.isDigit).length = count
      constructor
      · intro h
        split at h
        · next hcount => exact ⟨count, ⟨hcount.1, by omega⟩, rfl, h⟩
        · cases h
      · rintro ⟨n, hn, rfl, h⟩
        rw [if_pos ⟨hn.1, by omega⟩]
        exact h
    · have hnone : literally Char.toNat '.' (c :: fraction) = none := by
        rw [literally_toNat, exactly, if_neg (by simpa using hc)]
      have hsome : parseFraction (c :: fraction) = some (c :: fraction) := by
        unfold parseFraction
        split
        · next h =>
          cases h
          exact absurd rfl hc
        · rfl
      rw [hnone, hsome, Option.any_none, Option.any_some, Bool.or_false]

theorem isIso8601_eq (text : String) : isIso8601 text = isoPattern Char.toNat text.toList := by
  rw [isIso8601_eq_any, parseHead_eq, isoPattern]
  cases isoHead Char.toNat text.toList with
  | none => rfl
  | some rest =>
    rw [Option.any_some, ← any_parseFraction]
    show (parseFraction rest >>= literally Char.toNat 'Z').any isoSuffix = _
    cases parseFraction rest with
    | none => rfl
    | some rest => rfl

theorem literally_eq_some {d : Char} {cs rest : List Char} :
    literally Char.toNat d cs = some rest ↔ cs = d :: rest := by
  rw [literally_toNat]
  cases cs with
  | nil => simp [exactly]
  | cons c cs =>
    by_cases hc : c = d
    · simp [exactly, hc]
    · simp [exactly, hc]

def hexCode (c : Char) : Bool := digit Char.toNat c || (97 ≤ c.toNat && c.toNat ≤ 102)

theorem hlcHead_eq_some {cs node : List Char} :
    hlcHead Char.toNat cs = some node ↔ ∃ millis counter : List Char,
      cs = millis ++ '-' :: (counter ++ '-' :: node) ∧
        (millis.length = 13 ∧ millis.all Char.isDigit = true) ∧
          counter.length = 4 ∧ counter.all hexCode = true := by
  have hdigits : digit Char.toNat = Char.isDigit := rfl
  simp only [hlcHead, Option.bind_eq_bind, Option.bind_eq_some_iff, exactly_eq_some,
    literally_eq_some, hdigits]
  constructor
  · rintro ⟨_, ⟨millis, rfl, hmillis⟩, _, rfl, _, ⟨counter, rfl, hcounter⟩, rfl⟩
    exact ⟨millis, counter, rfl, hmillis, hcounter⟩
  · rintro ⟨millis, counter, rfl, hmillis, hcounter⟩
    exact ⟨_, ⟨millis, rfl, hmillis⟩, _, rfl, _, ⟨counter, rfl, hcounter⟩, rfl⟩

theorem dash_not_mem {test : Char → Bool} (hdash : test '-' = false) {l : List Char}
    (h : l.all test = true) : '-' ∉ l := by
  intro hmem
  have := List.all_eq_true.mp h _ hmem
  rw [hdash] at this
  cases this

/-- The three parts between dashes are the head and a node without a dash. -/
theorem isNativeHlc_iff (text : String) :
    isNativeHlc text = true ↔ ∃ node, hlcHead Char.toNat text.toList = some node ∧
      (1 ≤ node.length ∧ node.length ≤ 128) ∧ '-' ∉ node := by
  have hsplit : ∀ {millis counter : List Char} (node : List Char), millis.all Char.isDigit = true →
      counter.all hexCode = true →
      (millis ++ '-' :: (counter ++ '-' :: node)).splitOn '-' =
        millis :: counter :: node.splitOn '-' := by
    intro millis counter node hmillis hcounter
    rw [List.splitOn_append_cons_self_of_not_mem (dash_not_mem (by decide) hmillis),
      List.splitOn_append_cons_self_of_not_mem (dash_not_mem (by decide) hcounter)]
  unfold isNativeHlc
  constructor
  · intro h
    split at h
    · next millis counter node hparts =>
      simp only [Bool.and_eq_true, decide_eq_true_eq] at h
      obtain ⟨⟨⟨⟨⟨hml, hm⟩, hcl⟩, hc⟩, hpos⟩, hlen⟩ := h
      have htext : text.toList = millis ++ '-' :: (counter ++ '-' :: node) := by
        have hjoin : ['-'].intercalate (text.toList.splitOn '-') = text.toList :=
          List.intercalate_splitOn '-'
        rw [hparts] at hjoin
        simpa [List.intercalate] using hjoin.symm
      have hhex : counter.all hexCode = true := hc
      have hnode : node.splitOn '-' = [node] := by
        rw [htext, hsplit node hm hhex] at hparts
        simpa using hparts
      refine ⟨node, hlcHead_eq_some.mpr ⟨millis, counter, htext, ⟨hml, hm⟩, hcl, hhex⟩,
        ⟨hpos, hlen⟩, ?_⟩
      intro hmem
      obtain ⟨before, after, rfl⟩ := List.append_of_mem hmem
      rw [List.splitOn_append_cons_self] at hnode
      have hlength := congrArg List.length hnode
      have hbefore := List.length_pos_of_ne_nil (List.splitOn_ne_nil '-' before)
      have hafter := List.length_pos_of_ne_nil (List.splitOn_ne_nil '-' after)
      rw [List.length_append, List.length_singleton] at hlength
      omega
    · cases h
  · rintro ⟨node, hhead, ⟨hpos, hlen⟩, hnode⟩
    obtain ⟨millis, counter, htext, ⟨hml, hm⟩, hcl, hc⟩ := hlcHead_eq_some.mp hhead
    rw [htext, hsplit node hm hc, List.splitOn_eq_singleton hnode]
    simp only [Bool.and_eq_true, decide_eq_true_eq]
    exact ⟨⟨⟨⟨⟨hml, hm⟩, hcl⟩, hc⟩, hpos⟩, hlen⟩

/-- A hybrid timestamp whose node has more code units than the regular expression allows. -/
def longNode (text : String) : Bool :=
  (hlcHead Char.toNat text.toList).any fun node => 128 < (encode node).length

theorem hlcPattern_encode (text : String) :
    hlcPattern id (encode text.toList) = (isNativeHlc text && !longNode text) := by
  have hdash : ∀ node, ((encode node).all fun a => decide (id a ≠ '-'.toNat)) = true ↔
      '-' ∉ node := by
    intro node
    have hany := any_encode (ascii_eq (c := '-') (by decide)) node
    have hmem : '-'.toNat ∈ encode node ↔ '-' ∈ node := by
      rw [Bool.eq_iff_iff, List.any_eq_true, List.any_eq_true] at hany
      simpa only [decide_eq_true_eq, Char.toNat_inj, exists_eq_right] using hany
    rw [List.all_eq_true, ← hmem]
    constructor
    · intro h hdash
      exact absurd rfl (of_decide_eq_true (h _ hdash))
    · intro h a ha
      refine decide_eq_true ?_
      rintro rfl
      exact h ha
  rw [hlcPattern, transfers_hlcHead, Bool.eq_iff_iff, Bool.and_eq_true, isNativeHlc_iff, longNode]
  cases hlcHead Char.toNat text.toList with
  | none => simp
  | some node =>
    have hle := length_le_encode node
    have hpos : 1 ≤ (encode node).length ↔ 1 ≤ node.length := by
      cases node with
      | nil => exact Iff.rfl
      | cons c cs => exact ⟨fun _ => Nat.succ_pos _, fun h => h.trans hle⟩
    simp only [Option.map_some, Option.any_some, hdash, Bool.and_eq_true, decide_eq_true_eq,
      Bool.not_eq_true', decide_eq_false_iff_not, Option.some.injEq, exists_eq_left', not_lt, hpos]
    constructor
    · rintro ⟨⟨hfirst, hlen⟩, hnode⟩
      exact ⟨⟨⟨hfirst, hle.trans hlen⟩, hnode⟩, hlen⟩
    · rintro ⟨⟨⟨hfirst, -⟩, hnode⟩, hlen⟩
      exact ⟨⟨hfirst, hlen⟩, hnode⟩

/-- A text with the head of a hybrid timestamp has neither of the other forms. -/
theorem not_digits_of_hlcHead {text : String} {node : List Char}
    (hhead : hlcHead Char.toNat text.toList = some node) :
    digitsPattern Char.toNat text.toList = false := by
  obtain ⟨millis, counter, htext, -⟩ := hlcHead_eq_some.mp hhead
  rw [digitsPattern, Bool.and_eq_false_iff]
  refine Or.inr (Bool.eq_false_iff.mpr fun hall => ?_)
  have hdash := List.all_eq_true.mp hall '-' (by rw [htext]; simp)
  cases hdash

theorem not_iso_of_hlcHead {text : String} {node : List Char}
    (hhead : hlcHead Char.toNat text.toList = some node) :
    isoPattern Char.toNat text.toList = false := by
  obtain ⟨millis, counter, htext, ⟨hlen, hdigits⟩, -⟩ := hlcHead_eq_some.mp hhead
  have hiso : isoHead Char.toNat text.toList = none := by
    rw [Option.eq_none_iff_forall_ne_some]
    intro rest hrest
    simp only [isoHead, Option.bind_eq_bind, Option.bind_eq_some_iff, exactly_eq_some,
      literally_eq_some] at hrest
    obtain ⟨_, ⟨year, hyear, hfour, -⟩, month, rfl, -⟩ := hrest
    -- The dash after the year is among the thirteen digits.
    have hmillis : millis = (year ++ '-' :: month).take 13 := by
      rw [← hyear, htext, List.take_left' hlen]
    refine dash_not_mem (by decide) hdigits ?_
    rw [hmillis, List.take_append, hfour]
    simp
  rw [isoPattern, hiso, Option.any_none]

/-- The texts that the schema takes as timestamps. -/
theorem timestampPatterns_encode (text : String) :
    (digitsPattern id (encode text.toList) || hlcPattern id (encode text.toList) ||
        isoPattern id (encode text.toList)) =
      ((isDigits text || isNativeHlc text || isIso8601 text) && !longNode text) := by
  rw [digitsPattern_encode, hlcPattern_encode, isoPattern_encode, isDigits_eq, isIso8601_eq]
  cases hlong : longNode text with
  | false => simp
  | true =>
    obtain ⟨node, hhead, -⟩ := (Option.any_eq_true _ _).mp hlong
    simp [not_digits_of_hlcHead hhead, not_iso_of_hlcHead hhead]

end OptoSync.Ingest
