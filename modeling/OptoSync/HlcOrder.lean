import OptoSync.HybridLogicalClock
import OptoSync.TextOrder

/-!
# The order of timestamps

`compare_hlc` orders timestamps by their bytes. The two numerals are ASCII and of fixed width, so
the bytes are ordered as the fields are, the node ids by their own bytes.
-/
namespace OptoSync
open FixedWidth TextOrder

/-- The UTF-8 bytes of a list of characters. -/
def utf8 (cs : List Char) : List ℕ := (cs.flatMap String.utf8EncodeChar).map UInt8.toNat

def compareHlc (a b : String) : Ordering := compareOfLessAndEq (utf8 a.toList) (utf8 b.toList)

/-- The lexicographic order on the fields. -/
def HlcParts.compare (p q : HlcParts) : Ordering :=
  (Ord.compare p.millis q.millis).then ((Ord.compare p.counter q.counter).then
    (compareOfLessAndEq (utf8 p.nodeId.toList) (utf8 q.nodeId.toList)))

theorem utf8_append (cs ds : List Char) : utf8 (cs ++ ds) = utf8 cs ++ utf8 ds := by
  rw [utf8, List.flatMap_append, List.map_append]
  rfl

/-- Each character is one byte. -/
def Ascii (cs : List Char) : Prop := ∀ c ∈ cs, c.toNat < 128

theorem utf8_singleton {c : Char} (h : c.toNat < 128) : utf8 [c] = [c.toNat] := by
  have hsize : c.utf8Size = 1 := by
    rw [Char.utf8Size_eq_one_iff, UInt32.le_iff_toNat_le]
    exact Nat.le_of_lt_succ h
  have hbyte : c.val.toUInt8.toNat = c.toNat := by
    rw [UInt32.toNat_toUInt8]
    exact Nat.mod_eq_of_lt (by change c.toNat < 256; omega)
  rw [utf8, List.flatMap_singleton, String.utf8EncodeChar_eq_singleton hsize, List.map_singleton,
    hbyte]

theorem utf8_ascii {cs : List Char} (h : Ascii cs) : utf8 cs = cs.map Char.toNat := by
  induction cs with
  | nil => rfl
  | cons c cs ih =>
    have hcs : Ascii cs := fun d hd => h d (List.mem_cons_of_mem c hd)
    rw [← List.singleton_append, utf8_append, utf8_singleton (h c List.mem_cons_self), ih hcs]
    rfl

theorem length_utf8 {cs : List Char} (h : Ascii cs) : (utf8 cs).length = cs.length := by
  rw [utf8_ascii h, List.length_map]

theorem utf8_lt {cs ds : List Char} (hcs : Ascii cs) (hds : Ascii ds) (h : cs < ds) :
    utf8 cs < utf8 ds := by
  rw [utf8_ascii hcs, utf8_ascii hds]
  induction cs generalizing ds with
  | nil =>
    cases ds with
    | nil => exact absurd h (lt_irrefl _)
    | cons d ds => exact List.nil_lt_cons _ _
  | cons c cs ih =>
    cases ds with
    | nil => exact absurd h (List.not_lt_nil _)
    | cons d ds =>
      rw [List.map_cons, List.map_cons, List.cons_lt_cons_iff]
      rcases List.cons_lt_cons_iff.mp h with hlt | ⟨rfl, hlt⟩
      · exact Or.inl hlt
      · refine Or.inr ⟨rfl, ih ?_ ?_ hlt⟩
        · exact fun x hx => hcs x (List.mem_cons_of_mem c hx)
        · exact fun x hx => hds x (List.mem_cons_of_mem c hx)

theorem compareOfLessAndEq_append (cs xs ys : List ℕ) :
    compareOfLessAndEq (cs ++ xs) (cs ++ ys) = compareOfLessAndEq xs ys := by
  simp only [compareOfLessAndEq, append_lt_append_iff, List.append_cancel_left_eq]

/-- The two numerals of a timestamp and their dashes. -/
structure Prefix (parts : HlcParts) (timestamp : String) (cs : List Char) : Prop where
  toList : timestamp.toList = cs ++ parts.nodeId.toList
  ascii : Ascii cs
  length : cs.length = millisDigits + 6

theorem digit_ascii {c : Char} (h : decimal.IsDigit c) : c.toNat < 128 := by
  have hbounds := digit_bounds.mp h
  omega

theorem lowerHexDigit_ascii {c : Char} (h : lowerHex.IsDigit c) : c.toNat < 128 := by
  have hbounds := lowerHexDigit_bounds.mp h
  omega

theorem fields_ascii {ms cs : List Char} (hms : ∀ c ∈ ms, decimal.IsDigit c)
    (hcs : ∀ c ∈ cs, lowerHex.IsDigit c) : Ascii (ms ++ ('-' :: (cs ++ ['-']))) := by
  intro c hc
  simp only [List.mem_append, List.mem_cons, List.not_mem_nil, or_false] at hc
  rcases hc with hc | rfl | hc | rfl
  · exact digit_ascii (hms c hc)
  · decide
  · exact lowerHexDigit_ascii (hcs c hc)
  · decide

theorem exists_prefix {timestamp : String} {parts : HlcParts}
    (h : parseHlc timestamp = some parts) : ∃ ms cs,
      Prefix parts timestamp (ms ++ ('-' :: (cs ++ ['-']))) ∧
        Numeral decimal millisDigits parts.millis ms ∧ Numeral lowerHex 4 parts.counter cs := by
  obtain ⟨ms, cs, hlist, hms, hcs, -⟩ := parseHlc_eq_some.mp h
  refine ⟨ms, cs, ⟨?_, fields_ascii hms.digits hcs.digits, ?_⟩, hms, hcs⟩
  · rw [hlist]
    simp
  · have hlength := hms.length
    have hlength' := hcs.length
    simp only [List.length_append, List.length_cons, List.length_nil]
    omega

theorem utf8_lt_of_before {a b : String} {p q : HlcParts} (ha : parseHlc a = some p)
    (hb : parseHlc b = some q) (h : p.Before q) : utf8 a.toList < utf8 b.toList := by
  obtain ⟨ms, cs, hp, hms, hcs⟩ := exists_prefix ha
  obtain ⟨ms', cs', hq, hms', hcs'⟩ := exists_prefix hb
  have hlt : ms ++ (['-'] ++ (cs ++ ['-'])) < ms' ++ (['-'] ++ (cs' ++ ['-'])) := by
    apply lt_of_fields hms.digits hms'.digits hcs.digits hcs'.digits
      (hms.length.trans hms'.length.symm) (hcs.length.trans hcs'.length.symm)
    rw [hms.value, hms'.value, hcs.value, hcs'.value]
    exact h
  rw [hp.toList, utf8_append _ p.nodeId.toList, hq.toList, utf8_append _ q.nodeId.toList]
  apply append_lt_append
  · rw [length_utf8 hp.ascii, length_utf8 hq.ascii, hp.length, hq.length]
  · exact utf8_lt hp.ascii hq.ascii hlt

/-- Where the numerals are the same the node ids decide. -/
theorem compareHlc_of_fields {a b : String} {p q : HlcParts} (ha : parseHlc a = some p)
    (hb : parseHlc b = some q) (hmillis : p.millis = q.millis) (hcounter : p.counter = q.counter) :
    compareHlc a b = compareOfLessAndEq (utf8 p.nodeId.toList) (utf8 q.nodeId.toList) := by
  obtain ⟨ms, cs, hp, hms, hcs⟩ := exists_prefix ha
  obtain ⟨ms', cs', hq, hms', hcs'⟩ := exists_prefix hb
  rw [← hmillis] at hms'
  rw [← hcounter] at hcs'
  obtain rfl := hms.unique hms'
  obtain rfl := hcs.unique hcs'
  rw [compareHlc, hp.toList, utf8_append _ p.nodeId.toList, hq.toList,
    utf8_append _ q.nodeId.toList, compareOfLessAndEq_append]

theorem HlcParts.compare_of_before {p q : HlcParts} (h : p.Before q) : p.compare q = .lt := by
  rcases h with hlt | ⟨heq, hlt⟩
  · rw [HlcParts.compare, Nat.compare_eq_lt.mpr hlt]
    rfl
  · rw [HlcParts.compare, Nat.compare_eq_eq.mpr heq, Nat.compare_eq_lt.mpr hlt]
    rfl

theorem HlcParts.compare_of_after {p q : HlcParts} (h : q.Before p) : p.compare q = .gt := by
  rcases h with hlt | ⟨heq, hlt⟩
  · rw [HlcParts.compare, Nat.compare_eq_gt.mpr hlt]
    rfl
  · rw [HlcParts.compare, Nat.compare_eq_eq.mpr heq.symm, Nat.compare_eq_gt.mpr hlt]
    rfl

theorem HlcParts.before_trichotomy (p q : HlcParts) :
    p.Before q ∨ q.Before p ∨ p.millis = q.millis ∧ p.counter = q.counter := by
  unfold HlcParts.Before
  omega

theorem compareHlc_eq {a b : String} {p q : HlcParts} (ha : parseHlc a = some p)
    (hb : parseHlc b = some q) : compareHlc a b = p.compare q := by
  rcases HlcParts.before_trichotomy p q with h | h | ⟨hmillis, hcounter⟩
  · rw [HlcParts.compare_of_before h]
    exact compareOfLessAndEq_eq_lt.mpr (utf8_lt_of_before ha hb h)
  · have hlt := utf8_lt_of_before hb ha h
    rw [HlcParts.compare_of_after h, compareHlc, compareOfLessAndEq, if_neg hlt.asymm,
      if_neg hlt.ne']
  · rw [compareHlc_of_fields ha hb hmillis hcounter, HlcParts.compare,
      Nat.compare_eq_eq.mpr hmillis, Nat.compare_eq_eq.mpr hcounter]
    rfl

/-- What the format has room for. -/
def HlcParts.Representable (parts : HlcParts) : Prop :=
  parts.millis ≤ maxMillis ∧ parts.counter ≤ maxCounter ∧ validNodeId parts.nodeId = true

/-- The text form embeds the representable timestamps, and the order of the texts is theirs. -/
theorem textForm_orderEmbedding :
    (∀ parts, HlcParts.Representable parts →
      (formatHlc parts).bind parseHlc = some parts) ∧
    (∀ timestamp parts, parseHlc timestamp = some parts → formatHlc parts = some timestamp) ∧
    ∀ p q a b, formatHlc p = some a → formatHlc q = some b → compareHlc a b = p.compare q := by
  refine ⟨fun parts h => ?_, fun timestamp parts => formatHlc_eq_some.mpr, ?_⟩
  · obtain ⟨timestamp, hformat⟩ : ∃ timestamp, formatHlc parts = some timestamp :=
      ⟨_, if_pos h⟩
    rw [hformat]
    exact formatHlc_eq_some.mp hformat
  · intro p q a b ha hb
    exact compareHlc_eq (formatHlc_eq_some.mp ha) (formatHlc_eq_some.mp hb)

end OptoSync
