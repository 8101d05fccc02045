import Mathlib

/-!
# UTF-16

Texts as the code units that JavaScript and Dart count and compare.
-/
namespace OptoSync.Utf16

def units (c : Char) : List ℕ :=
  if c.toNat < 0x10000 then [c.toNat]
  else [0xD800 + (c.toNat - 0x10000) / 0x400, 0xDC00 + (c.toNat - 0x10000) % 0x400]

def encode (cs : List Char) : List ℕ := cs.flatMap units

/-- How JavaScript and Dart order texts. -/
def before (a b : String) : Bool := encode a.toList < encode b.toList

@[simp] theorem encode_nil : encode [] = [] := rfl

@[simp] theorem encode_cons (c : Char) (cs : List Char) : encode (c :: cs) = units c ++ encode cs :=
  rfl

@[simp] theorem encode_append (cs ds : List Char) : encode (cs ++ ds) = encode cs ++ encode ds :=
  List.flatMap_append

theorem units_of_lt {c : Char} (h : c.toNat < 0x10000) : units c = [c.toNat] := if_pos h

/-- A character is itself one unit, or two units that are surrogates. -/
theorem units_cases (c : Char) :
    units c = [c.toNat] ∨
      ∃ first second, units c = [first, second] ∧ 0xD800 ≤ first ∧ 0xD800 ≤ second ∧
        0x10000 ≤ c.toNat := by
  by_cases h : c.toNat < 0x10000
  · exact Or.inl (units_of_lt h)
  · refine Or.inr ⟨_, _, if_neg h, ?_, ?_, ?_⟩ <;> omega

theorem encode_of_lt {cs : List Char} (h : ∀ c ∈ cs, c.toNat < 0x10000) :
    encode cs = cs.map Char.toNat := by
  induction cs with
  | nil => rfl
  | cons c cs ih =>
    rw [encode_cons, units_of_lt (h c List.mem_cons_self),
      ih fun d hd => h d (List.mem_cons_of_mem c hd)]
    rfl

/-- A text of ASCII characters has one byte for each. -/
theorem utf8ByteSize_of_lt {value : String} (h : ∀ c ∈ value.toList, c.toNat < 128) :
    value.utf8ByteSize = value.toList.length := by
  have hsize : ∀ cs : List Char, (∀ c ∈ cs, c.toNat < 128) → String.utf8Len cs = cs.length := by
    intro cs hcs
    induction cs with
    | nil => rfl
    | cons c cs ih =>
      have hc : c.utf8Size = 1 := by
        rw [Char.utf8Size_eq_one_iff, UInt32.le_iff_toNat_le]
        exact Nat.le_of_lt_succ (hcs c List.mem_cons_self)
      rw [String.utf8Len_cons, hc, ih fun d hd => hcs d (List.mem_cons_of_mem c hd)]
      rfl
  calc value.utf8ByteSize = (String.ofList value.toList).utf8ByteSize := by rw [String.ofList_toList]
    _ = value.toList.length := by rw [String.utf8ByteSize_ofList, hsize _ h]

theorem length_le_encode (cs : List Char) : cs.length ≤ (encode cs).length := by
  induction cs with
  | nil => exact le_rfl
  | cons c cs ih =>
    have hunits : 1 ≤ (units c).length := by
      unfold units
      split <;> simp
    rw [encode_cons, List.length_cons, List.length_append]
    omega

/-- A text has at least as many bytes as code units. -/
theorem length_encode_le (value : String) : (encode value.toList).length ≤ value.utf8ByteSize := by
  have hunits : ∀ c : Char, (units c).length ≤ c.utf8Size := by
    intro c
    unfold units
    split
    · exact Char.utf8Size_pos c
    · next hlarge =>
      have hfour : c.utf8Size = 4 := by
        have hle : ∀ bound : UInt32, bound.toNat < 0x10000 → ¬ c.val ≤ bound := by
          intro bound hbound h
          rw [UInt32.le_iff_toNat_le] at h
          exact hlarge (Nat.lt_of_le_of_lt h hbound)
        simp only [Char.utf8Size]
        rw [if_neg (hle _ (by decide)), if_neg (hle _ (by decide)), if_neg (hle _ (by decide))]
      rw [hfour]
      simp
  have hlist : ∀ cs : List Char, (encode cs).length ≤ String.utf8Len cs := by
    intro cs
    induction cs with
    | nil => exact le_rfl
    | cons c cs ih =>
      have hc := hunits c
      rw [encode_cons, List.length_append, String.utf8Len_cons]
      omega
  calc (encode value.toList).length ≤ String.utf8Len value.toList := hlist value.toList
    _ = value.utf8ByteSize := by rw [← String.utf8ByteSize_ofList, String.ofList_toList]

theorem map_toNat_lt {cs ds : List Char} (h : cs < ds) : cs.map Char.toNat < ds.map Char.toNat := by
  induction cs generalizing ds with
  | nil =>
    cases ds with
    | nil => exact absurd h (lt_irrefl _)
    | cons d ds => exact List.nil_lt_cons _ _
  | cons c cs ih =>
    cases ds with
    | nil => exact absurd h (List.not_lt_nil _)
    | cons d ds =>
      rw [List.map_cons, List.map_cons, List.cons_lt_cons_iff]
      rcases List.cons_lt_cons_iff.mp h with hlt | ⟨rfl, hlt⟩
      · exact Or.inl hlt
      · exact Or.inr ⟨rfl, ih hlt⟩

theorem before_iff_lt {a b : String} (ha : ∀ c ∈ a.toList, c.toNat < 0x10000)
    (hb : ∀ c ∈ b.toList, c.toNat < 0x10000) : before a b = true ↔ a < b := by
  have hencode : before a b = true ↔ a.toList.map Char.toNat < b.toList.map Char.toNat := by
    rw [before, decide_eq_true_eq, encode_of_lt ha, encode_of_lt hb]
  rw [hencode, String.lt_iff_toList_lt]
  constructor
  · intro h
    rcases lt_trichotomy a.toList b.toList with hlt | heq | hgt
    · exact hlt
    · rw [heq] at h
      exact absurd h (lt_irrefl _)
    · exact absurd (map_toNat_lt hgt) h.asymm
  · exact map_toNat_lt

end OptoSync.Utf16
