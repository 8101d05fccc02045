import OptoSync.Utf16

/-!
# Orders of encoded texts

Texts that are compared by their code units are ordered by the symbols at which they first differ,
under each code by an order of its own.
-/
namespace OptoSync.TextOrder

variable {α : Type} [DecidableEq α]

def firstDifference : List α → List α → Option (α × α)
  | a :: as, b :: bs => if a = b then firstDifference as bs else some (a, b)
  | _, _ => none

/-- A code under which two symbols are ordered by `less`, whatever follows them. -/
structure Separates (code : α → List ℕ) (less : α → α → Prop) : Prop where
  ne_nil : ∀ a, code a ≠ []
  lt_iff : ∀ {a b}, a ≠ b → ∀ xs ys, code a ++ xs < code b ++ ys ↔ less a b

theorem firstDifference_append (start as bs : List α) :
    firstDifference (start ++ as) (start ++ bs) = firstDifference as bs := by
  induction start with
  | nil => rfl
  | cons a start ih => rw [List.cons_append, List.cons_append, firstDifference, if_pos rfl, ih]

theorem append_lt_append_iff (start xs ys : List ℕ) : start ++ xs < start ++ ys ↔ xs < ys := by
  induction start with
  | nil => rfl
  | cons a start ih => simp [ih]

theorem firstDifference_ne {as bs : List α} {a b : α}
    (h : firstDifference as bs = some (a, b)) : a ≠ b := by
  induction as generalizing bs with
  | nil => cases h
  | cons c as ih =>
    cases bs with
    | nil => cases h
    | cons d bs =>
      rw [firstDifference] at h
      split at h
      · exact ih h
      · next hne =>
        obtain ⟨rfl, rfl⟩ := Prod.mk.inj (Option.some.inj h)
        exact hne

theorem firstDifference_swap {as bs : List α} {a b : α}
    (h : firstDifference as bs = some (a, b)) : firstDifference bs as = some (b, a) := by
  induction as generalizing bs with
  | nil => cases h
  | cons c as ih =>
    cases bs with
    | nil => cases h
    | cons d bs =>
      rw [firstDifference] at h ⊢
      split at h
      · next heq => rw [if_pos heq.symm, ih h]
      · next hne =>
        obtain ⟨rfl, rfl⟩ := Prod.mk.inj (Option.some.inj h)
        rw [if_neg (Ne.symm hne)]

theorem firstDifference_none_swap {as bs : List α} (h : firstDifference as bs = none) :
    firstDifference bs as = none := by
  cases hswap : firstDifference bs as with
  | none => rfl
  | some symbols =>
    rw [firstDifference_swap hswap] at h
    cases h

section Codes

variable {code code' : α → List ℕ} {less less' : α → α → Prop}

omit [DecidableEq α] in
theorem Separates.total (h : Separates code less) {a b : α} (hne : a ≠ b) :
    less a b ∨ less b a := by
  rcases lt_trichotomy (code a ++ []) (code b ++ []) with hlt | heq | hlt
  · exact Or.inl ((h.lt_iff hne [] []).mp hlt)
  · rw [List.append_nil, List.append_nil] at heq
    apply Or.inl
    rw [← h.lt_iff hne [] [0], heq, append_lt_append_iff]
    exact List.nil_lt_cons 0 []
  · exact Or.inr ((h.lt_iff hne.symm [] []).mp hlt)

omit [DecidableEq α] in
theorem Separates.swap_iff (h : Separates code less) {a b : α} (hne : a ≠ b) :
    less b a ↔ ¬ less a b := by
  constructor
  · intro hba hab
    exact ((h.lt_iff hne [] []).mpr hab).asymm ((h.lt_iff hne.symm [] []).mpr hba)
  · exact fun hab => (h.total hne).resolve_left hab

theorem Separates.flatMap_lt_iff (h : Separates code less) {as bs : List α} {a b : α}
    (hdifference : firstDifference as bs = some (a, b)) :
    as.flatMap code < bs.flatMap code ↔ less a b := by
  induction as generalizing bs with
  | nil => cases hdifference
  | cons c as ih =>
    cases bs with
    | nil => cases hdifference
    | cons d bs =>
      rw [firstDifference] at hdifference
      rw [List.flatMap_cons, List.flatMap_cons]
      split at hdifference
      · next heq => rw [heq, append_lt_append_iff, ih hdifference]
      · next hne =>
        obtain ⟨rfl, rfl⟩ := Prod.mk.inj (Option.some.inj hdifference)
        exact h.lt_iff hne _ _

/-- Of two texts without a difference the shorter comes first. -/
theorem Separates.flatMap_lt_iff_length (h : Separates code less) {as bs : List α}
    (hdifference : firstDifference as bs = none) :
    as.flatMap code < bs.flatMap code ↔ as.length < bs.length := by
  induction as generalizing bs with
  | nil =>
    cases bs with
    | nil => simp
    | cons b bs =>
      have hne : code b ++ bs.flatMap code ≠ [] := by simp [h.ne_nil b]
      rw [List.flatMap_nil, List.flatMap_cons]
      obtain ⟨first, rest, hcode⟩ := List.exists_cons_of_ne_nil hne
      simp [hcode]
  | cons a as ih =>
    cases bs with
    | nil => simp
    | cons b bs =>
      rw [firstDifference] at hdifference
      split at hdifference
      · next heq =>
        rw [heq, List.flatMap_cons, List.flatMap_cons, append_lt_append_iff, ih hdifference]
        simp
      · cases hdifference

theorem compareOfLessAndEq_eq_iff (xs ys xs' ys' : List ℕ) :
    compareOfLessAndEq xs ys = compareOfLessAndEq xs' ys' ↔
      (xs < ys ↔ xs' < ys') ∧ (ys < xs ↔ ys' < xs') := by
  have hcases : ∀ xs ys : List ℕ, (compareOfLessAndEq xs ys = .lt ∧ xs < ys ∧ ¬ ys < xs) ∨
      (compareOfLessAndEq xs ys = .eq ∧ ¬ xs < ys ∧ ¬ ys < xs) ∨
        (compareOfLessAndEq xs ys = .gt ∧ ¬ xs < ys ∧ ys < xs) := by
    intro xs ys
    unfold compareOfLessAndEq
    rcases lt_trichotomy xs ys with h | rfl | h
    · exact Or.inl ⟨if_pos h, h, h.asymm⟩
    · exact Or.inr (Or.inl ⟨by simp, lt_irrefl _, lt_irrefl _⟩)
    · exact Or.inr (Or.inr ⟨by rw [if_neg h.asymm, if_neg h.ne'], h.asymm, h⟩)
  rcases hcases xs ys with ⟨h, hlt, hgt⟩ | ⟨h, hlt, hgt⟩ | ⟨h, hlt, hgt⟩ <;>
    rcases hcases xs' ys' with ⟨h', hlt', hgt'⟩ | ⟨h', hlt', hgt'⟩ | ⟨h', hlt', hgt'⟩ <;>
    simp [h, h', hlt, hgt, hlt', hgt']

/-- Two codes order two texts alike exactly if they do so where the texts first differ. -/
theorem compare_flatMap_iff (h : Separates code less) (h' : Separates code' less')
    (as bs : List α) :
    compareOfLessAndEq (as.flatMap code) (bs.flatMap code) =
        compareOfLessAndEq (as.flatMap code') (bs.flatMap code') ↔
      ∀ a b, firstDifference as bs = some (a, b) → (less a b ↔ less' a b) := by
  rw [compareOfLessAndEq_eq_iff]
  cases hdifference : firstDifference as bs with
  | none =>
    have hswap := firstDifference_none_swap hdifference
    simp [h.flatMap_lt_iff_length hdifference, h'.flatMap_lt_iff_length hdifference,
      h.flatMap_lt_iff_length hswap, h'.flatMap_lt_iff_length hswap]
  | some symbols =>
    obtain ⟨a, b⟩ := symbols
    have hne := firstDifference_ne hdifference
    have hswap := firstDifference_swap hdifference
    rw [h.flatMap_lt_iff hdifference, h'.flatMap_lt_iff hdifference, h.flatMap_lt_iff hswap,
      h'.flatMap_lt_iff hswap, h.swap_iff hne, h'.swap_iff hne]
    constructor
    · intro hless c d hcd
      obtain ⟨rfl, rfl⟩ := Prod.mk.inj (Option.some.inj hcd)
      exact hless.1
    · intro hless
      have hsame := hless a b rfl
      exact ⟨hsame, not_congr hsame⟩

end Codes

def bytes (c : Char) : List ℕ := (String.utf8EncodeChar c).map UInt8.toNat

/-- The characters that one code unit above the surrogates writes come last. -/
def unitRank (c : Char) : ℕ :=
  if 0xE000 ≤ c.toNat ∧ c.toNat < 0x10000 then c.toNat + 0x110000 else c.toNat

theorem toNat_bounds (c : Char) :
    c.toNat < 0xD800 ∨ 0xDFFF < c.toNat ∧ c.toNat < 0x110000 := c.valid

theorem bytes_eq (c : Char) :
    bytes c =
      if c.toNat ≤ 0x7f then [c.toNat]
      else if c.toNat ≤ 0x7ff then [c.toNat / 64 + 0xc0, c.toNat % 64 + 0x80]
      else if c.toNat ≤ 0xffff then
        [c.toNat / 4096 + 0xe0, c.toNat / 64 % 64 + 0x80, c.toNat % 64 + 0x80]
      else [c.toNat / 262144 + 0xf0, c.toNat / 4096 % 64 + 0x80, c.toNat / 64 % 64 + 0x80,
        c.toNat % 64 + 0x80] := by
  have hbounds := toNat_bounds c
  have hval : c.val.toNat = c.toNat := rfl
  unfold bytes String.utf8EncodeChar
  simp only [hval]
  split
  · simp [UInt8.toNat_ofNat']
    omega
  · split
    · simp [UInt8.toNat_ofNat']
      omega
    · split
      · simp [UInt8.toNat_ofNat']
        omega
      · simp [UInt8.toNat_ofNat']
        omega

theorem separates_bytes : Separates bytes fun c d => c.toNat < d.toNat where
  ne_nil c := by
    rw [bytes_eq]
    split
    · simp
    · split
      · simp
      · split <;> simp
  lt_iff {c d} hne xs ys := by
    have hc := toNat_bounds c
    have hd := toNat_bounds d
    have hne' : c.toNat ≠ d.toNat := fun h => hne (Char.toNat_inj.mp h)
    rw [bytes_eq, bytes_eq]
    by_cases hlt : xs < ys <;> split_ifs <;>
      simp only [List.cons_append, List.nil_append, List.cons_lt_cons_iff, hlt, and_true,
        and_false, or_false] <;> omega

theorem separates_units : Separates Utf16.units fun c d => unitRank c < unitRank d where
  ne_nil c := by
    unfold Utf16.units
    split <;> simp
  lt_iff {c d} hne xs ys := by
    have hc := toNat_bounds c
    have hd := toNat_bounds d
    have hne' : c.toNat ≠ d.toNat := fun h => hne (Char.toNat_inj.mp h)
    unfold Utf16.units unitRank
    by_cases hlt : xs < ys <;> split_ifs <;>
      simp only [List.cons_append, List.nil_append, List.cons_lt_cons_iff, hlt, and_true,
        and_false, or_false] <;> omega

/-- One of two characters takes two code units, the other one above the surrogates. -/
def Straddle (c d : Char) : Prop :=
  (0xE000 ≤ c.toNat ∧ c.toNat < 0x10000 ∧ 0x10000 ≤ d.toNat) ∨
    (0xE000 ≤ d.toNat ∧ d.toNat < 0x10000 ∧ 0x10000 ≤ c.toNat)

theorem compare_bytes_units_iff (cs ds : List Char) :
    compareOfLessAndEq (cs.flatMap bytes) (ds.flatMap bytes) =
        compareOfLessAndEq (Utf16.encode cs) (Utf16.encode ds) ↔
      ∀ c d, firstDifference cs ds = some (c, d) → ¬ Straddle c d := by
  have hrank : ∀ c d : Char, c ≠ d →
      ((c.toNat < d.toNat ↔ unitRank c < unitRank d) ↔ ¬ Straddle c d) := by
    intro c d hne
    have hc := toNat_bounds c
    have hd := toNat_bounds d
    have hne' : c.toNat ≠ d.toNat := fun h => hne (Char.toNat_inj.mp h)
    unfold unitRank Straddle
    split_ifs <;> omega
  rw [Utf16.encode, Utf16.encode, compare_flatMap_iff separates_bytes separates_units]
  refine forall₂_congr fun c d => forall_congr' fun hdifference => ?_
  exact hrank c d (firstDifference_ne hdifference)

end OptoSync.TextOrder
