import Mathlib

/-!
# Decimal strings on the wire

Identifiers, checkpoints and revisions travel as decimal strings. The first part is about
numerals alone; the second has the string parsers of the Rust client. The canonical strings are
exactly the printed numerals, so a canonical string and its number determine each other.
-/
namespace OptoSync.Decimal

/-- No leading zero, unless the numeral is the single digit zero. -/
def Canonical (cs : List Char) : Prop :=
  cs ≠ [] ∧ (∀ c ∈ cs, c.isDigit = true) ∧ (cs.head? = some '0' → cs.length = 1)

theorem digitChar_ofDigit {c : Char} (h : c.isDigit = true) :
    Nat.digitChar (c.toNat - '0'.toNat) = c ∧ c.toNat - '0'.toNat < 10 := by
  have hb : 48 ≤ c.toNat ∧ c.toNat ≤ 57 := by
    simp only [Char.isDigit, Bool.and_eq_true, decide_eq_true_eq] at h
    exact h
  have hc : c = Char.ofNat c.toNat := (Char.ofNat_toNat c).symm
  obtain ⟨hl, hu⟩ := hb
  have hz : '0'.toNat = 48 := by decide
  refine ⟨?_, by omega⟩
  rw [hz]
  conv_rhs => rw [hc]
  generalize c.toNat = n at hl hu
  interval_cases n <;> decide

/-- Printing a canonical numeral's value gives the numeral back. -/
theorem toDigits_ofDigitChars {cs : List Char} (h : Canonical cs) :
    Nat.toDigits 10 (Nat.ofDigitChars 10 cs 0) = cs := by
  induction cs using List.reverseRecOn with
  | nil => exact absurd rfl h.1
  | append_singleton cs c ih =>
    obtain ⟨-, hd, hz⟩ := h
    obtain ⟨hc, hlt⟩ := digitChar_ofDigit (hd c (by simp))
    have hv : Nat.ofDigitChars 10 (cs ++ [c]) 0 =
        10 * Nat.ofDigitChars 10 cs 0 + (c.toNat - '0'.toNat) := by
      simp [Nat.ofDigitChars_append, Nat.ofDigitChars_cons, Nat.ofDigitChars_nil]
    cases cs with
    | nil =>
      rw [hv, Nat.ofDigitChars_nil]
      rw [Nat.toDigits_of_lt_base (by omega)]
      simp only [Nat.mul_zero, Nat.zero_add, hc, List.nil_append]
    | cons d ds =>
      have hcs : Canonical (d :: ds) := by
        refine ⟨by simp, fun x hx => hd x (List.mem_append_left _ hx), fun hh => ?_⟩
        have := hz (by simpa using hh)
        simp at this
      have ih' := ih hcs
      have hpos : 0 < Nat.ofDigitChars 10 (d :: ds) 0 := by
        rcases Nat.eq_zero_or_pos (Nat.ofDigitChars 10 (d :: ds) 0) with h0 | h0
        · rw [h0, Nat.toDigits_zero] at ih'
          have hd0 : d = '0' := by injection ih' with h1 h2; exact h1.symm
          have := hz (by simp [hd0])
          simp at this
        · exact h0
      rw [hv, ← Nat.toDigits_append_toDigits (by norm_num) hpos hlt, ih',
        Nat.toDigits_of_lt_base hlt, hc]

theorem canonical_toDigits (n : ℕ) : Canonical (Nat.toDigits 10 n) := by
  refine ⟨Nat.toDigits_ne_nil, fun c hc => Nat.isDigit_of_mem_toDigits (by norm_num) (by norm_num) hc,
    fun h => ?_⟩
  induction n using Nat.strong_induction_on with
  | _ n ih =>
    by_cases hn : n < 10
    · simp [Nat.toDigits_of_lt_base hn]
    · rw [Nat.toDigits_of_base_le (by norm_num) (by omega)] at h ⊢
      have hne : Nat.toDigits 10 (n / 10) ≠ [] := Nat.toDigits_ne_nil
      rw [List.head?_append_of_ne_nil _ hne] at h
      have h1 := ih (n / 10) (by omega) h
      have hv : Nat.toDigits 10 (n / 10) = ['0'] := by
        obtain ⟨x, hx⟩ := List.length_eq_one_iff.mp h1
        rw [hx] at h
        simp only [List.head?_cons, Option.some.injEq] at h
        rw [hx, h]
      have hz : n / 10 = 0 := by
        have := congrArg (fun cs => Nat.ofDigitChars 10 cs 0) hv
        simpa [Nat.ofDigitChars_ten_toDigits, Nat.ofDigitChars_cons] using this
      omega

theorem toList_repr (n : ℕ) : n.repr.toList = Nat.toDigits 10 n := by
  rw [Nat.repr_eq_ofList_toDigits, String.toList_ofList]

/-! ## The parsers of the Rust client -/

def maxU64 : ℕ := 2 ^ 64 - 1
def maxI64 : ℕ := 2 ^ 63 - 1

/-- A nonempty digit string as a number, with no bound. -/
def parseDigits (cs : List Char) : Option ℕ :=
  if cs ≠ [] ∧ cs.all Char.isDigit = true then some (Nat.ofDigitChars 10 cs 0) else none

/-- `str::parse::<u64>`: an optional plus sign, then digits; overflow is an error. -/
def parseU64 (value : String) : Option ℕ :=
  let digits := match value.toList with
    | '+' :: cs => cs
    | cs => cs
  (parseDigits digits).filter (· ≤ maxU64)

/-- `str::parse::<i64>`: an optional sign, then digits; overflow is an error. -/
def parseI64 (value : String) : Option ℤ :=
  match value.toList with
  | '-' :: cs => ((parseDigits cs).filter (· ≤ maxI64 + 1)).map fun n => -(n : ℤ)
  | '+' :: cs => ((parseDigits cs).filter (· ≤ maxI64)).map fun n => (n : ℤ)
  | cs => ((parseDigits cs).filter (· ≤ maxI64)).map fun n => (n : ℤ)

/-- `parse_decimal`, written out in `protocol.rs` and again in `protocol_sync.rs`. The former
reports `none` as `InvalidDecimal`. -/
def parseDecimal (value : String) : Option ℕ :=
  if value.toList = [] ∨ (1 < value.utf8ByteSize ∧ value.toList.head? = some '0') ∨
      value.toList.all Char.isDigit = false then none
  else parseU64 value

/-- `is_canonical_decimal` of the SQLite store. -/
def isCanonicalDecimal (value : String) : Bool :=
  value.toList ≠ [] && (value = "0" || value.toList.head? ≠ some '0') &&
    value.toList.all Char.isDigit && (parseU64 value).isSome

theorem parseDigits_toDigits (n : ℕ) : parseDigits (Nat.toDigits 10 n) = some n := by
  obtain ⟨hne, hd, -⟩ := canonical_toDigits n
  have hall : (Nat.toDigits 10 n).all Char.isDigit = true := List.all_eq_true.mpr hd
  simp [parseDigits, hne, hall, Nat.ofDigitChars_ten_toDigits]

theorem head_toDigits_ne {n : ℕ} {c : Char} (hc : c.isDigit = false) :
    (Nat.toDigits 10 n).head? ≠ some c := by
  intro h
  have hm : c ∈ Nat.toDigits 10 n := List.mem_of_head? h
  rw [(canonical_toDigits n).2.1 c hm] at hc
  exact Bool.noConfusion hc

theorem parseU64_repr {n : ℕ} (h : n ≤ maxU64) : parseU64 n.repr = some n := by
  have hp := head_toDigits_ne (n := n) (c := '+') (by decide)
  simp only [parseU64, toList_repr]
  split
  · rename_i cs heq
    simp [heq] at hp
  · simp [parseDigits_toDigits, h]

theorem parseI64_repr_eq (n : ℕ) :
    parseI64 n.repr = if n ≤ maxI64 then some (n : ℤ) else none := by
  have hm := head_toDigits_ne (n := n) (c := '-') (by decide)
  have hp := head_toDigits_ne (n := n) (c := '+') (by decide)
  simp only [parseI64, toList_repr]
  split
  · rename_i cs heq
    simp [heq] at hm
  · rename_i cs heq
    simp [heq] at hp
  · rw [parseDigits_toDigits]
    by_cases h : n ≤ maxI64
    · simp [Option.filter, h]
    · simp [Option.filter, h]

theorem parseI64_repr {n : ℕ} (h : n ≤ maxI64) : parseI64 n.repr = some (n : ℤ) := by
  rw [parseI64_repr_eq, if_pos h]

/-- A one-byte prefix already fills a string of at most one byte. -/
theorem length_eq_one_of_head {value : String} (h : value.toList.head? = some '0')
    (hs : value.utf8ByteSize ≤ 1) : value.toList.length = 1 := by
  obtain ⟨cs, hcs⟩ : ∃ cs, value.toList = '0' :: cs := by
    cases hv : value.toList with
    | nil => simp [hv] at h
    | cons c cs => simp only [hv, List.head?_cons, Option.some.injEq] at h; exact ⟨cs, by rw [h]⟩
  have hval : value = "0" ++ String.ofList cs := by
    apply String.toList_inj.mp
    simp [hcs]
  have hz : (String.ofList cs).utf8ByteSize = 0 := by
    rw [hval, String.utf8ByteSize_append] at hs
    have : "0".utf8ByteSize = 1 := by decide
    omega
  have he : cs = [] := by
    have := String.utf8ByteSize_eq_zero_iff.mp hz
    simpa using congrArg String.toList this
  simp [hcs, he]

/-- The strings that `parse_decimal` accepts are the printed numbers below `2 ^ 64`. -/
theorem parseDecimal_eq_some {value : String} {n : ℕ} :
    parseDecimal value = some n ↔ n ≤ maxU64 ∧ value = n.repr := by
  constructor
  · intro h
    unfold parseDecimal at h
    split at h
    · exact absurd h (by simp)
    · rename_i hc
      obtain ⟨hne, hz, hd⟩ := not_or.mp hc |>.imp id not_or.mp
      have hall : ∀ c ∈ value.toList, c.isDigit = true := by
        simpa only [Bool.not_eq_false, List.all_eq_true] using hd
      have hcan : Canonical value.toList :=
        ⟨hne, hall, fun h0 => length_eq_one_of_head h0 (by
          rcases not_and_or.mp hz with h1 | h1
          · omega
          · exact absurd h0 h1)⟩
      have hplus : ∀ cs, value.toList ≠ '+' :: cs := by
        intro cs hcs
        have := hall '+' (by simp [hcs])
        exact absurd this (by decide)
      unfold parseU64 at h
      split at h
      · rename_i cs hcs
        exact absurd hcs (hplus cs)
      · have hv : parseDigits value.toList = some (Nat.ofDigitChars 10 value.toList 0) := by
          simp [parseDigits, hne, List.all_eq_true.mpr hall]
        simp only [hv] at h
        obtain ⟨hn, hle⟩ := Option.filter_eq_some_iff.mp h
        obtain rfl := Option.some.inj hn
        refine ⟨by simpa using hle, ?_⟩
        rw [Nat.repr_eq_ofList_toDigits, toDigits_ofDigitChars hcan, String.ofList_toList]
  · rintro ⟨hn, rfl⟩
    obtain ⟨hne, hd, hz⟩ := canonical_toDigits n
    have hc : ¬ (n.repr.toList = [] ∨
        (1 < n.repr.utf8ByteSize ∧ n.repr.toList.head? = some '0') ∨
        n.repr.toList.all Char.isDigit = false) := by
      rw [toList_repr]
      refine not_or.mpr ⟨hne, not_or.mpr ⟨?_, ?_⟩⟩
      · rintro ⟨hl, h0⟩
        obtain ⟨c, hlist⟩ := List.length_eq_one_iff.mp (hz h0)
        rw [hlist, List.head?_cons, Option.some.injEq] at h0
        have hs : n.repr = "0" := by
          rw [Nat.repr_eq_ofList_toDigits, hlist, h0]
        rw [hs] at hl
        exact absurd hl (by decide)
      · simpa using hd
    rw [parseDecimal, if_neg hc, parseU64_repr hn]

theorem parseDecimal_repr {n : ℕ} (h : n ≤ maxU64) : parseDecimal n.repr = some n :=
  parseDecimal_eq_some.mpr ⟨h, rfl⟩

theorem parseU64_of_parseDecimal {value : String} {n : ℕ} (h : parseDecimal value = some n) :
    parseU64 value = some n := by
  obtain ⟨hn, rfl⟩ := parseDecimal_eq_some.mp h
  exact parseU64_repr hn

/-- The two canonical-decimal tests of the Rust client agree. -/
theorem isCanonicalDecimal_iff (value : String) :
    isCanonicalDecimal value = true ↔ (parseDecimal value).isSome = true := by
  constructor
  · intro h
    simp only [isCanonicalDecimal, Bool.and_eq_true, Bool.or_eq_true, decide_eq_true_eq] at h
    obtain ⟨⟨⟨hne, hz⟩, hd⟩, hp⟩ := h
    have hc : ¬ (value.toList = [] ∨ (1 < value.utf8ByteSize ∧ value.toList.head? = some '0') ∨
        value.toList.all Char.isDigit = false) := by
      refine not_or.mpr ⟨hne, not_or.mpr ⟨?_, by simp [hd]⟩⟩
      rintro ⟨hl, h0⟩
      rcases hz with rfl | hz
      · exact absurd hl (by decide)
      · exact hz h0
    rwa [parseDecimal, if_neg hc]
  · intro h
    obtain ⟨n, hn⟩ := Option.isSome_iff_exists.mp h
    have hu := parseU64_of_parseDecimal hn
    have hc : ¬ (value.toList = [] ∨ (1 < value.utf8ByteSize ∧ value.toList.head? = some '0') ∨
        value.toList.all Char.isDigit = false) := by
      intro hc
      rw [parseDecimal, if_pos hc] at hn
      exact absurd hn (by simp)
    obtain ⟨hne, hz, hd⟩ := not_or.mp hc |>.imp id not_or.mp
    have hz' : value = "0" ∨ value.toList.head? ≠ some '0' := by
      by_cases h0 : value.toList.head? = some '0'
      · left
        obtain ⟨-, rfl⟩ := parseDecimal_eq_some.mp hn
        rw [toList_repr] at h0
        obtain ⟨c, hlist⟩ := List.length_eq_one_iff.mp ((canonical_toDigits n).2.2 h0)
        rw [hlist, List.head?_cons, Option.some.injEq] at h0
        rw [Nat.repr_eq_ofList_toDigits, hlist, h0]
      · exact Or.inr h0
    simp only [isCanonicalDecimal, Bool.and_eq_true, Bool.or_eq_true, decide_eq_true_eq]
    exact ⟨⟨⟨hne, hz'⟩, by simpa using hd⟩, by simp [hu]⟩

end OptoSync.Decimal
