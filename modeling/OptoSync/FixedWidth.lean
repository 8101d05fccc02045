import Mathlib

/-!
# Numerals of a fixed width

Over an alphabet of digits that is ordered as the digits are, numerals of one length are ordered
lexicographically as their numbers are.
-/
namespace OptoSync.FixedWidth

variable {α : Type*} [LinearOrder α]

structure Radix (α : Type*) [LinearOrder α] where
  base : ℕ
  digit : α → ℕ
  IsDigit : α → Prop
  digit_lt : ∀ {c}, IsDigit c → digit c < base
  lt_of_digit_lt : ∀ {c d}, IsDigit c → IsDigit d → digit c < digit d → c < d
  eq_of_digit_eq : ∀ {c d}, IsDigit c → IsDigit d → digit c = digit d → c = d

namespace Radix

variable (r : Radix α)

/-- The number of a numeral, the most significant digit first. -/
def value (cs : List α) : ℕ := cs.foldl (fun n c => r.base * n + r.digit c) 0

@[simp] theorem value_nil : r.value [] = 0 := rfl

theorem value_append_singleton (cs : List α) (c : α) :
    r.value (cs ++ [c]) = r.base * r.value cs + r.digit c := by
  simp [value]

theorem value_append (cs ds : List α) :
    r.value (cs ++ ds) = r.value cs * r.base ^ ds.length + r.value ds := by
  induction ds using List.reverseRecOn with
  | nil => simp
  | append_singleton ds d ih =>
    rw [← List.append_assoc, value_append_singleton, value_append_singleton, ih,
      List.length_append, List.length_singleton, pow_succ]
    ring

theorem value_cons (c : α) (cs : List α) :
    r.value (c :: cs) = r.digit c * r.base ^ cs.length + r.value cs := by
  rw [← List.singleton_append, value_append]
  simp [value]

theorem value_replicate_zero {zero : α} (h : r.digit zero = 0) (n : ℕ) (cs : List α) :
    r.value (List.replicate n zero ++ cs) = r.value cs := by
  induction n with
  | zero => rfl
  | succ n ih => rw [List.replicate_succ, List.cons_append, value_cons, ih, h, zero_mul, zero_add]

theorem value_lt {cs : List α} (h : ∀ c ∈ cs, r.IsDigit c) : r.value cs < r.base ^ cs.length := by
  induction cs with
  | nil => simp
  | cons c cs ih =>
    have hc := r.digit_lt (h c List.mem_cons_self)
    have hcs := ih fun x hx => h x (List.mem_cons_of_mem c hx)
    rw [value_cons, List.length_cons, pow_succ]
    calc r.digit c * r.base ^ cs.length + r.value cs
        < r.digit c * r.base ^ cs.length + r.base ^ cs.length := by omega
      _ = (r.digit c + 1) * r.base ^ cs.length := by ring
      _ ≤ r.base * r.base ^ cs.length := Nat.mul_le_mul_right _ hc
      _ = r.base ^ cs.length * r.base := Nat.mul_comm _ _

/-- The order of two numerals of one length is decided at the first digit where they differ. -/
theorem lt_of_value_lt {cs ds : List α} (hc : ∀ c ∈ cs, r.IsDigit c) (hd : ∀ d ∈ ds, r.IsDigit d)
    (hlength : cs.length = ds.length) (h : r.value cs < r.value ds) : cs < ds := by
  induction cs generalizing ds with
  | nil =>
    rw [List.length_nil] at hlength
    rw [List.eq_nil_of_length_eq_zero hlength.symm] at h
    exact absurd h (lt_irrefl _)
  | cons c cs ih =>
    cases ds with
    | nil => simp at hlength
    | cons d ds =>
      rw [List.length_cons, List.length_cons, Nat.add_right_cancel_iff] at hlength
      rw [value_cons, value_cons, hlength] at h
      have hcd := hc c List.mem_cons_self
      have hdd := hd d List.mem_cons_self
      have hcs : ∀ x ∈ cs, r.IsDigit x := fun x hx => hc x (List.mem_cons_of_mem c hx)
      have hds : ∀ x ∈ ds, r.IsDigit x := fun x hx => hd x (List.mem_cons_of_mem d hx)
      rw [List.cons_lt_cons_iff]
      rcases lt_trichotomy (r.digit c) (r.digit d) with hlt | heq | hgt
      · exact Or.inl (r.lt_of_digit_lt hcd hdd hlt)
      · refine Or.inr ⟨r.eq_of_digit_eq hcd hdd heq, ih hcs hds hlength ?_⟩
        rw [heq] at h
        omega
      · have hle : (r.digit d + 1) * r.base ^ ds.length ≤ r.digit c * r.base ^ ds.length :=
          Nat.mul_le_mul_right _ hgt
        have hvalue := r.value_lt hds
        rw [Nat.add_mul, one_mul] at hle
        omega

theorem value_inj {cs ds : List α} (hc : ∀ c ∈ cs, r.IsDigit c) (hd : ∀ d ∈ ds, r.IsDigit d)
    (hlength : cs.length = ds.length) (h : r.value cs = r.value ds) : cs = ds := by
  induction cs generalizing ds with
  | nil => exact (List.eq_nil_of_length_eq_zero hlength.symm).symm
  | cons c cs ih =>
    cases ds with
    | nil => simp at hlength
    | cons d ds =>
      rw [List.length_cons, List.length_cons, Nat.add_right_cancel_iff] at hlength
      rw [value_cons, value_cons, hlength] at h
      have hcs : ∀ x ∈ cs, r.IsDigit x := fun x hx => hc x (List.mem_cons_of_mem c hx)
      have hds : ∀ x ∈ ds, r.IsDigit x := fun x hx => hd x (List.mem_cons_of_mem d hx)
      have hclt := r.value_lt hcs
      have hdlt := r.value_lt hds
      rw [hlength] at hclt
      have hdigit : r.digit c = r.digit d := by
        have hdiv := congrArg (· / r.base ^ ds.length) h
        simpa [Nat.add_comm, Nat.add_mul_div_right _ _ (Nat.zero_lt_of_lt hclt),
          Nat.div_eq_of_lt hclt, Nat.div_eq_of_lt hdlt] using hdiv
      rw [hdigit, Nat.add_left_cancel_iff] at h
      rw [r.eq_of_digit_eq (hc c List.mem_cons_self) (hd d List.mem_cons_self) hdigit,
        ih hcs hds hlength h]

end Radix

theorem append_lt_append {cs ds : List α} (hlength : cs.length = ds.length) (h : cs < ds)
    (xs ys : List α) : cs ++ xs < ds ++ ys := by
  induction cs generalizing ds with
  | nil =>
    rw [List.length_nil] at hlength
    rw [List.eq_nil_of_length_eq_zero hlength.symm] at h
    exact absurd h (lt_irrefl _)
  | cons c cs ih =>
    cases ds with
    | nil => simp at hlength
    | cons d ds =>
      rw [List.length_cons, List.length_cons, Nat.add_right_cancel_iff] at hlength
      rw [List.cons_append, List.cons_append, List.cons_lt_cons_iff]
      rcases List.cons_lt_cons_iff.mp h with hlt | ⟨rfl, hlt⟩
      · exact Or.inl hlt
      · exact Or.inr ⟨rfl, ih hlength hlt⟩

theorem append_lt_append_right (cs : List α) {xs ys : List α} (h : xs < ys) :
    cs ++ xs < cs ++ ys := by
  induction cs with
  | nil => exact h
  | cons c cs ih => exact List.cons_lt_cons_iff.mpr (Or.inr ⟨rfl, ih⟩)

/-- Two fields of fixed widths, one after the other, are ordered as the pair of their numbers. -/
theorem lt_of_fields {r q : Radix α} {cs cs' ds ds' : List α}
    (hcs : ∀ c ∈ cs, r.IsDigit c) (hcs' : ∀ c ∈ cs', r.IsDigit c)
    (hds : ∀ d ∈ ds, q.IsDigit d) (hds' : ∀ d ∈ ds', q.IsDigit d)
    (hcslength : cs.length = cs'.length) (hdslength : ds.length = ds'.length)
    (h : r.value cs < r.value cs' ∨ r.value cs = r.value cs' ∧ q.value ds < q.value ds')
    (sep : List α) (xs ys : List α) :
    cs ++ (sep ++ (ds ++ xs)) < cs' ++ (sep ++ (ds' ++ ys)) := by
  rcases h with hlt | ⟨heq, hlt⟩
  · exact append_lt_append hcslength (r.lt_of_value_lt hcs hcs' hcslength hlt) _ _
  · rw [r.value_inj hcs hcs' hcslength heq]
    apply append_lt_append_right
    apply append_lt_append_right
    exact append_lt_append hdslength (q.lt_of_value_lt hds hds' hdslength hlt) _ _

end OptoSync.FixedWidth
