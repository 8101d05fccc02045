import Mathlib

/-!
# Consecutive numbers

Lists whose elements carry numbers, some of them none. What taking an element out or putting one in
does to a list of consecutive numbers.
-/
namespace OptoSync

variable {α : Type*} (number : α → Option ℕ)

/-- Every element has a number, and each is one more than the number before it. -/
def Consecutive (l : List α) : Prop :=
  (∀ a ∈ l, (number a).isSome = true) ∧ l.IsChain fun a b => number b = (number a).map (· + 1)

/-- The numbers that there are ascend. -/
def Ascending (l : List α) : Prop :=
  l.Pairwise fun a b => ∀ m n, number a = some m → number b = some n → m < n

namespace Consecutive

variable {number} {l as bs : List α} {a : α}

theorem nil : Consecutive number [] := ⟨by simp, List.IsChain.nil⟩

theorem suffix (h : Consecutive number l) {l' : List α} (hl : l' <:+ l) : Consecutive number l' :=
  ⟨fun a ha => h.1 a (hl.subset ha), h.2.suffix hl⟩

theorem append_iff :
    Consecutive number (as ++ bs) ↔ Consecutive number as ∧ Consecutive number bs ∧
      ∀ x ∈ as.getLast?, ∀ y ∈ bs.head?, number y = (number x).map (· + 1) := by
  unfold Consecutive
  rw [List.isChain_append]
  constructor
  · rintro ⟨hall, has, hbs, hjoin⟩
    exact ⟨⟨fun a ha => hall a (List.mem_append_left bs ha), has⟩,
      ⟨fun a ha => hall a (List.mem_append_right as ha), hbs⟩, hjoin⟩
  · rintro ⟨⟨hallA, has⟩, ⟨hallB, hbs⟩, hjoin⟩
    refine ⟨?_, has, hbs, hjoin⟩
    intro a ha
    rcases List.mem_append.mp ha with ha | ha
    · exact hallA a ha
    · exact hallB a ha

theorem cons_iff :
    Consecutive number (a :: bs) ↔ (number a).isSome = true ∧ Consecutive number bs ∧
      ∀ y ∈ bs.head?, number y = (number a).map (· + 1) := by
  unfold Consecutive
  rw [List.isChain_cons, List.forall_mem_cons]
  constructor
  · rintro ⟨⟨ha, hbs⟩, hjoin, hchain⟩
    exact ⟨ha, ⟨hbs, hchain⟩, hjoin⟩
  · rintro ⟨ha, ⟨hbs, hchain⟩, hjoin⟩
    exact ⟨⟨ha, hbs⟩, hjoin, hchain⟩

/-- Out of consecutive numbers only the first and the last can be taken. -/
theorem remove_iff (h : Consecutive number (as ++ a :: bs)) :
    Consecutive number (as ++ bs) ↔ as = [] ∨ bs = [] := by
  obtain ⟨has, habs, hlast⟩ := append_iff.mp h
  obtain ⟨ha, hbs, hhead⟩ := cons_iff.mp habs
  constructor
  · intro hout
    by_contra hboth
    rw [not_or] at hboth
    have hx := List.getLast?_eq_getLast_of_ne_nil hboth.1
    have hy := List.head?_eq_some_head hboth.2
    generalize as.getLast hboth.1 = x at hx
    generalize bs.head hboth.2 = y at hy
    have hjoin := (append_iff.mp hout).2.2 x hx y hy
    have hxa := hlast x hx a rfl
    have hay := hhead y hy
    obtain ⟨n, hn⟩ := Option.isSome_iff_exists.mp (has.1 x (List.mem_of_getLast? hx))
    rw [hay, hxa, hn] at hjoin
    simp at hjoin
  · rintro (rfl | rfl)
    · exact hbs
    · rw [List.append_nil]
      exact has

/-- A number can be put in only right below the first or right above the last. -/
theorem insert_iff (h : Consecutive number (as ++ bs)) (hasc : Ascending number (as ++ a :: bs)) :
    Consecutive number (as ++ a :: bs) ↔ (number a).isSome = true ∧
      (as ++ bs = [] ∨ (∃ x ∈ (as ++ bs).head?, number x = (number a).map (· + 1)) ∨
        ∃ x ∈ (as ++ bs).getLast?, number a = (number x).map (· + 1)) := by
  obtain ⟨has, hbs, hjoin⟩ := append_iff.mp h
  unfold Ascending at hasc
  rw [List.pairwise_append, List.pairwise_cons] at hasc
  obtain ⟨-, ⟨hafter, -⟩, hbefore⟩ := hasc
  constructor
  · intro hin
    obtain ⟨-, habs, hlast⟩ := append_iff.mp hin
    obtain ⟨ha, -, hhead⟩ := cons_iff.mp habs
    refine ⟨ha, ?_⟩
    cases hb : bs.head? with
    | some y =>
      have hay := hhead y hb
      cases hl : as.getLast? with
      | none =>
        have hempty : as = [] := List.getLast?_eq_none_iff.mp hl
        subst hempty
        exact Or.inr (Or.inl ⟨y, hb, hay⟩)
      | some x =>
        have hxa := hlast x hl a rfl
        have hxy := hjoin x hl y hb
        obtain ⟨n, hn⟩ := Option.isSome_iff_exists.mp (has.1 x (List.mem_of_getLast? hl))
        rw [hay, hxa, hn] at hxy
        simp at hxy
    | none =>
      have hempty : bs = [] := List.head?_eq_none_iff.mp hb
      subst hempty
      rw [List.append_nil]
      cases hl : as.getLast? with
      | none => exact Or.inl (List.getLast?_eq_none_iff.mp hl)
      | some x => exact Or.inr (Or.inr ⟨x, rfl, hlast x hl a rfl⟩)
  · rintro ⟨ha, hcases⟩
    obtain ⟨n, hn⟩ := Option.isSome_iff_exists.mp ha
    rcases hcases with hempty | ⟨x, hx, hxa⟩ | ⟨x, hx, hax⟩
    · obtain ⟨rfl, rfl⟩ := List.append_eq_nil_iff.mp hempty
      exact cons_iff.mpr ⟨ha, nil, by simp⟩
    · -- the first number is above `a`, so nothing stands before `a`
      have hempty : as = [] := by
        by_contra hne
        obtain ⟨b, bs', rfl⟩ := List.exists_cons_of_ne_nil hne
        obtain rfl : b = x := by simpa using hx
        rw [hn, Option.map_some] at hxa
        have := hbefore b List.mem_cons_self a List.mem_cons_self _ _ hxa hn
        omega
      subst hempty
      refine cons_iff.mpr ⟨ha, hbs, ?_⟩
      intro y hy
      obtain rfl : x = y := by
        rw [List.nil_append] at hx
        exact Option.some.inj (hx.symm.trans hy)
      exact hxa
    · have hempty : bs = [] := by
        by_contra hne
        have hmem : x ∈ bs := by
          rw [List.getLast?_append_of_ne_nil as hne] at hx
          exact List.mem_of_getLast? hx
        obtain ⟨m, hm⟩ := Option.isSome_iff_exists.mp (hbs.1 x hmem)
        rw [hm, Option.map_some] at hax
        have := hafter x hmem _ _ hax hm
        omega
      subst hempty
      rw [List.append_nil] at hx
      refine append_iff.mpr ⟨has, cons_iff.mpr ⟨ha, nil, by simp⟩, ?_⟩
      intro y hy z hz
      obtain rfl : x = y := Option.some.inj (hx.symm.trans hy)
      obtain rfl : a = z := by simpa using hz
      exact hax

end Consecutive

/-- Where a filter keeps everything after what it keeps, it keeps a tail of the list. -/
theorem filter_suffix {p : α → Bool} {l : List α} (h : l.Pairwise fun a b => p a = true → p b = true) :
    l.filter p <:+ l := by
  induction l with
  | nil => exact List.suffix_rfl
  | cons a l ih =>
    obtain ⟨ha, hl⟩ := List.pairwise_cons.mp h
    by_cases hp : p a = true
    · have hall : l.filter p = l := List.filter_eq_self.mpr fun b hb => ha b hb hp
      rw [List.filter_cons_of_pos hp, hall]
    · rw [List.filter_cons_of_neg hp]
      exact (ih hl).trans (List.suffix_cons a l)

end OptoSync
