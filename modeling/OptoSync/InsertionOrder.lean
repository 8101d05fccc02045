import Mathlib

/-!
# Insertion order

A list without its repetitions, maps that keep the order in which their keys came, and stable
sorting.
-/
namespace OptoSync.InsertionOrder

variable {α κ ν : Type*} [DecidableEq κ]

/-- `a` has an occurrence before one of `b`. -/
def Before (l : List α) (a b : α) : Prop := [a, b].Sublist l

def push (keys : List κ) (key : κ) : List κ := if key ∈ keys then keys else keys ++ [key]

def firsts (keys : List κ) : List κ := keys.foldl push []

theorem mem_push {keys : List κ} {key k : κ} : k ∈ push keys key ↔ k ∈ keys ∨ k = key := by
  unfold push
  split
  · rename_i hmem
    constructor
    · exact Or.inl
    · intro h
      rcases h with h | rfl
      · exact h
      · exact hmem
  · rw [List.mem_append, List.mem_singleton]

theorem nodup_push {keys : List κ} (h : keys.Nodup) (key : κ) : (push keys key).Nodup := by
  unfold push
  split
  · exact h
  · rename_i hmem
    exact List.nodup_append.mpr ⟨h, List.nodup_singleton _, fun a ha b hb => by
      rw [List.mem_singleton.mp hb]
      exact fun heq => hmem (heq ▸ ha)⟩

theorem firsts_concat (keys : List κ) (key : κ) : firsts (keys ++ [key]) = push (firsts keys) key := by
  rw [firsts, List.foldl_append]
  rfl

theorem mem_firsts {keys : List κ} {k : κ} : k ∈ firsts keys ↔ k ∈ keys := by
  induction keys using List.reverseRecOn with
  | nil => exact Iff.rfl
  | append_singleton keys key ih => rw [firsts_concat, mem_push, ih, List.mem_append,
      List.mem_singleton]

theorem mem_foldl_push {keys more : List κ} {k : κ} :
    k ∈ more.foldl push keys ↔ k ∈ keys ∨ k ∈ more := by
  induction more generalizing keys with
  | nil => simp
  | cons key more ih => rw [List.foldl_cons, ih, mem_push, List.mem_cons, or_assoc]

/-- Pushing a list pushes its first occurrences. -/
theorem foldl_push_firsts (keys more : List κ) :
    (firsts more).foldl push keys = more.foldl push keys := by
  induction more using List.reverseRecOn with
  | nil => rfl
  | append_singleton more key ih =>
    rw [firsts_concat, List.foldl_append, List.foldl_cons, List.foldl_nil]
    by_cases hkey : key ∈ more
    · have hpushed : key ∈ more.foldl push keys := mem_foldl_push.mpr (Or.inr hkey)
      rw [push, if_pos (mem_firsts.mpr hkey), ih, push, if_pos hpushed]
    · rw [push, if_neg (fun h => hkey (mem_firsts.mp h)), List.foldl_append, ih]
      rfl

theorem before_concat_iff {l : List α} {a b c : α} :
    Before (l ++ [c]) a b ↔ Before l a b ∨ (b = c ∧ a ∈ l) := by
  constructor
  · intro h
    obtain ⟨front, back, hab, hfront, hback⟩ := List.sublist_append_iff.mp h
    rcases List.sublist_singleton.mp hback with rfl | rfl
    · rw [List.append_nil] at hab
      rw [← hab] at hfront
      exact Or.inl hfront
    · have happend : [a] ++ [b] = front ++ [c] := hab
      obtain ⟨rfl, hc⟩ := List.append_inj' happend rfl
      exact Or.inr ⟨List.singleton_inj.mp hc, List.singleton_sublist.mp hfront⟩
  · intro h
    rcases h with h | ⟨rfl, ha⟩
    · exact h.trans (List.sublist_append_left _ _)
    · exact (List.singleton_sublist.mpr ha).append (List.Sublist.refl [b])

/-- The first occurrences are in the order of the list. -/
theorem before_firsts_iff {keys : List κ} {a b : κ} (hb : b ∈ keys) :
    Before (firsts keys) a b ↔ keys.idxOf a < keys.idxOf b := by
  induction keys using List.reverseRecOn with
  | nil => exact absurd hb List.not_mem_nil
  | append_singleton keys key ih =>
    have ha : keys.idxOf a < keys.length ↔ a ∈ keys := List.idxOf_lt_length_iff
    rw [firsts_concat]
    unfold push
    by_cases hkey : key ∈ keys
    · have hb' : b ∈ keys := by
        rcases List.mem_append.mp hb with h | h
        · exact h
        · rw [List.mem_singleton.mp h]
          exact hkey
      rw [if_pos (mem_firsts.mpr hkey), ih hb', List.idxOf_append_of_mem hb']
      by_cases hin : a ∈ keys
      · rw [List.idxOf_append_of_mem hin]
      · rw [List.idxOf_append_of_notMem hin]
        have hlt := List.idxOf_lt_length_of_mem hb'
        have hge := mt ha.mp hin
        omega
    · rw [if_neg (fun h => hkey (mem_firsts.mp h)), before_concat_iff, mem_firsts]
      by_cases hb' : b ∈ keys
      · have hne : b ≠ key := fun heq => hkey (heq ▸ hb')
        rw [ih hb', List.idxOf_append_of_mem hb']
        by_cases hin : a ∈ keys
        · rw [List.idxOf_append_of_mem hin]
          simp [hne]
        · rw [List.idxOf_append_of_notMem hin]
          have hlt := List.idxOf_lt_length_of_mem hb'
          have hge := mt ha.mp hin
          simp only [hne, false_and, or_false]
          omega
      · have hlast : b = key := by simpa [hb'] using hb
        have hnot : ¬ Before (firsts keys) a b := by
          intro h
          exact hb' (mem_firsts.mp (h.subset (by simp)))
        rw [List.idxOf_append_of_notMem hb', hlast, List.idxOf_cons_self]
        rw [hlast] at hnot
        by_cases hin : a ∈ keys
        · rw [List.idxOf_append_of_mem hin]
          have hlt := ha.mpr hin
          simp only [hnot, hin, and_true, false_or, true_iff]
          omega
        · rw [List.idxOf_append_of_notMem hin]
          simp only [hnot, hin, and_false, or_false, false_iff]
          omega

theorem Before.mem {l : List α} {a b : α} (h : Before l a b) : a ∈ l ∧ b ∈ l :=
  ⟨h.subset (by simp), h.subset (by simp)⟩

theorem Before.not_swap {l : List α} (hl : l.Nodup) {a b : α} (h : Before l a b) :
    ¬ Before l b a := by
  induction l with
  | nil => cases h
  | cons x l ih =>
    obtain ⟨hx, hl⟩ := List.nodup_cons.mp hl
    intro hswap
    cases h with
    | cons _ h =>
      cases hswap with
      | cons _ hswap => exact ih hl h hswap
      | cons_cons _ hswap => exact hx (Before.mem h).2
    | cons_cons _ h =>
      have hb : b ∈ l := List.singleton_sublist.mp h
      cases hswap with
      | cons _ hswap => exact hx (Before.mem hswap).2
      | cons_cons _ hswap => exact hx hb

theorem before_or_before {l : List α} {a b : α} (ha : a ∈ l) (hb : b ∈ l) (hab : a ≠ b) :
    Before l a b ∨ Before l b a := by
  induction l with
  | nil => exact absurd ha List.not_mem_nil
  | cons x l ih =>
    rcases List.mem_cons.mp ha with rfl | hal
    · have hbl : b ∈ l := (List.mem_cons.mp hb).resolve_left hab.symm
      exact Or.inl ((List.singleton_sublist.mpr hbl).cons_cons a)
    · rcases List.mem_cons.mp hb with rfl | hbl
      · exact Or.inr ((List.singleton_sublist.mpr hal).cons_cons b)
      · exact (ih hal hbl).imp (fun h => h.cons x) fun h => h.cons x

theorem before_map_iff {β : Type*} {f : α → β} {l : List α} (hl : (l.map f).Nodup) {a b : α} (ha : a ∈ l)
    (hb : b ∈ l) : Before (l.map f) (f a) (f b) ↔ Before l a b := by
  constructor
  · intro h
    have hne : a ≠ b := by
      intro hab
      rw [hab] at h
      exact h.not_swap hl h
    refine (before_or_before ha hb hne).resolve_right fun hswap => ?_
    have hmap : Before (l.map f) (f b) (f a) := List.Sublist.map f hswap
    exact h.not_swap hl hmap
  · exact List.Sublist.map f

/-- What a stable sort of a list without repetitions is: ordered, and ties as they were. -/
theorem mergeSort_eq_iff {le : α → α → Bool} (htrans : ∀ a b c, le a b → le b c → le a c)
    (htotal : ∀ a b, le a b || le b a) {l s : List α} (hl : l.Nodup) :
    l.mergeSort le = s ↔
      s.Perm l ∧ ∀ a b, Before s a b → le a b = true ∧ (le b a = true → Before l a b) := by
  have hsorted : ∀ a b, Before (l.mergeSort le) a b →
      le a b = true ∧ (le b a = true → Before l a b) := by
    intro a b hab
    have hnodup : (l.mergeSort le).Nodup := (List.mergeSort_perm l le).nodup_iff.mpr hl
    have hle := List.pairwise_iff_forall_sublist.mp (List.pairwise_mergeSort htrans htotal l) hab
    refine ⟨hle, fun hba => ?_⟩
    have hne : a ≠ b := by
      rintro rfl
      exact hab.not_swap hnodup hab
    have ha : a ∈ l := List.mem_mergeSort.mp hab.mem.1
    have hb : b ∈ l := List.mem_mergeSort.mp hab.mem.2
    refine (before_or_before ha hb hne).resolve_right fun hswap => ?_
    exact hab.not_swap hnodup (List.pair_sublist_mergeSort htrans htotal hba hswap)
  constructor
  · intro h
    rw [← h]
    exact ⟨List.mergeSort_perm l le, hsorted⟩
  · intro h
    obtain ⟨hperm, hs⟩ := h
    have hpairs : (l.mergeSort le).Pairwise fun a b =>
        le a b = true ∧ (le b a = true → Before l a b) :=
      List.pairwise_iff_forall_sublist.mpr fun hab => hsorted _ _ hab
    refine ((List.mergeSort_perm l le).trans hperm.symm).eq_of_pairwise ?_ hpairs
      (List.pairwise_iff_forall_sublist.mpr fun hab => hs _ _ hab)
    intro a b _ _ hab hba
    exact absurd (hba.2 hab.1) ((hab.2 hba.1).not_swap hl)

/-- Setting a key that is there keeps its place. -/
structure InsertionMap (κ ν : Type*) where
  entries : List (κ × ν)
  nodup : (entries.map Prod.fst).Nodup

namespace InsertionMap

def empty : InsertionMap κ ν := { entries := [], nodup := List.nodup_nil }

variable (m : InsertionMap κ ν)

def keys : List κ := m.entries.map Prod.fst

def get? (key : κ) : Option ν := (m.entries.find? fun entry => entry.1 = key).map Prod.snd

def replaceEntry (key : κ) (value : ν) (entry : κ × ν) : κ × ν :=
  if entry.1 = key then (key, value) else entry

theorem replaceEntry_fst (key : κ) (value : ν) (entry : κ × ν) :
    (replaceEntry key value entry).1 = entry.1 := by
  unfold replaceEntry
  split
  · rename_i h
    exact h.symm
  · rfl

theorem map_fst_replace (key : κ) (value : ν) (entries : List (κ × ν)) :
    (entries.map (replaceEntry key value)).map Prod.fst = entries.map Prod.fst := by
  rw [List.map_map]
  exact List.map_congr_left fun entry _ => replaceEntry_fst key value entry

def set (key : κ) (value : ν) : InsertionMap κ ν where
  entries :=
    if key ∈ m.entries.map Prod.fst then m.entries.map (replaceEntry key value)
    else m.entries ++ [(key, value)]
  nodup := by
    split
    · rw [map_fst_replace]
      exact m.nodup
    · rename_i hkey
      have hpush := nodup_push m.nodup key
      rw [push, if_neg hkey] at hpush
      simpa using hpush

theorem keys_set (key : κ) (value : ν) : (m.set key value).keys = push m.keys key := by
  unfold keys set push
  split
  · exact map_fst_replace key value m.entries
  · simp

theorem get?_eq_some_iff {key : κ} {value : ν} :
    m.get? key = some value ↔ (key, value) ∈ m.entries := by
  unfold get?
  constructor
  · intro h
    obtain ⟨entry, hfind, rfl⟩ := Option.map_eq_some_iff.mp h
    have hkey : entry.1 = key := by simpa using List.find?_some hfind
    rw [← hkey]
    exact List.mem_of_find?_eq_some hfind
  · intro h
    have hunique : ∀ entry ∈ m.entries, entry.1 = key → entry = (key, value) := by
      intro entry hentry hkey
      exact List.inj_on_of_nodup_map m.nodup hentry h hkey
    cases hfind : m.entries.find? fun entry => entry.1 = key with
    | none =>
      have hnone := List.find?_eq_none.mp hfind _ h
      simp at hnone
    | some entry =>
      have hkey : entry.1 = key := by simpa using List.find?_some hfind
      rw [hunique entry (List.mem_of_find?_eq_some hfind) hkey]
      rfl

theorem mem_set {key : κ} {value : ν} {entry : κ × ν} :
    entry ∈ (m.set key value).entries ↔
      entry = (key, value) ∨ (entry.1 ≠ key ∧ entry ∈ m.entries) := by
  unfold set
  dsimp only
  split
  · rename_i hkey
    obtain ⟨old, hold, hkey⟩ := List.mem_map.mp hkey
    constructor
    · intro h
      obtain ⟨other, hother, rfl⟩ := List.mem_map.mp h
      unfold replaceEntry
      split
      · exact Or.inl rfl
      · rename_i hne
        exact Or.inr ⟨hne, hother⟩
    · intro h
      rcases h with rfl | ⟨hne, hmem⟩
      · exact List.mem_map.mpr ⟨old, hold, by rw [replaceEntry, if_pos hkey]⟩
      · exact List.mem_map.mpr ⟨entry, hmem, by rw [replaceEntry, if_neg hne]⟩
  · rename_i hkey
    rw [List.mem_append, List.mem_singleton]
    constructor
    · intro h
      refine h.symm.imp_right fun hmem => ⟨fun heq => hkey ?_, hmem⟩
      rw [← heq]
      exact List.mem_map_of_mem hmem
    · intro h
      exact h.symm.imp_left And.right

theorem get?_set (key k : κ) (value : ν) :
    (m.set key value).get? k = if k = key then some value else m.get? k := by
  ext v
  rw [get?_eq_some_iff, mem_set]
  split
  · rename_i h
    simp [h, eq_comm]
  · rename_i h
    simp [h, get?_eq_some_iff]

end InsertionMap

end OptoSync.InsertionOrder
