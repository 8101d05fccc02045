import Mathlib

/-!
# Lists of entries

Lookups in a list of entries, and the maps and sets that such a list fills.
-/
namespace OptoSync.Entries

section Lookup
variable {κ α β : Type*} [BEq κ] [LawfulBEq κ]

theorem mem_of_lookup {l : List (κ × α)} {key : κ} {v : α} (h : l.lookup key = some v) :
    (key, v) ∈ l := by
  induction l with
  | nil => cases h
  | cons e l ih =>
    obtain ⟨k, w⟩ := e
    rw [List.lookup_cons] at h
    split at h
    · rename_i heq
      obtain rfl := eq_of_beq heq
      obtain rfl := Option.some.inj h
      exact List.mem_cons_self
    · exact List.mem_cons_of_mem _ (ih h)

theorem lookup_eq_some_iff {l : List (κ × α)} (hnodup : (l.map Prod.fst).Nodup) {key : κ} {v : α} :
    l.lookup key = some v ↔ (key, v) ∈ l := by
  refine ⟨mem_of_lookup, fun hmem => ?_⟩
  induction l with
  | nil => cases hmem
  | cons e l ih =>
    obtain ⟨k, w⟩ := e
    obtain ⟨hnot, hnodup⟩ := List.nodup_cons.mp hnodup
    rw [List.lookup_cons]
    rcases List.mem_cons.mp hmem with heq | hmem
    · obtain ⟨hkey, hvalue⟩ := Prod.mk.inj heq
      simp [hkey, hvalue]
    · have hne : key ≠ k := fun heq => hnot (List.mem_map.mpr ⟨_, hmem, heq⟩)
      rw [beq_eq_false_iff_ne.mpr hne]
      exact ih hnodup hmem

theorem lookup_perm {as bs : List (κ × α)} (h : as.Perm bs) (hnodup : (as.map Prod.fst).Nodup)
    (key : κ) : as.lookup key = bs.lookup key := by
  refine Option.ext fun v => ?_
  rw [lookup_eq_some_iff hnodup, lookup_eq_some_iff ((h.map _).nodup_iff.mp hnodup), h.mem_iff]

omit [LawfulBEq κ] in
theorem lookup_map_snd (f : α → β) (l : List (κ × α)) (key : κ) :
    (l.map fun e => (e.1, f e.2)).lookup key = (l.lookup key).map f := by
  induction l with
  | nil => rfl
  | cons e l ih =>
    rw [List.map_cons, List.lookup_cons, List.lookup_cons, ih]
    cases key == e.1 <;> rfl

theorem mem_keys_iff {l : List (κ × α)} {key : κ} :
    key ∈ l.map Prod.fst ↔ (l.lookup key).isSome = true := by
  induction l with
  | nil => simp
  | cons e l ih =>
    rw [List.map_cons, List.mem_cons, List.lookup_cons, ih]
    cases hkey : key == e.1 with
    | true => simp [eq_of_beq hkey]
    | false => simp [ne_of_beq_false hkey]

theorem lookup_eq_none {l : List (κ × α)} {key : κ} (h : key ∉ l.map Prod.fst) :
    l.lookup key = none := by
  rw [mem_keys_iff] at h
  exact Option.not_isSome_iff_eq_none.mp h

end Lookup

section Maps
variable {κ α : Type*} {cmp : κ → κ → Ordering} [Std.TransCmp cmp] [Std.LawfulEqCmp cmp]

theorem ofList_toList (map : Std.ExtTreeMap κ α cmp) :
    Std.ExtTreeMap.ofList map.toList cmp = map := by
  classical
  let _ : BEq κ := instBEqOfDecidableEq
  apply Std.ExtTreeMap.ext_getElem?
  intro key
  cases hkey : map[key]? with
  | none =>
    apply Std.ExtTreeMap.getElem?_ofList_of_contains_eq_false
    have hmem : key ∉ map := by
      rw [Std.ExtTreeMap.mem_iff_isSome_getElem?, hkey]
      exact Bool.false_ne_true
    simpa using hmem
  | some v =>
    apply Std.ExtTreeMap.getElem?_ofList_of_mem (k := key) Std.ReflCmp.compare_self
      Std.ExtTreeMap.distinct_keys_toList
    exact Std.ExtTreeMap.mem_toList_iff_getElem?_eq_some.mpr hkey

/-- Putting the entries of a map into an empty one gives it back. -/
theorem foldl_insert_toList (map : Std.ExtTreeMap κ α cmp) :
    map.toList.foldl (fun map entry => map.insert entry.1 entry.2) ∅ = map := by
  rw [← Std.ExtTreeMap.ofList_eq_foldl, ofList_toList]

theorem mem_of_getElem?_foldl_insert {entries : List (κ × α)} {map : Std.ExtTreeMap κ α cmp}
    {key : κ} {value : α}
    (h : (entries.foldl (fun map entry => map.insert entry.1 entry.2) map)[key]? = some value) :
    (key, value) ∈ entries ∨ map[key]? = some value := by
  induction entries generalizing map with
  | nil => exact Or.inr h
  | cons entry entries ih =>
    rcases ih h with hmem | hget
    · exact Or.inl (List.mem_cons_of_mem _ hmem)
    · rw [Std.ExtTreeMap.getElem?_insert] at hget
      split at hget
      · rename_i hkey
        rw [Std.LawfulEqCmp.compare_eq_iff_eq] at hkey
        rw [← hkey, ← Option.some.inj hget]
        exact Or.inl List.mem_cons_self
      · exact Or.inr hget

theorem mem_foldl_insert (keys : List κ) (set : Std.ExtTreeSet κ cmp) (key : κ) :
    key ∈ keys.foldl (fun set key => set.insert key) set ↔ key ∈ keys ∨ key ∈ set := by
  induction keys generalizing set with
  | nil => simp
  | cons k keys ih =>
    rw [List.foldl_cons, ih, Std.ExtTreeSet.mem_insert, List.mem_cons,
      Std.LawfulEqCmp.compare_eq_iff_eq]
    tauto

theorem foldl_insert_toList_set (set : Std.ExtTreeSet κ cmp) :
    set.toList.foldl (fun set key => set.insert key) ∅ = set := by
  refine Std.ExtTreeSet.ext_mem fun key => ?_
  rw [mem_foldl_insert, Std.ExtTreeSet.mem_toList]
  simp

end Maps

end OptoSync.Entries
