import OptoSync.JsonText

/-!
# Canonical JSON

The canonical form of the formal-adapter subset: object fields in key order, the elements of a
`#set` and the entries of a `#map` in the order of the texts of their canonical forms, duplicates
refused. The rule for numbers and the printer are parameters.
-/
namespace OptoSync.CanonicalForm

section Sorting
variable {α β : Type}

def sortByKey (entries : List (String × α)) : List (String × α) :=
  entries.mergeSort fun a b => decide (a.1 ≤ b.1)

/-- The values in the order of their keys, if no key occurs twice. -/
def sortDistinct (entries : List (String × α)) : Option (List α) :=
  if (entries.map Prod.fst).Nodup then some ((sortByKey entries).map Prod.snd) else none

theorem sortByKey_perm (entries : List (String × α)) : (sortByKey entries).Perm entries :=
  List.mergeSort_perm entries _

theorem sortByKey_sorted (entries : List (String × α)) :
    (sortByKey entries).Pairwise fun a b => a.1 ≤ b.1 := by
  have h := @List.pairwise_mergeSort (String × α) (fun a b => decide (a.1 ≤ b.1))
    (fun a b c hab hbc => by simpa using le_trans (by simpa using hab) (by simpa using hbc))
    (fun a b => by simpa using le_total a.1 b.1) entries
  simpa [sortByKey] using h

/-- A second sort changes nothing. -/
theorem sortByKey_sortByKey (entries : List (String × α)) :
    sortByKey (sortByKey entries) = sortByKey entries := by
  refine List.mergeSort_of_pairwise ?_
  simpa using sortByKey_sorted entries

theorem map_sortByKey (f : α → β) (entries : List (String × α)) :
    (sortByKey entries).map (fun e => (e.1, f e.2)) =
      sortByKey (entries.map fun e => (e.1, f e.2)) :=
  List.map_mergeSort fun _ _ _ _ => rfl

theorem sortByKey_eq_of_perm {as bs : List (String × α)} (h : as.Perm bs)
    (hnodup : (as.map Prod.fst).Nodup) : sortByKey as = sortByKey bs := by
  have hperm := ((sortByKey_perm as).trans h).trans (sortByKey_perm bs).symm
  refine hperm.eq_of_pairwise ?_ (sortByKey_sorted as) (sortByKey_sorted bs)
  intro a b ha hb hab hba
  have hmem : b ∈ as := h.mem_iff.mpr ((sortByKey_perm bs).mem_iff.mp hb)
  exact List.inj_on_of_nodup_map hnodup ((sortByKey_perm as).mem_iff.mp ha) hmem
    (le_antisymm hab hba)

theorem sortDistinct_perm {as bs : List (String × α)} (h : as.Perm bs) :
    sortDistinct as = sortDistinct bs := by
  have hkeys := (h.map Prod.fst).nodup_iff
  by_cases hnodup : (as.map Prod.fst).Nodup
  · rw [sortDistinct, if_pos hnodup, sortDistinct, if_pos (hkeys.mp hnodup),
      sortByKey_eq_of_perm h hnodup]
  · rw [sortDistinct, if_neg hnodup, sortDistinct, if_neg (fun hb => hnodup (hkeys.mpr hb))]

theorem sortDistinct_eq_some {as : List (String × α)} {xs : List α}
    (h : sortDistinct as = some xs) :
    (as.map Prod.fst).Nodup ∧ xs.Perm (as.map Prod.snd) := by
  unfold sortDistinct at h
  split at h
  · rename_i hnodup
    rw [← Option.some.inj h]
    exact ⟨hnodup, (sortByKey_perm as).map _⟩
  · cases h

end Sorting

/-- `validate_decimal` and `ValidateDecimal` with a sign allowed. -/
def signedDecimal (value : String) : Bool :=
  let digits := match value.toList with
    | '-' :: cs => cs
    | cs => cs
  !(digits.isEmpty || !digits.all Char.isDigit ||
    (digits.length > 1 && digits.head? = some '0') || value = "-0")

def bigint (v : Json) : Option Json :=
  match v with
  | .string value => if signedDecimal value then some (.object [("#bigint", v)]) else none
  | _ => none

variable (number : JsonNumber → Option ℤ) (key : Json → String)

mutual
def canonicalize : Json → Option Json
  | .null => some .null
  | .bool value => some (.bool value)
  | .string value => some (.string value)
  | .number value => (number value).map fun z => .number (.int z)
  | .array items => (canonicalizeItems items).map .array
  | .object [(k, v)] =>
    if k = "#bigint" then bigint v
    else if k = "#set" then
      match v with
      | .array items => do
        let values ← canonicalizeItems items
        let sorted ← sortDistinct (values.map fun v => (key v, v))
        some (.object [("#set", .array sorted)])
      | _ => none
    else if k = "#map" then
      match v with
      | .array items => do
        let entries ← canonicalizeEntries items
        let sorted ← sortDistinct (entries.map fun e => (key e.1, e))
        some (.object [("#map", .array (sorted.map fun e => .array [e.1, e.2]))])
      | _ => none
    else (canonicalize v).map fun w => .object [(k, w)]
  | .object fields => (canonicalizeFields fields).map fun fs => .object (sortByKey fs)

def canonicalizeItems : List Json → Option (List Json)
  | [] => some []
  | v :: vs => do
    let w ← canonicalize v
    let ws ← canonicalizeItems vs
    some (w :: ws)

def canonicalizeEntries : List Json → Option (List (Json × Json))
  | [] => some []
  | .array [k, v] :: entries => do
    let k ← canonicalize k
    let v ← canonicalize v
    let rest ← canonicalizeEntries entries
    some ((k, v) :: rest)
  | _ :: _ => none

def canonicalizeFields : List (String × Json) → Option (List (String × Json))
  | [] => some []
  | (k, v) :: fs => do
    let w ← canonicalize v
    let ws ← canonicalizeFields fs
    some ((k, w) :: ws)
end

attribute [grind =] canonicalize canonicalizeItems canonicalizeEntries canonicalizeFields

/-- The canonical form of an accepted value. -/
def form (v : Json) : Json := (canonicalize number key v).getD v

/-- Whether the value is accepted. -/
def Accepted (v : Json) : Prop := (canonicalize number key v).isSome = true

variable {number key}

theorem Accepted.eq_form {v : Json} (h : Accepted number key v) :
    canonicalize number key v = some (form number key v) := by
  obtain ⟨w, hw⟩ := Option.isSome_iff_exists.mp h
  simp [form, hw]

theorem canonicalize_eq_some {v w : Json} :
    canonicalize number key v = some w ↔ Accepted number key v ∧ form number key v = w := by
  constructor
  · intro h
    exact ⟨Option.isSome_iff_exists.mpr ⟨w, h⟩, by simp [form, h]⟩
  · rintro ⟨h, rfl⟩
    exact h.eq_form

theorem canonicalizeItems_eq_some {vs ws : List Json} :
    canonicalizeItems number key vs = some ws ↔
      (∀ v ∈ vs, Accepted number key v) ∧ vs.map (form number key) = ws := by
  induction vs generalizing ws with
  | nil => simp [canonicalizeItems]
  | cons v vs ih =>
    simp only [canonicalizeItems, Option.bind_eq_bind, Option.bind_eq_some_iff,
      canonicalize_eq_some, ih, Option.some.injEq, List.forall_mem_cons, List.map_cons]
    constructor
    · rintro ⟨w, ⟨hv, rfl⟩, ws, ⟨hvs, rfl⟩, rfl⟩
      exact ⟨⟨hv, hvs⟩, rfl⟩
    · rintro ⟨⟨hv, hvs⟩, rfl⟩
      exact ⟨_, ⟨hv, rfl⟩, _, ⟨hvs, rfl⟩, rfl⟩

theorem canonicalizeFields_eq_some {fs gs : List (String × Json)} :
    canonicalizeFields number key fs = some gs ↔
      (∀ f ∈ fs, Accepted number key f.2) ∧
        fs.map (fun f => (f.1, form number key f.2)) = gs := by
  induction fs generalizing gs with
  | nil => simp [canonicalizeFields]
  | cons f fs ih =>
    simp only [canonicalizeFields, Option.bind_eq_bind, Option.bind_eq_some_iff,
      canonicalize_eq_some, ih, Option.some.injEq, List.forall_mem_cons, List.map_cons]
    constructor
    · rintro ⟨w, ⟨hv, rfl⟩, ws, ⟨hvs, rfl⟩, rfl⟩
      exact ⟨⟨hv, hvs⟩, rfl⟩
    · rintro ⟨⟨hv, hvs⟩, rfl⟩
      exact ⟨_, ⟨hv, rfl⟩, _, ⟨hvs, rfl⟩, rfl⟩

/-- An entry of a `#map`. -/
def pair (e : Json × Json) : Json := .array [e.1, e.2]

def formPair (number : JsonNumber → Option ℤ) (key : Json → String) (e : Json × Json) :
    Json × Json :=
  (form number key e.1, form number key e.2)

theorem canonicalizeEntries_eq_some {items : List Json} {es : List (Json × Json)} :
    canonicalizeEntries number key items = some es ↔
      ∃ pairs : List (Json × Json), pairs.map pair = items ∧
        (∀ e ∈ pairs, Accepted number key e.1 ∧ Accepted number key e.2) ∧
        pairs.map (formPair number key) = es := by
  induction items generalizing es with
  | nil => simp [canonicalizeEntries, eq_comm]
  | cons item items ih =>
    constructor
    · intro h
      unfold canonicalizeEntries at h
      split at h
      · rename_i heq
        cases heq
      · rename_i k v rest heq
        obtain ⟨rfl, rfl⟩ := List.cons.inj heq
        simp only [Option.bind_eq_bind, Option.bind_eq_some_iff, canonicalize_eq_some, ih,
          Option.some.injEq] at h
        obtain ⟨k', ⟨hk, rfl⟩, v', ⟨hv, rfl⟩, es, ⟨pairs, rfl, hpairs, rfl⟩, rfl⟩ := h
        exact ⟨(k, v) :: pairs, rfl, List.forall_mem_cons.mpr ⟨⟨hk, hv⟩, hpairs⟩, rfl⟩
      · cases h
    · rintro ⟨pairs, hitems, hpairs, rfl⟩
      cases pairs with
      | nil => cases hitems
      | cons e pairs =>
        obtain ⟨rfl, rfl⟩ := List.cons.inj hitems
        obtain ⟨⟨hk, hv⟩, hrest⟩ := List.forall_mem_cons.mp hpairs
        have htail := ih.mpr ⟨pairs, rfl, hrest, rfl⟩
        simp [pair, canonicalizeEntries, hk.eq_form, hv.eq_form, htail, formPair]

/-- Not a tagged value. -/
def Plain (fields : List (String × Json)) : Prop :=
  ∀ k v, fields = [(k, v)] → k ≠ "#bigint" ∧ k ≠ "#set" ∧ k ≠ "#map"

theorem tag_cases (fields : List (String × Json)) :
    (∃ v, fields = [("#bigint", v)]) ∨ (∃ v, fields = [("#set", v)]) ∨
      (∃ v, fields = [("#map", v)]) ∨ Plain fields := by
  by_cases h : ∃ k v, fields = [(k, v)] ∧ (k = "#bigint" ∨ k = "#set" ∨ k = "#map")
  · obtain ⟨k, v, rfl, rfl | rfl | rfl⟩ := h
    · exact .inl ⟨v, rfl⟩
    · exact .inr (.inl ⟨v, rfl⟩)
    · exact .inr (.inr (.inl ⟨v, rfl⟩))
  · refine .inr (.inr (.inr fun k v hf => ?_))
    refine ⟨fun hk => h ⟨k, v, hf, .inl hk⟩, fun hk => h ⟨k, v, hf, .inr (.inl hk)⟩,
      fun hk => h ⟨k, v, hf, .inr (.inr hk)⟩⟩

theorem canonicalize_scalar {v : Json} (hnumber : ∀ n, v ≠ .number n)
    (harray : ∀ items, v ≠ .array items) (hobject : ∀ fields, v ≠ .object fields) :
    canonicalize number key v = some v := by
  cases v with
  | number n => exact absurd rfl (hnumber n)
  | array items => exact absurd rfl (harray items)
  | object fields => exact absurd rfl (hobject fields)
  | _ => rfl

theorem canonicalize_number {n : JsonNumber} {w : Json} :
    canonicalize number key (.number n) = some w ↔
      ∃ z, number n = some z ∧ w = .number (.int z) := by
  simp [canonicalize, eq_comm]

theorem canonicalize_bigint (v : Json) :
    canonicalize number key (.object [("#bigint", v)]) = bigint v := by
  simp [canonicalize]

theorem canonicalize_set {v w : Json} :
    canonicalize number key (.object [("#set", v)]) = some w ↔
      ∃ items sorted, v = .array items ∧ (∀ x ∈ items, Accepted number key x) ∧
        sortDistinct (items.map fun x => (key (form number key x), form number key x)) =
          some sorted ∧
        w = .object [("#set", .array sorted)] := by
  cases v with
  | array items =>
    simp only [canonicalize, String.reduceEq, if_false, if_true, Option.bind_eq_bind,
      Option.bind_eq_some_iff, canonicalizeItems_eq_some, Option.some.injEq, Json.array.injEq]
    constructor
    · rintro ⟨ws, ⟨haccepted, rfl⟩, sorted, hsorted, rfl⟩
      rw [List.map_map] at hsorted
      exact ⟨items, sorted, rfl, haccepted, hsorted, rfl⟩
    · rintro ⟨items, sorted, rfl, haccepted, hsorted, rfl⟩
      exact ⟨_, ⟨haccepted, rfl⟩, sorted, by rw [List.map_map]; exact hsorted, rfl⟩
  | _ => simp [canonicalize]

theorem canonicalize_map {v w : Json} :
    canonicalize number key (.object [("#map", v)]) = some w ↔
      ∃ (pairs : List (Json × Json)) (sorted : List (Json × Json)),
        v = .array (pairs.map pair) ∧
        (∀ e ∈ pairs, Accepted number key e.1 ∧ Accepted number key e.2) ∧
        sortDistinct (pairs.map fun e => (key (form number key e.1), formPair number key e)) =
          some sorted ∧
        w = .object [("#map", .array (sorted.map pair))] := by
  cases v with
  | array items =>
    simp only [canonicalize, String.reduceEq, if_false, if_true, Option.bind_eq_bind,
      Option.bind_eq_some_iff, canonicalizeEntries_eq_some, Option.some.injEq, Json.array.injEq]
    constructor
    · rintro ⟨es, ⟨pairs, rfl, haccepted, rfl⟩, sorted, hsorted, rfl⟩
      rw [List.map_map] at hsorted
      exact ⟨pairs, sorted, rfl, haccepted, hsorted, rfl⟩
    · rintro ⟨pairs, sorted, rfl, haccepted, hsorted, rfl⟩
      exact ⟨_, ⟨pairs, rfl, haccepted, rfl⟩, sorted, by rw [List.map_map]; exact hsorted, rfl⟩
  | _ => simp [canonicalize]

theorem canonicalize_plain {fields : List (String × Json)} (h : Plain fields) :
    canonicalize number key (.object fields) =
      (canonicalizeFields number key fields).map fun fs => .object (sortByKey fs) := by
  obtain - | ⟨⟨k, v⟩, - | ⟨g, gs⟩⟩ := fields
  · rfl
  · obtain ⟨hbigint, hset, hmap⟩ := h k v rfl
    have hone : canonicalize number key (.object [(k, v)]) =
        (canonicalize number key v).map fun w => .object [(k, w)] := by
      cases v <;> simp [canonicalize, hbigint, hset, hmap]
    rw [hone]
    cases hv : canonicalize number key v <;> simp [canonicalizeFields, hv, sortByKey]
  · rw [canonicalize]
    intro k v heq
    cases heq

theorem Plain.of_keys {fields gs : List (String × Json)} (h : Plain fields)
    (hkeys : (gs.map Prod.fst).Perm (fields.map Prod.fst)) : Plain gs := by
  rintro k v rfl
  have hone : fields.map Prod.fst = [k] := List.perm_singleton.mp hkeys.symm
  obtain ⟨f, rfl⟩ := List.length_eq_one_iff.mp (by simpa using congrArg List.length hone)
  obtain ⟨l, u⟩ := f
  obtain rfl : l = k := by simpa using hone
  exact h l u rfl

/-! ## The form does not depend on the printer -/

theorem sizeOf_item {x : Json} {items : List Json} (h : x ∈ items) :
    sizeOf x < sizeOf (Json.array items) := by
  have := List.sizeOf_lt_of_mem h
  simp only [Json.array.sizeOf_spec]
  omega

theorem sizeOf_field {f : String × Json} {fields : List (String × Json)} (h : f ∈ fields) :
    sizeOf f.2 < sizeOf (Json.object fields) := by
  have := List.sizeOf_lt_of_mem h
  obtain ⟨k, v⟩ := f
  simp only [Prod.mk.sizeOf_spec] at this
  simp only [Json.object.sizeOf_spec]
  omega

theorem sizeOf_tagged (tag : String) (v : Json) : sizeOf v < sizeOf (Json.object [(tag, v)]) :=
  sizeOf_field (List.mem_singleton.mpr (rfl : ((tag, v) : String × Json) = (tag, v)))

theorem sizeOf_pair {e : Json × Json} {pairs : List (Json × Json)} (h : e ∈ pairs) :
    sizeOf e.1 < sizeOf (Json.array (pairs.map pair)) ∧
      sizeOf e.2 < sizeOf (Json.array (pairs.map pair)) := by
  have hpair := sizeOf_item (List.mem_map_of_mem (f := pair) h)
  have h1 : sizeOf e.1 < sizeOf (pair e) := sizeOf_item (by simp)
  have h2 : sizeOf e.2 < sizeOf (pair e) := sizeOf_item (by simp)
  omega

/-- What a canonical form is made of: induction on a value, with the elements of sets and the
entries of maps as its parts. -/
theorem parts_induction {P : Json → Prop}
    (scalar : ∀ v, (∀ items, v ≠ .array items) → (∀ fields, v ≠ .object fields) → P v)
    (array : ∀ items, (∀ x ∈ items, P x) → P (.array items))
    (bigint : ∀ v, P (.object [("#bigint", v)]))
    (set : ∀ v, (∀ items, v = .array items → ∀ x ∈ items, P x) → P (.object [("#set", v)]))
    (map : ∀ v, (∀ pairs : List (Json × Json), v = .array (pairs.map pair) → ∀ e ∈ pairs, P e.1 ∧ P e.2) →
      P (.object [("#map", v)]))
    (plain : ∀ fields, Plain fields → (∀ f ∈ fields, P f.2) → P (.object fields)) (v : Json) :
    P v := by
  induction hn : sizeOf v using Nat.strong_induction_on generalizing v with
  | _ n ih =>
    subst hn
    cases v with
    | array items => exact array items fun x hx => ih _ (sizeOf_item hx) x rfl
    | object fields =>
      obtain ⟨v, rfl⟩ | ⟨v, rfl⟩ | ⟨v, rfl⟩ | hplain := tag_cases fields
      · exact bigint v
      · refine set v fun items hv x hx => ih _ ?_ x rfl
        subst hv
        exact (sizeOf_item hx).trans (sizeOf_tagged _ _)
      · refine map v fun pairs hv e he => ?_
        subst hv
        obtain ⟨h1, h2⟩ := sizeOf_pair he
        have htag := sizeOf_tagged "#map" (.array (pairs.map pair))
        exact ⟨ih _ (h1.trans htag) _ rfl, ih _ (h2.trans htag) _ rfl⟩
      · exact plain fields hplain fun f hf => ih _ (sizeOf_field hf) f.2 rfl
    | _ => exact scalar _ (by simp) (by simp)

theorem bigint_eq_some {v w : Json} :
    bigint v = some w ↔
      ∃ value, v = .string value ∧ signedDecimal value = true ∧ w = .object [("#bigint", v)] := by
  cases v with
  | string value =>
    simp only [bigint, Option.ite_none_right_eq_some, Option.some.injEq, Json.string.injEq]
    constructor
    · rintro ⟨h, rfl⟩
      exact ⟨value, rfl, h, rfl⟩
    · rintro ⟨u, rfl, h, rfl⟩
      exact ⟨h, rfl⟩
  | _ => simp [bigint]

/-- Induction on a value together with its canonical form. -/
theorem form_induction {P : Json → Json → Prop}
    (scalar : ∀ v, (∀ n, v ≠ .number n) → (∀ items, v ≠ .array items) →
      (∀ fields, v ≠ .object fields) → P v v)
    (numeral : ∀ n z, number n = some z → P (.number n) (.number (.int z)))
    (array : ∀ items, (∀ x ∈ items, P x (form number key x)) →
      P (.array items) (.array (items.map (form number key))))
    (bigint : ∀ value, P (.object [("#bigint", .string value)]) (.object [("#bigint", .string value)]))
    (set : ∀ items sorted, sorted.Perm (items.map (form number key)) →
      (∀ x ∈ items, P x (form number key x)) →
      P (.object [("#set", .array items)]) (.object [("#set", .array sorted)]))
    (map : ∀ (pairs sorted : List (Json × Json)), sorted.Perm (pairs.map (formPair number key)) →
      (∀ e ∈ pairs, P e.1 (form number key e.1) ∧ P e.2 (form number key e.2)) →
      P (.object [("#map", .array (pairs.map pair))]) (.object [("#map", .array (sorted.map pair))]))
    (plain : ∀ fields, Plain fields → (∀ f ∈ fields, P f.2 (form number key f.2)) →
      P (.object fields) (.object (sortByKey (fields.map fun f => (f.1, form number key f.2)))))
    (v : Json) (h : Accepted number key v) : P v (form number key v) := by
  induction v using parts_induction with
  | scalar v harray hobject =>
    by_cases hnumber : ∃ n, v = .number n
    · obtain ⟨n, rfl⟩ := hnumber
      obtain ⟨z, hz, hw⟩ := canonicalize_number.mp h.eq_form
      rw [hw]
      exact numeral n z hz
    · have hv : canonicalize number key v = some v :=
        canonicalize_scalar (not_exists.mp hnumber) harray hobject
      rw [(canonicalize_eq_some.mp hv).2]
      exact scalar v (not_exists.mp hnumber) harray hobject
  | array items ih =>
    have hform := h.eq_form
    rw [canonicalize] at hform
    obtain ⟨ws, hws, hw⟩ := Option.map_eq_some_iff.mp hform
    obtain ⟨haccepted, rfl⟩ := canonicalizeItems_eq_some.mp hws
    rw [← hw]
    exact array items fun x hx => ih x hx (haccepted x hx)
  | bigint v =>
    have hform := h.eq_form
    rw [canonicalize_bigint] at hform
    obtain ⟨value, rfl, -, hw⟩ := bigint_eq_some.mp hform
    rw [hw]
    exact bigint value
  | set v ih =>
    obtain ⟨items, sorted, rfl, haccepted, hsorted, hw⟩ := canonicalize_set.mp h.eq_form
    have hperm := (sortDistinct_eq_some hsorted).2
    rw [List.map_map] at hperm
    rw [hw]
    exact set items sorted hperm fun x hx => ih items rfl x hx (haccepted x hx)
  | map v ih =>
    obtain ⟨pairs, sorted, rfl, haccepted, hsorted, hw⟩ := canonicalize_map.mp h.eq_form
    have hperm := (sortDistinct_eq_some hsorted).2
    rw [List.map_map] at hperm
    rw [hw]
    refine map pairs sorted hperm fun e he => ?_
    obtain ⟨h1, h2⟩ := ih pairs rfl e he
    obtain ⟨ha1, ha2⟩ := haccepted e he
    exact ⟨h1 ha1, h2 ha2⟩
  | plain fields hplain ih =>
    have hform := h.eq_form
    rw [canonicalize_plain hplain] at hform
    obtain ⟨gs, hgs, hw⟩ := Option.map_eq_some_iff.mp hform
    obtain ⟨haccepted, rfl⟩ := canonicalizeFields_eq_some.mp hgs
    rw [← hw]
    exact plain fields hplain fun f hf => ih f hf (haccepted f hf)

theorem floatFree_object {fields : List (String × Json)} :
    (Json.object fields).floatFree = true ↔ ∀ f ∈ fields, f.2.floatFree = true := by
  rw [Json.floatFree, Json.floatFreeFields_iff]

theorem floatFree_array {items : List Json} :
    (Json.array items).floatFree = true ↔ ∀ v ∈ items, v.floatFree = true := by
  rw [Json.floatFree, Json.floatFreeItems_iff]

theorem floatFree_pair {e : Json × Json} :
    (pair e).floatFree = true ↔ e.1.floatFree = true ∧ e.2.floatFree = true := by
  simp [pair, floatFree_array]

theorem form_floatFree (v : Json) (h : Accepted number key v) :
    (form number key v).floatFree = true := by
  refine form_induction (P := fun _ w => w.floatFree = true) ?scalar ?numeral ?array ?bigint ?set
    ?map ?plain v h
  case scalar =>
    intro v hnumber harray hobject
    cases v with
    | number n => exact absurd rfl (hnumber n)
    | array items => exact absurd rfl (harray items)
    | object fields => exact absurd rfl (hobject fields)
    | _ => rfl
  case numeral => exact fun _ _ _ => rfl
  case array => exact fun items ih => floatFree_array.mpr (List.forall_mem_map.mpr ih)
  case bigint => exact fun _ => rfl
  case set =>
    intro items sorted hperm ih
    rw [floatFree_object]
    simp only [List.mem_singleton, forall_eq, floatFree_array, hperm.mem_iff, List.forall_mem_map]
    exact ih
  case map =>
    intro pairs sorted hperm ih
    rw [floatFree_object]
    simp only [List.mem_singleton, forall_eq, floatFree_array, List.forall_mem_map, hperm.mem_iff,
      floatFree_pair]
    exact ih
  case plain =>
    intro fields _ ih
    rw [floatFree_object]
    simp only [(sortByKey_perm _).mem_iff, List.forall_mem_map]
    exact ih

/-- The key tells canonical forms apart. -/
def Faithful (key : Json → String) : Prop :=
  ∀ v w : Json, v.floatFree = true → w.floatFree = true → key v = key w → v = w

theorem nodup_map_of_imp {α β γ : Type} {f : α → β} {g : α → γ} {xs : List α}
    (h : ∀ a ∈ xs, ∀ b ∈ xs, g a = g b → f a = f b) (hf : (xs.map f).Nodup) :
    (xs.map g).Nodup := by
  rw [List.Nodup, List.pairwise_map] at hf ⊢
  exact hf.imp_of_mem fun ha hb hne hg => hne (h _ ha _ hb hg)

/-- Canonicalising with one printer and then with another gives what the other gives alone. -/
def Transfers (number : JsonNumber → Option ℤ) (v : Json) : Prop :=
  ∀ key₁ key₂, Faithful key₁ → Faithful key₂ → Accepted number key₁ v →
    Accepted number key₂ v ∧
      canonicalize number key₂ (form number key₁ v) = some (form number key₂ v)

theorem Transfers.form_form {v : Json} (h : Transfers number v) {key₁ key₂ : Json → String}
    (h₁ : Faithful key₁) (h₂ : Faithful key₂) (hv : Accepted number key₁ v) :
    Accepted number key₂ (form number key₁ v) ∧
      form number key₂ (form number key₁ v) = form number key₂ v :=
  canonicalize_eq_some.mp (h key₁ key₂ h₁ h₂ hv).2

/-- Equal forms under one printer are equal under another. -/
theorem Transfers.form_eq {v w : Json} (hv : Transfers number v) (hw : Transfers number w)
    {key₁ key₂ : Json → String} (h₁ : Faithful key₁) (h₂ : Faithful key₂)
    (hav : Accepted number key₁ v) (haw : Accepted number key₁ w)
    (h : form number key₂ v = form number key₂ w) : form number key₁ v = form number key₁ w := by
  have hv₂ := (hv key₁ key₂ h₁ h₂ hav).1
  have hw₂ := (hw key₁ key₂ h₁ h₂ haw).1
  rw [← (hv.form_form h₂ h₁ hv₂).2, ← (hw.form_form h₂ h₁ hw₂).2, h]

/-- Distinct elements stay distinct, and the same elements in another order give the same set. -/
theorem sortDistinct_transfer {α β : Type} {parts : List α} {of₁ of₂ : α → Json}
    {key₁ key₂ : Json → String} {rep₁ : α → β} (rep₂ : α → β) {sorted : List β} (h₂ : Faithful key₂)
    (hfree : ∀ a ∈ parts, (of₂ a).floatFree = true)
    (hinj : ∀ a ∈ parts, ∀ b ∈ parts, of₂ a = of₂ b → of₁ a = of₁ b)
    (hsorted : sortDistinct (parts.map fun a => (key₁ (of₁ a), rep₁ a)) = some sorted) :
    ∃ sorted₂, sortDistinct (parts.map fun a => (key₂ (of₂ a), rep₂ a)) = some sorted₂ := by
  have hnodup : ((parts.map fun a => (key₂ (of₂ a), rep₂ a)).map Prod.fst).Nodup := by
    have hnodup₁ := (sortDistinct_eq_some hsorted).1
    rw [List.map_map] at hnodup₁ ⊢
    refine nodup_map_of_imp (fun a ha b hb heq => ?_) hnodup₁
    exact congrArg key₁ (hinj a ha b hb (h₂ _ _ (hfree a ha) (hfree b hb) heq))
  exact ⟨_, if_pos hnodup⟩

/-- What was sorted once is sorted again, under the keys that its members have then. -/
theorem sortDistinct_again {α β : Type} {parts : List α} {entry₁ entry₂ : α → String × β}
    {again : β → String × β} {sorted : List β} (hsorted : sortDistinct (parts.map entry₁) = some sorted)
    (hagain : ∀ a ∈ parts, again (entry₁ a).2 = entry₂ a) :
    sortDistinct (sorted.map again) = sortDistinct (parts.map entry₂) := by
  refine sortDistinct_perm (((sortDistinct_eq_some hsorted).2.map again).trans (List.Perm.of_eq ?_))
  rw [List.map_map, List.map_map]
  exact List.map_congr_left hagain

theorem mem_of_sortDistinct {α β : Type} {parts : List α} {entry : α → String × β}
    {sorted : List β} (hsorted : sortDistinct (parts.map entry) = some sorted) {b : β}
    (hb : b ∈ sorted) : ∃ a ∈ parts, (entry a).2 = b := by
  obtain ⟨p, hp, rfl⟩ := List.mem_map.mp ((sortDistinct_eq_some hsorted).2.mem_iff.mp hb)
  obtain ⟨a, ha, rfl⟩ := List.mem_map.mp hp
  exact ⟨a, ha, rfl⟩

theorem transfers (hnumber : ∀ n z, number n = some z → number (.int z) = some z) (v : Json) :
    Transfers number v := by
  induction v using parts_induction with
  | scalar v harray hobject =>
    intro key₁ key₂ _ _ h
    by_cases hn : ∃ n, v = .number n
    · obtain ⟨n, rfl⟩ := hn
      obtain ⟨z, hz, hw⟩ := canonicalize_number.mp h.eq_form
      obtain ⟨haccepted, hform₂⟩ := canonicalize_eq_some.mp
        ((canonicalize_number (w := .number (.int z))).mpr ⟨z, hz, rfl⟩)
      refine ⟨haccepted, ?_⟩
      rw [hw, hform₂]
      exact canonicalize_number.mpr ⟨z, hnumber n z hz, rfl⟩
    · have hscalar : ∀ key, canonicalize number key v = some v := fun key =>
        canonicalize_scalar (not_exists.mp hn) harray hobject
      obtain ⟨haccepted, hform₂⟩ := canonicalize_eq_some.mp (hscalar key₂)
      rw [(canonicalize_eq_some.mp (hscalar key₁)).2, hform₂]
      exact ⟨haccepted, hscalar key₂⟩
  | array items ih =>
    intro key₁ key₂ h₁ h₂ h
    have hform := h.eq_form
    rw [canonicalize] at hform
    obtain ⟨ws, hws, hw⟩ := Option.map_eq_some_iff.mp hform
    obtain ⟨haccepted, rfl⟩ := canonicalizeItems_eq_some.mp hws
    have hitems : canonicalizeItems number key₂ items = some (items.map (form number key₂)) :=
      canonicalizeItems_eq_some.mpr ⟨fun x hx => (ih x hx key₁ key₂ h₁ h₂ (haccepted x hx)).1, rfl⟩
    have hforms : canonicalizeItems number key₂ (items.map (form number key₁)) =
        some (items.map (form number key₂)) := by
      refine canonicalizeItems_eq_some.mpr ⟨?_, ?_⟩
      · simpa using fun x hx => ((ih x hx).form_form h₁ h₂ (haccepted x hx)).1
      · rw [List.map_map]
        exact List.map_congr_left fun x hx => ((ih x hx).form_form h₁ h₂ (haccepted x hx)).2
    have hsome : canonicalize number key₂ (.array items) =
        some (.array (items.map (form number key₂))) := by rw [canonicalize, hitems, Option.map_some]
    obtain ⟨haccepted₂, hform₂⟩ := canonicalize_eq_some.mp hsome
    refine ⟨haccepted₂, ?_⟩
    rw [← hw, hform₂, canonicalize, hforms, Option.map_some]
  | bigint v =>
    intro key₁ key₂ _ _ h
    have hform := h.eq_form
    rw [canonicalize_bigint] at hform
    have hsome : canonicalize number key₂ (.object [("#bigint", v)]) = _ :=
      (canonicalize_bigint v).trans hform
    obtain ⟨haccepted, hform₂⟩ := canonicalize_eq_some.mp hsome
    refine ⟨haccepted, ?_⟩
    obtain ⟨value, rfl, -, hw⟩ := bigint_eq_some.mp hform
    rw [hform₂, hw, canonicalize_bigint, hform, hw]
  | set v ih =>
    intro key₁ key₂ h₁ h₂ h
    obtain ⟨items, sorted, rfl, haccepted, hsorted, hw⟩ := canonicalize_set.mp h.eq_form
    have haccepted₂ : ∀ x ∈ items, Accepted number key₂ x := fun x hx =>
      (ih items rfl x hx key₁ key₂ h₁ h₂ (haccepted x hx)).1
    have hinj : ∀ x ∈ items, ∀ y ∈ items, form number key₂ x = form number key₂ y →
        form number key₁ x = form number key₁ y := fun x hx y hy =>
      (ih items rfl x hx).form_eq (ih items rfl y hy) h₁ h₂ (haccepted x hx) (haccepted y hy)
    obtain ⟨sorted₂, hsorted₂⟩ := sortDistinct_transfer (form number key₂) h₂
      (fun x hx => form_floatFree x (haccepted₂ x hx)) hinj hsorted
    have hsome := canonicalize_set.mpr ⟨items, sorted₂, rfl, haccepted₂, hsorted₂, rfl⟩
    obtain ⟨hset₂, hform₂⟩ := canonicalize_eq_some.mp hsome
    refine ⟨hset₂, ?_⟩
    rw [hform₂, hw]
    refine canonicalize_set.mpr ⟨sorted, sorted₂, rfl, ?_, ?_, rfl⟩
    · intro w hws
      obtain ⟨x, hx, rfl⟩ := mem_of_sortDistinct hsorted hws
      exact ((ih items rfl x hx).form_form h₁ h₂ (haccepted x hx)).1
    · rw [← hsorted₂]
      refine sortDistinct_again hsorted fun x hx => ?_
      rw [((ih items rfl x hx).form_form h₁ h₂ (haccepted x hx)).2]
  | map v ih =>
    intro key₁ key₂ h₁ h₂ h
    obtain ⟨pairs, sorted, rfl, haccepted, hsorted, hw⟩ := canonicalize_map.mp h.eq_form
    have hparts := ih pairs rfl
    have haccepted₂ : ∀ e ∈ pairs, Accepted number key₂ e.1 ∧ Accepted number key₂ e.2 :=
      fun e he => ⟨((hparts e he).1 key₁ key₂ h₁ h₂ (haccepted e he).1).1,
        ((hparts e he).2 key₁ key₂ h₁ h₂ (haccepted e he).2).1⟩
    have hinj : ∀ e ∈ pairs, ∀ f ∈ pairs, form number key₂ e.1 = form number key₂ f.1 →
        form number key₁ e.1 = form number key₁ f.1 := fun e he f hf =>
      (hparts e he).1.form_eq (hparts f hf).1 h₁ h₂ (haccepted e he).1 (haccepted f hf).1
    obtain ⟨sorted₂, hsorted₂⟩ := sortDistinct_transfer (formPair number key₂) h₂
      (fun e he => form_floatFree e.1 (haccepted₂ e he).1) hinj hsorted
    have hsome := canonicalize_map.mpr ⟨pairs, sorted₂, rfl, haccepted₂, hsorted₂, rfl⟩
    obtain ⟨hmap₂, hform₂⟩ := canonicalize_eq_some.mp hsome
    refine ⟨hmap₂, ?_⟩
    have hforms : ∀ e ∈ pairs, (Accepted number key₂ (form number key₁ e.1) ∧
        form number key₂ (form number key₁ e.1) = form number key₂ e.1) ∧
        Accepted number key₂ (form number key₁ e.2) ∧
        form number key₂ (form number key₁ e.2) = form number key₂ e.2 := fun e he =>
      ⟨(hparts e he).1.form_form h₁ h₂ (haccepted e he).1,
        (hparts e he).2.form_form h₁ h₂ (haccepted e he).2⟩
    rw [hform₂, hw]
    refine canonicalize_map.mpr ⟨sorted, sorted₂, rfl, ?_, ?_, rfl⟩
    · intro f hf
      obtain ⟨e, he, rfl⟩ := mem_of_sortDistinct hsorted hf
      exact ⟨(hforms e he).1.1, (hforms e he).2.1⟩
    · rw [← hsorted₂]
      refine sortDistinct_again hsorted fun e he => ?_
      simp only [formPair, (hforms e he).1.2, (hforms e he).2.2]
  | plain fields hplain ih =>
    intro key₁ key₂ h₁ h₂ h
    have hform := h.eq_form
    rw [canonicalize_plain hplain] at hform
    obtain ⟨gs, hgs, hw⟩ := Option.map_eq_some_iff.mp hform
    obtain ⟨haccepted, rfl⟩ := canonicalizeFields_eq_some.mp hgs
    have haccepted₂ : ∀ f ∈ fields, Accepted number key₂ f.2 := fun f hf =>
      (ih f hf key₁ key₂ h₁ h₂ (haccepted f hf)).1
    have hsome : canonicalize number key₂ (.object fields) =
        some (.object (sortByKey (fields.map fun f => (f.1, form number key₂ f.2)))) := by
      rw [canonicalize_plain hplain, canonicalizeFields_eq_some.mpr ⟨haccepted₂, rfl⟩,
        Option.map_some]
    obtain ⟨hobject₂, hform₂⟩ := canonicalize_eq_some.mp hsome
    refine ⟨hobject₂, ?_⟩
    rw [hform₂, ← hw]
    have hkeys : ((sortByKey (fields.map fun f => (f.1, form number key₁ f.2))).map
        Prod.fst).Perm (fields.map Prod.fst) := by
      refine ((sortByKey_perm _).map _).trans (List.Perm.of_eq ?_)
      rw [List.map_map]
      rfl
    rw [canonicalize_plain (hplain.of_keys hkeys)]
    have hforms : canonicalizeFields number key₂
        (sortByKey (fields.map fun f => (f.1, form number key₁ f.2))) =
        some (sortByKey (fields.map fun f => (f.1, form number key₂ f.2))) := by
      refine canonicalizeFields_eq_some.mpr ⟨?_, ?_⟩
      · intro g hg
        obtain ⟨f, hf, rfl⟩ := List.mem_map.mp ((sortByKey_perm _).mem_iff.mp hg)
        exact ((ih f hf).form_form h₁ h₂ (haccepted f hf)).1
      · rw [map_sortByKey, List.map_map]
        refine congrArg sortByKey (List.map_congr_left fun f hf => ?_)
        simp only [Function.comp_apply, ((ih f hf).form_form h₁ h₂ (haccepted f hf)).2]
    rw [hforms, Option.map_some, sortByKey_sortByKey]

theorem allChars_array {p : Char → Bool} {items : List Json} :
    (Json.array items).allChars p = true ↔ ∀ v ∈ items, v.allChars p = true := by
  rw [Json.allChars, Json.allCharsItems_iff]

theorem allChars_object {p : Char → Bool} {fields : List (String × Json)} :
    (Json.object fields).allChars p = true ↔
      ∀ f ∈ fields, f.1.toList.all p = true ∧ f.2.allChars p = true := by
  rw [Json.allChars, Json.allCharsFields_iff]

theorem allChars_pair {p : Char → Bool} {e : Json × Json} :
    (pair e).allChars p = true ↔ e.1.allChars p = true ∧ e.2.allChars p = true := by
  simp [pair, allChars_array]

theorem allChars_form {p : Char → Bool} (v : Json) (h : Accepted number key v) :
    (form number key v).allChars p = true ↔ v.allChars p = true := by
  refine form_induction (P := fun v w => w.allChars p = true ↔ v.allChars p = true) ?scalar ?numeral
    ?array ?bigint ?set ?map ?plain v h
  case scalar => exact fun _ _ _ _ => Iff.rfl
  case numeral => exact fun _ _ _ => by simp [Json.allChars]
  case array =>
    intro items ih
    rw [allChars_array, allChars_array, List.forall_mem_map]
    exact forall₂_congr ih
  case bigint => exact fun _ => Iff.rfl
  case set =>
    intro items sorted hperm ih
    rw [allChars_object, allChars_object]
    simp only [List.mem_singleton, forall_eq, allChars_array, hperm.mem_iff, List.forall_mem_map]
    exact and_congr_right fun _ => forall₂_congr ih
  case map =>
    intro pairs sorted hperm ih
    rw [allChars_object, allChars_object]
    simp only [List.mem_singleton, forall_eq, allChars_array, List.forall_mem_map, hperm.mem_iff,
      allChars_pair]
    exact and_congr_right fun _ => forall₂_congr fun e he => and_congr (ih e he).1 (ih e he).2
  case plain =>
    intro fields _ ih
    rw [allChars_object, allChars_object]
    simp only [(sortByKey_perm _).mem_iff, List.forall_mem_map]
    exact forall₂_congr fun f hf => and_congr_right fun _ => ih f hf

/-- Where a rule refuses every float, an accepted value has none. -/
theorem floatFree_of_accepted (hfloat : ∀ literal, number (.float literal) = none) (v : Json)
    (h : Accepted number key v) : v.floatFree = true := by
  refine form_induction (P := fun v _ => v.floatFree = true) ?scalar ?numeral ?array ?bigint ?set
    ?map ?plain v h
  case scalar =>
    intro v hnumber harray hobject
    cases v with
    | number n => exact absurd rfl (hnumber n)
    | array items => exact absurd rfl (harray items)
    | object fields => exact absurd rfl (hobject fields)
    | _ => rfl
  case numeral =>
    intro n z hz
    cases n with
    | int => rfl
    | float literal =>
      rw [hfloat] at hz
      cases hz
  case array => exact fun items ih => floatFree_array.mpr ih
  case bigint => exact fun _ => rfl
  case set =>
    intro items sorted _ ih
    rw [floatFree_object]
    simpa [floatFree_array] using ih
  case map =>
    intro pairs sorted _ ih
    rw [floatFree_object]
    simp only [List.mem_singleton, forall_eq, floatFree_array, List.forall_mem_map, floatFree_pair]
    exact ih
  case plain => exact fun fields _ ih => floatFree_object.mpr ih

theorem Accepted.congr {number₁ number₂ : JsonNumber → Option ℤ} {key₁ key₂ : Json → String}
    {v : Json} (h : canonicalize number₁ key₁ v = canonicalize number₂ key₂ v) :
    (Accepted number₁ key₁ v ↔ Accepted number₂ key₂ v) ∧
      form number₁ key₁ v = form number₂ key₂ v := by
  rw [Accepted, Accepted, form, form, h]
  exact ⟨Iff.rfl, rfl⟩

/-- Two canonicalisers agree on a value where they read its integers alike and have the same texts
for values made of its characters. -/
theorem canonicalize_congr {p : Char → Bool} {number₁ number₂ : JsonNumber → Option ℤ}
    {key₁ key₂ : Json → String} (hnumber : ∀ z, number₁ (.int z) = number₂ (.int z))
    (hkey : ∀ w : Json, w.floatFree = true → w.allChars p = true → key₁ w = key₂ w) (v : Json)
    (hfree : v.floatFree = true) (hchars : v.allChars p = true) :
    canonicalize number₁ key₁ v = canonicalize number₂ key₂ v := by
  have hforms : ∀ x : Json, x.floatFree = true → x.allChars p = true →
      canonicalize number₁ key₁ x = canonicalize number₂ key₂ x → Accepted number₁ key₁ x →
      key₁ (form number₁ key₁ x) = key₂ (form number₂ key₂ x) := by
    intro x hxfree hxchars hx hax
    rw [← (Accepted.congr hx).2]
    exact hkey _ (form_floatFree x hax) ((allChars_form x hax).mpr hxchars)
  induction v using parts_induction with
  | scalar v harray hobject =>
    cases v with
    | number n =>
      cases n with
      | int z => rw [canonicalize, canonicalize, hnumber]
      | float literal => simp [Json.floatFree] at hfree
    | array items => exact absurd rfl (harray items)
    | object fields => exact absurd rfl (hobject fields)
    | _ => rfl
  | array items ih =>
    have hitems : canonicalizeItems number₁ key₁ items = canonicalizeItems number₂ key₂ items := by
      have hparts : ∀ x ∈ items, canonicalize number₁ key₁ x = canonicalize number₂ key₂ x :=
        fun x hx => ih x hx (floatFree_array.mp hfree x hx) (allChars_array.mp hchars x hx)
      refine Option.ext fun ws => ?_
      rw [canonicalizeItems_eq_some, canonicalizeItems_eq_some,
        forall₂_congr fun x hx => (Accepted.congr (hparts x hx)).1,
        List.map_congr_left fun x hx => (Accepted.congr (hparts x hx)).2]
    rw [canonicalize, canonicalize, hitems]
  | bigint v => rw [canonicalize_bigint, canonicalize_bigint]
  | set v ih =>
    refine Option.ext fun w => ?_
    rw [canonicalize_set, canonicalize_set]
    refine exists_congr fun items => exists_congr fun sorted => and_congr_right fun hv => ?_
    subst hv
    have hfree := floatFree_array.mp (floatFree_object.mp hfree _ (List.mem_singleton_self _))
    have hchars := allChars_array.mp
      (allChars_object.mp hchars _ (List.mem_singleton_self _)).2
    have hparts : ∀ x ∈ items, canonicalize number₁ key₁ x = canonicalize number₂ key₂ x :=
      fun x hx => ih items rfl x hx (hfree x hx) (hchars x hx)
    rw [← forall₂_congr fun x hx => (Accepted.congr (hparts x hx)).1]
    refine and_congr_right fun haccepted => ?_
    have hmap : items.map (fun x => (key₁ (form number₁ key₁ x), form number₁ key₁ x)) =
        items.map fun x => (key₂ (form number₂ key₂ x), form number₂ key₂ x) :=
      List.map_congr_left fun x hx => by
        rw [hforms x (hfree x hx) (hchars x hx) (hparts x hx) (haccepted x hx),
          (Accepted.congr (hparts x hx)).2]
    rw [hmap]
  | map v ih =>
    refine Option.ext fun w => ?_
    rw [canonicalize_map, canonicalize_map]
    refine exists_congr fun pairs => exists_congr fun sorted => and_congr_right fun hv => ?_
    subst hv
    have hfree := floatFree_array.mp (floatFree_object.mp hfree _ (List.mem_singleton_self _))
    have hchars := allChars_array.mp
      (allChars_object.mp hchars _ (List.mem_singleton_self _)).2
    simp only [List.forall_mem_map, floatFree_pair] at hfree
    simp only [List.forall_mem_map, allChars_pair] at hchars
    have hparts : ∀ e ∈ pairs, canonicalize number₁ key₁ e.1 = canonicalize number₂ key₂ e.1 ∧
        canonicalize number₁ key₁ e.2 = canonicalize number₂ key₂ e.2 := fun e he =>
      ⟨(ih pairs rfl e he).1 (hfree e he).1 (hchars e he).1,
        (ih pairs rfl e he).2 (hfree e he).2 (hchars e he).2⟩
    rw [← forall₂_congr fun e he => and_congr (Accepted.congr (hparts e he).1).1
      (Accepted.congr (hparts e he).2).1]
    refine and_congr_right fun haccepted => ?_
    have hmap : pairs.map (fun e => (key₁ (form number₁ key₁ e.1), formPair number₁ key₁ e)) =
        pairs.map fun e => (key₂ (form number₂ key₂ e.1), formPair number₂ key₂ e) :=
      List.map_congr_left fun e he => by
        rw [hforms e.1 (hfree e he).1 (hchars e he).1 (hparts e he).1 (haccepted e he).1,
          formPair, formPair, (Accepted.congr (hparts e he).1).2,
          (Accepted.congr (hparts e he).2).2]
    rw [hmap]
  | plain fields hplain ih =>
    have hparts : ∀ f ∈ fields, canonicalize number₁ key₁ f.2 = canonicalize number₂ key₂ f.2 :=
      fun f hf => ih f hf (floatFree_object.mp hfree f hf) (allChars_object.mp hchars f hf).2
    have hfields : canonicalizeFields number₁ key₁ fields =
        canonicalizeFields number₂ key₂ fields := by
      refine Option.ext fun gs => ?_
      rw [canonicalizeFields_eq_some, canonicalizeFields_eq_some,
        forall₂_congr fun f hf => (Accepted.congr (hparts f hf)).1,
        List.map_congr_left fun f hf => by rw [(Accepted.congr (hparts f hf)).2]]
    rw [canonicalize_plain hplain, canonicalize_plain hplain, hfields]

/-- The adapter subset. Two values are the same to a set if their canonical forms are. -/
inductive Admissible (number : JsonNumber → Option ℤ) (key : Json → String) : Json → Prop
  | null : Admissible number key .null
  | bool (value : Bool) : Admissible number key (.bool value)
  | string (value : String) : Admissible number key (.string value)
  | number {n : JsonNumber} (h : (number n).isSome = true) : Admissible number key (.number n)
  | array {items : List Json} (h : ∀ x ∈ items, Admissible number key x) :
    Admissible number key (.array items)
  | bigint {value : String} (h : signedDecimal value = true) :
    Admissible number key (.object [("#bigint", .string value)])
  | set {items : List Json} (h : ∀ x ∈ items, Admissible number key x)
    (hdistinct : (items.map (form number key)).Nodup) :
    Admissible number key (.object [("#set", .array items)])
  | map {pairs : List (Json × Json)}
    (h₁ : ∀ e ∈ pairs, Admissible number key e.1) (h₂ : ∀ e ∈ pairs, Admissible number key e.2)
    (hdistinct : (pairs.map fun e => form number key e.1).Nodup) :
    Admissible number key (.object [("#map", .array (pairs.map pair))])
  | object {fields : List (String × Json)} (hplain : Plain fields)
    (h : ∀ f ∈ fields, Admissible number key f.2) : Admissible number key (.object fields)

theorem Accepted.admissible (v : Json) (h : Accepted number key v) :
    Admissible number key v := by
  induction v using parts_induction with
  | scalar v harray hobject =>
    cases v with
    | null => exact .null
    | bool value => exact .bool value
    | string value => exact .string value
    | number n =>
      obtain ⟨z, hz, -⟩ := canonicalize_number.mp h.eq_form
      exact .number (by rw [hz]; rfl)
    | array items => exact absurd rfl (harray items)
    | object fields => exact absurd rfl (hobject fields)
  | array items ih =>
    have hform := h.eq_form
    rw [canonicalize] at hform
    obtain ⟨ws, hws, -⟩ := Option.map_eq_some_iff.mp hform
    exact .array fun x hx => ih x hx ((canonicalizeItems_eq_some.mp hws).1 x hx)
  | bigint v =>
    have hform := h.eq_form
    rw [canonicalize_bigint] at hform
    obtain ⟨value, rfl, hvalue, -⟩ := bigint_eq_some.mp hform
    exact .bigint hvalue
  | set v ih =>
    obtain ⟨items, sorted, rfl, haccepted, hsorted, -⟩ := canonicalize_set.mp h.eq_form
    refine .set (fun x hx => ih items rfl x hx (haccepted x hx)) ?_
    have hnodup := (sortDistinct_eq_some hsorted).1
    rw [List.map_map] at hnodup
    exact nodup_map_of_imp (fun x _ y _ hxy => congrArg key hxy) hnodup
  | map v ih =>
    obtain ⟨pairs, sorted, rfl, haccepted, hsorted, -⟩ := canonicalize_map.mp h.eq_form
    refine .map (fun e he => (ih pairs rfl e he).1 (haccepted e he).1)
      (fun e he => (ih pairs rfl e he).2 (haccepted e he).2) ?_
    have hnodup := (sortDistinct_eq_some hsorted).1
    rw [List.map_map] at hnodup
    exact nodup_map_of_imp (fun e _ f _ hef => congrArg key hef) hnodup
  | plain fields hplain ih =>
    have hform := h.eq_form
    rw [canonicalize_plain hplain] at hform
    obtain ⟨gs, hgs, -⟩ := Option.map_eq_some_iff.mp hform
    exact .object hplain fun f hf => ih f hf ((canonicalizeFields_eq_some.mp hgs).1 f hf)

theorem Admissible.accepted (hkey : Faithful key) {v : Json} (h : Admissible number key v) :
    Accepted number key v := by
  induction h with
  | null => rfl
  | bool value => rfl
  | string value => rfl
  | number h =>
    obtain ⟨z, hz⟩ := Option.isSome_iff_exists.mp h
    exact (canonicalize_eq_some.mp (canonicalize_number.mpr ⟨z, hz, rfl⟩)).1
  | array h ih =>
    rw [Accepted, canonicalize, canonicalizeItems_eq_some.mpr ⟨ih, rfl⟩]
    rfl
  | bigint h =>
    rw [Accepted, canonicalize_bigint, bigint_eq_some.mpr ⟨_, rfl, h, rfl⟩]
    rfl
  | @set items h hdistinct ih =>
    have hnodup : ((items.map fun x => (key (form number key x), form number key x)).map
        Prod.fst).Nodup := by
      rw [List.map_map]
      exact nodup_map_of_imp (fun x hx y hy hxy =>
        hkey _ _ (form_floatFree x (ih x hx)) (form_floatFree y (ih y hy)) hxy) hdistinct
    exact (canonicalize_eq_some.mp
      (canonicalize_set.mpr ⟨items, _, rfl, ih, if_pos hnodup, rfl⟩)).1
  | @map pairs h₁ h₂ hdistinct ih₁ ih₂ =>
    have hnodup : ((pairs.map fun e => (key (form number key e.1), formPair number key e)).map
        Prod.fst).Nodup := by
      rw [List.map_map]
      exact nodup_map_of_imp (fun e he f hf hef =>
        hkey _ _ (form_floatFree e.1 (ih₁ e he)) (form_floatFree f.1 (ih₁ f hf)) hef) hdistinct
    exact (canonicalize_eq_some.mp (canonicalize_map.mpr
      ⟨pairs, _, rfl, fun e he => ⟨ih₁ e he, ih₂ e he⟩, if_pos hnodup, rfl⟩)).1
  | object hplain h ih =>
    rw [Accepted, canonicalize_plain hplain, canonicalizeFields_eq_some.mpr ⟨ih, rfl⟩]
    rfl

theorem accepted_iff (hkey : Faithful key) {v : Json} :
    Accepted number key v ↔ Admissible number key v :=
  ⟨Accepted.admissible v, Admissible.accepted hkey⟩

end OptoSync.CanonicalForm
