import OptoSync.CanonicalJson

/-!
# The canonical form as a normal form

Two values have one canonical form exactly if one is the other with the fields of its objects, the
elements of its `#set`s and the entries of its `#map`s in another order.
-/
namespace OptoSync
namespace CanonicalForm

theorem distinctKeys_array {items : List Json} :
    (Json.array items).distinctKeys = true ↔ ∀ v ∈ items, v.distinctKeys = true := by
  rw [Json.distinctKeys]
  induction items with
  | nil => simp [Json.distinctKeysItems]
  | cons v vs ih => simp [Json.distinctKeysItems, ih]

theorem distinctKeys_object {fields : List (String × Json)} :
    (Json.object fields).distinctKeys = true ↔
      (fields.map Prod.fst).Nodup ∧ ∀ f ∈ fields, f.2.distinctKeys = true := by
  rw [Json.distinctKeys, Bool.and_eq_true, decide_eq_true_iff]
  refine and_congr_right' ?_
  induction fields with
  | nil => simp [Json.distinctKeysFields]
  | cons f fs ih => simp [Json.distinctKeysFields, ih]

/-- The values differ in the order of fields, and of what a `#set` or a `#map` holds, at any
depth. -/
inductive Reordered : Json → Json → Prop
  | refl (v : Json) : Reordered v v
  | symm {v w : Json} (h : Reordered v w) : Reordered w v
  | trans {u v w : Json} (h₁ : Reordered u v) (h₂ : Reordered v w) : Reordered u w
  | item {v w : Json} (front back : List Json) (h : Reordered v w) :
    Reordered (.array (front ++ v :: back)) (.array (front ++ w :: back))
  | field {v w : Json} (front : List (String × Json)) (k : String) (back : List (String × Json))
    (h : Reordered v w) :
    Reordered (.object (front ++ (k, v) :: back)) (.object (front ++ (k, w) :: back))
  | keys {fields gs : List (String × Json)} (hnodup : (fields.map Prod.fst).Nodup)
    (h : fields.Perm gs) : Reordered (.object fields) (.object gs)
  | set {items others : List Json} (h : items.Perm others) :
    Reordered (.object [("#set", .array items)]) (.object [("#set", .array others)])
  | map {entries others : List Json} (h : entries.Perm others) :
    Reordered (.object [("#map", .array entries)]) (.object [("#map", .array others)])

variable {number : JsonNumber → Option ℤ} {key : Json → String}

theorem canonicalizeItems_congr {v w : Json}
    (h : canonicalize number key v = canonicalize number key w) (front back : List Json) :
    canonicalizeItems number key (front ++ v :: back) =
      canonicalizeItems number key (front ++ w :: back) := by
  induction front with
  | nil => simp only [List.nil_append, canonicalizeItems, h]
  | cons x xs ih => simp only [List.cons_append, canonicalizeItems, ih]

theorem canonicalizeFields_congr {v w : Json}
    (h : canonicalize number key v = canonicalize number key w)
    (front : List (String × Json)) (k : String) (back : List (String × Json)) :
    canonicalizeFields number key (front ++ (k, v) :: back) =
      canonicalizeFields number key (front ++ (k, w) :: back) := by
  induction front with
  | nil => simp only [List.nil_append, canonicalizeFields, h]
  | cons f fs ih => simp only [List.cons_append, canonicalizeFields, ih]

theorem object_of_canonicalize {fields : List (String × Json)} {w : Json}
    (h : canonicalize number key (.object fields) = some w) : ∃ gs, w = .object gs := by
  obtain ⟨v, rfl⟩ | ⟨v, rfl⟩ | ⟨v, rfl⟩ | hplain := tag_cases fields
  · rw [canonicalize_bigint] at h
    obtain ⟨value, -, -, rfl⟩ := bigint_eq_some.mp h
    exact ⟨_, rfl⟩
  · obtain ⟨_, _, -, -, -, rfl⟩ := canonicalize_set.mp h
    exact ⟨_, rfl⟩
  · obtain ⟨_, _, -, -, -, rfl⟩ := canonicalize_map.mp h
    exact ⟨_, rfl⟩
  · rw [canonicalize_plain hplain] at h
    obtain ⟨fs, -, rfl⟩ := Option.map_eq_some_iff.mp h
    exact ⟨_, rfl⟩

def asPair : Json → Option (Json × Json)
  | .array [k, v] => some (k, v)
  | _ => none

theorem array_of_canonicalize {v : Json} {ws : List Json}
    (h : canonicalize number key v = some (.array ws)) :
    ∃ vs, v = .array vs ∧ canonicalizeItems number key vs = some ws := by
  cases v with
  | array vs =>
    obtain ⟨us, hus, heq⟩ := Option.map_eq_some_iff.mp h
    exact ⟨vs, rfl, by rw [hus, Json.array.inj heq]⟩
  | object fields =>
    obtain ⟨gs, hgs⟩ := object_of_canonicalize h
    cases hgs
  | number n =>
    obtain ⟨z, -, hw⟩ := canonicalize_number.mp h
    cases hw
  | _ => cases h

theorem string_of_canonicalize {v : Json} {value : String}
    (h : canonicalize number key v = some (.string value)) : v = .string value := by
  cases v with
  | array vs =>
    obtain ⟨us, -, heq⟩ := Option.map_eq_some_iff.mp h
    cases heq
  | object fields =>
    obtain ⟨gs, hgs⟩ := object_of_canonicalize h
    cases hgs
  | number n =>
    obtain ⟨z, -, hw⟩ := canonicalize_number.mp h
    cases hw
  | string text => exact Option.some.inj h
  | _ => cases h

theorem mapM_asPair {ws : List Json} {es : List (Json × Json)} :
    ws.mapM asPair = some es ↔ ws = es.map pair := by
  induction ws generalizing es with
  | nil => simp [eq_comm]
  | cons w ws ih =>
    have hpair : ∀ e, asPair w = some e ↔ w = pair e := by
      intro e
      constructor
      · intro h
        unfold asPair at h
        split at h
        · rw [← Option.some.inj h]
          rfl
        · cases h
      · rintro rfl
        rfl
    simp only [List.mapM_cons, Option.pure_def, Option.bind_eq_bind, Option.bind_eq_some_iff,
      Option.some.injEq, hpair, ih]
    constructor
    · rintro ⟨e, rfl, es, rfl, rfl⟩
      rfl
    · intro h
      cases es with
      | nil => cases h
      | cons e es =>
        obtain ⟨rfl, rfl⟩ := List.cons.inj h
        exact ⟨e, rfl, es, rfl, rfl⟩

theorem form_pair {e : Json × Json} (hk : Accepted number key e.1) (hv : Accepted number key e.2) :
    form number key (pair e) = pair (formPair number key e) := by
  have hform : canonicalize number key (pair e) = some (pair (formPair number key e)) := by
    simp [pair, formPair, canonicalize, canonicalizeItems, hk.eq_form, hv.eq_form]
  exact (canonicalize_eq_some.mp hform).2

/-- Entries are pairs before and after. -/
theorem canonicalizeEntries_eq (items : List Json) :
    canonicalizeEntries number key items =
      (canonicalizeItems number key items).bind fun ws => ws.mapM asPair := by
  refine Option.ext fun es => ?_
  simp only [canonicalizeEntries_eq_some, Option.bind_eq_some_iff, mapM_asPair,
    canonicalizeItems_eq_some]
  constructor
  · rintro ⟨pairs, rfl, haccepted, rfl⟩
    have hparts : ∀ e ∈ pairs, canonicalize number key (pair e) =
        some (pair (formPair number key e)) := by
      intro e he
      obtain ⟨hk, hv⟩ := haccepted e he
      simp [pair, formPair, canonicalize, canonicalizeItems, hk.eq_form, hv.eq_form]
    refine ⟨_, ⟨?_, rfl⟩, ?_⟩
    · intro v hv
      obtain ⟨e, he, rfl⟩ := List.mem_map.mp hv
      exact (canonicalize_eq_some.mp (hparts e he)).1
    · rw [List.map_map, List.map_map]
      exact List.map_congr_left fun e he => (canonicalize_eq_some.mp (hparts e he)).2
  · rintro ⟨ws, ⟨haccepted, rfl⟩, hforms⟩
    induction items generalizing es with
    | nil =>
      obtain rfl : es = [] := by simpa using hforms.symm
      exact ⟨[], rfl, by simp, rfl⟩
    | cons v vs ih =>
      obtain ⟨hv, hvs⟩ := List.forall_mem_cons.mp haccepted
      cases es with
      | nil => cases hforms
      | cons e es =>
        obtain ⟨hhead, htail⟩ := List.cons.inj hforms
        obtain ⟨pairs, rfl, hpairs, rfl⟩ := ih es hvs htail
        obtain ⟨inner, rfl, hinner⟩ := array_of_canonicalize (hv.eq_form.trans (congrArg some hhead))
        obtain ⟨haccepted', hmap⟩ := canonicalizeItems_eq_some.mp hinner
        obtain ⟨a, b, rfl⟩ : ∃ a b, inner = [a, b] := by
          have hlength := congrArg List.length hmap
          exact List.length_eq_two.mp (by simpa using hlength)
        refine ⟨(a, b) :: pairs, rfl, List.forall_mem_cons.mpr ⟨?_, hpairs⟩, ?_⟩
        · exact ⟨haccepted' a (by simp), haccepted' b (by simp)⟩
        · obtain ⟨hfirst, hsecond⟩ : form number key a = e.1 ∧ form number key b = e.2 := by
            simpa using hmap
          rw [List.map_cons, formPair, hfirst, hsecond]

/-- What a tag makes of the canonical form of the value under it. -/
def tagged (key : Json → String) (tag : String) (w : Json) : Option Json :=
  if tag = "#bigint" then bigint w
  else if tag = "#set" then
    match w with
    | .array ws => (sortDistinct (ws.map fun v => (key v, v))).map fun sorted =>
        .object [("#set", .array sorted)]
    | _ => none
  else if tag = "#map" then
    match w with
    | .array ws => (ws.mapM asPair).bind fun entries =>
        (sortDistinct (entries.map fun e => (key e.1, e))).map fun sorted =>
          .object [("#map", .array (sorted.map pair))]
    | _ => none
  else some (.object [(tag, w)])

theorem tagged_set (ws : List Json) :
    tagged key "#set" (.array ws) = (sortDistinct (ws.map fun v => (key v, v))).map fun sorted =>
      .object [("#set", .array sorted)] := by
  simp [tagged]

theorem tagged_map (ws : List Json) :
    tagged key "#map" (.array ws) = (ws.mapM asPair).bind fun entries =>
      (sortDistinct (entries.map fun e => (key e.1, e))).map fun sorted =>
        .object [("#map", .array (sorted.map pair))] := by
  simp [tagged]

/-- Only an array has an array for its form. -/
theorem bind_array_none {α : Type} {v : Json} {f : Json → Option α} (hv : ∀ vs, v ≠ .array vs)
    (hf : ∀ w, (∀ ws, w ≠ .array ws) → f w = none) : (canonicalize number key v).bind f = none := by
  rw [Option.bind_eq_none_iff]
  intro w hw
  refine hf w fun ws hws => ?_
  obtain ⟨vs, rfl, -⟩ := array_of_canonicalize (hws ▸ hw)
  exact hv vs rfl

theorem canonicalize_single (tag : String) (v : Json) :
    canonicalize number key (.object [(tag, v)]) =
      (canonicalize number key v).bind (tagged key tag) := by
  by_cases hbigint : tag = "#bigint"
  · subst hbigint
    rw [canonicalize_bigint]
    refine Option.ext fun w => ?_
    have htagged : tagged key "#bigint" = bigint := by
      funext u
      simp [tagged]
    simp only [htagged, Option.bind_eq_some_iff, bigint_eq_some]
    constructor
    · rintro ⟨value, rfl, hdecimal, rfl⟩
      exact ⟨_, rfl, value, rfl, hdecimal, rfl⟩
    · rintro ⟨u, hu, value, rfl, hdecimal, rfl⟩
      obtain rfl := string_of_canonicalize hu
      exact ⟨value, rfl, hdecimal, rfl⟩
  by_cases htag : tag = "#set" ∨ tag = "#map"
  case neg =>
    obtain ⟨hset, hmap⟩ := not_or.mp htag
    have hplain : Plain [(tag, v)] := by
      rintro k w ⟨⟩
      exact ⟨hbigint, hset, hmap⟩
    have htagged : tagged key tag = fun w => some (.object [(tag, w)]) := by
      funext w
      simp [tagged, hbigint, hset, hmap]
    rw [canonicalize_plain hplain, htagged]
    cases hv : canonicalize number key v <;> simp [canonicalizeFields, hv, sortByKey]
  by_cases harray : ∃ vs, v = .array vs
  · obtain ⟨vs, rfl⟩ := harray
    have harray : canonicalize number key (.array vs) =
        (canonicalizeItems number key vs).map .array := by rw [canonicalize]
    obtain rfl | rfl := htag
    · rw [harray, Option.bind_map]
      simp only [Function.comp_def, tagged_set]
      simp [canonicalize, Option.map_eq_bind]
    · rw [harray, Option.bind_map]
      simp only [Function.comp_def, tagged_map]
      simp only [canonicalize, canonicalizeEntries_eq, Option.map_eq_bind, Function.comp_def,
        String.reduceEq, if_false, if_true, Option.bind_eq_bind, Option.bind_assoc]
      rfl
  · have hv : ∀ vs, v ≠ .array vs := fun vs h => harray ⟨vs, h⟩
    rw [bind_array_none hv]
    · obtain rfl | rfl := htag
      all_goals
        cases v with
        | array vs => exact absurd rfl (hv vs)
        | _ => simp [canonicalize]
    · intro w hw
      obtain rfl | rfl := htag
      all_goals
        cases w with
        | array ws => exact absurd rfl (hw ws)
        | _ => simp [tagged]

theorem perm_mapM {α β : Type} {f : α → Option β} {xs ys : List α} (h : xs.Perm ys)
    {zs : List β} (hzs : xs.mapM f = some zs) : ∃ ws, ys.mapM f = some ws ∧ zs.Perm ws := by
  induction h generalizing zs with
  | nil => exact ⟨zs, hzs, .refl _⟩
  | cons x _ ih =>
    simp only [List.mapM_cons, Option.pure_def, Option.bind_eq_bind, Option.bind_eq_some_iff,
      Option.some.injEq] at hzs ⊢
    obtain ⟨z, hz, zs, hzs, rfl⟩ := hzs
    obtain ⟨ws, hws, hperm⟩ := ih hzs
    exact ⟨z :: ws, ⟨z, hz, ws, hws, rfl⟩, hperm.cons z⟩
  | swap x y l =>
    simp only [List.mapM_cons, Option.pure_def, Option.bind_eq_bind, Option.bind_eq_some_iff,
      Option.some.injEq] at hzs ⊢
    obtain ⟨b, hb, _, ⟨a, ha, zs, hzs, rfl⟩, rfl⟩ := hzs
    exact ⟨a :: b :: zs, ⟨a, ha, _, ⟨b, hb, zs, hzs, rfl⟩, rfl⟩, .swap a b zs⟩
  | trans _ _ ih₁ ih₂ =>
    obtain ⟨ws, hws, h₁⟩ := ih₁ hzs
    obtain ⟨us, hus, h₂⟩ := ih₂ hws
    exact ⟨us, hus, h₁.trans h₂⟩

/-- A `#set` or a `#map` takes no notice of the order in its array. -/
theorem tagged_perm {tag : String} (htag : tag = "#set" ∨ tag = "#map") {ws us : List Json}
    (h : ws.Perm us) : tagged key tag (.array ws) = tagged key tag (.array us) := by
  obtain rfl | rfl := htag
  · rw [tagged_set, tagged_set, sortDistinct_perm (h.map fun v => (key v, v))]
  · rw [tagged_map, tagged_map]
    cases hws : ws.mapM asPair with
    | none =>
      cases hus : us.mapM asPair with
      | none => rfl
      | some es =>
        obtain ⟨fs, hfs, -⟩ := perm_mapM h.symm hus
        rw [hws] at hfs
        cases hfs
    | some es =>
      obtain ⟨fs, hfs, hperm⟩ := perm_mapM h hws
      rw [hfs, Option.bind_some, Option.bind_some, sortDistinct_perm (hperm.map _)]

theorem canonicalize_array_perm {tag : String} (htag : tag = "#set" ∨ tag = "#map")
    {vs us : List Json} (h : vs.Perm us) :
    canonicalize number key (.object [(tag, .array vs)]) =
      canonicalize number key (.object [(tag, .array us)]) := by
  rw [canonicalize_single, canonicalize_single]
  refine Option.ext fun w => ?_
  simp only [Option.bind_eq_some_iff, canonicalize, Option.map_eq_some_iff,
    canonicalizeItems_eq_some]
  have hforms : tagged key tag (.array (vs.map (form number key))) =
      tagged key tag (.array (us.map (form number key))) := tagged_perm htag (h.map _)
  constructor
  · rintro ⟨_, ⟨_, ⟨haccepted, rfl⟩, rfl⟩, hw⟩
    exact ⟨_, ⟨_, ⟨fun v hv => haccepted v (h.mem_iff.mpr hv), rfl⟩, rfl⟩, hforms ▸ hw⟩
  · rintro ⟨_, ⟨_, ⟨haccepted, rfl⟩, rfl⟩, hw⟩
    exact ⟨_, ⟨_, ⟨fun v hv => haccepted v (h.mem_iff.mp hv), rfl⟩, rfl⟩, hforms ▸ hw⟩

theorem plain_of_two {fields : List (String × Json)} (h : fields.length ≠ 1) : Plain fields := by
  rintro k v rfl
  exact absurd rfl h

/-- Reordered values are accepted together, with one canonical form. -/
theorem Reordered.canonicalize_eq {v w : Json} (h : Reordered v w) :
    canonicalize number key v = canonicalize number key w := by
  induction h with
  | refl v => rfl
  | symm _ ih => exact ih.symm
  | trans _ _ ih₁ ih₂ => exact ih₁.trans ih₂
  | item front back _ ih =>
    rw [canonicalize, canonicalize, canonicalizeItems_congr ih]
  | field front k back _ ih =>
    by_cases hsingle : front = [] ∧ back = []
    · obtain ⟨rfl, rfl⟩ := hsingle
      rw [List.nil_append, List.nil_append, canonicalize_single, canonicalize_single, ih]
    · have hlong : ∀ x : Json, (front ++ (k, x) :: back).length ≠ 1 := by
        intro x hlength
        refine hsingle ⟨List.length_eq_zero_iff.mp ?_, List.length_eq_zero_iff.mp ?_⟩ <;>
          simp at hlength <;> omega
      rw [canonicalize_plain (plain_of_two (hlong _)), canonicalize_plain (plain_of_two (hlong _)),
        canonicalizeFields_congr ih]
  | @keys fields gs hnodup hperm =>
    by_cases hplain : Plain fields
    · rw [canonicalize_plain hplain, canonicalize_plain (hplain.of_keys (hperm.symm.map _))]
      refine Option.ext fun w => ?_
      simp only [Option.map_eq_some_iff, canonicalizeFields_eq_some]
      have hsorted : sortByKey (fields.map fun f => (f.1, form number key f.2)) =
          sortByKey (gs.map fun f => (f.1, form number key f.2)) := by
        refine sortByKey_eq_of_perm (hperm.map _) ?_
        rwa [List.map_map]
      constructor
      · rintro ⟨_, ⟨haccepted, rfl⟩, rfl⟩
        exact ⟨_, ⟨fun f hf => haccepted f (hperm.mem_iff.mpr hf), rfl⟩, by rw [hsorted]⟩
      · rintro ⟨_, ⟨haccepted, rfl⟩, rfl⟩
        exact ⟨_, ⟨fun f hf => haccepted f (hperm.mem_iff.mp hf), rfl⟩, by rw [hsorted]⟩
    · -- a tagged value has one field
      obtain ⟨k, v, rfl⟩ : ∃ k v, fields = [(k, v)] := by
        by_contra hno
        exact hplain fun k v hf => absurd ⟨k, v, hf⟩ hno
      rw [List.perm_singleton.mp hperm.symm]
  | set hperm => exact canonicalize_array_perm (.inl rfl) hperm
  | map hperm => exact canonicalize_array_perm (.inr rfl) hperm

theorem Reordered.items {items : List Json} {f : Json → Json}
    (h : ∀ v ∈ items, Reordered v (f v)) (front : List Json) :
    Reordered (.array (front ++ items)) (.array (front ++ items.map f)) := by
  induction items generalizing front with
  | nil => exact .refl _
  | cons v vs ih =>
    obtain ⟨hv, hvs⟩ := List.forall_mem_cons.mp h
    have htail := ih hvs (front ++ [f v])
    rw [List.append_assoc, List.append_assoc] at htail
    exact .trans (.item front vs hv) htail

theorem Reordered.fields {fields : List (String × Json)} {f : Json → Json}
    (h : ∀ e ∈ fields, Reordered e.2 (f e.2)) (front : List (String × Json)) :
    Reordered (.object (front ++ fields)) (.object (front ++ fields.map fun e => (e.1, f e.2))) := by
  induction fields generalizing front with
  | nil => exact .refl _
  | cons e es ih =>
    obtain ⟨he, hes⟩ := List.forall_mem_cons.mp h
    have htail := ih hes (front ++ [(e.1, f e.2)])
    rw [List.append_assoc, List.append_assoc] at htail
    exact .trans (.field front e.1 es he) htail

theorem Reordered.single {tag : String} {v w : Json} (h : Reordered v w) :
    Reordered (.object [(tag, v)]) (.object [(tag, w)]) := .field [] tag [] h

theorem Reordered.pair {e : Json × Json} {k v : Json} (hk : Reordered e.1 k)
    (hv : Reordered e.2 v) : Reordered (CanonicalForm.pair e) (.array [k, v]) :=
  .trans (.item [] [e.2] hk) (.item [k] [] hv)

theorem reordered_form (hnumber : ∀ n z, number n = some z → n = .int z) (v : Json)
    (hdistinct : v.distinctKeys = true) (h : Accepted number key v) :
    Reordered v (form number key v) := by
  induction v using parts_induction with
  | scalar v harray hobject =>
    cases v with
    | number n =>
      obtain ⟨z, hz, hw⟩ := canonicalize_number.mp h.eq_form
      rw [hw, hnumber n z hz]
      exact .refl _
    | array items => exact absurd rfl (harray items)
    | object fields => exact absurd rfl (hobject fields)
    | _ => exact .refl _
  | array items ih =>
    obtain ⟨ws, hws, hform⟩ := Option.map_eq_some_iff.mp h.eq_form
    obtain ⟨haccepted, rfl⟩ := canonicalizeItems_eq_some.mp hws
    rw [← hform]
    exact Reordered.items (fun v hv => ih v hv (distinctKeys_array.mp hdistinct v hv)
      (haccepted v hv)) []
  | bigint v =>
    have hform := h.eq_form
    rw [canonicalize_bigint] at hform
    obtain ⟨value, rfl, -, hform⟩ := bigint_eq_some.mp hform
    rw [hform]
    exact .refl _
  | set v ih =>
    obtain ⟨items, sorted, rfl, haccepted, hsorted, hform⟩ := canonicalize_set.mp h.eq_form
    have hitems := distinctKeys_array.mp ((distinctKeys_object.mp hdistinct).2 _
      (List.mem_singleton.mpr rfl))
    obtain ⟨-, hperm⟩ := sortDistinct_eq_some hsorted
    rw [List.map_map] at hperm
    rw [hform]
    refine .trans (Reordered.single (Reordered.items (fun v hv =>
      ih items rfl v hv (hitems v hv) (haccepted v hv)) [])) ?_
    exact .set hperm.symm
  | map v ih =>
    obtain ⟨pairs, sorted, rfl, haccepted, hsorted, hform⟩ := canonicalize_map.mp h.eq_form
    have hentries := distinctKeys_array.mp ((distinctKeys_object.mp hdistinct).2 _
      (List.mem_singleton.mpr rfl))
    obtain ⟨-, hperm⟩ := sortDistinct_eq_some hsorted
    rw [List.map_map] at hperm
    have hpairs : ∀ entry ∈ pairs.map CanonicalForm.pair,
        Reordered entry (form number key entry) := by
      intro entry hentry
      obtain ⟨e, he, rfl⟩ := List.mem_map.mp hentry
      obtain ⟨hk, hv⟩ := haccepted e he
      have hparts := distinctKeys_array.mp (hentries _ hentry)
      obtain ⟨ihk, ihv⟩ := ih pairs rfl e he
      rw [form_pair hk hv]
      exact Reordered.pair (ihk (hparts _ (by simp)) hk) (ihv (hparts _ (by simp)) hv)
    have hforms : (pairs.map CanonicalForm.pair).map (form number key) =
        (pairs.map (formPair number key)).map CanonicalForm.pair := by
      rw [List.map_map, List.map_map]
      exact List.map_congr_left fun e he => form_pair (haccepted e he).1 (haccepted e he).2
    have hitems := Reordered.items hpairs []
    rw [List.nil_append, List.nil_append, hforms] at hitems
    rw [hform]
    exact .trans (Reordered.single hitems) (.map (hperm.symm.map _))
  | plain fields hplain ih =>
    have hform := h.eq_form
    rw [canonicalize_plain hplain] at hform
    obtain ⟨fs, hfs, hform⟩ := Option.map_eq_some_iff.mp hform
    obtain ⟨haccepted, rfl⟩ := canonicalizeFields_eq_some.mp hfs
    obtain ⟨hnodup, hfields⟩ := distinctKeys_object.mp hdistinct
    rw [← hform]
    refine .trans (Reordered.fields (fun f hf => ih f hf (hfields f hf) (haccepted f hf)) []) ?_
    refine .keys ?_ (sortByKey_perm _).symm
    rwa [List.nil_append, List.map_map]

end CanonicalForm

namespace CanonicalJson

open CanonicalForm

theorem integerNumber_eq_some {n : JsonNumber} {z : ℤ} (h : integerNumber n = some z) :
    n = .int z := by
  cases n with
  | int value =>
    rw [integerNumber, Option.ite_none_right_eq_some] at h
    rw [Option.some.inj h.2]
  | float literal => cases h

/-- The canonical form of a value is its own canonical form, and stands for all values that differ
from it in order alone. -/
structure NormalForm (v : Json) : Prop where
  idempotent : ∀ c, canonicalizeJson v = some c → canonicalizeJson c = some c
  complete : ∀ w : Json, w.distinctKeys = true → (canonicalizeJson v).isSome = true →
    (canonicalizeJson w).isSome = true →
      (canonicalJsonBytes v = canonicalJsonBytes w ↔ Reordered v w)

/-- `distinctKeys` holds of every `serde_json::Value`. -/
theorem canonicalizeJson_normal_form (v : Json) (hdistinct : v.distinctKeys = true) :
    NormalForm v := by
  constructor
  case idempotent =>
    intro c hc
    obtain ⟨haccepted, rfl⟩ := canonicalize_eq_some.mp hc
    have hfix : ∀ n z, integerNumber n = some z → integerNumber (.int z) = some z :=
      fun n z h => integerNumber_eq_some h ▸ h
    exact (transfers hfix v toString toString faithful_toString faithful_toString haccepted).2
  case complete =>
    intro w hw hv haw
    have hforms : canonicalJsonBytes v = canonicalJsonBytes w ↔
        form integerNumber toString v = form integerNumber toString w := by
      rw [canonicalJsonBytes, canonicalJsonBytes, canonicalizeJson, canonicalizeJson,
        Accepted.eq_form hv, Accepted.eq_form haw, Option.map_some, Option.map_some,
        Option.some.injEq]
      constructor
      · exact faithful_toString _ _ (form_floatFree v hv) (form_floatFree w haw)
      · exact congrArg toString
    rw [hforms]
    constructor
    · intro h
      have hforward := reordered_form (fun _ _ => integerNumber_eq_some) v hdistinct hv
      have hback := reordered_form (fun _ _ => integerNumber_eq_some) w hw haw
      exact hforward.trans (h ▸ hback.symm)
    · intro h
      have hsame : canonicalize integerNumber toString v = canonicalize integerNumber toString w :=
        h.canonicalize_eq
      rw [Accepted.eq_form hv, Accepted.eq_form haw] at hsame
      exact Option.some.inj hsame

/-- A set of sets, and a field beside it. -/
theorem canonicalizeJson_normal_form_sets :
    NormalForm (.object [("sets", .object [("#set", .array [
      .object [("#set", .array [.number (.int 2), .number (.int 1)])],
      .object [("#set", .array [])]])]), ("name", .string "n")]) :=
  canonicalizeJson_normal_form _ (by decide)

end CanonicalJson
end OptoSync
