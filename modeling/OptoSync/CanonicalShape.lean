import OptoSync.CanonicalNormalForm
import OptoSync.JsonBytes
import OptoSync.StreamLine

/-!
# The shape of a canonical form

What the canonical form has of the value: its depth, and the size of its text. Its keys are in order,
so it comes back from the document that spells it.
-/
namespace OptoSync
namespace CanonicalForm

variable {number : JsonNumber → Option ℤ} {key : Json → String}

theorem depth_array_le {items : List Json} {n : ℕ} :
    (Json.array items).depth ≤ n ↔ 1 ≤ n ∧ ∀ v ∈ items, v.depth + 1 ≤ n := by
  rw [Json.depth]
  cases n with
  | zero => simp
  | succ n => simp [Json.depthItems_le]

theorem depth_object_le {fields : List (String × Json)} {n : ℕ} :
    (Json.object fields).depth ≤ n ↔ 1 ≤ n ∧ ∀ f ∈ fields, f.2.depth + 1 ≤ n := by
  rw [Json.depth]
  cases n with
  | zero => simp
  | succ n => simp [Json.depthFields_le]

theorem depth_array_congr {items others : List Json}
    (h : (items.map Json.depth).Perm (others.map Json.depth)) :
    (Json.array items).depth = (Json.array others).depth := by
  refine eq_of_forall_ge_iff fun n => ?_
  rw [depth_array_le, depth_array_le]
  refine and_congr_right' ?_
  have hall : ∀ items : List Json, (∀ v ∈ items, v.depth + 1 ≤ n) ↔
      ∀ d ∈ items.map Json.depth, d + 1 ≤ n := fun items => by rw [List.forall_mem_map]
  rw [hall, hall]
  exact ⟨fun hle d hd => hle d (h.mem_iff.mpr hd), fun hle d hd => hle d (h.mem_iff.mp hd)⟩

theorem depth_form (v : Json) (h : Accepted number key v) : (form number key v).depth = v.depth := by
  refine form_induction (P := fun v w => w.depth = v.depth) ?scalar ?numeral ?array ?bigint ?set ?map
    ?plain v h
  case scalar => exact fun _ _ _ _ => rfl
  case numeral => exact fun _ _ _ => rfl
  case array =>
    intro items ih
    refine depth_array_congr ?_
    rw [List.map_map]
    exact .of_eq (List.map_congr_left ih)
  case bigint => exact fun _ => rfl
  case set =>
    intro items sorted hperm ih
    have harray : (Json.array sorted).depth = (Json.array items).depth := by
      refine depth_array_congr ((hperm.map _).trans ?_)
      rw [List.map_map]
      exact .of_eq (List.map_congr_left ih)
    simp only [Json.depth, Json.depthFields] at harray ⊢
    omega
  case map =>
    intro pairs sorted hperm ih
    have harray : (Json.array (sorted.map pair)).depth = (Json.array (pairs.map pair)).depth := by
      refine depth_array_congr (((hperm.map _).map _).trans ?_)
      rw [List.map_map, List.map_map, List.map_map]
      refine .of_eq (List.map_congr_left fun e he => ?_)
      obtain ⟨h1, h2⟩ := ih e he
      simp only [Function.comp_apply, pair, formPair, Json.depth, Json.depthItems, h1, h2]
    simp only [Json.depth, Json.depthFields] at harray ⊢
    omega
  case plain =>
    intro fields _ ih
    refine eq_of_forall_ge_iff fun n => ?_
    rw [depth_object_le, depth_object_le]
    refine and_congr_right' ?_
    constructor
    · intro hall f hf
      rw [← ih f hf]
      exact hall (f.1, form number key f.2)
        ((sortByKey_perm _).mem_iff.mpr (List.mem_map.mpr ⟨f, hf, rfl⟩))
    · intro hall g hg
      obtain ⟨f, hf, rfl⟩ := List.mem_map.mp ((sortByKey_perm _).mem_iff.mp hg)
      rw [ih f hf]
      exact hall f hf

mutual
/-- The keys of each object are in order, and none is there twice. -/
def sortedKeys : Json → Bool
  | .array items => sortedKeysItems items
  | .object fields => decide ((fields.map Prod.fst).Pairwise (· < ·)) && sortedKeysFields fields
  | _ => true

def sortedKeysItems : List Json → Bool
  | [] => true
  | v :: vs => sortedKeys v && sortedKeysItems vs

def sortedKeysFields : List (String × Json) → Bool
  | [] => true
  | (_, v) :: fs => sortedKeys v && sortedKeysFields fs
end

theorem sortedKeys_array {items : List Json} :
    sortedKeys (.array items) = true ↔ ∀ v ∈ items, sortedKeys v = true := by
  rw [sortedKeys]
  induction items with
  | nil => simp [sortedKeysItems]
  | cons v vs ih => simp [sortedKeysItems, ih]

theorem sortedKeys_object {fields : List (String × Json)} :
    sortedKeys (.object fields) = true ↔
      (fields.map Prod.fst).Pairwise (· < ·) ∧ ∀ f ∈ fields, sortedKeys f.2 = true := by
  rw [sortedKeys, Bool.and_eq_true, decide_eq_true_iff]
  refine and_congr_right' ?_
  induction fields with
  | nil => simp [sortedKeysFields]
  | cons f fs ih => simp [sortedKeysFields, ih]

theorem sortedKeys_single {tag : String} {v : Json} :
    sortedKeys (.object [(tag, v)]) = true ↔ sortedKeys v = true := by
  simp [sortedKeys_object]

theorem sortByKey_pairwise_lt {α : Type} {entries : List (String × α)}
    (h : (entries.map Prod.fst).Nodup) :
    ((sortByKey entries).map Prod.fst).Pairwise (· < ·) := by
  have hnodup : ((sortByKey entries).map Prod.fst).Nodup :=
    ((sortByKey_perm entries).map Prod.fst).nodup_iff.mpr h
  have hle : ((sortByKey entries).map Prod.fst).Pairwise (· ≤ ·) :=
    List.pairwise_map.mpr (sortByKey_sorted entries)
  exact (hle.and hnodup).imp fun h => lt_of_le_of_ne h.1 h.2

theorem sortedKeys_form (v : Json) (h : Accepted number key v) (hdistinct : v.distinctKeys = true) :
    sortedKeys (form number key v) = true := by
  refine form_induction (P := fun v w => v.distinctKeys = true → sortedKeys w = true) ?scalar
    ?numeral ?array ?bigint ?set ?map ?plain v h hdistinct
  case scalar =>
    intro v _ harray hobject _
    cases v with
    | array items => exact absurd rfl (harray items)
    | object fields => exact absurd rfl (hobject fields)
    | _ => rfl
  case numeral => exact fun _ _ _ _ => rfl
  case array =>
    intro items ih hdistinct
    rw [distinctKeys_array] at hdistinct
    rw [sortedKeys_array]
    intro w hw
    obtain ⟨x, hx, rfl⟩ := List.mem_map.mp hw
    exact ih x hx (hdistinct x hx)
  case bigint => exact fun _ _ => sortedKeys_single.mpr rfl
  case set =>
    intro items sorted hperm ih hdistinct
    have hitems := distinctKeys_array.mp ((distinctKeys_object.mp hdistinct).2 _
      (List.mem_singleton.mpr rfl))
    rw [sortedKeys_single, sortedKeys_array]
    intro w hw
    obtain ⟨x, hx, rfl⟩ := List.mem_map.mp (hperm.mem_iff.mp hw)
    exact ih x hx (hitems x hx)
  case map =>
    intro pairs sorted hperm ih hdistinct
    have hentries := distinctKeys_array.mp ((distinctKeys_object.mp hdistinct).2 _
      (List.mem_singleton.mpr rfl))
    rw [sortedKeys_single, sortedKeys_array]
    intro w hw
    obtain ⟨q, hq, rfl⟩ := List.mem_map.mp hw
    obtain ⟨e, he, rfl⟩ := List.mem_map.mp (hperm.mem_iff.mp hq)
    have hparts := distinctKeys_array.mp (hentries _ (List.mem_map.mpr ⟨e, he, rfl⟩))
    obtain ⟨h1, h2⟩ := ih e he
    rw [pair, sortedKeys_array]
    intro x hx
    simp only [List.mem_cons, List.not_mem_nil, or_false] at hx
    rcases hx with rfl | rfl
    · exact h1 (hparts _ (by simp))
    · exact h2 (hparts _ (by simp))
  case plain =>
    intro fields _ ih hdistinct
    obtain ⟨hnodup, hfields⟩ := distinctKeys_object.mp hdistinct
    rw [sortedKeys_object]
    refine ⟨sortByKey_pairwise_lt (by rwa [List.map_map]), ?_⟩
    intro g hg
    obtain ⟨f, hf, rfl⟩ := List.mem_map.mp ((sortByKey_perm _).mem_iff.mp hg)
    exact ih f hf (hfields f hf)

end CanonicalForm

namespace Document

open CanonicalForm (sortedKeys sortedKeys_array sortedKeys_object)

theorem ofFields_eq_map (fields : List (String × Json)) :
    ofFields fields = fields.map fun f => (⟨f.1, true⟩, ofJson f.2) := by
  induction fields with
  | nil => rfl
  | cons f fs ih => rw [ofFields, ih, List.map_cons]

mutual
theorem depth_ofJson (v : Json) : (ofJson v).depth = v.depth := by
  cases v with
  | array items => rw [ofJson, depth, Json.depth, depth_ofItems items]
  | object fields => rw [ofJson, depth, Json.depth, depth_ofFields fields]
  | _ => rfl

theorem depth_ofItems (items : List Json) : depthItems (ofItems items) = Json.depthItems items := by
  cases items with
  | nil => rfl
  | cons v vs => rw [ofItems, depthItems, Json.depthItems, depth_ofJson v, depth_ofItems vs]

theorem depth_ofFields (fields : List (String × Json)) :
    depthMembers (ofFields fields) = Json.depthFields fields := by
  cases fields with
  | nil => rfl
  | cons f fs =>
    rw [ofFields, depthMembers, Json.depthFields, depth_ofJson f.2, depth_ofFields fs]
end

theorem insertField_of_lt {key : String} {v : Json} {fields : List (String × Json)}
    (h : ∀ f ∈ fields, key < f.1) : insertField key v fields = (key, v) :: fields := by
  cases fields with
  | nil => rfl
  | cons f fs => rw [insertField, if_pos (h f (by simp))]

mutual
/-- A map keeps a value whose keys are in order. -/
theorem value_ofJson (v : Json) (h : sortedKeys v = true) : (ofJson v).value = v := by
  cases v with
  | array items => rw [ofJson, value, valueItems_ofItems items (sortedKeys_array.mp h)]
  | object fields =>
    obtain ⟨hsorted, hfields⟩ := sortedKeys_object.mp h
    rw [ofJson, value, valueMembers_ofFields fields hsorted hfields]
  | _ => rfl

theorem valueItems_ofItems (items : List Json) (h : ∀ v ∈ items, sortedKeys v = true) :
    valueItems (ofItems items) = items := by
  cases items with
  | nil => rfl
  | cons v vs =>
    rw [ofItems, valueItems, value_ofJson v (h v (by simp)),
      valueItems_ofItems vs fun w hw => h w (by simp [hw])]

theorem valueMembers_ofFields (fields : List (String × Json))
    (hsorted : (fields.map Prod.fst).Pairwise (· < ·)) (h : ∀ f ∈ fields, sortedKeys f.2 = true) :
    valueMembers (ofFields fields) = fields := by
  cases fields with
  | nil => rfl
  | cons f fs =>
    obtain ⟨hfirst, hrest⟩ := List.pairwise_cons.mp hsorted
    have hlt : ∀ g ∈ fs, f.1 < g.1 := fun g hg => hfirst g.1 (List.mem_map.mpr ⟨g, hg, rfl⟩)
    have hnot : f.1 ∉ fs.map Prod.fst := fun hmem => lt_irrefl _ (hfirst f.1 hmem)
    rw [ofFields, valueMembers, value_ofJson f.2 (h f (by simp)),
      valueMembers_ofFields fs hrest fun g hg => h g (by simp [hg])]
    dsimp only
    rw [if_neg hnot, insertField_of_lt hlt]
end

end Document

namespace CanonicalJson.Go

open CanonicalForm
open Document (encode encode_append encode_ascii_cons)
open Json (print printItems printFields printString printInt)

/-- The bytes of a string in the text, with its quotes. -/
def stringSize (value : String) : ℕ := (encode ('\"' :: printString htmlEscaped value)).length

mutual
/-- The bytes of the canonical text of a value. -/
def encodedSize : Json → ℕ
  | .null => 4
  | .bool value => if value then 4 else 5
  | .number value => ((canonicalNumber value).map fun z => (printInt z).length).getD 0
  | .string value => stringSize value
  | .array items => max 2 (itemsSize items + 1)
  | .object fields => max 2 (fieldsSize fields + 1)

/-- Each item with what follows it. -/
def itemsSize : List Json → ℕ
  | [] => 0
  | v :: vs => encodedSize v + 1 + itemsSize vs

def fieldsSize : List (String × Json) → ℕ
  | [] => 0
  | (k, v) :: fs => stringSize k + 1 + (encodedSize v + 1) + fieldsSize fs
end

theorem itemsSize_eq_sum (items : List Json) :
    itemsSize items = (items.map fun v => encodedSize v + 1).sum := by
  induction items with
  | nil => rfl
  | cons v vs ih => rw [itemsSize, ih, List.map_cons, List.sum_cons]

theorem fieldsSize_eq_sum (fields : List (String × Json)) :
    fieldsSize fields = (fields.map fun f => stringSize f.1 + 1 + (encodedSize f.2 + 1)).sum := by
  induction fields with
  | nil => rfl
  | cons f fs ih => rw [fieldsSize, ih, List.map_cons, List.sum_cons]

/-- The bytes of the text that is printed for a value. -/
def textSize (v : Json) : ℕ := (encode (print htmlEscaped v)).length

theorem length_printItems (vs : List Json) : (encode (printItems htmlEscaped vs)).length =
    (vs.map fun v => textSize v + 1).sum + 1 := by
  induction vs with
  | nil => rfl
  | cons v vs ih =>
    rw [printItems, encode_ascii_cons (by decide), encode_append, List.length_cons,
      List.length_append, ih, List.map_cons, List.sum_cons, textSize]
    omega

theorem textSize_array (items : List Json) :
    textSize (.array items) = max 2 ((items.map fun v => textSize v + 1).sum + 1) := by
  cases items with
  | nil => rfl
  | cons v vs =>
    rw [textSize, print, encode_ascii_cons (by decide), encode_append, List.length_cons,
      List.length_append, length_printItems, List.map_cons, List.sum_cons]
    simp only [textSize]
    omega

theorem length_printFields (fs : List (String × Json)) :
    (encode (printFields htmlEscaped fs)).length =
      (fs.map fun f => stringSize f.1 + 1 + (textSize f.2 + 1)).sum + 1 := by
  induction fs with
  | nil => rfl
  | cons f fs ih =>
    rw [printFields, encode_ascii_cons (by decide), ← List.cons_append, encode_append,
      encode_ascii_cons (c := ':') (by decide), encode_append, List.length_cons,
      List.length_append, List.length_cons, List.length_append, ih, List.map_cons, List.sum_cons]
    simp only [textSize, stringSize]
    omega

theorem textSize_object (fields : List (String × Json)) : textSize (.object fields) =
    max 2 ((fields.map fun f => stringSize f.1 + 1 + (textSize f.2 + 1)).sum + 1) := by
  cases fields with
  | nil => rfl
  | cons f fs =>
    rw [textSize, print, encode_ascii_cons (by decide), ← List.cons_append, encode_append,
      encode_ascii_cons (c := ':') (by decide), encode_append, List.length_cons,
      List.length_append, List.length_cons, List.length_append, length_printFields, List.map_cons,
      List.sum_cons]
    simp only [textSize, stringSize]
    omega

theorem textSize_array_congr {items others : List Json}
    (h : (items.map textSize).Perm (others.map encodedSize)) :
    textSize (.array items) = encodedSize (.array others) := by
  rw [textSize_array, encodedSize, itemsSize_eq_sum]
  have hsum := (h.map (· + 1)).sum_eq
  rw [List.map_map, List.map_map] at hsum
  exact congrArg (fun n => max 2 (n + 1)) hsum

theorem textSize_object_single {tag : String} {v w : Json} (h : textSize v = encodedSize w) :
    textSize (.object [(tag, v)]) = encodedSize (.object [(tag, w)]) := by
  rw [textSize_object, encodedSize, fieldsSize_eq_sum]
  simp only [List.map_cons, List.map_nil, List.sum_cons, List.sum_nil, h]

theorem length_printInt_ascii (z : ℤ) : (encode (printInt z)).length = (printInt z).length := by
  have hdigits : ∀ n, encode (Nat.toDigits 10 n) = (Nat.toDigits 10 n).map Char.toUInt8 :=
    fun n => Document.encode_digits (Decimal.canonical_toDigits n).2.1
  cases z with
  | ofNat n => rw [printInt, hdigits, List.length_map]
  | negSucc n =>
    rw [printInt, encode_ascii_cons (by decide), hdigits, List.length_cons, List.length_map,
      List.length_cons]

/-- Canonicalization does to the text what the size of the value says. -/
theorem textSize_form (v : Json) (h : Accepted canonicalNumber marshal v) :
    textSize (form canonicalNumber marshal v) = encodedSize v := by
  refine form_induction (P := fun v w => textSize w = encodedSize v) ?scalar ?numeral ?array ?bigint
    ?set ?map ?plain v h
  case scalar =>
    intro v hnumber harray hobject
    cases v with
    | null => rfl
    | bool value => cases value <;> rfl
    | number n => exact absurd rfl (hnumber n)
    | string value => rw [textSize, print, encodedSize, stringSize]
    | array items => exact absurd rfl (harray items)
    | object fields => exact absurd rfl (hobject fields)
  case numeral =>
    intro n z hz
    rw [textSize, print, encodedSize, hz, length_printInt_ascii]
    rfl
  case array =>
    intro items ih
    refine textSize_array_congr ?_
    rw [List.map_map]
    exact .of_eq (List.map_congr_left ih)
  case bigint =>
    intro value
    refine textSize_object_single ?_
    rw [textSize, print, encodedSize, stringSize]
  case set =>
    intro items sorted hperm ih
    refine textSize_object_single (textSize_array_congr ((hperm.map _).trans ?_))
    rw [List.map_map]
    exact .of_eq (List.map_congr_left ih)
  case map =>
    intro pairs sorted hperm ih
    refine textSize_object_single (textSize_array_congr (((hperm.map _).map _).trans ?_))
    rw [List.map_map, List.map_map, List.map_map]
    refine .of_eq (List.map_congr_left fun e he => ?_)
    obtain ⟨h1, h2⟩ := ih e he
    rw [Function.comp_apply, Function.comp_apply, Function.comp_apply, formPair, pair, pair]
    refine textSize_array_congr (.of_eq ?_)
    simp only [List.map_cons, List.map_nil, h1, h2]
  case plain =>
    intro fields _ ih
    rw [textSize_object, encodedSize, fieldsSize_eq_sum,
      ((sortByKey_perm _).map _).sum_eq, List.map_map]
    refine congrArg (fun sizes : List ℕ => max 2 (sizes.sum + 1)) (List.map_congr_left fun f hf => ?_)
    rw [Function.comp_apply, ih f hf]

end CanonicalJson.Go
end OptoSync
