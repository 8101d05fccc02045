import OptoSync.PolicyAliases
import OptoSync.RustClientStamping

/-!
# Timestamp selectors across the clients

How the Rust, the TypeScript and the Dart client read their selectors, resolve them against an object
and see whether a payload has an `updatedAt`. The pointers of the Rust client are resolved by
`serde_json`.
-/
namespace OptoSync.TimestampSelectors
open JsonPointer
open PolicyAliases (objectPrototype)
open RustClient (splitKeys timestamp text)

/-- A payload that all clients can hold: a JavaScript array has less than 2^32 elements. -/
structure Payload where
  fields : List (String × Json)
  bounded : ∀ items, Part (.object fields) (.array items) → items.length < 2 ^ 32

/-- One token of a pointer, up to the last index that the language's number holds. -/
def strictChild (maxIndex : ℕ) (current : Json) (encoded : List Char) : Option Json :=
  if malformed encoded then none
  else
    match current with
    | .array items =>
      if isIndex (unescape encoded) then
        let index := Nat.ofDigitChars 10 (unescape encoded) 0
        if maxIndex < index ∨ items.length ≤ index then none else items[index]?
      else none
    | .object fields => fields.lookup (String.ofList (unescape encoded))
    | _ => none

namespace TypeScript

/-- What a property access yields for the object of a payload. -/
inductive Value
  | undefined
  | json (value : Json)
  /-- Of `Object.prototype`. -/
  | inherited (name : String)
  deriving DecidableEq

def maxSafeInteger : ℕ := 2 ^ 53 - 1

def property (fields : List (String × Json)) (key : String) : Value :=
  match fields.lookup key with
  | some value => .json value
  | none => if key ∈ objectPrototype then .inherited key else .undefined

def timestampSelectorValue (fields : List (String × Json)) (selector : List Char) : Value :=
  match selector with
  | '#' :: '/' :: rest =>
    match (rest.splitOn '/').foldlM (strictChild maxSafeInteger) (.object fields) with
    | some value => .json value
    | none => .undefined
  | _ => property fields (String.ofList selector)

def keys (lwwKeys : String) : List (List Char) := splitKeys Dart.isSpace lwwKeys

def strings (keys : List (List Char)) (fields : List (String × Json)) : List String :=
  keys.filterMap fun key =>
    match timestampSelectorValue fields key with
    | .json (.string ts) => some ts
    | _ => none

def hasUpdatedAt (fields : List (String × Json)) : Bool :=
  property fields "updatedAt" != .undefined

end TypeScript

namespace Dart

def maxInt : ℕ := 2 ^ 63 - 1

/-- Null where there is nothing. -/
def timestampSelectorValue (fields : List (String × Json)) (selector : List Char) : Json :=
  match selector with
  | '#' :: '/' :: rest =>
    ((rest.splitOn '/').foldlM (strictChild maxInt) (.object fields)).getD .null
  | _ => (fields.lookup (String.ofList selector)).getD .null

def keys (lwwKeys : String) : List (List Char) :=
  splitKeys (fun c => OptoSync.Dart.isSpace c || c.toNat = 0x85) lwwKeys

def strings (keys : List (List Char)) (fields : List (String × Json)) : List String :=
  keys.filterMap fun key =>
    match timestampSelectorValue fields key with
    | .string ts => some ts
    | _ => none

def hasUpdatedAt (fields : List (String × Json)) : Bool :=
  (fields.lookup "updatedAt").getD .null != .null

end Dart

inductive Client
  | rust | typeScript | dart
  deriving DecidableEq

section
variable (pointer : Json → String → Option Json)

namespace Client

/-- The value a resolver yields, null for a missing one; none for what is no JSON value. -/
def reading (fields : List (String × Json)) (selector : List Char) : Client → Option Json
  | .rust => some ((timestamp pointer fields selector).getD .null)
  | .typeScript =>
    match TypeScript.timestampSelectorValue fields selector with
    | .undefined => some .null
    | .json value => some value
    | .inherited _ => none
  | .dart => some (Dart.timestampSelectorValue fields selector)

def keys (lwwKeys : String) : Client → List (List Char)
  | .rust => splitKeys RustClient.isWhitespace lwwKeys
  | .typeScript => TypeScript.keys lwwKeys
  | .dart => Dart.keys lwwKeys

def strings (keys : List (List Char)) (fields : List (String × Json)) : Client → List String
  | .rust => RustClient.strings pointer keys fields
  | .typeScript => TypeScript.strings keys fields
  | .dart => Dart.strings keys fields

/-- What the walk over a payload hands to the clock. -/
def observed (payload : Payload) (lwwKeys : String) (client : Client) : List String :=
  gather (fun fields => client.strings pointer (client.keys lwwKeys) fields) (.object payload.fields)

def hasUpdatedAt (fields : List (String × Json)) : Client → Bool
  | .rust => (fields.lookup "updatedAt").isSome
  | .typeScript => TypeScript.hasUpdatedAt fields
  | .dart => Dart.hasUpdatedAt fields

end Client

def ResolversAgree (fields : List (String × Json)) (selector : List Char) : Prop :=
  ∀ a b : Client, a.reading pointer fields selector = b.reading pointer fields selector

/-- For a payload and its selectors. -/
structure ClientsAgree (payload : Payload) (lwwKeys : String) : Prop where
  resolved : ∀ client : Client, ∀ selector ∈ client.keys lwwKeys, ∀ fields,
    Part (.object payload.fields) (.object fields) → ResolversAgree pointer fields selector
  observed : ∀ a b : Client, ∀ ts ∈ a.observed pointer payload lwwKeys,
    ts ∈ b.observed pointer payload lwwKeys
  present : ∀ a b : Client, a.hasUpdatedAt payload.fields = b.hasUpdatedAt payload.fields

/-- A pointer has no malformed escape, or its lenient reading finds nothing; no selector is a lone
number sign; one with another text after the sign names no field; and a plain key is a field unless
no object inherits it. -/
def Resolvable (fields : List (String × Json)) (selector : List Char) : Prop :=
  match selector with
  | '#' :: '/' :: rest =>
    (∀ part ∈ rest.splitOn '/', malformed part = false) ∨
      (pointer (.object fields) (String.ofList ('/' :: rest))).getD .null = .null
  | ['#'] => False
  | '#' :: _ => (fields.lookup (String.ofList selector)).getD .null = .null
  | _ => String.ofList selector ∈ objectPrototype → (fields.lookup (String.ofList selector)).isSome

variable {pointer}

theorem foldlM_of_malformed {maxIndex : ℕ} {parts : List (List Char)} {part : List Char}
    (hmem : part ∈ parts) (hmalformed : malformed part = true) (value : Json) :
    parts.foldlM (strictChild maxIndex) value = none := by
  induction parts generalizing value with
  | nil => cases hmem
  | cons first parts ih =>
    rw [List.foldlM_cons]
    rcases List.mem_cons.mp hmem with rfl | hmem
    · unfold strictChild
      rw [if_pos hmalformed]
      rfl
    · cases strictChild maxIndex value first with
      | none => rfl
      | some next => exact ih hmem next

/-- Below the bound a strict step is that of the pointer. -/
theorem strictChild_escape {maxIndex : ℕ} {value : Json} (token : List Char)
    (h : ∀ items, value = .array items → items.length ≤ maxIndex) :
    strictChild maxIndex value (escape token) = child value token := by
  unfold strictChild child
  rw [malformed_escape, unescape_escape, if_neg Bool.false_ne_true]
  cases value with
  | array items =>
    cases isIndex token with
    | false => rfl
    | true =>
      have hlength := h items rfl
      simp only [if_true]
      split
      · rw [List.getElem?_eq_none]
        omega
      · rfl
  | _ => rfl

theorem foldlM_map_escape {maxIndex : ℕ} (tokens : List (List Char)) {value : Json}
    (h : ∀ items, Part value (.array items) → items.length ≤ maxIndex) :
    (tokens.map escape).foldlM (strictChild maxIndex) value = resolve value tokens := by
  induction tokens generalizing value with
  | nil => rfl
  | cons token tokens ih =>
    rw [List.map_cons, List.foldlM_cons, resolve_cons, strictChild_escape]
    · cases hchild : child value token with
      | none => rfl
      | some next => exact ih fun items hpart => h items ((part_of_child hchild).trans hpart)
    · intro items hvalue
      exact h items (hvalue ▸ .self _)

/-- A strict resolver of well-formed pointers. -/
theorem foldlM_splitOn {maxIndex : ℕ} {rest : List Char} {value : Json}
    (hrest : ∀ part ∈ rest.splitOn '/', malformed part = false)
    (h : ∀ items, Part value (.array items) → items.length ≤ maxIndex)
    (hpointer : Follows pointer) :
    (rest.splitOn '/').foldlM (strictChild maxIndex) value =
      pointer value (String.ofList ('/' :: rest)) := by
  obtain ⟨token, tokens, hparts, htext⟩ := exists_encode hrest
  rw [hparts, htext, hpointer.resolves, ← List.map_cons, foldlM_map_escape _ h]

theorem resolversAgree_iff {fields : List (String × Json)} {selector : List Char} :
    ResolversAgree pointer fields selector ↔
      (timestamp pointer fields selector).getD .null =
          Dart.timestampSelectorValue fields selector ∧
        Client.typeScript.reading pointer fields selector =
          some (Dart.timestampSelectorValue fields selector) := by
  constructor
  · intro h
    exact ⟨Option.some.inj (h .rust .dart), h .typeScript .dart⟩
  · intro h a b
    have hdart : ∀ client : Client, client.reading pointer fields selector =
        some (Dart.timestampSelectorValue fields selector) := by
      intro client
      cases client with
      | rust => exact congrArg some h.1
      | typeScript => exact h.2
      | dart => rfl
    rw [hdart a, hdart b]

theorem timestampSelectorValue_plain {fields : List (String × Json)} {selector : List Char}
    (h : ∀ rest, selector ≠ '#' :: '/' :: rest) :
    TypeScript.timestampSelectorValue fields selector =
        TypeScript.property fields (String.ofList selector) ∧
      Dart.timestampSelectorValue fields selector =
        (fields.lookup (String.ofList selector)).getD .null := by
  constructor
  · unfold TypeScript.timestampSelectorValue
    split
    · exact absurd rfl (h _)
    · rfl
  · unfold Dart.timestampSelectorValue
    split
    · exact absurd rfl (h _)
    · rfl

/-- TypeScript yields the field, or null, unless it finds an inherited property. -/
theorem typeScript_plain {fields : List (String × Json)} {selector : List Char}
    (h : ∀ rest, selector ≠ '#' :: '/' :: rest) :
    Client.typeScript.reading pointer fields selector =
        some (Dart.timestampSelectorValue fields selector) ↔
      (String.ofList selector ∈ objectPrototype →
        (fields.lookup (String.ofList selector)).isSome) := by
  obtain ⟨htypeScript, hdart⟩ := timestampSelectorValue_plain h
  rw [Client.reading, htypeScript, hdart, TypeScript.property]
  cases fields.lookup (String.ofList selector) with
  | some value => simp
  | none =>
    by_cases hinherited : String.ofList selector ∈ objectPrototype
    · simp [hinherited]
    · simp [hinherited]

theorem not_inherited_of_sign (rest : List Char) :
    String.ofList ('#' :: rest) ∉ objectPrototype := by
  intro h
  have hhead : ∀ name ∈ objectPrototype, name.toList.head? ≠ some '#' := by decide
  exact hhead _ h (by rw [String.toList_ofList]; rfl)

/-- An object is no field of itself. -/
theorem lookup_ne_self {fields : List (String × Json)} {key : String} :
    fields.lookup key ≠ some (.object fields) := by
  intro h
  obtain ⟨before, after, heq, -⟩ := List.lookup_eq_some_iff.mp h
  have hmem : (key, Json.object fields) ∈ before ++ (key, Json.object fields) :: after := by simp
  rw [← heq] at hmem
  have hsize := List.sizeOf_lt_of_mem hmem
  simp only [Prod.mk.sizeOf_spec, Json.object.sizeOf_spec] at hsize
  omega

theorem typeScript_pointer (fields : List (String × Json)) (rest : List Char) :
    Client.typeScript.reading pointer fields ('#' :: '/' :: rest) =
      some (((rest.splitOn '/').foldlM (strictChild TypeScript.maxSafeInteger)
        (.object fields)).getD .null) := by
  simp only [Client.reading, TypeScript.timestampSelectorValue]
  cases (rest.splitOn '/').foldlM (strictChild TypeScript.maxSafeInteger) (Json.object fields) <;>
    rfl

theorem resolversAgree_pointer (hpointer : Follows pointer) {fields : List (String × Json)}
    (hbounded : ∀ items, Part (.object fields) (.array items) →
      items.length ≤ TypeScript.maxSafeInteger) (rest : List Char) :
    ResolversAgree pointer fields ('#' :: '/' :: rest) ↔
      (∀ part ∈ rest.splitOn '/', malformed part = false) ∨
        (pointer (.object fields) (String.ofList ('/' :: rest))).getD .null = .null := by
  have hrust : timestamp pointer fields ('#' :: '/' :: rest) =
      pointer (.object fields) (String.ofList ('/' :: rest)) := rfl
  have hdart : Dart.timestampSelectorValue fields ('#' :: '/' :: rest) =
      ((rest.splitOn '/').foldlM (strictChild Dart.maxInt) (.object fields)).getD .null := rfl
  rw [resolversAgree_iff, typeScript_pointer, hrust, hdart]
  by_cases hrest : ∀ part ∈ rest.splitOn '/', malformed part = false
  · have hmax : TypeScript.maxSafeInteger ≤ Dart.maxInt := by decide
    rw [foldlM_splitOn hrest hbounded hpointer,
      foldlM_splitOn hrest (fun items hpart => (hbounded items hpart).trans hmax) hpointer]
    exact iff_of_true ⟨rfl, rfl⟩ (.inl hrest)
  · obtain ⟨part, hmem, hmalformed⟩ : ∃ part ∈ rest.splitOn '/', malformed part = true := by
      simpa using hrest
    rw [foldlM_of_malformed hmem hmalformed, foldlM_of_malformed hmem hmalformed,
      Option.getD_none, and_iff_left rfl, or_iff_right hrest]

theorem not_resolversAgree_sign (hpointer : Follows pointer) (fields : List (String × Json)) :
    ¬ ResolversAgree pointer fields ['#'] := by
  rw [resolversAgree_iff]
  intro h
  have hself : timestamp pointer fields ['#'] = some (.object fields) := hpointer.resolves _ []
  have hplain : Dart.timestampSelectorValue fields ['#'] =
      (fields.lookup (String.ofList ['#'])).getD .null :=
    (timestampSelectorValue_plain (by simp)).2
  have hlookup := h.1
  rw [hself, hplain, Option.getD_some] at hlookup
  cases hfield : fields.lookup (String.ofList ['#']) with
  | none => rw [hfield] at hlookup; cases hlookup
  | some value =>
    rw [hfield, Option.getD_some] at hlookup
    exact lookup_ne_self (hlookup ▸ hfield)

theorem timestamp_other (hpointer : Follows pointer) (fields : List (String × Json)) {c : Char}
    (hc : c ≠ '/') (rest : List Char) : timestamp pointer fields ('#' :: c :: rest) = none := by
  apply hpointer.refuses
  · rw [ne_eq, ← String.toList_eq_nil_iff, String.toList_ofList]
    exact List.cons_ne_nil _ _
  · rw [String.toList_ofList, List.head?_cons, ne_eq, Option.some.injEq]
    exact hc

theorem timestamp_plain (fields : List (String × Json)) {selector : List Char}
    (h : selector.head? ≠ some '#') :
    timestamp pointer fields selector = fields.lookup (String.ofList selector) := by
  unfold timestamp
  split
  · exact absurd rfl h
  · rfl

theorem head_ne_sign {selector : List Char} (h : ∀ rest, selector ≠ '#' :: rest) :
    selector.head? ≠ some '#' := by
  intro hhead
  obtain ⟨rest, hselector⟩ := List.head?_eq_some_iff.mp hhead
  exact h rest hselector

theorem resolversAgree_other (hpointer : Follows pointer) (fields : List (String × Json)) {c : Char}
    (hc : c ≠ '/') (rest : List Char) :
    ResolversAgree pointer fields ('#' :: c :: rest) ↔
      (fields.lookup (String.ofList ('#' :: c :: rest))).getD .null = .null := by
  have hplain : ∀ tail, '#' :: c :: rest ≠ '#' :: '/' :: tail := by simp [hc]
  rw [resolversAgree_iff, typeScript_plain hplain, timestamp_other hpointer fields hc rest,
    (timestampSelectorValue_plain hplain).2,
    and_iff_left fun h => absurd h (not_inherited_of_sign _), Option.getD_none, eq_comm]

theorem resolversAgree_plain (fields : List (String × Json)) {selector : List Char}
    (h : selector.head? ≠ some '#') :
    ResolversAgree pointer fields selector ↔
      (String.ofList selector ∈ objectPrototype →
        (fields.lookup (String.ofList selector)).isSome) := by
  have hplain : ∀ rest, selector ≠ '#' :: '/' :: rest := by
    intro rest hselector
    exact h (by rw [hselector]; rfl)
  rw [resolversAgree_iff, typeScript_plain hplain, timestamp_plain fields h,
    (timestampSelectorValue_plain hplain).2, and_iff_right rfl]

theorem resolversAgree_iff_resolvable (hpointer : Follows pointer) {fields : List (String × Json)}
    (hbounded : ∀ items, Part (.object fields) (.array items) →
      items.length ≤ TypeScript.maxSafeInteger) (selector : List Char) :
    ResolversAgree pointer fields selector ↔ Resolvable pointer fields selector := by
  unfold Resolvable
  split
  · exact resolversAgree_pointer hpointer hbounded _
  · exact iff_of_false (not_resolversAgree_sign hpointer fields) not_false
  next rest hpointer' hsign =>
    cases rest with
    | nil => exact absurd rfl hsign
    | cons c rest =>
      refine resolversAgree_other hpointer fields ?_ rest
      intro hc
      exact hpointer' rest (by rw [hc])
  next hsign => exact resolversAgree_plain fields (head_ne_sign hsign)

theorem reading_rust {fields : List (String × Json)} {selector : List Char} {ts : String} :
    Client.rust.reading pointer fields selector = some (.string ts) ↔
      timestamp pointer fields selector = some (.string ts) := by
  rw [Client.reading, Option.some.injEq]
  cases timestamp pointer fields selector with
  | none => simp
  | some value => simp

/-- What the Rust client reads at a resolvable selector is at a selected position. -/
theorem selects_iff (hpointer : Follows pointer) {fields : List (String × Json)}
    {selector : List Char} (h : Resolvable pointer fields selector) {ts : String} :
    RustClient.Selects selector fields (.string ts) ↔
      timestamp pointer fields selector = some (.string ts) := by
  refine ⟨RustClient.timestamp_of_selects hpointer, fun hvalue => ?_⟩
  unfold Resolvable at h
  split at h
  next rest =>
    rcases h with hrest | hnull
    · obtain ⟨token, tokens, -, htext⟩ := exists_encode hrest
      refine .inr ⟨token :: tokens, by rw [htext], ?_⟩
      rw [← hpointer.resolves, ← htext]
      exact hvalue
    · have hread : pointer (.object fields) (String.ofList ('/' :: rest)) = some (.string ts) := hvalue
      rw [hread] at hnull
      cases hnull
  · exact absurd h not_false
  next rest hslash hsign =>
    cases rest with
    | nil => exact absurd rfl hsign
    | cons c rest =>
      have hc : c ≠ '/' := fun hc => hslash rest (by rw [hc])
      rw [timestamp_other hpointer fields hc rest] at hvalue
      cases hvalue
  next hsign =>
    have hhead := head_ne_sign hsign
    rw [timestamp_plain fields hhead] at hvalue
    exact .inl ⟨hhead, hvalue⟩

theorem mem_strings {client : Client} {keys : List (List Char)} {fields : List (String × Json)}
    {ts : String} : ts ∈ client.strings pointer keys fields ↔
      ∃ selector ∈ keys, client.reading pointer fields selector = some (.string ts) := by
  cases client with
  | rust =>
    simp only [Client.strings, RustClient.strings, List.mem_filterMap, reading_rust]
    refine exists_congr fun selector => and_congr_right fun _ => ?_
    cases timestamp pointer fields selector with
    | none => simp
    | some value => cases value <;> simp [text]
  | typeScript =>
    simp only [Client.strings, TypeScript.strings, List.mem_filterMap, Client.reading]
    refine exists_congr fun selector => and_congr_right fun _ => ?_
    cases TypeScript.timestampSelectorValue fields selector with
    | json value => cases value <;> simp
    | _ => simp
  | dart =>
    simp only [Client.strings, Dart.strings, List.mem_filterMap, Client.reading]
    refine exists_congr fun selector => and_congr_right fun _ => ?_
    cases Dart.timestampSelectorValue fields selector <;> simp

theorem mem_observed {client : Client} {payload : Payload} {lwwKeys : String} {ts : String} :
    ts ∈ client.observed pointer payload lwwKeys ↔
      ∃ fields, Part (.object payload.fields) (.object fields) ∧
        ∃ selector ∈ client.keys lwwKeys,
          client.reading pointer fields selector = some (.string ts) := by
  rw [Client.observed, mem_gather]
  exact exists_congr fun fields => and_congr_right fun _ => mem_strings

theorem hasUpdatedAt_eq {fields : List (String × Json)}
    (h : fields.lookup "updatedAt" ≠ some .null) (client : Client) :
    client.hasUpdatedAt fields = (fields.lookup "updatedAt").isSome := by
  have hown : "updatedAt" ∉ objectPrototype := by decide
  cases client with
  | rust => rfl
  | typeScript =>
    simp only [Client.hasUpdatedAt, TypeScript.hasUpdatedAt, TypeScript.property, if_neg hown]
    cases fields.lookup "updatedAt" <;> rfl
  | dart =>
    simp only [Client.hasUpdatedAt, Dart.hasUpdatedAt]
    cases hvalue : fields.lookup "updatedAt" with
    | none => rfl
    | some value =>
      rw [hvalue, ne_eq, Option.some.injEq] at h
      simpa using h

/-- Every selector is resolvable in every object; a key that not all clients read, because they trim
its ends differently, finds no timestamp that the others miss; and the payload has no null under
`updatedAt`. -/
structure Portable (pointer : Json → String → Option Json) (payload : Payload) (lwwKeys : String) :
    Prop where
  resolvable : ∀ client : Client, ∀ selector ∈ client.keys lwwKeys, ∀ fields,
    Part (.object payload.fields) (.object fields) → Resolvable pointer fields selector
  shared : ∀ a b : Client, ∀ selector ∈ a.keys lwwKeys, selector ∉ b.keys lwwKeys → ∀ fields ts,
    Part (.object payload.fields) (.object fields) →
      RustClient.Selects selector fields (.string ts) →
        ∃ other ∈ b.keys lwwKeys, ∃ fields', Part (.object payload.fields) (.object fields') ∧
          RustClient.Selects other fields' (.string ts)
  updatedAt : payload.fields.lookup "updatedAt" ≠ some .null

theorem reading_iff (hpointer : Follows pointer) {fields : List (String × Json)}
    {selector : List Char} (hagree : ResolversAgree pointer fields selector)
    (h : Resolvable pointer fields selector) (client : Client) {ts : String} :
    client.reading pointer fields selector = some (.string ts) ↔
      RustClient.Selects selector fields (.string ts) := by
  rw [hagree client .rust, reading_rust, selects_iff hpointer h]

theorem Payload.resolversAgree_iff (hpointer : Follows pointer) (payload : Payload)
    {fields : List (String × Json)} (hpart : Part (.object payload.fields) (.object fields))
    (selector : List Char) :
    ResolversAgree pointer fields selector ↔ Resolvable pointer fields selector := by
  refine resolversAgree_iff_resolvable hpointer (fun items hitems => ?_) selector
  have hlength := payload.bounded items (hpart.trans hitems)
  have hmax : 2 ^ 32 ≤ TypeScript.maxSafeInteger := by decide
  omega

/-- The resolvers agree on an object of a payload exactly at the resolvable selectors; and the clients
agree on a payload and its selectors exactly if these are portable. -/
theorem selectorsAgree_iff (hpointer : Follows pointer) (payload : Payload) (lwwKeys : String) :
    (∀ fields, Part (.object payload.fields) (.object fields) → ∀ selector,
      ResolversAgree pointer fields selector ↔ Resolvable pointer fields selector) ∧
    (ClientsAgree pointer payload lwwKeys ↔ Portable pointer payload lwwKeys) := by
  have hresolvable := fun fields hpart selector =>
    @Payload.resolversAgree_iff pointer hpointer payload fields hpart selector
  refine ⟨hresolvable, fun h => ?_, fun h => ?_⟩
  · have hall : ∀ client : Client, ∀ selector ∈ client.keys lwwKeys, ∀ fields,
        Part (.object payload.fields) (.object fields) → Resolvable pointer fields selector :=
      fun client selector hselector fields hpart =>
        (hresolvable fields hpart selector).mp (h.resolved client selector hselector fields hpart)
    refine ⟨hall, fun a b selector hselector _ fields ts hpart hselects => ?_, fun hnull => ?_⟩
    · have hread := (reading_iff hpointer (h.resolved a selector hselector fields hpart)
        (hall a selector hselector fields hpart) a).mpr hselects
      obtain ⟨fields', hpart', other, hother, hread'⟩ :=
        mem_observed.mp (h.observed a b ts (mem_observed.mpr ⟨fields, hpart, selector, hselector, hread⟩))
      exact ⟨other, hother, fields', hpart',
        (reading_iff hpointer (h.resolved b other hother fields' hpart')
          (hall b other hother fields' hpart') b).mp hread'⟩
    · have hpresent := h.present .rust .dart
      simp [Client.hasUpdatedAt, Dart.hasUpdatedAt, hnull] at hpresent
  · have hagree : ∀ client : Client, ∀ selector ∈ client.keys lwwKeys, ∀ fields,
        Part (.object payload.fields) (.object fields) → ResolversAgree pointer fields selector :=
      fun client selector hselector fields hpart =>
        (hresolvable fields hpart selector).mpr (h.resolvable client selector hselector fields hpart)
    refine ⟨hagree, fun a b ts hts => ?_, fun a b => ?_⟩
    · obtain ⟨fields, hpart, selector, hselector, hread⟩ := mem_observed.mp hts
      by_cases hshared : selector ∈ b.keys lwwKeys
      · refine mem_observed.mpr ⟨fields, hpart, selector, hshared, ?_⟩
        rw [hagree a selector hselector fields hpart b a, hread]
      · have hselects := (reading_iff hpointer (hagree a selector hselector fields hpart)
          (h.resolvable a selector hselector fields hpart) a).mp hread
        obtain ⟨other, hother, fields', hpart', hselects'⟩ :=
          h.shared a b selector hselector hshared fields ts hpart hselects
        exact mem_observed.mpr ⟨fields', hpart', other, hother,
          (reading_iff hpointer (hagree b other hother fields' hpart')
            (h.resolvable b other hother fields' hpart') b).mpr hselects'⟩
    · rw [hasUpdatedAt_eq h.updatedAt, hasUpdatedAt_eq h.updatedAt]

/-- A value without containers has no other part. -/
theorem part_of_depth {value part : Json} (h : value.depth = 0) (hpart : Part value part) :
    part = value := by
  cases hpart with
  | self => rfl
  | item hmem _ => simp [Json.depth] at h
  | field hmem _ => simp [Json.depth] at h

theorem bounded_of_flat {fields : List (String × Json)} (h : ∀ field ∈ fields, field.2.depth = 0)
    (items : List Json) (hpart : Part (.object fields) (.array items)) : items.length < 2 ^ 32 := by
  cases hpart with
  | field hmem hinner =>
    have hflat := h _ hmem
    rw [← part_of_depth hflat hinner] at hflat
    simp [Json.depth] at hflat

theorem fields_of_flat {fields inner : List (String × Json)}
    (h : ∀ field ∈ fields, field.2.depth = 0) (hpart : Part (.object fields) (.object inner)) :
    inner = fields := by
  cases hpart with
  | self => rfl
  | field hmem hinner =>
    have hflat := h _ hmem
    rw [← part_of_depth hflat hinner] at hflat
    simp [Json.depth] at hflat

theorem selectorsAgree_iff_record :
    ClientsAgree lenient
      { fields := [("updatedAt", .string "1721822400000-0000-a"), ("v", .number (.int 1))]
        bounded := bounded_of_flat (by decide) } "updatedAt, syncedAt" := by
  refine (selectorsAgree_iff follows_lenient _ _).2.mpr ⟨?_, ?_, by decide⟩
  · intro client selector hselector fields hpart
    obtain rfl := fields_of_flat (by decide) hpart
    have hkeys : ∀ other : Client, other.keys "updatedAt, syncedAt" =
        ["updatedAt".toList, "syncedAt".toList] := by
      intro other
      cases other <;> decide
    rw [hkeys] at hselector
    rcases List.mem_cons.mp hselector with rfl | hselector
    · exact fun _ => by decide
    · obtain rfl := List.mem_singleton.mp hselector
      exact fun h => absurd h (by decide)
  · intro a b selector hselector hmissing
    have hkeys : a.keys "updatedAt, syncedAt" = b.keys "updatedAt, syncedAt" := by
      cases a <;> cases b <;> decide
    exact absurd (hkeys ▸ hselector) hmissing

/-- A key with a number sign is not looked up in Rust, and a null `updatedAt` is absent in Dart. -/
theorem signedKey_unobserved :
    (∃ payload : Payload, payload.fields = [("#stamp", .string "1721822400000-0000-a")] ∧
      Client.rust.observed lenient payload "#stamp" = [] ∧
      Client.typeScript.observed lenient payload "#stamp" = ["1721822400000-0000-a"] ∧
      Client.dart.observed lenient payload "#stamp" = ["1721822400000-0000-a"]) ∧
    Client.rust.hasUpdatedAt [("updatedAt", .null)] = true ∧
    Client.typeScript.hasUpdatedAt [("updatedAt", .null)] = true ∧
    Client.dart.hasUpdatedAt [("updatedAt", .null)] = false :=
  ⟨⟨{ fields := [("#stamp", .string "1721822400000-0000-a")]
      bounded := bounded_of_flat (by decide) }, rfl, by decide, by decide, by decide⟩,
    by decide, by decide, by decide⟩

end

end OptoSync.TimestampSelectors
