import OptoSync.Decimal
import OptoSync.Json

/-!
# JSON pointers

RFC 6901: the escapes of a reference token, the indices of arrays, and the value that a pointer names
relative to a document. A token is a list of characters.
-/
namespace OptoSync.JsonPointer
open Decimal

def escape : List Char → List Char
  | [] => []
  | c :: cs =>
    if c = '~' then '~' :: '0' :: escape cs
    else if c = '/' then '~' :: '1' :: escape cs
    else c :: escape cs

/-- A tilde before something other than a zero and a one, or at the end. -/
def malformed : List Char → Bool
  | [] => false
  | c :: cs => (c == '~' && cs.head? != some '0' && cs.head? != some '1') || malformed cs

/-- Replacing each tilde that stands before `digit`, with it. -/
def replaceEscape (digit char : Char) : List Char → List Char
  | [] => []
  | [c] => [c]
  | c :: d :: cs =>
    if c = '~' ∧ d = digit then char :: replaceEscape digit char cs
    else c :: replaceEscape digit char (d :: cs)

def unescape (token : List Char) : List Char := replaceEscape '0' '~' (replaceEscape '1' '/' token)

theorem replaceEscape_cons {digit char c : Char} (h : c ≠ '~') (cs : List Char) :
    replaceEscape digit char (c :: cs) = c :: replaceEscape digit char cs := by
  cases cs with
  | nil => rfl
  | cons d ds => rw [replaceEscape, if_neg (fun hc => h hc.1)]

theorem replaceEscape_other {digit char d : Char} (h : d ≠ digit) (hd : d ≠ '~') (cs : List Char) :
    replaceEscape digit char ('~' :: d :: cs) = '~' :: d :: replaceEscape digit char cs := by
  rw [replaceEscape, if_neg (fun hc => h hc.2), replaceEscape_cons hd]

/-- What is left of the escapes when those of the slash are replaced. -/
def escapeTilde (cs : List Char) : List Char := cs.flatMap fun c => if c = '~' then ['~', '0'] else [c]

theorem replaceEscape_escape (cs : List Char) : replaceEscape '1' '/' (escape cs) = escapeTilde cs := by
  induction cs with
  | nil => rfl
  | cons c cs ih =>
    rw [escape, escapeTilde, List.flatMap_cons, ← escapeTilde]
    by_cases htilde : c = '~'
    · rw [if_pos htilde, if_pos htilde, replaceEscape_other (by decide) (by decide), ih]
      rfl
    · rw [if_neg htilde, if_neg htilde]
      by_cases hslash : c = '/'
      · rw [if_pos hslash, replaceEscape, if_pos ⟨rfl, rfl⟩, ih, hslash]
        rfl
      · rw [if_neg hslash, replaceEscape_cons htilde, ih]
        rfl

theorem replaceEscape_escapeTilde (cs : List Char) :
    replaceEscape '0' '~' (escapeTilde cs) = cs := by
  induction cs with
  | nil => rfl
  | cons c cs ih =>
    rw [escapeTilde, List.flatMap_cons, ← escapeTilde]
    by_cases htilde : c = '~'
    · rw [if_pos htilde, List.cons_append, List.cons_append, List.nil_append, replaceEscape,
        if_pos ⟨rfl, rfl⟩, ih, htilde]
    · rw [if_neg htilde, List.cons_append, List.nil_append, replaceEscape_cons htilde, ih]

theorem unescape_escape (cs : List Char) : unescape (escape cs) = cs := by
  rw [unescape, replaceEscape_escape, replaceEscape_escapeTilde]

theorem slash_not_mem_escape (cs : List Char) : '/' ∉ escape cs := by
  induction cs with
  | nil => exact List.not_mem_nil
  | cons c cs ih =>
    rw [escape]
    split
    · simp [ih]
    · split
      · simp [ih]
      · next hslash => simp [ih, Ne.symm hslash]

theorem malformed_escape (cs : List Char) : malformed (escape cs) = false := by
  induction cs with
  | nil => rfl
  | cons c cs ih =>
    rw [escape]
    split
    · simp [malformed, ih]
    · split
      · simp [malformed, ih]
      · next htilde _ => simp [malformed, ih, htilde]

/-- The tokens that are well formed are those that were escaped. -/
theorem exists_escape {token : List Char} (h : malformed token = false) (hslash : '/' ∉ token) :
    ∃ cs, token = escape cs := by
  induction hlength : token.length using Nat.strong_induction_on generalizing token with
  | _ n ih =>
    cases token with
    | nil => exact ⟨[], rfl⟩
    | cons c rest =>
      simp only [malformed, Bool.or_eq_false_iff] at h
      simp only [List.length_cons] at hlength
      simp only [List.mem_cons, not_or] at hslash
      by_cases htilde : c = '~'
      · subst htilde
        cases rest with
        | nil => simp at h
        | cons d rest =>
          simp only [List.length_cons] at hlength
          simp only [List.mem_cons, not_or] at hslash
          have hrest := h.2
          simp only [malformed, Bool.or_eq_false_iff] at hrest
          obtain ⟨cs, rfl⟩ := ih rest.length (by omega) hrest.2 hslash.2.2 rfl
          have hdigit : d = '0' ∨ d = '1' := by
            by_contra hd
            rw [not_or] at hd
            simp [hd.1, hd.2] at h
          rcases hdigit with rfl | rfl
          · exact ⟨'~' :: cs, rfl⟩
          · exact ⟨'/' :: cs, rfl⟩
      · obtain ⟨cs, rfl⟩ := ih rest.length (by omega) h.2 hslash.2 rfl
        refine ⟨c :: cs, ?_⟩
        rw [escape, if_neg htilde, if_neg (Ne.symm hslash.1)]

/-- The text of a pointer. -/
def encode (tokens : List (List Char)) : List Char := tokens.flatMap fun token => '/' :: escape token

theorem encode_cons (token : List Char) (tokens : List (List Char)) :
    encode (token :: tokens) =
      '/' :: ['/'].intercalate (escape token :: tokens.map escape) := by
  induction tokens generalizing token with
  | nil => simp [encode, List.intercalate]
  | cons next tokens ih =>
    rw [encode, List.flatMap_cons, ← encode, ih next]
    simp [List.intercalate]

theorem splitOn_encode (token : List Char) (tokens : List (List Char)) :
    (['/'].intercalate (escape token :: tokens.map escape)).splitOn '/' =
      escape token :: tokens.map escape := by
  apply List.splitOn_intercalate
  · intro cs hmem
    rw [← List.map_cons, List.mem_map] at hmem
    obtain ⟨original, -, rfl⟩ := hmem
    exact slash_not_mem_escape original
  · exact List.cons_ne_nil _ _

theorem slash_not_mem_of_mem_splitOn {text part : List Char} (h : part ∈ text.splitOn '/') :
    '/' ∉ part := by
  induction text generalizing part with
  | nil =>
    rw [List.splitOn_nil, List.mem_singleton] at h
    rw [h]
    exact List.not_mem_nil
  | cons c cs ih =>
    rw [List.splitOn_cons_eq_if_modifyHead] at h
    by_cases hslash : c = '/'
    · rw [if_pos (by simp [hslash])] at h
      rcases List.mem_cons.mp h with rfl | hmem
      · exact List.not_mem_nil
      · exact ih hmem
    · rw [if_neg (by simp [hslash])] at h
      cases hparts : cs.splitOn '/' with
      | nil => exact absurd hparts (List.splitOn_ne_nil '/' cs)
      | cons first rest =>
        rw [hparts] at h ih
        rcases List.mem_cons.mp h with rfl | hmem
        · simp [ih List.mem_cons_self, Ne.symm hslash]
        · exact ih (List.mem_cons_of_mem _ hmem)

theorem exists_map_escape {parts : List (List Char)}
    (h : ∀ part ∈ parts, malformed part = false ∧ '/' ∉ part) :
    ∃ tokens : List (List Char), parts = tokens.map escape := by
  induction parts with
  | nil => exact ⟨[], rfl⟩
  | cons part parts ih =>
    obtain ⟨hpart, hslash⟩ := h part List.mem_cons_self
    obtain ⟨token, rfl⟩ := exists_escape hpart hslash
    obtain ⟨tokens, rfl⟩ := ih fun other hmem => h other (List.mem_cons_of_mem _ hmem)
    exact ⟨token :: tokens, rfl⟩

/-- A text after its slash, if all its parts are well formed. -/
theorem exists_encode {text : List Char}
    (h : ∀ part ∈ text.splitOn '/', malformed part = false) :
    ∃ token tokens, text.splitOn '/' = escape token :: tokens.map escape ∧
      '/' :: text = encode (token :: tokens) := by
  obtain ⟨tokens, htokens⟩ := exists_map_escape fun part hmem =>
    ⟨h part hmem, slash_not_mem_of_mem_splitOn hmem⟩
  cases tokens with
  | nil => exact absurd htokens (List.splitOn_ne_nil '/' text)
  | cons token tokens =>
    refine ⟨token, tokens, htokens, ?_⟩
    have hjoin : ['/'].intercalate (text.splitOn '/') = text := List.intercalate_splitOn '/'
    rw [encode_cons, ← List.map_cons, ← htokens, hjoin]

/-- A reference token of an array: digits without a leading zero. -/
def isIndex (token : List Char) : Bool :=
  token == ['0'] || (token.head? != none && token.head? != some '0' && token.all Char.isDigit)

/-- One token, looked up in a value. -/
def child (value : Json) (token : List Char) : Option Json :=
  match value with
  | .object fields => fields.lookup (String.ofList token)
  | .array items => if isIndex token then items[Nat.ofDigitChars 10 token 0]? else none
  | _ => none

def resolve (value : Json) (tokens : List (List Char)) : Option Json := tokens.foldlM child value

@[simp] theorem resolve_nil (value : Json) : resolve value [] = some value := rfl

@[simp] theorem resolve_cons (value : Json) (token : List Char) (tokens : List (List Char)) :
    resolve value (token :: tokens) = (child value token).bind fun v => resolve v tokens := rfl

/-- A resolver of texts that follows the RFC where it speaks: a pointer is empty or starts with a
slash. -/
structure Follows (pointer : Json → String → Option Json) : Prop where
  resolves : ∀ value tokens, pointer value (String.ofList (encode tokens)) = resolve value tokens
  refuses : ∀ value text, text ≠ "" → text.toList.head? ≠ some '/' → pointer value text = none

/-- The lenient resolver, that leaves a malformed escape as it is. -/
def lenient (value : Json) (text : String) : Option Json :=
  match text.toList with
  | [] => some value
  | c :: cs => if c = '/' then resolve value ((cs.splitOn '/').map unescape) else none

theorem follows_lenient : Follows lenient where
  resolves value tokens := by
    rw [lenient, String.toList_ofList]
    cases tokens with
    | nil => rfl
    | cons token tokens =>
      have hunescape : (escape token :: tokens.map escape).map unescape = token :: tokens := by
        simp [Function.comp_def, unescape_escape]
      simp only [encode_cons, splitOn_encode, hunescape, if_true]
  refuses value text hne hhead := by
    rw [lenient]
    cases htext : text.toList with
    | nil => exact absurd (String.toList_eq_nil_iff.mp htext) hne
    | cons c cs =>
      rw [htext, List.head?_cons, ne_eq, Option.some.injEq] at hhead
      simp only [if_neg hhead]

/-- The values at any depth, the value itself included. -/
inductive Part : Json → Json → Prop
  | self (value : Json) : Part value value
  | item {items : List Json} {item part : Json} (hmem : item ∈ items) (h : Part item part) :
      Part (.array items) part
  | field {fields : List (String × Json)} {field : String × Json} {part : Json}
      (hmem : field ∈ fields) (h : Part field.2 part) : Part (.object fields) part

theorem Part.trans {a b c : Json} (h : Part a b) (hbc : Part b c) : Part a c := by
  induction h with
  | self => exact hbc
  | item hmem _ ih => exact .item hmem (ih hbc)
  | field hmem _ ih => exact .field hmem (ih hbc)

theorem part_of_child {value part : Json} {token : List Char} (h : child value token = some part) :
    Part value part := by
  cases value with
  | object fields =>
    obtain ⟨before, after, rfl, -⟩ := List.lookup_eq_some_iff.mp h
    exact .field (List.mem_append_right _ List.mem_cons_self) (.self part)
  | array items =>
    simp only [child] at h
    split at h
    · exact .item (List.mem_of_getElem? h) (.self part)
    · cases h
  | _ => cases h

variable {α : Type} (f : List (String × Json) → List α)

mutual
/-- What `f` finds in the objects of a value, from the outside in. -/
def gather : Json → List α
  | .array items => gatherItems items
  | .object fields => f fields ++ gatherFields fields
  | _ => []

def gatherItems : List Json → List α
  | [] => []
  | v :: vs => gather v ++ gatherItems vs

def gatherFields : List (String × Json) → List α
  | [] => []
  | (_, v) :: fields => gather v ++ gatherFields fields
end

theorem gatherItems_eq_flatMap (items : List Json) :
    gatherItems f items = items.flatMap (gather f) := by
  induction items with
  | nil => rfl
  | cons v vs ih => rw [gatherItems, ih, List.flatMap_cons]

theorem gatherFields_eq_flatMap (fields : List (String × Json)) :
    gatherFields f fields = fields.flatMap fun field => gather f field.2 := by
  induction fields with
  | nil => rfl
  | cons field fields ih => rw [gatherFields, ih, List.flatMap_cons]

theorem mem_gather_of_part {value : Json} {fields : List (String × Json)} {x : α}
    (h : Part value (.object fields)) (hx : x ∈ f fields) : x ∈ gather f value := by
  generalize hpart : Json.object fields = part at h
  induction h with
  | self =>
    rw [← hpart, gather]
    exact List.mem_append_left _ hx
  | item hmem _ ih =>
    rw [gather, gatherItems_eq_flatMap]
    exact List.mem_flatMap.mpr ⟨_, hmem, ih hpart⟩
  | field hmem _ ih =>
    rw [gather, gatherFields_eq_flatMap]
    exact List.mem_append_right _ (List.mem_flatMap.mpr ⟨_, hmem, ih hpart⟩)

theorem part_of_mem_gather {value : Json} {x : α} (h : x ∈ gather f value) :
    ∃ fields, Part value (.object fields) ∧ x ∈ f fields := by
  induction hn : sizeOf value using Nat.strong_induction_on generalizing value with
  | _ n ih =>
    cases value with
    | array items =>
      rw [gather, gatherItems_eq_flatMap] at h
      obtain ⟨item, hmem, hitem⟩ := List.mem_flatMap.mp h
      have hlt : sizeOf item < n := by
        have := List.sizeOf_lt_of_mem hmem
        rw [← hn, Json.array.sizeOf_spec]
        omega
      obtain ⟨fields, hpart, hx⟩ := ih _ hlt hitem rfl
      exact ⟨fields, .item hmem hpart, hx⟩
    | object fields =>
      rw [gather, gatherFields_eq_flatMap] at h
      rcases List.mem_append.mp h with hx | hx
      · exact ⟨fields, .self _, hx⟩
      · obtain ⟨field, hmem, hfield⟩ := List.mem_flatMap.mp hx
        have hlt : sizeOf field.2 < n := by
          have := List.sizeOf_lt_of_mem hmem
          rw [← hn, Json.object.sizeOf_spec]
          cases field
          simp only [Prod.mk.sizeOf_spec] at this ⊢
          omega
        obtain ⟨inner, hpart, hinner⟩ := ih _ hlt hfield rfl
        exact ⟨inner, .field hmem hpart, hinner⟩
    | _ => simp [gather] at h

theorem mem_gather {value : Json} {x : α} :
    x ∈ gather f value ↔ ∃ fields, Part value (.object fields) ∧ x ∈ f fields := by
  refine ⟨part_of_mem_gather f, fun h => ?_⟩
  obtain ⟨fields, hpart, hx⟩ := h
  exact mem_gather_of_part f hpart hx

end OptoSync.JsonPointer
