import Mathlib

/-!
# JSON values

`serde_json::Value`. A float is represented by the literal that is printed for it. The fields of
an object are listed in key order, the order of the underlying `BTreeMap`.
-/
namespace OptoSync

inductive JsonNumber
  | int (value : ℤ)
  | float (literal : String)
  deriving DecidableEq, Repr

inductive Json
  | null
  | bool (value : Bool)
  | number (value : JsonNumber)
  | string (value : String)
  | array (items : List Json)
  | object (fields : List (String × Json))

namespace Json

mutual
def decEq : (a b : Json) → Decidable (a = b)
  | .null, .null => isTrue rfl
  | .bool a, .bool b => decidable_of_iff (a = b) (by simp)
  | .number a, .number b => decidable_of_iff (a = b) (by simp)
  | .string a, .string b => decidable_of_iff (a = b) (by simp)
  | .array a, .array b =>
    match decEqItems a b with
    | isTrue h => isTrue (by rw [h])
    | isFalse h => isFalse (by simpa using h)
  | .object a, .object b =>
    match decEqFields a b with
    | isTrue h => isTrue (by rw [h])
    | isFalse h => isFalse (by simpa using h)
  | .null, .bool _ | .null, .number _ | .null, .string _ | .null, .array _ | .null, .object _
  | .bool _, .null | .bool _, .number _ | .bool _, .string _ | .bool _, .array _
  | .bool _, .object _ | .number _, .null | .number _, .bool _ | .number _, .string _
  | .number _, .array _ | .number _, .object _ | .string _, .null | .string _, .bool _
  | .string _, .number _ | .string _, .array _ | .string _, .object _ | .array _, .null
  | .array _, .bool _ | .array _, .number _ | .array _, .string _ | .array _, .object _
  | .object _, .null | .object _, .bool _ | .object _, .number _ | .object _, .string _
  | .object _, .array _ => isFalse (by simp)

def decEqItems : (a b : List Json) → Decidable (a = b)
  | [], [] => isTrue rfl
  | [], _ :: _ | _ :: _, [] => isFalse (by simp)
  | a :: as, b :: bs =>
    match decEq a b, decEqItems as bs with
    | isTrue h, isTrue hs => isTrue (by rw [h, hs])
    | isFalse h, _ => isFalse (by simp [h])
    | _, isFalse hs => isFalse (by simp [hs])

def decEqFields : (a b : List (String × Json)) → Decidable (a = b)
  | [], [] => isTrue rfl
  | [], _ :: _ | _ :: _, [] => isFalse (by simp)
  | (k, a) :: as, (l, b) :: bs =>
    match (inferInstance : Decidable (k = l)), decEq a b, decEqFields as bs with
    | isTrue hk, isTrue h, isTrue hs => isTrue (by rw [hk, h, hs])
    | isFalse hk, _, _ => isFalse (by simp [hk])
    | _, isFalse h, _ => isFalse (by simp [h])
    | _, _, isFalse hs => isFalse (by simp [hs])
end

instance : DecidableEq Json := decEq

/-- `Value::is_object`. -/
def isObject : Json → Bool
  | .object _ => true
  | _ => false

mutual
/-- The number of containers on the deepest path. -/
def depth : Json → ℕ
  | .array items => depthItems items + 1
  | .object fields => depthFields fields + 1
  | _ => 0

def depthItems : List Json → ℕ
  | [] => 0
  | v :: vs => max (depth v) (depthItems vs)

def depthFields : List (String × Json) → ℕ
  | [] => 0
  | (_, v) :: vs => max (depth v) (depthFields vs)
end

mutual
/-- Replace every float by the one that reading its literal gives. -/
def rereadFloats (readFloat : String → String) : Json → Json
  | .number (.float literal) => .number (.float (readFloat literal))
  | .array items => .array (rereadItems readFloat items)
  | .object fields => .object (rereadFields readFloat fields)
  | v => v

def rereadItems (readFloat : String → String) : List Json → List Json
  | [] => []
  | v :: vs => rereadFloats readFloat v :: rereadItems readFloat vs

def rereadFields (readFloat : String → String) : List (String × Json) → List (String × Json)
  | [] => []
  | (k, v) :: vs => (k, rereadFloats readFloat v) :: rereadFields readFloat vs
end

theorem depthItems_le {items : List Json} {n : ℕ} :
    depthItems items ≤ n ↔ ∀ v ∈ items, depth v ≤ n := by
  induction items with
  | nil => simp [depthItems]
  | cons v vs ih => simp [depthItems, ih]

theorem depthFields_le {fields : List (String × Json)} {n : ℕ} :
    depthFields fields ≤ n ↔ ∀ f ∈ fields, depth f.2 ≤ n := by
  induction fields with
  | nil => simp [depthFields]
  | cons f fs ih => simp [depthFields, ih]

theorem rereadItems_eq_map (readFloat : String → String) (items : List Json) :
    rereadItems readFloat items = items.map (rereadFloats readFloat) := by
  induction items with
  | nil => rfl
  | cons v vs ih => simp [rereadItems, ih]

theorem rereadFields_eq_map (readFloat : String → String) (fields : List (String × Json)) :
    rereadFields readFloat fields = fields.map fun f => (f.1, rereadFloats readFloat f.2) := by
  induction fields with
  | nil => rfl
  | cons f fs ih => simp [rereadFields, ih]

end Json
end OptoSync
