import OptoSync.FormSanitize

/-!
# What sanitizing a payload removes

The payload without its blocked and transient entries is what sanitizing gives, except where an
object looks like a file, and for the empty key where that counts as transient.
-/
namespace OptoSync.Forms

theorem normalizedChar_normalizedChar {c d : Char} (h : normalizedChar c = some d) :
    normalizedChar d = some d := by
  unfold normalizedChar at h
  split at h
  · obtain rfl := Option.some.inj h
    rw [normalizedChar, if_pos (by assumption)]
  split at h
  · rename_i hupper
    obtain rfl := Option.some.inj h
    have hlower : c.toLower.isLower = true := by
      simp only [Char.isUpper, decide_eq_true_eq] at hupper
      have hbound : 65 ≤ c.toNat ∧ c.toNat ≤ 90 := hupper
      have hc : c = Char.ofNat c.toNat := (Char.ofNat_toNat c).symm
      rw [hc]
      obtain ⟨hl, hu⟩ := hbound
      generalize c.toNat = n at hl hu
      interval_cases n <;> decide
    rw [normalizedChar, hlower]
    rfl
  split at h
  · obtain rfl := Option.some.inj h
    decide
  split at h
  · obtain rfl := Option.some.inj h
    decide
  · cases h

theorem normalized_normalized (name : String) : normalized (normalized name) = normalized name := by
  have hkeep : ∀ cs : List Char,
      (cs.filterMap normalizedChar).filterMap normalizedChar = cs.filterMap normalizedChar := by
    intro cs
    induction cs with
    | nil => rfl
    | cons c cs ih =>
      cases hc : normalizedChar c with
      | none => simpa [hc] using ih
      | some d => simp [hc, normalizedChar_normalizedChar hc, ih]
  simp only [normalized, String.toList_ofList, hkeep]

/-- Names that are normalized already name the same fields. -/
theorem isTransientFormField_transientNames (name : String) (extra : List String) :
    isTransientFormField name (transientNames extra) = isTransientFormField name extra := by
  have hfixed : transientFields.map normalized = transientFields := by decide
  have hnames : transientNames (transientNames extra) =
      transientFields ++ (transientFields ++ extra.map normalized) := by
    simp only [transientNames, List.map_append, hfixed, List.map_map]
    congr 2
    exact List.map_congr_left fun name _ => normalized_normalized name
  have hcontains : (transientNames (transientNames extra)).contains (normalized name) =
      (transientNames extra).contains (normalized name) := by
    rw [hnames, transientNames]
    simp only [List.contains_append]
    cases transientFields.contains (normalized name) <;> rfl
  simp only [isTransientFormField, hcontains]

section
variable (extra : List String)

/-- An entry under this key is to go. -/
def removed (name : String) : Bool := blockedKeys.contains name || isTransientFormField name extra

mutual
/-- The value without the entries that are to go, at every depth. -/
def withoutSecrets : Json → Json
  | .array items => .array (withoutSecretsItems items)
  | .object fields => .object (withoutSecretsFields fields)
  | value => value

def withoutSecretsItems : List Json → List Json
  | [] => []
  | item :: items => withoutSecrets item :: withoutSecretsItems items

def withoutSecretsFields : List (String × Json) → List (String × Json)
  | [] => []
  | (name, child) :: fields =>
    if removed extra name then withoutSecretsFields fields
    else (name, withoutSecrets child) :: withoutSecretsFields fields
end

/-- A value that is taken for a file. -/
def isFile : Json → Bool
  | .object fields => fileLike fields
  | _ => false

variable (includeFileMetadata : Bool)

mutual
/-- Where sanitizing looks, an object with the fields of a file is its own descriptor, and the empty
key is no secret, or has a file under it. -/
def Plain : Json → Prop
  | .array items => PlainItems items
  | .object fields =>
    if fileLike fields then
      includeFileMetadata = true ∧ fileDescriptor fields = .object (withoutSecretsFields extra fields)
    else PlainFields fields
  | _ => True

def PlainItems : List Json → Prop
  | [] => True
  | item :: items => Plain item ∧ PlainItems items

def PlainFields : List (String × Json) → Prop
  | [] => True
  | (name, child) :: fields =>
    (if blockedKeys.contains name || (name ≠ "" && isTransientFormField name extra) then True
      else if isTransientFormField name extra then isFile child = true ∧ includeFileMetadata = false
      else Plain child) ∧ PlainFields fields
end

end

section
variable {extra : List String} {includeFileMetadata : Bool}

theorem visit_eq_none (names : List String) {value : Json} :
    visit includeFileMetadata names value = none ↔
      isFile value = true ∧ includeFileMetadata = false := by
  cases value with
  | object fields =>
    cases hfile : fileLike fields <;> cases includeFileMetadata <;> simp [visit, isFile, hfile]
  | _ => simp [visit, isFile]

theorem length_withoutSecretsItems (items : List Json) :
    (withoutSecretsItems extra items).length = items.length := by
  induction items with
  | nil => rfl
  | cons item items ih => rw [withoutSecretsItems, List.length_cons, List.length_cons, ih]

theorem length_visitItems (includeFileMetadata : Bool) (names : List String) (items : List Json) :
    (visitItems includeFileMetadata names items).length ≤ items.length := by
  induction items with
  | nil => exact Nat.zero_le _
  | cons item items ih =>
    rw [visitItems, List.length_append, List.length_cons, Nat.add_comm]
    exact Nat.add_le_add ih (by cases visit includeFileMetadata names item <;> simp)

theorem removed_of_mem {fields : List (String × Json)} {field : String × Json}
    (h : field ∈ withoutSecretsFields extra fields) : removed extra field.1 = false := by
  induction fields with
  | nil => cases h
  | cons first fields ih =>
    obtain ⟨name, child⟩ := first
    rw [withoutSecretsFields] at h
    split at h
    · exact ih h
    · rename_i hname
      rcases List.mem_cons.mp h with rfl | h
      · simpa using hname
      · exact ih h

/-- Of the entries that are to stay, sanitizing adds none. -/
theorem length_visitFields (extra : List String) (includeFileMetadata : Bool)
    (fields : List (String × Json)) :
    ((visitFields includeFileMetadata (transientNames extra) fields).filter fun f =>
      !removed extra f.1).length ≤ (withoutSecretsFields extra fields).length := by
  induction fields with
  | nil => exact Nat.le_refl _
  | cons field fields ih =>
    obtain ⟨name, child⟩ := field
    rw [visitFields, withoutSecretsFields]
    by_cases hremoved : removed extra name = true
    · rw [if_pos hremoved]
      split
      · exact ih
      split
      · exact ih
      · rw [List.filter_append, List.length_append]
        have hhead : ((((visit includeFileMetadata (transientNames extra) child).map fun value =>
            (name, value)).toList).filter fun f => !removed extra f.1) = [] := by
          cases visit includeFileMetadata (transientNames extra) child <;> simp [hremoved]
        rw [hhead, List.length_nil, Nat.zero_add]
        exact ih
    · have hkept : blockedKeys.contains name = false ∧ isTransientFormField name extra = false := by
        simpa [removed] using hremoved
      rw [if_neg hremoved, isTransientFormField_transientNames, hkept.1, hkept.2]
      simp only [Bool.false_eq_true, if_false, Bool.and_false, List.filter_append,
        List.length_append, List.length_cons]
      rw [Nat.add_comm]
      refine Nat.add_le_add ih ((List.length_filter_le _ _).trans ?_)
      cases visit includeFileMetadata (transientNames extra) child <;> simp

mutual
theorem visit_eq_iff (value : Json) :
    visit includeFileMetadata (transientNames extra) value = some (withoutSecrets extra value) ↔
      Plain extra includeFileMetadata value := by
  cases value with
  | array items =>
    rw [visit, withoutSecrets, Plain, Option.some.injEq, Json.array.injEq]
    exact visitItems_eq_iff items
  | object fields =>
    rw [visit, withoutSecrets, Plain]
    split
    · cases includeFileMetadata <;> simp
    · rw [Option.some.injEq, Json.object.injEq]
      exact visitFields_eq_iff fields
  | null | bool _ | number _ | string _ => simp [visit, withoutSecrets, Plain]

theorem visitItems_eq_iff (items : List Json) :
    visitItems includeFileMetadata (transientNames extra) items = withoutSecretsItems extra items ↔
      PlainItems extra includeFileMetadata items := by
  cases items with
  | nil => simp [visitItems, withoutSecretsItems, PlainItems]
  | cons item items =>
    rw [visitItems, withoutSecretsItems, PlainItems, ← visit_eq_iff item, ← visitItems_eq_iff items]
    cases hvisit : visit includeFileMetadata (transientNames extra) item with
    | some value => simp
    | none =>
      refine iff_of_false (fun heq => ?_) (by simp)
      have hlength := congrArg List.length heq
      have hle := length_visitItems includeFileMetadata (transientNames extra) items
      simp only [Option.toList_none, List.nil_append, List.length_cons,
        length_withoutSecretsItems] at hlength
      omega

theorem visitFields_eq_iff (fields : List (String × Json)) :
    visitFields includeFileMetadata (transientNames extra) fields =
        withoutSecretsFields extra fields ↔
      PlainFields extra includeFileMetadata fields := by
  cases fields with
  | nil => simp [visitFields, withoutSecretsFields, PlainFields]
  | cons field fields =>
    obtain ⟨name, child⟩ := field
    rw [visitFields, withoutSecretsFields, PlainFields, ← visitFields_eq_iff fields,
      isTransientFormField_transientNames]
    by_cases hskipped : (blockedKeys.contains name ||
        (name ≠ "" && isTransientFormField name extra)) = true
    · have hremoved : removed extra name = true := by
        simp only [removed, Bool.or_eq_true, Bool.and_eq_true] at hskipped ⊢
        exact hskipped.imp_right fun h => h.2
      rw [if_pos hremoved, if_pos hskipped, true_and]
      rcases Bool.or_eq_true_iff.mp hskipped with hblocked | htransient
      · rw [if_pos hblocked]
      · rw [if_pos htransient, ite_self]
    · obtain ⟨hblocked, htransient⟩ := not_or.mp fun h => hskipped (Bool.or_eq_true_iff.mpr h)
      rw [if_neg hblocked, if_neg htransient, if_neg hskipped]
      by_cases hempty : isTransientFormField name extra = true
      · -- the empty key: what is visited under it stays
        have hremoved : removed extra name = true := by simp [removed, hempty]
        rw [if_pos hremoved, if_pos hempty, ← visit_eq_none (transientNames extra)]
        cases hvisit : visit includeFileMetadata (transientNames extra) child with
        | none => simp
        | some value =>
          refine iff_of_false (fun heq => ?_) (by simp)
          have hmem : (name, value) ∈ withoutSecretsFields extra fields := by
            rw [← heq]
            simp
          rw [removed_of_mem hmem] at hremoved
          cases hremoved
      · have hkept : ¬removed extra name = true := by
          simp only [removed, Bool.or_eq_true]
          exact fun h => h.elim hblocked hempty
        rw [if_neg hkept, if_neg hempty, ← visit_eq_iff child]
        cases hvisit : visit includeFileMetadata (transientNames extra) child with
        | some value => simp
        | none =>
          refine iff_of_false (fun heq => ?_) (by simp)
          -- the entry that is missing would have to be made up for
          simp only [Option.map_none, Option.toList_none, List.nil_append] at heq
          have hall : ∀ f ∈ visitFields includeFileMetadata (transientNames extra) fields,
              !removed extra f.1 := by
            intro f hf
            rw [heq] at hf
            rcases List.mem_cons.mp hf with rfl | hf
            · simpa using hkept
            · simpa using removed_of_mem hf
          have hle := length_visitFields extra includeFileMetadata fields
          rw [List.filter_eq_self.mpr hall, heq, List.length_cons] at hle
          omega
end

end

/-- The payload without its secrets is what sanitizing gives, if and only if it is plain. -/
theorem sanitizeFormPayload_eq_iff (value : Json) (options : FormSanitizationOptions) :
    sanitizeFormPayload value options = some (withoutSecrets options.transientFieldNames value) ↔
      Plain options.transientFieldNames options.includeFileMetadata value :=
  visit_eq_iff value

/-- A mutation of a design named like a file is gone. -/
theorem sanitizeFormPayload_drops_design :
    let design : Json := .object [("name", .string "floor plan"), ("size", .number (.int 3)),
      ("type", .string "draft")]
    sanitizeFormPayload (.object [("design", design)]) {} = some (.object []) ∧
      withoutSecrets [] (.object [("design", design)]) = .object [("design", design)] := by
  constructor <;> rfl

end OptoSync.Forms
