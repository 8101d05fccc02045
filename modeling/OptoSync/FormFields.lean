import OptoSync.FormSanitize
import OptoSync.InsertionOrder

/-!
# Serializing form data

`serializeFormData` of the TypeScript package collects the entries of a form in plain objects, where
a name that is not there yet is looked up in the prototype.
-/
namespace OptoSync.Forms

open InsertionOrder

/-- What an array of field values holds. A builtin is what the prototypes have under a name. -/
inductive Item
  | string (value : String)
  | number (value : ℕ)
  | builtin (name : String)
  deriving DecidableEq

inductive Value
  | item (item : Item)
  | array (items : List Item)
  deriving DecidableEq

/-- The names of `Object.prototype`. -/
def objectPrototype : List String :=
  ["constructor", "__proto__", "hasOwnProperty", "isPrototypeOf", "propertyIsEnumerable",
    "toLocaleString", "toString", "valueOf", "__defineGetter__", "__defineSetter__",
    "__lookupGetter__", "__lookupSetter__"]

/-- The names of `Array.prototype`, but for `length`. -/
def arrayPrototype : List String :=
  ["at", "concat", "constructor", "copyWithin", "entries", "every", "fill", "filter", "find",
    "findIndex", "findLast", "findLastIndex", "flat", "flatMap", "forEach", "includes", "indexOf",
    "join", "keys", "lastIndexOf", "map", "pop", "push", "reduce", "reduceRight", "reverse", "shift",
    "slice", "some", "sort", "splice", "toLocaleString", "toReversed", "toSorted", "toSpliced",
    "toString", "unshift", "values", "with"]

/-- An object with its own properties, and the array that its prototype was set to. -/
structure Fields where
  own : InsertionMap String Value := .empty
  proto : Option (List Item) := none

namespace Fields

variable (fields : Fields)

def inherited (name : String) : Option Value :=
  match fields.proto with
  | none =>
    if name = "__proto__" then some (.item (.builtin "Object.prototype"))
    else if name ∈ objectPrototype then some (.item (.builtin name))
    else none
  | some items =>
    if name = "__proto__" then some (.array items)
    else if name = "length" then some (.item (.number items.length))
    else
      match items.zipIdx.find? fun entry => toString entry.2 = name with
      | some entry => some (.item entry.1)
      | none =>
        if name ∈ arrayPrototype ∨ name ∈ objectPrototype then some (.item (.builtin name)) else none

def get (name : String) : Option Value := (fields.own.get? name).or (fields.inherited name)

/-- `__proto__` has a setter, which takes objects only. -/
def set (name : String) (value : Value) : Fields :=
  if name = "__proto__" then
    match value with
    | .array items => { fields with proto := some items }
    | .item _ => fields
  else { fields with own := fields.own.set name value }

@[simp] theorem set_of_ne {name : String} (h : name ≠ "__proto__") (value : Value) :
    fields.set name value = { fields with own := fields.own.set name value } :=
  if_neg h

def append (name value : String) : Fields :=
  fields.set name
    (match fields.get name with
      | none => .item (.string value)
      | some (.array items) => .array (items ++ [.string value])
      | some (.item current) => .array [current, .string value])

end Fields

structure File where
  name : String
  size : ℕ
  type : String
  lastModified : ℤ
  deriving DecidableEq

inductive EntryValue
  | string (value : String)
  | file (file : File)

structure Entry where
  name : String
  value : EntryValue

structure Serialized where
  fields : Fields := {}
  files : InsertionMap String (List File) := .empty
  /-- The iterator of the extra names has ended. -/
  exhausted : Bool := false

/-- Calling `push` of what is no array. -/
inductive TypeError
  | pushIsNotAFunction

namespace Serialized

variable (s : Serialized)

/-- `(files[name] ??= []).push(…)`, where a file is its descriptor. -/
def pushFile (name : String) (file : File) : Except TypeError Serialized :=
  match s.files.get? name with
  | some files => .ok { s with files := s.files.set name (files ++ [file]) }
  | none =>
    if name ∈ objectPrototype then .error .pushIsNotAFunction
    else .ok { s with files := s.files.set name [file] }

/-- The callback of `forEach`. -/
def visitEntry (options : FormSanitizationOptions) (entry : Entry) : Except TypeError Serialized :=
  let extra := if s.exhausted then [] else options.transientFieldNames
  let s := { s with exhausted := options.oneShot }
  if isTransientFormField entry.name extra then .ok s
  else
    match entry.value with
    | .string value => .ok { s with fields := s.fields.append entry.name value }
    | .file file =>
      if options.includeFileMetadata && 0 < file.size then s.pushFile entry.name file else .ok s

end Serialized

def serialize (data : List Entry) (options : FormSanitizationOptions) :
    Except TypeError Serialized :=
  data.foldlM (fun s entry => s.visitEntry options entry) {}

/-- `fields`, and `files` where there are any. -/
def serializeFormData (data : List Entry) (options : FormSanitizationOptions) :
    Except TypeError (Fields × Option (InsertionMap String (List File))) :=
  (serialize data options).map fun s =>
    (s.fields, if s.files.keys.isEmpty then none else some s.files)

/-- The values that the form has under a name. -/
def stringsOf (data : List Entry) (name : String) : List String :=
  data.filterMap fun entry =>
    match entry.value with
    | .string value => if entry.name = name then some value else none
    | .file _ => none

def filesOf (data : List Entry) (name : String) : List File :=
  data.filterMap fun entry =>
    match entry.value with
    | .file file => if entry.name = name ∧ 0 < file.size then some file else none
    | .string _ => none

/-- One value as it is, several in an array. -/
def fieldValue : List String → Option Value
  | [] => none
  | [value] => some (.item (.string value))
  | values => some (.array (values.map .string))

/-- The files that the form is to have under a name. -/
def fileValue (data : List Entry) (options : FormSanitizationOptions) (name : String) :
    Option (List File) :=
  if !options.includeFileMetadata || isTransientFormField name options.transientFieldNames ||
    (filesOf data name).isEmpty then none
  else some (filesOf data name)

structure Faithful (data : List Entry) (options : FormSanitizationOptions) (fields : Fields)
    (files : Option (InsertionMap String (List File))) : Prop where
  plain : fields.proto = none
  get_field : ∀ name, fields.own.get? name =
    if isTransientFormField name options.transientFieldNames then none
    else fieldValue (stringsOf data name)
  get_file : ∀ name, (files.bind fun files => files.get? name) = fileValue data options name

/-- The extra names that the check of the entry at the index sees. -/
def extraAt (options : FormSanitizationOptions) (index : ℕ) : List String :=
  if options.oneShot && 0 < index then [] else options.transientFieldNames

/-- The entry at the index gets past the check of its name, and is collected. -/
def Collected (options : FormSanitizationOptions) (index : ℕ) (entry : Entry) : Prop :=
  isTransientFormField entry.name (extraAt options index) = false ∧
    match entry.value with
    | .string _ => True
    | .file file => options.includeFileMetadata = true ∧ 0 < file.size

/-- No collected entry has the name of a builtin, or one that the extra names make transient. -/
def Unmixed (data : List Entry) (options : FormSanitizationOptions) : Prop :=
  ∀ index entry, data[index]? = some entry → Collected options index entry →
    entry.name ∉ objectPrototype ∧
      isTransientFormField entry.name options.transientFieldNames = false

section
variable {data : List Entry} {options : FormSanitizationOptions} {s : Serialized} {entry : Entry}

/-- A name that is transient without extra names is transient with any. -/
theorem isTransientFormField_of_nil {name : String} (h : isTransientFormField name [] = true)
    (extra : List String) : isTransientFormField name extra = true := by
  simp only [isTransientFormField, transientNames, List.map_nil, List.append_nil,
    List.contains_append, Bool.or_eq_true] at h ⊢
  exact h.imp_left fun h => h.imp_left Or.inl

theorem isTransientFormField_of_extraAt {name : String} {index : ℕ}
    (h : isTransientFormField name (extraAt options index) = true) :
    isTransientFormField name options.transientFieldNames = true := by
  unfold extraAt at h
  split at h
  · exact isTransientFormField_of_nil h _
  · exact h

theorem serialize_concat (data : List Entry) (entry : Entry) (options : FormSanitizationOptions) :
    serialize (data ++ [entry]) options =
      serialize data options >>= fun s => s.visitEntry options entry := by
  simp [serialize, List.foldlM_append]

theorem fieldValue_concat (values : List String) (value : String) :
    fieldValue (values ++ [value]) = some
      (match fieldValue values with
        | none => .item (.string value)
        | some (.array items) => .array (items ++ [.string value])
        | some (.item current) => .array [current, .string value]) := by
  match values with
  | [] => rfl
  | [_] => rfl
  | _ :: _ :: _ => simp [fieldValue]

theorem stringsOf_concat (data : List Entry) (entry : Entry) (name : String) :
    stringsOf (data ++ [entry]) name = stringsOf data name ++ stringsOf [entry] name :=
  List.filterMap_append

theorem filesOf_concat (data : List Entry) (entry : Entry) (name : String) :
    filesOf (data ++ [entry]) name = filesOf data name ++ filesOf [entry] name :=
  List.filterMap_append

/-- What has been collected from the entries so far is what they are to give. -/
structure Collects (data : List Entry) (options : FormSanitizationOptions) (s : Serialized) :
    Prop where
  plain : s.fields.proto = none
  get_field : ∀ name, s.fields.own.get? name =
    if isTransientFormField name options.transientFieldNames then none
    else fieldValue (stringsOf data name)
  get_file : ∀ name, s.files.get? name = fileValue data options name
  exhausted : s.exhausted = (options.oneShot && 0 < data.length)

theorem Collects.start : Collects [] options {} where
  plain := rfl
  get_field name := by simp [stringsOf, fieldValue, InsertionMap.empty, InsertionMap.get?]
  get_file name := by simp [fileValue, filesOf, InsertionMap.empty, InsertionMap.get?]
  exhausted := by simp

theorem stringsOf_single_of_ne {name : String} (h : entry.name ≠ name) :
    stringsOf [entry] name = [] := by
  unfold stringsOf
  cases hvalue : entry.value <;> simp [hvalue, h]

theorem filesOf_single_of_ne {name : String} (h : entry.name ≠ name) :
    filesOf [entry] name = [] := by
  unfold filesOf
  cases hvalue : entry.value <;> simp [hvalue, h]

theorem fileValue_concat_of_nil {name : String} (h : filesOf [entry] name = []) :
    fileValue (data ++ [entry]) options name = fileValue data options name := by
  simp only [fileValue, filesOf_concat, h, List.append_nil]

/-- An entry that is to add nothing. -/
theorem Collects.skip (h : Collects data options s)
    (hskip : isTransientFormField entry.name options.transientFieldNames = true ∨
      stringsOf [entry] entry.name = [] ∧
        (options.includeFileMetadata = false ∨ filesOf [entry] entry.name = [])) :
    Collects (data ++ [entry]) options { s with exhausted := options.oneShot } where
  plain := h.plain
  get_field name := by
    refine (h.get_field name).trans ?_
    by_cases hname : entry.name = name
    · subst hname
      rcases hskip with htransient | ⟨hstrings, -⟩
      · simp [htransient]
      · rw [stringsOf_concat, hstrings, List.append_nil]
    · rw [stringsOf_concat, stringsOf_single_of_ne hname, List.append_nil]
  get_file name := by
    refine (h.get_file name).trans ?_
    by_cases hname : entry.name = name
    · subst hname
      rcases hskip with htransient | ⟨-, hmetadata | hfiles⟩
      · simp [fileValue, htransient]
      · simp [fileValue, hmetadata]
      · rw [fileValue_concat_of_nil hfiles]
    · rw [fileValue_concat_of_nil (filesOf_single_of_ne hname)]
  exhausted := by simp

theorem Fields.get_of_notMem {fields : Fields} {name : String} (hplain : fields.proto = none)
    (hname : name ∉ objectPrototype) : fields.get name = fields.own.get? name := by
  have hproto : name ≠ "__proto__" := by
    rintro rfl
    exact hname (by decide)
  simp [Fields.get, Fields.inherited, hplain, hproto, hname]

/-- A string whose name is neither transient nor that of a builtin. -/
theorem Collects.string (h : Collects data options s) {name value : String}
    (hname : name ∉ objectPrototype)
    (htransient : isTransientFormField name options.transientFieldNames = false) :
    Collects (data ++ [{ name, value := .string value }]) options
      { s with fields := s.fields.append name value, exhausted := options.oneShot } := by
  have hproto : name ≠ "__proto__" := by
    rintro rfl
    exact hname (by decide)
  have hown : (s.fields.append name value).own.get? =
      fun k => if k = name then fieldValue (stringsOf data name ++ [value]) else
        s.fields.own.get? k := by
    funext k
    have hget : s.fields.get name = fieldValue (stringsOf data name) := by
      rw [Fields.get_of_notMem h.plain hname, h.get_field, htransient]
      rfl
    rw [Fields.append, Fields.set_of_ne _ hproto, InsertionMap.get?_set, hget, fieldValue_concat]
  constructor
  case plain =>
    rw [← h.plain]
    rw [Fields.append, Fields.set_of_ne _ hproto]
  case get_field =>
    intro k
    refine (congrFun hown k).trans ?_
    by_cases hk : k = name
    · subst hk
      simp [htransient, stringsOf]
    · rw [if_neg hk, h.get_field, stringsOf_concat, stringsOf_single_of_ne (Ne.symm hk),
        List.append_nil]
  case get_file =>
    intro k
    exact (h.get_file k).trans (fileValue_concat_of_nil (by simp [filesOf])).symm
  case exhausted => simp

theorem Collects.file (h : Collects data options s) {name : String} {file : File}
    (hname : name ∉ objectPrototype)
    (htransient : isTransientFormField name options.transientFieldNames = false)
    (hmetadata : options.includeFileMetadata = true) (hsize : 0 < file.size) :
    ∃ s', ({ s with exhausted := options.oneShot } : Serialized).pushFile name file = .ok s' ∧
      Collects (data ++ [{ name, value := .file file }]) options s' := by
  have hfiles : s.files.get? name =
      if (filesOf data name).isEmpty then none else some (filesOf data name) := by
    rw [h.get_file, fileValue]
    simp [htransient, hmetadata]
  have hpush : ({ s with exhausted := options.oneShot } : Serialized).pushFile name file = .ok
      { s with
        files := s.files.set name (filesOf data name ++ [file])
        exhausted := options.oneShot } := by
    by_cases hempty : (filesOf data name).isEmpty
    · rw [if_pos hempty] at hfiles
      simp [Serialized.pushFile, hfiles, hname, List.isEmpty_iff.mp hempty]
    · rw [if_neg hempty] at hfiles
      simp [Serialized.pushFile, hfiles]
  refine ⟨_, hpush, ?_⟩
  constructor
  case plain => exact h.plain
  case get_field =>
    intro k
    exact (h.get_field k).trans (by simp [stringsOf])
  case get_file =>
    intro k
    rw [InsertionMap.get?_set]
    by_cases hk : k = name
    · subst hk
      simp [fileValue, htransient, hmetadata, filesOf, hsize]
    · rw [if_neg hk, h.get_file, fileValue_concat_of_nil (filesOf_single_of_ne (Ne.symm hk))]
  case exhausted => simp

theorem extra_eq_extraAt {index : ℕ} (h : s.exhausted = (options.oneShot && 0 < index)) :
    (if s.exhausted then [] else options.transientFieldNames) = extraAt options index := by
  simp [extraAt, h]

theorem Unmixed.of_concat (h : Unmixed (data ++ [entry]) options) : Unmixed data options := by
  intro index e hentry
  refine h index e ?_
  rw [List.getElem?_append_left (List.getElem?_eq_some_iff.mp hentry).1]
  exact hentry

theorem Unmixed.last (h : Unmixed (data ++ [entry]) options)
    (hcollected : Collected options data.length entry) :
    entry.name ∉ objectPrototype ∧
      isTransientFormField entry.name options.transientFieldNames = false :=
  h data.length entry (by simp) hcollected

theorem Collects.visitEntry (h : Collects data options s) (hunmixed : Unmixed (data ++ [entry]) options) :
    ∃ s', s.visitEntry options entry = .ok s' ∧ Collects (data ++ [entry]) options s' := by
  unfold Serialized.visitEntry
  rw [extra_eq_extraAt h.exhausted]
  by_cases hseen : isTransientFormField entry.name (extraAt options data.length) = true
  · exact ⟨_, by simp [hseen], h.skip (Or.inl (isTransientFormField_of_extraAt hseen))⟩
  · have hseen' := Bool.eq_false_iff.mpr hseen
    obtain ⟨name, value⟩ := entry
    cases value with
    | string value =>
      obtain ⟨hname, htransient⟩ := hunmixed.last ⟨hseen', trivial⟩
      exact ⟨_, by simp [hseen'], h.string hname htransient⟩
    | file file =>
      by_cases hkept : options.includeFileMetadata = true ∧ 0 < file.size
      · obtain ⟨hname, htransient⟩ := hunmixed.last ⟨hseen', hkept⟩
        obtain ⟨s', hpush, hs'⟩ := h.file hname htransient hkept.1 hkept.2
        exact ⟨s', by simpa [hseen', hkept.1, hkept.2] using hpush, hs'⟩
      · have hnot : (options.includeFileMetadata && decide (0 < file.size)) = false := by
          simpa using hkept
        refine ⟨_, by simp [hseen', hnot], h.skip (Or.inr ⟨by simp [stringsOf], ?_⟩)⟩
        by_cases hmetadata : options.includeFileMetadata = true
        · exact Or.inr (by simpa [filesOf, hmetadata] using hnot)
        · exact Or.inl (Bool.eq_false_iff.mpr hmetadata)

theorem Collects.of_unmixed (hunmixed : Unmixed data options) :
    ∃ s, serialize data options = .ok s ∧ Collects data options s := by
  induction data using List.reverseRecOn with
  | nil => exact ⟨_, rfl, Collects.start⟩
  | append_singleton data entry ih =>
    obtain ⟨s, hs, hcollects⟩ := ih hunmixed.of_concat
    obtain ⟨s', hs', hcollects'⟩ := hcollects.visitEntry hunmixed
    exact ⟨s', by rw [serialize_concat, hs]; exact hs', hcollects'⟩

theorem Fields.append_proto {fields : Fields} (hown : fields.own.get? "__proto__" = none)
    (value : String) : ∃ items, fields.append "__proto__" value =
      { fields with proto := some items } := by
  have hget : fields.get "__proto__" = fields.inherited "__proto__" := by
    rw [Fields.get, hown]
    rfl
  unfold Fields.append
  rw [hget]
  cases hproto : fields.proto with
  | none =>
    exact ⟨[.builtin "Object.prototype", .string value], by simp [Fields.inherited, hproto, Fields.set]⟩
  | some items => exact ⟨items ++ [.string value], by simp [Fields.inherited, hproto, Fields.set]⟩

/-- An array that begins with a builtin. -/
def Value.startsWithBuiltin : Value → Prop
  | .array (.builtin _ :: _) => True
  | _ => False

/-- What a string of the form is stored as under the name of a builtin. -/
theorem Fields.append_builtin {fields : Fields} {name : String} (hplain : fields.proto = none)
    (hname : name ∈ objectPrototype) (hproto : name ≠ "__proto__")
    (hown : ∀ v, fields.own.get? name = some v → v.startsWithBuiltin) (value : String) :
    ∃ v, fields.append name value = { fields with own := fields.own.set name v } ∧
      v.startsWithBuiltin := by
  unfold Fields.append
  rw [Fields.set_of_ne _ hproto]
  refine ⟨_, rfl, ?_⟩
  cases hget : fields.own.get? name with
  | none =>
    simp [Fields.get, hget, Fields.inherited, hplain, hproto, hname, Value.startsWithBuiltin]
  | some v =>
    have hv := hown v hget
    cases v with
    | item item => exact False.elim hv
    | array items =>
      cases items with
      | nil => exact False.elim hv
      | cons item items =>
        cases item with
        | builtin text => simp [Fields.get, hget, Value.startsWithBuiltin]
        | string _ | number _ => exact False.elim hv

theorem not_startsWithBuiltin_fieldValue {values : List String} {v : Value}
    (h : fieldValue values = some v) : ¬ v.startsWithBuiltin := by
  match values with
  | [value] =>
    cases h
    exact id
  | value :: next :: values =>
    cases h
    exact id

/-- The fields of a run that has not thrown. A builtin, once read, stays. -/
structure Fields.Traces (fields : Fields) : Prop where
  own_proto : fields.own.get? "__proto__" = none
  builtin : fields.proto = none → ∀ name ∈ objectPrototype, ∀ v,
    fields.own.get? name = some v → v.startsWithBuiltin

theorem Fields.Traces.append {fields : Fields} (h : fields.Traces) (name value : String) :
    (fields.append name value).Traces := by
  by_cases hproto : name = "__proto__"
  · subst hproto
    obtain ⟨items, happend⟩ := Fields.append_proto h.own_proto value
    rw [happend]
    exact ⟨h.own_proto, fun hnone => absurd hnone (Option.some_ne_none _)⟩
  · constructor
    case own_proto =>
      rw [Fields.append, Fields.set_of_ne _ hproto, InsertionMap.get?_set, if_neg (Ne.symm hproto)]
      exact h.own_proto
    case builtin =>
      intro hplain k hk v hv
      have hplain' : fields.proto = none := by
        rw [← hplain, Fields.append, Fields.set_of_ne _ hproto]
      by_cases hname : name ∈ objectPrototype
      · obtain ⟨v', happend, hv'⟩ :=
          Fields.append_builtin hplain' hname hproto (h.builtin hplain' name hname) value
        rw [happend, InsertionMap.get?_set] at hv
        split at hv
        · cases hv
          exact hv'
        · exact h.builtin hplain' k hk v hv
      · have hne : k ≠ name := fun heq => hname (heq ▸ hk)
        rw [Fields.append, Fields.set_of_ne _ hproto, InsertionMap.get?_set, if_neg hne] at hv
        exact h.builtin hplain' k hk v hv

/-- The name has a value, or the object has lost its prototype. -/
def Fields.Touched (fields : Fields) (name : String) : Prop :=
  fields.proto = none → fields.own.get? name ≠ none

theorem Fields.Traces.touched_append {fields : Fields} (h : fields.Traces) (name value : String) :
    (fields.append name value).Touched name := by
  intro hplain
  by_cases hproto : name = "__proto__"
  · subst hproto
    obtain ⟨items, happend⟩ := Fields.append_proto h.own_proto value
    rw [happend] at hplain
    exact absurd hplain (Option.some_ne_none _)
  · rw [Fields.append, Fields.set_of_ne _ hproto, InsertionMap.get?_set, if_pos rfl]
    exact Option.some_ne_none _

theorem Fields.Traces.touched_mono {fields : Fields} (h : fields.Traces) {k : String}
    (hk : fields.Touched k) (name value : String) : (fields.append name value).Touched k := by
  intro hplain
  by_cases hproto : name = "__proto__"
  · subst hproto
    obtain ⟨items, happend⟩ := Fields.append_proto h.own_proto value
    rw [happend] at hplain
    exact absurd hplain (Option.some_ne_none _)
  · rw [Fields.append, Fields.set_of_ne _ hproto] at hplain ⊢
    rw [InsertionMap.get?_set]
    split
    · exact Option.some_ne_none _
    · exact hk hplain

/-- A collected entry has left its name in the fields or in the files. -/
def Serialized.Left (s : Serialized) (entry : Entry) : Prop :=
  match entry.value with
  | .string _ => s.fields.Touched entry.name
  | .file _ => s.files.get? entry.name ≠ none ∧ entry.name ∉ objectPrototype

/-- What one entry does that does not throw. -/
theorem Serialized.visitEntry_cases {s' : Serialized} (h : s.visitEntry options entry = .ok s') :
    s'.exhausted = options.oneShot ∧
      (s'.fields = s.fields ∨ ∃ value, s'.fields = s.fields.append entry.name value) ∧
      (s'.files = s.files ∨ ∃ files, s'.files = s.files.set entry.name files) := by
  simp only [Serialized.visitEntry] at h
  generalize (if s.exhausted = true then [] else options.transientFieldNames) = extra at h
  obtain ⟨name, value⟩ := entry
  split at h
  · cases h
    exact ⟨rfl, Or.inl rfl, Or.inl rfl⟩
  · cases value with
    | string value =>
      cases h
      exact ⟨rfl, Or.inr ⟨value, rfl⟩, Or.inl rfl⟩
    | file file =>
      simp only [Serialized.pushFile] at h
      split at h
      · split at h
        · cases h
          exact ⟨rfl, Or.inl rfl, Or.inr ⟨_, rfl⟩⟩
        · split at h
          · cases h
          · cases h
            exact ⟨rfl, Or.inl rfl, Or.inr ⟨_, rfl⟩⟩
      · cases h
        exact ⟨rfl, Or.inl rfl, Or.inl rfl⟩

theorem Serialized.Left.mono {s' : Serialized} {e : Entry} (htraces : s.fields.Traces)
    (h : s.Left e) (hvisit : s.visitEntry options entry = .ok s') : s'.Left e := by
  obtain ⟨-, hfields, hfiles⟩ := Serialized.visitEntry_cases hvisit
  obtain ⟨name, value⟩ := e
  cases value with
  | string =>
    change s.fields.Touched name at h
    change s'.fields.Touched name
    rcases hfields with hfields | ⟨value, hfields⟩
    · rw [hfields]
      exact h
    · rw [hfields]
      exact htraces.touched_mono h entry.name value
  | file =>
    refine ⟨?_, h.2⟩
    rcases hfiles with hfiles | ⟨files, hfiles⟩
    · rw [hfiles]
      exact h.1
    · rw [hfiles, InsertionMap.get?_set]
      split
      · exact Option.some_ne_none _
      · exact h.1

theorem Serialized.Left.last {s' : Serialized} {index : ℕ} (htraces : s.fields.Traces)
    (hfiles : ∀ name ∈ objectPrototype, s.files.get? name = none)
    (hexhausted : s.exhausted = (options.oneShot && 0 < index))
    (hcollected : Collected options index entry) (hvisit : s.visitEntry options entry = .ok s') :
    s'.Left entry := by
  obtain ⟨hseen, hkept⟩ := hcollected
  unfold Serialized.visitEntry at hvisit
  rw [extra_eq_extraAt hexhausted] at hvisit
  simp only [hseen, Bool.false_eq_true, if_false] at hvisit
  obtain ⟨name, value⟩ := entry
  cases value with
  | string value =>
    cases hvisit
    exact htraces.touched_append name value
  | file file =>
    simp only [hkept.1, hkept.2, decide_true, Bool.and_self, if_true, Serialized.pushFile] at hvisit
    split at hvisit
    · rename_i files hget
      cases hvisit
      refine ⟨by simp [InsertionMap.get?_set], fun hname => ?_⟩
      rw [hfiles name hname] at hget
      cases hget
    · split at hvisit
      · cases hvisit
      · rename_i hname
        cases hvisit
        exact ⟨by simp [InsertionMap.get?_set], hname⟩

structure Traces (data : List Entry) (options : FormSanitizationOptions) (s : Serialized) :
    Prop where
  fields : s.fields.Traces
  files : ∀ name ∈ objectPrototype, s.files.get? name = none
  left : ∀ index entry, data[index]? = some entry → Collected options index entry → s.Left entry
  exhausted : s.exhausted = (options.oneShot && 0 < data.length)

theorem Traces.start : Traces [] options {} where
  fields := ⟨rfl, fun _ _ _ _ hv => by cases hv⟩
  files _ _ := rfl
  left _ _ hentry := by cases hentry
  exhausted := by simp

/-- The names of builtins that were read and not set cannot be pushed on. -/
theorem Serialized.visitEntry_files {s' : Serialized}
    (hfiles : ∀ name ∈ objectPrototype, s.files.get? name = none)
    (hvisit : s.visitEntry options entry = .ok s') :
    ∀ name ∈ objectPrototype, s'.files.get? name = none := by
  simp only [Serialized.visitEntry] at hvisit
  generalize (if s.exhausted = true then [] else options.transientFieldNames) = extra at hvisit
  obtain ⟨name, value⟩ := entry
  split at hvisit
  · cases hvisit
    exact hfiles
  · cases value with
    | string value =>
      cases hvisit
      exact hfiles
    | file file =>
      simp only [Serialized.pushFile] at hvisit
      split at hvisit
      · split at hvisit
        · rename_i files hget
          cases hvisit
          intro k hk
          rw [InsertionMap.get?_set]
          split
          · rename_i heq
            rw [← heq, hfiles k hk] at hget
            cases hget
          · exact hfiles k hk
        · split at hvisit
          · cases hvisit
          · rename_i hname
            cases hvisit
            intro k hk
            have hne : k ≠ name := fun heq => hname (heq ▸ hk)
            rw [InsertionMap.get?_set, if_neg hne]
            exact hfiles k hk
      · cases hvisit
        exact hfiles

theorem Traces.visitEntry {s' : Serialized} (h : Traces data options s)
    (hvisit : s.visitEntry options entry = .ok s') : Traces (data ++ [entry]) options s' := by
  obtain ⟨hexhausted, hfields, -⟩ := Serialized.visitEntry_cases hvisit
  constructor
  case fields =>
    rcases hfields with hfields | ⟨value, hfields⟩
    · rw [hfields]
      exact h.fields
    · rw [hfields]
      exact h.fields.append _ _
  case files => exact Serialized.visitEntry_files h.files hvisit
  case left =>
    intro index e hentry hcollected
    rcases lt_or_ge index data.length with hlt | hge
    · rw [List.getElem?_append_left hlt] at hentry
      exact (h.left index e hentry hcollected).mono h.fields hvisit
    · rw [List.getElem?_append_right hge, List.getElem?_singleton] at hentry
      split at hentry
      · rename_i hindex
        have heq : index = data.length := by omega
        cases hentry
        subst heq
        exact Serialized.Left.last h.fields h.files h.exhausted hcollected hvisit
      · cases hentry
  case exhausted => simpa using hexhausted

theorem Traces.of_serialize (hs : serialize data options = .ok s) : Traces data options s := by
  induction data using List.reverseRecOn generalizing s with
  | nil =>
    cases hs
    exact Traces.start
  | append_singleton data entry ih =>
    rw [serialize_concat] at hs
    cases hprev : serialize data options with
    | error e =>
      rw [hprev] at hs
      cases hs
    | ok s' =>
      rw [hprev] at hs
      exact (ih hprev).visitEntry hs

theorem get?_of_keys_isEmpty {files : InsertionMap String (List File)}
    (h : files.keys.isEmpty = true) (name : String) : files.get? name = none := by
  have hentries : files.entries = [] := List.map_eq_nil_iff.mp (List.isEmpty_iff.mp h)
  rw [InsertionMap.get?, hentries]
  rfl

theorem bind_get? (files : InsertionMap String (List File)) (name : String) :
    ((if files.keys.isEmpty then none else some files).bind fun files => files.get? name) =
      files.get? name := by
  split
  · rename_i hempty
    exact (get?_of_keys_isEmpty hempty name).symm
  · rfl

theorem Traces.unmixed (h : Traces data options s)
    (hfaithful : Faithful data options s.fields
      (if s.files.keys.isEmpty then none else some s.files)) : Unmixed data options := by
  intro index entry hentry hcollected
  have hleft := h.left index entry hentry hcollected
  obtain ⟨name, value⟩ := entry
  cases value with
  | string value =>
    have hget := hfaithful.get_field name
    have hvalue : s.fields.own.get? name ≠ none := hleft hfaithful.plain
    split at hget
    · exact absurd hget hvalue
    · rename_i htransient
      refine ⟨fun hname => ?_, Bool.eq_false_iff.mpr htransient⟩
      obtain ⟨v, hv⟩ := Option.ne_none_iff_exists'.mp hvalue
      exact not_startsWithBuiltin_fieldValue (hget ▸ hv)
        (h.fields.builtin hfaithful.plain name hname v hv)
  | file file =>
    refine ⟨hleft.2, ?_⟩
    have hget := hfaithful.get_file name
    rw [bind_get?] at hget
    by_contra htransient
    refine hleft.1 (hget.trans ?_)
    simp [fileValue, Bool.not_eq_false _ ▸ htransient]

end

/-- The fields and files are faithful exactly for data without a collected entry whose name is that
of a builtin, or is transient by an extra name that its check has not seen. -/
theorem serializeFormData_faithful_iff (data : List Entry) (options : FormSanitizationOptions) :
    (∃ fields files, serializeFormData data options = .ok (fields, files) ∧
      Faithful data options fields files) ↔ Unmixed data options := by
  constructor
  · rintro ⟨fields, files, hresult, hfaithful⟩
    unfold serializeFormData at hresult
    cases hs : serialize data options with
    | error e =>
      rw [hs] at hresult
      cases hresult
    | ok s =>
      rw [hs] at hresult
      cases hresult
      exact (Traces.of_serialize hs).unmixed hfaithful
  · intro hunmixed
    obtain ⟨s, hs, hcollects⟩ := Collects.of_unmixed hunmixed
    refine ⟨_, _, by rw [serializeFormData, hs]; rfl, hcollects.plain, hcollects.get_field, ?_⟩
    intro name
    rw [bind_get?]
    exact hcollects.get_file name

/-- A text field called `constructor` comes out as an array that begins with a function, and a file
field of that name throws. -/
theorem serializeFormData_constructor :
    (∃ error, serializeFormData
        [{ name := "constructor", value := .file ⟨"cv.pdf", 1, "application/pdf", 0⟩ }]
        { includeFileMetadata := true } = .error error) ∧
    ¬ ∃ fields files,
      serializeFormData [{ name := "constructor", value := .string "Ada" }] {} =
          .ok (fields, files) ∧
        Faithful [{ name := "constructor", value := .string "Ada" }] {} fields files := by
  have hget : (serializeFormData [{ name := "constructor", value := .string "Ada" }] {}).toOption.map
        (fun result => result.1.own.get? "constructor") =
      some (some (.array [.builtin "constructor", .string "Ada"])) := by decide +kernel
  have htransient : isTransientFormField "constructor" [] = false := by decide +kernel
  refine ⟨⟨.pushIsNotAFunction, ?_⟩, ?_⟩
  · simp [serializeFormData, serialize, Serialized.visitEntry, htransient, Serialized.pushFile,
      InsertionMap.empty, InsertionMap.get?, objectPrototype, Except.map]
  · rintro ⟨fields, files, hresult, hfaithful⟩
    have hfield := hfaithful.get_field "constructor"
    rw [hresult] at hget
    have hown : fields.own.get? "constructor" =
        some (.array [.builtin "constructor", .string "Ada"]) := Option.some_inj.mp hget
    rw [htransient, hown] at hfield
    simp [stringsOf, fieldValue] at hfield

end OptoSync.Forms
