import OptoSync.Entries
import OptoSync.StreamEncodeGo

/-!
# Decoding what was encoded in Go

What the decoders of `DecodeLine` make of the objects of `EncodeMessage`: the embedded values in
canonical form, and nothing in the fields that an operation or an outcome does not use.
-/
namespace OptoSync.Stream.Go

open CanonicalForm (Accepted Plain form sortByKey)
open CanonicalJson.Go (canonicalNumber marshal)
open Document (ofJson entries)

/-- A value in canonical form, if it has one. -/
def canonicalValue (v : Json) : Json := form canonicalNumber marshal v

def Operation.canonical (operation : Operation) : Operation :=
  { operation with
    initialState := canonicalValue operation.initialState
    logicalTime := canonicalValue operation.logicalTime
    arguments := canonicalValue operation.arguments
    snapshot := canonicalValue operation.snapshot }

def Request.canonical (request : Request) : Request :=
  { request with operation := request.operation.canonical }

def StreamError.canonical (error : StreamError) : StreamError :=
  { error with data := canonicalValue error.data }

def Outcome.canonical (outcome : Outcome) : Outcome :=
  { outcome with
    value := canonicalValue outcome.value
    error := outcome.error.map StreamError.canonical }

def Response.canonical (response : Response) : Response :=
  { response with outcome := response.outcome.canonical }

/-- The fields that the operation uses. -/
def Operation.used (operation : Operation) : Operation :=
  match operation.name with
  | "reset" =>
    { name := operation.name, initialState := operation.initialState, seed := operation.seed,
      logicalTime := operation.logicalTime }
  | "apply" =>
    { name := operation.name, action := operation.action, logicalTime := operation.logicalTime,
      arguments := operation.arguments }
  | "settle" => { name := operation.name, maxSteps := operation.maxSteps }
  | "restore" =>
    { name := operation.name, snapshot := operation.snapshot, schemaHash := operation.schemaHash }
  | "fault" =>
    { name := operation.name, fault := operation.fault, arguments := operation.arguments }
  | _ => { name := operation.name }

def Outcome.used (outcome : Outcome) : Outcome :=
  if outcome.kind = "ok" then { kind := outcome.kind, value := outcome.value }
  else { kind := outcome.kind, error := outcome.error }

/-- The values that an operation embeds, used or not. -/
def Operation.values (operation : Operation) : List Json :=
  [operation.initialState, operation.logicalTime, operation.arguments, operation.snapshot]

/-- The object has the fields in canonical form. -/
def Holds (object : Object) (fields : List (String × Json)) : Prop :=
  ∀ key, object.lookup key = (fields.lookup key).map fun v => ofJson (canonicalValue v)

theorem canonicalValue_object {fields : List (String × Json)} (hplain : Plain fields)
    (haccepted : ∀ f ∈ fields, Accepted canonicalNumber marshal f.2) :
    Accepted canonicalNumber marshal (.object fields) ∧
      canonicalValue (.object fields) =
        .object (sortByKey (fields.map fun f => (f.1, canonicalValue f.2))) := by
  refine CanonicalForm.canonicalize_eq_some.mp ?_
  rw [CanonicalForm.canonicalize_plain hplain,
    CanonicalForm.canonicalizeFields_eq_some.mpr ⟨haccepted, rfl⟩]
  rfl

theorem accepted_of_object {fields : List (String × Json)} (hplain : Plain fields)
    (h : Accepted canonicalNumber marshal (.object fields)) :
    ∀ f ∈ fields, Accepted canonicalNumber marshal f.2 := by
  have hform := h.eq_form
  rw [CanonicalForm.canonicalize_plain hplain] at hform
  obtain ⟨gs, hgs, -⟩ := Option.map_eq_some_iff.mp hform
  exact (CanonicalForm.canonicalizeFields_eq_some.mp hgs).1

theorem entries_ofFields (fields : List (String × Json)) :
    entries (Document.ofFields fields) = fields.map fun f => (f.1, ofJson f.2) := by
  rw [Document.ofFields_eq_map, entries, List.map_map]
  rfl

theorem decodeObject_ofJson (fields : List (String × Json)) (hplain : Plain fields)
    (hnodup : (fields.map Prod.fst).Nodup)
    (haccepted : ∀ f ∈ fields, Accepted canonicalNumber marshal f.2) (label : String) :
    ∃ object, decodeObject (some (ofJson (canonicalValue (.object fields)))) label = .ok object ∧
      Holds object fields := by
  rw [(canonicalValue_object hplain haccepted).2, ofJson]
  refine ⟨_, rfl, fun key => ?_⟩
  rw [entries_ofFields]
  have hperm : (((sortByKey (fields.map fun f => (f.1, canonicalValue f.2))).map
      fun f => (f.1, ofJson f.2)).reverse).Perm
        (fields.map fun f => (f.1, ofJson (canonicalValue f.2))) := by
    refine (List.reverse_perm _).trans (((CanonicalForm.sortByKey_perm _).map _).trans ?_)
    rw [List.map_map]
    exact .refl _
  rw [Entries.lookup_perm hperm, Entries.lookup_map_snd fun v => ofJson (canonicalValue v)]
  refine (hperm.map _).nodup_iff.mpr ?_
  rw [List.map_map]
  exact hnodup

theorem Holds.lookup {object : Object} {fields : List (String × Json)} (h : Holds object fields)
    (key : String) (v : Json) (hv : fields.lookup key = some v) :
    object.lookup key = some (ofJson (canonicalValue v)) := by
  rw [h key, hv]
  rfl

theorem requireKeys_of_holds {object : Object} {fields : List (String × Json)}
    (h : Holds object fields) (label : String) {required optional : List String}
    (hrequired : ∀ key ∈ required, key ∈ fields.map Prod.fst)
    (hknown : ∀ key ∈ fields.map Prod.fst, key ∈ required ∨ key ∈ optional) :
    requireKeys object label required optional = .ok () := by
  have hkeys : ∀ key, key ∈ (object.map Prod.fst).dedup ↔ key ∈ fields.map Prod.fst := by
    intro key
    rw [List.mem_dedup, Entries.mem_keys_iff, Entries.mem_keys_iff, h key, Option.isSome_map]
  have hfind : (required.find? fun key => key ∉ (object.map Prod.fst).dedup) = none := by
    rw [List.find?_eq_none]
    intro key hkey
    simpa using (hkeys key).mpr (hrequired key hkey)
  have hunknown : ((object.map Prod.fst).dedup.filter
      fun key => key ∉ required ∧ key ∉ optional) = [] := by
    rw [List.filter_eq_nil_iff]
    intro key hkey
    rw [decide_eq_true_iff, not_and_or, not_not, not_not]
    exact hknown key ((hkeys key).mp hkey)
  unfold requireKeys
  simp only [hfind, hunknown]
  rw [if_neg (by simp)]

theorem accepted_string (value : String) : Accepted canonicalNumber marshal (.string value) := rfl

theorem accepted_null : Accepted canonicalNumber marshal .null := rfl

theorem accepted_int {z : ℤ} (hlow : -2 ^ 63 ≤ z) (hhigh : z < 2 ^ 64) :
    Accepted canonicalNumber marshal (.number (.int z)) := by
  have hnumber : canonicalNumber (.int z) = some z := by
    rw [CanonicalJson.canonicalNumber_int, CanonicalJson.integerNumber, if_pos ⟨hlow, hhigh⟩]
  exact (CanonicalForm.canonicalize_eq_some.mp
    (CanonicalForm.canonicalize_number.mpr ⟨z, hnumber, rfl⟩)).1

theorem canonicalValue_int (z : ℤ) : canonicalValue (.number (.int z)) = .number (.int z) := by
  unfold canonicalValue form
  cases h : CanonicalForm.canonicalize canonicalNumber marshal (.number (.int z)) with
  | none => rfl
  | some w =>
    obtain ⟨y, hy, rfl⟩ := CanonicalForm.canonicalize_number.mp h
    rw [CanonicalJson.canonicalNumber_int, CanonicalJson.integerNumber,
      Option.ite_none_right_eq_some] at hy
    rw [Option.some.inj hy.2]
    rfl

theorem canonicalValue_fixed {v : Json} (h : Accepted canonicalNumber marshal v) :
    CanonicalJson.Go.canonicalize (canonicalValue v) = some (canonicalValue v) :=
  (CanonicalForm.transfers (fun _ _ h => CanonicalJson.canonicalNumber_fix h) v marshal marshal
    CanonicalJson.faithful_marshal CanonicalJson.faithful_marshal h).2

theorem requireCanonical_iff {v : Json} :
    requireCanonical v = .ok () ↔ Accepted canonicalNumber marshal v := by
  unfold requireCanonical
  split
  · rename_i h
    exact iff_of_true rfl h
  · rename_i h
    exact iff_of_false (fun heq => by cases heq) h

theorem canonicalValue_null_iff {v : Json} : canonicalValue v = .null ↔ v = .null := by
  constructor
  · intro h
    unfold canonicalValue form at h
    cases hv : CanonicalForm.canonicalize canonicalNumber marshal v with
    | none =>
      rw [hv] at h
      exact h
    | some w =>
      rw [hv] at h
      obtain rfl : w = .null := h
      cases v with
      | null => rfl
      | array items =>
        obtain ⟨ws, -, hw⟩ := Option.map_eq_some_iff.mp hv
        cases hw
      | object fields =>
        obtain ⟨gs, hgs⟩ := CanonicalForm.object_of_canonicalize hv
        cases hgs
      | number n =>
        obtain ⟨z, -, hw⟩ := CanonicalForm.canonicalize_number.mp hv
        cases hw
      | _ => cases hv
  · rintro rfl
    rfl

theorem decodeCanonical_ofJson {v : Json} (h : Accepted canonicalNumber marshal v)
    (hdistinct : v.distinctKeys = true) :
    decodeCanonical (some (ofJson (canonicalValue v))) = .ok (canonicalValue v) := by
  have hvalue : (ofJson (canonicalValue v)).value = canonicalValue v :=
    Document.value_ofJson _ (CanonicalForm.sortedKeys_form v h hdistinct)
  rw [decodeCanonical, hvalue, canonicalValue_fixed h]

theorem decodeText_ofJson (value label : String) :
    decodeText (some (ofJson (canonicalValue (.string value)))) label = .ok value := rfl

theorem decodeBool_ofJson (value : Bool) (label : String) :
    decodeBool (some (ofJson (canonicalValue (.bool value)))) label = .ok value := rfl

theorem decodeUint64_ofJson {n : ℕ} (h : n < 2 ^ 64) (label : String) :
    decodeUint64 (some (ofJson (canonicalValue (.number (.int n))))) label = .ok n := by
  have hhigh : (n : ℤ) < 2 ^ 64 := by exact_mod_cast h
  rw [canonicalValue_int, ofJson, decodeUint64]
  exact if_pos ⟨Int.natCast_nonneg n, hhigh⟩

theorem decodeInt_ofJson {z : ℤ} (hlow : -2 ^ 63 ≤ z) (hhigh : z < 2 ^ 63) (label : String) :
    decodeInt (some (ofJson (canonicalValue (.number (.int z))))) label = .ok z := by
  rw [canonicalValue_int, ofJson, decodeInt]
  exact if_pos ⟨hlow, hhigh⟩

theorem StreamError.accepted_data {error : StreamError} (h : error.validate = .ok ()) :
    Accepted canonicalNumber marshal error.data := by
  obtain ⟨-, -, h⟩ := Transition.bind_eq_ok.mp h
  obtain ⟨-, -, h⟩ := Transition.bind_eq_ok.mp h
  split at h
  · exact requireCanonical_iff.mp h
  · rename_i hnull
    rw [not_not.mp hnull]
    exact accepted_null

theorem StreamError.validate_canonical {error : StreamError} (h : error.validate = .ok ()) :
    error.canonical.validate = .ok () := by
  have haccepted := StreamError.accepted_data h
  obtain ⟨_, hcode, h⟩ := Transition.bind_eq_ok.mp h
  obtain ⟨_, hmessage, h⟩ := Transition.bind_eq_ok.mp h
  refine Transition.bind_eq_ok.mpr ⟨(), hcode, Transition.bind_eq_ok.mpr ⟨(), hmessage, ?_⟩⟩
  split
  · exact requireCanonical_iff.mpr
      (CanonicalForm.canonicalize_eq_some.mp (canonicalValue_fixed haccepted)).1
  · rfl

theorem StreamError.plain_fields (error : StreamError) : Plain
    ([("code", .string error.code), ("message", .string error.message),
      ("retryable", .bool error.retryable)] ++ omitted "data" error.data (error.data = .null)) :=
  CanonicalForm.plain_of_two (by simp)

theorem decodeStreamError_ofJson {error : StreamError} (hvalid : error.validate = .ok ())
    (hdistinct : error.data.distinctKeys = true) :
    decodeStreamError (some (ofJson (canonicalValue error.object))) = .ok error.canonical := by
  have hdata := StreamError.accepted_data hvalid
  obtain ⟨object, hobject, hholds⟩ := decodeObject_ofJson _ error.plain_fields
    (by by_cases hnull : error.data = .null <;> simp [omitted, hnull])
    (by
      by_cases hnull : error.data = .null <;> simp [omitted, hnull, accepted_string]
      · rfl
      · exact ⟨rfl, hdata⟩)
    "stream error"
  have hkeys : requireKeys object "stream error" ["code", "message", "retryable"] ["data"] =
      .ok () :=
    requireKeys_of_holds hholds _ (by simp) (by
      by_cases hnull : error.data = .null <;> simp [omitted, hnull])
  have hcode := hholds.lookup "code" (.string error.code) rfl
  have hmessage := hholds.lookup "message" (.string error.message) rfl
  have hretryable := hholds.lookup "retryable" (.bool error.retryable) rfl
  have hoptional : decodeOptional object "data" .null decodeCanonical =
      .ok (canonicalValue error.data) := by
    by_cases hnull : error.data = .null
    · have hnone : object.lookup "data" = none := by
        simp [hholds "data", List.lookup, omitted, hnull]
      rw [decodeOptional, hnone, hnull]
      rfl
    · have hsome : object.lookup "data" = some (ofJson (canonicalValue error.data)) := by
        simp [hholds "data", List.lookup, omitted, hnull]
      rw [decodeOptional, hsome]
      exact decodeCanonical_ofJson hdata hdistinct
  have hresult : StreamError.validate
      { code := error.code, message := error.message, retryable := error.retryable,
        data := canonicalValue error.data } = .ok () := StreamError.validate_canonical hvalid
  unfold decodeStreamError
  rw [StreamError.object, hobject]
  simp only [bind, Except.bind, hkeys, hcode, hmessage, hretryable, decodeText_ofJson,
    decodeBool_ofJson, hoptional, hresult]
  rfl

/-! ## Operations -/

theorem Operation.name_mem {operation : Operation} (h : operation.validate = .ok ()) :
    operation.name ∈ ["hello", "reset", "apply", "observe", "settle", "snapshot", "restore", "fault",
      "close"] := by
  unfold Operation.validate at h
  split at h
  case h_10 => cases h
  all_goals simp [*]

/-- The operation is one that has a name alone. -/
theorem decodeOperation_bare {operation : Operation}
    (hname : operation.name ∈ ["hello", "observe", "snapshot", "close"]) :
    decodeOperation (some (ofJson (canonicalValue operation.object))) =
      .ok operation.used.canonical := by
  have hfields : operation.fields = [] := by
    simp only [List.mem_cons, List.not_mem_nil, or_false] at hname
    rcases hname with hname | hname | hname | hname <;> simp [Operation.fields, hname]
  have hused : operation.used = { name := operation.name } := by
    simp only [List.mem_cons, List.not_mem_nil, or_false] at hname
    rcases hname with hname | hname | hname | hname <;> simp [Operation.used, hname]
  obtain ⟨object, hobject, hholds⟩ := decodeObject_ofJson
    [("name", .string operation.name)]
    (by
      rintro k v ⟨⟩
      decide) (by simp) (by simp [accepted_string]) "operation"
  have hkeys : requireExactKeys object "operation" ["name"] = .ok () :=
    requireKeys_of_holds hholds _ (by simp) (by simp)
  have hlookup : object.lookup "name" = some (ofJson (canonicalValue (.string operation.name))) := by
    simp [hholds "name"]
  unfold decodeOperation
  rw [Operation.object, hfields, hobject]
  simp only [bind, Except.bind, hlookup, decodeText_ofJson]
  simp only [List.mem_cons, List.not_mem_nil, or_false] at hname
  rcases hname with hname | hname | hname | hname <;>
    simp only [hname, hkeys, hused] <;> rfl

theorem decodeOperation_reset {operation : Operation} (hname : operation.name = "reset")
    (hinitial : Accepted canonicalNumber marshal operation.initialState)
    (htime : Accepted canonicalNumber marshal operation.logicalTime)
    (hdinitial : operation.initialState.distinctKeys = true)
    (hdtime : operation.logicalTime.distinctKeys = true) :
    decodeOperation (some (ofJson (canonicalValue operation.object))) =
      .ok operation.used.canonical := by
  have hfields : operation.fields = [("initialState", operation.initialState),
      ("logicalTime", operation.logicalTime)] ++
        omitted "seed" (.string operation.seed) (operation.seed = "") := by
    simp only [Operation.fields, hname]
  obtain ⟨object, hobject, hholds⟩ := decodeObject_ofJson
    (("name", .string operation.name) :: operation.fields)
    (CanonicalForm.plain_of_two (by simp [hfields]))
    (by by_cases hseed : operation.seed = "" <;> simp [hfields, omitted, hseed])
    (by
      by_cases hseed : operation.seed = "" <;>
        simp [hfields, omitted, hseed, accepted_string, hinitial, htime])
    "operation"
  have hkeys : requireKeys object "operation" ["name", "initialState", "logicalTime"] ["seed"] =
      .ok () :=
    requireKeys_of_holds hholds _ (by simp [hfields]) (by
      by_cases hseed : operation.seed = "" <;> simp [hfields, omitted, hseed])
  have hseed : decodeOptional object "seed" "" (fun raw => decodeText raw "seed") =
      .ok operation.seed := by
    by_cases hempty : operation.seed = ""
    · have hnone : object.lookup "seed" = none := by
        simp [hholds "seed", hfields, omitted, hempty, List.lookup]
      rw [decodeOptional, hnone, hempty]
      rfl
    · have hsome : object.lookup "seed" = some (ofJson (canonicalValue (.string operation.seed))) :=
        hholds.lookup _ _ (by simp [hfields, omitted, hempty, List.lookup])
      rw [decodeOptional, hsome]
      rfl
  unfold decodeOperation
  rw [Operation.object, hobject]
  simp only [bind, Except.bind, hholds.lookup "name" (.string operation.name) rfl,
    decodeText_ofJson, hname, hkeys,
    hholds.lookup "initialState" operation.initialState (by simp [hfields, List.lookup]),
    hholds.lookup "logicalTime" operation.logicalTime (by simp [hfields, List.lookup]),
    decodeCanonical_ofJson hinitial hdinitial, decodeCanonical_ofJson htime hdtime, hseed]
  simp only [Operation.used, hname]
  rfl

/-- A key that has its value also when that is `null`. -/
theorem decodeOptional_ofJson {object : Object} {fields : List (String × Json)}
    (h : Holds object fields) (key : String) (v : Json) (hv : fields.lookup key = some v)
    (haccepted : Accepted canonicalNumber marshal v) (hdistinct : v.distinctKeys = true) :
    decodeOptional object key .null decodeCanonical = .ok (canonicalValue v) := by
  rw [decodeOptional, h.lookup key v hv]
  exact decodeCanonical_ofJson haccepted hdistinct

theorem decodeOperation_apply {operation : Operation} (hname : operation.name = "apply")
    (htime : Accepted canonicalNumber marshal operation.logicalTime)
    (harguments : Accepted canonicalNumber marshal operation.arguments)
    (hdtime : operation.logicalTime.distinctKeys = true)
    (hdarguments : operation.arguments.distinctKeys = true) :
    decodeOperation (some (ofJson (canonicalValue operation.object))) =
      .ok operation.used.canonical := by
  have hfields : operation.fields = [("action", .string operation.action),
      ("logicalTime", operation.logicalTime), ("arguments", operation.arguments)] := by
    simp only [Operation.fields, hname]
  obtain ⟨object, hobject, hholds⟩ := decodeObject_ofJson
    (("name", .string operation.name) :: operation.fields)
    (CanonicalForm.plain_of_two (by simp [hfields])) (by simp [hfields])
    (by simp [hfields, accepted_string, htime, harguments]) "operation"
  have hkeys : requireKeys object "operation" ["name", "action", "logicalTime"] ["arguments"] =
      .ok () :=
    requireKeys_of_holds hholds _ (by simp [hfields]) (by simp [hfields])
  unfold decodeOperation
  rw [Operation.object, hobject]
  simp only [bind, Except.bind, hholds.lookup "name" (.string operation.name) rfl,
    decodeText_ofJson, hname, hkeys,
    hholds.lookup "action" (.string operation.action) (by simp [hfields, List.lookup]),
    hholds.lookup "logicalTime" operation.logicalTime (by simp [hfields, List.lookup]),
    decodeCanonical_ofJson htime hdtime,
    decodeOptional_ofJson hholds "arguments" operation.arguments (by simp [hfields, List.lookup])
      harguments hdarguments]
  simp only [Operation.used, hname]
  rfl

theorem decodeOperation_settle {operation : Operation} (hname : operation.name = "settle")
    (hsteps : operation.maxSteps < 2 ^ 64) :
    decodeOperation (some (ofJson (canonicalValue operation.object))) =
      .ok operation.used.canonical := by
  have hfields : operation.fields = [("maxSteps", .number (.int operation.maxSteps))] := by
    simp only [Operation.fields, hname]
  have haccepted : Accepted canonicalNumber marshal (.number (.int operation.maxSteps)) :=
    accepted_int (by omega) (by exact_mod_cast hsteps)
  obtain ⟨object, hobject, hholds⟩ := decodeObject_ofJson
    (("name", .string operation.name) :: operation.fields)
    (CanonicalForm.plain_of_two (by simp [hfields])) (by simp [hfields])
    (by simp [hfields, accepted_string, haccepted]) "operation"
  have hkeys : requireExactKeys object "operation" ["name", "maxSteps"] = .ok () :=
    requireKeys_of_holds hholds _ (by simp [hfields]) (by simp [hfields])
  unfold decodeOperation
  rw [Operation.object, hobject]
  simp only [bind, Except.bind, hholds.lookup "name" (.string operation.name) rfl,
    decodeText_ofJson, hname, hkeys,
    hholds.lookup "maxSteps" (.number (.int operation.maxSteps)) (by simp [hfields, List.lookup]),
    decodeUint64_ofJson hsteps]
  simp only [Operation.used, hname]
  rfl

theorem decodeOperation_restore {operation : Operation} (hname : operation.name = "restore")
    (hsnapshot : Accepted canonicalNumber marshal operation.snapshot)
    (hdsnapshot : operation.snapshot.distinctKeys = true) :
    decodeOperation (some (ofJson (canonicalValue operation.object))) =
      .ok operation.used.canonical := by
  have hfields : operation.fields = [("snapshot", operation.snapshot),
      ("schemaHash", .string operation.schemaHash)] := by
    simp only [Operation.fields, hname]
  obtain ⟨object, hobject, hholds⟩ := decodeObject_ofJson
    (("name", .string operation.name) :: operation.fields)
    (CanonicalForm.plain_of_two (by simp [hfields])) (by simp [hfields])
    (by simp [hfields, accepted_string, hsnapshot]) "operation"
  have hkeys : requireExactKeys object "operation" ["name", "snapshot", "schemaHash"] = .ok () :=
    requireKeys_of_holds hholds _ (by simp [hfields]) (by simp [hfields])
  unfold decodeOperation
  rw [Operation.object, hobject]
  simp only [bind, Except.bind, hholds.lookup "name" (.string operation.name) rfl,
    decodeText_ofJson, hname, hkeys,
    hholds.lookup "snapshot" operation.snapshot (by simp [hfields, List.lookup]),
    hholds.lookup "schemaHash" (.string operation.schemaHash) (by simp [hfields, List.lookup]),
    decodeCanonical_ofJson hsnapshot hdsnapshot]
  simp only [Operation.used, hname]
  rfl

theorem decodeOperation_fault {operation : Operation} (hname : operation.name = "fault")
    (harguments : Accepted canonicalNumber marshal operation.arguments)
    (hdarguments : operation.arguments.distinctKeys = true) :
    decodeOperation (some (ofJson (canonicalValue operation.object))) =
      .ok operation.used.canonical := by
  have hfields : operation.fields = [("fault", .string operation.fault),
      ("arguments", operation.arguments)] := by
    simp only [Operation.fields, hname]
  obtain ⟨object, hobject, hholds⟩ := decodeObject_ofJson
    (("name", .string operation.name) :: operation.fields)
    (CanonicalForm.plain_of_two (by simp [hfields])) (by simp [hfields])
    (by simp [hfields, accepted_string, harguments]) "operation"
  have hkeys : requireKeys object "operation" ["name", "fault"] ["arguments"] = .ok () :=
    requireKeys_of_holds hholds _ (by simp [hfields]) (by simp [hfields])
  unfold decodeOperation
  rw [Operation.object, hobject]
  simp only [bind, Except.bind, hholds.lookup "name" (.string operation.name) rfl,
    decodeText_ofJson, hname, hkeys,
    hholds.lookup "fault" (.string operation.fault) (by simp [hfields, List.lookup]),
    decodeOptional_ofJson hholds "arguments" operation.arguments (by simp [hfields, List.lookup])
      harguments hdarguments]
  simp only [Operation.used, hname]
  rfl

theorem Operation.maxSteps_lt {operation : Operation} (hvalid : operation.validate = .ok ())
    (hname : operation.name = "settle") : operation.maxSteps < 2 ^ 64 := by
  simp only [Operation.validate, hname] at hvalid
  split at hvalid
  · cases hvalid
  · rename_i hsteps
    simp only [maxSettleSteps] at hsteps
    omega

theorem Operation.plain_object (operation : Operation) :
    Plain (("name", .string operation.name) :: operation.fields) := by
  intro k v h
  obtain ⟨⟨⟩, -⟩ := List.cons.inj h
  decide

theorem decodeOperation_ofJson {operation : Operation} (hvalid : operation.validate = .ok ())
    (haccepted : Accepted canonicalNumber marshal operation.object)
    (hdistinct : ∀ v ∈ operation.values, v.distinctKeys = true) :
    decodeOperation (some (ofJson (canonicalValue operation.object))) =
      .ok operation.used.canonical := by
  have hfields := accepted_of_object operation.plain_object haccepted
  simp only [List.forall_mem_cons] at hfields
  have hused := hfields.2
  simp only [Operation.values, List.forall_mem_cons] at hdistinct
  obtain ⟨hinitial, htime, harguments, hsnapshot, -⟩ := hdistinct
  have hname := Operation.name_mem hvalid
  simp only [List.mem_cons, List.not_mem_nil, or_false] at hname
  rcases hname with hname | hname | hname | hname | hname | hname | hname | hname | hname
  · exact decodeOperation_bare (by simp [hname])
  · simp only [Operation.fields, hname, List.cons_append, List.forall_mem_cons] at hused
    exact decodeOperation_reset hname hused.1 hused.2.1 hinitial htime
  · simp only [Operation.fields, hname, List.forall_mem_cons] at hused
    exact decodeOperation_apply hname hused.2.1 hused.2.2.1 htime harguments
  · exact decodeOperation_bare (by simp [hname])
  · exact decodeOperation_settle hname (Operation.maxSteps_lt hvalid hname)
  · exact decodeOperation_bare (by simp [hname])
  · simp only [Operation.fields, hname, List.forall_mem_cons] at hused
    exact decodeOperation_restore hname hused.1 hsnapshot
  · simp only [Operation.fields, hname, List.forall_mem_cons] at hused
    exact decodeOperation_fault hname hused.2.1 harguments
  · exact decodeOperation_bare (by simp [hname])

/-- What an operation does not use, and the spelling of what it embeds, is not validated. -/
theorem Operation.validate_used_canonical {operation : Operation}
    (hvalid : operation.validate = .ok ()) : operation.used.canonical.validate = .ok () := by
  have hname := Operation.name_mem hvalid
  simp only [List.mem_cons, List.not_mem_nil, or_false] at hname
  rw [← hvalid]
  rcases hname with hname | hname | hname | hname | hname | hname | hname | hname | hname <;>
    simp [Operation.used, Operation.canonical, Operation.validate, hname]

theorem validateEnvelope_version {sent requestId machine : String} {version : ℤ}
    (h : validateEnvelope sent version requestId machine = .ok ()) : version = 1 := by
  unfold validateEnvelope at h
  split at h
  · cases h
  · split at h
    · cases h
    · rename_i hversion
      exact not_not.mp hversion

theorem generation_lt {generation : ℕ} (h : validateGeneration generation = .ok ()) :
    generation < 2 ^ 64 := by
  unfold validateGeneration at h
  split at h
  · cases h
  · rename_i hle
    simp only [maxSafeInteger] at hle
    omega

def Request.members (request : Request) : List (String × Json) :=
  [("protocol", .string request.protocol),
    ("protocolVersion", .number (.int request.protocolVersion)),
    ("requestId", .string request.requestId), ("machine", .string request.machine),
    ("generation", .number (.int request.generation)), ("operation", request.operation.object)]

theorem Request.plain_members (request : Request) : Plain request.members :=
  CanonicalForm.plain_of_two (by simp [Request.members])

theorem decodeRequest_ofJson {request : Request} (hvalid : request.validate = .ok ())
    (haccepted : Accepted canonicalNumber marshal request.object)
    (hdistinct : ∀ v ∈ request.operation.values, v.distinctKeys = true) :
    decodeRequest (some (ofJson (canonicalValue request.object))) =
      .ok { request with operation := request.operation.used.canonical } := by
  have hmembers := accepted_of_object request.plain_members haccepted
  have hoperation : Accepted canonicalNumber marshal request.operation.object :=
    hmembers ("operation", request.operation.object) (by simp [Request.members])
  obtain ⟨_, henvelope, hrest⟩ := Transition.bind_eq_ok.mp hvalid
  obtain ⟨_, hgeneration, hvalidOperation⟩ := Transition.bind_eq_ok.mp hrest
  have hversion := validateEnvelope_version henvelope
  obtain ⟨object, hobject, hholds⟩ := decodeObject_ofJson request.members request.plain_members
    (by simp [Request.members]) hmembers "request"
  have hkeys : requireExactKeys object "request"
      ["protocol", "protocolVersion", "requestId", "machine", "generation", "operation"] = .ok () :=
    requireKeys_of_holds hholds _ (by simp [Request.members]) (by simp [Request.members])
  have hresult : Request.validate
      { protocol := request.protocol, protocolVersion := request.protocolVersion,
        requestId := request.requestId, machine := request.machine,
        generation := request.generation,
        operation := request.operation.used.canonical } = .ok () :=
    Transition.bind_eq_ok.mpr ⟨_, henvelope, Transition.bind_eq_ok.mpr ⟨_, hgeneration,
      Operation.validate_used_canonical hvalidOperation⟩⟩
  unfold decodeRequest
  rw [Request.object, ← Request.members, hobject]
  simp only [bind, Except.bind, hkeys, decodeText_ofJson,
    hholds.lookup "protocol" (.string request.protocol) rfl,
    hholds.lookup "protocolVersion" (.number (.int request.protocolVersion)) rfl,
    hholds.lookup "requestId" (.string request.requestId) rfl,
    hholds.lookup "machine" (.string request.machine) rfl,
    hholds.lookup "generation" (.number (.int request.generation)) rfl,
    hholds.lookup "operation" request.operation.object rfl,
    decodeInt_ofJson (z := request.protocolVersion) (by omega) (by omega),
    decodeUint64_ofJson (generation_lt hgeneration),
    decodeOperation_ofJson hvalidOperation hoperation hdistinct, hresult]

theorem canonicalValue_array {items : List Json}
    (h : Accepted canonicalNumber marshal (.array items)) :
    (∀ v ∈ items, Accepted canonicalNumber marshal v) ∧
      canonicalValue (.array items) = .array (items.map canonicalValue) := by
  have hform := h.eq_form
  rw [CanonicalForm.canonicalize] at hform
  obtain ⟨ws, hws, hw⟩ := Option.map_eq_some_iff.mp hform
  obtain ⟨haccepted, rfl⟩ := CanonicalForm.canonicalizeItems_eq_some.mp hws
  exact ⟨haccepted, hw.symm⟩

theorem decodeString_canonicalValue (old : String) {v : Json}
    (h : Accepted canonicalNumber marshal v) :
    decodeString old (canonicalValue v) = decodeString old v := by
  cases v with
  | number n =>
    obtain ⟨z, -, hw⟩ := CanonicalForm.canonicalize_number.mp h.eq_form
    rw [canonicalValue, hw]
    rfl
  | array items =>
    rw [(canonicalValue_array h).2]
    rfl
  | object fields =>
    obtain ⟨gs, hgs⟩ := CanonicalForm.object_of_canonicalize h.eq_form
    rw [canonicalValue, hgs]
    rfl
  | _ => rfl

theorem decodeElements_canonicalValue (old : List String) {items : List Json}
    (h : ∀ v ∈ items, Accepted canonicalNumber marshal v) :
    decodeElements old (items.map canonicalValue) = decodeElements old items := by
  induction items generalizing old with
  | nil => rfl
  | cons v vs ih =>
    obtain ⟨hv, hvs⟩ := List.forall_mem_cons.mp h
    rw [List.map_cons, decodeElements, decodeElements, decodeString_canonicalValue _ hv, ih _ hvs]

theorem decodeSlice_canonicalValue (old : Slice) {v : Json}
    (h : Accepted canonicalNumber marshal v) :
    decodeSlice old (canonicalValue v) = decodeSlice old v := by
  cases v with
  | number n =>
    obtain ⟨z, -, hw⟩ := CanonicalForm.canonicalize_number.mp h.eq_form
    rw [canonicalValue, hw]
    rfl
  | array items =>
    obtain ⟨hitems, hcanonical⟩ := canonicalValue_array h
    rw [hcanonical]
    cases items with
    | nil => rfl
    | cons v vs =>
      have helements := decodeElements_canonicalValue old.array hitems
      rw [List.map_cons] at helements ⊢
      simp [decodeSlice, helements]
  | object fields =>
    obtain ⟨gs, hgs⟩ := CanonicalForm.object_of_canonicalize h.eq_form
    rw [canonicalValue, hgs]
    rfl
  | _ => rfl

theorem foldlM_congr {α β : Type} {f g : β → α → Option β} {l : List α}
    (h : ∀ b, ∀ a ∈ l, f b a = g b a) (b : β) : l.foldlM f b = l.foldlM g b := by
  induction l generalizing b with
  | nil => rfl
  | cons a l ih =>
    rw [List.foldlM_cons, List.foldlM_cons, h b a (by simp)]
    exact congrArg _ (funext fun c => ih (fun d e he => h d e (by simp [he])) c)

/-- A struct whose fields are decoded alike from their canonical forms. No name of a tag is that of a
field. -/
theorem decodeStruct_canonicalValue {α : Type} {set : α → String × Json → Option α}
    (hset : ∀ raw k v, Accepted canonicalNumber marshal v →
      set raw (k, canonicalValue v) = set raw (k, v))
    (htag : ∀ tag ∈ ["#bigint", "#set", "#map"], ∀ raw v, set raw (tag, v) = none)
    (old : α) {v : Json} (h : Accepted canonicalNumber marshal v) :
    decodeStruct set old (canonicalValue v) = decodeStruct set old v := by
  cases v with
  | number n =>
    obtain ⟨z, -, hw⟩ := CanonicalForm.canonicalize_number.mp h.eq_form
    rw [canonicalValue, hw]
    rfl
  | array items =>
    rw [(canonicalValue_array h).2]
    rfl
  | object fields =>
    have hsingle : ∀ tag ∈ ["#bigint", "#set", "#map"], ∀ w : Json,
        decodeStruct set old (.object [(tag, w)]) = none := by
      intro tag hmem w
      simp [decodeStruct, sortByKey, htag tag hmem]
    obtain ⟨v, rfl⟩ | ⟨v, rfl⟩ | ⟨v, rfl⟩ | hplain := CanonicalForm.tag_cases fields
    · have hform := h.eq_form
      rw [CanonicalForm.canonicalize_bigint] at hform
      obtain ⟨value, -, -, hw⟩ := CanonicalForm.bigint_eq_some.mp hform
      rw [canonicalValue, hw]
    · obtain ⟨items, sorted, -, -, -, hw⟩ := CanonicalForm.canonicalize_set.mp h.eq_form
      rw [canonicalValue, hw, hsingle _ (by simp), hsingle _ (by simp)]
    · obtain ⟨pairs, sorted, -, -, -, hw⟩ := CanonicalForm.canonicalize_map.mp h.eq_form
      rw [canonicalValue, hw, hsingle _ (by simp), hsingle _ (by simp)]
    · have haccepted := accepted_of_object hplain h
      rw [(canonicalValue_object hplain haccepted).2, decodeStruct, decodeStruct,
        CanonicalForm.sortByKey_sortByKey, ← CanonicalForm.map_sortByKey, List.foldlM_map]
      refine foldlM_congr (fun raw f hf => ?_) old
      exact hset raw f.1 f.2 (haccepted f ((CanonicalForm.sortByKey_perm fields).mem_iff.mp hf))
  | _ => rfl

theorem setImplementation_canonicalValue (raw : Implementation) (k : String) {v : Json}
    (h : Accepted canonicalNumber marshal v) :
    setImplementation raw (k, canonicalValue v) = setImplementation raw (k, v) := by
  unfold setImplementation
  simp only [decodeString_canonicalValue _ h]

theorem setImplementation_tag (raw : Implementation) (v : Json) :
    ∀ tag ∈ ["#bigint", "#set", "#map"], setImplementation raw (tag, v) = none := by
  have hfield : ∀ tag ∈ ["#bigint", "#set", "#map"],
      structField ["language", "name", "version"] tag = none := by decide
  intro tag htag
  simp [setImplementation, hfield tag htag]

theorem setHello_tag (raw : RawHello) (v : Json) :
    ∀ tag ∈ ["#bigint", "#set", "#map"], setHello raw (tag, v) = none := by
  have hfield : ∀ tag ∈ ["#bigint", "#set", "#map"],
      structField ["implementation", "capabilities", "canonicalStateSchemaHash"] tag = none := by
    decide
  intro tag htag
  simp [setHello, hfield tag htag]

theorem setHello_canonicalValue (raw : RawHello) (k : String) {v : Json}
    (h : Accepted canonicalNumber marshal v) :
    setHello raw (k, canonicalValue v) = setHello raw (k, v) := by
  have himplementation := decodeStruct_canonicalValue
    (fun raw k v hv => setImplementation_canonicalValue raw k hv)
    (fun tag htag raw v => setImplementation_tag raw v tag htag) raw.implementation h
  unfold setHello
  simp only [decodeString_canonicalValue _ h, decodeSlice_canonicalValue _ h, himplementation]

theorem decodeHelloResult_canonicalValue {v : Json} (h : Accepted canonicalNumber marshal v) :
    decodeHelloResult (canonicalValue v) = decodeHelloResult v := by
  have hstruct := decodeStruct_canonicalValue (fun raw k v hv => setHello_canonicalValue raw k hv)
    (fun tag htag raw v => setHello_tag raw v tag htag) {} h
  rw [decodeHelloResult, hstruct]
  rfl

theorem Outcome.kind_cases {outcome : Outcome} (h : outcome.validate = .ok ()) :
    (outcome.kind = "ok" ∧ outcome.error = none ∧
        Accepted canonicalNumber marshal outcome.value) ∨
      (outcome.kind = "error" ∨ outcome.kind = "unsupported") ∧
        ∃ error, outcome.error = some error ∧ error.validate = .ok () := by
  unfold Outcome.validate at h
  split at h
  · rename_i hkind
    split at h
    · cases h
    · rename_i herror
      exact Or.inl ⟨hkind, Option.not_isSome_iff_eq_none.mp herror, requireCanonical_iff.mp h⟩
  · rename_i hkind
    refine Or.inr ⟨Or.inl hkind, ?_⟩
    split at h
    · cases h
    · rename_i error herror
      exact ⟨error, herror, h⟩
  · rename_i hkind
    refine Or.inr ⟨Or.inr hkind, ?_⟩
    split at h
    · cases h
    · rename_i error herror
      exact ⟨error, herror, h⟩
  · cases h

theorem StreamError.accepted_object {error : StreamError} (h : error.validate = .ok ()) :
    Accepted canonicalNumber marshal error.object := by
  refine (canonicalValue_object error.plain_fields ?_).1
  have hdata := StreamError.accepted_data h
  by_cases hnull : error.data = .null
  · simp [omitted, hnull, accepted_string]
    rfl
  · simp only [omitted, hnull, decide_false, Bool.false_eq_true, if_false, List.cons_append,
      List.nil_append, List.forall_mem_cons]
    exact ⟨rfl, rfl, rfl, hdata, fun _ hf => absurd hf List.not_mem_nil⟩

theorem Outcome.accepted_object {outcome : Outcome} (h : outcome.validate = .ok ()) :
    Accepted canonicalNumber marshal outcome.object := by
  unfold Outcome.object
  rcases Outcome.kind_cases h with ⟨hkind, -, hvalue⟩ | ⟨hkind, error, herror, hvalid⟩
  · rw [if_pos hkind]
    refine (canonicalValue_object (CanonicalForm.plain_of_two (by simp)) ?_).1
    simp [accepted_string, hvalue]
  · have hne : outcome.kind ≠ "ok" := by rcases hkind with hkind | hkind <;> simp [hkind]
    rw [if_neg hne]
    refine (canonicalValue_object (CanonicalForm.plain_of_two (by simp)) ?_).1
    simp [accepted_string, herror, StreamError.accepted_object hvalid]

theorem decodeOutcome_ofJson {outcome : Outcome} (hvalid : outcome.validate = .ok ())
    (hdvalue : outcome.value.distinctKeys = true)
    (hderror : ∀ error, outcome.error = some error → error.data.distinctKeys = true) :
    decodeOutcome (some (ofJson (canonicalValue outcome.object))) = .ok outcome.used.canonical := by
  rcases Outcome.kind_cases hvalid with ⟨hkind, -, hvalue⟩ | ⟨hkind, error, herror, hvalid⟩
  · obtain ⟨object, hobject, hholds⟩ := decodeObject_ofJson
      [("kind", .string outcome.kind), ("value", outcome.value)]
      (CanonicalForm.plain_of_two (by simp)) (by simp) (by simp [accepted_string, hvalue]) "outcome"
    have hkeys : requireExactKeys object "outcome" ["kind", "value"] = .ok () :=
      requireKeys_of_holds hholds _ (by simp) (by simp)
    unfold decodeOutcome
    rw [Outcome.object, if_pos hkind, hobject]
    simp only [bind, Except.bind, hholds.lookup "kind" (.string outcome.kind) rfl,
      decodeText_ofJson, hkind, hkeys, hholds.lookup "value" outcome.value rfl,
      decodeCanonical_ofJson hvalue hdvalue]
    rw [Outcome.used, if_pos hkind, hkind]
    rfl
  · have hne : outcome.kind ≠ "ok" := by rcases hkind with hkind | hkind <;> simp [hkind]
    have haccepted := StreamError.accepted_object hvalid
    obtain ⟨object, hobject, hholds⟩ := decodeObject_ofJson
      [("kind", .string outcome.kind), ("error", error.object)]
      (CanonicalForm.plain_of_two (by simp)) (by simp) (by simp [accepted_string, haccepted])
      "outcome"
    have hkeys : requireExactKeys object "outcome" ["kind", "error"] = .ok () :=
      requireKeys_of_holds hholds _ (by simp) (by simp)
    unfold decodeOutcome
    rw [Outcome.object, if_neg hne, herror, Option.map_some, Option.getD_some, hobject]
    rw [Outcome.used, if_neg hne, herror]
    simp only [bind, Except.bind, hholds.lookup "kind" (.string outcome.kind) rfl,
      decodeText_ofJson]
    rcases hkind with hkind | hkind <;>
      simp only [hkind, hkeys, hholds.lookup "error" error.object rfl,
        decodeStreamError_ofJson hvalid (hderror error herror)] <;> rfl

theorem Outcome.validate_used_canonical {outcome : Outcome} (h : outcome.validate = .ok ()) :
    outcome.used.canonical.validate = .ok () := by
  rcases Outcome.kind_cases h with ⟨hkind, -, hvalue⟩ | ⟨hkind, error, herror, hvalid⟩
  · rw [Outcome.used, if_pos hkind, hkind]
    exact requireCanonical_iff.mpr
      (CanonicalForm.canonicalize_eq_some.mp (canonicalValue_fixed hvalue)).1
  · have hne : outcome.kind ≠ "ok" := by rcases hkind with hkind | hkind <;> simp [hkind]
    rw [Outcome.used, if_neg hne, herror]
    rcases hkind with hkind | hkind <;> rw [hkind] <;>
      exact StreamError.validate_canonical hvalid

def Response.members (response : Response) : List (String × Json) :=
  [("protocol", .string response.protocol),
    ("protocolVersion", .number (.int response.protocolVersion)),
    ("requestId", .string response.requestId), ("machine", .string response.machine),
    ("generation", .number (.int response.generation)),
    ("operation", .string response.operation), ("outcome", response.outcome.object)]

theorem Response.validate_used_canonical {response : Response} (h : response.validate = .ok ()) :
    Response.validate { response with outcome := response.outcome.used.canonical } = .ok () := by
  obtain ⟨_, henvelope, h⟩ := Transition.bind_eq_ok.mp h
  obtain ⟨_, hgeneration, h⟩ := Transition.bind_eq_ok.mp h
  refine Transition.bind_eq_ok.mpr ⟨(), henvelope, Transition.bind_eq_ok.mpr ⟨(), hgeneration, ?_⟩⟩
  dsimp only
  split at h
  · cases h
  · rename_i hoperation
    rw [if_neg hoperation]
    obtain ⟨_, hvalid, h⟩ := Transition.bind_eq_ok.mp h
    refine Transition.bind_eq_ok.mpr ⟨(), Outcome.validate_used_canonical hvalid, ?_⟩
    have hkind : response.outcome.used.canonical.kind = response.outcome.kind := by
      unfold Outcome.used Outcome.canonical
      split <;> rfl
    rw [hkind]
    by_cases hhello : response.operation = "hello" ∧ response.outcome.kind = "ok"
    · rw [if_pos hhello] at h ⊢
      rcases Outcome.kind_cases hvalid with ⟨hok, -, hvalue⟩ | ⟨hkind, -⟩
      · have hused : response.outcome.used.canonical.value =
            canonicalValue response.outcome.value := by
          rw [Outcome.used, if_pos hok]
          rfl
        rw [hused, decodeHelloResult_canonicalValue hvalue]
        exact h
      · rw [hhello.2] at hkind
        rcases hkind with hkind | hkind <;> exact absurd hkind (by decide)
    · rw [if_neg hhello]

theorem Response.accepted_members {response : Response} (h : response.validate = .ok ()) :
    ∀ f ∈ response.members, Accepted canonicalNumber marshal f.2 := by
  obtain ⟨_, henvelope, h⟩ := Transition.bind_eq_ok.mp h
  obtain ⟨_, hgeneration, h⟩ := Transition.bind_eq_ok.mp h
  have hversion := validateEnvelope_version henvelope
  have hlt := generation_lt hgeneration
  split at h
  · cases h
  · obtain ⟨_, hvalid, -⟩ := Transition.bind_eq_ok.mp h
    simp only [Response.members, List.forall_mem_cons]
    exact ⟨accepted_string _, accepted_int (by omega) (by omega), accepted_string _,
      accepted_string _, accepted_int (by omega) (by omega), accepted_string _,
      Outcome.accepted_object hvalid, fun _ hf => absurd hf List.not_mem_nil⟩

theorem Response.plain_members (response : Response) : Plain response.members :=
  CanonicalForm.plain_of_two (by simp [Response.members])

theorem Response.validate_outcome {response : Response} (h : response.validate = .ok ()) :
    response.outcome.validate = .ok () := by
  obtain ⟨_, -, h⟩ := Transition.bind_eq_ok.mp h
  obtain ⟨_, -, h⟩ := Transition.bind_eq_ok.mp h
  split at h
  · cases h
  · obtain ⟨_, hvalid, -⟩ := Transition.bind_eq_ok.mp h
    exact hvalid

theorem decodeResponse_ofJson {response : Response} (hvalid : response.validate = .ok ())
    (hdvalue : response.outcome.value.distinctKeys = true)
    (hderror : ∀ error, response.outcome.error = some error → error.data.distinctKeys = true) :
    decodeResponse (some (ofJson (canonicalValue response.object))) =
      .ok { response with outcome := response.outcome.used.canonical } := by
  obtain ⟨_, henvelope, hrest⟩ := Transition.bind_eq_ok.mp hvalid
  obtain ⟨_, hgeneration, -⟩ := Transition.bind_eq_ok.mp hrest
  have hversion := validateEnvelope_version henvelope
  obtain ⟨object, hobject, hholds⟩ := decodeObject_ofJson response.members response.plain_members
    (by simp [Response.members]) (Response.accepted_members hvalid) "response"
  have hkeys : requireExactKeys object "response"
      ["protocol", "protocolVersion", "requestId", "machine", "generation", "operation",
        "outcome"] = .ok () :=
    requireKeys_of_holds hholds _ (by simp [Response.members]) (by simp [Response.members])
  have hresult : Response.validate
      { protocol := response.protocol, protocolVersion := response.protocolVersion,
        requestId := response.requestId, machine := response.machine,
        generation := response.generation, operation := response.operation,
        outcome := response.outcome.used.canonical } = .ok () :=
    Response.validate_used_canonical hvalid
  unfold decodeResponse
  rw [Response.object, ← Response.members, hobject]
  simp only [bind, Except.bind, hkeys, decodeText_ofJson,
    hholds.lookup "protocol" (.string response.protocol) rfl,
    hholds.lookup "protocolVersion" (.number (.int response.protocolVersion)) rfl,
    hholds.lookup "requestId" (.string response.requestId) rfl,
    hholds.lookup "machine" (.string response.machine) rfl,
    hholds.lookup "generation" (.number (.int response.generation)) rfl,
    hholds.lookup "operation" (.string response.operation) rfl,
    hholds.lookup "outcome" response.outcome.object rfl,
    decodeInt_ofJson (z := response.protocolVersion) (by omega) (by omega),
    decodeUint64_ofJson (generation_lt hgeneration),
    decodeOutcome_ofJson (Response.validate_outcome hvalid) hdvalue hderror, hresult]

end OptoSync.Stream.Go
