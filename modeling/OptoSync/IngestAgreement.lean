import OptoSync.IngestPatterns

/-!
# Agreement of the ingest validators

Both validators demand one shape. They differ in how the version may be written, in which payload
of a deletion is empty, and in how long the node of a hybrid timestamp is.
-/
namespace OptoSync.Ingest
open Json Utf16

def keysShaped (known : List String) (fields : List (String × Json)) : Bool :=
  fields.all fun field => known.contains field.1

def textShaped (test : String → Bool) (value : Option Json) : Bool := (textOf value).any test

/-- A field that may be missing. -/
def optionalShaped (test : Option Json → Bool) (value : Option Json) : Bool :=
  value.isNone || test value

def lengthShaped (least most : ℕ) (text : String) : Bool :=
  least ≤ text.toList.length && text.toList.length ≤ most

def isDelete (fields : List (String × Json)) : Bool :=
  member fields "operation" = some (.string "delete")

/-- The timestamps of a payload. -/
def payloadShaped (timestamp : Json → Bool) (payload : List (String × Json)) : Bool :=
  (member payload "updatedAt").any timestamp && (member payload "createdAt").all timestamp &&
    (member payload "syncedAt").all timestamp

def contentShaped (timestamp : Json → Bool) (blank : List (String × Json) → Bool)
    (fields payload : List (String × Json)) : Bool :=
  if isDelete fields then blank payload else payloadShaped timestamp payload

/-- A record, up to what is a timestamp and which payload of a deletion is blank. -/
def recordShaped (timestamp : Json → Bool) (blank : List (String × Json) → Bool) : Json → Bool
  | .object fields =>
    keysShaped recordKeys fields && textShaped isIdentifier (member fields "table") &&
      textShaped (lengthShaped 1 512) (member fields "recordId") &&
      optionalShaped (textShaped (["upsert", "delete"].contains ·)) (member fields "operation") &&
      optionalShaped (textShaped isDecimalString) (member fields "baseRevision") &&
      match member fields "payload" with
      | some (.object payload) => contentShaped timestamp blank fields payload
      | _ => false
  | _ => false

def recordsShaped (record : Json → Bool) : Option Json → Bool
  | some (.array items) => !items.isEmpty && items.all record
  | _ => false

/-- An envelope, up to the version and the records. -/
def envelopeShaped (version : Option Json → Bool) (record : Json → Bool) : Json → Bool
  | .object root =>
    keysShaped envelopeKeys root && version (member root "formatVersion") &&
      optionalShaped (textShaped (lengthShaped 0 200)) (member root "source") &&
      recordsShaped record (member root "records")
  | _ => false

theorem isOk_ite {ι α : Type} [DecidableEq ι] {issues : List ι} {value : α} :
    (if issues = [] then Except.ok value else .error issues).isOk = true ↔ issues = [] := by
  by_cases h : issues = [] <;> simp [h, Except.isOk, Except.toBool]

theorem ne_nil_of_ite {ι α : Type} [DecidableEq ι] {issues result : List ι} {value : α}
    (h : (if issues = [] then Except.ok value else .error issues) = .error result) :
    result ≠ [] := by
  split at h
  · cases h
  · next hne =>
    cases h
    exact hne

theorem unrecognizedKeys_eq_nil {path : String} {known : List String}
    {fields : List (String × Json)} :
    unrecognizedKeys path known fields = [] ↔ keysShaped known fields = true := by
  simp [unrecognizedKeys, keysShaped, List.filter_eq_nil_iff]

theorem readTable_eq_nil {path : String} {value : Option Json} :
    (readTable path value).1 = [] ↔ textShaped isIdentifier value = true := by
  rcases value with - | value
  · simp [readTable, textShaped, textOf]
  · cases value with
    | string text => by_cases h : isIdentifier text = true <;> simp [readTable, textShaped, textOf, h]
    | _ => simp [readTable, textShaped, textOf]

theorem readRecordId_eq_nil {path : String} {value : Option Json} :
    (readRecordId path value).1 = [] ↔ textShaped (lengthShaped 1 512) value = true := by
  rcases value with - | value
  · simp [readRecordId, textShaped, textOf]
  · cases value with
    | string text =>
      by_cases h : 1 ≤ text.toList.length ∧ text.toList.length ≤ 512 <;>
        simp [readRecordId, textShaped, textOf, lengthShaped, h]
    | _ => simp [readRecordId, textShaped, textOf]

theorem readBaseRevision_eq_nil {path : String} {value : Option Json} :
    (readBaseRevision path value).1 = [] ↔
      optionalShaped (textShaped isDecimalString) value = true := by
  rcases value with - | value
  · simp [readBaseRevision, optionalShaped]
  · cases value with
    | string text =>
      by_cases h : isDecimalString text = true <;>
        simp [readBaseRevision, optionalShaped, textShaped, textOf, h]
    | _ => simp [readBaseRevision, optionalShaped, textShaped, textOf]

theorem readSource_eq_nil {value : Option Json} :
    (readSource value).1 = [] ↔ optionalShaped (textShaped (lengthShaped 0 200)) value = true := by
  rcases value with - | value
  · simp [readSource, optionalShaped]
  · cases value with
    | string text =>
      by_cases h : text.toList.length ≤ 200 <;>
        simp [readSource, optionalShaped, textShaped, textOf, lengthShaped, h]
    | _ => simp [readSource, optionalShaped, textShaped, textOf]

theorem readOperation_eq_nil {path : String} {value : Option Json} :
    (readOperation path value).1 = [] ↔
      optionalShaped (textShaped (["upsert", "delete"].contains ·)) value = true := by
  unfold readOperation
  split
  · simp [optionalShaped]
  · simp [optionalShaped, textShaped, textOf]
  · simp [optionalShaped, textShaped, textOf]
  · next value hupsert hdelete =>
    cases value with
    | string text =>
      have hu : text ≠ "upsert" := fun h => hupsert (by rw [h])
      have hd : text ≠ "delete" := fun h => hdelete (by rw [h])
      simp [optionalShaped, textShaped, textOf, hu, hd]
    | _ => simp [optionalShaped, textShaped, textOf]

theorem readOperation_eq_delete {path : String} {value : Option Json} :
    (readOperation path value).2 = .delete ↔ value = some (.string "delete") := by
  unfold readOperation
  split
  · simp
  · simp
  · simp
  · next value hupsert hdelete =>
    constructor
    · intro h
      cases h
    · intro h
      exact absurd (Option.some.inj h) hdelete

theorem versionIssues_eq_nil {value : Option Json} :
    versionIssues value = [] ↔ value = some (.number (.int 1)) := by
  unfold versionIssues
  split
  · simp
  · next hvalue => simpa using hvalue
  · simp

section
variable {doubles : Doubles}

theorem payloadIssues_eq_nil {path : String} {fields payload : List (String × Json)} :
    payloadIssues doubles path (readOperation path (member fields "operation")).2 payload = [] ↔
      contentShaped (isTimestamp doubles) List.isEmpty fields payload = true := by
  rw [contentShaped, isDelete]
  by_cases hdelete : member fields "operation" = some (.string "delete")
  · rw [readOperation_eq_delete.mpr hdelete, payloadIssues]
    by_cases h : payload = [] <;> simp [hdelete, h]
  · have hupsert : (readOperation path (member fields "operation")).2 = .upsert := by
      cases h : (readOperation path (member fields "operation")).2 with
      | upsert => rfl
      | delete => exact absurd (readOperation_eq_delete.mp h) hdelete
    rw [hupsert, payloadIssues, payloadShaped]
    simp only [List.append_eq_nil_iff, List.flatMap_cons, List.flatMap_nil, List.append_nil,
      hdelete, decide_false, Bool.false_eq_true, if_false, Bool.and_eq_true]
    cases member payload "updatedAt" with
    | none => simp
    | some updated =>
      cases member payload "createdAt" <;> cases member payload "syncedAt" <;> simp [and_assoc]

theorem isOk_validateRecord {value : Json} {index : ℕ} :
    (validateRecord doubles value index).isOk =
      recordShaped (isTimestamp doubles) List.isEmpty value := by
  cases value with
  | object fields =>
    rw [Bool.eq_iff_iff, recordShaped]
    simp only [validateRecord, Bool.and_eq_true]
    refine isOk_ite.trans ?_
    simp only [List.append_eq_nil_iff, unrecognizedKeys_eq_nil, readTable_eq_nil,
      readRecordId_eq_nil, readOperation_eq_nil, readBaseRevision_eq_nil, and_assoc]
    cases hpayload : member fields "payload" with
    | none => simp [readPayload]
    | some payload =>
      cases payload with
      | object payload =>
        simp only [readPayload, Option.any_some, Json.isObject, if_true, true_and,
          payloadIssues_eq_nil]
      | _ => simp [readPayload]
  | _ => rfl

theorem validateRecord_error {value : Json} {index : ℕ} {issues : List String}
    (h : validateRecord doubles value index = .error issues) : issues ≠ [] := by
  cases value with
  | object fields =>
    simp only [validateRecord] at h
    exact ne_nil_of_ite h
  | _ =>
    cases h
    exact List.cons_ne_nil _ _

theorem validateItems_eq_nil {items : List Json} {index : ℕ} :
    (validateItems doubles index items).1 = [] ↔
      items.all (recordShaped (isTimestamp doubles) List.isEmpty) = true := by
  induction items generalizing index with
  | nil => simp [validateItems]
  | cons item items ih =>
    have hitem := @isOk_validateRecord doubles item index
    rw [List.all_cons, Bool.and_eq_true, ← @ih (index + 1), ← hitem, validateItems]
    cases hrecord : validateRecord doubles item index with
    | ok record => simp [Except.isOk, Except.toBool]
    | error issues => simp [Except.isOk, Except.toBool, validateRecord_error hrecord]

theorem readRecords_eq_nil {value : Option Json} :
    (readRecords doubles value).1 = [] ↔
      recordsShaped (recordShaped (isTimestamp doubles) List.isEmpty) value = true := by
  rcases value with - | value
  · simp [readRecords, recordsShaped]
  · cases value with
    | array items =>
      simp only [readRecords, recordsShaped, List.append_eq_nil_iff, validateItems_eq_nil,
        Bool.and_eq_true]
      by_cases h : items = [] <;> simp [h]
    | _ => simp [readRecords, recordsShaped]

/-- The envelopes that the validator accepts. -/
theorem isOk_validateEnvelope (value : Json) :
    (validateEnvelope doubles value).isOk =
      envelopeShaped (fun version => version = some (.number (.int 1)))
        (recordShaped (isTimestamp doubles) List.isEmpty) value := by
  cases value with
  | object root =>
    rw [Bool.eq_iff_iff, envelopeShaped]
    simp only [validateEnvelope, Bool.and_eq_true]
    refine isOk_ite.trans ?_
    simp only [List.append_eq_nil_iff, unrecognizedKeys_eq_nil, versionIssues_eq_nil,
      readSource_eq_nil, readRecords_eq_nil, and_assoc, decide_eq_true_eq]
  | _ => rfl

end

section
variable {doubles : Doubles} {z : Zod doubles}

/-- A schema that accepts what meets the test, and passes it on unchanged. -/
def Passes (z : Zod doubles) (schema : z.Schema) (test : Option Json → Bool) : Prop :=
  ∀ value, z.safeParse schema value = if test value then some value else none

theorem Passes.filter {schema refined : z.Schema} {test accepts : Option Json → Bool}
    (h : Passes z schema test)
    (hrefined : ∀ value, z.safeParse refined value = (z.safeParse schema value).filter accepts) :
    Passes z refined fun value => test value && accepts value := by
  intro value
  rw [hrefined, h value]
  by_cases htest : test value = true
  · simp only [htest, if_true, Option.filter_some, Bool.true_and]
  · simp only [htest, Option.filter_none, Bool.false_and, Bool.false_eq_true, if_false]

theorem Passes.congr {schema : z.Schema} {test test' : Option Json → Bool}
    (h : Passes z schema test) (htest : ∀ value, test value = test' value) :
    Passes z schema test' := by
  intro value
  rw [h value, htest value]

theorem isSome_filter_some {α : Type} (p : α → Bool) (a : α) :
    ((some a).filter p).isSome = p a := by
  rw [Option.filter_some]
  cases p a <;> rfl

theorem isSome_mapM {α β : Type} (f : α → Option β) (l : List α) :
    (l.mapM f).isSome = l.all fun a => (f a).isSome := by
  induction l with
  | nil => rfl
  | cons a l ih =>
    rw [List.all_cons, ← ih, List.mapM_cons]
    cases f a with
    | none => rfl
    | some b => cases l.mapM f <;> rfl

/-- Fields are parsed exactly when each of them is. -/
theorem isSome_parseShape (shape : List (String × z.Schema)) (fields : List (String × Json)) :
    (z.parseShape shape fields).isSome =
      shape.all fun entry => (z.safeParse entry.2 (member fields entry.1)).isSome := by
  rw [Zod.parseShape, isSome_mapM]
  simp only [Option.isSome_map]

theorem Passes.isSome {schema : z.Schema} {test : Option Json → Bool} (h : Passes z schema test)
    (value : Option Json) : (z.safeParse schema value).isSome = test value := by
  rw [h value]
  cases test value <;> rfl

theorem member_filter {keeps : String → Bool} {name : String} (h : keeps name = true)
    (fields : List (String × Json)) :
    member (fields.filter fun field => keeps field.1) name = member fields name := by
  unfold member
  congr 1
  rw [List.find?_filter]
  congr 1
  funext field
  by_cases hfield : field.1 = name
  · simp [hfield, h]
  · simp [hfield]

section
variable (lawful : LawfulZod z)
include lawful

theorem passes_boundedString (least most : ℕ) :
    Passes z (z.boundedString least most) (textShaped (lengthShaped least most)) := by
  refine (Passes.filter lawful.string (lawful.superRefine z.string _)).congr fun value => ?_
  rcases value with - | value
  · rfl
  · cases value <;> rfl

theorem passes_regex (pattern : List ℕ → Bool) :
    Passes z (z.regex z.string pattern) (textShaped fun text => pattern (encode text.toList)) := by
  refine (Passes.filter lawful.string (lawful.regex z.string pattern)).congr fun value => ?_
  rcases value with - | value
  · rfl
  · cases value <;> rfl

theorem passes_optional {schema : z.Schema} {test : Option Json → Bool}
    (h : Passes z schema test) : Passes z (z.optional schema) (optionalShaped test) := by
  intro value
  rw [lawful.optional, h value]
  cases value <;> simp [optionalShaped]

theorem passes_union {schemas : List z.Schema} {tests : List (Option Json → Bool)}
    (h : List.Forall₂ (Passes z) schemas tests) :
    Passes z (z.union schemas) fun value => tests.any fun test => test value := by
  intro value
  rw [lawful.union]
  induction h with
  | nil => rfl
  | @cons schema test schemas tests hfirst hrest ih =>
    simp only [List.findSome?_cons, hfirst value, List.any_cons]
    by_cases htest : test value = true
    · simp only [htest, if_true, Bool.true_or]
    · simp only [htest, Bool.false_eq_true, if_false, Bool.false_or]
      exact ih

theorem passes_identifierSchema :
    Passes z z.identifierSchema (textShaped isIdentifier) := by
  refine (passes_regex lawful _).congr fun value => ?_
  simp only [identifierPattern_encode, ← isIdentifier_eq]

/-- A double that is a safe integer. -/
def safeDouble (q : ℚ) : Bool := 0 ≤ q && q ≤ maxSafeTimestampInteger && q.den = 1

omit lawful in
theorem isSafeInteger_eq (number : JsonNumber) :
    isSafeInteger doubles number = (doubleOf doubles (some (.number number))).any safeDouble := by
  cases number with
  | float literal => rfl
  | int value =>
    unfold isSafeInteger
    dsimp only
    split
    · next hrange =>
      show decide (value ≤ maxSafeTimestampInteger) = safeDouble (doubles.ofInt value)
      by_cases hsafe : value ≤ maxSafeTimestampInteger
      · have hexact : doubles.ofInt value = value := by
          refine doubles.exact value ?_
          rw [abs_of_nonneg hrange.1]
          exact hsafe.trans (by decide)
        have hzero : (0 : ℚ) ≤ value := by exact_mod_cast hrange.1
        have hmax : (value : ℚ) ≤ maxSafeTimestampInteger := by exact_mod_cast hsafe
        simp only [hexact, safeDouble, hsafe, hzero, hmax, Rat.den_intCast, decide_true,
          Bool.and_self]
      · -- Rounding is monotone, so an integer beyond the bound stays beyond it.
        have hle : (2 ^ 53 : ℤ) ≤ value := by
          simp only [maxSafeTimestampInteger] at hsafe
          omega
        have hbound : doubles.ofInt (2 ^ 53) = (2 ^ 53 : ℤ) := doubles.exact _ (by decide)
        have hlarge := doubles.mono hle
        rw [hbound] at hlarge
        have hmax : ¬ doubles.ofInt value ≤ maxSafeTimestampInteger := by
          refine not_le.mpr (lt_of_lt_of_le ?_ hlarge)
          norm_num [maxSafeTimestampInteger]
        simp only [safeDouble, hsafe, hmax, decide_false, Bool.and_false, Bool.false_and]
    · rfl

def longTimestamp : Json → Bool
  | .string text => longNode text
  | _ => false

theorem passes_timestampSchema :
    Passes z z.timestampSchema fun value =>
      value.any fun timestamp => isTimestamp doubles timestamp && !longTimestamp timestamp := by
  have hint := Passes.filter lawful.number (lawful.int z.number)
  have hnonnegative := hint.filter (lawful.nonnegative _)
  have hnumber := hnonnegative.filter (lawful.max _ maxSafeTimestampInteger)
  refine (passes_union lawful (.cons hnumber (.cons (passes_regex lawful _)
    (.cons (passes_regex lawful _) (.cons (passes_regex lawful _) .nil))))).congr fun value => ?_
  rcases value with - | value
  · rfl
  · cases value with
    | number number =>
      have hdouble : ∃ q, doubleOf doubles (some (.number number)) = some q := by
        cases number <;> exact ⟨_, rfl⟩
      obtain ⟨q, hq⟩ := hdouble
      simp only [hq, textShaped, textOf, isTimestamp, isSafeInteger_eq, longTimestamp, safeDouble,
        Option.any_some, Option.any_none, Option.isSome_some, List.any_cons, List.any_nil,
        Bool.or_false, Bool.true_and, Bool.not_false, Bool.and_true]
      rw [Bool.and_assoc, Bool.and_comm]
    | string text =>
      have htext := timestampPatterns_encode text
      simp only [doubleOf, textShaped, textOf, isTimestamp, longTimestamp, Option.any_some,
        Option.any_none, List.any_cons, List.any_nil, Bool.or_false, Bool.and_false,
        Bool.false_or, Option.isSome_none]
      rw [← Bool.or_assoc]
      exact htext
    | _ => rfl

theorem isSome_payloadSchema (payload : List (String × Json)) :
    (z.safeParse z.payloadSchema
      (some (.object (payload.filter fun field => z.keeps field.1)))).isSome =
      payloadShaped (fun timestamp => isTimestamp doubles timestamp && !longTimestamp timestamp)
        payload := by
  have htimestamp := passes_timestampSchema lawful
  have hsome := passes_optional lawful htimestamp
  obtain ⟨hupdated, hcreated, hsynced⟩ := lawful.keeps
  have hoptional : ∀ value : Option Json, optionalShaped (fun value =>
      value.any fun timestamp => isTimestamp doubles timestamp && !longTimestamp timestamp) value =
      value.all fun timestamp => isTimestamp doubles timestamp && !longTimestamp timestamp := by
    intro value
    cases value <;> rfl
  rw [Zod.payloadSchema, lawful.passthroughObject]
  show (z.parseShape _ _).isSome = _
  simp only [isSome_parseShape, List.all_cons, List.all_nil, Bool.and_true, htimestamp.isSome,
    hsome.isSome, member_filter hupdated, member_filter hcreated, member_filter hsynced,
    hoptional, payloadShaped, Bool.and_assoc]

omit lawful in
theorem member_filterMap_cons (key name : String) (value : Option Json)
    (outs : List (String × Option Json)) :
    member (((key, value) :: outs).filterMap fun out => out.2.map fun v => (out.1, v)) name =
      (if key = name then value else none).or
        (member (outs.filterMap fun out => out.2.map fun v => (out.1, v)) name) := by
  cases value with
  | none => simp
  | some value => by_cases h : key = name <;> simp [member, h]

/-- The fields of a record, parsed. -/
theorem parseShape_record (fields : List (String × Json)) :
    z.parseShape [
      ("table", z.identifierSchema),
      ("recordId", z.boundedString 1 512),
      ("operation", z.optional (z.enum ["upsert", "delete"])),
      ("baseRevision", z.optional (z.regex z.string (decimalPattern id))),
      ("payload", z.record)] fields =
    if textShaped isIdentifier (member fields "table") &&
        textShaped (lengthShaped 1 512) (member fields "recordId") &&
        optionalShaped (textShaped (["upsert", "delete"].contains ·)) (member fields "operation") &&
        optionalShaped (textShaped isDecimalString) (member fields "baseRevision") then
      (z.safeParse z.record (member fields "payload")).map fun payload => [
        ("table", member fields "table"), ("recordId", member fields "recordId"),
        ("operation", member fields "operation"), ("baseRevision", member fields "baseRevision"),
        ("payload", payload)]
    else none := by
  have htable := passes_identifierSchema lawful (member fields "table")
  have hrecordId := passes_boundedString lawful 1 512 (member fields "recordId")
  have henum : Passes z (z.enum ["upsert", "delete"])
      (textShaped (["upsert", "delete"].contains ·)) := lawful.enum ["upsert", "delete"]
  have hoperation := passes_optional lawful henum (member fields "operation")
  have hdecimal : Passes z (z.regex z.string (decimalPattern id)) (textShaped isDecimalString) :=
    (passes_regex lawful _).congr fun value => by
      simp only [decimalPattern_encode, ← isDecimalString_eq]
  have hrevision := passes_optional lawful hdecimal (member fields "baseRevision")
  simp only [Zod.parseShape, List.mapM_cons, List.mapM_nil, htable, hrecordId, hoperation, hrevision]
  cases textShaped isIdentifier (member fields "table") with
  | false => rfl
  | true =>
    cases textShaped (lengthShaped 1 512) (member fields "recordId") with
    | false => rfl
    | true =>
      cases optionalShaped (textShaped (["upsert", "delete"].contains ·))
          (member fields "operation") with
      | false => rfl
      | true =>
        cases optionalShaped (textShaped isDecimalString) (member fields "baseRevision") with
        | false => rfl
        | true => cases z.safeParse z.record (member fields "payload") <;> rfl

/-- The payloads that `z.record` copies as an empty one. -/
def copiesEmpty (z : Zod doubles) (payload : List (String × Json)) : Bool :=
  (payload.filter fun field => z.keeps field.1).isEmpty

theorem payloadAccepted_eq (fields payload : List (String × Json)) :
    z.payloadAccepted (some (.object (List.filterMap
      (fun out => out.2.map fun value => (out.1, value)) [
        ("table", member fields "table"), ("recordId", member fields "recordId"),
        ("operation", member fields "operation"), ("baseRevision", member fields "baseRevision"),
        ("payload", some (.object (payload.filter fun field => z.keeps field.1)))]))) =
      contentShaped (fun timestamp => isTimestamp doubles timestamp && !longTimestamp timestamp)
        (copiesEmpty z) fields payload := by
  have hnil : ∀ name, member [] name = none := fun name => rfl
  simp only [Zod.payloadAccepted, Option.bind_some, SyncLoop.property, member_filterMap_cons,
    List.filterMap_nil, hnil, String.reduceEq, if_true, if_false, Option.or_none, Option.none_or]
  rw [contentShaped, isDelete]
  by_cases hdelete : member fields "operation" = some (.string "delete")
  · rw [if_pos hdelete, decide_eq_true hdelete, if_pos rfl, copiesEmpty, Bool.eq_iff_iff]
    simp
  · simp only [hdelete, decide_false, Bool.false_eq_true, if_false, isSome_payloadSchema lawful]

theorem isSome_recordSchema (item : Json) :
    (z.safeParse z.recordSchema (some item)).isSome =
      recordShaped (fun timestamp => isTimestamp doubles timestamp && !longTimestamp timestamp)
        (copiesEmpty z) item := by
  rw [Zod.recordSchema, lawful.superRefine, lawful.strictObject]
  cases item with
  | object fields =>
    simp only [parseShape_record lawful, lawful.record]
    show ((if keysShaped recordKeys fields = true then _ else none).filter _).isSome = _
    rw [recordShaped]
    cases keysShaped recordKeys fields with
    | false => rfl
    | true =>
      rw [if_pos rfl, Bool.true_and]
      split
      · next htests =>
        simp only [Bool.and_eq_true] at htests
        obtain ⟨⟨⟨htable, hrecordId⟩, hoperation⟩, hrevision⟩ := htests
        simp only [htable, hrecordId, hoperation, hrevision, Bool.true_and]
        have haccepted := payloadAccepted_eq lawful fields
        cases member fields "payload" with
        | none => rfl
        | some payload =>
          cases payload with
          | object payload =>
            refine Eq.trans ?_ (haccepted payload)
            exact isSome_filter_some _ _
          | _ => rfl
      · next htests =>
        rw [Bool.eq_false_iff.mpr htests]
        rfl
  | _ => rfl

/-- An array with at least one item, all of them accepted. -/
theorem isSome_array (schema : z.Schema) (value : Option Json) :
    (z.safeParse (z.min (z.array schema) 1) value).isSome =
      recordsShaped (fun item => (z.safeParse schema (some item)).isSome) value := by
  rw [lawful.min, lawful.array]
  rcases value with - | value
  · rfl
  · cases value with
    | array items =>
      cases items with
      | nil => rfl
      | cons item items =>
        have hall := isSome_mapM
          (fun item => (z.safeParse schema (some item)).map fun out => out.getD .null) (item :: items)
        simp only [Option.isSome_map] at hall
        simp only [recordsShaped, List.isEmpty_cons, Bool.not_false, Bool.true_and, ← hall,
          List.mapM_cons]
        cases z.safeParse schema (some item) with
        | none => rfl
        | some out =>
          cases items.mapM fun item =>
              (z.safeParse schema (some item)).map fun out => out.getD .null with
          | none => rfl
          | some outs => exact isSome_filter_some _ _
    | _ => rfl

/-- The envelopes that the schema accepts. -/
theorem accepts_eq (value : Json) :
    z.accepts value =
      envelopeShaped (fun version => doubleOf doubles version = some 1)
        (recordShaped (fun timestamp => isTimestamp doubles timestamp && !longTimestamp timestamp)
          (copiesEmpty z)) value := by
  rw [Zod.accepts, Zod.envelopeSchema, lawful.strictObject]
  cases value with
  | object root =>
    have hversion : Passes z (z.literal 1) fun version => doubleOf doubles version = some 1 := by
      intro version
      rw [lawful.literal]
      simp only [decide_eq_true_eq]
    have hsource := passes_optional lawful (passes_boundedString lawful 0 200)
    show (if keysShaped envelopeKeys root = true then _ else none).isSome = _
    rw [envelopeShaped]
    cases keysShaped envelopeKeys root with
    | false => rfl
    | true =>
      rw [if_pos rfl, Option.isSome_map, isSome_parseShape]
      simp only [List.all_cons, List.all_nil, Bool.and_true, hversion.isSome, hsource.isSome,
        isSome_array lawful, isSome_recordSchema lawful, Bool.true_and, Bool.and_assoc]
  | _ => rfl

end
end

section
variable {doubles : Doubles}

def itemsOf : Option Json → List Json
  | some (.array items) => items
  | _ => []

def recordsOf : Json → List Json
  | .object root => itemsOf (member root "records")
  | _ => []

/-- The version is not written as the integer one. -/
def floatVersion : Json → Bool
  | .object root => member root "formatVersion" ≠ some (.number (.int 1))
  | _ => false

/-- A deletion with a payload that has fields. -/
def deletesContent : Json → Bool
  | .object fields => isDelete fields &&
      match member fields "payload" with
      | some (.object payload) => !payload.isEmpty
      | _ => false
  | _ => false

/-- An upsert with a timestamp whose node is long. -/
def hasLongTimestamp : Json → Bool
  | .object fields => !isDelete fields &&
      match member fields "payload" with
      | some (.object payload) => ["updatedAt", "createdAt", "syncedAt"].any fun key =>
          (member payload key).any longTimestamp
      | _ => false
  | _ => false

/-- The shape that both demand, with the more lenient of the two where they differ. -/
def lenient (z : Zod doubles) : Json → Bool :=
  envelopeShaped (fun version => doubleOf doubles version = some 1)
    (recordShaped (isTimestamp doubles) (copiesEmpty z))

theorem any_and_not {test long : Json → Bool} (value : Option Json) :
    (value.any fun timestamp => test timestamp && !long timestamp) =
      (value.any test && !value.any long) := by
  cases value <;> simp

theorem all_and_not {test long : Json → Bool} (value : Option Json) :
    (value.all fun timestamp => test timestamp && !long timestamp) =
      (value.all test && !value.any long) := by
  cases value <;> simp

/-- Where each record passes the stricter test unless it is one of the others. -/
theorem recordsShaped_and_not {strict test other : Json → Bool}
    (h : ∀ item, strict item = (test item && !other item)) (records : Option Json) :
    recordsShaped strict records = (recordsShaped test records && !(itemsOf records).any other) := by
  have hall : ∀ items : List Json, items.all strict = (items.all test && !items.any other) := by
    intro items
    induction items with
    | nil => rfl
    | cons item items ih =>
      rw [List.all_cons, List.all_cons, List.any_cons, ih, h item]
      cases test item <;> cases other item <;> simp
  rcases records with - | records
  · rfl
  · cases records with
    | array items => rw [recordsShaped, recordsShaped, itemsOf, hall items, Bool.and_assoc]
    | _ => rfl

theorem recordShaped_isEmpty (z : Zod doubles) (timestamp : Json → Bool) (item : Json) :
    recordShaped timestamp List.isEmpty item =
      (recordShaped timestamp (copiesEmpty z) item && !deletesContent item) := by
  cases item with
  | object fields =>
    have hempty : ∀ payload : List (String × Json),
        payload.isEmpty = (copiesEmpty z payload && payload.isEmpty) := by
      intro payload
      cases payload with
      | nil => rfl
      | cons field payload => rw [List.isEmpty_cons, Bool.and_false]
    rw [recordShaped, recordShaped, deletesContent]
    refine Eq.trans (congrArg₂ and rfl ?_) (Bool.and_assoc _ _ _).symm
    cases member fields "payload" with
    | none => rfl
    | some payload =>
      cases payload with
      | object payload =>
        simp only [contentShaped]
        by_cases hdelete : isDelete fields = true
        · rw [if_pos hdelete, if_pos hdelete, hdelete, Bool.true_and, Bool.not_not]
          exact hempty payload
        · rw [if_neg hdelete, if_neg hdelete, Bool.eq_false_iff.mpr hdelete, Bool.false_and,
            Bool.not_false, Bool.and_true]
      | _ => rfl
  | _ => rfl

/-- An upsert with a timestamp that meets the test. -/
def hasTimestamp (odd : Json → Bool) : Json → Bool
  | .object fields => !isDelete fields &&
      match member fields "payload" with
      | some (.object payload) => ["updatedAt", "createdAt", "syncedAt"].any fun key =>
          (member payload key).any odd
      | _ => false
  | _ => false

theorem recordShaped_timestamps (timestamp odd : Json → Bool)
    (blank : List (String × Json) → Bool) (item : Json) :
    recordShaped (fun value => timestamp value && !odd value) blank item =
      (recordShaped timestamp blank item && !hasTimestamp odd item) := by
  cases item with
  | object fields =>
    rw [recordShaped, recordShaped, hasTimestamp]
    refine Eq.trans (congrArg₂ and rfl ?_) (Bool.and_assoc _ _ _).symm
    cases member fields "payload" with
    | none => rfl
    | some payload =>
      cases payload with
      | object payload =>
        simp only [contentShaped, payloadShaped, any_and_not, all_and_not]
        by_cases hdelete : isDelete fields = true
        · rw [if_pos hdelete, if_pos hdelete, hdelete, Bool.not_true, Bool.false_and,
            Bool.not_false, Bool.and_true]
        · rw [if_neg hdelete, if_neg hdelete, Bool.eq_false_iff.mpr hdelete, Bool.not_false,
            Bool.true_and]
          simp only [List.any_cons, List.any_nil, Bool.or_false, Bool.not_or]
          ac_rfl
      | _ => rfl
  | _ => rfl

theorem recordShaped_long (blank : List (String × Json) → Bool) (item : Json) :
    recordShaped (fun timestamp => isTimestamp doubles timestamp && !longTimestamp timestamp)
        blank item =
      (recordShaped (isTimestamp doubles) blank item && !hasLongTimestamp item) := by
  have hlong : hasLongTimestamp item = hasTimestamp longTimestamp item := by
    cases item <;> rfl
  rw [hlong, recordShaped_timestamps]

/-- The validator refuses, of what the lenient shape allows, the other spellings of the version and
the deletions with content. -/
theorem isOk_eq_lenient (z : Zod doubles) (value : Json) :
    (validateEnvelope doubles value).isOk =
      (lenient z value && !(floatVersion value || (recordsOf value).any deletesContent)) := by
  rw [isOk_validateEnvelope]
  cases value with
  | object root =>
    have hversion : decide (member root "formatVersion" = some (.number (.int 1))) =
        (decide (doubleOf doubles (member root "formatVersion") = some 1) &&
          !floatVersion (.object root)) := by
      rw [floatVersion]
      by_cases h : member root "formatVersion" = some (.number (.int 1))
      · have hone : doubles.ofInt 1 = 1 := by simpa using doubles.exact 1 (by decide)
        simp [h, doubleOf, hone]
      · simp [h]
    rw [lenient, envelopeShaped, envelopeShaped, hversion,
      recordsShaped_and_not (recordShaped_isEmpty z _), recordsOf, Bool.not_or]
    ac_rfl
  | _ => rfl

/-- The schema refuses the long nodes. -/
theorem accepts_eq_lenient {z : Zod doubles} (lawful : LawfulZod z) (value : Json) :
    z.accepts value = (lenient z value && !(recordsOf value).any hasLongTimestamp) := by
  rw [accepts_eq lawful]
  cases value with
  | object root =>
    rw [lenient, envelopeShaped, envelopeShaped, recordsOf,
      recordsShaped_and_not (recordShaped_long _), Bool.and_assoc]
    ac_rfl
  | _ => rfl

/-- The validators agree on a value unless it has the lenient shape and exactly one of the two
refuses it. -/
theorem validators_agree_iff {z : Zod doubles} (lawful : LawfulZod z) (value : Json) :
    (validateEnvelope doubles value).isOk = z.accepts value ↔
      (lenient z value = true →
        ((floatVersion value = true ∨ ∃ item ∈ recordsOf value, deletesContent item = true) ↔
          ∃ item ∈ recordsOf value, hasLongTimestamp item = true)) := by
  rw [isOk_eq_lenient z, accepts_eq_lenient lawful, ← List.any_eq_true, ← List.any_eq_true,
    ← Bool.or_eq_true]
  cases lenient z value with
  | false => simp
  | true =>
    cases (floatVersion value || (recordsOf value).any deletesContent) <;>
      cases (recordsOf value).any hasLongTimestamp <;> simp

end

def plainDoubles : Doubles where
  float literal := if literal = "1.0" then 1 else 0
  ofInt n := n
  exact _ _ := rfl
  mono _ _ h := Int.cast_le.mpr h

def plainShape (shape : List (String × (Option Json → Option (Option Json))))
    (fields : List (String × Json)) : Option (List (String × Option Json)) :=
  shape.mapM fun entry => (entry.2 (member fields entry.1)).map fun out => (entry.1, out)

/-- Schemas as the functions that parse. -/
def plainZod : Zod plainDoubles where
  Schema := Option Json → Option (Option Json)
  safeParse schema value := schema value
  string value := if (textOf value).isSome then some value else none
  number value := if (doubleOf plainDoubles value).isSome then some value else none
  literal q value := if doubleOf plainDoubles value = some q then some value else none
  enum names value := if (textOf value).any (names.contains ·) then some value else none
  record value := match value with
    | some (.object fields) =>
      some (some (.object (fields.filter fun field => field.1 ≠ "__proto__")))
    | _ => none
  regex schema pattern value := (schema value).filter fun out =>
    (textOf out).any fun text => pattern (encode text.toList)
  int schema value := (schema value).filter fun out =>
    (doubleOf plainDoubles out).any fun q => q.den = 1
  nonnegative schema value := (schema value).filter fun out =>
    (doubleOf plainDoubles out).any fun q => 0 ≤ q
  max schema bound value := (schema value).filter fun out =>
    (doubleOf plainDoubles out).any fun q => q ≤ bound
  superRefine schema accepts value := (schema value).filter accepts
  optional schema value := if value.isNone then some none else schema value
  union options value := options.findSome? fun schema => schema value
  array schema value := match value with
    | some (.array items) => (items.mapM fun item => (schema (some item)).map fun out =>
        out.getD .null).map fun outs => some (.array outs)
    | _ => none
  min schema count value := (schema value).filter fun out =>
    match out with
    | some (.array items) => count ≤ items.length
    | _ => false
  strictObject shape value := match value with
    | some (.object fields) =>
      if fields.all (fun field => (shape.map Prod.fst).contains field.1) then
        (plainShape shape fields).map fun outs =>
          some (.object (outs.filterMap fun out => out.2.map fun value => (out.1, value)))
      else none
    | _ => none
  passthroughObject shape value := match value with
    | some (.object fields) =>
      (plainShape shape fields).map fun _ => value
    | _ => none
  keeps key := key ≠ "__proto__"

theorem lawful_plainZod : LawfulZod plainZod where
  string _ := rfl
  number _ := rfl
  literal _ _ := rfl
  enum _ _ := rfl
  record _ := rfl
  regex _ _ _ := rfl
  int _ _ := rfl
  nonnegative _ _ := rfl
  max _ _ _ := rfl
  superRefine _ _ _ := rfl
  optional _ _ := rfl
  union _ _ := rfl
  array _ _ := rfl
  min _ _ _ := rfl
  strictObject _ _ := rfl
  passthroughObject shape value := by
    rcases value with - | value
    · rfl
    · cases value with
      | object fields =>
        show ((plainShape shape fields).map _).isSome = (plainShape shape fields).isSome
        rw [Option.isSome_map]
      | _ => rfl
  keeps := by decide

def oneDeletion (version : JsonNumber) : Json :=
  .object [("formatVersion", .number version), ("records", .array [.object [
    ("operation", .string "delete"), ("payload", .object []), ("recordId", .string "a"),
    ("table", .string "todos")]])]

theorem validators_agree_iff_deletion :
    (validateEnvelope plainDoubles (oneDeletion (.int 1))).isOk =
      plainZod.accepts (oneDeletion (.int 1)) :=
  (validators_agree_iff lawful_plainZod (oneDeletion (.int 1))).mpr fun _ => by decide

/-- The version 1.0 is the number one to the schema and no integer to the validator. -/
theorem floatVersion_disagrees :
    ¬ (validateEnvelope plainDoubles (oneDeletion (.float "1.0"))).isOk =
      plainZod.accepts (oneDeletion (.float "1.0")) := by
  rw [isOk_eq_lenient plainZod, accepts_eq_lenient lawful_plainZod]
  decide

end OptoSync.Ingest
