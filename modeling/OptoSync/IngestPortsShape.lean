import OptoSync.IngestAgreement
import OptoSync.IngestGraphemes

/-!
# What the ported ingest validators accept

Each accepts the envelopes of one shape, up to its own versions and timestamps.
-/
namespace OptoSync.Ingest
open Json Utf16

section
variable {ι : Type} {validate : Json → ℕ → Except (List ι) IngestRecord} {test : Json → Bool}

/-- Where a refused record has an issue, the loop ends without one when it refuses none. -/
theorem collect_eq_nil (herror : ∀ value index issues, validate value index = .error issues →
      issues ≠ []) (htest : ∀ value index, (validate value index).isOk = test value)
    {items : List Json} {index : ℕ} :
    (collect validate index items).1 = [] ↔ items.all test = true := by
  induction items generalizing index with
  | nil => simp [collect]
  | cons item items ih =>
    rw [List.all_cons, Bool.and_eq_true, ← @ih (index + 1), ← htest item index, collect]
    cases hrecord : validate item index with
    | ok record => simp [Except.isOk, Except.toBool]
    | error issues => simp [Except.isOk, Except.toBool, herror item index issues hrecord]

end

/-! ## Go and Java -/

namespace Canonical

section
variable {keyOrder : String → String → Bool} {exactOne timestamp : Json → Bool}

theorem appendUnknownKeys_eq_nil {fields : List (String × Json)} {allowed : List String}
    {path : String} :
    appendUnknownKeys keyOrder fields allowed path = [] ↔ keysShaped allowed fields = true := by
  rw [appendUnknownKeys, List.map_eq_nil_iff, ← List.length_eq_zero_iff, List.length_mergeSort,
    List.length_eq_zero_iff, List.filter_eq_nil_iff]
  simp [keysShaped]

theorem readTable_eq_nil {path : String} {value : Option Json} :
    (readTable path value).1 = [] ↔ textShaped isIdentifier value = true := by
  rcases value with - | value
  · simp [readTable, textShaped, textOf]
  · cases value with
    | string text =>
      rw [readTable, ← isIdentifier_eq]
      by_cases h : isIdentifier text = true <;> simp [textShaped, textOf, h]
    | _ => simp [readTable, textShaped, textOf]

theorem readRecordId_eq_nil {path : String} {value : Option Json} :
    (readRecordId path value).1 = [] ↔ textShaped (lengthShaped 1 512) value = true := by
  rcases value with - | value
  · simp [readRecordId, textShaped, textOf]
  · cases value with
    | string text =>
      by_cases h : 1 ≤ text.toList.length ∧ text.toList.length ≤ 512 <;>
        simp [readRecordId, textShaped, textOf, lengthShaped, h]
    | _ => simp [readRecordId, textShaped, textOf]

theorem readBaseRevision_eq_nil {path : String} {value : Option Json} :
    (readBaseRevision path value).1 = [] ↔
      optionalShaped (textShaped isDecimalString) value = true := by
  rcases value with - | value
  · simp [readBaseRevision, optionalShaped]
  · cases value with
    | string text =>
      rw [readBaseRevision, ← isDecimalString_eq]
      by_cases h : isDecimalString text = true <;> simp [optionalShaped, textShaped, textOf, h]
    | _ => simp [readBaseRevision, optionalShaped, textShaped, textOf]

theorem readSource_eq_nil {value : Option Json} :
    (readSource value).1 = [] ↔ optionalShaped (textShaped (lengthShaped 0 200)) value = true := by
  rcases value with - | value
  · simp [readSource, optionalShaped]
  · cases value with
    | string text =>
      by_cases h : text.toList.length ≤ 200 <;>
        simp [readSource, optionalShaped, textShaped, textOf, lengthShaped, h]
    | _ => simp [readSource, optionalShaped, textShaped, textOf]

/-- The operation is read as in the Rust client, but for the issue. -/
theorem readOperation_eq (path : String) (value : Option Json) :
    (readOperation path value).2 = (Ingest.readOperation path value).2 ∧
      ((readOperation path value).1 = [] ↔ (Ingest.readOperation path value).1 = []) := by
  unfold readOperation Ingest.readOperation
  split <;> simp

theorem versionIssues_eq_nil {value : Option Json} :
    versionIssues exactOne value = [] ↔ value.any exactOne = true := by
  cases value with
  | none => simp [versionIssues]
  | some version => by_cases h : exactOne version = true <;> simp [versionIssues, h]

theorem payloadIssues_eq_nil {path : String} {fields payload : List (String × Json)} :
    payloadIssues timestamp path (readOperation path (member fields "operation")).2 payload = [] ↔
      contentShaped timestamp List.isEmpty fields payload = true := by
  rw [(readOperation_eq path _).1, contentShaped, isDelete]
  by_cases hdelete : member fields "operation" = some (.string "delete")
  · rw [readOperation_eq_delete.mpr hdelete, payloadIssues]
    by_cases h : payload = [] <;> simp [hdelete, h]
  · have hupsert : (Ingest.readOperation path (member fields "operation")).2 = .upsert := by
      cases h : (Ingest.readOperation path (member fields "operation")).2 with
      | upsert => rfl
      | delete => exact absurd (readOperation_eq_delete.mp h) hdelete
    rw [hupsert, payloadIssues, payloadShaped]
    simp [hdelete, and_assoc]

theorem isOk_validateRecord (value : Json) (index : ℕ) :
    (validateRecord keyOrder timestamp value index).isOk =
      recordShaped timestamp List.isEmpty value := by
  cases value with
  | object fields =>
    rw [Bool.eq_iff_iff, recordShaped]
    simp only [validateRecord, Bool.and_eq_true]
    refine isOk_ite.trans ?_
    simp only [List.append_eq_nil_iff, appendUnknownKeys_eq_nil, readTable_eq_nil,
      readRecordId_eq_nil, (readOperation_eq _ _).2, readOperation_eq_nil, readBaseRevision_eq_nil,
      and_assoc]
    cases hpayload : member fields "payload" with
    | none => simp [readPayload]
    | some payload =>
      cases payload with
      | object payload => simp only [readPayload, payloadIssues_eq_nil]
      | _ => simp [readPayload]
  | _ => rfl

theorem validateRecord_error (value : Json) (index : ℕ) (issues : List Issue)
    (h : validateRecord keyOrder timestamp value index = .error issues) : issues ≠ [] := by
  cases value with
  | object fields =>
    simp only [validateRecord] at h
    exact ne_nil_of_ite h
  | _ =>
    cases h
    exact List.cons_ne_nil _ _

theorem readRecords_eq_nil {value : Option Json} :
    (readRecords keyOrder timestamp value).1 = [] ↔
      recordsShaped (recordShaped timestamp List.isEmpty) value = true := by
  rcases value with - | value
  · simp [readRecords, recordsShaped]
  · cases value with
    | array items =>
      cases items with
      | nil => simp [readRecords, recordsShaped]
      | cons item items =>
        have hcollect := @collect_eq_nil _ _ _ (@validateRecord_error keyOrder timestamp)
          (@isOk_validateRecord keyOrder timestamp) (item :: items) 0
        simp only [readRecords, recordsShaped, hcollect, List.isEmpty_cons, Bool.not_false,
          Bool.true_and]
    | _ => simp [readRecords, recordsShaped]

/-- The envelopes that the validator accepts. -/
theorem isOk_validateCanonical (value : Json) :
    (validateCanonical keyOrder exactOne timestamp value).isOk =
      envelopeShaped (fun version => version.any exactOne)
        (recordShaped timestamp List.isEmpty) value := by
  cases value with
  | object root =>
    rw [Bool.eq_iff_iff, envelopeShaped]
    simp only [validateCanonical, Bool.and_eq_true]
    refine isOk_ite.trans ?_
    simp only [List.append_eq_nil_iff, appendUnknownKeys_eq_nil, versionIssues_eq_nil,
      readSource_eq_nil, readRecords_eq_nil, and_assoc]
  | _ => rfl

end

end Canonical

/-! ## Dart -/

namespace Dart

section
variable {numerals : Numerals}

theorem unknownProperties_eq_nil {path : String} {allowed : List String}
    {fields : List (String × Json)} :
    unknownProperties path allowed fields = [] ↔ keysShaped allowed fields = true := by
  simp [unknownProperties, keysShaped, List.filter_eq_nil_iff]

theorem readTable_eq_nil {path : String} {value : Option Json} :
    (readTable path value).1 = [] ↔ textShaped isIdentifier value = true := by
  rcases value with - | value
  · simp [readTable, textShaped, textOf]
  · cases value with
    | string text =>
      rw [readTable, identifierPattern_encode, ← isIdentifier_eq]
      by_cases h : isIdentifier text = true <;> simp [textShaped, textOf, h]
    | _ => simp [readTable, textShaped, textOf]

theorem readRecordId_eq_nil {path : String} {value : Option Json} :
    (readRecordId path value).1 = [] ↔ textShaped (lengthShaped 1 512) value = true := by
  rcases value with - | value
  · simp [readRecordId, textShaped, textOf]
  · cases value with
    | string text =>
      have hlength : text.toList.length < 1 ∨ 512 < text.toList.length ↔
          ¬ lengthShaped 1 512 text = true := by
        rw [lengthShaped, Bool.and_eq_true, decide_eq_true_eq, decide_eq_true_eq]
        omega
      simp only [readRecordId, hlength, textShaped, textOf, Option.any_some]
      by_cases h : lengthShaped 1 512 text = true <;> simp [h]
    | _ => simp [readRecordId, textShaped, textOf]

theorem readBaseRevision_eq_nil {path : String} {value : Option Json} :
    (readBaseRevision path value).1 = [] ↔
      optionalShaped (textShaped isDecimalString) value = true := by
  rcases value with - | value
  · simp [readBaseRevision, optionalShaped]
  · cases value with
    | string text =>
      rw [readBaseRevision, decimalPattern_encode, ← isDecimalString_eq]
      by_cases h : isDecimalString text = true <;> simp [optionalShaped, textShaped, textOf, h]
    | _ => simp [readBaseRevision, optionalShaped, textShaped, textOf]

theorem readSource_eq_nil {value : Option Json} :
    (readSource value).1 = [] ↔ optionalShaped (textShaped (lengthShaped 0 200)) value = true := by
  rcases value with - | value
  · simp [readSource, optionalShaped]
  · cases value with
    | string text =>
      by_cases h : text.toList.length ≤ 200 <;>
        simp [readSource, optionalShaped, textShaped, textOf, lengthShaped, h]
    | _ => simp [readSource, optionalShaped, textShaped, textOf]

theorem readOperation_eq_nil {path : String} {value : Option Json} :
    (readOperation path value).1 = [] ↔
      optionalShaped (textShaped (["upsert", "delete"].contains ·)) value = true := by
  rcases value with - | value
  · simp [readOperation, optionalShaped]
  · cases value with
    | string text =>
      by_cases hu : text = "upsert" <;> by_cases hd : text = "delete" <;>
        simp [readOperation, optionalShaped, textShaped, textOf, hu, hd]
    | _ => simp [readOperation, optionalShaped, textShaped, textOf]

/-- The payload is checked by the operation as it is written. -/
theorem readPayload_eq_nil {path : String} {fields payload : List (String × Json)} :
    (readPayload numerals path (readOperation path (member fields "operation")).2
        (some (.object payload))).1 = [] ↔
      contentShaped (isTimestamp numerals) List.isEmpty fields payload = true := by
  have hoperation : (readOperation path (member fields "operation")).2 = .string "delete" ↔
      member fields "operation" = some (.string "delete") := by
    cases member fields "operation" <;> simp [readOperation]
  rw [contentShaped, isDelete]
  by_cases hdelete : member fields "operation" = some (.string "delete")
  · simp only [readPayload, hoperation.mpr hdelete, if_true]
    by_cases h : payload = [] <;> simp [hdelete, h]
  · simp only [readPayload, mt hoperation.mp hdelete, if_false]
    simp [hdelete, payloadShaped, and_assoc]

theorem isOk_validateRecord (value : Json) (index : ℕ) :
    (validateRecord numerals value index).isOk =
      recordShaped (isTimestamp numerals) List.isEmpty value := by
  cases value with
  | object fields =>
    rw [Bool.eq_iff_iff, recordShaped]
    simp only [validateRecord, Bool.and_eq_true]
    refine isOk_ite.trans ?_
    simp only [List.append_eq_nil_iff, unknownProperties_eq_nil, readTable_eq_nil,
      readRecordId_eq_nil, readOperation_eq_nil, readBaseRevision_eq_nil, and_assoc]
    cases hpayload : member fields "payload" with
    | none => simp [readPayload]
    | some payload =>
      cases payload with
      | object payload => simp only [readPayload_eq_nil]
      | _ => simp [readPayload]
  | _ => rfl

theorem validateRecord_error (value : Json) (index : ℕ) (issues : List String)
    (h : validateRecord numerals value index = .error issues) : issues ≠ [] := by
  cases value with
  | object fields =>
    simp only [validateRecord] at h
    exact ne_nil_of_ite h
  | _ =>
    cases h
    exact List.cons_ne_nil _ _

theorem readRecords_eq_nil {value : Option Json} :
    (readRecords numerals value).1 = [] ↔
      recordsShaped (recordShaped (isTimestamp numerals) List.isEmpty) value = true := by
  rcases value with - | value
  · simp [readRecords, recordsShaped]
  · cases value with
    | array items =>
      cases items with
      | nil => simp [readRecords, recordsShaped]
      | cons item items =>
        have hcollect := @collect_eq_nil _ _ _ (@validateRecord_error numerals)
          (@isOk_validateRecord numerals) (item :: items) 0
        simp only [readRecords, recordsShaped, hcollect, List.isEmpty_cons, Bool.not_false,
          Bool.true_and]
    | _ => simp [readRecords, recordsShaped]

/-- The envelopes that the validator accepts. -/
theorem isOk_parseEnvelope (value : Json) :
    (parseEnvelope numerals value).isOk =
      envelopeShaped (fun version => version.any (isOne numerals))
        (recordShaped (isTimestamp numerals) List.isEmpty) value := by
  cases value with
  | object root =>
    have hversion : (if (member root "formatVersion").any (isOne numerals) = true then []
        else ["<root>.formatVersion: must be 1"]) = [] ↔
          (member root "formatVersion").any (isOne numerals) = true := by
      split
      · next h => simp [h]
      · next h => simp [h]
    rw [Bool.eq_iff_iff, envelopeShaped]
    simp only [parseEnvelope, Bool.and_eq_true]
    refine isOk_ite.trans ?_
    simp only [List.append_eq_nil_iff, unknownProperties_eq_nil, hversion, readSource_eq_nil,
      readRecords_eq_nil, and_assoc]
  | _ => rfl

end

end Dart

/-! ## Gleam -/

namespace Gleam

section
variable {numerals : Numerals} {strings : GleamString}

theorem validatePayload_eq_nil {path : String} {fields payload : List (String × Json)} :
    validatePayload numerals strings path (readOperation path (member fields "operation")).2
        payload = [] ↔
      contentShaped (isTimestamp numerals strings) List.isEmpty fields payload = true := by
  rw [contentShaped, isDelete]
  by_cases hdelete : member fields "operation" = some (.string "delete")
  · rw [readOperation_eq_delete.mpr hdelete, validatePayload]
    by_cases h : payload = [] <;> simp [hdelete, h]
  · have hupsert : (readOperation path (member fields "operation")).2 = .upsert := by
      cases h : (readOperation path (member fields "operation")).2 with
      | upsert => rfl
      | delete => exact absurd (readOperation_eq_delete.mp h) hdelete
    rw [hupsert, validatePayload, payloadShaped]
    simp only [List.append_eq_nil_iff, List.flatMap_cons, List.flatMap_nil, List.append_nil,
      hdelete, decide_false, Bool.false_eq_true, if_false, Bool.and_eq_true]
    cases member payload "updatedAt" with
    | none => simp
    | some updated =>
      cases member payload "createdAt" <;> cases member payload "syncedAt" <;> simp [and_assoc]

variable (lawful : LawfulGleamString strings)
include lawful

theorem readTable_eq_nil {path : String} {value : Option Json} :
    (readTable strings path value).1 = [] ↔ textShaped Ingest.isIdentifier value = true := by
  rcases value with - | value
  · simp [readTable, textShaped, textOf]
  · cases value with
    | string text =>
      rw [readTable, isIdentifier_graphemes lawful]
      by_cases h : Ingest.isIdentifier text = true <;> simp [textShaped, textOf, h]
    | _ => simp [readTable, textShaped, textOf]

theorem readBaseRevision_eq_nil {path : String} {value : Option Json} :
    (readBaseRevision strings path value).1 = [] ↔
      optionalShaped (textShaped Ingest.isDecimalString) value = true := by
  rcases value with - | value
  · simp [readBaseRevision, optionalShaped]
  · cases value with
    | string text =>
      rw [readBaseRevision, isDecimalString_graphemes lawful]
      by_cases h : Ingest.isDecimalString text = true <;>
        simp [optionalShaped, textShaped, textOf, h]
    | _ => simp [readBaseRevision, optionalShaped, textShaped, textOf]

theorem isOk_validateRecord (value : Json) (index : ℕ) :
    (validateRecord numerals strings value index).isOk =
      recordShaped (isTimestamp numerals strings) List.isEmpty value := by
  cases value with
  | object fields =>
    rw [Bool.eq_iff_iff, recordShaped]
    simp only [validateRecord, Bool.and_eq_true]
    refine isOk_ite.trans ?_
    simp only [List.append_eq_nil_iff, unrecognizedKeys_eq_nil, readTable_eq_nil lawful,
      readRecordId_eq_nil, readOperation_eq_nil, readBaseRevision_eq_nil lawful, and_assoc]
    cases hpayload : member fields "payload" with
    | none => simp [readPayload]
    | some payload =>
      cases payload with
      | object payload => simp only [readPayload, validatePayload_eq_nil]
      | _ => simp [readPayload]
  | _ => rfl

omit lawful in
theorem validateRecord_error (value : Json) (index : ℕ) (issues : List String)
    (h : validateRecord numerals strings value index = .error issues) : issues ≠ [] := by
  cases value with
  | object fields =>
    simp only [validateRecord] at h
    exact ne_nil_of_ite h
  | _ =>
    cases h
    exact List.cons_ne_nil _ _

theorem readRecords_eq_nil {value : Option Json} :
    (readRecords numerals strings value).1 = [] ↔
      recordsShaped (recordShaped (isTimestamp numerals strings) List.isEmpty) value = true := by
  rcases value with - | value
  · simp [readRecords, recordsShaped]
  · cases value with
    | array items =>
      cases items with
      | nil => simp [readRecords, recordsShaped]
      | cons item items =>
        have hcollect := @collect_eq_nil _ _ _ (@validateRecord_error numerals strings)
          (isOk_validateRecord lawful) (item :: items) 0
        simp only [readRecords, recordsShaped, hcollect, List.isEmpty_cons, Bool.not_false,
          Bool.true_and]
    | _ => simp [readRecords, recordsShaped]

/-- The envelopes that the validator accepts. -/
theorem isOk_validateCanonical (value : Json) :
    (validateCanonical numerals strings value).isOk =
      envelopeShaped (fun version => version = some (.number (.int 1)))
        (recordShaped (isTimestamp numerals strings) List.isEmpty) value := by
  cases value with
  | object root =>
    rw [Bool.eq_iff_iff, envelopeShaped]
    simp only [validateCanonical, Bool.and_eq_true]
    refine isOk_ite.trans ?_
    simp only [List.append_eq_nil_iff, unrecognizedKeys_eq_nil, versionIssues_eq_nil,
      readSource_eq_nil, readRecords_eq_nil lawful, and_assoc, decide_eq_true_eq]
  | _ => rfl

end

end Gleam

end OptoSync.Ingest
