import OptoSync.PushAcknowledgement

/-!
# Agreement on push responses

When the three clients take the same responses for the same batch. A well-formed response is one
that all of them take up to the forms that only some of them read.
-/
namespace OptoSync
open Decimal Json

namespace PushAcknowledgement
open SyncLoop (NumberConversion toText property decimalTest isOne)

variable (numbers : NumberConversion)

/-- A missing or null field, or one whose text is a decimal. -/
def DecimalField (pattern : String → Bool) (field : Option Json) : Prop :=
  ∀ value ∈ field, value ≠ .null → pattern (toText numbers value) = true

/-- A value that is neither null nor a string. -/
def Coerced (field : Option Json) : Prop :=
  ∃ value ∈ field, value ≠ .null ∧ ∀ text, value ≠ .string text

/-- A decimal string of more than 64 bits. -/
def Large (field : Option Json) : Prop := ∃ text, field = some (.string text) ∧ maxU64 < bigInt text

/-- A status in the form of an object with one key. -/
def Keyed (field : Option Json) : Prop := ∃ value ∈ field, value.isObject = true

variable {numbers} {pattern : String → Bool} {field : Option Json}

theorem decoded_iff {refused : String → Bool}
    (hrefused : ∀ text, refused text = false ↔ pattern text = true ∧ bigInt text ≤ maxU64) :
    (∃ decoded, asOption asString field = some decoded ∧ decoded.any refused = false) ↔
      DecimalField numbers pattern field ∧ ¬ Coerced field ∧ ¬ Large field := by
  cases field with
  | none => simp [asOption, DecimalField, Coerced, Large]
  | some value =>
    cases value with
    | null => simp [asOption, DecimalField, Coerced, Large]
    | string text => simp [asOption, asString, DecimalField, Coerced, Large, toText, hrefused]
    | _ => simp [asOption, asString, Coerced]

theorem tested_iff (hnull : pattern "null" = false) :
    (field.isNone || decimalTest numbers pattern field) = true ↔
      DecimalField numbers pattern field ∧ field ≠ some .null := by
  cases field with
  | none => simp [DecimalField]
  | some value =>
    cases value with
    | null => simp [decimalTest, toText, hnull]
    | _ => simp [decimalTest, DecimalField]

theorem mapped_iff : (field.getD .null = .null || Dart.isDecimalString pattern (field.getD .null)) =
    true ↔ DecimalField numbers pattern field ∧ ¬ Coerced field := by
  cases field with
  | none => simp [DecimalField, Coerced]
  | some value =>
    cases value with
    | null => simp [DecimalField, Coerced]
    | string text => simp [Dart.isDecimalString, DecimalField, Coerced, toText]
    | _ => simp [Dart.isDecimalString, Coerced]

theorem parses_iff (text : String) : (parseDecimal text).isNone = false ↔
    decimalPattern text = true ∧ bigInt text ≤ maxU64 := by
  constructor
  · intro h
    obtain ⟨n, hn⟩ := Option.isSome_iff_exists.mp (by simpa using h)
    obtain ⟨hpattern, rfl, hle⟩ := parseDecimal_iff.mp hn
    exact ⟨hpattern, hle⟩
  · rintro ⟨hpattern, hle⟩
    rw [parseDecimal_iff.mpr ⟨hpattern, rfl, hle⟩]
    rfl

theorem parses_positive_iff (text : String) :
    ((parseDecimal text).isNone || (parseDecimal text).any (· = 0)) = false ↔
      positiveDecimalPattern text = true ∧ bigInt text ≤ maxU64 := by
  rw [← positive_iff]
  cases parseDecimal text with
  | none => simp
  | some n => simp

theorem read_eq_some {value : Json} {status : ResultStatus} :
    ResultStatus.read value = some status ↔ value.asVariant = some status.wireName := by
  unfold ResultStatus.read
  constructor
  · intro h
    split at h <;> cases h <;> assumption
  · intro h
    rw [h]
    cases status <;> rfl

theorem read_string_iff {value : Json} {status : ResultStatus} :
    value = .string status.wireName ↔
      ResultStatus.read value = some status ∧ value.isObject = false := by
  rw [read_eq_some]
  constructor
  · rintro rfl
    exact ⟨rfl, rfl⟩
  · rintro ⟨hvariant, hobject⟩
    unfold asVariant at hvariant
    split at hvariant
    · rw [Option.some.inj hvariant]
    · cases hobject
    · cases hvariant

/-- The status and the original status of a result: only a duplicate has an original one. -/
def Statuses (status original : Option Json) : Prop :=
  ∃ decoded decodedOriginal, status.bind ResultStatus.read = some decoded ∧
    asOption ResultStatus.read original = some decodedOriginal ∧
      decodedOriginal ≠ some .duplicate ∧ (decoded = .duplicate ↔ decodedOriginal.isSome = true)

theorem not_keyed_some {value : Json} : ¬ Keyed (some value) ↔ value.isObject = false := by
  simp [Keyed]

theorem status_iff {status : Option Json} {decoded : ResultStatus} :
    (status.bind ResultStatus.read = some decoded ∧ ¬ Keyed status) ↔
      status = some (.string decoded.wireName) := by
  cases status with
  | none => simp
  | some value =>
    rw [Option.bind_some, not_keyed_some, ← read_string_iff, Option.some.injEq]

/-- An original status as a string; null stands for none. -/
theorem original_iff {original : Option Json} {decoded : Option ResultStatus} :
    (asOption ResultStatus.read original = some decoded ∧ ¬ Keyed original) ↔
      original.getD .null = (decoded.map fun status => Json.string status.wireName).getD .null := by
  cases original with
  | none =>
    cases decoded with
    | none => simp [asOption, Keyed]
    | some status => simp [asOption]
  | some value =>
    by_cases hnull : value = .null
    · subst hnull
      cases decoded with
      | none => simp [asOption, Keyed, isObject]
      | some status => simp [asOption]
    · have hread : asOption ResultStatus.read (some value) = (ResultStatus.read value).map some := by
        cases value with
        | null => exact absurd rfl hnull
        | _ => rfl
      rw [hread, not_keyed_some, Option.getD_some]
      cases decoded with
      | none => simp [hnull]
      | some status => simp [read_string_iff]

/-- The statuses as the two clients that read strings only see them. -/
theorem statuses_iff {status original : Option Json} :
    (Statuses status original ∧ ¬ Keyed status ∧ ¬ Keyed original) ↔
      (status = some (.string "duplicate") ∧
          (original = some (.string "applied") ∨ original = some (.string "rejected"))) ∨
        ((status = some (.string "applied") ∨ status = some (.string "rejected")) ∧
          original.getD .null = .null) := by
  constructor
  · rintro ⟨⟨decoded, decodedOriginal, hstatus, horiginal, hnot, hdup⟩, hkeyed, hkeyedOriginal⟩
    have hs := status_iff.mp ⟨hstatus, hkeyed⟩
    have ho := original_iff.mp ⟨horiginal, hkeyedOriginal⟩
    cases decodedOriginal with
    | none =>
      right
      refine ⟨?_, ho⟩
      cases decoded with
      | applied => exact Or.inl hs
      | rejected => exact Or.inr hs
      | duplicate => simp at hdup
    | some status' =>
      left
      have hd : decoded = .duplicate := hdup.mpr rfl
      subst hd
      refine ⟨hs, ?_⟩
      have hsome : original = some (.string status'.wireName) := by
        cases original with
        | none => cases ho
        | some value => exact congrArg some ho
      cases status' with
      | applied => exact Or.inl hsome
      | rejected => exact Or.inr hsome
      | duplicate => exact absurd rfl hnot
  · have hof : ∀ (decoded : ResultStatus) (decodedOriginal : Option ResultStatus),
        status = some (.string decoded.wireName) →
        original.getD .null =
          (decodedOriginal.map fun status => Json.string status.wireName).getD .null →
        decodedOriginal ≠ some .duplicate → (decoded = .duplicate ↔ decodedOriginal.isSome = true) →
        Statuses status original ∧ ¬ Keyed status ∧ ¬ Keyed original := by
      intro decoded decodedOriginal hs ho hnot hdup
      obtain ⟨hstatus, hkeyed⟩ := status_iff.mpr hs
      obtain ⟨horiginal, hkeyedOriginal⟩ := original_iff.mpr ho
      exact ⟨⟨decoded, decodedOriginal, hstatus, horiginal, hnot, hdup⟩, hkeyed, hkeyedOriginal⟩
    rintro (⟨hs, ho | ho⟩ | ⟨hs | hs, ho⟩)
    · exact hof .duplicate (some .applied) hs (by rw [ho]; rfl) (by simp) (by simp)
    · exact hof .duplicate (some .rejected) hs (by rw [ho]; rfl) (by simp) (by simp)
    · exact hof .applied none hs ho (by simp) (by simp)
    · exact hof .rejected none hs ho (by simp) (by simp)

theorem statuses_in_place_iff {status original : Option Json} :
    ([some (.string "applied"), some (.string "duplicate"), some (.string "rejected")].contains
        status = true ∧
      [none, some (.string "applied"), some (.string "rejected")].contains original = true ∧
      decide (status = some (.string "duplicate")) = original.isSome) ↔
      (Statuses status original ∧ ¬ Keyed status ∧ ¬ Keyed original) ∧ original ≠ some .null := by
  rw [statuses_iff]
  simp only [List.contains_eq_mem, decide_eq_true_eq, List.mem_cons, List.not_mem_nil, or_false]
  constructor
  · rintro ⟨rfl | rfl | rfl, rfl | rfl | rfl, hdup⟩
    all_goals simp at hdup
    all_goals simp
  · rintro ⟨⟨rfl, rfl | rfl⟩ | ⟨rfl | rfl, horiginal⟩, hnull⟩
    · simp
    · simp
    · cases original with
      | none => simp
      | some value => exact absurd (congrArg some horiginal) hnull
    · cases original with
      | none => simp
      | some value => exact absurd (congrArg some horiginal) hnull

theorem statuses_map_iff {status original : Option Json} :
    ([Json.string "applied", .string "duplicate", .string "rejected"].contains
        (status.getD .null) = true ∧
      (original.getD .null = .null ∨
        [Json.string "applied", .string "rejected"].contains (original.getD .null) = true) ∧
      decide (status.getD .null = .string "duplicate") = decide (original.getD .null ≠ .null)) ↔
      Statuses status original ∧ ¬ Keyed status ∧ ¬ Keyed original := by
  have hstring : ∀ (field : Option Json) (text : String),
      field.getD .null = .string text ↔ field = some (.string text) := by
    intro field text
    cases field <;> simp
  rw [statuses_iff]
  simp only [List.contains_eq_mem, decide_eq_true_eq, List.mem_cons, List.not_mem_nil, or_false,
    hstring, decide_eq_decide]
  constructor
  · rintro ⟨rfl | rfl | rfl, horiginal, hdup⟩
    · exact Or.inr ⟨Or.inl rfl, by simpa using hdup⟩
    · exact Or.inl ⟨rfl, horiginal.resolve_left (hdup.mp rfl)⟩
    · exact Or.inr ⟨Or.inr rfl, by simpa using hdup⟩
  · rintro (⟨rfl, rfl | rfl⟩ | ⟨rfl | rfl, horiginal⟩)
    · simp
    · simp
    · simp [horiginal]
    · simp [horiginal]

def resultField (item : Json) (name : String) : Option Json :=
  member ((item.asFields MutationResult.fields).getD []) name

variable (numbers)

/-- What all clients ask of the result of a mutation. -/
structure WellFormedResult (mutationId : String) (item : Json) : Prop where
  fields : (item.asFields MutationResult.fields).isSome = true
  mutationId : resultField item "mutationId" = some (.string mutationId)
  checkpoint : DecimalField numbers decimalPattern (resultField item "checkpoint")
  revision : DecimalField numbers positiveDecimalPattern (resultField item "revision")
  statuses : Statuses (resultField item "status") (resultField item "originalStatus")

/-- An array in the place of the result, or a status as a key. -/
def KeyedResult (item : Json) : Prop :=
  item.isObject = false ∨ Keyed (resultField item "status") ∨
    Keyed (resultField item "originalStatus")

/-- A null in the place of a missing field. -/
def NullResult (item : Json) : Prop :=
  resultField item "checkpoint" = some .null ∨ resultField item "revision" = some .null ∨
    resultField item "originalStatus" = some .null

/-- A checkpoint or a revision that is not a string but has the text of a decimal. -/
def CoercedResult (item : Json) : Prop :=
  Coerced (resultField item "checkpoint") ∨ Coerced (resultField item "revision")

/-- A number of more than 64 bits, or a code or a message that is not a string. -/
def UntypedResult (item : Json) : Prop :=
  Large (resultField item "checkpoint") ∨ Large (resultField item "revision") ∨
    Coerced (resultField item "code") ∨ Coerced (resultField item "message")

variable {numbers}

theorem coerced_iff : Coerced field ↔ asOption asString field = none := by
  cases field with
  | none => simp [Coerced, asOption]
  | some value => cases value <;> simp [Coerced, asOption, asString]

theorem fromValue_result_eq_some {item : Json} {result : MutationResult} :
    MutationResult.fromValue item = some result ↔
      (item.asFields MutationResult.fields).isSome = true ∧
        resultField item "mutationId" = some (.string result.mutationId) ∧
        (resultField item "status").bind ResultStatus.read = some result.status ∧
        asOption ResultStatus.read (resultField item "originalStatus") = some result.originalStatus ∧
        asOption asString (resultField item "checkpoint") = some result.checkpoint ∧
        asOption asString (resultField item "revision") = some result.revision ∧
        asOption asString (resultField item "code") = some result.code ∧
        asOption asString (resultField item "message") = some result.message := by
  unfold MutationResult.fromValue resultField
  cases item.asFields MutationResult.fields with
  | none => simp
  | some fields =>
    simp only [bind, Option.bind_eq_some_iff, pure, Option.some.injEq, asString_eq_some,
      exists_eq_left', exists_eq_right, Option.isSome_some, true_and, Option.getD_some]
    constructor
    · rintro ⟨mutationId, hid, status, hstatus, original, horiginal, checkpoint, hcheckpoint,
        revision, hrevision, code, hcode, message, hmessage, rfl⟩
      exact ⟨hid, hstatus, horiginal, hcheckpoint, hrevision, hcode, hmessage⟩
    · rintro ⟨hid, hstatus, horiginal, hcheckpoint, hrevision, hcode, hmessage⟩
      exact ⟨_, hid, _, hstatus, _, horiginal, _, hcheckpoint, _, hrevision, _, hcode, _, hmessage,
        rfl⟩

theorem resultRefused_iff {sent : ProtocolMutation} {result : MutationResult} :
    ProtocolQueue.resultRefused sent result = false ↔
      sent.mutationId = result.mutationId ∧
        result.checkpoint.any (fun value => (parseDecimal value).isNone) = false ∧
        result.revision.any (fun value =>
          (parseDecimal value).isNone || (parseDecimal value).any (· = 0)) = false ∧
        result.originalStatus ≠ some .duplicate ∧
        (result.status = .duplicate ↔ result.originalStatus.isSome = true) := by
  unfold ProtocolQueue.resultRefused
  cases result.originalStatus with
  | none => simp [and_assoc]
  | some status => simp [and_assoc]

theorem decodes_result_iff {sent : ProtocolMutation} {item : Json} :
    (∃ result, MutationResult.fromValue item = some result ∧
      ProtocolQueue.resultRefused sent result = false) ↔
      WellFormedResult numbers sent.mutationId item ∧ ¬ CoercedResult item ∧
        ¬ UntypedResult item := by
  constructor
  · rintro ⟨result, hdecode, haccepted⟩
    obtain ⟨hfields, hid, hstatus, horiginal, hcheckpoint, hrevision, hcode, hmessage⟩ :=
      fromValue_result_eq_some.mp hdecode
    obtain ⟨hsent, hcanonical, hpositive, hnot, hdup⟩ := resultRefused_iff.mp haccepted
    obtain ⟨hdecimal, huncoerced, hsmall⟩ :=
      (@decoded_iff numbers _ _ _ parses_iff).mp ⟨_, hcheckpoint, hcanonical⟩
    obtain ⟨hdecimal', huncoerced', hsmall'⟩ :=
      (@decoded_iff numbers _ _ _ parses_positive_iff).mp ⟨_, hrevision, hpositive⟩
    refine ⟨⟨hfields, hsent ▸ hid, hdecimal, hdecimal', _, _, hstatus, horiginal, hnot, hdup⟩, ?_, ?_⟩
    · exact not_or.mpr ⟨huncoerced, huncoerced'⟩
    · rintro (hlarge | hlarge | hother | hother)
      · exact hsmall hlarge
      · exact hsmall' hlarge
      · rw [coerced_iff.mp hother] at hcode
        cases hcode
      · rw [coerced_iff.mp hother] at hmessage
        cases hmessage
  · rintro ⟨hwf, huncoerced, htyped⟩
    simp only [CoercedResult, UntypedResult, not_or] at huncoerced htyped
    obtain ⟨hsmall, hsmall', hcode, hmessage⟩ := htyped
    obtain ⟨checkpoint, hcheckpoint, hcanonical⟩ :=
      (decoded_iff parses_iff).mpr ⟨hwf.checkpoint, huncoerced.1, hsmall⟩
    obtain ⟨revision, hrevision, hpositive⟩ :=
      (decoded_iff parses_positive_iff).mpr ⟨hwf.revision, huncoerced.2, hsmall'⟩
    obtain ⟨code, hcode⟩ := Option.ne_none_iff_exists'.mp (mt coerced_iff.mpr hcode)
    obtain ⟨message, hmessage⟩ := Option.ne_none_iff_exists'.mp (mt coerced_iff.mpr hmessage)
    obtain ⟨status, original, hstatus, horiginal, hnot, hdup⟩ := hwf.statuses
    refine ⟨{ mutationId := sent.mutationId, status, originalStatus := original, checkpoint
              revision, code, message }, ?_, ?_⟩
    · exact fromValue_result_eq_some.mpr ⟨hwf.fields, hwf.mutationId, hstatus, horiginal,
        hcheckpoint, hrevision, hcode, hmessage⟩
    · exact resultRefused_iff.mpr ⟨rfl, hcanonical, hpositive, hnot, hdup⟩

/-- A result that is an object is read by its properties. -/
theorem property_eq {item : Json} (h : item.isObject = true) (name : String) :
    property item name = resultField item name ∧
      (item.asFields MutationResult.fields).isSome = true := by
  cases item with
  | object fields => exact ⟨rfl, rfl⟩
  | _ => cases h

theorem matches_in_place_iff {expected : WireMutation} {item : Json} :
    SyncLoop.resultMatches numbers expected item = true ↔
      WellFormedResult numbers expected.mutationId item ∧ ¬ KeyedResult item ∧
        ¬ NullResult item := by
  by_cases hobject : item.isObject = true
  · have hproperty := fun name => (property_eq hobject name).1
    have hstatuses := @statuses_in_place_iff (resultField item "status")
      (resultField item "originalStatus")
    have hcheckpoint := @tested_iff numbers decimalPattern (resultField item "checkpoint")
      (by decide)
    have hrevision := @tested_iff numbers positiveDecimalPattern (resultField item "revision")
      (by decide)
    unfold SyncLoop.resultMatches
    simp only [hproperty, Bool.and_eq_true, decide_eq_true_eq, hcheckpoint, hrevision, KeyedResult,
      NullResult, not_or]
    constructor
    · rintro ⟨⟨⟨⟨⟨hid, hstatus⟩, hdecimal, hnull⟩, hdecimal', hnull'⟩, horiginal⟩, hdup⟩
      obtain ⟨⟨hread, hkeyed, hkeyed'⟩, hnull''⟩ := hstatuses.mp ⟨hstatus, horiginal, hdup⟩
      exact ⟨⟨(property_eq hobject "").2, hid, hdecimal, hdecimal', hread⟩,
        ⟨by simp [hobject], hkeyed, hkeyed'⟩, hnull, hnull', hnull''⟩
    · rintro ⟨hwf, ⟨-, hkeyed, hkeyed'⟩, hnull, hnull', hnull''⟩
      obtain ⟨hstatus, horiginal, hdup⟩ := hstatuses.mpr ⟨⟨hwf.statuses, hkeyed, hkeyed'⟩, hnull''⟩
      exact ⟨⟨⟨⟨⟨hwf.mutationId, hstatus⟩, hwf.checkpoint, hnull⟩, hwf.revision, hnull'⟩, horiginal⟩,
        hdup⟩
  · have hnone : ∀ name, property item name = none := by
      intro name
      cases item with
      | object fields => exact absurd rfl hobject
      | _ => rfl
    simp [SyncLoop.resultMatches, hnone, KeyedResult, hobject]

theorem matches_map_iff {sent item : Json} {mutationId : String} (hsent : sent.isObject = true)
    (hid : Dart.entry sent "mutationId" = .string mutationId) :
    Dart.resultMatches sent item = true ↔
      WellFormedResult numbers mutationId item ∧ ¬ KeyedResult item ∧ ¬ CoercedResult item := by
  by_cases hobject : item.isObject = true
  · have hentry : ∀ name, Dart.entry item name = (resultField item name).getD .null := by
      intro name
      rw [Dart.entry, (property_eq hobject name).1]
    have hstatuses := @statuses_map_iff (resultField item "status")
      (resultField item "originalStatus")
    have hcheckpoint := @mapped_iff numbers decimalPattern (resultField item "checkpoint")
    have hrevision := @mapped_iff numbers positiveDecimalPattern (resultField item "revision")
    have hmutation : (resultField item "mutationId").getD .null = .string mutationId ↔
        resultField item "mutationId" = some (.string mutationId) := by
      cases resultField item "mutationId" <;> simp
    unfold Dart.resultMatches
    simp only [hentry, hsent, hobject, hid, hmutation, Bool.and_eq_true, decide_eq_true_eq,
      hcheckpoint, hrevision, Bool.or_eq_true, true_and, KeyedResult, CoercedResult, not_or]
    constructor
    · rintro ⟨⟨⟨⟨⟨hid, hstatus⟩, hdecimal, huncoerced⟩, hdecimal', huncoerced'⟩, horiginal⟩, hdup⟩
      obtain ⟨hread, hkeyed, hkeyed'⟩ := hstatuses.mp ⟨hstatus, horiginal, hdup⟩
      exact ⟨⟨(property_eq hobject "").2, hid, hdecimal, hdecimal', hread⟩,
        ⟨by simp, hkeyed, hkeyed'⟩, huncoerced, huncoerced'⟩
    · rintro ⟨hwf, ⟨-, hkeyed, hkeyed'⟩, huncoerced, huncoerced'⟩
      obtain ⟨hstatus, horiginal, hdup⟩ := hstatuses.mpr ⟨hwf.statuses, hkeyed, hkeyed'⟩
      exact ⟨⟨⟨⟨⟨hwf.mutationId, hstatus⟩, hwf.checkpoint, huncoerced⟩, hwf.revision, huncoerced'⟩,
        horiginal⟩, hdup⟩
  · simp [Dart.resultMatches, KeyedResult, hobject]

theorem forall₂_and_right {α β : Type} {R : α → β → Prop} {p : β → Prop} {as : List α}
    {bs : List β} : List.Forall₂ (fun a b => R a b ∧ p b) as bs ↔
      List.Forall₂ R as bs ∧ ∀ b ∈ bs, p b := by
  constructor
  · intro h
    induction h with
    | nil => exact ⟨.nil, by simp⟩
    | cons hab _ ih =>
      exact ⟨.cons hab.1 ih.1, List.forall_mem_cons.mpr ⟨hab.2, ih.2⟩⟩
  · rintro ⟨hforall, hp⟩
    induction hforall with
    | nil => exact .nil
    | cons hab _ ih =>
      obtain ⟨hb, hp⟩ := List.forall_mem_cons.mp hp
      exact .cons ⟨hab, hb⟩ (ih hp)

theorem forall₂_all_zip {α β : Type} {p : α → β → Bool} {as : List α} {bs : List β} :
    (bs.length = as.length ∧ (as.zip bs).all (fun row => p row.1 row.2) = true) ↔
      List.Forall₂ (fun a b => p a b = true) as bs := by
  rw [List.forall₂_iff_zip, List.all_eq_true]
  constructor
  · rintro ⟨hlen, hall⟩
    exact ⟨hlen.symm, fun {a b} hmem => hall (a, b) hmem⟩
  · rintro ⟨hlen, hall⟩
    exact ⟨hlen.symm, fun row hmem => hall hmem⟩

theorem decodes_results_iff {sent : List ProtocolMutation} {items : List Json} :
    (∃ results, items.mapM MutationResult.fromValue = some results ∧
      results.length = sent.length ∧
      (sent.zip results).any (fun p => ProtocolQueue.resultRefused p.1 p.2) = false) ↔
      List.Forall₂ (fun m item => ∃ result, MutationResult.fromValue item = some result ∧
        ProtocolQueue.resultRefused m result = false) sent items := by
  induction items generalizing sent with
  | nil =>
    cases sent with
    | nil => simp
    | cons m sent => simp
  | cons item items ih =>
    cases sent with
    | nil => simp [List.mapM_cons, bind, Option.bind_eq_some_iff]
    | cons m sent =>
      rw [List.forall₂_cons, ← ih, List.mapM_cons]
      simp only [bind, Option.bind_eq_some_iff, pure, Option.some.injEq]
      constructor
      · rintro ⟨_, ⟨result, hresult, results, hresults, rfl⟩, hlen, hany⟩
        rw [List.zip_cons_cons, List.any_cons, Bool.or_eq_false_iff] at hany
        exact ⟨⟨result, hresult, hany.1⟩, results, hresults, by simpa using hlen, hany.2⟩
      · rintro ⟨⟨result, hresult, haccepted⟩, results, hresults, hlen, hany⟩
        refine ⟨_, ⟨result, hresult, results, hresults, rfl⟩, by simp [hlen], ?_⟩
        rw [List.zip_cons_cons, List.any_cons, haccepted, hany]
        rfl

def responseField (response : Json) (name : String) : Option Json :=
  member ((response.asFields PushResponse.fields).getD []) name

def resultItems (response : Json) : List Json :=
  ((responseField response "results").bind asArray).getD []

variable (numbers)

/-- What all clients ask of a response. -/
structure WellFormedResponse (clientId : String) (mutationIds : List String) (response : Json) :
    Prop where
  fields : (response.asFields PushResponse.fields).isSome = true
  protocolVersion : isOne numbers (responseField response "protocolVersion") = true
  clientId : responseField response "clientId" = some (.string clientId)
  lastMutationId : ∃ last ∈ mutationIds.getLast?,
    responseField response "lastMutationId" = some (.string last)
  checkpoint : decimalTest numbers decimalPattern (responseField response "checkpoint") = true
  array : responseField response "results" = some (.array (resultItems response))
  results : List.Forall₂ (WellFormedResult numbers) mutationIds (resultItems response)

/-- A form that only the Rust client reads. -/
def KeyedForm (response : Json) : Prop :=
  response.isObject = false ∨ ∃ item ∈ resultItems response, KeyedResult item

/-- A form that the TypeScript client does not read. -/
def NullForm (response : Json) : Prop := ∃ item ∈ resultItems response, NullResult item

/-- A form that only the TypeScript client reads. -/
def CoercedForm (response : Json) : Prop :=
  Coerced (responseField response "checkpoint") ∨ ∃ item ∈ resultItems response, CoercedResult item

/-- A form that the Rust client does not read. -/
def UntypedForm (response : Json) : Prop :=
  responseField response "protocolVersion" ≠ some (.number (.int 1)) ∨
    Large (responseField response "checkpoint") ∨
      ∃ item ∈ resultItems response, UntypedResult item

variable {numbers}

theorem required_decoded_iff : (∃ text, field = some (.string text) ∧
    (parseDecimal text).isNone = false) ↔
      decimalTest numbers decimalPattern field = true ∧ ¬ Coerced field ∧ ¬ Large field := by
  cases field with
  | none => simp [decimalTest, decimalPattern]
  | some value =>
    cases value with
    | null => simp [decimalTest, toText, show decimalPattern "null" = false by decide]
    | string text =>
      simp [parses_iff, decimalTest, toText, Coerced, Large, -Option.isNone_eq_false_iff]
    | _ => simp [Coerced]

theorem required_mapped_iff : Dart.isDecimalString decimalPattern (field.getD .null) = true ↔
    decimalTest numbers decimalPattern field = true ∧ ¬ Coerced field := by
  cases field with
  | none => simp [decimalTest, Dart.isDecimalString, decimalPattern]
  | some value =>
    cases value with
    | null =>
      simp [decimalTest, toText, Dart.isDecimalString, show decimalPattern "null" = false by decide]
    | string text => simp [decimalTest, toText, Coerced, Dart.isDecimalString]
    | _ => simp [Coerced, Dart.isDecimalString]

theorem resultItems_eq {response : Json} {items : List Json}
    (h : responseField response "results" = some (.array items)) : resultItems response = items := by
  rw [resultItems, h]
  rfl

theorem fromValue_response_eq_some {response : Json} {decoded : PushResponse} :
    PushResponse.fromValue response = some decoded ↔
      (response.asFields PushResponse.fields).isSome = true ∧
        (responseField response "protocolVersion").bind asU8 = some decoded.protocolVersion ∧
        responseField response "clientId" = some (.string decoded.clientId) ∧
        responseField response "lastMutationId" = some (.string decoded.lastMutationId) ∧
        responseField response "checkpoint" = some (.string decoded.checkpoint) ∧
        responseField response "results" = some (.array (resultItems response)) ∧
        (resultItems response).mapM MutationResult.fromValue = some decoded.results := by
  have hitems : ∀ items, responseField response "results" = some (.array items) →
      resultItems response = items := fun items => resultItems_eq
  unfold PushResponse.fromValue
  unfold responseField at hitems ⊢
  cases hfields : response.asFields PushResponse.fields with
  | none => simp
  | some fields =>
    rw [hfields] at hitems
    simp only [bind, Option.bind_eq_some_iff, pure, Option.some.injEq, asString_eq_some,
      asArray_eq_some, exists_eq_left', exists_eq_right, Option.isSome_some, true_and,
      Option.getD_some] at hitems ⊢
    constructor
    · rintro ⟨version, hversion, clientId, hclient, last, hlast, checkpoint, hcheckpoint, items,
        harray, results, hresults, rfl⟩
      rw [hitems items harray]
      exact ⟨hversion, hclient, hlast, hcheckpoint, harray, hresults⟩
    · rintro ⟨hversion, hclient, hlast, hcheckpoint, harray, hresults⟩
      exact ⟨_, hversion, _, hclient, _, hlast, _, hcheckpoint, _, harray, _, hresults, rfl⟩

theorem version_one_iff : field.bind asU8 = some 1 ↔ field = some (.number (.int 1)) := by
  cases field with
  | none => simp
  | some value => rw [Option.bind_some, SyncLoop.asU8_eq_one, Option.some.injEq]

/-! ## The Rust client -/

section
variable {q : ProtocolQueue} {rows : List ProtocolMutation} {w : ℕ}

theorem pushRequest_eq_ok {limit : ℕ} {request : PushRequest}
    (h : q.pushRequest limit = .ok request) : (1 ≤ limit ∧ limit ≤ 100) ∧
      request = { protocolVersion := 1, clientId := q.clientId, mutations := q.pending.take limit } := by
  unfold ProtocolQueue.pushRequest at h
  split at h
  · cases h
  · rename_i hvalid
    refine ⟨?_, (Except.ok.inj h).symm⟩
    simpa [validPushLimit] using hvalid

/-- Of a batch that the queue built, its own checks pass. -/
theorem acknowledge_ok_iff (hq : ProtocolQueue.Ledger q rows w) {limit : ℕ} {request : PushRequest}
    (hrequest : q.pushRequest limit = .ok request) {decoded : PushResponse} :
    (∃ changed, (q.acknowledge decoded request).1 = .ok changed) ↔
      decoded.clientId = q.clientId ∧ decoded.protocolVersion = 1 ∧
        (request.mutations.map (·.mutationId)).getLast? = some decoded.lastMutationId ∧
        (parseDecimal decoded.checkpoint).isNone = false ∧
        decoded.results.length = request.mutations.length ∧
        (request.mutations.zip decoded.results).any
          (fun p => ProtocolQueue.resultRefused p.1 p.2) = false := by
  obtain ⟨hlimit, rfl⟩ := pushRequest_eq_ok hrequest
  have hsent : q.pending.take (q.pending.take limit).length = q.pending.take limit := by
    rw [List.length_take, List.take_eq_take_iff]
    omega
  have hshort : (q.pending.take limit).length ≤ 100 := by
    rw [List.length_take]
    omega
  rw [List.getLast?_map]
  constructor
  · rintro ⟨changed, h⟩
    unfold ProtocolQueue.acknowledge at h
    split at h
    · cases h
    · rename_i hclient
      split at h
      · cases h
      · rename_i hshape
        simp only [not_or, not_not, ne_eq] at hclient hshape
        obtain ⟨-, -, -, -, hversion, hlen, hlast, hcheckpoint, hany⟩ := hshape
        exact ⟨hclient.2, hversion, hlast, by simpa [Option.isSome_iff_ne_none] using hcheckpoint,
          hlen, by simpa using hany⟩
  · rintro ⟨hclient, hversion, hlast, hcheckpoint, hlen, hany⟩
    obtain ⟨last, hmem, hid⟩ := Option.map_eq_some_iff.mp hlast
    have hpending : last ∈ q.pending := List.mem_of_mem_take (List.mem_of_getLast? hmem)
    rw [hq.pending_eq] at hpending
    obtain ⟨i, hi, hrow, -⟩ := hq.mutationId_mem (List.mem_of_mem_drop hpending)
    have hparse : parseDecimal decoded.lastMutationId = some (i + 1) := by
      rw [← hid, hrow]
      apply parseDecimal_repr
      have := hq.bound
      simp only [maxI64, maxU64] at *
      omega
    have hahead : watermarkIsValid (i + 1) q.nextMutationId = true := by
      have := hq.next
      simp only [watermarkIsValid, decide_eq_true_eq]
      omega
    have hne : q.pending.take limit ≠ [] := by
      intro hnil
      rw [hnil] at hmem
      cases hmem
    obtain ⟨n, hn⟩ := ProtocolQueue.confirmThrough_eq (w := i + 1) hq.parses 0
    refine ⟨n, ?_⟩
    unfold ProtocolQueue.acknowledge
    rw [if_neg (by simp [hclient]), if_neg, hparse]
    · simp [hahead, hn]
    · simp only [not_or, not_not, ne_eq]
      exact ⟨trivial, hne, by omega, hsent.symm, hversion, hlen, hlast,
        by simpa [Option.isSome_iff_ne_none] using hcheckpoint, by simpa using hany⟩

theorem forall₂_results_iff {α : Type} {P : Json → Prop} {sent : List α} {id : α → String}
    {items : List Json} :
    List.Forall₂ (fun m item => WellFormedResult numbers (id m) item ∧ P item) sent items ↔
      List.Forall₂ (WellFormedResult numbers) (sent.map id) items ∧ ∀ item ∈ items, P item := by
  rw [List.forall₂_map_left_iff, forall₂_and_right]

/-- The Rust client refuses a well-formed response only for a form that it does not read. -/
theorem accepts_iff (hq : ProtocolQueue.Ledger q rows w) {limit : ℕ} {request : PushRequest}
    (hrequest : q.pushRequest limit = .ok request) {response : Json} :
    q.Accepts request response ↔
      WellFormedResponse numbers q.clientId (request.mutations.map (·.mutationId)) response ∧
        ¬ CoercedForm response ∧ ¬ UntypedForm response := by
  have hresults := @decodes_results_iff request.mutations (resultItems response)
  simp only [@decodes_result_iff numbers, forall₂_results_iff] at hresults
  constructor
  · rintro ⟨decoded, hdecode, hok⟩
    obtain ⟨hfields, hversion, hclient, hlast, hcheckpoint, harray, hitems⟩ :=
      fromValue_response_eq_some.mp hdecode
    obtain ⟨hclient', hone, hlast', hcanonical, hlen, hany⟩ := (acknowledge_ok_iff hq hrequest).mp hok
    obtain ⟨hforall, hforms⟩ := hresults.mp ⟨_, hitems, hlen, hany⟩
    obtain ⟨htest, huncoerced, hsmall⟩ :=
      (@required_decoded_iff numbers _).mp ⟨_, hcheckpoint, hcanonical⟩
    have hversion' := version_one_iff.mp (hone ▸ hversion)
    refine ⟨⟨hfields, ?_, hclient' ▸ hclient, ⟨_, hlast', hlast⟩, htest, harray, hforall⟩, ?_, ?_⟩
    · rw [hversion']
      exact decide_eq_true numbers.one
    · rintro (hcoerced | ⟨item, hitem, hcoerced⟩)
      · exact huncoerced hcoerced
      · exact (hforms item hitem).1 hcoerced
    · rintro (hother | hlarge | ⟨item, hitem, huntyped⟩)
      · exact hother hversion'
      · exact hsmall hlarge
      · exact (hforms item hitem).2 huntyped
  · rintro ⟨hwf, hcoerced, huntyped⟩
    simp only [CoercedForm, UntypedForm, not_or, not_exists, not_and, not_not] at hcoerced huntyped
    obtain ⟨hversion, hsmall, huntyped⟩ := huntyped
    obtain ⟨results, hitems, hlen, hany⟩ := hresults.mpr
      ⟨hwf.results, fun item hitem => ⟨hcoerced.2 item hitem, huntyped item hitem⟩⟩
    obtain ⟨checkpoint, hcheckpoint, hcanonical⟩ :=
      required_decoded_iff.mpr ⟨hwf.checkpoint, hcoerced.1, hsmall⟩
    obtain ⟨last, hlast, hfield⟩ := hwf.lastMutationId
    refine ⟨{ protocolVersion := 1, clientId := q.clientId, lastMutationId := last, checkpoint
              results }, ?_, ?_⟩
    · exact fromValue_response_eq_some.mpr ⟨hwf.fields, version_one_iff.mpr hversion, hwf.clientId,
        hfield, hcheckpoint, hwf.array, hitems⟩
    · exact (acknowledge_ok_iff hq hrequest).mpr ⟨rfl, rfl, hlast, hcanonical, hlen, hany⟩

end

/-! ## The TypeScript client -/

section
variable {parse : String → Option Json} {client : OptoSyncClient} {db : OptoSyncDatabase}

theorem decimalPattern_of_requireDecimal {value : Option String} {name text : String}
    {allowZero : Bool} (h : requireDecimal value name allowZero = .ok text) :
    decimalPattern text = true := by
  unfold requireDecimal at h
  split at h
  · split at h
    · cases h
    · rename_i hgood
      cases h
      rw [not_or, Bool.not_eq_false] at hgood
      exact hgood.1
  · cases h

theorem encodeRows_decimals {clientId : String} {defaults : ProtocolMutationOptions}
    {prior : Option LocalMutation} {rows : List LocalMutation} {mutations : List WireMutation}
    (h : encodeRows parse clientId defaults prior rows = .ok mutations) :
    ∀ m ∈ mutations, decimalPattern m.mutationId = true := by
  induction rows generalizing prior mutations with
  | nil =>
    cases h
    simp
  | cons row rows ih =>
    unfold encodeRows at h
    split at h
    · obtain ⟨_, hthrow, -⟩ := Transition.bind_eq_ok.mp h
      cases hthrow
    · obtain ⟨mutationId, hid, hcontiguous⟩ := Transition.bind_eq_ok.mp h
      split at hcontiguous
      · obtain ⟨_, hthrow, -⟩ := Transition.bind_eq_ok.mp hcontiguous
        cases hthrow
      · obtain ⟨mutation, hrow, hrest⟩ := Transition.bind_eq_ok.mp hcontiguous
        obtain ⟨rest, hrows, hmutations⟩ := Transition.bind_eq_ok.mp hrest
        cases hmutations
        rw [List.forall_mem_cons, OptoSyncClient.encodeRow_mutationId hrow]
        exact ⟨decimalPattern_of_requireDecimal hid, ih hrows⟩

theorem protocolPushRequest_eq_ok {limit : ℕ} {wire : WirePush}
    (h : client.protocolPushRequest parse db noOptions limit = .ok wire) :
    wire.protocolVersion = 1 ∧ wire.clientId = client.clientId ∧
      (∀ m ∈ wire.mutations, decimalPattern m.mutationId = true) ∧
      (wire.mutations ≠ [] → buildPushRequest parse client.clientId db.pendingMutations noOptions
        wire.mutations.length = .ok wire) := by
  have hbuild : buildPushRequest parse client.clientId db.pendingMutations noOptions limit =
      .ok wire := h
  have hids := congrArg List.length (OptoSyncClient.buildPushRequest_mutationIds hbuild)
  rw [List.length_map, List.length_map] at hids
  have htake : db.pendingMutations.take wire.mutations.length = db.pendingMutations.take limit := by
    rw [List.take_eq_take_iff, ← hids, List.length_take]
    omega
  unfold buildPushRequest at hbuild ⊢
  split at hbuild
  · obtain ⟨_, hthrow, -⟩ := Transition.bind_eq_ok.mp hbuild
    cases hthrow
  · rename_i hvalid
    obtain ⟨mutations, hrows, hrequest⟩ := Transition.bind_eq_ok.mp hbuild
    cases hrequest
    refine ⟨rfl, rfl, encodeRows_decimals hrows, ?_⟩
    intro hne
    have hpos := List.length_pos_of_ne_nil hne
    rw [List.length_take] at hids
    dsimp only at hids hpos htake ⊢
    rw [if_neg (by simp only [not_or] at hvalid ⊢; exact ⟨hvalid.1, by omega, by omega⟩), htake]
    exact Transition.bind_eq_ok.mpr ⟨_, hrows, rfl⟩

/-- A response that is an object is read by its properties. -/
theorem property_response_eq {response : Json} (h : response.isObject = true) (name : String) :
    property response name = responseField response name ∧
      (response.asFields PushResponse.fields).isSome = true := by
  cases response with
  | object fields => exact ⟨rfl, rfl⟩
  | _ => cases h

theorem isObject_of_property {value field : Json} {name : String}
    (h : property value name = some field) : value.isObject = true := by
  cases value with
  | object fields => rfl
  | _ => cases h

theorem validatePushResponse_iff {wire : WirePush} (hone : wire.protocolVersion = 1)
    (hids : ∀ m ∈ wire.mutations, decimalPattern m.mutationId = true) {response : Json} :
    SyncLoop.validatePushResponse numbers wire response = .ok () ↔
      WellFormedResponse numbers wire.clientId (wire.mutations.map (·.mutationId)) response ∧
        ¬ KeyedForm response ∧ ¬ NullForm response := by
  have hresults := @forall₂_all_zip _ _ (SyncLoop.resultMatches numbers) wire.mutations
    (resultItems response)
  simp only [matches_in_place_iff, forall₂_results_iff] at hresults
  constructor
  · intro h
    unfold SyncLoop.validatePushResponse at h
    split at h
    · rename_i items harray
      have hobject := isObject_of_property harray
      have hproperty := fun name => (property_response_eq hobject name).1
      split at h
      · cases h
      · rename_i hgood
        simp only [not_or, not_not, ne_eq, Bool.not_eq_false, hproperty] at hgood
        obtain ⟨-, hne, hversion, hclient, -, hcheckpoint, hlen, hlast, hall⟩ := hgood
        rw [hproperty] at harray
        have hitems := resultItems_eq harray
        rw [hitems] at hresults
        obtain ⟨hforall, hforms⟩ := hresults.mp ⟨hlen, hall⟩
        refine ⟨⟨(property_response_eq hobject "").2, hversion, hclient, ?_, hcheckpoint,
          hitems ▸ harray, hitems ▸ hforall⟩, ?_, ?_⟩
        · rw [List.getLast?_map]
          rw [List.getLast?_eq_getLast_of_ne_nil hne] at hlast ⊢
          exact ⟨_, rfl, hlast⟩
        · rintro (hnot | ⟨item, hitem, hkeyed⟩)
          · rw [hobject] at hnot
            cases hnot
          · exact (hforms item (hitems ▸ hitem)).1 hkeyed
        · rintro ⟨item, hitem, hnull⟩
          exact (hforms item (hitems ▸ hitem)).2 hnull
    · cases h
  · rintro ⟨hwf, hkeyed, hnull⟩
    simp only [KeyedForm, NullForm, not_or, not_exists, not_and, Bool.not_eq_false] at hkeyed hnull
    obtain ⟨hobject, hkeyed⟩ := hkeyed
    have hproperty := fun name => (property_response_eq hobject name).1
    obtain ⟨hlen, hall⟩ := hresults.mpr
      ⟨hwf.results, fun item hitem => ⟨hkeyed item hitem, hnull item hitem⟩⟩
    obtain ⟨last, hlast, hfield⟩ := hwf.lastMutationId
    rw [List.getLast?_map] at hlast
    obtain ⟨m, hm, rfl⟩ := Option.map_eq_some_iff.mp hlast
    have hne : wire.mutations ≠ [] := by
      intro hnil
      rw [hnil] at hm
      cases hm
    have htest : decimalTest numbers decimalPattern (some (.string m.mutationId)) = true :=
      hids m (List.mem_of_getLast? hm)
    unfold SyncLoop.validatePushResponse
    simp only [hproperty, hwf.array, hfield, hm, hone, hne, hwf.protocolVersion, hwf.clientId,
      hwf.checkpoint, hlen, hall, htest, Option.map_some]
    simp

/-- The TypeScript client refuses a well-formed response only for a form that it does not read. -/
theorem acknowledgeResponse_iff {limit : ℕ} {wire : WirePush}
    (hwire : client.protocolPushRequest parse db noOptions limit = .ok wire) {response : Json} :
    (∃ db', client.acknowledgeResponse numbers parse db response wire = .ok db') ↔
      WellFormedResponse numbers wire.clientId (wire.mutations.map (·.mutationId)) response ∧
        ¬ KeyedForm response ∧ ¬ NullForm response := by
  obtain ⟨hone, hclient, hids, hrebuild⟩ := protocolPushRequest_eq_ok hwire
  rw [← validatePushResponse_iff hone hids]
  constructor
  · rintro ⟨db', h⟩
    obtain ⟨_, hvalid, -⟩ := Transition.bind_eq_ok.mp h
    exact hvalid
  · intro hvalid
    have hne : wire.mutations ≠ [] := by
      obtain ⟨last, hlast, -⟩ := ((validatePushResponse_iff hone hids).mp hvalid).1.lastMutationId
      intro hnil
      rw [hnil] at hlast
      cases hlast
    unfold OptoSyncClient.acknowledgeResponse
    simp only [hvalid, hrebuild hne, hclient, bind, Except.bind, pure, Except.pure, ne_eq,
      not_true_eq_false, if_false, Except.ok.injEq, exists_eq']

end

/-! ## The Dart client -/

section
variable {jsonDecode : String → Option Json} {client : Dart.OptoSyncClient}
  {db : Dart.OptoSyncDatabase}

/-- The mutation id of a mutation as it is sent. -/
def sentId (mutation : Json) : String :=
  match Dart.entry mutation "mutationId" with
  | .string mutationId => mutationId
  | _ => ""

def sentMutations (request : Json) : List Json :=
  match Dart.entry request "mutations" with
  | .array mutations => mutations
  | _ => []

/-- A mutation as the request builder writes it. -/
structure Sent (mutation : Json) : Prop where
  object : mutation.isObject = true
  entry : Dart.entry mutation "mutationId" = .string (sentId mutation)
  decimal : decimalPattern (sentId mutation) = true

theorem sent_of_encodeProtocolRow {row : Dart.Mutation} {n : ℕ} {encoded : Json}
    (h : Dart.OptoSyncClient.encodeProtocolRow jsonDecode row n.repr = .ok encoded) :
    Sent encoded := by
  have hobject : ∃ fields, encoded = .object (("mutationId", .string n.repr) :: fields) := by
    unfold Dart.OptoSyncClient.encodeProtocolRow at h
    split at h
    · split at h
      · cases h
        exact ⟨_, rfl⟩
      · cases h
      · cases h
    · cases h
      exact ⟨_, rfl⟩
  obtain ⟨fields, rfl⟩ := hobject
  exact ⟨rfl, rfl, OptoSyncClient.decimalPattern_repr n⟩

theorem encodeNext_ok {identity : String} {previous : Option ℤ} {row : Dart.Mutation} {current : ℤ}
    {encoded : Json} (h : Dart.OptoSyncClient.encodeNext jsonDecode identity previous row =
      .ok (current, encoded)) : row.clientId = some identity ∧ Sent encoded := by
  unfold Dart.OptoSyncClient.encodeNext at h
  split at h
  · cases h
  · split at h
    · cases h
    · rename_i hclient
      split at h
      · cases h
      · rename_i number hnumber
        split at h
        · cases h
        · rename_i hpos
          split at h
          · cases h
          · cases hrow : Dart.OptoSyncClient.encodeProtocolRow jsonDecode row number.repr with
            | error message =>
              rw [hrow] at h
              cases h
            | ok value =>
              rw [hrow] at h
              cases h
              obtain ⟨n, rfl⟩ := Int.eq_ofNat_of_zero_le (by omega : 0 ≤ current)
              exact ⟨not_not.mp hclient, sent_of_encodeProtocolRow hrow⟩

theorem encodeMutations_ok {identity : String} {previous : Option ℤ} {rows : List Dart.Mutation}
    {mutations : List Json}
    (h : Dart.OptoSyncClient.encodeMutations jsonDecode identity previous rows = .ok mutations) :
    mutations.length = rows.length ∧ (∀ row ∈ rows, row.clientId = some identity) ∧
      ∀ m ∈ mutations, Sent m := by
  induction rows generalizing previous mutations with
  | nil =>
    cases h
    simp
  | cons row rows ih =>
    obtain ⟨⟨current, encoded⟩, hnext, hrest⟩ := Transition.bind_eq_ok.mp h
    obtain ⟨rest, hrows, hmutations⟩ := Transition.bind_eq_ok.mp hrest
    cases hmutations
    obtain ⟨hclient, hsent⟩ := encodeNext_ok hnext
    obtain ⟨hlen, hclients, hall⟩ := ih hrows
    exact ⟨by simp [hlen], List.forall_mem_cons.mpr ⟨hclient, hclients⟩,
      List.forall_mem_cons.mpr ⟨hsent, hall⟩⟩

theorem take_filter {α : Type} {p : α → Bool} {l : List α} {n : ℕ} (h : ∀ a ∈ l.take n, p a = true) :
    (l.filter p).take n = l.take n := by
  induction l generalizing n with
  | nil => simp
  | cons a l ih =>
    cases n with
    | zero => simp
    | succ n =>
      rw [List.take_succ_cons] at h ⊢
      obtain ⟨ha, hl⟩ := List.forall_mem_cons.mp h
      rw [List.filter_cons_of_pos ha, List.take_succ_cons, ih hl]

/-- What the builder says of its request, and that the queue builds it again. -/
theorem mapRequest_eq_ok {limit : ℕ} {request : Json}
    (h : client.protocolPushRequest jsonDecode db limit = .ok request) :
    request = .object [("protocolVersion", .number (.int 1)), ("clientId", .string client.clientId),
        ("mutations", .array (sentMutations request))] ∧
      (∀ m ∈ sentMutations request, Sent m) ∧ (sentMutations request).length ≤ 100 ∧
      Dart.OptoSyncClient.encodeProtocolRows jsonDecode client.clientId
        ((Dart.OptoSyncDatabase.orderById (db.localMutations.filter fun row =>
          Dart.isPending row && row.clientId = some client.clientId)).take
            (sentMutations request).length) = .ok request := by
  obtain ⟨rows, hrows, hencode⟩ := Transition.bind_eq_ok.mp h
  obtain ⟨mutations, hmutations, hrequest⟩ := Transition.bind_eq_ok.mp hencode
  cases hrequest
  obtain ⟨hlen, hclients, hsent⟩ := encodeMutations_ok hmutations
  have hlimit : 1 ≤ limit ∧ limit ≤ 100 := by
    unfold Dart.OptoSyncClient.pendingMutations at hrows
    split at hrows
    · cases hrows
    · omega
  rw [Dart.OptoSyncClient.pendingMutations_eq db hlimit.1 hlimit.2] at hrows
  cases hrows
  have hmutationsOf : ∀ id version, sentMutations (.object [("protocolVersion", version),
      ("clientId", id), ("mutations", .array mutations)]) = mutations := fun _ _ => rfl
  rw [hmutationsOf]
  rw [List.length_take] at hlen
  refine ⟨rfl, hsent, by omega, ?_⟩
  have hfilter : (db.localMutations.filter fun row =>
      Dart.isPending row && row.clientId = some client.clientId) =
      (db.localMutations.filter Dart.isPending).filter
        fun row => row.clientId = some client.clientId := by
    rw [List.filter_filter]
    apply List.filter_congr
    intro row _
    exact Bool.and_comm _ _
  have htake : (db.localMutations.filter Dart.isPending).take mutations.length =
      (db.localMutations.filter Dart.isPending).take limit := by
    rw [List.take_eq_take_iff]
    omega
  rw [Dart.OptoSyncDatabase.orderById_filter db.sorted, hfilter, take_filter, htake]
  · exact hencode
  · intro row hrow
    rw [htake] at hrow
    simpa using hclients row hrow

theorem entry_response_eq {response : Json} (h : response.isObject = true) (name : String) :
    Dart.entry response name = (responseField response name).getD .null := by
  rw [Dart.entry, (property_response_eq h name).1]

theorem isOne_getD : isOne numbers (some (field.getD .null)) = isOne numbers field := by
  cases field <;> rfl

theorem getD_eq_string {text : String} :
    field.getD .null = .string text ↔ field = some (.string text) := by
  cases field <;> simp

/-- Row by row the Dart client takes the well-formed results, but for the forms it does not read. -/
theorem resultsMatch_iff {sent : List Json} (hsent : ∀ m ∈ sent, Sent m) (items : List Json) :
    (items.length = sent.length ∧
      (sent.zip items).all (fun row => Dart.resultMatches row.1 row.2) = true) ↔
      List.Forall₂ (WellFormedResult numbers) (sent.map sentId) items ∧
        ∀ item ∈ items, ¬ KeyedResult item ∧ ¬ CoercedResult item := by
  rw [forall₂_all_zip, ← forall₂_results_iff, List.forall₂_iff_zip, List.forall₂_iff_zip]
  refine and_congr_right fun _ => ?_
  have hrow : ∀ {m item : Json}, (m, item) ∈ sent.zip items →
      (Dart.resultMatches m item = true ↔ WellFormedResult numbers (sentId m) item ∧
        ¬ KeyedResult item ∧ ¬ CoercedResult item) := by
    intro m item hmem
    have hm := hsent m (List.of_mem_zip hmem).1
    exact matches_map_iff hm.object hm.entry
  exact ⟨fun h m item hmem => (hrow hmem).mp (h hmem),
    fun h m item hmem => (hrow hmem).mpr (h hmem)⟩

/-- The Dart client refuses a well-formed response only for a form that it does not read. -/
theorem acknowledgePush_iff {limit : ℕ} {request : Json}
    (hrequest : client.protocolPushRequest jsonDecode db limit = .ok request) {response : Json} :
    (∃ db', client.acknowledgePush numbers jsonDecode db response request = .ok db') ↔
      WellFormedResponse numbers client.clientId ((sentMutations request).map sentId) response ∧
        ¬ KeyedForm response ∧ ¬ CoercedForm response := by
  obtain ⟨hshape, hsent, hshort, hrebuild⟩ := mapRequest_eq_ok hrequest
  have hversion : Dart.entry request "protocolVersion" = .number (.int 1) := by
    rw [hshape]
    rfl
  have hclient : Dart.entry request "clientId" = .string client.clientId := by
    rw [hshape]
    rfl
  have hmutations : Dart.entry request "mutations" = .array (sentMutations request) := by
    rw [hshape]
    rfl
  have hone : isOne numbers (some (.number (.int 1))) = true := decide_eq_true numbers.one
  have hresults := @resultsMatch_iff numbers _ hsent
  constructor
  · rintro ⟨db', h⟩
    unfold Dart.OptoSyncClient.acknowledgePush at h
    split at h
    · rename_i fields mutations items hmut harray
      rw [hmutations] at hmut
      cases hmut
      have hentry := fun name => @entry_response_eq (.object fields) rfl name
      dsimp only at h
      split at h
      · obtain ⟨_, hthrow, -⟩ := Transition.bind_eq_ok.mp h
        cases hthrow
      · rename_i hgood
        simp only [not_or, not_not, ne_eq, Bool.not_eq_false, hentry] at hgood
        obtain ⟨-, -, hne, -, hversion', hclient', hcheckpoint, hlen, -, -, hlast, hall⟩ := hgood
        rw [hentry] at harray
        have hitems : responseField (.object fields) "results" = some (.array items) := by
          cases hfield : responseField (.object fields) "results" with
          | none =>
            rw [hfield] at harray
            cases harray
          | some value => exact congrArg some ((congrArg (·.getD .null) hfield).symm.trans harray)
        have hresultItems := resultItems_eq hitems
        obtain ⟨hforall, hforms⟩ := (hresults items).mp ⟨hlen, hall⟩
        obtain ⟨htest, huncoerced⟩ := (@required_mapped_iff numbers _).mp hcheckpoint
        refine ⟨⟨rfl, ?_, getD_eq_string.mp hclient', ?_, htest, hresultItems ▸ hitems,
          hresultItems ▸ hforall⟩, ?_, ?_⟩
        · rwa [isOne_getD] at hversion'
        · rw [List.getLast?_map]
          rw [List.getLast?_eq_getLast_of_ne_nil hne] at hlast ⊢
          have hterminal := hsent _ (List.getLast_mem hne)
          refine ⟨_, rfl, ?_⟩
          rw [← getD_eq_string, hlast]
          exact hterminal.entry
        · rintro (hnot | ⟨item, hitem, hkeyed⟩)
          · cases hnot
          · exact (hforms item (hresultItems ▸ hitem)).1 hkeyed
        · rintro (hcoerced | ⟨item, hitem, hcoerced⟩)
          · exact huncoerced hcoerced
          · exact (hforms item (hresultItems ▸ hitem)).2 hcoerced
    · cases h
  · rintro ⟨hwf, hkeyed, hcoerced⟩
    simp only [KeyedForm, CoercedForm, not_or, not_exists, not_and, Bool.not_eq_false] at hkeyed hcoerced
    obtain ⟨hobject, hkeyed⟩ := hkeyed
    obtain ⟨huncoerced, hcoerced⟩ := hcoerced
    obtain ⟨hlen, hall⟩ := (hresults (resultItems response)).mpr
      ⟨hwf.results, fun item hitem => ⟨hkeyed item hitem, hcoerced item hitem⟩⟩
    have hcheckpoint := (@required_mapped_iff numbers _).mpr ⟨hwf.checkpoint, huncoerced⟩
    have hversion' := isOne_getD.trans hwf.protocolVersion
    have hentry := entry_response_eq hobject
    obtain ⟨last, hlast, hfield⟩ := hwf.lastMutationId
    rw [List.getLast?_map] at hlast
    obtain ⟨terminal, hterminal, rfl⟩ := Option.map_eq_some_iff.mp hlast
    have hterminal' := hsent terminal (List.mem_of_getLast? hterminal)
    have hne : sentMutations request ≠ [] := by
      intro hnil
      rw [hnil] at hterminal
      cases hterminal
    cases response with
    | object fields =>
      unfold Dart.OptoSyncClient.acknowledgePush
      simp only [hmutations, hentry, hwf.array, Option.getD_some]
      rw [if_neg]
      · exact ⟨_, Transition.bind_eq_ok.mpr ⟨_, hrebuild, if_neg (not_not.mpr rfl)⟩⟩
      · simp only [not_or, not_not, ne_eq, Bool.not_eq_false, hterminal, Option.getD_some, hfield,
          hwf.clientId, hversion, hclient, hone, hversion', hlen, hall]
        exact ⟨trivial, trivial, hne, by omega, trivial, trivial, hcheckpoint, trivial,
          hterminal'.object, hterminal'.decimal, hterminal'.entry.symm, trivial⟩
    | _ => cases hobject

end

/-- Three clients that have each built the same batch from their queues; the queue of the Rust
client is one that calls lead to. -/
structure SentBatch (toText : Json → String) (parse : String → Option Json) where
  origin : ProtocolQueue
  clientId : String
  maxPending : ℕ
  maxBytes : ℕ
  opened : ProtocolQueue.withLimits clientId maxPending maxBytes = .ok origin
  calls : List QueueCall
  limit : ℕ
  request : PushRequest
  built : (ProtocolQueue.after toText origin calls).pushRequest limit = .ok request
  client : OptoSyncClient
  db : OptoSyncDatabase
  wire : WirePush
  wire_built : client.protocolPushRequest parse db noOptions limit = .ok wire
  wire_client : wire.clientId = request.clientId
  wire_ids : wire.mutations.map (·.mutationId) = request.mutations.map (·.mutationId)
  dartClient : Dart.OptoSyncClient
  drift : Dart.OptoSyncDatabase
  sent : Json
  sent_built : dartClient.protocolPushRequest parse drift limit = .ok sent
  sent_client : dartClient.clientId = request.clientId
  sent_ids : (sentMutations sent).map sentId = request.mutations.map (·.mutationId)

namespace SentBatch

variable {toText : Json → String} {parse : String → Option Json}

def queue (batch : SentBatch toText parse) : ProtocolQueue :=
  ProtocolQueue.after toText batch.origin batch.calls

def RustAccepts (batch : SentBatch toText parse) (response : Json) : Prop :=
  batch.queue.Accepts batch.request response

def TypeScriptAccepts (batch : SentBatch toText parse) (numbers : NumberConversion)
    (response : Json) : Prop :=
  ∃ db', batch.client.acknowledgeResponse numbers parse batch.db response batch.wire = .ok db'

def DartAccepts (batch : SentBatch toText parse) (numbers : NumberConversion) (response : Json) :
    Prop :=
  ∃ db', batch.dartClient.acknowledgePush numbers parse batch.drift response batch.sent = .ok db'

/-- All accept the response, or all refuse it. -/
def Agree (batch : SentBatch toText parse) (numbers : NumberConversion) (response : Json) : Prop :=
  (batch.RustAccepts response ∧ batch.TypeScriptAccepts numbers response ∧
      batch.DartAccepts numbers response) ∨
    (¬ batch.RustAccepts response ∧ ¬ batch.TypeScriptAccepts numbers response ∧
      ¬ batch.DartAccepts numbers response)

end SentBatch

/-- The clients agree on a response exactly if, when it is well formed, it is readable for all of
them or for none of them. -/
theorem acknowledgements_agree_iff {toText : Json → String} {parse : String → Option Json}
    (batch : SentBatch toText parse) (numbers : NumberConversion) (response : Json) :
    batch.Agree numbers response ↔
      (WellFormedResponse numbers batch.request.clientId
          (batch.request.mutations.map (·.mutationId)) response →
        (¬ KeyedForm response ∧ ¬ NullForm response ∧ ¬ CoercedForm response ∧
            ¬ UntypedForm response) ∨
          ((CoercedForm response ∨ UntypedForm response) ∧
            (KeyedForm response ∨ NullForm response) ∧
            (KeyedForm response ∨ CoercedForm response))) := by
  have hrust : batch.RustAccepts response ↔ WellFormedResponse numbers batch.request.clientId
      (batch.request.mutations.map (·.mutationId)) response ∧ ¬ CoercedForm response ∧
        ¬ UntypedForm response := by
    obtain ⟨rows, w, hreached⟩ := ProtocolQueue.exists_reached batch.opened
      batch.calls
    have hclient : batch.request.clientId = batch.queue.clientId := by
      rw [(pushRequest_eq_ok batch.built).2]
      rfl
    rw [hclient]
    exact accepts_iff hreached.toLedger batch.built
  have htypescript : batch.TypeScriptAccepts numbers response ↔
      WellFormedResponse numbers batch.request.clientId
        (batch.request.mutations.map (·.mutationId)) response ∧ ¬ KeyedForm response ∧
          ¬ NullForm response := by
    rw [← batch.wire_client, ← batch.wire_ids]
    exact acknowledgeResponse_iff batch.wire_built
  have hdart : batch.DartAccepts numbers response ↔
      WellFormedResponse numbers batch.request.clientId
        (batch.request.mutations.map (·.mutationId)) response ∧ ¬ KeyedForm response ∧
          ¬ CoercedForm response := by
    rw [← batch.sent_client, ← batch.sent_ids]
    exact acknowledgePush_iff batch.sent_built
  unfold SentBatch.Agree
  rw [hrust, htypescript, hdart]
  by_cases hwf : WellFormedResponse numbers batch.request.clientId
      (batch.request.mutations.map (·.mutationId)) response
  · simp only [hwf, true_and, forall_const, not_and_or, not_not]
    apply or_congr_left
    constructor
    · rintro ⟨⟨hcoerced, huntyped⟩, ⟨hkeyed, hnull⟩, -⟩
      exact ⟨hkeyed, hnull, hcoerced, huntyped⟩
    · rintro ⟨hkeyed, hnull, hcoerced, huntyped⟩
      exact ⟨⟨hcoerced, huntyped⟩, ⟨hkeyed, hnull⟩, hkeyed, hcoerced⟩
  · simp [hwf]

/-- One delete in each of the three queues. -/
def oneDelete : SentBatch (fun _ => "") fun _ => none where
  origin := ProtocolQueue.empty "laptop" 10 1000
  clientId := "laptop"
  maxPending := 10
  maxBytes := 1000
  opened := by decide
  calls := [.queueDelete "todos" "a" none none]
  limit := 100
  request := { protocolVersion := 1, clientId := "laptop", mutations := [
    { mutationId := "1", operation := .delete, table := "todos", recordId := "a", payload := none
      baseRevision := none, resurrect := false, status := .pending }] }
  built := by decide
  client := { clientId := "laptop", maxPendingMutations := 10, maxQueuedPayloadBytes := 1000
              defaultConsistencyPolicy := Consistency.writeThroughLocalFirst
              client_ne := by decide }
  db := OptoSyncDatabase.created.add { OptoSyncClient.blankRow "todos" "a" "\x7b\x7d" 0 with
    operation := some .delete, clientId := some "laptop", mutationId := some "1" }
  wire := { protocolVersion := 1, clientId := "laptop", mutations := [
    { mutationId := "1", operation := .delete, table := "todos", recordId := "a", payload := none
      baseRevision := none, resurrect := none }] }
  wire_built := by decide +kernel
  wire_client := rfl
  wire_ids := rfl
  dartClient := { clientId := "laptop", maxPendingMutations := 10, maxQueuedPayloadBytes := 1000
                  defaultConsistencyPolicy := Consistency.writeThroughLocalFirst
                  overlaySyncer := none }
  drift := { localMutations := [{ Dart.OptoSyncClient.blankRow "todos" "a" "\x7b\x7d" "delete" 0 with
               id := 1, clientId := some "laptop", mutationId := some "1" }]
             nextId := 2, mutationSeq := 1, sorted := List.pairwise_singleton _ _, fresh := by simp }
  sent := .object [("protocolVersion", .number (.int 1)), ("clientId", .string "laptop"),
    ("mutations", .array [.object [("mutationId", .string "1"), ("operation", .string "delete"),
      ("table", .string "todos"), ("recordId", .string "a")]])]
  sent_built := by decide +kernel
  sent_client := rfl
  sent_ids := rfl

/-- A server that writes a null for a field that it does not set. -/
def nullRevision : Json :=
  .object [("protocolVersion", .number (.int 1)), ("clientId", .string "laptop"),
    ("lastMutationId", .string "1"), ("checkpoint", .string "1"),
    ("results", .array [.object [("mutationId", .string "1"), ("status", .string "rejected"),
      ("revision", .null)]])]

theorem nullRevision_disagrees : ¬ oneDelete.Agree SyncLoop.smallNumbers nullRevision := by
  have hrust : oneDelete.RustAccepts nullRevision := by
    refine ⟨{ protocolVersion := 1, clientId := "laptop", lastMutationId := "1", checkpoint := "1"
              results := [{ mutationId := "1", status := .rejected, originalStatus := none
                            checkpoint := none, revision := none, code := none
                            message := none }] }, by decide, 1, by decide⟩
  have htypescript : ¬ oneDelete.TypeScriptAccepts SyncLoop.smallNumbers nullRevision := by
    have hrefused : SyncLoop.validatePushResponse SyncLoop.smallNumbers oneDelete.wire nullRevision =
        .error "push acknowledgement does not match the sent batch" := by decide
    rintro ⟨db', h⟩
    obtain ⟨_, hvalid, -⟩ := Transition.bind_eq_ok.mp h
    rw [hrefused] at hvalid
    cases hvalid
  rintro (⟨-, h, -⟩ | ⟨h, -⟩)
  · exact htypescript h
  · exact h hrust

end PushAcknowledgement
end OptoSync
