import OptoSync.IndexedDbQueueRun
import OptoSync.ProtocolQueueWire
import OptoSync.SyncDriver

/-!
# Offered pull pages

How the Rust client decodes a pull page out of a JSON value, and how the TypeScript client checks
one in place.
-/
namespace OptoSync
open Decimal

namespace Json

/-- The fields of a derived struct: by name, or by position from an array. -/
def asFields (names : List String) : Json → Option (List (String × Json))
  | .object fields => some fields
  | .array items => if items.length = names.length then some (names.zip items) else none
  | _ => none

def member (fields : List (String × Json)) (name : String) : Option Json :=
  (fields.find? fun f => f.1 = name).map Prod.snd

def asU8 : Json → Option ℕ
  | .number (.int value) => if 0 ≤ value ∧ value ≤ 255 then some value.toNat else none
  | _ => none

def asArray : Json → Option (List Json)
  | .array items => some items
  | _ => none

theorem asString_eq_some {value : Json} {text : String} :
    value.asString = some text ↔ value = .string text := by
  cases value <;> simp [asString]

theorem asBool_eq_some {value : Json} {b : Bool} : value.asBool = some b ↔ value = .bool b := by
  cases value <;> simp [asBool]

theorem asArray_eq_some {value : Json} {items : List Json} :
    value.asArray = some items ↔ value = .array items := by
  cases value <;> simp [asArray]

end Json

open Json

def ChangeSource.fields : List String := ["clientId", "mutationId"]

def Change.fields : List String :=
  ["checkpoint", "table", "recordId", "operation", "record", "revision", "source"]

def PullResponse.fields : List String := ["protocolVersion", "checkpoint", "hasMore", "changes"]

def ChangeSource.fromValue (value : Json) : Option ChangeSource := do
  let fields ← value.asFields ChangeSource.fields
  let clientId ← (member fields "clientId").bind asString
  let mutationId ← (member fields "mutationId").bind asString
  pure { clientId, mutationId }

def Change.fromValue (value : Json) : Option Change := do
  let fields ← value.asFields Change.fields
  let checkpoint ← (member fields "checkpoint").bind asString
  let table ← (member fields "table").bind asString
  let recordId ← (member fields "recordId").bind asString
  let operation ← (member fields "operation").bind Operation.read
  let record ← asOption some (member fields "record")
  let revision ← (member fields "revision").bind asString
  let source ← asOption ChangeSource.fromValue (member fields "source")
  pure { checkpoint, table, recordId, operation, record, revision, source }

def PullResponse.fromValue (value : Json) : Option PullResponse := do
  let fields ← value.asFields PullResponse.fields
  let protocolVersion ← (member fields "protocolVersion").bind asU8
  let checkpoint ← (member fields "checkpoint").bind asString
  let hasMore ← (member fields "hasMore").bind asBool
  let items ← (member fields "changes").bind asArray
  let changes ← items.mapM Change.fromValue
  pure { protocolVersion, checkpoint, hasMore, changes }

/-- The Rust client decodes the page and `validate_pull_page` accepts it. -/
def PullResponse.Accepted (page : Json) (priorCheckpoint : String) : Prop :=
  ∃ response, PullResponse.fromValue page = some response ∧
    validatePullPage response priorCheckpoint = .ok ()

theorem ChangeSource.fromValue_eq_some {value : Json} {source : ChangeSource} :
    ChangeSource.fromValue value = some source ↔
      ∃ fields, value.asFields ChangeSource.fields = some fields ∧
        member fields "clientId" = some (.string source.clientId) ∧
        member fields "mutationId" = some (.string source.mutationId) := by
  simp only [fromValue, bind, Option.bind_eq_some_iff, pure, Option.some.injEq, asString_eq_some,
    exists_eq_right]
  constructor
  · rintro ⟨fields, hfields, clientId, hclient, mutationId, hmutation, rfl⟩
    exact ⟨fields, hfields, hclient, hmutation⟩
  · rintro ⟨fields, hfields, hclient, hmutation⟩
    exact ⟨fields, hfields, _, hclient, _, hmutation, rfl⟩

theorem Change.fromValue_eq_some {value : Json} {change : Change} :
    Change.fromValue value = some change ↔
      ∃ fields, value.asFields Change.fields = some fields ∧
        member fields "checkpoint" = some (.string change.checkpoint) ∧
        member fields "table" = some (.string change.table) ∧
        member fields "recordId" = some (.string change.recordId) ∧
        (∃ operation, member fields "operation" = some operation ∧
          Operation.read operation = some change.operation) ∧
        asOption some (member fields "record") = some change.record ∧
        member fields "revision" = some (.string change.revision) ∧
        asOption ChangeSource.fromValue (member fields "source") = some change.source := by
  simp only [fromValue, bind, Option.bind_eq_some_iff, pure, Option.some.injEq, asString_eq_some,
    exists_eq_right]
  constructor
  · rintro ⟨fields, hfields, checkpoint, hcheckpoint, table, htable, recordId, hrecordId, operation,
      hoperation, record, hrecord, revision, hrevision, source, hsource, rfl⟩
    exact ⟨fields, hfields, hcheckpoint, htable, hrecordId, hoperation, hrecord, hrevision, hsource⟩
  · rintro ⟨fields, hfields, hcheckpoint, htable, hrecordId, hoperation, hrecord, hrevision, hsource⟩
    exact ⟨fields, hfields, _, hcheckpoint, _, htable, _, hrecordId, _, hoperation, _, hrecord, _,
      hrevision, _, hsource, rfl⟩

theorem PullResponse.fromValue_eq_some {value : Json} {response : PullResponse} :
    PullResponse.fromValue value = some response ↔
      ∃ fields, value.asFields PullResponse.fields = some fields ∧
        (∃ version, member fields "protocolVersion" = some version ∧
          version.asU8 = some response.protocolVersion) ∧
        member fields "checkpoint" = some (.string response.checkpoint) ∧
        member fields "hasMore" = some (.bool response.hasMore) ∧
        ∃ items, member fields "changes" = some (.array items) ∧
          items.mapM Change.fromValue = some response.changes := by
  simp only [fromValue, bind, Option.bind_eq_some_iff, pure, Option.some.injEq, asString_eq_some,
    asBool_eq_some, asArray_eq_some, exists_eq_right]
  constructor
  · rintro ⟨fields, hfields, version, hversion, checkpoint, hcheckpoint, hasMore, hmore, items,
      hitems, changes, hchanges, rfl⟩
    exact ⟨fields, hfields, hversion, hcheckpoint, hmore, items, hitems, hchanges⟩
  · rintro ⟨fields, hfields, hversion, hcheckpoint, hmore, items, hitems, hchanges⟩
    exact ⟨fields, hfields, _, hversion, _, hcheckpoint, _, hmore, items, hitems, _, hchanges, rfl⟩

/-! ## The check in TypeScript -/

namespace SyncLoop

/-- What the language does with the numbers of a page: their text, and the `BigInt` of one whose
text is a decimal. -/
structure NumberConversion where
  text : JsonNumber → String
  bigInt : JsonNumber → ℕ
  one : text (.int 1) = "1"

variable (numbers : NumberConversion)

mutual
/-- `String(value)`. -/
def toText : Json → String
  | .null => "null"
  | .bool value => if value then "true" else "false"
  | .number value => numbers.text value
  | .string value => value
  | .array items => ",".intercalate (elementTexts items)
  | .object _ => "[object Object]"

/-- The elements as `join` writes them. -/
def elementTexts : List Json → List String
  | [] => []
  | .null :: items => "" :: elementTexts items
  | item :: items => toText item :: elementTexts items
end

/-- `BigInt(value)` of a value whose text is a decimal. -/
def toBigInt : Json → ℕ
  | .number value => numbers.bigInt value
  | value => bigInt (toText numbers value)

/-- A property of a value; `none` is `undefined`. -/
def property (value : Json) (name : String) : Option Json :=
  match value with
  | .object fields => member fields name
  | _ => none

def nonEmptyString : Option Json → Bool
  | some (.string value) => value ≠ ""
  | _ => false

def positiveDecimalString : Option Json → Bool
  | some (.string value) => positiveDecimalPattern value
  | _ => false

def recordRefused (entry : Json) : Bool :=
  if property entry "operation" = some (.string "upsert") then
    (property entry "record").all fun record => record.isObject = false
  else property entry "record" ≠ some .null

def sourceRefused : Option Json → Bool
  | none => false
  | some source => source.isObject = false || nonEmptyString (property source "clientId") = false ||
      positiveDecimalString (property source "mutationId") = false

/-- One step of the loop over a page. -/
def validateEntry (pageCheckpoint last : ℕ) (entry : Json) : Except String ℕ :=
  match property entry "checkpoint" with
  | some (.string checkpoint) =>
    if entry.isObject = false ∨ positiveDecimalPattern checkpoint = false ∨
        bigInt checkpoint ≤ last ∨ pageCheckpoint < bigInt checkpoint ∨
        nonEmptyString (property entry "table") = false ∨
        nonEmptyString (property entry "recordId") = false ∨
        (property entry "operation" ≠ some (.string "upsert") ∧
          property entry "operation" ≠ some (.string "delete")) ∨
        recordRefused entry = true ∨ positiveDecimalString (property entry "revision") = false ∨
        sourceRefused (property entry "source") = true then
      .error "invalid protocol pull change"
    else .ok (bigInt checkpoint)
  | _ => .error "invalid protocol pull change"

def validatePullPage (pulled : Json) (priorCheckpoint : String) : Except String Unit :=
  match property pulled "protocolVersion", property pulled "checkpoint",
    property pulled "hasMore", property pulled "changes" with
  | some (.number version), some checkpoint, some (.bool _), some (.array changes) =>
    if numbers.text version ≠ "1" ∨ decimalPattern (toText numbers checkpoint) = false ∨
        toBigInt numbers checkpoint < bigInt priorCheckpoint then
      .error "invalid protocol pull response"
    else
      match changes.foldlM (validateEntry (toBigInt numbers checkpoint)) (bigInt priorCheckpoint) with
      | .error message => .error message
      | .ok _ => .ok ()
  | _, _, _, _ => .error "invalid protocol pull response"

end SyncLoop
end OptoSync
