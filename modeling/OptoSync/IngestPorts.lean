import OptoSync.IngestPatterns

/-!
# The ported ingest validators

`validateCanonical` of the Go client, `EnvelopeValidator` of the Java client, the Dart schema and
the Gleam decoder, each on the values of its own JSON decoder. Regular expressions read characters
in Go and Java and code units in Dart; Gleam reads graphemes.
-/
namespace OptoSync.Ingest
open Json

structure Numerals where
  /-- The number that a literal denotes, as `BigDecimal` has it. -/
  exact : String → ℚ
  /-- The nearest double; none where that is infinite. -/
  round : ℚ → Option ℚ
  /-- `SetString` of `big.Rat`, which refuses very large exponents. -/
  setString : String → Option ℚ

structure LawfulNumerals (numerals : Numerals) : Prop where
  round_int : ∀ z : ℤ, |z| ≤ 2 ^ 53 → numerals.round z = some (z : ℚ)
  round_mono : ∀ {p q a b}, p ≤ q → numerals.round p = some a → numerals.round q = some b → a ≤ b
  setString_exact : ∀ {literal q}, numerals.setString literal = some q → q = numerals.exact literal
  setString_int : ∀ z : ℤ, numerals.setString z.repr = some (z : ℚ)

/-- The string functions of the Gleam library. -/
structure GleamString where
  /-- `string.to_graphemes` -/
  graphemes : String → List String
  /-- `string.split` at dashes. -/
  split : String → List String

/-- Combining characters may join a dash to what follows it, in graphemes and for `split`. -/
structure LawfulGleamString (strings : GleamString) : Prop where
  graphemes_join : ∀ text, (strings.graphemes text).flatMap String.toList = text.toList
  graphemes_ascii : ∀ text, (∀ c ∈ text.toList, ' ' ≤ c ∧ c ≤ '~') →
    strings.graphemes text = text.toList.map String.singleton
  split_join : ∀ text, ['-'].intercalate ((strings.split text).map String.toList) = text.toList

/-- The literal of a number. -/
def numberText : JsonNumber → String
  | .int value => value.repr
  | .float literal => literal

/-- The loop over the records: the issues and the records from an index on. -/
def collect {ι : Type} (validate : Json → ℕ → Except (List ι) IngestRecord) :
    ℕ → List Json → List ι × List IngestRecord
  | _, [] => ([], [])
  | index, item :: items =>
    let (issues, records) := collect validate (index + 1) items
    match validate item index with
    | .ok record => (issues, record :: records)
    | .error recordIssues => (recordIssues ++ issues, records)

/-! ## Go and Java

The two validators are written alike; they differ in their numbers and in the order in which they
list unknown keys. -/

structure Issue where
  path : String
  message : String
  deriving DecidableEq

namespace Canonical

section
variable (keyOrder : String → String → Bool) (exactOne timestamp : Json → Bool)

def appendUnknownKeys (fields : List (String × Json)) (allowed : List String) (path : String) :
    List Issue :=
  let keys := (fields.map Prod.fst).filter fun key => !allowed.contains key
  (keys.mergeSort keyOrder).map fun key =>
    { path := if path = "" then key else path ++ "." ++ key, message := "unrecognized key" }

/-- The issues of a field, and its value where there are none. -/
def readTable (path : String) (value : Option Json) : List Issue × String :=
  let refused : List Issue := [⟨path ++ ".table", "must be a SQL-safe identifier"⟩]
  match value with
  | some (.string text) =>
    if identifierPattern Char.toNat text.toList then ([], text) else (refused, "")
  | _ => (refused, "")

def readRecordId (path : String) (value : Option Json) : List Issue × String :=
  let refused : List Issue :=
    [⟨path ++ ".recordId", "must be a string of 1..512 Unicode code points"⟩]
  match value with
  | some (.string text) =>
    if 1 ≤ text.toList.length ∧ text.toList.length ≤ 512 then ([], text) else (refused, "")
  | _ => (refused, "")

def readOperation (path : String) : Option Json → List Issue × Operation
  | none => ([], .upsert)
  | some (.string "upsert") => ([], .upsert)
  | some (.string "delete") => ([], .delete)
  | some _ => ([⟨path ++ ".operation", "must be upsert or delete"⟩], .upsert)

def readBaseRevision (path : String) (value : Option Json) : List Issue × Option String :=
  let refused : List Issue := [⟨path ++ ".baseRevision", "must be a canonical decimal string"⟩]
  match value with
  | none => ([], none)
  | some (.string text) =>
    if decimalPattern Char.toNat text.toList then ([], some text) else (refused, none)
  | some _ => (refused, none)

/-- The checks on a payload that is an object. -/
def payloadIssues (path : String) (operation : Operation) (payload : List (String × Json)) :
    List Issue :=
  match operation with
  | .delete =>
    if payload = [] then []
    else [⟨path ++ ".payload", "a delete record must carry an empty payload"⟩]
  | .upsert =>
    (if (member payload "updatedAt").any timestamp then []
      else [⟨path ++ ".payload.updatedAt", "invalid or missing timestamp"⟩]) ++
    ["createdAt", "syncedAt"].flatMap fun key =>
      if (member payload key).all timestamp then []
      else [⟨path ++ ".payload." ++ key, "invalid timestamp"⟩]

def readPayload (path : String) (operation : Operation) :
    Option Json → List Issue × List (String × Json)
  | some (.object payload) => (payloadIssues timestamp path operation payload, payload)
  | _ => ([⟨path ++ ".payload", "must be an object"⟩], [])

def validateRecord (value : Json) (index : ℕ) : Except (List Issue) IngestRecord :=
  let path := "records." ++ index.repr
  match value with
  | .object fields =>
    let (tableIssues, table) := readTable path (member fields "table")
    let (recordIssues, recordId) := readRecordId path (member fields "recordId")
    let (operationIssues, operation) := readOperation path (member fields "operation")
    let (revisionIssues, baseRevision) := readBaseRevision path (member fields "baseRevision")
    let (payloadIssues, payload) := readPayload timestamp path operation (member fields "payload")
    let issues := appendUnknownKeys keyOrder fields recordKeys path ++ tableIssues ++ recordIssues ++
      operationIssues ++ revisionIssues ++ payloadIssues
    if issues = [] then .ok { table, recordId, operation, baseRevision, payload }
    else .error issues
  | _ => .error [⟨path, "expected an object"⟩]

def versionIssues : Option Json → List Issue
  | none => [⟨"formatVersion", "required"⟩]
  | some version => if exactOne version then [] else [⟨"formatVersion", "must be 1"⟩]

def readSource (value : Option Json) : List Issue × Option String :=
  let refused : List Issue := [⟨"source", "must be a string of at most 200 Unicode code points"⟩]
  match value with
  | none => ([], none)
  | some (.string text) => if text.toList.length ≤ 200 then ([], some text) else (refused, none)
  | some _ => (refused, none)

def readRecords : Option Json → List Issue × List IngestRecord
  | none => ([⟨"records", "required"⟩], [])
  | some (.array []) => ([⟨"records", "must contain at least one record"⟩], [])
  | some (.array items) => collect (validateRecord keyOrder timestamp) 0 items
  | some _ => ([⟨"records", "must be an array"⟩], [])

def validateCanonical (value : Json) : Except (List Issue) IngestEnvelope :=
  match value with
  | .object root =>
    let (sourceIssues, source) := readSource (member root "source")
    let (recordIssues, records) := readRecords keyOrder timestamp (member root "records")
    let issues := appendUnknownKeys keyOrder root envelopeKeys "" ++
      versionIssues exactOne (member root "formatVersion") ++ sourceIssues ++ recordIssues
    if issues = [] then .ok { source, records } else .error issues
  | _ => .error [⟨"", "expected an object"⟩]

end

/-- The regular expressions for timestamps, on characters. -/
def timestampPatterns (text : String) : Bool :=
  digitsPattern Char.toNat text.toList || hlcPattern Char.toNat text.toList ||
    isoPattern Char.toNat text.toList

end Canonical

section
variable (numerals : Numerals)

namespace Go

def isExactOne : Json → Bool
  | .number value => numerals.setString (numberText value) = some 1
  | _ => false

def isSafeJSONInteger (text : String) : Bool :=
  if 256 < text.utf8ByteSize then false
  else
    match numerals.setString text with
    | none => false
    | some rational => rational.den = 1 && 0 ≤ rational && rational ≤ maxSafeTimestampInteger

def isTimestamp : Json → Bool
  | .number value => isSafeJSONInteger numerals (numberText value)
  | .string text => Canonical.timestampPatterns text
  | _ => false

/-- `sort.Strings` compares bytes. -/
def validateCanonical : Json → Except (List Issue) IngestEnvelope :=
  Canonical.validateCanonical (fun a b => a ≤ b) (isExactOne numerals) (isTimestamp numerals)

end Go

namespace Java

def decimalValue : JsonNumber → ℚ
  | .int value => value
  | .float literal => numerals.exact literal

def isExactOne : Json → Bool
  | .number value => decimalValue numerals value = 1
  | _ => false

def isTimestamp : Json → Bool
  | .string text => Canonical.timestampPatterns text
  | .number value =>
    let decimal := decimalValue numerals value
    if decimal < 0 ∨ maxSafeTimestampInteger < decimal then false else decimal.den = 1
  | _ => false

/-- `Comparator.naturalOrder` compares code units. -/
def validateCanonical : Json → Except (List Issue) IngestEnvelope :=
  Canonical.validateCanonical (fun a b => Utf16.encode a.toList ≤ Utf16.encode b.toList)
    (isExactOne numerals) (isTimestamp numerals)

end Java

/-! ## Dart -/

namespace Dart

/-- The `num` that `jsonDecode` makes; an infinite double is none. -/
inductive Num
  | int (value : ℤ)
  | double (value : Option ℚ)

def decode : JsonNumber → Num
  | .int value =>
    if -(2 ^ 63) ≤ value ∧ value < 2 ^ 63 then .int value else .double (numerals.round value)
  | .float literal => .double (numerals.round (numerals.exact literal))

/-- `== 1` -/
def isOne : Json → Bool
  | .number value =>
    match decode numerals value with
    | .int value => value = 1
    | .double value => value = some 1
  | _ => false

def isTimestamp : Json → Bool
  | .number value =>
    match decode numerals value with
    | .int value =>
      0 ≤ value && value ≤ maxSafeTimestampInteger && numerals.round value = some (value : ℚ)
    | .double value => value.any fun value : ℚ =>
      0 ≤ value && value ≤ maxSafeTimestampInteger && value.den = 1
  | .string text =>
    digitsPattern id (Utf16.encode text.toList) || hlcPattern id (Utf16.encode text.toList) ||
      isoPattern id (Utf16.encode text.toList)
  | _ => false

def unknownProperties (path : String) (allowed : List String) (fields : List (String × Json)) :
    List String :=
  (fields.filter fun field => !allowed.contains field.1).map fun field =>
    path ++ "." ++ field.1 ++ ": unknown property"

def readTable (path : String) (value : Option Json) : List String × String :=
  let refused := [path ++ ".table: must be a SQL-safe identifier"]
  match value with
  | some (.string text) =>
    if identifierPattern id (Utf16.encode text.toList) then ([], text) else (refused, "")
  | _ => (refused, "")

def readRecordId (path : String) (value : Option Json) : List String × String :=
  let refused := [path ++ ".recordId: must be a string of 1..512 characters"]
  match value with
  | some (.string text) =>
    if text.toList.length < 1 ∨ 512 < text.toList.length then (refused, "") else ([], text)
  | _ => (refused, "")

def readBaseRevision (path : String) (value : Option Json) : List String × Option String :=
  let refused := [path ++ ".baseRevision: must be a canonical decimal string"]
  match value with
  | none => ([], none)
  | some (.string text) =>
    if decimalPattern id (Utf16.encode text.toList) then ([], some text) else (refused, none)
  | some _ => (refused, none)

/-- The operation as it is written. -/
def readOperation (path : String) (value : Option Json) : List String × Json :=
  let operation := value.getD (.string "upsert")
  (if operation ≠ .string "upsert" ∧ operation ≠ .string "delete" then
    [path ++ ".operation: must be upsert or delete"] else [], operation)

def readPayload (path : String) (operation : Json) :
    Option Json → List String × List (String × Json)
  | some (.object payload) =>
    let issues :=
      if operation = .string "delete" then
        if payload = [] then []
        else [path ++ ".payload: a delete record must carry an empty payload"]
      else
        (if (member payload "updatedAt").any (isTimestamp numerals) then []
          else [path ++ ".payload.updatedAt: invalid or missing timestamp"]) ++
        ["createdAt", "syncedAt"].flatMap fun key =>
          if (member payload key).all (isTimestamp numerals) then []
          else [path ++ ".payload." ++ key ++ ": invalid timestamp"]
    (issues, payload)
  | _ => ([path ++ ".payload: must be an object"], [])

/-- A step of the loop over the records. -/
def validateRecord (value : Json) (index : ℕ) : Except (List String) IngestRecord :=
  let path := "records." ++ index.repr
  match value with
  | .object raw =>
    let (tableIssues, table) := readTable path (member raw "table")
    let (idIssues, recordId) := readRecordId path (member raw "recordId")
    let (operationIssues, operation) := readOperation path (member raw "operation")
    let (revisionIssues, baseRevision) := readBaseRevision path (member raw "baseRevision")
    let (payloadIssues, payload) := readPayload numerals path operation (member raw "payload")
    let recordIssues := unknownProperties path recordKeys raw ++ tableIssues ++ idIssues ++
      operationIssues ++ revisionIssues ++ payloadIssues
    if recordIssues = [] then
      .ok { table, recordId, baseRevision, payload,
            operation := if operation = .string "delete" then .delete else .upsert }
    else .error recordIssues
  | _ => .error [path ++ ": must be an object"]

def readSource (value : Option Json) : List String × Option String :=
  let refused := ["<root>.source: must be a string of at most 200 characters"]
  match value with
  | none => ([], none)
  | some (.string text) => if text.toList.length ≤ 200 then ([], some text) else (refused, none)
  | some _ => (refused, none)

def readRecords : Option Json → List String × List IngestRecord
  | some (.array []) => (["<root>.records: must be a non-empty array"], [])
  | some (.array rawRecords) => collect (validateRecord numerals) 0 rawRecords
  | _ => (["<root>.records: must be an array"], [])

/-- `parseEnvelope` of a decoded value, without validation providers. -/
def parseEnvelope (value : Json) : Except (List String) IngestEnvelope :=
  match value with
  | .object decoded =>
    let versionIssues :=
      if (member decoded "formatVersion").any (isOne numerals) then []
      else ["<root>.formatVersion: must be 1"]
    let (sourceIssues, source) := readSource (member decoded "source")
    let (recordIssues, records) := readRecords numerals (member decoded "records")
    let issues := unknownProperties "<root>" envelopeKeys decoded ++ versionIssues ++
      sourceIssues ++ recordIssues
    if issues = [] then .ok { source, records } else .error issues
  | _ => .error ["<root>: envelope must be an object"]

end Dart

/-! ## Gleam -/

namespace Gleam

def isDigit (character : String) : Bool :=
  ["0", "1", "2", "3", "4", "5", "6", "7", "8", "9"].contains character

def isLowerHex (character : String) : Bool :=
  isDigit character || ["a", "b", "c", "d", "e", "f"].contains character

/-- Only one-byte characters pass, so the case of others does not matter. -/
def isAlpha (character : String) : Bool :=
  character.toList.map Char.toLower ≠ character.toList.map Char.toUpper &&
    character.utf8ByteSize = 1

def isSuffixChar (character : String) : Bool :=
  isAlpha character || isDigit character || character = "." || character = "_" ||
    character = "~" || character = "-"

section
variable (strings : GleamString)

def allChars (value : String) (predicate : String → Bool) : Bool :=
  (strings.graphemes value).all predicate

def isIdentifier (value : String) : Bool :=
  match strings.graphemes value with
  | [] => false
  | first :: rest => (isAlpha first || first = "_") && rest.length ≤ 62 &&
      rest.all fun character => isAlpha character || isDigit character || character = "_"

def isDigits (value : String) : Bool :=
  let length := (strings.graphemes value).length
  1 ≤ length && length ≤ 20 && allChars strings value isDigit

def isDecimalString (value : String) : Bool :=
  match strings.graphemes value with
  | [] => false
  | ["0"] => true
  | "0" :: _ => false
  | characters => characters.all isDigit

def isNativeHlc (value : String) : Bool :=
  match strings.split value with
  | [millis, counter, node] =>
    (strings.graphemes millis).length = 13 && allChars strings millis isDigit &&
      (strings.graphemes counter).length = 4 && allChars strings counter isLowerHex &&
        1 ≤ node.toList.length && node.toList.length ≤ 128
  | _ => false

def matchesShape (characters expected : List String) : Bool :=
  characters.length = expected.length && (characters.zip expected).all fun pair =>
    if pair.2 = "d" then isDigit pair.1 else pair.1 = pair.2

def isoShape : List String :=
  ["d", "d", "d", "d", "-", "d", "d", "-", "d", "d", "T", "d", "d", ":", "d", "d", ":", "d", "d"]

/-- The rest after the fraction, if there is one. -/
def afterFraction : List String → Option (List String)
  | "." :: tail =>
    let count := (tail.takeWhile isDigit).length
    if 1 ≤ count ∧ count ≤ 9 then some (tail.drop count) else none
  | other => some other

def isoRest (rest : List String) : Bool :=
  match afterFraction rest with
  | none => false
  | some ["Z"] => true
  | some ("Z" :: "-" :: suffix) => suffix ≠ [] && suffix.all isSuffixChar
  | some _ => false

def isIso8601 (value : String) : Bool :=
  let characters := strings.graphemes value
  matchesShape (characters.take 19) isoShape && isoRest (characters.drop 19)

def asInt : Json → Option ℤ
  | .number (.int value) => some value
  | _ => none

/-- On the BEAM a number without fraction and exponent is no float. -/
def asFloat : Json → Option ℚ
  | .number (.float literal) => numerals.round (numerals.exact literal)
  | _ => none

def asString : Json → Option String
  | .string text => some text
  | _ => none

def isTimestamp (data : Json) : Bool :=
  match asInt data with
  | some value => 0 ≤ value && value ≤ maxSafeTimestampInteger
  | none =>
    match asFloat numerals data with
    | some value =>
      0 ≤ value && value ≤ maxSafeTimestampInteger && (value.floor : ℚ) = value
    | none =>
      match asString data with
      | some value => isDigits strings value || isNativeHlc strings value || isIso8601 strings value
      | none => false

def readTable (path : String) : Option Json → List String × String
  | some (.string text) =>
    if isIdentifier strings text then ([], text)
    else ([path ++ ".table: not a SQL-safe identifier"], "")
  | some _ => ([path ++ ".table: not a SQL-safe identifier"], "")
  | none => ([path ++ ".table: required"], "")

def readBaseRevision (path : String) : Option Json → List String × Option String
  | none => ([], none)
  | some (.string text) =>
    if isDecimalString strings text then ([], some text)
    else ([path ++ ".baseRevision: must be a decimal string"], none)
  | some _ => ([path ++ ".baseRevision: must be a decimal string"], none)

def validatePayload (path : String) (operation : Operation) (payload : List (String × Json)) :
    List String :=
  match operation with
  | .delete =>
    if payload = [] then [] else [path ++ ".payload: a delete record must carry an empty payload"]
  | .upsert =>
    (match member payload "updatedAt" with
      | some value =>
        if isTimestamp numerals strings value then []
        else [path ++ ".payload.updatedAt: invalid timestamp"]
      | none => [path ++ ".payload.updatedAt: required timestamp is missing"]) ++
    ["createdAt", "syncedAt"].flatMap fun key =>
      match member payload key with
      | some value =>
        if isTimestamp numerals strings value then []
        else [path ++ ".payload." ++ key ++ ": invalid timestamp"]
      | none => []

def readPayload (path : String) (operation : Operation) :
    Option Json → List String × List (String × Json)
  | some (.object payload) => (validatePayload numerals strings path operation payload, payload)
  | some _ => ([path ++ ".payload: must be an object"], [])
  | none => ([path ++ ".payload: required"], [])

/-- The other fields are read as in the Rust client. -/
def validateRecord (value : Json) (index : ℕ) : Except (List String) IngestRecord :=
  let path := "records." ++ index.repr
  match value with
  | .object fields =>
    let (tableIssues, table) := readTable strings path (member fields "table")
    let (recordIssues, recordId) := readRecordId path (member fields "recordId")
    let (operationIssues, operation) := readOperation path (member fields "operation")
    let (revisionIssues, baseRevision) := readBaseRevision strings path (member fields "baseRevision")
    let (payloadIssues, payload) :=
      readPayload numerals strings path operation (member fields "payload")
    let issues := unrecognizedKeys path recordKeys fields ++ tableIssues ++ recordIssues ++
      operationIssues ++ revisionIssues ++ payloadIssues
    if issues = [] then .ok { table, recordId, operation, baseRevision, payload }
    else .error issues
  | _ => .error [path ++ ": expected an object"]

def readRecords : Option Json → List String × List IngestRecord
  | none => (["<root>.records: required"], [])
  | some (.array []) => (["<root>.records: must contain at least one record"], [])
  | some (.array items) => collect (validateRecord numerals strings) 0 items
  | some _ => (["<root>.records: must be an array"], [])

/-- `validate_canonical`; the version and the source are read as in the Rust client. -/
def validateCanonical (data : Json) : Except (List String) IngestEnvelope :=
  match data with
  | .object fields =>
    let (sourceIssues, source) := readSource (member fields "source")
    let (recordIssues, records) := readRecords numerals strings (member fields "records")
    let issues := unrecognizedKeys "<root>" envelopeKeys fields ++
      versionIssues (member fields "formatVersion") ++ sourceIssues ++ recordIssues
    if issues = [] then .ok { source, records } else .error issues
  | _ => .error ["<root>: expected an object"]

end

end Gleam

end

end OptoSync.Ingest
