import OptoSync.PullPage

/-!
# Ingest envelopes

The validator of the Rust client for the envelopes that services hand to it. It lists every issue
that it finds.
-/
namespace OptoSync.Ingest
open Decimal Json

/-- What numbers are as doubles. -/
structure Doubles where
  float : String → ℚ
  ofInt : ℤ → ℚ
  exact : ∀ n : ℤ, |n| ≤ 2 ^ 53 → ofInt n = n
  mono : Monotone ofInt

def maxSafeTimestampInteger : ℕ := 9007199254740991

/-- The list after a number of elements that meet the test. -/
def exactly {α : Type} (test : α → Bool) : ℕ → List α → Option (List α)
  | 0, l => some l
  | _ + 1, [] => none
  | count + 1, a :: l => if test a then exactly test count l else none

def asciiAlphabetic (c : Char) : Bool := ('a' ≤ c && c ≤ 'z') || ('A' ≤ c && c ≤ 'Z')

/-- `^[A-Za-z_][A-Za-z0-9_]{0,62}$` -/
def isIdentifier (value : String) : Bool :=
  match value.toList with
  | [] => false
  | c :: rest => (asciiAlphabetic c || c = '_') && rest.length ≤ 62 &&
      rest.all fun c => asciiAlphabetic c || c.isDigit || c = '_'

/-- `^[0-9]{1,20}$` -/
def isDigits (value : String) : Bool :=
  1 ≤ value.utf8ByteSize && value.utf8ByteSize ≤ 20 && value.toList.all Char.isDigit

/-- `^(?:0|[1-9][0-9]*)$` -/
def isDecimalString (value : String) : Bool :=
  match value.toList with
  | [] => false
  | ['0'] => true
  | '0' :: _ => false
  | cs => cs.all Char.isDigit

/-- `^[0-9]{13}-[0-9a-f]{4}-[^-]{1,128}$` -/
def isNativeHlc (value : String) : Bool :=
  match value.toList.splitOn '-' with
  | [millis, counter, node] =>
    millis.length = 13 && millis.all Char.isDigit && counter.length = 4 &&
      counter.all (fun c => c.isDigit || ('a' ≤ c && c ≤ 'f')) && 1 ≤ node.length &&
        node.length ≤ 128
  | _ => false

def parseFraction : List Char → Option (List Char)
  | '.' :: fraction =>
    let count := (fraction.takeWhile Char.isDigit).length
    if 1 ≤ count ∧ count ≤ 9 then some (fraction.drop count) else none
  | cs => some cs

/-- The part up to the `Z`. -/
def parseHead (cs : List Char) : Option (List Char) := do
  let cs ← exactly Char.isDigit 4 cs
  let cs ← exactly (· = '-') 1 cs
  let cs ← exactly Char.isDigit 2 cs
  let cs ← exactly (· = '-') 1 cs
  let cs ← exactly Char.isDigit 2 cs
  let cs ← exactly (· = 'T') 1 cs
  let cs ← exactly Char.isDigit 2 cs
  let cs ← exactly (· = ':') 1 cs
  let cs ← exactly Char.isDigit 2 cs
  let cs ← exactly (· = ':') 1 cs
  let cs ← exactly Char.isDigit 2 cs
  let cs ← parseFraction cs
  exactly (· = 'Z') 1 cs

/-- `^\d{4}-\d{2}-\d{2}T\d{2}:\d{2}:\d{2}(\.\d{1,9})?Z(-[0-9A-Za-z._~-]+)*$`. The parser reads
bytes; all those it accepts are ASCII. -/
def isIso8601 (value : String) : Bool :=
  match parseHead value.toList with
  | none => false
  | some [] => true
  | some ('-' :: suffix) => suffix ≠ [] && suffix.all fun c =>
      asciiAlphabetic c || c.isDigit || c = '.' || c = '_' || c = '~' || c = '-'
  | some _ => false

section
variable (doubles : Doubles)

/-- `as_u64` and `as_f64` of a number that is an integer or a float. -/
def isSafeInteger (number : JsonNumber) : Bool :=
  let safe := fun value : ℚ => 0 ≤ value && value ≤ maxSafeTimestampInteger && value.den = 1
  match number with
  | .int value =>
    if 0 ≤ value ∧ value ≤ maxU64 then value ≤ maxSafeTimestampInteger
    else safe (doubles.ofInt value)
  | .float literal => safe (doubles.float literal)

def isTimestamp : Json → Bool
  | .number value => isSafeInteger doubles value
  | .string text => isDigits text || isNativeHlc text || isIso8601 text
  | _ => false

end

structure IngestRecord where
  table : String
  recordId : String
  operation : Operation
  baseRevision : Option String
  payload : List (String × Json)
  deriving DecidableEq

structure IngestEnvelope where
  source : Option String
  records : List IngestRecord
  deriving DecidableEq

def envelopeKeys : List String := ["formatVersion", "source", "records"]

def recordKeys : List String := ["table", "recordId", "operation", "baseRevision", "payload"]

def unrecognizedKeys (path : String) (known : List String) (fields : List (String × Json)) :
    List String :=
  (fields.filter fun field => !known.contains field.1).map fun field =>
    path ++ "." ++ field.1 ++ ": unrecognized key"

/-- The issues of a field, and its value where there are none. -/
def readTable (path : String) : Option Json → List String × String
  | some (.string text) =>
    if isIdentifier text then ([], text) else ([path ++ ".table: not a SQL-safe identifier"], "")
  | some _ => ([path ++ ".table: not a SQL-safe identifier"], "")
  | none => ([path ++ ".table: required"], "")

def readRecordId (path : String) : Option Json → List String × String
  | some (.string text) =>
    if 1 ≤ text.toList.length ∧ text.toList.length ≤ 512 then ([], text)
    else ([path ++ ".recordId: must be 1..512 characters"], "")
  | some _ => ([path ++ ".recordId: must be 1..512 characters"], "")
  | none => ([path ++ ".recordId: required"], "")

def readOperation (path : String) : Option Json → List String × Operation
  | none => ([], .upsert)
  | some (.string "upsert") => ([], .upsert)
  | some (.string "delete") => ([], .delete)
  | some _ => ([path ++ ".operation: must be \"upsert\" or \"delete\""], .upsert)

def readBaseRevision (path : String) : Option Json → List String × Option String
  | none => ([], none)
  | some (.string text) =>
    if isDecimalString text then ([], some text)
    else ([path ++ ".baseRevision: must be a decimal string"], none)
  | some _ => ([path ++ ".baseRevision: must be a decimal string"], none)

def readPayload (path : String) : Option Json → List String × List (String × Json)
  | some (.object fields) => ([], fields)
  | some _ => ([path ++ ".payload: must be an object"], [])
  | none => ([path ++ ".payload: required"], [])

section
variable (doubles : Doubles)

/-- The checks on a payload that is an object. -/
def payloadIssues (path : String) (operation : Operation) (payload : List (String × Json)) :
    List String :=
  match operation with
  | .delete =>
    if payload = [] then [] else [path ++ ".payload: a delete record must carry an empty payload"]
  | .upsert =>
    (match member payload "updatedAt" with
      | some timestamp =>
        if isTimestamp doubles timestamp then [] else [path ++ ".payload.updatedAt: invalid timestamp"]
      | none => [path ++ ".payload.updatedAt: required timestamp is missing"]) ++
    ["createdAt", "syncedAt"].flatMap fun key =>
      match member payload key with
      | some timestamp =>
        if isTimestamp doubles timestamp then []
        else [path ++ ".payload." ++ key ++ ": invalid timestamp"]
      | none => []

def validateRecord (value : Json) (index : ℕ) : Except (List String) IngestRecord :=
  let path := "records." ++ index.repr
  match value with
  | .object fields =>
    let (tableIssues, table) := readTable path (member fields "table")
    let (recordIssues, recordId) := readRecordId path (member fields "recordId")
    let (operationIssues, operation) := readOperation path (member fields "operation")
    let (revisionIssues, baseRevision) := readBaseRevision path (member fields "baseRevision")
    let (payloadShape, payload) := readPayload path (member fields "payload")
    let contentIssues :=
      if (member fields "payload").any Json.isObject then payloadIssues doubles path operation payload
      else []
    let issues := unrecognizedKeys path recordKeys fields ++ tableIssues ++ recordIssues ++
      operationIssues ++ revisionIssues ++ payloadShape ++ contentIssues
    if issues = [] then .ok { table, recordId, operation, baseRevision, payload }
    else .error issues
  | _ => .error [path ++ ": expected an object"]

/-- The loop over the records: the issues so far and the records so far. -/
def validateItems : ℕ → List Json → List String × List IngestRecord
  | _, [] => ([], [])
  | index, item :: items =>
    let (issues, records) := validateItems (index + 1) items
    match validateRecord doubles item index with
    | .ok record => (issues, record :: records)
    | .error recordIssues => (recordIssues ++ issues, records)

def versionIssues : Option Json → List String
  | some (.number (.int 1)) => []
  | some _ => ["<root>.formatVersion: must be 1"]
  | none => ["<root>.formatVersion: required"]

def readSource : Option Json → List String × Option String
  | none => ([], none)
  | some (.string text) =>
    if text.toList.length ≤ 200 then ([], some text)
    else (["<root>.source: must be a string of at most 200 characters"], none)
  | some _ => (["<root>.source: must be a string of at most 200 characters"], none)

def readRecords : Option Json → List String × List IngestRecord
  | some (.array items) =>
    let (issues, records) := validateItems doubles 0 items
    ((if items = [] then ["<root>.records: must contain at least one record"] else []) ++ issues,
      records)
  | some _ => (["<root>.records: must be an array"], [])
  | none => (["<root>.records: required"], [])

def validateEnvelope (value : Json) : Except (List String) IngestEnvelope :=
  match value with
  | .object root =>
    let (sourceIssues, source) := readSource (member root "source")
    let (recordsIssues, records) := readRecords doubles (member root "records")
    let issues := unrecognizedKeys "<root>" envelopeKeys root ++
      versionIssues (member root "formatVersion") ++ sourceIssues ++ recordsIssues
    if issues = [] then .ok { source, records } else .error issues
  | _ => .error ["<root>: expected an object"]

end

end OptoSync.Ingest
