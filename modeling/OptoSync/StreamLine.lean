import OptoSync.JsonDocument
import OptoSync.StreamTranscriptAgreement

/-!
# Lines of the adapter stream

`parse_stream_message_line` of `fmctl` and `DecodeLine` of the Go adapter SDK. `fmctl` derives its
decoder with `serde`; the SDK reads each object into a map of its own and asks for its keys.
`serde_json` and `encoding/json` read one grammar. Which numerals `serde_json` can hold as a float is
a parameter.
-/
namespace OptoSync

namespace Document

mutual
def depth : Document → ℕ
  | .array items => depthItems items + 1
  | .object members => depthMembers members + 1
  | _ => 0

def depthItems : List Document → ℕ
  | [] => 0
  | d :: ds => max (depth d) (depthItems ds)

def depthMembers : List (Text × Document) → ℕ
  | [] => 0
  | (_, d) :: ms => max (depth d) (depthMembers ms)
end

mutual
/-- Every text and every number of the document passes. -/
def all (text : Text → Bool) (number : JsonNumber → Bool) : Document → Bool
  | .number value => number value
  | .string value => text value
  | .array items => allItems text number items
  | .object members => allMembers text number members
  | _ => true

def allItems (text : Text → Bool) (number : JsonNumber → Bool) : List Document → Bool
  | [] => true
  | d :: ds => all text number d && allItems text number ds

def allMembers (text : Text → Bool) (number : JsonNumber → Bool) : List (Text × Document) → Bool
  | [] => true
  | (key, d) :: ms => text key && all text number d && allMembers text number ms
end

/-- The members under the texts of their keys. -/
def entries (members : List (Text × Document)) : List (String × Document) :=
  members.map fun m => (m.1.value, m.2)

def insertField (key : String) (value : Json) : List (String × Json) → List (String × Json)
  | [] => [(key, value)]
  | (k, v) :: fields =>
    if key < k then (key, value) :: (k, v) :: fields
    else (k, v) :: insertField key value fields

mutual
/-- The value of a document in a map, where the last of equal keys wins. -/
def value : Document → Json
  | .null => .null
  | .bool b => .bool b
  | .number n => .number n
  | .string text => .string text.value
  | .array items => .array (valueItems items)
  | .object members => .object (valueMembers members)

def valueItems : List Document → List Json
  | [] => []
  | d :: ds => value d :: valueItems ds

def valueMembers : List (Text × Document) → List (String × Json)
  | [] => []
  | (key, d) :: ms =>
    let fields := valueMembers ms
    if key.value ∈ fields.map Prod.fst then fields else insertField key.value (value d) fields
end

end Document

namespace Stream

open Document (entries)

/-- A field of a derived struct. -/
structure Field where
  name : String
  /-- `#[serde(default)]` -/
  default : Bool := false

/-- What a reader makes of the types that `serde` derives. -/
structure Reader where
  /-- A struct or a struct variant, by the names of its fields. -/
  struct : List Field → Document → Option (String → Option Document)
  /-- An internally tagged enumeration: its tag, and what is left for the variant. -/
  tagged : String → Document → Option (Document × Document)
  /-- The name of a variant in a tag. -/
  variant : List String → Document → Option String
  /-- The tag and the content of an adjacently tagged enumeration. -/
  adjacent : String → String → Document → Option (Document × Document)
  /-- The `()` of a unit variant that is spelled as an object. -/
  isUnit : Document → Bool
  generation : Document → Option ℕ
  retryable : Document → Option Bool

namespace Reader

variable (reader : Reader)

def text : Document → Option String
  | .string text => some text.value
  | _ => none

/-- A `u32` or `u64`. -/
def unsigned (bits : ℕ) : Document → Option ℕ
  | .number (.int value) => if 0 ≤ value ∧ value < 2 ^ bits then some value.toNat else none
  | _ => none

def isNull : Document → Bool
  | .null => true
  | _ => false

/-- An enumeration of unit variants: a name, or an object with the name and a unit. -/
def unitVariant (isUnit : Document → Bool) (names : List String) : Document → Option String
  | .string text => if text.value ∈ names then some text.value else none
  | .object [(key, d)] => if isUnit d ∧ key.value ∈ names then some key.value else none
  | _ => none

/-- What is left for a unit variant. -/
def unit : Document → Option Unit
  | .array [] | .object _ => some ()
  | _ => none

/-- `Option<T>` with a default -/
def optional {α : Type} (read : Document → Option α) : Option Document → Option (Option α)
  | none | some .null => some none
  | some d => (read d).map some

def operationNames : List String :=
  ["hello", "reset", "apply", "observe", "settle", "snapshot", "restore", "fault", "close"]

def operation (d : Document) : Option StreamOperation := do
  let (tag, rest) ← reader.tagged "name" d
  match ← reader.variant operationNames tag with
  | "hello" => do
    unit rest
    some .hello
  | "reset" => do
    let field ← reader.struct
      [{ name := "initialState" }, { name := "seed", default := true }, { name := "logicalTime" }] rest
    some (.reset (← field "initialState").value (← optional text (field "seed"))
      (← field "logicalTime").value)
  | "apply" => do
    let field ← reader.struct
      [{ name := "action" }, { name := "arguments", default := true }, { name := "logicalTime" }] rest
    some (.apply (← text (← field "action")) (((field "arguments").map Document.value).getD .null)
      (← field "logicalTime").value)
  | "observe" => do
    unit rest
    some .observe
  | "settle" => do
    let field ← reader.struct [{ name := "maxSteps" }] rest
    some (.settle (← unsigned 32 (← field "maxSteps")))
  | "snapshot" => do
    unit rest
    some .snapshot
  | "restore" => do
    let field ← reader.struct [{ name := "snapshot" }, { name := "schemaHash" }] rest
    some (.restore (← field "snapshot").value (← text (← field "schemaHash")))
  | "fault" => do
    let field ← reader.struct [{ name := "fault" }, { name := "arguments", default := true }] rest
    some (.fault (← text (← field "fault")) (((field "arguments").map Document.value).getD .null))
  | "close" => do
    unit rest
    some .close
  | _ => none

def error (d : Document) : Option StreamError := do
  let field ← reader.struct
    [{ name := "code" }, { name := "message" }, { name := "retryable" },
      { name := "data", default := true }] d
  some { code := ← text (← field "code"), message := ← text (← field "message"),
         retryable := ← reader.retryable (← field "retryable"),
         data := ← optional (fun d => some d.value) (field "data") }

def outcome (d : Document) : Option StreamOutcome := do
  let (tag, rest) ← reader.tagged "kind" d
  match ← reader.variant ["ok", "error", "unsupported"] tag with
  | "ok" => do
    let field ← reader.struct [{ name := "value" }] rest
    some (.ok (← field "value").value)
  | "error" => do
    let field ← reader.struct [{ name := "error" }] rest
    some (.error (← reader.error (← field "error")))
  | "unsupported" => do
    let field ← reader.struct [{ name := "error" }] rest
    some (.unsupported (← reader.error (← field "error")))
  | _ => none

def request (d : Document) : Option StreamRequest := do
  let field ← reader.struct
    [{ name := "protocol" }, { name := "protocolVersion" }, { name := "requestId" },
      { name := "machine" }, { name := "generation" }, { name := "operation" }] d
  some { protocol := ← text (← field "protocol"),
         protocolVersion := ← unsigned 32 (← field "protocolVersion"),
         requestId := ← text (← field "requestId"), machine := ← text (← field "machine"),
         generation := ← reader.generation (← field "generation"),
         operation := ← reader.operation (← field "operation") }

def response (d : Document) : Option StreamResponse := do
  let field ← reader.struct
    [{ name := "protocol" }, { name := "protocolVersion" }, { name := "requestId" },
      { name := "machine" }, { name := "generation" }, { name := "operation" },
      { name := "outcome" }] d
  some { protocol := ← text (← field "protocol"),
         protocolVersion := ← unsigned 32 (← field "protocolVersion"),
         requestId := ← text (← field "requestId"), machine := ← text (← field "machine"),
         generation := ← reader.generation (← field "generation"),
         operation := ← capabilityOf
           (← unitVariant reader.isUnit operationNames (← field "operation")),
         outcome := ← reader.outcome (← field "outcome") }

def message (d : Document) : Option StreamMessage := do
  let (kind, content) ← reader.adjacent "kind" "message" d
  match ← unitVariant isNull ["request", "response"] kind with
  | "request" => (reader.request content).map .request
  | "response" => (reader.response content).map .response
  | _ => none

end Reader

/-- No unknown key, and every field that has no default. -/
def Complete (fields : List Field) (keys : List String) : Prop :=
  (∀ key ∈ keys, key ∈ fields.map Field.name) ∧ ∀ f ∈ fields, f.default = false → f.name ∈ keys

instance (fields : List Field) (keys : List String) : Decidable (Complete fields keys) := by
  unfold Complete
  infer_instance

def keys (members : List (Text × Document)) : List String := (entries members).map Prod.fst

/-- The items of an array are the fields in order; a default stands for what is missing at the end. -/
def positional (fields : List Field) (items : List Document) : Option (String → Option Document) :=
  if items.length ≤ fields.length ∧ ∀ f ∈ fields.drop items.length, f.default = true then
    some fun name => ((fields.map Field.name).zip items).lookup name
  else none

namespace Serde

def struct (fields : List Field) : Document → Option (String → Option Document)
  | .array items => positional fields items
  | .object members =>
    if (keys members).Nodup ∧ Complete fields (keys members) then
      some fun name => (entries members).lookup name
    else none
  | _ => none

def tagged (tag : String) : Document → Option (Document × Document)
  | .array (t :: items) => some (t, .array items)
  | .object members =>
    match members.filter fun m => m.1.value = tag with
    | [m] => some (m.2, .object (members.filter fun m => m.1.value ≠ tag))
    | _ => none
  | _ => none

/-- The index of a variant does only for content that was buffered. -/
def variant (buffered : Bool) (names : List String) : Document → Option String
  | .string text => if text.value ∈ names then some text.value else none
  | .number (.int value) => if buffered ∧ 0 ≤ value then names[value.toNat]? else none
  | _ => none

/-- Keys other than the two are ignored. -/
def adjacent (tag content : String) : Document → Option (Document × Document)
  | .array [t, c] => some (t, c)
  | .object members =>
    match members.filter fun m => m.1.value = tag, members.filter fun m => m.1.value = content with
    | [t], [c] => some (t.2, c.2)
    | _, _ => none
  | _ => none

/-- An empty map does for `()` in content that was buffered. -/
def isUnit (buffered : Bool) : Document → Bool
  | .null => true
  | .object [] => buffered
  | _ => false

def bool : Document → Option Bool
  | .bool value => some value
  | _ => none

def reader (buffered : Bool) : Reader where
  struct := struct
  tagged := tagged
  variant := variant buffered
  adjacent := adjacent
  isUnit := isUnit buffered
  generation := Reader.unsigned 64
  retryable := bool

/-- The content comes before its tag and is buffered. -/
def buffered : Document → Bool
  | .object members =>
    ((keys members).filter fun key => key = "kind" ∨ key = "message") = ["message", "kind"]
  | _ => false

/-- The depth at which `serde_json` stops. -/
def recursionLimit : ℕ := 128

/-- What is visited has no text that would have to be replaced, no numeral out of range, and does
not reach the limit. -/
def visits (inRange : JsonNumber → Bool) (limit : ℕ) (d : Document) : Bool :=
  d.all Text.whole inRange && d.depth < limit

/-- An ignored value is only skipped. -/
def visitsLine (inRange : JsonNumber → Bool) : Document → Bool
  | .object members => members.all fun m =>
    m.1.whole && (!(["kind", "message"].contains m.1.value) || visits inRange (recursionLimit - 1) m.2)
  | d => visits inRange recursionLimit d

/-- `serde_json::from_slice` -/
def fromSlice (inRange : JsonNumber → Bool) (line : List UInt8) : Option StreamMessage := do
  let d ← Document.read line
  if visitsLine inRange d then (reader (buffered d)).message d else none

end Serde

def maxStreamMessageBytes : ℕ := 1024 * 1024

/-- `u8::is_ascii_whitespace` -/
def isAsciiWhitespace (b : UInt8) : Bool :=
  b.toNat = 0x20 || b.toNat = 0x09 || b.toNat = 0x0a || b.toNat = 0x0c || b.toNat = 0x0d

def parseStreamMessageLine (inRange : JsonNumber → Bool) (line : List UInt8) :
    Checked StreamMessage :=
  if maxStreamMessageBytes < line.length then
    .error s!"stream adapter message exceeds the {maxStreamMessageBytes}-byte limit"
  else if line = [] ∨ line.all isAsciiWhitespace then
    .error "stream adapter line must contain one JSON object"
  else if '\n'.toUInt8 ∈ line ∨ '\r'.toUInt8 ∈ line then
    .error "stream adapter parser accepts one line without a terminator"
  else
    match Serde.fromSlice inRange line with
    | none => .error "invalid stream adapter JSON"
    | some message => do
      message.validate
      .ok message

/-! ## The Go SDK -/

namespace Go

/-- A `map[string]json.RawMessage`. The last of equal keys comes first. -/
abbrev Object := List (String × Document)

def decodeObject (raw : Option Document) (label : String) : Checked Object :=
  match raw with
  | some (.object members) => .ok (entries members).reverse
  | some .null => .error s!"{label} must be an object"
  | _ => .error s!"decode {label}"

/-- Unmarshalling `null` leaves a value as it is. -/
def decodeText (raw : Option Document) (label : String) : Checked String :=
  match raw with
  | some (.string text) => .ok text.value
  | some .null => .ok ""
  | _ => .error s!"{label} must be a string"

def decodeBool (raw : Option Document) (label : String) : Checked Bool :=
  match raw with
  | some (.bool value) => .ok value
  | some .null => .ok false
  | _ => .error s!"{label} must be boolean"

def decodeInt (raw : Option Document) (label : String) : Checked ℤ :=
  match raw with
  | some (.number (.int value)) =>
    if -2 ^ 63 ≤ value ∧ value < 2 ^ 63 then .ok value else .error s!"{label} must be an integer"
  | some (.number (.float "-0")) => .ok 0
  | some .null => .ok 0
  | _ => .error s!"{label} must be an integer"

def decodeUint64 (raw : Option Document) (label : String) : Checked ℕ :=
  match raw with
  | some (.number (.int value)) =>
    if 0 ≤ value ∧ value < 2 ^ 64 then .ok value.toNat
    else .error s!"{label} must be a nonnegative integer"
  | some .null => .ok 0
  | _ => .error s!"{label} must be a nonnegative integer"

def decodeCanonical (raw : Option Document) : Checked Json :=
  match raw with
  | none => .error "EOF"
  | some d =>
    match CanonicalJson.Go.canonicalize d.value with
    | none => .error "canonical adapter JSON"
    | some value => .ok value

/-- An optional key. -/
def decodeOptional {α : Type} (object : Object) (key : String) (absent : α)
    (decode : Option Document → Checked α) : Checked α :=
  if (object.lookup key).isSome then decode (object.lookup key) else .ok absent

def requireKeys (object : Object) (label : String) (required optional : List String) :
    Checked Unit :=
  let keys := (object.map Prod.fst).dedup
  match required.find? fun key => key ∉ keys with
  | some key => .error s!"{label} missing field \"{key}\""
  | none =>
    let unknown := (keys.filter fun key => key ∉ required ∧ key ∉ optional).mergeSort
    let names := String.intercalate ", " unknown
    if unknown ≠ [] then .error s!"{label} contains unknown fields: {names}" else .ok ()

def requireExactKeys (object : Object) (label : String) (keys : List String) : Checked Unit :=
  requireKeys object label keys []

def decodeOperation (raw : Option Document) : Checked Operation := do
  let object ← decodeObject raw "operation"
  let name ← decodeText (object.lookup "name") "operation.name"
  match name with
  | "hello" | "observe" | "snapshot" | "close" => do
    requireExactKeys object "operation" ["name"]
    .ok { name }
  | "reset" => do
    requireKeys object "operation" ["name", "initialState", "logicalTime"] ["seed"]
    let initialState ← decodeCanonical (object.lookup "initialState")
    let logicalTime ← decodeCanonical (object.lookup "logicalTime")
    let seed ← decodeOptional object "seed" "" fun raw => decodeText raw "seed"
    .ok { name, initialState, logicalTime, seed }
  | "apply" => do
    requireKeys object "operation" ["name", "action", "logicalTime"] ["arguments"]
    let action ← decodeText (object.lookup "action") "action"
    let logicalTime ← decodeCanonical (object.lookup "logicalTime")
    let arguments ← decodeOptional object "arguments" .null decodeCanonical
    .ok { name, action, logicalTime, arguments }
  | "settle" => do
    requireExactKeys object "operation" ["name", "maxSteps"]
    let maxSteps ← decodeUint64 (object.lookup "maxSteps") "maxSteps"
    .ok { name, maxSteps }
  | "restore" => do
    requireExactKeys object "operation" ["name", "snapshot", "schemaHash"]
    let stored ← decodeCanonical (object.lookup "snapshot")
    let schemaHash ← decodeText (object.lookup "schemaHash") "schemaHash"
    .ok { name, snapshot := stored, schemaHash }
  | "fault" => do
    requireKeys object "operation" ["name", "fault"] ["arguments"]
    let label ← decodeText (object.lookup "fault") "fault"
    let arguments ← decodeOptional object "arguments" .null decodeCanonical
    .ok { name, fault := label, arguments }
  | _ => .error "unsupported operation"

def decodeStreamError (raw : Option Document) : Checked StreamError := do
  let object ← decodeObject raw "stream error"
  requireKeys object "stream error" ["code", "message", "retryable"] ["data"]
  let code ← decodeText (object.lookup "code") "error.code"
  let message ← decodeText (object.lookup "message") "error.message"
  let retryable ← decodeBool (object.lookup "retryable") "error.retryable"
  let data ← decodeOptional object "data" .null decodeCanonical
  let result : StreamError := { code, message, retryable, data }
  result.validate
  .ok result

def decodeOutcome (raw : Option Document) : Checked Outcome := do
  let object ← decodeObject raw "outcome"
  let kind ← decodeText (object.lookup "kind") "outcome.kind"
  match kind with
  | "ok" => do
    requireExactKeys object "outcome" ["kind", "value"]
    let value ← decodeCanonical (object.lookup "value")
    .ok { kind, value }
  | "error" | "unsupported" => do
    requireExactKeys object "outcome" ["kind", "error"]
    let error ← decodeStreamError (object.lookup "error")
    .ok { kind, error := some error }
  | _ => .error "unsupported outcome kind"

def decodeRequest (raw : Option Document) : Checked Request := do
  let object ← decodeObject raw "request"
  requireExactKeys object "request"
    ["protocol", "protocolVersion", "requestId", "machine", "generation", "operation"]
  let sent ← decodeText (object.lookup "protocol") "protocol"
  let version ← decodeInt (object.lookup "protocolVersion") "protocolVersion"
  let requestId ← decodeText (object.lookup "requestId") "requestId"
  let machine ← decodeText (object.lookup "machine") "machine"
  let generation ← decodeUint64 (object.lookup "generation") "generation"
  let operation ← decodeOperation (object.lookup "operation")
  let request : Request :=
    { protocol := sent, protocolVersion := version, requestId, machine, generation, operation }
  request.validate
  .ok request

def decodeResponse (raw : Option Document) : Checked Response := do
  let object ← decodeObject raw "response"
  requireExactKeys object "response"
    ["protocol", "protocolVersion", "requestId", "machine", "generation", "operation", "outcome"]
  let sent ← decodeText (object.lookup "protocol") "protocol"
  let version ← decodeInt (object.lookup "protocolVersion") "protocolVersion"
  let requestId ← decodeText (object.lookup "requestId") "requestId"
  let machine ← decodeText (object.lookup "machine") "machine"
  let generation ← decodeUint64 (object.lookup "generation") "generation"
  let operation ← decodeText (object.lookup "operation") "operation"
  let outcome ← decodeOutcome (object.lookup "outcome")
  let response : Response :=
    { protocol := sent, protocolVersion := version, requestId, machine, generation, operation,
      outcome }
  response.validate
  .ok response

def maxMessageBytes : ℕ := 1024 * 1024

def decodeMessage (d : Document) : Checked Message := do
  let object ← decodeObject (some d) "stream message"
  requireExactKeys object "stream message" ["kind", "message"]
  let kind ← decodeText (object.lookup "kind") "kind"
  match kind with
  | "request" => do
    let request ← decodeRequest (object.lookup "message")
    .ok { kind, request := some request }
  | "response" => do
    let response ← decodeResponse (object.lookup "message")
    .ok { kind, response := some response }
  | _ => .error "unknown stream message kind"

def decodeLine (line : List UInt8) : Checked Message :=
  if line.length > maxMessageBytes then
    .error s!"stream adapter message exceeds the {maxMessageBytes}-byte limit"
  else if (Document.readChars line.length line).all isWhiteSpace then
    .error "stream adapter line must contain one JSON object"
  else if '\r'.toUInt8 ∈ line ∨ '\n'.toUInt8 ∈ line then
    .error "stream adapter parser accepts one line without a terminator"
  else
    match Document.read line with
    | none => .error "decode stream message"
    | some d =>
      if CanonicalJson.Go.maxNestingDepth < d.depth then .error "decode stream message"
      else decodeMessage d

end Go
end Stream
end OptoSync
