import OptoSync.StreamMessage

/-!
# Messages of the adapter stream in Go

`Message` of the Go adapter SDK with its validation. An `any` is a JSON value, `nil` is `null`.
Arguments that are printed with `%q` are left out of the error texts.
-/
namespace OptoSync.Stream.Go

open CanonicalForm (sortByKey)

def protocol : String := "fm.adapter.stream.v1"
def protocolVersion : ℤ := 1
def maxSettleSteps : ℕ := 1000000
def maxSafeInteger : ℕ := 9007199254740991
def maxRequestId : ℕ := 9007199254740991

structure Operation where
  name : String
  initialState : Json := .null
  seed : String := ""
  logicalTime : Json := .null
  action : String := ""
  arguments : Json := .null
  maxSteps : ℕ := 0
  snapshot : Json := .null
  schemaHash : String := ""
  fault : String := ""

structure Request where
  protocol : String
  protocolVersion : ℤ
  requestId : String
  machine : String
  generation : ℕ
  operation : Operation

structure StreamError where
  code : String
  message : String
  retryable : Bool
  data : Json

structure Outcome where
  kind : String
  value : Json := .null
  error : Option StreamError := none

structure Response where
  protocol : String
  protocolVersion : ℤ
  requestId : String
  machine : String
  generation : ℕ
  operation : String
  outcome : Outcome

structure Message where
  kind : String
  request : Option Request := none
  response : Option Response := none

structure Implementation where
  language : String := ""
  name : String := ""
  version : String := ""

structure HelloResult where
  implementation : Implementation
  capabilities : List String
  canonicalStateSchemaHash : String

def validateDecimal (value : String) (allowNegative : Bool) : Checked Unit :=
  let negative := value.toList.head? = some '-'
  let digits := if negative then value.toList.drop 1 else value.toList
  if value = "" then .error "decimal string is empty"
  else if value.toList.head? = some '+' then .error "plus sign is forbidden"
  else if negative ∧ allowNegative = false then .error "negative value is forbidden"
  else if negative ∧ digits = [] then .error "minus sign must be followed by digits"
  else if digits.any fun c => c < '0' || c > '9' then .error "decimal contains non-digit characters"
  else if 1 < digits.length ∧ digits.head? = some '0' then .error "leading zeroes are forbidden"
  else if negative ∧ digits = ['0'] then .error "negative zero is forbidden"
  else .ok ()

def parseRequestID (value : String) : Checked ℤ := do
  validateDecimal value false
  match CanonicalJson.Go.setString value with
  | none => .error "requestId is invalid"
  | some parsed =>
    if parsed = 0 then .error "requestId must be positive"
    else if parsed > maxRequestId then .error s!"requestId exceeds 2^53-1: {value}"
    else .ok parsed

def validateLabel (label value : String) (max : ℕ) : Checked Unit :=
  if isBlank value then .error s!"{label} must be nonempty"
  else if value.utf8ByteSize > max then .error s!"{label} exceeds {max} bytes"
  else if value.toList.any isControl then .error s!"{label} must not contain control characters"
  else .ok ()

def validateSHA256 (label value : String) : Checked Unit :=
  if value.utf8ByteSize ≠ 71 ∨ ¬"sha256:".toList <+: value.toList then
    .error s!"{label} must be sha256:<64 lowercase hex>"
  else if (value.toList.drop 7).any fun c => !isLowerHex c then
    .error s!"{label} must be sha256:<64 lowercase hex>"
  else .ok ()

def validateEnvelope (sent : String) (version : ℤ) (requestID machine : String) :
    Checked Unit :=
  if sent ≠ protocol then .error "expected protocol"
  else if version ≠ protocolVersion then
    .error s!"expected protocolVersion {protocolVersion}, got {version}"
  else do
    let _ ← parseRequestID requestID
    validateLabel "machine" machine 256

def validateGeneration (value : ℕ) : Checked Unit :=
  if value > maxSafeInteger then .error s!"generation exceeds 2^53-1: {value}" else .ok ()

def validOperationName (value : String) : Bool :=
  ["hello", "reset", "apply", "observe", "settle", "snapshot", "restore", "fault", "close"].contains
    value

/-- The smallest character that folds to the same; enough to compare with an ASCII name. -/
def foldRune (c : Char) : Char :=
  if c = '\u017f' then 'S' else if c = '\u212a' then 'K' else c.toUpper

def foldName (name : String) : List Char := name.toList.map foldRune

/-- The field of a struct that a key sets. -/
def structField (names : List String) (key : String) : Option String :=
  if key ∈ names then some key else names.find? fun name => foldName name = foldName key

/-- A `null` leaves a string as it is. -/
def decodeString (old : String) : Json → Option String
  | .null => some old
  | .string value => some value
  | _ => none

/-- A slice and what its array holds. Decoding into a slice uses the array again. -/
structure Slice where
  array : List String := []
  length : ℕ := 0

def Slice.elements (slice : Slice) : List String := slice.array.take slice.length

def decodeElements : List String → List Json → Option (List String)
  | old, [] => some old
  | old, v :: vs => do
    let w ← decodeString (old.headD "") v
    let ws ← decodeElements old.tail vs
    some (w :: ws)

def decodeSlice (old : Slice) : Json → Option Slice
  | .null => some {}
  | .array [] => some {}
  | .array items => do
    let array ← decodeElements old.array items
    some { array, length := items.length }
  | _ => none

/-- Decoding an object into a struct, after `json.Marshal` has put its keys in order. -/
def decodeStruct {α : Type} (set : α → String × Json → Option α) (old : α) : Json → Option α
  | .null => some old
  | .object fields => (sortByKey fields).foldlM set old
  | _ => none

/-- Fields that are in key order are decoded as they stand. -/
theorem decodeStruct_sorted {α : Type} {set : α → String × Json → Option α} {old : α}
    {fields : List (String × Json)} (h : fields.Pairwise fun a b => a.1 ≤ b.1) :
    decodeStruct set old (.object fields) = fields.foldlM set old := by
  have hsort : sortByKey fields = fields := List.mergeSort_of_pairwise (by simpa using h)
  rw [decodeStruct, hsort]

def setImplementation (raw : Implementation) (field : String × Json) : Option Implementation :=
  match structField ["language", "name", "version"] field.1 with
  | some "language" => (decodeString raw.language field.2).map fun v => { raw with language := v }
  | some "name" => (decodeString raw.name field.2).map fun v => { raw with name := v }
  | some "version" => (decodeString raw.version field.2).map fun v => { raw with version := v }
  | _ => none

structure RawHello where
  implementation : Implementation := {}
  capabilities : Slice := {}
  canonicalStateSchemaHash : String := ""

def setHello (raw : RawHello) (field : String × Json) : Option RawHello :=
  match structField ["implementation", "capabilities", "canonicalStateSchemaHash"] field.1 with
  | some "implementation" =>
    (decodeStruct setImplementation raw.implementation field.2).map fun v =>
      { raw with implementation := v }
  | some "capabilities" =>
    (decodeSlice raw.capabilities field.2).map fun v => { raw with capabilities := v }
  | some "canonicalStateSchemaHash" =>
    (decodeString raw.canonicalStateSchemaHash field.2).map fun v =>
      { raw with canonicalStateSchemaHash := v }
  | _ => none

def decodeHelloResult (value : Json) : Checked HelloResult :=
  match decodeStruct setHello {} value with
  | none => .error "decode hello result"
  | some raw => do
    validateLabel "implementation language" raw.implementation.language 128
    validateLabel "implementation name" raw.implementation.name 256
    validateLabel "implementation version" raw.implementation.version 256
    validateSHA256 "canonicalStateSchemaHash" raw.canonicalStateSchemaHash
    if ¬raw.capabilities.elements.Nodup then .error "hello capabilities contain duplicate"
    else .ok { implementation := raw.implementation, capabilities := raw.capabilities.elements,
               canonicalStateSchemaHash := raw.canonicalStateSchemaHash }

def capabilityRegistryV1 : List String :=
  ["reset", "apply", "observe", "settle", "snapshot", "restore", "fault", "close"]

def requiredCapabilitiesV1 : List String := ["reset", "apply", "observe", "close"]

def canonicalizeCapabilitySetV1 (values : List String) : Checked (List String) :=
  if values.any fun capability => capability = "hello" || !validOperationName capability then
    .error "hello advertised invalid capability"
  else if ¬values.Nodup then .error "hello capabilities contain duplicate"
  else if ¬(∀ mandatory ∈ requiredCapabilitiesV1, mandatory ∈ values) then
    .error "hello result is missing required capability"
  else .ok (capabilityRegistryV1.filter (· ∈ values))

/-- The capabilities as a set. -/
def validateCapabilities (values : List String) : Checked (List String) := do
  let canonical ← canonicalizeCapabilitySetV1 values
  if values ≠ canonical then .error "hello capabilities are not in canonical v1 order"
  else .ok canonical

def requireCanonical (value : Json) : Checked Unit :=
  if (CanonicalJson.Go.canonicalize value).isSome then .ok () else .error "canonical adapter JSON"

def Operation.validate (operation : Operation) : Checked Unit :=
  match operation.name with
  | "hello" | "observe" | "snapshot" | "close" => .ok ()
  | "reset" =>
    if operation.seed ≠ "" ∧ isBlank operation.seed then
      .error "reset seed must be absent or nonempty"
    else .ok ()
  | "apply" => validateLabel "action" operation.action 256
  | "settle" =>
    if operation.maxSteps = 0 ∨ operation.maxSteps > maxSettleSteps then
      .error s!"settle maxSteps must be between 1 and {maxSettleSteps}"
    else .ok ()
  | "restore" => validateSHA256 "restore schemaHash" operation.schemaHash
  | "fault" => validateLabel "fault" operation.fault 256
  | _ => .error "unsupported operation"

def Request.validate (request : Request) : Checked Unit := do
  validateEnvelope request.protocol request.protocolVersion request.requestId request.machine
  validateGeneration request.generation
  request.operation.validate

def StreamError.validate (error : StreamError) : Checked Unit := do
  validateLabel "error code" error.code 128
  validateLabel "error message" error.message 4096
  if error.data ≠ .null then requireCanonical error.data else .ok ()

def Outcome.validate (outcome : Outcome) : Checked Unit :=
  match outcome.kind with
  | "ok" =>
    if outcome.error.isSome then .error "ok outcome cannot contain an error"
    else requireCanonical outcome.value
  | "error" | "unsupported" =>
    match outcome.error with
    | none => .error s!"{outcome.kind} outcome requires an error"
    | some error => error.validate
  | _ => .error "unsupported outcome kind"

def Response.validate (response : Response) : Checked Unit := do
  validateEnvelope response.protocol response.protocolVersion response.requestId response.machine
  validateGeneration response.generation
  if !validOperationName response.operation then .error "unsupported response operation"
  else do
    response.outcome.validate
    if response.operation = "hello" ∧ response.outcome.kind = "ok" then do
      let hello ← decodeHelloResult response.outcome.value
      let _ ← validateCapabilities hello.capabilities
      .ok ()
    else .ok ()

end OptoSync.Stream.Go
