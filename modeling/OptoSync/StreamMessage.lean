import OptoSync.CanonicalJson

/-!
# Messages of the adapter stream

`StreamMessage` of `fmctl` and `Message` of the Go adapter SDK, each with its validation. Numbers of
the message types are unbounded here, values are JSON values.
-/
namespace OptoSync.Stream

open CanonicalJson (canonicalizeJson)

def streamAdapterProtocol : String := "fm.adapter.stream.v1"
def streamAdapterProtocolVersion : ℕ := 1
def maxStreamGeneration : ℕ := 9007199254740991
def maxRequestId : ℕ := maxStreamGeneration
def maxSettleSteps : ℕ := 1000000

inductive StreamOperationName
  | hello | reset | apply | observe | settle | snapshot | restore | fault | close
  deriving DecidableEq, Repr

inductive StreamOperation
  | hello
  | reset (initialState : Json) (seed : Option String) (logicalTime : Json)
  | apply (action : String) (arguments logicalTime : Json)
  | observe
  | settle (maxSteps : ℕ)
  | snapshot
  | restore (snapshot : Json) (schemaHash : String)
  | fault (fault : String) (arguments : Json)
  | close

structure StreamRequest where
  protocol : String
  protocolVersion : ℕ
  requestId : String
  machine : String
  generation : ℕ
  operation : StreamOperation

structure StreamError where
  code : String
  message : String
  retryable : Bool
  data : Option Json

inductive StreamOutcome
  | ok (value : Json)
  | error (error : StreamError)
  | unsupported (error : StreamError)

structure StreamResponse where
  protocol : String
  protocolVersion : ℕ
  requestId : String
  machine : String
  generation : ℕ
  operation : StreamOperationName
  outcome : StreamOutcome

inductive StreamMessage
  | request (request : StreamRequest)
  | response (response : StreamResponse)

structure StreamImplementation where
  language : String
  name : String
  version : String
  deriving DecidableEq

structure HelloResult where
  implementation : StreamImplementation
  capabilities : List StreamOperationName
  canonicalStateSchemaHash : String
  deriving DecidableEq

/-- `Invalid`. The texts of the JSON library are left out. -/
abbrev Checked (α : Type) := Except String α

def StreamOperation.name : StreamOperation → StreamOperationName
  | .hello => .hello
  | .reset _ _ _ => .reset
  | .apply _ _ _ => .apply
  | .observe => .observe
  | .settle _ => .settle
  | .snapshot => .snapshot
  | .restore _ _ => .restore
  | .fault _ _ => .fault
  | .close => .close

def StreamOperationName.wireName : StreamOperationName → String
  | .hello => "hello"
  | .reset => "reset"
  | .apply => "apply"
  | .observe => "observe"
  | .settle => "settle"
  | .snapshot => "snapshot"
  | .restore => "restore"
  | .fault => "fault"
  | .close => "close"

def streamCapabilityRegistryV1 : List StreamOperationName :=
  [.reset, .apply, .observe, .settle, .snapshot, .restore, .fault, .close]

def streamRequiredCapabilitiesV1 : List StreamOperationName := [.reset, .apply, .observe, .close]

/-- Unicode `White_Space`, what `trim` and `TrimSpace` remove. -/
def isWhiteSpace (c : Char) : Bool :=
  let n := c.toNat
  (0x09 ≤ n && n ≤ 0x0d) || n = 0x20 || n = 0x85 || n = 0xa0 || n = 0x1680 ||
    (0x2000 ≤ n && n ≤ 0x200a) || n = 0x2028 || n = 0x2029 || n = 0x202f || n = 0x205f || n = 0x3000

/-- Unicode `Cc`. -/
def isControl (c : Char) : Bool := c.toNat ≤ 0x1f || (0x7f ≤ c.toNat && c.toNat ≤ 0x9f)

/-- `value.trim().is_empty()` -/
def isBlank (value : String) : Bool := value.toList.all isWhiteSpace

def validateDecimal (label value : String) (allowNegative : Bool) : Checked Unit :=
  let digits := match value.toList with
    | '-' :: cs => cs
    | cs => cs
  if value.toList.head? = some '-' ∧ allowNegative = false then
    .error s!"{label} must be an unsigned canonical decimal string"
  else if digits = [] ∨ digits.all Char.isDigit = false ∨
      (1 < digits.length ∧ digits.head? = some '0') ∨ value = "-0" then
    .error s!"{label} must be a canonical decimal string"
  else .ok ()

def parseRequestId (value : String) : Checked ℕ := do
  validateDecimal "requestId" value false
  match Decimal.parseU64 value with
  | none => .error "requestId exceeds the protocol integer range"
  | some parsed =>
    if parsed = 0 ∨ maxRequestId < parsed then
      .error s!"requestId must be between 1 and {maxRequestId}"
    else .ok parsed

def validateLabel (label value : String) (max : ℕ) : Checked Unit :=
  if isBlank value ∨ max < value.utf8ByteSize ∨ value.toList.any isControl then
    .error s!"{label} must be nonempty, at most {max} bytes, and contain no control characters"
  else .ok ()

def isLowerHex (c : Char) : Bool := c.isDigit || ('a' ≤ c && c ≤ 'f')

def validateSha256 (label value : String) : Checked Unit :=
  if "sha256:".toList <+: value.toList then
    let digest := value.toList.drop 7
    if (String.ofList digest).utf8ByteSize ≠ 64 ∨ digest.all isLowerHex = false then
      .error s!"{label} must contain exactly 64 lowercase hexadecimal digits"
    else .ok ()
  else .error s!"{label} must use sha256:<hex>"

def validateEnvelope (protocol : String) (protocolVersion : ℕ) (requestId machine : String) :
    Checked Unit :=
  if protocol ≠ streamAdapterProtocol then
    .error s!"protocol must be exactly {streamAdapterProtocol}"
  else if protocolVersion ≠ streamAdapterProtocolVersion then
    .error s!"protocolVersion must be {streamAdapterProtocolVersion}"
  else do
    let _ ← parseRequestId requestId
    validateLabel "machine" machine 256

def validateGeneration (value : ℕ) : Checked Unit :=
  if maxStreamGeneration < value then
    .error s!"generation must be between 0 and {maxStreamGeneration}"
  else .ok ()

/-- `canonicalize_json(value)?` -/
def requireCanonical (value : Json) : Checked Unit :=
  if (canonicalizeJson value).isSome then .ok () else .error "canonical adapter JSON"

def capabilityOf (name : String) : Option StreamOperationName :=
  (StreamOperationName.hello :: streamCapabilityRegistryV1).find? fun c => c.wireName = name

def asString : Json → Option String
  | .string value => some value
  | _ => none

/-- The fields of a derived struct: an array lists them, an object has each exactly once. -/
def structFields (names : List String) : Json → Option (List Json)
  | .array items => if items.length = names.length then some items else none
  | .object fields =>
    if fields.length = names.length ∧ (fields.map Prod.fst).Nodup then names.mapM fun name => fields.lookup name
    else none
  | _ => none

/-- A unit variant is its name, or an object with the name and `null`. -/
def decodeOperationName : Json → Option StreamOperationName
  | .string name => capabilityOf name
  | .object [(name, .null)] => capabilityOf name
  | _ => none

def decodeImplementation (value : Json) : Option StreamImplementation := do
  match ← structFields ["language", "name", "version"] value with
  | [language, name, version] =>
    some { language := ← asString language, name := ← asString name, version := ← asString version }
  | _ => none

def decodeHelloResult (value : Json) : Option HelloResult := do
  match ← structFields ["implementation", "capabilities", "canonicalStateSchemaHash"] value with
  | [implementation, .array capabilities, hash] =>
    some { implementation := ← decodeImplementation implementation,
           capabilities := ← capabilities.mapM decodeOperationName,
           canonicalStateSchemaHash := ← asString hash }
  | _ => none

def canonicalizeCapabilitySetV1 (capabilities : List StreamOperationName) :
    Checked (List StreamOperationName) :=
  if .hello ∈ capabilities then .error "hello capabilities must not advertise hello"
  else if ¬capabilities.Nodup then .error "hello capabilities contain duplicate"
  else if ¬(∀ c ∈ streamRequiredCapabilitiesV1, c ∈ capabilities) then
    .error "hello result is missing required capabilities"
  else .ok (streamCapabilityRegistryV1.filter (· ∈ capabilities))

def HelloResult.validate (hello : HelloResult) : Checked Unit := do
  validateLabel "implementation language" hello.implementation.language 128
  validateLabel "implementation name" hello.implementation.name 256
  validateLabel "implementation version" hello.implementation.version 256
  validateSha256 "canonicalStateSchemaHash" hello.canonicalStateSchemaHash
  let canonical ← canonicalizeCapabilitySetV1 hello.capabilities
  if canonical ≠ hello.capabilities then .error "hello capabilities are not in canonical v1 order"
  else .ok ()

/-- `decode_hello_result(value)?` -/
def requireHello (value : Json) : Checked HelloResult :=
  match decodeHelloResult value with
  | none => .error "hello success value does not match the capability contract"
  | some hello => .ok hello

def StreamError.validate (error : StreamError) : Checked Unit := do
  validateLabel "error code" error.code 128
  validateLabel "error message" error.message 4096
  match error.data with
  | some data => requireCanonical data
  | none => .ok ()

def StreamOperation.validate : StreamOperation → Checked Unit
  | .hello | .observe | .snapshot | .close => .ok ()
  | .reset initialState seed logicalTime => do
    requireCanonical initialState
    requireCanonical logicalTime
    if seed.any isBlank then .error "reset seed must be absent or nonempty" else .ok ()
  | .apply action arguments logicalTime => do
    validateLabel "action" action 256
    requireCanonical arguments
    requireCanonical logicalTime
  | .settle maxSteps =>
    if maxSteps = 0 ∨ maxSettleSteps < maxSteps then
      .error s!"settle maxSteps must be between 1 and {maxSettleSteps}"
    else .ok ()
  | .restore stored schemaHash => do
    requireCanonical stored
    validateSha256 "restore schemaHash" schemaHash
  | .fault label arguments => do
    validateLabel "fault" label 256
    requireCanonical arguments

def StreamRequest.validate (request : StreamRequest) : Checked Unit := do
  validateEnvelope request.protocol request.protocolVersion request.requestId request.machine
  validateGeneration request.generation
  request.operation.validate

def StreamResponse.validate (response : StreamResponse) : Checked Unit := do
  validateEnvelope response.protocol response.protocolVersion response.requestId response.machine
  validateGeneration response.generation
  match response.operation, response.outcome with
  | .hello, .ok value => do
    let hello ← requireHello value
    hello.validate
    requireCanonical value
  | _, .ok value => requireCanonical value
  | _, .error error | _, .unsupported error => error.validate

def StreamMessage.validate : StreamMessage → Checked Unit
  | .request message => message.validate
  | .response message => message.validate

end OptoSync.Stream
