import OptoSync.CanonicalShape

/-!
# Encoding messages in Go

`EncodeMessage` of the Go adapter SDK. Its envelope is a map, in which the error of a response is a
struct: `Canonicalize` marshals it and reads it again.
-/
namespace OptoSync.Stream.Go

open CanonicalJson.Go (marshal maxNestingDepth numberText)

def skipDigits (cs : List Char) : List Char := cs.dropWhile Char.isDigit

def skipFraction : List Char → List Char
  | '.' :: c :: cs => if c.isDigit then skipDigits cs else '.' :: c :: cs
  | cs => cs

/-- `none` for a sign that nothing follows. -/
def skipExponent : List Char → Option (List Char)
  | e :: c :: cs =>
    if e = 'e' ∨ e = 'E' then
      if c = '+' ∨ c = '-' then if cs = [] then none else some (skipDigits cs)
      else some (skipDigits (c :: cs))
    else some (e :: c :: cs)
  | cs => some cs

/-- `isValidNumber` of `encoding/json`. -/
def isValidNumber (text : String) : Bool :=
  let digits := match text.toList with
    | '-' :: cs => cs
    | cs => cs
  match digits with
  | [] => false
  | '0' :: cs => skipExponent (skipFraction cs) = some []
  | c :: cs => c.isDigit && skipExponent (skipFraction (skipDigits cs)) = some []

mutual
/-- Every `json.Number` is a numeral. -/
def marshals : Json → Bool
  | .number value => isValidNumber (numberText value)
  | .array items => marshalsItems items
  | .object fields => marshalsFields fields
  | _ => true

def marshalsItems : List Json → Bool
  | [] => true
  | v :: vs => marshals v && marshalsItems vs

def marshalsFields : List (String × Json) → Bool
  | [] => true
  | (_, v) :: fs => marshals v && marshalsFields fs
end

/-- A key that is left out for the zero value. -/
def omitted (key : String) (value : Json) (zero : Bool) : List (String × Json) :=
  if zero then [] else [(key, value)]

def Operation.fields (operation : Operation) : List (String × Json) :=
  match operation.name with
  | "reset" =>
    [("initialState", operation.initialState), ("logicalTime", operation.logicalTime)] ++
      omitted "seed" (.string operation.seed) (operation.seed = "")
  | "apply" =>
    [("action", .string operation.action), ("logicalTime", operation.logicalTime),
      ("arguments", operation.arguments)]
  | "settle" => [("maxSteps", .number (.int operation.maxSteps))]
  | "restore" =>
    [("snapshot", operation.snapshot), ("schemaHash", .string operation.schemaHash)]
  | "fault" => [("fault", .string operation.fault), ("arguments", operation.arguments)]
  | _ => []

def Operation.object (operation : Operation) : Json :=
  .object (("name", .string operation.name) :: operation.fields)

def Request.object (request : Request) : Json :=
  .object [("protocol", .string request.protocol),
    ("protocolVersion", .number (.int request.protocolVersion)),
    ("requestId", .string request.requestId), ("machine", .string request.machine),
    ("generation", .number (.int request.generation)), ("operation", request.operation.object)]

def requestObject (request : Request) : Checked Json := do
  request.validate
  .ok request.object

def StreamError.object (error : StreamError) : Json :=
  .object ([("code", .string error.code), ("message", .string error.message),
    ("retryable", .bool error.retryable)] ++ omitted "data" error.data (error.data = .null))

def Outcome.object (outcome : Outcome) : Json :=
  if outcome.kind = "ok" then
    .object [("kind", .string outcome.kind), ("value", outcome.value)]
  else
    .object [("kind", .string outcome.kind),
      ("error", (outcome.error.map StreamError.object).getD .null)]

def Response.object (response : Response) : Json :=
  .object [("protocol", .string response.protocol),
    ("protocolVersion", .number (.int response.protocolVersion)),
    ("requestId", .string response.requestId), ("machine", .string response.machine),
    ("generation", .number (.int response.generation)),
    ("operation", .string response.operation), ("outcome", response.outcome.object)]

/-- The struct of an error gets through `json.Marshal` and the decoder after it. -/
def StreamError.normalizes (error : StreamError) : Bool :=
  marshals error.object && error.object.depth ≤ maxNestingDepth

/-- The error of a response is normalized where it is used. -/
def responseObject (response : Response) : Checked Json := do
  response.validate
  if response.outcome.kind ≠ "ok" ∧ response.outcome.error.any (fun error => !error.normalizes) then
    .error "marshal canonical value"
  else .ok response.object

def envelope (kind : String) (encoded : Json) : Json :=
  .object [("kind", .string kind), ("message", encoded)]

def messageObject (message : Message) : Checked Json :=
  match message.kind with
  | "request" =>
    match message.request, message.response with
    | some request, none => do
      let encoded ← requestObject request
      .ok (envelope "request" encoded)
    | _, _ => .error "request message must contain exactly one request"
  | "response" =>
    match message.response, message.request with
    | some response, none => do
      let encoded ← responseObject response
      .ok (envelope "response" encoded)
    | _, _ => .error "response message must contain exactly one response"
  | _ => .error "unknown stream message kind"

def encodeMessage (message : Message) : Checked (List UInt8) := do
  let envelope ← messageObject message
  match CanonicalJson.Go.canonicalize envelope with
  | none => .error "canonical adapter JSON"
  | some canonical => .ok (Document.encode (marshal canonical).toList)

end OptoSync.Stream.Go
