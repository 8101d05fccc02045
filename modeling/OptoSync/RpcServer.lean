import OptoSync.BoundedLines
import OptoSync.JsonBytes
import OptoSync.StreamLine

/-!
# The JSON-RPC server

`run_server` of `fmctl`. The application with its reports, the numbers that `serde_json` makes of
numerals, the texts of its errors and the writer are parameters.
-/
namespace OptoSync

mutual
/-- The value with its numbers as they are held. -/
def Json.renumber (number : JsonNumber → JsonNumber) : Json → Json
  | .number n => .number (number n)
  | .array items => .array (renumberItems number items)
  | .object fields => .object (renumberFields number fields)
  | v => v

def Json.renumberItems (number : JsonNumber → JsonNumber) : List Json → List Json
  | [] => []
  | v :: vs => renumber number v :: renumberItems number vs

def Json.renumberFields (number : JsonNumber → JsonNumber) :
    List (String × Json) → List (String × Json)
  | [] => []
  | (k, v) :: fs => (k, renumber number v) :: renumberFields number fs
end

namespace Rpc
open OptoSync.Stream (Field isAsciiWhitespace)

structure SerdeJson where
  inRange : JsonNumber → Bool
  number : JsonNumber → JsonNumber
  number_visible : ∀ n, (Json.number (number n)).visibleFloats = true
  /-- The errors of `from_slice`, and of `from_value` for a request and for parameters. -/
  lineDetail : List UInt8 → String
  requestDetail : Json → String
  paramsDetail : Json → String

def SerdeJson.fromSlice (serde : SerdeJson) (line : List UInt8) : Option Json := do
  let d ← Document.read line
  if Stream.Serde.visits serde.inRange Stream.Serde.recursionLimit d then
    some (d.value.renumber serde.number)
  else none

/-- A derived struct: the items of an array in order, or the fields of an object. -/
def structOf (fields : List Field) (denyUnknown : Bool) : Json → Option (String → Option Json)
  | .array items =>
    if items.length ≤ fields.length ∧ ∀ f ∈ fields.drop items.length, f.default = true then
      some fun name => ((fields.map Field.name).zip items).lookup name
    else none
  | .object members =>
    if (denyUnknown = true → ∀ m ∈ members, m.1 ∈ fields.map Field.name) ∧
        ∀ f ∈ fields, f.default = false → f.name ∈ members.map Prod.fst then
      some fun name => members.lookup name
    else none
  | _ => none

def text : Json → Option String
  | .string value => some value
  | _ => none

def texts : Json → Option (List String)
  | .array items => items.mapM text
  | _ => none

def bool : Json → Option Bool
  | .bool value => some value
  | _ => none

/-- `Option<String>` -/
def optionalText : Json → Option (Option String)
  | .null => some none
  | v => (text v).map some

/-- A field with a default. -/
def orDefault {α : Type} (read : Json → Option α) (absent : α) : Option Json → Option α
  | none => some absent
  | some v => read v

structure RpcRequest where
  jsonrpc : String
  id : Option Json
  method : String
  params : Json

def requestFields : List Field :=
  [{ name := "jsonrpc" }, { name := "id", default := true }, { name := "method" },
    { name := "params", default := true }]

def readRequest (value : Json) : Option RpcRequest := do
  let field ← structOf requestFields false value
  let jsonrpc ← field "jsonrpc" >>= text
  let method ← field "method" >>= text
  some ⟨jsonrpc, field "id", method, (field "params").getD .null⟩

structure OperationParams where
  operation : Option String := none
  dryRun : Bool := false
  output : Option String := none
  adapter : Option String := none
  traces : List String := []

def paramsFields : List Field :=
  ["operation", "dry_run", "output", "adapter", "traces"].map fun name =>
    { name, default := true }

def readParams (value : Json) : Option OperationParams := do
  let field ← structOf paramsFields true value
  let operation ← orDefault optionalText none (field "operation")
  let dryRun ← orDefault bool false (field "dry_run")
  let output ← orDefault optionalText none (field "output")
  let adapter ← orDefault optionalText none (field "adapter")
  let traces ← orDefault texts [] (field "traces")
  some { operation, dryRun, output, adapter, traces }

inductive Operation
  | check
  | simulate
  | verify
  | trace (output : Option String)
  | replay (adapter : String) (traces : List String)

structure RpcError where
  code : ℤ
  message : String
  data : Option Json

structure RpcResponse where
  id : Json
  result : Option Json
  error : Option RpcError

namespace RpcResponse

def success (id result : Json) : RpcResponse := ⟨id, some result, none⟩

def failure (id : Json) (error : RpcError) : RpcResponse := ⟨id, none, some error⟩

end RpcResponse

def RpcError.json (e : RpcError) : Json :=
  .object ([("code", .number (.int e.code)), ("message", .string e.message)] ++
    e.data.toList.map fun data => ("data", data))

def RpcResponse.json (r : RpcResponse) : Json :=
  .object ([("jsonrpc", .string "2.0"), ("id", r.id)] ++
    (r.result.toList.map fun result => ("result", result)) ++
      r.error.toList.map fun error => ("error", error.json))

/-- What `write_response` writes. -/
def RpcResponse.line (r : RpcResponse) : List UInt8 :=
  Document.encode (Json.print (fun _ => false) r.json) ++ [newline]

structure FmError where
  exitCode : ℕ
  text : String

/-- What `serde_json::to_value` makes of a report; a path need not be text. -/
structure Report where
  toValue : Except String Json
  visible : ∀ value, toValue = .ok value → value.visibleFloats = true

/-- It works on what is outside the server. -/
structure App (σ : Type) where
  validate : σ → σ × Except FmError Report
  doctor : σ → σ × Except FmError Report
  plan : Operation → σ → σ × Except FmError Report
  executeWithReportBundle : Operation → σ → σ × Except FmError Report

def RpcError.fromFm (error : FmError) : RpcError where
  code := -32000 - error.exitCode
  message := error.text
  data := some (.object [("exit_code", .number (.int error.exitCode))])

def RpcError.fromJson (detail : String) : RpcError where
  code := -32603
  message := "internal JSON serialization error"
  data := some (.object [("detail", .string detail)])

/-- What comes of a call. -/
inductive Dispatched
  | answer (answer : Except RpcError Json)
  | panic

def capabilities : Json :=
  .object [("adapter_protocol", .string "fmctl.adapter.v1"), ("execution", .string "serial"),
    ("methods", .array (["fm.capabilities", "fm.validate", "fm.doctor", "fm.plan", "fm.check",
      "fm.simulate", "fm.verify", "fm.trace", "fm.replay", "fm.shutdown"].map .string)),
    ("report_bundle_schema", .string "fm.report-bundle.v1"), ("schema_version", .number (.int 1)),
    ("transport", .string "json-rpc-2.0-stdio")]

def parseParams (serde : SerdeJson) (params : Json) : Except RpcError OperationParams :=
  if params = .null then .ok {}
  else
    match readParams params with
    | some params => .ok params
    | none => .error ⟨-32602, "invalid params",
        some (.object [("detail", .string (serde.paramsDetail params))])⟩

def operationFromName (name : String) (params : OperationParams) : Except RpcError Operation :=
  match name with
  | "check" => .ok .check
  | "simulate" => .ok .simulate
  | "verify" => .ok .verify
  | "trace" => .ok (.trace params.output)
  | "replay" =>
    match params.adapter with
    | some adapter => .ok (.replay adapter params.traces)
    | none => .error ⟨-32602, "replay requires params.adapter", none⟩
  | _ => .error ⟨-32602, s!"unsupported operation: {name}", none⟩

section

variable {σ : Type} (serde : SerdeJson) (app : App σ) (s : σ)

def reportOf (answer : σ × Except FmError Report) : σ × Dispatched :=
  (answer.1, .answer (match answer.2 with
    | .error error => .error (.fromFm error)
    | .ok report => report.toValue.mapError .fromJson))

/-- The macro `json!` around a report unwraps what `to_value` gives. -/
def jsonOf (answer : σ × Except FmError Report) (json : Json → Json) : σ × Dispatched :=
  (answer.1, match answer.2 with
    | .error error => .answer (.error (.fromFm error))
    | .ok report =>
      match report.toValue with
      | .ok value => .answer (.ok (json value))
      | .error _ => .panic)

def planned (operation : Operation) : σ × Dispatched :=
  jsonOf (app.plan operation s) fun plan => .object [("kind", .string "plan"), ("plan", plan)]

/-- The methods that name an operation, without their `fm.`. -/
def operate (name : String) (params : Json) : σ × Dispatched :=
  match parseParams serde params with
  | .error error => (s, .answer (.error error))
  | .ok params =>
    match operationFromName name params with
    | .error error => (s, .answer (.error error))
    | .ok operation =>
      if params.dryRun then planned app s operation
      else jsonOf (app.executeWithReportBundle operation s) fun execution =>
        .object [("execution", execution), ("kind", .string "execution")]

def planMethod (params : Json) : σ × Dispatched :=
  match parseParams serde params with
  | .error error => (s, .answer (.error error))
  | .ok params =>
    match params.operation with
    | none => (s, .answer (.error ⟨-32602, "fm.plan requires params.operation", none⟩))
    | some name =>
      match operationFromName name params with
      | .error error => (s, .answer (.error error))
      | .ok operation => planned app s operation

def dispatch (method : String) (params : Json) : σ × Dispatched :=
  match method with
  | "fm.capabilities" => (s, .answer (.ok capabilities))
  | "fm.validate" => reportOf (app.validate s)
  | "fm.doctor" => reportOf (app.doctor s)
  | "fm.plan" => planMethod serde app s params
  | "fm.check" => operate serde app s "check" params
  | "fm.simulate" => operate serde app s "simulate" params
  | "fm.verify" => operate serde app s "verify" params
  | "fm.trace" => operate serde app s "trace" params
  | "fm.replay" => operate serde app s "replay" params
  | "fm.shutdown" => (s, .answer (.ok (.object [("shutdown", .bool true)])))
  | _ => (s, .answer (.error ⟨-32601, s!"method not found: {method}", none⟩))

def idAllowed : Json → Bool
  | .null | .string _ | .number _ => true
  | _ => false

/-- How the server goes on after a line. -/
inductive Course
  | next
  | shutdown
  | panic
  deriving DecidableEq

/-- What the server does about a line. -/
structure Reaction (σ : Type) where
  state : σ
  response : Option RpcResponse
  course : Course

def respond (request : RpcRequest) : Reaction σ :=
  let id := request.id.getD .null
  let unlessNotification response := if request.id.isNone then none else some response
  if idAllowed id = false then
    ⟨s, unlessNotification (.failure .null
      ⟨-32600, "request id must be a string, number, or null", none⟩), .next⟩
  else if request.jsonrpc ≠ "2.0" then
    ⟨s, unlessNotification (.failure id ⟨-32600, "jsonrpc must be exactly '2.0'", none⟩), .next⟩
  else
    match dispatch serde app s request.method request.params with
    | (s, .panic) => ⟨s, none, .panic⟩
    | (s, .answer answer) =>
      let response := match answer with
        | .ok result => .success id result
        | .error error => .failure id error
      ⟨s, unlessNotification response,
        if request.method = "fm.shutdown" then .shutdown else .next⟩

def react : Reported → Reaction σ
  | .eof => ⟨s, none, .shutdown⟩
  | .oversized =>
    ⟨s, some (.failure .null ⟨-32600, s!"request exceeds {maxRequestBytes} bytes", none⟩), .next⟩
  | .line line =>
    if line.all isAsciiWhitespace then ⟨s, none, .next⟩
    else
      match serde.fromSlice line with
      | none =>
        ⟨s, some (.failure .null ⟨-32700, "parse error",
          some (.object [("detail", .string (serde.lineDetail line))])⟩), .next⟩
      | some value =>
        match readRequest value with
        | none =>
          ⟨s, some (.failure .null ⟨-32600, "invalid request",
            some (.object [("detail", .string (serde.requestDetail value))])⟩), .next⟩
        | some request => respond serde app s request

/-- How far each response is written before the writer fails, if it does. -/
abbrev Writer := ℕ → Option (ℕ × FmError)

inductive Verdict
  | ok
  | failed (error : FmError)
  | panicked

structure Served (σ : Type) where
  state : σ
  /-- The responses that were written. -/
  responses : List RpcResponse
  output : List UInt8
  reader : BufRead
  verdict : Verdict

def Served.after (response : RpcResponse) (served : Served σ) : Served σ :=
  { served with
    responses := response :: served.responses
    output := response.line ++ served.output }

def runServer (serde : SerdeJson) (app : App σ) (s : σ) (reader : BufRead) (writer : Writer) :
    Served σ :=
  let read := readBoundedLine reader
  if _hend : read.1 = .eof then ⟨s, [], [], read.2.2, .ok⟩
  else
    let reaction := react serde app s (report read.1 read.2.1)
    if reaction.course = .panic then ⟨reaction.state, [], [], read.2.2, .panicked⟩
    else
      match reaction.response with
      | none =>
        if reaction.course = .shutdown then ⟨reaction.state, [], [], read.2.2, .ok⟩
        else runServer serde app reaction.state read.2.2 writer
      | some response =>
        match writer 0 with
        | some (written, error) =>
          ⟨reaction.state, [], response.line.take written, read.2.2, .failed error⟩
        | none =>
          if reaction.course = .shutdown then
            Served.after response ⟨reaction.state, [], [], read.2.2, .ok⟩
          else
            (runServer serde app reaction.state read.2.2 fun call => writer (call + 1)).after
              response
termination_by reader.stream.length
decreasing_by all_goals exact readBoundedLine_shorter _hend

end

end Rpc

end OptoSync
