import OptoSync.Decimal
import OptoSync.Json

/-!
# The queue of the PHP client

`Client.php`. A value of type `mixed` is a `Json` value: both a list and a nonempty associative
array are PHP arrays, and the rows of the queue stay such arrays. Strings are valid UTF-8, and
`json_encode` and `json_decode` are parameters.
-/
namespace OptoSync.Php

inductive Exception
  | invalidArgument (message : String)
  | runtime (message : String)
  | json
  deriving DecidableEq, Repr

/-- `json_encode` with the flags of the client, and `json_decode` to objects. Both may throw. -/
structure JsonExtension where
  encode : Json → Option String
  decode : String → Option Json

/-- The entries of an array, where `is_array` holds. Integer keys are written as decimals. -/
def entries : Json → Option (List (String × Json))
  | .object fields => some fields
  | .array items => some (items.zipIdx.map fun item => (item.2.repr, item.1))
  | _ => none

/-- `$v[$key] ?? null`. -/
def get (v : Json) (key : String) : Json :=
  match entries v with
  | some es => (es.lookup key).getD .null
  | none => .null

/-- `$row[$key] = $v`. -/
def set (key : String) (v : Json) : Json → Json
  | .object fields =>
    if (fields.lookup key).isSome then
      .object (fields.map fun f => if f.1 = key then (key, v) else f)
    else .object (fields ++ [(key, v)])
  | row => row

def stringOf : Json → String
  | .string value => value
  | _ => ""

def maxPostgresBigint : ℕ := 9223372036854775807
def maxProtocolBatch : ℕ := 100

def canonicalDigits (cs : List Char) : Bool :=
  match cs with
  | [] => false
  | ['0'] => true
  | c :: cs => c ≠ '0' && (c :: cs).all Char.isDigit

def isCanonicalDecimal : Json → Bool
  | .string value => canonicalDigits value.toList
  | _ => false

def isCanonicalPositiveDecimal : Json → Bool
  | .string value => canonicalDigits value.toList && value ≠ "0"
  | _ => false

def isSafePositiveIntegerString (value : Json) : Bool :=
  let maximum := maxPostgresBigint.repr
  isCanonicalPositiveDecimal value &&
    ((stringOf value).length < maximum.length ||
      (stringOf value).length = maximum.length && !decide (maximum < stringOf value))

/-- `(int) $value` of a decimal. -/
def intOf (value : String) : ℕ := Nat.ofDigitChars 10 value.toList 0

structure Client where
  clientId : Option String
  maxPendingMutations : ℤ
  maxPayloadBytes : ℤ
  mutations : List Json
  nextMutationId : ℕ
  checkpoint : String

def requireClientId (client : Client) : Except Exception String :=
  match client.clientId with
  | none => .error (.runtime "clientId is required for protocol queue operations")
  | some clientId => .ok clientId

def assertCoordinates (table recordId : String) (baseRevision : Option String) :
    Except Exception Unit :=
  if table = "" ∨ recordId = "" then
    .error (.invalidArgument "table and recordId must be non-empty")
  else if baseRevision.any (fun value => !isCanonicalDecimal (.string value)) then
    .error (.invalidArgument "baseRevision must be a canonical unsigned decimal string")
  else .ok ()

def pending (client : Client) : List Json :=
  client.mutations.filter fun mutation => get mutation "status" = .string "pending"

def enqueue (client : Client) (mutation : List (String × Json)) :
    Except Exception (Client × String) :=
  if (pending client).length ≥ client.maxPendingMutations then
    .error (.runtime "mutation queue is full")
  else if client.nextMutationId = maxPostgresBigint then
    .error (.runtime "mutation id space is exhausted")
  else
    let id := client.nextMutationId.repr
    .ok ({ client with
      nextMutationId := client.nextMutationId + 1
      mutations := client.mutations ++
        [.object (("mutationId", .string id) :: ("status", .string "pending") :: mutation)] }, id)

def nullable : Option String → Json
  | none => .null
  | some value => .string value

def enqueueUpsert (ext : JsonExtension) (client : Client) (table recordId : String)
    (payload : Json) (baseRevision : Option String) (resurrect : Bool) :
    Except Exception (Client × String) := do
  let _ ← requireClientId client
  assertCoordinates table recordId baseRevision
  if payload.isObject then
    match ext.encode payload with
    | none => .error .json
    | some payloadJson =>
      if payloadJson.utf8ByteSize > client.maxPayloadBytes then
        .error (.invalidArgument "upsert payload exceeds the configured byte limit")
      else
        enqueue client [
          ("operation", .string "upsert"), ("table", .string table),
          ("recordId", .string recordId), ("payloadJson", .string payloadJson),
          ("baseRevision", nullable baseRevision), ("resurrect", .bool resurrect)]
  else .error (.invalidArgument "upsert payload must be a JSON object")

def enqueueDelete (client : Client) (table recordId : String) (baseRevision : Option String) :
    Except Exception (Client × String) := do
  let _ ← requireClientId client
  assertCoordinates table recordId baseRevision
  enqueue client [
    ("operation", .string "delete"), ("table", .string table), ("recordId", .string recordId),
    ("baseRevision", nullable baseRevision)]

/-- One round of the loop of `buildPushRequest`. -/
def protocolMutation (ext : JsonExtension) (row : Json) : Except Exception Json :=
  let mutationId := stringOf (get row "mutationId")
  let common := [
    ("mutationId", Json.string mutationId), ("operation", get row "operation"),
    ("table", get row "table"), ("recordId", get row "recordId")]
  let withBase := if get row "baseRevision" ≠ .null then
    common ++ [("baseRevision", get row "baseRevision")] else common
  if get row "operation" = .string "upsert" then
    match ext.decode (stringOf (get row "payloadJson")) with
    | none => .error .json
    | some decoded =>
      if decoded.isObject then
        .ok (.object (withBase ++ [("payload", decoded)] ++
          if get row "resurrect" = .bool true then [("resurrect", .bool true)] else []))
      else .error (.runtime s!"mutation {mutationId} payload is not a JSON object")
  else .ok (.object withBase)

def protocolMutations (ext : JsonExtension) : Option ℕ → List Json → Except Exception (List Json)
  | _, [] => .ok []
  | priorId, row :: rows => do
    let mutationId := intOf (stringOf (get row "mutationId"))
    if priorId.any (fun prior => mutationId ≠ prior + 1) then
      .error (.runtime "pending mutations must be contiguous and insertion ordered")
    else
      let mutation ← protocolMutation ext row
      let mutations ← protocolMutations ext (some mutationId) rows
      .ok (mutation :: mutations)

def buildPushRequest (ext : JsonExtension) (client : Client) (limit : ℕ) :
    Except Exception Json := do
  let clientId ← requireClientId client
  if limit < 1 ∨ limit > maxProtocolBatch then
    .error (.invalidArgument "limit must be between 1 and 100")
  else
    let mutations ← protocolMutations ext none ((pending client).take limit)
    .ok (.object [
      ("protocolVersion", .number (.int 1)), ("clientId", .string clientId),
      ("mutations", .array mutations)])

/-- The check of the result that stands at the index of a mutation of the request. -/
def resultMatches (mutation result : Json) : Bool :=
  let status := get result "status"
  let originalStatus := get result "originalStatus"
  (entries mutation).isSome && (entries result).isSome &&
    get result "mutationId" = get mutation "mutationId" &&
    [.string "applied", .string "duplicate", .string "rejected"].contains status &&
    (get result "checkpoint" = .null || isCanonicalDecimal (get result "checkpoint")) &&
    (get result "revision" = .null || isCanonicalPositiveDecimal (get result "revision")) &&
    (originalStatus = .null ||
      [.string "applied", .string "rejected"].contains originalStatus) &&
    (decide (status = .string "duplicate") == decide (originalStatus ≠ .null))

/-- Whether the call returns; it throws "push acknowledgement does not match the sent batch"
otherwise. -/
def validatePushResponse (request response : Json) : Bool :=
  match entries (get request "mutations"), entries (get response "results") with
  | some requestMutations, some results =>
    match requestMutations.getLast? with
    | none => false
    | some lastRequestMutation =>
      get request "protocolVersion" = .number (.int 1) &&
        get response "protocolVersion" = .number (.int 1) &&
        get response "clientId" = get request "clientId" &&
        isCanonicalDecimal (get response "lastMutationId") &&
        isCanonicalDecimal (get response "checkpoint") &&
        results.length = requestMutations.length &&
        get response "lastMutationId" = get lastRequestMutation.2 "mutationId" &&
        requestMutations.all fun m => resultMatches m.2 ((results.lookup m.1).getD .null)
  | _, _ => false

/-- `$statusById[$id]`, where it is set. A later result replaces an earlier one. -/
def statusById (results : List (String × Json)) (id : Json) : Option Json :=
  (results.reverse.find? fun result => get result.2 "mutationId" = id).map fun result =>
    get result.2 "status"

def acknowledgePush (ext : JsonExtension) (client : Client) (request response : Json) :
    Except Exception Client := do
  if validatePushResponse request response then
    let count := ((entries (get request "mutations")).getD []).length
    let expected ← buildPushRequest ext client count
    match ext.encode expected, ext.encode request with
    | some expectedBody, some body =>
      if expectedBody = body then
        let results := (entries (get response "results")).getD []
        .ok { client with
          mutations := client.mutations.map fun mutation =>
            match statusById results (get mutation "mutationId") with
            | some status => set "status" status mutation
            | none => mutation
          checkpoint := stringOf (get response "checkpoint") }
      else .error (.runtime "push acknowledgement does not match the current pending batch")
    | _, _ => .error .json
  else .error (.runtime "push acknowledgement does not match the sent batch")

def exportQueue (client : Client) : Except Exception Json := do
  let clientId ← requireClientId client
  .ok (.object [
    ("schemaVersion", .number (.int 1)), ("clientId", .string clientId),
    ("nextMutationId", .string client.nextMutationId.repr),
    ("checkpoint", .string client.checkpoint), ("mutations", .array client.mutations)])

/-- The checks of one row of a snapshot; `ok` carries its number. -/
def restoreRow (ext : JsonExtension) (maxPayloadBytes : ℤ) (priorId : ℕ) (row : Json) :
    Except Exception ℕ :=
  if (entries row).isNone ∨ isSafePositiveIntegerString (get row "mutationId") = false then
    .error (.invalidArgument "invalid mutation in queue snapshot")
  else
    let id := intOf (stringOf (get row "mutationId"))
    if id ≠ priorId + 1 ∨
        [.string "pending", .string "applied", .string "duplicate", .string "rejected"].contains
          (get row "status") = false then
      .error (.invalidArgument "queue snapshot mutations must be contiguous and valid")
    else if stringOf (get row "table") = "" ∨ stringOf (get row "recordId") = "" ∨
        [.string "upsert", .string "delete"].contains (get row "operation") = false ∨
        (get row "baseRevision" ≠ .null ∧ isCanonicalDecimal (get row "baseRevision") = false) then
      .error (.invalidArgument "queue snapshot contains invalid mutation coordinates")
    else if get row "operation" = .string "upsert" then
      match get row "payloadJson" with
      | .string payloadJson =>
        if payloadJson.utf8ByteSize ≤ maxPayloadBytes then
          match ext.decode payloadJson with
          | none => .error .json
          | some payload =>
            if payload.isObject ∧ (get row "resurrect" = .bool true ∨
                get row "resurrect" = .bool false) then .ok id
            else .error (.invalidArgument "queue snapshot contains an invalid upsert payload")
        else .error (.invalidArgument "queue snapshot contains an invalid upsert payload")
      | _ => .error (.invalidArgument "queue snapshot contains an invalid upsert payload")
    else
      let keys := ((entries row).getD []).map Prod.fst
      if "payloadJson" ∈ keys ∨ "resurrect" ∈ keys then
        .error (.invalidArgument "queue snapshot delete contains upsert-only fields")
      else .ok id

def restoreRows (ext : JsonExtension) (maxPayloadBytes : ℤ) :
    ℕ → List Json → Except Exception ℕ
  | priorId, [] => .ok priorId
  | priorId, row :: rows => do
    let id ← restoreRow ext maxPayloadBytes priorId row
    restoreRows ext maxPayloadBytes id rows

def restoreQueue (ext : JsonExtension) (client : Client) (snapshot : Json) :
    Except Exception Client := do
  let clientId ← requireClientId client
  match entries (get snapshot "mutations") with
  | none => .error (.invalidArgument "invalid or foreign queue snapshot")
  | some rows =>
    if get snapshot "schemaVersion" ≠ .number (.int 1) ∨
        get snapshot "clientId" ≠ .string clientId ∨
        isSafePositiveIntegerString (get snapshot "nextMutationId") = false ∨
        isCanonicalDecimal (get snapshot "checkpoint") = false then
      .error (.invalidArgument "invalid or foreign queue snapshot")
    else
      let restored := rows.map Prod.snd
      let priorId ← restoreRows ext client.maxPayloadBytes 0 restored
      let nextMutationId := intOf (stringOf (get snapshot "nextMutationId"))
      let restoredClient := { client with
        mutations := restored, nextMutationId
        checkpoint := stringOf (get snapshot "checkpoint") }
      if (pending restoredClient).length > client.maxPendingMutations then
        .error (.invalidArgument "queue snapshot exceeds the configured pending limit")
      else if nextMutationId ≠ priorId + 1 then
        .error (.invalidArgument "queue snapshot next mutation id is inconsistent")
      else .ok restoredClient

end OptoSync.Php
