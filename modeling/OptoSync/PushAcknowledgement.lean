import OptoSync.DriftPush
import OptoSync.PullPageAgreement
import OptoSync.ProtocolQueueMergeRun

/-!
# Offered push responses

How each of the three clients takes a JSON value as the acknowledgement of a batch that it built.
The Rust client decodes the value first; the other two check it in place.
-/
namespace OptoSync
open Decimal Json

/-! ## The Rust client -/

def ResultStatus.wireName : ResultStatus → String
  | .applied => "applied"
  | .duplicate => "duplicate"
  | .rejected => "rejected"

def ResultStatus.read (value : Json) : Option ResultStatus :=
  match value.asVariant with
  | some "applied" => some .applied
  | some "duplicate" => some .duplicate
  | some "rejected" => some .rejected
  | _ => none

def MutationResult.fields : List String :=
  ["mutationId", "status", "originalStatus", "checkpoint", "revision", "code", "message"]

def PushResponse.fields : List String :=
  ["protocolVersion", "clientId", "lastMutationId", "checkpoint", "results"]

def MutationResult.fromValue (value : Json) : Option MutationResult := do
  let fields ← value.asFields MutationResult.fields
  let mutationId ← (member fields "mutationId").bind asString
  let status ← (member fields "status").bind ResultStatus.read
  let originalStatus ← asOption ResultStatus.read (member fields "originalStatus")
  let checkpoint ← asOption asString (member fields "checkpoint")
  let revision ← asOption asString (member fields "revision")
  let code ← asOption asString (member fields "code")
  let message ← asOption asString (member fields "message")
  pure { mutationId, status, originalStatus, checkpoint, revision, code, message }

def PushResponse.fromValue (value : Json) : Option PushResponse := do
  let fields ← value.asFields PushResponse.fields
  let protocolVersion ← (member fields "protocolVersion").bind asU8
  let clientId ← (member fields "clientId").bind asString
  let lastMutationId ← (member fields "lastMutationId").bind asString
  let checkpoint ← (member fields "checkpoint").bind asString
  let items ← (member fields "results").bind asArray
  let results ← items.mapM MutationResult.fromValue
  pure { protocolVersion, clientId, lastMutationId, checkpoint, results }

/-- The response decodes, and `acknowledge` takes it. -/
def ProtocolQueue.Accepts (q : ProtocolQueue) (request : PushRequest) (response : Json) : Prop :=
  ∃ decoded, PushResponse.fromValue response = some decoded ∧
    ∃ changed, (q.acknowledge decoded request).1 = .ok changed

/-! ## The TypeScript client -/

namespace SyncLoop

variable (numbers : NumberConversion)

/-- `decimal.test` of a property, which converts it to a text. -/
def decimalTest (pattern : String → Bool) (value : Option Json) : Bool :=
  pattern ((value.map (toText numbers)).getD "undefined")

def isOne : Option Json → Bool
  | some (.number value) => numbers.text value = "1"
  | _ => false

def resultMatches (expected : WireMutation) (result : Json) : Bool :=
  property result "mutationId" = some (.string expected.mutationId) &&
    [some (.string "applied"), some (.string "duplicate"), some (.string "rejected")].contains
      (property result "status") &&
    ((property result "checkpoint").isNone ||
      decimalTest numbers decimalPattern (property result "checkpoint")) &&
    ((property result "revision").isNone ||
      decimalTest numbers positiveDecimalPattern (property result "revision")) &&
    [none, some (.string "applied"), some (.string "rejected")].contains
      (property result "originalStatus") &&
    decide (property result "status" = some (.string "duplicate")) =
      (property result "originalStatus").isSome

def validatePushResponse (request : WirePush) (response : Json) : Except String Unit :=
  match property response "results" with
  | some (.array results) =>
    if request.protocolVersion ≠ 1 ∨ request.mutations = [] ∨
        isOne numbers (property response "protocolVersion") = false ∨
        property response "clientId" ≠ some (.string request.clientId) ∨
        decimalTest numbers decimalPattern (property response "lastMutationId") = false ∨
        decimalTest numbers decimalPattern (property response "checkpoint") = false ∨
        results.length ≠ request.mutations.length ∨
        property response "lastMutationId" ≠
          request.mutations.getLast?.map (fun m => .string m.mutationId) ∨
        (request.mutations.zip results).all (fun row => resultMatches numbers row.1 row.2) = false
    then .error "push acknowledgement does not match the sent batch"
    else .ok ()
  | _ => .error "push acknowledgement does not match the sent batch"

end SyncLoop

/-- `acknowledgePush` of a response as it arrives. -/
def OptoSyncClient.acknowledgeResponse (numbers : SyncLoop.NumberConversion)
    (parse : String → Option Json) (client : OptoSyncClient) (db : OptoSyncDatabase)
    (response : Json) (request : WirePush) : Except String OptoSyncDatabase := do
  SyncLoop.validatePushResponse numbers request response
  if request.clientId ≠ client.clientId then
    throw "push acknowledgement does not match the sent batch"
  let pending := db.pendingMutations
  let expected ← buildPushRequest parse client.clientId pending noOptions request.mutations.length
  if expected ≠ request then throw "push acknowledgement does not match the sent batch"
  let confirmed := pending.take request.mutations.length
  pure (db.updateStatus (confirmed.map LocalMutation.id) SyncStatus.synced)

/-! ## The Dart client -/

namespace Dart
open OptoSync.Dart.OptoSyncDatabase

/-- A key of a map; a missing one is null. -/
def entry (value : Json) (key : String) : Json := (SyncLoop.property value key).getD .null

def isDecimalString (pattern : String → Bool) : Json → Bool
  | .string value => pattern value
  | _ => false

def resultMatches (sent result : Json) : Bool :=
  sent.isObject && result.isObject && entry result "mutationId" = entry sent "mutationId" &&
    [.string "applied", .string "duplicate", .string "rejected"].contains (entry result "status") &&
    (entry result "checkpoint" = .null ||
      isDecimalString decimalPattern (entry result "checkpoint")) &&
    (entry result "revision" = .null ||
      isDecimalString positiveDecimalPattern (entry result "revision")) &&
    (entry result "originalStatus" = .null ||
      [.string "applied", .string "rejected"].contains (entry result "originalStatus")) &&
    decide (entry result "status" = .string "duplicate") =
      decide (entry result "originalStatus" ≠ .null)

/-- Both arguments are maps. -/
def OptoSyncClient.acknowledgePush (numbers : SyncLoop.NumberConversion)
    (jsonDecode : String → Option Json) (client : OptoSyncClient) (db : OptoSyncDatabase)
    (response request : Json) : Except String OptoSyncDatabase :=
  match response, entry request "mutations", entry response "results" with
  | .object _, .array requestMutations, .array results => do
    let terminal := (requestMutations.getLast?).getD .null
    if SyncLoop.isOne numbers (entry request "protocolVersion") = false ∨
        entry request "clientId" ≠ .string client.clientId ∨ requestMutations = [] ∨
        100 < requestMutations.length ∨
        SyncLoop.isOne numbers (entry response "protocolVersion") = false ∨
        entry response "clientId" ≠ .string client.clientId ∨
        isDecimalString decimalPattern (entry response "checkpoint") = false ∨
        results.length ≠ requestMutations.length ∨ terminal.isObject = false ∨
        isDecimalString decimalPattern (entry response "lastMutationId") = false ∨
        entry response "lastMutationId" ≠ entry terminal "mutationId" ∨
        (requestMutations.zip results).all (fun row => resultMatches row.1 row.2) = false then
      throw "push acknowledgement does not match the sent batch"
    let rows := (orderById (db.localMutations.filter fun row =>
      isPending row && row.clientId = some client.clientId)).take requestMutations.length
    let expected ← encodeProtocolRows jsonDecode client.clientId rows
    if expected ≠ request then throw "push acknowledgement does not match the sent batch"
    pure (db.markSynced (rows.map Mutation.id))
  | _, _, _ => .error "push acknowledgement does not match the sent batch"

end Dart
end OptoSync
