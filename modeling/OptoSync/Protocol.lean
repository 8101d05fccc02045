import OptoSync.Decimal
import OptoSync.Json

/-!
# Protocol v1 messages

The wire records of the Rust client and the identifier checks on them.
-/
namespace OptoSync

inductive ProtocolError
  | emptyClientId
  | invalidLimit
  | invalidQueueLimit
  | invalidPayload
  | invalidTarget
  | invalidQueueState
  | queueFull
  | payloadTooLarge
  | mutationIdExhausted
  | wrongClient
  | invalidAcknowledgement
  | invalidDecimal
  | invalidSnapshot
  | watermarkAhead
  deriving DecidableEq, Repr

inductive Operation
  | upsert
  | delete
  deriving DecidableEq, Repr

inductive LocalProtocolStatus
  | pending
  | confirmed
  deriving DecidableEq, Repr

structure ProtocolMutation where
  mutationId : String
  operation : Operation
  table : String
  recordId : String
  payload : Option Json
  baseRevision : Option String
  resurrect : Bool
  status : LocalProtocolStatus
  deriving DecidableEq

structure PushRequest where
  protocolVersion : ℕ
  clientId : String
  mutations : List ProtocolMutation
  deriving DecidableEq

inductive ResultStatus
  | applied
  | duplicate
  | rejected
  deriving DecidableEq, Repr

structure MutationResult where
  mutationId : String
  status : ResultStatus
  originalStatus : Option ResultStatus
  checkpoint : Option String
  revision : Option String
  code : Option String
  message : Option String
  deriving DecidableEq

structure PushResponse where
  protocolVersion : ℕ
  clientId : String
  lastMutationId : String
  checkpoint : String
  results : List MutationResult
  deriving DecidableEq

structure ChangeSource where
  clientId : String
  mutationId : String
  deriving DecidableEq

structure Change where
  checkpoint : String
  table : String
  recordId : String
  operation : Operation
  record : Option Json
  revision : String
  source : Option ChangeSource
  deriving DecidableEq

structure PullResponse where
  protocolVersion : ℕ
  checkpoint : String
  hasMore : Bool
  changes : List Change
  deriving DecidableEq

structure SnapshotRecord where
  table : String
  recordId : String
  record : Json
  revision : String
  deriving DecidableEq

structure SnapshotResponse where
  protocolVersion : ℕ
  checkpoint : String
  records : List SnapshotRecord
  deriving DecidableEq

inductive SnapshotInstallError (ε : Type)
  | protocol (error : ProtocolError)
  | replace (error : ε)
  deriving DecidableEq

def Consistency.remoteAcknowledged : String := "opto.consistency.remote-acknowledged.v1"
def Consistency.writeThroughLocalFirst : String := "opto.consistency.write-through-local-first.v1"
def Consistency.queuedLocalFirst : String := "opto.consistency.queued-local-first.v1"

inductive ConsistencyPolicy
  | remoteAcknowledged
  | writeThroughLocalFirst
  | queuedLocalFirst
  deriving DecidableEq, Repr

def ConsistencyPolicy.asStr : ConsistencyPolicy → String
  | .remoteAcknowledged => Consistency.remoteAcknowledged
  | .writeThroughLocalFirst => Consistency.writeThroughLocalFirst
  | .queuedLocalFirst => Consistency.queuedLocalFirst

def asciiAlphanumeric (c : Char) : Bool :=
  c.isDigit || ('a' ≤ c && c ≤ 'z') || ('A' ≤ c && c ≤ 'Z')

/-- Client ids and table names: at most 128 bytes of a restricted ASCII alphabet. -/
def validScopeId (value : String) : Bool :=
  match value.toList with
  | [] => false
  | first :: rest =>
    value.utf8ByteSize ≤ 128 && asciiAlphanumeric first &&
      rest.all fun c => asciiAlphanumeric c || c = '.' || c = '_' || c = ':' || c = '-'

/-- Record ids: nonempty, at most 512 characters. -/
def validRecordId (value : String) : Bool :=
  value.toList ≠ [] && value.length ≤ 512

def defaultMaxPendingMutations : ℕ := 10000
def defaultMaxQueuedPayloadBytes : ℕ := 255 * 1024

def validPushLimit (limit : ℕ) : Bool := 1 ≤ limit && limit ≤ 100

def canAllocateMutationId (nextMutationId : ℕ) : Bool :=
  1 ≤ nextMutationId && nextMutationId ≤ Decimal.maxI64

def watermarkIsValid (watermark nextMutationId : ℕ) : Bool := watermark < nextMutationId

/-- `u64::checked_add`. -/
def checkedAdd (a b : ℕ) : Option ℕ := if a + b ≤ Decimal.maxU64 then some (a + b) else none

theorem checkedAdd_eq_some {a b c : ℕ} :
    checkedAdd a b = some c ↔ a + b ≤ Decimal.maxU64 ∧ a + b = c := by
  simp [checkedAdd]

end OptoSync
