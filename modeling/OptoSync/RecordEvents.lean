import OptoSync.Json

/-!
# Record events

The contracts of the reactive packages: events of a record, the key by which a repeated one is
known, and the key of a session. TypeScript and Dart share them.
-/
namespace OptoSync.Reactive

/-- The language's own functions on keys and JSON values. Only null is written as null. -/
structure JsonHost where
  keyLe : String → String → Bool
  stringify : Json → String
  encodeComponent : String → String
  stringify_null : ∀ value, stringify value = stringify .null → value = .null

inductive SyncRecordAuthority
  | localView | authoritative
  deriving DecidableEq

structure SyncSessionIdentity where
  sharedUserId : String
  provider : String
  providerTenant : String
  sessionId : Option String
  deriving DecidableEq

/-- A payload of none is null. -/
structure SyncRecordEvent where
  table : String
  recordId : String
  operation : String
  payload : Json
  revision : String
  authority : SyncRecordAuthority
  pending : Bool
  dedupeKey : Option String
  sessionPartition : String
  deriving DecidableEq

namespace JsonHost

variable (host : JsonHost)

/-- Stable queue and storage partition. -/
def storagePartitionKey (identity : SyncSessionIdentity) : String :=
  ":".intercalate ([identity.provider, identity.providerTenant, identity.sharedUserId].map
    host.encodeComponent)

def transportSessionKey (identity : SyncSessionIdentity) : String :=
  host.storagePartitionKey identity ++ ":" ++
    host.encodeComponent (identity.sessionId.getD "sessionless")

mutual
/-- The value with the fields of all its objects sorted. -/
def stable : Json → Json
  | .array items => .array (stableItems items)
  | .object fields => .object ((stableFields fields).mergeSort fun a b => host.keyLe a.1 b.1)
  | value => value

def stableItems : List Json → List Json
  | [] => []
  | item :: items => stable item :: stableItems items

def stableFields : List (String × Json) → List (String × Json)
  | [] => []
  | (key, value) :: fields => (key, stable value) :: stableFields fields
end

def stableJson (value : Json) : String := host.stringify (host.stable value)

def recordEventDedupeKey (event : SyncRecordEvent) : String :=
  event.dedupeKey.getD <| "\x00".intercalate [event.sessionPartition, event.table, event.recordId,
    event.operation, event.revision, host.stableJson event.payload]

def sameProjectedValue (left right : Json) : Bool := host.stableJson left = host.stableJson right

theorem stable_eq_null {value : Json} (h : host.stable value = .null) : value = .null := by
  cases value <;> simp_all [stable]

theorem sameProjectedValue_null {value : Json} :
    host.sameProjectedValue value .null = true ↔ value = .null := by
  rw [sameProjectedValue, decide_eq_true_eq]
  constructor
  · intro h
    exact host.stable_eq_null (host.stringify_null _ h)
  · intro h
    rw [h]

theorem sameProjectedValue_refl (value : Json) : host.sameProjectedValue value value = true :=
  decide_eq_true rfl

variable {host}

theorem sameProjectedValue_symm {left right : Json} (h : host.sameProjectedValue left right = true) :
    host.sameProjectedValue right left = true :=
  decide_eq_true (of_decide_eq_true h).symm

theorem sameProjectedValue_trans {left middle right : Json}
    (hleft : host.sameProjectedValue left middle = true)
    (hright : host.sameProjectedValue middle right = true) :
    host.sameProjectedValue left right = true :=
  decide_eq_true ((of_decide_eq_true hleft).trans (of_decide_eq_true hright))

end JsonHost

/-- What both packages do by default with the authoritative and the local payload. -/
def defaultProject (authoritative localView : Json) (localPending : Bool) : Json :=
  if localPending then localView
  else if authoritative = .null then localView else authoritative

end OptoSync.Reactive
