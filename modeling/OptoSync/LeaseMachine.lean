import OptoSync.StreamMessageGo

/-!
# The reference lease machine

`LeaseMachine` of the Go adapter SDK. A `big.Int` is an integer, a `map[string]bool` that only holds
`true` is a set. A method returns the machine it leaves and its outcome.
-/
namespace OptoSync.Stream.Go

open CanonicalForm (sortByKey)

abbrev StringMap (α : Type) : Type := Std.ExtTreeMap String α compare
abbrev StringSet : Type := Std.ExtTreeSet String compare

structure Lease where
  owner : String
  fence : ℤ
  expiresAt : ℤ

structure Grant where
  resource : String
  owner : String
  fence : ℤ
  expiresAt : ℤ

structure LeaseMachine where
  now : ℤ := 0
  nextFence : ℤ := 1
  leases : StringMap Lease := ∅
  grants : StringMap Grant := ∅
  canceled : StringSet := ∅
  closed : Bool := false

/-- The SHA-256 of `fmadapter.lease-machine.snapshot.v1`. -/
def leaseSchemaHash : String :=
  "sha256:62ad17910fc256cc4e40e78756e1855efec49f9fda0cd91c19e2d9256fb2cd39"

def ok (value : Json) : Outcome := { kind := "ok", value }

def errorOutcome (code message : String) (retryable : Bool) (data : Json) : Outcome :=
  { kind := "error", error := some { code, message, retryable, data } }

def unsupportedOutcome (code message : String) (data : Json) : Outcome :=
  { kind := "unsupported", error := some { code, message, retryable := false, data } }

def bigInt (value : ℤ) : Json :=
  .object [("#bigint", .string (String.ofList (Json.printInt value)))]

def parseBigIntValue : Json → Checked ℤ
  | .object object =>
    match object.lookup "#bigint" with
    | some (.string text) =>
      if object.length ≠ 1 then .error "expected singleton #bigint object"
      else
        match validateDecimal text true with
        | .error message => .error message
        | .ok () =>
          match CanonicalJson.Go.setString text with
          | some parsed => .ok parsed
          | none => .error "invalid #bigint"
    | _ => .error "expected singleton #bigint object"
  | _ => .error "expected #bigint object"

def parseTaggedMap (value : StringMap String) : Checked ℤ :=
  match value["#bigint"]? with
  | some text =>
    if value.size ≠ 1 then .error "expected singleton #bigint"
    else parseBigIntValue (.object [("#bigint", .string text)])
  | none => .error "expected singleton #bigint"

def requiredString (object : List (String × Json)) (key : String) : Checked String :=
  match object.lookup key with
  | some (.string value) =>
    if value = "" then .error s!"{key} must be a nonempty string" else .ok value
  | _ => .error s!"{key} must be a nonempty string"

/-- A `#bigint` of an argument that has to be positive. -/
def positiveBigInt (object : List (String × Json)) (key : String) : Checked ℤ :=
  match parseBigIntValue ((object.lookup key).getD .null) with
  | .error _ => .error s!"{key} must be a positive #bigint"
  | .ok value => if value ≤ 0 then .error s!"{key} must be a positive #bigint" else .ok value

structure AcquireArguments where
  resource : String
  owner : String
  request : String
  ttl : ℤ

def acquireArguments (arguments : List (String × Json)) : Checked AcquireArguments := do
  let resource ← requiredString arguments "resource"
  let owner ← requiredString arguments "owner"
  let request ← requiredString arguments "request"
  let ttl ← positiveBigInt arguments "ttl"
  return { resource, owner, request, ttl }

structure ReleaseArguments where
  resource : String
  owner : String
  fence : ℤ

/-- The arguments that `release` reads before it looks at the leases. -/
def releaseArguments (arguments : List (String × Json)) : Checked ReleaseArguments := do
  let resource ← requiredString arguments "resource"
  let owner ← requiredString arguments "owner"
  let fence ← positiveBigInt arguments "fence"
  return { resource, owner, fence }

/-- Arguments that are no object count as none. -/
def argumentsObject : Json → List (String × Json)
  | .object object => object
  | _ => []

/-- A logical time that is a nonnegative `#bigint`. -/
def logicalNow (logicalTime : Json) : Option ℤ :=
  match parseBigIntValue logicalTime with
  | .ok now => if now < 0 then none else some now
  | .error _ => none

def grantValue (value : Grant) : Json :=
  .object [("expiresAt", bigInt value.expiresAt), ("fence", bigInt value.fence),
    ("owner", .string value.owner), ("resource", .string value.resource)]

/-- What an observation says of a lease. -/
def leaseValue (resource : String) (value : Lease) : Json :=
  .object [("expiresAt", bigInt value.expiresAt), ("fence", bigInt value.fence),
    ("owner", .string value.owner), ("resource", .string resource)]

/-- `Slice` over any type with a zero. -/
structure RawSlice (α : Type) where
  array : List α := []
  length : ℕ := 0

def RawSlice.elements {α : Type} (slice : RawSlice α) : List α := slice.array.take slice.length

def decodeItems {α : Type} (zero : α) (decode : α → Json → Option α) :
    List α → List Json → Option (List α)
  | old, [] => some old
  | old, v :: vs => do
    let w ← decode (old.headD zero) v
    let ws ← decodeItems zero decode old.tail vs
    some (w :: ws)

def decodeRawSlice {α : Type} (zero : α) (decode : α → Json → Option α) (old : RawSlice α) :
    Json → Option (RawSlice α)
  | .null => some {}
  | .array [] => some {}
  | .array items => do
    let array ← decodeItems zero decode old.array items
    some { array, length := items.length }
  | _ => none

/-- A `null` leaves an integer as it is. -/
def decodeInt64 (old : ℤ) : Json → Option ℤ
  | .null => some old
  | .number number =>
    (CanonicalJson.Go.setString (CanonicalJson.Go.numberText number)).filter fun value =>
      -2 ^ 63 ≤ value ∧ value < 2 ^ 63
  | _ => none

def setEntry (map : StringMap String) (field : String × Json) : Option (StringMap String) :=
  (decodeString "" field.2).map fun value => map.insert field.1 value

/-- Decoding into a map adds to what it holds. -/
def decodeStringMap (old : StringMap String) : Json → Option (StringMap String)
  | .null => some ∅
  | .object fields => (sortByKey fields).foldlM setEntry old
  | _ => none

/-- A lease of an observation, and the grant of a request. -/
structure RawLease where
  resource : String := ""
  owner : String := ""
  fence : StringMap String := ∅
  expiresAt : StringMap String := ∅

def setLease (raw : RawLease) (field : String × Json) : Option RawLease :=
  match structField ["resource", "owner", "fence", "expiresAt"] field.1 with
  | some "resource" => (decodeString raw.resource field.2).map fun v => { raw with resource := v }
  | some "owner" => (decodeString raw.owner field.2).map fun v => { raw with owner := v }
  | some "fence" => (decodeStringMap raw.fence field.2).map fun v => { raw with fence := v }
  | some "expiresAt" =>
    (decodeStringMap raw.expiresAt field.2).map fun v => { raw with expiresAt := v }
  | _ => some raw

structure RawGrant where
  request : String := ""
  grant : RawLease := {}

def setGrant (raw : RawGrant) (field : String × Json) : Option RawGrant :=
  match structField ["request", "grant"] field.1 with
  | some "request" => (decodeString raw.request field.2).map fun v => { raw with request := v }
  | some "grant" => (decodeStruct setLease raw.grant field.2).map fun v => { raw with grant := v }
  | _ => some raw

/-- The one field of an observation that is read. -/
def setObservation (leases : RawSlice RawLease) (field : String × Json) :
    Option (RawSlice RawLease) :=
  match structField ["leases"] field.1 with
  | some "leases" => decodeRawSlice {} (decodeStruct setLease) leases field.2
  | _ => some leases

structure RawSnapshot where
  version : ℤ := 0
  now : StringMap String := ∅
  nextFence : StringMap String := ∅
  leases : RawSlice RawLease := {}
  grants : RawSlice RawGrant := {}
  canceled : RawSlice String := {}

def setSnapshot (raw : RawSnapshot) (field : String × Json) : Option RawSnapshot :=
  match structField ["version", "now", "nextFence", "observation", "grants", "canceled"] field.1 with
  | some "version" => (decodeInt64 raw.version field.2).map fun v => { raw with version := v }
  | some "now" => (decodeStringMap raw.now field.2).map fun v => { raw with now := v }
  | some "nextFence" =>
    (decodeStringMap raw.nextFence field.2).map fun v => { raw with nextFence := v }
  | some "observation" =>
    (decodeStruct setObservation raw.leases field.2).map fun v => { raw with leases := v }
  | some "grants" =>
    (decodeRawSlice {} (decodeStruct setGrant) raw.grants field.2).map fun v =>
      { raw with grants := v }
  | some "canceled" =>
    (decodeRawSlice "" decodeString raw.canceled field.2).map fun v => { raw with canceled := v }
  | _ => some raw

/-- `json.Marshal` and `json.Unmarshal`. -/
def decodeSnapshot (snapshot : Json) : Option RawSnapshot :=
  if snapshot.depth > CanonicalJson.Go.maxNestingDepth then none
  else decodeStruct setSnapshot {} snapshot

def readLease (item : RawLease) : Checked (String × Lease) :=
  match parseTaggedMap item.fence with
  | .error _ => .error "invalid snapshot lease fence"
  | .ok fence =>
    match parseTaggedMap item.expiresAt with
    | .error _ => .error "invalid snapshot lease expiry"
    | .ok expiresAt =>
      if item.resource = "" ∨ item.owner = "" then .error "snapshot lease identity is empty"
      else .ok (item.resource, { owner := item.owner, fence, expiresAt })

def readGrant (item : RawGrant) : Checked (String × Grant) :=
  match parseTaggedMap item.grant.fence with
  | .error _ => .error "invalid snapshot grant fence"
  | .ok fence =>
    match parseTaggedMap item.grant.expiresAt with
    | .error _ => .error "invalid snapshot grant expiry"
    | .ok expiresAt =>
      if item.request = "" ∨ item.grant.resource = "" ∨ item.grant.owner = "" then
        .error "snapshot grant identity is empty"
      else
        .ok (item.request,
          { resource := item.grant.resource, owner := item.grant.owner, fence, expiresAt })

def readCanceled (request : String) : Checked String :=
  if request = "" then .error "snapshot canceled request is empty" else .ok request

namespace LeaseMachine

variable (machine : LeaseMachine)

def new : LeaseMachine := {}

/-- `initialize`, and the fields that its callers set next. -/
def fresh (now nextFence : ℤ) : LeaseMachine := { now, nextFence }

def expire : LeaseMachine :=
  { machine with leases := machine.leases.filter fun _ value => machine.now < value.expiresAt }

/-- What `Observe` returns of a machine that has expired its leases. -/
def observation : Json :=
  .object [("leases", .array (machine.leases.toList.map fun entry => leaseValue entry.1 entry.2)),
    ("nextFence", bigInt machine.nextFence), ("now", bigInt machine.now)]

def observe : LeaseMachine × Outcome :=
  (machine.expire, ok (.object [("observation", machine.expire.observation)]))

def settle (_maxSteps : ℕ) : LeaseMachine × Outcome := machine.observe

/-- The machine is initialized before the initial state is looked at. -/
def reset (initialState : Json) (_seed : String) (logicalTime : Json) : LeaseMachine × Outcome :=
  match logicalNow logicalTime with
  | none => (machine, errorOutcome "invalid_logical_time"
      "reset logical time must be a nonnegative #bigint" false .null)
  | some now =>
    match initialState with
    | .null => (fresh now 1).observe
    | .object object =>
      match object.lookup "nextFence" with
      | none => (fresh now 1).observe
      | some rawFence =>
        match parseBigIntValue rawFence with
        | .ok fence =>
          if fence ≤ 0 then
            (fresh now 1, errorOutcome "invalid_initial_state"
              "nextFence must be a positive #bigint" false .null)
          else (fresh now fence).observe
        | .error _ => (fresh now 1, errorOutcome "invalid_initial_state"
            "nextFence must be a positive #bigint" false .null)
    | _ => (fresh now 1, errorOutcome "invalid_initial_state"
        "initial state must be an object" false .null)

def acquire (arguments : List (String × Json)) : LeaseMachine × Outcome :=
  match acquireArguments arguments with
  | .error message => (machine, errorOutcome "invalid_acquire" message false .null)
  | .ok { resource, owner, request, ttl } =>
    match machine.grants[request]? with
    | some existing => (machine, ok (.object [("grant", grantValue existing),
        ("idempotent", .bool true), ("status", .string "granted")]))
    | none =>
      if request ∈ machine.canceled then
        (machine, errorOutcome "canceled" "request was canceled before acquisition" false
          (.object [("request", .string request)]))
      else
        match machine.leases[resource]? with
        | some existing => (machine, errorOutcome "busy"
            "resource is held by another active lease" true (leaseValue resource existing))
        | none =>
          let fence := machine.nextFence
          let expiresAt := machine.now + ttl
          let granted : Grant := { resource, owner, fence, expiresAt }
          ({ machine with
              nextFence := machine.nextFence + 1
              leases := machine.leases.insert resource { owner, fence, expiresAt }
              grants := machine.grants.insert request granted },
            ok (.object [("grant", grantValue granted), ("idempotent", .bool false),
              ("status", .string "granted")]))

def cancel (arguments : List (String × Json)) : LeaseMachine × Outcome :=
  match requiredString arguments "request" with
  | .error message => (machine, errorOutcome "invalid_cancel" message false .null)
  | .ok request =>
    match machine.grants[request]? with
    | some granted => (machine, ok (.object [("grant", grantValue granted),
        ("status", .string "too_late")]))
    | none => ({ machine with canceled := machine.canceled.insert request },
        ok (.object [("request", .string request), ("status", .string "canceled")]))

def release (arguments : List (String × Json)) : LeaseMachine × Outcome :=
  match releaseArguments arguments with
  | .error message => (machine, errorOutcome "invalid_release" message false .null)
  | .ok { resource, owner, fence } =>
    match machine.leases[resource]? with
    | none => (machine, ok (.object [("status", .string "absent")]))
    | some current =>
      if current.owner ≠ owner ∨ current.fence ≠ fence then
        (machine, errorOutcome "stale_fence" "release authority does not match the active lease"
          false (.object [("activeFence", bigInt current.fence)]))
      else ({ machine with leases := machine.leases.erase resource },
        ok (.object [("fence", bigInt fence), ("resource", .string resource),
          ("status", .string "released")]))

/-- The action of an `Apply` whose time has passed the checks. -/
def act (action : String) (arguments : Json) : LeaseMachine × Outcome :=
  match action with
  | "acquire" => machine.acquire (argumentsObject arguments)
  | "cancel" => machine.cancel (argumentsObject arguments)
  | "release" => machine.release (argumentsObject arguments)
  | "advance_time" => machine.observe
  | _ => (machine, errorOutcome "unknown_action" "unknown lease action" false
      (.object [("action", .string action)]))

def apply (action : String) (arguments logicalTime : Json) : LeaseMachine × Outcome :=
  if machine.closed then (machine, errorOutcome "closed" "lease machine is closed" false .null)
  else
    match logicalNow logicalTime with
    | none => (machine, errorOutcome "invalid_logical_time"
        "logical time must be a nonnegative #bigint" false .null)
    | some now =>
      if now < machine.now then
        (machine, errorOutcome "clock_rollback" "logical time cannot move backwards" false
          (.object [("current", bigInt machine.now), ("received", bigInt now)]))
      else { machine with now }.expire.act action arguments

/-- The snapshot of a machine that has expired its leases, as taking one does. -/
def snapshotValue : Json :=
  .object [("canceled", .array (machine.canceled.toList.map .string)),
    ("grants", .array (machine.grants.toList.map fun entry =>
      .object [("grant", grantValue entry.2), ("request", .string entry.1)])),
    ("nextFence", bigInt machine.nextFence),
    ("now", bigInt machine.now),
    ("observation", machine.observation),
    ("version", .number (.int 1))]

def snapshot : LeaseMachine × Outcome :=
  (machine.expire, ok (.object [("schemaHash", .string leaseSchemaHash),
    ("snapshot", machine.expire.snapshotValue)]))

/-- A loop of `restoreValue`: each item is checked and put into the machine in turn. -/
def fill {α β : Type} (read : α → Checked β) (put : LeaseMachine → β → LeaseMachine) :
    LeaseMachine → List α → LeaseMachine × Checked Unit
  | machine, [] => (machine, .ok ())
  | machine, item :: items =>
    match read item with
    | .error message => (machine, .error message)
    | .ok entry => fill read put (put machine entry) items

def putLease (machine : LeaseMachine) (entry : String × Lease) : LeaseMachine :=
  { machine with leases := machine.leases.insert entry.1 entry.2 }

def putGrant (machine : LeaseMachine) (entry : String × Grant) : LeaseMachine :=
  { machine with grants := machine.grants.insert entry.1 entry.2 }

def putCanceled (machine : LeaseMachine) (request : String) : LeaseMachine :=
  { machine with canceled := machine.canceled.insert request }

/-- The loops of `restoreValue`. -/
def fillSnapshot (raw : RawSnapshot) : LeaseMachine × Checked Unit :=
  match machine.fill readLease putLease raw.leases.elements with
  | (machine, .error message) => (machine, .error message)
  | (machine, .ok ()) =>
    match machine.fill readGrant putGrant raw.grants.elements with
    | (machine, .error message) => (machine, .error message)
    | (machine, .ok ()) =>
      match machine.fill readCanceled putCanceled raw.canceled.elements with
      | (machine, .error message) => (machine, .error message)
      | (machine, .ok ()) => (machine.expire, .ok ())

/-- The text of a decoding error is left out. -/
def restoreValue (snapshot : Json) : LeaseMachine × Checked Unit :=
  match decodeSnapshot snapshot with
  | none => (machine, .error "decode snapshot")
  | some raw =>
    if raw.version ≠ 1 then (machine, .error "unsupported snapshot version")
    else
      match parseTaggedMap raw.now with
      | .error _ => (machine, .error "invalid snapshot now")
      | .ok now =>
        if now < 0 then (machine, .error "invalid snapshot now")
        else
          match parseTaggedMap raw.nextFence with
          | .error _ => (machine, .error "invalid snapshot nextFence")
          | .ok nextFence =>
            if nextFence ≤ 0 then (machine, .error "invalid snapshot nextFence")
            else (fresh now nextFence).fillSnapshot raw

def restore (snapshot : Json) (schemaHash : String) : LeaseMachine × Outcome :=
  if schemaHash ≠ leaseSchemaHash then
    (machine, errorOutcome "snapshot_schema_mismatch" "snapshot schema hash does not match" false
      (.object [("expected", .string leaseSchemaHash), ("received", .string schemaHash)]))
  else
    match machine.restoreValue snapshot with
    | (machine, .error message) =>
      (machine, errorOutcome "invalid_snapshot" message false .null)
    | (machine, .ok ()) => machine.observe

def fault (fault : String) (arguments : Json) : LeaseMachine × Outcome :=
  match fault with
  | "clock_rollback" => (machine, errorOutcome "fault_injected"
      "clock rollback rejected without changing state" false
      (.object [("arguments", arguments), ("fault", .string fault)]))
  | "process_restart" =>
    match new.restoreValue machine.expire.snapshotValue with
    | (_, .error message) => (machine.expire, errorOutcome "restart_failed" message false .null)
    | (restarted, .ok ()) => (restarted.expire,
        ok (.object [("observation", restarted.expire.observation), ("restarted", .bool true)]))
  | _ => (machine, unsupportedOutcome "unsupported_fault"
      "fault is not advertised by the reference machine" (.object [("fault", .string fault)]))

def close : LeaseMachine × Outcome :=
  ({ machine with closed := true }, ok (.object [("closed", .bool true)]))

end LeaseMachine

end OptoSync.Stream.Go
