import OptoSync.IndexedDbQueue
import OptoSync.InsertionOrder
import OptoSync.PolicyAliases
import OptoSync.Utf16

/-!
# The read model

`reconcile_read_model` and `reconcileReadModel`: a local base, remote rows and an overlay become one
list of records. The two run the same passes over different maps, with their own orders of texts.
Payloads are only passed on.
-/
namespace OptoSync.ReadModel
open InsertionOrder

structure ProtocolIdentity where
  clientId : String
  mutationId : String

structure BaseRow (π : Type) where
  table : String
  recordId : String
  revision : String
  operation : String
  payload : Option π
  identity : Option ProtocolIdentity

structure OverlayEntry (π : Type) where
  mutationId : String
  clientId : String
  table : String
  recordId : String
  operation : String
  payload : Option π
  revision : Option String
  consistencyPolicy : String
  status : String
  transformedPayload : Option π

structure ProjectedRow (π : Type) where
  table : String
  recordId : String
  revision : String
  operation : String
  payload : Option π
  provenance : String
  deriving DecidableEq

structure ReadReconciliationInput (π : Type) where
  localBase : List (BaseRow π)
  overlay : List (OverlayEntry π)
  remote : List (BaseRow π)
  acknowledgedMutationIds : List String

def recordKey (table recordId : String) : String := table ++ "\x00" ++ recordId

variable {π : Type}

def BaseRow.key (row : BaseRow π) : String := recordKey row.table row.recordId

def OverlayEntry.key (entry : OverlayEntry π) : String := recordKey entry.table entry.recordId

def ProjectedRow.key (row : ProjectedRow π) : String := recordKey row.table row.recordId

def toProjected (row : BaseRow π) (provenance : String) : ProjectedRow π :=
  { table := row.table, recordId := row.recordId, revision := row.revision
    operation := row.operation, payload := row.payload, provenance }

/-- The row of an overlay entry over the row that its key has. -/
def OverlayEntry.project (entry : OverlayEntry π) (working : Option (ProjectedRow π)) :
    ProjectedRow π :=
  { table := entry.table, recordId := entry.recordId
    revision := (entry.revision.or (working.map ProjectedRow.revision)).getD "0"
    operation := entry.operation
    payload := if entry.status = "transformed" then entry.transformedPayload.or entry.payload
      else entry.payload
    provenance := entry.status }

/-- A map with texts as keys. -/
class StringMap (M : Type → Type) where
  empty {ν : Type} : M ν
  get? {ν : Type} (m : M ν) (key : String) : Option ν
  insert {ν : Type} (m : M ν) (key : String) (value : ν) : M ν
  toList {ν : Type} (m : M ν) : List (String × ν)

/-- What the two clients do in their own way. -/
structure Host where
  compareDecimal (left right : String) : Ordering
  idLess (left right : String) : Bool
  hidePendingProjection (status consistencyPolicy : String) : Except String Bool
  compareTexts (left right : String) : Ordering

namespace Host

variable (host : Host)

def mutationId (row : BaseRow π) : String := (row.identity.map ProtocolIdentity.mutationId).getD ""

/-- One step of `select_remote_winner`. -/
def better (winner candidate : BaseRow π) : BaseRow π :=
  match host.compareDecimal candidate.revision winner.revision with
  | .gt => candidate
  | .lt => winner
  | .eq => if host.idLess (mutationId candidate) (mutationId winner) then candidate else winner

def selectRemoteWinner : List (BaseRow π) → Option (BaseRow π)
  | [] => none
  | row :: rows => some (rows.foldl host.better row)

/-- By table, then by record. -/
def compareRows (left right : ProjectedRow π) : Ordering :=
  (host.compareTexts left.table right.table).then
    (host.compareTexts left.recordId right.recordId)

section Passes

variable {M : Type → Type} [StringMap M]
open StringMap

def applyLocal (working : M (ProjectedRow π)) (row : BaseRow π) : M (ProjectedRow π) :=
  insert working row.key (toProjected row "authoritative")

def groupRow (grouped : M (List (BaseRow π))) (row : BaseRow π) : M (List (BaseRow π)) :=
  insert grouped row.key ((get? grouped row.key).getD [] ++ [row])

def applyRemote (working : M (ProjectedRow π)) (group : String × List (BaseRow π)) :
    M (ProjectedRow π) :=
  match host.selectRemoteWinner group.2 with
  | none => working
  | some remote =>
    match get? working group.1 with
    | none => insert working group.1 (toProjected remote "authoritative")
    | some base =>
      if host.compareDecimal remote.revision base.revision = .gt then
        insert working group.1 (toProjected remote "authoritative")
      else working

def applyOverlay (acknowledged : List String) (working : M (ProjectedRow π))
    (entry : OverlayEntry π) : Except String (M (ProjectedRow π)) := do
  if entry.mutationId ∈ acknowledged then return working
  if ← host.hidePendingProjection entry.status entry.consistencyPolicy then return working
  return insert working entry.key (entry.project (get? working entry.key))

def authoritativeRows (input : ReadReconciliationInput π) : M (ProjectedRow π) :=
  let working : M (ProjectedRow π) := input.localBase.foldl applyLocal empty
  let grouped : M (List (BaseRow π)) := input.remote.foldl groupRow empty
  (toList grouped).foldl host.applyRemote working

def workingRows (input : ReadReconciliationInput π) : Except String (M (ProjectedRow π)) :=
  input.overlay.foldlM (host.applyOverlay input.acknowledgedMutationIds)
    (host.authoritativeRows input)

variable (M)

def reconcile (input : ReadReconciliationInput π) : Except String (List (ProjectedRow π)) := do
  let working : M (ProjectedRow π) ← host.workingRows input
  return ((toList working).map Prod.snd).mergeSort fun left right =>
    host.compareRows left right ≠ .gt

end Passes
end Host

/-- Both clients take a revision that is not a canonical decimal for zero. -/
def normalizeDecimal (value : String) : String := if decimalPattern value then value else "0"

/-! ## The Rust client -/

namespace Rust

def BTreeMap (ν : Type) : Type := Std.TreeMap String ν compare

instance stringMapBTreeMap : StringMap BTreeMap where
  empty {ν} := (∅ : Std.TreeMap String ν compare)
  get? {ν} (m : Std.TreeMap String ν compare) key := m.get? key
  insert {ν} (m : Std.TreeMap String ν compare) key value := m.insert key value
  toList {ν} (m : Std.TreeMap String ν compare) := m.toList

def compareDecimal (left right : String) : Ordering :=
  let a := normalizeDecimal left
  let b := normalizeDecimal right
  (compare a.utf8ByteSize b.utf8ByteSize).then (compare a b)

def canonicalizeConsistencyPolicy (identifier : String) : Except String ConsistencyPolicy :=
  if identifier ∈ [Consistency.remoteAcknowledged, "remote-acknowledged", "strict",
      "remote-confirmed", "await-server"] then .ok .remoteAcknowledged
  else if identifier ∈ [Consistency.writeThroughLocalFirst, "write-through-local-first",
      "local-then-remote", "local-first"] then .ok .writeThroughLocalFirst
  else if identifier ∈ [Consistency.queuedLocalFirst, "queued-local-first", "local-durable",
      "background"] then .ok .queuedLocalFirst
  else .error "unknown consistency policy"

def host : Host where
  compareDecimal := compareDecimal
  idLess left right := left < right
  hidePendingProjection status consistencyPolicy := do
    let policy ← canonicalizeConsistencyPolicy consistencyPolicy
    return status = "pending" && policy = .remoteAcknowledged
  compareTexts left right := compare left right

def reconcileReadModel (input : ReadReconciliationInput π) :
    Except String (List (ProjectedRow π)) := host.reconcile BTreeMap input

end Rust

/-! ## The TypeScript client -/

namespace TypeScript

def JsMap (ν : Type) : Type := InsertionMap String ν

instance stringMapJsMap : StringMap JsMap where
  empty {ν} := (InsertionMap.empty : InsertionMap String ν)
  get? {ν} (m : InsertionMap String ν) key := m.get? key
  insert {ν} (m : InsertionMap String ν) key value := m.set key value
  toList {ν} (m : InsertionMap String ν) := m.entries

def compareDecimal (left right : String) : Ordering :=
  let a := normalizeDecimal left
  let b := normalizeDecimal right
  let aLength := (Utf16.encode a.toList).length
  let bLength := (Utf16.encode b.toList).length
  if aLength ≠ bLength then
    if aLength < bLength then .lt else .gt
  else if Utf16.before a b then .lt
  else if Utf16.before b a then .gt
  else .eq

/-- `localeCompare` is the one of the locale that the page runs in. -/
def host (localeCompare : String → String → Ordering) : Host where
  compareDecimal := compareDecimal
  idLess left right := Utf16.before left right
  hidePendingProjection status consistencyPolicy := do
    let policy ← PolicyAliases.canonicalizeConsistencyPolicy consistencyPolicy
    return status = "pending" && policy = .id Consistency.remoteAcknowledged
  compareTexts := localeCompare

def reconcileReadModel (localeCompare : String → String → Ordering)
    (input : ReadReconciliationInput π) : Except String (List (ProjectedRow π)) :=
  (host localeCompare).reconcile JsMap input

end TypeScript

end OptoSync.ReadModel
