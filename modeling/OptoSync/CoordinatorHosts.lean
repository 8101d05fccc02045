import OptoSync.DesktopCoordinator
import OptoSync.IndexedDbQueueRun
import OptoSync.Utf16

/-!
# The desktop coordinators of the hosts

The SQLite coordinators of the TypeScript and the Dart package over the table of the Rust crate.
They leave the checks of the clock to the table, whose columns are not negative.
-/
namespace OptoSync.Coordinator
open Decimal
open OptoSyncClient (decimalPattern_repr bigInt_repr)
open SqliteDesktopCoordinator (minTtlMs maxTtlMs)

def maxSafeInteger : ℤ := 2 ^ 53 - 1

/-- A reading of `unixepoch`, whose dates are those of the years 0 to 9999. -/
structure StoreClock where
  reading : ℤ
  first : -62167219200000 ≤ reading
  last : reading ≤ 253402300799999

/-- What a host refuses with. -/
inductive HostError
  | identifier (name : String)
  | ttl
  | date
  | generation (name : String)
  | range (name : String)
  | exhausted (name : String)
  | observedAhead
  | stale
  | disappeared
  | invalid (name : String)
  | sqlite
  /-- Thrown by the write of the caller. -/
  | caller (error : SqliteDesktopError)
  deriving DecidableEq

/-- Where the hosts differ. -/
structure Host where
  /-- The integers that a column is read as. -/
  isInteger : ℤ → Bool
  safe : ∀ value, -maxSafeInteger ≤ value → value ≤ maxSafeInteger → isInteger value = true
  /-- The expiry of a grant, as a date. -/
  isDate : ℕ → Bool
  ttlFirst : Bool

def typeScript : Host where
  isInteger value := -maxSafeInteger ≤ value && value ≤ maxSafeInteger
  safe value hlower hupper := by simp [hlower, hupper]
  isDate _ := true
  ttlFirst := true

def dart : Host where
  isInteger _ := true
  safe _ _ _ := rfl
  isDate ms := ms ≤ 8640000000000000
  ttlFirst := false

/-- A row as the host reads it, with the generations cast to text. -/
structure HostRow where
  ownerToken : Option String
  fence : String
  expiresAtMs : ℤ
  wakeGeneration : String
  handledGeneration : String

def validateIdentifier (name value : String) : Except HostError Unit :=
  if value.toList = [] ∨ 512 < (Utf16.encode value.toList).length then .error (.identifier name)
  else .ok ()

def validateTtl (ttlMs : ℕ) : Except HostError Unit :=
  if ttlMs < minTtlMs ∨ maxTtlMs < ttlMs then .error .ttl else .ok ()

def parseGeneration (name value : String) : Except HostError ℕ :=
  if decimalPattern value = false then .error (.generation name)
  else if maxI64 < bigInt value then .error (.range name)
  else .ok (bigInt value)

def validateGrant (grant : DesktopLeaseGrant) : Except HostError Unit := do
  validateIdentifier "lease key" grant.key
  validateIdentifier "owner token" grant.token
  let _ ← parseGeneration "fence" grant.fence

/-- A statement that writes the row: no time may be negative. -/
def checked (nowMs expiresAtMs : ℤ) : Except HostError Unit :=
  if nowMs < 0 ∨ expiresAtMs < 0 then .error .sqlite else .ok ()

def ensureRow (table : CoordinationTable) (key : String) (nowMs : ℤ) :
    Except HostError CoordinationTable := do
  checked nowMs 0
  pure (SqliteDesktopCoordinator.ensureRow table key)

def incrementWake (table : CoordinationTable) (key : String) (nowMs : ℤ) :
    Except HostError CoordinationTable := do
  match table key with
  | none => pure table
  | some row =>
    checked nowMs 0
    if h : maxI64 ≤ row.wakeGeneration then throw .sqlite
    else
      pure (Function.update table key (some { row with
        wakeGeneration := row.wakeGeneration + 1
        handled_le := row.handled_le_succ
        wake_le := CoordinationRow.wake_succ_le h }))

def grantLease (table : CoordinationTable) (key token : String) (nowMs expiresAtMs : ℤ) :
    Except HostError CoordinationTable := do
  match table key with
  | none => pure table
  | some row =>
    checked nowMs expiresAtMs
    if h : maxI64 ≤ row.fence then throw .sqlite
    else
      pure (Function.update table key (some { row with
        ownerToken := some token
        fence := row.fence + 1
        expiresAtMs := expiresAtMs.toNat
        fence_le := CoordinationRow.fence_succ_le h }))

/-- The condition of the fenced statements. -/
def owned (row : CoordinationRow) (token : String) (fence : ℕ) (nowMs : ℤ) : Bool :=
  row.ownerToken = some token && row.fence = fence && nowMs < row.expiresAtMs

section
variable (host : Host)

def asInteger (name : String) (value : ℤ) : Except HostError ℤ :=
  if host.isInteger value then .ok value else .error (.invalid name)

def storeNowMs (clock : StoreClock) : Except HostError ℤ :=
  asInteger host "store clock" clock.reading

def readRow (table : CoordinationTable) (key : String) : Except HostError HostRow :=
  match table key with
  | none => .error .disappeared
  | some row => do
    let expiresAtMs ← asInteger host "lease expiry" row.expiresAtMs
    pure { ownerToken := row.ownerToken
           fence := row.fence.repr
           expiresAtMs
           wakeGeneration := row.wakeGeneration.repr
           handledGeneration := row.handledGeneration.repr }

def readOwnedUnexpiredRow (table : CoordinationTable) (grant : DesktopLeaseGrant) (nowMs : ℤ) :
    Except HostError HostRow := do
  let row ← readRow host table grant.key
  if row.ownerToken ≠ some grant.token ∨ row.fence ≠ grant.fence ∨ row.expiresAtMs ≤ nowMs then
    throw .stale
  else pure row

def validateSqliteGrant (grant : SqliteDesktopLeaseGrant) : Except HostError Unit := do
  if host.isDate grant.expiresAtMs then validateGrant grant.desktopGrant else throw .date

def retryAfterMs (row : HostRow) (nowMs : ℤ) : ℕ :=
  match row.ownerToken with
  | none => 0
  | some _ => (row.expiresAtMs - nowMs).toNat

def signalWake (table : CoordinationTable) (key : String) (clock : StoreClock) :
    Except HostError (SqliteDesktopWakeReceipt × CoordinationTable) := do
  validateIdentifier "lease key" key
  let nowMs ← storeNowMs host clock
  let table ← ensureRow table key nowMs
  let before ← readRow host table key
  let wake ← parseGeneration "wake generation" before.wakeGeneration
  if maxI64 ≤ wake then throw (.exhausted "wake generation")
  else
    let table ← incrementWake table key nowMs
    let row ← readRow host table key
    pure ({ generation := row.wakeGeneration
            handledGeneration := row.handledGeneration
            dirty := row.wakeGeneration ≠ row.handledGeneration
            retryAfterMs := retryAfterMs row nowMs }, table)

def acquire (table : CoordinationTable) (request : SqliteDesktopAcquireRequest)
    (clock : StoreClock) :
    Except HostError (SqliteDesktopAcquireResult × CoordinationTable) := do
  validateIdentifier "lease key" request.key
  validateIdentifier "owner id" request.ownerId
  validateIdentifier "owner token" request.token
  validateTtl request.leaseTtlMs
  let nowMs ← storeNowMs host clock
  let table ← ensureRow table request.key nowMs
  let current ← readRow host table request.key
  if current.ownerToken.isSome ∧ nowMs < current.expiresAtMs then
    pure (.busy { retryAfterMs := (current.expiresAtMs - nowMs).toNat
                  wakeGeneration := current.wakeGeneration
                  handledGeneration := current.handledGeneration }, table)
  else
    let fence ← parseGeneration "fence" current.fence
    if maxI64 ≤ fence then throw (.exhausted "lease fence")
    else
      let table ← grantLease table request.key request.token nowMs (nowMs + request.leaseTtlMs)
      let granted ← readRow host table request.key
      pure (.acquired { key := request.key, ownerId := request.ownerId, token := request.token
                        fence := granted.fence, acquiredAtMs := nowMs.toNat
                        expiresAtMs := granted.expiresAtMs.toNat
                        wakeGeneration := granted.wakeGeneration
                        handledGeneration := granted.handledGeneration }, table)

def renew (table : CoordinationTable) (grant : SqliteDesktopLeaseGrant) (leaseTtlMs : ℕ)
    (clock : StoreClock) :
    Except HostError (Option SqliteDesktopLeaseGrant × CoordinationTable) := do
  if host.ttlFirst then
    validateTtl leaseTtlMs
    validateSqliteGrant host grant
  else
    validateSqliteGrant host grant
    validateTtl leaseTtlMs
  let nowMs ← storeNowMs host clock
  let fence ← parseGeneration "fence" grant.fence
  match table grant.key with
  | none => pure (none, table)
  | some row =>
    if owned row grant.token fence nowMs then
      checked nowMs (nowMs + leaseTtlMs)
      let table := Function.update table grant.key
        (some { row with expiresAtMs := (nowMs + leaseTtlMs).toNat })
      let row ← readRow host table grant.key
      pure (some { grant with
              expiresAtMs := row.expiresAtMs.toNat
              wakeGeneration := row.wakeGeneration
              handledGeneration := row.handledGeneration }, table)
    else pure (none, table)

/-- The update repeats the condition that the row was read under. -/
def complete (table : CoordinationTable) (grant : SqliteDesktopLeaseGrant)
    (observedWakeGeneration : String) (clock : StoreClock) :
    Except HostError (SqliteDesktopCompletion × CoordinationTable) := do
  validateSqliteGrant host grant
  let observed ← parseGeneration "observed wake generation" observedWakeGeneration
  let nowMs ← storeNowMs host clock
  let row ← readOwnedUnexpiredRow host table grant.desktopGrant nowMs
  let wake ← parseGeneration "wake generation" row.wakeGeneration
  let handled ← parseGeneration "handled generation" row.handledGeneration
  if wake < observed then throw .observedAhead
  else
    let nextHandled := if handled < observed then observed else handled
    let released : Bool := observed = wake
    let fence ← parseGeneration "fence" grant.fence
    match table grant.key with
    | none => throw .stale
    | some row =>
      if owned row grant.token fence nowMs then
        checked nowMs 0
        if h : nextHandled ≤ row.wakeGeneration then
          pure ({ released, currentWakeGeneration := wake.repr
                  handledGeneration := nextHandled.repr },
            Function.update table grant.key (some { row with
              handledGeneration := nextHandled
              ownerToken := if released then none else row.ownerToken
              expiresAtMs := if released then 0 else row.expiresAtMs
              handled_le := h }))
        else throw .sqlite
      else throw .stale

def release (table : CoordinationTable) (grant : DesktopLeaseGrant) (clock : StoreClock) :
    Except HostError CoordinationTable := do
  validateGrant grant
  let nowMs ← storeNowMs host clock
  let fence ← parseGeneration "fence" grant.fence
  match table grant.key with
  | none => pure table
  | some row =>
    if row.ownerToken = some grant.token ∧ row.fence = fence then
      checked nowMs 0
      pure (Function.update table grant.key
        (some { row with ownerToken := none, expiresAtMs := 0 }))
    else pure table

def withFencedWrite {α ρ : Type} (table : CoordinationTable) (data : α) (grant : DesktopLeaseGrant)
    (write : α → Except SqliteDesktopError (ρ × α)) (before after : StoreClock) :
    Except HostError (ρ × α) := do
  validateGrant grant
  let beforeMs ← storeNowMs host before
  let _ ← readOwnedUnexpiredRow host table grant beforeMs
  let result ← (write data).mapError .caller
  let afterMs ← storeNowMs host after
  let _ ← readOwnedUnexpiredRow host table grant afterMs
  pure result

end

end OptoSync.Coordinator
