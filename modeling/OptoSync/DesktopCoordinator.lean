import OptoSync.Decimal
import OptoSync.Transition

/-!
# The desktop coordinator

One row per lease key: the owner, the fence, the expiry and the two wake generations. Every call is
one immediate transaction; a call that fails leaves the table as it was. The clock is read by the
store during the call and may jump in any direction.
-/
namespace OptoSync
open Decimal
open Transition (bind_eq_ok)

inductive SqliteDesktopError
  | sqlite
  | invalidConfiguration (message : String)
  | missingCoordinationRow
  | generationExhausted (name : String)
  | staleFence
  deriving DecidableEq, Repr

structure DesktopLeaseGrant where
  key : String
  ownerId : String
  token : String
  fence : String
  expiresAtMs : ℕ
  deriving DecidableEq, Repr

structure SqliteDesktopAcquireRequest where
  key : String
  ownerId : String
  token : String
  leaseTtlMs : ℕ
  deriving DecidableEq, Repr

structure SqliteDesktopLeaseGrant where
  key : String
  ownerId : String
  token : String
  fence : String
  acquiredAtMs : ℕ
  expiresAtMs : ℕ
  wakeGeneration : String
  handledGeneration : String
  deriving DecidableEq, Repr

def SqliteDesktopLeaseGrant.desktopGrant (grant : SqliteDesktopLeaseGrant) : DesktopLeaseGrant :=
  { key := grant.key, ownerId := grant.ownerId, token := grant.token, fence := grant.fence
    expiresAtMs := grant.expiresAtMs }

structure SqliteDesktopWakeReceipt where
  generation : String
  handledGeneration : String
  dirty : Bool
  retryAfterMs : ℕ
  deriving DecidableEq, Repr

structure SqliteDesktopBusy where
  retryAfterMs : ℕ
  wakeGeneration : String
  handledGeneration : String
  deriving DecidableEq, Repr

inductive SqliteDesktopAcquireResult
  | busy (busy : SqliteDesktopBusy)
  | acquired (grant : SqliteDesktopLeaseGrant)
  deriving DecidableEq, Repr

structure SqliteDesktopCompletion where
  released : Bool
  currentWakeGeneration : String
  handledGeneration : String
  deriving DecidableEq, Repr

structure SqliteDesktopState where
  key : String
  fence : String
  expiresAtMs : ℕ
  wakeGeneration : String
  handledGeneration : String
  dirty : Bool
  owned : Bool
  retryAfterMs : ℕ
  deriving DecidableEq, Repr

/-- A row of the table; the last fields are its checks and the range of its integer columns. -/
structure CoordinationRow where
  ownerToken : Option String
  fence : ℕ
  expiresAtMs : ℕ
  wakeGeneration : ℕ
  handledGeneration : ℕ
  handled_le : handledGeneration ≤ wakeGeneration
  wake_le : wakeGeneration ≤ maxI64
  fence_le : fence ≤ maxI64

namespace CoordinationRow

theorem handled_le_succ (row : CoordinationRow) : row.handledGeneration ≤ row.wakeGeneration + 1 :=
  Nat.le_succ_of_le row.handled_le

theorem wake_succ_le {row : CoordinationRow} (h : ¬ maxI64 ≤ row.wakeGeneration) :
    row.wakeGeneration + 1 ≤ maxI64 := Nat.not_le.mp h

theorem fence_succ_le {row : CoordinationRow} (h : ¬ maxI64 ≤ row.fence) : row.fence + 1 ≤ maxI64 :=
  Nat.not_le.mp h

end CoordinationRow

abbrev CoordinationTable : Type := String → Option CoordinationRow

namespace SqliteDesktopCoordinator

def minTtlMs : ℕ := 1000
def maxTtlMs : ℕ := 15 * 60000

def validateIdentifier (name value : String) : Except SqliteDesktopError Unit :=
  if value.toList = [] ∨ 512 < value.utf8ByteSize then
    .error (.invalidConfiguration (name ++ " must be 1 through 512 bytes"))
  else .ok ()

def validateTtl (ttlMs : ℕ) : Except SqliteDesktopError Unit :=
  if ¬ (minTtlMs ≤ ttlMs ∧ ttlMs ≤ maxTtlMs) then
    .error (.invalidConfiguration "lease_ttl_ms must be from 1000 through 900000")
  else .ok ()

def parseDecimal (name value : String) : Except SqliteDesktopError ℕ :=
  if value.toList = [] ∨ value.toList.all Char.isDigit = false ∨
      (1 < value.utf8ByteSize ∧ value.toList.head? = some '0') then
    .error (.invalidConfiguration (name ++ " must be a non-negative canonical decimal integer"))
  else
    match parseI64 value with
    | none => .error (.invalidConfiguration (name ++ " exceeds SQLite's signed 64-bit range"))
    | some n => .ok n.toNat

def validateGrant (grant : DesktopLeaseGrant) : Except SqliteDesktopError Unit := do
  validateIdentifier "lease key" grant.key
  validateIdentifier "owner token" grant.token
  let _ ← parseDecimal "fence" grant.fence

def validateSqliteGrant (grant : SqliteDesktopLeaseGrant) : Except SqliteDesktopError Unit := do
  validateIdentifier "lease key" grant.key
  validateIdentifier "owner id" grant.ownerId
  validateIdentifier "owner token" grant.token
  let _ ← parseDecimal "fence" grant.fence
  let _ ← parseDecimal "wake generation" grant.wakeGeneration
  let _ ← parseDecimal "handled generation" grant.handledGeneration

/-- The store clock as SQLite reads it. -/
def storeNowMs (reading : ℤ) : Except SqliteDesktopError ℕ :=
  if reading < 0 then .error (.invalidConfiguration "SQLite returned a negative store clock")
  else .ok reading.toNat

def emptyRow : CoordinationRow :=
  { ownerToken := none, fence := 0, expiresAtMs := 0, wakeGeneration := 0, handledGeneration := 0
    handled_le := Nat.zero_le _, wake_le := Nat.zero_le _, fence_le := Nat.zero_le _ }

def ensureRow (table : CoordinationTable) (key : String) : CoordinationTable :=
  match table key with
  | some _ => table
  | none => Function.update table key (some emptyRow)

def readRow (table : CoordinationTable) (key : String) :
    Except SqliteDesktopError CoordinationRow :=
  match table key with
  | none => .error .missingCoordinationRow
  | some row => .ok row

/-- The condition of every fenced statement. -/
def ownedUnexpired (row : CoordinationRow) (token : String) (fence nowMs : ℕ) : Bool :=
  row.ownerToken = some token && row.fence = fence && nowMs < row.expiresAtMs

def readOwnedUnexpiredRow (table : CoordinationTable) (grant : DesktopLeaseGrant)
    (fence nowMs : ℕ) : Except SqliteDesktopError CoordinationRow := do
  let row ← readRow table grant.key
  if ownedUnexpired row grant.token fence nowMs then pure row else throw .staleFence

def retryAfterMs (row : CoordinationRow) (nowMs : ℕ) : ℕ :=
  match row.ownerToken with
  | none => 0
  | some _ => row.expiresAtMs - nowMs

/-- `i64::checked_add` of a lease time to the clock. -/
def expiryAfter (nowMs ttlMs : ℕ) : Except SqliteDesktopError ℕ :=
  if nowMs + ttlMs ≤ maxI64 then .ok (nowMs + ttlMs)
  else .error (.invalidConfiguration "lease expiry overflowed")

def signalWake (table : CoordinationTable) (key : String) (reading : ℤ) :
    Except SqliteDesktopError (SqliteDesktopWakeReceipt × CoordinationTable) := do
  validateIdentifier "lease key" key
  let nowMs ← storeNowMs reading
  let table := ensureRow table key
  let before ← readRow table key
  if h : maxI64 ≤ before.wakeGeneration then throw (.generationExhausted "wake generation")
  else
    let row : CoordinationRow :=
      { before with
        wakeGeneration := before.wakeGeneration + 1
        handled_le := Nat.le_succ_of_le before.handled_le
        wake_le := Nat.not_le.mp h }
    pure ({ generation := row.wakeGeneration.repr, handledGeneration := row.handledGeneration.repr
            dirty := row.wakeGeneration ≠ row.handledGeneration
            retryAfterMs := retryAfterMs row nowMs },
      Function.update table key (some row))

def acquire (table : CoordinationTable) (request : SqliteDesktopAcquireRequest) (reading : ℤ) :
    Except SqliteDesktopError (SqliteDesktopAcquireResult × CoordinationTable) := do
  validateIdentifier "lease key" request.key
  validateIdentifier "owner id" request.ownerId
  validateIdentifier "owner token" request.token
  validateTtl request.leaseTtlMs
  let nowMs ← storeNowMs reading
  let table := ensureRow table request.key
  let current ← readRow table request.key
  if current.ownerToken.isSome ∧ nowMs < current.expiresAtMs then
    pure (.busy { retryAfterMs := current.expiresAtMs - nowMs
                  wakeGeneration := current.wakeGeneration.repr
                  handledGeneration := current.handledGeneration.repr }, table)
  else if h : maxI64 ≤ current.fence then throw (.generationExhausted "lease fence")
  else
    let expiresAtMs ← expiryAfter nowMs request.leaseTtlMs
    let granted : CoordinationRow :=
      { current with
        ownerToken := some request.token
        fence := current.fence + 1
        expiresAtMs
        fence_le := Nat.not_le.mp h }
    pure (.acquired { key := request.key, ownerId := request.ownerId, token := request.token
                      fence := granted.fence.repr, acquiredAtMs := nowMs
                      expiresAtMs := granted.expiresAtMs
                      wakeGeneration := granted.wakeGeneration.repr
                      handledGeneration := granted.handledGeneration.repr },
      Function.update table request.key (some granted))

def renew (table : CoordinationTable) (grant : SqliteDesktopLeaseGrant) (leaseTtlMs : ℕ)
    (reading : ℤ) :
    Except SqliteDesktopError (Option SqliteDesktopLeaseGrant × CoordinationTable) := do
  validateSqliteGrant grant
  validateTtl leaseTtlMs
  let fence ← parseDecimal "fence" grant.fence
  let nowMs ← storeNowMs reading
  let expiresAtMs ← expiryAfter nowMs leaseTtlMs
  match table grant.key with
  | none => pure (none, table)
  | some row =>
    if ownedUnexpired row grant.token fence nowMs then
      pure (some { grant with
              expiresAtMs
              wakeGeneration := row.wakeGeneration.repr
              handledGeneration := row.handledGeneration.repr },
        Function.update table grant.key (some { row with expiresAtMs }))
    else pure (none, table)

/-- The update repeats the condition that the row was read under. -/
def complete (table : CoordinationTable) (grant : SqliteDesktopLeaseGrant)
    (observedWakeGeneration : String) (reading : ℤ) :
    Except SqliteDesktopError (SqliteDesktopCompletion × CoordinationTable) := do
  validateSqliteGrant grant
  let observed ← parseDecimal "observed wake generation" observedWakeGeneration
  let fence ← parseDecimal "fence" grant.fence
  let nowMs ← storeNowMs reading
  let row ← readOwnedUnexpiredRow table grant.desktopGrant fence nowMs
  if h : row.wakeGeneration < observed then
    throw (.invalidConfiguration "observed wake generation is ahead of durable state")
  else
    let nextHandled := max observed row.handledGeneration
    let released : Bool := observed = row.wakeGeneration
    let completed : CoordinationRow :=
      { row with
        handledGeneration := nextHandled
        ownerToken := if released then none else row.ownerToken
        expiresAtMs := if released then 0 else row.expiresAtMs
        handled_le := max_le (Nat.not_lt.mp h) row.handled_le }
    if ownedUnexpired row grant.token fence nowMs then
      pure ({ released, currentWakeGeneration := row.wakeGeneration.repr
              handledGeneration := nextHandled.repr },
        Function.update table grant.key (some completed))
    else throw .staleFence

def releaseLease (table : CoordinationTable) (grant : DesktopLeaseGrant) (reading : ℤ) :
    Except SqliteDesktopError CoordinationTable := do
  validateGrant grant
  let fence ← parseDecimal "fence" grant.fence
  let _ ← storeNowMs reading
  match table grant.key with
  | none => pure table
  | some row =>
    if row.ownerToken = some grant.token ∧ row.fence = fence then
      pure (Function.update table grant.key
        (some { row with ownerToken := none, expiresAtMs := 0 }))
    else pure table

/-- `write` is the caller's part of the transaction, on its own tables. -/
def withFencedWrite {α ρ : Type} (table : CoordinationTable) (data : α) (grant : DesktopLeaseGrant)
    (write : α → Except SqliteDesktopError (ρ × α)) (before after : ℤ) :
    Except SqliteDesktopError (ρ × α) := do
  validateGrant grant
  let fence ← parseDecimal "fence" grant.fence
  let beforeMs ← storeNowMs before
  let _ ← readOwnedUnexpiredRow table grant fence beforeMs
  let result ← write data
  let afterMs ← storeNowMs after
  let _ ← readOwnedUnexpiredRow table grant fence afterMs
  pure result

def assertCurrentFence (table : CoordinationTable) (grant : DesktopLeaseGrant) (reading : ℤ) :
    Except SqliteDesktopError Unit := do
  validateGrant grant
  let fence ← parseDecimal "fence" grant.fence
  let nowMs ← storeNowMs reading
  let _ ← readOwnedUnexpiredRow table grant fence nowMs

def readState (table : CoordinationTable) (key : String) (reading : ℤ) :
    Except SqliteDesktopError (SqliteDesktopState × CoordinationTable) := do
  validateIdentifier "lease key" key
  let nowMs ← storeNowMs reading
  let table := ensureRow table key
  let row ← readRow table key
  pure ({ key, fence := row.fence.repr, expiresAtMs := row.expiresAtMs
          wakeGeneration := row.wakeGeneration.repr
          handledGeneration := row.handledGeneration.repr
          dirty := row.wakeGeneration ≠ row.handledGeneration
          owned := row.ownerToken.isSome && nowMs < row.expiresAtMs
          retryAfterMs := retryAfterMs row nowMs }, table)

/-- A key without a row reads as the row that the first call inserts. -/
def rowOf (table : CoordinationTable) (key : String) : CoordinationRow := (table key).getD emptyRow

@[simp] theorem rowOf_update (table : CoordinationTable) (key k : String) (row : CoordinationRow) :
    rowOf (Function.update table key (some row)) k = if k = key then row else rowOf table k := by
  by_cases hk : k = key
  · simp [rowOf, hk]
  · simp [rowOf, hk]

theorem rowOf_eq {table : CoordinationTable} {key : String} {row : CoordinationRow}
    (h : table key = some row) : rowOf table key = row := by
  simp [rowOf, h]

@[simp] theorem rowOf_ensureRow (table : CoordinationTable) (key k : String) :
    rowOf (ensureRow table key) k = rowOf table k := by
  unfold ensureRow
  split
  · rfl
  · rename_i hnone
    by_cases hk : k = key
    · simp [rowOf, hk, hnone]
    · simp [rowOf, hk]

theorem readRow_eq_ok {table : CoordinationTable} {key : String} {row : CoordinationRow} :
    readRow table key = .ok row ↔ table key = some row := by
  unfold readRow
  cases table key <;> simp

theorem parseDecimal_repr {name : String} {n : ℕ} (h : n ≤ maxI64) :
    parseDecimal name n.repr = .ok n := by
  have hp : Decimal.parseDecimal n.repr = some n := Decimal.parseDecimal_repr (by
    unfold maxU64; unfold maxI64 at h; omega)
  have hc : ¬ (n.repr.toList = [] ∨ n.repr.toList.all Char.isDigit = false ∨
      (1 < n.repr.utf8ByteSize ∧ n.repr.toList.head? = some '0')) := by
    intro hc
    rw [Decimal.parseDecimal, if_pos (by tauto)] at hp
    cases hp
  rw [parseDecimal, if_neg hc, parseI64_repr h]
  rfl

/-- The name only goes into the error. -/
theorem parseDecimal_of_ok {name name' value : String} {n : ℕ}
    (h : parseDecimal name value = .ok n) : parseDecimal name' value = .ok n := by
  unfold parseDecimal at h ⊢
  split at h
  · cases h
  · rename_i hc
    rw [if_neg hc]
    split at h
    · cases h
    · exact h

theorem signalWake_ok {table table' : CoordinationTable} {key : String} {reading : ℤ}
    {receipt : SqliteDesktopWakeReceipt}
    (h : signalWake table key reading = .ok (receipt, table')) :
    ∃ row, table' = Function.update (ensureRow table key) key (some row) ∧
      receipt.generation = row.wakeGeneration.repr ∧
      row.ownerToken = (rowOf table key).ownerToken ∧ row.fence = (rowOf table key).fence ∧
      row.expiresAtMs = (rowOf table key).expiresAtMs ∧
      row.wakeGeneration = (rowOf table key).wakeGeneration + 1 ∧
      row.handledGeneration = (rowOf table key).handledGeneration := by
  simp only [signalWake, bind_eq_ok, readRow_eq_ok] at h
  obtain ⟨-, -, nowMs, -, before, hbefore, h⟩ := h
  split at h
  · cases h
  · obtain ⟨rfl, rfl⟩ := Prod.mk.inj (Except.ok.inj h)
    have hrow := rowOf_eq hbefore
    rw [rowOf_ensureRow] at hrow
    exact ⟨_, rfl, rfl, by rw [hrow], by rw [hrow], by rw [hrow], by rw [hrow], by rw [hrow]⟩

theorem acquire_ok {table table' : CoordinationTable} {request : SqliteDesktopAcquireRequest}
    {reading : ℤ} {result : SqliteDesktopAcquireResult}
    (h : acquire table request reading = .ok (result, table')) :
    (∃ busy, result = .busy busy ∧ table' = ensureRow table request.key) ∨
    ∃ grant row, result = .acquired grant ∧
      table' = Function.update (ensureRow table request.key) request.key (some row) ∧
      grant.key = request.key ∧ grant.token = request.token ∧ grant.fence = row.fence.repr ∧
      grant.expiresAtMs = row.expiresAtMs ∧ grant.wakeGeneration = row.wakeGeneration.repr ∧
      row.ownerToken = some request.token ∧ row.fence = (rowOf table request.key).fence + 1 ∧
      row.wakeGeneration = (rowOf table request.key).wakeGeneration ∧
      row.handledGeneration = (rowOf table request.key).handledGeneration := by
  simp only [acquire, bind_eq_ok, readRow_eq_ok] at h
  obtain ⟨-, -, -, -, -, -, -, -, nowMs, -, current, hcurrent, h⟩ := h
  have hrow := rowOf_eq hcurrent
  rw [rowOf_ensureRow] at hrow
  split at h
  · obtain ⟨rfl, rfl⟩ := Prod.mk.inj (Except.ok.inj h)
    exact Or.inl ⟨_, rfl, rfl⟩
  · split at h
    · cases h
    · rw [bind_eq_ok] at h
      obtain ⟨expiresAtMs, -, h⟩ := h
      obtain ⟨rfl, rfl⟩ := Prod.mk.inj (Except.ok.inj h)
      exact Or.inr ⟨_, _, rfl, rfl, rfl, rfl, rfl, rfl, rfl, rfl, by rw [hrow], by rw [hrow],
        by rw [hrow]⟩

theorem renew_ok {table table' : CoordinationTable} {grant : SqliteDesktopLeaseGrant}
    {leaseTtlMs : ℕ} {reading : ℤ} {result : Option SqliteDesktopLeaseGrant}
    (h : renew table grant leaseTtlMs reading = .ok (result, table')) :
    (result = none ∧ table' = table) ∨
    ∃ row fence expiresAtMs, parseDecimal "fence" grant.fence = .ok fence ∧
      table grant.key = some row ∧ row.ownerToken = some grant.token ∧ row.fence = fence ∧
      result = some { grant with
        expiresAtMs
        wakeGeneration := row.wakeGeneration.repr
        handledGeneration := row.handledGeneration.repr } ∧
      table' = Function.update table grant.key (some { row with expiresAtMs }) := by
  simp only [renew, bind_eq_ok] at h
  obtain ⟨-, -, -, -, fence, hfence, nowMs, -, expiresAtMs, -, h⟩ := h
  split at h
  · obtain ⟨rfl, rfl⟩ := Prod.mk.inj (Except.ok.inj h)
    exact Or.inl ⟨rfl, rfl⟩
  · rename_i row hrow
    split at h
    · rename_i howned
      obtain ⟨rfl, rfl⟩ := Prod.mk.inj (Except.ok.inj h)
      simp only [ownedUnexpired, Bool.and_eq_true, decide_eq_true_eq] at howned
      exact Or.inr ⟨row, fence, expiresAtMs, hfence, hrow, howned.1.1, howned.1.2, rfl, rfl⟩
    · obtain ⟨rfl, rfl⟩ := Prod.mk.inj (Except.ok.inj h)
      exact Or.inl ⟨rfl, rfl⟩

theorem readOwnedUnexpiredRow_eq_ok {table : CoordinationTable} {grant : DesktopLeaseGrant}
    {fence nowMs : ℕ} {row : CoordinationRow} :
    readOwnedUnexpiredRow table grant fence nowMs = .ok row ↔
      table grant.key = some row ∧ row.ownerToken = some grant.token ∧ row.fence = fence ∧
        nowMs < row.expiresAtMs := by
  simp only [readOwnedUnexpiredRow, bind_eq_ok, readRow_eq_ok, ownedUnexpired, Bool.and_eq_true,
    decide_eq_true_eq]
  constructor
  · rintro ⟨row, hrow, h⟩
    split at h
    · rename_i howned
      obtain rfl := Except.ok.inj h
      exact ⟨hrow, howned.1.1, howned.1.2, howned.2⟩
    · cases h
  · rintro ⟨hrow, htoken, hfence, hexpires⟩
    exact ⟨row, hrow, by rw [if_pos ⟨⟨htoken, hfence⟩, hexpires⟩]; rfl⟩

theorem complete_ok {table table' : CoordinationTable} {grant : SqliteDesktopLeaseGrant}
    {observedWakeGeneration : String} {reading : ℤ} {completion : SqliteDesktopCompletion}
    (h : complete table grant observedWakeGeneration reading = .ok (completion, table')) :
    ∃ row row' observed fence nowMs,
      parseDecimal "observed wake generation" observedWakeGeneration = .ok observed ∧
      parseDecimal "fence" grant.fence = .ok fence ∧ storeNowMs reading = .ok nowMs ∧
      table grant.key = some row ∧ row.ownerToken = some grant.token ∧ row.fence = fence ∧
      nowMs < row.expiresAtMs ∧ observed ≤ row.wakeGeneration ∧
      (completion.released = true ↔ observed = row.wakeGeneration) ∧
      completion.currentWakeGeneration = row.wakeGeneration.repr ∧
      completion.handledGeneration = row'.handledGeneration.repr ∧
      table' = Function.update table grant.key (some row') ∧
      row'.handledGeneration = max observed row.handledGeneration ∧
      row'.wakeGeneration = row.wakeGeneration ∧ row'.fence = row.fence ∧
      row'.ownerToken = (if completion.released then none else row.ownerToken) ∧
      row'.expiresAtMs = if completion.released then 0 else row.expiresAtMs := by
  simp only [complete, bind_eq_ok, readOwnedUnexpiredRow_eq_ok] at h
  obtain ⟨-, -, observed, hobserved, fence, hfence, nowMs, hnow, row, ⟨hrow, htoken, hrowFence,
    hexpires⟩, h⟩ := h
  split at h
  · cases h
  · rename_i hle
    split at h
    · obtain ⟨rfl, rfl⟩ := Prod.mk.inj (Except.ok.inj h)
      exact ⟨row, _, observed, fence, nowMs, hobserved, hfence, hnow, hrow, htoken, hrowFence,
        hexpires, Nat.not_lt.mp hle, decide_eq_true_iff, rfl, rfl, rfl, rfl, rfl, rfl, rfl, rfl⟩
    · cases h

theorem releaseLease_ok {table table' : CoordinationTable} {grant : DesktopLeaseGrant}
    {reading : ℤ} (h : releaseLease table grant reading = .ok table') :
    ∃ fence, parseDecimal "fence" grant.fence = .ok fence ∧
      ((table' = table ∧ ∀ row, table grant.key = some row →
          ¬ (row.ownerToken = some grant.token ∧ row.fence = fence)) ∨
      ∃ row, table grant.key = some row ∧ row.ownerToken = some grant.token ∧ row.fence = fence ∧
        table' = Function.update table grant.key
          (some { row with ownerToken := none, expiresAtMs := 0 })) := by
  simp only [releaseLease, bind_eq_ok] at h
  obtain ⟨-, -, fence, hfence, nowMs, -, h⟩ := h
  refine ⟨fence, hfence, ?_⟩
  split at h
  · rename_i hnone
    obtain rfl := Except.ok.inj h
    exact Or.inl ⟨rfl, by simp [hnone]⟩
  · rename_i row hrow
    split at h
    · rename_i howned
      obtain rfl := Except.ok.inj h
      exact Or.inr ⟨row, hrow, howned.1, howned.2, rfl⟩
    · rename_i howned
      obtain rfl := Except.ok.inj h
      exact Or.inl ⟨rfl, fun r hr => Option.some.inj (hrow.symm.trans hr) ▸ howned⟩

theorem withFencedWrite_ok {α ρ : Type} {table : CoordinationTable} {data data' : α}
    {grant : DesktopLeaseGrant} {write : α → Except SqliteDesktopError (ρ × α)}
    {before after : ℤ} {result : ρ}
    (h : withFencedWrite table data grant write before after = .ok (result, data')) :
    ∃ fence beforeMs afterMs row, parseDecimal "fence" grant.fence = .ok fence ∧
      storeNowMs before = .ok beforeMs ∧ storeNowMs after = .ok afterMs ∧
      table grant.key = some row ∧ row.ownerToken = some grant.token ∧ row.fence = fence ∧
      beforeMs < row.expiresAtMs ∧ afterMs < row.expiresAtMs ∧
      write data = .ok (result, data') := by
  simp only [withFencedWrite, bind_eq_ok, readOwnedUnexpiredRow_eq_ok] at h
  obtain ⟨-, -, fence, hfence, beforeMs, hbefore, row, ⟨hrow, htoken, hrowFence, hb⟩, written,
    hwrite, afterMs, hafter, row', ⟨hrow', -, -, ha⟩, h⟩ := h
  obtain rfl := Except.ok.inj h
  obtain rfl := Option.some.inj (hrow.symm.trans hrow')
  exact ⟨fence, beforeMs, afterMs, row, hfence, hbefore, hafter, hrow, htoken, hrowFence, hb, ha,
    hwrite⟩

theorem readState_ok {table table' : CoordinationTable} {key : String} {reading : ℤ}
    {state : SqliteDesktopState} (h : readState table key reading = .ok (state, table')) :
    table' = ensureRow table key := by
  simp only [readState, bind_eq_ok] at h
  obtain ⟨-, -, nowMs, -, row, -, h⟩ := h
  exact (Prod.mk.inj (Except.ok.inj h)).2.symm

end SqliteDesktopCoordinator
end OptoSync
