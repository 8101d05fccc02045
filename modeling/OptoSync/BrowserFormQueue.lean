import OptoSync.IndexedDbQueue
import OptoSync.Transition

/-!
# The form queue of a page

`BrowserFormQueue` keeps the mutations of forms in a store of its own, each as it was given. A call
that throws leaves the store as it was.
-/
namespace OptoSync.Forms
open Transition

namespace FormMutationStatus

def pending : ℤ := 0
def synced : ℤ := 1
def failed : ℤ := 2

/-- `FORM_SYNC_STATUS`, as the numbers that are stored. -/
def values : List ℤ := [pending, synced, failed]

end FormMutationStatus

structure BrowserFormMutation where
  id : ℕ
  tableName : String
  recordId : String
  jsonPayload : String
  createdAt : ℕ
  syncStatus : ℤ
  operation : Operation
  attempts : ℕ
  baseRevision : Option String
  resurrect : Option Bool
  consistencyPolicy : Option String
  deriving DecidableEq

/-- The object store `formMutations` in key order, with its key generator. -/
structure FormDatabase where
  formMutations : List BrowserFormMutation
  nextId : ℕ
  sorted : formMutations.Pairwise fun a b => a.id < b.id
  fresh : ∀ row ∈ formMutations, row.id < nextId

namespace FormDatabase

def created : FormDatabase where
  formMutations := []
  nextId := 1
  sorted := .nil
  fresh := fun _ h => absurd h List.not_mem_nil

def isPending (row : BrowserFormMutation) : Bool := row.syncStatus = FormMutationStatus.pending

def add (db : FormDatabase) (row : BrowserFormMutation) : FormDatabase :=
  { formMutations := db.formMutations ++ [{ row with id := db.nextId }]
    nextId := db.nextId + 1
    sorted := by
      rw [List.pairwise_append]
      refine ⟨db.sorted, List.pairwise_singleton _ _, ?_⟩
      intro a ha b hb
      rw [List.mem_singleton.mp hb]
      exact db.fresh a ha
    fresh := by
      intro r hr
      rcases List.mem_append.mp hr with hr | hr
      · exact Nat.lt_succ_of_lt (db.fresh r hr)
      · rw [List.mem_singleton.mp hr]
        exact Nat.lt_succ_self _ }

def withStatus (id syncStatus : ℤ) (row : BrowserFormMutation) : BrowserFormMutation :=
  if row.id = id then { row with syncStatus } else row

@[simp] theorem withStatus_id (id syncStatus : ℤ) (row : BrowserFormMutation) :
    (withStatus id syncStatus row).id = row.id := by
  unfold withStatus
  split <;> rfl

def putStatus (db : FormDatabase) (id syncStatus : ℤ) : FormDatabase :=
  { db with
    formMutations := db.formMutations.map (withStatus id syncStatus)
    sorted := by simpa [List.pairwise_map] using db.sorted
    fresh := by simpa using db.fresh }

def delete (db : FormDatabase) (id : ℤ) : FormDatabase :=
  { db with
    formMutations := db.formMutations.filter fun row => (row.id : ℤ) ≠ id
    sorted := db.sorted.filter _
    fresh := fun row h => db.fresh row (List.mem_filter.mp h).1 }

end FormDatabase

/-- What `String.prototype.trim` takes off. -/
def isBlank (c : Char) : Bool :=
  c.toNat ∈ [0x09, 0x0a, 0x0b, 0x0c, 0x0d, 0x20, 0xa0, 0x1680, 0x2028, 0x2029, 0x202f, 0x205f,
    0x3000, 0xfeff] || (0x2000 ≤ c.toNat && c.toNat ≤ 0x200a)

def trim (value : String) : String :=
  String.ofList ((value.toList.dropWhile isBlank).rdropWhile isBlank)

def required (value label : String) : Except String String :=
  if trim value = "" then .error (label ++ " must not be blank") else .ok (trim value)

def maxSafeInteger : ℤ := 2 ^ 53 - 1

structure BrowserFormQueue where
  databaseName : String
  maxPending : ℤ
  maxBytes : ℤ
  pending_pos : 1 ≤ maxPending
  bytes_min : 2 ≤ maxBytes

namespace BrowserFormQueue
open FormDatabase

variable (queue : BrowserFormQueue)

/-- `jsonPayload` is the payload as `JSON.stringify` wrote it. The policy is not looked at. -/
def queueMutation (db : FormDatabase) (tableName recordId jsonPayload : String)
    (protocol : ProtocolMutationOptions) (createdAt : ℕ) : Except String (ℕ × FormDatabase) := do
  let bytes := jsonPayload.utf8ByteSize
  if queue.maxBytes < bytes then
    throw ("queued form payload is " ++ bytes.repr ++ " bytes; limit is " ++
      toString queue.maxBytes)
  if queue.maxPending ≤ (db.formMutations.filter isPending).length then
    throw ("pending form queue has reached " ++ toString queue.maxPending)
  let tableName ← required tableName "tableName"
  let recordId ← required recordId "recordId"
  let row : BrowserFormMutation :=
    { id := 0, tableName, recordId, jsonPayload, createdAt, syncStatus := FormMutationStatus.pending
      operation := .upsert, attempts := 0, baseRevision := protocol.baseRevision
      resurrect := protocol.resurrect, consistencyPolicy := protocol.consistencyPolicy }
  pure (db.nextId, db.add row)

def pendingMutations (db : FormDatabase) (tableName : Option String) : List BrowserFormMutation :=
  let rows := db.formMutations.filter isPending
  (rows.filter fun row => tableName.all (row.tableName = ·)).mergeSort fun a b => a.id ≤ b.id

def markMutation (db : FormDatabase) (id syncStatus : ℤ) : Except String FormDatabase := do
  if id < 1 ∨ maxSafeInteger < id then throw "invalid mutation id"
  if syncStatus ∉ FormMutationStatus.values then throw "invalid form sync status"
  if db.formMutations.all (fun row => (row.id : ℤ) ≠ id) then
    throw ("form mutation " ++ toString id ++ " was not found")
  pure (db.putStatus id syncStatus)

def deleteMutation (db : FormDatabase) (id : ℤ) : Except String FormDatabase := do
  if id < 1 ∨ maxSafeInteger < id then throw "invalid mutation id"
  pure (db.delete id)

inductive FormCall
  | queueMutation (tableName recordId jsonPayload : String) (protocol : ProtocolMutationOptions)
      (createdAt : ℕ)
  | markMutation (id syncStatus : ℤ)
  | deleteMutation (id : ℤ)

def perform (db : FormDatabase) : FormCall → Except String FormDatabase
  | .queueMutation tableName recordId jsonPayload protocol createdAt =>
    (queue.queueMutation db tableName recordId jsonPayload protocol createdAt).map Prod.snd
  | .markMutation id syncStatus => markMutation db id syncStatus
  | .deleteMutation id => deleteMutation db id

def next (db : FormDatabase) (call : FormCall) : FormDatabase :=
  match queue.perform db call with
  | .ok db' => db'
  | .error _ => db

/-- The pending rows come in the order in which they were queued. -/
theorem pendingMutations_eq (db : FormDatabase) (tableName : Option String) :
    pendingMutations db tableName =
      (db.formMutations.filter isPending).filter fun row => tableName.all (row.tableName = ·) := by
  apply List.mergeSort_of_pairwise
  refine ((db.sorted.filter _).filter _).imp ?_
  intro a b h
  exact decide_eq_true h.le

/-- A mutation fits into the queue; its options play no part. -/
structure Accepts (db : FormDatabase) (tableName recordId jsonPayload : String) : Prop where
  bytes : jsonPayload.utf8ByteSize ≤ queue.maxBytes
  pending : (db.formMutations.filter isPending).length < queue.maxPending
  tableName : trim tableName ≠ ""
  recordId : trim recordId ≠ ""

variable {queue}

theorem queueMutation_eq_ok {db : FormDatabase} {tableName recordId jsonPayload : String}
    {protocol : ProtocolMutationOptions} {createdAt : ℕ} {result : ℕ × FormDatabase} :
    queue.queueMutation db tableName recordId jsonPayload protocol createdAt = .ok result ↔
      queue.Accepts db tableName recordId jsonPayload ∧ result = (db.nextId, db.add
        { id := 0, tableName := trim tableName, recordId := trim recordId, jsonPayload, createdAt
          syncStatus := FormMutationStatus.pending, operation := .upsert, attempts := 0
          baseRevision := protocol.baseRevision, resurrect := protocol.resurrect
          consistencyPolicy := protocol.consistencyPolicy }) := by
  unfold queueMutation
  by_cases hbytes : queue.maxBytes < jsonPayload.utf8ByteSize
  · have hnot : ¬ queue.Accepts db tableName recordId jsonPayload := fun h =>
      absurd h.bytes (not_le.mpr hbytes)
    simp [hbytes, hnot, bind, Except.bind, throw, throwThe, MonadExceptOf.throw]
  by_cases hpending : queue.maxPending ≤ (db.formMutations.filter isPending).length
  · have hnot : ¬ queue.Accepts db tableName recordId jsonPayload := fun h =>
      absurd h.pending (not_lt.mpr hpending)
    simp [hbytes, hpending, hnot, bind, Except.bind, throw, throwThe, MonadExceptOf.throw]
  by_cases htable : trim tableName = ""
  · have hnot : ¬ queue.Accepts db tableName recordId jsonPayload := fun h => h.tableName htable
    simp [hbytes, hpending, htable, hnot, required, bind, Except.bind]
  by_cases hrecord : trim recordId = ""
  · have hnot : ¬ queue.Accepts db tableName recordId jsonPayload := fun h => h.recordId hrecord
    simp [hbytes, hpending, htable, hrecord, hnot, required, bind, Except.bind]
  · have haccepts : queue.Accepts db tableName recordId jsonPayload :=
      ⟨not_lt.mp hbytes, not_le.mp hpending, htable, hrecord⟩
    simp [hbytes, hpending, htable, hrecord, haccepts, required, bind, Except.bind, pure,
      Except.pure, eq_comm]

theorem queueMutation_refused_iff {db : FormDatabase} {tableName recordId jsonPayload : String}
    {protocol : ProtocolMutationOptions} {createdAt : ℕ} :
    (∃ message, queue.queueMutation db tableName recordId jsonPayload protocol createdAt =
      .error message) ↔ ¬ queue.Accepts db tableName recordId jsonPayload := by
  cases hresult : queue.queueMutation db tableName recordId jsonPayload protocol createdAt with
  | ok result => simp [(queueMutation_eq_ok.mp hresult).1]
  | error message =>
    have hnot : ¬ queue.Accepts db tableName recordId jsonPayload := fun h => by
      rw [queueMutation_eq_ok.mpr ⟨h, rfl⟩] at hresult
      cases hresult
    simp [hnot]

theorem markMutation_eq_ok {db db' : FormDatabase} {id syncStatus : ℤ}
    (h : markMutation db id syncStatus = .ok db') :
    syncStatus ∈ FormMutationStatus.values ∧ db' = db.putStatus id syncStatus := by
  unfold markMutation at h
  split_ifs at h <;>
    simp only [bind, Except.bind, throw, throwThe, MonadExceptOf.throw, reduceCtorEq, pure,
      Except.pure, Except.ok.injEq] at h
  exact ⟨‹_›, h.symm⟩

theorem deleteMutation_eq_ok {db db' : FormDatabase} {id : ℤ}
    (h : deleteMutation db id = .ok db') : db' = db.delete id := by
  unfold deleteMutation at h
  split_ifs at h
  · cases h
  · exact (Except.ok.inj h).symm

/-- What a call that succeeds does to the store. -/
theorem perform_cases {db db' : FormDatabase} {call : FormCall}
    (h : queue.perform db call = .ok db') :
    (∃ row : BrowserFormMutation, db' = db.add row ∧ row.syncStatus = FormMutationStatus.pending ∧
      row.jsonPayload.utf8ByteSize ≤ queue.maxBytes ∧ row.tableName ≠ "" ∧ row.recordId ≠ "") ∨
    (∃ id, ∃ syncStatus ∈ FormMutationStatus.values, db' = db.putStatus id syncStatus) ∨
      ∃ id, db' = db.delete id := by
  cases call with
  | queueMutation tableName recordId jsonPayload protocol createdAt =>
    obtain ⟨result, hresult, rfl⟩ : ∃ result, queue.queueMutation db tableName recordId jsonPayload
        protocol createdAt = .ok result ∧ result.2 = db' := by
      revert h
      simp only [perform]
      cases queue.queueMutation db tableName recordId jsonPayload protocol createdAt with
      | ok result => exact fun h => ⟨result, rfl, Except.ok.inj h⟩
      | error message => exact fun h => nomatch h
    obtain ⟨haccepts, rfl⟩ := queueMutation_eq_ok.mp hresult
    exact .inl ⟨_, rfl, rfl, haccepts.bytes, haccepts.tableName, haccepts.recordId⟩
  | markMutation id syncStatus =>
    obtain ⟨hstatus, rfl⟩ := markMutation_eq_ok h
    exact .inr (.inl ⟨id, syncStatus, hstatus, rfl⟩)
  | deleteMutation id => exact .inr (.inr ⟨id, deleteMutation_eq_ok h⟩)

/-- A row that the queue may have written. -/
structure Kept (queue : BrowserFormQueue) (row : BrowserFormMutation) : Prop where
  bytes : row.jsonPayload.utf8ByteSize ≤ queue.maxBytes
  tableName : row.tableName ≠ ""
  recordId : row.recordId ≠ ""
  syncStatus : row.syncStatus ∈ FormMutationStatus.values

theorem next_kept {db : FormDatabase} (h : ∀ row ∈ db.formMutations, queue.Kept row)
    (call : FormCall) : ∀ row ∈ (queue.next db call).formMutations, queue.Kept row := by
  unfold next
  cases hperform : queue.perform db call with
  | error message => exact h
  | ok db' =>
    intro row hrow
    obtain ⟨added, rfl, hstatus, hbytes, htable, hrecord⟩ | ⟨id, syncStatus, hstatus, rfl⟩ |
      ⟨id, rfl⟩ := perform_cases hperform
    · rcases List.mem_append.mp hrow with hrow | hrow
      · exact h row hrow
      · rw [List.mem_singleton.mp hrow]
        exact ⟨hbytes, htable, hrecord, by rw [hstatus]; decide⟩
    · obtain ⟨old, hold, rfl⟩ := List.mem_map.mp hrow
      unfold withStatus
      split
      · exact ⟨(h old hold).bytes, (h old hold).tableName, (h old hold).recordId, hstatus⟩
      · exact h old hold
    · exact h row (List.mem_filter.mp hrow).1

/-- Every row of a store that only the queue has written is within its limits. -/
theorem run_kept (calls : List FormCall) :
    ∀ row ∈ (run queue.next .created calls).formMutations, queue.Kept row :=
  run_invariant (I := fun db : FormDatabase => ∀ row ∈ db.formMutations, queue.Kept row)
    (fun _ call h => next_kept h call) (fun _ h => absurd h List.not_mem_nil) calls

/-- `later` holds what `db` held, but for statuses and deletions. -/
structure Continues (db later : FormDatabase) : Prop where
  nextId : db.nextId ≤ later.nextId
  frozen : ∀ row ∈ later.formMutations, row.id < db.nextId →
    ∃ old ∈ db.formMutations, row = { old with syncStatus := row.syncStatus }

theorem Continues.next {db later : FormDatabase} (h : Continues db later) (call : FormCall) :
    Continues db (queue.next later call) := by
  unfold BrowserFormQueue.next
  cases hperform : queue.perform later call with
  | error message => exact h
  | ok later' =>
    obtain ⟨added, rfl, -⟩ | ⟨id, syncStatus, -, rfl⟩ | ⟨id, rfl⟩ := perform_cases hperform
    · refine ⟨h.nextId.trans (Nat.le_succ _), fun row hrow hid => ?_⟩
      rcases List.mem_append.mp hrow with hrow | hrow
      · exact h.frozen row hrow hid
      · rw [List.mem_singleton.mp hrow] at hid
        exact absurd (lt_of_le_of_lt h.nextId hid) (lt_irrefl _)
    · refine ⟨h.nextId, fun row hrow hid => ?_⟩
      obtain ⟨before, hbefore, rfl⟩ := List.mem_map.mp hrow
      rw [withStatus_id] at hid
      obtain ⟨old, hold, heq⟩ := h.frozen before hbefore hid
      refine ⟨old, hold, ?_⟩
      unfold withStatus
      split
      · rw [heq]
      · exact heq
    · exact ⟨h.nextId, fun row hrow hid => h.frozen row (List.mem_filter.mp hrow).1 hid⟩

/-- A queued mutation keeps its content, its policy included, for as long as it is in the store, and
its id is given to no other. -/
theorem run_continues (db : FormDatabase) (calls : List FormCall) :
    Continues db (run queue.next db calls) :=
  run_invariant (I := Continues db) (fun _ call h => h.next call)
    ⟨le_refl _, fun row hrow _ => ⟨row, hrow, rfl⟩⟩ calls

end BrowserFormQueue
end OptoSync.Forms
