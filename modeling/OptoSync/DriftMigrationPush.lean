import OptoSync.DriftMigration

/-!
# Pushing after the migration

What the client sends from an upgraded database, now and in any later run, and the numbers of the
mutations it queues there.
-/
namespace OptoSync
namespace Dart
open Transition

theorem trimEnds_eq_self {space : Char → Bool} {cs : List Char} (h : ∀ c ∈ cs, space c = false) :
    trimEnds space cs = cs := by
  have hdrop : ∀ ds : List Char, (∀ c ∈ ds, space c = false) → ds.dropWhile space = ds := by
    intro ds hds
    cases ds with
    | nil => rfl
    | cons d ds => rw [List.dropWhile_cons_of_neg (by simp [hds d])]
  unfold trimEnds
  rw [hdrop cs h, hdrop cs.reverse (by simpa using h), List.reverse_reverse]

theorem not_isSpace_of_isDigit {c : Char} (h : c.isDigit = true) : isSpace c = false := by
  have hc := digit_bounds.mp h
  simp only [isSpace, Bool.or_eq_false_iff, Bool.and_eq_false_iff, decide_eq_false_iff_not,
    List.contains_eq_mem, List.mem_cons, List.not_mem_nil, or_false]
  omega

theorem magnitude_of_digits {cs : List Char} (hne : cs ≠ [])
    (hdigits : ∀ c ∈ cs, c.isDigit = true) :
    magnitude cs = some (Nat.ofDigitChars 10 cs 0) := by
  unfold magnitude
  split
  · exact absurd rfl hne
  · exact absurd (hdigits 'x' (by simp)) (by decide)
  · exact absurd (hdigits 'X' (by simp)) (by decide)
  · rw [if_pos (List.all_eq_true.mpr hdigits)]

theorem bigIntTryParse_repr (n : ℕ) : bigIntTryParse n.repr = some (n : ℤ) := by
  obtain ⟨hne, hdigits, -⟩ := Decimal.canonical_toDigits n
  have hmagnitude := magnitude_of_digits hne hdigits
  rw [Nat.ofDigitChars_ten_toDigits] at hmagnitude
  unfold bigIntTryParse
  rw [Decimal.toList_repr, trimEnds_eq_self fun c hc => not_isSpace_of_isDigit (hdigits c hc)]
  split
  · rename_i ds hds
    exact absurd (hdigits '-' (by simp [hds])) (by decide)
  · rename_i ds hds
    exact absurd (hdigits '+' (by simp [hds])) (by decide)
  · rw [hmagnitude]
    rfl

variable (jsonDecode : String → Option Json)

def LegacyMutation.Sendable (m : LegacyMutation) : Prop :=
  ∃ fields, jsonDecode m.jsonPayload = some (.object fields)

/-- The mutation of a pending row at an index: an upsert of the payload as it is. -/
def LegacyMutation.pushed (m : LegacyMutation) (index : ℕ) : Json :=
  .object [("mutationId", .string (index + 1).repr), ("operation", .string "upsert"),
    ("table", .string m.targetTable), ("recordId", .string m.recordId),
    ("payload", (jsonDecode m.jsonPayload).getD .null)]

variable {jsonDecode} {identity : String}

theorem encodeProtocolRow_adopted {m : LegacyMutation} {index : ℕ} {encoded : Json} :
    OptoSyncClient.encodeProtocolRow jsonDecode (adopted identity index m.row) (index + 1).repr =
      .ok encoded ↔ m.Sendable jsonDecode ∧ encoded = m.pushed jsonDecode index := by
  have hpayload : (adopted identity index m.row).jsonPayload = m.jsonPayload := rfl
  unfold OptoSyncClient.encodeProtocolRow LegacyMutation.Sendable LegacyMutation.pushed
  rw [if_pos (by rfl), hpayload]
  cases hdecode : jsonDecode m.jsonPayload with
  | none => simp
  | some payload =>
    cases payload with
    | object fields =>
      simp only [Except.ok.injEq, Option.some.injEq, Json.object.injEq, exists_eq', true_and,
        Option.getD_some]
      exact eq_comm
    | _ => simp

theorem encodeNext_adopted {previous : Option ℤ} {index : ℕ}
    (hprevious : ∀ p ∈ previous, p = index) {m : LegacyMutation} {current : ℤ} {encoded : Json} :
    OptoSyncClient.encodeNext jsonDecode identity previous (adopted identity index m.row) =
      .ok (current, encoded) ↔
        m.Sendable jsonDecode ∧ current = (index + 1 : ℕ) ∧ encoded = m.pushed jsonDecode index := by
  have hnot : previous.any (fun previous => ((index + 1 : ℕ) : ℤ) ≠ previous + 1) = false := by
    cases previous with
    | none => rfl
    | some p =>
      rw [hprevious p rfl]
      simp
  have hpos : ¬ ((index + 1 : ℕ) : ℤ) ≤ 0 := by omega
  have hencode : OptoSyncClient.encodeNext jsonDecode identity previous
      (adopted identity index m.row) =
      (OptoSyncClient.encodeProtocolRow jsonDecode (adopted identity index m.row)
        (index + 1).repr).map fun encoded => (((index + 1 : ℕ) : ℤ), encoded) := by
    unfold OptoSyncClient.encodeNext
    simp only [adopted, bigIntTryParse_repr, hnot, if_neg hpos, ne_eq, not_true_eq_false, if_false,
      Bool.false_eq_true]
    rfl
  rw [hencode]
  constructor
  · intro h
    cases hrow : OptoSyncClient.encodeProtocolRow jsonDecode (adopted identity index m.row)
        (index + 1).repr with
    | error message =>
      rw [hrow] at h
      cases h
    | ok value =>
      rw [hrow] at h
      cases h
      obtain ⟨hsend, rfl⟩ := encodeProtocolRow_adopted.mp hrow
      exact ⟨hsend, rfl, rfl⟩
  · rintro ⟨hsend, rfl, rfl⟩
    rw [encodeProtocolRow_adopted.mpr ⟨hsend, rfl⟩]
    rfl

theorem encodeMutations_adopted {previous : Option ℤ} {index : ℕ}
    (hprevious : ∀ p ∈ previous, p = index) {ms : List LegacyMutation} {mutations : List Json} :
    OptoSyncClient.encodeMutations jsonDecode identity previous
        ((ms.zipIdx index).map fun m => adopted identity m.2 m.1.row) = .ok mutations ↔
      (∀ m ∈ ms, m.Sendable jsonDecode) ∧
        mutations = (ms.zipIdx index).map fun m => m.1.pushed jsonDecode m.2 := by
  induction ms generalizing previous index mutations with
  | nil => simp [OptoSyncClient.encodeMutations, eq_comm]
  | cons m ms ih =>
    rw [List.zipIdx_cons, List.map_cons, List.map_cons, List.forall_mem_cons,
      OptoSyncClient.encodeMutations, bind_eq_ok]
    constructor
    · rintro ⟨⟨current, encoded⟩, hnext, hrest⟩
      obtain ⟨hsend, rfl, rfl⟩ := (encodeNext_adopted hprevious).mp hnext
      obtain ⟨rest, hmutations, heq⟩ := bind_eq_ok.mp hrest
      obtain ⟨hall, rfl⟩ := (ih (by simp)).mp hmutations
      exact ⟨⟨hsend, hall⟩, (Except.ok.inj heq).symm⟩
    · rintro ⟨⟨hsend, hall⟩, rfl⟩
      refine ⟨_, (encodeNext_adopted hprevious).mpr ⟨hsend, rfl, rfl⟩, ?_⟩
      exact bind_eq_ok.mpr ⟨_, (ih (by simp)).mpr ⟨hall, rfl⟩, rfl⟩

theorem take_zipIdx_map {α β : Type} (l : List α) (f : α × ℕ → β) (n : ℕ) :
    (l.zipIdx.map f).take n = (l.take n).zipIdx.map f := by
  rw [← List.map_take]
  congr 1
  apply List.ext_getElem?
  intro i
  simp only [List.getElem?_take, List.getElem?_zipIdx]
  split <;> rfl

/-- What is sent from the upgraded database: the first pending rows in their order. -/
theorem protocolPushRequest_onUpgrade {db : LegacyDatabase} {tables : Tables}
    {client : OptoSyncClient} (h : Adopted db tables client.clientId) {limit : ℕ}
    (hone : 1 ≤ limit) (hmax : limit ≤ 100) {request : Json} :
    client.protocolPushRequest jsonDecode tables.database limit = .ok request ↔
      (∀ m ∈ db.pending.take limit, m.Sendable jsonDecode) ∧
        request = .object [("protocolVersion", .number (.int 1)),
          ("clientId", .string client.clientId),
          ("mutations", .array
            ((db.pending.take limit).zipIdx.map fun m => m.1.pushed jsonDecode m.2))] := by
  have hrows : (tables.database.localMutations.filter isPending).take limit =
      (db.pending.take limit).zipIdx.map fun m => adopted client.clientId m.2 m.1.row := by
    rw [show tables.database.localMutations = tables.localMutations from rfl, h.pending,
      take_zipIdx_map]
  unfold OptoSyncClient.protocolPushRequest OptoSyncClient.encodeProtocolRows
  rw [OptoSyncClient.pendingMutations_eq _ hone hmax, hrows, bind_eq_ok]
  constructor
  · rintro ⟨rows, hok, hrequest⟩
    cases hok
    obtain ⟨mutations, hmutations, heq⟩ := bind_eq_ok.mp hrequest
    obtain ⟨hall, rfl⟩ := (encodeMutations_adopted (by simp)).mp hmutations
    exact ⟨hall, (Except.ok.inj heq).symm⟩
  · rintro ⟨hall, rfl⟩
    refine ⟨_, rfl, ?_⟩
    exact bind_eq_ok.mpr ⟨_, (encodeMutations_adopted (by simp)).mpr ⟨hall, rfl⟩, rfl⟩

def ClientCall.queues : ClientCall → Bool
  | .queueMutation .. | .queueDelete .. => true
  | .markSynced _ | .pruneConfirmed _ => false

/-- What stays true of the upgraded queue: the sequence counts the rows queued since, and no row of
another status becomes pending. -/
structure Continues (db : LegacyDatabase) (queue : OptoSyncDatabase) : Prop where
  nextId : db.nextId ≤ queue.nextId
  sequence : queue.mutationSeq + db.nextId = db.pending.length + queue.nextId
  others : ∀ m ∈ db.others, ∀ row ∈ queue.localMutations, row.id = m.id → isPending row = false

namespace Continues

variable {db : LegacyDatabase} {queue : OptoSyncDatabase}

theorem insert (h : Continues db queue) (row : Mutation) : Continues db (queue.insert row) where
  nextId := Nat.le_succ_of_le h.nextId
  sequence := by
    have := h.sequence
    simp only [OptoSyncDatabase.insert]
    omega
  others := by
    intro m hm r hr hid
    rcases List.mem_append.mp hr with hr | hr
    · exact h.others m hm r hr hid
    · have hold := db.fresh m (List.mem_filter.mp hm).1
      have hnew := h.nextId
      rw [List.mem_singleton.mp hr] at hid
      simp only at hid
      omega

theorem markSynced (h : Continues db queue) (ids : List ℕ) :
    Continues db (queue.markSynced ids) where
  nextId := h.nextId
  sequence := h.sequence
  others := by
    intro m hm r hr hid
    obtain ⟨row, hrow, rfl⟩ := List.mem_map.mp hr
    rw [OptoSyncDatabase.withSynced_id] at hid
    have hnot := h.others m hm row hrow hid
    unfold OptoSyncDatabase.withSynced
    split
    · rfl
    · exact hnot

theorem delete (h : Continues db queue) (ids : List ℕ) : Continues db (queue.delete ids) where
  nextId := h.nextId
  sequence := h.sequence
  others := fun m hm r hr => h.others m hm r (List.mem_filter.mp hr).1

theorem next (h : Continues db queue) (client : OptoSyncClient) (call : ClientCall) :
    Continues db (client.next queue call) := by
  unfold OptoSyncClient.next
  cases hperform : client.perform queue call with
  | error message => exact h
  | ok queue' =>
    cases call with
    | queueMutation tableName recordId jsonPayload baseRevision resurrect policy createdAt =>
      rw [OptoSyncClient.queue_eq hperform]
      exact h.insert _
    | queueDelete tableName recordId baseRevision policy createdAt =>
      rw [OptoSyncClient.queue_eq hperform]
      exact h.insert _
    | markSynced ids =>
      cases hperform
      exact h.markSynced ids
    | pruneConfirmed retain =>
      cases hperform
      exact h.delete _

/-- No batch holds a row that is not pending. -/
theorem not_sent (h : Continues db queue) {limit : ℕ} {rows : List Mutation}
    (hrows : OptoSyncClient.pendingMutations queue limit = .ok rows) :
    ∀ m ∈ db.others, ∀ row ∈ rows, row.id ≠ m.id := by
  intro m hm row hrow hid
  unfold OptoSyncClient.pendingMutations at hrows
  split at hrows
  · cases hrows
  · cases hrows
    rw [OptoSyncDatabase.orderById_filter queue.sorted] at hrow
    obtain ⟨hmem, hpending⟩ := List.mem_filter.mp (List.mem_of_mem_take hrow)
    rw [h.others m hm row hmem hid] at hpending
    cases hpending

/-- A mutation gets the number after the pending rows and all rows queued before it. -/
theorem queued (h : Continues db queue) {client : OptoSyncClient} {call : ClientCall}
    {queue' : OptoSyncDatabase} (hqueues : call.queues = true)
    (hperform : client.perform queue call = .ok queue') :
    ∃ row, queue'.localMutations = queue.localMutations ++ [row] ∧
      row.clientId = some client.clientId ∧
      row.mutationId = some (db.pending.length + (queue.nextId - db.nextId) + 1).repr := by
  have hnumber : queue.mutationSeq + 1 = db.pending.length + (queue.nextId - db.nextId) + 1 := by
    have := h.sequence
    have := h.nextId
    omega
  cases call with
  | queueMutation tableName recordId jsonPayload baseRevision resurrect policy createdAt =>
    rw [OptoSyncClient.queue_eq hperform, hnumber]
    exact ⟨_, rfl, rfl, rfl⟩
  | queueDelete tableName recordId baseRevision policy createdAt =>
    rw [OptoSyncClient.queue_eq hperform, hnumber]
    exact ⟨_, rfl, rfl, rfl⟩
  | markSynced ids => cases hqueues
  | pruneConfirmed retain => cases hqueues

end Continues

theorem Adopted.continues {db : LegacyDatabase} {tables : Tables} (h : Adopted db tables identity) :
    Continues db tables.database where
  nextId := h.nextId.ge
  sequence := by
    have hseq : tables.database.mutationSeq = db.pending.length := by
      rw [Tables.database, h.sequence, Option.getD_some, bigIntTryParse_repr]
      rfl
    rw [hseq, show tables.database.nextId = tables.nextId from rfl, h.nextId]
  others := by
    intro m hm row hrow hid
    have hother : m.row ∈ tables.localMutations.filter (!isPending ·) := by
      rw [h.others]
      exact List.mem_map_of_mem hm
    obtain ⟨hmem, hnot⟩ := List.mem_filter.mp hother
    have hnodup : (tables.localMutations.map Mutation.id).Nodup := by
      rw [List.Nodup, List.pairwise_map]
      exact tables.sorted.imp fun hlt => hlt.ne
    rw [List.inj_on_of_nodup_map hnodup hrow hmem hid]
    simpa using hnot

theorem not_dash_mem_hexByte : ∀ byte : Fin 256, '-' ∉ hexByte byte := by decide +kernel

theorem hexByte_ne_nil : ∀ byte : Fin 256, hexByte byte ≠ [] := by decide +kernel

theorem not_dash_mem_randomNodeId {byteLength : ℕ} (bytes : Fin byteLength → Fin 256) :
    '-' ∉ (randomNodeId bytes).toList := by
  rw [randomNodeId, String.toList_ofList, List.mem_flatten]
  rintro ⟨cs, hcs, hmem⟩
  obtain ⟨i, rfl⟩ := List.mem_ofFn.mp hcs
  exact not_dash_mem_hexByte _ hmem

theorem randomNodeId_ne_empty (bytes : Fin 6 → Fin 256) : randomNodeId bytes ≠ "" := by
  intro h
  have hlist := congrArg String.toList h
  rw [randomNodeId, String.toList_ofList, List.ofFn_succ, List.flatten_cons,
    String.toList_empty, List.append_eq_nil_iff] at hlist
  exact hexByte_ne_nil _ hlist.1

theorem validNodeId_compose {deviceId : String} {byteLength : ℕ}
    (suffix : Fin byteLength → Fin 256) :
    validNodeId (composeNodeId deviceId (randomNodeId suffix)) = true ↔ '-' ∉ deviceId.toList := by
  have hdot : ".".toList = ['.'] := rfl
  have hsuffix := not_dash_mem_randomNodeId suffix
  simp [validNodeId, composeNodeId, hdot, hsuffix]

theorem clientIdentity_ne_empty {generated : String} (h : generated ≠ "")
    (metaEntries : String → Option String) : clientIdentity generated metaEntries ≠ "" := by
  unfold clientIdentity
  split
  · exact h
  · split
    · exact h
    · assumption

/-- The clock accepts a device id without dashes, and `meta` stays as it is. -/
theorem Adopted.openClient {db : LegacyDatabase} {tables : Tables} (h : Adopted db tables identity)
    (hne : identity ≠ "") (settings : OptoSyncClient) (generated : String) {byteLength : ℕ}
    (suffix : Fin byteLength → Fin 256) :
    tables.openClient settings generated (randomNodeId suffix) =
      if '-' ∈ identity.toList then .error "nodeId must not contain \"-\""
      else .ok ({ settings with clientId := identity }, tables) := by
  have hdevice : tables.deviceId generated = (identity, tables) := by
    unfold Tables.deviceId
    rw [h.deviceId, Option.filter_some, if_pos (by simpa using hne)]
  unfold Tables.openClient
  rw [hdevice]
  by_cases hdash : '-' ∈ identity.toList
  · rw [if_pos hdash]
    exact if_neg fun hvalid => (validNodeId_compose suffix).mp hvalid hdash
  · rw [if_neg hdash]
    exact if_pos ((validNodeId_compose suffix).mpr hdash)

/-- What a client does on the upgraded database. -/
structure Serves (jsonDecode : String → Option Json) (db : LegacyDatabase) (client : OptoSyncClient)
    (queue : OptoSyncDatabase) : Prop where
  request : ∀ limit, 1 ≤ limit → limit ≤ 100 → ∀ request,
    client.protocolPushRequest jsonDecode queue limit = .ok request ↔
      (∀ m ∈ db.pending.take limit, m.Sendable jsonDecode) ∧
        request = .object [("protocolVersion", .number (.int 1)),
          ("clientId", .string client.clientId),
          ("mutations", .array
            ((db.pending.take limit).zipIdx.map fun m => m.1.pushed jsonDecode m.2))]
  never_sent : ∀ calls limit rows,
    OptoSyncClient.pendingMutations (run client.next queue calls) limit = .ok rows →
      ∀ m ∈ db.others, ∀ row ∈ rows, row.id ≠ m.id
  queued : ∀ calls call queue', call.queues = true →
    client.perform (run client.next queue calls) call = .ok queue' →
      ∃ row, queue'.localMutations = (run client.next queue calls).localMutations ++ [row] ∧
        row.clientId = some client.clientId ∧
        row.mutationId = some
          (db.pending.length + ((run client.next queue calls).nextId - db.nextId) + 1).repr

/-- The upgrade of any database numbers the pending rows and leaves the others alone. A client that
the device id admits sends the pending rows as long as their payloads are objects, and it numbers on
from there. -/
theorem onUpgrade_adopts (settings : OptoSyncClient) (bytes generated : Fin 6 → Fin 256)
    (suffix : Fin 3 → Fin 256) (db : LegacyDatabase) :
    let tables := onUpgrade (randomNodeId bytes) db
    let identity := clientIdentity (randomNodeId bytes) (db.metaEntries.getD fun _ => none)
    let client := { settings with clientId := identity }
    Adopted db tables identity ∧ Serves jsonDecode db client tables.database ∧
      tables.openClient settings (randomNodeId generated) (randomNodeId suffix) =
        if '-' ∈ identity.toList then .error "nodeId must not contain \"-\""
        else .ok (client, tables) := by
  intro tables identity client
  have hadopted : Adopted db tables identity := adopted_onUpgrade (randomNodeId bytes) db
  have hne := clientIdentity_ne_empty (randomNodeId_ne_empty bytes)
    (db.metaEntries.getD fun _ => none)
  have hrun : ∀ calls, Continues db (run client.next tables.database calls) := by
    apply run_invariant (I := Continues db)
    · intro queue call h
      exact h.next client call
    · exact hadopted.continues
  refine ⟨hadopted, ⟨?_, ?_, ?_⟩, hadopted.openClient hne settings _ suffix⟩
  · intro limit hone hmax request
    exact protocolPushRequest_onUpgrade hadopted hone hmax
  · intro calls limit rows hrows
    exact (hrun calls).not_sent hrows
  · intro calls call queue' hqueues hperform
    exact (hrun calls).queued hqueues hperform

/-- A pending row of version 1 with a payload that is a list. -/
def listPayload : LegacyDatabase where
  localMutations := [{ id := 1, targetTable := "todos", recordId := "a", jsonPayload := "[]"
                       createdAt := 0, syncStatus := SyncStatus.pending }]
  nextId := 2
  metaEntries := none
  sorted := List.pairwise_singleton _ _
  fresh := List.forall_mem_singleton.mpr Nat.one_lt_two

theorem listPayload_not_sent :
    let identity := randomNodeId ![10, 27, 44, 61, 78, 95]
    let client : OptoSyncClient :=
      { clientId := identity, maxPendingMutations := 10000, maxQueuedPayloadBytes := 261120
        defaultConsistencyPolicy := Consistency.writeThroughLocalFirst, overlaySyncer := none }
    client.protocolPushRequest (fun _ => some (.array [])) (onUpgrade identity listPayload).database
      100 = .error "mutation 1 payload is not a JSON object" := by
  decide +kernel

end Dart
end OptoSync
