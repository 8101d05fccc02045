import OptoSync.GleamQueue

/-!
# The stored form of the Gleam queue

`encode_queue` and `decode_queue`. Every queue that the operations produce is read back while its
next identifier fits in 63 bits. The decoder does not look for gaps between identifiers.
-/
namespace OptoSync.Gleam

def decodeString : Json → Option String
  | .string value => some value
  | _ => none

def decodeInt : Json → Option ℤ
  | .number (.int value) => some value
  | _ => none

def decodeBool : Json → Option Bool
  | .bool value => some value
  | _ => none

def decodeOptional {α : Type} (inner : Json → Option α) : Json → Option (Option α)
  | .null => some none
  | v => (inner v).map some

def decodeList {α : Type} (inner : Json → Option α) : Json → Option (List α)
  | .array items => items.mapM inner
  | _ => none

def field {α : Type} (name : String) (inner : Json → Option α) : Json → Option α
  | .object fields => (fields.lookup name).bind inner
  | _ => none

def optionalField {α : Type} (name : String) (absent : α) (inner : Json → Option α) :
    Json → Option α
  | .object fields =>
    match fields.lookup name with
    | none => some absent
    | some v => inner v
  | _ => none

def nullable : Option String → Json
  | none => .null
  | some value => .string value

/-! The triple that `encode_snapshot_mutation` takes from an operation, and its status. -/

def Operation.wireName : Operation → String
  | .upsert _ _ => "upsert"
  | .delete => "delete"

def Operation.wirePayload : Operation → Option String
  | .upsert payloadJson _ => some payloadJson
  | .delete => none

def Operation.wireResurrect : Operation → Bool
  | .upsert _ resurrect => resurrect
  | .delete => false

def LocalStatus.wireName : LocalStatus → String
  | .pending => "pending"
  | .confirmed => "confirmed"

def encodeSnapshotMutation (mutation : Mutation) : Json :=
  .object [
    ("mutationId", .string mutation.mutationId.repr),
    ("operation", .string mutation.operation.wireName),
    ("table", .string mutation.tableName),
    ("recordId", .string mutation.recordId),
    ("payloadJson", nullable mutation.operation.wirePayload),
    ("baseRevision", nullable mutation.baseRevision),
    ("resurrect", .bool mutation.operation.wireResurrect),
    ("status", .string mutation.status.wireName)]

def snapshot (queue : Queue) : Json :=
  .object [
    ("version", .number (.int 1)),
    ("clientId", .string queue.clientId),
    ("nextMutationId", .string queue.nextMutationId.repr),
    ("checkpoint", .string queue.checkpoint.repr),
    ("mutations", .array (queue.mutations.map encodeSnapshotMutation)),
    ("maxPendingMutations", .number (.int queue.maxPendingMutations)),
    ("maxQueuedPayloadBytes", .number (.int queue.maxQueuedPayloadBytes))]

def encodeQueue (json : JsonLibrary) (queue : Queue) : String := json.toString (snapshot queue)

def localStatusDecoder (v : Json) : Option LocalStatus :=
  match decodeString v with
  | some "pending" => some .pending
  | some "confirmed" => some .confirmed
  | _ => none

def decimalDecoder (positive : Bool) (v : Json) : Option ℕ := do
  let value ← decodeString v
  if positive then parsePositiveDecimal value else parseDecimal value

def snapshotOperationDecoder (v : Json) : Option Operation := do
  match ← field "operation" decodeString v with
  | "delete" => some .delete
  | "upsert" =>
    let payloadJson ← field "payloadJson" decodeString v
    let resurrect ← optionalField "resurrect" false decodeBool v
    some (.upsert payloadJson resurrect)
  | _ => none

def snapshotMutationDecoder (v : Json) : Option Mutation := do
  let mutationId ← field "mutationId" (decimalDecoder true) v
  let operation ← snapshotOperationDecoder v
  let tableName ← field "table" decodeString v
  let recordId ← field "recordId" decodeString v
  let baseRevision ← optionalField "baseRevision" none (decodeOptional decodeString) v
  let status ← field "status" localStatusDecoder v
  some { mutationId, operation, tableName, recordId, baseRevision, status }

/-- What `queue_snapshot_decoder` yields. -/
structure QueueSnapshot where
  clientId : String
  nextMutationId : String
  checkpoint : String
  mutations : List Mutation
  maxPendingMutations : ℤ
  maxQueuedPayloadBytes : ℤ

def queueSnapshotDecoder (v : Json) : Option QueueSnapshot := do
  let version ← field "version" decodeInt v
  let clientId ← field "clientId" decodeString v
  let nextMutationId ← field "nextMutationId" decodeString v
  let checkpoint ← field "checkpoint" decodeString v
  let mutations ← field "mutations" (decodeList snapshotMutationDecoder) v
  let maxPendingMutations ← field "maxPendingMutations" decodeInt v
  let maxQueuedPayloadBytes ← field "maxQueuedPayloadBytes" decodeInt v
  if version = 1 then
    some {
      clientId, nextMutationId, checkpoint, mutations, maxPendingMutations, maxQueuedPayloadBytes }
  else none

def validRestoredOperation (json : JsonLibrary) (maxPayloadBytes : ℤ) : Operation → Bool
  | .delete => true
  | .upsert payloadJson _ =>
    payloadJson.utf8ByteSize ≤ maxPayloadBytes && payloadIsObject json payloadJson

def validateRestoredMutations (json : JsonLibrary) (nextMutationId : ℕ) (maxPayloadBytes : ℤ) :
    ℕ → List Mutation → Bool
  | _, [] => true
  | priorId, mutation :: rest =>
    mutation.mutationId > priorId && mutation.mutationId < nextMutationId &&
      validRestoredOperation json maxPayloadBytes mutation.operation &&
      validateRestoredMutations json nextMutationId maxPayloadBytes mutation.mutationId rest

def validateRestoredQueue (json : JsonLibrary) (queue : Queue) : Except ProtocolError Queue :=
  if queue.pending.length ≤ queue.maxPendingMutations ∧
      validateRestoredMutations json queue.nextMutationId queue.maxQueuedPayloadBytes 0
        queue.mutations = true then
    .ok queue
  else .error .invalidSnapshot

def decodeQueue (json : JsonLibrary) (snapshotJson : String) : Except ProtocolError Queue :=
  match (json.parse snapshotJson).bind queueSnapshotDecoder with
  | none => .error .invalidSnapshot
  | some s =>
    match parsePositiveDecimal s.nextMutationId, parseDecimal s.checkpoint with
    | some next, some checkpoint =>
      if s.clientId ≠ "" ∧ s.maxPendingMutations > 0 ∧ s.maxQueuedPayloadBytes > 0 ∧
          next ≤ maxPostgresBigint + 1 then
        validateRestoredQueue json {
          clientId := s.clientId, nextMutationId := next, checkpoint, mutations := s.mutations,
          maxPendingMutations := s.maxPendingMutations,
          maxQueuedPayloadBytes := s.maxQueuedPayloadBytes }
      else .error .invalidSnapshot
    | _, _ => .error .invalidSnapshot

/-- The package reads what it printed, for values without floats and without repeated keys. -/
def JsonLibrary.RoundTrips (json : JsonLibrary) : Prop :=
  ∀ v : Json, v.floatFree = true → v.distinctKeys = true → json.parse (json.toString v) = some v

theorem nullable_plain (value : Option String) :
    (nullable value).floatFree = true ∧ (nullable value).distinctKeys = true := by
  cases value <;> exact ⟨rfl, rfl⟩

theorem encodeSnapshotMutation_plain (m : Mutation) :
    (encodeSnapshotMutation m).floatFree = true ∧
      (encodeSnapshotMutation m).distinctKeys = true := by
  simp [encodeSnapshotMutation, Json.floatFree, Json.floatFreeFields, Json.distinctKeys,
    Json.distinctKeysFields, nullable_plain]

theorem snapshot_plain (q : Queue) :
    (snapshot q).floatFree = true ∧ (snapshot q).distinctKeys = true := by
  have hrows : ∀ ms : List Mutation,
      Json.floatFreeItems (ms.map encodeSnapshotMutation) = true ∧
        Json.distinctKeysItems (ms.map encodeSnapshotMutation) = true := by
    intro ms
    induction ms with
    | nil => exact ⟨rfl, rfl⟩
    | cons m ms ih =>
      obtain ⟨hfloat, hkeys⟩ := encodeSnapshotMutation_plain m
      simp [Json.floatFreeItems, Json.distinctKeysItems, hfloat, hkeys, ih]
  obtain ⟨hfloat, hkeys⟩ := hrows q.mutations
  simp [snapshot, Json.floatFree, Json.floatFreeFields, Json.distinctKeys,
    Json.distinctKeysFields, hfloat, hkeys]

theorem field_cons {α : Type} (name key : String) (v : Json) (fields : List (String × Json))
    (inner : Json → Option α) :
    field name inner (.object ((key, v) :: fields)) =
      if name = key then inner v else field name inner (.object fields) := by
  by_cases h : name = key
  · simp [field, List.lookup, h]
  · simp [field, List.lookup, h, beq_false_of_ne h]

theorem optionalField_cons {α : Type} (name key : String) (absent : α) (v : Json)
    (fields : List (String × Json)) (inner : Json → Option α) :
    optionalField name absent inner (.object ((key, v) :: fields)) =
      if name = key then inner v else optionalField name absent inner (.object fields) := by
  by_cases h : name = key
  · simp [optionalField, List.lookup, h]
  · simp [optionalField, List.lookup, h, beq_false_of_ne h]

theorem snapshotOperationDecoder_encode (m : Mutation) :
    snapshotOperationDecoder (encodeSnapshotMutation m) = some m.operation := by
  have hname : field "operation" decodeString (encodeSnapshotMutation m) =
      some m.operation.wireName := by
    simp [encodeSnapshotMutation, field_cons, decodeString]
  cases h : m.operation with
  | delete => simp [snapshotOperationDecoder, hname, h, Operation.wireName]
  | upsert payloadJson resurrect =>
    have hpayload : field "payloadJson" decodeString (encodeSnapshotMutation m) =
        some payloadJson := by
      simp [encodeSnapshotMutation, field_cons, h, Operation.wirePayload, nullable, decodeString]
    have hresurrect : optionalField "resurrect" false decodeBool (encodeSnapshotMutation m) =
        some resurrect := by
      simp [encodeSnapshotMutation, optionalField_cons, h, Operation.wireResurrect, decodeBool]
    simp [snapshotOperationDecoder, hname, h, Operation.wireName, hpayload, hresurrect]

theorem localStatusDecoder_wireName (status : LocalStatus) :
    localStatusDecoder (.string status.wireName) = some status := by
  cases status <;> rfl

theorem decodeOptional_nullable (value : Option String) :
    decodeOptional decodeString (nullable value) = some value := by
  cases value <;> rfl

theorem snapshotMutationDecoder_encode {m : Mutation} (hpos : 0 < m.mutationId)
    (hle : m.mutationId ≤ maxPostgresBigint) :
    snapshotMutationDecoder (encodeSnapshotMutation m) = some m := by
  have hid : field "mutationId" (decimalDecoder true) (encodeSnapshotMutation m) =
      some m.mutationId := by
    simp [encodeSnapshotMutation, field_cons, decimalDecoder, decodeString,
      parsePositiveDecimal_eq_some.mpr ⟨hpos, hle, rfl⟩]
  have htable : field "table" decodeString (encodeSnapshotMutation m) = some m.tableName := by
    simp [encodeSnapshotMutation, field_cons, decodeString]
  have hrecord : field "recordId" decodeString (encodeSnapshotMutation m) = some m.recordId := by
    simp [encodeSnapshotMutation, field_cons, decodeString]
  have hbase : optionalField "baseRevision" none (decodeOptional decodeString)
      (encodeSnapshotMutation m) = some m.baseRevision := by
    simp [encodeSnapshotMutation, optionalField_cons, decodeOptional_nullable]
  have hstatus : field "status" localStatusDecoder (encodeSnapshotMutation m) = some m.status := by
    simp [encodeSnapshotMutation, field_cons, localStatusDecoder_wireName]
  simp [snapshotMutationDecoder, hid, snapshotOperationDecoder_encode, htable, hrecord, hbase,
    hstatus]

theorem mapM_encode {ms : List Mutation}
    (hids : ∀ m ∈ ms, 0 < m.mutationId ∧ m.mutationId ≤ maxPostgresBigint) :
    (ms.map encodeSnapshotMutation).mapM snapshotMutationDecoder = some ms := by
  induction ms with
  | nil => rfl
  | cons m ms ih =>
    obtain ⟨hpos, hle⟩ := hids m (by simp)
    have htail := ih fun n hn => hids n (List.mem_cons_of_mem m hn)
    simp [snapshotMutationDecoder_encode hpos hle, htail]

theorem queueSnapshotDecoder_snapshot {q : Queue}
    (hids : ∀ m ∈ q.mutations, 0 < m.mutationId ∧ m.mutationId ≤ maxPostgresBigint) :
    queueSnapshotDecoder (snapshot q) = some {
      clientId := q.clientId, nextMutationId := q.nextMutationId.repr,
      checkpoint := q.checkpoint.repr, mutations := q.mutations,
      maxPendingMutations := q.maxPendingMutations,
      maxQueuedPayloadBytes := q.maxQueuedPayloadBytes } := by
  simp [queueSnapshotDecoder, snapshot, field_cons, decodeString, decodeInt, decodeList,
    mapM_encode hids]

theorem validRestoredOperation_of_accepted {json : JsonLibrary} {maxPayloadBytes : ℤ}
    {operation : Operation} (h : operation.Accepted json maxPayloadBytes) :
    validRestoredOperation json maxPayloadBytes operation = true := by
  obtain ⟨hsize, hobject⟩ := h
  cases operation with
  | delete => rfl
  | upsert payloadJson resurrect =>
    simp only [payloadTooLarge, decide_eq_false_iff_not, not_lt] at hsize
    simp only [invalidPayload, Bool.not_eq_false'] at hobject
    simp [validRestoredOperation, hsize, hobject]

theorem validateRestoredMutations_consecutive {json : JsonLibrary} {maxPayloadBytes : ℤ}
    {ms : List Mutation} {next prior first : ℕ} (hprior : prior < first)
    (hids : ms.map (·.mutationId) = List.range' first ms.length) (hnext : first + ms.length ≤ next)
    (haccepted : ∀ m ∈ ms, m.operation.Accepted json maxPayloadBytes) :
    validateRestoredMutations json next maxPayloadBytes prior ms = true := by
  induction ms generalizing prior first with
  | nil => rfl
  | cons m ms ih =>
    simp only [List.map_cons, List.length_cons, List.range'_succ, List.cons.injEq] at hids hnext
    obtain ⟨hm, htail⟩ := hids
    have hrest := ih (Nat.lt_succ_self first) htail (by omega) fun n hn =>
      haccepted n (List.mem_cons_of_mem m hn)
    have hoperation := validRestoredOperation_of_accepted (haccepted m (by simp))
    rw [validateRestoredMutations, hoperation, hm, hrest]
    simp only [Bool.and_true, Bool.and_eq_true, decide_eq_true_eq]
    omega

theorem Queue.Sound.ids_bound {json : JsonLibrary} {q : Queue} (hq : q.Sound json) :
    ∀ m ∈ q.mutations, 0 < m.mutationId ∧ m.mutationId ≤ maxPostgresBigint := by
  obtain ⟨first, hfirst, hnext, hids⟩ := hq.ids
  intro m hm
  have hmem : m.mutationId ∈ List.range' first q.mutations.length :=
    hids ▸ List.mem_map_of_mem hm
  have hbound := List.mem_range'_1.mp hmem
  have hle := hq.next
  omega

/-- The next identifier is parsed by the check meant for allocated ones, so the queue that has
allocated the last identifier is refused. -/
theorem decodeQueue_encodeQueue {json : JsonLibrary} (hjson : json.RoundTrips) {q : Queue}
    (hq : q.Sound json) :
    decodeQueue json (encodeQueue json q) =
      if q.nextMutationId ≤ maxPostgresBigint then .ok q else .error .invalidSnapshot := by
  obtain ⟨hfloat, hkeys⟩ := snapshot_plain q
  obtain ⟨first, hfirst, hnext, hids⟩ := hq.ids
  have hcheckpoint := parseDecimal_eq_some.mpr ⟨hq.checkpoint, rfl⟩
  rw [decodeQueue, encodeQueue, hjson _ hfloat hkeys, Option.bind_some,
    queueSnapshotDecoder_snapshot hq.ids_bound]
  simp only [hcheckpoint]
  by_cases hle : q.nextMutationId ≤ maxPostgresBigint
  · have hparse := parsePositiveDecimal_eq_some.mpr ⟨by omega, hle, rfl⟩
    have hvalid := validateRestoredMutations_consecutive hfirst hids hnext.le hq.payloads
    simp only [hparse, if_pos hle]
    rw [if_pos ⟨hq.client, hq.limits.1, hq.limits.2, by omega⟩]
    exact if_pos ⟨hq.capacity, hvalid⟩
  · have hparse : parsePositiveDecimal q.nextMutationId.repr = none := by
      refine Option.eq_none_iff_forall_ne_some.mpr fun n hn => hle ?_
      obtain ⟨-, hn, hrepr⟩ := parsePositiveDecimal_eq_some.mp hn
      rwa [Nat.repr_injective hrepr]
    simp only [hparse, if_neg hle]

def stringAt (name : String) (v : Json) : Option String := field name decodeString v

def itemsOf : Json → Option (List Json)
  | .array items => some items
  | _ => none

def rows (v : Json) : List Json := (field "mutations" itemsOf v).getD []

/-- The decimals of the text are the printed numbers of the queue. -/
structure CanonicalDecimals (v : Json) (q : Queue) : Prop where
  next : stringAt "nextMutationId" v = some q.nextMutationId.repr
  checkpoint : stringAt "checkpoint" v = some q.checkpoint.repr
  ids : (rows v).map (stringAt "mutationId") = q.mutations.map fun m => some m.mutationId.repr

/-- Pending identifiers without a gap, and the next one above the last row's. -/
def Queue.Consistent (q : Queue) : Prop :=
  (∃ first, q.pending.map (·.mutationId) = List.range' first q.pending.length) ∧
    ∀ m ∈ q.mutations.getLast?, q.nextMutationId = m.mutationId + 1

/-- The pending rows of the text are numbered one after the other, and `nextMutationId` follows the
number of its last row. -/
def Unbroken (v : Json) : Prop :=
  (∃ first count, ((rows v).filter fun row => stringAt "status" row = some "pending").map
      (stringAt "mutationId") = (List.range' first count).map fun n => some n.repr) ∧
    ∀ row ∈ (rows v).getLast?, ∃ n, stringAt "mutationId" row = some n.repr ∧
      stringAt "nextMutationId" v = some (n + 1).repr

theorem decodeQueue_ok {json : JsonLibrary} {text : String} {v : Json} {q : Queue}
    (hv : json.parse text = some v) (h : decodeQueue json text = .ok q) :
    ∃ s, queueSnapshotDecoder v = some s ∧ s.nextMutationId = q.nextMutationId.repr ∧
      s.checkpoint = q.checkpoint.repr ∧ s.mutations = q.mutations := by
  unfold decodeQueue at h
  rw [hv, Option.bind_some] at h
  split at h
  · cases h
  · rename_i s hs
    split at h
    · rename_i next checkpoint hnext hcheckpoint
      split at h
      · unfold validateRestoredQueue at h
        split at h
        · obtain rfl := Except.ok.inj h
          exact ⟨s, hs, (parsePositiveDecimal_eq_some.mp hnext).2.2,
            (parseDecimal_eq_some.mp hcheckpoint).2, rfl⟩
        · cases h
      · cases h
    · cases h

theorem mapM_map {α β : Type} {inner : Json → Option α} {f : Json → β} {g : α → β}
    (hfg : ∀ v x, inner v = some x → f v = g x) {items : List Json} {xs : List α}
    (h : items.mapM inner = some xs) : items.map f = xs.map g := by
  induction items generalizing xs with
  | nil =>
    obtain rfl : [] = xs := by simpa using h
    rfl
  | cons v vs ih =>
    simp only [List.mapM_cons, Option.bind_eq_bind, Option.bind_eq_some_iff, Option.pure_def,
      Option.some.injEq] at h
    obtain ⟨x, hx, ys, hys, rfl⟩ := h
    simp [hfg v x hx, ih hys]

theorem field_eq_some {α : Type} {name : String} {inner : Json → Option α} {v : Json} {x : α}
    (h : field name inner v = some x) :
    ∃ fields w, v = .object fields ∧ fields.lookup name = some w ∧ inner w = some x := by
  cases v with
  | object fields =>
    obtain ⟨w, hw, hx⟩ := Option.bind_eq_some_iff.mp h
    exact ⟨fields, w, rfl, hw, hx⟩
  | _ => simp [field] at h

theorem rows_of_field {v : Json} {ms : List Mutation}
    (h : field "mutations" (decodeList snapshotMutationDecoder) v = some ms) :
    (rows v).mapM snapshotMutationDecoder = some ms := by
  obtain ⟨fields, w, rfl, hw, hms⟩ := field_eq_some h
  cases w with
  | array items => simpa [rows, field, hw, itemsOf, decodeList] using hms
  | _ => simp [decodeList] at hms

theorem snapshotMutationDecoder_strings {row : Json} {m : Mutation}
    (h : snapshotMutationDecoder row = some m) :
    stringAt "mutationId" row = some m.mutationId.repr ∧
      stringAt "status" row = some m.status.wireName := by
  simp only [snapshotMutationDecoder, Option.bind_eq_bind, Option.bind_eq_some_iff,
    Option.some.injEq] at h
  obtain ⟨id, hid, operation, -, table, -, record, -, base, -, status, hstatus, rfl⟩ := h
  obtain ⟨fields, w, rfl, hw, hdecimal⟩ := field_eq_some hid
  obtain ⟨value, hvalue, hparse⟩ := Option.bind_eq_some_iff.mp hdecimal
  constructor
  · have hrepr : value = id.repr := (parsePositiveDecimal_eq_some.mp hparse).2.2
    rw [stringAt, field, hw, Option.bind_some, hvalue, hrepr]
  · obtain ⟨fields, w, heq, hw, hstatus⟩ := field_eq_some hstatus
    rw [heq, stringAt, field, hw, Option.bind_some]
    unfold localStatusDecoder at hstatus
    split at hstatus
    · rename_i hs
      rw [hs, ← Option.some.inj hstatus, LocalStatus.wireName]
    · rename_i hs
      rw [hs, ← Option.some.inj hstatus, LocalStatus.wireName]
    · cases hstatus

theorem queueSnapshotDecoder_strings {v : Json} {s : QueueSnapshot}
    (h : queueSnapshotDecoder v = some s) :
    stringAt "nextMutationId" v = some s.nextMutationId ∧
      stringAt "checkpoint" v = some s.checkpoint ∧
      (rows v).mapM snapshotMutationDecoder = some s.mutations := by
  simp only [queueSnapshotDecoder, Option.bind_eq_bind, Option.bind_eq_some_iff] at h
  obtain ⟨version, -, client, -, next, hnext, checkpoint, hcheckpoint, ms, hms, pending, -, bytes,
    -, h⟩ := h
  split at h
  · obtain rfl := Option.some.inj h
    exact ⟨hnext, hcheckpoint, rows_of_field hms⟩
  · cases h

theorem wireName_eq_pending (status : LocalStatus) :
    (status.wireName = "pending") = (status = .pending) := by
  cases status <;> simp [LocalStatus.wireName]

/-- The pending rows of the text are the pending rows of the queue. -/
theorem pending_strings {v : Json} {q : Queue}
    (h : (rows v).mapM snapshotMutationDecoder = some q.mutations) :
    ((rows v).filter fun row => stringAt "status" row = some "pending").map
      (stringAt "mutationId") = q.pending.map fun m => some m.mutationId.repr := by
  have hpairs := mapM_map
    (f := fun row => (stringAt "mutationId" row, stringAt "status" row))
    (g := fun m => (some m.mutationId.repr, some m.status.wireName))
    (fun row m hm => by
      obtain ⟨hid, hstatus⟩ := snapshotMutationDecoder_strings hm
      simp only [hid, hstatus]) h
  have hfiltered := congrArg
    (fun ps => (ps.filter fun p => p.2 = some "pending").map Prod.fst) hpairs
  simpa [List.filter_map, Function.comp_def, wireName_eq_pending, Queue.pending] using hfiltered

theorem decodeQueue_canonical {json : JsonLibrary} {text : String} {v : Json} {q : Queue}
    (hv : json.parse text = some v) (h : decodeQueue json text = .ok q) :
    CanonicalDecimals v q ∧ (rows v).mapM snapshotMutationDecoder = some q.mutations := by
  obtain ⟨s, hs, hnext, hcheckpoint, hms⟩ := decodeQueue_ok hv h
  obtain ⟨hn, hc, hrows⟩ := queueSnapshotDecoder_strings hs
  rw [hms] at hrows
  exact ⟨⟨hnext ▸ hn, hcheckpoint ▸ hc,
    mapM_map (fun row m hm => (snapshotMutationDecoder_strings hm).1) hrows⟩, hrows⟩

theorem consistent_iff_unbroken {json : JsonLibrary} {text : String} {v : Json} {q : Queue}
    (hv : json.parse text = some v) (h : decodeQueue json text = .ok q) :
    q.Consistent ↔ Unbroken v := by
  obtain ⟨hcanonical, hrows⟩ := decodeQueue_canonical hv h
  have hpending := pending_strings hrows
  have hlast : (rows v).getLast?.map (stringAt "mutationId") =
      q.mutations.getLast?.map fun m => some m.mutationId.repr := by
    rw [← List.getLast?_map, ← List.getLast?_map, hcanonical.ids]
  refine and_congr ?_ ?_
  · rw [hpending]
    constructor
    · rintro ⟨first, hids⟩
      exact ⟨first, q.pending.length, by rw [← hids, List.map_map]; rfl⟩
    · rintro ⟨first, count, hids⟩
      have hinj : Function.Injective fun n : ℕ => some n.repr := fun a b hab =>
        Nat.repr_injective (Option.some.inj hab)
      have hmap : q.pending.map (·.mutationId) = List.range' first count :=
        List.map_injective_iff.mpr hinj (by rw [List.map_map]; exact hids)
      have hlength : q.pending.length = count := by simpa using congrArg List.length hmap
      exact ⟨first, hlength ▸ hmap⟩
  · cases hq : q.mutations.getLast? with
    | none =>
      rw [hq, Option.map_none, Option.map_eq_none_iff] at hlast
      simp [hlast]
    | some m =>
      rw [hq, Option.map_some, Option.map_eq_some_iff] at hlast
      obtain ⟨row, hrow, hid⟩ := hlast
      simp only [hrow, Option.mem_some_iff, forall_eq', hid, Option.some.injEq, hcanonical.next]
      constructor
      · intro hnext
        exact ⟨m.mutationId, rfl, by rw [hnext]⟩
      · rintro ⟨n, hm, hnext⟩
        rw [Nat.repr_injective hnext, Nat.repr_injective hm]

open Transition in
/-- A queue that the operations produce is read back exactly while the last identifier is not yet
allocated. A text that is accepted has canonical decimals, and stands for a consistent queue exactly
where its own numbering has no gap. -/
theorem queue_codec_iff {json : JsonLibrary} (hjson : json.RoundTrips) :
    (∀ clientId maxPendingMutations maxQueuedPayloadBytes queue,
      newWithLimits clientId maxPendingMutations maxQueuedPayloadBytes = .ok queue →
      ∀ operations,
        decodeQueue json (encodeQueue json (run (next json) queue operations)) =
            .ok (run (next json) queue operations) ↔
          (run (next json) queue operations).nextMutationId ≤ maxPostgresBigint) ∧
      ∀ text v queue, json.parse text = some v → decodeQueue json text = .ok queue →
        CanonicalDecimals v queue ∧ (queue.Consistent ↔ Unbroken v) := by
  constructor
  · intro clientId pending bytes queue hnew operations
    have hsound : (run (next json) queue operations).Sound json :=
      run_invariant next_sound (newWithLimits_sound hnew) operations
    rw [decodeQueue_encodeQueue hjson hsound]
    split
    · rename_i hle
      simp [hle]
    · rename_i hle
      simp [hle]
  · intro text v queue hv h
    exact ⟨(decodeQueue_canonical hv h).1, consistent_iff_unbroken hv h⟩

/-- A package that prints without blanks. -/
def textLibrary : JsonLibrary where
  toString := Json.text fun _ => false
  parse := Json.read

theorem textLibrary_roundTrips : textLibrary.RoundTrips := fun _ hfloat _ =>
  Json.read_text (fun _ hc => Bool.noConfusion hc) hfloat

theorem queue_codec_iff_text :
    textLibrary.RoundTrips ∧
      (decodeQueue textLibrary (encodeQueue textLibrary
          (next textLibrary ⟨"device", 1, 0, [], 1, 1⟩ (.enqueue "notes" "a" .delete none))) =
          .ok ⟨"device", 2, 0, [⟨1, .delete, "notes", "a", none, .pending⟩], 1, 1⟩ ↔
        2 ≤ maxPostgresBigint) :=
  ⟨textLibrary_roundTrips,
    (queue_codec_iff textLibrary_roundTrips).1 "device" 1 1 _ rfl
      [.enqueue "notes" "a" .delete none]⟩

theorem next_delete {json : JsonLibrary} {q : Queue}
    (hroom : q.pending.length < q.maxPendingMutations)
    (hid : q.nextMutationId ≤ maxPostgresBigint) :
    (next json q (.enqueue "notes" "a" .delete none)).nextMutationId = q.nextMutationId + 1 ∧
      (next json q (.enqueue "notes" "a" .delete none)).pending.length = q.pending.length + 1 ∧
      (next json q (.enqueue "notes" "a" .delete none)).maxPendingMutations =
        q.maxPendingMutations := by
  have hfull : ¬ (q.pending.length : ℤ) ≥ q.maxPendingMutations := not_le.mpr hroom
  have hspent : ¬ q.nextMutationId > maxPostgresBigint := not_lt.mpr hid
  have hnext : next json q (.enqueue "notes" "a" .delete none) = { q with
      nextMutationId := q.nextMutationId + 1,
      mutations := q.mutations ++
        [⟨q.nextMutationId, .delete, "notes", "a", none, .pending⟩] } := by
    simp [next, enqueue, if_neg hfull, if_neg hspent, payloadTooLarge, invalidPayload,
      Except.toOption]
  simp [hnext, Queue.pending]

open Transition in
theorem run_deletes {json : JsonLibrary} (n : ℕ) {q : Queue}
    (hroom : (q.pending.length : ℤ) + n ≤ q.maxPendingMutations)
    (hid : q.nextMutationId + n ≤ maxPostgresBigint + 1) :
    (run (next json) q (List.replicate n (.enqueue "notes" "a" .delete none))).nextMutationId =
      q.nextMutationId + n := by
  induction n generalizing q with
  | zero => rfl
  | succ n ih =>
    obtain ⟨hnext, hpending, hmax⟩ := @next_delete json q (by omega) (by omega)
    rw [List.replicate_succ, run_cons, ih (by rw [hpending, hmax]; push_cast at hroom ⊢; omega)
      (by rw [hnext]; omega), hnext]
    omega

/-- Rows 1 and 3 wait, and 2 is nowhere. -/
def gapped : Queue where
  clientId := "device"
  nextMutationId := 4
  checkpoint := 0
  mutations := [
    ⟨1, .delete, "notes", "a", none, .pending⟩, ⟨3, .delete, "notes", "b", none, .pending⟩]
  maxPendingMutations := 2
  maxQueuedPayloadBytes := 1

open Transition in
/-- A queue that has allocated the last identifier is not read back, and a text with a gap is
accepted. -/
theorem queue_codec_fails :
    decodeQueue textLibrary (encodeQueue textLibrary
        (run (next textLibrary) ⟨"device", 1, 0, [], maxPostgresBigint, 1⟩
          (List.replicate maxPostgresBigint (.enqueue "notes" "a" .delete none)))) =
        .error .invalidSnapshot ∧
      decodeQueue textLibrary (encodeQueue textLibrary gapped) = .ok gapped ∧
      ¬ gapped.Consistent := by
  refine ⟨?_, ?_, ?_⟩
  · have hnew : newWithLimits "device" maxPostgresBigint 1 =
        .ok ⟨"device", 1, 0, [], maxPostgresBigint, 1⟩ := rfl
    have hsound := run_invariant (@next_sound textLibrary) (newWithLimits_sound hnew)
      (List.replicate maxPostgresBigint (.enqueue "notes" "a" .delete none))
    rw [decodeQueue_encodeQueue textLibrary_roundTrips hsound, if_neg]
    rw [run_deletes maxPostgresBigint (by simp [Queue.pending]) (by simp [add_comm])]
    exact (Nat.lt_one_add_iff.mpr (le_refl maxPostgresBigint)).not_ge
  · obtain ⟨hfloat, hkeys⟩ := snapshot_plain gapped
    have hids : ∀ m ∈ gapped.mutations, 0 < m.mutationId ∧ m.mutationId ≤ maxPostgresBigint := by
      decide
    have hnext : parsePositiveDecimal (Nat.repr 4) = some 4 :=
      parsePositiveDecimal_eq_some.mpr ⟨by decide, by decide, rfl⟩
    have hcheckpoint : parseDecimal (Nat.repr 0) = some 0 :=
      parseDecimal_eq_some.mpr ⟨by decide, rfl⟩
    rw [decodeQueue, encodeQueue, textLibrary_roundTrips _ hfloat hkeys, Option.bind_some,
      queueSnapshotDecoder_snapshot hids]
    simp only [gapped, hnext, hcheckpoint]
    rfl
  · rintro ⟨⟨first, hids⟩, -⟩
    have hids : [1, 3] = [first, first + 1] := hids
    simp only [List.cons.injEq, and_true] at hids
    omega

end OptoSync.Gleam
