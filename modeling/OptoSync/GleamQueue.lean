import OptoSync.JsonText
import OptoSync.Transition

/-!
# The mutation queue of the Gleam client

`opto_sync_client.gleam`. The queue is a value: an operation that fails leaves its caller with the
queue it had. Identifiers and the checkpoint are never negative and are natural numbers here. The
JSON package is a parameter.
-/
namespace OptoSync.Gleam

def maxPostgresBigint : ℕ := 9223372036854775807

inductive ProtocolError
  | emptyClientId
  | invalidLimit
  | invalidQueueLimit
  | invalidPayload
  | invalidSnapshot
  | queueFull
  | payloadTooLarge
  | mutationIdExhausted
  | wrongClient
  | invalidAcknowledgement
  | watermarkAhead
  deriving DecidableEq, Repr

inductive Operation
  | upsert (payloadJson : String) (resurrect : Bool)
  | delete
  deriving DecidableEq, Repr

inductive LocalStatus
  | pending
  | confirmed
  deriving DecidableEq, Repr

structure Mutation where
  mutationId : ℕ
  operation : Operation
  tableName : String
  recordId : String
  baseRevision : Option String
  status : LocalStatus
  deriving DecidableEq, Repr

structure PushMutation where
  mutationId : String
  operation : Operation
  tableName : String
  recordId : String
  baseRevision : Option String
  deriving DecidableEq, Repr

structure PushRequest where
  protocolVersion : ℤ
  clientId : String
  mutations : List PushMutation
  deriving DecidableEq, Repr

inductive ResultStatus
  | applied
  | duplicate
  | rejected
  deriving DecidableEq, Repr

structure MutationResult where
  mutationId : String
  status : ResultStatus
  originalStatus : Option ResultStatus
  checkpoint : Option String
  revision : Option String
  deriving DecidableEq, Repr

structure PushResponse where
  protocolVersion : ℤ
  clientId : String
  lastMutationId : String
  checkpoint : String
  results : List MutationResult
  deriving DecidableEq, Repr

structure Queue where
  clientId : String
  nextMutationId : ℕ
  checkpoint : ℕ
  mutations : List Mutation
  maxPendingMutations : ℤ
  maxQueuedPayloadBytes : ℤ
  deriving DecidableEq, Repr

/-- `gleam/json`: `to_string` and `parse`, up to the decoder that `parse` is given. -/
structure JsonLibrary where
  toString : Json → String
  parse : String → Option Json

/-- `int.parse`: an optional sign, then digits. -/
def intParse (value : String) : Option ℤ :=
  match value.toList with
  | '-' :: cs => (Decimal.parseDigits cs).map fun n => -(n : ℤ)
  | '+' :: cs => (Decimal.parseDigits cs).map fun n => (n : ℤ)
  | cs => (Decimal.parseDigits cs).map fun n => (n : ℤ)

def parseDecimal (value : String) : Option ℕ :=
  match intParse value with
  | some number =>
    if number ≥ 0 ∧ number.toNat.repr = value ∧ number ≤ maxPostgresBigint then some number.toNat
    else none
  | none => none

def parsePositiveDecimal (value : String) : Option ℕ := (parseDecimal value).filter (0 < ·)

def validOptionalDecimal (value : Option String) (positive : Bool) : Bool :=
  match value with
  | none => true
  | some value =>
    if positive then (parsePositiveDecimal value).isSome else (parseDecimal value).isSome

def newWithLimits (clientId : String) (maxPendingMutations maxQueuedPayloadBytes : ℤ) :
    Except ProtocolError Queue :=
  if clientId = "" then .error .emptyClientId
  else if maxPendingMutations ≤ 0 then .error .invalidQueueLimit
  else if maxQueuedPayloadBytes ≤ 0 then .error .invalidQueueLimit
  else .ok {
    clientId, nextMutationId := 1, checkpoint := 0, mutations := [],
    maxPendingMutations, maxQueuedPayloadBytes }

def new (clientId : String) : Except ProtocolError Queue :=
  newWithLimits clientId 10000 (255 * 1024)

namespace Queue

def pending (queue : Queue) : List Mutation :=
  queue.mutations.filter fun mutation => mutation.status = .pending

end Queue

def payloadIsObject (json : JsonLibrary) (payloadJson : String) : Bool :=
  match json.parse payloadJson with
  | some value => value.isObject
  | none => false

/-- `payload_too_large` of `enqueue`. -/
def payloadTooLarge (maxPayloadBytes : ℤ) : Operation → Bool
  | .upsert payloadJson _ => payloadJson.utf8ByteSize > maxPayloadBytes
  | .delete => false

/-- `invalid_payload` of `enqueue`. -/
def invalidPayload (json : JsonLibrary) : Operation → Bool
  | .upsert payloadJson _ => !payloadIsObject json payloadJson
  | .delete => false

def enqueue (json : JsonLibrary) (queue : Queue) (tableName recordId : String)
    (operation : Operation) (baseRevision : Option String) :
    Except ProtocolError (Queue × Mutation) :=
  if queue.pending.length ≥ queue.maxPendingMutations then .error .queueFull
  else if payloadTooLarge queue.maxQueuedPayloadBytes operation then .error .payloadTooLarge
  else if invalidPayload json operation then .error .invalidPayload
  else if queue.nextMutationId > maxPostgresBigint then .error .mutationIdExhausted
  else
    let mutation := {
      mutationId := queue.nextMutationId, operation, tableName, recordId, baseRevision,
      status := .pending }
    .ok ({ queue with
      nextMutationId := queue.nextMutationId + 1, mutations := queue.mutations ++ [mutation] },
      mutation)

def enqueueUpsert (json : JsonLibrary) (queue : Queue) (tableName recordId payloadJson : String)
    (baseRevision : Option String) (resurrect : Bool) : Except ProtocolError (Queue × Mutation) :=
  enqueue json queue tableName recordId (.upsert payloadJson resurrect) baseRevision

def enqueueDelete (json : JsonLibrary) (queue : Queue) (tableName recordId : String)
    (baseRevision : Option String) : Except ProtocolError (Queue × Mutation) :=
  enqueue json queue tableName recordId .delete baseRevision

def buildPushRequest (queue : Queue) (limit : ℤ) : Except ProtocolError PushRequest :=
  if limit ≥ 1 ∧ limit ≤ 100 then
    .ok {
      protocolVersion := 1, clientId := queue.clientId,
      mutations := (queue.pending.take limit.toNat).map fun mutation => {
        mutationId := mutation.mutationId.repr, operation := mutation.operation,
        tableName := mutation.tableName, recordId := mutation.recordId,
        baseRevision := mutation.baseRevision } }
  else .error .invalidLimit

def idsMatch : List PushMutation → List MutationResult → Option (List ℕ)
  | [], [] => some []
  | mutation :: mutations, result :: results =>
    if mutation.mutationId = result.mutationId ∧
        validOptionalDecimal result.checkpoint false = true ∧
        validOptionalDecimal result.revision true = true then
      match parsePositiveDecimal mutation.mutationId, idsMatch mutations results with
      | some id, some ids => some (id :: ids)
      | _, _ => none
    else none
  | _, _ => none

def validateResponse (request : PushRequest) (response : PushResponse) :
    Except ProtocolError (List ℕ × ℕ) :=
  if request.protocolVersion = 1 ∧ response.protocolVersion = 1 ∧
      request.clientId = response.clientId ∧
      request.mutations.length = response.results.length ∧ request.mutations ≠ [] ∧
      (parseDecimal response.checkpoint).isSome = true then
    match idsMatch request.mutations response.results, request.mutations.getLast?,
        parseDecimal response.lastMutationId with
    | some ids, some last, some parsedLast =>
      if last.mutationId = response.lastMutationId ∧ parsedLast ≤ maxPostgresBigint then
        .ok (ids, parsedLast)
      else .error .invalidAcknowledgement
    | _, _, _ => .error .invalidAcknowledgement
  else .error .invalidAcknowledgement

def acknowledge (queue : Queue) (request : PushRequest) (response : PushResponse) :
    Except ProtocolError Queue :=
  match buildPushRequest queue request.mutations.length with
  | .ok expectedRequest =>
    if expectedRequest = request then
      if response.clientId = queue.clientId then
        match validateResponse request response with
        | .error error => .error error
        | .ok (confirmedIds, mutationWatermark) =>
          -- `mutation_watermark > next_mutation_id - 1`
          if mutationWatermark ≥ queue.nextMutationId then .error .watermarkAhead
          else .ok { queue with
            mutations := queue.mutations.map fun mutation =>
              if mutation.mutationId ∈ confirmedIds then { mutation with status := .confirmed }
              else mutation }
      else .error .wrongClient
    else .error .invalidAcknowledgement
  | .error _ => .error .invalidAcknowledgement

def setCheckpoint (queue : Queue) (checkpoint : String) : Except ProtocolError Queue :=
  match parseDecimal checkpoint with
  | none => .error .invalidAcknowledgement
  | some parsedCheckpoint =>
    .ok { queue with checkpoint := max queue.checkpoint parsedCheckpoint }

def compactConfirmed (queue : Queue) : Queue := { queue with mutations := queue.pending }

inductive QueueOperation
  | enqueue (tableName recordId : String) (operation : Operation) (baseRevision : Option String)
  | acknowledge (request : PushRequest) (response : PushResponse)
  | setCheckpoint (checkpoint : String)
  | compactConfirmed

/-- The queue that the caller has after an operation. -/
def next (json : JsonLibrary) (queue : Queue) : QueueOperation → Queue
  | .enqueue tableName recordId operation baseRevision =>
    ((enqueue json queue tableName recordId operation baseRevision).toOption.map Prod.fst).getD
      queue
  | .acknowledge request response => (acknowledge queue request response).toOption.getD queue
  | .setCheckpoint checkpoint => (setCheckpoint queue checkpoint).toOption.getD queue
  | .compactConfirmed => compactConfirmed queue

theorem intParse_repr (n : ℕ) : intParse n.repr = some (n : ℤ) := by
  have hm := Decimal.head_toDigits_ne (n := n) (c := '-') (by decide)
  have hp := Decimal.head_toDigits_ne (n := n) (c := '+') (by decide)
  simp only [intParse, Decimal.toList_repr]
  split
  · rename_i cs heq
    simp [heq] at hm
  · rename_i cs heq
    simp [heq] at hp
  · rw [Decimal.parseDigits_toDigits]
    rfl

theorem parseDecimal_eq_some {value : String} {n : ℕ} :
    parseDecimal value = some n ↔ n ≤ maxPostgresBigint ∧ value = n.repr := by
  constructor
  · intro h
    unfold parseDecimal at h
    split at h
    · split at h
      · rename_i number hparse hc
        obtain ⟨hpos, hrepr, hle⟩ := hc
        obtain rfl := Option.some.inj h
        exact ⟨by omega, hrepr.symm⟩
      · simp at h
    · simp at h
  · rintro ⟨hle, rfl⟩
    simp [parseDecimal, intParse_repr, hle]

theorem parsePositiveDecimal_eq_some {value : String} {n : ℕ} :
    parsePositiveDecimal value = some n ↔ 0 < n ∧ n ≤ maxPostgresBigint ∧ value = n.repr := by
  simp only [parsePositiveDecimal, Option.filter_eq_some_iff, parseDecimal_eq_some,
    decide_eq_true_eq]
  constructor
  · rintro ⟨⟨hle, hrepr⟩, hpos⟩
    exact ⟨hpos, hle, hrepr⟩
  · rintro ⟨hpos, hle, hrepr⟩
    exact ⟨⟨hle, hrepr⟩, hpos⟩

def Operation.Accepted (json : JsonLibrary) (maxPayloadBytes : ℤ) (operation : Operation) : Prop :=
  payloadTooLarge maxPayloadBytes operation = false ∧ invalidPayload json operation = false

def Mutation.confirm (m : Mutation) : Mutation := { m with status := .confirmed }

/-- What every operation keeps. The identifiers are consecutive and end just below the next one, and
the confirmed rows stand before the pending ones. -/
structure Queue.Sound (json : JsonLibrary) (q : Queue) : Prop where
  client : q.clientId ≠ ""
  limits : 0 < q.maxPendingMutations ∧ 0 < q.maxQueuedPayloadBytes
  checkpoint : q.checkpoint ≤ maxPostgresBigint
  next : q.nextMutationId ≤ maxPostgresBigint + 1
  capacity : q.pending.length ≤ q.maxPendingMutations
  ids : ∃ first, 0 < first ∧ first + q.mutations.length = q.nextMutationId ∧
    q.mutations.map (·.mutationId) = List.range' first q.mutations.length
  split : ∃ settled, (∀ m ∈ settled, m.status = .confirmed) ∧ q.mutations = settled ++ q.pending
  payloads : ∀ m ∈ q.mutations, m.operation.Accepted json q.maxQueuedPayloadBytes

theorem pending_append {settled waiting : List Mutation} (hs : ∀ m ∈ settled, m.status = .confirmed)
    (hw : ∀ m ∈ waiting, m.status = .pending) :
    (settled ++ waiting).filter (fun m => m.status = .pending) = waiting := by
  rw [List.filter_append, List.filter_eq_nil_iff.mpr, List.nil_append, List.filter_eq_self.mpr]
  · intro m hm
    simp [hw m hm]
  · intro m hm
    simp [hs m hm]

theorem Queue.status_pending {q : Queue} {m : Mutation} (hm : m ∈ q.pending) :
    m.status = .pending := by
  simpa using (List.mem_filter.mp hm).2

theorem newWithLimits_sound {json : JsonLibrary} {clientId : String} {pending bytes : ℤ} {q : Queue}
    (h : newWithLimits clientId pending bytes = .ok q) : q.Sound json := by
  unfold newWithLimits at h
  split at h
  · cases h
  · split at h
    · cases h
    · split at h
      · cases h
      · rename_i hclient hpending hbytes
        obtain rfl := Except.ok.inj h
        exact {
          client := hclient
          limits := ⟨not_le.mp hpending, not_le.mp hbytes⟩
          checkpoint := Nat.zero_le _
          next := Nat.le_add_left 1 _
          capacity := (not_le.mp hpending).le
          ids := ⟨1, by simp⟩
          split := ⟨[], by simp [Queue.pending]⟩
          payloads := by simp }

theorem enqueue_ok {json : JsonLibrary} {q q' : Queue} {tableName recordId : String}
    {operation : Operation} {baseRevision : Option String} {m : Mutation}
    (h : enqueue json q tableName recordId operation baseRevision = .ok (q', m)) :
    q.pending.length < q.maxPendingMutations ∧ q.nextMutationId ≤ maxPostgresBigint ∧
      operation.Accepted json q.maxQueuedPayloadBytes ∧
      m = ⟨q.nextMutationId, operation, tableName, recordId, baseRevision, .pending⟩ ∧
      q' = { q with nextMutationId := q.nextMutationId + 1, mutations := q.mutations ++ [m] } := by
  unfold enqueue at h
  split at h
  · cases h
  · split at h
    · cases h
    · split at h
      · cases h
      · split at h
        · cases h
        · rename_i hfull hlarge hinvalid hspent
          obtain ⟨rfl, rfl⟩ := Prod.mk.inj (Except.ok.inj h)
          exact ⟨not_le.mp hfull, not_lt.mp hspent,
            ⟨by simpa using hlarge, by simpa using hinvalid⟩, rfl, rfl⟩

theorem enqueue_sound {json : JsonLibrary} {q q' : Queue} {tableName recordId : String}
    {operation : Operation} {baseRevision : Option String} {m : Mutation} (hq : q.Sound json)
    (h : enqueue json q tableName recordId operation baseRevision = .ok (q', m)) :
    q'.Sound json := by
  obtain ⟨hroom, hspent, haccepted, hm, rfl⟩ := enqueue_ok h
  obtain ⟨settled, hsettled, hsplit⟩ := hq.split
  obtain ⟨first, hfirst, hnext, hids⟩ := hq.ids
  have hpending : Queue.pending { q with
      nextMutationId := q.nextMutationId + 1, mutations := q.mutations ++ [m] } =
      q.pending ++ [m] := by
    simp [Queue.pending, hm]
  refine ⟨hq.client, hq.limits, hq.checkpoint, Nat.succ_le_succ hspent, ?_, ?_, ?_, ?_⟩
  · rw [hpending, List.length_append, List.length_singleton]
    exact_mod_cast hroom
  · refine ⟨first, hfirst, ?_, ?_⟩
    · rw [List.length_append, List.length_singleton, ← add_assoc, hnext]
    · rw [List.map_append, hids, List.length_append, List.length_singleton, List.range'_concat]
      simp [hm, hnext]
  · refine ⟨settled, hsettled, ?_⟩
    rw [hpending, ← List.append_assoc, ← hsplit]
  · intro n hn
    rcases List.mem_append.mp hn with hn | hn
    · exact hq.payloads n hn
    · rw [List.mem_singleton.mp hn, hm]
      exact haccepted

/-! An acknowledgement confirms the oldest pending rows. -/

theorem idsMatch_repr {ms : List PushMutation} {rs : List MutationResult} {ids : List ℕ}
    (h : idsMatch ms rs = some ids) : ms.map (·.mutationId) = ids.map Nat.repr := by
  induction ms generalizing rs ids with
  | nil =>
    cases rs with
    | nil =>
      obtain rfl : [] = ids := Option.some.inj h
      rfl
    | cons r rs => simp [idsMatch] at h
  | cons m ms ih =>
    cases rs with
    | nil => simp [idsMatch] at h
    | cons r rs =>
      unfold idsMatch at h
      split at h
      · split at h
        · rename_i id rest hid hrest
          obtain rfl := Option.some.inj h
          simp [ih hrest, (parsePositiveDecimal_eq_some.mp hid).2.2]
        · simp at h
      · simp at h

theorem validateResponse_ids {request : PushRequest} {response : PushResponse} {ids : List ℕ}
    {watermark : ℕ} (h : validateResponse request response = .ok (ids, watermark)) :
    idsMatch request.mutations response.results = some ids := by
  unfold validateResponse at h
  split at h
  · split at h
    · rename_i hids _ _
      split at h
      · obtain ⟨rfl, -⟩ := Prod.mk.inj (Except.ok.inj h)
        exact hids
      · cases h
    · cases h
  · cases h

theorem buildPushRequest_ids {q : Queue} {limit : ℤ} {request : PushRequest}
    (h : buildPushRequest q limit = .ok request) :
    request.mutations.map (·.mutationId) =
      ((q.pending.take limit.toNat).map (·.mutationId)).map Nat.repr := by
  unfold buildPushRequest at h
  split at h
  · rw [← Except.ok.inj h, List.map_map, List.map_map]
    rfl
  · cases h

/-- The rows of the batch are told by their identifiers. -/
def Queue.confirmOldest (q : Queue) (n : ℕ) : Queue :=
  { q with mutations := q.mutations.map fun m =>
      if m.mutationId ∈ (q.pending.take n).map (·.mutationId) then m.confirm else m }

theorem acknowledge_ok {q q' : Queue} {request : PushRequest} {response : PushResponse}
    (h : acknowledge q request response = .ok q') :
    ∃ n, q' = q.confirmOldest n := by
  unfold acknowledge at h
  split at h
  · rename_i expected hbuild
    split at h
    · rename_i hexpected
      split at h
      · split at h
        · cases h
        · rename_i ids watermark hvalid
          split at h
          · cases h
          · have hrows : ids.map Nat.repr =
                ((q.pending.take request.mutations.length).map (·.mutationId)).map Nat.repr := by
              rw [← idsMatch_repr (validateResponse_ids hvalid), ← hexpected]
              exact hexpected ▸ buildPushRequest_ids hbuild
            have hids := List.map_injective_iff.mpr (fun _ _ he => Nat.repr_injective he) hrows
            rw [hids] at h
            exact ⟨request.mutations.length, (Except.ok.inj h).symm⟩
      · cases h
    · cases h
  · cases h

theorem Queue.Sound.nodup {json : JsonLibrary} {q : Queue} (hq : q.Sound json) :
    (q.mutations.map (·.mutationId)).Nodup := by
  obtain ⟨first, -, -, hids⟩ := hq.ids
  rw [hids]
  exact List.nodup_range'

theorem Mutation.confirm_of_confirmed {m : Mutation} (h : m.status = .confirmed) :
    m.confirm = m := by
  rw [Mutation.confirm, ← h]

/-- Only pending rows have an identifier of the batch, and only the first `n` of them. -/
theorem map_confirm {settled waiting : List Mutation} {n : ℕ}
    (hs : ∀ m ∈ settled, m.status = .confirmed)
    (hnodup : ((settled ++ waiting).map (·.mutationId)).Nodup) :
    ((settled ++ waiting).map fun m =>
        if m.mutationId ∈ (waiting.take n).map (·.mutationId) then m.confirm else m) =
      (settled ++ (waiting.take n).map Mutation.confirm) ++ waiting.drop n := by
  have hwaiting : (waiting.map (·.mutationId)).Nodup := by
    rw [List.map_append] at hnodup
    exact (List.nodup_append.mp hnodup).2.1
  have hdisjoint := List.disjoint_take_drop hwaiting (le_refl n)
  rw [List.map_append, List.append_assoc]
  congr 1
  · refine (List.map_congr_left (g := id) fun m hm => ?_).trans (List.map_id _)
    split
    · exact Mutation.confirm_of_confirmed (hs m hm)
    · rfl
  · conv_lhs => rw [← List.take_append_drop n waiting]
    rw [List.map_append]
    congr 1
    · refine List.map_congr_left fun m hm => ?_
      simp only [List.take_append_drop]
      rw [if_pos (List.mem_map_of_mem hm)]
    · refine (List.map_congr_left (g := id) fun m hm => ?_).trans (List.map_id _)
      simp only [List.take_append_drop]
      refine if_neg fun hin => ?_
      rw [List.map_take] at hin
      exact hdisjoint hin (List.map_drop ▸ List.mem_map_of_mem hm)

theorem confirmOldest_sound {json : JsonLibrary} {q : Queue} (hq : q.Sound json) (n : ℕ) :
    (q.confirmOldest n).Sound json := by
  obtain ⟨settled, hsettled, hsplit⟩ := hq.split
  have hnodup := hq.nodup
  have hrows : (q.confirmOldest n).mutations =
      (settled ++ (q.pending.take n).map Mutation.confirm) ++ q.pending.drop n := by
    rw [hsplit] at hnodup
    conv_lhs => rw [Queue.confirmOldest, hsplit]
    exact map_confirm hsettled hnodup
  have hconfirmed : ∀ m ∈ settled ++ (q.pending.take n).map Mutation.confirm,
      m.status = .confirmed := by
    intro m hm
    rcases List.mem_append.mp hm with hm | hm
    · exact hsettled m hm
    · obtain ⟨x, -, rfl⟩ := List.mem_map.mp hm
      rfl
  have hwaiting : ∀ m ∈ q.pending.drop n, m.status = .pending := fun m hm =>
    Queue.status_pending (List.mem_of_mem_drop hm)
  have hpending : (q.confirmOldest n).pending = q.pending.drop n := by
    rw [Queue.pending, hrows, pending_append hconfirmed hwaiting]
  refine ⟨hq.client, hq.limits, hq.checkpoint, hq.next, ?_, ?_, ?_, ?_⟩
  · have hcapacity := hq.capacity
    rw [hpending, List.length_drop]
    exact le_trans (by omega) hcapacity
  · obtain ⟨first, hfirst, hnext, hids⟩ := hq.ids
    refine ⟨first, hfirst, by simpa [Queue.confirmOldest] using hnext, ?_⟩
    simp only [Queue.confirmOldest, List.map_map, List.length_map, ← hids]
    refine List.map_congr_left fun m _ => ?_
    simp only [Function.comp_apply]
    split <;> rfl
  · exact ⟨_, hconfirmed, by rw [hrows, hpending]⟩
  · intro m hm
    obtain ⟨x, hx, rfl⟩ := List.mem_map.mp hm
    have haccepted := hq.payloads x hx
    split
    · exact haccepted
    · exact haccepted

theorem setCheckpoint_sound {json : JsonLibrary} {q q' : Queue} {checkpoint : String}
    (hq : q.Sound json) (h : setCheckpoint q checkpoint = .ok q') : q'.Sound json := by
  unfold setCheckpoint at h
  split at h
  · cases h
  · rename_i parsed hparsed
    obtain rfl := Except.ok.inj h
    exact { hq with
      checkpoint := max_le hq.checkpoint (parseDecimal_eq_some.mp hparsed).1 }

theorem compactConfirmed_sound {json : JsonLibrary} {q : Queue} (hq : q.Sound json) :
    (compactConfirmed q).Sound json := by
  obtain ⟨settled, hsettled, hsplit⟩ := hq.split
  have hpending : (compactConfirmed q).pending = q.pending := by
    simp [compactConfirmed, Queue.pending]
  refine ⟨hq.client, hq.limits, hq.checkpoint, hq.next, hpending ▸ hq.capacity, ?_, ?_, ?_⟩
  · obtain ⟨first, hfirst, hnext, hids⟩ := hq.ids
    rw [hsplit, List.length_append] at hnext
    rw [hsplit, List.map_append, List.length_append, List.range'_append_1.symm] at hids
    refine ⟨first + settled.length, by omega, (add_assoc _ _ _).trans hnext, ?_⟩
    exact (List.append_inj hids (by simp)).2
  · exact ⟨[], by simp, hpending.symm ▸ rfl⟩
  · exact fun m hm => hq.payloads m (List.mem_of_mem_filter hm)

theorem next_sound {json : JsonLibrary} (q : Queue) (op : QueueOperation) (hq : q.Sound json) :
    (next json q op).Sound json := by
  cases op with
  | enqueue tableName recordId operation baseRevision =>
    simp only [next]
    cases h : enqueue json q tableName recordId operation baseRevision with
    | error => exact hq
    | ok p => exact enqueue_sound hq h
  | acknowledge request response =>
    simp only [next]
    cases h : acknowledge q request response with
    | error => exact hq
    | ok q' =>
      obtain ⟨n, rfl⟩ := acknowledge_ok h
      exact confirmOldest_sound hq n
  | setCheckpoint checkpoint =>
    simp only [next]
    cases h : setCheckpoint q checkpoint with
    | error => exact hq
    | ok q' => exact setCheckpoint_sound hq h
  | compactConfirmed => exact compactConfirmed_sound hq

end OptoSync.Gleam
