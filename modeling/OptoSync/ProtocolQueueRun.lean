import OptoSync.ProtocolQueueLedger
import OptoSync.Transition

/-!
# Runs of the protocol queue

A run is a list of calls of the public operations, with any arguments; refused calls stay in the
run. The log keeps what each call returned.
-/
namespace OptoSync
open Decimal Transition

/-- The public operations. `policy` is `none` for the plain enqueue and a policy for the
`_with_consistency` variant; `replaced` is what the snapshot callback returns. -/
inductive QueueCall
  | queueUpsert (table recordId : String) (payload : Json) (baseRevision : Option String)
      (resurrect : Bool) (policy : Option ConsistencyPolicy)
  | queueDelete (table recordId : String) (baseRevision : Option String)
      (policy : Option ConsistencyPolicy)
  | pushRequest (limit : ℕ)
  | acknowledge (response : PushResponse) (request : PushRequest)
  | setCheckpoint (checkpoint : String)
  | installSnapshot (snapshot : SnapshotResponse) (replaced : Except Unit Unit)
  | pruneConfirmed (retain : ℕ)

inductive QueueOutcome
  | allocated (mutationId : String)
  | request (request : PushRequest)
  | acknowledged (count : ℕ)
  | moved
  | pruned (count : ℕ)
  | refused
  deriving DecidableEq

def QueueOutcome.allocatedId : QueueOutcome → Option String
  | .allocated id => some id
  | _ => none

def QueueOutcome.sentRequest : QueueOutcome → Option PushRequest
  | .request sent => some sent
  | _ => none

namespace QueueCall

/-- The row that an enqueueing call appends when it gets the id `mutationId`. -/
def row (mutationId : String) : QueueCall → Option ProtocolMutation
  | queueUpsert table recordId payload baseRevision resurrect _ => some
      { mutationId, operation := .upsert, table, recordId, payload := some payload, baseRevision,
        resurrect, status := .pending }
  | queueDelete table recordId baseRevision _ => some
      { mutationId, operation := .delete, table, recordId, payload := none, baseRevision,
        resurrect := false, status := .pending }
  | _ => none

def allocation : Except ProtocolError String × ProtocolQueue → QueueOutcome × ProtocolQueue
  | (.ok id, q) => (.allocated id, q)
  | (.error _, q) => (.refused, q)

def perform (toText : Json → String) (q : ProtocolQueue) : QueueCall → QueueOutcome × ProtocolQueue
  | queueUpsert table recordId payload baseRevision resurrect none =>
    allocation (q.queueUpsert toText table recordId payload baseRevision resurrect)
  | queueUpsert table recordId payload baseRevision resurrect (some policy) => allocation
      (q.queueUpsertWithConsistency toText table recordId payload baseRevision resurrect policy)
  | queueDelete table recordId baseRevision none =>
    allocation (q.queueDelete table recordId baseRevision)
  | queueDelete table recordId baseRevision (some policy) =>
    allocation (q.queueDeleteWithConsistency table recordId baseRevision policy)
  | pushRequest limit =>
    match q.pushRequest limit with
    | .ok request => (.request request, q)
    | .error _ => (.refused, q)
  | acknowledge response request =>
    match q.acknowledge response request with
    | (.ok count, q') => (.acknowledged count, q')
    | (.error _, q') => (.refused, q')
  | setCheckpoint checkpoint =>
    match q.setCheckpoint checkpoint with
    | (.ok (), q') => (.moved, q')
    | (.error _, q') => (.refused, q')
  | installSnapshot snapshot replaced =>
    match (q.installSnapshot snapshot fun _ => pure replaced :
        Id (Except (SnapshotInstallError Unit) Unit × ProtocolQueue)) with
    | (.ok (), q') => (.moved, q')
    | (.error _, q') => (.refused, q')
  | pruneConfirmed retain =>
    let out := q.pruneConfirmed retain
    (.pruned out.1, out.2)

end QueueCall

structure QueueSession where
  queue : ProtocolQueue
  log : List (QueueCall × QueueOutcome)

namespace QueueSession

def next (toText : Json → String) (s : QueueSession) (call : QueueCall) : QueueSession :=
  let out := call.perform toText s.queue
  { queue := out.2, log := s.log ++ [(call, out.1)] }

def allocatedIds (s : QueueSession) : List String :=
  s.log.filterMap fun entry => entry.2.allocatedId

def requests (s : QueueSession) : List PushRequest :=
  s.log.filterMap fun entry => entry.2.sentRequest

variable {toText : Json → String}

theorem allocatedIds_next (s : QueueSession) (call : QueueCall) :
    (s.next toText call).allocatedIds =
      s.allocatedIds ++ (call.perform toText s.queue).1.allocatedId.toList := by
  simp only [allocatedIds, next, List.filterMap_append]
  cases h : (call.perform toText s.queue).1.allocatedId <;> simp [h]

theorem requests_next (s : QueueSession) (call : QueueCall) :
    (s.next toText call).requests =
      s.requests ++ (call.perform toText s.queue).1.sentRequest.toList := by
  simp only [requests, next, List.filterMap_append]
  cases h : (call.perform toText s.queue).1.sentRequest <;> simp [h]

end QueueSession

namespace ProtocolQueue

variable {toText : Json → String} {q : ProtocolQueue} {rows : List ProtocolMutation} {w : ℕ}

/-- What an accepted enqueue leaves behind, policies aside. -/
structure Enqueued (q q' : ProtocolQueue) (m : ProtocolMutation) : Prop where
  bound : q.nextMutationId ≤ maxI64
  room : q.pending.length < q.maxPendingMutations
  client : q'.clientId = q.clientId
  next : q'.nextMutationId = q.nextMutationId + 1
  checkpoint : q'.checkpoint = q.checkpoint
  mutations : q'.mutations = q.mutations ++ [m]
  maxPending : q'.maxPendingMutations = q.maxPendingMutations
  maxBytes : q'.maxQueuedPayloadBytes = q.maxQueuedPayloadBytes

theorem queue_enqueued (m : ProtocolMutation) (payloadBytes : ℕ) :
    (∃ e, q.queue m payloadBytes = (.error e, q)) ∨
    ∃ q', q.queue m payloadBytes = (.ok q.nextMutationId.repr, q') ∧
      payloadBytes ≤ q.maxQueuedPayloadBytes ∧
      Enqueued q q' { m with mutationId := q.nextMutationId.repr } ∧
      q'.consistencyPolicies = q.consistencyPolicies.insertIfNew q.nextMutationId.repr
        Consistency.writeThroughLocalFirst := by
  rcases q.queue_cases m payloadBytes with h | ⟨hbytes, hroom, -, hbound, heq⟩
  · exact Or.inl h
  · exact Or.inr ⟨_, heq, hbytes, ⟨hbound, hroom, rfl, rfl, rfl, rfl, rfl, rfl⟩, rfl⟩

/-- The fields an enqueueing call has already checked when it reaches the queue. -/
structure Admitted (toText : Json → String) (maxBytes : ℕ) (m : ProtocolMutation) : Prop where
  table : validScopeId m.table = true
  record : validRecordId m.recordId = true
  content : match m.operation with
    | .upsert => ∃ payload, m.payload = some payload ∧ payload.isObject = true ∧
        (toText payload).utf8ByteSize ≤ maxBytes
    | .delete => m.payload = none ∧ m.resurrect = false

/-- The policies after an accepted enqueue of `call`. -/
def policiesAfter (q : ProtocolQueue) (call : QueueCall) : Std.ExtTreeMap String String compare :=
  let base := q.consistencyPolicies.insertIfNew q.nextMutationId.repr
    Consistency.writeThroughLocalFirst
  match call with
  | .queueUpsert _ _ _ _ _ (some policy) | .queueDelete _ _ _ (some policy) =>
    base.insert q.nextMutationId.repr policy.asStr
  | _ => base

theorem recordPolicy_ok {policy : ConsistencyPolicy} {id : String} {q' : ProtocolQueue} :
    recordPolicy policy (.ok id, q') = (.ok id, { q' with
      consistencyPolicies := q'.consistencyPolicies.insert id policy.asStr }) := rfl

theorem queueUpsert_cases (toText : Json → String) (q : ProtocolQueue) (table recordId : String) (payload : Json)
    (baseRevision : Option String) (resurrect : Bool) :
    (∃ e, q.queueUpsert toText table recordId payload baseRevision resurrect = (.error e, q)) ∨
    ∃ q' m, q.queueUpsert toText table recordId payload baseRevision resurrect =
        (.ok q.nextMutationId.repr, q') ∧
      (QueueCall.queueUpsert table recordId payload baseRevision resurrect none).row
        q.nextMutationId.repr = some m ∧
      Enqueued q q' m ∧ Admitted toText q.maxQueuedPayloadBytes m ∧
      q'.consistencyPolicies = q.consistencyPolicies.insertIfNew q.nextMutationId.repr
        Consistency.writeThroughLocalFirst := by
  unfold queueUpsert
  split
  · exact Or.inl ⟨_, rfl⟩
  · rename_i htarget
    split
    · exact Or.inl ⟨_, rfl⟩
    · rename_i hobject
      simp only [not_or, Bool.not_eq_false] at htarget hobject
      rcases queue_enqueued (q := q)
        { mutationId := "", operation := .upsert, table, recordId, payload := some payload,
          baseRevision, resurrect, status := .pending } (toText payload).utf8ByteSize with
        h | ⟨q', heq, hbytes, henq, hpol⟩
      · exact Or.inl h
      · exact Or.inr ⟨q', _, heq, rfl, henq,
          ⟨htarget.1, htarget.2, payload, rfl, hobject, hbytes⟩, hpol⟩

theorem queueDelete_cases (toText : Json → String) (q : ProtocolQueue) (table recordId : String) (baseRevision : Option String) :
    (∃ e, q.queueDelete table recordId baseRevision = (.error e, q)) ∨
    ∃ q' m, q.queueDelete table recordId baseRevision = (.ok q.nextMutationId.repr, q') ∧
      (QueueCall.queueDelete table recordId baseRevision none).row q.nextMutationId.repr = some m ∧
      Enqueued q q' m ∧ Admitted toText q.maxQueuedPayloadBytes m ∧
      q'.consistencyPolicies = q.consistencyPolicies.insertIfNew q.nextMutationId.repr
        Consistency.writeThroughLocalFirst := by
  unfold queueDelete
  split
  · exact Or.inl ⟨_, rfl⟩
  · rename_i htarget
    simp only [not_or, Bool.not_eq_false] at htarget
    rcases queue_enqueued (q := q)
      { mutationId := "", operation := .delete, table, recordId, payload := none,
        baseRevision, resurrect := false, status := .pending } 2 with
      h | ⟨q', heq, -, henq, hpol⟩
    · exact Or.inl h
    · exact Or.inr ⟨q', _, heq, rfl, henq, ⟨htarget.1, htarget.2, rfl, rfl⟩, hpol⟩

/-- The calls that append a row, in one statement: a refusal without effect, or the row of the
call under the next id, with its policy. -/
theorem perform_enqueue (toText : Json → String) (q : ProtocolQueue) (call : QueueCall)
    (hcall : (call.row "").isSome = true) :
    call.perform toText q = (.refused, q) ∨
    ∃ q' m, call.perform toText q = (.allocated q.nextMutationId.repr, q') ∧
      call.row q.nextMutationId.repr = some m ∧ Enqueued q q' m ∧
      Admitted toText q.maxQueuedPayloadBytes m ∧
      q'.consistencyPolicies = policiesAfter q call := by
  cases call with
  | queueUpsert table recordId payload baseRevision resurrect policy =>
    rcases queueUpsert_cases toText q table recordId payload baseRevision
      resurrect with ⟨e, he⟩ | ⟨q', m, heq, hrow, henq, hadm, hpol⟩
    · left
      cases policy <;> simp [QueueCall.perform, queueUpsertWithConsistency, he, recordPolicy,
        QueueCall.allocation]
    · right
      cases policy with
      | none => exact ⟨q', m, by simp [QueueCall.perform, heq, QueueCall.allocation], hrow, henq,
          hadm, hpol⟩
      | some policy =>
        refine ⟨{ q' with consistencyPolicies :=
          q'.consistencyPolicies.insert q.nextMutationId.repr policy.asStr }, m, ?_, hrow,
          ⟨henq.bound, henq.room, henq.client, henq.next, henq.checkpoint, henq.mutations,
            henq.maxPending, henq.maxBytes⟩, hadm, ?_⟩
        · simp [QueueCall.perform, queueUpsertWithConsistency, heq, recordPolicy_ok,
            QueueCall.allocation]
        · simp [policiesAfter, hpol]
  | queueDelete table recordId baseRevision policy =>
    rcases queueDelete_cases toText q table recordId baseRevision with
      ⟨e, he⟩ | ⟨q', m, heq, hrow, henq, hadm, hpol⟩
    · left
      cases policy <;> simp [QueueCall.perform, queueDeleteWithConsistency, he, recordPolicy,
        QueueCall.allocation]
    · right
      cases policy with
      | none => exact ⟨q', m, by simp [QueueCall.perform, heq, QueueCall.allocation], hrow, henq,
          hadm, hpol⟩
      | some policy =>
        refine ⟨{ q' with consistencyPolicies :=
          q'.consistencyPolicies.insert q.nextMutationId.repr policy.asStr }, m, ?_, hrow,
          ⟨henq.bound, henq.room, henq.client, henq.next, henq.checkpoint, henq.mutations,
            henq.maxPending, henq.maxBytes⟩, hadm, ?_⟩
        · simp [QueueCall.perform, queueDeleteWithConsistency, heq, recordPolicy_ok,
            QueueCall.allocation]
        · simp [policiesAfter, hpol]
  | pushRequest limit => simp [QueueCall.row] at hcall
  | acknowledge response request => simp [QueueCall.row] at hcall
  | setCheckpoint checkpoint => simp [QueueCall.row] at hcall
  | installSnapshot snapshot replaced => simp [QueueCall.row] at hcall
  | pruneConfirmed retain => simp [QueueCall.row] at hcall

theorem acknowledge_perform (toText : Json → String) (response : PushResponse)
    (request : PushRequest) (h : Ledger q rows w) :
    (QueueCall.acknowledge response request).perform toText q = (.refused, q) ∨
    ∃ n w', (QueueCall.acknowledge response request).perform toText q =
        (.acknowledged n, { q with mutations := q.mutations.map (·.settle w') }) ∧ w ≤ w' ∧
      Ledger { q with mutations := q.mutations.map (·.settle w') } rows w' := by
  rcases acknowledge_cases h.parses response request with ⟨e, he⟩ | ⟨mark, n, hack, heq⟩
  · exact Or.inl (by simp [QueueCall.perform, he])
  · obtain ⟨hmark, hledger⟩ := h.acknowledge hack
    rw [← hmark] at hledger
    exact Or.inr ⟨n, mark, by simp [QueueCall.perform, heq], by omega, hledger⟩

/-- Everything but the rows, the next id and the checkpoint is as before; a row is as before or
confirmed. -/
structure Keeps (q q' : ProtocolQueue) : Prop where
  client : q'.clientId = q.clientId
  next : q'.nextMutationId = q.nextMutationId
  checkpoint : q'.checkpoint = q.checkpoint ∨ (parseDecimal q'.checkpoint).isSome = true
  mutations : ∀ m ∈ q'.mutations, ∃ r ∈ q.mutations, m = r ∨ m = r.confirm
  ids : (q'.mutations.map (·.mutationId)).Sublist (q.mutations.map (·.mutationId))
  maxPending : q'.maxPendingMutations = q.maxPendingMutations
  maxBytes : q'.maxQueuedPayloadBytes = q.maxQueuedPayloadBytes
  policies : q'.consistencyPolicies = q.consistencyPolicies

theorem Keeps.refl (q : ProtocolQueue) : Keeps q q :=
  ⟨rfl, rfl, Or.inl rfl, fun m hm => ⟨m, hm, Or.inl rfl⟩, List.Sublist.refl _, rfl, rfl, rfl⟩

theorem Keeps.trans {q q' q'' : ProtocolQueue} (h : Keeps q q') (h' : Keeps q' q'') :
    Keeps q q'' := by
  refine ⟨h'.client.trans h.client, h'.next.trans h.next, ?_, fun m hm => ?_, h'.ids.trans h.ids,
    h'.maxPending.trans h.maxPending, h'.maxBytes.trans h.maxBytes, h'.policies.trans h.policies⟩
  · rcases h'.checkpoint with hc | hc
    · rw [hc]
      exact h.checkpoint
    · exact Or.inr hc
  · obtain ⟨r', hr', hm'⟩ := h'.mutations m hm
    obtain ⟨r, hr, hrr⟩ := h.mutations r' hr'
    refine ⟨r, hr, ?_⟩
    rcases hm' with rfl | rfl
    · exact hrr
    · rcases hrr with rfl | rfl
      · exact Or.inr rfl
      · exact Or.inr rfl

/-- Also when it stops early, the confirmation loop only confirms. -/
theorem confirmThrough_rows (watermark changed : ℕ) (ms : List ProtocolMutation) :
    List.Forall₂ (fun m r => m = r ∨ m = r.confirm) (confirmThrough watermark changed ms).2 ms := by
  induction ms generalizing changed with
  | nil => exact .nil
  | cons m ms ih =>
    unfold confirmThrough
    cases parseDecimal m.mutationId with
    | none => exact .cons (Or.inl rfl) (List.forall₂_same.mpr fun _ _ => Or.inl rfl)
    | some id =>
      dsimp only
      split
      · exact .cons (Or.inr rfl) (ih _)
      · exact .cons (Or.inl rfl) (ih _)

theorem Keeps.of_rows {q q' : ProtocolQueue} (hc : q'.clientId = q.clientId)
    (hn : q'.nextMutationId = q.nextMutationId) (hck : q'.checkpoint = q.checkpoint)
    (hp : q'.maxPendingMutations = q.maxPendingMutations)
    (hb : q'.maxQueuedPayloadBytes = q.maxQueuedPayloadBytes)
    (hpol : q'.consistencyPolicies = q.consistencyPolicies)
    (hrows : List.Forall₂ (fun m r => m = r ∨ m = r.confirm) q'.mutations q.mutations) :
    Keeps q q' := by
  refine ⟨hc, hn, Or.inl hck, fun m hm => ?_, ?_, hp, hb, hpol⟩
  · obtain ⟨i, hi, rfl⟩ := List.getElem_of_mem hm
    have hi' : i < q.mutations.length := hrows.length_eq ▸ hi
    exact ⟨q.mutations[i], List.getElem_mem hi', hrows.get hi hi'⟩
  · have : q'.mutations.map (·.mutationId) = q.mutations.map (·.mutationId) := by
      rw [← List.forall₂_eq_eq_eq, List.forall₂_map_left_iff, List.forall₂_map_right_iff]
      exact hrows.imp fun m r h => by rcases h with rfl | rfl <;> rfl
    rw [this]

theorem acknowledge_keeps (response : PushResponse) (request : PushRequest) :
    Keeps q (q.acknowledge response request).2 := by
  unfold acknowledge
  split_ifs
  · exact Keeps.refl q
  · exact Keeps.refl q
  · cases parseDecimal response.lastMutationId with
    | none => exact Keeps.refl q
    | some watermark =>
      dsimp only
      split
      · exact Keeps.refl q
      · exact .of_rows rfl rfl rfl rfl rfl rfl (confirmThrough_rows watermark 0 q.mutations)

/-- The calls that are no enqueue, from any queue. -/
theorem perform_keeps (toText : Json → String) {call : QueueCall} (hcall : call.row "" = none) (q : ProtocolQueue) :
    Keeps q (call.perform toText q).2 ∧ (call.perform toText q).1.allocatedId = none := by
  cases call with
  | queueUpsert table recordId payload baseRevision resurrect policy => cases hcall
  | queueDelete table recordId baseRevision policy => cases hcall
  | pushRequest limit =>
    by_cases hl : validPushLimit limit = false
    · simp [QueueCall.perform, ProtocolQueue.pushRequest, hl, Keeps.refl, QueueOutcome.allocatedId]
    · simp [QueueCall.perform, ProtocolQueue.pushRequest, hl, Keeps.refl, QueueOutcome.allocatedId]
  | acknowledge response request =>
    have h := acknowledge_keeps (q := q) response request
    rcases hout : q.acknowledge response request with ⟨result, q'⟩
    rw [hout] at h
    simp only [QueueCall.perform, hout]
    cases result with
    | error e => exact ⟨h, rfl⟩
    | ok count => exact ⟨h, rfl⟩
  | setCheckpoint checkpoint =>
    simp only [QueueCall.perform, ProtocolQueue.setCheckpoint]
    cases hc : parseDecimal checkpoint with
    | none => exact ⟨Keeps.refl q, rfl⟩
    | some c => exact ⟨⟨rfl, rfl, Or.inr (by simp [hc]), fun m hm => ⟨m, hm, Or.inl rfl⟩,
        List.Sublist.refl _, rfl, rfl, rfl⟩, rfl⟩
  | installSnapshot snapshot replaced =>
    simp only [QueueCall.perform, ProtocolQueue.installSnapshot]
    by_cases hv : snapshot.protocolVersion ≠ 1 ∨ (parseDecimal snapshot.checkpoint).isNone ∨
        snapshot.records.all installableRecord = false
    · simp only [if_pos hv]
      exact ⟨Keeps.refl q, rfl⟩
    · simp only [if_neg hv]
      cases replaced with
      | error e => exact ⟨Keeps.refl q, rfl⟩
      | ok u =>
        have hc : (parseDecimal snapshot.checkpoint).isSome = true := by
          simp only [not_or, Option.isNone_iff_eq_none] at hv
          exact Option.isSome_iff_ne_none.mpr hv.2.1
        exact ⟨⟨rfl, rfl, Or.inr hc, fun m hm => ⟨m, hm, Or.inl rfl⟩, List.Sublist.refl _, rfl, rfl,
          rfl⟩, rfl⟩
  | pruneConfirmed retain =>
    exact ⟨⟨rfl, rfl, Or.inl rfl, fun m hm => ⟨m, (List.mem_filter.mp hm).1, Or.inl rfl⟩,
      List.filter_sublist.map _, rfl, rfl, rfl⟩, rfl⟩

/-- What a call does to the ledger, and what its outcome says about it. -/
structure Follows (toText : Json → String) (q : ProtocolQueue) (rows : List ProtocolMutation)
    (w : ℕ) (call : QueueCall) (rows' : List ProtocolMutation) (w' : ℕ) : Prop where
  ledger : Ledger (call.perform toText q).2 rows' w'
  advances : w ≤ w'
  refused : (call.perform toText q).1 = .refused → (call.perform toText q).2 = q
  effect : match (call.perform toText q).1 with
    | .allocated id => id = q.nextMutationId.repr ∧ ∃ m, call.row id = some m ∧
        rows' = rows ++ [m] ∧ Enqueued q (call.perform toText q).2 m ∧
        Admitted toText q.maxQueuedPayloadBytes m ∧
        (call.perform toText q).2.consistencyPolicies = policiesAfter q call
    | .request request => rows' = rows ∧ Keeps q (call.perform toText q).2 ∧
        ∀ m ∈ request.mutations, m ∈ rows
    | _ => rows' = rows ∧ Keeps q (call.perform toText q).2

theorem row_fresh {call : QueueCall} {id : String} {m : ProtocolMutation}
    (h : call.row id = some m) : m.mutationId = id ∧ m.status = .pending := by
  cases call <;> cases h <;> exact ⟨rfl, rfl⟩

theorem Follows.of_refused {call : QueueCall} (h : Ledger q rows w)
    (heq : call.perform toText q = (.refused, q)) : Follows toText q rows w call rows w := by
  refine ⟨by rw [heq]; exact h, le_rfl, fun _ => by rw [heq], ?_⟩
  rw [heq]
  exact ⟨rfl, Keeps.refl q⟩

theorem Follows.of_kept {call : QueueCall} {out : QueueOutcome} {q' : ProtocolQueue} {w' : ℕ}
    (heq : call.perform toText q = (out, q')) (hledger : Ledger q' rows w') (hle : w ≤ w')
    (hk : Keeps q q') (hout : out ≠ .refused) (hid : out.allocatedId = none)
    (hreq : out.sentRequest = none) : Follows toText q rows w call rows w' := by
  refine ⟨by rw [heq]; exact hledger, hle, fun hr => absurd (by rwa [heq] at hr) hout, ?_⟩
  rw [heq]
  cases out with
  | allocated id => cases hid
  | request request => cases hreq
  | acknowledged n => exact ⟨rfl, hk⟩
  | moved => exact ⟨rfl, hk⟩
  | pruned n => exact ⟨rfl, hk⟩
  | refused => exact absurd rfl hout

/-- The step lemma: every call keeps the ledger. -/
theorem Ledger.perform (h : Ledger q rows w) (toText : Json → String) (call : QueueCall) :
    ∃ rows' w', Follows toText q rows w call rows' w' := by
  have henqueue : (call.row "").isSome = true →
      ∃ rows' w', Follows toText q rows w call rows' w' := by
    intro hcall
    rcases perform_enqueue toText q call hcall with
      hr | ⟨q', m, heq, hrow, henq, hadm, hpol⟩
    · exact ⟨rows, w, .of_refused h hr⟩
    · obtain ⟨hid, hpending⟩ := row_fresh hrow
      refine ⟨rows ++ [m], w, ?_, le_rfl, fun hr => ?_, ?_⟩
      · rw [heq]
        exact h.enqueue hpending hid henq.bound henq.next henq.mutations
      · rw [heq] at hr
        cases hr
      · rw [heq]
        exact ⟨rfl, m, hrow, rfl, henq, hadm, hpol⟩
  have hkeeps : call.row "" = none → ∀ {out q'}, call.perform toText q = (out, q') →
      Keeps q q' := by
    intro hcall out q' heq
    have := (perform_keeps toText hcall q).1
    rwa [heq] at this
  cases call with
  | queueUpsert table recordId payload baseRevision resurrect policy => exact henqueue rfl
  | queueDelete table recordId baseRevision policy => exact henqueue rfl
  | pushRequest limit =>
    refine ⟨rows, w, ?_⟩
    by_cases hl : validPushLimit limit = false
    · exact .of_refused h (by simp [QueueCall.perform, ProtocolQueue.pushRequest, hl])
    · have heq : (QueueCall.pushRequest limit).perform toText q =
          (.request ⟨1, q.clientId, q.pending.take limit⟩, q) := by
        simp [QueueCall.perform, ProtocolQueue.pushRequest, hl]
      refine ⟨by rw [heq]; exact h, le_rfl, fun _ => by rw [heq], ?_⟩
      rw [heq]
      refine ⟨rfl, Keeps.refl q, fun m hm => ?_⟩
      have hp := List.mem_of_mem_take hm
      rw [h.pending_eq] at hp
      exact List.mem_of_mem_drop hp
  | acknowledge response request =>
    rcases acknowledge_perform toText response request h
      with hr | ⟨n, w', heq, hle, hledger⟩
    · exact ⟨rows, w, .of_refused h hr⟩
    · exact ⟨rows, w', .of_kept heq hledger hle (hkeeps rfl heq) (by simp) rfl rfl⟩
  | setCheckpoint checkpoint =>
    refine ⟨rows, w, ?_⟩
    cases hc : parseDecimal checkpoint with
    | none => exact .of_refused h (by simp [QueueCall.perform, ProtocolQueue.setCheckpoint, hc])
    | some c =>
      have heq : (QueueCall.setCheckpoint checkpoint).perform toText q =
          (.moved, { q with checkpoint }) := by
        simp [QueueCall.perform, ProtocolQueue.setCheckpoint, hc]
      exact .of_kept heq (h.congr rfl rfl) le_rfl (hkeeps rfl heq) (by simp) rfl rfl
  | installSnapshot snapshot replaced =>
    refine ⟨rows, w, ?_⟩
    by_cases hv : snapshot.protocolVersion ≠ 1 ∨ (parseDecimal snapshot.checkpoint).isNone ∨
        snapshot.records.all installableRecord = false
    · refine .of_refused h ?_
      simp only [QueueCall.perform, ProtocolQueue.installSnapshot, if_pos hv]
      rfl
    · cases replaced with
      | error e =>
        refine .of_refused h ?_
        simp only [QueueCall.perform, ProtocolQueue.installSnapshot, if_neg hv]
        rfl
      | ok u =>
        have heq : (QueueCall.installSnapshot snapshot (.ok u)).perform toText q =
            (.moved, { q with checkpoint := snapshot.checkpoint }) := by
          simp only [QueueCall.perform, ProtocolQueue.installSnapshot, if_neg hv]
          rfl
        exact .of_kept heq (h.congr rfl rfl) le_rfl (hkeeps rfl heq) (by simp) rfl rfl
  | pruneConfirmed retain =>
    have heq : (QueueCall.pruneConfirmed retain).perform toText q =
        (.pruned (q.pruneConfirmed retain).1, (q.pruneConfirmed retain).2) := rfl
    exact ⟨rows, w, .of_kept heq (h.prune retain) le_rfl (hkeeps rfl heq) (by simp) rfl rfl⟩

/-- The ledger of a session: it lists every id the session allocated, in order, and holds every
row the session sent. -/
structure SessionLedger (s : QueueSession) (rows : List ProtocolMutation) (w : ℕ) : Prop where
  ledger : Ledger s.queue rows w
  allocated : s.allocatedIds = rows.map (·.mutationId)
  sent : ∀ request ∈ s.requests, ∀ m ∈ request.mutations, m ∈ rows

theorem SessionLedger.next {s : QueueSession} (h : SessionLedger s rows w) {call : QueueCall}
    {rows' : List ProtocolMutation} {w' : ℕ} (hf : Follows toText s.queue rows w call rows' w') :
    SessionLedger (s.next toText call) rows' w' := by
  have heffect := hf.effect
  have hkept : rows' = rows → (call.perform toText s.queue).1.allocatedId = none →
      (∀ request, (call.perform toText s.queue).1.sentRequest = some request →
        ∀ m ∈ request.mutations, m ∈ rows) →
      SessionLedger (s.next toText call) rows' w' := by
    rintro rfl hid hsent
    refine ⟨hf.ledger, ?_, fun request hreq m hm => ?_⟩
    · simp [QueueSession.allocatedIds_next, hid, h.allocated]
    · rw [QueueSession.requests_next, List.mem_append, Option.mem_toList] at hreq
      rcases hreq with hreq | hreq
      · exact h.sent request hreq m hm
      · exact hsent request hreq m hm
  cases hout : (call.perform toText s.queue).1 with
  | allocated id =>
    rw [hout] at heffect
    obtain ⟨-, m, hrow, rfl, -⟩ := heffect
    obtain ⟨hid, -⟩ := row_fresh hrow
    refine ⟨hf.ledger, ?_, fun request hreq m hm => ?_⟩
    · simp [QueueSession.allocatedIds_next, hout, QueueOutcome.allocatedId, h.allocated, hid]
    · rw [QueueSession.requests_next, hout] at hreq
      exact List.mem_append_left _
        (h.sent request (by simpa [QueueOutcome.sentRequest] using hreq) m hm)
  | request request =>
    rw [hout] at heffect hkept
    refine hkept heffect.1 rfl fun request' hreq => ?_
    cases hreq
    exact heffect.2.2
  | acknowledged n | moved | pruned n | refused =>
    rw [hout] at heffect hkept
    exact hkept heffect.1 rfl fun request' hreq => by cases hreq

/-- The run lemma: every session from a new queue has a ledger. -/
theorem exists_sessionLedger (toText : Json → String) {clientId : String} {maxPending maxBytes : ℕ}
    (h : withLimits clientId maxPending maxBytes = .ok q) (calls : List QueueCall) :
    ∃ rows w, SessionLedger (run (QueueSession.next toText) ⟨q, []⟩ calls) rows w :=
  run_invariant (I := fun s => ∃ rows w, SessionLedger s rows w)
    (fun _ call ⟨_, _, hs⟩ => by
      obtain ⟨rows', w', hf⟩ := hs.ledger.perform toText call
      exact ⟨rows', w', hs.next hf⟩)
    ⟨[], 0, Ledger.empty h, rfl, by simp [QueueSession.requests]⟩ calls

theorem Ledger.pending_ids (h : Ledger q rows w) :
    q.pending.map (·.mutationId) =
      (List.range' (w + 1) (q.nextMutationId - (w + 1))).map Nat.repr := by
  rw [h.pending_eq, List.map_drop, h.ids, ← List.map_drop, List.drop_range', h.next]
  congr 2
  · omega
  · omega

theorem Ledger.confirmed_le (h : Ledger q rows w) {m : ProtocolMutation} (hm : m ∈ q.mutations)
    (hs : m.status = .confirmed) : m.id ≤ w := by
  rcases h.mem_cases hm with ⟨r, hr, rfl⟩ | hm
  · obtain ⟨i, hi, rfl⟩ := List.getElem_of_mem hr
    rw [List.length_take] at hi
    rw [List.getElem_take]
    have hid := h.mutationId_getElem (i := i) (by omega)
    have hbound := h.bound
    have : (rows[i].confirm).id = i + 1 :=
      ProtocolMutation.id_eq hid (by simp only [maxI64, maxU64] at *; omega)
    omega
  · rw [h.fresh m (List.mem_of_mem_drop hm)] at hs
    cases hs

/-- In every run from a new queue: the pending ids are a contiguous interval that ends at the next
id, the confirmed ones lie below it, no id is allocated twice, an id always travels with the same
mutation, and a refused call changes nothing. -/
theorem run_mutationIds {clientId : String} {maxPending maxBytes : ℕ} {new : ProtocolQueue}
    (h : withLimits clientId maxPending maxBytes = .ok new) (toText : Json → String)
    (calls : List QueueCall) :
    let s := run (QueueSession.next toText) ⟨new, []⟩ calls
    (∃ w, s.queue.pending.map (·.mutationId) =
        (List.range' (w + 1) (s.queue.nextMutationId - (w + 1))).map Nat.repr ∧
      ∀ m ∈ s.queue.mutations, m.status = .confirmed → m.id ≤ w) ∧
    s.allocatedIds.Nodup ∧
    (∀ sent ∈ s.requests, ∀ resent ∈ s.requests, ∀ m ∈ sent.mutations, ∀ m' ∈ resent.mutations,
      m.mutationId = m'.mutationId → m = m') ∧
    ∀ call : QueueCall, (call.perform toText s.queue).1 = .refused →
      (call.perform toText s.queue).2 = s.queue := by
  obtain ⟨rows, w, hs⟩ := exists_sessionLedger toText h calls
  refine ⟨⟨w, hs.ledger.pending_ids, fun m => hs.ledger.confirmed_le⟩, ?_, ?_, ?_⟩
  · rw [hs.allocated]
    exact hs.ledger.nodup
  · intro sent hsent resent hresent m hm m' hm' he
    exact hs.ledger.row_unique (hs.sent sent hsent m hm) (hs.sent resent hresent m' hm') he
  · intro call hr
    obtain ⟨rows', w', hf⟩ := hs.ledger.perform toText call
    exact hf.refused hr

theorem run_mutationIds_new :
    let s := run (QueueSession.next fun _ => "") ⟨empty "client" 2 2, []⟩
      [.queueDelete "todos" "a" none none, .pushRequest 0, .queueDelete "todos" "b" none none,
        .queueDelete "todos" "c" none none]
    s.allocatedIds = ["1", "2"] ∧ s.allocatedIds.Nodup ∧ ∃ w,
      s.queue.pending.map (·.mutationId) =
        (List.range' (w + 1) (s.queue.nextMutationId - (w + 1))).map Nat.repr ∧
      ∀ m ∈ s.queue.mutations, m.status = .confirmed → m.id ≤ w := by
  have hnew : withLimits "client" 2 2 = .ok (empty "client" 2 2) := rfl
  have h := run_mutationIds hnew (fun _ => "") [.queueDelete "todos" "a" none none, .pushRequest 0,
      .queueDelete "todos" "b" none none, .queueDelete "todos" "c" none none]
  exact ⟨by decide, h.2.1, h.1⟩

end ProtocolQueue
end OptoSync
