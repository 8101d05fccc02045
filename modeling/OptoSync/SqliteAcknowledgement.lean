import OptoSync.ProtocolQueueDurable
import OptoSync.SqliteTransactions

/-!
# When the store takes an acknowledgement

`acknowledge` checks a response over ids and outcomes; `persist_acknowledgement` also reads the
queue column and needs the checkpoint of every accepted result. This file compares the two.
-/
namespace OptoSync
open Decimal ProtocolQueue Transition

def ProtocolMutation.withoutPayload (m : ProtocolMutation) : ProtocolMutation :=
  { m with payload := none }

/-- Rows that differ at most in their payloads and in being confirmed. -/
def ProtocolMutation.Alike (m m' : ProtocolMutation) : Prop :=
  m.confirm.withoutPayload = m'.confirm.withoutPayload

namespace ProtocolQueue

/-- What stays of `a` after any number of transactions. The texts between them may change
payloads. -/
structure Continues (a q : ProtocolQueue) : Prop where
  client : q.clientId = a.clientId
  maxPending : q.maxPendingMutations = a.maxPendingMutations
  maxBytes : q.maxQueuedPayloadBytes = a.maxQueuedPayloadBytes
  next : a.nextMutationId ≤ q.nextMutationId
  rows : ∀ r ∈ q.mutations, (∃ r₀ ∈ a.mutations, r.Alike r₀) ∨
    ∃ n, a.nextMutationId ≤ n ∧ n < q.nextMutationId ∧ r.mutationId = n.repr

/-- The durable queues that follow `origin`. Every transaction reads the column, then makes calls
on the queue or merges the queue of a connection with it, and writes a queue that validates. -/
inductive Column (toText : Json → String) (reparse : Json → Option Json) (origin : ProtocolQueue) :
    ProtocolQueue → Prop
  | opened : Column toText reparse origin origin
  | called {q d : ProtocolQueue} (h : Column toText reparse origin q)
      (hread : q.readBack toText reparse = some d) (calls : List QueueCall)
      (hvalid : (after toText d calls).validate toText = .ok ()) :
      Column toText reparse origin (after toText d calls)
  | merged {q d : ProtocolQueue} (h : Column toText reparse origin q)
      (hread : q.readBack toText reparse = some d) (queue : ProtocolQueue)
      (hmerge : (queue.mergeConcurrentDurable toText d).1 = .ok ()) :
      Column toText reparse origin (queue.mergeConcurrentDurable toText d).2

/-- Rows of one mutation have one payload, once the durable one is read. -/
def SamePayloads (readFloat : String → String) (q d : ProtocolQueue) : Prop :=
  ∀ r ∈ q.mutations, ∀ r' ∈ d.mutations, r'.mutationId = r.mutationId →
    (r'.reread readFloat).payload = r.payload

instance (readFloat : String → String) (q d : ProtocolQueue) :
    Decidable (SamePayloads readFloat q d) :=
  inferInstanceAs (Decidable (∀ r ∈ q.mutations, ∀ r' ∈ d.mutations,
    r'.mutationId = r.mutationId → (r'.reread readFloat).payload = r.payload))

variable {toText : Json → String} {reparse : Json → Option Json} {readFloat : String → String}
  {a c d q : ProtocolQueue}

theorem mutationId_of_alike {m m' : ProtocolMutation} (h : m.Alike m') :
    m.mutationId = m'.mutationId := by
  have hid := congrArg (·.mutationId) h
  exact hid

theorem Continues.refl (a : ProtocolQueue) : Continues a a :=
  ⟨rfl, rfl, rfl, le_rfl, fun r hr => .inl ⟨r, hr, rfl⟩⟩

theorem Continues.reread (h : Continues a q) : Continues a (q.reread readFloat) := by
  refine ⟨h.client, h.maxPending, h.maxBytes, h.next, fun r hr => ?_⟩
  obtain ⟨r', hr', rfl⟩ := List.mem_map.mp hr
  exact h.rows r' hr'

theorem Continues.descends (h : Continues a d) (hd : Descends d q) : Continues a q := by
  refine ⟨hd.client.trans h.client, hd.maxPending.trans h.maxPending, hd.maxBytes.trans h.maxBytes,
    h.next.trans hd.next, fun r hr => ?_⟩
  rcases hd.rows r hr with ⟨r₀, hr₀, hrr⟩ | ⟨n, hn, hlt, hid⟩
  · have halike : r.Alike r₀ := by rcases hrr with rfl | rfl <;> rfl
    rcases h.rows r₀ hr₀ with ⟨r₁, hr₁, halike'⟩ | ⟨n, hn, hlt, hid⟩
    · exact .inl ⟨r₁, hr₁, halike.trans halike'⟩
    · exact .inr ⟨n, hn, hlt.trans_le hd.next, (mutationId_of_alike halike).trans hid⟩
  · exact .inr ⟨n, h.next.trans hn, hlt, hid⟩

theorem Keeps.descends (h : Keeps a q) : Descends a q :=
  ⟨h.client, h.maxPending, h.maxBytes, h.next.ge, fun r hr => .inl (h.mutations r hr)⟩

/-- The text between two transactions changes payloads at most. -/
theorem Continues.readBack (h : Continues a q) (hs : SerdeText reparse readFloat)
    (hq : Valid toText q) (hread : q.readBack toText reparse = some d) :
    Continues a d ∧ Valid toText d := by
  obtain ⟨-, -, rfl, hvalid⟩ := (readBack_eq_some hs fun m hm => hq.payload_ne_null hm).mp hread
  exact ⟨h.reread, validate_eq_ok.mp hvalid⟩

theorem Column.continues (h : Column toText reparse a q) (hs : SerdeText reparse readFloat)
    (ha : Valid toText a) : Continues a q ∧ Valid toText q := by
  induction h with
  | opened => exact ⟨.refl a, ha⟩
  | called h hread calls hvalid ih =>
    have hd := (ih.1.readBack hs ih.2 hread).1
    exact ⟨hd.descends (descends_after _ calls), validate_eq_ok.mp hvalid⟩
  | merged h hread queue hmerge ih =>
    obtain ⟨hd, hvalid⟩ := ih.1.readBack hs ih.2 hread
    refine ⟨hd.descends (descends_of_merge hmerge), ?_⟩
    obtain ⟨hq, hd, hs, hk, hm⟩ := known_of_merge hmerge
    rw [merge_eq hq hd hs hk hm]
    exact merged_valid hq hd hs hk

/-- Two continuations of one queue, one of them without new rows, differ at most in payloads. -/
theorem siblings_iff (hc : Valid toText c) (hq : Continues c q)
    (hnext : q.nextMutationId = c.nextMutationId) (hd : Continues c d) : Siblings q d ↔
      ∀ r ∈ q.mutations, ∀ r' ∈ d.mutations, r'.mutationId = r.mutationId →
        r'.payload = r.payload := by
  constructor
  · intro hs r hr r' hr' hid
    exact congrArg (·.payload) (hs.content r hr r' hr' hid)
  · intro hsame
    refine ⟨hd.client.trans hq.client.symm, hd.maxPending.trans hq.maxPending.symm,
      hd.maxBytes.trans hq.maxBytes.symm, hnext ▸ hd.next, fun r hr r' hr' hid => ?_⟩
    have hpayload := hsame r hr r' hr' hid
    obtain ⟨r₀, hr₀, halike⟩ := (hq.rows r hr).resolve_right fun ⟨n, hn, hlt, _⟩ => by omega
    have hid₀ := mutationId_of_alike halike
    have halike' : r'.Alike r₀ := by
      rcases hd.rows r' hr' with ⟨r₁, hr₁, halike'⟩ | ⟨n, hn, -, hid'⟩
      · have hsame : r₁ = r₀ :=
          hc.row_unique hr₁ hr₀ ((mutationId_of_alike halike').symm.trans (hid.trans hid₀))
        exact hsame ▸ halike'
      · obtain ⟨k, hk, hlt⟩ := (DistinctIds.of_valid hc).below r₀ hr₀
        rw [hid', hid₀, hk] at hid
        exact absurd (Nat.repr_injective hid) (by omega)
    have hsame : r'.withoutPayload.confirm = r.withoutPayload.confirm := halike'.trans halike.symm
    obtain ⟨i, o, t, r, p, v, s, st⟩ := r
    obtain ⟨i', o', t', r', p', v', s', st'⟩ := r'
    simp_all [ProtocolMutation.confirm, ProtocolMutation.withoutPayload]

end ProtocolQueue

namespace SqliteProtocolStore

variable {reconcile : String → String → Except Unit String} {toText : Json → String}
  {document : String → Prop} {merge : String → String → String}

theorem mergeAndPersist_eq_ok {read : ProtocolQueue → Option ProtocolQueue} {db db' : Database}
    {queue : ProtocolQueue} {body : Database → ProtocolQueue → Except SqliteStoreError Database}
    (h : (mergeAndPersist read toText db queue body).1 = .ok db') :
    ∃ d, read db.queue = some d ∧ (queue.mergeConcurrentDurable toText d).1 = .ok () := by
  unfold mergeAndPersist at h
  cases hload : loadQueueFrom read toText db with
  | error error =>
    rw [hload] at h
    cases h
  | ok d =>
    rw [hload] at h
    dsimp only at h
    rcases hm : queue.mergeConcurrentDurable toText d with ⟨result, merged⟩
    rw [hm] at h
    cases result with
    | error error => cases h
    | ok u => exact ⟨d, (loadQueueFrom_eq_ok.mp hload).1, congrArg Prod.fst hm⟩

/-- The checkpoint that an acceptable result names is canonical. -/
theorem checkpoint_of_resultRefused {sent : ProtocolMutation} {result : MutationResult}
    (h : resultRefused sent result = false) {value : String} (hv : result.checkpoint = some value) :
    (parseDecimal value).isSome = true := by
  simp only [resultRefused, hv, Option.any_some, Bool.or_eq_false_iff, Option.isNone_eq_false_iff]
    at h
  exact h.1.1.1.1.2

theorem sendable_of_acknowledges {q : ProtocolQueue} (hq : Valid toText q)
    {response : PushResponse} {request : PushRequest} {w : ℕ}
    (hack : Acknowledges q response request w) :
    ∀ row ∈ request.mutations.zip response.results, Sendable row := by
  intro row hrow
  have hsent : row.1 ∈ request.mutations := (List.of_mem_zip hrow).1
  rw [hack.sent] at hsent
  have hmem : row.1 ∈ q.mutations := (List.mem_filter.mp (List.mem_of_mem_take hsent)).1
  have hpending : row.1 ∈ q.pending := List.mem_of_mem_take hsent
  have hvalid := hq.rows row.1 hmem
  obtain ⟨n, hn⟩ := Option.isSome_iff_exists.mp hvalid.parses
  have hid : row.1.id = n := by simp [ProtocolMutation.id, hn]
  have hbelow := hvalid.below
  have hnext := hq.next
  exact ⟨hvalid.positive, by omega, by rw [hid]; exact (parseDecimal_eq_some.mp hn).2,
    payloadsPresent_of_valid hq row.1 hpending,
    fun value hv => checkpoint_of_resultRefused (hack.accepted row hrow) hv⟩

theorem settle_payload (w : ℕ) (m : ProtocolMutation) : (m.settle w).payload = m.payload := by
  rcases settle_cases w m with h | h
  · rw [h]
  · rw [h]
    rfl

theorem valid_of_withLimits {clientId : String} {maxPending maxBytes : ℕ} {origin : ProtocolQueue}
    (h : withLimits clientId maxPending maxBytes = .ok origin) : Valid toText origin := by
  have hreached : Reached toText origin [] 0 := .of_withLimits h
  refine hreached.valid_iff.mpr fun m hm => ?_
  obtain ⟨r, hr, -⟩ := hreached.mem_row hm
  cases hr

theorem limits_of_withLimits {clientId : String} {maxPending maxBytes : ℕ} {origin : ProtocolQueue}
    (h : withLimits clientId maxPending maxBytes = .ok origin) :
    origin.maxPendingMutations = maxPending ∧ origin.maxQueuedPayloadBytes = maxBytes := by
  unfold withLimits at h
  split_ifs at h
  cases h
  exact ⟨rfl, rfl⟩

/-- A connection holds the durable queue as it has written or read it, and has made calls on it that
enqueue nothing. The store commits an acknowledgement that this queue has accepted exactly when the
column is still read as a valid queue, its payloads are the ones in memory, neither queue has pruned
a row the other needs, and every accepted result names a checkpoint. -/
theorem persistAcknowledgement_commits_iff {reparse : Json → Option Json}
    {readFloat : String → String} (hR : Reconciles reconcile toText document merge)
    (hs : SerdeText reparse readFloat) {clientId : String} {maxPending maxBytes : ℕ}
    (hpending : maxPending ≤ maxU64) (hbytes : maxBytes ≤ maxU64) {origin column held : ProtocolQueue}
    (horigin : withLimits clientId maxPending maxBytes = .ok origin)
    (hcolumn : Column toText reparse origin column)
    (hheld : held = column ∨ column.readBack toText reparse = some held)
    {memory : List QueueCall} (hmemory : ∀ call ∈ memory, call.row "" = none)
    {db : Database} (hdb : db.Documents document) (hdurable : Column toText reparse column db.queue)
    {queue acknowledged : ProtocolQueue} (hqueue : queue = after toText held memory)
    {request : PushRequest} {response : PushResponse} {count : ℕ}
    (hack : queue.acknowledge response request = (.ok count, acknowledged)) :
    (∃ db', (persistAcknowledgement (·.readBack toText reparse) reconcile toText db acknowledged
        request response).1 = .ok db') ↔
      (db.queue.serialize.depth ≤ 127 ∧ (db.queue.reread readFloat).validate toText = .ok ()) ∧
      SamePayloads readFloat queue db.queue ∧ KnownDurably queue db.queue ∧
      KnownInMemory queue db.queue ∧
      ∀ row ∈ request.mutations.zip response.results,
        wasAccepted row.2 = true → row.2.checkpoint.isSome = true := by
  obtain ⟨horiginColumn, hcvalid⟩ := hcolumn.continues hs (valid_of_withLimits horigin)
  obtain ⟨hcontinues, hdvalid⟩ := hdurable.continues hs hcvalid
  obtain ⟨hheldc, hheldv, hnext⟩ : Continues column held ∧ Valid toText held ∧
      held.nextMutationId = column.nextMutationId := by
    rcases hheld with rfl | hread
    · exact ⟨.refl held, hcvalid, rfl⟩
    · obtain ⟨hc, hv⟩ := (Continues.refl column).readBack hs hcvalid hread
      refine ⟨hc, hv, ?_⟩
      obtain ⟨-, -, rfl, -⟩ :=
        (readBack_eq_some hs fun m hm => hcvalid.payload_ne_null hm).mp hread
      rfl
  have hkeeps : Keeps held queue := hqueue ▸ keeps_after hmemory held
  have hq : Valid toText queue := hheldv.keeps hkeeps
  obtain ⟨hmaxPending, hmaxBytes⟩ := limits_of_withLimits horigin
  have hfits : Fits db.queue := by
    refine ⟨?_, ?_, ?_⟩
    · have hbound := hdvalid.next
      simp only [maxI64, maxU64] at *
      omega
    · rw [hcontinues.maxPending, horiginColumn.maxPending, hmaxPending]
      exact hpending
    · rw [hcontinues.maxBytes, horiginColumn.maxBytes, hmaxBytes]
      exact hbytes
  obtain ⟨error, hrefuse⟩ | ⟨w, count', hacknowledges, hsettled⟩ :=
    acknowledge_cases (fun m hm => (hq.rows m hm).parses) response request
  · rw [hrefuse] at hack
    cases hack
  · have hq' : acknowledged = queue.settled w := (Prod.mk.inj (hack.symm.trans hsettled)).2
    have hkeeps' : Keeps queue acknowledged := hq' ▸ keeps_settled queue w
    have hqv : Valid toText acknowledged := hq.keeps hkeeps'
    have hqc : Continues column acknowledged :=
      (hheldc.descends hkeeps.descends).descends hkeeps'.descends
    have hsiblings : Siblings acknowledged (db.queue.reread readFloat) ↔
        SamePayloads readFloat queue db.queue := by
      rw [siblings_iff hcvalid hqc ((hkeeps'.next.trans hkeeps.next).trans hnext)
        hcontinues.reread, hq']
      simp [SamePayloads, settled, ProtocolQueue.reread, ProtocolMutation.settle_mutationId,
        settle_payload, ProtocolMutation.reread]
    have hknown : KnownDurably acknowledged (db.queue.reread readFloat) ↔
        KnownDurably queue db.queue := by
      simp [KnownDurably, hq', settled, ProtocolMutation.settle_mutationId, ProtocolQueue.reread,
        ProtocolMutation.reread]
    have hknown' : KnownInMemory acknowledged (db.queue.reread readFloat) ↔
        KnownInMemory queue db.queue := by
      simp [KnownInMemory, hq', settled, ProtocolMutation.settle_mutationId, ProtocolQueue.reread,
        ProtocolMutation.reread, ProtocolMutation.id]
    have hload : loadQueueFrom (·.readBack toText reparse) toText db =
        .ok (db.queue.reread readFloat) ↔ db.queue.serialize.depth ≤ 127 ∧
          Valid toText (db.queue.reread readFloat) := by
      rw [loadQueueFrom_eq_ok, readBack_eq_some hs fun m hm => hdvalid.payload_ne_null hm,
        validate_eq_ok]
      simp only [hfits, true_and, and_assoc, and_self]
    rw [validate_eq_ok, ← hload, ← hsiblings, ← hknown, ← hknown']
    have hcases : ∀ (_ : loadQueueFrom (·.readBack toText reparse) toText db =
          .ok (db.queue.reread readFloat)) (_ : Siblings acknowledged (db.queue.reread readFloat))
        (_ : KnownDurably acknowledged (db.queue.reread readFloat))
        (_ : KnownInMemory acknowledged (db.queue.reread readFloat)),
        ∃ out, (persistAcknowledgement (·.readBack toText reparse) reconcile toText db acknowledged
            request response).1 = out ∧
          Acknowledging merge toText (request.mutations.zip response.results)
            (merged acknowledged (db.queue.reread readFloat)) db out := by
      intro hd hs hk hm
      have hdv := (loadQueueFrom_eq_ok.mp hd).2
      obtain ⟨out, hout, hacknowledging⟩ := persistAcknowledgement_cases hR hdb hd
        (merged_valid hqv hdv hs hk) (merge_eq hqv hdv hs hk hm)
        (sendable_of_acknowledges hq hacknowledges)
      exact ⟨out, by rw [hout], hacknowledging⟩
    constructor
    · intro hcommit
      obtain ⟨db', hok⟩ := hcommit
      obtain ⟨d, hd, hmerge⟩ := mergeAndPersist_eq_ok hok
      obtain ⟨-, hdv, hs, hk, hm⟩ := known_of_merge hmerge
      obtain ⟨-, -, rfl, -⟩ :=
        (readBack_eq_some ‹_› fun m hm => hdvalid.payload_ne_null hm).mp hd
      have hd := loadQueueFrom_eq_ok.mpr ⟨hd, hdv⟩
      obtain ⟨out, hout, hacknowledging⟩ := hcases hd hs hk hm
      refine ⟨hd, hs, hk, hm, ?_⟩
      rw [hok] at hout
      subst hout
      cases hacknowledging with
      | committed hall => exact hall
    · intro hready
      obtain ⟨hd, hs, hk, hm, hall⟩ := hready
      obtain ⟨out, hout, hacknowledging⟩ := hcases hd hs hk hm
      cases hacknowledging with
      | committed => exact ⟨_, hout⟩
      | refused hrow haccepted hnone =>
        have hsome := hall _ hrow haccepted
        rw [hnone] at hsome
        cases hsome

/-- A text reader that keeps every float. -/
def exactReparse (doc : Json) : Option Json :=
  if doc.depth ≤ 127 then some (doc.rereadFloats id) else none

theorem serdeText_exactReparse : SerdeText exactReparse id :=
  ⟨fun _ h => if_pos h, fun _ h => if_neg (by omega)⟩

def newQueue : ProtocolQueue := empty "client" defaultMaxPendingMutations defaultMaxQueuedPayloadBytes

/-- A database whose queue holds one pending delete. -/
def oneDelete : Database :=
  { authoritative := ∅, localRecords := ∅, overlays := ∅
    queue := after (fun _ => "") newQueue [.queueDelete "todos" "a" none none] }

def deleteRequest : PushRequest :=
  { protocolVersion := 1, clientId := "client", mutations := oneDelete.queue.pending }

/-- The delete was applied, at `checkpoint` if the server says where. -/
def deleteResponse (checkpoint : Option String) : PushResponse :=
  { protocolVersion := 1, clientId := "client", lastMutationId := "1", checkpoint := "7", results :=
      [{ mutationId := "1", status := .applied, originalStatus := none, checkpoint,
         revision := none, code := none, message := none }] }

def laterUpsert : QueueCall :=
  .queueUpsert "todos" "b" (.object [("weight", .number (.float "0.5"))]) none false none

/-- The delete and an upsert that another connection has queued behind it. -/
def upsertBehind : Database :=
  { oneDelete with queue := after (fun _ => "") oneDelete.queue [laterUpsert] }

theorem persistAcknowledgement_commits_iff_behind :
    ∃ db', (persistAcknowledgement (·.readBack (fun _ => "") exactReparse)
      (fun _ incoming => .ok incoming) (fun _ => "") upsertBehind
      (oneDelete.queue.acknowledge (deleteResponse (some "7")) deleteRequest).2 deleteRequest
      (deleteResponse (some "7"))).1 = .ok db' := by
  have hR : Reconciles (fun _ incoming => .ok incoming) (fun _ => "") (fun _ => True)
      (fun _ incoming => incoming) := ⟨trivial, fun _ => trivial, fun _ _ _ _ => ⟨rfl, trivial⟩⟩
  have hdb : upsertBehind.Documents fun _ => True :=
    ⟨fun _ _ _ => trivial, fun _ _ _ _ _ => trivial⟩
  have horigin : withLimits "client" defaultMaxPendingMutations defaultMaxQueuedPayloadBytes =
      .ok newQueue := by decide
  have hread : newQueue.readBack (fun _ => "") exactReparse = some newQueue := rfl
  have hcolumn : Column (fun _ => "") exactReparse newQueue oneDelete.queue :=
    .called .opened hread [.queueDelete "todos" "a" none none] (by decide)
  have hreadDelete : oneDelete.queue.readBack (fun _ => "") exactReparse = some oneDelete.queue := rfl
  have hdurable : Column (fun _ => "") exactReparse oneDelete.queue upsertBehind.queue :=
    .called .opened hreadDelete [laterUpsert] (by decide)
  have hack : oneDelete.queue.acknowledge (deleteResponse (some "7")) deleteRequest =
      (.ok 1, (oneDelete.queue.acknowledge (deleteResponse (some "7")) deleteRequest).2) := by
    decide
  exact (persistAcknowledgement_commits_iff hR serdeText_exactReparse (by decide) (by decide)
    horigin hcolumn (.inr hreadDelete) (by decide : ∀ call ∈ ([] : List QueueCall), _) hdb hdurable rfl hack).mpr
    ⟨⟨by decide, by decide⟩, by decide, by decide, by decide, by decide⟩

/-- The queue accepts a response that the store then refuses, now and at every later attempt. -/
theorem persistAcknowledgement_refuses :
    new "client" = .ok newQueue ∧
      oneDelete.queue.readBack (fun _ => "") exactReparse = some oneDelete.queue ∧
      oneDelete.queue.pushRequest 100 = .ok deleteRequest ∧
      (oneDelete.queue.acknowledge (deleteResponse none) deleteRequest).1 = .ok 1 ∧
      ¬ ∃ db', (persistAcknowledgement (·.readBack (fun _ => "") exactReparse)
        (fun _ incoming => .ok incoming) (fun _ => "") oneDelete
        (oneDelete.queue.acknowledge (deleteResponse none) deleteRequest).2 deleteRequest
        (deleteResponse none)).1 = .ok db' := by
  refine ⟨by decide, rfl, by decide, by decide, fun ⟨db', h⟩ => ?_⟩
  have hnone : (persistAcknowledgement (·.readBack (fun _ => "") exactReparse)
      (fun _ incoming => .ok incoming) (fun _ => "") oneDelete
      (oneDelete.queue.acknowledge (deleteResponse none) deleteRequest).2 deleteRequest
      (deleteResponse none)).1.toOption.isNone = true := by decide
  rw [h] at hnone
  cases hnone

end SqliteProtocolStore
end OptoSync
