import OptoSync.ProtocolQueueMerge

/-!
# Merging two runs from a common ancestor

One run is the durable queue's, by any calls; the other is the in-memory queue's, by calls that
enqueue nothing.
-/
namespace OptoSync
open Decimal Transition

namespace ProtocolQueue

/-- The state a list of calls leads to. -/
def after (toText : Json → String) (q : ProtocolQueue) (calls : List QueueCall) : ProtocolQueue :=
  run (fun q (call : QueueCall) => (call.perform toText q).2) q calls

/-- No two rows share an id, and the ids are numbers below the next one. -/
structure DistinctIds (q : ProtocolQueue) : Prop where
  nodup : (q.mutations.map (·.mutationId)).Nodup
  below : ∀ r ∈ q.mutations, ∃ n, r.mutationId = n.repr ∧ n < q.nextMutationId

/-- What stays of the ancestor `a` in a queue reached from it. -/
structure Descends (a q : ProtocolQueue) : Prop where
  client : q.clientId = a.clientId
  maxPending : q.maxPendingMutations = a.maxPendingMutations
  maxBytes : q.maxQueuedPayloadBytes = a.maxQueuedPayloadBytes
  next : a.nextMutationId ≤ q.nextMutationId
  rows : ∀ r ∈ q.mutations, (∃ r₀ ∈ a.mutations, r = r₀ ∨ r = r₀.confirm) ∨
    ∃ n, a.nextMutationId ≤ n ∧ n < q.nextMutationId ∧ r.mutationId = n.repr

variable {toText : Json → String} {a q d : ProtocolQueue}

/-- A call keeps the rows, or is an accepted enqueue. -/
theorem perform_cases (toText : Json → String) (q : ProtocolQueue) (call : QueueCall) :
    (Keeps q (call.perform toText q).2 ∧ (call.perform toText q).1.allocatedId = none) ∨
    ∃ m, (call.perform toText q).1 = .allocated q.nextMutationId.repr ∧
      call.row q.nextMutationId.repr = some m ∧ Enqueued q (call.perform toText q).2 m ∧
      (call.perform toText q).2.consistencyPolicies = policiesAfter q call := by
  cases hrow : call.row "" with
  | none => exact Or.inl (perform_keeps toText hrow q)
  | some m =>
    rcases perform_enqueue toText q call (by rw [hrow]; rfl) with
      hr | ⟨q', m, heq, hm, henq, -, hpol⟩
    · rw [hr]
      exact Or.inl ⟨Keeps.refl q, rfl⟩
    · rw [heq]
      exact Or.inr ⟨m, rfl, hm, henq, hpol⟩

theorem DistinctIds.of_valid (h : Valid toText q) : DistinctIds q := by
  refine ⟨h.nodup, fun r hr => ?_⟩
  have hrow := h.rows r hr
  obtain ⟨n, hn⟩ := Option.isSome_iff_exists.mp hrow.parses
  have hbelow := hrow.below
  simp only [ProtocolMutation.id, hn, Option.getD_some] at hbelow
  exact ⟨n, (parseDecimal_eq_some.mp hn).2, hbelow⟩

theorem DistinctIds.perform (h : DistinctIds q) (call : QueueCall) :
    DistinctIds (call.perform toText q).2 := by
  rcases perform_cases toText q call with ⟨hk, -⟩ | ⟨m, -, hrow, henq, -⟩
  · refine ⟨h.nodup.sublist hk.ids, fun r hr => ?_⟩
    rw [hk.next]
    obtain ⟨r₀, hr₀, hrr⟩ := hk.mutations r hr
    rcases hrr with rfl | rfl
    · exact h.below r hr₀
    · exact h.below r₀ hr₀
  · obtain ⟨hid, -⟩ := row_fresh hrow
    refine ⟨?_, fun r hr => ?_⟩
    · rw [henq.mutations, List.map_append, List.map_singleton, List.nodup_append]
      refine ⟨h.nodup, List.nodup_singleton _, fun x hx y hy hxy => ?_⟩
      obtain ⟨r, hr, rfl⟩ := List.mem_map.mp hx
      obtain ⟨n, hn, hlt⟩ := h.below r hr
      rw [List.mem_singleton] at hy
      rw [hn, hy, hid] at hxy
      exact absurd (Nat.repr_injective hxy) (by omega)
    · rw [henq.next]
      rw [henq.mutations] at hr
      rcases List.mem_append.mp hr with hr | hr
      · obtain ⟨n, hn, hlt⟩ := h.below r hr
        exact ⟨n, hn, by omega⟩
      · rw [List.mem_singleton.mp hr]
        exact ⟨q.nextMutationId, hid, by omega⟩

theorem Descends.refl (a : ProtocolQueue) : Descends a a :=
  ⟨rfl, rfl, rfl, le_rfl, fun r hr => Or.inl ⟨r, hr, Or.inl rfl⟩⟩

theorem Descends.perform (h : Descends a q) (call : QueueCall) :
    Descends a (call.perform toText q).2 := by
  rcases perform_cases toText q call with ⟨hk, -⟩ | ⟨m, -, hrow, henq, -⟩
  · refine ⟨hk.client.trans h.client, hk.maxPending.trans h.maxPending,
      hk.maxBytes.trans h.maxBytes, hk.next ▸ h.next, fun r hr => ?_⟩
    rw [hk.next]
    obtain ⟨r', hr', hrr⟩ := hk.mutations r hr
    rcases h.rows r' hr' with ⟨r₀, hr₀, hr₀'⟩ | ⟨n, hn, hlt, hid⟩
    · refine Or.inl ⟨r₀, hr₀, ?_⟩
      rcases hrr with rfl | rfl
      · exact hr₀'
      · rcases hr₀' with rfl | rfl
        · exact Or.inr rfl
        · exact Or.inr rfl
    · refine Or.inr ⟨n, hn, hlt, ?_⟩
      rcases hrr with rfl | rfl
      · exact hid
      · exact hid
  · obtain ⟨hid, -⟩ := row_fresh hrow
    refine ⟨henq.client.trans h.client, henq.maxPending.trans h.maxPending,
      henq.maxBytes.trans h.maxBytes, ?_, fun r hr => ?_⟩
    · rw [henq.next]
      exact h.next.trans (Nat.le_succ _)
    · rw [henq.next]
      rw [henq.mutations] at hr
      rcases List.mem_append.mp hr with hr | hr
      · rcases h.rows r hr with hr | ⟨n, hn, hlt, hid⟩
        · exact Or.inl hr
        · exact Or.inr ⟨n, hn, by omega, hid⟩
      · rw [List.mem_singleton.mp hr]
        exact Or.inr ⟨q.nextMutationId, h.next, by omega, hid⟩

/-- A row of a merge is a row of the durable queue, possibly confirmed. -/
theorem descends_of_merge (h : (q.mergeConcurrentDurable toText d).1 = .ok ()) :
    Descends d (q.mergeConcurrentDurable toText d).2 := by
  obtain ⟨hq, hd, hs, hk, hm⟩ := known_of_merge h
  rw [merge_eq hq hd hs hk hm]
  refine ⟨hs.client.symm, hs.maxPending.symm, hs.maxBytes.symm, le_rfl, fun r hr => .inl ?_⟩
  rcases r.status_eq with hp | hc
  · exact ⟨r, ((mem_merged_pending hd hs hk).mp ⟨hr, hp⟩).1, .inl rfl⟩
  rcases List.mem_append.mp hr with hr | hr
  · obtain ⟨r₀, hr₀, rfl⟩ := List.mem_map.mp hr
    obtain ⟨r', hr', hid⟩ := hk r₀ hr₀
    refine ⟨r', hr', .inr (eq_of_confirm ?_ hc)⟩
    have hcontent := hs.content r₀ hr₀ r' hr' hid
    rcases adopted_cases d.mutations r₀ with h | h <;> rw [h] <;> exact hcontent.symm
  · exact ⟨r, (List.mem_filter.mp hr).1, .inl rfl⟩

theorem descends_after (a : ProtocolQueue) (calls : List QueueCall) :
    Descends a (after toText a calls) :=
  run_invariant (I := Descends a) (fun _ call h => h.perform call) (Descends.refl a) calls

theorem distinctIds_after (h : DistinctIds q) (calls : List QueueCall) :
    DistinctIds (after toText q calls) :=
  run_invariant (fun _ call h => h.perform call) h calls

/-- Calls that enqueue nothing keep the rows, up to confirmation and pruning. -/
theorem keeps_after {calls : List QueueCall} (h : ∀ call ∈ calls, call.row "" = none)
    (a : ProtocolQueue) : Keeps a (after toText a calls) := by
  induction calls generalizing a with
  | nil => exact Keeps.refl a
  | cons call calls ih =>
    exact (perform_keeps toText (h call List.mem_cons_self) a).1.trans
      (ih (fun c hc => h c (List.mem_cons_of_mem _ hc)) _)

theorem siblings_of_descends (ha : DistinctIds a) (hq : Keeps a q) (hd : Descends a d) :
    Siblings q d := by
  refine ⟨hd.client.trans hq.client.symm, hd.maxPending.trans hq.maxPending.symm,
    hd.maxBytes.trans hq.maxBytes.symm, hq.next ▸ hd.next, fun r hr r' hr' hid => ?_⟩
  obtain ⟨r₀, hr₀, hrr⟩ := hq.mutations r hr
  have hr₀id : r.mutationId = r₀.mutationId := by rcases hrr with rfl | rfl <;> rfl
  have hr₀c : r.confirm = r₀.confirm := by rcases hrr with rfl | rfl <;> rfl
  rcases hd.rows r' hr' with ⟨r₁, hr₁, hrr'⟩ | ⟨n, hn, -, hid'⟩
  · have hr₁id : r'.mutationId = r₁.mutationId := by rcases hrr' with rfl | rfl <;> rfl
    have hr₁c : r'.confirm = r₁.confirm := by rcases hrr' with rfl | rfl <;> rfl
    have heq : r₁ = r₀ := List.inj_on_of_nodup_map ha.nodup hr₁ hr₀
      (hr₁id.symm.trans (hid.trans hr₀id))
    rw [hr₁c, hr₀c, heq]
  · obtain ⟨k, hk, hlt⟩ := ha.below r₀ hr₀
    rw [hid', hr₀id, hk] at hid
    exact absurd (Nat.repr_injective hid) (by omega)

/-- The policy an enqueueing call asks for; the plain enqueue asks for the default one. -/
def requestedPolicy : QueueCall → Option String
  | .queueUpsert _ _ _ _ _ policy | .queueDelete _ _ _ policy =>
    some (policy.getD .writeThroughLocalFirst).asStr
  | _ => none

def notePolicy (known : String → Option String) (call : QueueCall) :
    QueueOutcome → String → Option String
  | .allocated id => Function.update known id (requestedPolicy call)
  | _ => known

/-- Per mutation id, the policy it was queued with: what is `known` at the start, then what every
accepted enqueue of the run asked for. -/
def queuedPolicies (toText : Json → String) :
    ProtocolQueue → (String → Option String) → List QueueCall → String → Option String
  | _, known, [] => known
  | q, known, call :: calls =>
    queuedPolicies toText (call.perform toText q).2
      (notePolicy known call (call.perform toText q).1) calls

theorem notePolicy_of_none {known : String → Option String} {call : QueueCall}
    {out : QueueOutcome} (h : out.allocatedId = none) : notePolicy known call out = known := by
  cases out with
  | allocated id => cases h
  | request _ | acknowledged _ | moved | pruned _ | refused => rfl

theorem queuedPolicies_of_allocated {id : String} (calls : List QueueCall)
    (h : ∀ n, q.nextMutationId ≤ n → id ≠ n.repr) (known : String → Option String) :
    queuedPolicies toText q known calls id = known id := by
  induction calls generalizing q known with
  | nil => rfl
  | cons call calls ih =>
    unfold queuedPolicies
    rcases perform_cases toText q call with ⟨hk, hnone⟩ | ⟨m, hout, -, henq, -⟩
    · rw [ih (fun n hn => h n (hk.next ▸ hn)), notePolicy_of_none hnone]
    · have hne : id ≠ q.nextMutationId.repr := h _ le_rfl
      have hnext := henq.next
      rw [ih (fun n hn => h n (by omega)), hout]
      exact Function.update_of_ne hne _ _

/-- What a merge of the in-memory queue `q` with the durable queue `d` should result in, where
`queued` gives the policy of every mutation. -/
structure MergesTo (toText : Json → String) (q d : ProtocolQueue)
    (queued : String → Option String) (result : ProtocolQueue) : Prop where
  pending : ∀ r, (r ∈ result.mutations ∧ r.status = .pending) ↔
    (r ∈ d.mutations ∧ r.status = .pending ∧ (r ∈ q.mutations ∨ q.nextMutationId ≤ r.id))
  confirmed : ∀ r ∈ result.mutations, ∀ r' ∈ q.mutations ++ d.mutations,
    r'.mutationId = r.mutationId → r'.status = .confirmed → r.status = .confirmed
  ascending : (result.mutations.map (·.id)).Pairwise (· < ·)
  checkpoint : ∃ mine theirs, parseDecimal q.checkpoint = some mine ∧
    parseDecimal d.checkpoint = some theirs ∧
    parseDecimal result.checkpoint = some (max mine theirs)
  next : result.nextMutationId = d.nextMutationId
  valid : result.validate toText = .ok ()
  policies : ∀ r ∈ result.mutations, result.consistencyPolicy r.mutationId = queued r.mutationId

theorem merged_checkpoint (hq : Valid toText q) (hd : Valid toText d) :
    ∃ mine theirs, parseDecimal q.checkpoint = some mine ∧
      parseDecimal d.checkpoint = some theirs ∧
      parseDecimal (merged q d).checkpoint = some (max mine theirs) := by
  obtain ⟨mine, hmine⟩ := Option.isSome_iff_exists.mp hq.checkpoint
  obtain ⟨theirs, htheirs⟩ := Option.isSome_iff_exists.mp hd.checkpoint
  refine ⟨mine, theirs, hmine, htheirs, ?_⟩
  simp only [merged, hmine, htheirs, Option.getD_some]
  split
  · rename_i hlt
    rw [htheirs, max_eq_right hlt.le]
  · rename_i hle
    rw [hmine, max_eq_left (Nat.not_lt.mp hle)]

theorem merged_confirmed (hq : Valid toText q) (hd : Valid toText d) (hs : Siblings q d)
    (hk : KnownDurably q d) {r r' : ProtocolMutation} (hr : r ∈ (merged q d).mutations)
    (hr' : r' ∈ q.mutations ++ d.mutations) (hid : r'.mutationId = r.mutationId)
    (hconf : r'.status = .confirmed) : r.status = .confirmed := by
  refine r.status_eq.resolve_left fun hp => ?_
  obtain ⟨hrd, -, hrq⟩ := (mem_merged_pending hd hs hk).mp ⟨hr, hp⟩
  have hne : r' ≠ r := by
    rintro rfl
    rw [hp] at hconf
    cases hconf
  rcases List.mem_append.mp hr' with hr' | hr'
  · rcases hrq with hrq | hnext
    · exact hne (hq.row_unique hr' hrq hid)
    · have hbelow := (hq.rows r' hr').below
      simp only [ProtocolMutation.id, hid] at hbelow hnext
      omega
  · exact hne (hd.row_unique hr' hrd hid)

theorem merged_policies {queued : String → Option String}
    (hold : ∀ r ∈ q.mutations, q.consistencyPolicy r.mutationId = queued r.mutationId) :
    (∀ r ∈ (merged q d).mutations,
      (merged q d).consistencyPolicy r.mutationId = queued r.mutationId) ↔
    ∀ r ∈ d.mutations, q.nextMutationId ≤ r.id →
      q.consistencyPolicy r.mutationId = queued r.mutationId := by
  constructor
  · intro h r hr hnext
    exact h r (List.mem_append_right _ (List.mem_filter.mpr ⟨hr, by simpa using hnext⟩))
  · intro h r hr
    rcases List.mem_append.mp hr with hr | hr
    · obtain ⟨r₀, hr₀, rfl⟩ := List.mem_map.mp hr
      rw [adopted_mutationId]
      exact hold r₀ hr₀
    · obtain ⟨hr, hnext⟩ := List.mem_filter.mp hr
      exact h r hr (by simpa using hnext)

/-- The merge of two runs from one ancestor: it succeeds with the right result exactly when both
queues validate, neither has pruned a row the other needs, and the in-memory policies already
cover every mutation that was appended durably. -/
theorem merge_after_iff (toText : Json → String) (origin : ProtocolQueue)
    (horigin : origin.validate toText = .ok ())
    (shared durable memory : List QueueCall) (hmemory : ∀ call ∈ memory, call.row "" = none) :
    let a := after toText origin shared
    let d := after toText a durable
    let q := after toText a memory
    let queued := queuedPolicies toText a a.consistencyPolicy durable
    ((q.mergeConcurrentDurable toText d).1 = .ok () ∧
      MergesTo toText q d queued (q.mergeConcurrentDurable toText d).2) ↔
    (q.validate toText = .ok () ∧ d.validate toText = .ok ()) ∧ KnownDurably q d ∧
      KnownInMemory q d ∧ ∀ r ∈ d.mutations, q.nextMutationId ≤ r.id →
        a.consistencyPolicy r.mutationId = queued r.mutationId := by
  intro a d q queued
  have ha : DistinctIds a :=
    distinctIds_after (.of_valid (validate_eq_ok.mp horigin)) shared
  have hkeeps : Keeps a q := keeps_after hmemory a
  have hs : Siblings q d := siblings_of_descends ha hkeeps (descends_after a durable)
  have hpolicy : q.consistencyPolicy = a.consistencyPolicy := by
    unfold consistencyPolicy
    rw [hkeeps.policies]
  have hold : ∀ r ∈ q.mutations, q.consistencyPolicy r.mutationId = queued r.mutationId := by
    intro r hr
    obtain ⟨r₀, hr₀, hrr⟩ := hkeeps.mutations r hr
    have hid : r.mutationId = r₀.mutationId := by rcases hrr with rfl | rfl <;> rfl
    obtain ⟨k, hk, hlt⟩ := ha.below r₀ hr₀
    rw [hpolicy]
    refine (queuedPolicies_of_allocated durable (fun n hn he => ?_) _).symm
    rw [hid, hk] at he
    have := Nat.repr_injective he
    omega
  constructor
  · rintro ⟨hok, hspec⟩
    obtain ⟨hq, hd, -, hk, hm⟩ := known_of_merge hok
    rw [merge_eq hq hd hs hk hm] at hspec
    refine ⟨⟨validate_eq_ok.mpr hq, validate_eq_ok.mpr hd⟩, hk, hm, ?_⟩
    rw [← hpolicy]
    exact (merged_policies hold).mp hspec.policies
  · rintro ⟨⟨hq, hd⟩, hk, hm, hpolicies⟩
    rw [validate_eq_ok] at hq hd
    rw [merge_eq hq hd hs hk hm]
    rw [← hpolicy] at hpolicies
    exact ⟨rfl, fun r => mem_merged_pending hd hs hk,
      fun r hr r' hr' => merged_confirmed hq hd hs hk hr hr', merged_ascending hq hd,
      merged_checkpoint hq hd, rfl, validate_eq_ok.mpr (merged_valid hq hd hs hk),
      (merged_policies hold).mpr hpolicies⟩

/-- The server applies the first `limit` pending mutations. -/
def applyPending (q : ProtocolQueue) (limit : ℕ) : QueueCall :=
  let sent := q.pending.take limit
  .acknowledge
    { protocolVersion := 1, clientId := q.clientId, checkpoint := "7"
      lastMutationId := (sent.getLast?.map (·.mutationId)).getD ""
      results := sent.map fun m =>
        { mutationId := m.mutationId, status := .applied, originalStatus := none
          checkpoint := some "7", revision := none, code := none, message := none } }
    { protocolVersion := 1, clientId := q.clientId, mutations := sent }

/-- The policy map already names the policy of mutation 5. -/
def partedOrigin : ProtocolQueue :=
  { empty "client" 10 100 with
    consistencyPolicies := (∅ : Std.ExtTreeMap String String compare).insert "5"
      Consistency.writeThroughLocalFirst }

def partedQueued : List QueueCall :=
  [.queueDelete "todos" "a" none none, .queueUpsert "todos" "b" (.object []) none false none,
    .queueDelete "todos" "c" none none, .queueDelete "todos" "d" none (some .remoteAcknowledged)]

/-- Mutation 1 is confirmed and pruned before the two sides part. -/
def partedShared : List QueueCall :=
  partedQueued ++
    [applyPending (after (fun _ => "\x7b\x7d") partedOrigin partedQueued) 1, .pruneConfirmed 0]

def partedQueue : ProtocolQueue := after (fun _ => "\x7b\x7d") partedOrigin partedShared

/-- Durably 2 is confirmed and 5 is appended; in memory 2 and 3 are confirmed. -/
theorem merge_after_iff_parted :
    let d := after (fun _ => "\x7b\x7d") partedQueue
      [applyPending partedQueue 1, .queueDelete "todos" "e" none none]
    let q := after (fun _ => "\x7b\x7d") partedQueue
      [applyPending partedQueue 2, .setCheckpoint "7"]
    let merge := q.mergeConcurrentDurable (fun _ => "\x7b\x7d") d
    merge.1 = .ok () ∧ merge.2.mutations.map (fun r => (r.mutationId, r.status)) =
        [("2", .confirmed), ("3", .confirmed), ("4", .pending), ("5", .pending)] ∧
      merge.2.consistencyPolicy "5" = some Consistency.writeThroughLocalFirst := by
  intro d q merge
  have h := (merge_after_iff (fun _ => "\x7b\x7d") partedOrigin (by decide +kernel) partedShared
    [applyPending partedQueue 1, .queueDelete "todos" "e" none none]
    [applyPending partedQueue 2, .setCheckpoint "7"] (by decide +kernel)).mpr
    ⟨⟨by decide +kernel, by decide +kernel⟩, by decide +kernel, by decide +kernel,
      by decide +kernel⟩
  exact ⟨h.1, by decide +kernel, by decide +kernel⟩

/-- A mutation queued durably with an explicit policy comes out of the merge without one. -/
theorem merge_loses_policy :
    let a := empty "client" defaultMaxPendingMutations defaultMaxQueuedPayloadBytes
    let durable : List QueueCall := [.queueDelete "todos" "a" none (some .remoteAcknowledged)]
    let d := after (fun _ => "") a durable
    new "client" = .ok a ∧ (a.mergeConcurrentDurable (fun _ => "") d).1 = .ok () ∧
      ¬ MergesTo (fun _ => "") a d (queuedPolicies (fun _ => "") a a.consistencyPolicy durable)
        (a.mergeConcurrentDurable (fun _ => "") d).2 := by
  refine ⟨by decide, by decide, fun h => ?_⟩
  have := h.policies
    { mutationId := "1", operation := .delete, table := "todos", recordId := "a", payload := none,
      baseRevision := none, resurrect := false, status := .pending } (by decide)
  exact absurd this (by decide)

end ProtocolQueue
end OptoSync
