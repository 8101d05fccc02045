import OptoSync.ProtocolQueueMerge
import OptoSync.ProtocolQueueWire

/-!
# Exact acknowledgements

What an acknowledgement does to any queue that the crate can build: a new one, one that was read
back, one that calls changed, or one that took in what another connection queued, also when the
merge failed half way.
-/
namespace OptoSync
open Decimal

namespace ProtocolQueue

variable {toText : Json → String} {q d : ProtocolQueue}

inductive Reachable (toText : Json → String) : ProtocolQueue → Prop
  | new {clientId : String} {maxPending maxBytes : ℕ} {q : ProtocolQueue}
      (h : withLimits clientId maxPending maxBytes = .ok q) : Reachable toText q
  | deserialized {value : Json} {q : ProtocolQueue} (h : deserialize toText value = some q) :
      Reachable toText q
  | performed {q : ProtocolQueue} (h : Reachable toText q) (call : QueueCall) :
      Reachable toText (call.perform toText q).2
  | merged {q d : ProtocolQueue} (h : Reachable toText q) (hd : Reachable toText d) :
      Reachable toText (q.mergeConcurrentDurable toText d).2

/-- The ids of the rows ascend below the next id. -/
structure Ordered (q : ProtocolQueue) : Prop where
  parses : ∀ m ∈ q.mutations, (parseDecimal m.mutationId).isSome = true
  ascending : (q.mutations.map (·.id)).Pairwise (· < ·)
  below : ∀ m ∈ q.mutations, m.id < q.nextMutationId

theorem Valid.ordered (h : Valid toText q) : Ordered q :=
  ⟨fun m hm => (h.rows m hm).parses, h.ascending, fun m hm => (h.rows m hm).below⟩

/-- The rows of `ms` are those of `rs`, some of them confirmed. -/
abbrev Confirms (ms rs : List ProtocolMutation) : Prop :=
  List.Forall₂ (fun m r => m = r ∨ m = r.confirm) ms rs

theorem Confirms.map_id {ms rs : List ProtocolMutation} (h : Confirms ms rs) :
    ms.map (·.id) = rs.map (·.id) := by
  rw [← List.forall₂_eq_eq_eq, List.forall₂_map_left_iff, List.forall₂_map_right_iff]
  exact h.imp fun m r hm => by rcases hm with rfl | rfl <;> rfl

theorem Confirms.exists_row {ms rs : List ProtocolMutation} (h : Confirms ms rs)
    {m : ProtocolMutation} (hm : m ∈ ms) : ∃ r ∈ rs, m = r ∨ m = r.confirm := by
  induction h with
  | nil => cases hm
  | cons hhead htail ih =>
    rcases List.mem_cons.mp hm with rfl | hm
    · exact ⟨_, List.mem_cons_self, hhead⟩
    · obtain ⟨r, hr, hmr⟩ := ih hm
      exact ⟨r, List.mem_cons_of_mem _ hr, hmr⟩

theorem Ordered.confirms {q' : ProtocolQueue} (h : Ordered q)
    (hrows : Confirms q'.mutations q.mutations) (hnext : q'.nextMutationId = q.nextMutationId) :
    Ordered q' := by
  refine ⟨fun m hm => ?_, hrows.map_id ▸ h.ascending, fun m hm => ?_⟩
  · obtain ⟨r, hr, hmr⟩ := hrows.exists_row hm
    rcases hmr with rfl | rfl
    · exact h.parses m hr
    · exact h.parses r hr
  · obtain ⟨r, hr, hmr⟩ := hrows.exists_row hm
    rw [hnext]
    rcases hmr with rfl | rfl
    · exact h.below m hr
    · exact h.below r hr

theorem Ordered.keeps {q' : ProtocolQueue} (h : Ordered q) (hk : Keeps q q') : Ordered q' := by
  have hids : ∀ p : ProtocolQueue, p.mutations.map (·.id) =
      (p.mutations.map (·.mutationId)).map fun s => (parseDecimal s).getD 0 := by
    intro p
    simp [ProtocolMutation.id, Function.comp_def]
  refine ⟨fun m hm => ?_, ?_, fun m hm => ?_⟩
  · obtain ⟨r, hr, hmr⟩ := hk.mutations m hm
    rcases hmr with rfl | rfl
    · exact h.parses m hr
    · exact h.parses r hr
  · have hasc := h.ascending
    rw [hids] at hasc ⊢
    exact hasc.sublist (hk.ids.map _)
  · obtain ⟨r, hr, hmr⟩ := hk.mutations m hm
    rw [hk.next]
    rcases hmr with rfl | rfl
    · exact h.below m hr
    · exact h.below r hr

theorem Ordered.enqueued {q' : ProtocolQueue} {m : ProtocolMutation} (h : Ordered q)
    (henq : Enqueued q q' m) (hid : m.mutationId = q.nextMutationId.repr) : Ordered q' := by
  have hbound : q.nextMutationId ≤ maxU64 := by
    have := henq.bound
    simp only [maxI64, maxU64] at *
    omega
  have hm : m.id = q.nextMutationId := ProtocolMutation.id_eq hid hbound
  refine ⟨?_, ?_, ?_⟩
  · rw [henq.mutations]
    intro r hr
    rcases List.mem_append.mp hr with hr | hr
    · exact h.parses r hr
    · rw [List.mem_singleton.mp hr, hid, parseDecimal_repr hbound]
      rfl
  · rw [henq.mutations, List.map_append, List.pairwise_append]
    refine ⟨h.ascending, List.pairwise_singleton _ _, ?_⟩
    intro a ha b hb
    obtain ⟨r, hr, rfl⟩ := List.mem_map.mp ha
    rw [List.map_singleton, List.mem_singleton] at hb
    rw [hb, hm]
    exact h.below r hr
  · rw [henq.mutations, henq.next]
    intro r hr
    rcases List.mem_append.mp hr with hr | hr
    · exact Nat.lt_succ_of_lt (h.below r hr)
    · rw [List.mem_singleton.mp hr, hm]
      exact Nat.lt_succ_self _

theorem QueueCall.row_mutationId {call : QueueCall} {id : String} {m : ProtocolMutation}
    (h : call.row id = some m) : m.mutationId = id := by
  cases call <;> cases h <;> rfl

theorem Ordered.performed (h : Ordered q) (call : QueueCall) :
    Ordered (call.perform toText q).2 := by
  cases hcall : call.row "" with
  | none => exact h.keeps (perform_keeps toText hcall q).1
  | some row =>
    rcases perform_enqueue toText q call (by rw [hcall]; rfl) with hout | ⟨q', m, hout, hrow, henq, -, -⟩
    · rw [hout]
      exact h
    · rw [hout]
      exact h.enqueued henq (QueueCall.row_mutationId hrow)

/-- Also when it stops early, the adopting loop only confirms. -/
theorem adoptStatuses_rows (durable ms : List ProtocolMutation) :
    Confirms (adoptStatuses durable ms).2 ms := by
  induction ms with
  | nil => exact .nil
  | cons m ms ih =>
    have hsame : Confirms (m :: ms) (m :: ms) := List.forall₂_same.mpr fun _ _ => Or.inl rfl
    unfold adoptStatuses
    split
    · exact hsame
    · split
      · exact hsame
      · refine .cons ?_ ih
        split
        · exact Or.inr rfl
        · exact Or.inl rfl

/-- The rows that were imported, also when the loop stops early. -/
theorem importAppended_rows (next : ℕ) (mine ds : List ProtocolMutation)
    (hparses : ∀ m ∈ ds, (parseDecimal m.mutationId).isSome = true) :
    ∃ appended, (importAppended next mine ds).2 = mine ++ appended ∧ appended.Sublist ds ∧
      ∀ m ∈ appended, next ≤ m.id := by
  induction ds generalizing mine with
  | nil => exact ⟨[], by simp [importAppended], List.Sublist.refl _, by simp⟩
  | cons r ds ih =>
    have hrest : ∀ m ∈ ds, (parseDecimal m.mutationId).isSome = true :=
      fun m hm => hparses m (List.mem_cons_of_mem r hm)
    obtain ⟨id, hid⟩ := Option.isSome_iff_exists.mp (hparses r List.mem_cons_self)
    have hr : r.id = id := by simp [ProtocolMutation.id, hid]
    unfold importAppended
    split
    · obtain ⟨appended, heq, hsub, hge⟩ := ih mine hrest
      exact ⟨appended, heq, hsub.cons r, hge⟩
    · rw [hid]
      dsimp only
      split
      · rename_i hle
        obtain ⟨appended, heq, hsub, hge⟩ := ih (mine ++ [r]) hrest
        refine ⟨r :: appended, by rw [heq, List.append_assoc]; rfl, hsub.cons_cons r, ?_⟩
        intro m hm
        rcases List.mem_cons.mp hm with rfl | hm
        · rwa [hr]
        · exact hge m hm
      · split
        · exact ⟨[], by simp, List.nil_sublist _, by simp⟩
        · obtain ⟨appended, heq, hsub, hge⟩ := ih mine hrest
          exact ⟨appended, heq, hsub.cons r, hge⟩

/-- Rows from the next id on are never refused. -/
theorem importAppended_ok {next : ℕ} (mine : List ProtocolMutation) {ds : List ProtocolMutation}
    (hparses : ∀ m ∈ ds, (parseDecimal m.mutationId).isSome = true)
    (hge : ∀ m ∈ ds, next ≤ m.id) : (importAppended next mine ds).1 = .ok () := by
  induction ds generalizing mine with
  | nil => rfl
  | cons r ds ih =>
    have hrest := fun mine => ih mine (fun m hm => hparses m (List.mem_cons_of_mem r hm))
      fun m hm => hge m (List.mem_cons_of_mem r hm)
    obtain ⟨id, hid⟩ := Option.isSome_iff_exists.mp (hparses r List.mem_cons_self)
    have hr : r.id = id := by simp [ProtocolMutation.id, hid]
    unfold importAppended
    split
    · exact hrest mine
    · rw [hid]
      dsimp only
      rw [if_pos (hr ▸ hge r List.mem_cons_self)]
      exact hrest _

/-- A refused import has appended nothing: the rows it refuses come first. -/
theorem importAppended_error {next : ℕ} {mine ds : List ProtocolMutation} {e : ProtocolError}
    (hparses : ∀ m ∈ ds, (parseDecimal m.mutationId).isSome = true)
    (hasc : (ds.map (·.id)).Pairwise (· < ·)) (h : (importAppended next mine ds).1 = .error e) :
    (importAppended next mine ds).2 = mine := by
  induction ds with
  | nil => rfl
  | cons r ds ih =>
    have hrest : ∀ m ∈ ds, (parseDecimal m.mutationId).isSome = true :=
      fun m hm => hparses m (List.mem_cons_of_mem r hm)
    obtain ⟨id, hid⟩ := Option.isSome_iff_exists.mp (hparses r List.mem_cons_self)
    have hr : r.id = id := by simp [ProtocolMutation.id, hid]
    rw [List.map_cons, List.pairwise_cons] at hasc
    unfold importAppended at h ⊢
    split
    · rename_i hmine
      rw [if_pos hmine] at h
      exact ih hrest hasc.2 h
    · rename_i hmine
      rw [if_neg hmine, hid] at h
      rw [hid]
      dsimp only at h ⊢
      split
      · rename_i hle
        have hge : ∀ m ∈ ds, next ≤ m.id := by
          intro m hm
          have hlt := hasc.1 m.id (List.mem_map_of_mem hm)
          omega
        rw [if_pos hle, importAppended_ok _ hrest hge] at h
        cases h
      · rename_i hle
        rw [if_neg hle] at h
        split
        · rfl
        · rename_i hpending
          rw [if_neg hpending] at h
          exact ih hrest hasc.2 h

theorem sortById_eq {ms : List ProtocolMutation} (h : (ms.map (·.id)).Pairwise (· < ·)) :
    sortById ms = ms := by
  apply List.Pairwise.insertionSort_eq
  rw [List.pairwise_map] at h
  exact h.imp fun hlt => Nat.le_of_lt hlt

/-- The own rows and then those of the other connection. -/
theorem Ordered.imported {adopted appended : List ProtocolMutation} {next : ℕ}
    (h : Ordered q) (hd : Ordered d) (hadopted : Confirms adopted q.mutations)
    (hsub : appended.Sublist d.mutations) (hge : ∀ m ∈ appended, q.nextMutationId ≤ m.id)
    (hnext : q.nextMutationId ≤ next) (hdnext : d.nextMutationId ≤ next) {q' : ProtocolQueue}
    (hrows : q'.mutations = adopted ++ appended) (hq' : q'.nextMutationId = next) :
    Ordered q' := by
  have hown : Ordered { q with mutations := adopted } := h.confirms hadopted rfl
  refine ⟨?_, ?_, ?_⟩
  · rw [hrows]
    intro m hm
    rcases List.mem_append.mp hm with hm | hm
    · exact hown.parses m hm
    · exact hd.parses m (hsub.subset hm)
  · rw [hrows, List.map_append, List.pairwise_append]
    refine ⟨hown.ascending, hd.ascending.sublist (hsub.map _), ?_⟩
    intro a ha b hb
    obtain ⟨r, hr, rfl⟩ := List.mem_map.mp ha
    obtain ⟨r', hr', rfl⟩ := List.mem_map.mp hb
    exact (hown.below r hr).trans_le (hge r' hr')
  · rw [hrows, hq']
    intro m hm
    rcases List.mem_append.mp hm with hm | hm
    · exact (hown.below m hm).trans_le hnext
    · exact (hd.below m (hsub.subset hm)).trans_le hdnext

theorem Ordered.merged (h : Ordered q) (hd : Ordered d) :
    Ordered (q.mergeConcurrentDurable toText d).2 := by
  unfold mergeConcurrentDurable
  split
  · exact h
  · exact h
  · split
    · exact h
    · rename_i hhead
      simp only [not_or, Nat.not_lt] at hhead
      have hadopted := adoptStatuses_rows d.mutations q.mutations
      split
      · rename_i e mutations heq
        rw [heq] at hadopted
        exact h.confirms hadopted rfl
      · rename_i adopted heq
        rw [heq] at hadopted
        obtain ⟨appended, happended, hsub, hge⟩ :=
          importAppended_rows q.nextMutationId adopted d.mutations hd.parses
        split
        · rename_i e mutations himport
          have hnone := importAppended_error hd.parses hd.ascending (congrArg Prod.fst himport)
          rw [himport] at hnone
          obtain rfl : mutations = adopted := hnone
          exact h.confirms hadopted rfl
        · rename_i imported himport
          rw [himport] at happended
          obtain rfl : imported = adopted ++ appended := happended
          have hall : Ordered { q with
              mutations := adopted ++ appended, nextMutationId := d.nextMutationId } :=
            h.imported hd hadopted hsub hge hhead.2.2.2 le_rfl rfl rfl
          rw [sortById_eq hall.ascending]
          split
          · rename_i theirs mine htheirs hmine
            split
            · exact ⟨hall.parses, hall.ascending, hall.below⟩
            · exact hall
          · exact hall

theorem deserialize_valid {value : Json} (h : deserialize toText value = some q) :
    Valid toText q := by
  cases value with
  | object fields =>
    simp only [deserialize, Option.bind_eq_bind, Option.bind_eq_some_iff] at h
    obtain ⟨_, -, _, -, _, -, _, -, _, -, _, -, _, -, _, -, _, -, _, -, _, -, _, -, _, -, _, -, h⟩ :=
      h
    split at h
    · rename_i hvalid
      obtain rfl := Option.some.inj h
      exact validate_eq_ok.mp hvalid
    · cases h
  | _ => cases h

theorem ordered_of_withLimits {clientId : String} {maxPending maxBytes : ℕ}
    (h : withLimits clientId maxPending maxBytes = .ok q) : Ordered q := by
  have hnone : q.mutations = [] := by
    have hreached : Reached (fun _ => "") q [] 0 := Reached.of_withLimits h
    apply List.eq_nil_iff_forall_not_mem.mpr
    intro m hm
    obtain ⟨r, hr, -⟩ := hreached.mem_row hm
    cases hr
  refine ⟨?_, ?_, ?_⟩ <;> simp [hnone]

theorem Reachable.ordered (h : Reachable toText q) : Ordered q := by
  induction h with
  | new h => exact ordered_of_withLimits h
  | deserialized h => exact (deserialize_valid h).ordered
  | performed h call ih => exact ih.performed call
  | merged h hd ih ihd => exact ih.merged ihd

/-- The rows that an acknowledgement up to `w` confirms. -/
def settles (w : ℕ) (m : ProtocolMutation) : Bool := m.id ≤ w && m.status = .pending

theorem confirmThrough_count {w : ℕ} {ms : List ProtocolMutation}
    (h : ∀ m ∈ ms, (parseDecimal m.mutationId).isSome = true) (changed : ℕ) :
    confirmThrough w changed ms =
      (.ok (changed + (ms.filter (settles w)).length), ms.map (·.settle w)) := by
  induction ms generalizing changed with
  | nil => rfl
  | cons m ms ih =>
    obtain ⟨id, hid⟩ := Option.isSome_iff_exists.mp (h m List.mem_cons_self)
    have hm : m.id = id := by simp [ProtocolMutation.id, hid]
    have hrest := fun c => ih (fun x hx => h x (List.mem_cons_of_mem m hx)) c
    unfold confirmThrough
    rw [hid]
    by_cases hc : id ≤ w ∧ m.status = .pending
    · have hs : settles w m = true := by simp [settles, hm, hc]
      simp only [if_pos hc, hrest, List.map_cons, List.filter_cons_of_pos hs, List.length_cons,
        Prod.mk.injEq, Except.ok.injEq]
      refine ⟨by omega, ?_⟩
      rw [ProtocolMutation.settle_le (hm ▸ hc.1) hc.2]
      rfl
    · have hs : ¬ settles w m = true := by simpa [settles, hm] using hc
      simp only [if_neg hc, hrest, List.map_cons, List.filter_cons_of_neg hs,
        ProtocolMutation.settle, hm]

theorem pending_ascending (h : Ordered q) : (q.pending.map (·.id)).Pairwise (· < ·) :=
  h.ascending.sublist (List.filter_sublist.map _)

/-- The pending rows up to the last one of a prefix are those of the prefix. -/
theorem filter_le_eq_take (h : Ordered q) {k w : ℕ} {last : ProtocolMutation}
    (hlast : (q.pending.take k).getLast? = some last) (hw : last.id = w) :
    q.pending.filter (fun m => m.id ≤ w) = q.pending.take k := by
  have hasc := pending_ascending h
  rw [← List.take_append_drop k q.pending, List.map_append, List.pairwise_append] at hasc
  obtain ⟨hpre, -, hcross⟩ := hasc
  have hlastMem : last ∈ q.pending.take k := List.mem_of_getLast? hlast
  have htake : (q.pending.take k).filter (fun m => m.id ≤ w) = q.pending.take k := by
    apply List.filter_eq_self.mpr
    intro m hm
    obtain ⟨before, hbefore⟩ := List.getLast?_eq_some_iff.mp hlast
    rw [hbefore] at hpre hm
    rw [List.map_append, List.pairwise_append] at hpre
    rw [decide_eq_true_eq]
    rcases List.mem_append.mp hm with hm | hm
    · have hlt := hpre.2.2 m.id (List.mem_map_of_mem hm) last.id (by simp)
      omega
    · rw [List.mem_singleton.mp hm, hw]
  have hdrop : (q.pending.drop k).filter (fun m => m.id ≤ w) = [] := by
    apply List.filter_eq_nil_iff.mpr
    intro m hm
    have hlt := hcross last.id (List.mem_map_of_mem hlastMem) m.id (List.mem_map_of_mem hm)
    rw [decide_eq_true_eq]
    omega
  conv_lhs => rw [← List.take_append_drop k q.pending, List.filter_append, htake, hdrop]
  exact List.append_nil _

/-- An accepted request is one that the queue itself would send now, answered mutation by
mutation. -/
structure Covers (q : ProtocolQueue) (response : PushResponse) (request : PushRequest) : Prop where
  sent : q.pushRequest request.mutations.length = .ok request
  client : response.clientId = q.clientId
  results : response.results.map (·.mutationId) = request.mutations.map (·.mutationId)

/-- The queue with the rows of the request confirmed. -/
def confirmed (q : ProtocolQueue) (request : PushRequest) : ProtocolQueue :=
  { q with
    mutations := q.mutations.map fun m => if m ∈ request.mutations then m.confirm else m }

theorem map_mutationId_of_zip {sent : List ProtocolMutation} {results : List MutationResult}
    (hlength : results.length = sent.length)
    (h : ∀ p ∈ sent.zip results, resultRefused p.1 p.2 = false) :
    results.map (·.mutationId) = sent.map (·.mutationId) := by
  induction sent generalizing results with
  | nil =>
    rw [List.eq_nil_of_length_eq_zero hlength]
    rfl
  | cons m sent ih =>
    cases results with
    | nil => cases hlength
    | cons result results =>
      rw [List.zip_cons_cons, List.forall_mem_cons] at h
      have hhead : m.mutationId = result.mutationId := by
        have hrefused := h.1
        simp only [resultRefused, Bool.or_eq_false_iff, decide_eq_false_iff_not, ne_eq,
          not_not] at hrefused
        exact hrefused.1.1.1.1.1
      rw [List.map_cons, List.map_cons, ih (by simpa using hlength) h.2, hhead]

/-- The header and the count of an accepted acknowledgement. -/
theorem acknowledge_ok_header (h : Ordered q) {response : PushResponse} {request : PushRequest}
    {count w : ℕ} {q' : ProtocolQueue}
    (hack : q.acknowledge response request = (.ok count, q'))
    (hw : parseDecimal response.lastMutationId = some w) :
    request.protocolVersion = 1 ∧ response.clientId = q.clientId ∧
      count = (q.mutations.filter (settles w)).length := by
  unfold acknowledge at hack
  split at hack
  · cases hack
  · rename_i hclient
    split at hack
    · cases hack
    · rename_i hshape
      simp only [not_or, not_not] at hclient hshape
      rw [hw] at hack
      dsimp only at hack
      split at hack
      · cases hack
      · rw [confirmThrough_count h.parses, Nat.zero_add] at hack
        exact ⟨hshape.1, hclient.2, (Except.ok.inj (Prod.mk.inj hack).1).symm⟩

theorem Acknowledges.last_id {response : PushResponse} {request : PushRequest} {w : ℕ}
    (h : Acknowledges q response request w) :
    ∃ last, (q.pending.take request.mutations.length).getLast? = some last ∧ last.id = w := by
  have hlast := h.last
  rw [h.sent] at hlast
  obtain ⟨last, hsome, hid⟩ := Option.map_eq_some_iff.mp hlast
  refine ⟨last, hsome, ?_⟩
  rw [ProtocolMutation.id, hid, h.parsed]
  rfl

/-- Up to the watermark, the pending rows are those of the request. -/
theorem Acknowledges.filter_eq (h : Ordered q) {response : PushResponse} {request : PushRequest}
    {w : ℕ} (ha : Acknowledges q response request w) :
    q.mutations.filter (settles w) = request.mutations := by
  obtain ⟨last, hlast, hid⟩ := ha.last_id
  have hfilter := filter_le_eq_take h hlast hid
  rw [← ha.sent, pending, List.filter_filter] at hfilter
  exact hfilter

theorem Acknowledges.settle_eq (h : Ordered q) {response : PushResponse} {request : PushRequest}
    {w : ℕ} (ha : Acknowledges q response request w) :
    { q with mutations := q.mutations.map (·.settle w) } = q.confirmed request := by
  have hrows : q.mutations.map (·.settle w) =
      q.mutations.map fun m => if m ∈ request.mutations then m.confirm else m := by
    apply List.map_congr_left
    intro m hm
    have hmem : m ∈ request.mutations ↔ settles w m = true := by
      rw [← ha.filter_eq h, List.mem_filter]
      exact and_iff_right hm
    by_cases hs : settles w m = true
    · simp only [settles, Bool.and_eq_true, decide_eq_true_eq] at hs
      rw [if_pos (hmem.mpr (by simp [settles, hs])), ProtocolMutation.settle_le hs.1 hs.2]
    · rw [if_neg fun hc => hs (hmem.mp hc), ProtocolMutation.settle, if_neg]
      simpa [settles] using hs
  rw [hrows]
  rfl

theorem acknowledge_ok (h : Ordered q) {response : PushResponse} {request : PushRequest} {count : ℕ}
    {q' : ProtocolQueue} (hack : q.acknowledge response request = (.ok count, q')) :
    Covers q response request ∧ count = request.mutations.length ∧ q' = q.confirmed request := by
  rcases acknowledge_cases h.parses response request with ⟨e, he⟩ | ⟨w, n, ha, hok⟩
  · rw [he] at hack
    cases (Prod.mk.inj hack).1
  · obtain ⟨hversion, hclient, hcount⟩ := acknowledge_ok_header h hack ha.parsed
    have hq : q' = q.confirmed request := by
      rw [hok] at hack
      rw [← (Prod.mk.inj hack).2, ha.settle_eq h]
    refine ⟨⟨?_, hclient, map_mutationId_of_zip ha.results ha.accepted⟩, ?_, hq⟩
    · have hlimit : validPushLimit request.mutations.length = true := by
        have hpos := List.length_pos_iff.mpr ha.nonempty
        have hshort := ha.short
        simp only [validPushLimit, Bool.and_eq_true, decide_eq_true_eq]
        omega
      rw [pushRequest, if_neg (by simp [hlimit]), ← ha.sent, ← ha.client, ← hversion]
    · rw [hcount, ha.filter_eq h]

/-- An acknowledgement covers its request exactly, or changes nothing. -/
theorem acknowledge_exact (h : Reachable toText q) (response : PushResponse)
    (request : PushRequest) :
    (∀ count q', q.acknowledge response request = (.ok count, q') →
      Covers q response request ∧ count = request.mutations.length ∧
        q' = q.confirmed request) ∧
    ∀ e q', q.acknowledge response request = (.error e, q') → q' = q := by
  refine ⟨fun count q' hack => acknowledge_ok h.ordered hack, fun e q' hack => ?_⟩
  rcases acknowledge_cases h.ordered.parses response request with ⟨e', he⟩ | ⟨w, n, -, hok⟩
  · rw [he] at hack
    exact (Prod.mk.inj hack).2.symm
  · rw [hok] at hack
    cases (Prod.mk.inj hack).1

/-- Two of three mutations are pushed, and the answer confirms these two. -/
theorem acknowledge_exact_tombstones :
    let calls : List QueueCall := [.queueDelete "t" "r" none none, .queueDelete "t" "s" none none,
      .queueDelete "t" "r" none none]
    let queued := calls.foldl (fun q call => (call.perform (fun _ => "") q).2) (empty "c" 5 100)
    let request : PushRequest :=
      { protocolVersion := 1, clientId := "c", mutations := queued.pending.take 2 }
    let applied (mutationId : String) : MutationResult :=
      { mutationId, status := .applied, originalStatus := none, checkpoint := none
        revision := none, code := none, message := none }
    let response : PushResponse :=
      { protocolVersion := 1, clientId := "c", lastMutationId := "2", checkpoint := "1"
        results := [applied "1", applied "2"] }
    (queued.acknowledge response request).2 = queued.confirmed request := by
  intro calls queued request applied response
  have hnew : withLimits "c" 5 100 = .ok (empty "c" 5 100) := rfl
  have hreachable : Reachable (fun _ => "") queued :=
    .performed (.performed (.performed (.new hnew) _) _) _
  have hcount : (queued.acknowledge response request).1 = .ok 2 := by decide +kernel
  exact ((acknowledge_exact hreachable response request).1 2 _ (Prod.ext hcount rfl)).2.2

end ProtocolQueue
end OptoSync
