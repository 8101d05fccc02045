import OptoSync.ProtocolQueue

/-!
# The ledger behind a protocol queue

The abstract view of a queue: all rows it ever allocated, in order, and a watermark. The rows
above the watermark are the pending ones; of the rows up to it, some confirmed copies remain.
Every operation moves the watermark, extends the ledger or forgets confirmed copies.
-/
namespace OptoSync
open Decimal

def ProtocolMutation.confirm (m : ProtocolMutation) : ProtocolMutation :=
  { m with status := .confirmed }

def ProtocolMutation.id (m : ProtocolMutation) : ℕ := (parseDecimal m.mutationId).getD 0

/-- The effect of an acknowledgement on one row. -/
def ProtocolMutation.settle (watermark : ℕ) (m : ProtocolMutation) : ProtocolMutation :=
  if m.id ≤ watermark ∧ m.status = .pending then m.confirm else m

@[simp] theorem ProtocolMutation.confirm_mutationId (m : ProtocolMutation) :
    m.confirm.mutationId = m.mutationId := rfl

@[simp] theorem ProtocolMutation.confirm_status (m : ProtocolMutation) :
    m.confirm.status = .confirmed := rfl

theorem ProtocolMutation.settle_mutationId (w : ℕ) (m : ProtocolMutation) :
    (m.settle w).mutationId = m.mutationId := by
  unfold settle
  split <;> rfl

theorem ProtocolMutation.settle_confirmed {w : ℕ} {m : ProtocolMutation}
    (h : m.status = .confirmed) : m.settle w = m := by
  simp [settle, h]

theorem ProtocolMutation.settle_le {w : ℕ} {m : ProtocolMutation} (h : m.id ≤ w)
    (hs : m.status = .pending) : m.settle w = m.confirm := by
  simp [settle, h, hs]

theorem ProtocolMutation.settle_gt {w : ℕ} {m : ProtocolMutation} (h : w < m.id) :
    m.settle w = m := by
  simp [settle, Nat.not_le.mpr h]

theorem ProtocolMutation.id_eq {m : ProtocolMutation} {n : ℕ} (h : m.mutationId = n.repr)
    (hn : n ≤ maxU64) : m.id = n := by
  simp [ProtocolMutation.id, h, parseDecimal_repr hn]

theorem ProtocolMutation.status_eq (m : ProtocolMutation) :
    m.status = .pending ∨ m.status = .confirmed := by
  cases m.status <;> simp

namespace ProtocolQueue

/-- An enqueue refuses and changes nothing, or appends one row under the next id. -/
theorem queue_cases (q : ProtocolQueue) (m : ProtocolMutation) (payloadBytes : ℕ) :
    (∃ e, q.queue m payloadBytes = (.error e, q)) ∨
    (payloadBytes ≤ q.maxQueuedPayloadBytes ∧ q.pending.length < q.maxPendingMutations ∧
      1 ≤ q.nextMutationId ∧ q.nextMutationId ≤ maxI64 ∧
      q.queue m payloadBytes = (.ok q.nextMutationId.repr,
        { q with
          nextMutationId := q.nextMutationId + 1
          mutations := q.mutations ++ [{ m with mutationId := q.nextMutationId.repr }]
          consistencyPolicies :=
            q.consistencyPolicies.insertIfNew q.nextMutationId.repr
              Consistency.writeThroughLocalFirst })) := by
  unfold queue
  split
  · exact Or.inl ⟨_, rfl⟩
  · rename_i hbytes
    split
    · exact Or.inl ⟨_, rfl⟩
    · rename_i hroom
      split
      · exact Or.inl ⟨_, rfl⟩
      · rename_i halloc
        have hid : 1 ≤ q.nextMutationId ∧ q.nextMutationId ≤ maxI64 := by
          simpa [canAllocateMutationId] using halloc
        have hadd : checkedAdd q.nextMutationId 1 = some (q.nextMutationId + 1) := by
          have : q.nextMutationId + 1 ≤ maxU64 := by
            have := hid.2
            simp only [maxI64, maxU64] at *
            omega
          simp [checkedAdd, this]
        right
        refine ⟨Nat.le_of_not_lt hbytes, Nat.lt_of_not_le hroom, hid.1, hid.2, ?_⟩
        rw [hadd]

/-- On rows whose ids parse, the confirmation loop settles every row. -/
theorem confirmThrough_eq {w : ℕ} {ms : List ProtocolMutation}
    (h : ∀ m ∈ ms, (parseDecimal m.mutationId).isSome = true) (changed : ℕ) :
    ∃ n, confirmThrough w changed ms = (.ok n, ms.map (·.settle w)) := by
  induction ms generalizing changed with
  | nil => exact ⟨changed, rfl⟩
  | cons m ms ih =>
    obtain ⟨id, hid⟩ := Option.isSome_iff_exists.mp (h m (by simp))
    have hm : m.id = id := by simp [ProtocolMutation.id, hid]
    have hrest := fun c => ih (fun x hx => h x (by simp [hx])) c
    unfold confirmThrough
    rw [hid]
    by_cases hc : id ≤ w ∧ m.status = .pending
    · obtain ⟨n, hn⟩ := hrest (changed + 1)
      refine ⟨n, ?_⟩
      simp only [hc, and_self, ↓reduceIte, hn, List.map_cons, Prod.mk.injEq, true_and]
      rw [ProtocolMutation.settle_le (hm ▸ hc.1) hc.2]
      rfl
    · obtain ⟨n, hn⟩ := hrest changed
      refine ⟨n, ?_⟩
      simp only [if_neg hc, hn, List.map_cons, ProtocolMutation.settle, hm]

/-- The acceptance condition of an acknowledgement, all conjuncts of it. -/
structure Acknowledges (q : ProtocolQueue) (response : PushResponse) (request : PushRequest)
    (watermark : ℕ) : Prop where
  client : request.clientId = q.clientId
  nonempty : request.mutations ≠ []
  short : request.mutations.length ≤ 100
  sent : request.mutations = q.pending.take request.mutations.length
  results : response.results.length = request.mutations.length
  last : request.mutations.getLast?.map (·.mutationId) = some response.lastMutationId
  accepted : ∀ p ∈ request.mutations.zip response.results, resultRefused p.1 p.2 = false
  parsed : parseDecimal response.lastMutationId = some watermark
  ahead : watermark < q.nextMutationId

/-- An acknowledgement refuses and changes nothing, or settles the rows up to its watermark. -/
theorem acknowledge_cases {q : ProtocolQueue}
    (hids : ∀ m ∈ q.mutations, (parseDecimal m.mutationId).isSome = true)
    (response : PushResponse) (request : PushRequest) :
    (∃ e, q.acknowledge response request = (.error e, q)) ∨
    ∃ w n, Acknowledges q response request w ∧ q.acknowledge response request =
      (.ok n, { q with mutations := q.mutations.map (·.settle w) }) := by
  unfold acknowledge
  split
  · exact Or.inl ⟨_, rfl⟩
  · rename_i hclient
    split
    · exact Or.inl ⟨_, rfl⟩
    · rename_i hshape
      cases hw : parseDecimal response.lastMutationId with
      | none => exact Or.inl ⟨_, rfl⟩
      | some w =>
        dsimp only
        split
        · exact Or.inl ⟨_, rfl⟩
        · rename_i hahead
          obtain ⟨n, hn⟩ := confirmThrough_eq (w := w) hids 0
          refine Or.inr ⟨w, n, ?_, by rw [hn]⟩
          simp only [not_or, not_not] at hclient hshape
          obtain ⟨-, hne, hlen, hsent, -, hres, hlast, -, hall⟩ := hshape
          refine ⟨hclient.1, hne, by omega, hsent, hres, hlast, ?_, hw, ?_⟩
          · intro p hp
            have hnot : ¬ ∃ p ∈ request.mutations.zip response.results,
                resultRefused p.1 p.2 = true := by simpa only [List.any_eq_true] using hall
            simpa using fun hc => hnot ⟨p, hp, hc⟩
          · simpa [watermarkIsValid] using hahead

structure Ledger (q : ProtocolQueue) (rows : List ProtocolMutation) (w : ℕ) : Prop where
  ids : rows.map (·.mutationId) = (List.range' 1 rows.length).map Nat.repr
  fresh : ∀ m ∈ rows, m.status = .pending
  next : q.nextMutationId = rows.length + 1
  bound : rows.length ≤ maxI64
  le : w ≤ rows.length
  split : ∃ cs, cs.Sublist ((rows.take w).map (·.confirm)) ∧ q.mutations = cs ++ rows.drop w

variable {q : ProtocolQueue} {rows : List ProtocolMutation} {w : ℕ}

theorem Ledger.mutationId_getElem (h : Ledger q rows w) {i : ℕ} (hi : i < rows.length) :
    rows[i].mutationId = (i + 1).repr := by
  have := congrArg (fun l => l[i]?) h.ids
  simp [hi] at this
  rw [this, Nat.add_comm]

theorem Ledger.mutationId_mem (h : Ledger q rows w) {m : ProtocolMutation} (hm : m ∈ rows) :
    ∃ i, i < rows.length ∧ m.mutationId = (i + 1).repr ∧ m.id = i + 1 := by
  obtain ⟨i, hi, rfl⟩ := List.getElem_of_mem hm
  have hid := h.mutationId_getElem hi
  refine ⟨i, hi, hid, ProtocolMutation.id_eq hid ?_⟩
  have := h.bound
  simp only [maxI64, maxU64] at *
  omega

theorem Ledger.nodup (h : Ledger q rows w) : (rows.map (·.mutationId)).Nodup := by
  rw [h.ids]
  exact List.Nodup.map (fun _ _ he => Nat.repr_injective he) List.nodup_range'

/-- Two ledger rows under one id are one row. -/
theorem Ledger.row_unique (h : Ledger q rows w) {a b : ProtocolMutation} (ha : a ∈ rows)
    (hb : b ∈ rows) (he : a.mutationId = b.mutationId) : a = b :=
  List.inj_on_of_nodup_map h.nodup ha hb he

theorem Ledger.pending_eq (h : Ledger q rows w) : q.pending = rows.drop w := by
  obtain ⟨cs, hcs, hq⟩ := h.split
  have hc : cs.filter (fun m => m.status = .pending) = [] := by
    rw [List.filter_eq_nil_iff]
    intro m hm
    obtain ⟨r, -, rfl⟩ := List.mem_map.mp (hcs.subset hm)
    simp
  have hp : (rows.drop w).filter (fun m => m.status = .pending) = rows.drop w := by
    rw [List.filter_eq_self]
    intro m hm
    simpa using h.fresh m (List.mem_of_mem_drop hm)
  simp only [pending, hq, List.filter_append, hc, hp, List.nil_append]

/-- Every row of the queue is a ledger row: as allocated, or confirmed. -/
theorem Ledger.mem_cases (h : Ledger q rows w) {m : ProtocolMutation} (hm : m ∈ q.mutations) :
    (∃ r ∈ rows.take w, m = r.confirm) ∨ m ∈ rows.drop w := by
  obtain ⟨cs, hcs, hq⟩ := h.split
  rw [hq, List.mem_append] at hm
  rcases hm with hm | hm
  · obtain ⟨r, hr, rfl⟩ := List.mem_map.mp (hcs.subset hm)
    exact Or.inl ⟨r, hr, rfl⟩
  · exact Or.inr hm

theorem Ledger.parses (h : Ledger q rows w) :
    ∀ m ∈ q.mutations, (parseDecimal m.mutationId).isSome = true := by
  intro m hm
  have hrow : ∃ r ∈ rows, m.mutationId = r.mutationId := by
    rcases h.mem_cases hm with ⟨r, hr, rfl⟩ | hm
    · exact ⟨r, List.mem_of_mem_take hr, rfl⟩
    · exact ⟨m, List.mem_of_mem_drop hm, rfl⟩
  obtain ⟨r, hr, he⟩ := hrow
  obtain ⟨i, hi, hid, -⟩ := h.mutationId_mem hr
  have := h.bound
  rw [he, hid, parseDecimal_repr (by simp only [maxI64, maxU64] at *; omega)]
  rfl

/-- Only the rows and the next id matter to the ledger. -/
theorem Ledger.congr (h : Ledger q rows w) {q' : ProtocolQueue}
    (hn : q'.nextMutationId = q.nextMutationId) (hm : q'.mutations = q.mutations) :
    Ledger q' rows w :=
  ⟨h.ids, h.fresh, hn.trans h.next, h.bound, h.le, by rw [hm]; exact h.split⟩

theorem Ledger.empty {clientId : String} {maxPending maxBytes : ℕ}
    (h : withLimits clientId maxPending maxBytes = .ok q) : Ledger q [] 0 := by
  unfold withLimits at h
  split at h
  · cases h
  · split at h
    · cases h
    · split at h
      · cases h
      · cases h
        exact ⟨rfl, by simp, rfl, Nat.zero_le _, le_rfl, [], by simp, rfl⟩

/-- An accepted enqueue extends the ledger by one row. -/
theorem Ledger.enqueue (h : Ledger q rows w) {q' : ProtocolQueue} {m : ProtocolMutation}
    (hm : m.status = .pending) (hid : m.mutationId = q.nextMutationId.repr)
    (hbound : q.nextMutationId ≤ maxI64) (hn : q'.nextMutationId = q.nextMutationId + 1)
    (hq' : q'.mutations = q.mutations ++ [m]) : Ledger q' (rows ++ [m]) w := by
  obtain ⟨cs, hcs, hq⟩ := h.split
  have hnext := h.next
  refine ⟨?_, ?_, ?_, ?_, ?_, cs, ?_, ?_⟩
  · rw [List.map_append, h.ids, List.length_append, List.length_singleton,
      List.range'_concat, List.map_append, List.map_cons, List.map_nil, List.map_cons,
      List.map_nil, hid, hnext]
    congr 3
    omega
  · intro x hx
    rcases List.mem_append.mp hx with hx | hx
    · exact h.fresh x hx
    · rw [List.mem_singleton.mp hx, hm]
  · rw [hn, hnext, List.length_append, List.length_singleton]
  · rw [List.length_append, List.length_singleton]
    omega
  · rw [List.length_append]
    exact h.le.trans (Nat.le_add_right _ _)
  · rwa [List.take_append_of_le_length h.le]
  · rw [hq', hq, List.drop_append_of_le_length h.le, List.append_assoc]

/-- An accepted acknowledgement of `k` rows moves the watermark by `k`. -/
theorem Ledger.acknowledge (h : Ledger q rows w) {response : PushResponse}
    {request : PushRequest} {mark : ℕ} (ha : Acknowledges q response request mark) :
    mark = w + request.mutations.length ∧
      Ledger { q with mutations := q.mutations.map (·.settle mark) } rows
        (w + request.mutations.length) := by
  obtain ⟨cs, hcs, hq⟩ := h.split
  have hsent := ha.sent
  rw [h.pending_eq] at hsent
  generalize hk : request.mutations.length = k at hsent
  have hbound := h.bound
  have hle := h.le
  have hklen : k ≤ rows.length - w := by
    have := congrArg List.length hsent
    rw [hk, List.length_take, List.length_drop] at this
    omega
  have hkpos : 0 < k := by
    rw [← hk]
    exact List.length_pos_iff.mpr ha.nonempty
  have hlast : request.mutations.getLast? = rows[w + (k - 1)]? := by
    rw [hsent, List.getLast?_eq_getElem?, List.length_take, List.length_drop, List.getElem?_take,
      if_pos (by omega), List.getElem?_drop]
    congr 1
    omega
  have hidx : w + (k - 1) < rows.length := by omega
  have hmark : mark = w + k := by
    have hl := ha.last
    rw [hlast, List.getElem?_eq_getElem hidx, Option.map_some, Option.some.injEq,
      h.mutationId_getElem hidx] at hl
    have hp := ha.parsed
    rw [← hl, parseDecimal_repr (by simp only [maxI64, maxU64] at *; omega),
      Option.some.injEq] at hp
    omega
  have hdrop : ∀ (i : ℕ) (m : ProtocolMutation), (rows.drop w)[i]? = some m →
      m.id = w + i + 1 ∧ m.status = .pending := by
    intro i m hm
    rw [List.getElem?_drop] at hm
    obtain ⟨hi, rfl⟩ := List.getElem?_eq_some_iff.mp hm
    exact ⟨ProtocolMutation.id_eq (h.mutationId_getElem hi)
      (by simp only [maxI64, maxU64] at *; omega), h.fresh _ (List.getElem_mem hi)⟩
  have hcsettle : cs.map (·.settle mark) = cs := by
    conv_rhs => rw [← List.map_id cs]
    apply List.map_congr_left
    intro m hm
    obtain ⟨r, -, rfl⟩ := List.mem_map.mp (hcs.subset hm)
    exact ProtocolMutation.settle_confirmed rfl
  have hpsettle : (rows.drop w).map (·.settle mark) =
      ((rows.drop w).take k).map (·.confirm) ++ rows.drop (w + k) := by
    conv_lhs => rw [← List.take_append_drop k (rows.drop w), List.map_append, List.drop_drop]
    congr 1
    · apply List.map_congr_left
      intro m hm
      obtain ⟨i, hi⟩ := List.mem_iff_getElem?.mp hm
      rw [List.getElem?_take] at hi
      split at hi
      · obtain ⟨hid, hs⟩ := hdrop i m hi
        exact ProtocolMutation.settle_le (by omega) hs
      · cases hi
    · conv_rhs => rw [← List.map_id (rows.drop (w + k))]
      apply List.map_congr_left
      intro m hm
      obtain ⟨i, hi⟩ := List.mem_iff_getElem?.mp hm
      rw [List.getElem?_drop, Nat.add_assoc] at hi
      obtain ⟨hid, -⟩ := hdrop (k + i) m (by rwa [List.getElem?_drop])
      exact ProtocolMutation.settle_gt (by omega)
  refine ⟨hmark, h.ids, h.fresh, h.next, h.bound, by omega,
    cs ++ ((rows.drop w).take k).map (·.confirm), ?_, ?_⟩
  · rw [List.take_add, List.map_append]
    exact hcs.append_right _
  · simp only [hq, List.map_append, hcsettle, hpsettle, List.append_assoc]

/-- Pruning forgets confirmed copies only. -/
theorem Ledger.prune (h : Ledger q rows w) (retain : ℕ) :
    Ledger (q.pruneConfirmed retain).2 rows w := by
  obtain ⟨cs, hcs, hq⟩ := h.split
  generalize hdrop : ((q.mutations.filter fun m => m.status = .confirmed).map (·.mutationId)).take
    ((q.mutations.filter fun m => m.status = .confirmed).length - retain) = dropIds
  have hids : ∀ id ∈ dropIds, ∃ r ∈ rows.take w, r.mutationId = id := by
    intro id hid
    rw [← hdrop] at hid
    obtain ⟨m, hm, rfl⟩ := List.mem_map.mp (List.mem_of_mem_take hid)
    obtain ⟨hm, hs⟩ := List.mem_filter.mp hm
    rcases h.mem_cases hm with ⟨r, hr, rfl⟩ | hm
    · exact ⟨r, hr, rfl⟩
    · simp [h.fresh m (List.mem_of_mem_drop hm)] at hs
  have hkeep : (rows.drop w).filter (fun m => !dropIds.any (· = m.mutationId)) = rows.drop w := by
    rw [List.filter_eq_self]
    intro m hm
    simp only [Bool.not_eq_true', List.any_eq_false, decide_eq_true_eq]
    intro id hid he
    obtain ⟨r, hr, hre⟩ := hids id hid
    have hrm : r = m :=
      h.row_unique (List.mem_of_mem_take hr) (List.mem_of_mem_drop hm) (hre.trans he)
    have hnd : rows.Nodup := List.Nodup.of_map _ h.nodup
    exact (List.disjoint_take_drop hnd le_rfl) hr (hrm ▸ hm)
  refine ⟨h.ids, h.fresh, h.next, h.bound, h.le,
    cs.filter (fun m => !dropIds.any (· = m.mutationId)), List.filter_sublist.trans hcs, ?_⟩
  simp only [pruneConfirmed, hdrop]
  rw [hq, List.filter_append, hkeep]

end ProtocolQueue
end OptoSync
