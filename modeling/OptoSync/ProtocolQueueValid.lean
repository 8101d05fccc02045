import OptoSync.ProtocolQueueRun

/-!
# What validation accepts

`validate` as a predicate on the whole queue, and the operations that keep it.
-/
namespace OptoSync
open Decimal Transition

namespace ProtocolQueue

/-- What validation asks of one row, apart from its place in the list. -/
structure RowValid (toText : Json → String) (q : ProtocolQueue) (m : ProtocolMutation) : Prop
    extends Admitted toText q.maxQueuedPayloadBytes m where
  parses : (parseDecimal m.mutationId).isSome = true
  positive : 0 < m.id
  below : m.id < q.nextMutationId
  base : ∀ revision, m.baseRevision = some revision → (parseDecimal revision).isSome = true

/-- The conditions on the fields outside the rows. -/
structure HeadValid (q : ProtocolQueue) : Prop where
  client : validScopeId q.clientId = true
  maxPending : q.maxPendingMutations ≠ 0
  maxBytes : 2 ≤ q.maxQueuedPayloadBytes
  checkpoint : (parseDecimal q.checkpoint).isSome = true
  nonzero : q.nextMutationId ≠ 0
  next : q.nextMutationId ≤ maxI64 + 1

structure Valid (toText : Json → String) (q : ProtocolQueue) : Prop extends HeadValid q where
  rows : ∀ m ∈ q.mutations, RowValid toText q m
  ascending : (q.mutations.map (·.id)).Pairwise (· < ·)
  pending : q.pending.length ≤ q.maxPendingMutations

variable {toText : Json → String} {q : ProtocolQueue}

theorem validateContent_eq_ok (toText : Json → String) (maxBytes : ℕ) {m : ProtocolMutation}
    (ht : validScopeId m.table = true) (hr : validRecordId m.recordId = true) :
    validateContent toText maxBytes m = .ok () ↔ Admitted toText maxBytes m := by
  unfold validateContent
  cases hop : m.operation with
  | upsert =>
    cases hp : m.payload.filter Json.isObject with
    | none =>
      simp only [reduceCtorEq, false_iff]
      rintro ⟨-, -, hc⟩
      rw [hop] at hc
      obtain ⟨payload, hm, hobj, -⟩ := hc
      simp [hm, Option.filter, hobj] at hp
    | some payload =>
      obtain ⟨hm, hobj⟩ := Option.filter_eq_some_iff.mp hp
      dsimp only
      split
      · rename_i hbytes
        simp only [reduceCtorEq, false_iff]
        rintro ⟨-, -, hc⟩
        rw [hop] at hc
        obtain ⟨payload', hm', -, hle⟩ := hc
        rw [hm, Option.some.injEq] at hm'
        rw [hm'] at hbytes
        omega
      · rename_i hbytes
        simp only [true_iff]
        exact ⟨ht, hr, by rw [hop]; exact ⟨payload, hm, hobj, by omega⟩⟩
  | delete =>
    dsimp only
    split
    · rename_i hbad
      simp only [reduceCtorEq, false_iff]
      rintro ⟨-, -, hc⟩
      rw [hop] at hc
      simp [hc.1, hc.2] at hbad
    · rename_i hgood
      simp only [true_iff]
      exact ⟨ht, hr, by rw [hop]; simpa using hgood⟩

theorem validateRow_eq_ok {acc acc' : ℕ × ℕ} {m : ProtocolMutation} :
    validateRow toText q acc m = .ok acc' ↔ (RowValid toText q m ∧ acc.1 < m.id) ∧
      acc' = (m.id, acc.2 + if m.status = .pending then 1 else 0) := by
  unfold validateRow
  cases hid : parseDecimal m.mutationId with
  | none =>
    simp only [reduceCtorEq, false_iff]
    rintro ⟨⟨h, -⟩, -⟩
    simpa [hid] using h.parses
  | some id =>
    have hm : m.id = id := by simp [ProtocolMutation.id, hid]
    dsimp only
    split
    · rename_i hbad
      simp only [reduceCtorEq, false_iff]
      rintro ⟨⟨h, hlt⟩, -⟩
      have hpos := h.positive
      have hbelow := h.below
      rcases hbad with hz | hz | hz | hz | hz | hz
      · omega
      · omega
      · omega
      · simp [h.table] at hz
      · simp [h.record] at hz
      · obtain ⟨revision, hr, hn⟩ := (Option.any_eq_true _ _).mp hz
        have := h.base revision hr
        simp_all
    · rename_i hgood
      simp only [not_or, Bool.not_eq_false] at hgood
      obtain ⟨hz, hlt, hbelow, ht, hr, hbase⟩ := hgood
      have hcontent := validateContent_eq_ok toText q.maxQueuedPayloadBytes ht hr
      cases hc : validateContent toText q.maxQueuedPayloadBytes m with
      | error e =>
        simp only [reduceCtorEq, false_iff]
        rintro ⟨⟨h, -⟩, -⟩
        have := hcontent.mpr h.toAdmitted
        rw [hc] at this
        cases this
      | ok u =>
        have hbase' : ∀ revision, m.baseRevision = some revision →
            (parseDecimal revision).isSome = true := by
          intro revision hrev
          rw [Option.any_eq_true] at hbase
          by_contra hn
          exact hbase ⟨revision, hrev, by simpa using hn⟩
        have hrow : RowValid toText q m ∧ acc.1 < m.id :=
          ⟨⟨hcontent.mp hc, by simp [hid], by omega, by omega, hbase'⟩, by omega⟩
        rw [Except.ok.injEq, and_iff_right hrow, hm]
        exact eq_comm

/-- The validation fold accepts exactly the ascending lists of valid rows. -/
theorem foldlM_validateRow_eq_ok {ms : List ProtocolMutation} (acc : ℕ × ℕ) {acc' : ℕ × ℕ} :
    ms.foldlM (validateRow toText q) acc = .ok acc' ↔
      (∀ m ∈ ms, RowValid toText q m) ∧ (acc.1 :: ms.map (·.id)).Pairwise (· < ·) ∧
        acc' = ((ms.map (·.id)).getLastD acc.1,
          acc.2 + (ms.filter fun m => m.status = .pending).length) := by
  induction ms generalizing acc with
  | nil => simp [pure, Except.pure, eq_comm]
  | cons m ms ih =>
    rw [List.foldlM_cons]
    cases hrow : validateRow toText q acc m with
    | error e =>
      simp only [bind, Except.bind, reduceCtorEq, false_iff]
      rintro ⟨hrows, hasc, -⟩
      have hlt : acc.1 < m.id := (List.pairwise_cons.mp hasc).1 _ (by simp)
      have := validateRow_eq_ok.mpr ⟨⟨hrows m (by simp), hlt⟩, rfl⟩
      rw [hrow] at this
      cases this
    | ok mid =>
      obtain ⟨⟨hvalid, hlt⟩, rfl⟩ := validateRow_eq_ok.mp hrow
      simp only [bind, Except.bind, ih, List.map_cons, List.pairwise_cons, List.mem_cons,
        forall_eq_or_imp, hvalid, hlt, true_and, List.getLastD_cons, List.filter_cons,
        decide_eq_true_eq]
      have htrans : (∀ x ∈ ms.map (·.id), m.id < x) → ∀ x ∈ ms.map (·.id), acc.1 < x :=
        fun h x hx => hlt.trans (h x hx)
      have hlen : acc.2 + (if m.status = .pending then 1 else 0) +
          (ms.filter fun m => m.status = .pending).length =
          acc.2 + (if m.status = .pending then m :: ms.filter fun m => m.status = .pending
            else ms.filter fun m => m.status = .pending).length := by
        split
        · simp only [List.length_cons]
          omega
        · rfl
      rw [hlen]
      constructor
      · rintro ⟨hrows, ⟨hgt, hasc⟩, hacc⟩
        exact ⟨hrows, ⟨htrans hgt, hgt, hasc⟩, hacc⟩
      · rintro ⟨hrows, ⟨-, hgt, hasc⟩, hacc⟩
        exact ⟨hrows, ⟨hgt, hasc⟩, hacc⟩

theorem headValid_iff : HeadValid q ↔ ¬ (validScopeId q.clientId = false ∨
    q.maxPendingMutations = 0 ∨ q.maxQueuedPayloadBytes < 2 ∨
    (parseDecimal q.checkpoint).isNone ∨ q.nextMutationId = 0 ∨
    maxI64 + 1 < q.nextMutationId) := by
  simp only [not_or, Bool.not_eq_false, Option.isNone_iff_eq_none, ← Option.isSome_iff_ne_none,
    Nat.not_lt]
  constructor
  · intro h
    exact ⟨h.client, h.maxPending, h.maxBytes, h.checkpoint, h.nonzero, h.next⟩
  · rintro ⟨h1, h2, h3, h4, h5, h6⟩
    exact ⟨h1, h2, h3, h4, h5, h6⟩

/-- The specification of `validate`. -/
theorem validate_eq_ok : q.validate toText = .ok () ↔ Valid toText q := by
  unfold validate
  by_cases hhead : HeadValid q
  · rw [if_neg (headValid_iff.mp hhead)]
    have hpos : (∀ m ∈ q.mutations, RowValid toText q m) →
        ((q.mutations.map (·.id)).Pairwise (· < ·) ↔
          (0 :: q.mutations.map (·.id)).Pairwise (· < ·)) := by
      intro hrows
      rw [List.pairwise_cons, iff_and_self]
      intro _ id hid
      obtain ⟨m, hm, rfl⟩ := List.mem_map.mp hid
      exact (hrows m hm).positive
    cases hfold : q.mutations.foldlM (validateRow toText q) (0, 0) with
    | error e =>
      simp only [reduceCtorEq, false_iff]
      intro hvalid
      have := (foldlM_validateRow_eq_ok (0, 0)).mpr
        ⟨hvalid.rows, (hpos hvalid.rows).mp hvalid.ascending, rfl⟩
      rw [hfold] at this
      cases this
    | ok acc =>
      obtain ⟨hrows, hasc, rfl⟩ := (foldlM_validateRow_eq_ok (0, 0)).mp hfold
      simp only [Nat.zero_add]
      change (if q.maxPendingMutations < q.pending.length then _ else _) = _ ↔ _
      split
      · rename_i hlt
        simp only [reduceCtorEq, false_iff]
        exact fun hvalid => absurd hvalid.pending (by omega)
      · rename_i hle
        simp only [true_iff]
        exact ⟨hhead, hrows, (hpos hrows).mpr hasc, by omega⟩
  · rw [if_pos (by simpa only [headValid_iff, not_not] using hhead)]
    simp only [reduceCtorEq, false_iff]
    exact fun hvalid => hhead hvalid.toHeadValid

theorem Valid.nodup (h : Valid toText q) : (q.mutations.map (·.mutationId)).Nodup := by
  have hid : (q.mutations.map (·.id)).Nodup := h.ascending.imp fun hlt => Nat.ne_of_lt hlt
  have hmap : q.mutations.map (·.id) =
      (q.mutations.map (·.mutationId)).map fun s => (parseDecimal s).getD 0 := by
    simp [ProtocolMutation.id, Function.comp_def]
  rw [hmap] at hid
  exact hid.of_map _

theorem Valid.eq_of_id (h : Valid toText q) {a b : ProtocolMutation} (ha : a ∈ q.mutations)
    (hb : b ∈ q.mutations) (hid : a.id = b.id) : a = b :=
  List.inj_on_of_nodup_map (h.ascending.imp ne_of_lt) ha hb hid

theorem Valid.row_unique (h : Valid toText q) {a b : ProtocolMutation} (ha : a ∈ q.mutations)
    (hb : b ∈ q.mutations) (he : a.mutationId = b.mutationId) : a = b :=
  List.inj_on_of_nodup_map h.nodup ha hb he

/-- A queue that keeps the rows of a valid one, up to confirmation and pruning, is valid. -/
theorem Valid.keeps {q' : ProtocolQueue} (h : Valid toText q) (hk : Keeps q q') :
    Valid toText q' := by
  have hids : q'.mutations.map (·.id) =
      (q'.mutations.map (·.mutationId)).map fun s => (parseDecimal s).getD 0 := by
    simp [ProtocolMutation.id, Function.comp_def]
  have hids₀ : q.mutations.map (·.id) =
      (q.mutations.map (·.mutationId)).map fun s => (parseDecimal s).getD 0 := by
    simp [ProtocolMutation.id, Function.comp_def]
  have hasc : (q'.mutations.map (·.id)).Pairwise (· < ·) := by
    rw [hids]
    exact (hids₀ ▸ h.ascending).sublist (hk.ids.map _)
  refine ⟨⟨hk.client ▸ h.client, hk.maxPending ▸ h.maxPending, hk.maxBytes ▸ h.maxBytes, ?_,
    hk.next ▸ h.nonzero, hk.next ▸ h.next⟩, fun m hm => ?_, hasc, ?_⟩
  · rcases hk.checkpoint with hc | hc
    · rw [hc]
      exact h.checkpoint
    · exact hc
  · obtain ⟨r, hr, hmr⟩ := hk.mutations m hm
    have hrow := h.rows r hr
    have hbelow : r.id < q'.nextMutationId := hk.next ▸ hrow.below
    have hadm : Admitted toText q'.maxQueuedPayloadBytes r := hk.maxBytes ▸ hrow.toAdmitted
    rcases hmr with rfl | rfl
    · exact ⟨hadm, hrow.parses, hrow.positive, hbelow, hrow.base⟩
    · exact ⟨⟨hadm.table, hadm.record, hadm.content⟩, hrow.parses, hrow.positive, hbelow,
        hrow.base⟩
  · have hsub : q'.pending ⊆ q.pending := by
      intro m hm
      obtain ⟨hm, hs⟩ := List.mem_filter.mp hm
      obtain ⟨r, hr, hmr⟩ := hk.mutations m hm
      rcases hmr with rfl | rfl
      · exact List.mem_filter.mpr ⟨hr, hs⟩
      · simp at hs
    have hnodup : q'.pending.Nodup := by
      have : (q'.mutations.map (·.id)).Nodup := hasc.imp fun hlt => Nat.ne_of_lt hlt
      exact (List.Nodup.of_map _ this).filter _
    rw [hk.maxPending]
    exact ((hnodup.subperm hsub).length_le).trans h.pending

/-- Everything validation asks, but for the base revisions, in terms of the ledger. -/
structure Reached (toText : Json → String) (q : ProtocolQueue) (rows : List ProtocolMutation)
    (w : ℕ) : Prop extends Ledger q rows w where
  client : validScopeId q.clientId = true
  maxPending : q.maxPendingMutations ≠ 0
  maxBytes : 2 ≤ q.maxQueuedPayloadBytes
  checkpoint : (parseDecimal q.checkpoint).isSome = true
  admitted : ∀ m ∈ rows, Admitted toText q.maxQueuedPayloadBytes m
  capacity : q.pending.length ≤ q.maxPendingMutations

def BaseCanonical (m : ProtocolMutation) : Prop :=
  ∀ revision, m.baseRevision = some revision → (parseDecimal revision).isSome = true

variable {rows : List ProtocolMutation} {w : ℕ}

theorem Ledger.map_id (h : Ledger q rows w) : rows.map (·.id) = List.range' 1 rows.length := by
  apply List.ext_getElem
  · simp
  · intro i hi _
    have hi' : i < rows.length := by simpa using hi
    have hbound := h.bound
    have := ProtocolMutation.id_eq (h.mutationId_getElem hi')
      (by simp only [maxI64, maxU64] at *; omega)
    simp only [List.getElem_map, this, List.getElem_range', Nat.one_mul]
    omega

theorem Ledger.map_id_sublist (h : Ledger q rows w) :
    (q.mutations.map (·.id)).Sublist (rows.map (·.id)) := by
  obtain ⟨cs, hcs, hq⟩ := h.split
  have hids : ((rows.take w).map (·.confirm)).map (·.id) = (rows.take w).map (·.id) := by
    simp [Function.comp_def, ProtocolMutation.id]
  conv_rhs => rw [← List.take_append_drop w rows, List.map_append, ← hids]
  rw [hq, List.map_append]
  exact (hcs.map _).append_right _

theorem Ledger.ascending (h : Ledger q rows w) : (q.mutations.map (·.id)).Pairwise (· < ·) := by
  have hrange : (rows.map (·.id)).Pairwise (· < ·) := by
    rw [h.map_id]
    exact List.pairwise_lt_range'
  exact hrange.sublist h.map_id_sublist

theorem Reached.of_withLimits {clientId : String} {maxPending maxBytes : ℕ}
    (h : withLimits clientId maxPending maxBytes = .ok q) : Reached toText q [] 0 := by
  have hledger := Ledger.empty h
  have hzero : (parseDecimal "0").isSome = true := by decide
  unfold withLimits at h
  split at h
  · cases h
  · split at h
    · cases h
    · rename_i hclient
      split at h
      · cases h
      · rename_i hlimits
        cases h
        simp only [not_or, Nat.not_lt] at hlimits
        exact ⟨hledger, by simpa [empty] using hclient, hlimits.1, hlimits.2, hzero, by simp, Nat.zero_le _⟩

theorem Reached.follows (h : Reached toText q rows w) {call : QueueCall}
    {rows' : List ProtocolMutation} {w' : ℕ} (hf : Follows toText q rows w call rows' w') :
    Reached toText (call.perform toText q).2 rows' w' := by
  have hkeeps : rows' = rows → Keeps q (call.perform toText q).2 →
      Reached toText (call.perform toText q).2 rows' w' := by
    rintro rfl hk
    refine ⟨hf.ledger, hk.client ▸ h.client, hk.maxPending ▸ h.maxPending,
      hk.maxBytes ▸ h.maxBytes, ?_, hk.maxBytes ▸ h.admitted, ?_⟩
    · rcases hk.checkpoint with hc | hc
      · rw [hc]
        exact h.checkpoint
      · exact hc
    · have hcap := h.capacity
      have hadv := hf.advances
      rw [h.pending_eq, List.length_drop] at hcap
      rw [hf.ledger.pending_eq, hk.maxPending, List.length_drop]
      omega
  have heffect := hf.effect
  cases hout : (call.perform toText q).1 with
  | allocated id =>
    rw [hout] at heffect
    obtain ⟨-, m, -, rfl, henq, hadm, -⟩ := heffect
    refine ⟨hf.ledger, henq.client ▸ h.client, henq.maxPending ▸ h.maxPending,
      henq.maxBytes ▸ h.maxBytes, henq.checkpoint ▸ h.checkpoint, ?_, ?_⟩
    · intro r hr
      rw [henq.maxBytes]
      rcases List.mem_append.mp hr with hr | hr
      · exact h.admitted r hr
      · rwa [List.mem_singleton.mp hr]
    · have hroom := henq.room
      have hadv := hf.advances
      rw [h.pending_eq, List.length_drop] at hroom
      rw [hf.ledger.pending_eq, henq.maxPending, List.length_drop, List.length_append,
        List.length_singleton]
      omega
  | request request =>
    rw [hout] at heffect
    exact hkeeps heffect.1 heffect.2.1
  | acknowledged n | moved | pruned n | refused =>
    rw [hout] at heffect
    exact hkeeps heffect.1 heffect.2

theorem Reached.mem_row (h : Reached toText q rows w) {m : ProtocolMutation}
    (hm : m ∈ q.mutations) : ∃ r ∈ rows, m = r ∨ m = r.confirm := by
  rcases h.mem_cases hm with ⟨r, hr, rfl⟩ | hm
  · exact ⟨r, List.mem_of_mem_take hr, Or.inr rfl⟩
  · exact ⟨m, List.mem_of_mem_drop hm, Or.inl rfl⟩

theorem Reached.rowValid_iff (h : Reached toText q rows w) {m : ProtocolMutation}
    (hm : m ∈ q.mutations) : RowValid toText q m ↔ BaseCanonical m := by
  refine ⟨fun hv => hv.base, fun hbase => ?_⟩
  obtain ⟨r, hr, hmr⟩ := h.mem_row hm
  obtain ⟨i, hi, hrid, hid⟩ := h.mutationId_mem hr
  have hadm := h.admitted r hr
  have hmid : m.id = i + 1 := by rcases hmr with rfl | rfl <;> exact hid
  have hadm' : Admitted toText q.maxQueuedPayloadBytes m := by
    rcases hmr with rfl | rfl
    · exact hadm
    · exact ⟨hadm.table, hadm.record, hadm.content⟩
  have hnext := h.next
  exact ⟨hadm', h.parses m hm, by omega, by omega, hbase⟩

/-- A reached queue is valid exactly when its base revisions are canonical. -/
theorem Reached.valid_iff (h : Reached toText q rows w) :
    Valid toText q ↔ ∀ m ∈ q.mutations, BaseCanonical m := by
  refine ⟨fun hv m hm => (hv.rows m hm).base, fun hbase => ?_⟩
  have hnext := h.next
  have hbound := h.bound
  exact ⟨⟨h.client, h.maxPending, h.maxBytes, h.checkpoint, by omega, by omega⟩,
    fun m hm => (h.rowValid_iff hm).mpr (hbase m hm), h.ascending, h.capacity⟩

/-- The run lemma: every queue that calls lead to is a reached one. -/
theorem exists_reached {clientId : String} {maxPending maxBytes : ℕ}
    (h : withLimits clientId maxPending maxBytes = .ok q) (calls : List QueueCall) :
    ∃ rows w, Reached toText (run (fun q (call : QueueCall) => (call.perform toText q).2) q calls)
      rows w :=
  run_invariant (I := fun q => ∃ rows w, Reached toText q rows w)
    (fun _ call ⟨_, _, hr⟩ => by
      obtain ⟨rows', w', hf⟩ := hr.perform toText call
      exact ⟨rows', w', hr.follows hf⟩)
    ⟨[], 0, Reached.of_withLimits h⟩ calls

end ProtocolQueue
end OptoSync
