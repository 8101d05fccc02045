import OptoSync.ProtocolQueueMergeRun

/-!
# A connection's queue and the durable queue

Several connections share one durable queue; each holds a copy that may be behind. `Tracks` is the
relation that the store keeps up between any copy and the durable queue: the copy lacks the rows
appended since, and has confirmed nothing that the durable queue still has as pending.
-/
namespace OptoSync
open Decimal

theorem eq_of_ascending {α κ : Type*} [Preorder κ] {f : α → κ} {l l' : List α}
    (h : (l.map f).Pairwise (· < ·)) (h' : (l'.map f).Pairwise (· < ·))
    (hmem : ∀ a, a ∈ l ↔ a ∈ l') : l = l' := by
  rw [List.pairwise_map] at h h'
  have hanti : Std.Antisymm fun a b : α => f a < f b := ⟨fun a b hab hba => absurd hab hba.asymm⟩
  have hirrefl : Std.Irrefl fun a b : α => f a < f b := ⟨fun a => lt_irrefl _⟩
  exact List.Pairwise.eq_of_mem_iff h h' hmem

theorem filter_append_filter {α : Type*} {f : α → ℕ} {l : List α}
    (h : (l.map f).Pairwise (· < ·)) (n : ℕ) :
    l.filter (fun a => f a < n) ++ l.filter (fun a => n ≤ f a) = l := by
  refine eq_of_ascending (f := f) ?_ h fun a => ?_
  · rw [List.map_append, List.pairwise_append]
    refine ⟨h.sublist (List.filter_sublist.map _), h.sublist (List.filter_sublist.map _), ?_⟩
    intro x hx y hy
    obtain ⟨a, ha, rfl⟩ := List.mem_map.mp hx
    obtain ⟨b, hb, rfl⟩ := List.mem_map.mp hy
    have hlt : f a < n := by simpa using (List.mem_filter.mp ha).2
    have hge : n ≤ f b := by simpa using (List.mem_filter.mp hb).2
    omega
  · simp only [List.mem_append, List.mem_filter, decide_eq_true_eq]
    have := Nat.lt_or_ge (f a) n
    tauto

namespace ProtocolQueue

def position (q : ProtocolQueue) : ℕ := (parseDecimal q.checkpoint).getD 0

structure Tracks (toText : Json → String) (q d : ProtocolQueue) : Prop where
  valid : Valid toText q
  siblings : Siblings q d
  own : ∀ r ∈ q.mutations, ∃ r' ∈ d.mutations, r'.mutationId = r.mutationId ∧
    (r.status = .confirmed → r'.status = .confirmed)
  known : ∀ r ∈ d.mutations, r.id < q.nextMutationId →
    ∃ r' ∈ q.mutations, r'.mutationId = r.mutationId
  behind : q.position ≤ d.position

/-- The queue after the rows up to a watermark are confirmed. -/
def settled (q : ProtocolQueue) (watermark : ℕ) : ProtocolQueue :=
  { q with mutations := q.mutations.map (·.settle watermark) }

variable {toText : Json → String} {q d : ProtocolQueue}

theorem Tracks.refl (h : Valid toText q) : Tracks toText q q :=
  ⟨h, ⟨rfl, rfl, rfl, le_rfl, fun r hr r' hr' hid => by rw [h.row_unique hr' hr hid]⟩,
    fun r hr => ⟨r, hr, rfl, id⟩, fun r hr _ => ⟨r, hr, rfl⟩, le_rfl⟩

@[simp] theorem settle_confirm (w : ℕ) (m : ProtocolMutation) :
    (m.settle w).confirm = m.confirm := by
  unfold ProtocolMutation.settle
  split <;> rfl

@[simp] theorem settle_id (w : ℕ) (m : ProtocolMutation) : (m.settle w).id = m.id := by
  simp only [ProtocolMutation.id, ProtocolMutation.settle_mutationId]

theorem settle_cases (w : ℕ) (m : ProtocolMutation) : m.settle w = m ∨ m.settle w = m.confirm := by
  unfold ProtocolMutation.settle
  split
  · exact .inr rfl
  · exact .inl rfl

theorem keeps_settled (q : ProtocolQueue) (w : ℕ) : Keeps q (q.settled w) :=
  .of_rows rfl rfl rfl rfl rfl rfl (List.forall₂_map_left_iff.mpr
    (List.forall₂_same.mpr fun m _ => settle_cases w m))

/-- A copy with some rows newly confirmed and a new checkpoint: what a driver offers the store. -/
def moved (q : ProtocolQueue) (watermark : ℕ) (checkpoint : String) : ProtocolQueue :=
  { q.settled watermark with checkpoint }

theorem keeps_moved (q : ProtocolQueue) (w : ℕ) {checkpoint : String}
    (h : (parseDecimal checkpoint).isSome = true) : Keeps q (q.moved w checkpoint) := by
  obtain ⟨hc, hn, -, hm, hi, hp, hb, hpol⟩ := keeps_settled q w
  exact ⟨hc, hn, .inr h, hm, hi, hp, hb, hpol⟩

/-- Watermark 0 settles nothing. -/
theorem moved_zero (h : Valid toText q) (checkpoint : String) :
    q.moved 0 checkpoint = { q with checkpoint } := by
  have hrows : q.mutations.map (·.settle 0) = q.mutations := by
    refine (List.map_congr_left fun m hm => ?_).trans (List.map_id' _)
    exact ProtocolMutation.settle_gt (h.rows m hm).positive
  simp only [moved, settled, hrows]

/-- What the store makes of the durable queue when a copy that tracks it is merged into it. -/
def rebased (q d : ProtocolQueue) (watermark : ℕ) (checkpoint : String) : ProtocolQueue :=
  { d.settled watermark with
    consistencyPolicies := q.consistencyPolicies
    checkpoint :=
      if (parseDecimal checkpoint).getD 0 < d.position then d.checkpoint else checkpoint }

/-- A confirmation in memory and one adopted from the durable queue give the same row. -/
theorem Tracks.adopted_settle (h : Tracks toText q d) (hd : Valid toText d) (w : ℕ)
    {r r' : ProtocolMutation} (hr : r ∈ q.mutations) (hr' : r' ∈ d.mutations)
    (hid : r'.mutationId = r.mutationId) : adopted d.mutations (r.settle w) = r'.settle w := by
  have hcontent := h.siblings.content r hr r' hr' hid
  rw [← adopted_of_find hd.nodup hr' (hid.trans (ProtocolMutation.settle_mutationId w r).symm)]
  rcases r'.status_eq with hs | hs
  · have hrs : r.status = .pending := by
      refine r.status_eq.resolve_right fun hc => ?_
      obtain ⟨r'', hr'', hid', hconf⟩ := h.own r hr
      rw [hd.row_unique hr'' hr' (hid'.trans hid.symm), hs] at hconf
      exact absurd (hconf hc) (by simp)
    rw [if_neg (by simp [hs]), eq_of_confirm hcontent (hs.trans hrs.symm)]
  · rw [if_pos hs, ProtocolMutation.settle_confirmed hs]
    have hconfirm : ({ r.settle w with status := .confirmed } : ProtocolMutation) = r.confirm :=
      settle_confirm w r
    rw [hconfirm, ← hcontent]
    exact eq_of_confirm rfl hs.symm

theorem Tracks.merged_moved (h : Tracks toText q d) (hd : Valid toText d) {w : ℕ}
    (hw : w < q.nextMutationId) (checkpoint : String) :
    merged (q.moved w checkpoint) d = rebased q d w checkpoint := by
  have hown : (q.mutations.map (·.settle w)).map (adopted d.mutations) =
      (d.mutations.filter fun r => r.id < q.nextMutationId).map (·.settle w) := by
    refine eq_of_ascending (f := (·.id)) ?_ ?_ fun a => ?_
    · simpa [adopted_id, Function.comp_def] using h.valid.ascending
    · simpa [Function.comp_def] using hd.ascending.sublist (List.filter_sublist.map _)
    · simp only [List.mem_map, List.map_map, List.mem_filter, decide_eq_true_eq,
        Function.comp_apply]
      constructor
      · intro hrow
        obtain ⟨r, hr, ha⟩ := hrow
        obtain ⟨r', hr', hid, -⟩ := h.own r hr
        have hbelow := (h.valid.rows r hr).below
        refine ⟨r', ⟨hr', ?_⟩, (h.adopted_settle hd w hr hr' hid).symm.trans ha⟩
        rwa [ProtocolMutation.id, hid]
      · intro hrow
        obtain ⟨r', ⟨hr', hlt⟩, ha⟩ := hrow
        obtain ⟨r, hr, hid⟩ := h.known r' hr' hlt
        exact ⟨r, hr, (h.adopted_settle hd w hr hr' hid.symm).trans ha⟩
  have htail : d.mutations.filter (fun r => q.nextMutationId ≤ r.id) =
      (d.mutations.filter fun r => q.nextMutationId ≤ r.id).map (·.settle w) := by
    have hkeep : ∀ r ∈ d.mutations.filter (fun r => q.nextMutationId ≤ r.id), r.settle w = r := by
      intro r hr
      have hnext : q.nextMutationId ≤ r.id := by simpa using (List.mem_filter.mp hr).2
      exact ProtocolMutation.settle_gt (by omega)
    rw [List.map_congr_left hkeep, List.map_id']
  have hmutations : (merged (q.moved w checkpoint) d).mutations = d.mutations.map (·.settle w) := by
    show (q.mutations.map (·.settle w)).map (adopted d.mutations) ++
      d.mutations.filter (fun r => q.nextMutationId ≤ r.id) = _
    rw [hown, htail, ← List.map_append, filter_append_filter hd.ascending]
  simp only [merged, moved, settled] at hmutations
  simp only [merged, moved, settled, rebased, hmutations, position, h.siblings.client,
    h.siblings.maxPending, h.siblings.maxBytes]
  rfl

theorem Tracks.merge_moved (h : Tracks toText q d) (hd : Valid toText d) {w : ℕ}
    (hw : w < q.nextMutationId) {checkpoint : String}
    (hc : (parseDecimal checkpoint).isSome = true) :
    (q.moved w checkpoint).mergeConcurrentDurable toText d = (.ok (), rebased q d w checkpoint) := by
  have hvalid := h.valid.keeps (keeps_moved q w hc)
  have hs : Siblings (q.moved w checkpoint) d := by
    refine ⟨h.siblings.client, h.siblings.maxPending, h.siblings.maxBytes, h.siblings.next, ?_⟩
    intro r hr r' hr' hid
    obtain ⟨r₀, hr₀, rfl⟩ := List.mem_map.mp hr
    rw [settle_confirm]
    exact h.siblings.content r₀ hr₀ r' hr' (hid.trans (ProtocolMutation.settle_mutationId w r₀))
  have hk : KnownDurably (q.moved w checkpoint) d := by
    intro r hr
    obtain ⟨r₀, hr₀, rfl⟩ := List.mem_map.mp hr
    obtain ⟨r', hr', hid, -⟩ := h.own r₀ hr₀
    exact ⟨r', hr', hid.trans (ProtocolMutation.settle_mutationId w r₀).symm⟩
  have hm : KnownInMemory (q.moved w checkpoint) d := by
    intro r hr _ hlt
    obtain ⟨r', hr', hid⟩ := h.known r hr hlt
    exact ⟨r'.settle w, List.mem_map_of_mem hr', by rwa [ProtocolMutation.settle_mutationId]⟩
  rw [merge_eq hvalid hd hs hk hm, h.merged_moved hd hw]

theorem rebased_valid (q : ProtocolQueue) (hd : Valid toText d) (w : ℕ) {checkpoint : String}
    (hc : (parseDecimal checkpoint).isSome = true) : Valid toText (rebased q d w checkpoint) := by
  have hcheckpoint : (parseDecimal (rebased q d w checkpoint).checkpoint).isSome = true := by
    simp only [rebased]
    split
    · exact hd.checkpoint
    · exact hc
  have hvalid := hd.keeps (keeps_moved d w hcheckpoint)
  refine ⟨⟨hvalid.client, hvalid.maxPending, hvalid.maxBytes, hvalid.checkpoint, hvalid.nonzero,
    hvalid.next⟩, fun m hm => ?_, hvalid.ascending, hvalid.pending⟩
  have hrow := hvalid.rows m hm
  exact ⟨hrow.toAdmitted, hrow.parses, hrow.positive, hrow.below, hrow.base⟩

theorem rebased_position (q d : ProtocolQueue) (w : ℕ) (checkpoint : String) :
    (rebased q d w checkpoint).position =
      max d.position ((parseDecimal checkpoint).getD 0) := by
  show (parseDecimal (rebased q d w checkpoint).checkpoint).getD 0 = _
  unfold rebased
  dsimp only
  split
  · rename_i hlt
    rw [max_eq_left hlt.le]
    rfl
  · rename_i hle
    rw [max_eq_right (Nat.not_lt.mp hle)]

/-- A copy keeps tracking when another connection commits. -/
theorem Tracks.rebased {q' : ProtocolQueue} (h : Tracks toText q d) (w : ℕ) {checkpoint : String} :
    Tracks toText q (rebased q' d w checkpoint) := by
  refine ⟨h.valid, ⟨h.siblings.client, h.siblings.maxPending, h.siblings.maxBytes,
    h.siblings.next, ?_⟩, ?_, ?_, ?_⟩
  · intro r hr r' hr' hid
    obtain ⟨r₀, hr₀, rfl⟩ := List.mem_map.mp hr'
    rw [settle_confirm]
    exact h.siblings.content r hr r₀ hr₀ ((ProtocolMutation.settle_mutationId w r₀).symm.trans hid)
  · intro r hr
    obtain ⟨r', hr', hid, hconf⟩ := h.own r hr
    refine ⟨r'.settle w, List.mem_map_of_mem hr', ?_, fun hc => ?_⟩
    · rwa [ProtocolMutation.settle_mutationId]
    · rw [ProtocolMutation.settle_confirmed (hconf hc)]
      exact hconf hc
  · intro r hr hlt
    obtain ⟨r₀, hr₀, rfl⟩ := List.mem_map.mp hr
    rw [settle_id] at hlt
    obtain ⟨r', hr', hid⟩ := h.known r₀ hr₀ hlt
    exact ⟨r', hr', by rwa [ProtocolMutation.settle_mutationId]⟩
  · rw [rebased_position]
    exact h.behind.trans (le_max_left _ _)

/-- A copy keeps tracking when another connection queues an edit. -/
theorem Tracks.enqueued {d' : ProtocolQueue} {m : ProtocolMutation} (h : Tracks toText q d)
    (henq : Enqueued d d' m) (hm : d.nextMutationId ≤ m.id) : Tracks toText q d' := by
  refine ⟨h.valid, ⟨henq.client.trans h.siblings.client, henq.maxPending.trans h.siblings.maxPending,
    henq.maxBytes.trans h.siblings.maxBytes, ?_, ?_⟩, ?_, ?_, ?_⟩
  · rw [henq.next]
    exact h.siblings.next.trans (Nat.le_succ _)
  · intro r hr r' hr' hid
    rw [henq.mutations] at hr'
    rcases List.mem_append.mp hr' with hr' | hr'
    · exact h.siblings.content r hr r' hr' hid
    · have hbelow := (h.valid.rows r hr).below
      have hnext := h.siblings.next
      rw [ProtocolMutation.id, ← hid, List.mem_singleton.mp hr'] at hbelow
      rw [ProtocolMutation.id] at hm
      omega
  · intro r hr
    obtain ⟨r', hr', hrr⟩ := h.own r hr
    exact ⟨r', henq.mutations ▸ List.mem_append_left _ hr', hrr⟩
  · intro r hr hlt
    rw [henq.mutations] at hr
    rcases List.mem_append.mp hr with hr | hr
    · exact h.known r hr hlt
    · rw [List.mem_singleton.mp hr] at hlt
      have hnext := h.siblings.next
      omega
  · have hposition : d'.position = d.position := by rw [position, henq.checkpoint, position]
    rw [hposition]
    exact h.behind

end ProtocolQueue
end OptoSync
