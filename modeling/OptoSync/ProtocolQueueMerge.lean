import OptoSync.ProtocolQueueValid

/-!
# Merging with the durable queue

`merge_concurrent_durable` rebases the queue a connection holds in memory onto the durable queue,
to which other connections may have appended. A failed merge keeps what it changed before it
failed.
-/
namespace OptoSync
open Decimal Transition

namespace ProtocolQueue

def sameImmutableMutation (left right : ProtocolMutation) : Bool :=
  left.mutationId = right.mutationId && left.operation = right.operation &&
    left.table = right.table && left.recordId = right.recordId && left.payload = right.payload &&
    left.baseRevision = right.baseRevision && left.resurrect = right.resurrect

/-- The loop over the own rows: each one takes over a confirmation of its durable copy. -/
def adoptStatuses (durable : List ProtocolMutation) :
    List ProtocolMutation → Except ProtocolError Unit × List ProtocolMutation
  | [] => (.ok (), [])
  | m :: ms =>
    match durable.find? fun candidate => candidate.mutationId = m.mutationId with
    | none => (.error .invalidQueueState, m :: ms)
    | some d =>
      if sameImmutableMutation m d = false then (.error .invalidQueueState, m :: ms)
      else
        let rest := adoptStatuses durable ms
        (rest.1, (if d.status = .confirmed then { m with status := .confirmed } else m) :: rest.2)

/-- The loop over the durable rows: the ones queued by others are appended to `mine`. -/
def importAppended (originalNext : ℕ) :
    List ProtocolMutation → List ProtocolMutation →
      Except ProtocolError Unit × List ProtocolMutation
  | mine, [] => (.ok (), mine)
  | mine, d :: ds =>
    if mine.any (·.mutationId = d.mutationId) = true then importAppended originalNext mine ds
    else
      match parseDecimal d.mutationId with
      | none => (.error .invalidDecimal, mine)
      | some id =>
        if originalNext ≤ id then importAppended originalNext (mine ++ [d]) ds
        else if d.status = .pending then (.error .invalidQueueState, mine)
        else importAppended originalNext mine ds

/-- `sort_by_key`, a stable sort, on ids that have been validated. -/
def sortById (ms : List ProtocolMutation) : List ProtocolMutation :=
  ms.insertionSort fun a b => a.id ≤ b.id

def mergeConcurrentDurable (toText : Json → String) (q durable : ProtocolQueue) :
    Except ProtocolError Unit × ProtocolQueue :=
  match q.validate toText, durable.validate toText with
  | .error e, _ => (.error e, q)
  | .ok (), .error e => (.error e, q)
  | .ok (), .ok () =>
    if q.clientId ≠ durable.clientId ∨ q.maxPendingMutations ≠ durable.maxPendingMutations ∨
        q.maxQueuedPayloadBytes ≠ durable.maxQueuedPayloadBytes ∨
        durable.nextMutationId < q.nextMutationId then
      (.error .invalidQueueState, q)
    else
      match adoptStatuses durable.mutations q.mutations with
      | (.error e, mutations) => (.error e, { q with mutations })
      | (.ok (), adopted) =>
        match importAppended q.nextMutationId adopted durable.mutations with
        | (.error e, mutations) => (.error e, { q with mutations })
        | (.ok (), imported) =>
          let sorted : ProtocolQueue :=
            { q with mutations := sortById imported, nextMutationId := durable.nextMutationId }
          match parseDecimal durable.checkpoint, parseDecimal q.checkpoint with
          | some theirs, some mine =>
            let merged := if mine < theirs then { sorted with checkpoint := durable.checkpoint }
              else sorted
            (merged.validate toText, merged)
          | _, _ => (.error .invalidDecimal, sorted)

/-- What the merge takes for granted of the in-memory queue `q` and the durable queue `d`. -/
structure Siblings (q d : ProtocolQueue) : Prop where
  client : d.clientId = q.clientId
  maxPending : d.maxPendingMutations = q.maxPendingMutations
  maxBytes : d.maxQueuedPayloadBytes = q.maxQueuedPayloadBytes
  next : q.nextMutationId ≤ d.nextMutationId
  content : ∀ r ∈ q.mutations, ∀ r' ∈ d.mutations, r'.mutationId = r.mutationId →
    r'.confirm = r.confirm

/-- Every row in memory is still in the durable queue. -/
def KnownDurably (q d : ProtocolQueue) : Prop :=
  ∀ r ∈ q.mutations, ∃ r' ∈ d.mutations, r'.mutationId = r.mutationId

/-- Every durable pending row that the memory can know is in memory. -/
def KnownInMemory (q d : ProtocolQueue) : Prop :=
  ∀ r ∈ d.mutations, r.status = .pending → r.id < q.nextMutationId →
    ∃ r' ∈ q.mutations, r'.mutationId = r.mutationId

instance (q d : ProtocolQueue) : Decidable (KnownDurably q d) :=
  inferInstanceAs (Decidable (∀ r ∈ q.mutations, ∃ r' ∈ d.mutations, r'.mutationId = r.mutationId))

instance (q d : ProtocolQueue) : Decidable (KnownInMemory q d) :=
  inferInstanceAs (Decidable (∀ r ∈ d.mutations, r.status = .pending → r.id < q.nextMutationId →
    ∃ r' ∈ q.mutations, r'.mutationId = r.mutationId))

/-- A row with the confirmation of its durable copy. -/
def adopted (durable : List ProtocolMutation) (m : ProtocolMutation) : ProtocolMutation :=
  if durable.any (fun d => d.mutationId = m.mutationId && d.status = .confirmed) = true then
    m.confirm else m

/-- The result of a merge, without its loops. -/
def merged (q d : ProtocolQueue) : ProtocolQueue :=
  { q with
    mutations := q.mutations.map (adopted d.mutations) ++
      d.mutations.filter fun r => q.nextMutationId ≤ r.id
    nextMutationId := d.nextMutationId
    checkpoint :=
      if (parseDecimal q.checkpoint).getD 0 < (parseDecimal d.checkpoint).getD 0 then d.checkpoint
      else q.checkpoint }

theorem sameImmutableMutation_iff {a b : ProtocolMutation} :
    sameImmutableMutation a b = true ↔ a.confirm = b.confirm := by
  obtain ⟨i, o, t, r, p, v, s, st⟩ := a
  obtain ⟨i', o', t', r', p', v', s', st'⟩ := b
  simp [sameImmutableMutation, ProtocolMutation.confirm, and_assoc]

theorem adopted_mutationId (durable : List ProtocolMutation) (m : ProtocolMutation) :
    (adopted durable m).mutationId = m.mutationId := by
  unfold adopted
  split <;> rfl

theorem adopted_id (durable : List ProtocolMutation) (m : ProtocolMutation) :
    (adopted durable m).id = m.id := by
  simp only [ProtocolMutation.id, adopted_mutationId]

variable {toText : Json → String} {q d : ProtocolQueue}

theorem adopted_of_find {durable : List ProtocolMutation}
    (hnodup : (durable.map (·.mutationId)).Nodup) {m d : ProtocolMutation} (hd : d ∈ durable)
    (hid : d.mutationId = m.mutationId) :
    (if d.status = .confirmed then { m with status := .confirmed } else m) = adopted durable m := by
  have hany : durable.any (fun d => d.mutationId = m.mutationId && d.status = .confirmed) = true ↔
      d.status = .confirmed := by
    rw [List.any_eq_true]
    constructor
    · rintro ⟨x, hx, hxm⟩
      simp only [Bool.and_eq_true, decide_eq_true_eq] at hxm
      have hxd : x = d := List.inj_on_of_nodup_map hnodup hx hd (hxm.1.trans hid.symm)
      exact hxd ▸ hxm.2
    · intro hs
      exact ⟨d, hd, by simp [hid, hs]⟩
  unfold adopted
  by_cases hs : d.status = .confirmed
  · rw [if_pos hs, if_pos (hany.mpr hs)]
    rfl
  · rw [if_neg hs, if_neg fun h => hs (hany.mp h)]

theorem adoptStatuses_eq {durable ms : List ProtocolMutation}
    (hnodup : (durable.map (·.mutationId)).Nodup)
    (hcontent : ∀ r ∈ ms, ∀ r' ∈ durable, r'.mutationId = r.mutationId → r'.confirm = r.confirm)
    (hknown : ∀ r ∈ ms, ∃ r' ∈ durable, r'.mutationId = r.mutationId) :
    adoptStatuses durable ms = (.ok (), ms.map (adopted durable)) := by
  induction ms with
  | nil => rfl
  | cons m ms ih =>
    have ih' := ih (fun r hr => hcontent r (List.mem_cons_of_mem _ hr))
      (fun r hr => hknown r (List.mem_cons_of_mem _ hr))
    obtain ⟨r', hr', hid'⟩ := hknown m List.mem_cons_self
    cases hfind : durable.find? fun candidate => candidate.mutationId = m.mutationId with
    | none =>
      have := List.find?_eq_none.mp hfind r' hr'
      exact absurd hid' (by simpa using this)
    | some d =>
      have hd : d ∈ durable := List.mem_of_find?_eq_some hfind
      have hid : d.mutationId = m.mutationId := by simpa using List.find?_some hfind
      have hsame : sameImmutableMutation m d = true :=
        sameImmutableMutation_iff.mpr (hcontent m List.mem_cons_self d hd hid).symm
      simp only [adoptStatuses, hfind, hsame, Bool.true_eq_false, ↓reduceIte, ih', List.map_cons,
        adopted_of_find hnodup hd hid]

theorem known_of_adoptStatuses {durable ms : List ProtocolMutation}
    (h : (adoptStatuses durable ms).1 = .ok ()) :
    ∀ r ∈ ms, ∃ r' ∈ durable, r'.mutationId = r.mutationId ∧ r'.confirm = r.confirm := by
  induction ms with
  | nil => simp
  | cons m ms ih =>
    unfold adoptStatuses at h
    cases hfind : durable.find? fun candidate => candidate.mutationId = m.mutationId with
    | none =>
      rw [hfind] at h
      cases h
    | some d =>
      rw [hfind] at h
      dsimp only at h
      split at h
      · cases h
      · rename_i hsame
        intro r hr
        rcases List.mem_cons.mp hr with rfl | hr
        · rw [Bool.not_eq_false, sameImmutableMutation_iff] at hsame
          exact ⟨d, List.mem_of_find?_eq_some hfind, by simpa using List.find?_some hfind,
            hsame.symm⟩
        · exact ih h r hr

theorem importAppended_eq (next : ℕ) (mine : List ProtocolMutation) {ds : List ProtocolMutation}
    (hparse : ∀ d ∈ ds, (parseDecimal d.mutationId).isSome = true)
    (hnodup : (ds.map (·.mutationId)).Nodup)
    (hknown : ∀ d ∈ ds, d.status = .pending → d.id < next →
      mine.any (·.mutationId = d.mutationId) = true) :
    importAppended next mine ds = (.ok (), mine ++ ds.filter fun d =>
      !mine.any (·.mutationId = d.mutationId) && next ≤ d.id) := by
  induction ds generalizing mine with
  | nil => simp [importAppended]
  | cons d ds ih =>
    rw [List.map_cons, List.nodup_cons] at hnodup
    have hparse' := fun x hx => hparse x (List.mem_cons_of_mem d hx)
    have hknown' := fun x hx => hknown x (List.mem_cons_of_mem d hx)
    obtain ⟨n, hn⟩ := Option.isSome_iff_exists.mp (hparse d List.mem_cons_self)
    have hdn : d.id = n := by simp [ProtocolMutation.id, hn]
    unfold importAppended
    by_cases hmine : mine.any (·.mutationId = d.mutationId) = true
    · rw [if_pos hmine, ih mine hparse' hnodup.2 hknown', List.filter_cons_of_neg (by simp [hmine])]
    · rw [if_neg hmine, hn]
      dsimp only
      by_cases hnext : next ≤ n
      · have hgrow : ∀ x ∈ ds, (mine ++ [d]).any (·.mutationId = x.mutationId) =
            mine.any (·.mutationId = x.mutationId) := by
          intro x hx
          have hne : d.mutationId ≠ x.mutationId := fun he =>
            hnodup.1 (he ▸ List.mem_map_of_mem hx)
          simp [hne]
        rw [if_pos hnext, ih (mine ++ [d]) hparse' hnodup.2 fun x hx hs hlt => by
            rw [hgrow x hx]
            exact hknown' x hx hs hlt,
          List.filter_cons_of_pos (by simp [hmine, hdn, hnext]), List.append_assoc]
        rw [List.singleton_append, List.filter_congr (fun x hx => by rw [hgrow x hx])]
      · have hstatus : d.status ≠ .pending := fun hs =>
          hmine (hknown d List.mem_cons_self hs (by omega))
        rw [if_neg hnext, if_neg hstatus, ih mine hparse' hnodup.2 hknown',
          List.filter_cons_of_neg (by simp [hdn, hnext])]

theorem known_of_importAppended {next : ℕ} {mine ds : List ProtocolMutation}
    (hparse : ∀ d ∈ ds, (parseDecimal d.mutationId).isSome = true)
    (hnodup : (ds.map (·.mutationId)).Nodup) (h : (importAppended next mine ds).1 = .ok ()) :
    ∀ d ∈ ds, d.status = .pending → d.id < next →
      mine.any (·.mutationId = d.mutationId) = true := by
  induction ds generalizing mine with
  | nil => simp
  | cons d ds ih =>
    rw [List.map_cons, List.nodup_cons] at hnodup
    have hparse' := fun x hx => hparse x (List.mem_cons_of_mem d hx)
    obtain ⟨n, hn⟩ := Option.isSome_iff_exists.mp (hparse d List.mem_cons_self)
    have hdn : d.id = n := by simp [ProtocolMutation.id, hn]
    unfold importAppended at h
    rw [hn] at h
    dsimp only at h
    intro x hx hs hlt
    rcases List.mem_cons.mp hx with rfl | hx
    · by_contra hmine
      rw [if_neg hmine, if_neg (by omega), if_pos hs] at h
      cases h
    · split_ifs at h with hmine hnext hstatus
      · exact ih hparse' hnodup.2 h x hx hs hlt
      · have := ih hparse' hnodup.2 h x hx hs hlt
        have hne : d.mutationId ≠ x.mutationId := fun he =>
          hnodup.1 (he ▸ List.mem_map_of_mem hx)
        simpa [hne] using this
      · exact ih hparse' hnodup.2 h x hx hs hlt

theorem any_mutationId_map_adopted (durable ms : List ProtocolMutation) (id : String) :
    (ms.map (adopted durable)).any (·.mutationId = id) = true ↔ ∃ r ∈ ms, r.mutationId = id := by
  simp [adopted_mutationId]

theorem merged_ascending (hq : Valid toText q) (hd : Valid toText d) :
    ((merged q d).mutations.map (·.id)).Pairwise (· < ·) := by
  have hown : (q.mutations.map (adopted d.mutations)).map (·.id) = q.mutations.map (·.id) := by
    simp [adopted_id, Function.comp_def]
  simp only [merged, List.map_append, hown]
  rw [List.pairwise_append]
  refine ⟨hq.ascending, hd.ascending.sublist (List.filter_sublist.map _), ?_⟩
  intro x hx y hy
  obtain ⟨r, hr, rfl⟩ := List.mem_map.mp hx
  obtain ⟨r', hr', rfl⟩ := List.mem_map.mp hy
  have hbelow := (hq.rows r hr).below
  have habove : q.nextMutationId ≤ r'.id := by simpa using (List.mem_filter.mp hr').2
  omega

theorem eq_of_confirm {a b : ProtocolMutation} (h : a.confirm = b.confirm)
    (hs : a.status = b.status) : a = b := by
  obtain ⟨i, o, t, r, p, v, s, st⟩ := a
  obtain ⟨i', o', t', r', p', v', s', st'⟩ := b
  simp_all [ProtocolMutation.confirm]

/-- A row of `q` stays pending in the result exactly when its durable copy is pending. -/
theorem adopted_pending (hd : Valid toText d) (hs : Siblings q d) {r r' : ProtocolMutation}
    (hr : r ∈ q.mutations) (hr' : r' ∈ d.mutations) (hid : r'.mutationId = r.mutationId) :
    (adopted d.mutations r).status = .pending ↔ r'.status = .pending ∧ r' = r := by
  rw [← adopted_of_find hd.nodup hr' hid]
  constructor
  · intro hp
    split at hp
    · cases hp
    · rename_i hconfirmed
      have hpending : r'.status = .pending := r'.status_eq.resolve_right hconfirmed
      exact ⟨hpending, eq_of_confirm (hs.content r hr r' hr' hid) (hpending.trans hp.symm)⟩
  · rintro ⟨hp, rfl⟩
    rw [if_neg (by simp [hp])]
    exact hp

theorem adopted_cases (durable : List ProtocolMutation) (m : ProtocolMutation) :
    adopted durable m = m ∨ adopted durable m = m.confirm := by
  unfold adopted
  split
  · exact Or.inr rfl
  · exact Or.inl rfl

/-- A pending row of the result is pending in the durable queue, and is in memory unless it was
appended. -/
theorem mem_merged_pending (hd : Valid toText d) (hs : Siblings q d) (hk : KnownDurably q d)
    {r : ProtocolMutation} :
    (r ∈ (merged q d).mutations ∧ r.status = .pending) ↔
      (r ∈ d.mutations ∧ r.status = .pending ∧ (r ∈ q.mutations ∨ q.nextMutationId ≤ r.id)) := by
  constructor
  · rintro ⟨hr, hp⟩
    rcases List.mem_append.mp hr with hr | hr
    · obtain ⟨r₀, hr₀, rfl⟩ := List.mem_map.mp hr
      obtain ⟨r', hr', hid⟩ := hk r₀ hr₀
      obtain ⟨-, rfl⟩ := (adopted_pending hd hs hr₀ hr' hid).mp hp
      rcases adopted_cases d.mutations r' with ha | ha
      · rw [ha] at hp ⊢
        exact ⟨hr', hp, Or.inl hr₀⟩
      · rw [ha] at hp
        cases hp
    · obtain ⟨hr, hnext⟩ := List.mem_filter.mp hr
      exact ⟨hr, hp, Or.inr (by simpa using hnext)⟩
  · rintro ⟨hr, hp, hq | hnext⟩
    · have ha := (adopted_pending hd hs hq hr rfl).mpr ⟨hp, rfl⟩
      refine ⟨List.mem_append_left _ (List.mem_map.mpr ⟨r, hq, ?_⟩), hp⟩
      rcases adopted_cases d.mutations r with h | h
      · exact h
      · rw [h] at ha
        cases ha
    · exact ⟨List.mem_append_right _ (List.mem_filter.mpr ⟨hr, by simpa using hnext⟩), hp⟩

theorem merged_valid (hq : Valid toText q) (hd : Valid toText d) (hs : Siblings q d)
    (hk : KnownDurably q d) : Valid toText (merged q d) := by
  have hhead : HeadValid (merged q d) := by
    refine ⟨hq.client, hq.maxPending, hq.maxBytes, ?_, hd.nonzero, hd.next⟩
    simp only [merged]
    split
    · exact hd.checkpoint
    · exact hq.checkpoint
  refine ⟨hhead, fun m hm => ?_, merged_ascending hq hd, ?_⟩
  · rcases List.mem_append.mp hm with hm | hm
    · obtain ⟨r, hr, rfl⟩ := List.mem_map.mp hm
      have hrow := hq.rows r hr
      have hbelow : r.id < d.nextMutationId := hrow.below.trans_le hs.next
      rcases adopted_cases d.mutations r with h | h
      · rw [h]
        exact ⟨hrow.toAdmitted, hrow.parses, hrow.positive, hbelow, hrow.base⟩
      · rw [h]
        exact ⟨⟨hrow.table, hrow.record, hrow.content⟩, hrow.parses, hrow.positive, hbelow,
          hrow.base⟩
    · obtain ⟨hm, -⟩ := List.mem_filter.mp hm
      have hrow := hd.rows m hm
      refine ⟨?_, hrow.parses, hrow.positive, hrow.below, hrow.base⟩
      have := hrow.toAdmitted
      rwa [hs.maxBytes] at this
  · have hsub : (merged q d).pending ⊆ d.pending := by
      intro r hr
      obtain ⟨hr, hstatus⟩ := List.mem_filter.mp hr
      have := (mem_merged_pending hd hs hk).mp ⟨hr, by simpa using hstatus⟩
      exact List.mem_filter.mpr ⟨this.1, by simpa using this.2.1⟩
    have hnodup : (merged q d).pending.Nodup := by
      have : ((merged q d).mutations.map (·.id)).Nodup :=
        (merged_ascending hq hd).imp fun h => Nat.ne_of_lt h
      exact (List.Nodup.of_map _ this).filter _
    have hle : (merged q d).pending.length ≤ d.pending.length :=
      (hnodup.subperm hsub).length_le
    have hcap := hd.pending
    rw [hs.maxPending] at hcap
    exact hle.trans hcap

/-- The specification of the merge of two copies of one queue. -/
theorem merge_eq (hq : Valid toText q) (hd : Valid toText d) (hs : Siblings q d)
    (hk : KnownDurably q d) (hm : KnownInMemory q d) :
    q.mergeConcurrentDurable toText d = (.ok (), merged q d) := by
  have hguard : ¬ (q.clientId ≠ d.clientId ∨ q.maxPendingMutations ≠ d.maxPendingMutations ∨
      q.maxQueuedPayloadBytes ≠ d.maxQueuedPayloadBytes ∨
      d.nextMutationId < q.nextMutationId) := by
    have hnext := hs.next
    simp [hs.client, hs.maxPending, hs.maxBytes, hnext]
  have himport := importAppended_eq q.nextMutationId
    (q.mutations.map (adopted d.mutations)) (fun r hr => (hd.rows r hr).parses) hd.nodup
    fun r hr hp hlt => (any_mutationId_map_adopted _ _ _).mpr (hm r hr hp hlt)
  have hfilter : d.mutations.filter (fun r =>
      !(q.mutations.map (adopted d.mutations)).any (·.mutationId = r.mutationId) &&
        q.nextMutationId ≤ r.id) = d.mutations.filter fun r => q.nextMutationId ≤ r.id := by
    apply List.filter_congr
    intro r hr
    by_cases hnext : q.nextMutationId ≤ r.id
    · have hnone : ¬ (q.mutations.map (adopted d.mutations)).any
          (·.mutationId = r.mutationId) = true := by
        rw [any_mutationId_map_adopted]
        rintro ⟨r₀, hr₀, hid⟩
        have hbelow := (hq.rows r₀ hr₀).below
        simp only [ProtocolMutation.id, hid] at hbelow hnext
        omega
      simp [hnone, hnext]
    · simp [hnext]
  rw [hfilter] at himport
  have hsorted : sortById (merged q d).mutations = (merged q d).mutations := by
    have hascending := List.pairwise_map.mp (merged_ascending hq hd)
    exact (hascending.imp fun h => h.le).insertionSort_eq
  obtain ⟨mine, hmine⟩ := Option.isSome_iff_exists.mp hq.checkpoint
  obtain ⟨theirs, htheirs⟩ := Option.isSome_iff_exists.mp hd.checkpoint
  have hvalid := validate_eq_ok.mpr (merged_valid hq hd hs hk)
  simp only [merged] at hsorted
  unfold mergeConcurrentDurable
  rw [validate_eq_ok.mpr hq, validate_eq_ok.mpr hd]
  simp only [if_neg hguard, adoptStatuses_eq hd.nodup hs.content hk, himport, hmine, htheirs,
    hsorted]
  by_cases hlt : mine < theirs
  · simp only [merged, hmine, htheirs, Option.getD_some, if_pos hlt] at hvalid ⊢
    rw [hvalid]
  · simp only [merged, hmine, htheirs, Option.getD_some, if_neg hlt] at hvalid ⊢
    rw [hvalid]

/-- What a merge that succeeds has checked. -/
theorem known_of_merge (h : (q.mergeConcurrentDurable toText d).1 = .ok ()) :
    Valid toText q ∧ Valid toText d ∧ Siblings q d ∧ KnownDurably q d ∧ KnownInMemory q d := by
  unfold mergeConcurrentDurable at h
  cases hvq : q.validate toText with
  | error e =>
    rw [hvq] at h
    cases h
  | ok u =>
    cases hvd : d.validate toText with
    | error e =>
      rw [hvq, hvd] at h
      cases h
    | ok u' =>
      have hq := validate_eq_ok.mp hvq
      have hd := validate_eq_ok.mp hvd
      rw [hvq, hvd] at h
      dsimp only at h
      split at h
      · cases h
      · rename_i hguard
        simp only [not_or, not_not, not_lt] at hguard
        obtain ⟨hclient, hmaxPending, hmaxBytes, hnext⟩ := hguard
        rcases hadopt : adoptStatuses d.mutations q.mutations with ⟨result, adopted'⟩
        rw [hadopt] at h
        cases result with
        | error e => cases h
        | ok u'' =>
          have hknown := known_of_adoptStatuses (by rw [hadopt])
          have hs : Siblings q d := by
            refine ⟨hclient.symm, hmaxPending.symm, hmaxBytes.symm, hnext, fun r hr r' hr' hid => ?_⟩
            obtain ⟨r'', hr'', hid', hconfirm⟩ := hknown r hr
            rwa [hd.row_unique hr' hr'' (hid.trans hid'.symm)]
          have hk : KnownDurably q d := by
            intro r hr
            obtain ⟨r', hr', hid, -⟩ := hknown r hr
            exact ⟨r', hr', hid⟩
          have hadopted := adoptStatuses_eq hd.nodup hs.content hk
          rw [hadopt, Prod.mk.injEq] at hadopted
          rcases himport : importAppended q.nextMutationId adopted' d.mutations with
            ⟨result, imported⟩
          dsimp only at h
          rw [himport] at h
          cases result with
          | error e => cases h
          | ok u'' =>
            refine ⟨hq, hd, hs, hk, fun r hr hp hlt => ?_⟩
            have := known_of_importAppended (fun r hr => (hd.rows r hr).parses) hd.nodup
              (by rw [himport]) r hr hp hlt
            rw [hadopted.2] at this
            exact (any_mutationId_map_adopted _ _ _).mp this

end ProtocolQueue
end OptoSync
