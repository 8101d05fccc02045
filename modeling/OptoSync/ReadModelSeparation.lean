import OptoSync.ReadModelDelivery

/-!
# Separation in the read model

Records meet only where their keys are equal, and the clients of the overlay only where their
mutation ids are: the key joins table and record with a NUL, and acknowledgements carry no client.
-/
namespace OptoSync.ReadModel
open StringMap

variable {π : Type}

def BaseRow.record (row : BaseRow π) : String × String := (row.table, row.recordId)

def OverlayEntry.record (entry : OverlayEntry π) : String × String := (entry.table, entry.recordId)

def ProjectedRow.record (row : ProjectedRow π) : String × String := (row.table, row.recordId)

/-- What of an input concerns one record. -/
def ReadReconciliationInput.restrict (input : ReadReconciliationInput π)
    (record : String × String) : ReadReconciliationInput π :=
  let overlay := input.overlay.filter fun entry => entry.record = record
  { localBase := input.localBase.filter fun row => row.record = record
    overlay
    remote := input.remote.filter fun row => row.record = record
    acknowledgedMutationIds := input.acknowledgedMutationIds.filter fun mutationId =>
      mutationId ∈ overlay.map OverlayEntry.mutationId }

def ReadReconciliationInput.acknowledge (input : ReadReconciliationInput π) (mutationId : String) :
    ReadReconciliationInput π :=
  { input with acknowledgedMutationIds := mutationId :: input.acknowledgedMutationIds }

/-- The overlay entries that one more acknowledged mutation id takes from view. -/
def ReadReconciliationInput.removed (input : ReadReconciliationInput π) (mutationId : String) :
    List (OverlayEntry π) :=
  input.overlay.filter fun entry =>
    input.isVisible entry && !(input.acknowledge mutationId).isVisible entry

/-- Each record comes out as if there were no others. -/
def SeparatesRecords (input : ReadReconciliationInput π) (rows : List (ProjectedRow π)) : Prop :=
  ∀ record, Rust.reconcileReadModel (input.restrict record) =
    .ok (rows.filter fun row => row.record = record)

def SeparatesClients (input : ReadReconciliationInput π) : Prop :=
  ∀ mutationId, ∀ a ∈ input.removed mutationId, ∀ b ∈ input.removed mutationId,
    a.clientId = b.clientId

/-- A record with a row or a visible overlay entry. -/
def Present (input : ReadReconciliationInput π) (record : String × String) : Prop :=
  (∃ row ∈ input.localBase ++ input.remote, row.record = record) ∨
    ∃ entry ∈ input.overlay, input.isVisible entry = true ∧ entry.record = record

def KeysDistinct (input : ReadReconciliationInput π) : Prop :=
  ∀ a b, Present input a → Present input b → recordKey a.1 a.2 = recordKey b.1 b.2 → a = b

def MutationsDistinct (input : ReadReconciliationInput π) : Prop :=
  ∀ a ∈ input.overlay, ∀ b ∈ input.overlay, input.isVisible a = true → input.isVisible b = true →
    a.mutationId = b.mutationId → a.clientId = b.clientId

theorem applyOverlay_ok_iff (acknowledged : List String) (entry : OverlayEntry π)
    (working : Rust.BTreeMap (ProjectedRow π)) :
    (∃ rows, Rust.host.applyOverlay acknowledged working entry = .ok rows) ↔
      (entry.mutationId ∉ acknowledged → ∃ policy,
        Rust.canonicalizeConsistencyPolicy entry.consistencyPolicy = .ok policy) := by
  unfold Host.applyOverlay
  by_cases hacknowledged : entry.mutationId ∈ acknowledged
  · simp [hacknowledged, pure, Except.pure]
  · cases hpolicy : Rust.canonicalizeConsistencyPolicy entry.consistencyPolicy with
    | error message => simp [hacknowledged, Rust.host, hpolicy, bind, Except.bind]
    | ok policy =>
      by_cases hhidden : entry.status = "pending" ∧ policy = .remoteAcknowledged
      · simp [hacknowledged, Rust.host, hpolicy, hhidden, bind, Except.bind, pure, Except.pure]
      · simp [hacknowledged, Rust.host, hpolicy, hhidden, bind, Except.bind, pure, Except.pure]

theorem overlayRows_ok_iff (acknowledged : List String) (entries : List (OverlayEntry π))
    (working : Rust.BTreeMap (ProjectedRow π)) :
    (∃ rows, entries.foldlM (Rust.host.applyOverlay acknowledged) working = .ok rows) ↔
      ∀ entry ∈ entries, entry.mutationId ∉ acknowledged → ∃ policy,
        Rust.canonicalizeConsistencyPolicy entry.consistencyPolicy = .ok policy := by
  induction entries generalizing working with
  | nil => simp [pure, Except.pure]
  | cons entry entries ih =>
    rw [List.forall_mem_cons, ← applyOverlay_ok_iff acknowledged entry working, List.foldlM_cons]
    constructor
    · rintro ⟨rows, hrows⟩
      obtain ⟨next, hnext, hrest⟩ := Transition.bind_eq_ok.mp hrows
      exact ⟨⟨next, hnext⟩, (ih next).mp ⟨rows, hrest⟩⟩
    · rintro ⟨⟨next, hnext⟩, hrest⟩
      obtain ⟨rows, hrows⟩ := (ih next).mpr hrest
      exact ⟨rows, Transition.bind_eq_ok.mpr ⟨next, hnext, hrows⟩⟩

theorem reconcile_ok_iff (input : ReadReconciliationInput π) :
    (∃ rows, Rust.reconcileReadModel input = .ok rows) ↔
      ∀ entry ∈ input.overlay, entry.mutationId ∉ input.acknowledgedMutationIds → ∃ policy,
        Rust.canonicalizeConsistencyPolicy entry.consistencyPolicy = .ok policy := by
  rw [← overlayRows_ok_iff input.acknowledgedMutationIds input.overlay
    (Rust.host.authoritativeRows input)]
  constructor
  · rintro ⟨rows, hrows⟩
    obtain ⟨working, hworking, -⟩ := reconcile_eq_ok hrows
    exact ⟨working, hworking⟩
  · rintro ⟨working, hworking⟩
    exact ⟨_, Transition.bind_eq_ok.mpr ⟨working, hworking, rfl⟩⟩

theorem mem_restrict_acknowledged {input : ReadReconciliationInput π} {entry : OverlayEntry π}
    (hentry : entry ∈ input.overlay) :
    entry.mutationId ∈ (input.restrict entry.record).acknowledgedMutationIds ↔
      entry.mutationId ∈ input.acknowledgedMutationIds := by
  have hmem : entry.mutationId ∈ (input.overlay.filter fun other =>
      other.record = entry.record).map OverlayEntry.mutationId :=
    List.mem_map_of_mem (List.mem_filter.mpr ⟨hentry, decide_eq_true rfl⟩)
  simp only [ReadReconciliationInput.restrict, List.mem_filter, hmem, decide_true, and_true]

theorem isVisible_restrict {input : ReadReconciliationInput π} {entry : OverlayEntry π}
    (hentry : entry ∈ input.overlay) :
    (input.restrict entry.record).isVisible entry = input.isVisible entry := by
  unfold ReadReconciliationInput.isVisible
  simp only [mem_restrict_acknowledged hentry]

theorem visible_restrict (input : ReadReconciliationInput π) (record : String × String) :
    (input.restrict record).overlay.filter (input.restrict record).isVisible =
      (input.overlay.filter input.isVisible).filter fun entry => entry.record = record := by
  show (input.overlay.filter _).filter _ = _
  rw [List.filter_filter, List.filter_filter]
  refine List.filter_congr fun entry hentry => ?_
  by_cases hrecord : entry.record = record
  · subst hrecord
    rw [isVisible_restrict hentry, Bool.and_comm]
  · simp [hrecord]

theorem restrict_ok {input : ReadReconciliationInput π} {rows : List (ProjectedRow π)}
    (h : Rust.reconcileReadModel input = .ok rows) (record : String × String) :
    ∃ rows, Rust.reconcileReadModel (input.restrict record) = .ok rows := by
  rw [reconcile_ok_iff]
  intro entry hentry hpending
  obtain ⟨hmem, hrecord⟩ := List.mem_filter.mp hentry
  obtain rfl := of_decide_eq_true hrecord
  exact (reconcile_ok_iff input).mp ⟨rows, h⟩ entry hmem
    fun hacknowledged => hpending ((mem_restrict_acknowledged hmem).mpr hacknowledged)

theorem present_restrict_iff (input : ReadReconciliationInput π) (record other : String × String) :
    Present (input.restrict record) other ↔ Present input record ∧ other = record := by
  have hrows : (∃ row ∈ (input.restrict record).localBase ++ (input.restrict record).remote,
      row.record = other) ↔
        (∃ row ∈ input.localBase ++ input.remote, row.record = record) ∧ other = record := by
    show (∃ row ∈ input.localBase.filter _ ++ input.remote.filter _, _) ↔ _
    rw [← List.filter_append]
    constructor
    · rintro ⟨row, hrow, rfl⟩
      obtain ⟨hmem, hrecord⟩ := List.mem_filter.mp hrow
      have hrecord := of_decide_eq_true hrecord
      exact ⟨⟨row, hmem, hrecord⟩, hrecord⟩
    · rintro ⟨⟨row, hmem, hrecord⟩, rfl⟩
      exact ⟨row, List.mem_filter.mpr ⟨hmem, decide_eq_true hrecord⟩, hrecord⟩
  have hentries : (∃ entry ∈ (input.restrict record).overlay,
      (input.restrict record).isVisible entry = true ∧ entry.record = other) ↔
        (∃ entry ∈ input.overlay, input.isVisible entry = true ∧ entry.record = record) ∧
          other = record := by
    constructor
    · rintro ⟨entry, hentry, hvisible, rfl⟩
      obtain ⟨hmem, hrecord⟩ := List.mem_filter.mp hentry
      obtain rfl := of_decide_eq_true hrecord
      rw [isVisible_restrict hmem] at hvisible
      exact ⟨⟨entry, hmem, hvisible, rfl⟩, rfl⟩
    · rintro ⟨⟨entry, hmem, hvisible, rfl⟩, rfl⟩
      refine ⟨entry, List.mem_filter.mpr ⟨hmem, decide_eq_true rfl⟩, ?_, rfl⟩
      rw [isVisible_restrict hmem, hvisible]
  unfold Present
  rw [hrows, hentries, or_and_right]

theorem merge_source {host : Host} {input : ReadReconciliationInput π} {key : String}
    {row : ProjectedRow π} (h : host.merge (host.selectRemoteWinner (input.group key))
      ((input.base key).map fun row => toProjected row "authoritative") = some row) :
    ∃ source ∈ input.localBase ++ input.remote, source.record = row.record := by
  have hbase : ∀ base, (input.base key).map (fun row => toProjected row "authoritative") =
      some base → ∃ source ∈ input.localBase ++ input.remote, source.record = base.record := by
    intro base hbase
    obtain ⟨old, hold, rfl⟩ := Option.map_eq_some_iff.mp hbase
    have hmem := (List.mem_filter.mp (List.mem_of_getLast? hold)).1
    exact ⟨old, List.mem_append_left _ hmem, rfl⟩
  cases hremote : host.selectRemoteWinner (input.group key) with
  | none =>
    rw [hremote] at h
    exact hbase row h
  | some remote =>
    have hmem := (List.mem_filter.mp (selectRemoteWinner_mem hremote)).1
    have hsource : ∃ source ∈ input.localBase ++ input.remote,
        source.record = (toProjected remote "authoritative").record :=
      ⟨remote, List.mem_append_right _ hmem, rfl⟩
    rw [hremote] at h
    cases hold : (input.base key).map fun row => toProjected row "authoritative" with
    | none =>
      rw [hold] at h
      exact Option.some.inj h ▸ hsource
    | some base =>
      rw [hold] at h
      dsimp only [Host.merge] at h
      split at h
      · exact Option.some.inj h ▸ hsource
      · exact Option.some.inj h ▸ hbase base hold

theorem present_of_record {input : ReadReconciliationInput π} {key : String}
    {row : ProjectedRow π} (h : Rust.host.record input key = some row) :
    Present input row.record := by
  unfold Host.record at h
  cases hentries : input.visible key using List.reverseRecOn with
  | nil =>
    rw [hentries] at h
    exact Or.inl (merge_source h)
  | append_singleton entries entry =>
    rw [hentries, overlaid, List.foldl_append] at h
    have hmem : entry ∈ input.visible key := by
      rw [hentries]
      exact List.mem_append_right _ (List.mem_singleton_self entry)
    obtain ⟨hvisible, -⟩ := List.mem_filter.mp hmem
    obtain ⟨hoverlay, hvisible⟩ := List.mem_filter.mp hvisible
    exact Or.inr ⟨entry, hoverlay, hvisible, by rw [← Option.some.inj h]; rfl⟩

theorem merge_ne_none {host : Host} {remote : Option (BaseRow π)} {base : Option (ProjectedRow π)}
    (h : remote ≠ none ∨ base ≠ none) : host.merge remote base ≠ none := by
  cases remote with
  | none => exact h.resolve_left (not_not.mpr rfl)
  | some remote =>
    cases base with
    | none => exact Option.some_ne_none _
    | some base =>
      dsimp only [Host.merge]
      split
      · exact Option.some_ne_none _
      · exact Option.some_ne_none _

theorem overlaid_ne_none {start : Option (ProjectedRow π)} {entries : List (OverlayEntry π)}
    (h : start ≠ none ∨ entries ≠ []) : overlaid start entries ≠ none := by
  induction entries generalizing start with
  | nil => exact h.resolve_right (not_not.mpr rfl)
  | cons entry entries ih => exact ih (Or.inl (Option.some_ne_none _))

theorem record_ne_none {input : ReadReconciliationInput π} {record : String × String}
    (h : Present input record) :
    Rust.host.record input (recordKey record.1 record.2) ≠ none := by
  unfold Host.record
  apply overlaid_ne_none
  rcases h with ⟨row, hrow, rfl⟩ | ⟨entry, hentry, hvisible, rfl⟩
  · refine Or.inl (merge_ne_none ?_)
    rcases List.mem_append.mp hrow with hlocal | hremote
    · refine Or.inr fun hnone => ?_
      rw [Option.map_eq_none_iff] at hnone
      have hempty := List.getLast?_eq_none_iff.mp hnone
      exact List.ne_nil_of_mem (List.mem_filter.mpr ⟨hlocal, decide_eq_true rfl⟩) hempty
    · have hmem : row ∈ input.group (recordKey row.record.1 row.record.2) :=
        List.mem_filter.mpr ⟨hremote, decide_eq_true rfl⟩
      refine Or.inl ?_
      cases hgroup : input.group (recordKey row.record.1 row.record.2) with
      | nil => exact absurd hgroup (List.ne_nil_of_mem hmem)
      | cons first rows => exact Option.some_ne_none _
  · have hmem : entry ∈ input.overlay.filter input.isVisible :=
      List.mem_filter.mpr ⟨hentry, hvisible⟩
    exact Or.inr (List.ne_nil_of_mem (List.mem_filter.mpr ⟨hmem, decide_eq_true rfl⟩))

theorem eq_toList {rows : List (ProjectedRow π)} {shown : Option (ProjectedRow π)}
    (hnodup : rows.Nodup) (h : ∀ row, row ∈ rows ↔ shown = some row) : rows = shown.toList := by
  cases shown with
  | none =>
    apply List.eq_nil_iff_forall_not_mem.mpr
    intro row hrow
    cases (h row).mp hrow
  | some shown =>
    apply List.perm_singleton.mp
    rw [List.perm_ext_iff_of_nodup hnodup (List.nodup_singleton shown)]
    intro row
    rw [h row, List.mem_singleton, Option.some.injEq, eq_comm]

theorem nodup_reconcile {input : ReadReconciliationInput π} {rows : List (ProjectedRow π)}
    (h : Rust.reconcileReadModel input = .ok rows) : rows.Nodup := by
  obtain ⟨working, hworking, rfl⟩ := reconcile_eq_ok h
  rw [(List.mergeSort_perm _ _).nodup_iff]
  exact List.Nodup.of_map _ (nodup_rows_key (rust_workingRows hworking))

/-- A result has at most one row of a record, the one that is left under its key. -/
theorem filter_reconcile {input : ReadReconciliationInput π} {rows : List (ProjectedRow π)}
    (h : Rust.reconcileReadModel input = .ok rows) (record : String × String) :
    (rows.filter fun row => row.record = record) =
      ((Rust.host.record input (recordKey record.1 record.2)).filter
        fun row => row.record = record).toList := by
  refine eq_toList ((nodup_reconcile h).filter _) fun row => ?_
  rw [List.mem_filter, mem_reconcile h, Option.filter_eq_some_iff]
  refine and_congr_left fun hrecord => ?_
  obtain rfl := of_decide_eq_true hrecord
  rfl

/-- If its key is its own, a record is left as it is without the others. -/
theorem record_restrict {input : ReadReconciliationInput π} (hdistinct : KeysDistinct input)
    {record : String × String} (hpresent : Present input record) :
    Rust.host.record (input.restrict record) (recordKey record.1 record.2) =
      Rust.host.record input (recordKey record.1 record.2) := by
  have hrow : ∀ row ∈ input.localBase ++ input.remote,
      (decide (row.key = recordKey record.1 record.2) && decide (row.record = record)) =
        decide (row.key = recordKey record.1 record.2) := by
    intro row hrow
    by_cases hkey : row.key = recordKey record.1 record.2
    · have hrecord : row.record = record :=
        hdistinct row.record record (Or.inl ⟨row, hrow, rfl⟩) hpresent hkey
      simp [hkey, hrecord]
    · simp [hkey]
  have hbase : (input.restrict record).base (recordKey record.1 record.2) =
      input.base (recordKey record.1 record.2) := by
    unfold ReadReconciliationInput.base
    show ((input.localBase.filter _).filter _).getLast? = _
    rw [List.filter_filter]
    exact congrArg List.getLast?
      (List.filter_congr fun row hmem => hrow row (List.mem_append_left _ hmem))
  have hgroup : (input.restrict record).group (recordKey record.1 record.2) =
      input.group (recordKey record.1 record.2) := by
    unfold ReadReconciliationInput.group
    show (input.remote.filter _).filter _ = _
    rw [List.filter_filter]
    exact List.filter_congr fun row hmem => hrow row (List.mem_append_right _ hmem)
  have hvisible : (input.restrict record).visible (recordKey record.1 record.2) =
      input.visible (recordKey record.1 record.2) := by
    unfold ReadReconciliationInput.visible
    rw [visible_restrict, List.filter_filter]
    refine List.filter_congr fun entry hmem => ?_
    obtain ⟨hentry, hvisible⟩ := List.mem_filter.mp hmem
    by_cases hkey : entry.key = recordKey record.1 record.2
    · have hrecord : entry.record = record :=
        hdistinct entry.record record (Or.inr ⟨entry, hentry, hvisible, rfl⟩) hpresent hkey
      simp [hkey, hrecord]
    · simp [hkey]
  unfold Host.record
  rw [hbase, hgroup, hvisible]

theorem separatesRecords_iff {input : ReadReconciliationInput π} {rows : List (ProjectedRow π)}
    (h : Rust.reconcileReadModel input = .ok rows) :
    SeparatesRecords input rows ↔ KeysDistinct input := by
  constructor
  · intro hseparates
    have hshown : ∀ record, Present input record →
        ∃ row, Rust.host.record input (recordKey record.1 record.2) = some row ∧
          row.record = record := by
      intro record hpresent
      have hrestrict := (present_restrict_iff input record record).mpr ⟨hpresent, rfl⟩
      obtain ⟨row, hrow⟩ := Option.ne_none_iff_exists'.mp (record_ne_none hrestrict)
      have hrecord := ((present_restrict_iff input record row.record).mp (present_of_record hrow)).2
      have hkey := record_key hrow
      rw [← hkey] at hrow
      have hmem := (List.mem_filter.mp ((mem_reconcile (hseparates record)).mpr hrow)).1
      refine ⟨row, ?_, hrecord⟩
      rw [← hkey]
      exact (mem_reconcile h).mp hmem
    intro a b ha hb hkey
    obtain ⟨row, hrow, rfl⟩ := hshown a ha
    obtain ⟨other, hother, rfl⟩ := hshown b hb
    rw [← hkey, hrow] at hother
    rw [Option.some.inj hother]
  · intro hdistinct record
    obtain ⟨rows', hrows'⟩ := restrict_ok h record
    have hown : ∀ row ∈ rows', row.record = record := by
      intro row hrow
      have hpresent := present_of_record ((mem_reconcile hrows').mp hrow)
      exact ((present_restrict_iff input record row.record).mp hpresent).2
    have hself : (rows'.filter fun row => row.record = record) = rows' :=
      List.filter_eq_self.mpr fun row hrow => decide_eq_true (hown row hrow)
    rw [hrows', ← hself, filter_reconcile hrows', filter_reconcile h]
    by_cases hpresent : Present input record
    · rw [record_restrict hdistinct hpresent]
    · have hnone : ∀ other : ReadReconciliationInput π, ¬ Present other record →
          (Rust.host.record other (recordKey record.1 record.2)).filter
            (fun row => row.record = record) = none := by
        intro other habsent
        rw [Option.filter_eq_none_iff]
        intro row hrow hrecord
        apply habsent
        rw [← of_decide_eq_true hrecord]
        exact present_of_record hrow
      rw [hnone input hpresent, hnone (input.restrict record) fun hrestrict =>
        hpresent ((present_restrict_iff input record record).mp hrestrict).1]

theorem mem_removed {input : ReadReconciliationInput π} {mutationId : String}
    {entry : OverlayEntry π} :
    entry ∈ input.removed mutationId ↔
      entry ∈ input.overlay ∧ input.isVisible entry = true ∧ entry.mutationId = mutationId := by
  unfold ReadReconciliationInput.removed ReadReconciliationInput.isVisible
  rw [List.mem_filter]
  refine and_congr_right fun _ => ?_
  by_cases hid : entry.mutationId = mutationId
  · simp [ReadReconciliationInput.acknowledge, hid]
  · simp only [ReadReconciliationInput.acknowledge, List.mem_cons, hid, false_or, and_false,
      Bool.and_not_self, Bool.false_eq_true]

theorem separatesClients_iff (input : ReadReconciliationInput π) :
    SeparatesClients input ↔ MutationsDistinct input := by
  constructor
  · intro h a ha b hb hvisible hvisible' hid
    exact h b.mutationId a (mem_removed.mpr ⟨ha, hvisible, hid⟩) b
      (mem_removed.mpr ⟨hb, hvisible', rfl⟩)
  · intro h mutationId a ha b hb
    obtain ⟨ha, hvisible, hid⟩ := mem_removed.mp ha
    obtain ⟨hb, hvisible', hid'⟩ := mem_removed.mp hb
    exact h a ha b hb hvisible hvisible' (hid.trans hid'.symm)

/-- In a result the records and the clients are kept apart exactly if no two records that are
present share their key and no two clients have a visible mutation of one id. -/
theorem separates_iff {input : ReadReconciliationInput π} {rows : List (ProjectedRow π)}
    (h : Rust.reconcileReadModel input = .ok rows) :
    SeparatesRecords input rows ∧ SeparatesClients input ↔
      KeysDistinct input ∧ MutationsDistinct input :=
  and_congr (separatesRecords_iff h) (separatesClients_iff input)

theorem separates_iff_pendingUpdate :
    ∃ rows, Rust.reconcileReadModel pendingUpdate = .ok rows ∧
      (SeparatesRecords pendingUpdate rows ∧ SeparatesClients pendingUpdate ↔
        KeysDistinct pendingUpdate ∧ MutationsDistinct pendingUpdate) := by
  obtain ⟨rows, hrows⟩ := (reconcile_ok_iff pendingUpdate).mpr fun entry hentry _ => by
    rw [List.mem_singleton.mp hentry]
    exact ⟨.writeThroughLocalFirst, by decide⟩
  exact ⟨rows, hrows, separates_iff hrows⟩

def pendingEntry (clientId recordId : String) : OverlayEntry Unit where
  mutationId := "1"
  clientId
  table := "animals"
  recordId
  operation := "upsert"
  payload := some ()
  revision := none
  consistencyPolicy := "local-first"
  status := "pending"
  transformedPayload := none

/-- The first mutations of two clients. -/
def firstMutations : ReadReconciliationInput Unit where
  localBase := []
  overlay := [pendingEntry "desk" "ant", pendingEntry "phone" "bear"]
  remote := []
  acknowledgedMutationIds := []

theorem firstMutations_removed :
    ∃ rows, Rust.reconcileReadModel firstMutations = .ok rows ∧
      ¬ (SeparatesRecords firstMutations rows ∧ SeparatesClients firstMutations) := by
  obtain ⟨rows, hrows⟩ := (reconcile_ok_iff firstMutations).mpr fun entry hentry _ => by
    refine ⟨.writeThroughLocalFirst, ?_⟩
    rcases List.mem_cons.mp hentry with rfl | hentry
    · decide
    · rw [List.mem_singleton.mp hentry]
      decide
  refine ⟨rows, hrows, fun h => ?_⟩
  have hdesk : pendingEntry "desk" "ant" ∈ firstMutations.removed "1" :=
    mem_removed.mpr ⟨List.mem_cons_self, by decide, rfl⟩
  have hphone : pendingEntry "phone" "bear" ∈ firstMutations.removed "1" :=
    mem_removed.mpr ⟨List.mem_cons_of_mem _ (List.mem_singleton_self _), by decide, rfl⟩
  exact absurd (h.2 "1" _ hdesk _ hphone) (by decide)

end OptoSync.ReadModel
