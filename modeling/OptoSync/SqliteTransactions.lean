import OptoSync.SqliteLocalView

/-!
# The transactions of the SQLite store

One specification for each transaction: when it commits, and what it leaves in the tables.
-/
namespace OptoSync
open Decimal

namespace SqliteProtocolStore

variable {read : ProtocolQueue → Option ProtocolQueue}
  {reconcile : String → String → Except Unit String} {toText : Json → String}
  {document : String → Prop} {merge : String → String → String}

/-- A sent mutation with its result, as a queue and its acknowledgement check leave them. -/
structure Sendable (row : ProtocolMutation × MutationResult) : Prop where
  positive : 0 < row.1.id
  fits : row.1.id ≤ maxI64
  canonical : row.1.mutationId = row.1.id.repr
  payload : row.1.operation = .upsert → row.1.payload.isSome = true
  checkpoint : ∀ value, row.2.checkpoint = some value → (parseDecimal value).isSome = true

/-- The result of `row` was accepted and is retained as `overlay`. -/
structure Retains (toText : Json → String) (row : ProtocolMutation × MutationResult)
    (overlay : AcceptedOverlay) : Prop where
  accepted : wasAccepted row.2 = true
  key : overlay.key = row.1.key
  edit : overlay.edit = row.1.edit toText
  checkpoint : row.2.checkpoint = some overlay.acknowledgementCheckpoint

theorem Retains.reached {row : ProtocolMutation × MutationResult} {overlay : AcceptedOverlay}
    (h : Retains toText row overlay) :
    row.2.checkpoint.bind parseDecimal = some overlay.position := by
  obtain ⟨n, hn⟩ := Option.isSome_iff_exists.mp ((isCanonicalDecimal_iff _).mp overlay.canonical)
  rw [h.checkpoint, AcceptedOverlay.position, Option.bind_some, hn]
  rfl

theorem acceptedOverlay_eq (toText : Json → String) {row : ProtocolMutation × MutationResult} (hrow : Sendable row)
    (haccepted : wasAccepted row.2 = true) (hsome : row.2.checkpoint.isSome = true) :
    ∃ overlay, acceptedOverlay toText row.1 row.2 = .ok ((row.1.id : ℤ), overlay) ∧
      Retains toText row overlay := by
  obtain ⟨checkpoint, hcheckpoint⟩ := Option.isSome_iff_exists.mp hsome
  have hcanonical := (isCanonicalDecimal_iff _).mpr (hrow.checkpoint checkpoint hcheckpoint)
  have hid : parseI64 row.1.mutationId = some (row.1.id : ℤ) := by
    rw [hrow.canonical]
    exact parseI64_repr hrow.fits
  unfold acceptedOverlay
  rw [hcheckpoint]
  simp only [dif_pos hcanonical, hid]
  cases hop : row.1.operation with
  | upsert =>
    obtain ⟨payload, hpayload⟩ := Option.isSome_iff_exists.mp (hrow.payload hop)
    rw [hpayload]
    refine ⟨_, rfl, haccepted, rfl, ?_, hcheckpoint⟩
    simp [AcceptedOverlay.edit, ProtocolMutation.edit, hop, hpayload]
  | delete =>
    refine ⟨_, rfl, haccepted, rfl, ?_, hcheckpoint⟩
    simp [AcceptedOverlay.edit, ProtocolMutation.edit, hop]

/-- What the acknowledgement loop does to the overlays. -/
structure Retained (toText : Json → String) (rows : List (ProtocolMutation × MutationResult))
    (db db' : Database) : Prop where
  authoritative : db'.authoritative = db.authoritative
  localRecords : db'.localRecords = db.localRecords
  stored : db'.queue = db.queue
  outside : ∀ mutationId : ℤ,
    (∀ row ∈ rows, wasAccepted row.2 = true → (row.1.id : ℤ) ≠ mutationId) →
      db'.overlays[mutationId]? = db.overlays[mutationId]?
  inside : ∀ row ∈ rows, wasAccepted row.2 = true → ∃ overlay row',
    row' ∈ rows ∧ row'.1.id = row.1.id ∧ db'.overlays[(row.1.id : ℤ)]? = some overlay ∧
      Retains toText row' overlay

theorem Retained.cons {row : ProtocolMutation × MutationResult}
    {rows : List (ProtocolMutation × MutationResult)} {db mid db' : Database}
    (hrest : Retained toText rows mid db') (hstep : Retained toText [row] db mid) :
    Retained toText (row :: rows) db db' := by
  refine ⟨hrest.authoritative.trans hstep.authoritative,
    hrest.localRecords.trans hstep.localRecords, hrest.stored.trans hstep.stored,
    fun mutationId hid => ?_, fun r hr haccepted => ?_⟩
  · rw [hrest.outside mutationId fun r hr => hid r (List.mem_cons_of_mem _ hr)]
    exact hstep.outside mutationId fun r hr => hid r (List.mem_singleton.mp hr ▸ List.mem_cons_self)
  · by_cases hlater : ∃ r' ∈ rows, wasAccepted r'.2 = true ∧ r'.1.id = r.1.id
    · obtain ⟨r', hr', haccepted', hid⟩ := hlater
      obtain ⟨overlay, r'', hr'', hid', hget, hretains⟩ := hrest.inside r' hr' haccepted'
      exact ⟨overlay, r'', List.mem_cons_of_mem _ hr'', hid'.trans hid, hid ▸ hget, hretains⟩
    · have hnot : ∀ r' ∈ rows, wasAccepted r'.2 = true → (r'.1.id : ℤ) ≠ r.1.id :=
        fun r' hr' ha he => hlater ⟨r', hr', ha, by exact_mod_cast he⟩
      have hhead : r = row := (List.mem_cons.mp hr).resolve_right fun hmem =>
        hlater ⟨r, hmem, haccepted, rfl⟩
      subst hhead
      obtain ⟨overlay, r', hr', hid, hget, hretains⟩ :=
        hstep.inside r List.mem_cons_self haccepted
      rw [List.mem_singleton.mp hr'] at hretains
      exact ⟨overlay, r, List.mem_cons_self, rfl, (hrest.outside _ hnot).trans hget, hretains⟩

/-- The loop ends well exactly when every accepted result names a checkpoint. -/
inductive Retaining (toText : Json → String) (rows : List (ProtocolMutation × MutationResult))
    (db : Database) : Except SqliteStoreError Database → Prop
  | kept {db'} (hall : ∀ row ∈ rows, wasAccepted row.2 = true → row.2.checkpoint.isSome = true)
      (h : Retained toText rows db db') : Retaining toText rows db (.ok db')
  | refused {row} (hrow : row ∈ rows) (haccepted : wasAccepted row.2 = true)
      (hnone : row.2.checkpoint = none) : Retaining toText rows db
        (.error (.invalidRecord "accepted mutation result is missing its checkpoint"))

theorem retainAccepted_cases (toText : Json → String) (db : Database) {row : ProtocolMutation × MutationResult}
    (hrow : Sendable row) : Retaining toText [row] db (retainAccepted toText db row) := by
  by_cases haccepted : wasAccepted row.2 = true
  · cases hcheckpoint : row.2.checkpoint with
    | none =>
      have herror : retainAccepted toText db row =
          .error (.invalidRecord "accepted mutation result is missing its checkpoint") := by
        simp [retainAccepted, haccepted, acceptedOverlay, hcheckpoint, bind, Except.bind]
      rw [herror]
      exact .refused List.mem_cons_self haccepted hcheckpoint
    | some checkpoint =>
      have hsome : row.2.checkpoint.isSome = true := by simp [hcheckpoint]
      obtain ⟨overlay, hoverlay, hretains⟩ :=
        acceptedOverlay_eq toText hrow haccepted hsome
      have hpositive : row.1.id ≠ 0 := Nat.pos_iff_ne_zero.mp hrow.positive
      have hok : retainAccepted toText db row =
          .ok { db with overlays := db.overlays.insert (row.1.id : ℤ) overlay } := by
        simp [retainAccepted, haccepted, hoverlay, bind, Except.bind, hpositive, pure, Except.pure]
      rw [hok]
      refine .kept (fun r hr _ => List.mem_singleton.mp hr ▸ hsome) ⟨rfl, rfl, rfl, ?_, ?_⟩
      · intro mutationId hid
        have hne := hid row List.mem_cons_self haccepted
        simp [Std.ExtTreeMap.getElem?_insert, hne]
      · intro r hr _
        rw [List.mem_singleton.mp hr]
        exact ⟨overlay, row, List.mem_cons_self, rfl, by simp, hretains⟩
  · have hok : retainAccepted toText db row = .ok db := by
      simp only [Bool.not_eq_true] at haccepted
      simp [retainAccepted, haccepted]
    rw [hok]
    refine .kept (fun r hr ha => ?_) ⟨rfl, rfl, rfl, fun _ _ => rfl, fun r hr ha => ?_⟩
    · rw [List.mem_singleton.mp hr] at ha
      exact absurd ha haccepted
    · rw [List.mem_singleton.mp hr] at ha
      exact absurd ha haccepted

theorem foldlM_retainAccepted_cases (toText : Json → String)
    {rows : List (ProtocolMutation × MutationResult)}
    (hrows : ∀ row ∈ rows, Sendable row) (db : Database) :
    Retaining toText rows db (rows.foldlM (retainAccepted toText) db) := by
  induction rows generalizing db with
  | nil => exact .kept (by simp) ⟨rfl, rfl, rfl, fun _ _ => rfl, by simp⟩
  | cons row rows ih =>
    rw [List.foldlM_cons]
    have hstep := retainAccepted_cases toText db (hrows row List.mem_cons_self)
    generalize retainAccepted toText db row = out at hstep
    cases hstep with
    | refused hrow haccepted hnone =>
      exact .refused (List.mem_singleton.mp hrow ▸ List.mem_cons_self) haccepted hnone
    | @kept mid hhead hone =>
      have hrest := ih (fun r hr => hrows r (List.mem_cons_of_mem _ hr)) mid
      show Retaining toText (row :: rows) db (rows.foldlM (retainAccepted toText) mid)
      generalize rows.foldlM (retainAccepted toText) mid = out at hrest
      cases hrest with
      | refused hrow haccepted hnone =>
        exact .refused (List.mem_cons_of_mem _ hrow) haccepted hnone
      | kept hall hretained =>
        exact .kept (List.forall_mem_cons.mpr ⟨hhead row List.mem_cons_self, hall⟩)
          (hretained.cons hone)

theorem payloadsPresent_of_valid {queue : ProtocolQueue} (h : ProtocolQueue.Valid toText queue) :
    PayloadsPresent queue := by
  intro m hm hop
  have hcontent := (h.rows m (List.mem_filter.mp hm).1).content
  rw [hop] at hcontent
  obtain ⟨payload, hpayload, -⟩ := hcontent
  simp [hpayload]

theorem mergeAndPersist_of_merge {db : Database} {queue durable merged : ProtocolQueue}
    {body : Database → ProtocolQueue → Except SqliteStoreError Database}
    (hd : loadQueueFrom read toText db = .ok durable) (hv : ProtocolQueue.Valid toText merged)
    (hm : queue.mergeConcurrentDurable toText durable = (.ok (), merged)) :
    mergeAndPersist read toText db queue body =
      ((body db merged).map fun db => { db with queue := merged }, merged) := by
  unfold mergeAndPersist
  rw [hd]
  dsimp only
  rw [hm]
  dsimp only
  cases body db merged with
  | error error => rfl
  | ok db' => simp [bind, Except.bind, persistQueueIn_eq db' hv, Except.map]

/-- The two outcomes of `persist_acknowledgement` once the queues are merged. -/
inductive Acknowledging (merge : String → String → String) (toText : Json → String)
    (rows : List (ProtocolMutation × MutationResult)) (merged : ProtocolQueue) (db : Database) :
    Except SqliteStoreError Database → Prop
  | committed {retained cleared rebuilt} {clearedKeys : RecordKeys}
      (hall : ∀ row ∈ rows, wasAccepted row.2 = true → row.2.checkpoint.isSome = true)
      (hretained : Retained toText rows db retained)
      (hcleared : Cleared merged.position retained cleared clearedKeys)
      (hrebuilt : Rebuilt merge toText merged
        (fun key => key ∈ clearedKeys ∨ key ∈ rows.map (·.1.key)) cleared rebuilt) :
      Acknowledging merge toText rows merged db (.ok { rebuilt with queue := merged })
  | refused {row} (hrow : row ∈ rows) (haccepted : wasAccepted row.2 = true)
      (hnone : row.2.checkpoint = none) : Acknowledging merge toText rows merged db
        (.error (.invalidRecord "accepted mutation result is missing its checkpoint"))

theorem Retained.documents (hR : Reconciles reconcile toText document merge)
    {rows : List (ProtocolMutation × MutationResult)} {db db' : Database}
    (h : Retained toText rows db db') (hdb : db.Documents document) : db'.Documents document := by
  refine ⟨h.authoritative ▸ hdb.authoritative, fun mutationId overlay hget payloadJson hp => ?_⟩
  by_cases hout : ∀ row ∈ rows, wasAccepted row.2 = true → (row.1.id : ℤ) ≠ mutationId
  · rw [h.outside mutationId hout] at hget
    exact hdb.overlays mutationId overlay hget payloadJson hp
  · push Not at hout
    obtain ⟨row, hrow, haccepted, hid⟩ := hout
    obtain ⟨overlay', row', -, -, hget', hretains⟩ := h.inside row hrow haccepted
    rw [hid, hget, Option.some.injEq] at hget'
    subst hget'
    have hedit := hretains.edit
    simp only [AcceptedOverlay.edit, hp, ProtocolMutation.edit] at hedit
    cases hop : row'.1.operation with
    | upsert =>
      simp only [hop, RecordEdit.upsert.injEq] at hedit
      exact hedit ▸ hR.text _
    | delete => simp [hop] at hedit

theorem Cleared.documents {through : ℕ} {db db' : Database} {keys : RecordKeys}
    (h : Cleared through db db' keys) (hdb : db.Documents document) : db'.Documents document :=
  ⟨h.authoritative ▸ hdb.authoritative, fun mutationId overlay hget =>
    hdb.overlays mutationId overlay ((h.overlays mutationId overlay).mp hget).1⟩

theorem Rebuilt.documents {queue : ProtocolQueue} {keys : RecordKey → Prop} {db db' : Database}
    (h : Rebuilt merge toText queue keys db db') (hdb : db.Documents document) :
    db'.Documents document :=
  ⟨h.authoritative ▸ hdb.authoritative, h.overlays ▸ hdb.overlays⟩

theorem parse_position {queue : ProtocolQueue} (h : ProtocolQueue.Valid toText queue) :
    parseDecimal queue.checkpoint = some queue.position := by
  obtain ⟨n, hn⟩ := Option.isSome_iff_exists.mp h.checkpoint
  rw [ProtocolQueue.position, hn]
  rfl

theorem mem_insertMany_keys {keys : RecordKeys} {more : List RecordKey} {key : RecordKey} :
    key ∈ (keys.insertMany more).toList ↔ key ∈ keys ∨ key ∈ more := by
  simp [Std.ExtTreeSet.mem_toList, Std.ExtTreeSet.mem_insertMany_list]

theorem Rebuilt.congr {queue : ProtocolQueue} {keys keys' : RecordKey → Prop} {db db' : Database}
    (h : Rebuilt merge toText queue keys db db') (hkeys : ∀ key, keys key ↔ keys' key) :
    Rebuilt merge toText queue keys' db db' :=
  ⟨h.authoritative, h.overlays, h.stored, fun key hk => h.inside key ((hkeys key).mpr hk),
    fun key hk => h.outside key fun hin => hk ((hkeys key).mp hin)⟩

theorem persistAcknowledgement_cases (hR : Reconciles reconcile toText document merge)
    {db : Database} (hdb : db.Documents document) {queue durable merged : ProtocolQueue}
    (hd : loadQueueFrom read toText db = .ok durable) (hv : ProtocolQueue.Valid toText merged)
    (hm : queue.mergeConcurrentDurable toText durable = (.ok (), merged))
    {request : PushRequest} {response : PushResponse}
    (hrows : ∀ row ∈ request.mutations.zip response.results, Sendable row) :
    ∃ out, persistAcknowledgement read reconcile toText db queue request response = (out, merged) ∧
      Acknowledging merge toText (request.mutations.zip response.results) merged db out := by
  unfold persistAcknowledgement
  rw [mergeAndPersist_of_merge hd hv hm]
  refine ⟨_, rfl, ?_⟩
  dsimp only
  have hstep := foldlM_retainAccepted_cases toText hrows db
  generalize (request.mutations.zip response.results).foldlM (retainAccepted toText) db = out
    at hstep ⊢
  cases hstep with
  | refused hrow haccepted hnone => exact .refused hrow haccepted hnone
  | @kept retained hall hretained =>
    obtain ⟨cleared, clearedKeys, hclear, hcleared⟩ :=
      clearAcceptedOverlaysThrough_eq retained (parse_position hv)
    obtain ⟨rebuilt, hrebuild, hrebuilt⟩ := foldlM_rebuildLocalRecord_eq hR
      (payloadsPresent_of_valid hv)
      (clearedKeys.insertMany ((request.mutations.zip response.results).map (·.1.key))).toList
      cleared (hcleared.documents (hretained.documents hR hdb))
    simp only [bind, Except.bind, hclear, hrebuild, Except.map]
    exact .committed hall hretained hcleared (hrebuilt.congr fun key => mem_insertMany_keys)

/-- The authoritative table after one change. -/
theorem Acknowledging.committed_eq {rows : List (ProtocolMutation × MutationResult)}
    {merged : ProtocolQueue} {db db' : Database} {out : Except SqliteStoreError Database}
    (h : Acknowledging merge toText rows merged db out)
    (hR : Reconciles reconcile toText document merge) (hdb : db.Documents document)
    (hout : out = .ok db') :
    db'.Documents document ∧ db'.queue = merged ∧ db'.authoritative = db.authoritative := by
  cases hout
  cases h with
  | committed hall hretained hcleared hrebuilt =>
    have hdoc := hrebuilt.documents (hcleared.documents (hretained.documents hR hdb))
    exact ⟨⟨hdoc.authoritative, hdoc.overlays⟩, rfl, hrebuilt.authoritative.trans
      (hcleared.authoritative.trans hretained.authoritative)⟩

def installChange (toText : Json → String) (table : RecordTable AuthoritativeRow)
    (change : Change) : RecordTable AuthoritativeRow :=
  match change.operation with
  | .upsert => table.insert change.key
      { recordJson := toText (change.record.getD .null), revision := change.revision }
  | .delete => table.erase change.key

def installRecord (toText : Json → String) (table : RecordTable AuthoritativeRow)
    (record : SnapshotRecord) : RecordTable AuthoritativeRow :=
  table.insert record.key { recordJson := toText record.record, revision := record.revision }

theorem getElem?_installChange {table : RecordTable AuthoritativeRow} {change : Change}
    {key : RecordKey} (h : change.key ≠ key) :
    (installChange toText table change)[key]? = table[key]? := by
  unfold installChange
  cases change.operation with
  | upsert => simp [Std.ExtTreeMap.getElem?_insert, h]
  | delete => simp [Std.ExtTreeMap.getElem?_erase, h]

theorem getElem?_foldl_installChange {changes : List Change} {table : RecordTable AuthoritativeRow}
    {key : RecordKey} (h : key ∉ changes.map (·.key)) :
    (changes.foldl (installChange toText) table)[key]? = table[key]? := by
  induction changes generalizing table with
  | nil => rfl
  | cons change changes ih =>
    rw [List.map_cons, List.mem_cons, not_or] at h
    rw [List.foldl_cons, ih h.2, getElem?_installChange (Ne.symm h.1)]

/-- The store takes a change exactly when the response check of the driver would. -/
theorem applyAuthoritativeChange_eq (db : Database) {change : Change}
    (h : changeContentRefused change = false) : applyAuthoritativeChange toText db change =
      .ok { db with authoritative := installChange toText db.authoritative change } := by
  unfold changeContentRefused at h
  unfold applyAuthoritativeChange installChange
  cases hop : change.operation with
  | upsert =>
    cases hrecord : change.record with
    | none => simp [hop, hrecord] at h
    | some record => simp_all [Option.filter]
  | delete => simp_all

theorem applyAuthoritativeChange_error (toText : Json → String) (db : Database) {change : Change}
    (h : changeContentRefused change = true) :
    ∃ error, applyAuthoritativeChange toText db change = .error error := by
  unfold changeContentRefused at h
  unfold applyAuthoritativeChange
  cases hop : change.operation with
  | upsert =>
    cases hrecord : change.record with
    | none => exact ⟨_, rfl⟩
    | some record =>
      have hobject : record.isObject = false := by simpa [hop, hrecord] using h
      simp [Option.filter, hobject]
  | delete =>
    have hsome : change.record.isSome = true := by simpa [hop] using h
    simp [hsome]

theorem foldlM_applyAuthoritativeChange (toText : Json → String) (changes : List Change)
    (db : Database) :
    ((∀ change ∈ changes, changeContentRefused change = false) ∧
      changes.foldlM (applyAuthoritativeChange toText) db =
        .ok { db with authoritative := changes.foldl (installChange toText) db.authoritative }) ∨
    ((∃ change ∈ changes, changeContentRefused change = true) ∧
      ∃ error, changes.foldlM (applyAuthoritativeChange toText) db = .error error) := by
  induction changes generalizing db with
  | nil => exact .inl ⟨by simp, rfl⟩
  | cons change changes ih =>
    rw [List.foldlM_cons]
    cases hchange : changeContentRefused change with
    | true =>
      obtain ⟨error, herror⟩ := applyAuthoritativeChange_error toText db hchange
      rw [herror]
      exact .inr ⟨⟨change, List.mem_cons_self, hchange⟩, error, rfl⟩
    | false =>
      rw [applyAuthoritativeChange_eq db hchange]
      rcases ih { db with authoritative := installChange toText db.authoritative change } with
        ⟨hall, hok⟩ | ⟨⟨bad, hbad, hrefused⟩, herror⟩
      · exact .inl ⟨List.forall_mem_cons.mpr ⟨hchange, hall⟩, hok⟩
      · exact .inr ⟨⟨bad, List.mem_cons_of_mem _ hbad, hrefused⟩, herror⟩

theorem documents_installChange (hR : Reconciles reconcile toText document merge)
    {changes : List Change} {table : RecordTable AuthoritativeRow}
    (h : ∀ (key : RecordKey) (row : AuthoritativeRow), table[key]? = some row →
      document row.recordJson) :
    ∀ (key : RecordKey) (row : AuthoritativeRow),
      (changes.foldl (installChange toText) table)[key]? = some row → document row.recordJson := by
  induction changes generalizing table with
  | nil => exact h
  | cons change changes ih =>
    refine ih fun key row hget => ?_
    unfold installChange at hget
    cases hop : change.operation with
    | upsert =>
      simp only [hop, Std.ExtTreeMap.getElem?_insert] at hget
      split at hget
      · cases hget
        exact hR.text _
      · exact h key row hget
    | delete =>
      simp only [hop, Std.ExtTreeMap.getElem?_erase] at hget
      split at hget
      · cases hget
      · exact h key row hget

/-- The two outcomes of `apply_changes_and_persist` once the queues are merged. -/
inductive ApplyingChanges (merge : String → String → String) (toText : Json → String)
    (changes : List Change) (merged : ProtocolQueue) (db : Database) :
    Except SqliteStoreError Database → Prop
  | committed {cleared rebuilt} {clearedKeys : RecordKeys}
      (hall : ∀ change ∈ changes, changeContentRefused change = false)
      (hcleared : Cleared merged.position db cleared clearedKeys)
      (hrebuilt : Rebuilt merge toText merged
        (fun key => key ∈ clearedKeys ∨ key ∈ changes.map (·.key))
        { cleared with
          authoritative := changes.foldl (installChange toText) cleared.authoritative } rebuilt) :
      ApplyingChanges merge toText changes merged db (.ok { rebuilt with queue := merged })
  | refused {change error} (hchange : change ∈ changes)
      (hrefused : changeContentRefused change = true) :
      ApplyingChanges merge toText changes merged db (.error error)

theorem applyChangesAndPersist_cases (hR : Reconciles reconcile toText document merge)
    {db : Database} (hdb : db.Documents document) {queue durable merged : ProtocolQueue}
    (hd : loadQueueFrom read toText db = .ok durable) (hv : ProtocolQueue.Valid toText merged)
    (hm : queue.mergeConcurrentDurable toText durable = (.ok (), merged)) (changes : List Change) :
    ∃ out, applyChangesAndPersist read reconcile toText db changes queue = (out, merged) ∧
      ApplyingChanges merge toText changes merged db out := by
  unfold applyChangesAndPersist
  rw [mergeAndPersist_of_merge hd hv hm]
  refine ⟨_, rfl, ?_⟩
  dsimp only
  obtain ⟨cleared, clearedKeys, hclear, hcleared⟩ :=
    clearAcceptedOverlaysThrough_eq db (parse_position hv)
  simp only [hclear, bind, Except.bind]
  rcases foldlM_applyAuthoritativeChange toText changes cleared with
    ⟨hall, hok⟩ | ⟨⟨change, hchange, hrefused⟩, error, herror⟩
  · have hdocuments := hcleared.documents hdb
    obtain ⟨rebuilt, hrebuild, hrebuilt⟩ := foldlM_rebuildLocalRecord_eq hR
      (payloadsPresent_of_valid hv) (clearedKeys.insertMany (changes.map (·.key))).toList
      { cleared with authoritative := changes.foldl (installChange toText) cleared.authoritative }
      ⟨documents_installChange hR hdocuments.authoritative, hdocuments.overlays⟩
    simp only [hok, hrebuild, Except.map]
    exact .committed hall hcleared (hrebuilt.congr fun key => mem_insertMany_keys)
  · simp only [herror, Except.map]
    exact .refused hchange hrefused

theorem ApplyingChanges.committed_eq {changes : List Change} {merged : ProtocolQueue}
    {db db' : Database} {out : Except SqliteStoreError Database}
    (h : ApplyingChanges merge toText changes merged db out)
    (hR : Reconciles reconcile toText document merge) (hdb : db.Documents document)
    (hout : out = .ok db') :
    db'.Documents document ∧ db'.queue = merged ∧
      db'.authoritative = changes.foldl (installChange toText) db.authoritative := by
  cases hout
  cases h with
  | committed hall hcleared hrebuilt =>
    have hcdoc := hcleared.documents hdb
    have hdoc := hrebuilt.documents
      ⟨documents_installChange hR hcdoc.authoritative, hcdoc.overlays⟩
    refine ⟨⟨hdoc.authoritative, hdoc.overlays⟩, rfl, hrebuilt.authoritative.trans ?_⟩
    rw [hcleared.authoritative]

theorem insertSnapshotRecord_eq_ok (toText : Json → String) {db db' : Database}
    {record : SnapshotRecord} :
    insertSnapshotRecord toText db record = .ok db' ↔ record.record.isObject = true ∧
      record.key ∉ db.authoritative ∧
      db' = { db with authoritative := installRecord toText db.authoritative record } := by
  unfold insertSnapshotRecord
  by_cases hobject : record.record.isObject = false
  · simp [hobject]
  · by_cases hmem : record.key ∈ db.authoritative
    · simp [hobject, hmem]
    · rw [if_neg hobject, if_neg hmem, Except.ok.injEq]
      simp only [Bool.not_eq_false] at hobject
      exact ⟨fun h => ⟨hobject, hmem, h.symm⟩, fun h => h.2.2.symm⟩

/-- The rows of a snapshot, as a table. -/
def snapshotTable (toText : Json → String) (records : List SnapshotRecord) :
    RecordTable AuthoritativeRow :=
  records.foldl (installRecord toText) ∅

/-- What a table without conflict clause asks of the rows of a snapshot. -/
structure Insertable (table : RecordTable AuthoritativeRow) (records : List SnapshotRecord) :
    Prop where
  objects : ∀ record ∈ records, record.record.isObject = true
  distinct : (records.map (·.key)).Nodup
  fresh : ∀ record ∈ records, record.key ∉ table

theorem mem_installRecord {table : RecordTable AuthoritativeRow} {record : SnapshotRecord}
    {key : RecordKey} :
    key ∈ installRecord toText table record ↔ record.key = key ∨ key ∈ table := by
  simp [installRecord, Std.ExtTreeMap.mem_insert]

theorem insertable_cons (toText : Json → String) {table : RecordTable AuthoritativeRow}
    {record : SnapshotRecord} {records : List SnapshotRecord} : Insertable table (record :: records) ↔
      record.record.isObject = true ∧ record.key ∉ table ∧
        Insertable (installRecord toText table record) records := by
  constructor
  · intro hinsertable
    obtain ⟨hobjects, hdistinct, hfresh⟩ := hinsertable
    rw [List.map_cons, List.nodup_cons] at hdistinct
    refine ⟨hobjects record List.mem_cons_self, hfresh record List.mem_cons_self,
      fun r hr => hobjects r (List.mem_cons_of_mem _ hr), hdistinct.2, fun r hr hmem => ?_⟩
    rcases mem_installRecord.mp hmem with hkey | hmem
    · exact hdistinct.1 (hkey ▸ List.mem_map_of_mem hr)
    · exact hfresh r (List.mem_cons_of_mem _ hr) hmem
  · intro hinsertable
    obtain ⟨hobject, hnew, hobjects, hdistinct, hfresh⟩ := hinsertable
    refine ⟨List.forall_mem_cons.mpr ⟨hobject, hobjects⟩, ?_, List.forall_mem_cons.mpr ⟨hnew, ?_⟩⟩
    · rw [List.map_cons, List.nodup_cons]
      refine ⟨fun hmem => ?_, hdistinct⟩
      obtain ⟨r, hr, hkey⟩ := List.mem_map.mp hmem
      exact hfresh r hr (mem_installRecord.mpr (.inl hkey.symm))
    · exact fun r hr hmem => hfresh r hr (mem_installRecord.mpr (.inr hmem))

theorem foldlM_insertSnapshotRecord (toText : Json → String) {records : List SnapshotRecord}
    {db db' : Database} :
    records.foldlM (insertSnapshotRecord toText) db = .ok db' ↔
      Insertable db.authoritative records ∧
      db' = { db with authoritative := records.foldl (installRecord toText) db.authoritative } := by
  induction records generalizing db with
  | nil =>
    refine ⟨fun h => ⟨⟨by simp, by simp, by simp⟩, ?_⟩, fun ⟨_, h⟩ => by rw [h]; rfl⟩
    cases h
    rfl
  | cons record records ih =>
    rw [List.foldlM_cons, insertable_cons toText]
    cases hstep : insertSnapshotRecord toText db record with
    | error error =>
      refine ⟨fun h => (by cases h), fun ⟨⟨hobject, hnew, _⟩, _⟩ => ?_⟩
      have := (insertSnapshotRecord_eq_ok toText).mpr ⟨hobject, hnew, rfl⟩
      rw [hstep] at this
      cases this
    | ok mid =>
      obtain ⟨hobject, hnew, rfl⟩ := (insertSnapshotRecord_eq_ok toText).mp hstep
      refine Iff.trans ih ?_
      simp [hobject, hnew]

/-- The two outcomes of `replace_authoritative_and_persist` once the queues are merged. -/
inductive Replacing (merge : String → String → String) (toText : Json → String)
    (records : List SnapshotRecord) (merged : ProtocolQueue) (db : Database) :
    Except SqliteStoreError Database → Prop
  | committed {cleared rebuilt} {clearedKeys : RecordKeys} (hall : Insertable ∅ records)
      (hcleared : Cleared merged.position db cleared clearedKeys)
      (hrebuilt : Rebuilt merge toText merged (fun _ => True)
        { cleared with authoritative := snapshotTable toText records } rebuilt) :
      Replacing merge toText records merged db (.ok { rebuilt with queue := merged })
  | refused {error} (hrefused : ¬ Insertable ∅ records) :
      Replacing merge toText records merged db (.error error)

theorem documents_installRecord (hR : Reconciles reconcile toText document merge)
    {records : List SnapshotRecord} {table : RecordTable AuthoritativeRow}
    (h : ∀ (key : RecordKey) (row : AuthoritativeRow), table[key]? = some row →
      document row.recordJson) :
    ∀ (key : RecordKey) (row : AuthoritativeRow),
      (records.foldl (installRecord toText) table)[key]? = some row → document row.recordJson := by
  induction records generalizing table with
  | nil => exact h
  | cons record records ih =>
    refine ih fun key row hget => ?_
    simp only [installRecord, Std.ExtTreeMap.getElem?_insert] at hget
    split at hget
    · cases hget
      exact hR.text _
    · exact h key row hget

theorem replaceAuthoritativeAndPersist_cases (hR : Reconciles reconcile toText document merge)
    {db : Database} (hdb : db.Documents document) {queue durable merged : ProtocolQueue}
    (hd : loadQueueFrom read toText db = .ok durable) (hv : ProtocolQueue.Valid toText merged)
    (hm : queue.mergeConcurrentDurable toText durable = (.ok (), merged))
    (records : List SnapshotRecord) :
    ∃ out, replaceAuthoritativeAndPersist read reconcile toText db records queue = (out, merged) ∧
      Replacing merge toText records merged db out := by
  unfold replaceAuthoritativeAndPersist
  rw [mergeAndPersist_of_merge hd hv hm]
  refine ⟨_, rfl, ?_⟩
  dsimp only
  obtain ⟨cleared, clearedKeys, hclear, hcleared⟩ :=
    clearAcceptedOverlaysThrough_eq db (parse_position hv)
  simp only [hclear, bind, Except.bind]
  cases hfold : records.foldlM (insertSnapshotRecord toText) { cleared with authoritative := ∅ } with
  | error error =>
    refine .refused fun hall => ?_
    have hfresh : Insertable ({ cleared with authoritative := ∅ } : Database).authoritative
      records := hall
    have hok := (foldlM_insertSnapshotRecord toText).mpr ⟨hfresh, rfl⟩
    rw [hfold] at hok
    cases hok
  | ok mid =>
    obtain ⟨hall, rfl⟩ := (foldlM_insertSnapshotRecord toText).mp hfold
    have hdocuments : ({ cleared with authoritative := snapshotTable toText records } :
        Database).Documents document :=
      ⟨documents_installRecord hR fun key row h => by simp at h,
        (hcleared.documents hdb).overlays⟩
    obtain ⟨rebuilt, hrebuild, hrebuilt⟩ := rebuildAllLocal_eq hR hdocuments
      (payloadsPresent_of_valid hv)
    simp only [snapshotTable] at hrebuild
    simp only [hrebuild, Except.map]
    exact .committed hall hcleared hrebuilt

theorem Replacing.committed_eq {records : List SnapshotRecord} {merged : ProtocolQueue}
    {db db' : Database} {out : Except SqliteStoreError Database}
    (h : Replacing merge toText records merged db out)
    (hR : Reconciles reconcile toText document merge) (hdb : db.Documents document)
    (hout : out = .ok db') :
    db'.Documents document ∧ db'.queue = merged ∧
      db'.authoritative = snapshotTable toText records := by
  cases hout
  cases h with
  | committed hall hcleared hrebuilt =>
    have hdoc := hrebuilt.documents ⟨documents_installRecord hR fun key row h => by simp at h,
      (hcleared.documents hdb).overlays⟩
    exact ⟨⟨hdoc.authoritative, hdoc.overlays⟩, rfl, hrebuilt.authoritative⟩

/-- One more pending row in the queue, and the same authoritative rows and overlays. -/
structure Appended (toText : Json → String) (m : ProtocolMutation) (db db' : Database) : Prop where
  enqueued : ProtocolQueue.Enqueued db.queue db'.queue m
  valid : ProtocolQueue.Valid toText db'.queue
  pending : m.status = .pending
  mutationId : m.mutationId = db.queue.nextMutationId.repr
  authoritative : db'.authoritative = db.authoritative
  overlays : db'.overlays = db.overlays

/-- What a committed local edit leaves: one more pending row, replayed on the local record. -/
structure Queued (merge : String → String → String) (toText : Json → String)
    (m : ProtocolMutation) (db db' : Database) : Prop extends Appended toText m db db' where
  edited : db'.localRecords[m.key]? = (m.edit toText).apply merge db.localRecords[m.key]?
  others : ∀ key, key ≠ m.key → db'.localRecords[key]? = db.localRecords[key]?

theorem persistQueueIn_eq_ok {db db' : Database} {queue : ProtocolQueue}
    (h : persistQueueIn toText db queue = .ok db') :
    ProtocolQueue.Valid toText queue ∧ db' = { db with queue } := by
  unfold persistQueueIn at h
  cases hv : queue.validate toText with
  | error error =>
    rw [hv] at h
    cases h
  | ok u =>
    rw [hv] at h
    cases h
    exact ⟨ProtocolQueue.validate_eq_ok.mp hv, rfl⟩

theorem queueUpsertRecord_appended {db db' : Database}
    (hd : loadQueueFrom read toText db = .ok db.queue)
    {table recordId mutationId : String} {payload : Json} {baseRevision : Option String}
    {resurrect : Bool}
    (h : queueUpsertRecord read reconcile toText db table recordId payload baseRevision resurrect =
      .ok (mutationId, db')) :
    ∃ m recordJson, Appended toText m db db' ∧ m.key = (table, recordId) ∧
      m.payload = some payload ∧ m.edit toText = .upsert (toText payload) ∧
      reconcile (db.localRecords[(table, recordId)]?.getD "{}") (toText payload) = .ok recordJson ∧
      db'.localRecords = db.localRecords.insert (table, recordId) recordJson := by
  unfold queueUpsertRecord queueUpsertWith at h
  rw [hd] at h
  rcases ProtocolQueue.queueUpsert_cases toText db.queue table recordId payload baseRevision
    resurrect with ⟨error, hrefuse⟩ | ⟨queue, m, hok, hrow, henq, -, -⟩
  · simp [bind, Except.bind, hrefuse, throw, throwThe, MonadExceptOf.throw] at h
  · cases hrow
    simp only [bind, Except.bind, hok, overlayLocalRecord] at h
    cases hmerge : reconcile (db.localRecords[(table, recordId)]?.getD "{}") (toText payload) with
    | error error =>
      rw [hmerge] at h
      cases h
    | ok recordJson =>
      simp only [hmerge] at h
      generalize hp : persistQueueIn toText _ queue = out at h
      cases out with
      | error error => cases h
      | ok db'' =>
        obtain ⟨hvalid, rfl⟩ := persistQueueIn_eq_ok hp
        cases h
        exact ⟨_, recordJson, ⟨henq, hvalid, rfl, rfl, rfl, rfl⟩, rfl, rfl, rfl, rfl, rfl⟩

theorem queueUpsertRecord_eq_ok (hR : Reconciles reconcile toText document merge) {db db' : Database}
    (hd : loadQueueFrom read toText db = .ok db.queue)
    (hlocal : ∀ key : RecordKey, IsDocument document db.localRecords[key]?)
    {table recordId mutationId : String} {payload : Json} {baseRevision : Option String}
    {resurrect : Bool}
    (h : queueUpsertRecord read reconcile toText db table recordId payload baseRevision resurrect =
      .ok (mutationId, db')) : ∃ m, m.payload = some payload ∧ Queued merge toText m db db' := by
  obtain ⟨m, recordJson, happended, hkey, hpayload, hedit, hmerge, hlocalRecords⟩ :=
    queueUpsertRecord_appended hd h
  have hbase : document (db.localRecords[(table, recordId)]?.getD "{}") := by
    cases hview : db.localRecords[(table, recordId)]? with
    | none => exact hR.empty
    | some recordJson => exact hlocal _ recordJson hview
  rw [(hR.merges _ _ hbase (hR.text payload)).1, Except.ok.injEq] at hmerge
  refine ⟨m, hpayload, happended, ?_, fun key hne => ?_⟩
  · rw [hlocalRecords, hkey, hedit, Std.ExtTreeMap.getElem?_insert_self, ← hmerge]
    rfl
  · rw [hlocalRecords, Std.ExtTreeMap.getElem?_insert, if_neg]
    intro he
    exact hne (hkey ▸ (Std.LawfulEqCmp.eq_of_compare he).symm)

theorem queueDeleteRecord_eq_ok {db db' : Database} (hd : loadQueueFrom read toText db = .ok db.queue)
    {table recordId mutationId : String} {baseRevision : Option String}
    (h : queueDeleteRecord read toText db table recordId baseRevision = .ok (mutationId, db')) :
    ∃ m, m.payload = none ∧ Queued merge toText m db db' := by
  unfold queueDeleteRecord queueDeleteWith at h
  rw [hd] at h
  rcases ProtocolQueue.queueDelete_cases toText db.queue table recordId baseRevision with
    ⟨error, hrefuse⟩ | ⟨queue, m, hok, hrow, henq, -, -⟩
  · simp [bind, Except.bind, hrefuse, throw, throwThe, MonadExceptOf.throw] at h
  · cases hrow
    simp only [bind, Except.bind, hok] at h
    generalize hp : persistQueueIn toText _ queue = out at h
    cases out with
    | error error => cases h
    | ok db'' =>
      obtain ⟨hvalid, rfl⟩ := persistQueueIn_eq_ok hp
      cases h
      refine ⟨_, rfl, ⟨henq, hvalid, rfl, rfl, rfl, rfl⟩, ?_, fun key hkey => ?_⟩
      · exact Std.ExtTreeMap.getElem?_erase_self
      · simp only [Std.ExtTreeMap.getElem?_erase]
        rw [if_neg]
        intro he
        exact hkey (Std.LawfulEqCmp.eq_of_compare he).symm

end SqliteProtocolStore
end OptoSync
