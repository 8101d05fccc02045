import OptoSync.ProtocolQueueTracks
import OptoSync.SqliteStore

/-!
# The local view and its rebuilding

The local view of a record is its authoritative row with edits replayed on top: first the accepted
ones that the pull has not reached, then the pending ones. This file states that view and shows
that the rebuilding loops of the store compute it, on texts that the engine can merge.
-/
namespace OptoSync
open Decimal

inductive RecordEdit
  | upsert (payloadJson : String)
  | delete

def RecordEdit.apply (merge : String → String → String) (view : Option String) :
    RecordEdit → Option String
  | .upsert payloadJson => some (merge (view.getD "{}") payloadJson)
  | .delete => none

def AcceptedOverlay.edit (overlay : AcceptedOverlay) : RecordEdit :=
  match overlay.payloadJson with
  | some payloadJson => .upsert payloadJson
  | none => .delete

/-- The pull checkpoint from which on an overlay is no longer needed. -/
def AcceptedOverlay.position (overlay : AcceptedOverlay) : ℕ :=
  (parseDecimal overlay.acknowledgementCheckpoint).getD 0

def ProtocolMutation.edit (toText : Json → String) (m : ProtocolMutation) : RecordEdit :=
  match m.operation with
  | .upsert => .upsert (toText (m.payload.getD .null))
  | .delete => .delete

namespace Database

/-- The edits of a record that its authoritative row does not show yet. -/
def edits (toText : Json → String) (db : Database) (key : RecordKey) : List RecordEdit :=
  (SqliteProtocolStore.overlaysOf db.overlays key).map (·.edit) ++
    (db.queue.pending.filter fun m => m.key = key).map (·.edit toText)

def localView (merge : String → String → String) (toText : Json → String) (db : Database)
    (key : RecordKey) : Option String :=
  (db.edits toText key).foldl (RecordEdit.apply merge)
    (db.authoritative[key]?.map (·.recordJson))

end Database

/-- What the merge engine promises: it merges any two documents into a document, and what
`serde_json` prints is one. -/
structure Reconciles (reconcile : String → String → Except Unit String) (toText : Json → String)
    (document : String → Prop) (merge : String → String → String) : Prop where
  empty : document "{}"
  text : ∀ value, document (toText value)
  merges : ∀ base incoming, document base → document incoming →
    reconcile base incoming = .ok (merge base incoming) ∧ document (merge base incoming)

/-- The columns that a view is built from hold documents. -/
structure Database.Documents (document : String → Prop) (db : Database) : Prop where
  authoritative : ∀ (key : RecordKey) (row : AuthoritativeRow),
    db.authoritative[key]? = some row → document row.recordJson
  overlays : ∀ (mutationId : ℤ) (overlay : AcceptedOverlay),
    db.overlays[mutationId]? = some overlay →
    ∀ payloadJson, overlay.payloadJson = some payloadJson → document payloadJson

/-- A fold whose steps all succeed under an invariant. -/
theorem foldlM_eq_ok {ε α β : Type*} {f : β → α → Except ε β} {g : β → α → β} {I : β → Prop}
    {l : List α} (hstep : ∀ b, I b → ∀ a ∈ l, f b a = .ok (g b a) ∧ I (g b a)) {b : β} (hb : I b) :
    l.foldlM f b = .ok (l.foldl g b) ∧ I (l.foldl g b) := by
  induction l generalizing b with
  | nil => exact ⟨rfl, hb⟩
  | cons a l ih =>
    obtain ⟨hf, hg⟩ := hstep b hb a List.mem_cons_self
    rw [List.foldlM_cons, hf]
    exact ih (fun b hb a ha => hstep b hb a (List.mem_cons_of_mem _ ha)) hg

namespace SqliteProtocolStore

variable {reconcile : String → String → Except Unit String} {toText : Json → String}
  {document : String → Prop} {merge : String → String → String}

/-- A present view is a document. -/
def IsDocument (document : String → Prop) (view : Option String) : Prop :=
  ∀ recordJson, view = some recordJson → document recordJson

theorem applyOverlay_upsert (hR : Reconciles reconcile toText document merge)
    {view : Option String} (hview : IsDocument document view) {payloadJson : String}
    (hpayload : document payloadJson) :
    applyOverlay reconcile view "upsert" (some payloadJson) =
        .ok ((RecordEdit.upsert payloadJson).apply merge view) ∧
      IsDocument document ((RecordEdit.upsert payloadJson).apply merge view) := by
  have hbase : document (view.getD "{}") := by
    cases view with
    | none => exact hR.empty
    | some recordJson => exact hview recordJson rfl
  obtain ⟨hmerge, hdocument⟩ := hR.merges _ _ hbase hpayload
  refine ⟨?_, fun recordJson h => ?_⟩
  · simp [applyOverlay, hmerge, RecordEdit.apply]
  · cases h
    exact hdocument

theorem applyOverlay_overlay (hR : Reconciles reconcile toText document merge)
    {view : Option String} (hview : IsDocument document view) {overlay : AcceptedOverlay}
    (hoverlay : ∀ payloadJson, overlay.payloadJson = some payloadJson → document payloadJson) :
    applyOverlay reconcile view overlay.operation overlay.payloadJson =
        .ok (overlay.edit.apply merge view) ∧
      IsDocument document (overlay.edit.apply merge view) := by
  unfold AcceptedOverlay.edit
  rcases overlay.content with ⟨hop, hsome⟩ | ⟨hop, hnone⟩
  · obtain ⟨payloadJson, hpayload⟩ := Option.isSome_iff_exists.mp hsome
    rw [hop, hpayload]
    exact applyOverlay_upsert hR hview (hoverlay payloadJson hpayload)
  · rw [hop, hnone]
    refine ⟨by simp [applyOverlay, RecordEdit.apply], fun recordJson h => ?_⟩
    cases h

theorem replayPending_edit (hR : Reconciles reconcile toText document merge)
    {view : Option String} (hview : IsDocument document view) {m : ProtocolMutation}
    (hpayload : m.operation = .upsert → m.payload.isSome = true) :
    replayPending reconcile toText view m = .ok ((m.edit toText).apply merge view) ∧
      IsDocument document ((m.edit toText).apply merge view) := by
  unfold replayPending ProtocolMutation.edit
  cases hop : m.operation with
  | upsert =>
    obtain ⟨payload, hsome⟩ := Option.isSome_iff_exists.mp (hpayload hop)
    rw [hsome]
    exact applyOverlay_upsert hR hview (hR.text payload)
  | delete =>
    refine ⟨rfl, fun recordJson h => ?_⟩
    cases h

theorem mem_overlaysOf {overlays : Std.ExtTreeMap ℤ AcceptedOverlay compare} {key : RecordKey}
    {overlay : AcceptedOverlay} : overlay ∈ overlaysOf overlays key ↔
      (∃ mutationId : ℤ, overlays[mutationId]? = some overlay) ∧ overlay.key = key := by
  simp [overlaysOf, Std.ExtTreeMap.mem_toList_iff_getElem?_eq_some]

/-- Every pending upsert has a payload, as in a valid queue. -/
def PayloadsPresent (queue : ProtocolQueue) : Prop :=
  ∀ m ∈ queue.pending, m.operation = .upsert → m.payload.isSome = true

theorem recomputeView_eq (hR : Reconciles reconcile toText document merge) {db : Database}
    (hdb : db.Documents document) {queue : ProtocolQueue} (hqueue : PayloadsPresent queue)
    (key : RecordKey) :
    recomputeView reconcile toText db queue key =
      .ok ({ db with queue }.localView merge toText key) := by
  have hauthoritative : IsDocument document (db.authoritative[key]?.map (·.recordJson)) := by
    intro recordJson h
    obtain ⟨row, hrow, rfl⟩ := Option.map_eq_some_iff.mp h
    exact hdb.authoritative key row hrow
  obtain ⟨hoverlays, hview⟩ := foldlM_eq_ok (I := IsDocument document)
    (l := overlaysOf db.overlays key)
    (f := fun view overlay => applyOverlay reconcile view overlay.operation overlay.payloadJson)
    (g := fun view overlay => overlay.edit.apply merge view)
    (fun view hview overlay hoverlay => by
      obtain ⟨⟨mutationId, hget⟩, -⟩ := mem_overlaysOf.mp hoverlay
      exact applyOverlay_overlay hR hview (hdb.overlays mutationId overlay hget)) hauthoritative
  obtain ⟨hpending, -⟩ := foldlM_eq_ok (I := IsDocument document)
    (l := queue.pending.filter fun m => m.key = key) (f := replayPending reconcile toText)
    (g := fun view m => (m.edit toText).apply merge view)
    (fun view hview m hm => replayPending_edit hR hview (hqueue m (List.mem_filter.mp hm).1)) hview
  unfold recomputeView
  simp only [hoverlays, bind, Except.bind, hpending, Database.localView, Database.edits,
    List.foldl_append, List.foldl_map]

/-- A database in which exactly the local records in `keys` were recomputed. -/
structure Rebuilt (merge : String → String → String) (toText : Json → String)
    (queue : ProtocolQueue) (keys : RecordKey → Prop) (db db' : Database) : Prop where
  authoritative : db'.authoritative = db.authoritative
  overlays : db'.overlays = db.overlays
  stored : db'.queue = db.queue
  inside : ∀ key, keys key →
    db'.localRecords[key]? = { db with queue }.localView merge toText key
  outside : ∀ key, ¬ keys key → db'.localRecords[key]? = db.localRecords[key]?

theorem Database.localView_congr {db db' : Database} {key : RecordKey}
    (hauthoritative : db'.authoritative[key]? = db.authoritative[key]?)
    (hoverlays : overlaysOf db'.overlays key = overlaysOf db.overlays key)
    (hpending : (db'.queue.pending.filter fun m => m.key = key) =
      db.queue.pending.filter fun m => m.key = key) :
    db'.localView merge toText key = db.localView merge toText key := by
  simp only [Database.localView, Database.edits, hauthoritative, hoverlays, hpending]

theorem rebuildLocalRecord_eq (hR : Reconciles reconcile toText document merge) {db : Database}
    (hdb : db.Documents document) {queue : ProtocolQueue} (hqueue : PayloadsPresent queue)
    (key : RecordKey) : ∃ db', rebuildLocalRecord reconcile toText queue db key = .ok db' ∧
      Rebuilt merge toText queue (· = key) db db' := by
  unfold rebuildLocalRecord
  rw [recomputeView_eq hR hdb hqueue]
  simp only [bind, Except.bind]
  cases hview : ({ db with queue } : Database).localView merge toText key with
  | some recordJson =>
    refine ⟨_, rfl, rfl, rfl, rfl, fun k hk => ?_, fun k hk => ?_⟩
    · subst hk
      rw [hview]
      exact Std.ExtTreeMap.getElem?_insert_self
    · simp [writeLocalRecord, Std.ExtTreeMap.getElem?_insert, Ne.symm hk]
  | none =>
    refine ⟨_, rfl, rfl, rfl, rfl, fun k hk => ?_, fun k hk => ?_⟩
    · subst hk
      rw [hview]
      exact Std.ExtTreeMap.getElem?_erase_self
    · simp [Std.ExtTreeMap.getElem?_erase, Ne.symm hk]

theorem foldlM_rebuildLocalRecord_eq (hR : Reconciles reconcile toText document merge)
    {queue : ProtocolQueue} (hqueue : PayloadsPresent queue) (keys : List RecordKey)
    (db : Database) (hdb : db.Documents document) :
    ∃ db', keys.foldlM (rebuildLocalRecord reconcile toText queue) db = .ok db' ∧
      Rebuilt merge toText queue (· ∈ keys) db db' := by
  induction keys generalizing db with
  | nil => exact ⟨db, rfl, rfl, rfl, rfl, fun k hk => absurd hk List.not_mem_nil, fun k _ => rfl⟩
  | cons key keys ih =>
    obtain ⟨mid, hmid, hone⟩ := rebuildLocalRecord_eq hR hdb hqueue key
    have hmiddb : mid.Documents document :=
      ⟨hone.authoritative ▸ hdb.authoritative, hone.overlays ▸ hdb.overlays⟩
    obtain ⟨db', hdb', hrest⟩ := ih mid hmiddb
    have hview : ∀ k, ({ mid with queue } : Database).localView merge toText k =
        { db with queue }.localView merge toText k := fun k =>
      Database.localView_congr (by rw [hone.authoritative]) (by rw [hone.overlays]) rfl
    refine ⟨db', ?_, hrest.authoritative.trans hone.authoritative,
      hrest.overlays.trans hone.overlays, hrest.stored.trans hone.stored, fun k hk => ?_,
      fun k hk => ?_⟩
    · rw [List.foldlM_cons, hmid]
      exact hdb'
    · by_cases hin : k ∈ keys
      · rw [hrest.inside k hin, hview]
      · rw [hrest.outside k hin]
        exact hone.inside k ((List.mem_cons.mp hk).resolve_right hin)
    · rw [List.mem_cons, not_or] at hk
      rw [hrest.outside k hk.2, hone.outside k hk.1]

/-- After a snapshot every local record is the recomputed one. -/
theorem rebuildAllLocal_eq (hR : Reconciles reconcile toText document merge) {db : Database}
    (hdb : db.Documents document) {queue : ProtocolQueue} (hqueue : PayloadsPresent queue) :
    ∃ db', rebuildAllLocal reconcile toText db queue = .ok db' ∧
      Rebuilt merge toText queue (fun _ => True) db db' := by
  unfold rebuildAllLocal
  obtain ⟨db', hdb', hrebuilt⟩ := foldlM_rebuildLocalRecord_eq hR hqueue
    (Std.ExtTreeSet.ofList (db.authoritative.keys ++ queue.pending.map (·.key) ++
      db.overlays.toList.map fun row => row.2.key) recordOrder).toList
    { db with localRecords := ∅ } ⟨hdb.authoritative, hdb.overlays⟩
  refine ⟨db', hdb', hrebuilt.authoritative, hrebuilt.overlays, hrebuilt.stored, fun key _ => ?_,
    fun key h => absurd trivial h⟩
  by_cases hkey : key ∈ (Std.ExtTreeSet.ofList (db.authoritative.keys ++
      queue.pending.map (·.key) ++ db.overlays.toList.map fun row => row.2.key) recordOrder).toList
  · exact hrebuilt.inside key hkey
  · rw [hrebuilt.outside key hkey]
    simp only [Std.ExtTreeSet.mem_toList, Std.ExtTreeSet.mem_ofList, List.contains_iff_mem,
      List.mem_append, not_or, Std.ExtTreeMap.mem_keys] at hkey
    obtain ⟨⟨hauthoritative, hpending⟩, hoverlays⟩ := hkey
    have hnoPending : queue.pending.filter (fun m => m.key = key) = [] :=
      List.filter_eq_nil_iff.mpr fun m hm hmk =>
        hpending (List.mem_map.mpr ⟨m, hm, by simpa using hmk⟩)
    have hnoOverlay : overlaysOf db.overlays key = [] := by
      refine List.eq_nil_iff_forall_not_mem.mpr fun overlay h => hoverlays ?_
      obtain ⟨⟨mutationId, hget⟩, hok⟩ := mem_overlaysOf.mp h
      exact List.mem_map.mpr ⟨(mutationId, overlay),
        Std.ExtTreeMap.mem_toList_iff_getElem?_eq_some.mpr hget, hok⟩
    simp [Database.localView, Database.edits, hnoPending, hnoOverlay,
      Std.ExtTreeMap.getElem?_eq_none hauthoritative]

theorem pairwise_toList (overlays : Std.ExtTreeMap ℤ AcceptedOverlay compare) :
    (overlays.toList.map Prod.fst).Pairwise (· < ·) := by
  rw [Std.ExtTreeMap.map_fst_toList_eq_keys]
  exact Std.ExtTreeMap.ordered_keys.imp fun h => compare_lt_iff_lt.mp h

/-- Only the overlays of a record decide its list of overlays. -/
theorem overlaysOf_congr {overlays overlays' : Std.ExtTreeMap ℤ AcceptedOverlay compare}
    {key : RecordKey} (h : ∀ (mutationId : ℤ) (overlay : AcceptedOverlay), overlay.key = key →
      (overlays[mutationId]? = some overlay ↔ overlays'[mutationId]? = some overlay)) :
    overlaysOf overlays key = overlaysOf overlays' key := by
  have hrows : (overlays.toList.filter fun row => row.2.key = key) =
      overlays'.toList.filter fun row => row.2.key = key := by
    refine eq_of_ascending (f := Prod.fst) ?_ ?_ fun row => ?_
    · exact (pairwise_toList overlays).sublist (List.filter_sublist.map _)
    · exact (pairwise_toList overlays').sublist (List.filter_sublist.map _)
    · obtain ⟨mutationId, overlay⟩ := row
      simp only [List.mem_filter, Std.ExtTreeMap.mem_toList_iff_getElem?_eq_some, decide_eq_true_eq]
      exact ⟨fun ⟨hget, hk⟩ => ⟨(h mutationId overlay hk).mp hget, hk⟩,
        fun ⟨hget, hk⟩ => ⟨(h mutationId overlay hk).mpr hget, hk⟩⟩
  simpa [overlaysOf, List.filter_map, Function.comp_def] using congrArg (List.map Prod.snd) hrows

theorem parseU64_overlay (overlay : AcceptedOverlay) :
    parseU64 overlay.acknowledgementCheckpoint = some overlay.position := by
  obtain ⟨n, hn⟩ := Option.isSome_iff_exists.mp ((isCanonicalDecimal_iff _).mp overlay.canonical)
  rw [parseU64_of_parseDecimal hn, AcceptedOverlay.position, hn]
  rfl

theorem reachedOverlays_eq (through : ℕ) (rows : List (ℤ × AcceptedOverlay)) :
    reachedOverlays through rows = .ok
      ((rows.filter fun row => row.2.position ≤ through).map fun row => (row.1, row.2.key)) := by
  induction rows with
  | nil => rfl
  | cons row rows ih =>
    unfold reachedOverlays
    rw [parseU64_overlay, ih]
    by_cases h : row.2.position ≤ through
    · rw [List.filter_cons_of_pos (by simpa using h)]
      simp [bind, Except.bind, h]
      rfl
    · rw [List.filter_cons_of_neg (by simpa using h)]
      simp [bind, Except.bind, h]
      rfl

theorem getElem?_foldl_erase {α : Type} (ids : List ℤ) (table : Std.ExtTreeMap ℤ α compare) (k : ℤ) :
    (ids.foldl (·.erase ·) table)[k]? = if k ∈ ids then none else table[k]? := by
  induction ids generalizing table with
  | nil => simp
  | cons id ids ih =>
    rw [List.foldl_cons, ih]
    by_cases hk : k ∈ ids
    · simp [hk]
    · by_cases hid : k = id
      · simp [hid]
      · simp [hk, hid, Std.ExtTreeMap.getElem?_erase, Ne.symm hid]

/-- Clearing removes exactly the overlays that the checkpoint has reached. -/
structure Cleared (through : ℕ) (db db' : Database) (cleared : RecordKeys) : Prop where
  authoritative : db'.authoritative = db.authoritative
  localRecords : db'.localRecords = db.localRecords
  stored : db'.queue = db.queue
  overlays : ∀ (mutationId : ℤ) (overlay : AcceptedOverlay),
    db'.overlays[mutationId]? = some overlay ↔
      db.overlays[mutationId]? = some overlay ∧ through < overlay.position
  keys : ∀ key : RecordKey, key ∈ cleared ↔ ∃ (mutationId : ℤ) (overlay : AcceptedOverlay),
    db.overlays[mutationId]? = some overlay ∧ overlay.position ≤ through ∧ overlay.key = key

theorem clearAcceptedOverlaysThrough_eq (db : Database) {checkpoint : String} {through : ℕ}
    (hc : parseDecimal checkpoint = some through) :
    ∃ db' cleared, clearAcceptedOverlaysThrough db checkpoint = .ok (db', cleared) ∧
      Cleared through db db' cleared := by
  unfold clearAcceptedOverlaysThrough
  rw [parseU64_of_parseDecimal hc]
  simp only [reachedOverlays_eq, bind, Except.bind]
  refine ⟨_, _, rfl, rfl, rfl, rfl, fun mutationId overlay => ?_, fun key => ?_⟩
  · have hreached : mutationId ∈ ((db.overlays.toList.filter fun row =>
          row.2.position ≤ through).map fun row => (row.1, row.2.key)).map Prod.fst ↔
        ∃ overlay, db.overlays[mutationId]? = some overlay ∧ overlay.position ≤ through := by
      simp [Std.ExtTreeMap.mem_toList_iff_getElem?_eq_some]
    simp only [getElem?_foldl_erase, hreached]
    split
    · rename_i hex
      obtain ⟨overlay', hget, hle⟩ := hex
      refine ⟨fun h => (by cases h), fun ⟨h, hlt⟩ => ?_⟩
      rw [hget, Option.some.injEq] at h
      subst h
      omega
    · rename_i hnone
      refine ⟨fun h => ⟨h, ?_⟩, fun h => h.1⟩
      by_contra hle
      exact hnone ⟨overlay, h, Nat.not_lt.mp hle⟩
  · simp only [Std.ExtTreeSet.mem_ofList, List.contains_iff_mem, List.mem_map, List.mem_filter,
      List.map_map, decide_eq_true_eq, Function.comp_apply, Prod.exists,
      Std.ExtTreeMap.mem_toList_iff_getElem?_eq_some, and_assoc]

theorem loadQueueFrom_eq_ok {read : ProtocolQueue → Option ProtocolQueue} {db : Database}
    {d : ProtocolQueue} : loadQueueFrom read toText db = .ok d ↔
      read db.queue = some d ∧ ProtocolQueue.Valid toText d := by
  unfold loadQueueFrom
  cases read db.queue with
  | none => simp
  | some queue =>
    dsimp only
    rw [← ProtocolQueue.validate_eq_ok, Option.some.injEq]
    cases hv : queue.validate toText with
    | error error =>
      refine ⟨fun h => (by cases h), fun h => ?_⟩
      obtain ⟨rfl, hok⟩ := h
      rw [hv] at hok
      cases hok
    | ok u =>
      refine ⟨fun h => ?_, fun h => congrArg _ h.1⟩
      cases h
      exact ⟨rfl, hv⟩

theorem loadQueueFrom_asWritten {db : Database} (h : ProtocolQueue.Valid toText db.queue) :
    loadQueueFrom (asWritten toText) toText db = .ok db.queue := by
  rw [loadQueueFrom_eq_ok, asWritten, ProtocolQueue.validate_eq_ok.mpr h]
  exact ⟨rfl, h⟩

theorem persistQueueIn_eq (db : Database) {queue : ProtocolQueue}
    (h : ProtocolQueue.Valid toText queue) :
    persistQueueIn toText db queue = .ok { db with queue } := by
  unfold persistQueueIn
  rw [ProtocolQueue.validate_eq_ok.mpr h]

/-- A new database: empty tables and an empty queue that has pulled nothing. -/
structure IsNew (toText : Json → String) (db : Database) : Prop where
  authoritative : db.authoritative = ∅
  localRecords : db.localRecords = ∅
  overlays : db.overlays = ∅
  mutations : db.queue.mutations = []
  valid : ProtocolQueue.Valid toText db.queue
  position : db.queue.position = 0

theorem isNew_of_open (toText : Json → String) {clientId : String} {maxPending maxBytes : ℕ}
    {db : Database} (h : openWithLimits clientId maxPending maxBytes = .ok db) :
    IsNew toText db := by
  unfold openWithLimits at h
  cases hq : ProtocolQueue.withLimits clientId maxPending maxBytes with
  | error error =>
    rw [hq] at h
    cases h
  | ok queue =>
    rw [hq] at h
    cases h
    have hreached : ProtocolQueue.Reached toText queue [] 0 := .of_withLimits hq
    have hnone : queue.mutations = [] := by
      refine List.eq_nil_iff_forall_not_mem.mpr fun m hm => ?_
      obtain ⟨r, hr, -⟩ := hreached.mem_row hm
      cases hr
    have hzero : queue.checkpoint = "0" := by
      unfold ProtocolQueue.withLimits at hq
      split_ifs at hq
      cases hq
      rfl
    refine ⟨rfl, rfl, rfl, hnone, hreached.valid_iff.mpr fun m hm => by simp [hnone] at hm, ?_⟩
    show (parseDecimal queue.checkpoint).getD 0 = 0
    rw [hzero]
    decide

end SqliteProtocolStore
end OptoSync
