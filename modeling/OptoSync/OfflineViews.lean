import OptoSync.DriftQueue
import OptoSync.IndexedDbQueueRun
import OptoSync.SqliteSessions

/-!
# The offline views of the three clients

When the TypeScript and the Dart client show the view that the Rust store builds. They replay the
payload column of every pending row, and the row of a delete holds the empty object there.
-/
namespace OptoSync
open Transition

namespace RecordEdit

def payloadJson : RecordEdit → String
  | .upsert payloadJson => payloadJson
  | .delete => "{}"

def replay (merge : String → String → String) (base : String) (edits : List RecordEdit) : String :=
  edits.foldl (fun view edit => merge view edit.payloadJson) base

/-- Each delete is followed by an edit, and nothing stands before it that it could hide. -/
def NothingHidden (base : String) (edits : List RecordEdit) : Prop :=
  ∀ before after, edits = before ++ .delete :: after →
    after ≠ [] ∧ base = "{}" ∧ ∀ payloadJson, .upsert payloadJson ∈ before → payloadJson = "{}"

variable {merge : String → String → String}

theorem replay_append (base : String) (edits edits' : List RecordEdit) :
    replay merge base (edits ++ edits') = replay merge (replay merge base edits) edits' :=
  List.foldl_append

theorem exists_last_delete {edits : List RecordEdit} (h : .delete ∈ edits) :
    ∃ before after, edits = before ++ .delete :: after ∧ .delete ∉ after := by
  induction edits with
  | nil => cases h
  | cons edit edits ih =>
    by_cases hlater : .delete ∈ edits
    · obtain ⟨before, after, hsplit, hafter⟩ := ih hlater
      exact ⟨edit :: before, after, by rw [hsplit, List.cons_append], hafter⟩
    · rcases List.mem_cons.mp h with hedit | hedit
      · exact ⟨[], edits, by rw [← hedit, List.nil_append], hlater⟩
      · exact absurd hedit hlater

/-- Without a delete the two replays are one. -/
theorem foldl_apply_upserts {edits : List RecordEdit} (h : .delete ∉ edits) (view : String) :
    edits.foldl (RecordEdit.apply merge) (some view) = some (replay merge view edits) := by
  induction edits generalizing view with
  | nil => rfl
  | cons edit edits ih =>
    obtain ⟨hedit, hedits⟩ := not_or.mp (mt List.mem_cons.mpr h)
    cases edit with
    | upsert payloadJson => exact ih hedits _
    | delete => exact absurd rfl hedit

variable (hmerge : ∀ document, merge document "{}" = document)
include hmerge

theorem replay_blank {edits : List RecordEdit}
    (h : ∀ payloadJson, .upsert payloadJson ∈ edits → payloadJson = "{}") (base : String) :
    replay merge base edits = base := by
  induction edits with
  | nil => rfl
  | cons edit edits ih =>
    have hpayload : edit.payloadJson = "{}" := by
      cases edit with
      | upsert payloadJson => exact h payloadJson List.mem_cons_self
      | delete => rfl
    rw [replay, List.foldl_cons, hpayload, hmerge]
    exact ih fun payloadJson hmem => h payloadJson (List.mem_cons_of_mem _ hmem)

theorem agree_of_nothingHidden {base : String} {edits : List RecordEdit}
    (h : NothingHidden base edits) :
    edits.foldl (RecordEdit.apply merge) (some base) = some (replay merge base edits) := by
  by_cases hdelete : .delete ∈ edits
  · obtain ⟨before, after, rfl, hafter⟩ := exists_last_delete hdelete
    obtain ⟨hne, rfl, hblank⟩ := h before after rfl
    rw [replay_append, replay_blank hmerge hblank, List.foldl_append, List.foldl_cons]
    cases after with
    | nil => exact absurd rfl hne
    | cons edit after =>
      obtain ⟨hedit, hlater⟩ := not_or.mp (mt List.mem_cons.mpr hafter)
      cases edit with
      | upsert payloadJson =>
        rw [List.foldl_cons, RecordEdit.apply, RecordEdit.apply, foldl_apply_upserts hlater]
        simp only [replay, List.foldl_cons, RecordEdit.payloadJson, hmerge, Option.getD_none]
      | delete => exact absurd rfl hedit
  · exact foldl_apply_upserts hdelete base

omit hmerge

/-- A merge that keeps both documents, unless the second one is empty. -/
def nest (document payload : String) : String :=
  if payload = "{}" then document
  else "\x7b\"base\":" ++ document ++ ",\"edit\":" ++ payload ++ "\x7d"

theorem nest_blank (document : String) : nest document "{}" = document := if_pos rfl

theorem nest_inj {a b payload : String} (h : nest a payload = nest b payload) : a = b := by
  unfold nest at h
  split at h
  · exact h
  · have hlist := congrArg String.toList h
    simpa [String.toList_append, String.toList_inj] using hlist

theorem nest_eq_blank {document payload : String} (h : nest document payload = "{}") :
    document = "{}" ∧ payload = "{}" := by
  unfold nest at h
  split at h
  · rename_i hpayload
    exact ⟨h, hpayload⟩
  · have hlength := congrArg String.length h
    simp only [String.length_append] at hlength
    have hbase : "\x7b\"base\":".length = 8 := rfl
    have hblank : "{}".length = 2 := rfl
    omega

theorem blank_of_replay_nest {base : String} {edits : List RecordEdit}
    (h : replay nest base edits = "{}") :
    base = "{}" ∧ ∀ payloadJson, .upsert payloadJson ∈ edits → payloadJson = "{}" := by
  induction edits generalizing base with
  | nil => exact ⟨h, fun _ hmem => by cases hmem⟩
  | cons edit edits ih =>
    obtain ⟨hview, hedits⟩ := ih h
    obtain ⟨hbase, hedit⟩ := nest_eq_blank hview
    refine ⟨hbase, fun payloadJson hmem => ?_⟩
    rcases List.mem_cons.mp hmem with rfl | hmem
    · exact hedit
    · exact hedits payloadJson hmem

/-- Two replays that end in one view began in one, or the present one began empty. -/
theorem start_of_replay_nest {edits : List RecordEdit} {view : Option String} {base : String}
    (h : edits.foldl (RecordEdit.apply nest) view = some (replay nest base edits)) :
    (view = some base ∨ base = "{}") ∧ (view = none → edits ≠ []) := by
  induction edits generalizing view base with
  | nil => exact ⟨.inl h, fun hnone => by rw [hnone] at h; cases h⟩
  | cons edit edits ih =>
    refine ⟨?_, fun _ => List.cons_ne_nil _ _⟩
    obtain ⟨hstart, -⟩ := ih h
    cases edit with
    | delete =>
      rcases hstart with hstart | hstart
      · cases hstart
      · exact .inr ((nest_blank base).symm.trans hstart)
    | upsert payloadJson =>
      rcases hstart with hstart | hstart
      · have hview := nest_inj (Option.some.inj hstart)
        cases view with
        | none => exact .inr hview.symm
        | some document => exact .inl (congrArg some hview)
      · exact .inr (nest_eq_blank hstart).1

theorem nothingHidden_of_agree {base : String} {edits : List RecordEdit}
    (h : edits.foldl (RecordEdit.apply nest) (some base) = some (replay nest base edits)) :
    NothingHidden base edits := by
  rintro before after rfl
  rw [replay_append, List.foldl_append, List.foldl_cons] at h
  have h' : after.foldl (RecordEdit.apply nest) none =
      some (replay nest (nest (replay nest base before) "{}") after) := h
  obtain ⟨hstart, hne⟩ := start_of_replay_nest h'
  rw [nest_blank] at hstart
  rcases hstart with hstart | hstart
  · cases hstart
  · obtain ⟨hbase, hbefore⟩ := blank_of_replay_nest hstart
    exact ⟨hne rfl, hbase, hbefore⟩

theorem agree_iff {base : String} {edits : List RecordEdit} :
    (∀ merge : String → String → String, (∀ document, merge document "{}" = document) →
      edits.foldl (RecordEdit.apply merge) (some base) = some (replay merge base edits)) ↔
      NothingHidden base edits :=
  ⟨fun h => nothingHidden_of_agree (h nest nest_blank),
    fun h _ hmerge => agree_of_nothingHidden hmerge h⟩

end RecordEdit

/-! ## The TypeScript client -/

def LocalMutation.edit (row : LocalMutation) : RecordEdit :=
  match row.operation.getD .upsert with
  | .upsert => .upsert row.jsonPayload
  | .delete => .delete

namespace OptoSyncDatabase

def edits (db : OptoSyncDatabase) (key : RecordKey) : List RecordEdit :=
  (db.localMutations.filter fun row => isPending row && (row.tableName, row.recordId) = key).map
    LocalMutation.edit

/-- The rows of deletes hold the empty object. -/
def DeletesBlank (db : OptoSyncDatabase) : Prop :=
  ∀ row ∈ db.localMutations, row.operation = some .delete → row.jsonPayload = "{}"

theorem DeletesBlank.add {db : OptoSyncDatabase} (h : DeletesBlank db) {row : LocalMutation}
    (hrow : row.operation = some .delete → row.jsonPayload = "{}") : DeletesBlank (db.add row) := by
  intro r hr
  rcases List.mem_append.mp hr with hr | hr
  · exact h r hr
  · rw [List.mem_singleton.mp hr]
    exact hrow

theorem DeletesBlank.updateStatus {db : OptoSyncDatabase} (h : DeletesBlank db) (ids : List ℕ)
    (syncStatus : ℤ) : DeletesBlank (db.updateStatus ids syncStatus) := by
  intro r hr
  obtain ⟨row, hrow, rfl⟩ := List.mem_map.mp hr
  have hblank := h row hrow
  unfold withStatus
  split
  · exact hblank
  · exact hblank

theorem DeletesBlank.bulkDelete {db : OptoSyncDatabase} (h : DeletesBlank db) (ids : List ℕ) :
    DeletesBlank (db.bulkDelete ids) :=
  fun row hrow => h row (List.mem_filter.mp hrow).1

end OptoSyncDatabase

namespace OptoSyncClient
open OptoSyncDatabase

variable {client : OptoSyncClient} {parse : String → Option Json}

theorem deletesBlank_next {db : OptoSyncDatabase} (h : DeletesBlank db)
    (call : ClientCall parse) : DeletesBlank (client.next parse db call) := by
  unfold next
  cases hperform : client.perform parse db call with
  | error error => exact h
  | ok db' =>
    cases call with
    | queueMutation tableName recordId payload protocol createdAt =>
      obtain ⟨row, rfl, -, -, -, hoperation, -⟩ := insert_ok hperform
      apply h.add
      rw [hoperation]
      intro hdelete
      cases hdelete
    | queueDelete tableName recordId baseRevision consistencyPolicy createdAt =>
      obtain ⟨row, rfl, -, -, -, -, hpayload⟩ := insert_ok hperform
      apply h.add
      intro _
      rw [hpayload]
      rfl
    | markMutation id syncStatus =>
      cases hperform
      exact h.updateStatus _ _
    | acknowledgePush response request =>
      obtain ⟨n, rfl⟩ := acknowledgePush_ok hperform
      exact h.updateStatus _ _
    | confirmSyncedUpTo lastMutationId clientId =>
      cases hperform
      exact h.updateStatus _ _
    | pruneConfirmed retain =>
      cases hperform
      exact h.bulkDelete _

theorem deletesBlank_upgrade (store : LegacyStore) : DeletesBlank store.upgrade := by
  intro row hrow hdelete
  obtain ⟨m, -, rfl⟩ := List.mem_map.mp hrow
  cases hdelete

theorem run_deletesBlank (client : OptoSyncClient) (store : LegacyStore)
    (calls : List (ClientCall parse)) :
    (run (client.next parse) store.upgrade calls).DeletesBlank := by
  apply run_invariant (I := DeletesBlank)
  · intro db call h
    exact deletesBlank_next h call
  · exact deletesBlank_upgrade store

theorem localView_eq {db : OptoSyncDatabase} (h : DeletesBlank db)
    (reconcile : String → String → String) (key : RecordKey) (serverPayload : String) :
    localView reconcile db key.1 key.2 serverPayload =
      RecordEdit.replay reconcile serverPayload (db.edits key) := by
  have hpayload : ∀ row ∈ db.localMutations, row.edit.payloadJson = row.jsonPayload := by
    intro row hrow
    unfold LocalMutation.edit
    cases hoperation : row.operation with
    | none => rfl
    | some operation =>
      cases operation with
      | upsert => rfl
      | delete => exact (h row hrow hoperation).symm
  simp only [localView, rebasePending, RecordEdit.replay, OptoSyncDatabase.edits,
    pendingMutations_eq, List.filter_filter, List.foldl_map]
  have hfilter : (db.localMutations.filter fun row =>
      decide (row.recordId = key.2) && (decide (row.tableName = key.1) && isPending row)) =
      db.localMutations.filter fun row =>
        isPending row && decide ((row.tableName, row.recordId) = key) := by
    congr 1
    funext row
    rw [Bool.eq_iff_iff]
    simp only [Bool.and_eq_true, decide_eq_true_eq, Prod.ext_iff]
    tauto
  rw [hfilter]
  apply List.foldl_ext
  intro view row hrow
  rw [hpayload row (List.mem_filter.mp hrow).1]

end OptoSyncClient

/-! ## The Dart client -/

namespace Dart

def Mutation.edit (row : Mutation) : RecordEdit :=
  if row.operation = "delete" then .delete else .upsert row.jsonPayload

/-- A call of a mutator. An acknowledged push marks some rows. -/
inductive ClientCall
  | queueMutation (tableName recordId jsonPayload : String) (baseRevision : Option String)
      (resurrect : Bool) (consistencyPolicy : Option String) (createdAt : ℕ)
  | queueDelete (tableName recordId : String) (baseRevision consistencyPolicy : Option String)
      (createdAt : ℕ)
  | markSynced (ids : List ℕ)
  | pruneConfirmed (retain : ℕ)

namespace OptoSyncDatabase

def edits (db : OptoSyncDatabase) (key : RecordKey) : List RecordEdit :=
  (db.localMutations.filter fun row =>
    isPending row && (row.targetTable, row.recordId) = key).map Mutation.edit

/-- The rows of deletes hold the empty object. -/
def DeletesBlank (db : OptoSyncDatabase) : Prop :=
  ∀ row ∈ db.localMutations, row.operation = "delete" → row.jsonPayload = "{}"

/-- The columns that an upgrade adds have their defaults: every row is an upsert. -/
def Upgraded (db : OptoSyncDatabase) : Prop := ∀ row ∈ db.localMutations, row.operation = "upsert"

end OptoSyncDatabase

namespace OptoSyncClient
open OptoSync.Dart.OptoSyncDatabase

def perform (client : OptoSyncClient) (db : OptoSyncDatabase) :
    ClientCall → Except String OptoSyncDatabase
  | .queueMutation tableName recordId jsonPayload baseRevision resurrect consistencyPolicy
      createdAt =>
    client.queueMutation db tableName recordId jsonPayload baseRevision resurrect consistencyPolicy
      createdAt
  | .queueDelete tableName recordId baseRevision consistencyPolicy createdAt =>
    client.queueDelete db tableName recordId baseRevision consistencyPolicy createdAt
  | .markSynced ids => .ok (db.markSynced ids)
  | .pruneConfirmed retain => .ok (pruneConfirmed db retain)

def next (client : OptoSyncClient) (db : OptoSyncDatabase) (call : ClientCall) :
    OptoSyncDatabase :=
  match client.perform db call with
  | .ok db' => db'
  | .error _ => db

variable {client : OptoSyncClient}

theorem queue_eq {db db' : OptoSyncDatabase} {row : Mutation} {consistencyPolicy : Option String}
    (h : client.queue db row consistencyPolicy = .ok db') :
    db' = db.insert { row with
      clientId := some client.clientId, mutationId := some (db.mutationSeq + 1).repr } := by
  unfold queue at h
  obtain ⟨-, -, h⟩ := bind_eq_ok.mp h
  obtain ⟨-, -, h⟩ := bind_eq_ok.mp h
  obtain ⟨-, -, h⟩ := bind_eq_ok.mp h
  exact (Except.ok.inj h).symm

theorem queue_ok {db db' : OptoSyncDatabase} {row : Mutation} {consistencyPolicy : Option String}
    (h : client.queue db row consistencyPolicy = .ok db') :
    ∃ queued : Mutation, db' = db.insert queued ∧ queued.operation = row.operation ∧
      queued.jsonPayload = row.jsonPayload :=
  ⟨_, queue_eq h, rfl, rfl⟩

theorem deletesBlank_insert {db : OptoSyncDatabase} (h : DeletesBlank db) {row : Mutation}
    (hrow : row.operation = "delete" → row.jsonPayload = "{}") : DeletesBlank (db.insert row) := by
  intro r hr
  rcases List.mem_append.mp hr with hr | hr
  · exact h r hr
  · rw [List.mem_singleton.mp hr]
    exact hrow

theorem deletesBlank_next {db : OptoSyncDatabase} (h : DeletesBlank db) (call : ClientCall) :
    DeletesBlank (client.next db call) := by
  unfold next
  cases hperform : client.perform db call with
  | error error => exact h
  | ok db' =>
    cases call with
    | queueMutation tableName recordId jsonPayload baseRevision resurrect policy createdAt =>
      obtain ⟨row, rfl, hoperation, -⟩ := queue_ok hperform
      apply deletesBlank_insert h
      rw [hoperation]
      intro hdelete
      simp [blankRow] at hdelete
    | queueDelete tableName recordId baseRevision policy createdAt =>
      obtain ⟨row, rfl, -, hpayload⟩ := queue_ok hperform
      apply deletesBlank_insert h
      intro _
      rw [hpayload]
      rfl
    | markSynced ids =>
      cases hperform
      intro r hr
      obtain ⟨row, hrow, rfl⟩ := List.mem_map.mp hr
      have hblank := h row hrow
      unfold withSynced
      split
      · exact hblank
      · exact hblank
    | pruneConfirmed retain =>
      cases hperform
      exact fun row hrow => h row (List.mem_filter.mp hrow).1

theorem deletesBlank_upgraded {db : OptoSyncDatabase} (h : Upgraded db) : DeletesBlank db := by
  intro row hrow hdelete
  rw [h row hrow] at hdelete
  simp at hdelete

theorem run_deletesBlank (client : OptoSyncClient) {db : OptoSyncDatabase} (h : Upgraded db)
    (calls : List ClientCall) : (run client.next db calls).DeletesBlank := by
  apply run_invariant (I := DeletesBlank)
  · intro db call h
    exact deletesBlank_next h call
  · exact deletesBlank_upgraded h

theorem localView_eq {db : OptoSyncDatabase} (h : DeletesBlank db) {merge : String → String → String}
    (hoverlay : client.overlaySyncer = some merge) (key : RecordKey) (serverPayload : String) :
    client.localView db key.1 key.2 serverPayload =
      .ok (RecordEdit.replay merge serverPayload (db.edits key)) := by
  have hpayload : ∀ row ∈ db.localMutations, row.edit.payloadJson = row.jsonPayload := by
    intro row hrow
    unfold Mutation.edit
    split
    · rename_i hdelete
      exact (h row hrow hdelete).symm
    · rfl
  have hfilter : (db.localMutations.filter fun row =>
      decide (row.targetTable = key.1) && decide (row.recordId = key.2) && isPending row) =
      db.localMutations.filter fun row =>
        isPending row && decide ((row.targetTable, row.recordId) = key) := by
    congr 1
    funext row
    rw [Bool.eq_iff_iff]
    simp only [Bool.and_eq_true, decide_eq_true_eq, Prod.ext_iff]
    tauto
  simp only [localView, hoverlay, hfilter, orderById_filter db.sorted, rebasePending, RecordEdit.replay,
    OptoSyncDatabase.edits, List.foldl_map, Except.ok.injEq]
  apply List.foldl_ext
  intro view row hrow
  rw [hpayload row (List.mem_filter.mp hrow).1]

end OptoSyncClient
end Dart

namespace OfflineViews
open SqliteProtocolStore Sessions

/-- For the same pending edits of a record the views of all three clients are equal, whatever the
merge, exactly if no pending delete hides anything. -/
theorem run_localView_agree_iff (client : OptoSyncClient) (parse : String → Option Json)
    (store : LegacyStore) (calls : List (ClientCall parse)) (dart : Dart.OptoSyncClient)
    {drift : Dart.OptoSyncDatabase} (hdrift : drift.Upgraded) (dartCalls : List Dart.ClientCall)
    (toText : Json → String) (rust : Database) (hrust : PayloadsPresent rust.queue)
    (key : RecordKey) {base : AuthoritativeRow} (hbase : rust.authoritative[key]? = some base)
    (hts : (run (client.next parse) store.upgrade calls).edits key = rust.edits toText key)
    (hdart : (run dart.next drift dartCalls).edits key = rust.edits toText key) :
    (∀ merge : String → String → String, (∀ document, merge document "{}" = document) →
      ∃ view, recomputeView (total merge) toText rust rust.queue key = .ok (some view) ∧
        OptoSyncClient.localView merge (run (client.next parse) store.upgrade calls) key.1 key.2
          base.recordJson = view ∧
        { dart with overlaySyncer := some merge }.localView (run dart.next drift dartCalls)
          key.1 key.2 base.recordJson = .ok view) ↔
      RecordEdit.NothingHidden base.recordJson (rust.edits toText key) := by
  have htsBlank := OptoSyncClient.run_deletesBlank client store calls
  have hdartBlank := dart.run_deletesBlank hdrift dartCalls
  rw [← RecordEdit.agree_iff]
  refine forall₂_congr fun merge _ => ?_
  have hview : recomputeView (total merge) toText rust rust.queue key =
      .ok ((rust.edits toText key).foldl (RecordEdit.apply merge) (some base.recordJson)) := by
    rw [recomputeView_eq (reconciles_total merge toText) (documents_true rust) hrust key,
      Database.localView, hbase]
    rfl
  have htsView := OptoSyncClient.localView_eq htsBlank merge key base.recordJson
  have hdartView : { dart with overlaySyncer := some merge }.localView
      (run dart.next drift dartCalls) key.1 key.2 base.recordJson = .ok (RecordEdit.replay merge
        base.recordJson ((run dart.next drift dartCalls).edits key)) :=
    Dart.OptoSyncClient.localView_eq hdartBlank rfl key base.recordJson
  rw [hview, htsView, hdartView, hts, hdart]
  constructor
  · rintro ⟨view, hrustView, rfl, -⟩
    exact Except.ok.inj hrustView
  · intro h
    exact ⟨_, congrArg _ h, rfl, rfl⟩

/-! A stored record with one pending delete. -/

def tsClient : OptoSyncClient :=
  { clientId := "device", maxPendingMutations := 10000, maxQueuedPayloadBytes := 261120
    defaultConsistencyPolicy := Consistency.writeThroughLocalFirst, client_ne := by decide }

def dartClient : Dart.OptoSyncClient :=
  { clientId := "device", maxPendingMutations := 10000, maxQueuedPayloadBytes := 261120
    defaultConsistencyPolicy := Consistency.writeThroughLocalFirst, overlaySyncer := none }

def emptyStore : LegacyStore := { localMutations := [], nextId := 1, sorted := .nil, fresh := by simp }

def emptyDrift : Dart.OptoSyncDatabase :=
  { localMutations := [], nextId := 1, mutationSeq := 0, sorted := .nil, fresh := by simp }

def storedRow : AuthoritativeRow := { recordJson := "\x7b\"title\":\"a\"\x7d", revision := "1" }

def deletedRecord : Database :=
  { oneDelete with authoritative := (∅ : RecordTable AuthoritativeRow).insert ("todos", "a") storedRow }

def tsDelete : OptoSyncDatabase :=
  run (tsClient.next fun _ => none) emptyStore.upgrade [.queueDelete "todos" "a" none none 0]

def dartDelete : Dart.OptoSyncDatabase :=
  run dartClient.next emptyDrift [.queueDelete "todos" "a" none none 0]

theorem upgraded_emptyDrift : emptyDrift.Upgraded := by
  simp [Dart.OptoSyncDatabase.Upgraded, emptyDrift]

theorem payloadsPresent_deletedRecord : PayloadsPresent deletedRecord.queue := by
  unfold PayloadsPresent
  decide

theorem run_localView_agree_iff_delete :
    (∀ merge : String → String → String, (∀ document, merge document "{}" = document) →
      ∃ view, recomputeView (total merge) (fun _ => "") deletedRecord deletedRecord.queue
          ("todos", "a") = .ok (some view) ∧
        OptoSyncClient.localView merge tsDelete "todos" "a" storedRow.recordJson = view ∧
        { dartClient with overlaySyncer := some merge }.localView dartDelete "todos" "a"
          storedRow.recordJson = .ok view) ↔
      RecordEdit.NothingHidden storedRow.recordJson [.delete] :=
  run_localView_agree_iff tsClient (fun _ => none) emptyStore [.queueDelete "todos" "a" none none 0]
    dartClient upgraded_emptyDrift
    [.queueDelete "todos" "a" none none 0] (fun _ => "") deletedRecord payloadsPresent_deletedRecord
    ("todos", "a") (show _ = some storedRow from rfl) rfl rfl

/-- The two clients show the record that the user has deleted. -/
theorem localView_shows_deleted :
    tsDelete.edits ("todos", "a") = [.delete] ∧ dartDelete.edits ("todos", "a") = [.delete] ∧
      deletedRecord.edits (fun _ => "") ("todos", "a") = [.delete] ∧
      deletedRecord.authoritative[(("todos", "a") : RecordKey)]? = some storedRow ∧
      ∀ merge : String → String → String, (∀ document, merge document "{}" = document) →
        recomputeView (total merge) (fun _ => "") deletedRecord deletedRecord.queue ("todos", "a") =
          .ok none ∧
        OptoSyncClient.localView merge tsDelete "todos" "a" storedRow.recordJson =
          storedRow.recordJson ∧
        { dartClient with overlaySyncer := some merge }.localView dartDelete "todos" "a"
          storedRow.recordJson = .ok storedRow.recordJson := by
  refine ⟨rfl, rfl, rfl, rfl, fun merge hmerge => ⟨?_, ?_, ?_⟩⟩
  · rw [recomputeView_eq (reconciles_total merge _) (documents_true _) payloadsPresent_deletedRecord]
    rfl
  · have hblank : tsDelete.DeletesBlank := OptoSyncClient.run_deletesBlank tsClient emptyStore _
    have hview := OptoSyncClient.localView_eq hblank merge ("todos", "a") storedRow.recordJson
    exact hview.trans (hmerge _)
  · have hblank : dartDelete.DeletesBlank := dartClient.run_deletesBlank upgraded_emptyDrift _
    have hview : { dartClient with overlaySyncer := some merge }.localView dartDelete "todos" "a"
        storedRow.recordJson = .ok (RecordEdit.replay merge storedRow.recordJson [.delete]) :=
      Dart.OptoSyncClient.localView_eq hblank rfl ("todos", "a") _
    exact hview.trans (congrArg _ (hmerge _))

end OfflineViews
end OptoSync
