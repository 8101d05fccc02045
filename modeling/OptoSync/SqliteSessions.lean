import OptoSync.JsonText
import OptoSync.SqliteAcknowledgement

/-!
# Connections to one SQLite store

Any number of connections share a database. Each may load the queue into memory; a sync operation
of a connection changes its copy, offers it to the store, and puts the old copy back when the store
fails. An application may also queue edits at any time. `acknowledged` is a history of the committed
results; no operation reads it.
-/
namespace OptoSync
open Decimal ProtocolQueue SqliteProtocolStore Transition

structure Sessions where
  db : Database
  memory : ℕ → Option ProtocolQueue
  acknowledged : List (ProtocolMutation × MutationResult)

inductive StoreCall
  | load (connection : ℕ)
  | queueUpsertRecord (table recordId : String) (payload : Json) (baseRevision : Option String)
      (resurrect : Bool)
  | queueDeleteRecord (table recordId : String) (baseRevision : Option String)
  | persistAcknowledgement (connection : ℕ) (request : PushRequest) (response : PushResponse)
  | applyChangesAndPersist (connection : ℕ) (changes : List Change) (checkpoint : String)
  | replaceAuthoritativeAndPersist (connection : ℕ) (records : List SnapshotRecord)
      (checkpoint : String)

namespace Sessions

/-- The end of a sync transaction of a connection: the caller keeps the queue the store left, or
restores its own. -/
def commit (s : Sessions) (connection : ℕ) (rows : List (ProtocolMutation × MutationResult)) :
    Except SqliteStoreError Database × ProtocolQueue → Sessions
  | (.ok db, queue) =>
    { db, memory := Function.update s.memory connection (some queue)
      acknowledged := s.acknowledged ++ rows }
  | (.error _, _) => s

variable (read : ProtocolQueue → Option ProtocolQueue)
  (reconcile : String → String → Except Unit String) (toText : Json → String)

def perform (s : Sessions) : StoreCall → Sessions
  | .load connection =>
    match loadQueueFrom read toText s.db with
    | .error _ => s
    | .ok queue => { s with memory := Function.update s.memory connection (some queue) }
  | .queueUpsertRecord table recordId payload baseRevision resurrect =>
    match queueUpsertRecord read reconcile toText s.db table recordId payload baseRevision
        resurrect with
    | .error _ => s
    | .ok (_, db) => { s with db }
  | .queueDeleteRecord table recordId baseRevision =>
    match queueDeleteRecord read toText s.db table recordId baseRevision with
    | .error _ => s
    | .ok (_, db) => { s with db }
  | .persistAcknowledgement connection request response =>
    match s.memory connection with
    | none => s
    | some queue =>
      match queue.acknowledge response request with
      | (.error _, _) => s
      | (.ok _, acknowledged) =>
        s.commit connection (request.mutations.zip response.results)
          (persistAcknowledgement read reconcile toText s.db acknowledged request response)
  | .applyChangesAndPersist connection changes checkpoint =>
    match s.memory connection with
    | none => s
    | some queue =>
      match queue.setCheckpoint checkpoint with
      | (.error _, _) => s
      | (.ok (), moved) =>
        s.commit connection [] (applyChangesAndPersist read reconcile toText s.db changes moved)
  | .replaceAuthoritativeAndPersist connection records checkpoint =>
    match s.memory connection with
    | none => s
    | some queue =>
      match queue.setCheckpoint checkpoint with
      | (.error _, _) => s
      | (.ok (), moved) =>
        s.commit connection []
          (replaceAuthoritativeAndPersist read reconcile toText s.db records moved)

/-- An event is a call and whether SQLite fails during it: then the transaction is rolled back. -/
def next (s : Sessions) (event : StoreCall × Bool) : Sessions :=
  if event.2 = true then s else s.perform read reconcile toText event.1

def start (db : Database) : Sessions := { db, memory := fun _ => none, acknowledged := [] }

/-- If the call queues an upsert, the text keeps the floats of its payload. -/
def KeepsFloats (readFloat : String → String) (s : Sessions) : StoreCall × Bool → Prop
  | (.queueUpsertRecord table recordId payload baseRevision resurrect, false) =>
    (∃ out, queueUpsertRecord read reconcile toText s.db table recordId payload baseRevision
      resurrect = .ok out) → payload.rereadFloats readFloat = payload
  | _ => True

variable {read reconcile toText}

/-- While the queue cannot be loaded, no call changes anything. -/
theorem perform_of_unreadable {s : Sessions} {error : SqliteStoreError}
    (h : loadQueueFrom read toText s.db = .error error) (call : StoreCall) :
    s.perform read reconcile toText call = s := by
  have hmerge : ∀ (queue : ProtocolQueue)
      (body : Database → ProtocolQueue → Except SqliteStoreError Database),
      mergeAndPersist read toText s.db queue body = (.error error, queue) := by
    intro queue body
    rw [mergeAndPersist, h]
  cases call with
  | load connection => simp only [perform, h]
  | queueUpsertRecord table recordId payload baseRevision resurrect =>
    simp only [perform, queueUpsertRecord, queueUpsertWith, h, bind, Except.bind]
  | queueDeleteRecord table recordId baseRevision =>
    simp only [perform, queueDeleteRecord, queueDeleteWith, h, bind, Except.bind]
  | persistAcknowledgement connection request response =>
    simp only [perform, SqliteProtocolStore.persistAcknowledgement, hmerge]
    split
    · rfl
    · split <;> rfl
  | applyChangesAndPersist connection changes checkpoint =>
    simp only [perform, SqliteProtocolStore.applyChangesAndPersist, hmerge]
    split
    · rfl
    · split <;> rfl
  | replaceAuthoritativeAndPersist connection records checkpoint =>
    simp only [perform, SqliteProtocolStore.replaceAuthoritativeAndPersist, hmerge]
    split
    · rfl
    · split <;> rfl

end Sessions

namespace ProtocolQueue

variable {toText : Json → String} {q d : ProtocolQueue} {response : PushResponse}
  {request : PushRequest} {w : ℕ}

theorem mem_take_of_le {l : List ProtocolMutation} (hl : (l.map (·.id)).Pairwise (· < ·)) {n : ℕ}
    {last : ProtocolMutation} (hlast : (l.take n).getLast? = some last) {m : ProtocolMutation}
    (hm : m ∈ l) (hle : m.id ≤ last.id) : m ∈ l.take n := by
  rw [← List.take_append_drop n l] at hm
  rcases List.mem_append.mp hm with hm | hm
  · exact hm
  · have hlt : last.id < m.id := by
      rw [← List.take_append_drop n l, List.map_append, List.pairwise_append] at hl
      exact hl.2.2 _ (List.mem_map_of_mem (List.mem_of_getLast? hlast)) _ (List.mem_map_of_mem hm)
    omega

/-- A durable pending row up to the watermark was part of the request. -/
theorem Tracks.mem_request (h : Tracks toText q d) (hd : Valid toText d)
    (hack : Acknowledges q response request w) {m : ProtocolMutation} (hm : m ∈ d.mutations)
    (hp : m.status = .pending) (hle : m.id ≤ w) : m ∈ request.mutations := by
  have hahead := hack.ahead
  obtain ⟨m', hm', hid⟩ := h.known m hm (by omega)
  obtain ⟨m'', hm'', hid', hconf⟩ := h.own m' hm'
  have hsame : m'' = m := hd.row_unique hm'' hm (hid'.trans hid)
  subst hsame
  have hp' : m'.status = .pending := m'.status_eq.resolve_right fun hc => by
    rw [hconf hc] at hp
    cases hp
  have heq : m'' = m' := eq_of_confirm (h.siblings.content m' hm' m'' hm hid') (hp.trans hp'.symm)
  subst heq
  have hpending : m'' ∈ q.pending := List.mem_filter.mpr ⟨hm', by simpa using hp'⟩
  have hascending : (q.pending.map (·.id)).Pairwise (· < ·) :=
    h.valid.ascending.sublist (List.filter_sublist.map _)
  obtain ⟨last, hlast, hlastid⟩ := Option.map_eq_some_iff.mp hack.last
  have hw : last.id = w := by
    rw [ProtocolMutation.id, hlastid, hack.parsed]
    rfl
  rw [hack.sent] at hlast ⊢
  exact mem_take_of_le hascending hlast hpending (by omega)

theorem le_of_getLast? {l : List ProtocolMutation} (hl : (l.map (·.id)).Pairwise (· < ·))
    {last m : ProtocolMutation} (hlast : l.getLast? = some last) (hm : m ∈ l) : m.id ≤ last.id := by
  obtain ⟨init, rfl⟩ := List.getLast?_eq_some_iff.mp hlast
  rw [List.map_append, List.pairwise_append] at hl
  rcases List.mem_append.mp hm with hm | hm
  · exact (hl.2.2 _ (List.mem_map_of_mem hm) last.id (by simp)).le
  · rw [List.mem_singleton.mp hm]

/-- A sent row is a row of the durable queue, possibly confirmed there. -/
theorem Tracks.sent_known (h : Tracks toText q d) (hack : Acknowledges q response request w)
    {m : ProtocolMutation} (hm : m ∈ request.mutations) : m.id ≤ w ∧
      ∃ m' ∈ d.mutations, m'.mutationId = m.mutationId ∧ m'.confirm = m.confirm := by
  obtain ⟨last, hlast, hlastid⟩ := Option.map_eq_some_iff.mp hack.last
  have hw : last.id = w := by
    rw [ProtocolMutation.id, hlastid, hack.parsed]
    rfl
  have hascending : (request.mutations.map (·.id)).Pairwise (· < ·) := by
    rw [hack.sent]
    exact h.valid.ascending.sublist (((List.take_sublist _ _).trans List.filter_sublist).map _)
  refine ⟨hw ▸ le_of_getLast? hascending hlast hm, ?_⟩
  rw [hack.sent] at hm
  have hmem : m ∈ q.mutations := (List.mem_filter.mp (List.mem_of_mem_take hm)).1
  obtain ⟨m', hm', hid, -⟩ := h.own m hmem
  exact ⟨m', hm', hid, h.siblings.content m hmem m' hm' hid⟩

/-- Settling rows outside `p` leaves the pending rows inside alone. -/
theorem filter_pending_settle {ms : List ProtocolMutation} {w : ℕ} {p : RecordKey → Prop}
    [DecidablePred p]
    (h : ∀ m ∈ ms, m.status = .pending → m.id ≤ w → ¬ p m.key) :
    ((ms.map (·.settle w)).filter (·.status = .pending)).filter (fun m => p m.key) =
      (ms.filter (·.status = .pending)).filter fun m => p m.key := by
  induction ms with
  | nil => rfl
  | cons m ms ih =>
    have ih' := ih fun m' hm' => h m' (List.mem_cons_of_mem _ hm')
    rw [List.map_cons]
    rcases m.status_eq with hp | hc
    · by_cases hle : m.id ≤ w
      · have hkeep := h m List.mem_cons_self hp hle
        rw [ProtocolMutation.settle_le hle hp, List.filter_cons_of_neg (by simp), ih',
          List.filter_cons_of_pos (by simp [hp]), List.filter_cons_of_neg (by simpa using hkeep)]
      · rw [ProtocolMutation.settle_gt (by omega)]
        simp only [List.filter_cons, hp, decide_true, ↓reduceIte, ih']
    · rw [ProtocolMutation.settle_confirmed hc, List.filter_cons_of_neg (by simp [hc]), ih',
        List.filter_cons_of_neg (by simp [hc])]

end ProtocolQueue

namespace Sessions

/-- The last committed result that accepted a mutation. -/
def lastAccepted (acknowledged : List (ProtocolMutation × MutationResult)) (mutationId : ℕ) :
    Option (ProtocolMutation × MutationResult) :=
  acknowledged.reverse.find? fun row => wasAccepted row.2 && row.1.id = mutationId

/-- What all reached states have in common. `merge` is the engine, total as it is for documents. -/
structure Inv (merge : String → String → String) (toText : Json → String)
    (readFloat : String → String) (s : Sessions) : Prop where
  valid : Valid toText s.db.queue
  floats : ∀ m ∈ s.db.queue.mutations, m.reread readFloat = m
  tracks : ∀ connection queue, s.memory connection = some queue → Tracks toText queue s.db.queue
  localView : ∀ key : RecordKey, s.db.localRecords[key]? = s.db.localView merge toText key
  settled : ∀ row ∈ s.acknowledged, ∃ m ∈ s.db.queue.mutations,
    m.mutationId = row.1.mutationId ∧ m = row.1.confirm
  overlays : ∀ (mutationId : ℤ) (overlay : AcceptedOverlay),
    s.db.overlays[mutationId]? = some overlay →
      ∃ row ∈ s.acknowledged, (row.1.id : ℤ) = mutationId ∧ Retains toText row overlay
  retained : ∀ mutationId row, lastAccepted s.acknowledged mutationId = some row →
    ∃ reached, row.2.checkpoint.bind parseDecimal = some reached ∧
      (reached ≤ s.db.queue.position ∨
        ∃ overlay, s.db.overlays[(mutationId : ℤ)]? = some overlay ∧ Retains toText row overlay)

variable {merge : String → String → String} {toText : Json → String}
  {reparse : Json → Option Json} {readFloat : String → String} {s : Sessions}

/-- The total engine, in the form the store calls it. -/
def total (merge : String → String → String) (base incoming : String) : Except Unit String :=
  .ok (merge base incoming)

theorem reconciles_total (merge : String → String → String) (toText : Json → String) :
    Reconciles (total merge) toText (fun _ => True) merge :=
  ⟨trivial, fun _ => trivial, fun _ _ _ _ => ⟨rfl, trivial⟩⟩

theorem documents_true (db : Database) : db.Documents fun _ => True :=
  ⟨fun _ _ _ => trivial, fun _ _ _ _ _ => trivial⟩

theorem Inv.key_of_overlay (h : Inv merge toText readFloat s) {mutationId : ℤ} {overlay : AcceptedOverlay}
    (hget : s.db.overlays[mutationId]? = some overlay) :
    ∃ m ∈ s.db.queue.mutations, (m.id : ℤ) = mutationId ∧ m.key = overlay.key := by
  obtain ⟨row, hrow, hid, hretains⟩ := h.overlays mutationId overlay hget
  obtain ⟨m, hm, hmid, hconfirm⟩ := h.settled row hrow
  refine ⟨m, hm, ?_, ?_⟩
  · rw [← hid, ProtocolMutation.id, ProtocolMutation.id, hmid]
  · rw [hretains.key, hconfirm]
    rfl

theorem inv_start {db : Database} {clientId : String} {maxPending maxBytes : ℕ}
    (h : openWithLimits clientId maxPending maxBytes = .ok db) :
    Inv merge toText readFloat (start db) := by
  have hnew := isNew_of_open toText h
  refine ⟨hnew.valid, by simp [start, hnew.mutations], fun _ _ h => (by cases h), fun key => ?_,
    fun row hrow => (by cases hrow),
    fun id overlay h => (by simp [start, hnew.overlays] at h), fun mutationId row h => (by cases h)⟩
  have hempty : (∅ : Std.ExtTreeMap ℤ AcceptedOverlay compare).toList = [] :=
    Std.ExtTreeMap.toList_eq_nil_iff.mpr rfl
  simp [start, Database.localView, Database.edits, overlaysOf, pending, hnew.mutations,
    hnew.localRecords, hnew.authoritative, hnew.overlays, hempty]

/-- Whatever is read from the queue column is what was written there. -/
theorem Inv.loaded (h : Inv merge toText readFloat s) (hs : SerdeText reparse readFloat)
    {d : ProtocolQueue} (hload : loadQueueFrom (·.readBack toText reparse) toText s.db = .ok d) :
    d = s.db.queue := by
  obtain ⟨-, -, rfl, -⟩ := (readBack_eq_some hs fun m hm => h.valid.payload_ne_null hm).mp
    (loadQueueFrom_eq_ok.mp hload).1
  have hrows : s.db.queue.mutations.map (·.reread readFloat) = s.db.queue.mutations :=
    (List.map_congr_left h.floats).trans (List.map_id' _)
  simp only [reread, hrows]

theorem Inv.queued (h : Inv merge toText readFloat s) {m : ProtocolMutation} {db : Database}
    (hq : Queued merge toText m s.db db) (hfloats : m.reread readFloat = m) :
    Inv merge toText readFloat { s with db } := by
  have hbound := hq.enqueued.bound
  have hid : m.id = s.db.queue.nextMutationId :=
    ProtocolMutation.id_eq hq.mutationId (by simp only [maxI64, maxU64] at *; omega)
  have hpending : db.queue.pending = s.db.queue.pending ++ [m] := by
    simp [pending, hq.enqueued.mutations, hq.pending]
  have hposition : db.queue.position = s.db.queue.position := by
    rw [position, hq.enqueued.checkpoint, position]
  refine ⟨hq.valid, fun r hr => ?_,
    fun c queue hc => (h.tracks c queue hc).enqueued hq.enqueued hid.ge,
    fun key => ?_, fun row hrow => ?_, ?_, ?_⟩
  · rw [hq.enqueued.mutations] at hr
    rcases List.mem_append.mp hr with hr | hr
    · exact h.floats r hr
    · exact List.mem_singleton.mp hr ▸ hfloats
  · by_cases hkey : key = m.key
    · subst hkey
      rw [hq.edited, h.localView]
      simp [Database.localView, Database.edits, hq.authoritative, hq.overlays, hpending]
    · rw [hq.others key hkey, h.localView]
      refine (Database.localView_congr (by rw [hq.authoritative]) (by rw [hq.overlays]) ?_).symm
      simp [hpending, Ne.symm hkey]
  · obtain ⟨m', hm', hrow'⟩ := h.settled row hrow
    exact ⟨m', hq.enqueued.mutations ▸ List.mem_append_left _ hm', hrow'⟩
  · rw [hq.overlays]
    exact h.overlays
  · rw [hq.overlays, hposition]
    exact h.retained

/-- What the three sync transactions have in common once committed: overlays are retained for
`rows`, the reached ones are cleared, and every record that a table row changed for is rebuilt. -/
inductive Committed (merge : String → String → String) (toText : Json → String)
    (rows : List (ProtocolMutation × MutationResult)) (merged : ProtocolQueue) (db : Database) :
    Database → Prop
  | intro {retained cleared rebuilt : Database} {clearedKeys : RecordKeys}
      {authoritative : RecordTable AuthoritativeRow} {touched : RecordKey → Prop}
      (hretained : Retained toText rows db retained)
      (hcleared : Cleared merged.position retained cleared clearedKeys)
      (htouched : ∀ key, key ∈ clearedKeys ∨ key ∈ rows.map (·.1.key) → touched key)
      (hauthoritative : ∀ key, ¬ touched key → authoritative[key]? = db.authoritative[key]?)
      (hrebuilt : Rebuilt merge toText merged touched { cleared with authoritative } rebuilt) :
      Committed merge toText rows merged db { rebuilt with queue := merged }

/-- `rows` hold the results for the durable rows that the watermark settles. -/
structure Settles (d : ProtocolQueue) (w : ℕ) (rows : List (ProtocolMutation × MutationResult)) :
    Prop where
  distinct : (rows.map (·.1.id)).Nodup
  known : ∀ row ∈ rows, row.1.id ≤ w ∧
    ∃ m ∈ d.mutations, m.mutationId = row.1.mutationId ∧ m.confirm = row.1.confirm
  covered : ∀ m ∈ d.mutations, m.status = .pending → m.id ≤ w → m.key ∈ rows.map (·.1.key)

theorem settles_nil {d : ProtocolQueue} (hd : Valid toText d) : Settles d 0 [] := by
  refine ⟨List.nodup_nil, fun row hrow => (by cases hrow), fun m hm _ hle => ?_⟩
  have hpositive := (hd.rows m hm).positive
  omega

theorem Settles.of_acknowledges {q d : ProtocolQueue} (h : Tracks toText q d) (hd : Valid toText d)
    {response : PushResponse} {request : PushRequest} {w : ℕ}
    (hack : Acknowledges q response request w) :
    Settles d w (request.mutations.zip response.results) := by
  have hmap : ∀ {α : Type} (f : ProtocolMutation → α),
      (request.mutations.zip response.results).map (fun row => f row.1) =
        request.mutations.map f := fun f => by
    rw [← Function.comp_def f Prod.fst, ← List.map_map, List.map_fst_zip hack.results.ge]
  refine ⟨?_, fun row hrow => h.sent_known hack (List.of_mem_zip hrow).1, fun m hm hp hle => ?_⟩
  · rw [hmap]
    have hascending : (request.mutations.map (·.id)).Pairwise (· < ·) := by
      rw [hack.sent]
      exact h.valid.ascending.sublist (((List.take_sublist _ _).trans List.filter_sublist).map _)
    exact hascending.imp ne_of_lt
  · rw [hmap]
    exact List.mem_map_of_mem (h.mem_request hd hack hm hp hle)

section Committed

variable {rows : List (ProtocolMutation × MutationResult)} {q : ProtocolQueue} {w : ℕ}
  {checkpoint : String} {db' : Database}

theorem Committed.queue (h : Committed merge toText rows (rebased q s.db.queue w checkpoint) s.db db') :
    db'.queue = rebased q s.db.queue w checkpoint := by
  cases h
  rfl

/-- An overlay that a commit leaves is an old one or one of `rows`. -/
theorem Committed.overlays {merged : ProtocolQueue}
    (h : Committed merge toText rows merged s.db db') (hi : Inv merge toText readFloat s)
    {mutationId : ℤ} {overlay : AcceptedOverlay} (hget : db'.overlays[mutationId]? = some overlay) :
    ∃ row ∈ s.acknowledged ++ rows, (row.1.id : ℤ) = mutationId ∧ Retains toText row overlay := by
  obtain @⟨retained, cleared, rebuilt, clearedKeys, authoritative, touched, hretained, hcleared,
    htouched, hauthoritative, hrebuilt⟩ := h
  have hold : retained.overlays[mutationId]? = some overlay := by
    refine ((hcleared.overlays mutationId overlay).mp ?_).1
    rw [← hget]
    exact (congrArg (·[mutationId]?) hrebuilt.overlays).symm
  by_cases hout : ∀ row ∈ rows, wasAccepted row.2 = true → (row.1.id : ℤ) ≠ mutationId
  · rw [hretained.outside mutationId hout] at hold
    obtain ⟨row, hrow, hid, hretains⟩ := hi.overlays mutationId overlay hold
    exact ⟨row, List.mem_append_left _ hrow, hid, hretains⟩
  · push Not at hout
    obtain ⟨row, hrow, haccepted, hid⟩ := hout
    obtain ⟨overlay', row', hrow', hid', hget', hretains⟩ := hretained.inside row hrow haccepted
    rw [hid, hold, Option.some.injEq] at hget'
    subst hget'
    refine ⟨row', List.mem_append_right _ hrow', ?_, hretains⟩
    rw [hid', hid]

theorem Committed.localView (hi : Inv merge toText readFloat s) (hset : Settles s.db.queue w rows)
    (h : Committed merge toText rows (rebased q s.db.queue w checkpoint) s.db db')
    (key : RecordKey) : db'.localRecords[key]? = db'.localView merge toText key := by
  obtain @⟨retained, cleared, rebuilt, clearedKeys, authoritative, touched, hretained, hcleared,
    htouched, hauthoritative, hrebuilt⟩ := h
  by_cases hkey : touched key
  · refine (hrebuilt.inside key hkey).trans (Database.localView_congr ?_ ?_ rfl)
    · exact congrArg (·[key]?) hrebuilt.authoritative.symm
    · exact congrArg (overlaysOf · key) hrebuilt.overlays.symm
  · have hstored : rebuilt.localRecords[key]? = s.db.localRecords[key]? := by
      rw [hrebuilt.outside key hkey]
      show cleared.localRecords[key]? = _
      rw [hcleared.localRecords, hretained.localRecords]
    refine hstored.trans ((hi.localView key).trans (Database.localView_congr ?_ ?_ ?_).symm)
    · show rebuilt.authoritative[key]? = _
      rw [hrebuilt.authoritative]
      exact hauthoritative key hkey
    · show overlaysOf rebuilt.overlays key = _
      rw [hrebuilt.overlays]
      refine overlaysOf_congr fun mutationId overlay hok => ?_
      have hretainedKey : retained.overlays[mutationId]? = some overlay ↔
          s.db.overlays[mutationId]? = some overlay := by
        by_cases hout : ∀ row ∈ rows, wasAccepted row.2 = true → (row.1.id : ℤ) ≠ mutationId
        · rw [hretained.outside mutationId hout]
        · push Not at hout
          obtain ⟨row, hrow, haccepted, hid⟩ := hout
          refine ⟨fun hget => ?_, fun hget => ?_⟩
          · obtain ⟨overlay', row', hrow', -, hget', hretains⟩ :=
              hretained.inside row hrow haccepted
            rw [hid, hget, Option.some.injEq] at hget'
            subst hget'
            exact absurd (htouched key (.inr (List.mem_map.mpr
              ⟨row', hrow', hretains.key.symm.trans hok⟩))) hkey
          · obtain ⟨m, hm, hmid, hmkey⟩ := hi.key_of_overlay hget
            obtain ⟨-, m', hm', hid', hconfirm⟩ := hset.known row hrow
            have hsame : m' = m := by
              refine hi.valid.eq_of_id hm' hm ?_
              have : m'.id = row.1.id := by rw [ProtocolMutation.id, hid', ProtocolMutation.id]
              omega
            have hrowkey : row.1.key = key := by
              rw [← hok, ← hmkey, ← hsame]
              exact (congrArg ProtocolMutation.key hconfirm).symm
            exact absurd (htouched key (.inr (List.mem_map.mpr ⟨row, hrow, hrowkey⟩))) hkey
      show cleared.overlays[mutationId]? = some overlay ↔ _
      rw [hcleared.overlays, hretainedKey]
      refine ⟨fun hget => hget.1, fun hget => ⟨hget, Nat.not_le.mp fun hle => hkey ?_⟩⟩
      refine htouched key (.inl ((hcleared.keys key).mpr ⟨mutationId, overlay, ?_, hle, hok⟩))
      exact hretainedKey.mpr hget
    · refine filter_pending_settle (p := (· = key)) fun m hm hp hle hmkey => hkey ?_
      exact htouched key (.inr (hmkey ▸ hset.covered m hm hp hle))

theorem lastAccepted_append (acknowledged rows : List (ProtocolMutation × MutationResult))
    (mutationId : ℕ) : lastAccepted (acknowledged ++ rows) mutationId =
      (lastAccepted rows mutationId).or (lastAccepted acknowledged mutationId) := by
  rw [lastAccepted, List.reverse_append, List.find?_append]
  rfl

theorem lastAccepted_eq_none {rows : List (ProtocolMutation × MutationResult)} {mutationId : ℕ} :
    lastAccepted rows mutationId = none ↔
      ∀ row ∈ rows, wasAccepted row.2 = true → row.1.id ≠ mutationId := by
  simp [lastAccepted]

theorem mem_of_lastAccepted {rows : List (ProtocolMutation × MutationResult)} {mutationId : ℕ}
    {row : ProtocolMutation × MutationResult} (h : lastAccepted rows mutationId = some row) :
    row ∈ rows ∧ wasAccepted row.2 = true ∧ row.1.id = mutationId := by
  have hfound := List.find?_some h
  simp only [Bool.and_eq_true, decide_eq_true_eq] at hfound
  exact ⟨List.mem_reverse.mp (List.mem_of_find?_eq_some h), hfound⟩

/-- The last accepted result of a mutation keeps its overlay until the checkpoint reaches it. -/
theorem Committed.retained (hi : Inv merge toText readFloat s) (hset : Settles s.db.queue w rows)
    (h : Committed merge toText rows (rebased q s.db.queue w checkpoint) s.db db') (mutationId : ℕ)
    {row : ProtocolMutation × MutationResult}
    (hlast : lastAccepted (s.acknowledged ++ rows) mutationId = some row) :
    ∃ reached, row.2.checkpoint.bind parseDecimal = some reached ∧
      (reached ≤ db'.queue.position ∨
        ∃ overlay, db'.overlays[(mutationId : ℤ)]? = some overlay ∧ Retains toText row overlay) := by
  have hposition : s.db.queue.position ≤ db'.queue.position := by
    rw [h.queue, rebased_position]
    exact le_max_left _ _
  obtain @⟨retained, cleared, rebuilt, clearedKeys, authoritative, touched, hretained, hcleared,
    htouched, hauthoritative, hrebuilt⟩ := h
  dsimp only at hposition ⊢
  have hkept : ∀ overlay, retained.overlays[(mutationId : ℤ)]? = some overlay →
      Retains toText row overlay → ∃ reached, row.2.checkpoint.bind parseDecimal = some reached ∧
        (reached ≤ (rebased q s.db.queue w checkpoint).position ∨
          ∃ overlay, rebuilt.overlays[(mutationId : ℤ)]? = some overlay ∧
            Retains toText row overlay) := by
    intro overlay hget hretains
    refine ⟨overlay.position, hretains.reached, ?_⟩
    rcases Nat.lt_or_ge (rebased q s.db.queue w checkpoint).position overlay.position with hlt | hge
    · refine .inr ⟨overlay, ?_, hretains⟩
      rw [hrebuilt.overlays]
      exact (hcleared.overlays _ overlay).mpr ⟨hget, hlt⟩
    · exact .inl hge
  rw [lastAccepted_append] at hlast
  cases hnew : lastAccepted rows mutationId with
  | some row' =>
    rw [hnew, Option.some_or, Option.some.injEq] at hlast
    subst hlast
    obtain ⟨hrow, haccepted, hid⟩ := mem_of_lastAccepted hnew
    obtain ⟨overlay, row'', hrow'', hid', hget, hretains⟩ := hretained.inside row' hrow haccepted
    have hsame : row'' = row' := List.inj_on_of_nodup_map hset.distinct hrow'' hrow hid'
    exact hkept overlay (hid ▸ hget) (hsame ▸ hretains)
  | none =>
    rw [hnew, Option.none_or] at hlast
    have hout : ∀ row ∈ rows, wasAccepted row.2 = true → (row.1.id : ℤ) ≠ mutationId :=
      fun row hrow haccepted hid =>
        lastAccepted_eq_none.mp hnew row hrow haccepted (by exact_mod_cast hid)
    obtain ⟨reached, hreached, hle | ⟨overlay, hget, hretains⟩⟩ := hi.retained mutationId row hlast
    · exact ⟨reached, hreached, .inl (hle.trans hposition)⟩
    · exact hkept overlay ((hretained.outside _ hout).trans hget) hretains

theorem Inv.committed (hi : Inv merge toText readFloat s) {connection : ℕ}
    (hc : (parseDecimal checkpoint).isSome = true) (hset : Settles s.db.queue w rows)
    (h : Committed merge toText rows (rebased q s.db.queue w checkpoint) s.db db') :
    Inv merge toText readFloat (s.commit connection rows (.ok db', rebased q s.db.queue w checkpoint)) := by
  have hvalid : Valid toText db'.queue := h.queue ▸ rebased_valid q hi.valid w hc
  refine ⟨hvalid, fun m hm => ?_, fun c queue hmem => ?_, h.localView hi hset, fun row hrow => ?_,
    fun mutationId overlay hget => h.overlays hi hget,
    fun mutationId row hlast => h.retained hi hset mutationId hlast⟩
  · have hm : m ∈ (rebased q s.db.queue w checkpoint).mutations := h.queue ▸ hm
    obtain ⟨r, hr, rfl⟩ := List.mem_map.mp hm
    have hfloats := hi.floats r hr
    rcases settle_cases w r with hr | hr <;> rw [hr]
    · exact hfloats
    · exact congrArg ProtocolMutation.confirm hfloats
  · simp only [commit] at hmem ⊢
    by_cases hcc : c = connection
    · rw [hcc, Function.update_self, Option.some.injEq, ← h.queue] at hmem
      exact hmem ▸ .refl hvalid
    · rw [Function.update_of_ne hcc] at hmem
      rw [h.queue]
      exact (hi.tracks c queue hmem).rebased w
  · simp only [commit] at hrow ⊢
    rw [h.queue]
    rcases List.mem_append.mp hrow with hrow | hrow
    · obtain ⟨m, hm, hid, hconfirm⟩ := hi.settled row hrow
      have hsettle : m.settle w = m := ProtocolMutation.settle_confirmed (by rw [hconfirm]; rfl)
      exact ⟨m, List.mem_map.mpr ⟨m, hm, hsettle⟩, hid, hconfirm⟩
    · obtain ⟨hle, m, hm, hid, hconfirm⟩ := hset.known row hrow
      refine ⟨m.settle w, List.mem_map_of_mem hm, ?_, ?_⟩
      · rw [ProtocolMutation.settle_mutationId, hid]
      · rw [← hconfirm]
        rcases m.status_eq with hp | hconfirmed
        · have hmid : m.id = row.1.id := by rw [ProtocolMutation.id, hid, ProtocolMutation.id]
          exact ProtocolMutation.settle_le (hmid ▸ hle) hp
        · rw [ProtocolMutation.settle_confirmed hconfirmed]
          exact eq_of_confirm rfl hconfirmed

end Committed

theorem retained_nil (db : Database) : Retained toText [] db db :=
  ⟨rfl, rfl, rfl, fun _ _ => rfl, fun _ h => (by cases h)⟩

section Steps

variable {read : ProtocolQueue → Option ProtocolQueue}
  (hload : loadQueueFrom read toText s.db = .ok s.db.queue)
include hload

theorem Inv.load (h : Inv merge toText readFloat s) (connection : ℕ) :
    Inv merge toText readFloat (s.perform read (total merge) toText (.load connection)) := by
  simp only [perform, hload]
  refine ⟨h.valid, h.floats, fun c queue hc => ?_, h.localView, h.settled, h.overlays, h.retained⟩
  dsimp only at hc
  by_cases hcc : c = connection
  · rw [hcc, Function.update_self, Option.some.injEq] at hc
    exact hc ▸ .refl h.valid
  · rw [Function.update_of_ne hcc] at hc
    exact h.tracks c queue hc

variable (connection : ℕ)

theorem Inv.persistAcknowledgement (hi : Inv merge toText readFloat s) (request : PushRequest)
    (response : PushResponse) : Inv merge toText readFloat
      (s.perform read (total merge) toText (.persistAcknowledgement connection request response)) := by
  simp only [perform]
  cases hmem : s.memory connection with
  | none => exact hi
  | some queue =>
    have htracks := hi.tracks connection queue hmem
    have hids := fun m hm => (htracks.valid.rows m hm).parses
    rcases acknowledge_cases hids response request with ⟨error, hack⟩ | ⟨w, count, hack, hok⟩
    · simp only [hack]
      exact hi
    · have hmoved : queue.acknowledge response request =
          (.ok count, queue.moved w queue.checkpoint) := hok
      have hc := htracks.valid.checkpoint
      obtain ⟨out, hout, hacknowledging⟩ := persistAcknowledgement_cases
        (reconciles_total merge toText) (documents_true s.db) hload
        (rebased_valid queue hi.valid w hc) (htracks.merge_moved hi.valid hack.ahead hc)
        (sendable_of_acknowledges htracks.valid hack)
      have hset := Settles.of_acknowledges htracks hi.valid hack
      simp only [hmoved, hout]
      cases hacknowledging with
      | refused => exact hi
      | committed hall hretained hcleared hrebuilt =>
        refine hi.committed hc hset (.intro hretained hcleared (fun _ hkey => hkey) ?_ hrebuilt)
        intro key _
        rw [hcleared.authoritative, hretained.authoritative]

theorem Inv.applyChangesAndPersist (hi : Inv merge toText readFloat s) (changes : List Change)
    (checkpoint : String) : Inv merge toText readFloat
      (s.perform read (total merge) toText (.applyChangesAndPersist connection changes checkpoint)) := by
  simp only [perform, setCheckpoint]
  cases hmem : s.memory connection with
  | none => exact hi
  | some queue =>
    cases hparse : parseDecimal checkpoint with
    | none => exact hi
    | some n =>
      have htracks := hi.tracks connection queue hmem
      have hc : (parseDecimal checkpoint).isSome = true := by simp [hparse]
      have hpositive := Nat.pos_of_ne_zero htracks.valid.nonzero
      obtain ⟨out, hout, happlying⟩ := applyChangesAndPersist_cases
        (reconciles_total merge toText) (documents_true s.db) hload
        (rebased_valid queue hi.valid 0 hc) (htracks.merge_moved hi.valid hpositive hc) changes
      rw [moved_zero htracks.valid] at hout
      simp only [hout]
      cases happlying with
      | refused => exact hi
      | committed hall hcleared hrebuilt =>
        refine hi.committed hc (settles_nil hi.valid) (.intro (retained_nil s.db) hcleared ?_ ?_
          hrebuilt)
        · intro key hkey
          exact hkey.imp_right fun h => (by cases h)
        · intro key hkey
          rw [getElem?_foldl_installChange fun h => hkey (.inr h), hcleared.authoritative]

theorem Inv.replaceAuthoritativeAndPersist (hi : Inv merge toText readFloat s)
    (records : List SnapshotRecord) (checkpoint : String) : Inv merge toText readFloat
      (s.perform read (total merge) toText
        (.replaceAuthoritativeAndPersist connection records checkpoint)) := by
  simp only [perform, setCheckpoint]
  cases hmem : s.memory connection with
  | none => exact hi
  | some queue =>
    cases hparse : parseDecimal checkpoint with
    | none => exact hi
    | some n =>
      have htracks := hi.tracks connection queue hmem
      have hc : (parseDecimal checkpoint).isSome = true := by simp [hparse]
      have hpositive := Nat.pos_of_ne_zero htracks.valid.nonzero
      obtain ⟨out, hout, hreplacing⟩ := replaceAuthoritativeAndPersist_cases
        (reconciles_total merge toText) (documents_true s.db) hload
        (rebased_valid queue hi.valid 0 hc) (htracks.merge_moved hi.valid hpositive hc) records
      rw [moved_zero htracks.valid] at hout
      simp only [hout]
      cases hreplacing with
      | refused => exact hi
      | committed hall hcleared hrebuilt =>
        exact hi.committed hc (settles_nil hi.valid) (.intro (retained_nil s.db) hcleared
          (fun _ _ => trivial) (fun _ h => absurd trivial h) hrebuilt)

end Steps

theorem Inv.next (hi : Inv merge toText readFloat s) (hs : SerdeText reparse readFloat)
    {event : StoreCall × Bool}
    (hevent : KeepsFloats (·.readBack toText reparse) (total merge) toText readFloat s event) :
    Inv merge toText readFloat
      (s.next (·.readBack toText reparse) (total merge) toText event) := by
  obtain ⟨call, fails⟩ := event
  unfold Sessions.next
  split
  · exact hi
  · rename_i hfails
    obtain rfl : fails = false := Bool.eq_false_iff.mpr hfails
    cases hload : loadQueueFrom (·.readBack toText reparse) toText s.db with
    | error error =>
      rw [perform_of_unreadable hload]
      exact hi
    | ok d =>
      rw [hi.loaded hs hload] at hload
      cases call with
      | load connection => exact hi.load hload connection
      | queueUpsertRecord table recordId payload baseRevision resurrect =>
        simp only [perform]
        split
        · exact hi
        · rename_i hok
          obtain ⟨m, hpayload, hqueued⟩ := queueUpsertRecord_eq_ok (reconciles_total merge toText)
            hload (fun _ _ _ => trivial) hok
          refine hi.queued hqueued ?_
          rw [ProtocolMutation.reread, hpayload, Option.map_some, hevent ⟨_, hok⟩, ← hpayload]
      | queueDeleteRecord table recordId baseRevision =>
        simp only [perform]
        split
        · exact hi
        · rename_i hok
          obtain ⟨m, hpayload, hqueued⟩ := queueDeleteRecord_eq_ok hload hok
          refine hi.queued hqueued ?_
          rw [ProtocolMutation.reread, hpayload, Option.map_none, ← hpayload]
      | persistAcknowledgement connection request response =>
        exact hi.persistAcknowledgement hload connection request response
      | applyChangesAndPersist connection changes checkpoint =>
        exact hi.applyChangesAndPersist hload connection changes checkpoint
      | replaceAuthoritativeAndPersist connection records checkpoint =>
        exact hi.replaceAuthoritativeAndPersist hload connection records checkpoint

theorem Inv.visible (hi : Inv merge toText readFloat s) {mutationId : ℕ}
    {row : ProtocolMutation × MutationResult}
    (hlast : lastAccepted s.acknowledged mutationId = some row) :
    ∃ reached, row.2.checkpoint.bind parseDecimal = some reached ∧
      (s.db.queue.position < reached → ∃ overlay ∈ overlaysOf s.db.overlays row.1.key,
        s.db.overlays[(mutationId : ℤ)]? = some overlay ∧ overlay.edit = row.1.edit toText) := by
  obtain ⟨reached, hreached, hle | ⟨overlay, hget, hretains⟩⟩ := hi.retained mutationId row hlast
  · exact ⟨reached, hreached, fun hlt => absurd hle (by omega)⟩
  · refine ⟨reached, hreached, fun _ => ⟨overlay, ?_, hget, hretains.edit⟩⟩
    exact mem_overlaysOf.mpr ⟨⟨mutationId, hget⟩, hretains.key⟩

theorem Inv.rejected (hi : Inv merge toText readFloat s) {row : ProtocolMutation × MutationResult}
    (hrow : row ∈ s.acknowledged) (hlast : lastAccepted s.acknowledged row.1.id = none) :
    s.db.overlays[(row.1.id : ℤ)]? = none ∧ ∀ m ∈ s.db.queue.pending, m.id ≠ row.1.id := by
  constructor
  · cases hget : s.db.overlays[(row.1.id : ℤ)]? with
    | none => rfl
    | some overlay =>
      obtain ⟨row', hrow', hid, hretains⟩ := hi.overlays _ overlay hget
      exact absurd (by exact_mod_cast hid)
        (lastAccepted_eq_none.mp hlast row' hrow' hretains.accepted)
  · intro m hm hid
    obtain ⟨hmem, hpending⟩ := List.mem_filter.mp hm
    obtain ⟨m', hm', hid', hconfirm⟩ := hi.settled row hrow
    have hsame : m = m' := hi.valid.eq_of_id hmem hm' (by
      rw [hid, ProtocolMutation.id, ProtocolMutation.id, hid'])
    rw [hsame, hconfirm] at hpending
    simp [ProtocolMutation.confirm] at hpending

/-- Whatever the connections do, as long as the payloads they queue keep their floats, every local
record is its authoritative row with the accepted overlays and then the pending rows replayed in id
order. An accepted edit stays an overlay until the pull position reaches its checkpoint; a settled
edit that no result accepted is in neither list. -/
theorem run_localView (merge : String → String → String) (toText : Json → String)
    (hs : SerdeText reparse readFloat) {clientId : String} {maxPending maxBytes : ℕ} {db : Database}
    (h : openWithLimits clientId maxPending maxBytes = .ok db) {events : List (StoreCall × Bool)}
    (hevents : StepsMeet (Sessions.next (·.readBack toText reparse) (total merge) toText)
      (KeepsFloats (·.readBack toText reparse) (total merge) toText readFloat) (start db) events) :
    let s := run (Sessions.next (·.readBack toText reparse) (total merge) toText) (start db) events
    (∀ key : RecordKey, s.db.localRecords[key]? = s.db.localView merge toText key) ∧
    (s.db.overlays.toList.map Prod.fst).Pairwise (· < ·) ∧
    (s.db.queue.pending.map (·.id)).Pairwise (· < ·) ∧
    (∀ mutationId row, lastAccepted s.acknowledged mutationId = some row →
      ∃ reached, row.2.checkpoint.bind parseDecimal = some reached ∧
        (s.db.queue.position < reached → ∃ overlay ∈ overlaysOf s.db.overlays row.1.key,
          s.db.overlays[(mutationId : ℤ)]? = some overlay ∧ overlay.edit = row.1.edit toText)) ∧
    ∀ row ∈ s.acknowledged, lastAccepted s.acknowledged row.1.id = none →
      s.db.overlays[(row.1.id : ℤ)]? = none ∧ ∀ m ∈ s.db.queue.pending, m.id ≠ row.1.id := by
  intro s
  have hi : Inv merge toText readFloat s :=
    run_invariant_of_stepsMeet (fun _ _ hevent hi => hi.next hs hevent) (inv_start h) hevents
  exact ⟨hi.localView, pairwise_toList _, hi.valid.ascending.sublist (List.filter_sublist.map _),
    fun mutationId row hlast => hi.visible hlast, fun row hrow hlast => hi.rejected hrow hlast⟩

/-! One connection queues a weight and pushes it; another one deletes a different record. -/

def weight (literal : String) : Json := .object [("weight", .number (.float literal))]

def weightRow (literal : String) : ProtocolMutation :=
  { mutationId := "1", operation := .upsert, table := "todos", recordId := "a"
    payload := some (weight literal), baseRevision := none, resurrect := false, status := .pending }

def weighed (literal : String) : List (StoreCall × Bool) :=
  [(.queueUpsertRecord "todos" "a" (weight literal) none false, false), (.load 0, false),
    (.queueDeleteRecord "todos" "b" none, false)]

def pushedWeight (literal : String) : StoreCall :=
  .persistAcknowledgement 0
    { protocolVersion := 1, clientId := "client", mutations := [weightRow literal] }
    (deleteResponse (some "7"))

def plainText : Json → String := Json.text fun _ => false

def newDatabase : Database :=
  { authoritative := ∅, localRecords := ∅, overlays := ∅, queue := newQueue }

/-- The acknowledged weight is an overlay, and the second delete is pending. -/
theorem run_localView_weighed :
    let events := weighed "0.5" ++ [(pushedWeight "0.5", true), (pushedWeight "0.5", false)]
    let s := run (Sessions.next (·.readBack plainText exactReparse)
      (total fun _ incoming => incoming) plainText) (start newDatabase) events
    s.db.overlays[(1 : ℤ)]?.isSome = true ∧ s.db.queue.pending.map (·.id) = [2] ∧
      ∀ key : RecordKey,
        s.db.localRecords[key]? = s.db.localView (fun _ incoming => incoming) plainText key := by
  intro events s
  have hopen : openWithLimits "client" defaultMaxPendingMutations defaultMaxQueuedPayloadBytes =
      .ok newDatabase := rfl
  have hevents : StepsMeet (Sessions.next (·.readBack plainText exactReparse)
      (total fun _ incoming => incoming) plainText)
      (KeepsFloats (·.readBack plainText exactReparse) (total fun _ incoming => incoming) plainText
        id) (start newDatabase) events :=
    ⟨fun _ => rfl, trivial, trivial, trivial, trivial, trivial⟩
  exact ⟨by decide +kernel, by decide +kernel,
    (run_localView _ plainText serdeText_exactReparse hopen hevents).1⟩

/-- The default reader misses the last digit of one float. -/
def driftFloat (literal : String) : String :=
  if literal = "31.245270191439438" then "31.24527019143944" else literal

def driftReparse (doc : Json) : Option Json :=
  if doc.depth ≤ 127 then some (doc.rereadFloats driftFloat) else none

/-- The second transaction writes the drifted payload, and the local record keeps the exact one. -/
theorem run_localView_drifts :
    SerdeText driftReparse driftFloat ∧
      openWithLimits "client" defaultMaxPendingMutations defaultMaxQueuedPayloadBytes =
        .ok newDatabase ∧
      ¬ ∀ key : RecordKey,
        let s := run (Sessions.next (·.readBack plainText driftReparse)
          (total fun _ incoming => incoming) plainText) (start newDatabase)
          (weighed "31.245270191439438")
        s.db.localRecords[key]? = s.db.localView (fun _ incoming => incoming) plainText key := by
  refine ⟨⟨fun _ h => if_pos h, fun _ h => if_neg (by omega)⟩, rfl, fun h => ?_⟩
  exact absurd (h ("todos", "a")) (by decide +kernel)

end Sessions
end OptoSync
