import OptoSync.ServerLog
import OptoSync.SqliteAcknowledgement

/-!
# Sync drivers over one SQLite store

Any number of `sync_cycle_atomic` cycles run over one database, each on its own copy of the queue.
Their calls interleave freely: a server answer and a store transaction are single events. Queue
columns read back as they were written; a transaction on one that does not is one that fails.
-/
namespace OptoSync
open Decimal ProtocolQueue SqliteProtocolStore Transition Interaction SyncDriver

abbrev SqliteCycle (τ : Type) : Type := AtomicProgram τ SqliteStoreError ProtocolSyncCycleResult

/-- A driver holds its caller's queue, or is in a cycle and waits for the answer to a call. -/
inductive Driver (τ : Type)
  | idle (memory : ProtocolQueue)
  | waiting (op : AtomicOp) (resume : op.Answer τ SqliteStoreError → SqliteCycle τ)

def Driver.of {τ : Type} : SqliteCycle τ → Driver τ
  | .done (_, memory) => .idle memory
  | .call op resume => .waiting op resume

structure Drivers (τ : Type) where
  db : Database
  driver : ℕ → Option (Driver τ)

inductive DriverEvent (log : ServerLog) (toText : Json → String) (τ : Type)
  | queueUpsertRecord (table recordId : String) (payload : Json) (baseRevision : Option String)
      (resurrect : Bool)
  | queueDeleteRecord (table recordId : String) (baseRevision : Option String)
  | load (i : ℕ)
  | start (i : ℕ) (options : ProtocolSyncOptions)
  | answer (i : ℕ) (transport : HonestTransport log toText τ)
  | store (i : ℕ) (fails : Bool)

namespace Drivers

variable {τ : Type} (reconcile : String → String → Except Unit String) (toText : Json → String)

/-- A new store, which no driver has loaded yet. -/
def opened (db : Database) : Drivers τ := { db, driver := fun _ => none }

def put (s : Drivers τ) (i : ℕ) (cycle : SqliteCycle τ) : Drivers τ :=
  { s with driver := Function.update s.driver i (some (.of cycle)) }

/-- A transaction of a driver ends: it is told the queue the store left, or the error. -/
def finish (s : Drivers τ) (i : ℕ)
    (resume : Except SqliteStoreError ProtocolQueue → SqliteCycle τ) :
    Except SqliteStoreError Database × ProtocolQueue → Drivers τ
  | (.ok db, queue) => { s with db }.put i (resume (.ok queue))
  | (.error error, _) => s.put i (resume (.error error))

def execute (s : Drivers τ) (i : ℕ) :
    (op : AtomicOp) → (op.Answer τ SqliteStoreError → SqliteCycle τ) → Drivers τ
  | .transport _ _, _ => s
  | .persistAcknowledgement queue request response, resume =>
    s.finish i resume (persistAcknowledgement (asWritten toText) reconcile toText s.db queue request response)
  | .applyChangesAndPersist changes queue, resume =>
    s.finish i resume (applyChangesAndPersist (asWritten toText) reconcile toText s.db changes queue)
  | .replaceAuthoritativeAndPersist records queue, resume =>
    s.finish i resume (replaceAuthoritativeAndPersist (asWritten toText) reconcile toText s.db records queue)

/-- SQLite fails during the transaction, which is rolled back. -/
def fail (s : Drivers τ) (i : ℕ) :
    (op : AtomicOp) → (op.Answer τ SqliteStoreError → SqliteCycle τ) → Drivers τ
  | .transport _ _, _ => s
  | .persistAcknowledgement .., resume | .applyChangesAndPersist .., resume
  | .replaceAuthoritativeAndPersist .., resume => s.put i (resume (.error .sqlite))

def reply (s : Drivers τ) (i : ℕ) (answer : (op : TransportOp) → op.Answer τ) :
    (op : AtomicOp) → (op.Answer τ SqliteStoreError → SqliteCycle τ) → Drivers τ
  | .transport _ op, resume => s.put i (resume (answer op))
  | .persistAcknowledgement .., _ | .applyChangesAndPersist .., _
  | .replaceAuthoritativeAndPersist .., _ => s

variable {log : ServerLog} {toText}

def next (s : Drivers τ) : DriverEvent log toText τ → Drivers τ
  | .queueUpsertRecord table recordId payload baseRevision resurrect =>
    match queueUpsertRecord (asWritten toText) reconcile toText s.db table recordId payload
        baseRevision resurrect with
    | .error _ => s
    | .ok (_, db) => { s with db }
  | .queueDeleteRecord table recordId baseRevision =>
    match queueDeleteRecord (asWritten toText) toText s.db table recordId baseRevision with
    | .error _ => s
    | .ok (_, db) => { s with db }
  | .load i =>
    match s.driver i with
    | some (.waiting ..) => s
    | none | some (.idle _) =>
      match loadQueueFrom (asWritten toText) toText s.db with
      | .error _ => s
      | .ok queue => { s with driver := Function.update s.driver i (some (.idle queue)) }
  | .start i options =>
    match s.driver i with
    | none | some (.waiting ..) => s
    | some (.idle memory) => s.put i (syncCycleAtomic options memory)
  | .answer i transport =>
    match s.driver i with
    | none | some (.idle _) => s
    | some (.waiting op resume) => s.reply i transport.answer op resume
  | .store i fails =>
    match s.driver i with
    | none | some (.idle _) => s
    | some (.waiting op resume) =>
      if fails = true then s.fail i op resume else s.execute reconcile toText i op resume

/-- The authoritative rows are the server's at the durable checkpoint. -/
def Current (log : ServerLog) (toText : Json → String) (s : Drivers τ) : Prop :=
  s.db.authoritative = log.stateAt toText s.db.queue.position

/-- When the offered checkpoint is behind the durable one, the rows that the call writes are still
the server's at the durable one. -/
def WritesCurrent (log : ServerLog) (toText : Json → String) (durable : ℕ) : AtomicOp → Prop
  | .transport _ _ | .persistAcknowledgement .. => True
  | .applyChangesAndPersist changes queue => queue.position < durable → ∀ change ∈ changes,
      (log.stateAt toText queue.position)[change.key]? = (log.stateAt toText durable)[change.key]?
  | .replaceAuthoritativeAndPersist _ queue => queue.position < durable →
      log.stateAt toText queue.position = log.stateAt toText durable

/-- The condition on a step: what a transaction that SQLite does not fail writes is current. -/
def StepCurrent (s : Drivers τ) : DriverEvent log toText τ → Prop
  | .store i false =>
    match s.driver i with
    | none | some (.idle _) => True
    | some (.waiting op _) => WritesCurrent log toText s.db.queue.position op
  | _ => True

def DriverTracks (log : ServerLog) (toText : Json → String) (durable : ProtocolQueue) :
    Driver τ → Prop
  | .idle memory => Tracks toText memory durable
  | .waiting op resume => ∃ progress : Progress, Tracks toText progress.accepted durable ∧
      Obeys (storeContract toText (Honest log toText)) (Settled toText) progress (.call op resume)

structure Inv (log : ServerLog) (toText : Json → String) (document : String → Prop)
    (s : Drivers τ) : Prop where
  valid : Valid toText s.db.queue
  documents : s.db.Documents document
  drivers : ∀ i driver, s.driver i = some driver → DriverTracks log toText s.db.queue driver

variable {reconcile} {document : String → Prop} {merge : String → String → String}
  {s : Drivers τ} {d : ProtocolQueue}

theorem driverTracks_of {progress : Progress} {cycle : SqliteCycle τ}
    (htracks : Tracks toText progress.accepted d)
    (hobeys : Obeys (storeContract toText (Honest log toText)) (Settled toText) progress cycle) :
    DriverTracks log toText d (.of cycle) := by
  cases cycle with
  | done out =>
    show Tracks toText out.2 d
    rw [hobeys.queue]
    exact htracks
  | call op resume => exact ⟨progress, htracks, hobeys⟩

theorem DriverTracks.imp {d' : ProtocolQueue} {driver : Driver τ}
    (h : DriverTracks log toText d driver)
    (htracks : ∀ queue, Tracks toText queue d → Tracks toText queue d') :
    DriverTracks log toText d' driver := by
  cases driver with
  | idle memory => exact htracks memory h
  | waiting op resume =>
    obtain ⟨progress, hprogress, hobeys⟩ := h
    exact ⟨progress, htracks _ hprogress, hobeys⟩

theorem inv_opened {clientId : String} {maxPending maxBytes : ℕ} {db : Database}
    (h : openWithLimits clientId maxPending maxBytes = .ok db) :
    Inv log toText document (opened db : Drivers τ) ∧ Current log toText (opened db : Drivers τ) := by
  have hnew := isNew_of_open toText h
  refine ⟨⟨hnew.valid, ⟨fun key row h => ?_, fun id overlay h => ?_⟩, fun i driver h => (by cases h)⟩,
    ?_⟩
  · simp [opened, hnew.authoritative] at h
  · simp [opened, hnew.overlays] at h
  · show db.authoritative = log.stateAt toText db.queue.position
    rw [hnew.authoritative, hnew.position]
    rfl

theorem Inv.put (h : Inv log toText document s) (i : ℕ) {progress : Progress}
    {cycle : SqliteCycle τ}
    (hobeys : Obeys (storeContract toText (Honest log toText)) (Settled toText) progress cycle)
    (htracks : Tracks toText progress.accepted s.db.queue) :
    Inv log toText document (s.put i cycle) := by
  refine ⟨h.valid, h.documents, fun j driver hj => ?_⟩
  dsimp only [Drivers.put] at hj ⊢
  by_cases hji : j = i
  · rw [hji, Function.update_self, Option.some.injEq] at hj
    exact hj ▸ driverTracks_of htracks hobeys
  · rw [Function.update_of_ne hji] at hj
    exact h.drivers j driver hj

/-- A commit merges the copy of one driver; all drivers keep tracking the durable queue. -/
theorem Inv.commit (h : Inv log toText document s) (i : ℕ) {progress : Progress}
    {cycle : SqliteCycle τ} {q : ProtocolQueue} {w : ℕ} {checkpoint : String} {db : Database}
    (hc : (parseDecimal checkpoint).isSome = true) (hdocuments : db.Documents document)
    (hqueue : db.queue = rebased q s.db.queue w checkpoint)
    (haccepted : progress.accepted = rebased q s.db.queue w checkpoint)
    (hobeys : Obeys (storeContract toText (Honest log toText)) (Settled toText) progress cycle) :
    Inv log toText document ({ s with db }.put i cycle) := by
  have hvalid : Valid toText db.queue := hqueue ▸ rebased_valid q h.valid w hc
  refine Inv.put ⟨hvalid, hdocuments, fun j driver hj => ?_⟩ i hobeys ?_
  · rw [hqueue]
    exact (h.drivers j driver hj).imp fun queue htracks => htracks.rebased w
  · rw [haccepted, ← hqueue]
    exact .refl hvalid

theorem Inv.appended (h : Inv log toText document s) {m : ProtocolMutation} {db : Database}
    (happ : Appended toText m s.db db) : Inv log toText document { s with db } ∧
      (Current log toText s → Current log toText { s with db }) := by
  have hbound := happ.enqueued.bound
  have hid : m.id = s.db.queue.nextMutationId :=
    ProtocolMutation.id_eq happ.mutationId (by simp only [maxI64, maxU64] at *; omega)
  refine ⟨⟨happ.valid, ⟨happ.authoritative ▸ h.documents.authoritative,
    happ.overlays ▸ h.documents.overlays⟩, fun i driver hi => ?_⟩, fun hcurrent => ?_⟩
  · exact (h.drivers i driver hi).imp fun queue htracks => htracks.enqueued happ.enqueued hid.ge
  · have hposition : db.queue.position = s.db.queue.position := by
      rw [position, happ.enqueued.checkpoint, position]
    show db.authoritative = log.stateAt toText db.queue.position
    rw [happ.authoritative, hposition]
    exact hcurrent

section Execute

variable {progress : Progress} {resume : Except SqliteStoreError ProtocolQueue → SqliteCycle τ}

/-- What a store call offers: the accepted queue, with rows settled and a new checkpoint. -/
structure Offers (toText : Json → String) (accepted offered : ProtocolQueue) (w : ℕ) : Prop where
  below : w < accepted.nextMutationId
  parses : (parseDecimal offered.checkpoint).isSome = true
  moved : offered = accepted.moved w offered.checkpoint

theorem Inv.merged (h : Inv log toText document s) {accepted offered : ProtocolQueue} {w : ℕ}
    (htracks : Tracks toText accepted s.db.queue) (hoffers : Offers toText accepted offered w) :
    offered.mergeConcurrentDurable toText s.db.queue =
        (.ok (), rebased accepted s.db.queue w offered.checkpoint) ∧
      StoreKeeps toText offered (rebased accepted s.db.queue w offered.checkpoint) := by
  have hvalid := rebased_valid accepted h.valid w hoffers.parses
  have hmerge := htracks.merge_moved h.valid hoffers.below hoffers.parses
  rw [← hoffers.moved] at hmerge
  refine ⟨hmerge, validate_eq_ok.mpr hvalid, ?_⟩
  obtain ⟨n, hn⟩ := Option.isSome_iff_exists.mp hoffers.parses
  refine ⟨n, _, hn, parse_position hvalid, ?_⟩
  rw [rebased_position, hn]
  exact le_max_right _ _

/-- The end of a transaction: refused, nothing changes in the store; committed, the rows may. -/
theorem Inv.finish (h : Inv log toText document s) (i : ℕ) {accepted offered : ProtocolQueue}
    {w : ℕ} (htracks : Tracks toText progress.accepted s.db.queue)
    (hoffers : Offers toText accepted offered w)
    (hrefused : ∀ error, ∃ progress' : Progress,
      Obeys (storeContract toText (Honest log toText)) (Settled toText) progress'
        (resume (.error error)) ∧ progress'.accepted = progress.accepted)
    (hcommitted : ∃ progress' : Progress,
      Obeys (storeContract toText (Honest log toText)) (Settled toText) progress'
        (resume (.ok (rebased accepted s.db.queue w offered.checkpoint))) ∧
      progress'.accepted = rebased accepted s.db.queue w offered.checkpoint)
    {out : Except SqliteStoreError Database}
    (hdocuments : ∀ db, out = .ok db → db.Documents document ∧
      db.queue = rebased accepted s.db.queue w offered.checkpoint) :
    Inv log toText document
      (s.finish i resume (out, rebased accepted s.db.queue w offered.checkpoint)) := by
  cases out with
  | error error =>
    obtain ⟨progress', hobeys, haccepted⟩ := hrefused error
    exact h.put i hobeys (haccepted ▸ htracks)
  | ok db =>
    obtain ⟨hdoc, hqueue⟩ := hdocuments db rfl
    obtain ⟨progress', hobeys, haccepted⟩ := hcommitted
    exact h.commit i hoffers.parses hdoc hqueue haccepted hobeys

theorem Inv.persistAcknowledgement (hR : Reconciles reconcile toText document merge)
    (h : Inv log toText document s) {i : ℕ} {queue : ProtocolQueue} {request : PushRequest}
    {response : PushResponse}
    (hi : s.driver i = some (.waiting (.persistAcknowledgement queue request response) resume)) :
    Inv log toText document (s.finish i resume
      (persistAcknowledgement (asWritten toText) reconcile toText s.db queue request response)) ∧
    (Current log toText s → Current log toText (s.finish i resume
      (persistAcknowledgement (asWritten toText) reconcile toText s.db queue request response))) := by
  obtain ⟨progress, htracks, ⟨-, -, count, hack⟩, hrest⟩ := h.drivers i _ hi
  have hids := fun m hm => (htracks.valid.rows m hm).parses
  rcases acknowledge_cases hids response request with ⟨error, hrefuse⟩ | ⟨w, n, hacks, hok⟩
  · rw [hrefuse] at hack
    cases hack
  · have hqueue : queue = progress.accepted.moved w progress.accepted.checkpoint :=
      (Prod.mk.inj (hack.symm.trans hok)).2
    have hcheckpoint : queue.checkpoint = progress.accepted.checkpoint := by rw [hqueue]; rfl
    have hoffers : Offers toText progress.accepted queue w :=
      ⟨hacks.ahead, hcheckpoint ▸ htracks.valid.checkpoint, hcheckpoint ▸ hqueue⟩
    obtain ⟨hmerge, hkeeps⟩ := h.merged htracks hoffers
    obtain ⟨out, hout, hacknowledging⟩ := persistAcknowledgement_cases hR h.documents
      (loadQueueFrom_asWritten h.valid)
      (rebased_valid _ h.valid w hoffers.parses) hmerge
      (sendable_of_acknowledges htracks.valid hacks)
    have hcommitted := fun (db : Database) (hok : out = .ok db) =>
      hacknowledging.committed_eq hR h.documents hok
    rw [hout]
    refine ⟨h.finish i htracks hoffers
      (fun error => ⟨_, hrest (.error error) fun stored hs => (by cases hs), rfl⟩)
      ⟨_, hrest (.ok _) fun stored hs => Except.ok.inj hs ▸ hkeeps, rfl⟩
      fun db hdb => ⟨(hcommitted db hdb).1, (hcommitted db hdb).2.1⟩, fun hcurrent => ?_⟩
    cases out with
    | error error => exact hcurrent
    | ok db =>
      obtain ⟨-, hdbqueue, hauthoritative⟩ := hcommitted db rfl
      have hposition : db.queue.position = s.db.queue.position := by
        rw [hdbqueue, rebased_position, hcheckpoint]
        exact max_eq_left htracks.behind
      show db.authoritative = log.stateAt toText db.queue.position
      rw [hauthoritative, hposition]
      exact hcurrent

theorem offers_page {accepted : ProtocolQueue} (hvalid : Valid toText accepted)
    {checkpoint : String} (hc : (parseDecimal checkpoint).isSome = true) :
    Offers toText accepted { accepted with checkpoint } 0 :=
  ⟨Nat.pos_of_ne_zero hvalid.nonzero, hc, (moved_zero hvalid checkpoint).symm⟩

theorem Inv.applyChangesAndPersist (hR : Reconciles reconcile toText document merge)
    (h : Inv log toText document s) {i : ℕ} {changes : List Change} {queue : ProtocolQueue}
    (hi : s.driver i = some (.waiting (.applyChangesAndPersist changes queue) resume)) :
    Inv log toText document (s.finish i resume
      (applyChangesAndPersist (asWritten toText) reconcile toText s.db changes queue)) ∧
    (Current log toText s → (Current log toText (s.finish i resume
        (applyChangesAndPersist (asWritten toText) reconcile toText s.db changes queue)) ↔
      WritesCurrent log toText s.db.queue.position (.applyChangesAndPersist changes queue))) := by
  obtain ⟨progress, htracks, ⟨-, page, limit, hhonest, hcheck, hchanges, hqueue⟩, hrest⟩ :=
    h.drivers i _ hi
  obtain ⟨hwithin, hcontent⟩ := validatePullPage_eq_ok hcheck
  obtain ⟨c, p, hc, hp, hcp⟩ := hwithin.advances
  subst hchanges hqueue
  have hoffers := offers_page htracks.valid
    (show (parseDecimal page.checkpoint).isSome = true by simp [hp])
  obtain ⟨hmerge, hkeeps⟩ := h.merged htracks hoffers
  obtain ⟨out, hout, happlying⟩ := applyChangesAndPersist_cases hR h.documents
      (loadQueueFrom_asWritten h.valid)
    (rebased_valid _ h.valid 0 hoffers.parses) hmerge page.changes
  have hcommitted := fun (db : Database) (hok : out = .ok db) =>
    happlying.committed_eq hR h.documents hok
  rw [hout]
  refine ⟨h.finish i htracks hoffers
    (fun error => ⟨_, hrest (.error error) fun stored hs => (by cases hs), rfl⟩)
    ⟨_, hrest (.ok _) fun stored hs => Except.ok.inj hs ▸ hkeeps, rfl⟩
    fun db hdb => ⟨(hcommitted db hdb).1, (hcommitted db hdb).2.1⟩, fun hcurrent => ?_⟩
  obtain ⟨db, rfl⟩ : ∃ db, out = .ok db := by
    cases happlying with
    | committed => exact ⟨_, rfl⟩
    | refused hchange hrefused =>
      rw [hcontent _ hchange] at hrefused
      cases hrefused
  obtain ⟨-, hdbqueue, hauthoritative⟩ := hcommitted db rfl
  have hprior : progress.accepted.position = c := by rw [position, hc]; rfl
  have hoffered : ({ progress.accepted with checkpoint := page.checkpoint } :
      ProtocolQueue).position = p := by simp [position, hp]
  have hpage : page.changes = log.between c p := by simpa [hc, hp] using hhonest page rfl
  show db.authoritative = log.stateAt toText db.queue.position ↔ _
  rw [hauthoritative, hdbqueue, rebased_position, hp, hcurrent, hpage, Option.getD_some,
    ServerLog.foldl_between_eq_iff hcp (hprior ▸ htracks.behind), WritesCurrent, hoffered]

theorem Inv.replaceAuthoritativeAndPersist (hR : Reconciles reconcile toText document merge)
    (h : Inv log toText document s) {i : ℕ} {records : List SnapshotRecord} {queue : ProtocolQueue}
    (hi : s.driver i = some (.waiting (.replaceAuthoritativeAndPersist records queue) resume)) :
    Inv log toText document (s.finish i resume
      (replaceAuthoritativeAndPersist (asWritten toText) reconcile toText s.db records queue)) ∧
    (Current log toText s → (Current log toText (s.finish i resume
        (replaceAuthoritativeAndPersist (asWritten toText) reconcile toText s.db records queue)) ↔
      WritesCurrent log toText s.db.queue.position
        (.replaceAuthoritativeAndPersist records queue))) := by
  obtain ⟨progress, htracks, ⟨-, snapshot, reset, hhonest, hcheck, hrecords, hqueue⟩, hrest⟩ :=
    h.drivers i _ hi
  obtain ⟨⟨c, p, hc, hp, hcp⟩, -, hobjects⟩ := validateSnapshot_eq_ok hcheck
  subst hrecords hqueue
  have hoffers := offers_page htracks.valid
    (show (parseDecimal snapshot.checkpoint).isSome = true by simp [hp])
  obtain ⟨hmerge, hkeeps⟩ := h.merged htracks hoffers
  obtain ⟨out, hout, hreplacing⟩ := replaceAuthoritativeAndPersist_cases hR h.documents
      (loadQueueFrom_asWritten h.valid)
    (rebased_valid _ h.valid 0 hoffers.parses) hmerge snapshot.records
  have hcommitted := fun (db : Database) (hok : out = .ok db) =>
    hreplacing.committed_eq hR h.documents hok
  obtain ⟨hdistinct, htable⟩ := hhonest snapshot rfl
  rw [hout]
  refine ⟨h.finish i htracks hoffers
    (fun error => ⟨_, hrest (.error error) fun stored hs => (by cases hs), rfl⟩)
    ⟨_, hrest (.ok _) fun stored hs => Except.ok.inj hs ▸ hkeeps, rfl⟩
    fun db hdb => ⟨(hcommitted db hdb).1, (hcommitted db hdb).2.1⟩, fun hcurrent => ?_⟩
  obtain ⟨db, rfl⟩ : ∃ db, out = .ok db := by
    cases hreplacing with
    | committed => exact ⟨_, rfl⟩
    | refused hrefused =>
      exact absurd ⟨fun record hr => (hobjects record hr).1, hdistinct, fun _ _ => by simp⟩ hrefused
  obtain ⟨-, hdbqueue, hauthoritative⟩ := hcommitted db rfl
  have hoffered : ({ progress.accepted with checkpoint := snapshot.checkpoint } :
      ProtocolQueue).position = p := by simp [position, hp]
  show db.authoritative = log.stateAt toText db.queue.position ↔ _
  rw [hauthoritative, htable, hdbqueue, rebased_position, hp, Option.getD_some, WritesCurrent,
    hoffered]
  rcases Nat.lt_or_ge p s.db.queue.position with hlt | hge
  · rw [max_eq_left hlt.le]
    exact ⟨fun heq _ => heq, fun heq => heq hlt⟩
  · rw [max_eq_right hge]
    exact ⟨fun _ hlt => absurd hlt (by omega), fun _ => rfl⟩

end Execute

theorem Inv.execute (hR : Reconciles reconcile toText document merge)
    (h : Inv log toText document s) {i : ℕ} {op : AtomicOp}
    {resume : op.Answer τ SqliteStoreError → SqliteCycle τ}
    (hi : s.driver i = some (.waiting op resume)) :
    Inv log toText document (s.execute reconcile toText i op resume) ∧
    (Current log toText s → (Current log toText (s.execute reconcile toText i op resume) ↔
      WritesCurrent log toText s.db.queue.position op)) := by
  cases op with
  | transport queue op => exact ⟨h, fun hcurrent => iff_of_true hcurrent trivial⟩
  | persistAcknowledgement queue request response =>
    obtain ⟨hinv, hcurrent⟩ := h.persistAcknowledgement hR hi
    exact ⟨hinv, fun hc => iff_of_true (hcurrent hc) trivial⟩
  | applyChangesAndPersist changes queue => exact h.applyChangesAndPersist hR hi
  | replaceAuthoritativeAndPersist records queue => exact h.replaceAuthoritativeAndPersist hR hi

theorem Inv.fail (h : Inv log toText document s) {i : ℕ} {op : AtomicOp}
    {resume : op.Answer τ SqliteStoreError → SqliteCycle τ}
    (hi : s.driver i = some (.waiting op resume)) :
    Inv log toText document (s.fail i op resume) ∧
      (Current log toText (s.fail i op resume) ↔ Current log toText s) := by
  obtain ⟨progress, htracks, -, hrest⟩ := h.drivers i _ hi
  cases op with
  | transport queue op => exact ⟨h, Iff.rfl⟩
  | persistAcknowledgement queue request response =>
    exact ⟨h.put i (hrest (.error .sqlite) fun stored hs => (by cases hs)) htracks, Iff.rfl⟩
  | applyChangesAndPersist changes queue =>
    exact ⟨h.put i (hrest (.error .sqlite) fun stored hs => (by cases hs)) htracks, Iff.rfl⟩
  | replaceAuthoritativeAndPersist records queue =>
    exact ⟨h.put i (hrest (.error .sqlite) fun stored hs => (by cases hs)) htracks, Iff.rfl⟩

theorem Inv.reply (h : Inv log toText document s) {i : ℕ} {op : AtomicOp}
    {resume : op.Answer τ SqliteStoreError → SqliteCycle τ}
    (hi : s.driver i = some (.waiting op resume)) (transport : HonestTransport log toText τ) :
    Inv log toText document (s.reply i transport.answer op resume) ∧
      (Current log toText (s.reply i transport.answer op resume) ↔ Current log toText s) := by
  obtain ⟨progress, htracks, -, hrest⟩ := h.drivers i _ hi
  cases op with
  | transport queue op =>
    exact ⟨h.put i (hrest (transport.answer op) (transport.honest op)) htracks, Iff.rfl⟩
  | persistAcknowledgement queue request response => exact ⟨h, Iff.rfl⟩
  | applyChangesAndPersist changes queue => exact ⟨h, Iff.rfl⟩
  | replaceAuthoritativeAndPersist records queue => exact ⟨h, Iff.rfl⟩

theorem Inv.next (hR : Reconciles reconcile toText document merge)
    (h : Inv log toText document s) (event : DriverEvent log toText τ) :
    Inv log toText document (s.next reconcile event) ∧
      (Current log toText s → (Current log toText (s.next reconcile event) ↔ s.StepCurrent event)) := by
  have hsame : Inv log toText document s ∧ (Current log toText s → (Current log toText s ↔ True)) :=
    ⟨h, fun hcurrent => iff_of_true hcurrent trivial⟩
  cases event with
  | queueUpsertRecord table recordId payload baseRevision resurrect =>
    simp only [Drivers.next, StepCurrent]
    split
    · exact hsame
    · rename_i hok
      obtain ⟨m, recordJson, happended, -⟩ :=
        queueUpsertRecord_appended (loadQueueFrom_asWritten h.valid) hok
      obtain ⟨hinv, hcurrent⟩ := h.appended happended
      exact ⟨hinv, fun hc => iff_of_true (hcurrent hc) trivial⟩
  | queueDeleteRecord table recordId baseRevision =>
    simp only [Drivers.next, StepCurrent]
    split
    · exact hsame
    · rename_i hok
      obtain ⟨m, -, hqueued⟩ : ∃ m, m.payload = none ∧ Queued merge toText m _ _ :=
        queueDeleteRecord_eq_ok (loadQueueFrom_asWritten h.valid) hok
      obtain ⟨hinv, hcurrent⟩ := h.appended hqueued.toAppended
      exact ⟨hinv, fun hc => iff_of_true (hcurrent hc) trivial⟩
  | load i =>
    have hloaded : Inv log toText document
        { s with driver := Function.update s.driver i (some (.idle s.db.queue)) } := by
      refine ⟨h.valid, h.documents, fun j driver hj => ?_⟩
      dsimp only at hj
      by_cases hji : j = i
      · rw [hji, Function.update_self, Option.some.injEq] at hj
        exact hj ▸ Tracks.refl h.valid
      · rw [Function.update_of_ne hji] at hj
        exact h.drivers j driver hj
    simp only [Drivers.next, StepCurrent, loadQueueFrom_asWritten h.valid]
    split
    · exact hsame
    · exact ⟨hloaded, fun hcurrent => iff_of_true hcurrent trivial⟩
    · exact ⟨hloaded, fun hcurrent => iff_of_true hcurrent trivial⟩
  | start i options =>
    simp only [Drivers.next, StepCurrent]
    split
    · exact hsame
    · exact hsame
    · rename_i memory hi
      have htracks : Tracks toText memory s.db.queue := h.drivers i _ hi
      exact ⟨h.put i (obeys_syncCycleAtomic options not_false htracks.valid) htracks,
        fun hcurrent => iff_of_true hcurrent trivial⟩
  | answer i transport =>
    simp only [Drivers.next, StepCurrent]
    split
    · exact hsame
    · exact hsame
    · rename_i hi
      obtain ⟨hinv, hcurrent⟩ := h.reply hi transport
      exact ⟨hinv, fun hc => iff_of_true (hcurrent.mpr hc) trivial⟩
  | store i fails =>
    cases hi : s.driver i with
    | none => cases fails <;> simpa only [Drivers.next, StepCurrent, hi] using hsame
    | some driver =>
      cases driver with
      | idle memory => cases fails <;> simpa only [Drivers.next, StepCurrent, hi] using hsame
      | waiting op resume =>
        cases fails with
        | true =>
          obtain ⟨hinv, hcurrent⟩ := h.fail hi
          simp only [Drivers.next, StepCurrent, hi, if_true]
          exact ⟨hinv, fun hc => iff_of_true (hcurrent.mpr hc) trivial⟩
        | false =>
          simp only [Drivers.next, StepCurrent, hi, Bool.false_eq_true, if_false]
          exact h.execute hR hi

/-- In every run over an honest server, the authoritative rows are the server's at the durable
checkpoint in all states exactly when no driver that is behind writes rows that have changed. -/
theorem run_current_iff (hR : Reconciles reconcile toText document merge) {clientId : String}
    {maxPending maxBytes : ℕ} {db : Database}
    (hopen : openWithLimits clientId maxPending maxBytes = .ok db)
    (events : List (DriverEvent log toText τ)) :
    StatesMeet (Drivers.next reconcile) (Current log toText) (opened db) events ↔
      StepsMeet (Drivers.next reconcile) StepCurrent (opened db) events := by
  obtain ⟨hinv, hcurrent⟩ : Inv log toText document (opened db : Drivers τ) ∧
      Current log toText (opened db : Drivers τ) := inv_opened hopen
  exact statesMeet_iff_stepsMeet (fun s event h => (Inv.next hR h event).1)
    (fun s event h hc => (Inv.next hR h event).2 hc) hinv hcurrent events

/-- A server that has written one record twice. -/
def twoWrites : ServerLog where
  change n := if n = 1 ∨ n = 2 then
      some { checkpoint := n.repr, table := "todos", recordId := "a", operation := .upsert
             record := some (.object []), revision := n.repr, source := none }
    else none
  at_position n c h := by
    split at h
    · rename_i hn
      cases h
      obtain rfl | rfl := hn
      · decide
      · decide
    · cases h

/-- A server whose head is at `checkpoint` and which answers nothing but pulls. -/
def pulling (log : ServerLog) (toText : Json → String) (checkpoint : String) :
    HonestTransport log toText Unit where
  answer
    | .pull prior _ => .ok (.changes
        { protocolVersion := 1, checkpoint, hasMore := false, changes := log.between
            ((parseDecimal prior).getD 0) ((parseDecimal checkpoint).getD 0) })
    | .push _ | .snapshot _ => .error { source := (), retryable := true, retryAfter := none }
  honest
    | .push _ => trivial
    | .pull _ _ => fun page h => by
      cases h
      rfl
    | .snapshot _ => fun snapshot h => by cases h

def oneDriver : List (DriverEvent twoWrites (fun _ => "{}") Unit) :=
  [.load 0, .start 0 .default, .answer 0 (pulling _ _ "2"), .store 0 false]

/-- A second driver pulls before the log has its last entry and commits after the first driver. -/
def twoDrivers : List (DriverEvent twoWrites (fun _ => "{}") Unit) :=
  [.load 0, .load 1, .start 0 .default, .start 1 .default, .answer 0 (pulling _ _ "2"),
    .answer 1 (pulling _ _ "1"), .store 0 false, .store 1 false]

theorem run_current_iff_oneDriver :
    ∃ db, openWithLimits "client" defaultMaxPendingMutations defaultMaxQueuedPayloadBytes = .ok db ∧
      StatesMeet (Drivers.next fun _ incoming => .ok incoming)
        (Current twoWrites fun _ => "{}") (opened db) oneDriver := by
  have hopen : openWithLimits "client" defaultMaxPendingMutations defaultMaxQueuedPayloadBytes =
      .ok { authoritative := ∅, localRecords := ∅, overlays := ∅, queue := empty "client"
              defaultMaxPendingMutations defaultMaxQueuedPayloadBytes } := rfl
  have hR : Reconciles (fun _ incoming => .ok incoming) (fun _ => "{}") (fun _ => True)
      (fun _ incoming => incoming) := ⟨trivial, fun _ => trivial, fun _ _ _ _ => ⟨rfl, trivial⟩⟩
  refine ⟨_, hopen, (run_current_iff hR hopen oneDriver).mpr ⟨trivial, trivial, trivial, ?_, trivial⟩⟩
  exact fun hbehind => absurd hbehind (by decide)

/-- The older row replaces the newer one, and the durable checkpoint is already past both. -/
theorem run_overwrites :
    ∃ db, openWithLimits "client" defaultMaxPendingMutations defaultMaxQueuedPayloadBytes = .ok db ∧
      ¬ StatesMeet (Drivers.next fun _ incoming => .ok incoming)
        (Current twoWrites fun _ => "{}") (opened db) twoDrivers := by
  refine ⟨_, rfl, fun h => ?_⟩
  have hlast := statesMeet_iff_prefix.mp h twoDrivers (List.prefix_refl _)
  have hrow := congrArg (fun table => (table[(("todos", "a") : RecordKey)]?).map (·.revision)) hlast
  revert hrow
  decide

end Drivers
end OptoSync
