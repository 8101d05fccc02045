import OptoSync.Interaction
import OptoSync.PullPageAgreement
import OptoSync.ReplayLog
import OptoSync.Transition

/-!
# Sync loops over one IndexedDB

The pull phase of any number of `ProtocolSyncLoop`s that share a store: tabs, or a tab whose
stopped cycle is still settling. An application writes a pull page or a snapshot row by row inside
`commitPullPageAtomic` and `installSnapshotAtomic`.
-/
namespace OptoSync.SharedStore
open Transition Interaction Json ReplayLog SyncLoop

def changeValue (change : Change) : Json :=
  .object ([("checkpoint", .string change.checkpoint), ("table", .string change.table),
    ("recordId", .string change.recordId),
    ("operation", .string (match change.operation with
      | .upsert => "upsert"
      | .delete => "delete")),
    ("record", change.record.getD .null), ("revision", .string change.revision)] ++
    (change.source.map fun source => ("source", .object [("clientId", .string source.clientId),
      ("mutationId", .string source.mutationId)])).toList)

def pageValue (page : PullResponse) : Json :=
  .object [("protocolVersion", .number (.int page.protocolVersion)),
    ("checkpoint", .string page.checkpoint), ("hasMore", .bool page.hasMore),
    ("changes", .array (page.changes.map changeValue))]

def recordValue (record : SnapshotRecord) : Json :=
  .object [("table", .string record.table), ("recordId", .string record.recordId),
    ("record", record.record), ("revision", .string record.revision)]

def snapshotValue (snapshot : SnapshotResponse) : Json :=
  .object [("protocolVersion", .number (.int snapshot.protocolVersion)),
    ("checkpoint", .string snapshot.checkpoint),
    ("records", .array (snapshot.records.map recordValue))]

section Snapshots

variable (numbers : NumberConversion)

def snapshotEntryValid (entry : Json) : Bool :=
  entry.isObject && nonEmptyString (property entry "table") &&
    nonEmptyString (property entry "recordId") && (property entry "record").any isObject &&
    positiveDecimalString (property entry "revision")

def validateSnapshot (snapshot : Json) (priorCheckpoint : String) : Except String Unit :=
  match property snapshot "protocolVersion", property snapshot "checkpoint",
    property snapshot "records" with
  | some (.number version), some checkpoint, some (.array records) =>
    if numbers.text version ≠ "1" ∨ decimalPattern (toText numbers checkpoint) = false ∨
        toBigInt numbers checkpoint < bigInt priorCheckpoint ∨
        records.all snapshotEntryValid = false then
      .error "invalid protocol snapshot response"
    else .ok ()
  | _, _, _ => .error "invalid protocol snapshot response"

def assertSnapshot (snapshot : Json) : Except String Unit :=
  match property snapshot "protocolVersion", property snapshot "checkpoint",
    property snapshot "records" with
  | some (.number version), some checkpoint, some (.array records) =>
    if numbers.text version ≠ "1" ∨ decimalPattern (toText numbers checkpoint) = false ∨
        records.all snapshotEntryValid = false then
      .error "snapshot is not a valid protocol v1 snapshot"
    else .ok ()
  | _, _, _ => .error "snapshot is not a valid protocol v1 snapshot"

end Snapshots

abbrev RowKey : Type := String × String

structure StoredRow where
  record : Json
  revision : String
  deriving DecidableEq

/-- The checkpoint in `meta`, and the authoritative rows. -/
structure Store where
  checkpoint : Option String
  rows : RowKey → Option StoredRow

namespace Store

/-- A new database. -/
def empty : Store := { checkpoint := none, rows := fun _ => none }

def pullCheckpoint (store : Store) : String := store.checkpoint.getD "0"

end Store

/-- A plain put or delete. -/
def changeWrite (change : Change) : RowKey × Option StoredRow :=
  ((change.table, change.recordId), match change.operation with
    | .upsert => some { record := change.record.getD .null, revision := change.revision }
    | .delete => none)

def recordWrite (record : SnapshotRecord) : RowKey × Option StoredRow :=
  ((record.table, record.recordId), some { record := record.record, revision := record.revision })

/-- The rows that a snapshot leaves. -/
def snapshotRows (records : List SnapshotRecord) : RowKey → Option StoredRow :=
  replay (fun _ => none) (records.map recordWrite)

def commitPullPageAtomic (store : Store) (page : PullResponse) : Except String Store :=
  if decimalPattern page.checkpoint = false then
    .error "checkpoint must be a canonical unsigned decimal string"
  else
    .ok { checkpoint := some page.checkpoint
          rows := replay store.rows (page.changes.map changeWrite) }

def installSnapshotAtomic (numbers : NumberConversion) (snapshot : SnapshotResponse) :
    Except String Store :=
  match assertSnapshot numbers (snapshotValue snapshot) with
  | .error message => .error message
  | .ok _ => .ok { checkpoint := some snapshot.checkpoint, rows := snapshotRows snapshot.records }

inductive StoreOp
  | pullCheckpoint
  | transport (op : TransportOp)
  | commitPullPageAtomic (page : PullResponse)
  | installSnapshotAtomic (snapshot : SnapshotResponse)

abbrev StoreOp.Answer (τ : Type) : StoreOp → Type
  | pullCheckpoint => String
  | transport op => op.Answer τ
  | commitPullPageAtomic _ | installSnapshotAtomic _ => Except String Unit

structure PullProgress where
  pulledChanges : ℕ
  installedSnapshots : ℕ

inductive PullError (τ : Type)
  | transport (failure : TransportFailure τ)
  | store (message : String)
  | invalid (message : String)

abbrev PullProgram (τ : Type) : Type :=
  Interaction StoreOp (StoreOp.Answer τ) (Except (PullError τ) PullProgress)

/-- The loop over pages; the number counts the pages left. -/
def pullToCurrent {τ : Type} (numbers : NumberConversion) (pullLimit : ℕ) :
    ℕ → PullProgress → PullProgram τ
  | 0, _ => .done (.error (.invalid "pull page safety limit exceeded"))
  | pages + 1, result =>
    .call .pullCheckpoint fun checkpoint =>
    .call (.transport (.pull checkpoint pullLimit)) fun
    | .error failure => .done (.error (.transport failure))
    | .ok (.resetRequired reset) =>
      if reset.protocolVersion ≠ 1 then
        .done (.error (.invalid "invalid protocol reset response"))
      else .call (.transport (.snapshot reset)) fun
        | .error failure => .done (.error (.transport failure))
        | .ok snapshot =>
          match validateSnapshot numbers (snapshotValue snapshot) checkpoint with
          | .error message => .done (.error (.invalid message))
          | .ok _ =>
            .call (.installSnapshotAtomic snapshot) fun
            | .error message => .done (.error (.store message))
            | .ok _ => .call .pullCheckpoint fun stored =>
              if stored ≠ snapshot.checkpoint then
                .done (.error (.invalid "atomic snapshot callback did not persist its checkpoint"))
              else pullToCurrent numbers pullLimit pages
                { result with installedSnapshots := result.installedSnapshots + 1 }
    | .ok (.changes page) =>
      match SyncLoop.validatePullPage numbers (pageValue page) checkpoint with
      | .error message => .done (.error (.invalid message))
      | .ok _ =>
        .call (.commitPullPageAtomic page) fun
        | .error message => .done (.error (.store message))
        | .ok _ => .call .pullCheckpoint fun stored =>
          if stored ≠ page.checkpoint then
            .done (.error (.invalid "atomic pull callback did not persist its checkpoint"))
          else
            let result := { result with pulledChanges := result.pulledChanges + page.changes.length }
            if page.hasMore = false then .done (.ok result)
            else if page.checkpoint = checkpoint then
              .done (.error (.invalid "pull response hasMore without checkpoint progress"))
            else pullToCurrent numbers pullLimit pages result

/-- The change committed at each position, if there is one. -/
abbrev ServerChanges : Type := ℕ → Option Change

def writes (log : ServerChanges) : ℕ → Option (RowKey × Option StoredRow) :=
  fun n => (log n).map changeWrite

/-- A page has all changes between the two checkpoints, a snapshot is the state at its own. -/
def Honest {τ : Type} (log : ServerChanges) : (op : TransportOp) → op.Answer τ → Prop
  | .push _, _ => True
  | .pull checkpoint _, answer => ∀ page, answer = .ok (.changes page) →
      page.changes = between log (bigInt checkpoint) (bigInt page.checkpoint)
  | .snapshot _, answer => ∀ snapshot, answer = .ok snapshot →
      snapshotRows snapshot.records = stateAt (writes log) (bigInt snapshot.checkpoint)

/-- The server as a loop may find it at one moment. -/
structure HonestServer (log : ServerChanges) (τ : Type) where
  answer : (op : TransportOp) → op.Answer τ
  honest : ∀ op, Honest log op (answer op)

structure Loops (τ : Type) where
  store : Store
  program : ℕ → Option (PullProgram τ)
  /-- The durable checkpoints so far, the first one first. -/
  checkpoints : List ℕ

def Loops.start {τ : Type} : Loops τ :=
  { store := .empty, program := fun _ => none, checkpoints := [0] }

inductive LoopEvent (log : ServerChanges) (τ : Type)
  /-- A pull phase begins; a cycle has two of them. -/
  | begin (i pullLimit maxPullPages : ℕ)
  /-- The next call of a loop is answered; `fails` is for IndexedDB in a transaction. -/
  | proceed (i : ℕ) (server : HonestServer log τ) (fails : Bool)

namespace Loops

variable {τ : Type} (numbers : NumberConversion) {log : ServerChanges}

def put (s : Loops τ) (i : ℕ) (program : PullProgram τ) : Loops τ :=
  { s with program := Function.update s.program i (some program) }

def finish (s : Loops τ) (i : ℕ) (resume : Except String Unit → PullProgram τ) :
    Except String Store → Loops τ
  | .error message => s.put i (resume (.error message))
  | .ok store =>
    { s with store, checkpoints := s.checkpoints ++ [bigInt store.pullCheckpoint] }.put i
      (resume (.ok ()))

def reply (s : Loops τ) (i : ℕ) (server : HonestServer log τ) (fails : Bool) :
    (op : StoreOp) → (op.Answer τ → PullProgram τ) → Loops τ
  | .pullCheckpoint, resume => s.put i (resume s.store.pullCheckpoint)
  | .transport op, resume => s.put i (resume (server.answer op))
  | .commitPullPageAtomic page, resume => s.finish i resume
      (if fails then .error "IndexedDB" else commitPullPageAtomic s.store page)
  | .installSnapshotAtomic snapshot, resume => s.finish i resume
      (if fails then .error "IndexedDB" else installSnapshotAtomic numbers snapshot)

def step (s : Loops τ) : LoopEvent log τ → Loops τ
  | .begin i pullLimit maxPullPages =>
    match s.program i with
    | some (.call ..) => s
    | none | some (.done _) => s.put i (pullToCurrent numbers pullLimit maxPullPages ⟨0, 0⟩)
  | .proceed i server fails =>
    match s.program i with
    | none | some (.done _) => s
    | some (.call op resume) => s.reply numbers i server fails op resume

end Loops

/-- The durable checkpoint has never decreased, and every row is the server's at some point not
before it. -/
structure NothingLost {τ : Type} (log : ServerChanges) (s : Loops τ) : Prop where
  ascending : s.checkpoints.Pairwise (· ≤ ·)
  ahead : AheadOf (writes log) (bigInt s.store.pullCheckpoint) s.store.rows

/-- What a transaction offers is not behind the durable checkpoint. -/
def NotBehind (durable : ℕ) : StoreOp → Prop
  | .commitPullPageAtomic page => durable ≤ bigInt page.checkpoint
  | .installSnapshotAtomic snapshot => durable ≤ bigInt snapshot.checkpoint
  | _ => True

/-- The step is not a transaction of a loop that has fallen behind. -/
def CommitsForward {τ : Type} {log : ServerChanges} (s : Loops τ) : LoopEvent log τ → Prop
  | .proceed i _ fails => fails = false → ∀ op resume, s.program i = some (.call op resume) →
      NotBehind (bigInt s.store.pullCheckpoint) op
  | _ => True

section Contract

variable {τ : Type} (numbers : NumberConversion) (log : ServerChanges)

/-- What a loop may commit after it read the checkpoint `seen`. -/
def Offers (seen : String) : StoreOp → Prop
  | .pullCheckpoint => True
  | .transport (.pull checkpoint _) => checkpoint = seen
  | .transport _ => True
  | .commitPullPageAtomic page => decimalPattern page.checkpoint = true ∧
      bigInt seen ≤ bigInt page.checkpoint ∧
      page.changes = between log (bigInt seen) (bigInt page.checkpoint)
  | .installSnapshotAtomic snapshot =>
      assertSnapshot numbers (snapshotValue snapshot) = .ok () ∧
      snapshotRows snapshot.records = stateAt (writes log) (bigInt snapshot.checkpoint)

/-- The state of the contract is the checkpoint that the loop read last. -/
def pullContract : Contract StoreOp (StoreOp.Answer τ) String where
  allowed := Offers numbers log
  expects
    | _, .transport op, answer => Honest log op answer
    | _, _, _ => True
  advance
    | _, .pullCheckpoint, answer => answer
    | seen, _, _ => seen

end Contract

variable {τ : Type} {numbers : NumberConversion} {log : ServerChanges}

theorem validatePullPage_ok {page : PullResponse} {prior : String}
    (h : SyncLoop.validatePullPage numbers (pageValue page) prior = .ok ()) :
    decimalPattern page.checkpoint = true ∧ bigInt prior ≤ bigInt page.checkpoint := by
  have hwf := ((validatePullPage_eq_ok_iff numbers).mp h).1
  have hcheckpoint : pageCheckpoint (pageValue page) = .string page.checkpoint := rfl
  exact ⟨by simpa [hcheckpoint, toText] using hwf.checkpoint,
    by simpa [hcheckpoint, toBigInt, toText] using hwf.advances⟩

theorem validateSnapshot_ok {snapshot : SnapshotResponse} {prior : String}
    (h : validateSnapshot numbers (snapshotValue snapshot) prior = .ok ()) :
    assertSnapshot numbers (snapshotValue snapshot) = .ok () := by
  unfold validateSnapshot at h
  unfold assertSnapshot
  have hversion : property (snapshotValue snapshot) "protocolVersion" =
    some (.number (.int snapshot.protocolVersion)) := rfl
  have hcheckpoint : property (snapshotValue snapshot) "checkpoint" =
    some (.string snapshot.checkpoint) := rfl
  have hrecords : property (snapshotValue snapshot) "records" =
    some (.array (snapshot.records.map recordValue)) := rfl
  rw [hversion, hcheckpoint, hrecords] at h ⊢
  dsimp only at h ⊢
  split at h
  · cases h
  · rename_i hvalid
    simp only [not_or] at hvalid
    rw [if_neg]
    simp only [not_or]
    exact ⟨hvalid.1, hvalid.2.1, hvalid.2.2.2⟩

theorem obeys_pullToCurrent (pullLimit pages : ℕ) (result : PullProgress) (seen : String) :
    Obeys (pullContract numbers log) (fun _ _ => True) seen
      (pullToCurrent numbers pullLimit pages result : PullProgram τ) := by
  induction pages generalizing result seen with
  | zero => exact trivial
  | succ pages ih =>
    refine ⟨trivial, fun checkpoint _ => ⟨rfl, fun answer hhonest => ?_⟩⟩
    cases answer with
    | error failure => exact trivial
    | ok result =>
      cases result with
      | resetRequired reset =>
        dsimp only
        split
        · exact trivial
        · refine ⟨trivial, fun answer hsnapshot => ?_⟩
          cases answer with
          | error failure => exact trivial
          | ok snapshot =>
            dsimp only
            cases hvalid : validateSnapshot numbers (snapshotValue snapshot) checkpoint with
            | error message => exact trivial
            | ok _ =>
              refine ⟨⟨validateSnapshot_ok hvalid, hsnapshot snapshot rfl⟩, fun answer _ => ?_⟩
              cases answer with
              | error message => exact trivial
              | ok _ =>
                refine ⟨trivial, fun stored _ => ?_⟩
                dsimp only
                split
                · exact trivial
                · exact ih _ _
      | changes page =>
        dsimp only
        cases hvalid : SyncLoop.validatePullPage numbers (pageValue page) checkpoint with
        | error message => exact trivial
        | ok _ =>
          obtain ⟨hpattern, hle⟩ := validatePullPage_ok hvalid
          refine ⟨⟨hpattern, hle, hhonest page rfl⟩, fun answer _ => ?_⟩
          cases answer with
          | error message => exact trivial
          | ok _ =>
            refine ⟨trivial, fun stored _ => ?_⟩
            dsimp only
            split
            · exact trivial
            · split
              · exact trivial
              · split
                · exact trivial
                · exact ih _ _

/-- Every loop has read a checkpoint that was durable, and goes on by its contract. -/
structure Inv (numbers : NumberConversion) (log : ServerChanges) (s : Loops τ) : Prop where
  durable : s.checkpoints.getLast? = some (bigInt s.store.pullCheckpoint)
  programs : ∀ i program, s.program i = some program → ∃ seen, bigInt seen ∈ s.checkpoints ∧
    Obeys (pullContract numbers log) (fun _ _ => True) seen program

variable {s : Loops τ}

theorem Inv.put (h : Inv numbers log s) (i : ℕ) {program : PullProgram τ} {seen : String}
    (hseen : bigInt seen ∈ s.checkpoints)
    (hobeys : Obeys (pullContract numbers log) (fun _ _ => True) seen program) :
    Inv numbers log (s.put i program) := by
  refine ⟨h.durable, fun j other hj => ?_⟩
  dsimp only [Loops.put] at hj ⊢
  by_cases hji : j = i
  · rw [hji, Function.update_self, Option.some.injEq] at hj
    exact ⟨seen, hseen, hj ▸ hobeys⟩
  · rw [Function.update_of_ne hji] at hj
    exact h.programs j other hj

theorem Inv.commit (h : Inv numbers log s) (store : Store) : Inv numbers log
    { s with store, checkpoints := s.checkpoints ++ [bigInt store.pullCheckpoint] } where
  durable := List.getLast?_concat
  programs := by
    intro i program hi
    obtain ⟨seen, hseen, hobeys⟩ := h.programs i program hi
    exact ⟨seen, List.mem_append_left _ hseen, hobeys⟩

theorem Inv.finish (h : Inv numbers log s) (i : ℕ) {seen : String}
    (hseen : bigInt seen ∈ s.checkpoints) {resume : Except String Unit → PullProgram τ}
    (hobeys : ∀ answer, Obeys (pullContract numbers log) (fun _ _ => True) seen (resume answer))
    (out : Except String Store) : Inv numbers log (s.finish i resume out) := by
  cases out with
  | error message => exact h.put i hseen (hobeys _)
  | ok store => exact (h.commit store).put i (List.mem_append_left _ hseen) (hobeys _)

theorem mem_durable (h : Inv numbers log s) :
    bigInt s.store.pullCheckpoint ∈ s.checkpoints := List.mem_of_getLast? h.durable

theorem Inv.reply (h : Inv numbers log s) {i : ℕ} {op : StoreOp}
    {resume : op.Answer τ → PullProgram τ} (hi : s.program i = some (.call op resume))
    (server : HonestServer log τ) (fails : Bool) :
    Inv numbers log (s.reply numbers i server fails op resume) := by
  obtain ⟨seen, hseen, -, hrest⟩ := h.programs i _ hi
  cases op with
  | pullCheckpoint => exact h.put i (mem_durable h) (hrest _ trivial)
  | transport op => exact h.put i hseen (hrest _ (server.honest op))
  | commitPullPageAtomic page => exact h.finish i hseen (fun answer => hrest answer trivial) _
  | installSnapshotAtomic snapshot => exact h.finish i hseen (fun answer => hrest answer trivial) _

theorem Inv.step (h : Inv numbers log s) (e : LoopEvent log τ) :
    Inv numbers log (s.step numbers e) := by
  cases e with
  | «begin» i pullLimit maxPullPages =>
    have hbegun := h.put i (mem_durable h)
      (obeys_pullToCurrent pullLimit maxPullPages ⟨0, 0⟩ s.store.pullCheckpoint)
    simp only [Loops.step]
    cases hi : s.program i with
    | none => exact hbegun
    | some program =>
      cases program with
      | done result => exact hbegun
      | call op resume => exact h
  | proceed i server fails =>
    simp only [Loops.step]
    cases hi : s.program i with
    | none => exact h
    | some program =>
      cases program with
      | done result => exact h
      | call op resume => exact h.reply hi server fails

theorem ascending_concat_iff {l : List ℕ} {d p : ℕ} (h : l.Pairwise (· ≤ ·))
    (hlast : l.getLast? = some d) : (l ++ [p]).Pairwise (· ≤ ·) ↔ d ≤ p := by
  obtain ⟨before, rfl⟩ := List.getLast?_eq_some_iff.mp hlast
  rw [List.pairwise_append]
  constructor
  · intro happend
    exact happend.2.2 d (List.mem_append_right _ (List.mem_singleton_self d)) p
      (List.mem_singleton_self p)
  · intro hle
    refine ⟨h, List.pairwise_singleton _ _, fun a ha b hb => ?_⟩
    rw [List.mem_singleton.mp hb]
    rcases List.mem_append.mp ha with ha | ha
    · exact ((List.pairwise_append.mp h).2.2 a ha d (List.mem_singleton_self d)).trans hle
    · rw [List.mem_singleton.mp ha]
      exact hle

theorem le_durable (hI : Inv numbers log s) (h : NothingLost log s) :
    ∀ c ∈ s.checkpoints, c ≤ bigInt s.store.pullCheckpoint := by
  obtain ⟨before, hbefore⟩ := List.getLast?_eq_some_iff.mp hI.durable
  have hascending := h.ascending
  rw [hbefore] at hascending ⊢
  intro c hc
  rcases List.mem_append.mp hc with hc | hc
  · exact (List.pairwise_append.mp hascending).2.2 c hc _ (List.mem_singleton_self _)
  · rw [List.mem_singleton.mp hc]

/-- A transaction that writes the rows of an offer keeps the law if it is not behind. -/
theorem NothingLost.finish_iff (hI : Inv numbers log s) (h : NothingLost log s) (i : ℕ)
    (resume : Except String Unit → PullProgram τ) {checkpoint : String}
    {rows : RowKey → Option StoredRow}
    (hrows : bigInt s.store.pullCheckpoint ≤ bigInt checkpoint →
      AheadOf (writes log) (bigInt checkpoint) rows) :
    NothingLost log (s.finish i resume (.ok { checkpoint := some checkpoint, rows })) ↔
      bigInt s.store.pullCheckpoint ≤ bigInt checkpoint := by
  constructor
  · intro hnext
    exact (ascending_concat_iff h.ascending hI.durable).mp hnext.ascending
  · intro hle
    exact ⟨(ascending_concat_iff h.ascending hI.durable).mpr hle, hrows hle⟩

theorem NothingLost.reply_iff (hI : Inv numbers log s) (h : NothingLost log s) {i : ℕ}
    {op : StoreOp} {resume : op.Answer τ → PullProgram τ}
    (hi : s.program i = some (.call op resume)) (server : HonestServer log τ) (fails : Bool) :
    NothingLost log (s.reply numbers i server fails op resume) ↔
      (fails = false → NotBehind (bigInt s.store.pullCheckpoint) op) := by
  obtain ⟨seen, hseen, hoffers, -⟩ := hI.programs i _ hi
  have hsame : ∀ program : PullProgram τ, NothingLost log (s.put i program) :=
    fun _ => ⟨h.ascending, h.ahead⟩
  cases op with
  | pullCheckpoint => exact iff_of_true (hsame _) fun _ => trivial
  | transport op => exact iff_of_true (hsame _) fun _ => trivial
  | commitPullPageAtomic page =>
    cases fails with
    | true => exact iff_of_true (hsame _) fun hfails => by cases hfails
    | false =>
      obtain ⟨hpattern, -, hchanges⟩ := hoffers
      have hcommit : commitPullPageAtomic s.store page =
          .ok { checkpoint := some page.checkpoint
                rows := replay s.store.rows (page.changes.map changeWrite) } := by
        rw [commitPullPageAtomic, hpattern]
        rfl
      simp only [Loops.reply, Bool.false_eq_true, if_false, hcommit, true_implies, NotBehind]
      refine h.finish_iff hI i resume fun hle => ?_
      rw [hchanges, map_between]
      exact h.ahead.replay_between (le_durable hI h _ hseen) hle
  | installSnapshotAtomic snapshot =>
    cases fails with
    | true => exact iff_of_true (hsame _) fun hfails => by cases hfails
    | false =>
      obtain ⟨hassert, hrows⟩ := hoffers
      have hinstall : installSnapshotAtomic numbers snapshot =
          .ok { checkpoint := some snapshot.checkpoint
                rows := snapshotRows snapshot.records } := by
        rw [installSnapshotAtomic, hassert]
      simp only [Loops.reply, Bool.false_eq_true, if_false, hinstall, true_implies, NotBehind]
      refine h.finish_iff hI i resume fun _ => ?_
      rw [hrows]
      exact aheadOf_stateAt _

theorem NothingLost.step_iff (hI : Inv numbers log s) (h : NothingLost log s)
    (e : LoopEvent log τ) : NothingLost log (s.step numbers e) ↔ CommitsForward s e := by
  have hput : ∀ (i : ℕ) (program : PullProgram τ), NothingLost log (s.put i program) :=
    fun _ _ => ⟨h.ascending, h.ahead⟩
  cases e with
  | «begin» i pullLimit maxPullPages =>
    refine iff_of_true ?_ trivial
    simp only [Loops.step]
    cases hi : s.program i with
    | none => exact hput i _
    | some program =>
      cases program with
      | done result => exact hput i _
      | call op resume => exact h
  | proceed i server fails =>
    simp only [Loops.step, CommitsForward]
    cases hi : s.program i with
    | none => exact iff_of_true h fun _ _ _ hcall => by cases hcall
    | some program =>
      cases program with
      | done result => exact iff_of_true h fun _ _ _ hcall => by cases hcall
      | call op resume =>
        have hcond : (fails = false → ∀ op' resume', some (.call op resume) =
            some (Interaction.call op' resume' : PullProgram τ) →
              NotBehind (bigInt s.store.pullCheckpoint) op') ↔
            (fails = false → NotBehind (bigInt s.store.pullCheckpoint) op) := by
          constructor
          · intro hall hfails
            exact hall hfails op resume rfl
          · intro hop hfails op' resume' heq
            cases heq
            exact hop hfails
        rw [hcond]
        exact h.reply_iff hI hi server fails

theorem bigInt_start : bigInt (Loops.start : Loops τ).store.pullCheckpoint = 0 := by
  have hstart : (Loops.start : Loops τ).store.pullCheckpoint = "0" := rfl
  rw [hstart]
  decide

/-- Along a run of any number of loops over one store and an honest server, the durable checkpoint
never decreases and no change is lost exactly when no transaction offers a page or a snapshot that
is behind the durable checkpoint. -/
theorem nothingLost_iff (numbers : NumberConversion) (log : ServerChanges)
    (events : List (LoopEvent log τ)) :
    StatesMeet (Loops.step numbers) (NothingLost log) .start events ↔
      StepsMeet (Loops.step numbers) CommitsForward .start events := by
  refine statesMeet_iff_stepsMeet (I := Inv numbers log) (fun s e hI => hI.step e)
    (fun s e hI h => h.step_iff hI e) ?_ ?_ events
  · refine ⟨?_, fun i program hi => by cases hi⟩
    rw [bigInt_start]
    rfl
  · refine ⟨List.pairwise_singleton _ _, ?_⟩
    rw [bigInt_start]
    exact aheadOf_stateAt 0

/-- Two changes of one record, one after the other. -/
def twoChanges : ServerChanges
  | 1 => some { checkpoint := "1", table := "todos", recordId := "a", operation := .upsert
                record := some (.object []), revision := "1", source := none }
  | 2 => some { checkpoint := "2", table := "todos", recordId := "a", operation := .delete
                record := none, revision := "2", source := none }
  | _ => none

/-- The changes from a checkpoint up to `current`. -/
def serverAt (current : ℕ) : HonestServer twoChanges Unit where
  answer
    | .push _ => .error { source := (), retryable := true, retryAfter := none }
    | .pull checkpoint _ => .ok (.changes {
        protocolVersion := 1, checkpoint := toString current, hasMore := false
        changes := between twoChanges (bigInt checkpoint) (bigInt (toString current)) })
    | .snapshot _ => .error { source := (), retryable := true, retryAfter := none }
  honest := by
    intro op
    cases op with
    | push request => exact trivial
    | pull checkpoint limit =>
      intro page hpage
      cases hpage
      rfl
    | snapshot reset =>
      intro snapshot hsnapshot
      cases hsnapshot

/-- Both tabs pull; the page of the second is older, and is committed last. -/
theorem olderPage_commits_last :
    ¬ StatesMeet (Loops.step smallNumbers) (NothingLost twoChanges) .start
      [.begin 0 100 8, .begin 1 100 8, .proceed 1 (serverAt 1) false,
        .proceed 1 (serverAt 1) false, .proceed 0 (serverAt 2) false,
        .proceed 0 (serverAt 2) false, .proceed 0 (serverAt 2) false,
        .proceed 1 (serverAt 2) false] := by
  intro h
  have hascending := h.2.2.2.2.2.2.2.2.ascending
  have hdurable : (run (Loops.step smallNumbers) .start
      [LoopEvent.begin 0 100 8, .begin 1 100 8, .proceed 1 (serverAt 1) false,
        .proceed 1 (serverAt 1) false, .proceed 0 (serverAt 2) false,
        .proceed 0 (serverAt 2) false, .proceed 0 (serverAt 2) false,
        .proceed 1 (serverAt 2) false]).checkpoints = [0, 2, 1] := by decide
  rw [run_cons, run_cons, run_cons, run_cons, run_cons, run_cons, run_cons, run_cons,
    run_nil] at hdurable
  rw [hdurable] at hascending
  exact absurd hascending (by decide)

end OptoSync.SharedStore
