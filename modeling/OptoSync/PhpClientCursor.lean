import OptoSync.JsonText
import OptoSync.PhpClient
import OptoSync.Transition

/-!
# The pull cursor of the PHP client

A device that pushes and pulls against a server log to which other devices commit too. The client
has no call that applies a page: an application applies the changes to its own rows and restores
the exported queue with the checkpoint of the page, in one transaction. An exported state is kept
together with the rows of that moment.

The cursor of a device is written by pages and restored states alone. The checkpoint of the client
should be that cursor, and everything foreign up to it should have been applied.
-/
namespace OptoSync.Php

open Transition

/-- `applied` holds the positions of the applied changes. `cursor` is what no program keeps. -/
structure Device where
  client : Client
  applied : List ℕ
  cursor : ℕ

/-- What `exportQueue` returned, with the rows and the cursor of that moment. -/
structure Exported where
  snapshot : Json
  applied : List ℕ
  cursor : ℕ

/-- The log tells of each commit whether it is foreign; the first has checkpoint 1. -/
structure World where
  device : Device
  exports : List Exported
  log : List Bool

inductive Event
  | enqueueUpsert (table recordId : String) (payload : Json) (baseRevision : Option String)
    (resurrect : Bool)
  | enqueueDelete (table recordId : String) (baseRevision : Option String)
  | commit (foreign : Bool)
  | acknowledge (request response : Json)
  /-- The page ends at the given checkpoint, as far as the log goes. -/
  | applyPage (through : ℕ)
  | exportQueue
  | restore (index : ℕ)

def World.setClient (w : World) (client : Client) : World :=
  { w with device := { w.device with client } }

def IsForeign (log : List Bool) (n : ℕ) : Prop := 0 < n ∧ log[n - 1]? = some true

instance (log : List Bool) (n : ℕ) : Decidable (IsForeign log n) :=
  inferInstanceAs (Decidable (_ ∧ _))

/-- The checkpoint of a page for a client at `cursor`. -/
def pageEnd (log : List Bool) (cursor through : ℕ) : ℕ := max cursor (min through log.length)

/-- The foreign changes of the page. -/
def pageChanges (log : List Bool) (cursor last : ℕ) : List ℕ :=
  (List.range (last + 1)).filter fun n => cursor < n ∧ IsForeign log n

variable (ext : JsonExtension)

/-- Apply a page and store its checkpoint; where the client throws, nothing is applied. -/
def applyPage (w : World) (through : ℕ) : World :=
  let cursor := intOf w.device.client.checkpoint
  let last := pageEnd w.log cursor through
  match exportQueue w.device.client with
  | .error _ => w
  | .ok snapshot =>
    match restoreQueue ext w.device.client (set "checkpoint" (.string last.repr) snapshot) with
    | .error _ => w
    | .ok client =>
      { w with device := {
        client, applied := w.device.applied ++ pageChanges w.log cursor last, cursor := last } }

def next (w : World) : Event → World
  | .enqueueUpsert table recordId payload baseRevision resurrect =>
    match enqueueUpsert ext w.device.client table recordId payload baseRevision resurrect with
    | .ok p => w.setClient p.1
    | .error _ => w
  | .enqueueDelete table recordId baseRevision =>
    match enqueueDelete w.device.client table recordId baseRevision with
    | .ok p => w.setClient p.1
    | .error _ => w
  | .commit isForeign => { w with log := w.log ++ [isForeign] }
  | .acknowledge request response =>
    match acknowledgePush ext w.device.client request response with
    | .ok client => w.setClient client
    | .error _ => w
  | .applyPage through => applyPage ext w through
  | .exportQueue =>
    match exportQueue w.device.client with
    | .ok snapshot =>
      { w with exports := w.exports ++ [⟨snapshot, w.device.applied, w.device.cursor⟩] }
    | .error _ => w
  | .restore index =>
    match w.exports[index]? with
    | none => w
    | some saved =>
      match restoreQueue ext w.device.client saved.snapshot with
      | .ok client => { w with device := ⟨client, saved.applied, saved.cursor⟩ }
      | .error _ => w

/-- The checkpoint of the client is its cursor, and each foreign change up to it is applied. -/
structure CursorHolds (w : World) : Prop where
  own : w.device.client.checkpoint = w.device.cursor.repr
  applied : ∀ n, IsForeign w.log n → n ≤ intOf w.device.client.checkpoint → n ∈ w.device.applied

variable {ext}

/-- The states of the past are as the present one should be. -/
structure Recorded (w : World) : Prop where
  cursor : w.device.cursor ≤ w.log.length
  exports : ∀ saved ∈ w.exports, get saved.snapshot "checkpoint" = .string saved.cursor.repr ∧
    saved.cursor ≤ w.log.length ∧
    ∀ n, IsForeign w.log n → n ≤ saved.cursor → n ∈ saved.applied

theorem CursorHolds.setClient {w : World} {client : Client}
    (h : client.checkpoint = w.device.client.checkpoint) :
    CursorHolds (w.setClient client) ↔ CursorHolds w := by
  constructor
  · rintro ⟨hown, happlied⟩
    exact ⟨h ▸ hown, fun n hn hle => happlied n hn (h.symm ▸ hle)⟩
  · rintro ⟨hown, happlied⟩
    exact ⟨h.trans hown, fun n hn hle => happlied n hn (h ▸ hle)⟩

theorem Recorded.setClient {w : World} {client : Client} (h : Recorded w) :
    Recorded (w.setClient client) := ⟨h.cursor, h.exports⟩

/-- A new client, before any commit. -/
def start (client : Client) : World := ⟨⟨client, [], 0⟩, [], []⟩

def phone : Client := ⟨some "php", 1, 1, [], 1, "0"⟩

end OptoSync.Php
