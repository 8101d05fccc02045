import OptoSync.Decimal
import OptoSync.Transition

/-!
# Report publication leases

`report_publish_leased.rs` and `report_publish.rs` of fmctl over one report root, as compiled for
Unix. A run is one call of `publish_report_bundle` or `cleanup_stale_publication_state`; each of its
file-system and lock calls is one step, and it may fail or crash at every step. A lock belongs to
the inode that was opened, not to the name it was opened by.
-/
namespace OptoSync.Publication

open Decimal (parseU64)

def maxReportBundleIdBytes : ℕ := 128

def stagingPrefix : String := ".fm-report-staging-"

inductive BundleIdError
  | invalidBundleId | windowsDeviceBasename
  deriving DecidableEq

def isLowerAsciiAlphanumeric (c : Char) : Bool := c.isLower || c.isDigit

def isWindowsDeviceBasename (value : List Char) : Bool :=
  value.map Char.toLower ∈ ["con", "prn", "aux", "nul", "clock$"].map String.toList ||
    -- Four bytes with an ASCII fourth one that follow these texts are four characters.
    match value with
    | [a, b, c, d] =>
      '1' ≤ d && d ≤ '9' && ([a, b, c].map Char.toLower ∈ ["com", "lpt"].map String.toList)
    | _ => false

def validateReportBundleId (bundleId : String) : Except BundleIdError Unit :=
  let chars := bundleId.toList
  if chars = [] ∨ maxReportBundleIdBytes < bundleId.utf8ByteSize then .error .invalidBundleId
  else if isWindowsDeviceBasename (chars.takeWhile (· ≠ '.')) then .error .windowsDeviceBasename
  else if !chars.head?.any isLowerAsciiAlphanumeric ||
      !chars.getLast?.any isLowerAsciiAlphanumeric ||
      !chars.all fun c => isLowerAsciiAlphanumeric c || c = '-' || c = '_' then
    .error .invalidBundleId
  else .ok ()

structure BundleId where
  text : String
  valid : validateReportBundleId text = .ok ()

/-- `str::rsplit_once('-')`. -/
def rsplitOnce : List Char → Option (List Char × List Char)
  | [] => none
  | c :: cs =>
    match rsplitOnce cs with
    | some (value, last) => some (c :: value, last)
    | none => if c = '-' then some ([], cs) else none

def parseU32 (value : String) : Option ℕ := (parseU64 value).filter (· < 2 ^ 32)

def stagingBundleId (name : String) : Option String := do
  let value ← name.toList.dropPrefix? stagingPrefix.toList
  let (value, sequence) ← rsplitOnce value
  let _ ← parseU64 (String.ofList sequence)
  let (bundleId, processId) ← rsplitOnce value
  let _ ← parseU32 (String.ofList processId)
  if validateReportBundleId (String.ofList bundleId) = .ok () then some (String.ofList bundleId)
  else none

/-- The name that `StagingDirectory::create` makes. -/
def stagingName (bundleId : String) (processId : UInt32) (sequence : UInt64) : String :=
  stagingPrefix ++ bundleId ++ "-" ++ processId.toNat.repr ++ "-" ++ sequence.toNat.repr

theorem rsplitOnce_of_not_mem {cs : List Char} (h : '-' ∉ cs) : rsplitOnce cs = none := by
  induction cs with
  | nil => rfl
  | cons c cs ih =>
    obtain ⟨hc, hcs⟩ := not_or.mp (mt List.mem_cons.mpr h)
    simp [rsplitOnce, ih hcs, Ne.symm hc]

theorem rsplitOnce_append {value last : List Char} (h : '-' ∉ last) :
    rsplitOnce (value ++ '-' :: last) = some (value, last) := by
  induction value with
  | nil => simp [rsplitOnce, rsplitOnce_of_not_mem h]
  | cons c cs ih => simp [rsplitOnce, ih]

theorem dash_not_mem_repr (n : ℕ) : '-' ∉ n.repr.toList := by
  rw [Decimal.toList_repr]
  intro h
  have hd := (Decimal.canonical_toDigits n).2.1 '-' h
  exact absurd hd (by decide)

theorem parseU32_repr {n : ℕ} (h : n < 2 ^ 32) : parseU32 n.repr = some n := by
  have hn : n ≤ Decimal.maxU64 := by
    unfold Decimal.maxU64
    omega
  rw [parseU32, Decimal.parseU64_repr hn, Option.filter_some, if_pos (decide_eq_true h)]

/-- Cleanup finds the bundle in the name that the publisher made of it, dashes of the bundle
included. -/
theorem stagingBundleId_stagingName (bundle : BundleId) (processId : UInt32) (sequence : UInt64) :
    stagingBundleId (stagingName bundle.text processId sequence) = some bundle.text := by
  have hs : sequence.toNat ≤ Decimal.maxU64 := by
    have := sequence.toNat_lt
    unfold Decimal.maxU64
    omega
  have htext : (stagingName bundle.text processId sequence).toList =
      stagingPrefix.toList ++ ((bundle.text.toList ++ '-' :: processId.toNat.repr.toList) ++
        '-' :: sequence.toNat.repr.toList) := by
    simp [stagingName]
  unfold stagingBundleId
  rw [htext, List.dropPrefix?_append_of_beq _ (by simp)]
  simp only [Option.bind_eq_bind, Option.bind_some, rsplitOnce_append (dash_not_mem_repr _),
    String.ofList_toList, Decimal.parseU64_repr hs, parseU32_repr processId.toNat_lt, bundle.valid,
    if_true]

inductive ReportFile
  | result | junit | sarif | artifacts | provenance
  deriving DecidableEq

namespace ReportFile

/-- The file that is written after this one. -/
def after : ReportFile → Option ReportFile
  | result => some junit
  | junit => some sarif
  | sarif => some artifacts
  | artifacts => some provenance
  | provenance => none

def position : ReportFile → ℕ
  | result => 0
  | junit => 1
  | sarif => 2
  | artifacts => 3
  | provenance => 4

end ReportFile

/-- The report files of a directory; a file is complete or still being written. -/
abbrev Directory := ReportFile → Option Bool

def Directory.empty : Directory := fun _ => none

/-- All files before `file`, each complete. -/
def Directory.before (file : ReportFile) : Directory := fun f =>
  if f.position < file.position then some true else none

def Directory.full : Directory := fun _ => some true

def Directory.Complete (d : Directory) : Prop := ∀ f, d f = some true

/-- Empty as `rmdir` and `rename` see it. -/
def Directory.isEmpty (d : Directory) : Bool :=
  [.result, .junit, .sarif, .artifacts, .provenance].all fun f => (d f).isNone

/-- The next call of a publisher that holds the lease. -/
inductive Stage
  | checkDestination
  | reserve
  | writeReservation
  | recheckDestination
  | createStaging
  | openFile (staging : String) (file : ReportFile)
  | writeFile (staging : String) (file : ReportFile)
  | syncStaging (staging : String)
  | recheckBeforeRename (staging : String)
  | rename (staging : String)
  | syncRoot
  /-- `StagingDirectory::drop`. -/
  | removeStaging (staging : String)
  /-- `Reservation::drop`. -/
  | removeReservation
  | unlock

/-- Where an error of this call leads, by the values that are dropped. -/
def Stage.abandon : Stage → Stage
  | checkDestination | reserve | writeReservation | syncRoot | removeReservation | unlock => unlock
  | recheckDestination | createStaging | removeStaging _ => removeReservation
  | openFile staging _ | writeFile staging _ | syncStaging staging | recheckBeforeRename staging
  | rename staging => removeStaging staging

/-- An entry that cleanup looks at. A reservation and a lease file are named by what follows the
prefix. -/
inductive Target
  | staging (name : String)
  | reservation (bundleId : String)
  | lease (bundleId : String)

/-- The bundle whose lease is probed; a staging entry that cannot be parsed has none. -/
def Target.bundle : Target → Option String
  | staging name => stagingBundleId name
  | reservation bundleId | lease bundleId => some bundleId

/-- The next call of a run, with the inode of the lock file it has opened. -/
inductive Run
  | idle
  /-- `RootGuard::acquire` of a publisher. -/
  | publisherWaits (bundle : BundleId)
  | openLease (bundle : BundleId)
  | statLease (bundle : BundleId) (inode : ℕ)
  | lockLease (bundle : BundleId) (inode : ℕ)
  /-- The lease is acquired, the root guard still held. -/
  | leased (bundle : BundleId) (inode : ℕ)
  | publishing (bundle : BundleId) (inode : ℕ) (stage : Stage)
  /-- `BundleLease::drop` after the unlock. -/
  | unlinkLease (bundle : BundleId)
  /-- `RootGuard::acquire` of a cleanup. -/
  | cleanupWaits
  | cleaning
  | probe (target : Target)
  | probeStat (target : Target) (inode : ℕ)
  | probeLock (target : Target) (inode : ℕ)
  /-- `LockProbe::Acquired`, before the release. -/
  | probed (target : Target) (inode : ℕ)
  | remove (target : Target)
  /-- `RootGuard::drop`. -/
  | dropGuard

structure World where
  guard : Option ℕ
  leaseFile : String → Option ℕ
  nextInode : ℕ
  /-- The run that holds the lock of an inode. -/
  locks : ℕ → Option ℕ
  reservation : String → Bool
  staging : String → Option Directory
  published : String → Option Directory
  runs : ℕ → Run

namespace World

def move (w : World) (p : ℕ) (run : Run) : World :=
  { w with runs := Function.update w.runs p run }

def setGuard (w : World) (holder : Option ℕ) : World := { w with guard := holder }

def setLock (w : World) (inode : ℕ) (holder : Option ℕ) : World :=
  { w with locks := Function.update w.locks inode holder }

/-- `open` with `O_CREAT` of a name that is free. -/
def createLease (w : World) (bundleId : String) : World :=
  { w with leaseFile := Function.update w.leaseFile bundleId (some w.nextInode),
           nextInode := w.nextInode + 1 }

def removeLease (w : World) (bundleId : String) : World :=
  { w with leaseFile := Function.update w.leaseFile bundleId none }

def setReservation (w : World) (bundleId : String) (present : Bool) : World :=
  { w with reservation := Function.update w.reservation bundleId present }

def setStaging (w : World) (name : String) (directory : Option Directory) : World :=
  { w with staging := Function.update w.staging name directory }

def publish (w : World) (bundleId : String) (directory : Directory) : World :=
  { w with published := Function.update w.published bundleId (some directory) }

end World

namespace World

variable (w : World) (p : ℕ)

/-- The next call of `publish_report_bundle_with_hook` after the lease, where it does not fail by
itself. -/
def proceedPublishing (bundle : BundleId) (inode : ℕ) (stage : Stage) : World :=
  let advance (w : World) (stage : Stage) : World := w.move p (.publishing bundle inode stage)
  let failed := advance w stage.abandon
  match stage with
  | .checkDestination =>
    if (w.published bundle.text).isNone then advance w .reserve else failed
  | .reserve =>
    if w.reservation bundle.text then failed
    else advance (w.setReservation bundle.text true) .writeReservation
  | .writeReservation => advance w .recheckDestination
  | .recheckDestination =>
    if (w.published bundle.text).isNone then advance w .createStaging else failed
  -- The name of the directory comes with `Action.create`.
  | .createStaging => w
  | .openFile staging file =>
    match w.staging staging with
    | some d =>
      if (d file).isNone then
        advance (w.setStaging staging (some (Function.update d file (some false))))
          (.writeFile staging file)
      else failed
    | none => failed
  | .writeFile staging file =>
    let rest := match file.after with
      | some f => Stage.openFile staging f
      | none => .syncStaging staging
    match w.staging staging with
    | some d =>
      -- A file that was removed meanwhile is written without a name.
      if (d file).isSome then
        advance (w.setStaging staging (some (Function.update d file (some true)))) rest
      else advance w rest
    | none => advance w rest
  | .syncStaging staging =>
    if (w.staging staging).isSome then advance w (.recheckBeforeRename staging) else failed
  | .recheckBeforeRename staging =>
    if (w.published bundle.text).isNone then advance w (.rename staging) else failed
  | .rename staging =>
    match w.staging staging with
    | some d =>
      -- A rename replaces an empty directory.
      if (w.published bundle.text).all Directory.isEmpty then
        advance ((w.setStaging staging none).publish bundle.text d) .syncRoot
      else failed
    | none => failed
  | .syncRoot => advance w .unlock
  | .removeStaging staging =>
    match w.staging staging with
    | some d => if d.isEmpty then advance (w.setStaging staging none) .removeReservation else failed
    | none => failed
  | .removeReservation => advance (w.setReservation bundle.text false) .unlock
  | .unlock => (w.setLock inode none).move p (.unlinkLease bundle)

/-- The last call of the removal of an entry. -/
def proceedRemove : Target → World
  | .staging name =>
    match w.staging name with
    | some d =>
      if d.isEmpty then (w.setStaging name none).move p .cleaning else w.move p .dropGuard
    | none => w.move p .cleaning
  | .reservation bundleId => (w.setReservation bundleId false).move p .cleaning
  | .lease bundleId => (w.removeLease bundleId).move p .cleaning

/-- `open` of `probe_file_lock`. A missing lease frees staging and reservation, but there is no
lease file to remove then. -/
def proceedProbe (target : Target) : World :=
  match target.bundle with
  | none => w.move p (.remove target)
  | some bundleId =>
    match w.leaseFile bundleId with
    | some inode => w.move p (.probeStat target inode)
    | none =>
      match target with
      | .lease _ => w.move p .cleaning
      | _ => w.move p (.remove target)

/-- The next call of the run, where it does not fail by itself. The one link of an inode that a run
has opened is the name it was opened by. -/
def proceed : World :=
  match w.runs p with
  | .idle => w
  | .publisherWaits bundle =>
    if w.guard = none then (w.setGuard (some p)).move p (.openLease bundle) else w
  | .openLease bundle =>
    match w.leaseFile bundle.text with
    | some inode => w.move p (.statLease bundle inode)
    | none => (w.createLease bundle.text).move p (.statLease bundle w.nextInode)
  | .statLease bundle inode =>
    if w.leaseFile bundle.text = some inode then w.move p (.lockLease bundle inode)
    else w.move p .dropGuard
  | .lockLease bundle inode =>
    if w.locks inode = none then (w.setLock inode (some p)).move p (.leased bundle inode)
    else w.move p .dropGuard
  | .leased bundle inode => (w.setGuard none).move p (.publishing bundle inode .checkDestination)
  | .publishing bundle inode stage => w.proceedPublishing p bundle inode stage
  | .unlinkLease bundle => (w.removeLease bundle.text).move p .idle
  | .cleanupWaits => if w.guard = none then (w.setGuard (some p)).move p .cleaning else w
  | .cleaning => w.move p .dropGuard
  | .probe target => w.proceedProbe p target
  | .probeStat target inode =>
    if target.bundle.bind w.leaseFile = some inode then w.move p (.probeLock target inode)
    else w.move p .dropGuard
  | .probeLock target inode =>
    if w.locks inode = none then (w.setLock inode (some p)).move p (.probed target inode)
    else w.move p .cleaning
  | .probed target inode => (w.setLock inode none).move p (.remove target)
  | .remove target => w.proceedRemove p target
  | .dropGuard => (w.setGuard none).move p .idle

/-- The next call fails; where its result is ignored nothing happens. -/
def fail : World :=
  match w.runs p with
  | .idle | .leased _ _ | .probed _ _ | .dropGuard => w
  | .publisherWaits _ | .unlinkLease _ | .cleanupWaits => w.move p .idle
  | .publishing bundle inode stage => w.move p (.publishing bundle inode stage.abandon)
  | _ => w.move p .dropGuard

end World

namespace Run

/-- The run holds the root guard. -/
def guarded : Run → Bool
  | idle | publisherWaits _ | publishing _ _ _ | unlinkLease _ | cleanupWaits => false
  | _ => true

/-- The inode whose lock the run holds. -/
def lock : Run → Option ℕ
  | leased _ inode | publishing _ inode _ | probed _ inode => some inode
  | _ => none

end Run

inductive Call
  | publish (bundleId : String)
  | cleanup

inductive Action
  | start (call : Call)
  | proceed
  | fail
  | crash
  /-- `StagingDirectory::create`. -/
  | create (processId : UInt32) (sequence : UInt64)
  /-- Cleanup comes to an entry that is old enough. -/
  | pick (target : Target)
  /-- `remove_dir_all` removes a file. -/
  | unlink (file : ReportFile)

namespace World

variable (w : World) (p : ℕ)

def start (call : Call) : World :=
  match w.runs p, call with
  | .idle, .publish bundleId =>
    if h : validateReportBundleId bundleId = .ok () then w.move p (.publisherWaits ⟨bundleId, h⟩)
    else w
  | .idle, .cleanup => w.move p .cleanupWaits
  | _, _ => w

/-- The kernel releases the locks of a process that ends. -/
def crash : World :=
  let w' := if (w.runs p).guarded then w.setGuard none else w
  match (w.runs p).lock with
  | some inode => (w'.setLock inode none).move p .idle
  | none => w'.move p .idle

def create (processId : UInt32) (sequence : UInt64) : World :=
  match w.runs p with
  | .publishing bundle inode .createStaging =>
    let name := stagingName bundle.text processId sequence
    if (w.staging name).isNone then
      (w.setStaging name (some .empty)).move p (.publishing bundle inode (.openFile name .result))
    else w.move p (.publishing bundle inode Stage.createStaging.abandon)
  | _ => w

/-- The entry is there, and its reservation not that of a published bundle. -/
def listed : Target → Bool
  | .staging name => (w.staging name).isSome && stagingPrefix.toList.isPrefixOf name.toList
  | .reservation bundleId => w.reservation bundleId && (w.published bundleId).isNone
  | .lease bundleId => (w.leaseFile bundleId).isSome

def pick (target : Target) : World :=
  match w.runs p with
  | .cleaning => if w.listed target then w.move p (.probe target) else w
  | _ => w

def unlinkFile (name : String) (file : ReportFile) : World :=
  match w.staging name with
  | some d => w.setStaging name (some (Function.update d file none))
  | none => w

def unlink (file : ReportFile) : World :=
  match w.runs p with
  | .publishing _ _ (.removeStaging name) | .remove (.staging name) => w.unlinkFile name file
  | _ => w

end World

/-- A step of the run `event.1`. -/
def next (w : World) (event : ℕ × Action) : World :=
  match event.2 with
  | .start call => w.start event.1 call
  | .proceed => w.proceed event.1
  | .fail => w.fail event.1
  | .crash => w.crash event.1
  | .create processId sequence => w.create event.1 processId sequence
  | .pick target => w.pick event.1 target
  | .unlink file => w.unlink event.1 file

/-- A root without a run, with what earlier versions of the tool left in it. -/
def World.ofLeftovers (reservation : String → Bool)
    (staging published : String → Option Directory) : World where
  guard := none
  leaseFile := fun _ => none
  nextInode := 0
  locks := fun _ => none
  reservation := reservation
  staging := staging
  published := published
  runs := fun _ => .idle

end OptoSync.Publication
