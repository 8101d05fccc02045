import OptoSync.DriftPush
import OptoSync.Interaction
import OptoSync.RustClientStamping

/-!
# Login and logout

The session lifecycle of the Rust and the Dart packages. A login or a logout is a program that calls
the sync, the telemetry and the credential store of the application and assigns the session; the
async entries of Rust are the same programs.
-/
namespace OptoSync.Session
open Interaction

inductive SessionSyncReason
  | login | logout
  deriving DecidableEq

def maxPortableSessionInteger : ℕ := 9007199254740991

structure SessionIdentity where
  subject : String
  tenant : String
  authEpoch : ℕ
  deriving DecidableEq

structure DurableSyncReceipt where
  pendingBefore : ℕ
  acknowledged : ℕ
  admittedDuringDrain : ℕ
  pendingAfter : ℕ
  checkpointCommitted : Bool
  admissionFenced : Bool
  deriving DecidableEq

def DurableSyncReceipt.durablyDrained (receipt : DurableSyncReceipt) : Bool :=
  receipt.pendingAfter = 0 && receipt.acknowledged = receipt.pendingBefore &&
    receipt.admittedDuringDrain = 0 && receipt.checkpointCommitted && receipt.admissionFenced

structure SessionLoginReport (ε : Type) where
  session : SessionIdentity
  syncTriggered : Bool
  receipt : Option DurableSyncReceipt
  syncError : Option ε

structure SessionLogoutReport (ε τ κ : Type) where
  hadSession : Bool
  credentialsCleared : Bool
  receipt : Option DurableSyncReceipt
  syncError : Option ε
  telemetryError : Option τ
  credentialError : Option κ

namespace SessionLogoutReport

variable {ε τ κ : Type} (report : SessionLogoutReport ε τ κ)

def dataDurablyDrained : Bool :=
  !report.hadSession ||
    (report.syncError.isNone && report.receipt.any DurableSyncReceipt.durablyDrained)

def telemetryFlushed : Bool := report.telemetryError.isNone

def complete : Bool :=
  report.dataDurablyDrained && report.telemetryFlushed && report.credentialsCleared

end SessionLogoutReport

namespace Rust

def SessionIdentity.new (subject tenant : String) (authEpoch : ℕ) :
    Except String SessionIdentity :=
  if subject.toList.all RustClient.isWhitespace = true ∨ 512 < subject.utf8ByteSize then
    throw "subject must be 1 through 512 bytes"
  else if tenant.toList.all RustClient.isWhitespace = true ∨ 512 < tenant.utf8ByteSize then
    throw "tenant must be 1 through 512 bytes"
  else if maxPortableSessionInteger < authEpoch then
    throw "auth_epoch exceeds the portable integer domain"
  else pure { subject, tenant, authEpoch }

def DurableSyncReceipt.new (pendingBefore acknowledged admittedDuringDrain pendingAfter : ℕ)
    (checkpointCommitted admissionFenced : Bool) : Except String DurableSyncReceipt :=
  if [pendingBefore, acknowledged, admittedDuringDrain, pendingAfter].any
      (maxPortableSessionInteger < ·) = true then
    throw "durable sync counters exceed the portable integer domain"
  else
    let expectedPending :=
      (if acknowledged ≤ pendingBefore then some (pendingBefore - acknowledged) else none).bind
        fun value =>
          if value + admittedDuringDrain < 2 ^ 64 then some (value + admittedDuringDrain) else none
    if expectedPending ≠ some pendingAfter then
      throw ("durable sync receipt violates queue conservation: pending_after must equal " ++
        "pending_before - acknowledged + admitted_during_drain")
    else
      pure { pendingBefore, acknowledged, admittedDuringDrain, pendingAfter, checkpointCommitted
             admissionFenced }

end Rust

/-- The argument that an `ArgumentError` names. -/
inductive DartArgument
  | subject | tenant | authEpoch | counters | conservation
  deriving DecidableEq

namespace Dart

/-- `String.trim` is empty. -/
def blank (text : String) : Bool :=
  text.toList.all fun c => OptoSync.Dart.isSpace c || c.toNat = 0x85

def optoSyncSessionIdentity (subject tenant : String) (authEpoch : ℤ) :
    Except DartArgument SessionIdentity :=
  if blank subject = true ∨ 512 < subject.utf8ByteSize then throw .subject
  else if blank tenant = true ∨ 512 < tenant.utf8ByteSize then throw .tenant
  else if authEpoch < 0 ∨ (maxPortableSessionInteger : ℤ) < authEpoch then throw .authEpoch
  else pure { subject, tenant, authEpoch := authEpoch.toNat }

def durableSyncReceipt (pendingBefore acknowledged admittedDuringDrain pendingAfter : ℤ)
    (checkpointCommitted admissionFenced : Bool) : Except DartArgument DurableSyncReceipt :=
  if pendingBefore < 0 ∨ acknowledged < 0 ∨ admittedDuringDrain < 0 ∨ pendingAfter < 0 ∨
      (maxPortableSessionInteger : ℤ) < pendingBefore ∨
      (maxPortableSessionInteger : ℤ) < acknowledged ∨
      (maxPortableSessionInteger : ℤ) < admittedDuringDrain ∨
      (maxPortableSessionInteger : ℤ) < pendingAfter then
    throw .counters
  else if pendingBefore < acknowledged ∨
      pendingAfter ≠ pendingBefore - acknowledged + admittedDuringDrain then
    throw .conservation
  else
    pure { pendingBefore := pendingBefore.toNat, acknowledged := acknowledged.toNat
           admittedDuringDrain := admittedDuringDrain.toNat, pendingAfter := pendingAfter.toNat
           checkpointCommitted, admissionFenced }

end Dart

/-- Blank to Dart alone: white space around byte order marks. -/
def MarkOnly (text : String) : Prop :=
  Char.ofNat 0xFEFF ∈ text.toList ∧
    ∀ c ∈ text.toList, RustClient.isWhitespace c = true ∨ c = Char.ofNat 0xFEFF

theorem eq_mark_iff {c : Char} : c = Char.ofNat 0xFEFF ↔ c.toNat = 0xFEFF := by
  refine ⟨fun h => by rw [h]; decide, fun h => ?_⟩
  rw [← Char.ofNat_toNat c, h]

theorem dart_space_iff (c : Char) :
    (OptoSync.Dart.isSpace c || c.toNat = 0x85) = true ↔
      RustClient.isWhitespace c = true ∨ c = Char.ofNat 0xFEFF := by
  rw [eq_mark_iff]
  simp only [OptoSync.Dart.isSpace, RustClient.isWhitespace, Bool.or_eq_true, Bool.and_eq_true,
    decide_eq_true_eq, List.contains_eq_mem, List.mem_cons, List.not_mem_nil, or_false]
  tauto

theorem dart_blank_iff (text : String) :
    Dart.blank text = true ↔ text.toList.all RustClient.isWhitespace = true ∨ MarkOnly text := by
  rw [Dart.blank, List.all_eq_true, List.all_eq_true, MarkOnly]
  simp only [dart_space_iff]
  constructor
  · intro h
    by_cases hmark : Char.ofNat 0xFEFF ∈ text.toList
    · exact .inr ⟨hmark, h⟩
    · refine .inl fun c hc => (h c hc).resolve_right ?_
      rintro rfl
      exact hmark hc
  · rintro (h | ⟨-, h⟩)
    · exact fun c hc => .inl (h c hc)
    · exact h

theorem ite_throw_eq_ok {α ε : Type} {p : Prop} [Decidable p] {error : ε} {rest : Except ε α}
    {value : α} : (if p then throw error else rest) = .ok value ↔ ¬ p ∧ rest = .ok value := by
  by_cases h : p <;> simp [h, throw, throwThe, MonadExceptOf.throw]

/-- What both hosts ask of the counters of a receipt. -/
def Conserves (pendingBefore acknowledged admitted pendingAfter : ℕ) : Prop :=
  (pendingBefore ≤ maxPortableSessionInteger ∧ acknowledged ≤ maxPortableSessionInteger ∧
      admitted ≤ maxPortableSessionInteger ∧ pendingAfter ≤ maxPortableSessionInteger) ∧
    acknowledged ≤ pendingBefore ∧ pendingAfter = pendingBefore - acknowledged + admitted

section

variable (pendingBefore acknowledged admitted pendingAfter : ℕ) (committed fenced : Bool)
  (receipt : DurableSyncReceipt)

theorem rust_receipt_iff :
    Rust.DurableSyncReceipt.new pendingBefore acknowledged admitted pendingAfter committed fenced =
        .ok receipt ↔
      Conserves pendingBefore acknowledged admitted pendingAfter ∧
        receipt = ⟨pendingBefore, acknowledged, admitted, pendingAfter, committed, fenced⟩ := by
  rw [Rust.DurableSyncReceipt.new, ite_throw_eq_ok, ite_throw_eq_ok, not_not, ← and_assoc]
  refine and_congr ?_ (by simp [pure, Except.pure, eq_comm])
  simp only [List.any_cons, List.any_nil, Bool.or_false, Bool.or_eq_true, decide_eq_true_eq, not_or,
    not_lt, Conserves]
  refine and_congr_right fun hbounds => ?_
  have hmax : maxPortableSessionInteger = 9007199254740991 := rfl
  by_cases hle : acknowledged ≤ pendingBefore
  · have hfits : pendingBefore - acknowledged + admitted < 2 ^ 64 := by omega
    rw [if_pos hle, Option.bind_some, if_pos hfits]
    simp [hle, eq_comm]
  · simp [hle]

theorem dart_receipt_iff :
    Dart.durableSyncReceipt pendingBefore acknowledged admitted pendingAfter committed fenced =
        .ok receipt ↔
      Conserves pendingBefore acknowledged admitted pendingAfter ∧
        receipt = ⟨pendingBefore, acknowledged, admitted, pendingAfter, committed, fenced⟩ := by
  rw [Dart.durableSyncReceipt, ite_throw_eq_ok, ite_throw_eq_ok, ← and_assoc]
  refine and_congr ?_ (by simp [pure, Except.pure, eq_comm])
  rw [Conserves]
  omega

end

/-- The identities that Dart accepts are the Rust ones whose texts are not blank to it, and the two
hosts accept the same receipts, all of which conserve the queue. -/
theorem checks_agree :
    (∀ (subject tenant : String) (authEpoch : ℕ) (identity : SessionIdentity),
      Dart.optoSyncSessionIdentity subject tenant authEpoch = .ok identity ↔
        Rust.SessionIdentity.new subject tenant authEpoch = .ok identity ∧ ¬ MarkOnly subject ∧
          ¬ MarkOnly tenant) ∧
      ∀ (pendingBefore acknowledged admitted pendingAfter : ℕ) (committed fenced : Bool)
        (receipt : DurableSyncReceipt),
        (Dart.durableSyncReceipt pendingBefore acknowledged admitted pendingAfter committed fenced =
            .ok receipt ↔
          Rust.DurableSyncReceipt.new pendingBefore acknowledged admitted pendingAfter committed
            fenced = .ok receipt) ∧
        (Rust.DurableSyncReceipt.new pendingBefore acknowledged admitted pendingAfter committed
            fenced = .ok receipt →
          receipt.pendingAfter + receipt.acknowledged =
            receipt.pendingBefore + receipt.admittedDuringDrain) := by
  refine ⟨fun subject tenant authEpoch identity => ?_,
    fun pendingBefore acknowledged admitted pendingAfter committed fenced receipt => ?_⟩
  · rw [Dart.optoSyncSessionIdentity, Rust.SessionIdentity.new]
    simp only [ite_throw_eq_ok, dart_blank_iff, pure, Except.pure, Except.ok.injEq, Int.toNat_natCast,
      not_or, Nat.cast_lt]
    constructor
    · rintro ⟨⟨⟨hsubject, hmark⟩, hlength⟩, ⟨⟨htenant, hmark'⟩, hlength'⟩, ⟨-, hepoch⟩, rfl⟩
      exact ⟨⟨⟨hsubject, hlength⟩, ⟨htenant, hlength'⟩, hepoch, rfl⟩, hmark, hmark'⟩
    · rintro ⟨⟨⟨hsubject, hlength⟩, ⟨htenant, hlength'⟩, hepoch, rfl⟩, hmark, hmark'⟩
      exact ⟨⟨⟨hsubject, hmark⟩, hlength⟩, ⟨⟨htenant, hmark'⟩, hlength'⟩, ⟨by simp, hepoch⟩, rfl⟩
  · rw [dart_receipt_iff, rust_receipt_iff]
    refine ⟨Iff.rfl, ?_⟩
    rintro ⟨⟨-, hle, rfl⟩, rfl⟩
    dsimp only
    omega

inductive SessionOp
  | sync (reason : SessionSyncReason)
  | forceFlushTelemetry
  | clearCredentials (session : Option SessionIdentity)
  | setSession (session : Option SessionIdentity)
  deriving DecidableEq

def SessionOp.isCallback : SessionOp → Bool
  | .setSession _ => false
  | _ => true

variable (ε τ κ : Type)

abbrev SessionOp.Answer : SessionOp → Type
  | .sync _ => Except ε DurableSyncReceipt
  | .forceFlushTelemetry => Except τ Unit
  | .clearCredentials _ => Except κ Unit
  | .setSession _ => Unit

inductive SessionCall
  | login (next : SessionIdentity)
  | logout
  deriving DecidableEq

inductive SessionReport
  | login (report : Except String (SessionLoginReport ε))
  | logout (report : SessionLogoutReport ε τ κ)

abbrev SessionProgram := Interaction SessionOp (SessionOp.Answer ε τ κ) (SessionReport ε τ κ)

abbrev SessionStep := Σ op : SessionOp, op.Answer ε τ κ

variable {ε τ κ}

def errorOf {α β : Type} : Except α β → Option α
  | .ok _ => none
  | .error error => some error

def valueOf {α β : Type} : Except α β → Option β
  | .ok value => some value
  | .error _ => none

def switchRefused : String :=
  "logout must complete before a tenant, subject, or auth-epoch switch"

namespace Rust

def onLogin (session : Option SessionIdentity) (next : SessionIdentity) : SessionProgram ε τ κ :=
  match session with
  | some current =>
    if current ≠ next then .done (.login (.error switchRefused))
    else
      .done (.login (.ok
        { session := current, syncTriggered := false, receipt := none, syncError := none }))
  | none =>
    .call (.setSession (some next)) fun _ =>
    .call (.sync .login) fun answer =>
    .done (.login (.ok
      { session := next, syncTriggered := true, receipt := valueOf answer
        syncError := errorOf answer }))

/-- After the sync, which is skipped where there is no session. -/
def finishLogout (current : Option SessionIdentity)
    (answer : Option (Except ε DurableSyncReceipt)) : SessionProgram ε τ κ :=
  .call .forceFlushTelemetry fun telemetry =>
  .call (.clearCredentials current) fun credential =>
  .done (.logout
    { hadSession := current.isSome
      credentialsCleared := (errorOf credential).isNone
      receipt := answer.bind valueOf
      syncError := answer.bind errorOf
      telemetryError := errorOf telemetry
      credentialError := errorOf credential })

def onLogout (session : Option SessionIdentity) : SessionProgram ε τ κ :=
  .call (.setSession none) fun _ =>
    match session with
    | some _ => .call (.sync .logout) fun answer => finishLogout session (some answer)
    | none => finishLogout session none

def program (session : Option SessionIdentity) : SessionCall → SessionProgram ε τ κ
  | .login next => onLogin session next
  | .logout => onLogout session

end Rust

namespace Dart

def sameSession (current other : SessionIdentity) : Bool :=
  current.subject = other.subject && current.tenant = other.tenant &&
    current.authEpoch = other.authEpoch

def onLogin (session : Option SessionIdentity) (next : SessionIdentity) : SessionProgram ε τ κ :=
  match session with
  | some current =>
    if !sameSession current next then .done (.login (.error switchRefused))
    else
      .done (.login (.ok
        { session := current, syncTriggered := false, receipt := none, syncError := none }))
  | none =>
    .call (.setSession (some next)) fun _ =>
    .call (.sync .login) fun answer =>
    match answer with
    | .ok receipt =>
      .done (.login (.ok
        { session := next, syncTriggered := true, receipt := some receipt, syncError := none }))
    | .error error =>
      .done (.login (.ok
        { session := next, syncTriggered := true, receipt := none, syncError := some error }))

/-- The session is dropped only when the credentials were to be cleared. -/
def finishLogout (current : Option SessionIdentity) (receipt : Option DurableSyncReceipt)
    (syncError : Option ε) : SessionProgram ε τ κ :=
  .call .forceFlushTelemetry fun telemetry =>
  .call (.clearCredentials current) fun credential =>
  .call (.setSession none) fun _ =>
  .done (.logout
    { hadSession := current.isSome
      credentialsCleared := (valueOf credential).isSome
      receipt
      syncError
      telemetryError := errorOf telemetry
      credentialError := errorOf credential })

def onLogout (session : Option SessionIdentity) : SessionProgram ε τ κ :=
  match session with
  | some _ =>
    .call (.sync .logout) fun answer => finishLogout session (valueOf answer) (errorOf answer)
  | none => finishLogout session none none

def program (session : Option SessionIdentity) : SessionCall → SessionProgram ε τ κ
  | .login next => onLogin session next
  | .logout => onLogout session

end Dart

/-- The session after the assignments of a trace. -/
def assigned (session : Option SessionIdentity) : List (SessionStep ε τ κ) → Option SessionIdentity
  | [] => session
  | ⟨.setSession next, _⟩ :: steps => assigned next steps
  | ⟨.sync _, _⟩ :: steps | ⟨.forceFlushTelemetry, _⟩ :: steps
  | ⟨.clearCredentials _, _⟩ :: steps => assigned session steps

/-- The steps that the application sees. -/
def callbacks (steps : List (SessionStep ε τ κ)) : List (SessionStep ε τ κ) :=
  steps.filter fun step => step.1.isCallback

/-- A call begins where the one before has ended. -/
inductive Sequential (program : Option SessionIdentity → SessionCall → SessionProgram ε τ κ) :
    List SessionCall → List (SessionStep ε τ κ) → List (SessionReport ε τ κ) →
      Option SessionIdentity → Prop
  | nil : Sequential program [] [] [] none
  | snoc {requests steps reports session request more report} :
      Sequential program requests steps reports session →
      Trace (program session request) more (.done report) →
      Sequential program (requests ++ [request]) (steps ++ more) (reports ++ [report])
        (assigned session more)

end OptoSync.Session
