import OptoSync.CoordinatorHosts
import OptoSync.PullPageAgreement

/-!
# The contract of the desktop coordinators

What a call checks, in which order, and what it may refuse with: the Rust crate and the hosts share
the table and check different arguments.
-/
namespace OptoSync.Coordinator
open Decimal
open SqliteDesktopCoordinator (minTtlMs maxTtlMs)

/-- What a refusal is about. -/
inductive Refusal
  | argument | observedAhead | exhausted | stale | disappeared | invalid | clock | overflow | sqlite
  deriving DecidableEq

def refusalOf : SqliteDesktopError → Refusal
  | .sqlite => .sqlite
  | .invalidConfiguration message =>
    if message = "SQLite returned a negative store clock" then .clock
    else if message = "observed wake generation is ahead of durable state" then .observedAhead
    else if message = "lease expiry overflowed" then .overflow
    else .argument
  | .missingCoordinationRow => .disappeared
  | .generationExhausted _ => .exhausted
  | .staleFence => .stale

def HostError.refusal : HostError → Refusal
  | .identifier _ | .ttl | .date | .generation _ | .range _ => .argument
  | .exhausted _ => .exhausted
  | .observedAhead => .observedAhead
  | .stale => .stale
  | .disappeared => .disappeared
  | .invalid _ => .invalid
  | .sqlite => .sqlite
  | .caller error => refusalOf error

/-- The three give the same result and rows, or the same refusal. -/
def Agree {β : Type} (rust : Except SqliteDesktopError β) (typeScript dart : Except HostError β) :
    Prop :=
  typeScript.mapError HostError.refusal = rust.mapError refusalOf ∧
    dart.mapError HostError.refusal = rust.mapError refusalOf

section
variable {ε α β γ : Type} {r : ε → Refusal} {p q : Prop} {a : α} {b : β}

/-- A check of an argument, which passes exactly under `p`. -/
structure Checks (r : ε → Refusal) (p : Prop) (x : Except ε α) (a : α) : Prop where
  passes : p → x = .ok a
  refuses : ¬ p → x.mapError r = .error .argument

variable {x : Except ε α} {f : α → Except ε β}

theorem Checks.run (hx : Checks r p x a) (hp : p) (f : α → Except ε β) : (x >>= f) = f a := by
  rw [hx.passes hp]
  rfl

theorem Checks.refuses_bind (hx : Checks r p x a) (hp : ¬ p) (f : α → Except ε β) :
    (x >>= f).mapError r = .error .argument := by
  have hrefuses := hx.refuses hp
  cases x with
  | ok value => exact absurd hrefuses (by simp [Except.mapError])
  | error error => exact congrArg Except.error (Except.error.inj hrefuses)

theorem Checks.bind_refuses (hx : Checks r p x a)
    (hf : ¬ q → (f a).mapError r = .error .argument) (h : ¬ (p ∧ q)) :
    (x >>= f).mapError r = .error .argument := by
  by_cases hp : p
  · rw [hx.run hp]
    exact hf fun hq => h ⟨hp, hq⟩
  · exact hx.refuses_bind hp f

theorem Checks.bind (hx : Checks r p x a) (hf : Checks r q (f a) b) :
    Checks r (p ∧ q) (x >>= f) b where
  passes h := (hx.run h.1 f).trans (hf.passes h.2)
  refuses h := hx.bind_refuses hf.refuses h

theorem Checks.discard (hx : Checks r p x a) (b : β) : Checks r p (x >>= fun _ => pure b) b where
  passes hp := hx.run hp _
  refuses hp := hx.refuses_bind hp _

end

/-- The identifiers of the Rust crate. -/
def InBytes (value : String) : Prop := value.toList ≠ [] ∧ value.utf8ByteSize ≤ 512

/-- The identifiers of the hosts. -/
def InUnits (value : String) : Prop :=
  value.toList ≠ [] ∧ (Utf16.encode value.toList).length ≤ 512

def InTtl (ttlMs : ℕ) : Prop := minTtlMs ≤ ttlMs ∧ ttlMs ≤ maxTtlMs

def IsGeneration (value : String) : Prop := decimalPattern value = true ∧ bigInt value ≤ maxI64

theorem InBytes.inUnits {value : String} (h : InBytes value) : InUnits value :=
  ⟨h.1, (Utf16.length_encode_le value).trans h.2⟩

theorem isGeneration_repr {n : ℕ} (h : n ≤ maxI64) : IsGeneration n.repr :=
  ⟨OptoSyncClient.decimalPattern_repr n, by rwa [OptoSyncClient.bigInt_repr]⟩

theorem validateIdentifier_checks (name value : String) :
    Checks HostError.refusal (InUnits value) (validateIdentifier name value) () where
  passes h := if_neg (by
    rintro (hempty | hlong)
    · exact h.1 hempty
    · have := h.2
      omega)
  refuses h := by
    rw [validateIdentifier, if_pos]
    · rfl
    · by_contra hc
      obtain ⟨hne, hlong⟩ := not_or.mp hc
      exact h ⟨hne, Nat.not_lt.mp hlong⟩

theorem validateTtl_checks (ttlMs : ℕ) :
    Checks HostError.refusal (InTtl ttlMs) (validateTtl ttlMs) () where
  passes h := if_neg (by
    have hmin := h.1
    have hmax := h.2
    omega)
  refuses h := by
    rw [validateTtl, if_pos]
    · rfl
    · by_contra hc
      obtain ⟨hmin, hmax⟩ := not_or.mp hc
      exact h ⟨Nat.not_lt.mp hmin, Nat.not_lt.mp hmax⟩

theorem parseGeneration_checks (name value : String) :
    Checks HostError.refusal (IsGeneration value) (parseGeneration name value) (bigInt value) where
  passes h := by
    rw [parseGeneration, if_neg (by simp [h.1]), if_neg (Nat.not_lt.mpr h.2)]
  refuses h := by
    unfold parseGeneration
    split
    · rfl
    · rename_i hpattern
      rw [if_pos (Nat.not_le.mp fun hle => h ⟨by simpa using hpattern, hle⟩)]
      rfl

/-- The refusals of other kinds have texts that end differently. -/
theorem refusalOf_argument {name suffix : String}
    (hclock : ¬ suffix.toList <:+ "SQLite returned a negative store clock".toList)
    (hahead : ¬ suffix.toList <:+ "observed wake generation is ahead of durable state".toList)
    (hoverflow : ¬ suffix.toList <:+ "lease expiry overflowed".toList) :
    refusalOf (.invalidConfiguration (name ++ suffix)) = .argument := by
  have hne : ∀ text : String, ¬ suffix.toList <:+ text.toList → name ++ suffix ≠ text := by
    intro text htext heq
    exact htext ⟨name.toList, by rw [← String.toList_append, heq]⟩
  simp only [refusalOf]
  rw [if_neg (hne _ hclock), if_neg (hne _ hahead), if_neg (hne _ hoverflow)]

theorem decimalPattern_of_digits {value : String} (hne : value.toList ≠ [])
    (hdigits : value.toList.all Char.isDigit = true)
    (hzero : ¬ (1 < value.utf8ByteSize ∧ value.toList.head? = some '0')) :
    decimalPattern value = true := by
  have hcanonical : Canonical value.toList := by
    refine ⟨hne, List.all_eq_true.mp hdigits, fun hhead => ?_⟩
    exact length_eq_one_of_head hhead (Nat.not_lt.mp fun hlong => hzero ⟨hlong, hhead⟩)
  have hvalue : value = (Nat.ofDigitChars 10 value.toList 0).repr := by
    apply String.toList_inj.mp
    rw [toList_repr, toDigits_ofDigitChars hcanonical]
  rw [hvalue]
  exact OptoSyncClient.decimalPattern_repr _

namespace Rust

theorem validateIdentifier_checks (name value : String) :
    Checks refusalOf (InBytes value) (SqliteDesktopCoordinator.validateIdentifier name value)
      () where
  passes h := if_neg (by
    rintro (hempty | hlong)
    · exact h.1 hempty
    · have := h.2
      omega)
  refuses h := by
    rw [SqliteDesktopCoordinator.validateIdentifier, if_pos]
    · exact congrArg Except.error (refusalOf_argument (by decide) (by decide) (by decide))
    · by_contra hc
      obtain ⟨hne, hlong⟩ := not_or.mp hc
      exact h ⟨hne, Nat.not_lt.mp hlong⟩

theorem validateTtl_checks (ttlMs : ℕ) :
    Checks refusalOf (InTtl ttlMs) (SqliteDesktopCoordinator.validateTtl ttlMs) () where
  passes h := if_neg (not_not_intro h)
  refuses h := by
    have hbounds : ¬ (minTtlMs ≤ ttlMs ∧ ttlMs ≤ maxTtlMs) := h
    rw [SqliteDesktopCoordinator.validateTtl, if_pos hbounds]
    rfl

theorem parseDecimal_checks (name value : String) :
    Checks refusalOf (IsGeneration value) (SqliteDesktopCoordinator.parseDecimal name value)
      (bigInt value) where
  passes h := by
    have hparse := @SqliteDesktopCoordinator.parseDecimal_repr name _ h.2
    rwa [repr_bigInt h.1] at hparse
  refuses h := by
    unfold SqliteDesktopCoordinator.parseDecimal
    split
    · exact congrArg Except.error (refusalOf_argument (by decide) (by decide) (by decide))
    · rename_i hc
      obtain ⟨hne, hc⟩ := not_or.mp hc
      obtain ⟨hdigits, hzero⟩ := not_or.mp hc
      have hpattern := decimalPattern_of_digits hne (by simpa using hdigits) hzero
      have hlarge : ¬ bigInt value ≤ maxI64 := fun hle => h ⟨hpattern, hle⟩
      have hnone : parseI64 value = none := by
        rw [← repr_bigInt hpattern, parseI64_repr_eq, if_neg hlarge]
      rw [hnone]
      exact congrArg Except.error (refusalOf_argument (by decide) (by decide) (by decide))

end Rust

def GrantInUnits (grant : DesktopLeaseGrant) : Prop :=
  InUnits grant.key ∧ InUnits grant.token ∧ IsGeneration grant.fence

def GrantInBytes (grant : DesktopLeaseGrant) : Prop :=
  InBytes grant.key ∧ InBytes grant.token ∧ IsGeneration grant.fence

/-- The Rust crate checks a grant whole. -/
def SqliteGrantInBytes (grant : SqliteDesktopLeaseGrant) : Prop :=
  InBytes grant.key ∧ InBytes grant.ownerId ∧ InBytes grant.token ∧ IsGeneration grant.fence ∧
    IsGeneration grant.wakeGeneration ∧ IsGeneration grant.handledGeneration

/-- The expiries that a `DateTime` holds. -/
def IsDate (grant : SqliteDesktopLeaseGrant) : Prop := grant.expiresAtMs ≤ 8640000000000000

theorem dart_isDate {grant : SqliteDesktopLeaseGrant} :
    dart.isDate grant.expiresAtMs = true ↔ IsDate grant := decide_eq_true_iff

theorem GrantInBytes.inUnits {grant : DesktopLeaseGrant} (h : GrantInBytes grant) :
    GrantInUnits grant :=
  ⟨h.1.inUnits, h.2.1.inUnits, h.2.2⟩

theorem SqliteGrantInBytes.inUnits {grant : SqliteDesktopLeaseGrant}
    (h : SqliteGrantInBytes grant) : GrantInUnits grant.desktopGrant :=
  ⟨h.1.inUnits, h.2.2.1.inUnits, h.2.2.2.1⟩

theorem validateGrant_checks (grant : DesktopLeaseGrant) :
    Checks HostError.refusal (GrantInUnits grant) (validateGrant grant) () :=
  (validateIdentifier_checks _ _).bind <| (validateIdentifier_checks _ _).bind <|
    (parseGeneration_checks _ _).discard ()

theorem validateSqliteGrant_checks (host : Host) (grant : SqliteDesktopLeaseGrant) :
    Checks HostError.refusal
      (GrantInUnits grant.desktopGrant ∧ host.isDate grant.expiresAtMs = true)
      (validateSqliteGrant host grant) () where
  passes h := by
    rw [validateSqliteGrant, if_pos h.2]
    exact (validateGrant_checks _).passes h.1
  refuses h := by
    unfold validateSqliteGrant
    split
    · rename_i hdate
      exact (validateGrant_checks _).refuses fun hgrant => h ⟨hgrant, hdate⟩
    · rfl

namespace Rust

theorem validateGrant_checks (grant : DesktopLeaseGrant) :
    Checks refusalOf (GrantInBytes grant) (SqliteDesktopCoordinator.validateGrant grant) () :=
  (validateIdentifier_checks _ _).bind <| (validateIdentifier_checks _ _).bind <|
    (parseDecimal_checks _ _).discard ()

theorem validateSqliteGrant_checks (grant : SqliteDesktopLeaseGrant) :
    Checks refusalOf (SqliteGrantInBytes grant)
      (SqliteDesktopCoordinator.validateSqliteGrant grant) () :=
  (validateIdentifier_checks _ _).bind <| (validateIdentifier_checks _ _).bind <|
    (validateIdentifier_checks _ _).bind <| (parseDecimal_checks _ _).bind <|
      (parseDecimal_checks _ _).bind <| (parseDecimal_checks _ _).discard ()

end Rust

/-- Refused for what the table holds. -/
def HostError.ofState : HostError → Bool
  | .exhausted _ | .observedAhead | .stale | .disappeared | .invalid _ | .sqlite => true
  | _ => false

section
variable {α β : Type}

def OfState (x : Except HostError β) : Prop := ∀ error, x = .error error → error.ofState = true

theorem OfState.ok (value : β) : OfState (Except.ok value) := by
  intro error h
  cases h

theorem OfState.error {error : HostError} (h : error.ofState = true) :
    OfState (Except.error error : Except HostError β) := by
  intro other hother
  rwa [← Except.error.inj hother]

theorem OfState.bind {x : Except HostError α} {f : α → Except HostError β} (hx : OfState x)
    (hf : ∀ a, x = .ok a → OfState (f a)) : OfState (x >>= f) := by
  cases x with
  | ok a => exact hf a rfl
  | error error => exact OfState.error (hx error rfl)

theorem OfState.dite {p : Prop} [Decidable p] {x : p → Except HostError β}
    {y : ¬ p → Except HostError β} (hx : ∀ h, OfState (x h)) (hy : ∀ h, OfState (y h)) :
    OfState (if h : p then x h else y h) := by
  split
  · rename_i h
    exact hx h
  · rename_i h
    exact hy h

theorem OfState.ne_argument {x : Except HostError β} (h : OfState x) :
    x.mapError HostError.refusal ≠ .error .argument := by
  intro hx
  cases x with
  | ok a => cases hx
  | error error =>
    have hstate := h error rfl
    have hrefusal : error.refusal = .argument := Except.error.inj hx
    cases error <;> simp [HostError.refusal, HostError.ofState] at hrefusal hstate

theorem OfState.ne_clock {x : Except HostError β} (h : OfState x) :
    x.mapError HostError.refusal ≠ .error .clock := by
  intro hx
  cases x with
  | ok a => cases hx
  | error error =>
    have hstate := h error rfl
    have hrefusal : error.refusal = .clock := Except.error.inj hx
    cases error <;> simp [HostError.refusal, HostError.ofState] at hrefusal hstate

end

section
variable {β : Type} {rust : Except SqliteDesktopError β} {dart ts : Except HostError β}
variable {V W D N S : Prop}

/-- A call of a host, whose arguments are good under `V`, beside that of the Rust crate, whose
arguments are good under `W`; `N` is about the clock and `S` about the row. -/
structure Follows (host : Except HostError β) (rust : Except SqliteDesktopError β)
    (V W N S : Prop) : Prop where
  argument : ¬ V → host.mapError HostError.refusal = .error .argument
  state : V → OfState host
  agree : V → W → N → S → host.mapError HostError.refusal = rust.mapError refusalOf

/-- How the Rust crate refuses before it reads the row. -/
structure Guarded (rust : Except SqliteDesktopError β) (W N : Prop) : Prop where
  argument : ¬ W → rust.mapError refusalOf = .error .argument
  clock : W → ¬ N → rust.mapError refusalOf = .error .clock

theorem Guarded.ne_invalid (rust : Except SqliteDesktopError β) :
    rust.mapError refusalOf ≠ .error .invalid := by
  intro h
  cases rust with
  | ok value => cases h
  | error error =>
    have hrefusal : refusalOf error = .invalid := Except.error.inj h
    cases error with
    | invalidConfiguration message =>
      simp only [refusalOf] at hrefusal
      split_ifs at hrefusal
    | _ => cases hrefusal

theorem agree_iff (hweaker : W → V) (hrust : Guarded rust W N) (hts : Follows ts rust V W N S)
    (hdart : Follows dart rust (V ∧ D) W N True)
    (hinvalid : V → N → ¬ S → ts.mapError HostError.refusal = .error .invalid) :
    Agree rust ts dart ↔ (V → W ∧ D ∧ N ∧ S) := by
  constructor
  · rintro ⟨hagree, hdartAgree⟩ hV
    have hW : W := by
      by_contra hW
      exact (hts.state hV).ne_argument (hagree.trans (hrust.argument hW))
    have hN : N := by
      by_contra hN
      exact (hts.state hV).ne_clock (hagree.trans (hrust.clock hW hN))
    have hS : S := by
      by_contra hS
      exact Guarded.ne_invalid rust (hagree.symm.trans (hinvalid hV hN hS))
    have hD : D := by
      by_contra hD
      have hrefused := hdart.argument fun h => hD h.2
      exact (hts.state hV).ne_argument (hagree.trans (hdartAgree.symm.trans hrefused))
    exact ⟨hW, hD, hN, hS⟩
  · intro h
    by_cases hV : V
    · obtain ⟨hW, hD, hN, hS⟩ := h hV
      exact ⟨hts.agree hV hW hN hS, hdart.agree ⟨hV, hD⟩ hW hN trivial⟩
    · have hrefused := hrust.argument fun hW => hV (hweaker hW)
      exact ⟨(hts.argument hV).trans hrefused.symm,
        (hdart.argument fun h => hV h.1).trans hrefused.symm⟩

end

/-- The expiries that TypeScript reads. -/
def ReadsSafely (table : CoordinationTable) (key : String) : Prop :=
  ∀ row, table key = some row → (row.expiresAtMs : ℤ) ≤ maxSafeInteger

/-- A row with the columns cast as the hosts select them. -/
def hostRow (row : CoordinationRow) : HostRow :=
  { ownerToken := row.ownerToken
    fence := row.fence.repr
    expiresAtMs := row.expiresAtMs
    wakeGeneration := row.wakeGeneration.repr
    handledGeneration := row.handledGeneration.repr }

section
variable (host : Host)

theorem storeNowMs_eq (clock : StoreClock) : storeNowMs host clock = .ok clock.reading := by
  have hfirst := clock.first
  have hlast := clock.last
  have hinteger : host.isInteger clock.reading = true :=
    host.safe _ (by unfold maxSafeInteger; omega) (by unfold maxSafeInteger; omega)
  rw [storeNowMs, asInteger, if_pos hinteger]

theorem storeNowMs_run {β : Type} (clock : StoreClock) (f : ℤ → Except HostError β) :
    (storeNowMs host clock >>= f) = f clock.reading := by
  rw [storeNowMs_eq]
  rfl

variable {host}

theorem readRow_of_safe {table : CoordinationTable} {key : String} {row : CoordinationRow}
    (hrow : table key = some row) (hsafe : host.isInteger row.expiresAtMs = true) :
    readRow host table key = .ok (hostRow row) := by
  simp only [readRow, hrow, asInteger, if_pos hsafe]
  rfl

theorem readRow_update {table : CoordinationTable} {key : String} {row : CoordinationRow}
    (hsafe : host.isInteger row.expiresAtMs = true) :
    readRow host (Function.update table key (some row)) key = .ok (hostRow row) :=
  readRow_of_safe (Function.update_self ..) hsafe

theorem readRow_of_miss {table : CoordinationTable} {key : String} {row : CoordinationRow}
    (hrow : table key = some row) (hmiss : ¬ host.isInteger row.expiresAtMs = true) :
    readRow host table key = .error (.invalid "lease expiry") := by
  simp only [readRow, hrow, asInteger, if_neg hmiss]
  rfl

theorem readRow_ok {table : CoordinationTable} {key : String} {read : HostRow}
    (h : readRow host table key = .ok read) :
    ∃ row, table key = some row ∧ read = hostRow row := by
  cases hrow : table key with
  | none => simp [readRow, hrow] at h
  | some row =>
    by_cases hsafe : host.isInteger row.expiresAtMs = true
    · rw [readRow_of_safe hrow hsafe] at h
      exact ⟨row, rfl, (Except.ok.inj h).symm⟩
    · rw [readRow_of_miss hrow hsafe] at h
      cases h

theorem readOwnedUnexpiredRow_ok {table : CoordinationTable} {grant : DesktopLeaseGrant}
    {nowMs : ℤ} {read : HostRow} (h : readOwnedUnexpiredRow host table grant nowMs = .ok read) :
    ∃ row, read = hostRow row := by
  obtain ⟨read', hread, h⟩ := Transition.bind_eq_ok.mp h
  obtain ⟨row, -, rfl⟩ := readRow_ok hread
  split at h
  · cases h
  · exact ⟨row, (Except.ok.inj h).symm⟩

theorem readRow_ofState (table : CoordinationTable) (key : String) :
    OfState (readRow host table key) := by
  cases hrow : table key with
  | none =>
    simp only [readRow, hrow]
    exact OfState.error rfl
  | some row =>
    by_cases hsafe : host.isInteger row.expiresAtMs = true
    · rw [readRow_of_safe hrow hsafe]
      exact OfState.ok _
    · rw [readRow_of_miss hrow hsafe]
      exact OfState.error rfl

end

theorem typeScript_reads {expiresAtMs : ℕ} (h : (expiresAtMs : ℤ) ≤ maxSafeInteger) :
    typeScript.isInteger expiresAtMs = true :=
  typeScript.safe _ (by unfold maxSafeInteger; omega) h

theorem readRow_typeScript_of_unsafe {table : CoordinationTable} {key : String}
    (h : ¬ ReadsSafely table key) :
    readRow typeScript table key = .error (.invalid "lease expiry") := by
  unfold ReadsSafely at h
  push Not at h
  obtain ⟨row, hrow, hlarge⟩ := h
  refine readRow_of_miss hrow ?_
  simp only [typeScript, Bool.and_eq_true, decide_eq_true_eq, not_and, not_le]
  exact fun _ => hlarge

theorem checked_ofState (nowMs expiresAtMs : ℤ) : OfState (checked nowMs expiresAtMs) := by
  unfold checked
  split
  · exact OfState.error rfl
  · exact OfState.ok ()

theorem ensureRow_ofState (table : CoordinationTable) (key : String) (nowMs : ℤ) :
    OfState (ensureRow table key nowMs) :=
  (checked_ofState nowMs 0).bind fun _ _ => OfState.ok _

theorem incrementWake_ofState (table : CoordinationTable) (key : String) (nowMs : ℤ) :
    OfState (incrementWake table key nowMs) := by
  unfold incrementWake
  split
  · exact OfState.ok _
  · refine (checked_ofState nowMs 0).bind fun _ _ => ?_
    split
    · exact OfState.error rfl
    · exact OfState.ok _

theorem grantLease_ofState (table : CoordinationTable) (key token : String)
    (nowMs expiresAtMs : ℤ) : OfState (grantLease table key token nowMs expiresAtMs) := by
  unfold grantLease
  split
  · exact OfState.ok _
  · refine (checked_ofState nowMs expiresAtMs).bind fun _ _ => ?_
    split
    · exact OfState.error rfl
    · exact OfState.ok _

/-- The generations of a row parse back. -/
theorem parseGeneration_repr (name : String) {n : ℕ} (h : n ≤ maxI64) :
    parseGeneration name n.repr = .ok n := by
  rw [(parseGeneration_checks name n.repr).passes (isGeneration_repr h),
    OptoSyncClient.bigInt_repr]

theorem checked_of_nonneg {nowMs expiresAtMs : ℤ} (hnow : 0 ≤ nowMs) (hexpires : 0 ≤ expiresAtMs) :
    checked nowMs expiresAtMs = .ok () := by
  rw [checked, if_neg]
  omega

/-- The row that a call reads, the one it has just inserted included. -/
theorem ensureRow_safe {host : Host} {table : CoordinationTable} {key : String}
    (hsafe : ∀ row, table key = some row → host.isInteger row.expiresAtMs = true) :
    ∃ row, SqliteDesktopCoordinator.ensureRow table key key = some row ∧
      host.isInteger row.expiresAtMs = true := by
  cases hrow : table key with
  | none =>
    refine ⟨SqliteDesktopCoordinator.emptyRow, ?_, host.safe _ (by decide) (by decide)⟩
    simp [SqliteDesktopCoordinator.ensureRow, hrow]
  | some row =>
    refine ⟨row, ?_, hsafe row hrow⟩
    simp [SqliteDesktopCoordinator.ensureRow, hrow]

/-- A lease of the reading of the clock ends where every host reads it. -/
theorem renewed_safe (host : Host) (clock : StoreClock) {ttlMs : ℕ} (h : InTtl ttlMs) :
    host.isInteger ((clock.reading + ttlMs).toNat : ℕ) = true := by
  have hlast := clock.last
  have hmax := h.2
  unfold maxTtlMs at hmax
  exact host.safe _ (by unfold maxSafeInteger; omega) (by unfold maxSafeInteger; omega)

theorem Rust.expiryAfter_run {β : Type} {clock : StoreClock} {ttlMs : ℕ}
    (hnow : 0 ≤ clock.reading) (h : InTtl ttlMs) (f : ℕ → Except SqliteDesktopError β) :
    (SqliteDesktopCoordinator.expiryAfter clock.reading.toNat ttlMs >>= f) =
      f (clock.reading.toNat + ttlMs) := by
  have hlast := clock.last
  have hmax := h.2
  unfold maxTtlMs at hmax
  rw [SqliteDesktopCoordinator.expiryAfter, if_pos (by unfold maxI64; omega)]
  rfl

/-- A row that TypeScript does not read was not just inserted. -/
theorem readRow_ensureRow_of_unsafe {table : CoordinationTable} {key : String}
    (h : ¬ ReadsSafely table key) :
    readRow typeScript (SqliteDesktopCoordinator.ensureRow table key) key =
      .error (.invalid "lease expiry") := by
  have hkept : SqliteDesktopCoordinator.ensureRow table key = table := by
    cases hrow : table key with
    | none => exact absurd (fun row hsome => by rw [hrow] at hsome; cases hsome) h
    | some row => simp [SqliteDesktopCoordinator.ensureRow, hrow]
  rw [hkept]
  exact readRow_typeScript_of_unsafe h

theorem retryAfterMs_hostRow (row : CoordinationRow) {nowMs : ℤ} (h : 0 ≤ nowMs) :
    retryAfterMs (hostRow row) nowMs =
      SqliteDesktopCoordinator.retryAfterMs row nowMs.toNat := by
  unfold retryAfterMs SqliteDesktopCoordinator.retryAfterMs
  simp only [hostRow]
  cases row.ownerToken with
  | none => rfl
  | some token =>
    simp only
    omega

theorem ok_bind {ε α β : Type} (a : α) (f : α → Except ε β) : (Except.ok a >>= f) = f a := rfl

end OptoSync.Coordinator
