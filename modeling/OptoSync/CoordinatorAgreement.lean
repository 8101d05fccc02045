import OptoSync.CoordinatorContract

/-!
# Agreement of the desktop coordinators

When the Rust crate, the TypeScript and the Dart package take a row to the same row with the same
result or refusal.
-/
namespace OptoSync.Coordinator
open Decimal

section
variable {host : Host} {table : CoordinationTable} {key : String} {clock : StoreClock}

theorem Rust.storeNowMs_negative {β : Type} {reading : ℤ} (h : ¬ 0 ≤ reading)
    (f : ℕ → Except SqliteDesktopError β) :
    (SqliteDesktopCoordinator.storeNowMs reading >>= f).mapError refusalOf = .error .clock := by
  rw [SqliteDesktopCoordinator.storeNowMs, if_pos (not_le.mp h)]
  rfl

theorem Rust.storeNowMs_run {β : Type} {reading : ℤ} (h : 0 ≤ reading)
    (f : ℕ → Except SqliteDesktopError β) :
    (SqliteDesktopCoordinator.storeNowMs reading >>= f) = f reading.toNat := by
  rw [SqliteDesktopCoordinator.storeNowMs, if_neg (not_lt.mpr h)]
  rfl

theorem Rust.signalWake_guarded :
    Guarded (SqliteDesktopCoordinator.signalWake table key clock.reading) (InBytes key)
      (0 ≤ clock.reading) where
  argument h := (validateIdentifier_checks _ _).refuses_bind h _
  clock h hclock := by
    rw [SqliteDesktopCoordinator.signalWake, (validateIdentifier_checks _ _).run h]
    exact storeNowMs_negative hclock _

theorem signalWake_state (hkey : InUnits key) : OfState (signalWake host table key clock) := by
  rw [signalWake, (validateIdentifier_checks _ _).run hkey, storeNowMs_run]
  refine OfState.bind (ensureRow_ofState _ _ _) fun table' _ => ?_
  refine OfState.bind (readRow_ofState _ _) fun before hbefore => ?_
  obtain ⟨row, -, rfl⟩ := readRow_ok hbefore
  refine OfState.bind ?_ fun wake _ => ?_
  · rw [hostRow, parseGeneration_repr _ row.wake_le]
    exact OfState.ok _
  · split
    · exact OfState.error rfl
    · refine OfState.bind (incrementWake_ofState _ _ _) fun table'' _ => ?_
      exact OfState.bind (readRow_ofState _ _) fun _ _ => OfState.ok _

theorem ensureRow_run {β : Type} {nowMs : ℤ} (h : 0 ≤ nowMs)
    (f : CoordinationTable → Except HostError β) :
    (ensureRow table key nowMs >>= f) = f (SqliteDesktopCoordinator.ensureRow table key) := by
  rw [ensureRow, checked_of_nonneg h le_rfl]
  rfl

theorem signalWake_agree (hkey : InBytes key) (hnow : 0 ≤ clock.reading)
    (hsafe : ∀ row, table key = some row → host.isInteger row.expiresAtMs = true) :
    (signalWake host table key clock).mapError HostError.refusal =
      (SqliteDesktopCoordinator.signalWake table key clock.reading).mapError refusalOf := by
  rw [signalWake, (validateIdentifier_checks _ _).run hkey.inUnits, storeNowMs_run,
    ensureRow_run hnow, SqliteDesktopCoordinator.signalWake,
    (Rust.validateIdentifier_checks _ _).run hkey, Rust.storeNowMs_run hnow]
  obtain ⟨row, hrow, hinteger⟩ := ensureRow_safe hsafe
  simp only [SqliteDesktopCoordinator.readRow_eq_ok.mpr hrow, readRow_of_safe hrow hinteger, ok_bind]
  rw [hostRow, parseGeneration_repr _ row.wake_le, ok_bind]
  by_cases hexhausted : maxI64 ≤ row.wakeGeneration
  · rw [if_pos hexhausted, dif_pos hexhausted]
    rfl
  · rw [if_neg hexhausted, dif_neg hexhausted]
    simp only [incrementWake, hrow, checked_of_nonneg hnow le_rfl, ok_bind, dif_neg hexhausted,
      pure_bind]
    rw [readRow_update]
    · rw [ok_bind, retryAfterMs_hostRow _ hnow]
      simp only [hostRow, ne_eq, Nat.repr_inj]
      rfl
    · exact hinteger

theorem signalWake_unsafe (hkey : InUnits key) (hnow : 0 ≤ clock.reading)
    (hmiss : ¬ ReadsSafely table key) :
    (signalWake typeScript table key clock).mapError HostError.refusal = .error .invalid := by
  rw [signalWake, (validateIdentifier_checks _ _).run hkey, storeNowMs_run, ensureRow_run hnow,
    readRow_ensureRow_of_unsafe hmiss]
  rfl

theorem signalWake_agree_iff : Agree (SqliteDesktopCoordinator.signalWake table key clock.reading)
    (signalWake typeScript table key clock) (signalWake dart table key clock) ↔
      (InUnits key → InBytes key ∧ True ∧ 0 ≤ clock.reading ∧ ReadsSafely table key) :=
  agree_iff InBytes.inUnits Rust.signalWake_guarded
    { argument := fun h => (validateIdentifier_checks _ _).refuses_bind h _
      state := signalWake_state
      agree := fun _ hkey hnow hsafe =>
        signalWake_agree hkey hnow fun row hrow => typeScript_reads (hsafe row hrow) }
    { argument := fun h =>
        (validateIdentifier_checks _ _).refuses_bind (fun hkey => h ⟨hkey, trivial⟩) _
      state := fun h => signalWake_state h.1
      agree := fun _ hkey hnow _ => signalWake_agree hkey hnow fun _ _ => rfl }
    signalWake_unsafe

end

section
variable {host : Host} {table : CoordinationTable} {request : SqliteDesktopAcquireRequest}
variable {clock : StoreClock}

def RequestInUnits (request : SqliteDesktopAcquireRequest) : Prop :=
  InUnits request.key ∧ InUnits request.ownerId ∧ InUnits request.token ∧
    InTtl request.leaseTtlMs

def RequestInBytes (request : SqliteDesktopAcquireRequest) : Prop :=
  InBytes request.key ∧ InBytes request.ownerId ∧ InBytes request.token ∧
    InTtl request.leaseTtlMs

theorem RequestInBytes.inUnits (h : RequestInBytes request) : RequestInUnits request :=
  ⟨h.1.inUnits, h.2.1.inUnits, h.2.2.1.inUnits, h.2.2.2⟩

theorem Rust.acquire_guarded :
    Guarded (SqliteDesktopCoordinator.acquire table request clock.reading)
      (RequestInBytes request) (0 ≤ clock.reading) where
  argument h :=
    (validateIdentifier_checks _ _).bind_refuses ((validateIdentifier_checks _ _).bind_refuses
      ((validateIdentifier_checks _ _).bind_refuses fun httl =>
        (validateTtl_checks _).refuses_bind httl _)) h
  clock h hclock := by
    obtain ⟨hkey, howner, htoken, httl⟩ := h
    rw [SqliteDesktopCoordinator.acquire, (validateIdentifier_checks _ _).run hkey,
      (validateIdentifier_checks _ _).run howner, (validateIdentifier_checks _ _).run htoken,
      (validateTtl_checks _).run httl]
    exact storeNowMs_negative hclock _

theorem acquire_argument (h : ¬ RequestInUnits request) :
    (acquire host table request clock).mapError HostError.refusal = .error .argument :=
  (validateIdentifier_checks _ _).bind_refuses ((validateIdentifier_checks _ _).bind_refuses
    ((validateIdentifier_checks _ _).bind_refuses fun httl =>
      (validateTtl_checks _).refuses_bind httl _)) h

theorem acquire_state (h : RequestInUnits request) :
    OfState (acquire host table request clock) := by
  obtain ⟨hkey, howner, htoken, httl⟩ := h
  rw [acquire, (validateIdentifier_checks _ _).run hkey, (validateIdentifier_checks _ _).run howner,
    (validateIdentifier_checks _ _).run htoken, (validateTtl_checks _).run httl, storeNowMs_run]
  refine OfState.bind (ensureRow_ofState _ _ _) fun table' _ => ?_
  refine OfState.bind (readRow_ofState _ _) fun current hcurrent => ?_
  obtain ⟨row, -, rfl⟩ := readRow_ok hcurrent
  split
  · exact OfState.ok _
  · refine OfState.bind ?_ fun fence _ => ?_
    · rw [hostRow, parseGeneration_repr _ row.fence_le]
      exact OfState.ok _
    · split
      · exact OfState.error rfl
      · refine OfState.bind (grantLease_ofState _ _ _ _ _) fun table'' _ => ?_
        exact OfState.bind (readRow_ofState _ _) fun _ _ => OfState.ok _

theorem acquire_agree (h : RequestInBytes request) (hnow : 0 ≤ clock.reading)
    (hsafe : ∀ row, table request.key = some row → host.isInteger row.expiresAtMs = true) :
    (acquire host table request clock).mapError HostError.refusal =
      (SqliteDesktopCoordinator.acquire table request clock.reading).mapError refusalOf := by
  obtain ⟨hkey, howner, htoken, httl⟩ := h
  rw [acquire, (validateIdentifier_checks _ _).run hkey.inUnits,
    (validateIdentifier_checks _ _).run howner.inUnits,
    (validateIdentifier_checks _ _).run htoken.inUnits, (validateTtl_checks _).run httl,
    storeNowMs_run, ensureRow_run hnow, SqliteDesktopCoordinator.acquire,
    (Rust.validateIdentifier_checks _ _).run hkey, (Rust.validateIdentifier_checks _ _).run howner,
    (Rust.validateIdentifier_checks _ _).run htoken, (Rust.validateTtl_checks _).run httl,
    Rust.storeNowMs_run hnow]
  obtain ⟨row, hrow, hinteger⟩ := ensureRow_safe hsafe
  simp only [SqliteDesktopCoordinator.readRow_eq_ok.mpr hrow, readRow_of_safe hrow hinteger, ok_bind]
  have hlive : clock.reading < (row.expiresAtMs : ℤ) ↔ clock.reading.toNat < row.expiresAtMs := by
    omega
  by_cases hbusy : row.ownerToken.isSome = true ∧ clock.reading.toNat < row.expiresAtMs
  · rw [if_pos hbusy, if_pos ⟨hbusy.1, hlive.mpr hbusy.2⟩]
    have hretry : ((row.expiresAtMs : ℤ) - clock.reading).toNat =
        row.expiresAtMs - clock.reading.toNat := by
      omega
    simp only [hostRow, hretry]
    rfl
  · rw [if_neg hbusy, if_neg fun h => hbusy ⟨h.1, hlive.mp h.2⟩, hostRow,
      parseGeneration_repr _ row.fence_le, ok_bind]
    by_cases hexhausted : maxI64 ≤ row.fence
    · rw [if_pos hexhausted, dif_pos hexhausted]
      rfl
    · have hexpires : 0 ≤ clock.reading + request.leaseTtlMs := by omega
      rw [if_neg hexhausted, dif_neg hexhausted, Rust.expiryAfter_run hnow httl]
      simp only [grantLease, hrow, checked_of_nonneg hnow hexpires, ok_bind, dif_neg hexhausted,
        pure_bind]
      have htoNat : (clock.reading + request.leaseTtlMs).toNat =
          clock.reading.toNat + request.leaseTtlMs := by
        omega
      rw [readRow_update (renewed_safe host clock httl)]
      simp only [ok_bind, hostRow, htoNat]
      rfl

theorem acquire_unsafe (h : RequestInUnits request) (hnow : 0 ≤ clock.reading)
    (hmiss : ¬ ReadsSafely table request.key) :
    (acquire typeScript table request clock).mapError HostError.refusal = .error .invalid := by
  obtain ⟨hkey, howner, htoken, httl⟩ := h
  rw [acquire, (validateIdentifier_checks _ _).run hkey, (validateIdentifier_checks _ _).run howner,
    (validateIdentifier_checks _ _).run htoken, (validateTtl_checks _).run httl, storeNowMs_run,
    ensureRow_run hnow, readRow_ensureRow_of_unsafe hmiss]
  rfl

theorem acquire_agree_iff :
    Agree (SqliteDesktopCoordinator.acquire table request clock.reading)
      (acquire typeScript table request clock) (acquire dart table request clock) ↔
      (RequestInUnits request → RequestInBytes request ∧ True ∧ 0 ≤ clock.reading ∧
        ReadsSafely table request.key) :=
  agree_iff RequestInBytes.inUnits Rust.acquire_guarded
    { argument := acquire_argument
      state := acquire_state
      agree := fun _ h hnow hsafe =>
        acquire_agree h hnow fun row hrow => typeScript_reads (hsafe row hrow) }
    { argument := fun h => acquire_argument fun hrequest => h ⟨hrequest, trivial⟩
      state := fun h => acquire_state h.1
      agree := fun _ h hnow _ => acquire_agree h hnow fun _ _ => rfl }
    acquire_unsafe

end

section
variable {host : Host} {table : CoordinationTable} {grant : SqliteDesktopLeaseGrant}
variable {leaseTtlMs : ℕ} {clock : StoreClock}

theorem Rust.renew_guarded :
    Guarded (SqliteDesktopCoordinator.renew table grant leaseTtlMs clock.reading)
      (SqliteGrantInBytes grant ∧ InTtl leaseTtlMs) (0 ≤ clock.reading) where
  argument h :=
    (validateSqliteGrant_checks _).bind_refuses (fun httl =>
      (validateTtl_checks _).refuses_bind httl _) h
  clock h hclock := by
    rw [SqliteDesktopCoordinator.renew, (validateSqliteGrant_checks _).run h.1,
      (validateTtl_checks _).run h.2, (parseDecimal_checks _ _).run h.1.2.2.2.1]
    exact storeNowMs_negative hclock _

/-- The hosts check a renewal in either order. -/
theorem renewal_checks {β : Type} (f : Unit → Except HostError β) :
    (¬ ((GrantInUnits grant.desktopGrant ∧ host.isDate grant.expiresAtMs = true) ∧
        InTtl leaseTtlMs) →
      (if host.ttlFirst then do
        validateTtl leaseTtlMs
        let checked ← validateSqliteGrant host grant
        f checked
      else do
        validateSqliteGrant host grant
        let checked ← validateTtl leaseTtlMs
        f checked).mapError HostError.refusal = .error .argument) ∧
    ((GrantInUnits grant.desktopGrant ∧ host.isDate grant.expiresAtMs = true) ∧
        InTtl leaseTtlMs →
      (if host.ttlFirst then do
        validateTtl leaseTtlMs
        let checked ← validateSqliteGrant host grant
        f checked
      else do
        validateSqliteGrant host grant
        let checked ← validateTtl leaseTtlMs
        f checked) = f ()) := by
  have hgrants := validateSqliteGrant_checks host grant
  have httls := validateTtl_checks leaseTtlMs
  cases host.ttlFirst with
  | true =>
    constructor
    · intro h
      exact httls.bind_refuses (fun hgrant => hgrants.refuses_bind hgrant f) fun hc => h hc.symm
    · intro h
      exact (httls.run h.2 _).trans (hgrants.run h.1 f)
  | false =>
    constructor
    · exact hgrants.bind_refuses fun httl => httls.refuses_bind httl f
    · intro h
      exact (hgrants.run h.1 _).trans (httls.run h.2 f)

theorem renew_argument (h : ¬ ((GrantInUnits grant.desktopGrant ∧
      host.isDate grant.expiresAtMs = true) ∧ InTtl leaseTtlMs)) :
    (renew host table grant leaseTtlMs clock).mapError HostError.refusal = .error .argument :=
  (renewal_checks _).1 h

theorem renew_state (h : (GrantInUnits grant.desktopGrant ∧
      host.isDate grant.expiresAtMs = true) ∧ InTtl leaseTtlMs) :
    OfState (renew host table grant leaseTtlMs clock) := by
  rw [renew, (renewal_checks _).2 h, storeNowMs_run,
    (parseGeneration_checks _ grant.fence).run h.1.1.2.2]
  split
  · exact OfState.ok _
  · split
    · refine OfState.bind (checked_ofState _ _) fun _ _ => ?_
      exact OfState.bind (readRow_ofState _ _) fun _ _ => OfState.ok _
    · exact OfState.ok _

theorem owned_eq (row : CoordinationRow) (token : String) (fence : ℕ) {nowMs : ℤ}
    (h : 0 ≤ nowMs) :
    owned row token fence nowMs =
      SqliteDesktopCoordinator.ownedUnexpired row token fence nowMs.toNat := by
  have hlive : nowMs < (row.expiresAtMs : ℤ) ↔ nowMs.toNat < row.expiresAtMs := by omega
  simp only [owned, SqliteDesktopCoordinator.ownedUnexpired, hlive]

theorem renew_agree (hgrant : SqliteGrantInBytes grant)
    (hdate : host.isDate grant.expiresAtMs = true) (httl : InTtl leaseTtlMs)
    (hnow : 0 ≤ clock.reading) :
    (renew host table grant leaseTtlMs clock).mapError HostError.refusal =
      (SqliteDesktopCoordinator.renew table grant leaseTtlMs clock.reading).mapError refusalOf := by
  rw [renew, (renewal_checks _).2 ⟨⟨hgrant.inUnits, hdate⟩, httl⟩, storeNowMs_run,
    (parseGeneration_checks _ _).run hgrant.2.2.2.1, SqliteDesktopCoordinator.renew,
    (Rust.validateSqliteGrant_checks _).run hgrant, (Rust.validateTtl_checks _).run httl,
    (Rust.parseDecimal_checks _ _).run hgrant.2.2.2.1, Rust.storeNowMs_run hnow,
    Rust.expiryAfter_run hnow httl]
  cases hrow : table grant.key with
  | none => rfl
  | some row =>
    have hexpires : 0 ≤ clock.reading + leaseTtlMs := by omega
    have htoNat : (clock.reading + leaseTtlMs).toNat = clock.reading.toNat + leaseTtlMs := by
      omega
    simp only [owned_eq _ _ _ hnow]
    split
    · rw [checked_of_nonneg hnow hexpires, ok_bind, readRow_update (renewed_safe host clock httl)]
      simp only [ok_bind, hostRow, htoNat]
      rfl
    · rfl

theorem renew_agree_iff :
    Agree (SqliteDesktopCoordinator.renew table grant leaseTtlMs clock.reading)
      (renew typeScript table grant leaseTtlMs clock) (renew dart table grant leaseTtlMs clock) ↔
      (GrantInUnits grant.desktopGrant ∧ InTtl leaseTtlMs →
        (SqliteGrantInBytes grant ∧ InTtl leaseTtlMs) ∧ IsDate grant ∧ 0 ≤ clock.reading ∧
          True) :=
  agree_iff (fun h => ⟨h.1.inUnits, h.2⟩) Rust.renew_guarded
    { argument := fun h => renew_argument fun hc => h ⟨hc.1.1, hc.2⟩
      state := fun h => renew_state ⟨⟨h.1, rfl⟩, h.2⟩
      agree := fun _ h hnow _ => renew_agree h.1 rfl h.2 hnow }
    { argument := fun h => renew_argument fun hc =>
        h ⟨⟨hc.1.1, hc.2⟩, dart_isDate.mp hc.1.2⟩
      state := fun h => renew_state ⟨⟨h.1.1, dart_isDate.mpr h.2⟩, h.1.2⟩
      agree := fun hV h hnow _ => renew_agree h.1 (dart_isDate.mpr hV.2) h.2 hnow }
    fun _ _ h => absurd trivial h

end

theorem repr_eq_iff {text : String} {n : ℕ} (h : IsGeneration text) :
    n.repr = text ↔ n = bigInt text := by
  constructor
  · rintro rfl
    exact (OptoSyncClient.bigInt_repr n).symm
  · rintro rfl
    exact repr_bigInt h.1

section
variable {host : Host} {table : CoordinationTable} {grant : DesktopLeaseGrant} {nowMs : ℤ}

theorem readOwnedUnexpiredRow_ofState (table : CoordinationTable) (grant : DesktopLeaseGrant)
    (nowMs : ℤ) : OfState (readOwnedUnexpiredRow host table grant nowMs) := by
  refine OfState.bind (readRow_ofState _ _) fun row _ => ?_
  split
  · exact OfState.error rfl
  · exact OfState.ok row

/-- A fenced read ends alike in a host and in the Rust crate. -/
theorem readOwnedUnexpiredRow_cases (hfence : IsGeneration grant.fence) (hnow : 0 ≤ nowMs)
    (hsafe : ∀ row, table grant.key = some row → host.isInteger row.expiresAtMs = true) :
    (readOwnedUnexpiredRow host table grant nowMs = .error .disappeared ∧
      SqliteDesktopCoordinator.readOwnedUnexpiredRow table grant (bigInt grant.fence) nowMs.toNat =
        .error .missingCoordinationRow) ∨
    (readOwnedUnexpiredRow host table grant nowMs = .error .stale ∧
      SqliteDesktopCoordinator.readOwnedUnexpiredRow table grant (bigInt grant.fence) nowMs.toNat =
        .error .staleFence) ∨
    ∃ row, table grant.key = some row ∧
      SqliteDesktopCoordinator.ownedUnexpired row grant.token (bigInt grant.fence) nowMs.toNat =
        true ∧
      readOwnedUnexpiredRow host table grant nowMs = .ok (hostRow row) ∧
      SqliteDesktopCoordinator.readOwnedUnexpiredRow table grant (bigInt grant.fence) nowMs.toNat =
        .ok row := by
  cases hrow : table grant.key with
  | none =>
    refine Or.inl ⟨?_, ?_⟩
    · simp only [readOwnedUnexpiredRow, readRow, hrow]
      rfl
    · simp only [SqliteDesktopCoordinator.readOwnedUnexpiredRow, SqliteDesktopCoordinator.readRow,
        hrow]
      rfl
  | some row =>
    right
    have hread := readRow_of_safe hrow (hsafe row hrow)
    have howned : SqliteDesktopCoordinator.ownedUnexpired row grant.token (bigInt grant.fence)
        nowMs.toNat = true ↔ ¬ ((hostRow row).ownerToken ≠ some grant.token ∨
          (hostRow row).fence ≠ grant.fence ∨ (hostRow row).expiresAtMs ≤ nowMs) := by
      have hlive : nowMs.toNat < row.expiresAtMs ↔ ¬ (row.expiresAtMs : ℤ) ≤ nowMs := by omega
      simp only [SqliteDesktopCoordinator.ownedUnexpired, hostRow, ne_eq, repr_eq_iff hfence,
        Bool.and_eq_true, decide_eq_true_eq, not_or, not_not, hlive, and_assoc]
    rw [readOwnedUnexpiredRow, hread, SqliteDesktopCoordinator.readOwnedUnexpiredRow,
      SqliteDesktopCoordinator.readRow_eq_ok.mpr hrow, ok_bind, ok_bind]
    by_cases h : SqliteDesktopCoordinator.ownedUnexpired row grant.token (bigInt grant.fence)
        nowMs.toNat = true
    · right
      rw [if_pos h, if_neg (howned.mp h)]
      exact ⟨row, rfl, h, rfl, rfl⟩
    · left
      rw [if_neg h, if_pos (not_not.mp fun hc => h (howned.mpr hc))]
      exact ⟨rfl, rfl⟩

theorem readOwnedUnexpiredRow_of_miss (hmiss : ¬ ReadsSafely table grant.key) :
    readOwnedUnexpiredRow typeScript table grant nowMs = .error (.invalid "lease expiry") := by
  rw [readOwnedUnexpiredRow, readRow_typeScript_of_unsafe hmiss]
  rfl

end

section
variable {host : Host} {table : CoordinationTable} {grant : SqliteDesktopLeaseGrant}
variable {observed : String} {clock : StoreClock}

theorem Rust.complete_guarded :
    Guarded (SqliteDesktopCoordinator.complete table grant observed clock.reading)
      (SqliteGrantInBytes grant ∧ IsGeneration observed) (0 ≤ clock.reading) where
  argument h :=
    (validateSqliteGrant_checks _).bind_refuses (fun hobserved =>
      (parseDecimal_checks _ _).refuses_bind hobserved _) h
  clock h hclock := by
    rw [SqliteDesktopCoordinator.complete, (validateSqliteGrant_checks _).run h.1,
      (parseDecimal_checks _ observed).run h.2, (parseDecimal_checks _ grant.fence).run h.1.2.2.2.1]
    exact storeNowMs_negative hclock _

theorem complete_argument (h : ¬ ((GrantInUnits grant.desktopGrant ∧
      host.isDate grant.expiresAtMs = true) ∧ IsGeneration observed)) :
    (complete host table grant observed clock).mapError HostError.refusal = .error .argument :=
  (validateSqliteGrant_checks host grant).bind_refuses (fun hobserved =>
    (parseGeneration_checks _ observed).refuses_bind hobserved _) h

theorem complete_state (h : (GrantInUnits grant.desktopGrant ∧
      host.isDate grant.expiresAtMs = true) ∧ IsGeneration observed) :
    OfState (complete host table grant observed clock) := by
  rw [complete, (validateSqliteGrant_checks host grant).run h.1,
    (parseGeneration_checks _ observed).run h.2, storeNowMs_run]
  refine OfState.bind (readOwnedUnexpiredRow_ofState _ _ _) fun read hread => ?_
  obtain ⟨row, rfl⟩ := readOwnedUnexpiredRow_ok hread
  rw [hostRow, parseGeneration_repr _ row.wake_le, ok_bind,
    parseGeneration_repr _ (row.handled_le.trans row.wake_le), ok_bind]
  split
  · exact OfState.error rfl
  · simp only [(parseGeneration_checks _ grant.fence).run h.1.1.2.2]
    split
    · exact OfState.error rfl
    · split
      · refine OfState.bind (checked_ofState _ _) fun _ _ => ?_
        exact OfState.dite (fun _ => OfState.ok _) fun _ => OfState.error rfl
      · exact OfState.error rfl

theorem complete_agree (hgrant : SqliteGrantInBytes grant)
    (hdate : host.isDate grant.expiresAtMs = true) (hobserved : IsGeneration observed)
    (hnow : 0 ≤ clock.reading)
    (hsafe : ∀ row, table grant.key = some row → host.isInteger row.expiresAtMs = true) :
    (complete host table grant observed clock).mapError HostError.refusal =
      (SqliteDesktopCoordinator.complete table grant observed clock.reading).mapError
        refusalOf := by
  rw [complete, (validateSqliteGrant_checks host grant).run ⟨hgrant.inUnits, hdate⟩,
    (parseGeneration_checks _ observed).run hobserved, storeNowMs_run,
    SqliteDesktopCoordinator.complete, (Rust.validateSqliteGrant_checks _).run hgrant,
    (Rust.parseDecimal_checks _ observed).run hobserved,
    (Rust.parseDecimal_checks _ grant.fence).run hgrant.2.2.2.1, Rust.storeNowMs_run hnow]
  have hfence : IsGeneration grant.desktopGrant.fence := hgrant.2.2.2.1
  rcases readOwnedUnexpiredRow_cases hfence hnow hsafe with ⟨hhost, hrust⟩ | ⟨hhost, hrust⟩ |
    ⟨row, hrow, howned, hhost, hrust⟩
  · rw [hhost, show bigInt grant.fence = bigInt grant.desktopGrant.fence from rfl, hrust]
    rfl
  · rw [hhost, show bigInt grant.fence = bigInt grant.desktopGrant.fence from rfl, hrust]
    rfl
  · have hkey : table grant.key = some row := hrow
    have hrust' : SqliteDesktopCoordinator.readOwnedUnexpiredRow table grant.desktopGrant
        (bigInt grant.fence) clock.reading.toNat = .ok row := hrust
    have hlive : owned row grant.token (bigInt grant.fence) clock.reading = true :=
      (owned_eq row grant.token (bigInt grant.fence) hnow).trans howned
    have howned' : SqliteDesktopCoordinator.ownedUnexpired row grant.token (bigInt grant.fence)
        clock.reading.toNat = true := howned
    rw [hhost, hrust', ok_bind, ok_bind]
    simp only [hostRow, parseGeneration_repr _ row.wake_le, ok_bind,
      parseGeneration_repr _ (row.handled_le.trans row.wake_le)]
    by_cases hahead : row.wakeGeneration < bigInt observed
    · rw [if_pos hahead, dif_pos hahead]
      rfl
    · have hmax : (if row.handledGeneration < bigInt observed then bigInt observed
          else row.handledGeneration) = max (bigInt observed) row.handledGeneration := by
        split
        · rename_i hlt
          exact (max_eq_left hlt.le).symm
        · rename_i hle
          exact (max_eq_right (Nat.not_lt.mp hle)).symm
      have hnext : max (bigInt observed) row.handledGeneration ≤ row.wakeGeneration :=
        max_le (Nat.not_lt.mp hahead) row.handled_le
      rw [if_neg hahead, dif_neg hahead, (parseGeneration_checks _ grant.fence).run hfence,
        if_pos howned']
      simp only [hkey, hlive, if_true, checked_of_nonneg hnow le_rfl, ok_bind, hmax, dif_pos hnext]
      rfl

theorem complete_unsafe (h : GrantInUnits grant.desktopGrant ∧ IsGeneration observed)
    (hmiss : ¬ ReadsSafely table grant.key) :
    (complete typeScript table grant observed clock).mapError HostError.refusal =
      .error .invalid := by
  have hread : readOwnedUnexpiredRow typeScript table grant.desktopGrant clock.reading =
      .error (.invalid "lease expiry") := readOwnedUnexpiredRow_of_miss hmiss
  rw [complete, (validateSqliteGrant_checks typeScript grant).run ⟨h.1, rfl⟩,
    (parseGeneration_checks _ observed).run h.2, storeNowMs_run, hread]
  rfl

theorem complete_agree_iff :
    Agree (SqliteDesktopCoordinator.complete table grant observed clock.reading)
      (complete typeScript table grant observed clock)
      (complete dart table grant observed clock) ↔
      (GrantInUnits grant.desktopGrant ∧ IsGeneration observed →
        (SqliteGrantInBytes grant ∧ IsGeneration observed) ∧ IsDate grant ∧ 0 ≤ clock.reading ∧
          ReadsSafely table grant.key) :=
  agree_iff (fun h => ⟨h.1.inUnits, h.2⟩) Rust.complete_guarded
    { argument := fun h => complete_argument fun hc => h ⟨hc.1.1, hc.2⟩
      state := fun h => complete_state ⟨⟨h.1, rfl⟩, h.2⟩
      agree := fun _ h hnow hsafe =>
        complete_agree h.1 rfl h.2 hnow fun row hrow => typeScript_reads (hsafe row hrow) }
    { argument := fun h => complete_argument fun hc =>
        h ⟨⟨hc.1.1, hc.2⟩, dart_isDate.mp hc.1.2⟩
      state := fun h => complete_state ⟨⟨h.1.1, dart_isDate.mpr h.2⟩, h.1.2⟩
      agree := fun hV h hnow _ =>
        complete_agree h.1 (dart_isDate.mpr hV.2) h.2 hnow fun _ _ => rfl }
    fun h _ hmiss => complete_unsafe h hmiss

end

section
variable {host : Host} {table : CoordinationTable} {grant : DesktopLeaseGrant} {clock : StoreClock}

theorem Rust.releaseLease_guarded :
    Guarded (SqliteDesktopCoordinator.releaseLease table grant clock.reading)
      (GrantInBytes grant) (0 ≤ clock.reading) where
  argument h := (validateGrant_checks _).refuses_bind h _
  clock h hclock := by
    rw [SqliteDesktopCoordinator.releaseLease, (validateGrant_checks _).run h,
      (parseDecimal_checks _ grant.fence).run h.2.2]
    exact storeNowMs_negative hclock _

theorem release_argument (h : ¬ GrantInUnits grant) :
    (release host table grant clock).mapError HostError.refusal = .error .argument :=
  (validateGrant_checks grant).refuses_bind h _

theorem release_state (h : GrantInUnits grant) : OfState (release host table grant clock) := by
  rw [release, (validateGrant_checks grant).run h, storeNowMs_run,
    (parseGeneration_checks _ grant.fence).run h.2.2]
  split
  · exact OfState.ok _
  · split
    · exact OfState.bind (checked_ofState _ _) fun _ _ => OfState.ok _
    · exact OfState.ok _

theorem release_agree (h : GrantInBytes grant) (hnow : 0 ≤ clock.reading) :
    (release host table grant clock).mapError HostError.refusal =
      (SqliteDesktopCoordinator.releaseLease table grant clock.reading).mapError refusalOf := by
  rw [release, (validateGrant_checks grant).run h.inUnits, storeNowMs_run,
    (parseGeneration_checks _ grant.fence).run h.2.2, SqliteDesktopCoordinator.releaseLease,
    (Rust.validateGrant_checks _).run h, (Rust.parseDecimal_checks _ grant.fence).run h.2.2,
    Rust.storeNowMs_run hnow]
  cases hrow : table grant.key with
  | none => rfl
  | some row =>
    simp only [checked_of_nonneg hnow le_rfl, ok_bind]
    split
    · rfl
    · rfl

theorem release_agree_iff :
    Agree (SqliteDesktopCoordinator.releaseLease table grant clock.reading)
      (release typeScript table grant clock) (release dart table grant clock) ↔
      (GrantInUnits grant → GrantInBytes grant ∧ True ∧ 0 ≤ clock.reading ∧ True) :=
  agree_iff GrantInBytes.inUnits Rust.releaseLease_guarded
    { argument := release_argument
      state := release_state
      agree := fun _ h hnow _ => release_agree h hnow }
    { argument := fun h => release_argument fun hgrant => h ⟨hgrant, trivial⟩
      state := fun h => release_state h.1
      agree := fun _ h hnow _ => release_agree h hnow }
    fun _ _ h => absurd trivial h

end

section
variable {host : Host} {table : CoordinationTable} {grant : DesktopLeaseGrant}
variable {before after : StoreClock}

/-- The grant owns the row at the reading. -/
def Live (table : CoordinationTable) (grant : DesktopLeaseGrant) (nowMs : ℤ) : Prop :=
  ∃ row, table grant.key = some row ∧ SqliteDesktopCoordinator.ownedUnexpired row grant.token
    (bigInt grant.fence) nowMs.toNat = true

/-- The clock is not negative where the call reads it. -/
def ReadsClock (table : CoordinationTable) (grant : DesktopLeaseGrant) (before after : ℤ) : Prop :=
  0 ≤ before ∧ (Live table grant before → 0 ≤ after)

/-- The write that does nothing. -/
def skip (data : Unit) : Except SqliteDesktopError (Unit × Unit) := .ok ((), data)

theorem Rust.skip_guarded :
    Guarded (SqliteDesktopCoordinator.withFencedWrite table () grant skip before.reading
        after.reading) (GrantInBytes grant) (ReadsClock table grant before.reading after.reading)
      where
  argument h := (validateGrant_checks _).refuses_bind h _
  clock h hclock := by
    rw [SqliteDesktopCoordinator.withFencedWrite, (validateGrant_checks _).run h,
      (parseDecimal_checks _ grant.fence).run h.2.2]
    by_cases hbefore : 0 ≤ before.reading
    · have hafter : ¬ (Live table grant before.reading → 0 ≤ after.reading) :=
        fun hlive => hclock ⟨hbefore, hlive⟩
      push Not at hafter
      obtain ⟨⟨row, hrow, howned⟩, hnegative⟩ := hafter
      have hread : SqliteDesktopCoordinator.readOwnedUnexpiredRow table grant (bigInt grant.fence)
          before.reading.toNat = .ok row := by
        rw [SqliteDesktopCoordinator.readOwnedUnexpiredRow,
          SqliteDesktopCoordinator.readRow_eq_ok.mpr hrow, ok_bind, if_pos howned]
        rfl
      rw [storeNowMs_run hbefore, hread, ok_bind, skip, ok_bind]
      exact storeNowMs_negative (not_le.mpr hnegative) _
    · exact storeNowMs_negative hbefore _

variable {α ρ : Type} {data : α} {write : α → Except SqliteDesktopError (ρ × α)}

theorem withFencedWrite_argument (h : ¬ GrantInUnits grant) :
    (withFencedWrite host table data grant write before after).mapError HostError.refusal =
      .error .argument :=
  (validateGrant_checks grant).refuses_bind h _

theorem withFencedWrite_agree (h : GrantInBytes grant)
    (hclock : ReadsClock table grant before.reading after.reading)
    (hsafe : ∀ row, table grant.key = some row → host.isInteger row.expiresAtMs = true) :
    (withFencedWrite host table data grant write before after).mapError HostError.refusal =
      (SqliteDesktopCoordinator.withFencedWrite table data grant write before.reading
        after.reading).mapError refusalOf := by
  obtain ⟨hbefore, hafter⟩ := hclock
  rw [withFencedWrite, (validateGrant_checks grant).run h.inUnits, storeNowMs_run,
    SqliteDesktopCoordinator.withFencedWrite, (Rust.validateGrant_checks _).run h,
    (Rust.parseDecimal_checks _ grant.fence).run h.2.2, Rust.storeNowMs_run hbefore]
  rcases readOwnedUnexpiredRow_cases h.2.2 hbefore hsafe with ⟨hhost, hrust⟩ | ⟨hhost, hrust⟩ |
    ⟨row, hrow, howned, hhost, hrust⟩
  · rw [hhost, hrust]
    rfl
  · rw [hhost, hrust]
    rfl
  · have hnow : 0 ≤ after.reading := hafter ⟨row, hrow, howned⟩
    rw [hhost, hrust, ok_bind, ok_bind]
    cases write data with
    | error error => rfl
    | ok result =>
      rw [Except.mapError, ok_bind, ok_bind, storeNowMs_run, Rust.storeNowMs_run hnow]
      rcases readOwnedUnexpiredRow_cases h.2.2 hnow hsafe with ⟨hhost, hrust⟩ | ⟨hhost, hrust⟩ |
        ⟨row', -, -, hhost, hrust⟩
      · rw [hhost, hrust]
        rfl
      · rw [hhost, hrust]
        rfl
      · rw [hhost, hrust]
        rfl

theorem skip_state (h : GrantInUnits grant) :
    OfState (withFencedWrite host table () grant skip before after) := by
  rw [withFencedWrite, (validateGrant_checks grant).run h, storeNowMs_run]
  refine OfState.bind (readOwnedUnexpiredRow_ofState _ _ _) fun _ _ => ?_
  rw [skip, Except.mapError, ok_bind, storeNowMs_run]
  exact OfState.bind (readOwnedUnexpiredRow_ofState _ _ _) fun _ _ => OfState.ok _

theorem skip_miss (h : GrantInUnits grant) (hmiss : ¬ ReadsSafely table grant.key) :
    (withFencedWrite typeScript table () grant skip before after).mapError HostError.refusal =
      .error .invalid := by
  rw [withFencedWrite, (validateGrant_checks grant).run h, storeNowMs_run,
    readOwnedUnexpiredRow_of_miss hmiss]
  rfl

/-- The three agree on every write where they agree on the one that does nothing. -/
theorem withFencedWrite_agree_iff :
    (∀ (α ρ : Type) (data : α) (write : α → Except SqliteDesktopError (ρ × α)),
      Agree (SqliteDesktopCoordinator.withFencedWrite table data grant write before.reading
          after.reading)
        (withFencedWrite typeScript table data grant write before after)
        (withFencedWrite dart table data grant write before after)) ↔
      (GrantInUnits grant → GrantInBytes grant ∧ True ∧
        ReadsClock table grant before.reading after.reading ∧ ReadsSafely table grant.key) := by
  constructor
  · intro hagree
    refine (agree_iff GrantInBytes.inUnits Rust.skip_guarded
      { argument := withFencedWrite_argument
        state := skip_state
        agree := fun _ h hclock hsafe => withFencedWrite_agree h hclock
          fun row hrow => typeScript_reads (hsafe row hrow) }
      { argument := fun h => withFencedWrite_argument fun hgrant => h ⟨hgrant, trivial⟩
        state := fun h => skip_state h.1
        agree := fun _ h hclock _ => withFencedWrite_agree h hclock fun _ _ => rfl }
      fun h _ hmiss => skip_miss h hmiss).mp (hagree Unit Unit () skip)
  · intro hwhen α ρ data write
    by_cases h : GrantInUnits grant
    · obtain ⟨hgrant, -, hclock, hsafe⟩ := hwhen h
      exact ⟨withFencedWrite_agree hgrant hclock fun row hrow => typeScript_reads (hsafe row hrow),
        withFencedWrite_agree hgrant hclock fun _ _ => rfl⟩
    · have hrust : (SqliteDesktopCoordinator.withFencedWrite table data grant write before.reading
          after.reading).mapError refusalOf = .error .argument :=
        (Rust.validateGrant_checks grant).refuses_bind (fun hgrant => h hgrant.inUnits) _
      exact ⟨(withFencedWrite_argument h).trans hrust.symm,
        (withFencedWrite_argument h).trans hrust.symm⟩

end

/-- When the three coordinators agree, call by call. -/
theorem coordinators_agree_iff (table : CoordinationTable) (clock after : StoreClock) :
    (∀ key, Agree (SqliteDesktopCoordinator.signalWake table key clock.reading)
        (signalWake typeScript table key clock) (signalWake dart table key clock) ↔
      (InUnits key → InBytes key ∧ 0 ≤ clock.reading ∧ ReadsSafely table key)) ∧
    (∀ request, Agree (SqliteDesktopCoordinator.acquire table request clock.reading)
        (acquire typeScript table request clock) (acquire dart table request clock) ↔
      (RequestInUnits request → RequestInBytes request ∧ 0 ≤ clock.reading ∧
        ReadsSafely table request.key)) ∧
    (∀ grant leaseTtlMs,
      Agree (SqliteDesktopCoordinator.renew table grant leaseTtlMs clock.reading)
        (renew typeScript table grant leaseTtlMs clock)
        (renew dart table grant leaseTtlMs clock) ↔
      (GrantInUnits grant.desktopGrant ∧ InTtl leaseTtlMs →
        SqliteGrantInBytes grant ∧ IsDate grant ∧ 0 ≤ clock.reading)) ∧
    (∀ grant observed,
      Agree (SqliteDesktopCoordinator.complete table grant observed clock.reading)
        (complete typeScript table grant observed clock)
        (complete dart table grant observed clock) ↔
      (GrantInUnits grant.desktopGrant ∧ IsGeneration observed →
        SqliteGrantInBytes grant ∧ IsDate grant ∧ 0 ≤ clock.reading ∧
          ReadsSafely table grant.key)) ∧
    (∀ grant, Agree (SqliteDesktopCoordinator.releaseLease table grant clock.reading)
        (release typeScript table grant clock) (release dart table grant clock) ↔
      (GrantInUnits grant → GrantInBytes grant ∧ 0 ≤ clock.reading)) ∧
    ∀ grant, (∀ (α ρ : Type) (data : α) (write : α → Except SqliteDesktopError (ρ × α)),
      Agree (SqliteDesktopCoordinator.withFencedWrite table data grant write clock.reading
          after.reading)
        (withFencedWrite typeScript table data grant write clock after)
        (withFencedWrite dart table data grant write clock after)) ↔
      (GrantInUnits grant → GrantInBytes grant ∧
        ReadsClock table grant clock.reading after.reading ∧ ReadsSafely table grant.key) := by
  refine ⟨fun key => ?_, fun request => ?_, fun grant leaseTtlMs => ?_, fun grant observed => ?_,
    fun grant => ?_, fun grant => ?_⟩
  · simpa only [true_and] using signalWake_agree_iff
  · simpa only [true_and] using acquire_agree_iff
  · rw [renew_agree_iff]
    constructor
    · intro hwhen h
      obtain ⟨hargs, hdate, hnow, -⟩ := hwhen h
      exact ⟨hargs.1, hdate, hnow⟩
    · intro hwhen h
      obtain ⟨hgrant, hdate, hnow⟩ := hwhen h
      exact ⟨⟨hgrant, h.2⟩, hdate, hnow, trivial⟩
  · rw [complete_agree_iff]
    constructor
    · intro hwhen h
      obtain ⟨hargs, hrest⟩ := hwhen h
      exact ⟨hargs.1, hrest⟩
    · intro hwhen h
      obtain ⟨hgrant, hrest⟩ := hwhen h
      exact ⟨⟨hgrant, h.2⟩, hrest⟩
  · simpa only [true_and, and_true] using release_agree_iff
  · simpa only [true_and] using withFencedWrite_agree_iff

/-- A key of 300 letters and 600 bytes. -/
def accentedKey : String := String.ofList (List.replicate 300 'é')

def storeEpoch : StoreClock where
  reading := 0
  first := by decide
  last := by decide

theorem utf8Len_accented (n : ℕ) : String.utf8Len (List.replicate n 'é') = n * 2 := by
  induction n with
  | zero => rfl
  | succ n ih =>
    have hsize : 'é'.utf8Size = 2 := by decide
    rw [List.replicate_succ, String.utf8Len_cons, ih, hsize]
    omega

/-- The Rust crate refuses the key, and the hosts record its wake. -/
theorem long_key_disagrees :
    ¬ Agree (SqliteDesktopCoordinator.signalWake (fun _ => none) accentedKey storeEpoch.reading)
      (signalWake typeScript (fun _ => none) accentedKey storeEpoch)
      (signalWake dart (fun _ => none) accentedKey storeEpoch) := by
  rw [signalWake_agree_iff]
  intro hwhen
  have hletters : accentedKey.toList = List.replicate 300 'é' := String.toList_ofList
  have hunits : InUnits accentedKey := by
    have hbasic : ∀ c ∈ List.replicate 300 'é', c.toNat < 0x10000 := by
      intro c hc
      rw [List.eq_of_mem_replicate hc]
      decide
    constructor
    · rw [hletters, List.replicate_succ]
      exact List.cons_ne_nil _ _
    · rw [hletters, Utf16.encode_of_lt hbasic, List.length_map, List.length_replicate]
      omega
  have hsize : accentedKey.utf8ByteSize = 300 * 2 :=
    (String.utf8ByteSize_ofList _).trans (utf8Len_accented 300)
  have hbytes := (hwhen hunits).1.2
  omega

end OptoSync.Coordinator
