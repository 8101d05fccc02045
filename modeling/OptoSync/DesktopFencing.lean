import OptoSync.DesktopCoordinator
import OptoSync.FencedLease
import OptoSync.Transition

/-!
# Fencing of the desktop coordinator

Any number of processes call the coordinator of one database, with the clock readings of each call
free. The history records what committed, read off the arguments and the result of the call.
-/
namespace OptoSync
open FencedLease Transition SqliteDesktopCoordinator

/-- A call of one process; `write` is what the process does to the other tables of the database. -/
inductive CoordinatorCall (α ρ : Type)
  | signalWake (key : String)
  | acquire (request : SqliteDesktopAcquireRequest)
  | renew (grant : SqliteDesktopLeaseGrant) (leaseTtlMs : ℕ)
  | complete (grant : SqliteDesktopLeaseGrant) (observedWakeGeneration : String)
  | releaseLease (grant : DesktopLeaseGrant)
  | withFencedWrite (grant : DesktopLeaseGrant) (write : α → Except SqliteDesktopError (ρ × α))
  | assertCurrentFence (grant : DesktopLeaseGrant)
  | readState (key : String)

/-- `after` is the second reading of a fenced write. Without `commits` the process or its database
fails during the transaction. -/
structure CoordinatorStep (α ρ : Type) where
  call : CoordinatorCall α ρ
  before : ℤ
  after : ℤ
  commits : Bool

structure Coordination (α : Type) where
  table : CoordinationTable
  data : α
  history : List (Entry String String)

namespace Coordination

variable {α ρ : Type}

def initial (data : α) : Coordination α := { table := fun _ => none, data, history := [] }

def fenceNumber (fence : String) : ℕ :=
  match parseDecimal "fence" fence with
  | .ok n => n
  | .error _ => 0

def grantedLease (grant : SqliteDesktopLeaseGrant) : Lease String :=
  { token := grant.token, fence := fenceNumber grant.fence, expiresAt := grant.expiresAtMs }

def committed (grant : DesktopLeaseGrant) (readings : List ℤ) : Entry String String :=
  .committed grant.key grant.token (fenceNumber grant.fence) (readings.map Int.toNat)

def released (grant : DesktopLeaseGrant) : Entry String String :=
  .released grant.key grant.token (fenceNumber grant.fence)

/-- The transaction of a step, committed. -/
def perform (s : Coordination α) (e : CoordinatorStep α ρ) :
    Except SqliteDesktopError (Coordination α) := do
  match e.call with
  | .signalWake key =>
    let (_, table) ← signalWake s.table key e.before
    pure { s with table }
  | .acquire request =>
    match ← acquire s.table request e.before with
    | (.busy _, table) => pure { s with table }
    | (.acquired grant, table) =>
      pure { s with table, history := s.history ++ [.granted grant.key (grantedLease grant)] }
  | .renew grant leaseTtlMs =>
    match ← renew s.table grant leaseTtlMs e.before with
    | (none, table) => pure { s with table }
    | (some renewed, table) =>
      pure { s with table, history := s.history ++ [.renewed renewed.key (grantedLease renewed)] }
  | .complete grant observedWakeGeneration =>
    let (completion, table) ← complete s.table grant observedWakeGeneration e.before
    let history := s.history ++ [committed grant.desktopGrant [e.before]]
    pure { s with
      table
      history := if completion.released then history ++ [released grant.desktopGrant] else history }
  | .releaseLease grant =>
    let table ← releaseLease s.table grant e.before
    pure { s with table, history := s.history ++ [released grant] }
  | .withFencedWrite grant write =>
    let (_, data) ← withFencedWrite s.table s.data grant write e.before e.after
    pure { s with data, history := s.history ++ [committed grant [e.before, e.after]] }
  | .assertCurrentFence grant =>
    assertCurrentFence s.table grant e.before
    pure s
  | .readState key =>
    let (_, table) ← readState s.table key e.before
    pure { s with table }

def next (s : Coordination α) (e : CoordinatorStep α ρ) : Coordination α :=
  match perform s e with
  | .ok s' => if e.commits then s' else s
  | .error _ => s

end Coordination

def CoordinationRow.lease (row : CoordinationRow) : Option (Lease String) :=
  row.ownerToken.map fun token => { token, fence := row.fence, expiresAt := row.expiresAtMs }

namespace Coordination

variable {α ρ : Type}

structure Inv (s : Coordination α) : Prop where
  fenced : Fenced s.history
  lease : ∀ key, leaseAfter key s.history = (rowOf s.table key).lease
  granted : ∀ key, ∀ fence ∈ grantedFences key s.history, fence ≤ (rowOf s.table key).fence

theorem initial_inv (data : α) : (initial data).Inv := by
  constructor
  · exact fenced_nil
  · intro key
    rfl
  · intro key fence h
    simp [initial] at h

theorem fenceNumber_eq {fence : String} {n : ℕ} (h : parseDecimal "fence" fence = .ok n) :
    fenceNumber fence = n := by
  rw [fenceNumber, h]

theorem fenceNumber_repr {n : ℕ} (h : n ≤ Decimal.maxI64) : fenceNumber n.repr = n :=
  fenceNumber_eq (parseDecimal_repr h)

theorem storeNowMs_eq_ok {reading : ℤ} {nowMs : ℕ} (h : storeNowMs reading = .ok nowMs) :
    reading.toNat = nowMs := by
  unfold storeNowMs at h
  split at h
  · cases h
  · exact Except.ok.inj h

/-- A step that leaves owners, fences and expiries alone. -/
theorem Inv.of_same {s : Coordination α} (h : s.Inv) {table : CoordinationTable}
    (hlease : ∀ key, (rowOf table key).lease = (rowOf s.table key).lease)
    (hfence : ∀ key, (rowOf table key).fence = (rowOf s.table key).fence) :
    Inv { s with table } := by
  constructor
  · exact h.fenced
  · intro key
    exact (h.lease key).trans (hlease key).symm
  · intro key fence hm
    rw [hfence]
    exact h.granted key fence hm

/-- One more entry, against the row of its key before and after. -/
theorem Inv.append {s : Coordination α} (h : s.Inv) {table : CoordinationTable} {data : α}
    {entry : Entry String String} (hadmissible : Admissible s.history entry)
    (hlease : ∀ key, leaseStep key (rowOf s.table key).lease entry = (rowOf table key).lease)
    (hfence : ∀ key, (rowOf s.table key).fence ≤ (rowOf table key).fence)
    (hgranted : ∀ key fence, grantedFence key entry = some fence → fence ≤ (rowOf table key).fence) :
    Inv { table, data, history := s.history ++ [entry] } := by
  constructor
  · exact fenced_concat.mpr ⟨h.fenced, hadmissible⟩
  · intro key
    rw [leaseAfter_concat, h.lease, hlease]
  · intro key fence hm
    rw [grantedFences_concat, List.mem_append] at hm
    rcases hm with hm | hm
    · exact (h.granted key fence hm).trans (hfence key)
    · exact hgranted key fence (Option.mem_toList.mp hm)

/-- The row that a fenced statement found is the lease in force. -/
theorem Inv.inForce {s : Coordination α} (h : s.Inv) {key token : String} {row : CoordinationRow}
    (hrow : s.table key = some row) (htoken : row.ownerToken = some token) {readings : List ℕ}
    (hreadings : ∀ now ∈ readings, now < row.expiresAtMs) :
    InForce s.history key token row.fence readings := by
  have hlease : leaseAfter key s.history =
      some { token, fence := row.fence, expiresAt := row.expiresAtMs } := by
    rw [h.lease, rowOf_eq hrow, CoordinationRow.lease, htoken]
    rfl
  exact ⟨getLast_grantedFences hlease, _, hlease, ⟨rfl, rfl⟩, hreadings⟩

/-- A grant below a newer one does not carry the fence of the row. -/
theorem Inv.fence_ne {s : Coordination α} (h : s.Inv) {key : String} {row : CoordinationRow}
    (hrow : s.table key = some row) {fence newer : ℕ} (hnewer : newer ∈ grantedFences key s.history)
    (hlt : fence < newer) : row.fence ≠ fence := by
  have hle := h.granted key newer hnewer
  rw [rowOf_eq hrow] at hle
  omega

theorem Inv.acquired {s : Coordination α} (h : s.Inv) {request : SqliteDesktopAcquireRequest}
    {reading : ℤ} {grant : SqliteDesktopLeaseGrant} {table : CoordinationTable}
    (hok : acquire s.table request reading = .ok (.acquired grant, table)) :
    Inv { s with table, history := s.history ++ [.granted grant.key (grantedLease grant)] } := by
  obtain ⟨busy, hbusy, -⟩ | ⟨g, row, hg, htable, hkey, htoken, hfence, hexpires, -, howner, hnext,
    -, -⟩ := acquire_ok hok
  · cases hbusy
  · obtain rfl : grant = g := by injection hg
    have hnumber : fenceNumber grant.fence = row.fence := by
      rw [hfence, fenceNumber_repr row.fence_le]
    apply h.append
    · intro fence hm
      have hle := h.granted grant.key fence hm
      rw [hkey] at hle
      show fence < fenceNumber grant.fence
      omega
    · intro key
      rw [htable, rowOf_update, rowOf_ensureRow, leaseStep, hkey]
      by_cases hk : key = request.key
      · simp [hk, CoordinationRow.lease, howner, grantedLease, hnumber, hexpires, htoken]
      · simp [hk, Ne.symm hk]
    · intro key
      rw [htable, rowOf_update, rowOf_ensureRow]
      split
      · rename_i hk
        rw [hk]
        omega
      · exact le_rfl
    · intro key fence hgranted
      obtain ⟨lease, hentry, rfl⟩ := grantedFence_eq_some.mp hgranted
      obtain ⟨rfl, rfl⟩ : grant.key = key ∧ grantedLease grant = lease := by
        injection hentry with h1 h2
        exact ⟨h1, h2⟩
      rw [htable, rowOf_update, if_pos hkey]
      exact hnumber.le

theorem Inv.renewed {s : Coordination α} (h : s.Inv) {grant renewed : SqliteDesktopLeaseGrant}
    {leaseTtlMs : ℕ} {reading : ℤ} {table : CoordinationTable}
    (hok : renew s.table grant leaseTtlMs reading = .ok (some renewed, table)) :
    Inv { s with table, history := s.history ++ [.renewed renewed.key (grantedLease renewed)] } := by
  obtain ⟨hnone, -⟩ | ⟨row, fence, expiresAtMs, hfence, hrow, htoken, hrowFence, hrenewed, htable⟩ :=
    renew_ok hok
  · cases hnone
  · obtain rfl := Option.some.inj hrenewed
    have hnumber := fenceNumber_eq hfence
    apply h.append
    · trivial
    · intro key
      rw [htable, rowOf_update, leaseStep]
      by_cases hk : key = grant.key
      · simp [hk, CoordinationRow.lease, rowOf_eq hrow, htoken, grantedLease, hnumber, hrowFence,
          Lease.Matches]
      · simp [hk, Ne.symm hk]
    · intro key
      rw [htable, rowOf_update]
      split
      · rename_i hk
        rw [hk, rowOf_eq hrow]
      · exact le_rfl
    · intro key fence hgranted
      simp [grantedFence] at hgranted

/-- A release, by `release_lease` or at the end of a completion. -/
theorem Inv.released {s : Coordination α} (h : s.Inv) {grant : DesktopLeaseGrant}
    {row row' : CoordinationRow} (hrow : s.table grant.key = some row)
    (htoken : row.ownerToken = some grant.token) (hfence : row.fence = fenceNumber grant.fence)
    (howner : row'.ownerToken = none) (hsame : row'.fence = row.fence) :
    Inv { s with
      table := Function.update s.table grant.key (some row')
      history := s.history ++ [released grant] } := by
  apply h.append
  · trivial
  · intro key
    rw [rowOf_update, Coordination.released, leaseStep]
    by_cases hk : key = grant.key
    · simp [hk, CoordinationRow.lease, rowOf_eq hrow, htoken, howner, hfence, Lease.Matches]
    · simp [hk, Ne.symm hk]
  · intro key
    rw [rowOf_update]
    split
    · rename_i hk
      rw [hk, rowOf_eq hrow, hsame]
    · exact le_rfl
  · intro key fence hgranted
    simp [Coordination.released, grantedFence] at hgranted

theorem Inv.releaseLease {s : Coordination α} (h : s.Inv) {grant : DesktopLeaseGrant} {reading : ℤ}
    {table : CoordinationTable}
    (hok : SqliteDesktopCoordinator.releaseLease s.table grant reading = .ok table) :
    Inv { s with table, history := s.history ++ [Coordination.released grant] } := by
  obtain ⟨fence, hfence, ⟨rfl, hother⟩ | ⟨row, hrow, htoken, hrowFence, rfl⟩⟩ := releaseLease_ok hok
  · apply h.append
    · trivial
    · intro key
      rw [Coordination.released, leaseStep]
      split
      · rename_i hk
        subst hk
        cases hlease : (rowOf s.table grant.key).lease with
        | none => rfl
        | some lease =>
          obtain ⟨token, howner, rfl⟩ := Option.map_eq_some_iff.mp hlease
          apply Option.filter_eq_some_iff.mpr
          refine ⟨rfl, decide_eq_true ?_⟩
          rintro ⟨rfl, he⟩
          cases hrow : s.table grant.key with
          | none => simp [rowOf, hrow, emptyRow] at howner
          | some row =>
            rw [rowOf_eq hrow] at howner he
            exact hother row hrow ⟨howner, he.trans (fenceNumber_eq hfence)⟩
      · rfl
    · intro key
      exact le_rfl
    · intro key fence hgranted
      simp [Coordination.released, grantedFence] at hgranted
  · exact h.released hrow htoken (hrowFence.trans (fenceNumber_eq hfence).symm) rfl rfl

/-- A statement that found its row under the lease in force and left the lease alone. -/
theorem Inv.committed {s : Coordination α} (h : s.Inv) {grant : DesktopLeaseGrant}
    {row row' : CoordinationRow} (hrow : s.table grant.key = some row)
    (htoken : row.ownerToken = some grant.token) (hfence : row.fence = fenceNumber grant.fence)
    {readings : List ℤ} (hreadings : ∀ reading ∈ readings, reading.toNat < row.expiresAtMs)
    (hlease : row'.lease = row.lease) (hsame : row'.fence = row.fence) (data : α) :
    Inv { s with
      table := Function.update s.table grant.key (some row')
      data
      history := s.history ++ [committed grant readings] } := by
  apply h.append
  · have hunexpired : ∀ now ∈ readings.map Int.toNat, now < row.expiresAtMs := by
      intro now hnow
      obtain ⟨reading, hmem, rfl⟩ := List.mem_map.mp hnow
      exact hreadings reading hmem
    have hinForce := h.inForce hrow htoken hunexpired
    rwa [hfence] at hinForce
  · intro key
    rw [rowOf_update, Coordination.committed, leaseStep]
    split
    · rename_i hk
      rw [hk, rowOf_eq hrow, hlease]
    · rfl
  · intro key
    rw [rowOf_update]
    split
    · rename_i hk
      rw [hk, rowOf_eq hrow, hsame]
    · exact le_rfl
  · intro key fence hgranted
    simp [Coordination.committed, grantedFence] at hgranted

theorem Inv.completed {s : Coordination α} (h : s.Inv) {grant : SqliteDesktopLeaseGrant}
    {observedWakeGeneration : String} {reading : ℤ} {completion : SqliteDesktopCompletion}
    {table : CoordinationTable}
    (hok : complete s.table grant observedWakeGeneration reading = .ok (completion, table)) :
    let history := s.history ++ [Coordination.committed grant.desktopGrant [reading]]
    Inv { s with
      table
      history :=
        if completion.released then history ++ [Coordination.released grant.desktopGrant]
        else history } := by
  obtain ⟨row, row', observed, fence, nowMs, -, hfence, hnow, hrow, htoken, hrowFence, hexpires, -,
    -, -, -, rfl, -, -, hsame, howner, hexpires'⟩ := complete_ok hok
  have hnumber : row.fence = fenceNumber grant.fence := hrowFence.trans (fenceNumber_eq hfence).symm
  have hreadings : ∀ r ∈ [reading], r.toNat < row.expiresAtMs := by
    intro r hr
    rw [List.mem_singleton.mp hr, storeNowMs_eq_ok hnow]
    exact hexpires
  have hgrant : s.table grant.desktopGrant.key = some row := hrow
  intro history
  cases hreleased : completion.released with
  | false =>
    rw [hreleased] at howner hexpires'
    have hlease : row'.lease = row.lease := by
      simp [CoordinationRow.lease, howner, hexpires', hsame]
    exact h.committed hgrant htoken hnumber hreadings hlease hsame s.data
  | true =>
    rw [hreleased] at howner
    have hcommitted := h.committed hgrant htoken hnumber hreadings (rfl : row.lease = row.lease) rfl
      s.data
    have hstored : Function.update s.table grant.desktopGrant.key (some row) grant.desktopGrant.key =
        some row := Function.update_self ..
    have h' := hcommitted.released hstored htoken hnumber howner hsame
    rw [Function.update_idem] at h'
    exact h'

theorem Inv.written {s : Coordination α} (h : s.Inv) {grant : DesktopLeaseGrant}
    {write : α → Except SqliteDesktopError (ρ × α)} {before after : ℤ} {result : ρ} {data : α}
    (hok : withFencedWrite s.table s.data grant write before after = .ok (result, data)) :
    Inv { s with data, history := s.history ++ [Coordination.committed grant [before, after]] } := by
  obtain ⟨fence, beforeMs, afterMs, row, hfence, hbefore, hafter, hrow, htoken, hrowFence, hb, ha,
    -⟩ := withFencedWrite_ok hok
  have hreadings : ∀ r ∈ [before, after], r.toNat < row.expiresAtMs := by
    intro r hr
    rcases List.mem_pair.mp hr with rfl | rfl
    · rwa [storeNowMs_eq_ok hbefore]
    · rwa [storeNowMs_eq_ok hafter]
  have h' := h.committed hrow htoken (hrowFence.trans (fenceNumber_eq hfence).symm) hreadings
    (rfl : row.lease = row.lease) rfl data
  rwa [Function.update_eq_self_iff.mpr hrow.symm] at h'

theorem Inv.perform {s s' : Coordination α} (h : s.Inv) {e : CoordinatorStep α ρ}
    (hok : Coordination.perform s e = .ok s') : s'.Inv := by
  unfold Coordination.perform at hok
  cases hcall : e.call with
  | signalWake key =>
    simp only [hcall, bind_eq_ok] at hok
    obtain ⟨⟨receipt, table⟩, hsignal, hok⟩ := hok
    obtain rfl := Except.ok.inj hok
    obtain ⟨row, rfl, -, howner, hfence, hexpires, -, -⟩ := signalWake_ok hsignal
    apply h.of_same
    · intro k
      by_cases hk : k = key
      · simp [hk, CoordinationRow.lease, howner, hfence, hexpires]
      · simp [hk]
    · intro k
      by_cases hk : k = key
      · simp [hk, hfence]
      · simp [hk]
  | acquire request =>
    simp only [hcall, bind_eq_ok] at hok
    obtain ⟨⟨result, table⟩, hacquire, hok⟩ := hok
    cases result with
    | busy busy =>
      obtain rfl := Except.ok.inj hok
      obtain ⟨-, -, rfl⟩ | ⟨grant, row, hgrant, -⟩ := acquire_ok hacquire
      · exact h.of_same (by simp) (by simp)
      · cases hgrant
    | acquired grant =>
      obtain rfl := Except.ok.inj hok
      exact h.acquired hacquire
  | renew grant leaseTtlMs =>
    simp only [hcall, bind_eq_ok] at hok
    obtain ⟨⟨result, table⟩, hrenew, hok⟩ := hok
    cases result with
    | none =>
      obtain rfl := Except.ok.inj hok
      obtain ⟨-, rfl⟩ | ⟨row, fence, expiresAtMs, -, -, -, -, hsome, -⟩ := renew_ok hrenew
      · exact h
      · cases hsome
    | some renewed =>
      obtain rfl := Except.ok.inj hok
      exact h.renewed hrenew
  | complete grant observedWakeGeneration =>
    simp only [hcall, bind_eq_ok] at hok
    obtain ⟨⟨completion, table⟩, hcomplete, hok⟩ := hok
    obtain rfl := Except.ok.inj hok
    exact h.completed hcomplete
  | releaseLease grant =>
    simp only [hcall, bind_eq_ok] at hok
    obtain ⟨table, hrelease, hok⟩ := hok
    obtain rfl := Except.ok.inj hok
    exact h.releaseLease hrelease
  | withFencedWrite grant write =>
    simp only [hcall, bind_eq_ok] at hok
    obtain ⟨⟨result, data⟩, hwrite, hok⟩ := hok
    obtain rfl := Except.ok.inj hok
    exact h.written hwrite
  | assertCurrentFence grant =>
    simp only [hcall, bind_eq_ok] at hok
    obtain ⟨-, -, hok⟩ := hok
    obtain rfl := Except.ok.inj hok
    exact h
  | readState key =>
    simp only [hcall, bind_eq_ok] at hok
    obtain ⟨⟨state, table⟩, hread, hok⟩ := hok
    obtain rfl := Except.ok.inj hok
    rw [readState_ok hread]
    exact h.of_same (by simp) (by simp)

theorem Inv.next {s : Coordination α} (h : s.Inv) (e : CoordinatorStep α ρ) :
    (Coordination.next s e).Inv := by
  unfold Coordination.next
  split
  · rename_i s' hok
    split
    · exact h.perform hok
    · exact h
  · exact h

/-- What other tables hold changes with a committed fenced write only. -/
theorem data_of_perform {s s' : Coordination α} {e : CoordinatorStep α ρ}
    (hok : Coordination.perform s e = .ok s') (hdata : s'.data ≠ s.data) :
    ∃ grant, s'.history = s.history ++ [Coordination.committed grant [e.before, e.after]] := by
  unfold Coordination.perform at hok
  cases hcall : e.call with
  | withFencedWrite grant write =>
    simp only [hcall, bind_eq_ok] at hok
    obtain ⟨⟨result, data⟩, -, hok⟩ := hok
    obtain rfl := Except.ok.inj hok
    exact ⟨grant, rfl⟩
  | acquire request =>
    simp only [hcall, bind_eq_ok] at hok
    obtain ⟨⟨result, table⟩, -, hok⟩ := hok
    cases result <;> obtain rfl := Except.ok.inj hok <;> exact absurd rfl hdata
  | renew grant leaseTtlMs =>
    simp only [hcall, bind_eq_ok] at hok
    obtain ⟨⟨result, table⟩, -, hok⟩ := hok
    cases result <;> obtain rfl := Except.ok.inj hok <;> exact absurd rfl hdata
  | signalWake key =>
    simp only [hcall, bind_eq_ok] at hok
    obtain ⟨result, -, hok⟩ := hok
    obtain rfl := Except.ok.inj hok
    exact absurd rfl hdata
  | complete grant observedWakeGeneration =>
    simp only [hcall, bind_eq_ok] at hok
    obtain ⟨result, -, hok⟩ := hok
    obtain rfl := Except.ok.inj hok
    exact absurd rfl hdata
  | releaseLease grant =>
    simp only [hcall, bind_eq_ok] at hok
    obtain ⟨result, -, hok⟩ := hok
    obtain rfl := Except.ok.inj hok
    exact absurd rfl hdata
  | assertCurrentFence grant =>
    simp only [hcall, bind_eq_ok] at hok
    obtain ⟨result, -, hok⟩ := hok
    obtain rfl := Except.ok.inj hok
    exact absurd rfl hdata
  | readState key =>
    simp only [hcall, bind_eq_ok] at hok
    obtain ⟨result, -, hok⟩ := hok
    obtain rfl := Except.ok.inj hok
    exact absurd rfl hdata

theorem data_of_next {s : Coordination α} {e : CoordinatorStep α ρ}
    (hdata : (Coordination.next s e).data ≠ s.data) :
    ∃ grant, (Coordination.next s e).history =
      s.history ++ [Coordination.committed grant [e.before, e.after]] := by
  unfold Coordination.next at hdata ⊢
  cases hok : Coordination.perform s e with
  | error error => simp [hok] at hdata
  | ok s' =>
    cases hcommits : e.commits with
    | false => simp [hok, hcommits] at hdata
    | true =>
      simp only [hok, hcommits, if_true] at hdata ⊢
      exact data_of_perform hok hdata

/-- The calls that end a lease. -/
def Ends (grant : DesktopLeaseGrant) : CoordinatorCall α ρ → Prop
  | .releaseLease released => released = grant
  | .complete completed _ => completed.desktopGrant = grant
  | _ => False

theorem Inv.table_of_ends {s : Coordination α} (h : s.Inv) {grant : DesktopLeaseGrant}
    {e : CoordinatorStep α ρ} (hends : Ends grant e.call) {newer : ℕ}
    (hnewer : newer ∈ grantedFences grant.key s.history)
    (hlt : fenceNumber grant.fence < newer) : (Coordination.next s e).table = s.table := by
  unfold Coordination.next
  cases hok : Coordination.perform s e with
  | error error => rfl
  | ok s' =>
    suffices htable : s'.table = s.table by
      cases e.commits with
      | false => rfl
      | true => exact htable
    unfold Coordination.perform at hok
    cases hcall : e.call with
    | releaseLease released =>
      simp only [hcall, bind_eq_ok] at hok
      obtain rfl : released = grant := by simpa [hcall, Ends] using hends
      obtain ⟨table, hrelease, hok⟩ := hok
      obtain rfl := Except.ok.inj hok
      obtain ⟨fence, hfence, ⟨rfl, -⟩ | ⟨row, hrow, -, hrowFence, -⟩⟩ := releaseLease_ok hrelease
      · rfl
      · rw [fenceNumber_eq hfence] at hlt
        exact absurd hrowFence (h.fence_ne hrow hnewer hlt)
    | complete completed observedWakeGeneration =>
      simp only [hcall, bind_eq_ok] at hok
      obtain rfl : completed.desktopGrant = grant := by simpa [hcall, Ends] using hends
      obtain ⟨⟨completion, table⟩, hcomplete, -⟩ := hok
      obtain ⟨row, -, -, fence, -, -, hfence, -, hrow, -, hrowFence, -⟩ := complete_ok hcomplete
      rw [SqliteDesktopLeaseGrant.desktopGrant, fenceNumber_eq hfence] at hlt
      exact absurd hrowFence (h.fence_ne hrow hnewer hlt)
    | signalWake key => simp [hcall, Ends] at hends
    | acquire request => simp [hcall, Ends] at hends
    | renew renewed leaseTtlMs => simp [hcall, Ends] at hends
    | withFencedWrite written write => simp [hcall, Ends] at hends
    | assertCurrentFence asserted => simp [hcall, Ends] at hends
    | readState key => simp [hcall, Ends] at hends

/-- In every interleaving, for each lease key: the fences granted increase; every commit is under
the lease in force at its readings, and nothing else changes the data; the fences committed never
decrease; the holder of an older fence that releases or completes changes no row. -/
theorem run_fenced (data : α) (es : List (CoordinatorStep α ρ)) :
    let s := run Coordination.next (initial data) es
    (∀ key, (grantedFences key s.history).Pairwise (· < ·)) ∧
    (∀ before key token fence readings after,
      s.history = before ++ .committed key token fence readings :: after →
        InForce before key token fence readings) ∧
    (∀ e : CoordinatorStep α ρ, (Coordination.next s e).data ≠ s.data →
      ∃ grant, (Coordination.next s e).history =
        s.history ++ [Coordination.committed grant [e.before, e.after]]) ∧
    (∀ key, (committedFences key s.history).Pairwise (· ≤ ·)) ∧
    ∀ grant (e : CoordinatorStep α ρ), Ends grant e.call →
      ∀ newer ∈ grantedFences grant.key s.history, fenceNumber grant.fence < newer →
        (Coordination.next s e).table = s.table := by
  intro s
  have h : s.Inv := run_invariant (fun s e h => h.next e) (initial_inv data) es
  refine ⟨h.fenced.grants_increasing, ?_, fun e => data_of_next, h.fenced.commits_nondecreasing,
    fun grant e hends newer hnewer hlt => h.table_of_ends hends hnewer hlt⟩
  intro before key token fence readings after hhistory
  exact h.fenced before _ after hhistory

end Coordination
end OptoSync
