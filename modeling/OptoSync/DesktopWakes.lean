import OptoSync.DesktopRunner

/-!
# No wake is lost

A completion moves the handled generation only as far as the wake generation that its cycle started
from, so a wake signalled during the cycle stays unhandled.
-/
namespace OptoSync
open Transition SqliteDesktopCoordinator

variable {ρ ε : Type}

def wakeOf (table : CoordinationTable) (key : String) : ℕ := (rowOf table key).wakeGeneration
def handledOf (table : CoordinationTable) (key : String) : ℕ := (rowOf table key).handledGeneration

theorem handledOf_le (table : CoordinationTable) (key : String) :
    handledOf table key ≤ wakeOf table key :=
  (rowOf table key).handled_le

def SameWakes (table table' : CoordinationTable) : Prop :=
  ∀ key, wakeOf table' key = wakeOf table key ∧ handledOf table' key = handledOf table key

theorem SameWakes.refl (table : CoordinationTable) : SameWakes table table := fun _ => ⟨rfl, rfl⟩

theorem sameWakes_ensureRow (table : CoordinationTable) (key : String) :
    SameWakes table (ensureRow table key) := by
  intro k
  simp [wakeOf, handledOf]

theorem sameWakes_update {table : CoordinationTable} {key : String} {row : CoordinationRow}
    (hwake : row.wakeGeneration = wakeOf table key)
    (hhandled : row.handledGeneration = handledOf table key) :
    SameWakes table (Function.update table key (some row)) := by
  intro k
  by_cases hk : k = key
  · simp [wakeOf, handledOf, hk, hwake, hhandled]
  · simp [wakeOf, handledOf, hk]

theorem sameWakes_acquire {table table' : CoordinationTable} {request : SqliteDesktopAcquireRequest}
    {reading : ℤ} {result : SqliteDesktopAcquireResult}
    (hok : acquire table request reading = .ok (result, table')) : SameWakes table table' := by
  obtain ⟨-, -, rfl⟩ | ⟨-, row, -, rfl, -, -, -, -, -, -, -, hwake, hhandled⟩ := acquire_ok hok
  · exact sameWakes_ensureRow table request.key
  · intro k
    by_cases hk : k = request.key
    · simp [wakeOf, handledOf, hk, hwake, hhandled]
    · simp [wakeOf, handledOf, hk]

theorem sameWakes_renew {table table' : CoordinationTable} {grant : SqliteDesktopLeaseGrant}
    {leaseTtlMs : ℕ} {reading : ℤ} {result : Option SqliteDesktopLeaseGrant}
    (hok : renew table grant leaseTtlMs reading = .ok (result, table')) :
    SameWakes table table' := by
  obtain ⟨-, rfl⟩ | ⟨row, -, -, -, hrow, -, -, -, rfl⟩ := renew_ok hok
  · exact SameWakes.refl _
  · apply sameWakes_update
    · simp [wakeOf, rowOf_eq hrow]
    · simp [handledOf, rowOf_eq hrow]

theorem sameWakes_releaseLease {table table' : CoordinationTable} {grant : DesktopLeaseGrant}
    {reading : ℤ} (hok : releaseLease table grant reading = .ok table') :
    SameWakes table table' := by
  obtain ⟨-, -, ⟨rfl, -⟩ | ⟨row, hrow, -, -, rfl⟩⟩ := releaseLease_ok hok
  · exact SameWakes.refl _
  · apply sameWakes_update
    · simp [wakeOf, rowOf_eq hrow]
    · simp [handledOf, rowOf_eq hrow]

theorem signalWake_wakes {table table' : CoordinationTable} {key : String} {reading : ℤ}
    {receipt : SqliteDesktopWakeReceipt}
    (hok : signalWake table key reading = .ok (receipt, table')) :
    generationNumber receipt.generation = wakeOf table key + 1 ∧
      (∀ k, wakeOf table' k = if k = key then wakeOf table key + 1 else wakeOf table k) ∧
      ∀ k, handledOf table' k = handledOf table k := by
  obtain ⟨row, rfl, hgeneration, -, -, -, hwake, hhandled⟩ := signalWake_ok hok
  refine ⟨?_, ?_, ?_⟩
  · rw [hgeneration, generationNumber, parseDecimal_repr row.wake_le]
    exact hwake
  · intro k
    by_cases hk : k = key
    · simp [wakeOf, hk, hwake]
    · simp [wakeOf, hk]
  · intro k
    by_cases hk : k = key
    · simp [handledOf, hk, hhandled]
    · simp [handledOf, hk]

/-- A completion under the observed generation `w`. -/
theorem complete_wakes {table table' : CoordinationTable} {grant : SqliteDesktopLeaseGrant}
    {reading : ℤ} {completion : SqliteDesktopCompletion} {w : ℕ}
    (hle : w ≤ wakeOf table grant.key)
    (hok : complete table grant w.repr reading = .ok (completion, table')) :
    completion.currentWakeGeneration = (wakeOf table grant.key).repr ∧
      (∀ k, wakeOf table' k = wakeOf table k) ∧
      ∀ k, handledOf table' k =
        if k = grant.key then max w (handledOf table grant.key) else handledOf table k := by
  obtain ⟨row, row', observed, -, -, hobserved, -, -, hrow, -, -, -, -, -, hcurrent, -, rfl,
    hhandled, hwake, -, -, -⟩ := complete_ok hok
  obtain rfl : w = observed := by
    rw [parseDecimal_repr (hle.trans (rowOf table grant.key).wake_le)] at hobserved
    exact Except.ok.inj hobserved
  refine ⟨by rw [hcurrent, wakeOf, rowOf_eq hrow], ?_, ?_⟩
  · intro k
    by_cases hk : k = grant.key
    · simp [wakeOf, hk, hwake, rowOf_eq hrow]
    · simp [wakeOf, hk]
  · intro k
    by_cases hk : k = grant.key
    · simp [handledOf, hk, hhandled, rowOf_eq hrow]
    · simp [handledOf, hk]

/-- A cycle that observed `w` started, and every wake up to `w` was signalled before. -/
def Started (log : List RunMark) (n i : ℕ) (key : String) (w : ℕ) : Prop :=
  .cycleStarted n i key w ∈ log ∧
    ∀ g, 1 ≤ g → g ≤ w → [.signalled key g, .cycleStarted n i key w].Sublist log

def Succeeded (log : List RunMark) (n i : ℕ) (key : String) (w : ℕ) : Prop :=
  [.cycleStarted n i key w, .cycleSucceeded n i].Sublist log ∧
    ∀ g, 1 ≤ g → g ≤ w →
      [.signalled key g, .cycleStarted n i key w, .cycleSucceeded n i].Sublist log

/-- A successful cycle started after the wake was signalled. -/
def Covered (log : List RunMark) (key : String) (g : ℕ) : Prop :=
  ∃ n i w, g ≤ w ∧
    [.signalled key g, .cycleStarted n i key w, .cycleSucceeded n i].Sublist log

theorem Started.succeeded {log : List RunMark} {n i : ℕ} {key : String} {w : ℕ}
    (h : Started log n i key w) : Succeeded (log ++ [.cycleSucceeded n i]) n i key w := by
  constructor
  · exact (List.singleton_sublist.mpr h.1).append (List.Sublist.refl [RunMark.cycleSucceeded n i])
  · intro g hpos hle
    exact (h.2 g hpos hle).append (List.Sublist.refl [RunMark.cycleSucceeded n i])

theorem Started.append {log : List RunMark} {n i : ℕ} {key : String} {w : ℕ}
    (h : Started log n i key w) (marks : List RunMark) : Started (log ++ marks) n i key w := by
  constructor
  · exact List.mem_append_left marks h.1
  · intro g hpos hle
    exact (h.2 g hpos hle).trans (List.sublist_append_left log marks)

theorem Succeeded.append {log : List RunMark} {n i : ℕ} {key : String} {w : ℕ}
    (h : Succeeded log n i key w) (marks : List RunMark) : Succeeded (log ++ marks) n i key w := by
  constructor
  · exact h.1.trans (List.sublist_append_left log marks)
  · intro g hpos hle
    exact (h.2 g hpos hle).trans (List.sublist_append_left log marks)

theorem Covered.append {log : List RunMark} {key : String} {g : ℕ} (h : Covered log key g)
    (marks : List RunMark) : Covered (log ++ marks) key g := by
  obtain ⟨n, i, w, hle, hsub⟩ := h
  exact ⟨n, i, w, hle, hsub.trans (List.sublist_append_left log marks)⟩

/-- The log against the table: every generation was signalled, every handled one is covered. -/
structure WakesLogged (table : CoordinationTable) (log : List RunMark) : Prop where
  signalled : ∀ key g, .signalled key g ∈ log ↔ 1 ≤ g ∧ g ≤ wakeOf table key
  handled : ∀ key g, 1 ≤ g → g ≤ handledOf table key → Covered log key g

theorem WakesLogged.same {table table' : CoordinationTable} {log : List RunMark}
    (h : WakesLogged table log) (hsame : SameWakes table table') {marks : List RunMark}
    (hmarks : ∀ key g, .signalled key g ∉ marks) : WakesLogged table' (log ++ marks) := by
  constructor
  · intro key g
    rw [List.mem_append, h.signalled, (hsame key).1]
    simp [hmarks key g]
  · intro key g hpos hle
    rw [(hsame key).2] at hle
    exact (h.handled key g hpos hle).append marks

theorem WakesLogged.signal {table table' : CoordinationTable} {log : List RunMark}
    (h : WakesLogged table log) {key : String} {reading : ℤ} {receipt : SqliteDesktopWakeReceipt}
    (hok : signalWake table key reading = .ok (receipt, table')) :
    WakesLogged table' (log ++ [.signalled key (generationNumber receipt.generation)]) := by
  obtain ⟨hgeneration, hwake, hhandled⟩ := signalWake_wakes hok
  constructor
  · intro k g
    rw [List.mem_append, h.signalled, hwake, List.mem_singleton, hgeneration, RunMark.signalled.injEq]
    by_cases hk : k = key
    · simp only [hk, if_true, true_and]
      omega
    · simp [hk]
  · intro k g hpos hle
    rw [hhandled] at hle
    exact (h.handled k g hpos hle).append _

theorem WakesLogged.complete {table table' : CoordinationTable} {log : List RunMark}
    (h : WakesLogged table log) {grant : SqliteDesktopLeaseGrant} {reading : ℤ}
    {completion : SqliteDesktopCompletion} {n i w : ℕ} (hle : w ≤ wakeOf table grant.key)
    (hsucceeded : Succeeded log n i grant.key w)
    (hok : SqliteDesktopCoordinator.complete table grant w.repr reading = .ok (completion, table')) :
    WakesLogged table' log := by
  obtain ⟨-, hwake, hhandled⟩ := complete_wakes hle hok
  constructor
  · intro key g
    rw [h.signalled, hwake]
  · intro key g hpos hg
    rw [hhandled] at hg
    split at hg
    · rename_i hk
      subst hk
      rcases le_max_iff.mp hg with hg | hg
      · exact ⟨n, i, w, hg, hsucceeded.2 g hpos hg⟩
      · exact h.handled _ g hpos hg
    · exact h.handled key g hpos hg

/-- The grant of a run was read with a wake generation that the row had. -/
structure Observed (table : CoordinationTable) (key : String) (grant : SqliteDesktopLeaseGrant)
    (w : ℕ) : Prop where
  keyed : grant.key = key
  generation : grant.wakeGeneration = w.repr
  le : w ≤ wakeOf table key

theorem Observed.number {table : CoordinationTable} {key : String} {grant : SqliteDesktopLeaseGrant}
    {w : ℕ} (h : Observed table key grant w) : generationNumber grant.wakeGeneration = w := by
  rw [h.generation, generationNumber, parseDecimal_repr (h.le.trans (rowOf table key).wake_le)]

def Grows (table table' : CoordinationTable) : Prop := ∀ key, wakeOf table key ≤ wakeOf table' key

theorem SameWakes.grows {table table' : CoordinationTable} (h : SameWakes table table') :
    Grows table table' := fun key => (h key).1.ge

theorem grows_signalWake {table table' : CoordinationTable} {key : String} {reading : ℤ}
    {receipt : SqliteDesktopWakeReceipt}
    (hok : signalWake table key reading = .ok (receipt, table')) : Grows table table' := by
  intro k
  rw [(signalWake_wakes hok).2.1]
  split
  · rename_i hk
    rw [hk]
    omega
  · exact le_rfl

theorem Observed.mono {table table' : CoordinationTable} {key : String}
    {grant : SqliteDesktopLeaseGrant} {w : ℕ} (h : Observed table key grant w)
    (hgrows : Grows table table') : Observed table' key grant w :=
  ⟨h.keyed, h.generation, h.le.trans (hgrows key)⟩

/-- What a run knows where it stands. -/
def RunInv (table : CoordinationTable) (log : List RunMark) (n : ℕ) (r : WakeAndRun ρ ε) : Prop :=
  match r.phase with
  | .starting grant => ∃ w, Observed table r.runner.leaseKey grant w
  | .cycling context =>
    ∃ w, Observed table r.runner.leaseKey context.grant w ∧
      Started log n r.completed.length r.runner.leaseKey w
  | .completing grant _ =>
    ∃ w, Observed table r.runner.leaseKey grant w ∧
      Succeeded log n r.completed.length r.runner.leaseKey w
  | .renewing grant completion =>
    grant.key = r.runner.leaseKey ∧
      ∃ w, completion.currentWakeGeneration = w.repr ∧ w ≤ wakeOf table r.runner.leaseKey
  | _ => True

theorem RunInv.mono {table table' : CoordinationTable} {log : List RunMark} {n : ℕ}
    {r : WakeAndRun ρ ε} (h : RunInv table log n r) (hgrows : Grows table table')
    (marks : List RunMark) : RunInv table' (log ++ marks) n r := by
  unfold RunInv at h ⊢
  cases hphase : r.phase with
  | starting grant =>
    simp only [hphase] at h ⊢
    obtain ⟨w, hobserved⟩ := h
    exact ⟨w, hobserved.mono hgrows⟩
  | cycling context =>
    simp only [hphase] at h ⊢
    obtain ⟨w, hobserved, hstarted⟩ := h
    exact ⟨w, hobserved.mono hgrows, hstarted.append marks⟩
  | completing grant result =>
    simp only [hphase] at h ⊢
    obtain ⟨w, hobserved, hsucceeded⟩ := h
    exact ⟨w, hobserved.mono hgrows, hsucceeded.append marks⟩
  | renewing grant completion =>
    simp only [hphase] at h ⊢
    obtain ⟨hkey, w, hw, hle⟩ := h
    exact ⟨hkey, w, hw, hle.trans (hgrows _)⟩
  | signalling => trivial
  | acquiring => trivial
  | sleeping delayMs => trivial
  | releasing grant error => trivial
  | returned result => trivial

theorem attempt_eq_ok {β : Type} {fails : Bool} {transaction : Except SqliteDesktopError β} {b : β}
    (h : attempt fails transaction = .ok b) : transaction = .ok b := by
  unfold attempt at h
  split at h
  · cases h
  · exact h

/-- The handled generation moves up only, to where a cycle that succeeded had started from. -/
def Advances (log : List RunMark) (table table' : CoordinationTable) : Prop :=
  ∀ key, handledOf table' key ≠ handledOf table key →
    handledOf table key < handledOf table' key ∧
      ∃ n i, [.cycleStarted n i key (handledOf table' key), .cycleSucceeded n i].Sublist log

theorem advances_of_handled {table table' : CoordinationTable} (log : List RunMark)
    (h : ∀ key, handledOf table' key = handledOf table key) : Advances log table table' :=
  fun key hne => absurd (h key) hne

theorem advances_complete {table table' : CoordinationTable} {log : List RunMark}
    {grant : SqliteDesktopLeaseGrant} {reading : ℤ} {completion : SqliteDesktopCompletion}
    {n i w : ℕ} (hle : w ≤ wakeOf table grant.key) (hsucceeded : Succeeded log n i grant.key w)
    (hok : complete table grant w.repr reading = .ok (completion, table')) :
    Advances log table table' := by
  obtain ⟨-, -, hhandled⟩ := complete_wakes hle hok
  intro key hne
  rw [hhandled] at hne ⊢
  split at hne
  · rename_i hk
    subst hk
    have hlt : handledOf table grant.key < w := by
      by_contra hge
      exact hne (max_eq_right (Nat.not_lt.mp hge))
    rw [if_pos rfl, max_eq_left hlt.le]
    exact ⟨hlt, n, i, hsucceeded.1⟩
  · exact absurd rfl hne

/-- What one step of a run preserves. -/
structure Kept (log : List RunMark) (n : ℕ) (table : CoordinationTable)
    (out : CoordinationTable × WakeAndRun ρ ε × List RunMark) : Prop where
  logged : WakesLogged out.1 (log ++ out.2.2)
  run : RunInv out.1 (log ++ out.2.2) n out.2.1
  grows : Grows table out.1
  advances : Advances log table out.1

/-- A step that leaves the generations alone and signals nothing. -/
theorem WakesLogged.kept {table table' : CoordinationTable} {log : List RunMark} {n : ℕ}
    (h : WakesLogged table log) (hsame : SameWakes table table') {r' : WakeAndRun ρ ε}
    {marks : List RunMark} (hmarks : ∀ key g, .signalled key g ∉ marks)
    (hrun : RunInv table' (log ++ marks) n r') : Kept log n table (table', r', marks) :=
  ⟨h.same hsame hmarks, hrun, hsame.grows, advances_of_handled log fun key => (hsame key).2⟩

theorem kept_step {table : CoordinationTable} {log : List RunMark} {n : ℕ} {r : WakeAndRun ρ ε}
    (h : WakesLogged table log) (hrun : RunInv table log n r) (input : RunInput ρ ε) :
    Kept log n table (r.step n table input) := by
  have hfail : ∀ error, Kept log n table (table, r.fail error, []) := fun error =>
    h.kept (SameWakes.refl table) (by simp) trivial
  unfold WakeAndRun.step
  unfold RunInv at hrun
  cases hphase : r.phase with
  | signalling =>
    dsimp only
    split
    · exact hfail _
    · rename_i receipt table' hok
      have hsignal := attempt_eq_ok hok
      exact ⟨h.signal hsignal, trivial, grows_signalWake hsignal,
        advances_of_handled log (signalWake_wakes hsignal).2.2⟩
  | acquiring =>
    dsimp only
    split
    · exact hfail _
    · rename_i grant table' hok
      have hacquire := attempt_eq_ok hok
      refine h.kept (sameWakes_acquire hacquire) (by simp) ?_
      obtain ⟨busy, hbusy, -⟩ | ⟨g, row, hg, rfl, hkey, -, -, -, hgeneration, -, -, -, -⟩ :=
        acquire_ok hacquire
      · cases hbusy
      · obtain rfl : grant = g := by injection hg
        refine ⟨row.wakeGeneration, hkey, hgeneration, ?_⟩
        simp [wakeOf, WakeAndRun.request]
    · rename_i busy table' hok
      refine h.kept (sameWakes_acquire (attempt_eq_ok hok)) (by simp) ?_
      unfold WakeAndRun.onBusy
      split <;> trivial
  | sleeping delayMs => exact h.kept (SameWakes.refl table) (by simp) trivial
  | starting grant =>
    simp only [hphase] at hrun
    obtain ⟨w, hobserved⟩ := hrun
    dsimp only
    split
    · exact hfail _
    · refine h.kept (SameWakes.refl table) (by simp) ⟨w, hobserved, ?_⟩
      have hnumber : generationNumber grant.wakeGeneration = w := hobserved.number
      simp only [WakeAndRun.context, hnumber]
      refine ⟨by simp, ?_⟩
      intro g hpos hle
      have hmem := (h.signalled r.runner.leaseKey g).mpr ⟨hpos, hle.trans hobserved.le⟩
      exact (List.singleton_sublist.mpr hmem).append (List.Sublist.refl _)
  | cycling context =>
    simp only [hphase] at hrun
    obtain ⟨w, hobserved, hstarted⟩ := hrun
    dsimp only
    split
    · exact h.kept (SameWakes.refl table) (by simp) trivial
    · exact h.kept (SameWakes.refl table) (by simp) ⟨w, hobserved, hstarted.succeeded⟩
  | releasing grant error =>
    dsimp only
    split
    · exact hfail _
    · rename_i table' hok
      exact h.kept (sameWakes_releaseLease (attempt_eq_ok hok)) (by simp) trivial
  | completing grant result =>
    simp only [hphase] at hrun
    obtain ⟨w, hobserved, hsucceeded⟩ := hrun
    dsimp only
    split
    · exact hfail _
    · rename_i completion table' hok
      have hcomplete := attempt_eq_ok hok
      rw [hobserved.generation] at hcomplete
      have hle := hobserved.le
      rw [← hobserved.keyed] at hle hsucceeded
      obtain ⟨hcurrent, hwake, -⟩ := complete_wakes hle hcomplete
      refine ⟨?_, ?_, fun key => (hwake key).ge, advances_complete hle hsucceeded hcomplete⟩
      · rw [List.append_nil]
        exact h.complete hle hsucceeded hcomplete
      · unfold WakeAndRun.onCompleted
        dsimp only
        split
        · trivial
        · refine ⟨hobserved.keyed, _, hcurrent, ?_⟩
          show wakeOf table grant.key ≤ wakeOf table' r.runner.leaseKey
          rw [hwake, hobserved.keyed]
  | renewing grant completion =>
    simp only [hphase] at hrun
    obtain ⟨hkey, w, hw, hle⟩ := hrun
    dsimp only
    split
    · exact hfail _
    · rename_i table' hok
      exact h.kept (sameWakes_renew (attempt_eq_ok hok)) (by simp) trivial
    · rename_i renewed table' hok
      have hrenew := attempt_eq_ok hok
      have hsame := sameWakes_renew hrenew
      obtain ⟨hnone, -⟩ | ⟨row, fence, expiresAtMs, -, -, -, -, hrenewed, -⟩ := renew_ok hrenew
      · cases hnone
      · obtain rfl := Option.some.inj hrenewed
        exact h.kept hsame (by simp) ⟨w, hkey, hw, hle.trans (hsame.grows _)⟩
  | returned result =>
    refine h.kept (SameWakes.refl table) (by simp) ?_
    unfold RunInv
    rw [hphase]
    trivial

namespace RunnerSystem

structure Inv (s : RunnerSystem ρ ε) : Prop where
  logged : WakesLogged s.table s.log
  runs : ∀ n r, s.runs n = some r → RunInv s.table s.log n r

theorem initial_inv : (initial : RunnerSystem ρ ε).Inv := by
  refine ⟨⟨?_, ?_⟩, ?_⟩
  · intro key g
    simp only [initial, wakeOf, rowOf, Option.getD_none, emptyRow, List.not_mem_nil, false_iff]
    omega
  · intro key g hpos hle
    simp only [initial, handledOf, rowOf, Option.getD_none, emptyRow] at hle
    omega
  · intro n r h
    cases h

/-- A call from outside either signals a wake or leaves the generations alone. -/
theorem other_cases {table table' : CoordinationTable} {reading : ℤ} {call : OtherCall}
    {marks : List RunMark} (h : call.perform table reading = .ok (table', marks)) :
    (∃ key receipt, signalWake table key reading = .ok (receipt, table') ∧
      marks = [.signalled key (generationNumber receipt.generation)]) ∨
    SameWakes table table' ∧ marks = [] := by
  cases call with
  | signalWake key =>
    obtain ⟨⟨receipt, t⟩, hok, h⟩ := bind_eq_ok.mp h
    obtain ⟨rfl, rfl⟩ := Prod.mk.inj (Except.ok.inj h)
    exact Or.inl ⟨key, receipt, hok, rfl⟩
  | acquire request =>
    obtain ⟨⟨result, t⟩, hok, h⟩ := bind_eq_ok.mp h
    obtain ⟨rfl, rfl⟩ := Prod.mk.inj (Except.ok.inj h)
    exact Or.inr ⟨sameWakes_acquire hok, rfl⟩
  | renew grant leaseTtlMs =>
    obtain ⟨⟨result, t⟩, hok, h⟩ := bind_eq_ok.mp h
    obtain ⟨rfl, rfl⟩ := Prod.mk.inj (Except.ok.inj h)
    exact Or.inr ⟨sameWakes_renew hok, rfl⟩
  | releaseLease grant =>
    obtain ⟨t, hok, h⟩ := bind_eq_ok.mp h
    obtain ⟨rfl, rfl⟩ := Prod.mk.inj (Except.ok.inj h)
    exact Or.inr ⟨sameWakes_releaseLease hok, rfl⟩
  | readState key =>
    obtain ⟨⟨state, t⟩, hok, h⟩ := bind_eq_ok.mp h
    obtain ⟨rfl, rfl⟩ := Prod.mk.inj (Except.ok.inj h)
    rw [readState_ok hok]
    exact Or.inr ⟨sameWakes_ensureRow table key, rfl⟩

theorem Inv.other {s : RunnerSystem ρ ε} (h : s.Inv) {reading : ℤ} {call : OtherCall}
    {table : CoordinationTable} {marks : List RunMark}
    (hok : call.perform s.table reading = .ok (table, marks)) :
    Inv { s with table, log := s.log ++ marks } ∧ Advances s.log s.table table := by
  obtain ⟨key, receipt, hsignal, rfl⟩ | ⟨hsame, rfl⟩ := other_cases hok
  · refine ⟨⟨h.logged.signal hsignal, ?_⟩, advances_of_handled s.log (signalWake_wakes hsignal).2.2⟩
    intro n r hr
    exact (h.runs n r hr).mono (grows_signalWake hsignal) _
  · refine ⟨⟨h.logged.same hsame (by simp), ?_⟩, advances_of_handled s.log fun key => (hsame key).2⟩
    intro n r hr
    exact (h.runs n r hr).mono hsame.grows _

theorem Inv.step {s : RunnerSystem ρ ε} (h : s.Inv) (e : RunnerEvent ρ ε) :
    (next s e).Inv ∧ Advances s.log s.table (next s e).table := by
  have hidle : s.Inv ∧ Advances s.log s.table s.table :=
    ⟨h, advances_of_handled s.log fun _ => rfl⟩
  cases e with
  | begin n runner reason =>
    unfold next
    dsimp only
    split
    · refine ⟨⟨h.logged, ?_⟩, hidle.2⟩
      intro m r hr
      by_cases hm : m = n
      · subst hm
        obtain rfl : WakeAndRun.start runner reason = r := by simpa using hr
        trivial
      · exact h.runs m r (by simpa [hm] using hr)
    · exact hidle
  | step n input =>
    unfold next
    dsimp only
    split
    · exact hidle
    · rename_i r hr
      have hkept := kept_step h.logged (h.runs n r hr) input
      refine ⟨⟨hkept.logged, ?_⟩, hkept.advances⟩
      intro m r' hr'
      by_cases hm : m = n
      · subst hm
        obtain rfl : (r.step m s.table input).2.1 = r' := by simpa using hr'
        exact hkept.run
      · exact (h.runs m r' (by simpa [hm] using hr')).mono hkept.grows _
  | other call reading fails =>
    unfold next
    dsimp only
    split
    · exact hidle
    · rename_i table marks hok
      exact h.other (attempt_eq_ok hok)

/-- In every interleaving of runs with other calls: the handled generation stays within the wake
generation; a signalled wake is above the handled generation, and then the row is dirty, or a cycle
that started after it succeeded; the handled generation moves up only, to the generation that a
cycle observed before it started and then succeeded; a completion gives the lease up only if the
generation it observed is still the current one. -/
theorem run_wakesKept (es : List (RunnerEvent ρ ε)) :
    let s := run next (initial : RunnerSystem ρ ε) es
    (∀ key, handledOf s.table key ≤ wakeOf s.table key) ∧
    (∀ key g, .signalled key g ∈ s.log → g ≤ wakeOf s.table key ∧
      (handledOf s.table key < g ∨
        ∃ n i w, g ≤ w ∧
          [.signalled key g, .cycleStarted n i key w, .cycleSucceeded n i].Sublist s.log)) ∧
    (∀ (e : RunnerEvent ρ ε) key,
      handledOf (next s e).table key ≠ handledOf s.table key →
        handledOf s.table key < handledOf (next s e).table key ∧
          ∃ n i, [.cycleStarted n i key (handledOf (next s e).table key),
            .cycleSucceeded n i].Sublist s.log) ∧
    ∀ grant observedWakeGeneration reading completion table,
      complete s.table grant observedWakeGeneration reading = .ok (completion, table) →
        (completion.released = true ∨
          (rowOf table grant.key).ownerToken ≠ (rowOf s.table grant.key).ownerToken) →
        generationNumber observedWakeGeneration = wakeOf s.table grant.key := by
  intro s
  have h : s.Inv := run_invariant (fun s e h => (h.step e).1) initial_inv es
  refine ⟨handledOf_le s.table, ?_, fun e => (h.step e).2, ?_⟩
  · intro key g hmem
    obtain ⟨hpos, hle⟩ := (h.logged.signalled key g).mp hmem
    refine ⟨hle, ?_⟩
    rcases lt_or_ge (handledOf s.table key) g with hlt | hge
    · exact Or.inl hlt
    · exact Or.inr (h.logged.handled key g hpos hge)
  · intro grant observed reading completion table hok hreleased
    obtain ⟨row, row', w, -, -, hobserved, -, -, hrow, -, -, -, -, hcurrent, -, -, rfl, -, -, -,
      howner, -⟩ := complete_ok hok
    have hcompleted : completion.released = true := by
      rcases hreleased with hreleased | hchanged
      · exact hreleased
      · by_contra hkept
        rw [rowOf_update, if_pos rfl, rowOf_eq hrow, howner, if_neg hkept] at hchanged
        exact hchanged rfl
    rw [generationNumber, parseDecimal_of_ok hobserved, wakeOf, rowOf_eq hrow]
    exact hcurrent.mp hcompleted

end RunnerSystem

end OptoSync
