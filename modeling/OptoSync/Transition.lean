import Mathlib

/-!
# Event-driven transition systems

A system is a total `next : σ → ε → σ`; all nondeterminism (scheduling, answers of the
environment, failures) is in the events. A run folds `next` over a list of events.
-/
namespace OptoSync.Transition

variable {σ ε : Type*} (next : σ → ε → σ)

def run (s : σ) (es : List ε) : σ := es.foldl next s

/-- Every step of the run meets `C`, a condition on the state before the step and the event. -/
def StepsMeet (C : σ → ε → Prop) : σ → List ε → Prop
  | _, [] => True
  | s, e :: es => C s e ∧ StepsMeet C (next s e) es

/-- Every state of the run, the first and the last included, meets `P`. -/
def StatesMeet (P : σ → Prop) : σ → List ε → Prop
  | s, [] => P s
  | s, e :: es => P s ∧ StatesMeet P (next s e) es

@[simp] theorem run_nil (s : σ) : run next s [] = s := rfl

@[simp] theorem run_cons (s : σ) (e : ε) (es : List ε) :
    run next s (e :: es) = run next (next s e) es := rfl

@[simp] theorem run_append (s : σ) (es fs : List ε) :
    run next s (es ++ fs) = run next (run next s es) fs := by
  simp [run, List.foldl_append]

variable {next}

/-- The induction behind every safety result: `I` holds in all states of a run. -/
theorem StatesMeet.of_invariant {I : σ → Prop} (hstep : ∀ s e, I s → I (next s e))
    {s : σ} (h : I s) (es : List ε) : StatesMeet next I s es := by
  induction es generalizing s with
  | nil => exact h
  | cons e es ih => exact ⟨h, ih (hstep s e h)⟩

theorem run_invariant {I : σ → Prop} (hstep : ∀ s e, I s → I (next s e))
    {s : σ} (h : I s) (es : List ε) : I (run next s es) := by
  induction es generalizing s with
  | nil => exact h
  | cons e es ih => exact ih (hstep s e h)

/-- As `run_invariant`, for a property that only steps meeting `C` are known to preserve. -/
theorem run_invariant_of_stepsMeet {C : σ → ε → Prop} {I : σ → Prop}
    (hstep : ∀ s e, C s e → I s → I (next s e)) {s : σ} (h : I s) {es : List ε}
    (hC : StepsMeet next C s es) : I (run next s es) := by
  induction es generalizing s with
  | nil => exact h
  | cons e es ih => exact ih (hstep s e hC.1 h) hC.2

/-- As `StatesMeet.of_invariant`, for a property that only steps meeting `C` are known to
preserve. -/
theorem StatesMeet.of_stepsMeet {C : σ → ε → Prop} {I : σ → Prop}
    (hstep : ∀ s e, C s e → I s → I (next s e)) {s : σ} (h : I s) {es : List ε}
    (hC : StepsMeet next C s es) : StatesMeet next I s es := by
  induction es generalizing s with
  | nil => exact h
  | cons e es ih => exact ⟨h, ih (hstep s e hC.1 h) hC.2⟩

/-- Unwinding: where the dropped events change nothing that `R` sees and the kept ones keep `R`, a
run and the run without the dropped events stay related. -/
theorem run_filter_related {C : σ → ε → Prop} {R : σ → σ → Prop} {keep : ε → Bool}
    (hkept : ∀ s t e, C s e → keep e = true → R s t → R (next s e) (next t e))
    (hdropped : ∀ s t e, C s e → keep e = false → R s t → R (next s e) t) {s t : σ} (h : R s t)
    {es : List ε} (hC : StepsMeet next C s es) : R (run next s es) (run next t (es.filter keep)) := by
  induction es generalizing s t with
  | nil => exact h
  | cons e es ih =>
    rw [List.filter_cons]
    cases hkeep : keep e with
    | true => exact ih (hkept s t e hC.1 hkeep h) hC.2
    | false => exact ih (hdropped s t e hC.1 hkeep h) hC.2

theorem StatesMeet.first {P : σ → Prop} {s : σ} {es : List ε} (h : StatesMeet next P s es) : P s := by
  cases es with
  | nil => exact h
  | cons e es => exact h.1

theorem StatesMeet.last {P : σ → Prop} {s : σ} {es : List ε} (h : StatesMeet next P s es) :
    P (run next s es) := by
  induction es generalizing s with
  | nil => exact h
  | cons e es ih => exact ih h.2

theorem StatesMeet.stepsMeet {P : σ → Prop} {s : σ} {es : List ε} (h : StatesMeet next P s es) :
    StepsMeet next (fun s _ => P s) s es := by
  induction es generalizing s with
  | nil => trivial
  | cons e es ih => exact ⟨h.1, ih h.2⟩

theorem StatesMeet.imp {P Q : σ → Prop} (hPQ : ∀ s, P s → Q s) {s : σ} {es : List ε}
    (h : StatesMeet next P s es) : StatesMeet next Q s es := by
  induction es generalizing s with
  | nil => exact hPQ s h
  | cons e es ih => exact ⟨hPQ s h.1, ih h.2⟩

theorem StepsMeet.imp {C D : σ → ε → Prop} (hCD : ∀ s e, C s e → D s e) {s : σ} {es : List ε}
    (h : StepsMeet next C s es) : StepsMeet next D s es := by
  induction es generalizing s with
  | nil => exact h
  | cons e es ih => exact ⟨hCD s e h.1, ih h.2⟩

theorem StepsMeet.and_mem {C : σ → ε → Prop} {s : σ} {es : List ε} (h : StepsMeet next C s es) :
    StepsMeet next (fun s e => C s e ∧ e ∈ es) s es := by
  induction es generalizing s with
  | nil => exact h
  | cons e es ih =>
    exact ⟨⟨h.1, List.mem_cons_self⟩,
      (ih h.2).imp fun _ _ hstep => ⟨hstep.1, List.mem_cons_of_mem e hstep.2⟩⟩

theorem statesMeet_iff_prefix {P : σ → Prop} {s : σ} {es : List ε} :
    StatesMeet next P s es ↔ ∀ fs, fs <+: es → P (run next s fs) := by
  induction es generalizing s with
  | nil =>
    refine ⟨fun h fs hfs => ?_, fun h => h [] (List.prefix_refl _)⟩
    rw [List.prefix_nil.mp hfs]
    exact h
  | cons e es ih =>
    constructor
    · rintro ⟨hs, ht⟩ fs hfs
      cases fs with
      | nil => exact hs
      | cons f fs =>
        obtain ⟨rfl, htail⟩ := List.cons_prefix_cons.mp hfs
        exact ih.mp ht fs htail
    · intro h
      refine ⟨h [] List.nil_prefix, ih.mpr fun fs hfs => ?_⟩
      exact h (e :: fs) (List.cons_prefix_cons.mpr ⟨rfl, hfs⟩)

/-- If, under an invariant, a step from a good state ends in a good state exactly when the step
meets `C`, then the good runs are exactly the runs whose steps all meet `C`. -/
theorem statesMeet_iff_stepsMeet {I P : σ → Prop} {C : σ → ε → Prop}
    (hinv : ∀ s e, I s → I (next s e))
    (hstep : ∀ s e, I s → P s → (P (next s e) ↔ C s e))
    {s : σ} (hI : I s) (hP : P s) (es : List ε) :
    StatesMeet next P s es ↔ StepsMeet next C s es := by
  induction es generalizing s with
  | nil => exact ⟨fun _ => trivial, fun _ => hP⟩
  | cons e es ih =>
    constructor
    · rintro ⟨-, ht⟩
      have hn : P (next s e) := ht.first
      exact ⟨(hstep s e hI hP).mp hn, (ih (hinv s e hI) hn).mp ht⟩
    · rintro ⟨hC, ht⟩
      have hn : P (next s e) := (hstep s e hI hP).mpr hC
      exact ⟨hP, (ih (hinv s e hI) hn).mpr ht⟩

theorem bind_eq_ok {ε' : Type*} {α β : Type} {x : Except ε' α} {f : α → Except ε' β} {b : β} :
    x >>= f = .ok b ↔ ∃ a, x = .ok a ∧ f a = .ok b := by
  cases x with
  | error e => simp [bind, Except.bind]
  | ok a => simp [bind, Except.bind]

end OptoSync.Transition
