import Mathlib

/-!
# Interactive programs

A program that calls its environment and continues with the answer. A contract says which calls
are allowed and how its own state follows the answers; obeying a contract is a property of the
program alone, whatever the environment answers.
-/
namespace OptoSync

universe u v w

inductive Interaction (Op : Type u) (Answer : Op → Type v) (α : Type w)
  | done (value : α)
  | call (op : Op) (resume : Answer op → Interaction Op Answer α)

namespace Interaction

variable {Op : Type u} {Answer : Op → Type v} {α β : Type w} {κ : Type*}

def bind (p : Interaction Op Answer α) (f : α → Interaction Op Answer β) :
    Interaction Op Answer β :=
  match p with
  | .done a => f a
  | .call op resume => .call op fun answer => (resume answer).bind f

@[simp] theorem bind_done (a : α) (f : α → Interaction Op Answer β) :
    (done a : Interaction Op Answer α).bind f = f a := rfl

@[simp] theorem bind_call (op : Op) (resume : Answer op → Interaction Op Answer α)
    (f : α → Interaction Op Answer β) :
    (call op resume).bind f = .call op fun answer => (resume answer).bind f := rfl

instance : Monad (Interaction Op Answer) where
  pure := done
  bind := bind

@[simp] theorem pure_eq (a : α) : (pure a : Interaction Op Answer α) = done a := rfl

@[simp] theorem bind_eq (p : Interaction Op Answer α) (f : α → Interaction Op Answer β) :
    p >>= f = p.bind f := rfl

/-- Make one call and return its answer. -/
def ask (op : Op) : Interaction Op Answer (Answer op) := .call op done

/-- Run against a stateful environment that answers every call. -/
def run {σ : Type*} (handle : (op : Op) → σ → Answer op × σ) :
    Interaction Op Answer α → σ → α × σ
  | .done a, s => (a, s)
  | .call op resume, s => run handle (resume (handle op s).1) (handle op s).2

@[simp] theorem run_done {σ : Type*} (handle : (op : Op) → σ → Answer op × σ) (a : α) (s : σ) :
    (done a : Interaction Op Answer α).run handle s = (a, s) := rfl

@[simp] theorem run_call {σ : Type*} (handle : (op : Op) → σ → Answer op × σ) (op : Op)
    (resume : Answer op → Interaction Op Answer α) (s : σ) :
    (call op resume).run handle s = (resume (handle op s).1).run handle (handle op s).2 := rfl

theorem run_bind {σ : Type*} (handle : (op : Op) → σ → Answer op × σ)
    (p : Interaction Op Answer α) (f : α → Interaction Op Answer β) (s : σ) :
    (p.bind f).run handle s =
      (f (p.run handle s).1).run handle (p.run handle s).2 := by
  induction p generalizing s with
  | done a => rfl
  | call op resume ih => exact ih _ _

/-- What every answer keeps up, a whole run keeps up. -/
theorem run_rel {σ : Type*} {R : σ → σ → Prop} (refl : ∀ s, R s s)
    (trans : ∀ s t u, R s t → R t u → R s u) {handle : (op : Op) → σ → Answer op × σ}
    (hstep : ∀ op s, R s (handle op s).2) (p : Interaction Op Answer α) (s : σ) :
    R s (p.run handle s).2 := by
  induction p generalizing s with
  | done a => exact refl s
  | call op resume ih => exact trans _ _ _ (hstep op s) (ih _ _)

/-- `expects` is what the environment owes: answers outside it are not considered. -/
structure Contract (Op : Type u) (Answer : Op → Type v) (κ : Type*) where
  allowed : κ → Op → Prop
  expects : κ → (op : Op) → Answer op → Prop
  advance : κ → (op : Op) → Answer op → κ

/-- Every call is allowed when it is made, and a finished program meets `post`. -/
def Obeys (C : Contract Op Answer κ) (post : κ → α → Prop) :
    κ → Interaction Op Answer α → Prop
  | k, .done a => post k a
  | k, .call op resume =>
    C.allowed k op ∧ ∀ answer, C.expects k op answer →
      Obeys C post (C.advance k op answer) (resume answer)

variable {C : Contract Op Answer κ}

@[simp] theorem obeys_done {post : κ → α → Prop} {k : κ} {a : α} :
    Obeys C post k (done a : Interaction Op Answer α) ↔ post k a := Iff.rfl

theorem Obeys.bind {mid : κ → α → Prop} {post : κ → β → Prop} {k : κ}
    {p : Interaction Op Answer α} {f : α → Interaction Op Answer β}
    (hp : Obeys C mid k p) (hf : ∀ k a, mid k a → Obeys C post k (f a)) :
    Obeys C post k (p.bind f) := by
  induction p generalizing k with
  | done a => exact hf k a hp
  | call op resume ih =>
    obtain ⟨hallowed, hrest⟩ := hp
    exact ⟨hallowed, fun answer ha => ih answer (hrest answer ha)⟩

/-- `Trace p t q`: with the calls and answers of `t`, in order, `p` becomes `q`. -/
inductive Trace : Interaction Op Answer α → List (Σ op, Answer op) → Interaction Op Answer α → Prop
  | nil (p) : Trace p [] p
  | cons {op resume answer t q} :
      Trace (resume answer) t q → Trace (.call op resume) (⟨op, answer⟩ :: t) q

@[simp] theorem trace_done_iff {a : α} {t : List (Σ op, Answer op)}
    {q : Interaction Op Answer α} :
    Trace (.done a) t q ↔ t = [] ∧ q = .done a := by
  refine ⟨fun h => ?_, fun h => ?_⟩
  · cases h
    exact ⟨rfl, rfl⟩
  · rw [h.1, h.2]
    exact .nil _

/-- A call that has ended was answered. -/
theorem trace_call_done_iff {op : Op} {resume : Answer op → Interaction Op Answer α}
    {t : List (Σ op, Answer op)} {a : α} :
    Trace (.call op resume) t (.done a) ↔
      ∃ answer u, t = ⟨op, answer⟩ :: u ∧ Trace (resume answer) u (.done a) := by
  refine ⟨fun h => ?_, ?_⟩
  · cases h with
    | cons h => exact ⟨_, _, rfl, h⟩
  · rintro ⟨answer, u, rfl, h⟩
    exact .cons h

theorem Trace.append {p q r : Interaction Op Answer α} {t u : List (Σ op, Answer op)}
    (h : Trace p t q) (h' : Trace q u r) : Trace p (t ++ u) r := by
  induction h with
  | nil p => exact h'
  | cons _ ih => exact .cons (ih h')

/-- With answers to every call, a program comes to its end. -/
theorem Trace.exists_done (answer : (op : Op) → Answer op) (p : Interaction Op Answer α) :
    ∃ t a, Trace p t (.done a) := by
  induction p with
  | done a => exact ⟨[], a, .nil _⟩
  | call op resume ih =>
    obtain ⟨t, a, h⟩ := ih (answer op)
    exact ⟨⟨op, answer op⟩ :: t, a, .cons h⟩

def Contract.advanceAll (C : Contract Op Answer κ) : κ → List (Σ op, Answer op) → κ
  | k, [] => k
  | k, ⟨op, answer⟩ :: t => C.advanceAll (C.advance k op answer) t

/-- All answers of the trace are expected ones. -/
def Contract.Expected (C : Contract Op Answer κ) : κ → List (Σ op, Answer op) → Prop
  | _, [] => True
  | k, ⟨op, answer⟩ :: t => C.expects k op answer ∧ C.Expected (C.advance k op answer) t

/-- All calls of the trace are allowed ones. -/
def Contract.Allowed (C : Contract Op Answer κ) : κ → List (Σ op, Answer op) → Prop
  | _, [] => True
  | k, ⟨op, answer⟩ :: t => C.allowed k op ∧ C.Allowed (C.advance k op answer) t

theorem Contract.advanceAll_append (k : κ) (t u : List (Σ op, Answer op)) :
    C.advanceAll k (t ++ u) = C.advanceAll (C.advanceAll k t) u := by
  induction t generalizing k with
  | nil => rfl
  | cons e t ih => exact ih _

theorem Contract.Allowed.at {k : κ} {before after : List (Σ op, Answer op)} {e : Σ op, Answer op}
    (h : C.Allowed k (before ++ e :: after)) : C.allowed (C.advanceAll k before) e.1 := by
  induction before generalizing k with
  | nil => exact h.1
  | cons f before ih => exact ih h.2

/-- A program that obeys its contract stays within it along every trace. -/
theorem Obeys.trace {post : κ → α → Prop} {k : κ} {p q : Interaction Op Answer α}
    {t : List (Σ op, Answer op)} (h : Obeys C post k p) (ht : Trace p t q)
    (he : C.Expected k t) : C.Allowed k t ∧ Obeys C post (C.advanceAll k t) q := by
  induction ht generalizing k with
  | nil p => exact ⟨trivial, h⟩
  | cons _ ih =>
    obtain ⟨hallowed, hrest⟩ := ih (h.2 _ he.1) he.2
    exact ⟨⟨h.1, hallowed⟩, hrest⟩

end Interaction
end OptoSync
