import Mathlib

/-!
# Single flights

Whoever finds a flight in the slot joins it, and puts a new one there otherwise. A flight that has
settled stays in the slot until it is removed.
-/
namespace OptoSync.SingleFlight

variable {α : Type*}

structure Flight (α : Type*) where
  started : Bool
  settled : Option α

def Flight.start (flight : Flight α) : Flight α :=
  { flight with started := true }

/-- Only the first settlement of a started flight counts. -/
def Flight.settle (result : α) (flight : Flight α) : Flight α :=
  if flight.started then { flight with settled := flight.settled <|> some result } else flight

structure Flights (α : Type*) where
  flights : List (Flight α)
  slot : Option ℕ

namespace Flights

def empty : Flights α := ⟨[], none⟩

/-- The flight that a caller joins. -/
def join (pool : Flights α) (started : Bool) : Flights α × ℕ :=
  match pool.slot with
  | some k => (pool, k)
  | none => (⟨pool.flights ++ [⟨started, none⟩], some pool.flights.length⟩, pool.flights.length)

def start (pool : Flights α) (k : ℕ) : Flights α :=
  { pool with flights := pool.flights.modify k Flight.start }

def settle (pool : Flights α) (k : ℕ) (result : α) : Flights α :=
  { pool with flights := pool.flights.modify k (Flight.settle result) }

def settled (pool : Flights α) (k : ℕ) : Option α :=
  pool.flights[k]?.bind Flight.settled

def remove (pool : Flights α) (k : ℕ) : Flights α :=
  if pool.slot = some k ∧ (pool.settled k).isSome then { pool with slot := none } else pool

/-- The flight has started and not settled. -/
def Running (pool : Flights α) (k : ℕ) : Prop :=
  ∃ flight, pool.flights[k]? = some flight ∧ flight.started = true ∧ flight.settled = none

/-- Whatever is not in the slot has settled. -/
structure Single (pool : Flights α) : Prop where
  slot_lt : ∀ k ∈ pool.slot, k < pool.flights.length
  settled_of_ne : ∀ k < pool.flights.length, pool.slot ≠ some k → (pool.settled k).isSome

@[simp] theorem length_start (pool : Flights α) (k : ℕ) :
    (pool.start k).flights.length = pool.flights.length :=
  List.length_modify ..

@[simp] theorem length_settle (pool : Flights α) (k : ℕ) (result : α) :
    (pool.settle k result).flights.length = pool.flights.length :=
  List.length_modify ..

@[simp] theorem flights_remove (pool : Flights α) (k : ℕ) :
    (pool.remove k).flights = pool.flights := by
  rw [remove]
  split <;> rfl

@[simp] theorem settled_start (pool : Flights α) (j k : ℕ) :
    (pool.start j).settled k = pool.settled k := by
  rw [settled, settled, start, List.getElem?_modify]
  cases pool.flights[k]? with
  | none => rfl
  | some flight =>
    by_cases h : j = k
    · simp [h, Flight.start]
    · simp [h]

@[simp] theorem settled_remove (pool : Flights α) (j k : ℕ) :
    (pool.remove j).settled k = pool.settled k := by
  rw [settled, settled, flights_remove]

theorem settled_join (pool : Flights α) (started : Bool) (k : ℕ) :
    (pool.join started).1.settled k = pool.settled k := by
  rw [join]
  cases pool.slot with
  | some joined => rfl
  | none =>
    simp only [settled]
    rcases lt_trichotomy k pool.flights.length with h | h | h
    · rw [List.getElem?_append_left h]
    · simp [h]
    · rw [List.getElem?_append_right h.le, List.getElem?_eq_none h.le,
        List.getElem?_eq_none (by simp; omega)]

/-- A settlement counts where the flight has started and not settled. -/
theorem settled_settle (pool : Flights α) (j : ℕ) (result : α) (k : ℕ) :
    (pool.settle j result).settled k = pool.settled k ∨
      j = k ∧ pool.Running k ∧ (pool.settle j result).settled k = some result := by
  simp only [settled, settle, Running, List.getElem?_modify]
  cases pool.flights[k]? with
  | none => simp
  | some flight =>
    by_cases h : j = k
    · obtain ⟨started, settled⟩ := flight
      cases started <;> cases settled <;> simp [h, Flight.settle]
    · simp [h]

theorem Running.settled {pool : Flights α} {k : ℕ} (h : pool.Running k) : pool.settled k = none := by
  obtain ⟨flight, hk, -, hsettled⟩ := h
  rw [Flights.settled, hk]
  exact hsettled

theorem settled_settle_of_settled {pool : Flights α} {j k : ℕ} {result settled : α}
    (h : pool.settled k = some settled) : (pool.settle j result).settled k = some settled := by
  obtain hs | ⟨-, hrunning, -⟩ := pool.settled_settle j result k
  · rw [hs, h]
  · rw [hrunning.settled] at h
    cases h

theorem slot_join (pool : Flights α) (started : Bool) :
    (pool.join started).1.slot = some (pool.join started).2 := by
  rw [join]
  cases h : pool.slot with
  | some k => exact h
  | none => rfl

theorem join_of_slot {pool : Flights α} {k : ℕ} (h : pool.slot = some k) (started : Bool) :
    pool.join started = (pool, k) := by
  simp [join, h]

theorem join_of_none {pool : Flights α} (h : pool.slot = none) (started : Bool) :
    pool.join started =
      (⟨pool.flights ++ [⟨started, none⟩], some pool.flights.length⟩, pool.flights.length) := by
  simp [join, h]

theorem Single.empty : (Flights.empty : Flights α).Single where
  slot_lt _ h := nomatch h
  settled_of_ne _ h := nomatch h

theorem Single.join {pool : Flights α} (h : pool.Single) (started : Bool) :
    (pool.join started).1.Single := by
  cases hslot : pool.slot with
  | some k =>
    rw [join_of_slot hslot]
    exact h
  | none =>
    have hpool := join_of_none hslot started
    refine ⟨fun k hk => ?_, fun k hk hne => ?_⟩
    · rw [slot_join, hpool] at hk
      cases hk
      simp [hpool]
    · rw [settled_join]
      simp only [hpool, List.length_append, List.length_singleton, ne_eq, Option.some.injEq]
        at hk hne
      exact h.settled_of_ne k (by omega) (by simp [hslot])

theorem Single.start {pool : Flights α} (h : pool.Single) (k : ℕ) : (pool.start k).Single where
  slot_lt j hj := by
    rw [length_start]
    exact h.slot_lt j hj
  settled_of_ne j hj hne := by
    rw [length_start] at hj
    rw [settled_start]
    exact h.settled_of_ne j hj hne

theorem Single.settle {pool : Flights α} (h : pool.Single) (k : ℕ) (result : α) :
    (pool.settle k result).Single where
  slot_lt j hj := by
    rw [length_settle]
    exact h.slot_lt j hj
  settled_of_ne j hj hne := by
    rw [length_settle] at hj
    obtain ⟨settled, hsettled⟩ := Option.isSome_iff_exists.mp (h.settled_of_ne j hj hne)
    rw [settled_settle_of_settled hsettled]
    rfl

theorem Single.remove {pool : Flights α} (h : pool.Single) (k : ℕ) : (pool.remove k).Single := by
  by_cases hk : pool.slot = some k ∧ (pool.settled k).isSome
  · refine ⟨fun j hj => ?_, fun j hj hne => ?_⟩
    · simp [Flights.remove, hk] at hj
    · rw [flights_remove] at hj
      rw [settled_remove]
      by_cases hjk : k = j
      · rw [← hjk]
        exact hk.2
      · exact h.settled_of_ne j hj (by simpa [hk.1] using hjk)
  · rw [Flights.remove, if_neg hk]
    exact h

theorem Single.slot_of_running {pool : Flights α} (h : pool.Single) {k : ℕ} (hk : pool.Running k) :
    pool.slot = some k := by
  by_contra hne
  obtain ⟨flight, hflight, -, -⟩ := id hk
  have hsettled := h.settled_of_ne k (List.getElem?_eq_some_iff.mp hflight).1 hne
  rw [hk.settled] at hsettled
  cases hsettled

theorem Single.exclusive {pool : Flights α} (h : pool.Single) {j k : ℕ} (hj : pool.Running j)
    (hk : pool.Running k) : j = k :=
  Option.some_inj.mp ((h.slot_of_running hj).symm.trans (h.slot_of_running hk))

end Flights

end OptoSync.SingleFlight
