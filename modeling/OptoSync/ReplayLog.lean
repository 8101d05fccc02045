import Mathlib

/-!
# Replaying a log of writes

A log has at most one entry at each position. Its state at a position is the table that its writes
up to there leave, and the writes between two positions bring a table from the one to the other.
-/
namespace OptoSync.ReplayLog

variable {α κ ν : Type*} [DecidableEq κ]

/-- The entries after position `c`, up to position `p`. -/
def between (log : ℕ → Option α) (c p : ℕ) : List α := (List.range' (c + 1) (p - c)).filterMap log

/-- A write gives a key its value, or takes it away. -/
def write (table : κ → Option ν) (w : κ × Option ν) : κ → Option ν := Function.update table w.1 w.2

def replay (table : κ → Option ν) (ws : List (κ × Option ν)) : κ → Option ν := ws.foldl write table

def stateAt (log : ℕ → Option (κ × Option ν)) (p : ℕ) : κ → Option ν :=
  replay (fun _ => none) (between log 0 p)

/-- Each row is the one that the log leaves at some position from `c` on. -/
def AheadOf (log : ℕ → Option (κ × Option ν)) (c : ℕ) (table : κ → Option ν) : Prop :=
  ∀ key, ∃ q, c ≤ q ∧ table key = stateAt log q key

theorem between_append (log : ℕ → Option α) {a b c : ℕ} (hab : a ≤ b) (hbc : b ≤ c) :
    between log a b ++ between log b c = between log a c := by
  have hstart : b + 1 = a + 1 + 1 * (b - a) := by omega
  have hlength : c - a = (b - a) + (c - b) := by omega
  unfold between
  rw [← List.filterMap_append, hlength, ← List.range'_append, ← hstart]

theorem map_between {β : Type*} (f : α → β) (log : ℕ → Option α) (c p : ℕ) :
    (between log c p).map f = between (fun n => (log n).map f) c p := by
  unfold between
  rw [List.map_filterMap]

theorem replay_append (table : κ → Option ν) (ws vs : List (κ × Option ν)) :
    replay table (ws ++ vs) = replay (replay table ws) vs := List.foldl_append

theorem replay_of_untouched {ws : List (κ × Option ν)} {key : κ} (h : key ∉ ws.map Prod.fst)
    (table : κ → Option ν) : replay table ws key = table key := by
  induction ws generalizing table with
  | nil => rfl
  | cons w ws ih =>
    rw [List.map_cons, List.mem_cons, not_or] at h
    calc replay table (w :: ws) key = replay (write table w) ws key := rfl
      _ = write table w key := ih h.2 _
      _ = table key := Function.update_of_ne h.1 _ _

/-- A key that is written ends with the same value, whatever the table before. -/
theorem replay_of_touched {ws : List (κ × Option ν)} {key : κ} (h : key ∈ ws.map Prod.fst)
    (table table' : κ → Option ν) : replay table ws key = replay table' ws key := by
  induction ws generalizing table table' with
  | nil => exact absurd h List.not_mem_nil
  | cons w ws ih =>
    by_cases hlater : key ∈ ws.map Prod.fst
    · exact ih hlater _ _
    · obtain rfl : key = w.1 := (List.mem_cons.mp h).resolve_right hlater
      have hlast : ∀ t : κ → Option ν, replay t (w :: ws) w.1 = w.2 := by
        intro t
        calc replay t (w :: ws) w.1 = replay (write t w) ws w.1 := rfl
          _ = write t w w.1 := replay_of_untouched hlater _
          _ = w.2 := Function.update_self _ _ _
      rw [hlast, hlast]

variable {log : ℕ → Option (κ × Option ν)}

theorem stateAt_eq_replay {c p : ℕ} (h : c ≤ p) :
    stateAt log p = replay (stateAt log c) (between log c p) := by
  rw [stateAt, ← between_append log c.zero_le h, replay_append, stateAt]

theorem aheadOf_stateAt (p : ℕ) : AheadOf log p (stateAt log p) := fun _ => ⟨p, le_rfl, rfl⟩

/-- The writes of a page that starts at or before `d` and ends at or after it bring a table that is
ahead of `d` ahead of the page. -/
theorem AheadOf.replay_between {c d p : ℕ} {table : κ → Option ν} (h : AheadOf log d table)
    (hcd : c ≤ d) (hdp : d ≤ p) : AheadOf log p (replay table (between log c p)) := by
  intro key
  by_cases hkey : key ∈ (between log c p).map Prod.fst
  · refine ⟨p, le_rfl, ?_⟩
    rw [stateAt_eq_replay (hcd.trans hdp)]
    exact replay_of_touched hkey _ _
  · obtain ⟨q, hdq, hq⟩ := h key
    rw [replay_of_untouched hkey]
    rcases Nat.lt_or_ge q p with hlt | hge
    · -- nothing wrote the key between `q` and the page's end
      refine ⟨p, le_rfl, ?_⟩
      have hlater : key ∉ (between log q p).map Prod.fst := by
        intro hin
        apply hkey
        rw [← between_append log (hcd.trans hdq) hlt.le, List.map_append]
        exact List.mem_append_right _ hin
      rw [hq, stateAt_eq_replay hlt.le, replay_of_untouched hlater]
    · exact ⟨q, hge, hq⟩

end OptoSync.ReplayLog
