import OptoSync.SqliteTransactions
import OptoSync.SyncDriverContract

/-!
# An honest server

A server with a log of changes at increasing positions. It is honest when a pull page holds exactly
the changes between the two checkpoints, and a snapshot the state at its own checkpoint.
-/
namespace OptoSync
open Decimal SqliteProtocolStore

/-- The change committed at each position, if there is one. -/
structure ServerLog where
  change : ℕ → Option Change
  at_position : ∀ n c, change n = some c → c.position = n

namespace ServerLog

variable (log : ServerLog) (toText : Json → String)

/-- The changes after position `c`, up to position `p`. -/
def between (c p : ℕ) : List Change := (List.range' (c + 1) (p - c)).filterMap log.change

/-- The rows of the server at a position. -/
def stateAt (p : ℕ) : RecordTable AuthoritativeRow :=
  (log.between 0 p).foldl (installChange toText) ∅

variable {log toText}

theorem between_append {a b c : ℕ} (hab : a ≤ b) (hbc : b ≤ c) :
    log.between a b ++ log.between b c = log.between a c := by
  have hstart : b + 1 = a + 1 + 1 * (b - a) := by omega
  have hlength : c - a = (b - a) + (c - b) := by omega
  unfold between
  rw [← List.filterMap_append, hlength, ← List.range'_append, ← hstart]

theorem stateAt_eq_foldl {c p : ℕ} (h : c ≤ p) :
    log.stateAt toText p = (log.between c p).foldl (installChange toText) (log.stateAt toText c) := by
  rw [stateAt, ← between_append c.zero_le h, List.foldl_append, stateAt]

theorem getElem?_stateAt_of_untouched {c p : ℕ} (h : c ≤ p) {key : RecordKey}
    (hkey : key ∉ (log.between c p).map (·.key)) :
    (log.stateAt toText p)[key]? = (log.stateAt toText c)[key]? := by
  rw [stateAt_eq_foldl h, getElem?_foldl_installChange hkey]

/-- A record that some change names ends with the same row, whatever the table before. -/
theorem getElem?_foldl_of_touched {changes : List Change} {key : RecordKey}
    (h : key ∈ changes.map (·.key)) (table table' : RecordTable AuthoritativeRow) :
    (changes.foldl (installChange toText) table)[key]? =
      (changes.foldl (installChange toText) table')[key]? := by
  induction changes generalizing table table' with
  | nil => cases h
  | cons change changes ih =>
    by_cases hlater : key ∈ changes.map (·.key)
    · exact ih hlater _ _
    · have hkey : change.key = key := ((List.mem_cons.mp h).resolve_right hlater).symm
      rw [List.foldl_cons, List.foldl_cons, getElem?_foldl_installChange hlater,
        getElem?_foldl_installChange hlater, ← hkey]
      unfold installChange
      cases change.operation with
      | upsert => simp
      | delete => simp

/-- Installing a page that starts at or before the position of the table gives the server state at
the later of the two positions exactly when what the page writes is still current there. -/
theorem foldl_between_eq_iff {c p d : ℕ} (hcp : c ≤ p) (hcd : c ≤ d) :
    (log.between c p).foldl (installChange toText) (log.stateAt toText d) =
        log.stateAt toText (max d p) ↔
      (p < d → ∀ change ∈ log.between c p,
        (log.stateAt toText p)[change.key]? = (log.stateAt toText d)[change.key]?) := by
  have htouched : ∀ key ∈ (log.between c p).map (·.key),
      ((log.between c p).foldl (installChange toText) (log.stateAt toText d))[key]? =
        (log.stateAt toText p)[key]? := by
    intro key hkey
    rw [stateAt_eq_foldl hcp]
    exact getElem?_foldl_of_touched hkey _ _
  constructor
  · intro heq hlt change hchange
    have hkey := htouched change.key (List.mem_map_of_mem hchange)
    rw [heq, max_eq_left hlt.le] at hkey
    exact hkey.symm
  · intro hcurrent
    refine Std.ExtTreeMap.ext_getElem? fun key => ?_
    by_cases hkey : key ∈ (log.between c p).map (·.key)
    · rw [htouched key hkey]
      rcases Nat.lt_or_ge p d with hlt | hge
      · obtain ⟨change, hchange, rfl⟩ := List.mem_map.mp hkey
        rw [max_eq_left hlt.le]
        exact hcurrent hlt change hchange
      · rw [max_eq_right hge]
    · rw [getElem?_foldl_installChange hkey]
      rcases Nat.lt_or_ge p d with hlt | hge
      · rw [max_eq_left hlt.le]
      · rw [max_eq_right hge]
        refine (getElem?_stateAt_of_untouched hge fun hin => hkey ?_).symm
        rw [← between_append hcd hge, List.map_append]
        exact List.mem_append_right _ hin

end ServerLog

variable {τ : Type}

/-- What an honest server says. It promises nothing about pushes, resets and failures. -/
def Honest (log : ServerLog) (toText : Json → String) : (op : TransportOp) → op.Answer τ → Prop
  | .push _, _ => True
  | .pull checkpoint _, answer => ∀ page, answer = .ok (.changes page) →
      page.changes = log.between ((parseDecimal checkpoint).getD 0)
        ((parseDecimal page.checkpoint).getD 0)
  | .snapshot _, answer => ∀ snapshot, answer = .ok snapshot →
      (snapshot.records.map (·.key)).Nodup ∧ snapshotTable toText snapshot.records =
        log.stateAt toText ((parseDecimal snapshot.checkpoint).getD 0)

/-- A server as a driver may find it at one moment. -/
structure HonestTransport (log : ServerLog) (toText : Json → String) (τ : Type) where
  answer : (op : TransportOp) → op.Answer τ
  honest : ∀ op, Honest log toText op (answer op)

end OptoSync
