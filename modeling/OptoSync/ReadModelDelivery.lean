import OptoSync.ReadModelAgreement
import OptoSync.Transition
import Mathlib.Data.Multiset.Filter
import Mathlib.Data.Prod.Lex

/-!
# Delivery of remote rows

Remote rows reach the Rust client in one call or in several, where the rows that a call returns are
the local base of the next. Within a call the lower mutation id decides among rows of one revision,
between calls the row that came first stays.
-/
namespace OptoSync.ReadModel
open StringMap

variable {π : Type}

theorem rust_applyOverlay {input : ReadReconciliationInput π} {entry : OverlayEntry π}
    {working rows : Rust.BTreeMap (ProjectedRow π)}
    (h : Rust.host.applyOverlay input.acknowledgedMutationIds working entry = .ok rows) :
    rows = if input.isVisible entry then
      insert working entry.key (entry.project (get? working entry.key)) else working := by
  cases hpolicy : Rust.canonicalizeConsistencyPolicy entry.consistencyPolicy with
  | ok policy =>
    rw [applyOverlay_eq Rust.host rust_hidesPending input hpolicy] at h
    exact (Except.ok.inj h).symm
  | error message =>
    unfold Host.applyOverlay at h
    by_cases hacknowledged : entry.mutationId ∈ input.acknowledgedMutationIds
    · rw [if_pos hacknowledged] at h
      simp [ReadReconciliationInput.isVisible, hacknowledged, ← Except.ok.inj h]
    · simp [hacknowledged, Rust.host, hpolicy, bind, Except.bind] at h

/-- A run over the overlay that succeeds leaves for each key what its visible entries make. -/
theorem rust_overlayRows {input : ReadReconciliationInput π} {entries : List (OverlayEntry π)}
    {working rows : Rust.BTreeMap (ProjectedRow π)}
    (h : entries.foldlM (Rust.host.applyOverlay input.acknowledgedMutationIds) working = .ok rows)
    (key : String) :
    get? rows key = overlaid (get? working key)
      ((entries.filter input.isVisible).filter fun entry => entry.key = key) := by
  induction entries generalizing working with
  | nil =>
    rw [← Except.ok.inj h]
    rfl
  | cons entry entries ih =>
    rw [List.foldlM_cons] at h
    obtain ⟨next, hnext, hrows⟩ := Transition.bind_eq_ok.mp h
    rw [ih hrows, rust_applyOverlay hnext, overlaid_applied]

theorem rust_workingRows {input : ReadReconciliationInput π}
    {working : Rust.BTreeMap (ProjectedRow π)} (h : Rust.host.workingRows input = .ok working)
    (key : String) : get? working key = Rust.host.record input key := by
  rw [rust_overlayRows h key, get?_authoritativeRows]
  rfl

theorem reconcile_eq_ok {input : ReadReconciliationInput π} {rows : List (ProjectedRow π)}
    (h : Rust.reconcileReadModel input = .ok rows) :
    ∃ working : Rust.BTreeMap (ProjectedRow π), Rust.host.workingRows input = .ok working ∧
      rows = ((toList working).map Prod.snd).mergeSort fun left right =>
        Rust.host.compareRows left right ≠ .gt := by
  obtain ⟨working, hworking, hrows⟩ := Transition.bind_eq_ok.mp h
  exact ⟨working, hworking, (Except.ok.inj hrows).symm⟩

theorem mem_reconcile {input : ReadReconciliationInput π} {rows : List (ProjectedRow π)}
    (h : Rust.reconcileReadModel input = .ok rows) {row : ProjectedRow π} :
    row ∈ rows ↔ Rust.host.record input row.key = some row := by
  obtain ⟨working, hworking, rfl⟩ := reconcile_eq_ok h
  rw [List.mem_mergeSort, mem_rows (rust_workingRows hworking)]

/-- The records of the keys fix the result. -/
theorem reconcile_congr {first second : ReadReconciliationInput π}
    {rows rows' : List (ProjectedRow π)} (hfirst : Rust.reconcileReadModel first = .ok rows)
    (hsecond : Rust.reconcileReadModel second = .ok rows')
    (h : ∀ key, Rust.host.record first key = Rust.host.record second key) : rows = rows' := by
  obtain ⟨working, hworking, rfl⟩ := reconcile_eq_ok hfirst
  obtain ⟨working', hworking', rfl⟩ := reconcile_eq_ok hsecond
  have hget : ∀ key, get? working key = get? working' key := by
    intro key
    rw [rust_workingRows hworking, rust_workingRows hworking', h]
  have hequiv : Std.TreeMap.Equiv working working' := Std.TreeMap.Equiv.of_forall_constGet?_eq hget
  have hlist : toList working = toList working' := Std.TreeMap.equiv_iff_toList_eq.mp hequiv
  rw [hlist]

/-- A returned row as a row of the next local base. -/
def ProjectedRow.toBase (row : ProjectedRow π) : BaseRow π :=
  { table := row.table, recordId := row.recordId, revision := row.revision
    operation := row.operation, payload := row.payload, identity := none }

/-- Remote rows over a local base, without local mutations. -/
def arrival (localBase remote : List (BaseRow π)) : ReadReconciliationInput π :=
  { localBase, overlay := [], remote, acknowledgedMutationIds := [] }

/-- A call with the first rows, and one with each further list. -/
def deliver (localBase first : List (BaseRow π)) :
    List (List (BaseRow π)) → Except String (List (ProjectedRow π))
  | [] => Rust.reconcileReadModel (arrival localBase first)
  | second :: rest => do
    let rows ← Rust.reconcileReadModel (arrival localBase first)
    deliver (rows.map ProjectedRow.toBase) second rest

/-- Every order and every division into calls gives one read model. -/
def ArrivalFree (localBase : List (BaseRow π)) (rows : Multiset (BaseRow π)) : Prop :=
  ∀ first rest first' rest',
    ((first ++ rest.flatten : List (BaseRow π)) : Multiset (BaseRow π)) = rows →
    ((first' ++ rest'.flatten : List (BaseRow π)) : Multiset (BaseRow π)) = rows →
    deliver localBase first rest = deliver localBase first' rest'

def localRecord (localBase : List (BaseRow π)) (key : String) : Option (ProjectedRow π) :=
  ((arrival localBase []).base key).map fun row => toProjected row "authoritative"

theorem record_arrival (localBase remote : List (BaseRow π)) (key : String) :
    Rust.host.record (arrival localBase remote) key =
      Rust.host.merge (Rust.host.selectRemoteWinner (remote.filter fun row => row.key = key))
        (localRecord localBase key) := rfl

theorem reconcile_arrival (localBase remote : List (BaseRow π)) :
    ∃ rows, Rust.reconcileReadModel (arrival localBase remote) = .ok rows := ⟨_, rfl⟩

/-- All rows of a call without overlay are authoritative. -/
theorem provenance_record {localBase remote : List (BaseRow π)} {key : String}
    {row : ProjectedRow π} (h : Rust.host.record (arrival localBase remote) key = some row) :
    row.provenance = "authoritative" := by
  have hbase : ∀ base, localRecord localBase key = some base →
      base.provenance = "authoritative" := by
    intro base hbase
    obtain ⟨old, -, rfl⟩ := Option.map_eq_some_iff.mp hbase
    rfl
  rw [record_arrival] at h
  cases hremote : Rust.host.selectRemoteWinner (remote.filter fun row => row.key = key) with
  | none =>
    rw [hremote] at h
    exact hbase row h
  | some remote =>
    rw [hremote] at h
    cases hlocal : localRecord localBase key with
    | none =>
      rw [hlocal] at h
      rw [← Option.some.inj h]
      rfl
    | some base =>
      rw [hlocal] at h
      dsimp only [Host.merge] at h
      split at h
      · rw [← Option.some.inj h]
        rfl
      · rw [← Option.some.inj h]
        exact hbase base hlocal

/-- The next call starts from the records that the call before left. -/
theorem localRecord_toBase {localBase remote : List (BaseRow π)} {rows : List (ProjectedRow π)}
    (h : Rust.reconcileReadModel (arrival localBase remote) = .ok rows) (key : String) :
    localRecord (rows.map ProjectedRow.toBase) key =
      Rust.host.record (arrival localBase remote) key := by
  have hlast : localRecord (rows.map ProjectedRow.toBase) key =
      (rows.filter fun row => row.key = key).getLast?.map
        fun row => toProjected row.toBase "authoritative" := by
    show Option.map _ ((rows.map ProjectedRow.toBase).filter _).getLast? = _
    rw [List.filter_map, List.getLast?_map, Option.map_map]
    rfl
  rw [hlast]
  cases hfind : (rows.filter fun row => row.key = key).getLast? with
  | none =>
    rw [List.getLast?_eq_none_iff, List.filter_eq_nil_iff] at hfind
    cases hrecord : Rust.host.record (arrival localBase remote) key with
    | none => rfl
    | some row =>
      have hkey := record_key hrecord
      have hmem : row ∈ rows := (mem_reconcile h).mpr (hkey ▸ hrecord)
      exact absurd (decide_eq_true hkey) (hfind row hmem)
  | some row =>
    obtain ⟨hmem, hkey⟩ := List.mem_filter.mp (List.mem_of_getLast? hfind)
    have hrecord := (mem_reconcile h).mp hmem
    rw [of_decide_eq_true hkey] at hrecord
    have hprovenance := provenance_record hrecord
    rw [hrecord]
    cases row
    dsimp only at hprovenance
    rw [hprovenance]
    rfl

/-- Revisions by length, then as texts. -/
def rank (revision : String) : ℕ ×ₗ String :=
  toLex ((normalizeDecimal revision).utf8ByteSize, normalizeDecimal revision)

theorem compareDecimal_eq_gt {left right : String} :
    Rust.compareDecimal left right = .gt ↔ rank right < rank left := by
  unfold Rust.compareDecimal rank
  dsimp only
  rw [Ordering.then_eq_gt, compare_gt_iff_gt, compare_eq_iff_eq, compare_gt_iff_gt,
    Prod.Lex.toLex_lt_toLex]
  exact or_congr Iff.rfl (and_congr_left' eq_comm)

theorem compareDecimal_eq_lt {left right : String} :
    Rust.compareDecimal left right = .lt ↔ rank left < rank right := by
  rw [← compareDecimal_eq_gt, Std.OrientedCmp.gt_iff_lt]

/-- A step of the choice keeps the higher revision. -/
theorem better_rank (winner candidate : BaseRow π) :
    rank winner.revision ≤ rank (Rust.host.better winner candidate).revision ∧
      rank candidate.revision ≤ rank (Rust.host.better winner candidate).revision := by
  unfold Host.better
  cases hcompare : Rust.host.compareDecimal candidate.revision winner.revision with
  | gt => exact ⟨(compareDecimal_eq_gt.mp hcompare).le, le_refl _⟩
  | lt => exact ⟨le_refl _, (compareDecimal_eq_lt.mp hcompare).le⟩
  | eq =>
    have hnotlt : ¬ rank candidate.revision < rank winner.revision := by
      rw [← compareDecimal_eq_lt]
      intro hlt
      cases hlt.symm.trans hcompare
    have hnotgt : ¬ rank winner.revision < rank candidate.revision := by
      rw [← compareDecimal_eq_gt]
      intro hgt
      cases hgt.symm.trans hcompare
    dsimp only
    split
    · exact ⟨not_lt.mp hnotlt, le_refl _⟩
    · exact ⟨le_refl _, not_lt.mp hnotgt⟩

theorem foldl_better_rank (winner : BaseRow π) (rows : List (BaseRow π)) :
    ∀ row ∈ winner :: rows,
      rank row.revision ≤ rank (rows.foldl Rust.host.better winner).revision := by
  induction rows generalizing winner with
  | nil =>
    intro row hrow
    rw [List.mem_singleton.mp hrow]
    exact le_refl _
  | cons candidate rows ih =>
    intro row hrow
    have hbetter := better_rank winner candidate
    have hwinner := ih (Rust.host.better winner candidate) _ List.mem_cons_self
    rw [List.foldl_cons]
    rcases List.mem_cons.mp hrow with rfl | hrow
    · exact hbetter.1.trans hwinner
    · rcases List.mem_cons.mp hrow with rfl | hrow
      · exact hbetter.2.trans hwinner
      · exact ih _ row (List.mem_cons_of_mem _ hrow)

theorem selectRemoteWinner_rank {rows : List (BaseRow π)} {winner : BaseRow π}
    (h : Rust.host.selectRemoteWinner rows = some winner) :
    ∀ row ∈ rows, rank row.revision ≤ rank winner.revision := by
  cases rows with
  | nil => cases h
  | cons first rows =>
    rw [← Option.some.inj h]
    exact foldl_better_rank first rows

/-- Above the local record, if there is one. -/
def Above (row : BaseRow π) : Option (ProjectedRow π) → Prop
  | none => True
  | some base => rank base.revision < rank row.revision

/-- Above the local record, and of the highest revision. -/
structure Topmost (base : Option (ProjectedRow π)) (rows : Multiset (BaseRow π))
    (row : BaseRow π) : Prop where
  above : Above row base
  highest : ∀ other ∈ rows, rank other.revision ≤ rank row.revision

/-- What remote rows of one key may leave, in whatever order they came. -/
def Settled (base : Option (ProjectedRow π)) (rows : Multiset (BaseRow π))
    (record : Option (ProjectedRow π)) : Prop :=
  (record = base ∧ ∀ row ∈ rows, ¬ Above row base) ∨
    ∃ row ∈ rows, Topmost base rows row ∧ record = some (toProjected row "authoritative")

theorem Above.of_le {row other : BaseRow π} {base : Option (ProjectedRow π)}
    (h : Above row base) (hle : rank row.revision ≤ rank other.revision) : Above other base := by
  cases base with
  | none => trivial
  | some base => exact lt_of_lt_of_le h hle

theorem merge_of_le {rows : List (BaseRow π)} {record : ProjectedRow π}
    (h : ∀ row ∈ rows, rank row.revision ≤ rank record.revision) :
    Rust.host.merge (Rust.host.selectRemoteWinner rows) (some record) = some record := by
  cases hwinner : Rust.host.selectRemoteWinner rows with
  | none => rfl
  | some winner =>
    refine if_neg fun hgt => ?_
    exact (h winner (selectRemoteWinner_mem hwinner)).not_gt (compareDecimal_eq_gt.mp hgt)

/-- A call keeps the record unless the best of its rows is above it. -/
theorem Settled.merge {base : Option (ProjectedRow π)} {rows : Multiset (BaseRow π)}
    {record : Option (ProjectedRow π)} (h : Settled base rows record) (batch : List (BaseRow π)) :
    Settled base (rows + batch)
      (Rust.host.merge (Rust.host.selectRemoteWinner batch) record) := by
  by_cases hbest : ∃ winner, Rust.host.selectRemoteWinner batch = some winner ∧
      Above winner record
  · obtain ⟨winner, hwinner, habove⟩ := hbest
    have hmem := selectRemoteWinner_mem hwinner
    have hmerge : Rust.host.merge (Rust.host.selectRemoteWinner batch) record =
        some (toProjected winner "authoritative") := by
      rw [hwinner]
      cases record with
      | none => rfl
      | some record => exact if_pos (compareDecimal_eq_gt.mpr habove)
    have hold : Above winner base ∧ ∀ row ∈ rows, rank row.revision ≤ rank winner.revision := by
      rcases h with ⟨rfl, hnone⟩ | ⟨row, -, htop, rfl⟩
      · refine ⟨habove, fun row hrow => ?_⟩
        by_contra hlt
        exact hnone row hrow (habove.of_le (not_le.mp hlt).le)
      · have hlt : rank row.revision < rank winner.revision := habove
        exact ⟨htop.above.of_le hlt.le, fun other hother => (htop.highest other hother).trans hlt.le⟩
    refine Or.inr ⟨winner, Multiset.mem_add.mpr (Or.inr (Multiset.mem_coe.mpr hmem)), ⟨hold.1, ?_⟩,
      hmerge⟩
    intro other hother
    rcases Multiset.mem_add.mp hother with hother | hother
    · exact hold.2 other hother
    · exact selectRemoteWinner_rank hwinner other (Multiset.mem_coe.mp hother)
  · have hbelow : ∀ row ∈ batch, ∃ kept, record = some kept ∧
        rank row.revision ≤ rank kept.revision := by
      intro row hrow
      cases hwinner : Rust.host.selectRemoteWinner batch with
      | none =>
        cases batch with
        | nil => cases hrow
        | cons first batch => cases hwinner
      | some winner =>
        cases record with
        | none => exact absurd ⟨winner, hwinner, trivial⟩ hbest
        | some kept =>
          have hle : rank winner.revision ≤ rank kept.revision :=
            not_lt.mp fun hlt => hbest ⟨winner, hwinner, hlt⟩
          exact ⟨kept, rfl, (selectRemoteWinner_rank hwinner row hrow).trans hle⟩
    have hmerge : Rust.host.merge (Rust.host.selectRemoteWinner batch) record = record := by
      cases record with
      | none =>
        cases batch with
        | nil => rfl
        | cons first batch =>
          obtain ⟨kept, hkept, -⟩ := hbelow first List.mem_cons_self
          cases hkept
      | some record =>
        refine merge_of_le fun row hrow => ?_
        obtain ⟨kept, hkept, hle⟩ := hbelow row hrow
        rwa [← Option.some.inj hkept] at hle
    rw [hmerge]
    rcases h with ⟨rfl, hnone⟩ | ⟨row, hrow, htop, rfl⟩
    · refine Or.inl ⟨rfl, fun row hrow => ?_⟩
      rcases Multiset.mem_add.mp hrow with hrow | hrow
      · exact hnone row hrow
      · obtain ⟨kept, rfl, hle⟩ := hbelow row (Multiset.mem_coe.mp hrow)
        exact not_lt.mpr hle
    · refine Or.inr ⟨row, Multiset.mem_add.mpr (Or.inl hrow), ⟨htop.above, fun other hother => ?_⟩,
        rfl⟩
      rcases Multiset.mem_add.mp hother with hother | hother
      · exact htop.highest other hother
      · obtain ⟨kept, hkept, hle⟩ := hbelow other (Multiset.mem_coe.mp hother)
        rw [← Option.some.inj hkept] at hle
        exact hle

/-- Rows that may win show the same fix what a key is left with. -/
theorem Settled.unique {base : Option (ProjectedRow π)} {rows : Multiset (BaseRow π)}
    {record record' : Option (ProjectedRow π)}
    (hsame : ∀ a ∈ rows, ∀ b ∈ rows, Topmost base rows a → Topmost base rows b →
      toProjected a "authoritative" = toProjected b "authoritative")
    (h : Settled base rows record) (h' : Settled base rows record') : record = record' := by
  rcases h with ⟨rfl, hnone⟩ | ⟨a, ha, htop, rfl⟩
  · rcases h' with ⟨rfl, -⟩ | ⟨b, hb, htop', rfl⟩
    · rfl
    · exact absurd htop'.above (hnone b hb)
  · rcases h' with ⟨rfl, hnone⟩ | ⟨b, hb, htop', rfl⟩
    · exact absurd htop.above (hnone a ha)
    · rw [hsame a ha b hb htop htop']

theorem deliver_cons {localBase first second : List (BaseRow π)} {rest : List (List (BaseRow π))}
    {rows : List (ProjectedRow π)}
    (h : Rust.reconcileReadModel (arrival localBase first) = .ok rows) :
    deliver localBase first (second :: rest) =
      deliver (rows.map ProjectedRow.toBase) second rest := by
  rw [deliver, h]
  rfl

theorem settled_call {start : List (BaseRow π)} {prior : Multiset (BaseRow π)}
    {localBase : List (BaseRow π)} {key : String} (remote : List (BaseRow π))
    (h : Settled (localRecord start key) (prior.filter fun row => row.key = key)
      (localRecord localBase key)) :
    Settled (localRecord start key)
      ((prior + (remote : Multiset (BaseRow π))).filter fun row => row.key = key)
      (Rust.host.record (arrival localBase remote) key) := by
  rw [record_arrival, Multiset.filter_add, Multiset.filter_coe]
  exact h.merge _

/-- The last of the calls leaves each key settled. -/
theorem deliver_settled {start : List (BaseRow π)} {prior : Multiset (BaseRow π)}
    {localBase : List (BaseRow π)} (first : List (BaseRow π)) (rest : List (List (BaseRow π)))
    (h : ∀ key, Settled (localRecord start key) (prior.filter fun row => row.key = key)
      (localRecord localBase key)) :
    ∃ localBase' remote,
      deliver localBase first rest = Rust.reconcileReadModel (arrival localBase' remote) ∧
        ∀ key, Settled (localRecord start key)
          ((prior + (first ++ rest.flatten : List (BaseRow π))).filter fun row => row.key = key)
          (Rust.host.record (arrival localBase' remote) key) := by
  induction rest generalizing prior localBase first with
  | nil =>
    refine ⟨localBase, first, rfl, fun key => ?_⟩
    rw [List.flatten_nil, List.append_nil]
    exact settled_call first (h key)
  | cons second rest ih =>
    obtain ⟨rows, hrows⟩ := reconcile_arrival localBase first
    have hnext : ∀ key, Settled (localRecord start key)
        ((prior + (first : Multiset (BaseRow π))).filter fun row => row.key = key)
        (localRecord (rows.map ProjectedRow.toBase) key) := by
      intro key
      rw [localRecord_toBase hrows]
      exact settled_call first (h key)
    rw [deliver_cons hrows, List.flatten_cons]
    have hrest := ih second hnext
    rwa [add_assoc, Multiset.coe_add] at hrest

/-- Rows that may win their key show the same. -/
def Decided (localBase : List (BaseRow π)) (rows : Multiset (BaseRow π)) : Prop :=
  ∀ key, ∀ a ∈ rows.filter fun row => row.key = key, ∀ b ∈ rows.filter fun row => row.key = key,
    Topmost (localRecord localBase key) (rows.filter fun row => row.key = key) a →
    Topmost (localRecord localBase key) (rows.filter fun row => row.key = key) b →
      toProjected a "authoritative" = toProjected b "authoritative"

/-- A row that may win its key does so when it comes in a call of its own before the others. -/
theorem deliver_first {localBase rest : List (BaseRow π)} {row : BaseRow π}
    (h : Topmost (localRecord localBase row.key)
      (((row :: rest : List (BaseRow π)) : Multiset (BaseRow π)).filter
        fun other => other.key = row.key) row) :
    ∃ rows, deliver localBase [row] [rest] = .ok rows ∧
      ∀ shown, shown ∈ rows ∧ shown.key = row.key ↔ shown = toProjected row "authoritative" := by
  obtain ⟨rows, hrows⟩ := reconcile_arrival localBase [row]
  have hfilter : [row].filter (fun other => other.key = row.key) = [row] :=
    List.filter_eq_self.mpr fun other hother => by rw [List.mem_singleton.mp hother]; simp
  have hfirst : localRecord (rows.map ProjectedRow.toBase) row.key =
      some (toProjected row "authoritative") := by
    rw [localRecord_toBase hrows, record_arrival, hfilter]
    have habove := h.above
    cases hlocal : localRecord localBase row.key with
    | none => rfl
    | some base =>
      rw [hlocal] at habove
      exact if_pos (compareDecimal_eq_gt.mpr habove)
  have hrecord : Rust.host.record (arrival (rows.map ProjectedRow.toBase) rest) row.key =
      some (toProjected row "authoritative") := by
    rw [record_arrival, hfirst]
    refine merge_of_le fun other hother => h.highest other ?_
    obtain ⟨hmem, hkey⟩ := List.mem_filter.mp hother
    exact Multiset.mem_filter.mpr ⟨List.mem_cons_of_mem _ hmem, of_decide_eq_true hkey⟩
  obtain ⟨rows', hrows'⟩ := reconcile_arrival (rows.map ProjectedRow.toBase) rest
  refine ⟨rows', (deliver_cons hrows).trans hrows', fun shown => ?_⟩
  rw [mem_reconcile hrows']
  constructor
  · rintro ⟨hshown, hkey⟩
    rw [hkey, hrecord] at hshown
    exact (Option.some.inj hshown).symm
  · rintro rfl
    exact ⟨hrecord, rfl⟩

theorem decided_of_arrivalFree {localBase : List (BaseRow π)} {rows : Multiset (BaseRow π)}
    (h : ArrivalFree localBase rows) : Decided localBase rows := by
  intro key a ha b hb htopA htopB
  obtain ⟨hmemA, rfl⟩ := Multiset.mem_filter.mp ha
  obtain ⟨hmemB, hkey⟩ := Multiset.mem_filter.mp hb
  have hsplit : ∀ row ∈ rows, ∃ rest : List (BaseRow π),
      ((row :: rest : List (BaseRow π)) : Multiset (BaseRow π)) = rows := by
    intro row hrow
    obtain ⟨rest, rfl⟩ := Multiset.exists_cons_of_mem hrow
    refine ⟨rest.toList, ?_⟩
    rw [← Multiset.cons_coe, Multiset.coe_toList]
  obtain ⟨restA, hrestA⟩ := hsplit a hmemA
  obtain ⟨restB, hrestB⟩ := hsplit b hmemB
  obtain ⟨rowsA, hrowsA, hshownA⟩ := @deliver_first π localBase restA a (hrestA.symm ▸ htopA)
  rw [← hkey] at htopB
  obtain ⟨rowsB, hrowsB, hshownB⟩ := @deliver_first π localBase restB b (hrestB.symm ▸ htopB)
  have hequal := h [a] [restA] [b] [restB] (by simpa using hrestA) (by simpa using hrestB)
  rw [hrowsA, hrowsB] at hequal
  obtain rfl := Except.ok.inj hequal
  have hshown := (hshownA _).mpr rfl
  rw [← hkey] at hshown
  exact (hshownB _).mp hshown

/-- The read model is independent of arrival exactly if, for each record, the remote rows of its
highest revision that are above the local row show the same. -/
theorem arrivalFree_iff (localBase : List (BaseRow π)) (rows : Multiset (BaseRow π)) :
    ArrivalFree localBase rows ↔ Decided localBase rows := by
  refine ⟨decided_of_arrivalFree, fun h first rest first' rest' hrows hrows' => ?_⟩
  have hstart : ∀ key, Settled (localRecord localBase key)
      ((0 : Multiset (BaseRow π)).filter fun row => row.key = key) (localRecord localBase key) :=
    fun key => Or.inl ⟨rfl, fun row hrow => absurd hrow (Multiset.notMem_zero row)⟩
  obtain ⟨base, remote, hdeliver, hsettled⟩ := deliver_settled first rest hstart
  obtain ⟨base', remote', hdeliver', hsettled'⟩ := deliver_settled first' rest' hstart
  rw [zero_add, hrows] at hsettled
  rw [zero_add, hrows'] at hsettled'
  obtain ⟨result, hresult⟩ := reconcile_arrival base remote
  obtain ⟨result', hresult'⟩ := reconcile_arrival base' remote'
  rw [hdeliver, hdeliver', hresult, hresult']
  exact congrArg Except.ok (reconcile_congr hresult hresult' fun key =>
    (hsettled key).unique (h key) (hsettled' key))

/-- Two clients' rows of one record, at one revision and under one mutation id. -/
def clientRow (clientId : String) : BaseRow String :=
  { table := "animals", recordId := "ant", revision := "1", operation := "upsert"
    payload := some clientId, identity := some { clientId, mutationId := "1" } }

theorem first_client_wins : ¬ ArrivalFree [] {clientRow "desk", clientRow "phone"} := by
  intro h
  have hkeys : ∀ row ∈ ({clientRow "desk", clientRow "phone"} : Multiset (BaseRow String)),
      row.key = (clientRow "desk").key ∧ row.revision = "1" := by
    intro row hrow
    rcases Multiset.mem_cons.mp hrow with rfl | hrow
    · exact ⟨rfl, rfl⟩
    · rw [Multiset.mem_singleton.mp hrow]
      exact ⟨rfl, rfl⟩
  have hdecided := decided_of_arrivalFree h (clientRow "desk").key
  rw [Multiset.filter_eq_self.mpr fun row hrow => (hkeys row hrow).1] at hdecided
  have htop : ∀ row ∈ ({clientRow "desk", clientRow "phone"} : Multiset (BaseRow String)),
      Topmost (localRecord [] (clientRow "desk").key)
        {clientRow "desk", clientRow "phone"} row := by
    refine fun row hrow => ⟨trivial, fun other hother => ?_⟩
    rw [(hkeys row hrow).2, (hkeys other hother).2]
  have hdesk := Multiset.mem_cons_self (clientRow "desk") {clientRow "phone"}
  have hphone : clientRow "phone" ∈ ({clientRow "desk", clientRow "phone"} : Multiset _) :=
    Multiset.mem_cons.mpr (Or.inr (Multiset.mem_singleton_self _))
  have hsame := hdecided _ hdesk _ hphone (htop _ hdesk) (htop _ hphone)
  exact absurd (congrArg ProjectedRow.payload hsame) (by decide)

end OptoSync.ReadModel
