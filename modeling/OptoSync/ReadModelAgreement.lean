import OptoSync.ReadModel

/-!
# Agreement of the read models

Both clients fill their map with the record that the passes leave for each key; only the choice
among remote rows of one revision and the order of the result are their own.
-/
namespace OptoSync.ReadModel
open InsertionOrder StringMap

variable {π : Type}

class LawfulStringMap (M : Type → Type) [StringMap M] : Prop where
  get?_empty {ν : Type} (key : String) : get? (empty : M ν) key = none
  get?_insert {ν : Type} (m : M ν) (key k : String) (value : ν) :
    get? (insert m key value) k = if k = key then some value else get? m k
  mem_toList {ν : Type} (m : M ν) (key : String) (value : ν) :
    (key, value) ∈ toList m ↔ get? m key = some value
  nodup {ν : Type} (m : M ν) : ((toList m).map Prod.fst).Nodup

instance lawfulJsMap : LawfulStringMap TypeScript.JsMap where
  get?_empty _ := rfl
  get?_insert m key k value := InsertionMap.get?_set m key k value
  mem_toList m _ _ := (InsertionMap.get?_eq_some_iff m).symm
  nodup m := m.nodup

instance lawfulBTreeMap : LawfulStringMap Rust.BTreeMap where
  get?_empty _ := Std.TreeMap.getElem?_emptyc
  get?_insert {ν} m key k value := by
    have h := @Std.TreeMap.getElem?_insert String ν compare m _ k key value
    by_cases heq : k = key
    · rw [if_pos heq]
      exact h.trans (if_pos (Std.LawfulEqCmp.compare_eq_iff_eq.mpr heq.symm))
    · rw [if_neg heq]
      exact h.trans (if_neg fun hcompare => heq (Std.LawfulEqCmp.compare_eq_iff_eq.mp hcompare).symm)
  mem_toList m key value := Std.TreeMap.mem_toList_iff_getElem?_eq_some
  nodup {ν} m := by
    have h := @Std.TreeMap.distinct_keys_toList String ν compare m _
    rw [List.Nodup, List.pairwise_map]
    refine h.imp fun hne heq => hne ?_
    rw [heq]
    exact Std.ReflCmp.compare_self

/-! ## The record of a key -/

def ReadReconciliationInput.base (input : ReadReconciliationInput π) (key : String) :
    Option (BaseRow π) := (input.localBase.filter fun row => row.key = key).getLast?

def ReadReconciliationInput.group (input : ReadReconciliationInput π) (key : String) :
    List (BaseRow π) := input.remote.filter fun row => row.key = key

/-- An overlay entry that is projected: not acknowledged, and not kept off the payload. -/
def ReadReconciliationInput.isVisible (input : ReadReconciliationInput π)
    (entry : OverlayEntry π) : Bool :=
  entry.mutationId ∉ input.acknowledgedMutationIds &&
    !(entry.status = "pending" &&
      Rust.canonicalizeConsistencyPolicy entry.consistencyPolicy = .ok .remoteAcknowledged)

def ReadReconciliationInput.visible (input : ReadReconciliationInput π) (key : String) :
    List (OverlayEntry π) :=
  (input.overlay.filter input.isVisible).filter fun entry => entry.key = key

/-- The remote row if it is above the local one. -/
def Host.merge (host : Host) : Option (BaseRow π) → Option (ProjectedRow π) →
    Option (ProjectedRow π)
  | none, base => base
  | some remote, none => some (toProjected remote "authoritative")
  | some remote, some base =>
    if host.compareDecimal remote.revision base.revision = .gt then
      some (toProjected remote "authoritative")
    else some base

def overlaid (row : Option (ProjectedRow π)) (entries : List (OverlayEntry π)) :
    Option (ProjectedRow π) := entries.foldl (fun row entry => some (entry.project row)) row

def Host.record (host : Host) (input : ReadReconciliationInput π) (key : String) :
    Option (ProjectedRow π) :=
  overlaid (host.merge (host.selectRemoteWinner (input.group key))
    ((input.base key).map fun row => toProjected row "authoritative")) (input.visible key)

section Passes

variable {M : Type → Type} [StringMap M] [LawfulStringMap M] (host : Host)
open LawfulStringMap

theorem get?_localRows (rows : List (BaseRow π)) (key : String) :
    get? (rows.foldl Host.applyLocal empty : M (ProjectedRow π)) key =
      (rows.filter fun row => row.key = key).getLast?.map
        fun row => toProjected row "authoritative" := by
  induction rows using List.reverseRecOn with
  | nil => exact get?_empty key
  | append_singleton rows row ih =>
    rw [List.foldl_append, List.filter_append]
    show get? (insert _ row.key _) key = _
    rw [get?_insert, ih]
    by_cases h : key = row.key
    · rw [if_pos h, List.filter_singleton, h, decide_eq_true rfl]
      simp
    · rw [if_neg h, List.filter_singleton, decide_eq_false (Ne.symm h)]
      simp

theorem get?_grouped (rows : List (BaseRow π)) (key : String) :
    get? (rows.foldl Host.groupRow empty : M (List (BaseRow π))) key =
      if rows.filter (fun row => row.key = key) = [] then none
      else some (rows.filter fun row => row.key = key) := by
  induction rows using List.reverseRecOn with
  | nil => exact get?_empty key
  | append_singleton rows row ih =>
    rw [List.foldl_append, List.filter_append]
    show get? (insert _ row.key _) key = _
    rw [get?_insert]
    by_cases h : key = row.key
    · rw [if_pos h, List.filter_singleton, ← h, ih, decide_eq_true rfl]
      by_cases hempty : rows.filter (fun row => row.key = key) = []
      · simp [hempty]
      · simp [hempty]
    · rw [if_neg h, List.filter_singleton, decide_eq_false (Ne.symm h), ih]
      simp

theorem get?_applyRemote (working : M (ProjectedRow π)) (group : String × List (BaseRow π))
    (key : String) : get? (host.applyRemote working group) key =
      if key = group.1 then host.merge (host.selectRemoteWinner group.2) (get? working key)
      else get? working key := by
  unfold Host.applyRemote
  by_cases h : key = group.1
  · rw [if_pos h, h]
    cases host.selectRemoteWinner group.2 with
    | none => rfl
    | some remote =>
      cases hbase : get? working group.1 with
      | none =>
        dsimp only [Host.merge]
        rw [get?_insert, if_pos rfl]
      | some base =>
        dsimp only [Host.merge]
        split
        · rw [get?_insert, if_pos rfl]
        · exact hbase
  · rw [if_neg h]
    cases host.selectRemoteWinner group.2 with
    | none => rfl
    | some remote =>
      cases get? working group.1 with
      | none =>
        dsimp only
        rw [get?_insert, if_neg h]
      | some base =>
        dsimp only
        split
        · rw [get?_insert, if_neg h]
        · rfl

theorem get?_remoteRows (groups : List (String × List (BaseRow π)))
    (hgroups : (groups.map Prod.fst).Nodup) (working : M (ProjectedRow π)) (key : String) :
    get? (groups.foldl host.applyRemote working) key =
      match groups.find? fun group => group.1 = key with
      | some group => host.merge (host.selectRemoteWinner group.2) (get? working key)
      | none => get? working key := by
  induction groups generalizing working with
  | nil => rfl
  | cons group groups ih =>
    rw [List.map_cons, List.nodup_cons] at hgroups
    rw [List.foldl_cons, ih hgroups.2, get?_applyRemote]
    by_cases h : key = group.1
    · have hnone : groups.find? (fun group => group.1 = key) = none := by
        apply List.find?_eq_none.mpr
        intro other hother hkey
        apply hgroups.1
        rw [← h, ← of_decide_eq_true hkey]
        exact List.mem_map_of_mem hother
      rw [hnone, List.find?_cons_of_pos (by simp [h]), if_pos h]
    · rw [List.find?_cons_of_neg (by simp [Ne.symm h]), if_neg h]

theorem get?_authoritativeRows (input : ReadReconciliationInput π) (key : String) :
    get? (host.authoritativeRows input : M (ProjectedRow π)) key =
      host.merge (host.selectRemoteWinner (input.group key))
        ((input.base key).map fun row => toProjected row "authoritative") := by
  unfold Host.authoritativeRows
  dsimp only
  rw [get?_remoteRows host _ (nodup _), get?_localRows]
  have hgrouped : get? (input.remote.foldl Host.groupRow empty : M (List (BaseRow π))) key =
      if input.group key = [] then none else some (input.group key) :=
    get?_grouped input.remote key
  cases hfind : (toList (input.remote.foldl Host.groupRow empty : M (List (BaseRow π)))).find?
      fun group => group.1 = key with
  | none =>
    have hnone : get? (input.remote.foldl Host.groupRow empty : M (List (BaseRow π))) key = none := by
      rw [Option.eq_none_iff_forall_ne_some]
      intro group hgroup
      have hmem := List.find?_eq_none.mp hfind _ ((mem_toList _ key group).mpr hgroup)
      simp at hmem
    rw [hnone] at hgrouped
    have hempty : input.group key = [] := by
      by_contra hne
      rw [if_neg hne] at hgrouped
      cases hgrouped
    rw [hempty]
    rfl
  | some group =>
    obtain ⟨name, rows⟩ := group
    have hname : name = key := by simpa using List.find?_some hfind
    have hmem := (mem_toList _ name rows).mp (List.mem_of_find?_eq_some hfind)
    rw [hname, hgrouped] at hmem
    split at hmem
    · cases hmem
    · dsimp only
      rw [← Option.some.inj hmem]
      rfl

/-- The policy check that both clients make on valid policies. -/
def HidesPending : Prop := ∀ status consistencyPolicy policy,
  Rust.canonicalizeConsistencyPolicy consistencyPolicy = .ok policy →
    host.hidePendingProjection status consistencyPolicy =
      .ok (status = "pending" && policy = .remoteAcknowledged)

def ReadReconciliationInput.PoliciesValid (input : ReadReconciliationInput π) : Prop :=
  ∀ entry ∈ input.overlay, ∃ policy,
    Rust.canonicalizeConsistencyPolicy entry.consistencyPolicy = .ok policy

omit [LawfulStringMap M] in
theorem applyOverlay_eq (hhides : HidesPending host) (input : ReadReconciliationInput π)
    {entry : OverlayEntry π} {policy : ConsistencyPolicy}
    (hvalid : Rust.canonicalizeConsistencyPolicy entry.consistencyPolicy = .ok policy)
    (working : M (ProjectedRow π)) :
    host.applyOverlay input.acknowledgedMutationIds working entry =
      .ok (if input.isVisible entry then
        insert working entry.key (entry.project (get? working entry.key)) else working) := by
  unfold Host.applyOverlay ReadReconciliationInput.isVisible
  rw [hhides entry.status entry.consistencyPolicy policy hvalid, hvalid]
  by_cases hacknowledged : entry.mutationId ∈ input.acknowledgedMutationIds
  · simp [hacknowledged, pure, Except.pure]
  · by_cases hhidden : entry.status = "pending" ∧ policy = .remoteAcknowledged
    · simp [hacknowledged, hhidden, bind, Except.bind, pure, Except.pure]
    · simp [hacknowledged, hhidden, bind, Except.bind, pure, Except.pure]

theorem overlaid_applied (input : ReadReconciliationInput π) (entry : OverlayEntry π)
    (entries : List (OverlayEntry π)) (working : M (ProjectedRow π)) (key : String) :
    overlaid (get? (if input.isVisible entry then
        insert working entry.key (entry.project (get? working entry.key)) else working) key)
      ((entries.filter input.isVisible).filter fun other => other.key = key) =
        overlaid (get? working key)
          (((entry :: entries).filter input.isVisible).filter fun other => other.key = key) := by
  by_cases hvisible : input.isVisible entry = true
  · rw [if_pos hvisible, List.filter_cons_of_pos hvisible, get?_insert]
    by_cases hkey : key = entry.key
    · rw [if_pos hkey, List.filter_cons_of_pos (by simp [hkey]), hkey]
      rfl
    · rw [if_neg hkey, List.filter_cons_of_neg (by simp [Ne.symm hkey])]
  · rw [if_neg hvisible, List.filter_cons_of_neg hvisible]

theorem get?_overlayRows (hhides : HidesPending host) (input : ReadReconciliationInput π)
    {entries : List (OverlayEntry π)} (hvalid : ∀ entry ∈ entries, ∃ policy,
      Rust.canonicalizeConsistencyPolicy entry.consistencyPolicy = .ok policy)
    (working : M (ProjectedRow π)) :
    ∃ rows, entries.foldlM (host.applyOverlay input.acknowledgedMutationIds) working = .ok rows ∧
      ∀ key, get? rows key = overlaid (get? working key)
        ((entries.filter input.isVisible).filter fun entry => entry.key = key) := by
  induction entries generalizing working with
  | nil => exact ⟨working, rfl, fun _ => rfl⟩
  | cons entry entries ih =>
    obtain ⟨policy, hpolicy⟩ := hvalid entry List.mem_cons_self
    have hentry := applyOverlay_eq host hhides input hpolicy working
    obtain ⟨rows, hrows, hget⟩ := ih (fun other hother => hvalid other (List.mem_cons_of_mem _ hother))
      (if input.isVisible entry then
        insert working entry.key (entry.project (get? working entry.key)) else working)
    refine ⟨rows, ?_, fun key => ?_⟩
    · rw [List.foldlM_cons, hentry]
      exact hrows
    · rw [hget key]
      exact overlaid_applied input entry entries working key

theorem get?_workingRows (hhides : HidesPending host) (input : ReadReconciliationInput π)
    (hvalid : input.PoliciesValid) :
    ∃ working : M (ProjectedRow π), host.workingRows input = .ok working ∧
      ∀ key, get? working key = host.record input key := by
  obtain ⟨rows, hrows, hget⟩ := get?_overlayRows host hhides input hvalid
    (host.authoritativeRows input : M (ProjectedRow π))
  refine ⟨rows, hrows, fun key => ?_⟩
  rw [hget key, get?_authoritativeRows]
  rfl

end Passes

theorem rust_hidesPending : HidesPending Rust.host := by
  intro status consistencyPolicy policy hpolicy
  simp [Rust.host, hpolicy, bind, Except.bind, pure, Except.pure]

theorem canonicalizeConsistencyPolicy_eq (identifier : String) :
    OptoSyncClient.canonicalizeConsistencyPolicy identifier =
      (Rust.canonicalizeConsistencyPolicy identifier).map ConsistencyPolicy.asStr := by
  unfold OptoSyncClient.canonicalizeConsistencyPolicy Rust.canonicalizeConsistencyPolicy
  split
  · rfl
  · split
    · rfl
    · split <;> rfl

theorem typescript_hidesPending (localeCompare : String → String → Ordering) :
    HidesPending (TypeScript.host localeCompare) := by
  intro status consistencyPolicy policy hpolicy
  have hremote : policy.asStr = Consistency.remoteAcknowledged ↔ policy = .remoteAcknowledged := by
    cases policy <;> decide
  have hcanonical : OptoSyncClient.canonicalizeConsistencyPolicy consistencyPolicy =
      .ok policy.asStr := by
    rw [canonicalizeConsistencyPolicy_eq, hpolicy]
    rfl
  simp [TypeScript.host, PolicyAliases.canonicalize_of_ok hcanonical, bind, Except.bind, pure,
    Except.pure, hremote]

theorem foldl_better_mem (host : Host) (row : BaseRow π) (rows : List (BaseRow π)) :
    rows.foldl host.better row ∈ row :: rows := by
  induction rows generalizing row with
  | nil => exact List.mem_singleton_self row
  | cons candidate rows ih =>
    rw [List.foldl_cons]
    have hbetter : host.better row candidate = candidate ∨ host.better row candidate = row := by
      unfold Host.better
      split
      · exact Or.inl rfl
      · exact Or.inr rfl
      · split
        · exact Or.inl rfl
        · exact Or.inr rfl
    rcases List.mem_cons.mp (ih (host.better row candidate)) with h | h
    · rw [h]
      rcases hbetter with hbetter | hbetter
      · rw [hbetter]
        exact List.mem_cons_of_mem _ List.mem_cons_self
      · rw [hbetter]
        exact List.mem_cons_self
    · exact List.mem_cons_of_mem _ (List.mem_cons_of_mem _ h)

theorem selectRemoteWinner_mem {host : Host} {rows : List (BaseRow π)} {row : BaseRow π}
    (h : host.selectRemoteWinner rows = some row) : row ∈ rows := by
  cases rows with
  | nil => cases h
  | cons first rows =>
    rw [← Option.some.inj h]
    exact foldl_better_mem host first rows

theorem group_key {input : ReadReconciliationInput π} {key : String} {row : BaseRow π}
    (h : row ∈ input.group key) : row.key = key := of_decide_eq_true (List.mem_filter.mp h).2

theorem base_key {input : ReadReconciliationInput π} {key : String} {row : BaseRow π}
    (h : input.base key = some row) : row.key = key :=
  of_decide_eq_true (List.mem_filter.mp (List.mem_of_getLast? h)).2

theorem merge_key {host : Host} {input : ReadReconciliationInput π} {key : String}
    {row : ProjectedRow π} (h : host.merge (host.selectRemoteWinner (input.group key))
      ((input.base key).map fun row => toProjected row "authoritative") = some row) :
    row.key = key := by
  have hbase : ∀ base, (input.base key).map (fun row => toProjected row "authoritative") =
      some base → base.key = key := by
    intro base hbase
    obtain ⟨old, hold, rfl⟩ := Option.map_eq_some_iff.mp hbase
    exact base_key hold
  cases hremote : host.selectRemoteWinner (input.group key) with
  | none =>
    rw [hremote] at h
    exact hbase row h
  | some remote =>
    have hkey := group_key (selectRemoteWinner_mem hremote)
    rw [hremote] at h
    cases hold : (input.base key).map fun row => toProjected row "authoritative" with
    | none =>
      rw [hold] at h
      rw [← Option.some.inj h]
      exact hkey
    | some base =>
      rw [hold] at h
      dsimp only [Host.merge] at h
      split at h
      · rw [← Option.some.inj h]
        exact hkey
      · rw [← Option.some.inj h]
        exact hbase base hold

theorem overlaid_key {start : Option (ProjectedRow π)} {entries : List (OverlayEntry π)}
    {key : String} (hstart : ∀ row, start = some row → row.key = key)
    (hentries : ∀ entry ∈ entries, entry.key = key) {row : ProjectedRow π}
    (h : overlaid start entries = some row) : row.key = key := by
  induction entries generalizing start with
  | nil => exact hstart row h
  | cons entry entries ih =>
    refine ih (fun other hother => ?_) (fun other hother =>
      hentries other (List.mem_cons_of_mem _ hother)) h
    rw [← Option.some.inj hother]
    exact hentries entry List.mem_cons_self

theorem record_key {host : Host} {input : ReadReconciliationInput π} {key : String}
    {row : ProjectedRow π} (h : host.record input key = some row) : row.key = key := by
  refine overlaid_key (fun base hbase => merge_key hbase) (fun entry hentry => ?_) h
  exact of_decide_eq_true (List.mem_filter.mp hentry).2

theorem digits_normalizeDecimal (value : String) :
    ∀ c ∈ (normalizeDecimal value).toList, c.isDigit = true := by
  have hzero : ∀ c ∈ "0".toList, c.isDigit = true := by
    intro c hc
    obtain rfl : c = '0' := List.mem_singleton.mp hc
    rfl
  unfold normalizeDecimal
  split
  · rename_i h
    simp only [decimalPattern, Bool.or_eq_true, decide_eq_true_eq, Bool.and_eq_true] at h
    rcases h with rfl | ⟨-, hdigits⟩
    · exact hzero
    · exact List.all_eq_true.mp hdigits
  · exact hzero

theorem toNat_of_isDigit {c : Char} (h : c.isDigit = true) : c.toNat ≤ 57 := by
  simp only [Char.isDigit, Bool.and_eq_true, decide_eq_true_eq] at h
  exact h.2

theorem compareDecimal_eq : TypeScript.compareDecimal = Rust.compareDecimal := by
  funext left right
  have ha := digits_normalizeDecimal left
  have hb := digits_normalizeDecimal right
  unfold TypeScript.compareDecimal Rust.compareDecimal
  dsimp only
  generalize normalizeDecimal left = a at ha
  generalize normalizeDecimal right = b at hb
  have hascii : ∀ s : String, (∀ c ∈ s.toList, c.isDigit = true) →
      ∀ c ∈ s.toList, c.toNat < 128 := by
    intro s hs c hc
    have hle := toNat_of_isDigit (hs c hc)
    omega
  have hbmp : ∀ s : String, (∀ c ∈ s.toList, c.isDigit = true) →
      ∀ c ∈ s.toList, c.toNat < 0x10000 := by
    intro s hs c hc
    have hlt := hascii s hs c hc
    omega
  have hlength : ∀ s : String, (∀ c ∈ s.toList, c.isDigit = true) →
      (Utf16.encode s.toList).length = s.utf8ByteSize := by
    intro s hs
    rw [Utf16.encode_of_lt (hbmp s hs), List.length_map, Utf16.utf8ByteSize_of_lt (hascii s hs)]
  rw [hlength a ha, hlength b hb]
  have hab := Utf16.before_iff_lt (hbmp a ha) (hbmp b hb)
  have hba := Utf16.before_iff_lt (hbmp b hb) (hbmp a ha)
  rcases Nat.lt_trichotomy a.utf8ByteSize b.utf8ByteSize with hlt | heq | hgt
  · rw [if_pos hlt.ne, if_pos hlt, compare_lt_iff_lt.mpr hlt]
    rfl
  · rw [if_neg (not_not.mpr heq), compare_eq_iff_eq.mpr heq, Ordering.eq_then]
    rcases lt_trichotomy a b with h | h | h
    · rw [if_pos (hab.mpr h), compare_lt_iff_lt.mpr h]
    · rw [if_neg (fun hc => (hab.mp hc).ne h), if_neg (fun hc => (hba.mp hc).ne h.symm),
        compare_eq_iff_eq.mpr h]
    · rw [if_neg (fun hc => (hab.mp hc).asymm h), if_pos (hba.mpr h), compare_gt_iff_gt.mpr h]
  · rw [if_pos hgt.ne', if_neg hgt.asymm, compare_gt_iff_gt.mpr hgt]
    rfl

instance transCompareDecimal : Std.TransCmp Rust.compareDecimal := by
  show Std.TransCmp (compareLex (compareOn fun value => (normalizeDecimal value).utf8ByteSize)
    (compareOn normalizeDecimal))
  infer_instance

theorem better_tie {first second : Host} (hfirst : first.compareDecimal = Rust.compareDecimal)
    (hsecond : second.compareDecimal = Rust.compareDecimal) {a b candidate : BaseRow π}
    (h : Rust.compareDecimal a.revision b.revision = .eq) :
    Rust.compareDecimal (first.better a candidate).revision
      (second.better b candidate).revision = .eq := by
  have hsame : Rust.compareDecimal candidate.revision a.revision =
      Rust.compareDecimal candidate.revision b.revision := Std.TransCmp.congr_right h
  unfold Host.better
  rw [hfirst, hsecond, hsame]
  cases hcandidate : Rust.compareDecimal candidate.revision b.revision with
  | gt => exact Std.ReflCmp.compare_self
  | lt => exact h
  | eq =>
    have hswap : Rust.compareDecimal a.revision candidate.revision =
        (Rust.compareDecimal candidate.revision a.revision).swap := Std.OrientedCmp.eq_swap
    have ha : Rust.compareDecimal a.revision candidate.revision = .eq := by
      rw [hswap, hsame, hcandidate]
      rfl
    dsimp only
    split
    · split
      · exact Std.ReflCmp.compare_self
      · exact hcandidate
    · split
      · exact ha
      · exact h

/-- Whatever decides among equals, the revisions that win are equal. -/
theorem selectRemoteWinner_tie {first second : Host}
    (hfirst : first.compareDecimal = Rust.compareDecimal)
    (hsecond : second.compareDecimal = Rust.compareDecimal) {rows : List (BaseRow π)}
    {a b : BaseRow π} (ha : first.selectRemoteWinner rows = some a)
    (hb : second.selectRemoteWinner rows = some b) :
    Rust.compareDecimal a.revision b.revision = .eq := by
  have hfold : ∀ (rows : List (BaseRow π)) (a b : BaseRow π),
      Rust.compareDecimal a.revision b.revision = .eq →
        Rust.compareDecimal (rows.foldl first.better a).revision
          (rows.foldl second.better b).revision = .eq := by
    intro rows
    induction rows with
    | nil => exact fun _ _ h => h
    | cons candidate rows ih => exact fun a b h => ih _ _ (better_tie hfirst hsecond h)
  cases rows with
  | nil => cases ha
  | cons row rows =>
    rw [← Option.some.inj ha, ← Option.some.inj hb]
    exact hfold rows row row Std.ReflCmp.compare_self

/-- The remote rows that the two clients choose for a key leave the same record: a row of an equal
revision is overridden by the local row, or only its revision or nothing of it shows through the
overlay. -/
def ChoiceAgrees (input : ReadReconciliationInput π) (first second : Host) (key : String) : Prop :=
  ∀ a b, first.selectRemoteWinner (input.group key) = some a →
    second.selectRemoteWinner (input.group key) = some b →
      (∀ base, input.base key = some base →
        Rust.compareDecimal a.revision base.revision = .gt) →
          if input.visible key = [] then
            toProjected a "authoritative" = toProjected b "authoritative"
          else (∀ entry ∈ input.visible key, entry.revision = none) → a.revision = b.revision

def revisionOf (row : Option (ProjectedRow π)) : String := (row.map ProjectedRow.revision).getD "0"

theorem revisionOf_overlaid_iff (a b : Option (ProjectedRow π)) (entries : List (OverlayEntry π)) :
    revisionOf (overlaid a entries) = revisionOf (overlaid b entries) ↔
      ((∀ entry ∈ entries, entry.revision = none) → revisionOf a = revisionOf b) := by
  induction entries generalizing a b with
  | nil => simp [overlaid]
  | cons entry entries ih =>
    have hproject : ∀ row : Option (ProjectedRow π), revisionOf (some (entry.project row)) =
        entry.revision.getD (revisionOf row) := by
      intro row
      cases hrevision : entry.revision with
      | none => simp [revisionOf, OverlayEntry.project, hrevision]
      | some revision => simp [revisionOf, OverlayEntry.project, hrevision]
    show revisionOf (overlaid (some (entry.project a)) entries) =
      revisionOf (overlaid (some (entry.project b)) entries) ↔ _
    rw [ih, hproject, hproject]
    cases hrevision : entry.revision with
    | none => simp [hrevision]
    | some revision => simp [hrevision]

theorem project_eq_iff (entry : OverlayEntry π) (a b : Option (ProjectedRow π)) :
    entry.project a = entry.project b ↔
      revisionOf (some (entry.project a)) = revisionOf (some (entry.project b)) := by
  constructor
  · intro h
    rw [h]
  · intro h
    have hrevision : (entry.project a).revision = (entry.project b).revision := h
    unfold OverlayEntry.project at hrevision ⊢
    simp only at hrevision ⊢
    rw [hrevision]

theorem overlaid_eq_iff (a b : Option (ProjectedRow π)) (entries : List (OverlayEntry π)) :
    overlaid a entries = overlaid b entries ↔
      if entries = [] then a = b
      else (∀ entry ∈ entries, entry.revision = none) → revisionOf a = revisionOf b := by
  rw [← revisionOf_overlaid_iff]
  induction entries using List.reverseRecOn with
  | nil => simp [overlaid]
  | append_singleton entries entry _ =>
    have hconcat : ∀ row : Option (ProjectedRow π), overlaid row (entries ++ [entry]) =
        some (entry.project (overlaid row entries)) := by
      intro row
      rw [overlaid, List.foldl_append]
      rfl
    rw [if_neg (by simp), hconcat, hconcat, Option.some.injEq, project_eq_iff]

theorem record_eq_iff {first second : Host} (hfirst : first.compareDecimal = Rust.compareDecimal)
    (hsecond : second.compareDecimal = Rust.compareDecimal)
    (input : ReadReconciliationInput π) (key : String) :
    first.record input key = second.record input key ↔ ChoiceAgrees input first second key := by
  have hshows : ∀ a b : BaseRow π,
      (if input.visible key = [] then
        some (toProjected a "authoritative") = some (toProjected b "authoritative")
      else (∀ entry ∈ input.visible key, entry.revision = none) →
        revisionOf (some (toProjected a "authoritative")) =
          revisionOf (some (toProjected b "authoritative"))) ↔
      if input.visible key = [] then
        toProjected a "authoritative" = toProjected b "authoritative"
      else (∀ entry ∈ input.visible key, entry.revision = none) → a.revision = b.revision := by
    intro a b
    rw [Option.some.injEq]
    exact Iff.rfl
  unfold Host.record ChoiceAgrees
  rw [overlaid_eq_iff]
  cases hfirst' : first.selectRemoteWinner (input.group key) with
  | none =>
    have hgroup : input.group key = [] := by
      cases hgroup : input.group key with
      | nil => rfl
      | cons row rows =>
        rw [hgroup] at hfirst'
        cases hfirst'
    rw [hgroup]
    refine iff_of_true ?_ fun a b ha => by cases ha
    split
    · rfl
    · exact fun _ => rfl
  | some a =>
    obtain ⟨b, hb⟩ : ∃ b, second.selectRemoteWinner (input.group key) = some b := by
      cases hgroup : input.group key with
      | nil =>
        rw [hgroup] at hfirst'
        cases hfirst'
      | cons row rows => exact ⟨_, rfl⟩
    have htie := selectRemoteWinner_tie hfirst hsecond hfirst' hb
    have hquantifiers : ∀ P : BaseRow π → BaseRow π → Prop,
        (∀ a' b', some a = some a' → second.selectRemoteWinner (input.group key) = some b' →
          P a' b') ↔ P a b := by
      intro P
      constructor
      · intro h
        exact h a b rfl hb
      · intro h a' b' ha' hb'
        rw [← Option.some.inj ha', ← Option.some.inj (hb.symm.trans hb')]
        exact h
    rw [hquantifiers, hb]
    cases hbase : input.base key with
    | none =>
      have hnone : (∀ base, (none : Option (BaseRow π)) = some base →
          Rust.compareDecimal a.revision base.revision = .gt) := fun base h => by cases h
      exact (hshows a b).trans ⟨fun h _ => h, fun h => h hnone⟩
    | some base =>
      have hbRevision : Rust.compareDecimal b.revision base.revision =
          Rust.compareDecimal a.revision base.revision := (Std.TransCmp.congr_left htie).symm
      have hmergeFirst : first.merge (some a) (some (toProjected base "authoritative")) =
          if Rust.compareDecimal a.revision base.revision = .gt then
            some (toProjected a "authoritative") else some (toProjected base "authoritative") := by
        rw [← hfirst]
        rfl
      have hmergeSecond : second.merge (some b) (some (toProjected base "authoritative")) =
          if Rust.compareDecimal a.revision base.revision = .gt then
            some (toProjected b "authoritative") else some (toProjected base "authoritative") := by
        rw [← hbRevision, ← hsecond]
        rfl
      rw [Option.map_some, hmergeFirst, hmergeSecond]
      by_cases hgt : Rust.compareDecimal a.revision base.revision = .gt
      · rw [if_pos hgt, if_pos hgt]
        refine (hshows a b).trans ⟨fun h _ => h, fun h => h fun other hother => ?_⟩
        rw [← Option.some.inj hother]
        exact hgt
      · rw [if_neg hgt, if_neg hgt]
        refine iff_of_true ?_ fun h => absurd (h base rfl) hgt
        split
        · rfl
        · exact fun _ => rfl

/-! ## The order of the keys in TypeScript -/

section Keys

open TypeScript

variable (host : Host)

def jsKeys {ν : Type} (m : JsMap ν) : List String := (toList m).map Prod.fst

theorem jsKeys_insert {ν : Type} (m : JsMap ν) (key : String) (value : ν) :
    jsKeys (insert m key value) = push (jsKeys m) key := InsertionMap.keys_set m key value

theorem mem_jsKeys {ν : Type} {m : JsMap ν} {key : String} {value : ν}
    (h : get? m key = some value) : key ∈ jsKeys m :=
  List.mem_map_of_mem ((LawfulStringMap.mem_toList m key value).mpr h)

/-- The keys that the passes set, one after the other. -/
def ReadReconciliationInput.keys (input : ReadReconciliationInput π) : List String :=
  input.localBase.map BaseRow.key ++ input.remote.map BaseRow.key ++
    (input.overlay.filter input.isVisible).map OverlayEntry.key

theorem jsKeys_localRows (rows : List (BaseRow π)) (working : JsMap (ProjectedRow π)) :
    jsKeys (rows.foldl Host.applyLocal working) =
      (rows.map BaseRow.key).foldl push (jsKeys working) := by
  induction rows generalizing working with
  | nil => rfl
  | cons row rows ih =>
    rw [List.foldl_cons, ih, List.map_cons, List.foldl_cons, Host.applyLocal, jsKeys_insert]

theorem jsKeys_grouped (rows : List (BaseRow π)) (grouped : JsMap (List (BaseRow π))) :
    jsKeys (rows.foldl Host.groupRow grouped) =
      (rows.map BaseRow.key).foldl push (jsKeys grouped) := by
  induction rows generalizing grouped with
  | nil => rfl
  | cons row rows ih =>
    rw [List.foldl_cons, ih, List.map_cons, List.foldl_cons, Host.groupRow, jsKeys_insert]

theorem jsKeys_applyRemote (working : JsMap (ProjectedRow π))
    {group : String × List (BaseRow π)} (hgroup : group.2 ≠ []) :
    jsKeys (host.applyRemote working group) = push (jsKeys working) group.1 := by
  unfold Host.applyRemote
  cases hremote : host.selectRemoteWinner group.2 with
  | none =>
    cases hrows : group.2 with
    | nil => exact absurd hrows hgroup
    | cons row rows =>
      rw [hrows] at hremote
      cases hremote
  | some remote =>
    cases hbase : get? working group.1 with
    | none => exact jsKeys_insert _ _ _
    | some base =>
      dsimp only
      split
      · exact jsKeys_insert _ _ _
      · rw [push, if_pos (mem_jsKeys hbase)]

theorem jsKeys_remoteRows {groups : List (String × List (BaseRow π))}
    (hgroups : ∀ group ∈ groups, group.2 ≠ []) (working : JsMap (ProjectedRow π)) :
    jsKeys (groups.foldl host.applyRemote working) =
      (groups.map Prod.fst).foldl push (jsKeys working) := by
  induction groups generalizing working with
  | nil => rfl
  | cons group groups ih =>
    rw [List.foldl_cons, ih (fun other hother => hgroups other (List.mem_cons_of_mem _ hother)),
      List.map_cons, List.foldl_cons,
      jsKeys_applyRemote host working (hgroups group List.mem_cons_self)]

theorem jsKeys_authoritativeRows (input : ReadReconciliationInput π) :
    jsKeys (host.authoritativeRows input : JsMap (ProjectedRow π)) =
      firsts (input.localBase.map BaseRow.key ++ input.remote.map BaseRow.key) := by
  have hgroups : ∀ group ∈ toList (input.remote.foldl Host.groupRow empty :
      JsMap (List (BaseRow π))), group.2 ≠ [] := by
    intro group hgroup
    have hget := (LawfulStringMap.mem_toList _ group.1 group.2).mp hgroup
    rw [get?_grouped] at hget
    split at hget
    · cases hget
    · rw [← Option.some.inj hget]
      assumption
  have hlocal : jsKeys (input.localBase.foldl Host.applyLocal empty : JsMap (ProjectedRow π)) =
      firsts (input.localBase.map BaseRow.key) := jsKeys_localRows input.localBase empty
  have hgrouped : jsKeys (input.remote.foldl Host.groupRow empty : JsMap (List (BaseRow π))) =
      firsts (input.remote.map BaseRow.key) := jsKeys_grouped input.remote empty
  calc jsKeys (host.authoritativeRows input : JsMap (ProjectedRow π)) =
        (jsKeys (input.remote.foldl Host.groupRow empty : JsMap (List (BaseRow π)))).foldl push
          (jsKeys (input.localBase.foldl Host.applyLocal empty : JsMap (ProjectedRow π))) :=
        jsKeys_remoteRows host hgroups _
    _ = (input.remote.map BaseRow.key).foldl push (firsts (input.localBase.map BaseRow.key)) := by
        rw [hgrouped, hlocal, foldl_push_firsts]
    _ = firsts (input.localBase.map BaseRow.key ++ input.remote.map BaseRow.key) := by
        unfold firsts
        rw [List.foldl_append]

theorem jsKeys_overlayRows (hhides : HidesPending host) (input : ReadReconciliationInput π)
    {entries : List (OverlayEntry π)} (hvalid : ∀ entry ∈ entries, ∃ policy,
      Rust.canonicalizeConsistencyPolicy entry.consistencyPolicy = .ok policy)
    {working rows : JsMap (ProjectedRow π)}
    (hrows : entries.foldlM (host.applyOverlay input.acknowledgedMutationIds) working = .ok rows) :
    jsKeys rows = ((entries.filter input.isVisible).map OverlayEntry.key).foldl push
      (jsKeys working) := by
  induction entries generalizing working with
  | nil =>
    cases hrows
    rfl
  | cons entry entries ih =>
    obtain ⟨policy, hpolicy⟩ := hvalid entry List.mem_cons_self
    rw [List.foldlM_cons, applyOverlay_eq host hhides input hpolicy working] at hrows
    rw [ih (fun other hother => hvalid other (List.mem_cons_of_mem _ hother)) hrows]
    by_cases hvisible : input.isVisible entry = true
    · rw [if_pos hvisible, List.filter_cons_of_pos hvisible, List.map_cons, List.foldl_cons,
        jsKeys_insert]
    · rw [if_neg hvisible, List.filter_cons_of_neg hvisible]

theorem jsKeys_workingRows (hhides : HidesPending host) (input : ReadReconciliationInput π)
    (hvalid : input.PoliciesValid) {rows : JsMap (ProjectedRow π)}
    (hrows : host.workingRows input = .ok rows) : jsKeys rows = firsts input.keys := by
  rw [jsKeys_overlayRows host hhides input hvalid hrows, jsKeys_authoritativeRows]
  unfold firsts ReadReconciliationInput.keys
  rw [← List.foldl_append]

end Keys

theorem transCmp_pullback {α β : Type} (compareTexts : β → β → Ordering)
    [Std.TransCmp compareTexts] (f : α → β) :
    Std.TransCmp fun a b => compareTexts (f a) (f b) where
  eq_swap := Std.OrientedCmp.eq_swap
  isLE_trans := Std.TransCmp.isLE_trans

theorem transCmp_compareRows (host : Host) [Std.TransCmp host.compareTexts] :
    Std.TransCmp (host.compareRows : ProjectedRow π → ProjectedRow π → Ordering) := by
  have htable := transCmp_pullback host.compareTexts (ProjectedRow.table (π := π))
  have hrecord := transCmp_pullback host.compareTexts (ProjectedRow.recordId (π := π))
  show Std.TransCmp (compareLex _ _)
  infer_instance

/-- The result is ordered by the host's texts; records that it takes for equal keep their order. -/
theorem sorted_iff (host : Host) [Std.TransCmp host.compareTexts] {rows s : List (ProjectedRow π)}
    (hrows : rows.Nodup) :
    (rows.mergeSort fun left right => host.compareRows left right ≠ .gt) = s ↔
      s.Perm rows ∧ ∀ a b, Before s a b →
        host.compareRows a b = .lt ∨ (host.compareRows a b = .eq ∧ Before rows a b) := by
  have htrans := transCmp_compareRows (π := π) host
  have hle : ∀ a b : ProjectedRow π,
      decide (host.compareRows a b ≠ .gt) = true ↔ (host.compareRows a b).isLE = true := by
    intro a b
    cases host.compareRows a b <;> decide
  rw [mergeSort_eq_iff _ _ hrows]
  · refine and_congr_right fun _ => forall₂_congr fun a b => forall_congr' fun _ => ?_
    have hswap : host.compareRows b a = (host.compareRows a b).swap := Std.OrientedCmp.eq_swap
    rw [hle, hle, hswap]
    cases host.compareRows a b with
    | lt => simp
    | eq => simp
    | gt => simp
  · intro a b c hab hbc
    rw [hle] at hab hbc ⊢
    exact htrans.isLE_trans hab hbc
  · intro a b
    have hswap : host.compareRows b a = (host.compareRows a b).swap := Std.OrientedCmp.eq_swap
    rw [Bool.or_eq_true, hle, hle, hswap]
    cases host.compareRows a b <;> decide

section Rows

variable {M : Type → Type} [StringMap M] [LawfulStringMap M] {host : Host}
  {input : ReadReconciliationInput π} {working : M (ProjectedRow π)}

theorem rows_map_key (hget : ∀ key, get? working key = host.record input key) :
    ((toList working).map Prod.snd).map ProjectedRow.key = (toList working).map Prod.fst := by
  rw [List.map_map]
  refine List.map_congr_left fun entry hentry => ?_
  have hrecord := (LawfulStringMap.mem_toList working entry.1 entry.2).mp hentry
  rw [hget] at hrecord
  exact record_key hrecord

theorem mem_rows (hget : ∀ key, get? working key = host.record input key)
    {row : ProjectedRow π} :
    row ∈ (toList working).map Prod.snd ↔ host.record input row.key = some row := by
  constructor
  · intro h
    obtain ⟨entry, hentry, rfl⟩ := List.mem_map.mp h
    have hrecord := (LawfulStringMap.mem_toList working entry.1 entry.2).mp hentry
    rw [hget] at hrecord
    rw [record_key hrecord]
    exact hrecord
  · intro h
    rw [← hget] at h
    exact List.mem_map_of_mem ((LawfulStringMap.mem_toList working row.key row).mpr h)

theorem nodup_rows_key (hget : ∀ key, get? working key = host.record input key) :
    (((toList working).map Prod.snd).map ProjectedRow.key).Nodup := by
  rw [rows_map_key hget]
  exact LawfulStringMap.nodup working

end Rows

instance rustCompareTexts : Std.TransCmp Rust.host.compareTexts :=
  inferInstanceAs (Std.TransCmp (compare : String → String → Ordering))

/-- The Rust order is strict: records that it takes for equal have one key. -/
theorem rust_compareRows_eq {a b : ProjectedRow π} (h : Rust.host.compareRows a b = .eq) :
    a.key = b.key := by
  obtain ⟨htable, hrecord⟩ := Ordering.then_eq_eq.mp h
  have hequal : ∀ left right : String, Rust.host.compareTexts left right = .eq → left = right :=
    fun left right heq => (compare_eq_iff_eq (a := left) (b := right)).mp heq
  rw [ProjectedRow.key, hequal _ _ htable, hequal _ _ hrecord, ProjectedRow.key]

/-- In the Rust result the order is the order of the texts. -/
theorem rust_before_iff {rows s : List (ProjectedRow π)}
    (hrows : (rows.map ProjectedRow.key).Nodup)
    (hs : (rows.mergeSort fun left right => Rust.host.compareRows left right ≠ .gt) = s)
    {a b : ProjectedRow π} :
    Before s a b ↔ a ∈ rows ∧ b ∈ rows ∧ Rust.host.compareRows a b = .lt := by
  obtain ⟨hperm, hsorted⟩ := (sorted_iff Rust.host (List.Nodup.of_map _ hrows)).mp hs
  have hnodup : s.Nodup := hperm.nodup_iff.mpr (List.Nodup.of_map _ hrows)
  have hbefore : ∀ a b, Before s a b →
      a ∈ rows ∧ b ∈ rows ∧ Rust.host.compareRows a b = .lt := by
    intro a b hab
    have ha := hperm.mem_iff.mp hab.mem.1
    have hb := hperm.mem_iff.mp hab.mem.2
    refine ⟨ha, hb, (hsorted a b hab).resolve_right fun heq => ?_⟩
    obtain rfl := List.inj_on_of_nodup_map hrows ha hb (rust_compareRows_eq heq.1)
    exact hab.not_swap hnodup hab
  constructor
  · exact hbefore a b
  · intro h
    obtain ⟨ha, hb, hlt⟩ := h
    have htrans := transCmp_compareRows (π := π) Rust.host
    have hself : Rust.host.compareRows b b = .eq := Std.ReflCmp.compare_self
    have hne : a ≠ b := by
      intro hab
      rw [hab, hself] at hlt
      cases hlt
    refine (before_or_before (hperm.mem_iff.mpr ha) (hperm.mem_iff.mpr hb) hne).resolve_right
      fun hswap => ?_
    have hgt : Rust.host.compareRows b a = (Rust.host.compareRows a b).swap :=
      Std.OrientedCmp.eq_swap
    rw [hlt, (hbefore b a hswap).2.2] at hgt
    cases hgt

/-! ## Agreement -/

def compareIdentifiers (compareTexts : String → String → Ordering) (a b : String × String) :
    Ordering := (compareTexts a.1 b.1).then (compareTexts a.2 b.2)

/-- The table and the record that a key shows: those of the last overlay entry, else of the row
that wins between remote and local. -/
def identifiers (input : ReadReconciliationInput π) (key : String) : Option (String × String) :=
  ((input.visible key).getLast?.map fun entry => (entry.table, entry.recordId)).or
    ((Rust.host.merge (Rust.host.selectRemoteWinner (input.group key))
      ((input.base key).map fun row => toProjected row "authoritative")).map
        fun row => (row.table, row.recordId))

def Shown (input : ReadReconciliationInput π) (record : String × String) : Prop :=
  identifiers input (recordKey record.1 record.2) = some record

def ChoicesAgree (localeCompare : String → String → Ordering)
    (input : ReadReconciliationInput π) : Prop :=
  ∀ key, ChoiceAgrees input Rust.host (TypeScript.host localeCompare) key

/-- The locale orders the shown records as their code points do; those that it takes for equal come
in that order in the input. -/
def OrdersAgree (localeCompare : String → String → Ordering)
    (input : ReadReconciliationInput π) : Prop :=
  ∀ a b, Shown input a → Shown input b → compareIdentifiers compare a b = .lt →
    compareIdentifiers localeCompare a b = .lt ∨ (compareIdentifiers localeCompare a b = .eq ∧
      input.keys.idxOf (recordKey a.1 a.2) < input.keys.idxOf (recordKey b.1 b.2))

theorem identifiers_eq (input : ReadReconciliationInput π) (key : String) :
    identifiers input key =
      (Rust.host.record input key).map fun row => (row.table, row.recordId) := by
  unfold identifiers Host.record
  induction input.visible key using List.reverseRecOn with
  | nil => rfl
  | append_singleton entries entry _ =>
    rw [List.getLast?_concat, overlaid, List.foldl_append]
    rfl

theorem shown_iff (input : ReadReconciliationInput π) (record : String × String) :
    Shown input record ↔ ∃ row, Rust.host.record input row.key = some row ∧
      (row.table, row.recordId) = record := by
  unfold Shown
  rw [identifiers_eq, Option.map_eq_some_iff]
  constructor
  · intro h
    obtain ⟨row, hrow, hrecord⟩ := h
    refine ⟨row, ?_, hrecord⟩
    rw [record_key hrow]
    exact hrow
  · intro h
    obtain ⟨row, hrow, rfl⟩ := h
    exact ⟨row, hrow, rfl⟩

theorem perm_iff_choicesAgree (localeCompare : String → String → Ordering)
    {input : ReadReconciliationInput π} {rustRows : Rust.BTreeMap (ProjectedRow π)}
    {jsRows : TypeScript.JsMap (ProjectedRow π)}
    (hrust : ∀ key, get? rustRows key = Rust.host.record input key)
    (hjs : ∀ key, get? jsRows key = (TypeScript.host localeCompare).record input key) :
    ((toList rustRows).map Prod.snd).Perm ((toList jsRows).map Prod.snd) ↔
      ChoicesAgree localeCompare input := by
  have hrecords : ChoicesAgree localeCompare input ↔
      ∀ key, Rust.host.record input key = (TypeScript.host localeCompare).record input key :=
    forall_congr' fun key => (record_eq_iff rfl compareDecimal_eq input key).symm
  rw [hrecords, List.perm_ext_iff_of_nodup (List.Nodup.of_map _ (nodup_rows_key hrust))
    (List.Nodup.of_map _ (nodup_rows_key hjs))]
  constructor
  · intro h key
    have hsame : ∀ row, Rust.host.record input key = some row ↔
        (TypeScript.host localeCompare).record input key = some row := by
      intro row
      have hrow := h row
      rw [mem_rows hrust, mem_rows hjs] at hrow
      constructor
      · intro hrecord
        have hkey := record_key hrecord
        rw [hkey] at hrow
        exact hrow.mp hrecord
      · intro hrecord
        have hkey := record_key hrecord
        rw [hkey] at hrow
        exact hrow.mpr hrecord
    exact Option.ext hsame
  · intro h row
    rw [mem_rows hrust, mem_rows hjs, h]

/-- Records come in the TypeScript map in the order in which their keys come in the input. -/
theorem js_before_iff {localeCompare : String → String → Ordering}
    {input : ReadReconciliationInput π} (hvalid : input.PoliciesValid)
    {jsRows : TypeScript.JsMap (ProjectedRow π)}
    (hworking : (TypeScript.host localeCompare).workingRows input = .ok jsRows)
    (hjs : ∀ key, get? jsRows key = (TypeScript.host localeCompare).record input key)
    {a b : ProjectedRow π} (ha : a ∈ (toList jsRows).map Prod.snd)
    (hb : b ∈ (toList jsRows).map Prod.snd) :
    Before ((toList jsRows).map Prod.snd) a b ↔
      input.keys.idxOf a.key < input.keys.idxOf b.key := by
  have hkeys : ((toList jsRows).map Prod.snd).map ProjectedRow.key = firsts input.keys := by
    rw [rows_map_key hjs]
    exact jsKeys_workingRows _ (typescript_hidesPending localeCompare) input hvalid hworking
  have hb' : b.key ∈ input.keys := by
    rw [← mem_firsts, ← hkeys]
    exact List.mem_map_of_mem hb
  rw [← before_map_iff (nodup_rows_key hjs) ha hb, hkeys, before_firsts_iff hb']

/-- For a consistent locale comparison and valid policies both clients return a list, and the lists
are equal exactly if the choices among remote rows of one revision leave the same records and the
locale's order of the shown records is that of their code points. -/
theorem readModels_agree_iff (localeCompare : String → String → Ordering)
    [Std.TransCmp localeCompare] (input : ReadReconciliationInput π)
    (hvalid : input.PoliciesValid) :
    (∃ rows, Rust.reconcileReadModel input = .ok rows ∧
      TypeScript.reconcileReadModel localeCompare input = .ok rows) ↔
        ChoicesAgree localeCompare input ∧ OrdersAgree localeCompare input := by
  have htexts : Std.TransCmp (TypeScript.host localeCompare).compareTexts :=
    inferInstanceAs (Std.TransCmp localeCompare)
  obtain ⟨rustRows, hrustRows, hrust⟩ : ∃ rows : Rust.BTreeMap (ProjectedRow π), _ :=
    get?_workingRows Rust.host rust_hidesPending input hvalid
  obtain ⟨jsRows, hjsRows, hjs⟩ : ∃ rows : TypeScript.JsMap (ProjectedRow π), _ :=
    get?_workingRows _ (typescript_hidesPending localeCompare) input hvalid
  generalize hresult : (((toList rustRows).map Prod.snd).mergeSort fun left right =>
    Rust.host.compareRows left right ≠ .gt) = result
  have hrustResult : Rust.reconcileReadModel input = .ok result := by
    rw [← hresult, Rust.reconcileReadModel, Host.reconcile, hrustRows]
    rfl
  have hjsResult : TypeScript.reconcileReadModel localeCompare input =
      .ok (((toList jsRows).map Prod.snd).mergeSort fun left right =>
        (TypeScript.host localeCompare).compareRows left right ≠ .gt) := by
    rw [TypeScript.reconcileReadModel, Host.reconcile, hjsRows]
    rfl
  have hperm : result.Perm ((toList rustRows).map Prod.snd) := by
    rw [← hresult]
    exact List.mergeSort_perm _ _
  have hsame : (∃ rows, Rust.reconcileReadModel input = .ok rows ∧
      TypeScript.reconcileReadModel localeCompare input = .ok rows) ↔
        (((toList jsRows).map Prod.snd).mergeSort fun left right =>
          (TypeScript.host localeCompare).compareRows left right ≠ .gt) = result := by
    rw [hrustResult, hjsResult]
    constructor
    · intro h
      obtain ⟨rows, hfirst, hsecond⟩ := h
      rw [Except.ok.inj hfirst, Except.ok.inj hsecond]
    · intro h
      exact ⟨result, rfl, by rw [h]⟩
  rw [hsame, sorted_iff _ (List.Nodup.of_map _ (nodup_rows_key hjs)),
    ← perm_iff_choicesAgree localeCompare hrust hjs, ← hperm.congr_left]
  refine and_congr_right fun hrows => ?_
  have hjsMem : ∀ row, row ∈ (toList rustRows).map Prod.snd → row ∈ (toList jsRows).map Prod.snd :=
    fun row hrow => hrows.mem_iff.mp (hperm.mem_iff.mpr hrow)
  constructor
  · intro h a b ha hb hlt
    obtain ⟨first, hfirst, rfl⟩ := (shown_iff input a).mp ha
    obtain ⟨second, hsecond, rfl⟩ := (shown_iff input b).mp hb
    have hfirst := (mem_rows hrust).mpr hfirst
    have hsecond := (mem_rows hrust).mpr hsecond
    have hbefore := (rust_before_iff (nodup_rows_key hrust) hresult).mpr ⟨hfirst, hsecond, hlt⟩
    refine (h first second hbefore).imp_right fun htie => ⟨htie.1, ?_⟩
    exact (js_before_iff hvalid hjsRows hjs (hjsMem _ hfirst) (hjsMem _ hsecond)).mp htie.2
  · intro h first second hbefore
    obtain ⟨hfirst, hsecond, hlt⟩ := (rust_before_iff (nodup_rows_key hrust) hresult).mp hbefore
    have hshown : ∀ row, row ∈ (toList rustRows).map Prod.snd →
        Shown input (row.table, row.recordId) :=
      fun row hrow => (shown_iff input _).mpr ⟨row, (mem_rows hrust).mp hrow, rfl⟩
    refine (h _ _ (hshown _ hfirst) (hshown _ hsecond) hlt).imp_right fun htie => ⟨htie.1, ?_⟩
    exact (js_before_iff hvalid hjsRows hjs (hjsMem _ hfirst) (hjsMem _ hsecond)).mpr htie.2

def localRow (recordId : String) : BaseRow Unit :=
  { table := "animals", recordId, revision := "1", operation := "upsert", payload := some ()
    identity := none }

/-- A local row, and a remote one under a pending update. -/
def pendingUpdate : ReadReconciliationInput Unit where
  localBase := [localRow "bear"]
  overlay := [{ mutationId := "7", clientId := "phone", table := "animals", recordId := "ant"
                operation := "upsert", payload := some (), revision := none
                consistencyPolicy := "local-first", status := "pending"
                transformedPayload := none }]
  remote := [localRow "ant"]
  acknowledgedMutationIds := []

theorem pendingUpdate_agree_iff :
    (∃ rows, Rust.reconcileReadModel pendingUpdate = .ok rows ∧
      TypeScript.reconcileReadModel compare pendingUpdate = .ok rows) ↔
        ChoicesAgree compare pendingUpdate ∧ OrdersAgree compare pendingUpdate := by
  refine readModels_agree_iff compare pendingUpdate fun entry hentry => ?_
  rw [List.mem_singleton.mp hentry]
  exact ⟨.writeThroughLocalFirst, by decide⟩

/-- English order on ASCII letters: by letter, then small before capital. -/
def englishCompare (a b : String) : Ordering :=
  (compare (a.toList.map Char.toLower) (b.toList.map Char.toLower)).then (compare b a)

def capitalFirst : ReadReconciliationInput Unit where
  localBase := [localRow "ant", localRow "Bear"]
  overlay := []
  remote := []
  acknowledgedMutationIds := []

theorem reconcile_of_sorted {M : Type → Type} [StringMap M] {host : Host}
    {input : ReadReconciliationInput π} (hoverlay : input.overlay = [])
    {rows : List (ProjectedRow π)}
    (hrows : (toList (host.authoritativeRows input : M (ProjectedRow π))).map Prod.snd = rows)
    (hsorted : rows.Pairwise fun left right => decide (host.compareRows left right ≠ .gt) = true) :
    host.reconcile M input = .ok rows := by
  unfold Host.reconcile Host.workingRows
  rw [hoverlay]
  show Except.ok (((toList (host.authoritativeRows input : M (ProjectedRow π))).map
    Prod.snd).mergeSort _) = _
  rw [hrows, List.mergeSort_of_pairwise hsorted]

theorem capitals_come_first_in_rust :
    ¬ ∃ rows, Rust.reconcileReadModel capitalFirst = .ok rows ∧
      TypeScript.reconcileReadModel englishCompare capitalFirst = .ok rows := by
  have hrust : Rust.reconcileReadModel capitalFirst =
      .ok [toProjected (localRow "Bear") "authoritative",
        toProjected (localRow "ant") "authoritative"] :=
    reconcile_of_sorted rfl (by decide +kernel) (by decide +kernel)
  have hjs : TypeScript.reconcileReadModel englishCompare capitalFirst =
      .ok [toProjected (localRow "ant") "authoritative",
        toProjected (localRow "Bear") "authoritative"] :=
    reconcile_of_sorted rfl (by decide +kernel) (by decide +kernel)
  intro h
  obtain ⟨rows, hfirst, hsecond⟩ := h
  have hsame := Except.ok.inj (hrust.symm.trans (hfirst.trans (hsecond.symm.trans hjs)))
  exact absurd hsame (by decide)

end OptoSync.ReadModel
