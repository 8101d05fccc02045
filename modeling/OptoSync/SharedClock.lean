import OptoSync.ClientClock

/-!
# A shared clock state

Several clocks over one persistence: browser tabs, isolates, restarts. A clock hands its saves to
the persistence in order, and each of them takes effect at some later moment.
-/
namespace OptoSync.ClientClock
open Transition

/-- A clock from its restore on. -/
structure Instance where
  clock : HybridLogicalClock
  /-- The saves that were called and have not reached the persistence, the first one first. -/
  saving : List String
  /-- What the persistence had held before the restore. -/
  earlier : List String
  /-- Another instance has saved since this one restored or saved. -/
  overtaken : Bool

structure Issue where
  timestamp : String
  /-- What the persistence had held before the restore of the issuing clock. -/
  earlier : List String

structure Shared where
  stored : Option String
  /-- The timestamps that the persistence has held, the first one first. -/
  saved : List String
  instances : ℕ → Option Instance
  issued : List Issue

def isTimestamp (text : String) : Bool := (parseHlc text).isSome

def Shared.start (stored : Option String) : Shared where
  stored := stored
  saved := (stored.filter isTimestamp).toList
  instances := fun _ => none
  issued := []

inductive SharedEvent
  | restore (i : ℕ) (nodeId : String) (maxDriftMs : ℤ)
  | next (i : ℕ) (physical : ℤ)
  | observe (i : ℕ) (remoteTimestamp : String) (now : ℤ)
  | save (i : ℕ)

namespace Shared

/-- A new clock; the constructor throws on an invalid node id. -/
def restore (s : Shared) (i : ℕ) (nodeId : String) (maxDriftMs : ℤ) : Shared :=
  if h : validNodeId nodeId = true then
    let clock : HybridLogicalClock :=
      { nodeId, maxDriftMs, millis := 0, counter := 0, node_valid := h }
    let opened : Instance :=
      { clock := clock.restore s.stored, saving := [], earlier := s.saved, overtaken := false }
    { s with instances := Function.update s.instances i (some opened) }
  else s

def move (s : Shared) (i : ℕ) (opened : Instance) (clock : HybridLogicalClock)
    (saves : Option String) : Shared :=
  { s with
    instances := Function.update s.instances i
      (some { opened with clock := clock, saving := opened.saving ++ saves.toList }) }

/-- The first save that the instance has called takes effect. -/
def save (s : Shared) (i : ℕ) (opened : Instance) (ts : String) (rest : List String) : Shared where
  stored := some ts
  saved := s.saved ++ [ts]
  instances := Function.update
    (fun j => (s.instances j).map fun other => { other with overtaken := true }) i
    (some { opened with saving := rest, overtaken := false })
  issued := s.issued

def step (s : Shared) : SharedEvent → Shared
  | .restore i nodeId maxDriftMs =>
    match s.instances i with
    | none => s.restore i nodeId maxDriftMs
    | some _ => s
  | .next i physical =>
    match s.instances i with
    | none => s
    | some opened =>
      let (ts, clock) := opened.clock.next physical
      { s.move i opened clock ts with
        issued := s.issued ++ ts.toList.map fun ts => ⟨ts, opened.earlier⟩ }
  | .observe i remoteTimestamp now =>
    match s.instances i with
    | none => s
    | some opened =>
      let (observed, clock) := opened.clock.observe remoteTimestamp now
      s.move i opened clock observed.saved
  | .save i =>
    match s.instances i with
    | none => s
    | some opened =>
      match opened.saving with
      | [] => s
      | ts :: rest => s.save i opened ts rest

end Shared

@[simp] theorem Shared.restore_saved (s : Shared) (i : ℕ) (nodeId : String) (maxDriftMs : ℤ) :
    (s.restore i nodeId maxDriftMs).saved = s.saved := by
  unfold Shared.restore
  split <;> rfl

@[simp] theorem Shared.restore_issued (s : Shared) (i : ℕ) (nodeId : String) (maxDriftMs : ℤ) :
    (s.restore i nodeId maxDriftMs).issued = s.issued := by
  unfold Shared.restore
  split <;> rfl

theorem Shared.restore_instances_of_ne (s : Shared) {i j : ℕ} (h : i ≠ j) (nodeId : String)
    (maxDriftMs : ℤ) : (s.restore j nodeId maxDriftMs).instances i = s.instances i := by
  unfold Shared.restore
  split
  · exact Function.update_of_ne h _ _
  · rfl

def Ascending (timestamps : List String) : Prop :=
  timestamps.Pairwise fun a b => compareHlc a b ≠ .gt

/-- What is stored never decreases, and a clock issues only timestamps above all that had been
saved before its restore. -/
structure NeverDecreases (s : Shared) : Prop where
  ascending : Ascending s.saved
  greater : ∀ issue ∈ s.issued, ∀ t ∈ issue.earlier, compareHlc t issue.timestamp = .lt

/-- The step does not write an older timestamp over one that another instance saved after this one
restored or saved last. -/
def SavesNewer (s : Shared) : SharedEvent → Prop
  | .save i => ∀ opened ts rest, s.instances i = some opened → opened.saving = ts :: rest →
      opened.overtaken = true → ∀ t, s.saved.getLast? = some t → compareHlc t ts ≠ .gt
  | _ => True

/-- The clock is at the timestamp or past it. -/
def Reached (clock : HybridLogicalClock) (t : String) : Prop :=
  ∃ p, parseHlc t = some p ∧ ¬ clock.peek.Before p

def Older (a b : String) : Prop :=
  ∃ p q, parseHlc a = some p ∧ parseHlc b = some q ∧ p.Before q

theorem restore_reached (clock : HybridLogicalClock) {last t : String} {p q : HlcParts}
    (hlast : parseHlc last = some p) (ht : parseHlc t = some q) (h : ¬ p.Before q) :
    Reached (clock.restore (some last)) t := by
  refine ⟨q, ht, ?_⟩
  obtain ⟨hmillis, hcounter⟩ := clock.restore_peek hlast
  unfold HlcParts.Before HybridLogicalClock.peek
  rw [hmillis, hcounter]
  exact h

theorem Older.compareHlc {a b : String} (h : Older a b) : compareHlc a b = .lt := by
  obtain ⟨p, q, ha, hb, hbefore⟩ := h
  exact compareHlc_of_before ha hb hbefore

theorem Reached.moves {clock clock' : HybridLogicalClock} {saves : Option String} {t : String}
    (h : Reached clock t) (hm : Moves clock clock' saves) : Reached clock' t := by
  rcases hm.forward with rfl | hbefore
  · exact h
  · obtain ⟨p, hp, hnot⟩ := h
    exact ⟨p, hp, HlcParts.Before.not_before hnot hbefore⟩

theorem Reached.older {clock clock' : HybridLogicalClock} {saves : Option String} {t ts : String}
    (h : Reached clock t) (hm : Moves clock clock' saves) (hts : saves = some ts) : Older t ts := by
  obtain ⟨p, hp, hnot⟩ := h
  obtain ⟨hbefore, hparse⟩ := hm.saved ts hts
  exact ⟨p, _, hp, hparse, .of_not_before hnot hbefore⟩

theorem Moves.reached {clock clock' : HybridLogicalClock} {saves : Option String} {ts : String}
    (hm : Moves clock clock' saves) (hts : saves = some ts) : Reached clock' ts :=
  ⟨_, (hm.saved ts hts).2, HlcParts.not_before_self _⟩

/-- The saves of an instance ascend to its clock, and are above what is stored as long as nobody
else saved; the clock is past all that had been saved before its restore if that ascends. -/
structure Instance.Inv (stored : Option String) (saved : List String) (opened : Instance) : Prop where
  saving : opened.saving.Pairwise Older
  reached : ∀ ts ∈ opened.saving, Reached opened.clock ts
  own : opened.overtaken = false → ∀ t, stored = some t → isTimestamp t = true →
    Reached opened.clock t ∧ ∀ ts ∈ opened.saving, Older t ts
  earlier : opened.earlier <+: saved
  restored : Ascending opened.earlier → ∀ t ∈ opened.earlier, Reached opened.clock t

structure Shared.Inv (s : Shared) : Prop where
  saved : ∀ t ∈ s.saved, isTimestamp t = true
  stored : s.saved.getLast? = s.stored.filter isTimestamp
  instances : ∀ i opened, s.instances i = some opened → opened.Inv s.stored s.saved

/-- In an ascending list no timestamp is above the last one. -/
theorem Ascending.le_last {timestamps : List String} (h : Ascending timestamps) {last : String}
    (hlast : timestamps.getLast? = some last) : ∀ t ∈ timestamps, compareHlc t last ≠ .gt := by
  obtain ⟨before, rfl⟩ := List.getLast?_eq_some_iff.mp hlast
  intro t ht
  rcases List.mem_append.mp ht with ht | ht
  · exact (List.pairwise_append.mp h).2.2 t ht last (List.mem_singleton_self last)
  · rw [List.mem_singleton.mp ht]
    exact compareHlc_ne_gt.mpr le_rfl

theorem Ascending.concat_iff {timestamps : List String} {ts : String} (h : Ascending timestamps) :
    Ascending (timestamps ++ [ts]) ↔
      ∀ last, timestamps.getLast? = some last → compareHlc last ts ≠ .gt := by
  unfold Ascending
  rw [List.pairwise_append]
  constructor
  · intro happend last hlast
    exact happend.2.2 last (List.mem_of_getLast? hlast) ts (List.mem_singleton_self ts)
  · intro hall
    refine ⟨h, List.pairwise_singleton _ _, fun t ht b hb => ?_⟩
    rw [List.mem_singleton.mp hb]
    cases hlast : timestamps.getLast? with
    | none =>
      rw [List.getLast?_eq_none_iff.mp hlast] at ht
      exact absurd ht List.not_mem_nil
    | some last => exact compareHlc_trans (h.le_last hlast t ht) (hall last hlast)

section Steps

variable {stored : Option String} {saved : List String} {opened : Instance}

theorem Instance.Inv.moves (h : opened.Inv stored saved) {clock : HybridLogicalClock}
    {saves : Option String} (hm : Moves opened.clock clock saves) :
    Instance.Inv stored saved
      { opened with clock := clock, saving := opened.saving ++ saves.toList } where
  saving := by
    refine List.pairwise_append.mpr ⟨h.saving, ?_, fun a ha b hb => ?_⟩
    · cases saves with
      | none => exact .nil
      | some ts => exact List.pairwise_singleton _ _
    · exact (h.reached a ha).older hm (Option.mem_toList.mp hb)
  reached := by
    intro ts hts
    rcases List.mem_append.mp hts with hold | hnew
    · exact (h.reached ts hold).moves hm
    · exact hm.reached (Option.mem_toList.mp hnew)
  own := by
    intro hown t ht hstamp
    obtain ⟨hreached, holder⟩ := h.own hown t ht hstamp
    refine ⟨hreached.moves hm, fun ts hts => ?_⟩
    rcases List.mem_append.mp hts with hold | hnew
    · exact holder ts hold
    · exact hreached.older hm (Option.mem_toList.mp hnew)
  earlier := h.earlier
  restored := fun hascending t ht => (h.restored hascending t ht).moves hm

/-- After another instance saved. -/
theorem Instance.Inv.overtake (h : opened.Inv stored saved) (ts : String) :
    Instance.Inv (some ts) (saved ++ [ts]) { opened with overtaken := true } where
  saving := h.saving
  reached := h.reached
  own := fun hown => by cases hown
  earlier := h.earlier.trans (List.prefix_append _ _)
  restored := h.restored

/-- After its own first save. -/
theorem Instance.Inv.saveFirst (h : opened.Inv stored saved) {ts : String} {rest : List String}
    (hsaving : opened.saving = ts :: rest) :
    Instance.Inv (some ts) (saved ++ [ts]) { opened with saving := rest, overtaken := false } := by
  have hpairwise := h.saving
  have hreached := h.reached
  rw [hsaving] at hpairwise hreached
  obtain ⟨hfirst, hrest⟩ := List.pairwise_cons.mp hpairwise
  refine ⟨hrest, fun t ht => hreached t (List.mem_cons_of_mem _ ht), ?_,
    h.earlier.trans (List.prefix_append _ _), h.restored⟩
  intro _ t ht _
  obtain rfl := Option.some.inj ht
  exact ⟨hreached ts List.mem_cons_self, hfirst⟩

end Steps

theorem inv_start (stored : Option String) : (Shared.start stored).Inv where
  saved := by
    intro t ht
    exact (Option.mem_filter_iff.mp (Option.mem_toList.mp ht)).2
  stored := by
    cases h : stored.filter isTimestamp with
    | none => simp [Shared.start, h]
    | some t => simp [Shared.start, h]
  instances := fun i opened h => by cases h

theorem Shared.Inv.update {s : Shared} (h : s.Inv) {i : ℕ} {opened : Instance}
    (hopened : opened.Inv s.stored s.saved) (issued : List Issue) :
    Shared.Inv { s with
      instances := Function.update s.instances i (some opened)
      issued := issued } where
  saved := h.saved
  stored := h.stored
  instances := by
    intro j other hj
    dsimp only at hj
    by_cases hji : j = i
    · subst hji
      rw [Function.update_self] at hj
      obtain rfl := Option.some.inj hj
      exact hopened
    · rw [Function.update_of_ne hji] at hj
      exact h.instances j other hj

/-- A clock restored from what is stored is past all that was saved, if that ascends. -/
theorem Shared.Inv.restore {s : Shared} (h : s.Inv) (i : ℕ) (nodeId : String) (maxDriftMs : ℤ) :
    (s.restore i nodeId maxDriftMs).Inv := by
  unfold Shared.restore
  split
  · refine h.update ⟨.nil, fun _ hts => absurd hts List.not_mem_nil, ?_, List.prefix_refl _, ?_⟩
      s.issued
    · intro _ t ht hstamp
      obtain ⟨p, hp⟩ := Option.isSome_iff_exists.mp hstamp
      refine ⟨?_, fun _ hts => absurd hts List.not_mem_nil⟩
      rw [ht]
      exact restore_reached _ hp hp (HlcParts.not_before_self p)
    · intro hascending t ht
      cases hlast : s.saved.getLast? with
      | none =>
        rw [List.getLast?_eq_none_iff.mp hlast] at ht
        exact absurd ht List.not_mem_nil
      | some last =>
        obtain ⟨p, hp⟩ := Option.isSome_iff_exists.mp (h.saved last (List.mem_of_getLast? hlast))
        obtain ⟨q, hq⟩ := Option.isSome_iff_exists.mp (h.saved t ht)
        have hstored : s.stored = some last :=
          (Option.mem_filter_iff.mp (h.stored.symm.trans hlast)).1
        rw [hstored]
        exact restore_reached _ hp hq
          (not_before_of_compareHlc hq hp (hascending.le_last hlast t ht))
  · exact h

theorem Shared.Inv.save {s : Shared} (h : s.Inv) {i : ℕ} {opened : Instance}
    (hi : s.instances i = some opened) {ts : String} {rest : List String}
    (hsaving : opened.saving = ts :: rest) : (s.save i opened ts rest).Inv := by
  have hopened := h.instances i opened hi
  have hstamp : isTimestamp ts = true := by
    obtain ⟨p, hp, -⟩ := hopened.reached ts (by rw [hsaving]; exact List.mem_cons_self)
    exact Option.isSome_iff_exists.mpr ⟨p, hp⟩
  refine ⟨fun t ht => ?_, ?_, fun j other hj => ?_⟩
  · rcases List.mem_append.mp ht with hold | hnew
    · exact h.saved t hold
    · rw [List.mem_singleton.mp hnew]
      exact hstamp
  · simp [Shared.save, Option.filter, hstamp]
  · simp only [Shared.save] at hj ⊢
    by_cases hji : j = i
    · subst hji
      rw [Function.update_self] at hj
      obtain rfl := Option.some.inj hj
      exact hopened.saveFirst hsaving
    · rw [Function.update_of_ne hji] at hj
      obtain ⟨old, hold, rfl⟩ := Option.map_eq_some_iff.mp hj
      exact (h.instances j old hold).overtake ts

theorem Shared.Inv.step {s : Shared} (h : s.Inv) (e : SharedEvent) : (s.step e).Inv := by
  cases e with
  | restore i nodeId maxDriftMs =>
    simp only [Shared.step]
    cases hi : s.instances i with
    | none => exact h.restore i nodeId maxDriftMs
    | some opened => exact h
  | next i physical =>
    simp only [Shared.step]
    cases hi : s.instances i with
    | none => exact h
    | some opened =>
      exact h.update ((h.instances i opened hi).moves (opened.clock.next_moves physical)) _
  | observe i remoteTimestamp now =>
    simp only [Shared.step]
    cases hi : s.instances i with
    | none => exact h
    | some opened =>
      exact h.update
        ((h.instances i opened hi).moves (opened.clock.observe_moves remoteTimestamp now)) _
  | save i =>
    simp only [Shared.step]
    cases hi : s.instances i with
    | none => exact h
    | some opened =>
      cases hsaving : opened.saving with
      | nil => simpa only [hsaving] using h
      | cons ts rest => simpa only [hsaving] using h.save hi hsaving

/-- No step takes an instance away or its clock back. -/
theorem Shared.step_reached {s : Shared} {i : ℕ} {opened : Instance}
    (hi : s.instances i = some opened) (e : SharedEvent) :
    ∃ opened', (s.step e).instances i = some opened' ∧
      ∀ t, Reached opened.clock t → Reached opened'.clock t := by
  have hsame : ∃ opened', s.instances i = some opened' ∧
      ∀ t, Reached opened.clock t → Reached opened'.clock t := ⟨opened, hi, fun _ h => h⟩
  have hmoved : ∀ (j : ℕ) (other : Instance) (clock : HybridLogicalClock) (saves : Option String),
      s.instances j = some other → Moves other.clock clock saves →
      ∃ opened', (s.move j other clock saves).instances i = some opened' ∧
        ∀ t, Reached opened.clock t → Reached opened'.clock t := by
    intro j other clock saves hj hm
    simp only [Shared.move]
    by_cases hij : i = j
    · subst hij
      obtain rfl := Option.some.inj (hi.symm.trans hj)
      exact ⟨_, Function.update_self .., fun t ht => ht.moves hm⟩
    · rw [Function.update_of_ne hij]
      exact hsame
  cases e with
  | restore j nodeId maxDriftMs =>
    simp only [Shared.step]
    cases hj : s.instances j with
    | some other => exact hsame
    | none =>
      have hij : i ≠ j := by
        rintro rfl
        rw [hi] at hj
        cases hj
      show ∃ opened', (s.restore j nodeId maxDriftMs).instances i = some opened' ∧ _
      rw [Shared.restore_instances_of_ne s hij]
      exact hsame
  | next j physical =>
    simp only [Shared.step]
    cases hj : s.instances j with
    | none => exact hsame
    | some other => exact hmoved j other _ _ hj (other.clock.next_moves physical)
  | observe j remoteTimestamp now =>
    simp only [Shared.step]
    cases hj : s.instances j with
    | none => exact hsame
    | some other => exact hmoved j other _ _ hj (other.clock.observe_moves remoteTimestamp now)
  | save j =>
    simp only [Shared.step]
    cases hj : s.instances j with
    | none => exact hsame
    | some other =>
      cases hsaving : other.saving with
      | nil => simpa only [hsaving] using hsame
      | cons ts rest =>
        simp only [hsaving, Shared.save]
        by_cases hij : i = j
        · subst hij
          obtain rfl := Option.some.inj (hi.symm.trans hj)
          exact ⟨_, Function.update_self .., fun _ h => h⟩
        · rw [Function.update_of_ne hij, hi]
          exact ⟨_, rfl, fun _ h => h⟩

/-- From a state where the law holds, a step keeps it exactly if it does not overwrite a newer
timestamp of another instance. -/
theorem NeverDecreases.step_iff {s : Shared} (hI : s.Inv) (h : NeverDecreases s)
    (e : SharedEvent) : NeverDecreases (s.step e) ↔ SavesNewer s e := by
  cases e with
  | restore i nodeId maxDriftMs =>
    refine iff_of_true ?_ trivial
    simp only [Shared.step]
    cases hi : s.instances i with
    | some opened => exact h
    | none => exact ⟨by simpa using h.ascending, by simpa using h.greater⟩
  | next i physical =>
    refine iff_of_true ?_ trivial
    simp only [Shared.step]
    cases hi : s.instances i with
    | none => exact h
    | some opened =>
      refine ⟨h.ascending, fun issue hissue t ht => ?_⟩
      rcases List.mem_append.mp hissue with hold | hnew
      · exact h.greater issue hold t ht
      · obtain ⟨ts, hts, rfl⟩ := List.mem_map.mp hnew
        have hopened := hI.instances i opened hi
        have hearlier : Ascending opened.earlier := h.ascending.sublist hopened.earlier.sublist
        exact ((hopened.restored hearlier t ht).older (opened.clock.next_moves physical)
          (Option.mem_toList.mp hts)).compareHlc
  | observe i remoteTimestamp now =>
    refine iff_of_true ?_ trivial
    simp only [Shared.step]
    cases hi : s.instances i with
    | none => exact h
    | some opened => exact ⟨h.ascending, h.greater⟩
  | save i =>
    simp only [Shared.step, SavesNewer]
    cases hi : s.instances i with
    | none => exact iff_of_true h fun _ _ _ hnone => by cases hnone
    | some opened =>
      cases hsaving : opened.saving with
      | nil =>
        simp only [hsaving]
        refine iff_of_true h fun other ts rest hother hrest => ?_
        obtain rfl := Option.some.inj hother
        rw [hsaving] at hrest
        cases hrest
      | cons ts rest =>
        simp only [hsaving]
        have hopened := hI.instances i opened hi
        constructor
        · intro hnext other ts' rest' hother hrest _
          obtain rfl := Option.some.inj hother
          rw [hsaving] at hrest
          obtain ⟨rfl, rfl⟩ := List.cons.inj hrest
          exact h.ascending.concat_iff.mp hnext.ascending
        · intro hnewer
          refine ⟨h.ascending.concat_iff.mpr fun last hsaved => ?_, h.greater⟩
          cases hovertaken : opened.overtaken with
          | false =>
            obtain ⟨hstored, hstamp⟩ := Option.mem_filter_iff.mp (hI.stored.symm.trans hsaved)
            have holder := (hopened.own hovertaken last hstored hstamp).2 ts
              (by rw [hsaving]; exact List.mem_cons_self)
            rw [holder.compareHlc]
            decide
          | true => exact hnewer opened ts rest rfl hsaving hovertaken last hsaved

/-- Along a run of any number of clocks over one persistence, what is stored never decreases (and
restored clocks issue only timestamps above what had been saved) exactly when no save writes an
older timestamp over one that another clock has saved meanwhile. -/
theorem sharedClock_never_decreases_iff (stored : Option String) (events : List SharedEvent) :
    StatesMeet Shared.step NeverDecreases (.start stored) events ↔
      StepsMeet Shared.step SavesNewer (.start stored) events := by
  refine statesMeet_iff_stepsMeet (I := Shared.Inv) (fun s e hI => hI.step e)
    (fun s e hI h => h.step_iff hI e) (inv_start stored) ⟨?_, ?_⟩ events
  · cases h : stored.filter isTimestamp with
    | none => simp [Shared.start, Ascending, h]
    | some t => simp [Shared.start, Ascending, h]
  · intro issue hissue
    exact absurd hissue List.not_mem_nil

/-- A tab whose clock is fast saves, and then one that restored before it. -/
theorem slowerClock_saves_over_faster :
    ¬ StatesMeet Shared.step NeverDecreases (.start none)
      [.restore 0 "device.aaaaaa" 60000, .restore 1 "device.bbbbbb" 60000,
        .next 0 1721822405000, .save 0, .next 1 1721822400000, .save 1] := by
  intro h
  have hascending := h.2.2.2.2.2.2.ascending
  have hsaved : (run Shared.step (.start none)
      [.restore 0 "device.aaaaaa" 60000, .restore 1 "device.bbbbbb" 60000,
        .next 0 1721822405000, .save 0, .next 1 1721822400000, .save 1]).saved =
      ["1721822405000-0000-device.aaaaaa", "1721822400000-0000-device.bbbbbb"] := by decide
  rw [run_cons, run_cons, run_cons, run_cons, run_cons, run_cons, run_nil] at hsaved
  rw [hsaved] at hascending
  exact absurd (List.rel_of_pairwise_cons hascending (List.mem_singleton_self _)) (by decide)

end OptoSync.ClientClock
