import OptoSync.HybridLogicalClockDrift
import OptoSync.IngestAgreement

/-!
# Timestamps of the clock as ingested

The clock takes every node id that is not empty and has no dash, the grammar of the envelopes only
those of at most 128 characters.
-/
namespace OptoSync.Ingest
open Transition HybridLogicalClock ClockHistory

theorem hlcHead_of_parseHlc {ts : String} {parts : HlcParts} (h : parseHlc ts = some parts) :
    hlcHead Char.toNat ts.toList = some parts.nodeId.toList := by
  obtain ⟨ms, cs, hlist, hms, hcs, -⟩ := parseHlc_eq_some.mp h
  exact hlcHead_eq_some.mpr ⟨ms, cs, hlist, ⟨hms.length, List.all_eq_true.mpr hms.digits⟩,
    hcs.length, List.all_eq_true.mpr hcs.digits⟩

/-- Of the timestamps that the clock can print the grammar takes those with a short node id. -/
theorem isTimestamp_iff_of_parseHlc (doubles : Doubles) {ts : String} {parts : HlcParts}
    (h : parseHlc ts = some parts) :
    isTimestamp doubles (.string ts) = true ↔ parts.nodeId.toList.length ≤ 128 := by
  have hhead := hlcHead_of_parseHlc h
  obtain ⟨-, -, -, -, -, hvalid⟩ := parseHlc_eq_some.mp h
  simp only [validNodeId, ne_eq, Bool.and_eq_true, decide_eq_true_eq, Bool.not_eq_true',
    List.contains_eq_mem, decide_eq_false_iff_not] at hvalid
  have hpos : 1 ≤ parts.nodeId.toList.length := List.length_pos_of_ne_nil hvalid.1
  rw [isTimestamp, isDigits_eq, isIso8601_eq, not_digits_of_hlcHead hhead, not_iso_of_hlcHead hhead,
    Bool.false_or, Bool.or_false, isNativeHlc_iff]
  constructor
  · rintro ⟨node, hnode, hlength, -⟩
    rw [hhead] at hnode
    rw [Option.some.inj hnode]
    exact hlength.2
  · intro hlength
    exact ⟨_, hhead, ⟨hpos, hlength⟩, hvalid.2⟩

/-- Everything issued carries the node id of the clock. -/
structure Carries (nodeId : String) (s : ClockHistory) : Prop where
  nodeId_eq : s.clock.nodeId = nodeId
  issued_node : ∀ ts ∈ s.issued, ∃ parts, parseHlc ts = some parts ∧ parts.nodeId = nodeId

/-- At the last timestamp there is, or past it after a failed assertion. -/
def Exhausted (clock : HybridLogicalClock) : Prop :=
  maxMillis < clock.millis ∨ clock.millis = maxMillis ∧ maxCounter ≤ clock.counter

theorem advance_nodeId (clock : HybridLogicalClock) (physical : ℕ) :
    (clock.advance physical).nodeId = clock.nodeId := by
  unfold advance
  split
  · rfl
  · split <;> rfl

/-- What a call does to the history: `next` advances the clock and issues what can be printed,
`observe` leaves the clock or adopts a timestamp. -/
theorem next_cases (s : ClockHistory) (call : ClockCall) :
    (∃ physical, (s.next call).clock.peek = (s.clock.advance physical).peek ∧
      (s.next call).issued = (formatHlc (s.clock.advance physical).peek).toList ++ s.issued) ∨
    ((s.next call).issued = s.issued ∧ ((s.next call).clock = s.clock ∨
      ∃ ts parts, parseHlc ts = some parts ∧ s.clock.peek.Before parts ∧
        (s.next call).clock.peek = (s.clock.adopt parts).peek)) := by
  cases call with
  | next physical =>
    refine Or.inl ⟨physical, ?_⟩
    simp only [ClockHistory.next]
    cases hnext : s.clock.next physical with
    | none =>
      have hformat : formatHlc (s.clock.advance physical).peek = none :=
        Option.map_eq_none_iff.mp hnext
      rw [hformat]
      exact ⟨rfl, rfl⟩
    | some issued =>
      obtain ⟨ts, clock⟩ := issued
      obtain ⟨rfl, hformat⟩ := next_eq_some hnext
      rw [hformat]
      exact ⟨rfl, rfl⟩
  | observe remote now =>
    refine Or.inr ?_
    cases hparsed : parseHlc remote with
    | none => simp [ClockHistory.next, hparsed]
    | some parsed =>
      obtain ⟨error, hrefused⟩ | ⟨-, hkept⟩ | ⟨hbefore, ts, hadopted, -⟩ :=
        observe_cases s.clock hparsed now
      · simp [ClockHistory.next, hparsed, hrefused]
      · simp [ClockHistory.next, hparsed, hkept]
      · simp only [ClockHistory.next, hparsed, hadopted, true_and]
        exact Or.inr ⟨remote, parsed, hparsed, hbefore, rfl⟩

theorem Carries.next {nodeId : String} {s : ClockHistory} (h : Carries nodeId s)
    (call : ClockCall) : Carries nodeId (s.next call) := by
  obtain ⟨physical, hclock, hissued⟩ | ⟨hissued, hclock⟩ := next_cases s call
  · have hnode : (s.clock.advance physical).nodeId = nodeId :=
      (advance_nodeId s.clock physical).trans h.nodeId_eq
    refine ⟨(congrArg HlcParts.nodeId hclock).trans hnode, fun ts hts => ?_⟩
    rw [hissued, List.mem_append, Option.mem_toList] at hts
    rcases hts with hts | hts
    · exact ⟨_, formatHlc_eq_some.mp hts, hnode⟩
    · exact h.issued_node ts hts
  · refine ⟨?_, by rw [hissued]; exact h.issued_node⟩
    rcases hclock with hclock | ⟨_, parts, -, -, hclock⟩
    · rw [hclock]
      exact h.nodeId_eq
    · exact (congrArg HlcParts.nodeId hclock).trans h.nodeId_eq

/-- An exhausted clock issues nothing more. -/
theorem Exhausted.next {s : ClockHistory} (h : Exhausted s.clock) (call : ClockCall) :
    Exhausted (s.next call).clock ∧ (s.next call).issued = s.issued := by
  unfold Exhausted at h ⊢
  obtain ⟨physical, hclock, hissued⟩ | ⟨hissued, hclock⟩ := next_cases s call
  · have hmillis := congrArg HlcParts.millis hclock
    have hcounter := congrArg HlcParts.counter hclock
    have hbefore := before_advance s.clock physical
    unfold HlcParts.Before at hbefore
    dsimp only [peek] at hmillis hcounter hbefore
    have hformat : formatHlc (s.clock.advance physical).peek = none := by
      refine if_neg fun hfits => ?_
      dsimp only [peek] at hfits
      omega
    rw [hissued, hformat]
    exact ⟨by omega, rfl⟩
  · refine ⟨?_, hissued⟩
    rcases hclock with hclock | ⟨ts, parts, hparse, hbefore, -⟩
    · rwa [hclock]
    · have hbounds := bounds_of_parse hparse
      unfold HlcParts.Before at hbefore
      dsimp only [peek] at hbefore
      omega

/-- Before that, a clock issues a timestamp at its next call if the wall clock stands still. -/
theorem exists_issue {clock : HybridLogicalClock} (hfits : clock.Fits) (h : ¬ Exhausted clock) :
    ∃ ts parts, ts ∈ (run ClockHistory.next (start clock) [.next clock.millis]).issued ∧
      parseHlc ts = some parts ∧ parts.nodeId = clock.nodeId := by
  unfold Exhausted at h
  have hroom : (clock.advance clock.millis).Fits := by
    refine hfits.advance hfits.1 fun _ hmillis => ?_
    omega
  obtain ⟨ts, hsave, hts⟩ := save_eq hroom
  have hnext : clock.next clock.millis = _ := hsave
  refine ⟨ts, _, ?_, hts, advance_nodeId clock clock.millis⟩
  simp [run, ClockHistory.next, start, hnext]

theorem withMaxDrift_eq {nodeId : String} (saved : Option String) (maxDriftMs : ℕ)
    (h : validNodeId nodeId = true) :
    withMaxDrift nodeId saved maxDriftMs =
      .ok { nodeId, millis := (restore saved).1, counter := (restore saved).2, maxDriftMs, saved
            node_valid := h } :=
  dif_pos h

/-- Whatever a clock was restored from, all that it can issue is ingestible if its node id has at
most 128 characters, and else only if it has no timestamp left. -/
theorem issued_ingestible_iff (doubles : Doubles) {nodeId : String} {saved : Option String}
    {maxDriftMs : ℕ} {clock : HybridLogicalClock}
    (hnew : withMaxDrift nodeId saved maxDriftMs = .ok clock) :
    (∀ calls, ∀ ts ∈ (run ClockHistory.next (start clock) calls).issued,
      isTimestamp doubles (.string ts) = true) ↔
        nodeId.toList.length ≤ 128 ∨ restore saved = (maxMillis, maxCounter) := by
  have hbounds := restore_le saved
  obtain ⟨hnode, hmillis, hcounter⟩ : clock.nodeId = nodeId ∧
      clock.millis = (restore saved).1 ∧ clock.counter = (restore saved).2 := by
    by_cases hvalid : validNodeId nodeId = true
    · rw [withMaxDrift_eq saved maxDriftMs hvalid] at hnew
      obtain rfl := Except.ok.inj hnew
      exact ⟨rfl, rfl, rfl⟩
    · rw [withMaxDrift, dif_neg hvalid] at hnew
      cases hnew
  have hfits : clock.Fits := ⟨hmillis ▸ hbounds.1, hcounter ▸ hbounds.2⟩
  have hexhausted : Exhausted clock ↔ restore saved = (maxMillis, maxCounter) := by
    rw [Prod.ext_iff, ← hmillis, ← hcounter]
    obtain ⟨hle, hle'⟩ := hfits
    unfold Exhausted
    dsimp only
    omega
  rw [← hexhausted]
  constructor
  · intro h
    by_contra hnot
    obtain ⟨hlong, hroom⟩ := not_or.mp hnot
    obtain ⟨ts, parts, hts, hparse, hparts⟩ := exists_issue hfits hroom
    have hlength := (isTimestamp_iff_of_parseHlc doubles hparse).mp (h _ ts hts)
    rw [hparts, hnode] at hlength
    exact hlong hlength
  · intro h calls ts hts
    rcases h with hlength | hexhausted
    · have hcarries : Carries nodeId (run ClockHistory.next (start clock) calls) :=
        run_invariant (I := Carries nodeId) (fun _ call h => Carries.next h call)
          ⟨hnode, fun _ hmem => absurd hmem List.not_mem_nil⟩ calls
      obtain ⟨parts, hparse, rfl⟩ := hcarries.issued_node ts hts
      exact (isTimestamp_iff_of_parseHlc doubles hparse).mpr hlength
    · have hnone : Exhausted (run ClockHistory.next (start clock) calls).clock ∧
          (run ClockHistory.next (start clock) calls).issued = [] :=
        run_invariant (I := fun s : ClockHistory => Exhausted s.clock ∧ s.issued = [])
          (fun _ call h => (Exhausted.next h.1 call).imp_right fun hissued => hissued.trans h.2)
          ⟨hexhausted, rfl⟩ calls
      rw [hnone.2] at hts
      exact absurd hts List.not_mem_nil

theorem issued_ingestible_iff_short :
    ∃ clock, withMaxDrift "node" none 0 = .ok clock ∧
      ((∀ calls, ∀ ts ∈ (run ClockHistory.next (start clock) calls).issued,
        isTimestamp plainDoubles (.string ts) = true) ↔
          "node".toList.length ≤ 128 ∨ restore none = (maxMillis, maxCounter)) :=
  ⟨_, rfl, issued_ingestible_iff plainDoubles rfl⟩

def longNodeId (n : ℕ) : String := String.ofList (List.replicate (n + 1) 'a')

theorem validNodeId_longNodeId (n : ℕ) : validNodeId (longNodeId n) = true := by
  have hdash : '-' ∉ List.replicate (n + 1) 'a' := fun hmem =>
    absurd (List.eq_of_mem_replicate hmem) (by decide)
  simp only [validNodeId, longNodeId, String.toList_ofList, List.contains_eq_mem, hdash,
    decide_false, Bool.not_false, Bool.and_true, decide_eq_true_eq]
  exact List.cons_ne_nil _ _

theorem longNodeId_refused {n : ℕ} (hlong : 128 ≤ n) :
    ∃ clock, HybridLogicalClock.new (longNodeId n) none = .ok clock ∧
      ∃ ts ∈ (run ClockHistory.next (start clock) [.next 0]).issued,
        isTimestamp plainDoubles (.string ts) = false := by
  refine ⟨_, withMaxDrift_eq none defaultMaxDriftMs (validNodeId_longNodeId n), ?_⟩
  obtain ⟨ts, parts, hts, hparse, hnode⟩ :=
    @exists_issue { nodeId := longNodeId n, millis := 0, counter := 0
                    maxDriftMs := defaultMaxDriftMs, saved := none
                    node_valid := validNodeId_longNodeId n }
      ⟨Nat.zero_le _, Nat.zero_le _⟩ (by unfold Exhausted; simp [maxMillis, maxCounter])
  refine ⟨ts, hts, Bool.eq_false_iff.mpr fun hingested => ?_⟩
  have hlength := (isTimestamp_iff_of_parseHlc plainDoubles hparse).mp hingested
  dsimp only at hnode
  rw [hnode, longNodeId, String.toList_ofList, List.length_replicate] at hlength
  omega

/-- A clock of a node id that is one character too long. -/
theorem overlongNodeId_refused :
    ∃ clock, HybridLogicalClock.new (longNodeId 128) none = .ok clock ∧
      ∃ ts ∈ (run ClockHistory.next (start clock) [.next 0]).issued,
        isTimestamp plainDoubles (.string ts) = false :=
  longNodeId_refused (le_refl 128)

end OptoSync.Ingest
