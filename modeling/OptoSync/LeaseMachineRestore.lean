import OptoSync.LeaseMachineSafety

/-!
# What a refused command leaves, and what a restored machine keeps

Reset and Restore initialize the machine before they have checked their argument, a snapshot does not
say that the machine is closed, and its fences are not compared with the next fence.
-/
namespace OptoSync.Stream.Go

open LeaseMachine (accepted)
open Entries (mem_foldl_insert mem_of_getElem?_foldl_insert)

namespace RawSnapshot

variable (raw : RawSnapshot)

def leaseEntries : List (String × Lease) := accepted readLease raw.leases.elements

def grantEntries : List (String × Grant) := accepted readGrant raw.grants.elements

def canceledEntries : List String := accepted readCanceled raw.canceled.elements

def LeasesReadable : Prop := ∀ item ∈ raw.leases.elements, (readLease item).isOk

def GrantsReadable : Prop := ∀ item ∈ raw.grants.elements, (readGrant item).isOk

def CanceledReadable : Prop := ∀ request ∈ raw.canceled.elements, (readCanceled request).isOk

instance : Decidable raw.LeasesReadable := inferInstanceAs (Decidable (∀ _ ∈ _, _))
instance : Decidable raw.GrantsReadable := inferInstanceAs (Decidable (∀ _ ∈ _, _))
instance : Decidable raw.CanceledReadable := inferInstanceAs (Decidable (∀ _ ∈ _, _))

structure Readable : Prop where
  leases : raw.LeasesReadable
  grants : raw.GrantsReadable
  canceled : raw.CanceledReadable

/-- The invariants of the machine, of what a snapshot lists. -/
structure Lawful (nextFence : ℤ) : Prop where
  lease_fence : ∀ entry ∈ raw.leaseEntries, 0 < entry.2.fence ∧ entry.2.fence < nextFence
  grant_fence : ∀ entry ∈ raw.grantEntries, 0 < entry.2.fence ∧ entry.2.fence < nextFence
  resources : (raw.leaseEntries.map Prod.fst).Nodup
  requests : (raw.grantEntries.map Prod.fst).Nodup
  fences : (raw.grantEntries.map fun entry => entry.2.fence).Nodup

/-- The machine that the entries before the first unreadable item give. -/
def interrupted (now nextFence : ℤ) : LeaseMachine where
  now
  nextFence
  leases := raw.leaseEntries.foldl (fun map entry => map.insert entry.1 entry.2) ∅
  grants :=
    if raw.LeasesReadable then
      raw.grantEntries.foldl (fun map entry => map.insert entry.1 entry.2) ∅
    else ∅
  canceled :=
    if raw.LeasesReadable ∧ raw.GrantsReadable then
      raw.canceledEntries.foldl (fun set request => set.insert request) ∅
    else ∅

end RawSnapshot

/-- The checks that Restore makes before it initializes the machine. -/
structure Header (snapshot : Json) (schemaHash : String) (raw : RawSnapshot)
    (now nextFence : ℤ) : Prop where
  schemaHash : schemaHash = leaseSchemaHash
  decoded : decodeSnapshot snapshot = some raw
  version : raw.version = 1
  now_read : parseTaggedMap raw.now = .ok now
  now_nonneg : 0 ≤ now
  nextFence_read : parseTaggedMap raw.nextFence = .ok nextFence
  nextFence_pos : 0 < nextFence

theorem Header.unique {snapshot : Json} {schemaHash : String} {raw raw' : RawSnapshot}
    {now now' nextFence nextFence' : ℤ} (h : Header snapshot schemaHash raw now nextFence)
    (h' : Header snapshot schemaHash raw' now' nextFence') :
    raw' = raw ∧ now' = now ∧ nextFence' = nextFence := by
  obtain rfl := Option.some.inj (h'.decoded.symm.trans h.decoded)
  exact ⟨rfl, Except.ok.inj (h'.now_read.symm.trans h.now_read),
    Except.ok.inj (h'.nextFence_read.symm.trans h.nextFence_read)⟩

/-- Reset refuses the initial state. -/
def InitialStateRefused : Json → Prop
  | .null => False
  | .object object =>
    ∃ rawFence, object.lookup "nextFence" = some rawFence ∧
      ∀ fence, parseBigIntValue rawFence = .ok fence → fence ≤ 0
  | _ => True

namespace LeaseMachine

variable {machine : LeaseMachine}

section
variable {α β : Type} {read : α → Checked β}

theorem isOk_iff {item : α} : (read item).isOk = true ↔ ∃ entry, read item = .ok entry := by
  cases read item with
  | error message => simp [Except.isOk, Except.toBool]
  | ok entry => simp [Except.isOk, Except.toBool]

theorem mem_accepted {items : List α} {entry : β} (h : entry ∈ accepted read items) :
    ∃ item ∈ items, read item = .ok entry := by
  induction items with
  | nil => cases h
  | cons item items ih =>
    rw [accepted] at h
    cases hread : read item with
    | error message => simp [hread] at h
    | ok first =>
      simp only [hread, List.mem_cons] at h
      rcases h with rfl | h
      · exact ⟨item, List.mem_cons_self, hread⟩
      · obtain ⟨other, hother, heq⟩ := ih h
        exact ⟨other, List.mem_cons_of_mem _ hother, heq⟩

/-- A loop ends with the entries of the items before the first it refuses. -/
theorem fill_cases (read : α → Checked β) (put : LeaseMachine → β → LeaseMachine)
    (machine : LeaseMachine) (items : List α) :
    ((∀ item ∈ items, (read item).isOk) ∧
      machine.fill read put items = ((accepted read items).foldl put machine, .ok ())) ∨
    (¬(∀ item ∈ items, (read item).isOk) ∧ ∃ message,
      machine.fill read put items = ((accepted read items).foldl put machine, .error message)) := by
  have hfst := fill_fst read put machine items
  have hsnd := fill_snd_eq_ok read put machine items
  simp only [← isOk_iff] at hsnd
  cases h : (machine.fill read put items).2 with
  | ok _ => exact Or.inl ⟨hsnd.mp h, Prod.ext hfst h⟩
  | error message =>
    refine Or.inr ⟨fun hall => ?_, message, Prod.ext hfst h⟩
    rw [hsnd.mpr hall] at h
    cases h

end

theorem fillSnapshot_cases (raw : RawSnapshot) (now nextFence : ℤ) :
    (raw.Readable ∧ (fresh now nextFence).fillSnapshot raw =
      ((raw.interrupted now nextFence).expire, .ok ())) ∨
    (¬raw.Readable ∧ ∃ message, (fresh now nextFence).fillSnapshot raw =
      (raw.interrupted now nextFence, .error message)) := by
  unfold fillSnapshot
  obtain ⟨hleases, heq⟩ | ⟨hleases, message, heq⟩ :=
    fill_cases readLease putLease (fresh now nextFence) raw.leases.elements
  · change raw.LeasesReadable at hleases
    simp only [heq]
    obtain ⟨hgrants, heq⟩ | ⟨hgrants, message, heq⟩ :=
      fill_cases readGrant putGrant
        ((accepted readLease raw.leases.elements).foldl putLease (fresh now nextFence))
        raw.grants.elements
    · change raw.GrantsReadable at hgrants
      simp only [heq]
      obtain ⟨hcanceled, heq⟩ | ⟨hcanceled, message, heq⟩ :=
        fill_cases readCanceled putCanceled
          ((accepted readGrant raw.grants.elements).foldl putGrant
            ((accepted readLease raw.leases.elements).foldl putLease (fresh now nextFence)))
          raw.canceled.elements
      · simp only [heq]
        refine Or.inl ⟨⟨hleases, hgrants, hcanceled⟩, ?_⟩
        simp only [foldl_putLease, foldl_putGrant, foldl_putCanceled, RawSnapshot.interrupted,
          if_pos hleases, if_pos (And.intro hleases hgrants)]
        rfl
      · simp only [heq]
        refine Or.inr ⟨fun h => hcanceled h.canceled, message, ?_⟩
        simp only [foldl_putLease, foldl_putGrant, foldl_putCanceled, RawSnapshot.interrupted,
          if_pos hleases, if_pos (And.intro hleases hgrants)]
        rfl
    · change ¬raw.GrantsReadable at hgrants
      simp only [heq]
      refine Or.inr ⟨fun h => hgrants h.grants, message, ?_⟩
      simp only [foldl_putLease, foldl_putGrant, RawSnapshot.interrupted, if_pos hleases,
        if_neg fun h : raw.LeasesReadable ∧ raw.GrantsReadable => hgrants h.2]
      rfl
  · change ¬raw.LeasesReadable at hleases
    simp only [heq]
    refine Or.inr ⟨fun h => hleases h.leases, message, ?_⟩
    simp only [foldl_putLease, RawSnapshot.interrupted, if_neg hleases,
      if_neg fun h : raw.LeasesReadable ∧ raw.GrantsReadable => hleases h.1]
    rfl

/-- Restore refuses its argument before it initializes the machine, or goes on with what the
snapshot lists. -/
theorem restoreValue_cases (machine : LeaseMachine) (snapshot : Json) :
    ((∀ raw now nextFence, ¬Header snapshot leaseSchemaHash raw now nextFence) ∧
      ∃ message, machine.restoreValue snapshot = (machine, .error message)) ∨
    ∃ raw now nextFence, Header snapshot leaseSchemaHash raw now nextFence ∧
      machine.restoreValue snapshot = (fresh now nextFence).fillSnapshot raw := by
  rw [restoreValue]
  cases hdecode : decodeSnapshot snapshot with
  | none =>
    refine Or.inl ⟨fun raw now nextFence h => ?_, _, rfl⟩
    have hdecoded := h.decoded
    rw [hdecode] at hdecoded
    cases hdecoded
  | some raw =>
    have hraw : ∀ {other now nextFence}, Header snapshot leaseSchemaHash other now nextFence →
        other = raw := fun h => Option.some.inj (h.decoded.symm.trans hdecode)
    by_cases hversion : raw.version = 1
    · simp only [hversion, ne_eq, not_true_eq_false, if_false]
      cases hnow : parseTaggedMap raw.now with
      | error message =>
        refine Or.inl ⟨fun other now nextFence h => ?_, _, rfl⟩
        have hread := h.now_read
        rw [hraw h, hnow] at hread
        cases hread
      | ok now =>
        have hnows : ∀ {other now' nextFence},
            Header snapshot leaseSchemaHash other now' nextFence → now' = now := by
          intro other now' nextFence h
          have hread := h.now_read
          rw [hraw h, hnow] at hread
          exact (Except.ok.inj hread).symm
        by_cases hsign : now < 0
        · simp only [hsign, if_true]
          exact Or.inl ⟨fun other now' nextFence h =>
            absurd h.now_nonneg (by rw [hnows h]; exact not_le.mpr hsign), _, rfl⟩
        · simp only [hsign, if_false]
          cases hnext : parseTaggedMap raw.nextFence with
          | error message =>
            refine Or.inl ⟨fun other now' nextFence h => ?_, _, rfl⟩
            have hread := h.nextFence_read
            rw [hraw h, hnext] at hread
            cases hread
          | ok nextFence =>
            by_cases hpos : nextFence ≤ 0
            · simp only [hpos, if_true]
              refine Or.inl ⟨fun other now' nextFence' h => ?_, _, rfl⟩
              have hread := h.nextFence_read
              rw [hraw h, hnext] at hread
              exact absurd h.nextFence_pos (by rw [← Except.ok.inj hread]; exact not_lt.mpr hpos)
            · simp only [hpos, if_false]
              exact Or.inr ⟨raw, now, nextFence, ⟨rfl, hdecode, hversion, hnow, not_lt.mp hsign, hnext,
                not_le.mp hpos⟩, rfl⟩
    · simp only [hversion, ne_eq, not_false_eq_true, if_true]
      exact Or.inl ⟨fun other now nextFence h => hversion (hraw h ▸ h.version), _, rfl⟩

/-- The three ends of a Restore. -/
theorem restore_cases (machine : LeaseMachine) (snapshot : Json) (schemaHash : String) :
    ((∀ raw now nextFence, ¬Header snapshot schemaHash raw now nextFence) ∧
      (machine.restore snapshot schemaHash).1 = machine ∧
      (machine.restore snapshot schemaHash).2.kind = "error") ∨
    (∃ raw now nextFence, Header snapshot schemaHash raw now nextFence ∧ ¬raw.Readable ∧
      (machine.restore snapshot schemaHash).1 = raw.interrupted now nextFence ∧
      (machine.restore snapshot schemaHash).2.kind = "error") ∨
    ∃ raw now nextFence, Header snapshot schemaHash raw now nextFence ∧ raw.Readable ∧
      (machine.restore snapshot schemaHash).1 = (raw.interrupted now nextFence).expire ∧
      (machine.restore snapshot schemaHash).2.kind = "ok" := by
  by_cases hhash : schemaHash = leaseSchemaHash
  · subst hhash
    rw [restore, if_neg (by simp)]
    obtain ⟨hnone, message, heq⟩ | ⟨raw, now, nextFence, hheader, heq⟩ :=
      restoreValue_cases machine snapshot
    · rw [heq]
      exact Or.inl ⟨hnone, rfl, rfl⟩
    · rw [heq]
      obtain ⟨hreadable, heq⟩ | ⟨hunreadable, message, heq⟩ := fillSnapshot_cases raw now nextFence
      · rw [heq]
        refine Or.inr (Or.inr ⟨raw, now, nextFence, hheader, hreadable, ?_, rfl⟩)
        exact expire_eq_self (current_expire _)
      · rw [heq]
        exact Or.inr (Or.inl ⟨raw, now, nextFence, hheader, hunreadable, rfl, rfl⟩)
  · rw [restore, if_pos hhash]
    exact Or.inl ⟨fun raw now nextFence h => hhash h.schemaHash, rfl, rfl⟩

/-- The three ends of a Reset. -/
theorem reset_ends (machine : LeaseMachine) (initialState : Json) (seed : String)
    (logicalTime : Json) :
    (logicalNow logicalTime = none ∧ (machine.reset initialState seed logicalTime).1 = machine ∧
      (machine.reset initialState seed logicalTime).2.kind = "error") ∨
    (∃ now, logicalNow logicalTime = some now ∧ InitialStateRefused initialState ∧
      (machine.reset initialState seed logicalTime).1 = fresh now 1 ∧
      (machine.reset initialState seed logicalTime).2.kind = "error") ∨
    (¬InitialStateRefused initialState ∧
      (machine.reset initialState seed logicalTime).2.kind = "ok") := by
  rw [reset]
  cases hnow : logicalNow logicalTime with
  | none => exact Or.inl ⟨rfl, rfl, rfl⟩
  | some now =>
    cases initialState with
    | null => exact Or.inr (Or.inr ⟨not_false, rfl⟩)
    | object object =>
      cases hlookup : object.lookup "nextFence" with
      | none =>
        simp only [hlookup]
        refine Or.inr (Or.inr ⟨?_, rfl⟩)
        rintro ⟨rawFence, hraw, -⟩
        rw [hlookup] at hraw
        cases hraw
      | some rawFence =>
        simp only [hlookup]
        cases hparse : parseBigIntValue rawFence with
        | error message =>
          refine Or.inr (Or.inl ⟨now, rfl, ⟨rawFence, hlookup, fun fence h => ?_⟩, rfl, rfl⟩)
          rw [hparse] at h
          cases h
        | ok fence =>
          by_cases hfence : fence ≤ 0
          · simp only [hfence, if_true]
            refine Or.inr (Or.inl ⟨now, rfl, ⟨rawFence, hlookup, fun other h => ?_⟩, rfl, rfl⟩)
            rw [hparse] at h
            exact Except.ok.inj h ▸ hfence
          · simp only [hfence, if_false]
            refine Or.inr (Or.inr ⟨?_, rfl⟩)
            rintro ⟨other, hother, hall⟩
            obtain rfl := Option.some.inj (hlookup.symm.trans hother)
            exact hfence (hall fence hparse)
    | bool _ | number _ | string _ | array _ => exact Or.inr (Or.inl ⟨now, rfl, trivial, rfl, rfl⟩)

theorem readLease_rawLease {resource : String} {value : Lease} {entry : String × Lease}
    (h : readLease (rawLease resource value) = .ok entry) :
    entry = (resource, value) ∧ resource ≠ "" ∧ value.owner ≠ "" := by
  by_cases hempty : resource = "" ∨ value.owner = ""
  · simp [readLease, rawLease, hempty] at h
  · obtain ⟨hresource, howner⟩ := not_or.mp hempty
    simp [readLease, rawLease, hresource, howner] at h
    exact ⟨h.symm, hresource, howner⟩

theorem readGrant_rawGrant {request : String} {value : Grant} {entry : String × Grant}
    (h : readGrant (rawGrant request value) = .ok entry) :
    entry = (request, value) ∧ request ≠ "" ∧ value.resource ≠ "" ∧ value.owner ≠ "" := by
  by_cases hempty : request = "" ∨ value.resource = "" ∨ value.owner = ""
  · simp [readGrant, rawGrant, hempty] at h
  · obtain ⟨hrequest, hempty⟩ := not_or.mp hempty
    obtain ⟨hresource, howner⟩ := not_or.mp hempty
    simp [readGrant, rawGrant, hrequest, hresource, howner] at h
    exact ⟨h.symm, hrequest, hresource, howner⟩

theorem readCanceled_eq_ok {request entry : String} (h : readCanceled request = .ok entry) :
    entry = request ∧ request ≠ "" := by
  unfold readCanceled at h
  split_ifs at h with hempty
  exact ⟨(Except.ok.inj h).symm, hempty⟩

/-- What a snapshot of the machine lists was in the machine, under names that are not empty. -/
theorem interrupted_lease {now nextFence : ℤ} {resource : String} {value : Lease}
    (h : (machine.raw.interrupted now nextFence).leases[resource]? = some value) :
    machine.leases[resource]? = some value ∧ resource ≠ "" ∧ value.owner ≠ "" := by
  rcases mem_of_getElem?_foldl_insert h with hmem | hget
  · obtain ⟨item, hitem, hread⟩ := mem_accepted hmem
    rw [raw, elements_map] at hitem
    obtain ⟨⟨r, v⟩, hentry, rfl⟩ := List.mem_map.mp hitem
    obtain ⟨heq, hnamed⟩ := readLease_rawLease hread
    obtain ⟨rfl, rfl⟩ := Prod.mk.inj heq
    exact ⟨Std.ExtTreeMap.mem_toList_iff_getElem?_eq_some.mp hentry, hnamed⟩
  · simp at hget

theorem interrupted_grant {now nextFence : ℤ} {request : String} {value : Grant}
    (h : (machine.raw.interrupted now nextFence).grants[request]? = some value) :
    request ≠ "" ∧ value.resource ≠ "" ∧ value.owner ≠ "" := by
  simp only [RawSnapshot.interrupted] at h
  split at h
  · rcases mem_of_getElem?_foldl_insert h with hmem | hget
    · obtain ⟨item, hitem, hread⟩ := mem_accepted hmem
      rw [raw, elements_map] at hitem
      obtain ⟨⟨q, v⟩, -, rfl⟩ := List.mem_map.mp hitem
      obtain ⟨heq, hnamed⟩ := readGrant_rawGrant hread
      obtain ⟨rfl, rfl⟩ := Prod.mk.inj heq
      exact hnamed
    · simp at hget
  · simp at h

theorem interrupted_canceled {now nextFence : ℤ} {request : String}
    (h : request ∈ (machine.raw.interrupted now nextFence).canceled) : request ≠ "" := by
  simp only [RawSnapshot.interrupted] at h
  split at h
  · rcases (mem_foldl_insert _ _ _).mp h with hmem | hempty
    · obtain ⟨item, -, hread⟩ := mem_accepted hmem
      obtain ⟨rfl, hnamed⟩ := readCanceled_eq_ok hread
      exact hnamed
    · simp at hempty
  · simp at h

theorem header_raw {schemaHash : String} {raw : RawSnapshot} {now nextFence : ℤ}
    (h : Header machine.snapshotValue schemaHash raw now nextFence) :
    raw = machine.raw ∧ now = machine.now ∧ nextFence = machine.nextFence := by
  obtain rfl : raw = machine.raw :=
    Option.some.inj (h.decoded.symm.trans (decodeSnapshot_snapshotValue machine))
  exact ⟨rfl, Except.ok.inj (h.now_read.symm.trans (parseTaggedMap_tagged _)),
    Except.ok.inj (h.nextFence_read.symm.trans (parseTaggedMap_tagged _))⟩

/-- A machine that a restored snapshot of it gives, in whole or up to an unreadable item. -/
theorem faithful_of_interrupted (hnow : 0 ≤ machine.now) (hnextFence : 0 < machine.nextFence)
    (h : machine.expire.raw.interrupted machine.now machine.nextFence = machine) :
    machine.closed = false ∧ machine.Current ∧ machine.Storable := by
  refine ⟨by rw [← h]; rfl, fun hget => ?_, ⟨hnow, hnextFence, fun hget => ?_, fun hget => ?_,
    fun hmem => ?_⟩⟩
  · rw [← h] at hget
    exact current_expire machine (interrupted_lease hget).1
  · rw [← h] at hget
    exact (interrupted_lease hget).2
  · rw [← h] at hget
    exact interrupted_grant hget
  · rw [← h] at hmem
    exact interrupted_canceled hmem

theorem storable_of_readable {schemaHash : String} {raw : RawSnapshot} {now nextFence : ℤ}
    (h : Header machine.snapshotValue schemaHash raw now nextFence) (hreadable : raw.Readable) :
    machine.Storable := by
  obtain ⟨rfl, rfl, rfl⟩ := header_raw h
  refine ⟨h.now_nonneg, h.nextFence_pos, ?_, ?_, ?_⟩
  · intro resource value hget
    have hmem : rawLease resource value ∈ machine.raw.leases.elements := by
      rw [LeaseMachine.raw, elements_map]
      exact List.mem_map.mpr
        ⟨(resource, value), Std.ExtTreeMap.mem_toList_iff_getElem?_eq_some.mpr hget, rfl⟩
    obtain ⟨entry, hread⟩ := isOk_iff.mp (hreadable.leases _ hmem)
    exact (readLease_rawLease hread).2
  · intro request value hget
    have hmem : rawGrant request value ∈ machine.raw.grants.elements := by
      rw [LeaseMachine.raw, elements_map]
      exact List.mem_map.mpr
        ⟨(request, value), Std.ExtTreeMap.mem_toList_iff_getElem?_eq_some.mpr hget, rfl⟩
    obtain ⟨entry, hread⟩ := isOk_iff.mp (hreadable.grants _ hmem)
    exact (readGrant_rawGrant hread).2
  · intro request hget
    have hmem : request ∈ machine.raw.canceled.elements := by
      rw [LeaseMachine.raw, elements_map, List.map_id]
      exact Std.ExtTreeSet.mem_toList.mpr hget
    obtain ⟨entry, hread⟩ := isOk_iff.mp (hreadable.canceled _ hmem)
    exact (readCanceled_eq_ok hread).2

/-- A process restart succeeds on what can be stored. -/
theorem fault_restart_cases (machine : LeaseMachine) (arguments : Json) :
    (machine.expire.Storable ∧ machine.fault "process_restart" arguments =
      ({ machine with closed := false }.expire, ok (.object [("observation",
        ({ machine with closed := false } : LeaseMachine).expire.observation),
        ("restarted", .bool true)]))) ∨
    (¬machine.expire.Storable ∧ (machine.fault "process_restart" arguments).1 = machine.expire ∧
      (machine.fault "process_restart" arguments).2.kind = "error") := by
  by_cases hstorable : machine.expire.Storable
  · have hopen : ({ machine.expire with closed := false } : LeaseMachine).expire =
        { machine with closed := false }.expire := expire_eq_self (current_expire _)
    have hagain : ({ machine with closed := false } : LeaseMachine).expire.expire =
        { machine with closed := false }.expire := expire_eq_self (current_expire _)
    refine Or.inl ⟨hstorable, ?_⟩
    simp only [fault, restoreValue_snapshotValue machine.expire LeaseMachine.new hstorable, hopen,
      hagain]
  · refine Or.inr ⟨hstorable, ?_⟩
    have herror : ∃ left message,
        LeaseMachine.new.restoreValue machine.expire.snapshotValue = (left, .error message) := by
      obtain ⟨-, message, heq⟩ | ⟨raw, now, nextFence, hheader, heq⟩ :=
        restoreValue_cases LeaseMachine.new machine.expire.snapshotValue
      · exact ⟨_, message, heq⟩
      · obtain ⟨hreadable, -⟩ | ⟨-, message, heq'⟩ := fillSnapshot_cases raw now nextFence
        · exact absurd (storable_of_readable hheader hreadable) hstorable
        · exact ⟨_, message, heq.trans heq'⟩
    obtain ⟨left, message, heq⟩ := herror
    simp only [fault, heq]
    exact ⟨trivial, rfl⟩

/-- What the machine shows of itself is kept by a snapshot. -/
structure Faithful (machine : LeaseMachine) : Prop where
  isOpen : machine.closed = false
  current : machine.Current
  storable : machine.Storable

/-- A restored snapshot is accepted. -/
def Accepts (snapshot : Json) (schemaHash : String) (raw : RawSnapshot) (nextFence : ℤ) : Prop :=
  raw.Readable ∧ ∃ now, Header snapshot schemaHash raw now nextFence

theorem reset_atomic_iff (machine : LeaseMachine) (initialState : Json) (seed : String)
    (logicalTime : Json) :
    ((machine.reset initialState seed logicalTime).2.kind ≠ "ok" →
      (machine.reset initialState seed logicalTime).1 = machine) ↔
    ∀ now, logicalNow logicalTime = some now → InitialStateRefused initialState →
      machine = fresh now 1 := by
  obtain ⟨hnow, hsame, -⟩ | ⟨now, hnow, hrefused, hfresh, herror⟩ | ⟨hnot, hok⟩ :=
    reset_ends machine initialState seed logicalTime
  · simp [hnow, hsame]
  · rw [hfresh, herror]
    constructor
    · intro h other hother _
      obtain rfl := Option.some.inj (hnow.symm.trans hother)
      exact (h (by decide)).symm
    · intro h _
      exact (h now hnow hrefused).symm
  · simp [hnot, hok]

theorem restore_atomic_iff (machine : LeaseMachine) (snapshot : Json) (schemaHash : String) :
    ((machine.restore snapshot schemaHash).2.kind ≠ "ok" →
      (machine.restore snapshot schemaHash).1 = machine) ↔
    ∀ raw now nextFence, Header snapshot schemaHash raw now nextFence → ¬raw.Readable →
      machine = raw.interrupted now nextFence := by
  obtain ⟨hnone, hsame, -⟩ | ⟨raw, now, nextFence, hheader, hunreadable, hleft, herror⟩ |
      ⟨raw, now, nextFence, hheader, hreadable, -, hok⟩ := restore_cases machine snapshot schemaHash
  · simp [hnone, hsame]
  · rw [hleft, herror]
    constructor
    · intro h raw' now' nextFence' hheader' _
      obtain ⟨rfl, rfl, rfl⟩ := hheader.unique hheader'
      exact (h (by decide)).symm
    · intro h _
      exact (h raw now nextFence hheader hunreadable).symm
  · rw [hok]
    constructor
    · intro _ raw' now' nextFence' hheader' hunreadable
      obtain ⟨rfl, -, -⟩ := hheader.unique hheader'
      exact absurd hreadable hunreadable
    · intro _ h
      exact absurd rfl h

theorem fault_atomic_iff (machine : LeaseMachine) (fault : String) (arguments : Json) :
    ((machine.fault fault arguments).2.kind ≠ "ok" → (machine.fault fault arguments).1 = machine) ↔
    (fault = "process_restart" → machine.expire.Storable ∨ machine.Current) := by
  by_cases hrestart : fault = "process_restart"
  · subst hrestart
    obtain ⟨hstorable, heq⟩ | ⟨hnot, hleft, herror⟩ := fault_restart_cases machine arguments
    · rw [heq]
      exact ⟨fun _ _ => Or.inl hstorable, fun _ h => absurd rfl h⟩
    · rw [hleft, herror]
      constructor
      · intro h _
        have hexpire : machine.expire = machine := h (by decide)
        exact Or.inr (hexpire ▸ current_expire machine)
      · intro h _
        exact expire_eq_self ((h rfl).resolve_left hnot)
  · refine ⟨fun _ h => absurd h hrestart, fun _ _ => ?_⟩
    unfold LeaseMachine.fault
    split
    · rfl
    · exact absurd rfl hrestart
    · rfl

theorem restore_snapshot_iff (machine : LeaseMachine) :
    (∀ (other : LeaseMachine) (snapshot : Json) (schemaHash : String),
      machine.snapshot.2 = ok (.object [("schemaHash", .string schemaHash),
        ("snapshot", snapshot)]) → (other.restore snapshot schemaHash).1 = machine) ↔
    machine.Faithful := by
  constructor
  · intro h
    have hrestore := h (fresh (machine.now + 1) 1) _ _ rfl
    obtain ⟨-, hsame, -⟩ | ⟨raw, now, nextFence, hheader, -, hleft, -⟩ |
        ⟨raw, now, nextFence, hheader, hreadable, hleft, -⟩ :=
      restore_cases (fresh (machine.now + 1) 1) machine.expire.snapshotValue leaseSchemaHash
    · have hnow := congrArg LeaseMachine.now (hsame.symm.trans hrestore)
      exact absurd hnow (by simp [fresh])
    · obtain ⟨rfl, rfl, rfl⟩ := header_raw hheader
      have hmachine : machine.expire.raw.interrupted machine.now machine.nextFence = machine :=
        hleft.symm.trans hrestore
      have hnow : 0 ≤ machine.now := hheader.now_nonneg
      obtain ⟨hopen, hcurrent, hstorable⟩ :=
        faithful_of_interrupted hnow hheader.nextFence_pos hmachine
      exact ⟨hopen, hcurrent, hstorable⟩
    · have hmachine := hleft.symm.trans hrestore
      have hcurrent : machine.Current := hmachine ▸ current_expire _
      have hstorable := storable_of_readable hheader hreadable
      rw [expire_eq_self hcurrent] at hstorable
      refine ⟨?_, hcurrent, hstorable⟩
      rw [← hmachine]
      rfl
  · rintro ⟨hopen, hcurrent, hstorable⟩ other snapshot schemaHash htaken
    obtain ⟨rfl, rfl⟩ : leaseSchemaHash = schemaHash ∧ machine.expire.snapshotValue = snapshot := by
      simpa [LeaseMachine.snapshot, ok] using htaken
    have hsame : ({ machine with closed := false } : LeaseMachine) = machine := by rw [← hopen]
    rw [expire_eq_self hcurrent, restore, if_neg (by simp),
      restoreValue_snapshotValue machine other hstorable]
    simp only [hsame, observe, expire_eq_self hcurrent]

theorem restart_iff (machine : LeaseMachine) (arguments : Json) :
    ((machine.fault "process_restart" arguments).2.kind = "ok" ∧
      (machine.fault "process_restart" arguments).1 = machine) ↔ machine.Faithful := by
  obtain ⟨hstorable, heq⟩ | ⟨hnot, hleft, herror⟩ := fault_restart_cases machine arguments
  · rw [heq]
    constructor
    · rintro ⟨-, hsame⟩
      have hcurrent : machine.Current := hsame ▸ current_expire _
      rw [expire_eq_self hcurrent] at hstorable
      refine ⟨?_, hcurrent, hstorable⟩
      rw [← hsame]
      rfl
    · rintro ⟨hopen, hcurrent, -⟩
      have hsame : ({ machine with closed := false } : LeaseMachine) = machine := by rw [← hopen]
      refine ⟨rfl, ?_⟩
      rw [hsame, expire_eq_self hcurrent]
  · rw [herror]
    constructor
    · rintro ⟨hok, -⟩
      exact absurd hok (by decide)
    · rintro ⟨-, hcurrent, hstorable⟩
      rw [expire_eq_self hcurrent] at hnot
      exact absurd hstorable hnot

theorem restore_accepts_iff (machine : LeaseMachine) (snapshot : Json) (schemaHash : String) :
    (machine.restore snapshot schemaHash).2.kind = "ok" ↔
      ∃ raw nextFence, Accepts snapshot schemaHash raw nextFence := by
  obtain ⟨hnone, -, herror⟩ | ⟨raw, now, nextFence, hheader, hunreadable, -, herror⟩ |
      ⟨raw, now, nextFence, hheader, hreadable, -, hok⟩ := restore_cases machine snapshot schemaHash
  · rw [herror]
    refine ⟨fun h => absurd h (by decide), ?_⟩
    rintro ⟨raw, nextFence, -, now, hheader⟩
    exact absurd hheader (hnone raw now nextFence)
  · rw [herror]
    refine ⟨fun h => absurd h (by decide), ?_⟩
    rintro ⟨raw', nextFence', hreadable, now', hheader'⟩
    obtain ⟨rfl, -, -⟩ := hheader.unique hheader'
    exact absurd hreadable hunreadable
  · exact ⟨fun _ => ⟨raw, nextFence, hreadable, now, hheader⟩, fun _ => hok⟩

/-- For every machine: a refused Reset leaves it as it was unless the initial state is what is
refused, a refused Restore unless an item of the snapshot is; it comes back from its snapshot, and
from a restart, if it is open with no expired lease and no empty name; and a snapshot that Restore
accepts is as lawful as what was given to it. -/
theorem reset_restore_fault_iff (machine : LeaseMachine) :
    (∀ (initialState : Json) (seed : String) (logicalTime : Json),
      ((machine.reset initialState seed logicalTime).2.kind ≠ "ok" →
        (machine.reset initialState seed logicalTime).1 = machine) ↔
      ∀ now, logicalNow logicalTime = some now → InitialStateRefused initialState →
        machine = fresh now 1) ∧
    (∀ (snapshot : Json) (schemaHash : String),
      ((machine.restore snapshot schemaHash).2.kind ≠ "ok" →
        (machine.restore snapshot schemaHash).1 = machine) ↔
      ∀ raw now nextFence, Header snapshot schemaHash raw now nextFence → ¬raw.Readable →
        machine = raw.interrupted now nextFence) ∧
    (∀ (fault : String) (arguments : Json),
      ((machine.fault fault arguments).2.kind ≠ "ok" →
        (machine.fault fault arguments).1 = machine) ↔
      (fault = "process_restart" → machine.expire.Storable ∨ machine.Current)) ∧
    ((∀ (other : LeaseMachine) (snapshot : Json) (schemaHash : String),
      machine.snapshot.2 = ok (.object [("schemaHash", .string schemaHash),
        ("snapshot", snapshot)]) → (other.restore snapshot schemaHash).1 = machine) ↔
      machine.Faithful) ∧
    (∀ arguments : Json, ((machine.fault "process_restart" arguments).2.kind = "ok" ∧
      (machine.fault "process_restart" arguments).1 = machine) ↔ machine.Faithful) ∧
    ∀ (snapshot : Json) (schemaHash : String),
      ((machine.restore snapshot schemaHash).2.kind = "ok" →
        ∃ raw now nextFence, Header snapshot schemaHash raw now nextFence ∧
          raw.Lawful nextFence) ↔
      ∀ raw now nextFence, Header snapshot schemaHash raw now nextFence → raw.Readable →
        raw.Lawful nextFence := by
  refine ⟨reset_atomic_iff machine, restore_atomic_iff machine, fault_atomic_iff machine,
    restore_snapshot_iff machine, restart_iff machine, fun snapshot schemaHash => ?_⟩
  rw [restore_accepts_iff]
  constructor
  · intro h raw now nextFence hheader hreadable
    obtain ⟨raw', now', nextFence', hheader', hlawful⟩ := h ⟨raw, nextFence, hreadable, now, hheader⟩
    obtain ⟨rfl, -, rfl⟩ := hheader.unique hheader'
    exact hlawful
  · rintro h ⟨raw, nextFence, hreadable, now, hheader⟩
    exact ⟨raw, now, nextFence, hheader, h raw now nextFence hheader hreadable⟩

/-- A machine whose one lease has the fence zero. -/
def unfenced : LeaseMachine where
  leases := (∅ : StringMap Lease).insert "r" { owner := "o", fence := 0, expiresAt := 5 }

theorem storable_unfenced : unfenced.Storable where
  now_nonneg := le_rfl
  nextFence_pos := one_pos
  lease_named := by
    intro resource value h
    simp only [unfenced, Std.ExtTreeMap.getElem?_insert, Std.LawfulEqCmp.compare_eq_iff_eq] at h
    split at h
    · rename_i heq
      rw [← heq, ← Option.some.inj h]
      decide
    · simp at h
  grant_named h := by simp [unfenced] at h
  canceled_named h := by simp [unfenced] at h

/-- A refused Reset takes a lease away, a restart opens a closed machine, and a snapshot with the
fence zero is accepted. -/
theorem reset_loses_lease :
    (let held := (LeaseMachine.new.execute acquireCommand).1
     (held.reset (.bool true) "" (bigInt 0)).2.kind = "error" ∧
      held.nextFence = 2 ∧ (held.reset (.bool true) "" (bigInt 0)).1.nextFence = 1) ∧
    ((LeaseMachine.new.close.1.fault "process_restart" .null).2.kind = "ok" ∧
      LeaseMachine.new.close.1.closed = true ∧
      (LeaseMachine.new.close.1.fault "process_restart" .null).1.closed = false) ∧
    ((LeaseMachine.new.restore unfenced.snapshotValue leaseSchemaHash).2.kind = "ok" ∧
      unfenced.raw.leaseEntries.map (fun entry => entry.2.fence) = [0]) := by
  refine ⟨⟨rfl, by decide +kernel, rfl⟩, ?_, ?_, ?_⟩
  · have hvalid : LeaseMachine.new.close.1.Valid := (Valid.fresh le_rfl one_pos).setClosed true
    rw [fault_restart hvalid]
    exact ⟨rfl, rfl, rfl⟩
  · rw [restore, if_neg (by simp), restoreValue_snapshotValue unfenced _ storable_unfenced]
    rfl
  · decide +kernel

end LeaseMachine

end OptoSync.Stream.Go
