import OptoSync.PullPage
import OptoSync.SharedClock

/-!
# Stamped edits in a shared queue

Several tabs over one IndexedDB. A call of `queueMutation` or `queueMutationAtomic` takes its stamp
from the clock of its tab, and its transaction comes later.
-/
namespace OptoSync.StampedQueue
open Transition ClientClock OptoSyncClient Json

/-- A timestamp that the clock of a tab issued for a call; `order` counts these timestamps. -/
structure Stamp where
  tab : ℕ
  order : ℕ
  text : String

/-- A call between `prepareUpsert` and its transaction. -/
structure PreparedUpsert where
  tab : ℕ
  tableName : String
  recordId : String
  jsonPayload : String
  protocol : ProtocolMutationOptions
  stamp : Option Stamp

/-- A queued upsert whose `updatedAt` the client stamped. -/
structure Edit where
  row : LocalMutation
  stamp : Stamp

namespace Edit

def mutationId (edit : Edit) : ℕ := bigInt (edit.row.mutationId.getD "")

def SameRecord (a b : Edit) : Prop :=
  a.row.tableName = b.row.tableName ∧ a.row.recordId = b.row.recordId

end Edit

structure Tabs where
  shared : Shared
  db : OptoSyncDatabase
  prepared : List PreparedUpsert
  /-- The stamps of all calls so far. -/
  stamps : List Stamp
  edits : List Edit

/-- The tabs find some stored clock state and a queue. -/
def Tabs.start (stored : Option String) (db : OptoSyncDatabase) : Tabs :=
  { shared := .start stored, db, prepared := [], stamps := [], edits := [] }

inductive TabEvent
  /-- A clock is opened, observes, saves, or issues a timestamp outside `prepareUpsert`. -/
  | clock (event : SharedEvent)
  | prepare (tab : ℕ) (tableName recordId : String) (payload : List (String × Json))
      (protocol : ProtocolMutationOptions) (physical : ℤ)
  /-- The transaction of the call at this position. -/
  | insert (position : ℕ) (createdAt : ℕ)
  /-- The call at this position fails in another way, or its tab is closed. -/
  | fail (position : ℕ)

/-- How the tabs are set up; `client` gives the options of each. -/
structure Setup where
  client : ℕ → OptoSyncClient
  stampUpdatedAt : ℕ → Bool
  stringify : Json → String

/-- `{ ...payload, updatedAt }` for a payload without `updatedAt`. -/
def withUpdatedAt (payload : List (String × Json)) (updatedAt : String) : List (String × Json) :=
  payload ++ [("updatedAt", .string updatedAt)]

namespace Tabs

variable (setup : Setup)

/-- The call waits with its stamp, unless the payload is too large. -/
def await (s : Tabs) (call : PreparedUpsert) : Tabs :=
  match (setup.client call.tab).assertPayloadQuota call.jsonPayload with
  | .ok _ => { s with prepared := s.prepared ++ [call] }
  | .error _ => s

/-- The synchronous part of `prepareUpsert`; `none` of `next` is a `RangeError`. -/
def prepareUpsert (s : Tabs) (tab : ℕ) (opened : Instance) (tableName recordId : String)
    (payload : List (String × Json)) (protocol : ProtocolMutationOptions) (physical : ℤ) : Tabs :=
  if setup.stampUpdatedAt tab = true ∧ member payload "updatedAt" = none then
    let s' := { s with shared := s.shared.step (.next tab physical) }
    match (opened.clock.next physical).1 with
    | none => s'
    | some text =>
      let stamp := { tab, order := s.stamps.length, text }
      await setup { s' with stamps := s.stamps ++ [stamp] }
        { tab, tableName, recordId, protocol
          jsonPayload := setup.stringify (.object (withUpdatedAt payload text))
          stamp := some stamp }
  else
    await setup s
      { tab, tableName, recordId, protocol
        jsonPayload := setup.stringify (.object payload)
        stamp := none }

/-- The call still awaits the save of its stamp. -/
def isSaving (s : Tabs) (call : PreparedUpsert) : Bool :=
  (s.shared.instances call.tab).any fun opened =>
    call.stamp.any fun stamp => opened.saving.contains stamp.text

def insertPreparedUpsert (s : Tabs) (position : ℕ) (call : PreparedUpsert) (createdAt : ℕ) :
    Tabs :=
  let s := { s with prepared := s.prepared.eraseIdx position }
  match (setup.client call.tab).queueMutation s.db call.tableName call.recordId call.jsonPayload
      call.protocol createdAt with
  | .error _ => s
  | .ok db =>
    let queued := db.localMutations.getLast?.bind fun row =>
      call.stamp.map fun stamp => { row, stamp : Edit }
    { s with db := db, edits := s.edits ++ queued.toList }

def step (s : Tabs) : TabEvent → Tabs
  | .clock event => { s with shared := s.shared.step event }
  | .prepare tab tableName recordId payload protocol physical =>
    match s.shared.instances tab with
    | none => s
    | some opened => s.prepareUpsert setup tab opened tableName recordId payload protocol physical
  | .insert position createdAt =>
    match s.prepared[position]? with
    | none => s
    | some call =>
      if s.isSaving call then s else s.insertPreparedUpsert setup position call createdAt
  | .fail position => { s with prepared := s.prepared.eraseIdx position }

end Tabs

/-- Of two queued edits of a record the one with the larger mutation id has the larger stamp. -/
def OrdersAgree (s : Tabs) : Prop :=
  ∀ a ∈ s.edits, ∀ b ∈ s.edits, a.SameRecord b → a.mutationId < b.mutationId →
    ClientClock.compareHlc a.stamp.text b.stamp.text = .lt

/-- The edit of the record was stamped by the same tab before the call, or by another tab with a
smaller timestamp. -/
def Precedes (edit : Edit) (call : PreparedUpsert) : Prop :=
  edit.row.tableName = call.tableName → edit.row.recordId = call.recordId →
    ∀ stamp, call.stamp = some stamp →
      if edit.stamp.tab = stamp.tab then edit.stamp.order < stamp.order
      else ClientClock.compareHlc edit.stamp.text stamp.text = .lt

/-- A transaction that queues a stamped edit comes after those edits of its record only that
precede it. -/
def InsertsInOrder (setup : Setup) (s : Tabs) : TabEvent → Prop
  | .insert position createdAt => ∀ call, s.prepared[position]? = some call →
      s.isSaving call = false →
      (∃ db, (setup.client call.tab).queueMutation s.db call.tableName call.recordId
        call.jsonPayload call.protocol createdAt = .ok db) → ∀ edit ∈ s.edits, Precedes edit call
  | _ => True

structure StampInv (shared : Shared) (stamps : List Stamp) : Prop where
  order_lt : ∀ a ∈ stamps, a.order < stamps.length
  unique : ∀ a ∈ stamps, ∀ b ∈ stamps, a.order = b.order → a = b
  older : ∀ a ∈ stamps, ∀ b ∈ stamps, a.tab = b.tab → a.order < b.order → Older a.text b.text
  reached : ∀ a ∈ stamps, ∃ opened, shared.instances a.tab = some opened ∧
    Reached opened.clock a.text

theorem StampInv.step {shared : Shared} {stamps : List Stamp} (h : StampInv shared stamps)
    (e : SharedEvent) : StampInv (shared.step e) stamps where
  order_lt := h.order_lt
  unique := h.unique
  older := h.older
  reached := by
    intro a ha
    obtain ⟨opened, hopened, hreached⟩ := h.reached a ha
    obtain ⟨opened', hopened', hforward⟩ := Shared.step_reached hopened e
    exact ⟨opened', hopened', hforward a.text hreached⟩

/-- A new stamp of a tab is above its stamps so far. -/
theorem StampInv.issue {shared : Shared} {stamps : List Stamp} (h : StampInv shared stamps)
    {tab : ℕ} {opened : Instance} (htab : shared.instances tab = some opened) {physical : ℤ}
    {text : String} (htext : (opened.clock.next physical).1 = some text) :
    StampInv (shared.step (.next tab physical)) (stamps ++ [⟨tab, stamps.length, text⟩]) := by
  have hm := opened.clock.next_moves physical
  have hstep := h.step (.next tab physical)
  have hnew : ∀ a ∈ stamps ++ [⟨tab, stamps.length, text⟩],
      a ∈ stamps ∨ a = ⟨tab, stamps.length, text⟩ := by
    intro a ha
    exact (List.mem_append.mp ha).imp_right List.mem_singleton.mp
  refine ⟨fun a ha => ?_, fun a ha b hb hab => ?_, fun a ha b hb htabs hlt => ?_, fun a ha => ?_⟩
  · rw [List.length_append, List.length_singleton]
    rcases hnew a ha with hold | rfl
    · exact Nat.lt_succ_of_lt (h.order_lt a hold)
    · exact Nat.lt_succ_self _
  · rcases hnew a ha with holda | rfl
    · rcases hnew b hb with holdb | rfl
      · exact h.unique a holda b holdb hab
      · exact absurd hab (h.order_lt a holda).ne
    · rcases hnew b hb with holdb | rfl
      · exact absurd hab (h.order_lt b holdb).ne'
      · rfl
  · rcases hnew a ha with holda | rfl
    · rcases hnew b hb with holdb | rfl
      · exact h.older a holda b holdb htabs hlt
      · obtain ⟨opened', hopened', hreached⟩ := h.reached a holda
        rw [htabs] at hopened'
        obtain rfl := Option.some.inj (htab.symm.trans hopened')
        exact hreached.older hm htext
    · rcases hnew b hb with holdb | rfl
      · exact absurd hlt (h.order_lt b holdb).not_gt
      · exact absurd hlt (lt_irrefl _)
  · rcases hnew a ha with hold | rfl
    · exact hstep.reached a hold
    · refine ⟨{ opened with
        clock := (opened.clock.next physical).2
        saving := opened.saving ++ (opened.clock.next physical).1.toList }, ?_, hm.reached htext⟩
      simp only [Shared.step, htab, Shared.move, Function.update_self]

/-- Two stamps of one tab are ordered as they were issued. -/
theorem StampInv.precedes_iff {shared : Shared} {stamps : List Stamp} (h : StampInv shared stamps)
    {a b : Stamp} (ha : a ∈ stamps) (hb : b ∈ stamps) :
    (if a.tab = b.tab then a.order < b.order else ClientClock.compareHlc a.text b.text = .lt) ↔
      ClientClock.compareHlc a.text b.text = .lt := by
  by_cases htab : a.tab = b.tab
  · rw [if_pos htab]
    refine ⟨fun hlt => (h.older a ha b hb htab hlt).compareHlc, fun hlt => ?_⟩
    have hencode := compareHlc_lt.mp hlt
    rcases lt_trichotomy a.order b.order with horder | horder | horder
    · exact horder
    · rw [h.unique a ha b hb horder] at hencode
      exact absurd hencode (lt_irrefl _)
    · have hback := compareHlc_lt.mp (h.older b hb a ha htab.symm horder).compareHlc
      exact absurd hencode hback.not_gt
  · rw [if_neg htab]

def Carries (setup : Setup) (jsonPayload : String) (stamp : Stamp) : Prop :=
  ∃ payload, jsonPayload = setup.stringify (.object (withUpdatedAt payload stamp.text))

/-- Every edit is a row of the queue whose payload carries its stamp. -/
structure Tabs.Inv (setup : Setup) (s : Tabs) : Prop where
  stamps : StampInv s.shared s.stamps
  prepared : ∀ call ∈ s.prepared, ∀ stamp, call.stamp = some stamp →
    stamp ∈ s.stamps ∧ Carries setup call.jsonPayload stamp
  edits : ∀ edit ∈ s.edits, edit.stamp ∈ s.stamps ∧ edit.row ∈ s.db.localMutations ∧
    Carries setup edit.row.jsonPayload edit.stamp
  mutationId : ∀ edit ∈ s.edits, edit.mutationId ≤ s.db.mutationSeq

variable {setup : Setup} {s : Tabs}

theorem inv_start (stored : Option String) (db : OptoSyncDatabase) :
    (Tabs.start stored db).Inv setup where
  stamps := by
    constructor <;> exact fun _ ha => absurd ha List.not_mem_nil
  prepared := fun _ hcall => absurd hcall List.not_mem_nil
  edits := fun _ hedit => absurd hedit List.not_mem_nil
  mutationId := fun _ hedit => absurd hedit List.not_mem_nil

theorem queueMutation_eq {client : OptoSyncClient} {db db' : OptoSyncDatabase}
    {tableName recordId jsonPayload : String} {protocol : ProtocolMutationOptions}
    {createdAt : ℕ}
    (h : client.queueMutation db tableName recordId jsonPayload protocol createdAt = .ok db') :
    ∃ row : LocalMutation, db' = db.add row ∧ row.tableName = tableName ∧
      row.recordId = recordId ∧ row.jsonPayload = jsonPayload ∧
      row.mutationId = some (db.mutationSeq + 1).repr := by
  obtain ⟨consistencyPolicy, rfl⟩ := insert_eq h
  exact ⟨_, rfl, rfl, rfl, rfl, rfl⟩

/-- The transaction fails, or adds a row that is an edit if the call was stamped. -/
theorem insertPreparedUpsert_cases (setup : Setup) (s : Tabs) (position : ℕ)
    (call : PreparedUpsert) (createdAt : ℕ) :
    ((∃ error, (setup.client call.tab).queueMutation s.db call.tableName call.recordId
        call.jsonPayload call.protocol createdAt = .error error) ∧
      s.insertPreparedUpsert setup position call createdAt =
        { s with prepared := s.prepared.eraseIdx position }) ∨
    ∃ row : LocalMutation, (∃ db, (setup.client call.tab).queueMutation s.db call.tableName
        call.recordId call.jsonPayload call.protocol createdAt = .ok db) ∧
      row.tableName = call.tableName ∧ row.recordId = call.recordId ∧
      row.jsonPayload = call.jsonPayload ∧ row.mutationId = some (s.db.mutationSeq + 1).repr ∧
      s.insertPreparedUpsert setup position call createdAt =
        { s with
          prepared := s.prepared.eraseIdx position
          db := s.db.add row
          edits := s.edits ++
            (call.stamp.map fun stamp => ⟨{ row with id := s.db.nextId }, stamp⟩).toList } := by
  unfold Tabs.insertPreparedUpsert
  cases hqueue : (setup.client call.tab).queueMutation s.db call.tableName call.recordId
      call.jsonPayload call.protocol createdAt with
  | error error => exact .inl ⟨⟨error, rfl⟩, by simp only [hqueue]⟩
  | ok db =>
    obtain ⟨row, rfl, htable, hrecord, hpayload, hid⟩ := queueMutation_eq hqueue
    refine .inr ⟨row, ⟨_, rfl⟩, htable, hrecord, hpayload, hid, ?_⟩
    simp only [hqueue, OptoSyncDatabase.add, List.getLast?_concat, Option.bind_some]

theorem Tabs.Inv.await (h : s.Inv setup) {call : PreparedUpsert}
    (hcall : ∀ stamp, call.stamp = some stamp →
      stamp ∈ s.stamps ∧ Carries setup call.jsonPayload stamp) : (s.await setup call).Inv setup := by
  unfold Tabs.await
  split
  · refine ⟨h.stamps, fun other hother => ?_, h.edits, h.mutationId⟩
    rcases List.mem_append.mp hother with hold | hnew
    · exact h.prepared other hold
    · rw [List.mem_singleton.mp hnew]
      exact hcall
  · exact h

theorem Tabs.Inv.prepareUpsert (h : s.Inv setup) {tab : ℕ} {opened : Instance}
    (htab : s.shared.instances tab = some opened) (tableName recordId : String)
    (payload : List (String × Json)) (protocol : ProtocolMutationOptions) (physical : ℤ) :
    (s.prepareUpsert setup tab opened tableName recordId payload protocol physical).Inv setup := by
  unfold Tabs.prepareUpsert
  split
  · cases htext : (opened.clock.next physical).1 with
    | none => exact ⟨h.stamps.step (.next tab physical), h.prepared, h.edits, h.mutationId⟩
    | some text =>
      have hissued := h.stamps.issue htab htext
      have hgrown : Tabs.Inv setup { s with
          shared := s.shared.step (.next tab physical)
          stamps := s.stamps ++ [⟨tab, s.stamps.length, text⟩] } := by
        refine ⟨hissued, fun call hcall stamp hstamp => ?_, fun edit hedit => ?_, h.mutationId⟩
        · obtain ⟨hmem, hcarries⟩ := h.prepared call hcall stamp hstamp
          exact ⟨List.mem_append_left _ hmem, hcarries⟩
        · obtain ⟨hmem, hrest⟩ := h.edits edit hedit
          exact ⟨List.mem_append_left _ hmem, hrest⟩
      refine hgrown.await fun stamp hstamp => ?_
      obtain rfl := Option.some.inj hstamp
      exact ⟨List.mem_append_right _ (List.mem_singleton_self _), payload, rfl⟩
  · exact h.await fun stamp hstamp => by cases hstamp

theorem Tabs.Inv.drop (h : s.Inv setup) (position : ℕ) :
    Tabs.Inv setup { s with prepared := s.prepared.eraseIdx position } where
  stamps := h.stamps
  prepared := fun call hcall => h.prepared call (List.mem_of_mem_eraseIdx hcall)
  edits := h.edits
  mutationId := h.mutationId

theorem mem_edits_concat {edits : List Edit} {row : LocalMutation} {stamp : Option Stamp}
    {edit : Edit} (h : edit ∈ edits ++ (stamp.map fun stamp => (⟨row, stamp⟩ : Edit)).toList) :
    edit ∈ edits ∨ ∃ st, stamp = some st ∧ edit = ⟨row, st⟩ := by
  refine (List.mem_append.mp h).imp_right fun hnew => ?_
  obtain ⟨st, hst, rfl⟩ := Option.map_eq_some_iff.mp (Option.mem_toList.mp hnew)
  exact ⟨st, hst, rfl⟩

theorem edit_mutationId {row : LocalMutation} {n id : ℕ} (hid : row.mutationId = some n.repr)
    (stamp : Stamp) : Edit.mutationId ⟨{ row with id := id }, stamp⟩ = n := by
  simp [Edit.mutationId, hid, bigInt_repr]

theorem Tabs.Inv.insert (h : s.Inv setup) {position : ℕ} {call : PreparedUpsert}
    (hcall : s.prepared[position]? = some call) (createdAt : ℕ) :
    (s.insertPreparedUpsert setup position call createdAt).Inv setup := by
  rcases insertPreparedUpsert_cases setup s position call createdAt with hfailed | hqueued
  · rw [hfailed.2]
    exact h.drop position
  · obtain ⟨row, -, -, -, hpayload, hid, hresult⟩ := hqueued
    rw [hresult]
    refine ⟨h.stamps, (h.drop position).prepared, fun edit hedit => ?_, fun edit hedit => ?_⟩
    · rcases mem_edits_concat hedit with hold | hnew
      · obtain ⟨hstamp, hrow, hcarries⟩ := h.edits edit hold
        exact ⟨hstamp, List.mem_append_left _ hrow, hcarries⟩
      · obtain ⟨stamp, hstamp, rfl⟩ := hnew
        obtain ⟨hmem, hcarries⟩ :=
          h.prepared call (List.mem_of_getElem? hcall) stamp hstamp
        refine ⟨hmem, List.mem_append_right _ (List.mem_singleton_self _), ?_⟩
        rwa [← hpayload] at hcarries
    · rcases mem_edits_concat hedit with hold | hnew
      · exact (h.mutationId edit hold).trans (Nat.le_succ _)
      · obtain ⟨stamp, -, rfl⟩ := hnew
        exact (edit_mutationId hid stamp).le

theorem Tabs.Inv.step (h : s.Inv setup) (e : TabEvent) : (s.step setup e).Inv setup := by
  cases e with
  | clock event => exact ⟨h.stamps.step event, h.prepared, h.edits, h.mutationId⟩
  | prepare tab tableName recordId payload protocol physical =>
    simp only [Tabs.step]
    cases htab : s.shared.instances tab with
    | none => exact h
    | some opened => exact h.prepareUpsert htab tableName recordId payload protocol physical
  | insert position createdAt =>
    simp only [Tabs.step]
    cases hcall : s.prepared[position]? with
    | none => exact h
    | some call =>
      dsimp only
      split
      · exact h
      · exact h.insert hcall createdAt
  | fail position => exact h.drop position

theorem prepareUpsert_edits (setup : Setup) (s : Tabs) (tab : ℕ) (opened : Instance)
    (tableName recordId : String) (payload : List (String × Json))
    (protocol : ProtocolMutationOptions) (physical : ℤ) :
    (s.prepareUpsert setup tab opened tableName recordId payload protocol physical).edits =
      s.edits := by
  have hawait : ∀ (s : Tabs) (call : PreparedUpsert), (s.await setup call).edits = s.edits := by
    intro s call
    unfold Tabs.await
    split <;> rfl
  unfold Tabs.prepareUpsert
  split
  · dsimp only
    cases (opened.clock.next physical).1 with
    | none => rfl
    | some text => exact hawait _ _
  · exact hawait _ _

theorem OrdersAgree.insert_iff (hI : s.Inv setup) (h : OrdersAgree s) {position : ℕ}
    {call : PreparedUpsert} (hcall : s.prepared[position]? = some call) (createdAt : ℕ) :
    OrdersAgree (s.insertPreparedUpsert setup position call createdAt) ↔
      ((∃ db, (setup.client call.tab).queueMutation s.db call.tableName call.recordId
        call.jsonPayload call.protocol createdAt = .ok db) → ∀ edit ∈ s.edits, Precedes edit call) := by
  rcases insertPreparedUpsert_cases setup s position call createdAt with hfailed | hqueued
  · obtain ⟨⟨error, herror⟩, hresult⟩ := hfailed
    rw [hresult]
    refine iff_of_true h fun hok => ?_
    obtain ⟨db, hdb⟩ := hok
    rw [herror] at hdb
    cases hdb
  · obtain ⟨row, hok, htable, hrecord, -, hid, hresult⟩ := hqueued
    rw [hresult]
    have hprecedes : ∀ edit ∈ s.edits, ∀ stamp, call.stamp = some stamp →
        ((if edit.stamp.tab = stamp.tab then edit.stamp.order < stamp.order
          else ClientClock.compareHlc edit.stamp.text stamp.text = .lt) ↔
            ClientClock.compareHlc edit.stamp.text stamp.text = .lt) := by
      intro edit hedit stamp hstamp
      exact hI.stamps.precedes_iff (hI.edits edit hedit).1
        (hI.prepared call (List.mem_of_getElem? hcall) stamp hstamp).1
    constructor
    · intro hnext _ edit hedit htable' hrecord' stamp hstamp
      rw [hprecedes edit hedit stamp hstamp]
      refine hnext edit (List.mem_append_left _ hedit) ⟨{ row with id := s.db.nextId }, stamp⟩
        (List.mem_append_right _ (by simp [hstamp])) ?_ ?_
      · exact ⟨htable'.trans htable.symm, hrecord'.trans hrecord.symm⟩
      · rw [edit_mutationId hid]
        exact Nat.lt_succ_of_le (hI.mutationId edit hedit)
    · intro hinorder a ha b hb hsame hlt
      rcases mem_edits_concat ha with holda | hnewa
      · rcases mem_edits_concat hb with holdb | hnewb
        · exact h a holda b holdb hsame hlt
        · obtain ⟨stamp, hstamp, rfl⟩ := hnewb
          exact (hprecedes a holda stamp hstamp).mp (hinorder hok a holda
            (hsame.1.trans htable) (hsame.2.trans hrecord) stamp hstamp)
      · -- nothing has a larger mutation id than the new row
        obtain ⟨stamp, -, rfl⟩ := hnewa
        rw [edit_mutationId hid] at hlt
        rcases mem_edits_concat hb with holdb | hnewb
        · exact absurd hlt (Nat.le_succ_of_le (hI.mutationId b holdb)).not_gt
        · obtain ⟨stamp', -, rfl⟩ := hnewb
          rw [edit_mutationId hid] at hlt
          exact absurd hlt (lt_irrefl _)

theorem OrdersAgree.step_iff (hI : s.Inv setup) (h : OrdersAgree s) (e : TabEvent) :
    OrdersAgree (s.step setup e) ↔ InsertsInOrder setup s e := by
  cases e with
  | clock event => exact iff_of_true h trivial
  | fail position => exact iff_of_true h trivial
  | prepare tab tableName recordId payload protocol physical =>
    refine iff_of_true ?_ trivial
    simp only [Tabs.step]
    cases htab : s.shared.instances tab with
    | none => exact h
    | some opened =>
      show OrdersAgree (s.prepareUpsert setup tab opened tableName recordId payload protocol physical)
      unfold OrdersAgree
      rw [prepareUpsert_edits]
      exact h
  | insert position createdAt =>
    simp only [Tabs.step, InsertsInOrder]
    cases hcall : s.prepared[position]? with
    | none => exact iff_of_true h fun _ hnone => by cases hnone
    | some call =>
      dsimp only
      by_cases hsaving : s.isSaving call = true
      · rw [if_pos hsaving]
        refine iff_of_true h fun other hother hnot => ?_
        obtain rfl := Option.some.inj hother
        rw [hsaving] at hnot
        cases hnot
      · rw [if_neg hsaving, h.insert_iff hI hcall createdAt]
        constructor
        · intro hprecedes other hother _
          obtain rfl := Option.some.inj hother
          exact hprecedes
        · intro hprecedes
          exact hprecedes call rfl (Bool.not_eq_true _ ▸ hsaving)

/-- Along a run of the tabs, queue order and timestamp order agree exactly when every stamped
upsert is inserted after those of its record only that precede it. -/
theorem queue_and_timestamps_agree_iff (setup : Setup) (stored : Option String)
    (db : OptoSyncDatabase) (events : List TabEvent) :
    StatesMeet (Tabs.step setup) OrdersAgree (.start stored db) events ↔
      StepsMeet (Tabs.step setup) (InsertsInOrder setup) (.start stored db) events :=
  statesMeet_iff_stepsMeet (I := Tabs.Inv setup) (fun _ e hI => hI.step e)
    (fun _ e hI h => h.step_iff hI e) (inv_start stored db)
    (fun _ ha => absurd ha List.not_mem_nil) events

/-- Tabs with the default options; `stringify` of a document with one text. -/
def defaultTabs : Setup where
  client _ :=
    { clientId := "tablet", maxPendingMutations := 10000, maxQueuedPayloadBytes := 261120
      defaultConsistencyPolicy := Consistency.writeThroughLocalFirst, client_ne := by decide }
  stampUpdatedAt _ := true
  stringify
    | .object [(key, .string text)] => "\x7b\"" ++ key ++ "\":\"" ++ text ++ "\"\x7d"
    | _ => "\x7b\x7d"

def observingTab : List TabEvent :=
  [.clock (.restore 0 "tablet.aaaaaa" 60000), .clock (.restore 1 "tablet.bbbbbb" 60000),
    .clock (.observe 0 "1721822430000-0000-other" 1721822400000), .clock (.save 0),
    .prepare 0 "todos" "r-1" [] noOptions 1721822400500, .clock (.save 0),
    .insert 0 1721822400500, .prepare 1 "todos" "r-1" [] noOptions 1721822401000,
    .clock (.save 1), .insert 0 1721822401000]

/-- The first tab has observed a timestamp within the drift bound, the second has not. -/
theorem laterEdit_has_smaller_stamp :
    ¬ StatesMeet (Tabs.step defaultTabs) OrdersAgree (.start none .created) observingTab := by
  intro h
  have hlast := statesMeet_iff_prefix.mp h observingTab (List.prefix_refl _)
  have hedits : (run (Tabs.step defaultTabs) (.start none .created) observingTab).edits.map
      (fun edit => ((edit.row.tableName, edit.row.recordId), edit.mutationId, edit.stamp.text)) =
      [(("todos", "r-1"), 1, "1721822430000-0001-tablet.aaaaaa"),
        (("todos", "r-1"), 2, "1721822401000-0000-tablet.bbbbbb")] := by decide
  obtain ⟨a, rest, hab, ha, hrest⟩ := List.map_eq_cons_iff.mp hedits
  obtain ⟨b, _, rfl, hb, -⟩ := List.map_eq_cons_iff.mp hrest
  simp only [Prod.mk.injEq] at ha hb
  have hlt := hlast a (by simp [hab]) b (by simp [hab])
    ⟨ha.1.1.trans hb.1.1.symm, ha.1.2.trans hb.1.2.symm⟩ (by omega)
  rw [ha.2.2, hb.2.2] at hlt
  exact absurd hlt (by decide)

end OptoSync.StampedQueue
