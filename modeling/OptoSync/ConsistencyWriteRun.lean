import OptoSync.ConsistencyWrite

/-!
# Runs of consistency writes

A row that a call has queued stays pending until a result is brought for it, and disappears only
after that. What a call finds in the queue therefore tells whether there is a result, but not
which.
-/
namespace OptoSync.ConsistencyWrite
open Transition OptoSyncDatabase OptoSyncClient

variable {client : OptoSyncClient} {parse : String → Option Json}

theorem Write.queue_ok {db db' : OptoSyncDatabase} {write : Write}
    {protocol : ProtocolMutationOptions} {createdAt : ℕ}
    (h : write.queue client db protocol createdAt = .ok db') :
    ∃ row : LocalMutation, db' = db.add row ∧ row.syncStatus = SyncStatus.pending ∧
      row.mutationId = some (db.mutationSeq + 1).repr := by
  cases write with
  | upsert tableName recordId jsonPayload =>
    obtain ⟨row, hdb, hpending, -, hid, -, -⟩ := insert_ok h
    exact ⟨row, hdb, hpending, hid⟩
  | delete tableName recordId =>
    obtain ⟨row, hdb, hpending, -, hid, -, -⟩ := insert_ok h
    exact ⟨row, hdb, hpending, hid⟩

theorem map_eq_map_iff {α β γ : Type} {f : α → γ} {g : β → γ} {as : List α} {bs : List β} :
    as.map f = bs.map g ↔ as.length = bs.length ∧ ∀ a b, (a, b) ∈ as.zip bs → f a = g b := by
  have hmaps : as.map f = bs.map g ↔ List.Forall₂ (fun a b => f a = g b) as bs := by
    rw [← List.forall₂_eq_eq_eq, List.forall₂_map_left_iff, List.forall₂_map_right_iff]
  rw [hmaps, List.forall₂_iff_zip]

theorem validatePushResponse_mutationIds {request : WirePush} {response : PushResponse}
    (h : validatePushResponse request response = .ok ()) :
    response.results.map MutationResult.mutationId =
      request.mutations.map WireMutation.mutationId := by
  unfold validatePushResponse at h
  split at h
  · rename_i hvalid
    obtain ⟨-, -, -, -, -, -, hlength, -, hresults⟩ := hvalid
    refine (map_eq_map_iff.mpr ⟨hlength.symm, fun mutation result hmem => ?_⟩).symm
    have hvalid := List.all_eq_true.mp hresults _ hmem
    simp only [validateResult, Bool.and_eq_true, decide_eq_true_eq] at hvalid
    exact hvalid.1.1.1.1.symm
  · cases h

/-- One result for each row of the batch, under the row's mutation id. -/
theorem delivered_row {s : Writers} {cycle : ℕ} {request : WirePush} {response : PushResponse}
    (hexpected : buildPushRequest parse client.clientId s.db.pendingMutations noOptions
      request.mutations.length = .ok request)
    (hvalid : validatePushResponse request response = .ok ()) :
    ∀ d ∈ s.delivered cycle request response,
      ∃ row ∈ s.db.pendingMutations.take request.mutations.length,
        row.id = d.rowId ∧ row.mutationId = some d.result.mutationId := by
  have hids : (s.db.pendingMutations.take request.mutations.length).map LocalMutation.mutationId =
      response.results.map fun result => some result.mutationId := by
    calc _ = request.mutations.map fun mutation => some mutation.mutationId :=
          buildPushRequest_mutationIds hexpected
      _ = (request.mutations.map WireMutation.mutationId).map some := by rw [List.map_map]; rfl
      _ = (response.results.map MutationResult.mutationId).map some := by
          rw [validatePushResponse_mutationIds hvalid]
      _ = response.results.map fun result => some result.mutationId := by rw [List.map_map]; rfl
  intro d hd
  obtain ⟨⟨row, result⟩, hentry, rfl⟩ := List.mem_map.mp hd
  exact ⟨row, (List.of_mem_zip hentry).1, rfl, (map_eq_map_iff.mp hids).2 row result hentry⟩

theorem delivered_of_row {s : Writers} {cycle : ℕ} {request : WirePush} {response : PushResponse}
    (hvalid : validatePushResponse request response = .ok ()) :
    ∀ row ∈ s.db.pendingMutations.take request.mutations.length,
      ∃ d ∈ s.delivered cycle request response, d.rowId = row.id := by
  have hlength : (s.db.pendingMutations.take request.mutations.length).length ≤
      response.results.length := by
    have hids := congrArg List.length (validatePushResponse_mutationIds hvalid)
    rw [List.length_map, List.length_map] at hids
    rw [List.length_take, hids]
    exact min_le_left _ _
  intro row hrow
  rw [← List.map_fst_zip hlength] at hrow
  obtain ⟨entry, hentry, rfl⟩ := List.mem_map.mp hrow
  exact ⟨_, List.mem_map_of_mem hentry, rfl⟩

/-- Where the mutation of a call is: pending, or a result has been brought for it. -/
structure Tracked (db : OptoSyncDatabase) (deliveries : List Delivery) (call : Call) : Prop where
  identified : call.mutationId ≠ ""
  allocated : call.queuedMutationId < db.nextId
  row : ∀ row ∈ db.localMutations, row.id = call.queuedMutationId →
    row.mutationId = some call.mutationId ∧ (isPending row = true ∨
      row.syncStatus = SyncStatus.synced ∧ ∃ d ∈ deliveries, d.rowId = call.queuedMutationId)
  gone : (∀ row ∈ db.localMutations, row.id ≠ call.queuedMutationId) →
    ∃ d ∈ deliveries, d.rowId = call.queuedMutationId
  named : ∀ d ∈ deliveries, d.rowId = call.queuedMutationId → d.result.mutationId = call.mutationId

theorem repr_ne_empty (n : ℕ) : n.repr ≠ "" := by
  intro h
  have hlist := congrArg String.toList h
  rw [Decimal.toList_repr] at hlist
  exact Nat.toDigits_ne_nil hlist

/-- Results are for rows of the past, and not for pending ones. -/
structure Fresh (db : OptoSyncDatabase) (deliveries : List Delivery) : Prop where
  allocated : ∀ d ∈ deliveries, d.rowId < db.nextId
  settled : ∀ d ∈ deliveries, ∀ row ∈ db.localMutations, row.id = d.rowId → isPending row = false

theorem fresh_add {db : OptoSyncDatabase} {deliveries : List Delivery} (h : Fresh db deliveries)
    (queued : LocalMutation) : Fresh (db.add queued) deliveries := by
  constructor
  · intro d hd
    exact Nat.lt_succ_of_lt (h.allocated d hd)
  · intro d hd row hrow hid
    rcases List.mem_append.mp hrow with hrow | hrow
    · exact h.settled d hd row hrow hid
    · rw [List.mem_singleton.mp hrow] at hid
      exact absurd hid (h.allocated d hd).ne'

theorem Tracked.add {db : OptoSyncDatabase} {deliveries : List Delivery} {call : Call}
    (h : Tracked db deliveries call) (queued : LocalMutation) :
    Tracked (db.add queued) deliveries call where
  identified := h.identified
  allocated := Nat.lt_succ_of_lt h.allocated
  row := by
    intro row hrow hid
    rcases List.mem_append.mp hrow with hrow | hrow
    · exact h.row row hrow hid
    · rw [List.mem_singleton.mp hrow] at hid
      exact absurd hid h.allocated.ne'
  gone := by
    intro hgone
    exact h.gone fun row hrow => hgone row (List.mem_append_left _ hrow)
  named := h.named

theorem tracked_queued {db : OptoSyncDatabase} {deliveries : List Delivery}
    (h : Fresh db deliveries) {queued : LocalMutation}
    (hpending : queued.syncStatus = SyncStatus.pending) {call : Call}
    (hid : queued.mutationId = some call.mutationId) (hne : call.mutationId ≠ "")
    (hcall : call.queuedMutationId = db.nextId) :
    Tracked (db.add queued) deliveries call where
  identified := hne
  allocated := by
    rw [hcall]
    exact Nat.lt_succ_self _
  row := by
    intro row hrow hrowId
    rcases List.mem_append.mp hrow with hrow | hrow
    · rw [hcall] at hrowId
      exact absurd hrowId (db.fresh row hrow).ne
    · rw [List.mem_singleton.mp hrow]
      exact ⟨hid, Or.inl (decide_eq_true hpending)⟩
  gone := by
    intro hgone
    exact absurd hcall.symm (hgone _ (List.mem_append_right _ (List.mem_singleton_self _)))
  named := by
    intro d hd hd'
    rw [hcall] at hd'
    exact absurd hd' (h.allocated d hd).ne

/-- Pruning takes away acknowledged rows only. -/
theorem mem_pruneConfirmed {db : OptoSyncDatabase} {retain : ℕ} {row : LocalMutation}
    (hrow : row ∈ db.localMutations) (hsynced : row.syncStatus ≠ SyncStatus.synced) :
    row ∈ (pruneConfirmed db retain).localMutations := by
  refine List.mem_filter.mpr ⟨hrow, decide_eq_true fun hin => ?_⟩
  obtain ⟨other, hother, hid⟩ := List.mem_map.mp hin
  have hmem := List.mem_filter.mp (List.mem_mergeSort.mp (List.mem_of_mem_take hother))
  obtain rfl := row_unique hmem.1 hrow hid
  exact hsynced (of_decide_eq_true hmem.2)

theorem fresh_prune {db : OptoSyncDatabase} {deliveries : List Delivery} (h : Fresh db deliveries)
    (retain : ℕ) : Fresh (pruneConfirmed db retain) deliveries where
  allocated := h.allocated
  settled := fun d hd row hrow => h.settled d hd row (List.mem_filter.mp hrow).1

theorem Tracked.prune {db : OptoSyncDatabase} {deliveries : List Delivery} {call : Call}
    (h : Tracked db deliveries call) (retain : ℕ) :
    Tracked (pruneConfirmed db retain) deliveries call where
  identified := h.identified
  allocated := h.allocated
  row := fun row hrow => h.row row (List.mem_filter.mp hrow).1
  gone := by
    intro hgone
    by_cases hrow : ∃ row ∈ db.localMutations, row.id = call.queuedMutationId
    · obtain ⟨row, hrow, hid⟩ := hrow
      rcases (h.row row hrow hid).2 with hpending | hsynced
      · have hkept : row.syncStatus ≠ SyncStatus.synced := by
          rw [of_decide_eq_true hpending]
          decide
        exact absurd hid (hgone row (mem_pruneConfirmed hrow hkept))
      · exact hsynced.2
    · exact h.gone fun row hrow' hid => hrow ⟨row, hrow', hid⟩
  named := h.named

/-- The results of a batch: one for each row that is marked, all of these pending. -/
structure Brought (db : OptoSyncDatabase) (ids : List ℕ) (new : List Delivery) : Prop where
  rows : ∀ d ∈ new, ∃ row ∈ db.localMutations, row.id ∈ ids ∧ row.id = d.rowId ∧
    row.mutationId = some d.result.mutationId
  all : ∀ id ∈ ids, ∃ d ∈ new, d.rowId = id

theorem isPending_withStatus_synced {ids : List ℕ} {row : LocalMutation} (h : row.id ∈ ids) :
    isPending (withStatus ids SyncStatus.synced row) = false := by
  rw [withStatus, if_pos h]
  rfl

theorem fresh_updateStatus {db : OptoSyncDatabase} {deliveries new : List Delivery}
    (h : Fresh db deliveries) {ids : List ℕ} (hnew : Brought db ids new) :
    Fresh (db.updateStatus ids SyncStatus.synced) (deliveries ++ new) := by
  constructor
  · intro d hd
    rcases List.mem_append.mp hd with hd | hd
    · exact h.allocated d hd
    · obtain ⟨row, hrow, -, hid, -⟩ := hnew.rows d hd
      rw [← hid]
      exact db.fresh row hrow
  · intro d hd marked hmarked hid
    obtain ⟨row, hrow, rfl⟩ := List.mem_map.mp hmarked
    rw [withStatus_id] at hid
    by_cases hin : row.id ∈ ids
    · exact isPending_withStatus_synced hin
    · rw [withStatus_of_notMem hin]
      rcases List.mem_append.mp hd with hd | hd
      · exact h.settled d hd row hrow hid
      · obtain ⟨other, -, hother, hid', -⟩ := hnew.rows d hd
        rw [hid'.trans hid.symm] at hother
        exact absurd hother hin

theorem Tracked.updateStatus {db : OptoSyncDatabase} {deliveries new : List Delivery} {call : Call}
    (h : Tracked db deliveries call) {ids : List ℕ} (hnew : Brought db ids new) :
    Tracked (db.updateStatus ids SyncStatus.synced) (deliveries ++ new) call where
  identified := h.identified
  allocated := h.allocated
  row := by
    intro marked hmarked hid
    obtain ⟨row, hrow, rfl⟩ := List.mem_map.mp hmarked
    rw [withStatus_id] at hid
    obtain ⟨hname, hstatus⟩ := h.row row hrow hid
    by_cases hin : row.id ∈ ids
    · rw [withStatus, if_pos hin]
      obtain ⟨d, hd, hd'⟩ := hnew.all row.id hin
      exact ⟨hname, Or.inr ⟨rfl, d, List.mem_append_right _ hd, hd'.trans hid⟩⟩
    · rw [withStatus_of_notMem hin]
      refine ⟨hname, hstatus.imp_right fun hsynced => ?_⟩
      obtain ⟨hsynced, d, hd, hd'⟩ := hsynced
      exact ⟨hsynced, d, List.mem_append_left _ hd, hd'⟩
  gone := by
    intro hgone
    obtain ⟨d, hd, hd'⟩ := h.gone fun row hrow hid =>
      hgone _ (List.mem_map_of_mem hrow) ((withStatus_id _ _ row).trans hid)
    exact ⟨d, List.mem_append_left _ hd, hd'⟩
  named := by
    intro d hd hd'
    rcases List.mem_append.mp hd with hd | hd
    · exact h.named d hd hd'
    · obtain ⟨row, hrow, -, hid, hname⟩ := hnew.rows d hd
      rw [(h.row row hrow (hid.trans hd')).1] at hname
      exact (Option.some.inj hname).symm

theorem brought_of_acknowledge {s : Writers} {db' : OptoSyncDatabase} (cycle : ℕ)
    {request : WirePush} {response : PushResponse}
    (h : client.acknowledgePush parse s.db response request = .ok db') :
    ∃ ids, db' = s.db.updateStatus ids SyncStatus.synced ∧
      Brought s.db ids (s.delivered cycle request response) := by
  obtain ⟨hvalid, hexpected, hdb⟩ := acknowledgePush_eq h
  refine ⟨_, hdb, ?_, ?_⟩
  · intro d hd
    obtain ⟨row, hrow, hid, hname⟩ := delivered_row hexpected hvalid d hd
    have hmem := List.mem_of_mem_take hrow
    rw [pendingMutations_eq] at hmem
    exact ⟨row, (List.mem_filter.mp hmem).1, List.mem_map_of_mem hrow, hid, hname⟩
  · intro id hid
    obtain ⟨row, hrow, rfl⟩ := List.mem_map.mp hid
    exact delivered_of_row hvalid row hrow

/-! ## One step -/

/-- A call that waits on the network has a policy that uses it; the row that it keeps is its own. -/
def PhaseOk (call : Call) : Prop :=
  match call.phase with
  | .queued => call.awaited = []
  | .cycle row _ | .read row _ => call.policy ≠ .queuedLocalFirst ∧
      ∀ r ∈ row, r.mutationId = some call.mutationId

structure Inv (s : Writers) : Prop where
  fresh : Fresh s.db s.deliveries
  calls : ∀ i call, s.calls i = some call → Tracked s.db s.deliveries call ∧ PhaseOk call

variable {s : Writers}

theorem Inv.update (h : Inv s) (i : ℕ) {call : Option Call}
    (hcall : ∀ c ∈ call, Tracked s.db s.deliveries c ∧ PhaseOk c) :
    Inv { s with calls := Function.update s.calls i call } := by
  refine ⟨h.fresh, fun j c hc => ?_⟩
  dsimp only at hc
  by_cases hji : j = i
  · rw [hji, Function.update_self] at hc
    exact hcall c hc
  · rw [Function.update_of_ne hji] at hc
    exact h.calls j c hc

theorem Inv.congr {t : Writers} (h : Inv s) (hdb : t.db = s.db)
    (hdeliveries : t.deliveries = s.deliveries) (hcalls : t.calls = s.calls) : Inv t := by
  refine ⟨?_, ?_⟩
  · rw [hdb, hdeliveries]
    exact h.fresh
  · rw [hdb, hdeliveries, hcalls]
    exact h.calls

theorem Inv.settled (h : Inv s) (i : ℕ) (call : Option Call)
    (outcome : Except String ConsistencyWriteReceipt) : Inv (s.settled i call outcome) := by
  have hnone : ∀ c ∈ (none : Option Call), Tracked s.db s.deliveries c ∧ PhaseOk c := by
    intro c hc
    cases hc
  exact (h.update i hnone).congr rfl rfl rfl

theorem Inv.wait (h : Inv s) (i : ℕ) {call : Call} {phase : Phase}
    (htracked : Tracked s.db s.deliveries call) (hphase : PhaseOk { call with phase }) :
    Inv (s.wait i call phase) := by
  refine h.update i fun c hc => ?_
  rw [← Option.some.inj hc]
  exact ⟨⟨htracked.identified, htracked.allocated, htracked.row, htracked.gone, htracked.named⟩, hphase⟩

/-- Joining or starting a cycle touches neither queue nor calls. -/
theorem syncNow_frame (s : Writers) (loop : ℕ) : (s.syncNow loop).2.db = s.db ∧
    (s.syncNow loop).2.deliveries = s.deliveries ∧ (s.syncNow loop).2.calls = s.calls ∧
      (s.syncNow loop).2.settlements = s.settlements := by
  unfold Writers.syncNow
  cases s.inFlight loop with
  | none => exact ⟨rfl, rfl, rfl, rfl⟩
  | some promise => exact ⟨rfl, rfl, rfl, rfl⟩

theorem Inv.syncNow (h : Inv s) (loop : ℕ) : Inv (s.syncNow loop).2 := by
  obtain ⟨hdb, hdeliveries, hcalls, -⟩ := syncNow_frame s loop
  exact h.congr hdb hdeliveries hcalls

theorem Inv.awaitCycle (h : Inv s) (i loop : ℕ) {call : Call} {row : Option LocalMutation}
    (htracked : Tracked s.db s.deliveries call) (hpolicy : call.policy ≠ .queuedLocalFirst)
    (hrow : ∀ r ∈ row, r.mutationId = some call.mutationId) :
    Inv (s.awaitCycle i call row loop) := by
  obtain ⟨hdb, hdeliveries, -, -⟩ := syncNow_frame s loop
  refine (h.syncNow loop).wait i ?_ ⟨hpolicy, hrow⟩
  rw [hdb, hdeliveries]
  exact ⟨htracked.identified, htracked.allocated, htracked.row, htracked.gone, htracked.named⟩

theorem Inv.finish (h : Inv s) (cycle : ℕ) (result : Except SyncError ProtocolSyncCycleResult) :
    Inv (s.finish cycle result) := h.congr rfl rfl rfl

theorem Inv.writeWithConsistency (h : Inv s) (i : ℕ) (write : Write) (options : RxWriteOptions)
    (createdAt : ℕ) (fails : Option String) :
    Inv (s.writeWithConsistency client i write options createdAt fails) := by
  unfold Writers.writeWithConsistency
  split
  · exact h.settled i none _
  · dsimp only
    split
    · exact h.settled i none _
    · split
      · exact h.settled i none _
      · rename_i db hqueue
        obtain ⟨queued, rfl, hpending, hid⟩ := Write.queue_ok hqueue
        have hadded : Inv { s with db := s.db.add queued } :=
          ⟨fresh_add h.fresh queued, fun j c hc =>
            ⟨(h.calls j c hc).1.add queued, (h.calls j c hc).2⟩⟩
        refine hadded.update i fun c hc => ?_
        rw [← Option.some.inj hc]
        exact ⟨tracked_queued h.fresh hpending hid (repr_ne_empty _) rfl, rfl⟩

theorem find_some {id : ℕ} {row : LocalMutation} (h : s.find id = some row) :
    row ∈ s.db.localMutations ∧ row.id = id := by
  have hid := List.find?_some h
  exact ⟨List.mem_of_find?_eq_some h, of_decide_eq_true hid⟩

theorem find_none {id : ℕ} (h : s.find id = none) : ∀ row ∈ s.db.localMutations, row.id ≠ id := by
  intro row hrow
  simpa using List.find?_eq_none.mp h row hrow

theorem settleConsistency_network {call : Call} {aborted : Bool} {hint : Except String Unit}
    {loop : ℕ} (h : call.settleConsistency aborted hint = .inr loop) :
    call.policy ≠ .queuedLocalFirst := by
  intro hpolicy
  unfold Call.settleConsistency at h
  rw [if_pos hpolicy] at h
  split at h <;> cases h

theorem afterCycle_pending {call : Call} {cycle : ProtocolSyncCycleResult}
    {found : Option LocalMutation} {row : LocalMutation}
    (h : call.afterCycle cycle found = .inr row) : found = some row ∧ isPending row = true := by
  unfold Call.afterCycle at h
  split at h
  · cases h
  · split at h
    · cases h
    · split at h
      · rename_i hpending
        cases h
        exact ⟨rfl, decide_eq_true hpending⟩
      · cases h

theorem Inv.settle (h : Inv s) {i : ℕ} {call : Call} (hcall : s.calls i = some call)
    (aborted : Bool) (hint : Except String Unit) : Inv (s.settle i call aborted hint) := by
  unfold Writers.settle
  split
  · split
    · exact h.settled i _ _
    · rename_i loop hsettle
      exact h.awaitCycle i loop (h.calls i call hcall).1 (settleConsistency_network hsettle)
        fun r hr => by cases hr
  · exact h

theorem Inv.resume (h : Inv s) {i : ℕ} {call : Call} (hcall : s.calls i = some call)
    (aborted : Bool) (read : Except SyncError Unit) : Inv (s.resume i call aborted read) := by
  obtain ⟨htracked, hphase⟩ := h.calls i call hcall
  unfold PhaseOk at hphase
  unfold Writers.resume
  cases hat : call.phase with
  | queued => exact h
  | cycle row promise =>
    rw [hat] at hphase
    dsimp only
    split
    · exact h.wait i htracked hphase
    · exact h.settled i _ _
    · exact h
  | read row cycle =>
    rw [hat] at hphase
    dsimp only
    cases read with
    | error error => exact h.settled i _ _
    | ok _ =>
      cases row with
      | some row => exact h.settled i _ _
      | none =>
        dsimp only
        split
        · exact h.settled i _ _
        · rename_i row loop hpending hloop
          obtain ⟨hfound, -⟩ := afterCycle_pending hpending
          obtain ⟨hrow, hid⟩ := find_some hfound
          refine h.awaitCycle i loop htracked hphase.1 fun r hr => ?_
          rw [← Option.some.inj hr]
          exact (htracked.row row hrow hid).1
        · exact h

theorem Inv.acknowledgePush (h : Inv s) (cycle : ℕ) (request : WirePush)
    (response : PushResponse) : Inv (s.acknowledgePush client parse cycle request response) := by
  unfold Writers.acknowledgePush
  split
  · exact h.finish cycle _
  · rename_i db hacknowledge
    obtain ⟨ids, rfl, hbrought⟩ := brought_of_acknowledge cycle hacknowledge
    exact ⟨fresh_updateStatus h.fresh hbrought, fun i call hcall =>
      ⟨(h.calls i call hcall).1.updateStatus hbrought, (h.calls i call hcall).2⟩⟩

theorem Inv.step (h : Inv s) (e : WriteEvent) : Inv (s.step client parse e) := by
  cases e with
  | writeWithConsistency i write options createdAt fails =>
    dsimp only [Writers.step]
    split
    · exact h
    · exact h.writeWithConsistency i write options createdAt fails
  | settle i aborted hint =>
    dsimp only [Writers.step]
    split
    · rename_i call hcall
      exact h.settle hcall aborted hint
    · exact h
  | resume i aborted read =>
    dsimp only [Writers.step]
    split
    · rename_i call hcall
      exact h.resume hcall aborted read
    · exact h
  | queue write protocol createdAt =>
    dsimp only [Writers.step]
    split
    · rename_i db hqueue
      obtain ⟨queued, rfl, -, -⟩ := Write.queue_ok hqueue
      exact ⟨fresh_add h.fresh queued, fun j c hc =>
        ⟨(h.calls j c hc).1.add queued, (h.calls j c hc).2⟩⟩
    · exact h
  | pruneConfirmed retain =>
    exact ⟨fresh_prune h.fresh retain, fun j c hc =>
      ⟨(h.calls j c hc).1.prune retain, (h.calls j c hc).2⟩⟩
  | syncNow loop => exact h.syncNow loop
  | protocolPushRequest cycle limit =>
    dsimp only [Writers.step]
    split
    · split
      · exact h.finish cycle _
      · split
        · exact h
        · exact h.congr rfl rfl rfl
    · exact h
  | acknowledgePush cycle response =>
    dsimp only [Writers.step]
    split
    · exact h.acknowledgePush cycle _ response
    · exact h
  | finish cycle result =>
    dsimp only [Writers.step]
    split
    · exact h.finish cycle _
    · exact h.finish cycle _
    · exact h

/-! ## The law -/

theorem settled_iff (h : ReceiptsHonest s) (i : ℕ) (call : Option Call)
    (outcome : Except String ConsistencyWriteReceipt) :
    ReceiptsHonest (s.settled i call outcome) ↔
      Settlement.Honest { call, outcome, deliveries := s.deliveries } := by
  constructor
  · intro hnext
    exact hnext _ (List.mem_append_right _ (List.mem_singleton_self _))
  · intro hnew settlement hsettlement
    rcases List.mem_append.mp hsettlement with hold | hlast
    · exact h settlement hold
    · rw [List.mem_singleton.mp hlast]
      exact hnew

theorem honest_threw_iff {call : Option Call} {message : String} {deliveries : List Delivery} :
    Settlement.Honest { call, outcome := .error message, deliveries } ↔ call = none := by
  constructor
  · intro h
    exact h.threw message rfl
  · intro h
    exact ⟨fun _ _ => h, fun receipt hreceipt => by cases hreceipt⟩

theorem honest_receipt_iff {call : Call} {receipt : ConsistencyWriteReceipt}
    {deliveries : List Delivery} :
    Settlement.Honest { call := some call, outcome := .ok receipt, deliveries } ↔
      ReceiptHonest call deliveries receipt := by
  constructor
  · intro h
    obtain ⟨other, hother, hhonest⟩ := h.receipt receipt rfl
    rw [Option.some.inj hother]
    exact hhonest
  · intro h
    constructor
    · intro message hmessage
      cases hmessage
    · intro other hother
      rw [← Except.ok.inj hother]
      exact ⟨call, rfl, h⟩

/-- A receipt that neither confirms nor rejects only has to come after no rejection. -/
theorem undecided_iff {call : Call} {receipt : ConsistencyWriteReceipt}
    (hconfirmed : receipt.status ≠ .confirmed) (hrejected : receipt.status ≠ .rejected) :
    ReceiptHonest call s.deliveries receipt ↔ NotRejected s call := by
  constructor
  · intro h d hd hid hawaited hresult
    exact hrejected (h.rejected ⟨d, hd, hid, hawaited, hresult⟩)
  · intro h
    refine ⟨fun hstatus => absurd hstatus hconfirmed, ?_, ?_⟩
    · intro hresult
      obtain ⟨d, hd, hid, hawaited, hresult⟩ := hresult
      exact absurd hresult (h d hd hid hawaited)
    · intro hstatus
      exact (hstatus.elim hconfirmed hrejected).elim

theorem caught_iff {call : Call} (hpolicy : call.policy ≠ .queuedLocalFirst) (error : SyncError)
    (aborted : Bool) :
    ReceiptHonest call s.deliveries (call.caught error aborted) ↔ NotRejected s call := by
  unfold Call.caught
  split
  · exact undecided_iff (by simp [Call.receipt, outcomeForNetwork])
      (by simp [Call.receipt, outcomeForNetwork])
  · exact undecided_iff (by simp [Call.receipt, outcomeForNetwork, hpolicy])
      (by simp [Call.receipt, outcomeForNetwork, hpolicy])

theorem acked_iff {call : Call} (hpolicy : call.policy ≠ .queuedLocalFirst)
    (htracked : Tracked s.db s.deliveries call)
    (hbrought : ∃ d ∈ s.deliveries, d.rowId = call.queuedMutationId)
    (ids : List String) (cycle : Option ProtocolSyncCycleResult) :
    ReceiptHonest call s.deliveries (call.receipt .acked ids cycle) ↔
      ids = [call.mutationId] ∧ NothingRefused s call := by
  have hstatus : (call.receipt .acked ids cycle).status = .confirmed := by
    simp [Call.receipt, outcomeForNetwork, hpolicy]
  have hcovered : (call.receipt .acked ids cycle).coveredMutationIds = some ids := by
    simp [Call.receipt, outcomeForNetwork, hpolicy]
  constructor
  · intro h
    have hids := h.covered (Or.inl hstatus)
    rw [hcovered] at hids
    exact ⟨Option.some.inj hids, (h.confirmed hstatus).2⟩
  · intro h
    obtain ⟨d, hd, hid⟩ := hbrought
    refine ⟨fun _ => ⟨⟨d, hd, hid, htracked.named d hd hid⟩, h.2⟩, ?_, ?_⟩
    · intro hresult
      obtain ⟨d, hd, hid, -, hresult⟩ := hresult
      exact absurd hresult (h.2 d hd hid).not_rejected
    · intro _
      rw [hcovered, h.1]

theorem honest_congr {t : Writers} (h : ReceiptsHonest s) (ht : t.settlements = s.settlements) :
    ReceiptsHonest t := by
  unfold ReceiptsHonest
  rw [ht]
  exact h

theorem honest_awaitCycle (h : ReceiptsHonest s) (i : ℕ) (call : Call)
    (row : Option LocalMutation) (loop : ℕ) : ReceiptsHonest (s.awaitCycle i call row loop) :=
  honest_congr h (syncNow_frame s loop).2.2.2

theorem settle_iff (hI : Inv s) (h : ReceiptsHonest s) {i : ℕ} {call : Call}
    (hcall : s.calls i = some call) (aborted : Bool) (hint : Except String Unit) :
    ReceiptsHonest (s.settle i call aborted hint) ↔ BeginsHonestly call aborted hint := by
  have hphase := (hI.calls i call hcall).2
  unfold Writers.settle BeginsHonestly
  cases hat : call.phase with
  | cycle row promise => exact iff_of_true h fun hqueued => by cases hqueued
  | read row cycle => exact iff_of_true h fun hqueued => by cases hqueued
  | queued =>
    have hawaited : call.awaited = [] := by simpa [PhaseOk, hat] using hphase
    have hnothing : NotRejected s call := by
      intro d _ _ hin
      rw [hawaited] at hin
      exact absurd hin List.not_mem_nil
    have hundecided : ∀ network, network = .cancelled ∨ network = .notAttempted →
        ReceiptsHonest (s.settled i (some call) (.ok (call.receipt network [] none))) := by
      intro network hnetwork
      rw [settled_iff h, honest_receipt_iff]
      rcases hnetwork with rfl | rfl
      · exact (undecided_iff (by simp [Call.receipt, outcomeForNetwork])
          (by simp [Call.receipt, outcomeForNetwork])).mpr hnothing
      · exact (undecided_iff (by simp [Call.receipt, outcomeForNetwork])
          (by simp [Call.receipt, outcomeForNetwork])).mpr hnothing
    have hthrew : ∀ message, ¬ ReceiptsHonest (s.settled i (some call) (.error message)) := by
      intro message hhonest
      rw [settled_iff h, honest_threw_iff] at hhonest
      cases hhonest
    simp only [Call.settleConsistency, true_implies]
    by_cases haborted : aborted = true
    · rw [if_pos haborted]
      exact iff_of_true (hundecided _ (Or.inl rfl)) fun hfalse => by simp [haborted] at hfalse
    by_cases hpolicy : call.policy = .queuedLocalFirst
    · rw [if_neg haborted, if_pos hpolicy]
      exact iff_of_true (hundecided _ (Or.inr rfl)) fun _ hne => absurd hpolicy hne
    rw [if_neg haborted, if_neg hpolicy]
    cases hloop : call.loop with
    | none =>
      dsimp only
      by_cases hremote : call.policy = .remoteAcknowledged
      · rw [if_pos hremote]
        refine iff_of_false (hthrew _) fun hbegins => ?_
        exact (hbegins (Bool.not_eq_true _ ▸ haborted) hpolicy).1 rfl hremote
      · rw [if_neg hremote]
        exact iff_of_true (hundecided _ (Or.inr rfl))
          fun _ _ => ⟨fun _ => hremote, fun hne => absurd rfl hne⟩
    | some loop =>
      cases hint with
      | error message =>
        refine iff_of_false (hthrew _) fun hbegins => ?_
        have hok := (hbegins (Bool.not_eq_true _ ▸ haborted) hpolicy).2 (by simp)
        cases hok
      | ok _ =>
        refine iff_of_true (honest_awaitCycle h i call none loop) fun _ _ => ⟨?_, fun _ => rfl⟩
        intro hnone
        cases hnone

/-- An acknowledged row after the first cycle; a row that is gone has no name left. -/
theorem afterCycle_iff {call : Call} (hpolicy : call.policy ≠ .queuedLocalFirst)
    (htracked : Tracked s.db s.deliveries call) (cycle : ProtocolSyncCycleResult)
    {receipt : ConsistencyWriteReceipt}
    (hreceipt : call.afterCycle cycle (s.find call.queuedMutationId) = .inl receipt) :
    ReceiptHonest call s.deliveries receipt ↔
      ∃ row, s.find call.queuedMutationId = some row ∧
        (isPending row = true ∨ NothingRefused s call) := by
  unfold Call.afterCycle at hreceipt
  cases hfind : s.find call.queuedMutationId with
  | none =>
    rw [hfind] at hreceipt
    rw [← Sum.inl.inj hreceipt, acked_iff hpolicy htracked (htracked.gone (find_none hfind))]
    refine iff_of_false (fun h => ?_) fun h => ?_
    · exact htracked.identified (List.cons.inj h.1).1.symm
    · obtain ⟨row, hrow, -⟩ := h
      cases hrow
  | some row =>
    obtain ⟨hrow, hid⟩ := find_some hfind
    obtain ⟨hname, hstatus⟩ := htracked.row row hrow hid
    rw [hfind] at hreceipt
    dsimp only at hreceipt
    rcases hstatus with hpending | ⟨hsynced, hbrought⟩
    · rw [of_decide_eq_true hpending, if_neg (by decide), if_pos rfl] at hreceipt
      cases hreceipt
    · have hnot : isPending row = false := by
        rw [isPending, hsynced]
        decide
      rw [hsynced, if_neg (by decide), if_neg (by decide)] at hreceipt
      rw [← Sum.inl.inj hreceipt, acked_iff hpolicy htracked hbrought, hname]
      simp [hnot]

theorem afterRetry_iff {call : Call} (hI : Inv s) (hpolicy : call.policy ≠ .queuedLocalFirst)
    (htracked : Tracked s.db s.deliveries call) {row : LocalMutation}
    (hname : row.mutationId = some call.mutationId) (retry : ProtocolSyncCycleResult) :
    ReceiptHonest call s.deliveries
        (call.afterRetry row retry (s.find call.queuedMutationId)) ↔
      (s.find call.queuedMutationId).any isPending = true ∨ NothingRefused s call := by
  unfold Call.afterRetry
  cases hfind : s.find call.queuedMutationId with
  | none =>
    rw [if_neg (by simp), acked_iff hpolicy htracked (htracked.gone (find_none hfind))]
    simp [hname]
  | some after =>
    obtain ⟨hafter, hid⟩ := find_some hfind
    obtain ⟨hname', hstatus⟩ := htracked.row after hafter hid
    rcases hstatus with hpending | ⟨hsynced, hbrought⟩
    · rw [if_pos (by simpa using hpending)]
      refine iff_of_true ?_ (Or.inl (by simpa using hpending))
      apply (undecided_iff _ _).mpr
      · intro d hd hrowId
        have hsettled := hI.fresh.settled d hd after hafter (hid.trans hrowId.symm)
        rw [hpending] at hsettled
        cases hsettled
      · simp [Call.receipt, outcomeForNetwork, hpolicy]
      · simp [Call.receipt, outcomeForNetwork, hpolicy]
    · have hnot : isPending after = false := by
        rw [isPending, hsynced]
        decide
      rw [if_neg (by simp [hnot]), acked_iff hpolicy htracked hbrought]
      simp [hname', hnot]

theorem resume_iff (hI : Inv s) (h : ReceiptsHonest s) {i : ℕ} {call : Call}
    (hcall : s.calls i = some call) (aborted : Bool) (read : Except SyncError Unit) :
    ReceiptsHonest (s.resume i call aborted read) ↔ ResumesHonestly s call read := by
  obtain ⟨htracked, hphase⟩ := hI.calls i call hcall
  unfold PhaseOk at hphase
  unfold Writers.resume ResumesHonestly
  cases hat : call.phase with
  | queued => exact iff_of_true h trivial
  | cycle row promise =>
    rw [hat] at hphase
    have hsettles : ∀ error, ReceiptsHonest (s.settled i (some call)
        (.ok (call.caught error aborted))) ↔ NotRejected s call := by
      intro error
      rw [settled_iff h, honest_receipt_iff, caught_iff hphase.1]
    dsimp only
    cases hcycle : s.cycles[promise]? with
    | none => exact iff_of_true h fun error herror => by cases herror
    | some cycle =>
      cases cycle with
      | running request => exact iff_of_true h fun error herror => by cases herror
      | finished result =>
        cases result with
        | ok cycle => exact iff_of_true (honest_congr h rfl) fun error herror => by cases herror
        | error error =>
          refine (hsettles error).trans ⟨fun hnone _ _ => hnone, fun hall => hall error rfl⟩
  | read row cycle =>
    rw [hat] at hphase
    dsimp only
    cases read with
    | error error =>
      dsimp only
      rw [settled_iff h, honest_receipt_iff, caught_iff hphase.1]
    | ok _ =>
      cases row with
      | none =>
        cases hafter : call.afterCycle cycle (s.find call.queuedMutationId) with
        | inl receipt =>
          dsimp only
          rw [settled_iff h, honest_receipt_iff, afterCycle_iff hphase.1 htracked cycle hafter]
          cases s.find call.queuedMutationId with
          | none => simp
          | some current => simp
        | inr row =>
          obtain ⟨hfound, hpending⟩ := afterCycle_pending hafter
          rw [hfound]
          refine iff_of_true ?_ (Or.inl hpending)
          cases call.loop with
          | none => exact h
          | some loop => exact honest_awaitCycle h i call (some row) loop
      | some row =>
        dsimp only
        rw [settled_iff h, honest_receipt_iff,
          afterRetry_iff hI hphase.1 htracked (hphase.2 row rfl)]
        cases s.find call.queuedMutationId with
        | none => simp
        | some after => simp

theorem writeWithConsistency_honest (h : ReceiptsHonest s) (i : ℕ) (write : Write)
    (options : RxWriteOptions) (createdAt : ℕ) (fails : Option String) :
    ReceiptsHonest (s.writeWithConsistency client i write options createdAt fails) := by
  have hthrew : ∀ message, ReceiptsHonest (s.settled i none (.error message)) := by
    intro message
    rw [settled_iff h, honest_threw_iff]
  unfold Writers.writeWithConsistency
  split
  · exact hthrew _
  · dsimp only
    split
    · exact hthrew _
    · split
      · exact hthrew _
      · exact honest_congr h rfl

/-- From a state in which all receipts are honest, a step keeps them so exactly if it does not
settle a call wrongly. -/
theorem ReceiptsHonest.step_iff (hI : Inv s) (h : ReceiptsHonest s) (e : WriteEvent) :
    ReceiptsHonest (s.step client parse e) ↔ SettlesHonestly s e := by
  cases e with
  | writeWithConsistency i write options createdAt fails =>
    refine iff_of_true ?_ trivial
    dsimp only [Writers.step]
    split
    · exact h
    · exact writeWithConsistency_honest h i write options createdAt fails
  | settle i aborted hint =>
    dsimp only [Writers.step, SettlesHonestly]
    cases hcall : s.calls i with
    | none => exact iff_of_true h fun call hcall => by cases hcall
    | some call =>
      rw [settle_iff hI h hcall]
      refine ⟨fun hbegins other hother => ?_, fun hall => hall call rfl⟩
      rw [← Option.some.inj hother]
      exact hbegins
  | resume i aborted read =>
    dsimp only [Writers.step, SettlesHonestly]
    cases hcall : s.calls i with
    | none => exact iff_of_true h fun call hcall => by cases hcall
    | some call =>
      rw [resume_iff hI h hcall]
      refine ⟨fun hresumes other hother => ?_, fun hall => hall call rfl⟩
      rw [← Option.some.inj hother]
      exact hresumes
  | queue write protocol createdAt =>
    refine iff_of_true ?_ trivial
    dsimp only [Writers.step]
    split
    · exact honest_congr h rfl
    · exact h
  | pruneConfirmed retain => exact iff_of_true (honest_congr h rfl) trivial
  | syncNow loop => exact iff_of_true (honest_congr h (syncNow_frame s loop).2.2.2) trivial
  | protocolPushRequest cycle limit =>
    refine iff_of_true ?_ trivial
    dsimp only [Writers.step]
    split
    · split
      · exact honest_congr h rfl
      · split
        · exact h
        · exact honest_congr h rfl
    · exact h
  | acknowledgePush cycle response =>
    refine iff_of_true ?_ trivial
    dsimp only [Writers.step]
    split
    · unfold Writers.acknowledgePush
      split
      · exact honest_congr h rfl
      · exact honest_congr h rfl
    · exact h
  | finish cycle result =>
    refine iff_of_true ?_ trivial
    dsimp only [Writers.step]
    split
    · exact honest_congr h rfl
    · exact honest_congr h rfl
    · exact h

/-- Along a run of any number of writes, cycles and prunings, all receipts are honest exactly when
no call finds its mutation acknowledged after a refusal or pruned before it looks, none is thrown
out after a rejection, and none goes to the network without its loop. -/
theorem receipts_honest_iff (client : OptoSyncClient) (parse : String → Option Json)
    (db : OptoSyncDatabase) (events : List WriteEvent) :
    StatesMeet (Writers.step client parse) ReceiptsHonest (.start db) events ↔
      StepsMeet (Writers.step client parse) SettlesHonestly (.start db) events := by
  refine statesMeet_iff_stepsMeet (I := Inv) (fun s e hI => hI.step e)
    (fun s e hI h => h.step_iff hI e) ?_ ?_ events
  · refine ⟨⟨?_, ?_⟩, ?_⟩
    · intro d hd
      exact absurd hd List.not_mem_nil
    · intro d hd
      exact absurd hd List.not_mem_nil
    · intro i call hcall
      cases hcall
  · intro settlement hsettlement
    exact absurd hsettlement List.not_mem_nil

def phone : OptoSyncClient where
  clientId := "phone"
  maxPendingMutations := 10000
  maxQueuedPayloadBytes := 261120
  defaultConsistencyPolicy := Consistency.writeThroughLocalFirst
  client_ne := by decide

/-- The server refuses the one mutation, and the cycle goes on. -/
def refusedWrite : List WriteEvent :=
  [.writeWithConsistency 0 (.upsert "todos" "a" "\x7b\x7d")
      { optimism := none, consistency := none, loop := some 0, protocol := noOptions }
      1721822400000 none,
    .settle 0 false (.ok ()), .protocolPushRequest 0 100,
    .acknowledgePush 0 { protocolVersion := 1, clientId := "phone", lastMutationId := "1"
                         checkpoint := "0", results := [{
                           mutationId := "1", status := .rejected, originalStatus := none
                           checkpoint := none, revision := none
                           code := some "forbidden", message := none }] },
    .finish 0 (.ok { pushedMutations := 1, acknowledgedMutations := 1, pulledChanges := 0
                     installedSnapshots := 0, checkpoint := "0", hasMorePending := false }),
    .resume 0 false (.ok ()), .resume 0 false (.ok ())]

theorem refused_write_is_confirmed :
    ¬ StatesMeet (Writers.step phone fun _ => some (.object [])) ReceiptsHonest
      (.start .created) refusedWrite := by
  intro h
  have hlast := statesMeet_iff_prefix.mp h refusedWrite (List.prefix_refl _)
  have hsettled : (run (Writers.step phone fun _ => some (.object [])) (.start .created)
      refusedWrite).settlements.map (fun settlement =>
        (settlement.call.map Call.queuedMutationId,
          settlement.outcome.toOption.map fun receipt => receipt.status,
          settlement.deliveries.map fun d => (d.rowId, d.result.status))) =
      [(some 1, some .confirmed, [(1, .rejected)])] := by decide +kernel
  obtain ⟨settlement, rest, hsettlements, hentry, -⟩ := List.map_eq_cons_iff.mp hsettled
  simp only [Prod.mk.injEq] at hentry
  obtain ⟨hcall, houtcome, hdeliveries⟩ := hentry
  obtain ⟨call, hcall, hid⟩ := Option.map_eq_some_iff.mp hcall
  obtain ⟨receipt, hreceipt, hstatus⟩ := Option.map_eq_some_iff.mp houtcome
  obtain ⟨d, _, hd, hresult, -⟩ := List.map_eq_cons_iff.mp hdeliveries
  simp only [Prod.mk.injEq] at hresult
  have hhonest := hlast settlement (by rw [hsettlements]; exact List.mem_cons_self)
  have hok : settlement.outcome = .ok receipt := by
    cases hsettlement : settlement.outcome with
    | error message => simp [hsettlement, Except.toOption] at hreceipt
    | ok other => simpa [hsettlement, Except.toOption] using hreceipt
  obtain ⟨other, hother, hreceipt⟩ := hhonest.receipt receipt hok
  obtain rfl : other = call := Option.some.inj (hother.symm.trans hcall)
  have hcommitted := (hreceipt.confirmed hstatus).2 d (by rw [hd]; exact List.mem_cons_self)
    (hresult.1.trans hid.symm)
  exact hcommitted.not_rejected (Or.inl hresult.2)

end OptoSync.ConsistencyWrite
