import OptoSync.Consecutive
import OptoSync.Decimal
import OptoSync.IndexedDbQueue
import OptoSync.Transition

/-!
# Runs of the IndexedDB queue

When the pending rows stay a batch that can be sent. The start is a store that version 1 or 2 left
behind.
-/
namespace OptoSync
open Transition OptoSyncDatabase

/-- A row of version 1 or 2. -/
structure LegacyMutation where
  id : ℕ
  tableName : String
  recordId : String
  jsonPayload : String
  createdAt : ℕ
  syncStatus : ℤ

structure LegacyStore where
  localMutations : List LegacyMutation
  nextId : ℕ
  sorted : localMutations.Pairwise fun a b => a.id < b.id
  fresh : ∀ row ∈ localMutations, row.id < nextId

def LegacyMutation.row (m : LegacyMutation) : LocalMutation :=
  { id := m.id, tableName := m.tableName, recordId := m.recordId, jsonPayload := m.jsonPayload
    createdAt := m.createdAt, syncStatus := m.syncStatus, clientId := none, mutationId := none
    operation := none, baseRevision := none, resurrect := none, attempts := none
    consistencyPolicy := none }

/-- Opening the store as version 3: the rows are carried over as they are. -/
def LegacyStore.upgrade (store : LegacyStore) : OptoSyncDatabase :=
  { localMutations := store.localMutations.map LegacyMutation.row
    nextId := store.nextId
    mutationSeq := 0
    sorted := by simpa [List.pairwise_map, LegacyMutation.row] using store.sorted
    fresh := by simpa [LegacyMutation.row] using store.fresh }

/-- A call of a mutator; the payload of an upsert is the text of an object. -/
inductive ClientCall (parse : String → Option Json)
  | queueMutation (tableName recordId : String)
      (payload : { text : String // ∃ fields, parse text = some (.object fields) })
      (protocol : ProtocolMutationOptions) (createdAt : ℕ)
  | queueDelete (tableName recordId : String) (baseRevision consistencyPolicy : Option String)
      (createdAt : ℕ)
  | markMutation (id : ℕ) (syncStatus : ℤ)
  | acknowledgePush (response : PushResponse) (request : WirePush)
  | confirmSyncedUpTo (lastMutationId : ℤ) (clientId : Option String)
  | pruneConfirmed (retain : ℕ)

namespace OptoSyncClient

variable (client : OptoSyncClient) (parse : String → Option Json)

def perform (db : OptoSyncDatabase) : ClientCall parse → Except String OptoSyncDatabase
  | .queueMutation tableName recordId payload protocol createdAt =>
    client.queueMutation db tableName recordId payload.1 protocol createdAt
  | .queueDelete tableName recordId baseRevision consistencyPolicy createdAt =>
    client.queueDelete db tableName recordId baseRevision consistencyPolicy createdAt
  | .markMutation id syncStatus => .ok (markMutation db id syncStatus)
  | .acknowledgePush response request => client.acknowledgePush parse db response request
  | .confirmSyncedUpTo lastMutationId clientId =>
    .ok (client.confirmSyncedUpTo db lastMutationId clientId)
  | .pruneConfirmed retain => .ok (pruneConfirmed db retain)

def next (db : OptoSyncDatabase) (call : ClientCall parse) : OptoSyncDatabase :=
  match client.perform parse db call with
  | .ok db' => db'
  | .error _ => db

def number (row : LocalMutation) : Option ℕ := row.mutationId.map bigInt

/-- The pending rows carry contiguous ascending ids, and no batch of them is refused. -/
def Pushable (db : OptoSyncDatabase) : Prop :=
  Consecutive number db.pendingMutations ∧
    ∀ limit, 1 ≤ limit → limit ≤ 100 →
      ∃ request, client.protocolPushRequest parse db noOptions limit = .ok request

def AtEnd (db : OptoSyncDatabase) (row : LocalMutation) : Prop :=
  db.pendingMutations.head? = some row ∨ db.pendingMutations.getLast? = some row

def Adjoins (db : OptoSyncDatabase) (row : LocalMutation) : Prop :=
  (number row).isSome = true ∧ (db.pendingMutations = [] ∨
    (∃ first ∈ db.pendingMutations.head?, number first = (number row).map (· + 1)) ∨
      ∃ last ∈ db.pendingMutations.getLast?, number row = (number last).map (· + 1))

/-- The last mutation id that was given out is still pending, or none is. -/
def SequenceFollows (db : OptoSyncDatabase) : Prop :=
  ∀ last ∈ db.pendingMutations.getLast?, number last = some db.mutationSeq

/-- A row changes between pending and not pending at an end of the pending rows. -/
def MarkKeeps (db : OptoSyncDatabase) (row : LocalMutation) (syncStatus : ℤ) : Prop :=
  if syncStatus = SyncStatus.pending then isPending row = true ∨ Adjoins db row
  else isPending row = false ∨ AtEnd db row

/-- Marking stays at the ends, and a mutation is queued only if the last one is still pending. -/
def KeepsContiguous (db : OptoSyncDatabase) : ClientCall parse → Prop
  | .markMutation id syncStatus =>
      ∀ row ∈ db.localMutations, row.id = id → MarkKeeps db row syncStatus
  | .queueMutation tableName recordId payload protocol createdAt =>
      (∃ error, client.queueMutation db tableName recordId payload.1 protocol createdAt =
        .error error) ∨ SequenceFollows db
  | .queueDelete tableName recordId baseRevision consistencyPolicy createdAt =>
      (∃ error, client.queueDelete db tableName recordId baseRevision consistencyPolicy createdAt =
        .error error) ∨ SequenceFollows db
  | _ => True

theorem bigInt_repr (n : ℕ) : bigInt n.repr = n := by
  rw [bigInt, Decimal.toList_repr, Nat.ofDigitChars_ten_toDigits]

theorem pendingMutations_eq (db : OptoSyncDatabase) :
    db.pendingMutations = db.localMutations.filter isPending := by
  apply List.mergeSort_of_pairwise
  refine (db.sorted.filter _).imp ?_
  intro a b h
  exact decide_eq_true h.le

theorem row_unique {db : OptoSyncDatabase} {a b : LocalMutation} (ha : a ∈ db.localMutations)
    (hb : b ∈ db.localMutations) (h : a.id = b.id) : a = b := by
  have hnodup : (db.localMutations.map LocalMutation.id).Nodup := by
    rw [List.Nodup, List.pairwise_map]
    exact db.sorted.imp fun hlt => hlt.ne
  exact List.inj_on_of_nodup_map hnodup ha hb h

/-- A row that this client queued. -/
def Identified (seq : ℕ) (row : LocalMutation) : Prop :=
  row.clientId = some client.clientId ∧
    (∃ n, 1 ≤ n ∧ n ≤ seq ∧ row.mutationId = some n.repr) ∧
      (row.operation.getD .upsert = .upsert →
        ∃ fields, parse row.jsonPayload = some (.object fields))

structure Inv (db : OptoSyncDatabase) : Prop where
  rows : ∀ row ∈ db.localMutations,
    number row = none ∨ client.Identified parse db.mutationSeq row
  ascending : Ascending number db.localMutations

variable {client parse}

theorem Identified.number {seq : ℕ} {row : LocalMutation}
    (h : client.Identified parse seq row) : ∃ n, 1 ≤ n ∧ n ≤ seq ∧ number row = some n := by
  obtain ⟨-, ⟨n, hpos, hle, hid⟩, -⟩ := h
  exact ⟨n, hpos, hle, by rw [OptoSyncClient.number, hid, Option.map_some, bigInt_repr]⟩

theorem Identified.mono {seq seq' : ℕ} {row : LocalMutation}
    (h : client.Identified parse seq row) (hle : seq ≤ seq') :
    client.Identified parse seq' row := by
  obtain ⟨hclient, ⟨n, hpos, hn, hid⟩, hpayload⟩ := h
  exact ⟨hclient, ⟨n, hpos, hn.trans hle, hid⟩, hpayload⟩

theorem inv_upgrade (store : LegacyStore) : client.Inv parse store.upgrade := by
  constructor
  · intro row h
    obtain ⟨m, -, rfl⟩ := List.mem_map.mp h
    exact Or.inl rfl
  · unfold Ascending LegacyStore.upgrade
    rw [List.pairwise_map]
    exact store.sorted.imp fun _ m n ha => by cases ha

/-- Changing statuses changes nothing else about a row. -/
theorem Inv.updateStatus {db : OptoSyncDatabase} (h : client.Inv parse db) (ids : List ℕ)
    (syncStatus : ℤ) : client.Inv parse (db.updateStatus ids syncStatus) := by
  have hsame : ∀ row : LocalMutation, (withStatus ids syncStatus row).mutationId = row.mutationId ∧
      (withStatus ids syncStatus row).clientId = row.clientId ∧
      (withStatus ids syncStatus row).operation = row.operation ∧
      (withStatus ids syncStatus row).jsonPayload = row.jsonPayload := by
    intro row
    unfold withStatus
    split <;> exact ⟨rfl, rfl, rfl, rfl⟩
  constructor
  · intro row hrow
    obtain ⟨old, hold, rfl⟩ := List.mem_map.mp hrow
    obtain ⟨hid, hclient, hoperation, hpayload⟩ := hsame old
    rcases h.rows old hold with hnone | hidentified
    · exact Or.inl (by rw [number, hid]; exact hnone)
    · refine Or.inr ⟨hclient.trans hidentified.1, ?_, ?_⟩
      · rw [hid]
        exact hidentified.2.1
      · rw [hoperation, hpayload]
        exact hidentified.2.2
  · unfold Ascending OptoSyncDatabase.updateStatus
    rw [List.pairwise_map]
    refine h.ascending.imp ?_
    intro a b hab
    rw [number, number, (hsame a).1, (hsame b).1]
    exact hab

theorem Inv.bulkDelete {db : OptoSyncDatabase} (h : client.Inv parse db) (ids : List ℕ) :
    client.Inv parse (db.bulkDelete ids) :=
  ⟨fun row hrow => h.rows row (List.mem_filter.mp hrow).1, h.ascending.filter _⟩

/-- The row that a queued mutation becomes. -/
theorem insert_eq {db db' : OptoSyncDatabase} {row : LocalMutation} {policy : Option String}
    (h : client.insert db row policy = .ok db') :
    ∃ consistencyPolicy, db' = db.add { row with
      syncStatus := SyncStatus.pending
      clientId := some client.clientId
      mutationId := some (db.mutationSeq + 1).repr
      attempts := some 0
      consistencyPolicy := some consistencyPolicy } := by
  unfold insert at h
  cases hpayload : client.assertPayloadQuota row.jsonPayload with
  | error error => simp [hpayload, bind, Except.bind] at h
  | ok _ =>
    cases hpending : client.assertPendingQuota db with
    | error error => simp [hpayload, hpending, bind, Except.bind] at h
    | ok _ =>
      cases hpolicy : PolicyAliases.canonicalizeConsistencyPolicy
          (policy.getD client.defaultConsistencyPolicy) with
      | error error => simp [hpayload, hpending, hpolicy, bind, Except.bind] at h
      | ok value =>
        cases hstored : PolicyAliases.structuredClone value with
        | error error => simp [hpayload, hpending, hpolicy, hstored, bind, Except.bind] at h
        | ok stored =>
          simp only [hpayload, hpending, hpolicy, hstored, bind, Except.bind, pure, Except.pure,
            Except.ok.injEq] at h
          exact ⟨stored.propertyKey, h.symm⟩

theorem insert_ok {db db' : OptoSyncDatabase} {row : LocalMutation} {policy : Option String}
    (h : client.insert db row policy = .ok db') :
    ∃ queued : LocalMutation, db' = db.add queued ∧ queued.syncStatus = SyncStatus.pending ∧
      queued.clientId = some client.clientId ∧
      queued.mutationId = some (db.mutationSeq + 1).repr ∧
      queued.operation = row.operation ∧ queued.jsonPayload = row.jsonPayload := by
  obtain ⟨consistencyPolicy, rfl⟩ := insert_eq h
  exact ⟨_, rfl, rfl, rfl, rfl, rfl, rfl⟩

theorem number_add {seq : ℕ} {row : LocalMutation} (h : row.mutationId = some (seq + 1).repr) :
    number row = some (seq + 1) := by
  rw [number, h, Option.map_some, bigInt_repr]

theorem Inv.add {db : OptoSyncDatabase} (h : client.Inv parse db) {row : LocalMutation}
    (hclient : row.clientId = some client.clientId)
    (hid : row.mutationId = some (db.mutationSeq + 1).repr)
    (hpayload : row.operation.getD .upsert = .upsert →
      ∃ fields, parse row.jsonPayload = some (.object fields)) : client.Inv parse (db.add row) := by
  constructor
  · intro r hr
    rcases List.mem_append.mp hr with hr | hr
    · rcases h.rows r hr with hnone | hidentified
      · exact Or.inl hnone
      · exact Or.inr (hidentified.mono (Nat.le_succ _))
    · rw [List.mem_singleton.mp hr]
      exact Or.inr ⟨hclient, ⟨_, Nat.succ_pos _, le_rfl, hid⟩, hpayload⟩
  · unfold Ascending OptoSyncDatabase.add
    rw [List.pairwise_append]
    refine ⟨h.ascending, List.pairwise_singleton _ _, ?_⟩
    intro a ha b hb m n hm hn
    rw [List.mem_singleton.mp hb] at hn
    rw [show number { row with id := db.nextId } = number row from rfl, number_add hid,
      Option.some.injEq] at hn
    rcases h.rows a ha with hnone | hidentified
    · rw [hnone] at hm
      cases hm
    · obtain ⟨k, -, hk, hak⟩ := hidentified.number
      rw [hak, Option.some.injEq] at hm
      omega

theorem decimalPattern_repr (n : ℕ) : decimalPattern n.repr = true := by
  obtain ⟨hne, hdigits, hzero⟩ := Decimal.canonical_toDigits n
  have hlist := Decimal.toList_repr n
  by_cases h0 : (Nat.toDigits 10 n).head? = some '0'
  · obtain ⟨c, hc⟩ := List.length_eq_one_iff.mp (hzero h0)
    rw [hc, List.head?_cons, Option.some.injEq] at h0
    have hz : n.repr = "0" := by
      apply String.toList_inj.mp
      rw [hlist, hc, h0]
      rfl
    simp [decimalPattern, hz]
  · have hall : (Nat.toDigits 10 n).all Char.isDigit = true := List.all_eq_true.mpr hdigits
    simp [decimalPattern, hlist, hne, h0, hall]

theorem requireDecimal_repr {n : ℕ} (hpos : 1 ≤ n) (name : String) :
    requireDecimal (some n.repr) name false = .ok n.repr := by
  have hzero : n.repr ≠ "0" := by
    intro h
    have := congrArg bigInt h
    rw [bigInt_repr] at this
    have hz : bigInt "0" = 0 := by decide
    omega
  simp [requireDecimal, decimalPattern_repr, hzero]

theorem encodeRow_mutationId {row : LocalMutation} {defaults : ProtocolMutationOptions}
    {mutationId : String} {mutation : WireMutation}
    (h : encodeRow parse row defaults mutationId = .ok mutation) :
    mutation.mutationId = mutationId := by
  unfold encodeRow at h
  dsimp only at h
  split at h
  · cases h
    rfl
  · split at h
    · cases h
      rfl
    · cases h
    · cases h

theorem requireDecimal_some {value : Option String} {name text : String} {allowZero : Bool}
    (h : requireDecimal value name allowZero = .ok text) : value = some text := by
  unfold requireDecimal at h
  split at h
  · split at h
    · cases h
    · cases h
      rfl
  · cases h

/-- A batch has the mutation ids of its rows. -/
theorem encodeRows_mutationIds {clientId : String} {defaults : ProtocolMutationOptions}
    {prior : Option LocalMutation} {rows : List LocalMutation} {mutations : List WireMutation}
    (h : encodeRows parse clientId defaults prior rows = .ok mutations) :
    rows.map LocalMutation.mutationId = mutations.map fun mutation => some mutation.mutationId := by
  induction rows generalizing prior mutations with
  | nil =>
    cases h
    rfl
  | cons row rows ih =>
    unfold encodeRows at h
    split at h
    · obtain ⟨_, hthrow, -⟩ := bind_eq_ok.mp h
      cases hthrow
    · obtain ⟨mutationId, hid, hcontiguous⟩ := bind_eq_ok.mp h
      split at hcontiguous
      · obtain ⟨_, hthrow, -⟩ := bind_eq_ok.mp hcontiguous
        cases hthrow
      · obtain ⟨mutation, hrow, hrest⟩ := bind_eq_ok.mp hcontiguous
        obtain ⟨rest, hrows, hmutations⟩ := bind_eq_ok.mp hrest
        cases hmutations
        rw [List.map_cons, List.map_cons, ih hrows, requireDecimal_some hid,
          encodeRow_mutationId hrow]

theorem buildPushRequest_mutationIds {clientId : String} {pending : List LocalMutation}
    {defaults : ProtocolMutationOptions} {limit : ℕ} {request : WirePush}
    (h : buildPushRequest parse clientId pending defaults limit = .ok request) :
    (pending.take limit).map LocalMutation.mutationId =
      request.mutations.map fun mutation => some mutation.mutationId := by
  unfold buildPushRequest at h
  split at h
  · obtain ⟨_, hthrow, -⟩ := bind_eq_ok.mp h
    cases hthrow
  · obtain ⟨mutations, hrows, hrequest⟩ := bind_eq_ok.mp h
    cases hrequest
    exact encodeRows_mutationIds hrows

theorem encodeRow_ok {seq : ℕ} {row : LocalMutation} (h : client.Identified parse seq row)
    (defaults : ProtocolMutationOptions) (mutationId : String) :
    ∃ mutation, encodeRow parse row defaults mutationId = .ok mutation := by
  unfold encodeRow
  cases hoperation : row.operation.getD .upsert with
  | delete => exact ⟨_, rfl⟩
  | upsert =>
    obtain ⟨fields, hfields⟩ := h.2.2 hoperation
    simp only [hfields]
    exact ⟨_, rfl⟩

theorem encodeRows_ok {seq : ℕ} {prior : Option LocalMutation} {rows : List LocalMutation}
    (h : ∀ row ∈ rows, client.Identified parse seq row) (hrows : Consecutive number rows)
    (hprior : ∀ p ∈ prior, ∀ row ∈ rows.head?, number row = (number p).map (· + 1))
    (defaults : ProtocolMutationOptions) :
    ∃ mutations, encodeRows parse client.clientId defaults prior rows = .ok mutations := by
  induction rows generalizing prior with
  | nil => exact ⟨[], rfl⟩
  | cons row rows ih =>
    obtain ⟨-, hrest, hnext⟩ := Consecutive.cons_iff.mp hrows
    have hrow := h row List.mem_cons_self
    obtain ⟨n, hpos, -, hid⟩ := hrow.2.1
    have hcontiguous : (prior.any fun p => bigInt n.repr ≠ bigInt (p.mutationId.getD "") + 1) =
        false := by
      cases prior with
      | none => rfl
      | some p =>
        have hn := hprior p rfl row rfl
        rw [number, hid, Option.map_some, number] at hn
        cases hp : p.mutationId with
        | none => simp [hp] at hn
        | some value =>
          rw [hp] at hn
          simpa [hp] using hn
    obtain ⟨mutation, hmutation⟩ := encodeRow_ok hrow defaults n.repr
    have hfollows : ∀ p ∈ some row, ∀ r ∈ rows.head?, number r = (number p).map (· + 1) := by
      intro p hp
      rw [← Option.some.inj hp]
      exact hnext
    obtain ⟨mutations, hmutations⟩ := ih (fun r hr => h r (List.mem_cons_of_mem row hr)) hrest
      hfollows
    refine ⟨mutation :: mutations, ?_⟩
    simp only [encodeRows, hrow.1, hid, requireDecimal_repr hpos, hcontiguous, hmutation,
      hmutations, ne_eq, not_true_eq_false, if_false, Bool.false_eq_true, bind, Except.bind, pure,
      Except.pure]

/-- Under the invariant only a gap stops the queue. -/
theorem Inv.pushable_iff {db : OptoSyncDatabase} (h : client.Inv parse db) :
    client.Pushable parse db ↔ Consecutive number db.pendingMutations := by
  refine ⟨fun hpush => hpush.1, fun hpending => ⟨hpending, ?_⟩⟩
  intro limit hpos hle
  have hidentified : ∀ row ∈ db.pendingMutations.take limit,
      client.Identified parse db.mutationSeq row := by
    intro row hrow
    have hmem := List.mem_of_mem_take hrow
    have hsome := hpending.1 row hmem
    rw [pendingMutations_eq] at hmem
    rcases h.rows row (List.mem_filter.mp hmem).1 with hnone | hidentified
    · rw [hnone] at hsome
      cases hsome
    · exact hidentified
  have hconsecutive : Consecutive number (db.pendingMutations.take limit) :=
    (Consecutive.append_iff.mp (by rwa [List.take_append_drop])).1
  have hfirst : ∀ p ∈ (none : Option LocalMutation),
      ∀ row ∈ (db.pendingMutations.take limit).head?, number row = (number p).map (· + 1) := by
    intro p hp
    cases hp
  obtain ⟨mutations, hmutations⟩ := encodeRows_ok hidentified hconsecutive hfirst noOptions
  have hlimit : ¬ (client.clientId = "" ∨ limit < 1 ∨ 100 < limit) := by
    have := client.client_ne
    simp only [this, false_or]
    omega
  refine ⟨{ protocolVersion := 1, clientId := client.clientId, mutations }, ?_⟩
  have hoptions : ¬ (noOptions.baseRevision.isSome = true ∨ noOptions.resurrect.isSome = true) := by
    simp [noOptions]
  rw [protocolPushRequest, if_neg hoptions]
  simp only [buildPushRequest, if_neg hlimit, hmutations, bind, Except.bind, pure, Except.pure]

theorem withStatus_of_notMem {ids : List ℕ} {syncStatus : ℤ} {row : LocalMutation}
    (h : row.id ∉ ids) : withStatus ids syncStatus row = row := if_neg h

theorem pending_updateStatus (db : OptoSyncDatabase) (ids : List ℕ) {syncStatus : ℤ}
    (hstatus : syncStatus ≠ SyncStatus.pending) :
    (db.updateStatus ids syncStatus).pendingMutations =
      db.pendingMutations.filter fun row => row.id ∉ ids := by
  rw [pendingMutations_eq, pendingMutations_eq]
  show (db.localMutations.map (withStatus ids syncStatus)).filter isPending = _
  induction db.localMutations with
  | nil => rfl
  | cons row rows ih =>
    rw [List.map_cons]
    by_cases hid : row.id ∈ ids
    · have hnot : isPending (withStatus ids syncStatus row) = false := by
        simp [withStatus, hid, isPending, hstatus]
      rw [List.filter_cons_of_neg (by simp [hnot]), ih]
      by_cases hpending : isPending row = true
      · rw [List.filter_cons_of_pos hpending, List.filter_cons_of_neg (by simp [hid])]
      · rw [List.filter_cons_of_neg hpending]
    · rw [withStatus_of_notMem hid]
      by_cases hpending : isPending row = true
      · rw [List.filter_cons_of_pos hpending, List.filter_cons_of_pos hpending,
          List.filter_cons_of_pos (by simp [hid]), ih]
      · rw [List.filter_cons_of_neg hpending, List.filter_cons_of_neg hpending, ih]

/-- A marked row stays in its place. -/
theorem mark_split {db : OptoSyncDatabase} {row : LocalMutation} (hrow : row ∈ db.localMutations)
    (syncStatus : ℤ) :
    ∃ as bs, db.localMutations = as ++ row :: bs ∧
      (∀ a ∈ as, a.id ≠ row.id) ∧ (∀ b ∈ bs, b.id ≠ row.id) ∧
      (markMutation db row.id syncStatus).localMutations =
        as ++ { row with syncStatus } :: bs := by
  obtain ⟨as, bs, hsplit⟩ := List.append_of_mem hrow
  have hsorted := db.sorted
  rw [hsplit, List.pairwise_append, List.pairwise_cons] at hsorted
  obtain ⟨-, ⟨hafter, -⟩, hbefore⟩ := hsorted
  have has : ∀ a ∈ as, a.id ≠ row.id := fun a ha => (hbefore a ha row List.mem_cons_self).ne
  have hbs : ∀ b ∈ bs, b.id ≠ row.id := fun b hb => (hafter b hb).ne'
  refine ⟨as, bs, hsplit, has, hbs, ?_⟩
  have hfix : ∀ {l : List LocalMutation}, (∀ a ∈ l, a.id ≠ row.id) →
      l.map (withStatus [row.id] syncStatus) = l := fun hl =>
    List.map_congr_left (fun a ha => withStatus_of_notMem (by simpa using hl a ha)) |>.trans
      (List.map_id _)
  show db.localMutations.map (withStatus [row.id] syncStatus) = _
  rw [hsplit, List.map_append, List.map_cons, hfix has, hfix hbs]
  simp [withStatus]

theorem head_eq_iff {α : Type} {as bs : List α} {a : α} (h : a ∉ as) :
    (as ++ a :: bs).head? = some a ↔ as = [] := by
  cases as with
  | nil => simp
  | cons b as =>
    simp only [List.cons_append, List.head?_cons, Option.some.injEq, reduceCtorEq, iff_false]
    rintro rfl
    exact h List.mem_cons_self

theorem getLast_eq_iff {α : Type} {as bs : List α} {a : α} (h : a ∉ bs) :
    (as ++ a :: bs).getLast? = some a ↔ bs = [] := by
  rw [List.getLast?_append_of_ne_nil _ (List.cons_ne_nil a bs)]
  cases bs with
  | nil => simp
  | cons b bs =>
    rw [List.getLast?_cons_cons]
    exact ⟨fun hl => absurd (List.mem_of_getLast? hl) h, fun he => by cases he⟩

theorem Inv.mark_row_iff {db : OptoSyncDatabase} (h : client.Inv parse db)
    (hpending : Consecutive number db.pendingMutations) {row : LocalMutation}
    (hrow : row ∈ db.localMutations) (syncStatus : ℤ) :
    Consecutive number (markMutation db row.id syncStatus).pendingMutations ↔
      MarkKeeps db row syncStatus := by
  have hinv : client.Inv parse (markMutation db row.id syncStatus) := h.updateStatus _ syncStatus
  obtain ⟨as, bs, hsplit, has, hbs, hmarked⟩ := mark_split hrow syncStatus
  have hascending := hinv.ascending.filter isPending
  unfold MarkKeeps Adjoins AtEnd
  rw [pendingMutations_eq, hmarked, List.filter_append]
  rw [pendingMutations_eq, hsplit, List.filter_append] at hpending ⊢
  rw [hmarked, List.filter_append] at hascending
  by_cases hstatus : syncStatus = SyncStatus.pending
  · have hnew : isPending { row with syncStatus } = true := by simp [isPending, hstatus]
    rw [if_pos hstatus]
    rw [List.filter_cons_of_pos hnew] at hascending ⊢
    by_cases hold : isPending row = true
    · have hsame : ({ row with syncStatus } : LocalMutation) = row := by
        rw [hstatus, ← show row.syncStatus = SyncStatus.pending by simpa [isPending] using hold]
      rw [List.filter_cons_of_pos hold] at hpending
      rw [hsame]
      exact ⟨fun _ => Or.inl hold, fun _ => hpending⟩
    · rw [List.filter_cons_of_neg hold] at hpending ⊢
      rw [Consecutive.insert_iff hpending hascending]
      simp only [hold, Bool.false_eq_true, false_or]
      rfl
  · have hnew : ¬ isPending { row with syncStatus } = true := by simp [isPending, hstatus]
    rw [if_neg hstatus, List.filter_cons_of_neg hnew]
    by_cases hold : isPending row = true
    · have hnotA : row ∉ as.filter isPending := fun hm => has row (List.mem_filter.mp hm).1 rfl
      have hnotB : row ∉ bs.filter isPending := fun hm => hbs row (List.mem_filter.mp hm).1 rfl
      rw [List.filter_cons_of_pos hold] at hpending ⊢
      rw [Consecutive.remove_iff hpending, head_eq_iff hnotA, getLast_eq_iff hnotB]
      simp [hold]
    · rw [List.filter_cons_of_neg hold] at hpending
      exact ⟨fun _ => Or.inl (by simpa using hold), fun _ => hpending⟩

theorem Inv.mark_iff {db : OptoSyncDatabase} (h : client.Inv parse db)
    (hpending : Consecutive number db.pendingMutations) (id : ℕ) (syncStatus : ℤ) :
    Consecutive number (markMutation db id syncStatus).pendingMutations ↔
      ∀ row ∈ db.localMutations, row.id = id → MarkKeeps db row syncStatus := by
  by_cases hrow : ∃ row ∈ db.localMutations, row.id = id
  · obtain ⟨row, hrow, rfl⟩ := hrow
    rw [h.mark_row_iff hpending hrow]
    exact ⟨fun hone r hr hid => row_unique hr hrow hid ▸ hone, fun hall => hall row hrow rfl⟩
  · have hsame : (markMutation db id syncStatus).localMutations = db.localMutations := by
      refine (List.map_congr_left fun r hr => withStatus_of_notMem ?_).trans (List.map_id _)
      simpa using fun he => hrow ⟨r, hr, he⟩
    rw [pendingMutations_eq, hsame, ← pendingMutations_eq]
    exact ⟨fun _ r hr hid => absurd ⟨r, hr, hid⟩ hrow, fun _ => hpending⟩

/-- Queueing puts the next mutation id after the pending rows. -/
theorem add_iff {db : OptoSyncDatabase} (hpending : Consecutive number db.pendingMutations)
    {row : LocalMutation} (hstatus : row.syncStatus = SyncStatus.pending)
    (hid : row.mutationId = some (db.mutationSeq + 1).repr) :
    Consecutive number (db.add row).pendingMutations ↔ SequenceFollows db := by
  have hnew : isPending { row with id := db.nextId } = true := by simp [isPending, hstatus]
  have hadd : (db.add row).pendingMutations =
      db.pendingMutations ++ [{ row with id := db.nextId }] := by
    rw [pendingMutations_eq, pendingMutations_eq]
    show (db.localMutations ++ [{ row with id := db.nextId }]).filter isPending = _
    rw [List.filter_append, List.filter_cons_of_pos hnew, List.filter_nil]
  have hnumber : number { row with id := db.nextId } = some (db.mutationSeq + 1) :=
    number_add hid
  rw [hadd, Consecutive.append_iff]
  constructor
  · rintro ⟨-, -, hjoin⟩ last hlast
    have hnext := hjoin last hlast _ rfl
    rw [hnumber] at hnext
    obtain ⟨n, hn⟩ := Option.isSome_iff_exists.mp (hpending.1 last (List.mem_of_getLast? hlast))
    rw [hn, Option.map_some, Option.some.injEq] at hnext
    rw [hn, Option.some.injEq]
    omega
  · intro hfollows
    refine ⟨hpending, Consecutive.cons_iff.mpr ⟨by rw [hnumber]; rfl, .nil, by simp⟩, ?_⟩
    intro last hlast next hnext
    obtain rfl : ({ row with id := db.nextId } : LocalMutation) = next := by simpa using hnext
    rw [hnumber, hfollows last hlast]
    rfl

/-- An acknowledgement and a confirmation take rows off the front. -/
theorem updateStatus_consecutive {db : OptoSyncDatabase}
    (hpending : Consecutive number db.pendingMutations) {ids : List ℕ}
    (htail : db.pendingMutations.Pairwise fun a b => a.id ∉ ids → b.id ∉ ids) :
    Consecutive number (db.updateStatus ids SyncStatus.synced).pendingMutations := by
  rw [pending_updateStatus db ids (by decide)]
  apply hpending.suffix
  apply filter_suffix
  simpa using htail

/-- An acknowledgement matches the request, which is the batch, and marks the batch. -/
theorem acknowledgePush_eq {db db' : OptoSyncDatabase} {response : PushResponse}
    {request : WirePush} (h : client.acknowledgePush parse db response request = .ok db') :
    validatePushResponse request response = .ok () ∧
      buildPushRequest parse client.clientId db.pendingMutations noOptions
        request.mutations.length = .ok request ∧
      db' = db.updateStatus ((db.pendingMutations.take request.mutations.length).map
        LocalMutation.id) SyncStatus.synced := by
  unfold acknowledgePush at h
  obtain ⟨_, hresponse, hclient⟩ := bind_eq_ok.mp h
  split at hclient
  · obtain ⟨_, hthrow, -⟩ := bind_eq_ok.mp hclient
    cases hthrow
  · obtain ⟨expected, hexpected, hsame⟩ := bind_eq_ok.mp hclient
    split at hsame
    · obtain ⟨_, hthrow, -⟩ := bind_eq_ok.mp hsame
      cases hthrow
    · rename_i heq
      rw [not_not.mp heq] at hexpected
      exact ⟨hresponse, hexpected, (Except.ok.inj hsame).symm⟩

theorem acknowledgePush_ok {db db' : OptoSyncDatabase} {response : PushResponse}
    {request : WirePush} (h : client.acknowledgePush parse db response request = .ok db') :
    ∃ n, db' = db.updateStatus ((db.pendingMutations.take n).map LocalMutation.id)
      SyncStatus.synced := ⟨_, (acknowledgePush_eq h).2.2⟩

/-- The ids of a front of the pending rows. -/
theorem tail_of_take (db : OptoSyncDatabase) (n : ℕ) :
    db.pendingMutations.Pairwise fun a b =>
      a.id ∉ (db.pendingMutations.take n).map LocalMutation.id →
        b.id ∉ (db.pendingMutations.take n).map LocalMutation.id := by
  have hsorted : db.pendingMutations.Pairwise fun a b => a.id < b.id := by
    rw [pendingMutations_eq]
    exact db.sorted.filter _
  generalize db.pendingMutations = l at hsorted
  induction l generalizing n with
  | nil => exact .nil
  | cons row rows ih =>
    obtain ⟨hfirst, hrest⟩ := List.pairwise_cons.mp hsorted
    cases n with
    | zero => exact List.Pairwise.imp (fun _ _ => by simp) hsorted
    | succ n =>
      rw [List.take_succ_cons, List.map_cons, List.pairwise_cons]
      refine ⟨fun b _ hnot => absurd List.mem_cons_self hnot, ?_⟩
      refine List.Pairwise.imp_of_mem ?_ (ih n hrest)
      intro a b ha hb hab
      simp only [List.mem_cons, not_or]
      rintro ⟨-, hnot⟩
      exact ⟨(hfirst b hb).ne', hab hnot⟩

theorem Inv.confirm_consecutive {db : OptoSyncDatabase} (h : client.Inv parse db)
    (hpending : Consecutive number db.pendingMutations) (lastMutationId : ℤ)
    (clientId : Option String) :
    Consecutive number (client.confirmSyncedUpTo db lastMutationId clientId).pendingMutations := by
  apply updateStatus_consecutive hpending
  rw [pendingMutations_eq] at hpending ⊢
  refine List.Pairwise.imp_of_mem ?_ (h.ascending.filter isPending)
  intro a b ha hb hab hnot hin
  obtain ⟨r, hr, hid⟩ := List.mem_map.mp hin
  obtain ⟨hmem, hconfirmed⟩ := List.mem_filter.mp hr
  have hmemA := (List.mem_filter.mp ha).1
  have hmemB := (List.mem_filter.mp hb).1
  obtain rfl := row_unique hmem hmemB hid
  -- `b` was confirmed, so `a`, whose number is smaller, is confirmed as well
  apply hnot
  have hidentified : ∀ x ∈ db.localMutations.filter isPending,
      client.Identified parse db.mutationSeq x := by
    intro x hx
    have hsome := hpending.1 x hx
    rcases h.rows x (List.mem_filter.mp hx).1 with hnone | hidentified
    · rw [hnone] at hsome
      cases hsome
    · exact hidentified
  obtain ⟨hclientA, ⟨m, -, -, hm⟩, -⟩ := hidentified a ha
  obtain ⟨hclientB, ⟨n, -, -, hn⟩, -⟩ := hidentified r hb
  have hlt : m < n := hab m n (by rw [number, hm, Option.map_some, bigInt_repr])
    (by rw [number, hn, Option.map_some, bigInt_repr])
  simp only [hn, hclientB, Bool.and_eq_true, decide_eq_true_eq, Option.any_some,
    bigInt_repr] at hconfirmed
  refine List.mem_map.mpr ⟨a, List.mem_filter.mpr ⟨hmemA, ?_⟩, rfl⟩
  simp only [hm, hclientA, Bool.and_eq_true, decide_eq_true_eq, Option.any_some, bigInt_repr]
  exact ⟨⟨(List.mem_filter.mp ha).2, hconfirmed.1.2⟩, by omega⟩

theorem pending_prune (db : OptoSyncDatabase) (retain : ℕ) :
    (pruneConfirmed db retain).pendingMutations = db.pendingMutations := by
  rw [pendingMutations_eq, pendingMutations_eq]
  unfold pruneConfirmed
  dsimp only
  generalize hremovable : List.take _ _ = removable
  have hsynced : ∀ r ∈ removable, r ∈ db.localMutations ∧ r.syncStatus = SyncStatus.synced := by
    intro r hr
    rw [← hremovable] at hr
    have hmem := List.mem_mergeSort.mp (List.mem_of_mem_take hr)
    simpa using hmem
  show (db.localMutations.filter _).filter isPending = _
  rw [List.filter_filter]
  apply List.filter_congr
  intro r hr
  by_cases hpending : isPending r = true
  · simp only [hpending, Bool.true_and, decide_eq_true_eq]
    intro hin
    obtain ⟨s, hs, hid⟩ := List.mem_map.mp hin
    obtain ⟨hmem, hstatus⟩ := hsynced s hs
    obtain rfl := row_unique hmem hr hid
    rw [isPending, hstatus] at hpending
    exact absurd hpending (by decide)
  · simp [hpending]

theorem queueMutation_inv {db db' : OptoSyncDatabase} (h : client.Inv parse db)
    {tableName recordId : String}
    {payload : { text : String // ∃ fields, parse text = some (.object fields) }}
    {protocol : ProtocolMutationOptions} {createdAt : ℕ}
    (hok : client.queueMutation db tableName recordId payload.1 protocol createdAt = .ok db') :
    client.Inv parse db' := by
  obtain ⟨queued, rfl, -, hclient, hid, -, hpayload⟩ := insert_ok hok
  exact h.add hclient hid fun _ => hpayload ▸ payload.2

theorem queueDelete_inv {db db' : OptoSyncDatabase} (h : client.Inv parse db)
    {tableName recordId : String} {baseRevision consistencyPolicy : Option String} {createdAt : ℕ}
    (hok : client.queueDelete db tableName recordId baseRevision consistencyPolicy createdAt =
      .ok db') : client.Inv parse db' := by
  obtain ⟨queued, rfl, -, hclient, hid, hoperation, -⟩ := insert_ok hok
  refine h.add hclient hid fun hupsert => ?_
  rw [hoperation] at hupsert
  cases hupsert

theorem Inv.next {db : OptoSyncDatabase} (h : client.Inv parse db) (call : ClientCall parse) :
    client.Inv parse (client.next parse db call) := by
  unfold OptoSyncClient.next
  split
  · rename_i db' hok
    cases call with
    | queueMutation tableName recordId payload protocol createdAt => exact queueMutation_inv h hok
    | queueDelete tableName recordId baseRevision consistencyPolicy createdAt =>
      exact queueDelete_inv h hok
    | markMutation id syncStatus =>
      obtain rfl := Except.ok.inj hok
      exact h.updateStatus [id] syncStatus
    | acknowledgePush response request =>
      obtain ⟨n, rfl⟩ := acknowledgePush_ok hok
      exact h.updateStatus _ _
    | confirmSyncedUpTo lastMutationId clientId =>
      obtain rfl := Except.ok.inj hok
      exact h.updateStatus _ _
    | pruneConfirmed retain =>
      obtain rfl := Except.ok.inj hok
      exact h.bulkDelete _
  · exact h

/-- A queued mutation or a refusal. -/
theorem queue_iff {db : OptoSyncDatabase} (hpending : Consecutive number db.pendingMutations)
    {row : LocalMutation} {policy : Option String} :
    Consecutive number (match client.insert db row policy with
      | .ok db' => db'
      | .error _ => db).pendingMutations ↔
        (∃ error, client.insert db row policy = .error error) ∨ SequenceFollows db := by
  cases hinsert : client.insert db row policy with
  | error error => exact ⟨fun _ => Or.inl ⟨error, rfl⟩, fun _ => hpending⟩
  | ok db' =>
    obtain ⟨queued, rfl, hstatus, -, hid, -, -⟩ := insert_ok hinsert
    simp only [reduceCtorEq, exists_false, false_or]
    exact add_iff hpending hstatus hid

theorem Inv.next_iff {db : OptoSyncDatabase} (h : client.Inv parse db)
    (hpending : Consecutive number db.pendingMutations) (call : ClientCall parse) :
    Consecutive number (client.next parse db call).pendingMutations ↔
      client.KeepsContiguous parse db call := by
  cases call with
  | queueMutation tableName recordId payload protocol createdAt => exact queue_iff hpending
  | queueDelete tableName recordId baseRevision consistencyPolicy createdAt =>
    exact queue_iff hpending
  | markMutation id syncStatus => exact h.mark_iff hpending id syncStatus
  | acknowledgePush response request =>
    refine ⟨fun _ => trivial, fun _ => ?_⟩
    unfold OptoSyncClient.next
    split
    · rename_i db' hok
      obtain ⟨n, rfl⟩ := acknowledgePush_ok hok
      exact updateStatus_consecutive hpending (tail_of_take db n)
    · exact hpending
  | confirmSyncedUpTo lastMutationId clientId =>
    exact ⟨fun _ => trivial, fun _ => h.confirm_consecutive hpending lastMutationId clientId⟩
  | pruneConfirmed retain =>
    refine ⟨fun _ => trivial, fun _ => ?_⟩
    show Consecutive number (pruneConfirmed db retain).pendingMutations
    rwa [pending_prune]

/-- A row that was carried over pending can never be sent. -/
theorem pushable_upgrade_iff (store : LegacyStore) :
    client.Pushable parse store.upgrade ↔
      ∀ row ∈ store.localMutations, row.syncStatus ≠ SyncStatus.pending := by
  rw [(inv_upgrade store).pushable_iff, pendingMutations_eq]
  constructor
  · intro hpending row hrow hstatus
    have hmem : row.row ∈ store.upgrade.localMutations.filter isPending :=
      List.mem_filter.mpr ⟨List.mem_map_of_mem hrow, by simp [isPending, LegacyMutation.row, hstatus]⟩
    cases hpending.1 row.row hmem
  · intro hstatus
    have hempty : store.upgrade.localMutations.filter isPending = [] := by
      apply List.filter_eq_nil_iff.mpr
      intro r hr
      obtain ⟨row, hrow, rfl⟩ := List.mem_map.mp hr
      simp [isPending, LegacyMutation.row, hstatus row hrow]
    rw [hempty]
    exact .nil

/-- The queue can be sent in every state of a run exactly if no pending row was carried over and
every call keeps the pending ids contiguous. -/
theorem run_pushable_iff (client : OptoSyncClient) (parse : String → Option Json)
    (store : LegacyStore) (calls : List (ClientCall parse)) :
    StatesMeet (client.next parse) (client.Pushable parse) store.upgrade calls ↔
      (∀ row ∈ store.localMutations, row.syncStatus ≠ SyncStatus.pending) ∧
        StepsMeet (client.next parse) (client.KeepsContiguous parse) store.upgrade calls := by
  have hsteps := fun hP => statesMeet_iff_stepsMeet (I := client.Inv parse)
    (P := client.Pushable parse) (C := client.KeepsContiguous parse)
    (fun _ call h => h.next call)
    (fun _ call h hpush => (h.next call).pushable_iff.trans
      (h.next_iff (h.pushable_iff.mp hpush) call))
    (inv_upgrade store) hP calls
  constructor
  · intro hstates
    exact ⟨(pushable_upgrade_iff store).mp hstates.first, (hsteps hstates.first).mp hstates⟩
  · rintro ⟨hstore, hcalls⟩
    exact (hsteps ((pushable_upgrade_iff store).mpr hstore)).mpr hcalls

/-- Three writes, the second one marked as failed: nothing can be sent any more. -/
theorem mark_middle_stops_pushing :
    let client : OptoSyncClient :=
      { clientId := "device", maxPendingMutations := 10000, maxQueuedPayloadBytes := 261120
        defaultConsistencyPolicy := Consistency.writeThroughLocalFirst, client_ne := by decide }
    let parse : String → Option Json := fun _ => some (.object [])
    let store : LegacyStore :=
      { localMutations := [], nextId := 1, sorted := .nil, fresh := by simp }
    let write : ClientCall parse := .queueMutation "todos" "a" ⟨"\x7b\x7d", [], rfl⟩ noOptions 0
    let db := run (client.next parse) store.upgrade
      [write, write, write, .markMutation 2 SyncStatus.failed]
    client.protocolPushRequest parse db noOptions 100 =
      .error "pending protocol mutations must be contiguous and insertion ordered" := by
  intro client parse store write db
  rw [protocolPushRequest, pendingMutations_eq]
  decide +zetaReduce

end OptoSyncClient
end OptoSync
