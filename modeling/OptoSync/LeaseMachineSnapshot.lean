import OptoSync.Entries
import OptoSync.LeaseMachine

/-!
# Snapshots of the reference lease machine

What decoding a snapshot gives, and what filling a fresh machine with it leaves.
-/
namespace OptoSync.Stream.Go

open CanonicalForm (sortByKey)
open Entries (foldl_insert_toList foldl_insert_toList_set)

def tagged (value : ℤ) : StringMap String :=
  (∅ : StringMap String).insert "#bigint" (String.ofList (Json.printInt value))

theorem toDigits_plain (n : ℕ) :
    (∀ c ∈ Nat.toDigits 10 n, '0' ≤ c ∧ c ≤ '9') ∧
      ¬(1 < (Nat.toDigits 10 n).length ∧ (Nat.toDigits 10 n).head? = some '0') := by
  obtain ⟨-, hdigit, hzero⟩ := Decimal.canonical_toDigits n
  constructor
  · intro c hc
    have h := hdigit c hc
    simp only [Char.isDigit, Bool.and_eq_true, decide_eq_true_eq] at h
    exact h
  · rintro ⟨hlength, hhead⟩
    rw [hzero hhead] at hlength
    exact lt_irrefl 1 hlength

theorem validateDecimal_printInt (z : ℤ) :
    validateDecimal (String.ofList (Json.printInt z)) true = .ok () := by
  unfold validateDecimal
  rw [String.toList_ofList]
  cases z with
  | ofNat n =>
    have hminus := Decimal.head_toDigits_ne (n := n) (c := '-') (by decide)
    have hplus := Decimal.head_toDigits_ne (n := n) (c := '+') (by decide)
    obtain ⟨hdigits, hleading⟩ := toDigits_plain n
    simp [Json.printInt, hminus, hplus, hleading]
    exact hdigits
  | negSucc n =>
    obtain ⟨hdigits, hleading⟩ := toDigits_plain (n + 1)
    have hzero : Nat.toDigits 10 (n + 1) ≠ ['0'] := by
      intro heq
      have hparse := Decimal.parseDigits_toDigits (n + 1)
      rw [heq] at hparse
      cases hparse
    simp [Json.printInt, hleading, hzero]
    exact hdigits

@[simp] theorem parseBigIntValue_bigInt (z : ℤ) : parseBigIntValue (bigInt z) = .ok z := by
  simp [parseBigIntValue, bigInt, validateDecimal_printInt, CanonicalJson.setString_printInt]

@[simp] theorem parseTaggedMap_tagged (z : ℤ) : parseTaggedMap (tagged z) = .ok z := by
  have hget : (tagged z)["#bigint"]? = some (String.ofList (Json.printInt z)) :=
    Std.ExtTreeMap.getElem?_insert_self
  have hsize : (tagged z).size = 1 := by simp [tagged, Std.ExtTreeMap.size_insert]
  simp only [parseTaggedMap, hget, hsize]
  exact parseBigIntValue_bigInt z

@[simp] theorem decodeStringMap_bigInt (z : ℤ) : decodeStringMap ∅ (bigInt z) = some (tagged z) := by
  simp [decodeStringMap, bigInt, sortByKey, setEntry, decodeString, tagged]

theorem decodeInt64_int {old z : ℤ} (h : -2 ^ 63 ≤ z ∧ z < 2 ^ 63) :
    decodeInt64 old (.number (.int z)) = some z := by
  rw [decodeInt64, CanonicalJson.Go.numberText, CanonicalJson.setString_printInt,
    Option.filter_some, if_pos (decide_eq_true h)]

def rawLease (resource : String) (value : Lease) : RawLease where
  resource
  owner := value.owner
  fence := tagged value.fence
  expiresAt := tagged value.expiresAt

def rawGrant (request : String) (value : Grant) : RawGrant where
  request
  grant :=
    { resource := value.resource, owner := value.owner, fence := tagged value.fence,
      expiresAt := tagged value.expiresAt }

theorem decodeLease_leaseValue (resource : String) (value : Lease) :
    decodeStruct setLease {} (leaseValue resource value) = some (rawLease resource value) := by
  rw [leaseValue, decodeStruct_sorted (by simp)]
  simp [setLease, structField, decodeString, rawLease]

theorem decodeGrant_grantValue (value : Grant) :
    decodeStruct setLease {} (grantValue value) = some (rawGrant "" value).grant := by
  rw [grantValue, decodeStruct_sorted (by simp)]
  simp [setLease, structField, decodeString, rawGrant]

theorem decodeGrant_entry (request : String) (value : Grant) :
    decodeStruct setGrant {} (.object [("grant", grantValue value), ("request", .string request)]) =
      some (rawGrant request value) := by
  rw [decodeStruct_sorted (by simp)]
  simp [setGrant, structField, decodeString, decodeGrant_grantValue, rawGrant]

theorem decodeItems_map {α β : Type} {zero : β} {decode : β → Json → Option β} {value : α → Json}
    {raw : α → β} (h : ∀ x, decode zero (value x) = some (raw x)) (xs : List α) :
    decodeItems zero decode [] (xs.map value) = some (xs.map raw) := by
  induction xs with
  | nil => rfl
  | cons x xs ih => simp [decodeItems, h, ih]

theorem decodeRawSlice_map {α β : Type} {zero : β} {decode : β → Json → Option β}
    {value : α → Json} {raw : α → β} (h : ∀ x, decode zero (value x) = some (raw x))
    (xs : List α) :
    decodeRawSlice zero decode {} (.array (xs.map value)) =
      some { array := xs.map raw, length := xs.length } := by
  cases xs with
  | nil => rfl
  | cons x xs =>
    have hitems := decodeItems_map h (x :: xs)
    rw [List.map_cons] at hitems ⊢
    simp [decodeRawSlice, hitems]

theorem elements_map {α β : Type} (raw : α → β) (xs : List α) :
    ({ array := xs.map raw, length := xs.length } : RawSlice β).elements = xs.map raw := by
  rw [RawSlice.elements, List.take_of_length_le (by simp)]

theorem depthItems_map_le {α : Type} (value : α → Json) (bound : ℕ)
    (h : ∀ x, (value x).depth ≤ bound) (xs : List α) : Json.depthItems (xs.map value) ≤ bound := by
  induction xs with
  | nil => exact Nat.zero_le _
  | cons x xs ih => exact max_le (h x) ih

namespace LeaseMachine

/-- The raw snapshot of a machine. -/
def raw (machine : LeaseMachine) : RawSnapshot where
  version := 1
  now := tagged machine.now
  nextFence := tagged machine.nextFence
  leases :=
    { array := machine.leases.toList.map fun entry => rawLease entry.1 entry.2
      length := machine.leases.toList.length }
  grants :=
    { array := machine.grants.toList.map fun entry => rawGrant entry.1 entry.2
      length := machine.grants.toList.length }
  canceled :=
    { array := machine.canceled.toList.map id, length := machine.canceled.toList.length }

theorem decode_observation (machine : LeaseMachine) :
    decodeStruct setObservation {} machine.observation = some machine.raw.leases := by
  rw [observation, decodeStruct_sorted (by simp)]
  simp [setObservation, structField, raw, foldName, foldRune,
    decodeRawSlice_map fun entry : String × Lease => decodeLease_leaseValue entry.1 entry.2]

theorem depth_snapshotValue (machine : LeaseMachine) : machine.snapshotValue.depth ≤ 10 := by
  have hleases := depthItems_map_le (fun entry : String × Lease => leaseValue entry.1 entry.2) 2
    (fun entry => by simp [leaseValue, bigInt, Json.depth, Json.depthFields])
    machine.leases.toList
  have hgrants := depthItems_map_le
    (fun entry : String × Grant =>
      .object [("grant", grantValue entry.2), ("request", .string entry.1)]) 3
    (fun entry => by simp [grantValue, bigInt, Json.depth, Json.depthFields])
    machine.grants.toList
  have hcanceled := depthItems_map_le Json.string 0
    (fun request => by simp [Json.depth]) machine.canceled.toList
  simp only [snapshotValue, observation, bigInt, Json.depth, Json.depthFields]
  omega

theorem decodeSnapshot_snapshotValue (machine : LeaseMachine) :
    decodeSnapshot machine.snapshotValue = some machine.raw := by
  have hdepth : ¬machine.snapshotValue.depth > CanonicalJson.Go.maxNestingDepth :=
    not_lt.mpr ((depth_snapshotValue machine).trans (by decide))
  have hcanceled : decodeRawSlice "" decodeString {}
      (.array (machine.canceled.toList.map .string)) = some machine.raw.canceled :=
    decodeRawSlice_map
      (fun request => show decodeString "" (.string request) = some (id request) from rfl) _
  have hgrants : decodeRawSlice {} (decodeStruct setGrant) {}
      (.array (machine.grants.toList.map fun entry =>
        .object [("grant", grantValue entry.2), ("request", .string entry.1)])) =
      some machine.raw.grants :=
    decodeRawSlice_map (fun entry : String × Grant => decodeGrant_entry entry.1 entry.2) _
  have hversion : decodeInt64 0 (.number (.int 1)) = some 1 := decodeInt64_int (by decide)
  rw [decodeSnapshot, if_neg hdepth, snapshotValue, decodeStruct_sorted (by simp)]
  simp [setSnapshot, structField, decode_observation, hcanceled, hgrants, hversion]
  simp [raw]

/-- The entries of the items before the first one that is refused. -/
def accepted {α β : Type} (read : α → Checked β) : List α → List β
  | [] => []
  | item :: items =>
    match read item with
    | .error _ => []
    | .ok entry => entry :: accepted read items

section
variable {α β : Type} {read : α → Checked β} {put : LeaseMachine → β → LeaseMachine}

theorem fill_fst (read : α → Checked β) (put : LeaseMachine → β → LeaseMachine)
    (machine : LeaseMachine) (items : List α) :
    (machine.fill read put items).1 = (accepted read items).foldl put machine := by
  induction items generalizing machine with
  | nil => rfl
  | cons item items ih =>
    rw [fill, accepted]
    cases read item with
    | error message => rfl
    | ok entry => exact ih (put machine entry)

theorem fill_snd_eq_ok (read : α → Checked β) (put : LeaseMachine → β → LeaseMachine)
    (machine : LeaseMachine) (items : List α) :
    (machine.fill read put items).2 = .ok () ↔ ∀ item ∈ items, ∃ entry, read item = .ok entry := by
  induction items generalizing machine with
  | nil => simp [fill]
  | cons item items ih =>
    rw [fill, List.forall_mem_cons]
    cases read item with
    | error message => simp
    | ok entry => simp [ih]

theorem accepted_map {raw : β → α} {xs : List β} (h : ∀ x ∈ xs, read (raw x) = .ok x) :
    accepted read (xs.map raw) = xs := by
  induction xs with
  | nil => rfl
  | cons x xs ih =>
    obtain ⟨hx, hxs⟩ := List.forall_mem_cons.mp h
    rw [List.map_cons, accepted, hx, ih hxs]

/-- A loop that reads back what was written of each entry. -/
theorem fill_map (machine : LeaseMachine) {raw : β → α} {xs : List β}
    (h : ∀ x ∈ xs, read (raw x) = .ok x) :
    machine.fill read put (xs.map raw) = (xs.foldl put machine, .ok ()) := by
  refine Prod.ext ?_ ?_
  · rw [fill_fst, accepted_map h]
  · rw [fill_snd_eq_ok]
    intro item hitem
    obtain ⟨x, hx, rfl⟩ := List.mem_map.mp hitem
    exact ⟨x, h x hx⟩

end

theorem foldl_putLease (machine : LeaseMachine) (entries : List (String × Lease)) :
    entries.foldl putLease machine =
      { machine with
        leases := entries.foldl (fun map entry => map.insert entry.1 entry.2) machine.leases } := by
  induction entries generalizing machine with
  | nil => rfl
  | cons entry entries ih => exact ih (machine.putLease entry)

theorem foldl_putGrant (machine : LeaseMachine) (entries : List (String × Grant)) :
    entries.foldl putGrant machine =
      { machine with
        grants := entries.foldl (fun map entry => map.insert entry.1 entry.2) machine.grants } := by
  induction entries generalizing machine with
  | nil => rfl
  | cons entry entries ih => exact ih (machine.putGrant entry)

theorem foldl_putCanceled (machine : LeaseMachine) (requests : List String) :
    requests.foldl putCanceled machine =
      { machine with
        canceled := requests.foldl (fun set request => set.insert request) machine.canceled } := by
  induction requests generalizing machine with
  | nil => rfl
  | cons request requests ih => exact ih (machine.putCanceled request)

/-- No lease has expired. -/
def Current (machine : LeaseMachine) : Prop :=
  ∀ {resource : String} {value : Lease}, machine.leases[resource]? = some value →
    machine.now < value.expiresAt

theorem getElem?_expire {machine : LeaseMachine} {resource : String} {value : Lease} :
    machine.expire.leases[resource]? = some value ↔
      machine.leases[resource]? = some value ∧ machine.now < value.expiresAt := by
  simp [expire, Option.filter_eq_some_iff]

theorem current_expire (machine : LeaseMachine) : machine.expire.Current :=
  fun h => (getElem?_expire.mp h).2

theorem expire_eq_self {machine : LeaseMachine} (h : machine.Current) : machine.expire = machine := by
  have hleases : machine.expire.leases = machine.leases := by
    refine Std.ExtTreeMap.ext_getElem? fun resource => Option.ext fun value => ?_
    exact getElem?_expire.trans (and_iff_left_of_imp fun hvalue => h hvalue)
  exact congrArg (fun leases => { machine with leases }) hleases

/-- What a snapshot keeps of a machine without refusal when it is read back. -/
structure Storable (machine : LeaseMachine) : Prop where
  now_nonneg : 0 ≤ machine.now
  nextFence_pos : 0 < machine.nextFence
  lease_named : ∀ {resource : String} {value : Lease}, machine.leases[resource]? = some value →
    resource ≠ "" ∧ value.owner ≠ ""
  grant_named : ∀ {request : String} {value : Grant}, machine.grants[request]? = some value →
    request ≠ "" ∧ value.resource ≠ "" ∧ value.owner ≠ ""
  canceled_named : ∀ {request : String}, request ∈ machine.canceled → request ≠ ""

theorem fill_leases (machine : LeaseMachine) {entries : List (String × Lease)}
    (h : ∀ entry ∈ entries, entry.1 ≠ "" ∧ entry.2.owner ≠ "") :
    machine.fill readLease putLease (entries.map fun entry => rawLease entry.1 entry.2) =
      (entries.foldl putLease machine, .ok ()) := by
  refine fill_map machine fun entry hentry => ?_
  obtain ⟨hresource, howner⟩ := h entry hentry
  simp [readLease, rawLease, hresource, howner]

theorem fill_grants (machine : LeaseMachine) {entries : List (String × Grant)}
    (h : ∀ entry ∈ entries, entry.1 ≠ "" ∧ entry.2.resource ≠ "" ∧ entry.2.owner ≠ "") :
    machine.fill readGrant putGrant (entries.map fun entry => rawGrant entry.1 entry.2) =
      (entries.foldl putGrant machine, .ok ()) := by
  refine fill_map machine fun entry hentry => ?_
  obtain ⟨hrequest, hresource, howner⟩ := h entry hentry
  simp [readGrant, rawGrant, hrequest, hresource, howner]

theorem fill_canceled (machine : LeaseMachine) {requests : List String}
    (h : ∀ request ∈ requests, request ≠ "") :
    machine.fill readCanceled putCanceled (requests.map id) =
      (requests.foldl putCanceled machine, .ok ()) := by
  refine fill_map machine fun request hrequest => ?_
  simp [readCanceled, h request hrequest]

theorem fillSnapshot_raw {machine : LeaseMachine} (h : machine.Storable) :
    (fresh machine.now machine.nextFence).fillSnapshot machine.raw =
      ({ machine with closed := false }.expire, .ok ()) := by
  have hleases : ∀ entry ∈ machine.leases.toList, entry.1 ≠ "" ∧ entry.2.owner ≠ "" :=
    fun entry hentry => h.lease_named (Std.ExtTreeMap.mem_toList_iff_getElem?_eq_some.mp hentry)
  have hgrants : ∀ entry ∈ machine.grants.toList,
      entry.1 ≠ "" ∧ entry.2.resource ≠ "" ∧ entry.2.owner ≠ "" :=
    fun entry hentry => h.grant_named (Std.ExtTreeMap.mem_toList_iff_getElem?_eq_some.mp hentry)
  have hcanceled : ∀ request ∈ machine.canceled.toList, request ≠ "" :=
    fun request hrequest => h.canceled_named (Std.ExtTreeSet.mem_toList.mp hrequest)
  simp only [fillSnapshot, raw, elements_map, fill_leases _ hleases, fill_grants _ hgrants,
    fill_canceled _ hcanceled]
  simp only [foldl_putLease, foldl_putGrant, foldl_putCanceled, fresh, foldl_insert_toList,
    foldl_insert_toList_set]

theorem restoreValue_snapshotValue (machine other : LeaseMachine) (h : machine.Storable) :
    other.restoreValue machine.snapshotValue =
      ({ machine with closed := false }.expire, .ok ()) := by
  have hnow : ¬machine.now < 0 := not_lt.mpr h.now_nonneg
  have hnextFence : ¬machine.nextFence ≤ 0 := not_le.mpr h.nextFence_pos
  rw [restoreValue, decodeSnapshot_snapshotValue]
  simp only [raw, parseTaggedMap_tagged, hnow, hnextFence, if_false, ne_eq, not_true_eq_false]
  exact fillSnapshot_raw h

end LeaseMachine

end OptoSync.Stream.Go
