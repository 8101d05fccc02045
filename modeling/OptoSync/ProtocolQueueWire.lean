import OptoSync.Entries
import OptoSync.ProtocolQueueValid

/-!
# The durable form of a protocol queue

`serialize` writes a queue as a JSON document, `deserialize` reads one and validates it. Between
the two lies the text: `reparse` is what printing a document and parsing the text gives.
-/
namespace OptoSync
open Decimal Transition

/-- A field that is skipped when there is nothing to write. -/
def Json.present (name : String) (value : Option Json) : List (String × Json) :=
  value.toList.map fun v => (name, v)

/-- A field of a derived record; `none` if it occurs twice. -/
def Json.field (fields : List (String × Json)) (name : String) : Option (Option Json) :=
  match fields.filter fun f => f.1 = name with
  | [] => some none
  | [f] => some (some f.2)
  | _ => none

def Json.asString : Json → Option String
  | .string value => some value
  | _ => none

def Json.asBool : Json → Option Bool
  | .bool value => some value
  | _ => none

def Json.asU64 : Json → Option ℕ
  | .number (.int value) => if 0 ≤ value ∧ value ≤ maxU64 then some value.toNat else none
  | _ => none

/-- An `Option` field: missing and null are both `None`. -/
def Json.asOption {α : Type} (read : Json → Option α) : Option Json → Option (Option α)
  | none | some .null => some none
  | some value => (read value).map some

/-- A field with `#[serde(default)]`: only a missing one is the default. -/
def Json.orDefault {α : Type} (default : α) (read : Json → Option α) : Option Json → Option α
  | none => some default
  | some value => read value

/-- The name of a unit variant, plain or as a single key with a null. -/
def Json.asVariant : Json → Option String
  | .string name => some name
  | .object [(name, .null)] => some name
  | _ => none

theorem Json.filter_present (name key : String) (value : Option Json) :
    (Json.present key value).filter (fun f => f.1 = name) =
      if key = name then Json.present key value else [] := by
  unfold Json.present
  split
  · rename_i h
    subst h
    simp [List.filter_eq_self]
  · rename_i h
    simp [List.filter_eq_nil_iff, h]

theorem Json.field_of_filter {fields : List (String × Json)} {name : String} {value : Option Json}
    (h : fields.filter (fun f => f.1 = name) = Json.present name value) :
    Json.field fields name = some value := by
  unfold Json.field
  cases value with
  | none => rw [h]; rfl
  | some v => rw [h]; rfl

/-- Reading any field of a record that was written with distinct field names. -/
theorem Json.field_flatMap {members : List (String × Option Json)}
    (hnodup : (members.map (·.1)).Nodup) {name : String} {value : Option Json}
    (hmem : (name, value) ∈ members) :
    Json.field (members.flatMap fun f => Json.present f.1 f.2) name = some value := by
  apply Json.field_of_filter
  induction members with
  | nil => cases hmem
  | cons f fs ih =>
    rw [List.map_cons, List.nodup_cons] at hnodup
    rw [List.flatMap_cons, List.filter_append, Json.filter_present]
    rcases List.mem_cons.mp hmem with rfl | hmem
    · have hrest : (fs.flatMap fun f => Json.present f.1 f.2).filter (fun f => f.1 = name) = [] := by
        rw [List.filter_eq_nil_iff]
        intro f hf
        obtain ⟨g, hg, hfg⟩ := List.mem_flatMap.mp hf
        obtain ⟨v, -, rfl⟩ := List.mem_map.mp hfg
        simp only [decide_eq_true_eq]
        rintro rfl
        exact hnodup.1 (List.mem_map.mpr ⟨g, hg, rfl⟩)
      simp [hrest]
    · have hne : f.1 ≠ name := by
        rintro rfl
        exact hnodup.1 (List.mem_map_of_mem (f := (·.1)) hmem)
      rw [if_neg hne, List.nil_append]
      exact ih hnodup.2 hmem

/-- A record as its members, a `none` for each one that is skipped. -/
def Json.record (members : List (String × Option Json)) : Json :=
  .object (members.flatMap fun f => Json.present f.1 f.2)

def Operation.wireName : Operation → String
  | .upsert => "upsert"
  | .delete => "delete"

def Operation.read (value : Json) : Option Operation :=
  match value.asVariant with
  | some "upsert" => some .upsert
  | some "delete" => some .delete
  | _ => none

def LocalProtocolStatus.wireName : LocalProtocolStatus → String
  | .pending => "pending"
  | .confirmed => "confirmed"

def LocalProtocolStatus.read (value : Json) : Option LocalProtocolStatus :=
  match value.asVariant with
  | some "pending" => some .pending
  | some "confirmed" => some .confirmed
  | _ => none

theorem Operation.read_wireName (operation : Operation) :
    Operation.read (.string operation.wireName) = some operation := by
  cases operation <;> rfl

namespace ProtocolMutation

def members (m : ProtocolMutation) : List (String × Option Json) :=
  [("mutationId", some (.string m.mutationId)),
    ("operation", some (.string m.operation.wireName)),
    ("table", some (.string m.table)),
    ("recordId", some (.string m.recordId)),
    ("payload", m.payload),
    ("baseRevision", m.baseRevision.map Json.string),
    ("resurrect", if m.resurrect = false then none else some (.bool m.resurrect)),
    ("status", if m.status = .pending then none else some (.string m.status.wireName))]

def serialize (m : ProtocolMutation) : Json := .record m.members

def deserialize : Json → Option ProtocolMutation
  | .object fields => do
    let mutationId ← (← Json.field fields "mutationId").bind Json.asString
    let operation ← (← Json.field fields "operation").bind Operation.read
    let table ← (← Json.field fields "table").bind Json.asString
    let recordId ← (← Json.field fields "recordId").bind Json.asString
    let payload ← Json.asOption some (← Json.field fields "payload")
    let baseRevision ← Json.asOption Json.asString (← Json.field fields "baseRevision")
    let resurrect ← Json.orDefault false Json.asBool (← Json.field fields "resurrect")
    let status ← Json.orDefault .pending LocalProtocolStatus.read (← Json.field fields "status")
    some { mutationId, operation, table, recordId, payload, baseRevision, resurrect, status }
  | _ => none

/-- The row with its payload as it is read back. -/
def reread (readFloat : String → String) (m : ProtocolMutation) : ProtocolMutation :=
  { m with payload := m.payload.map (Json.rereadFloats readFloat) }

theorem field_members (m : ProtocolMutation) (name : String) (value : Option Json)
    (h : (name, value) ∈ m.members) :
    Json.field (m.members.flatMap fun f => Json.present f.1 f.2) name = some value := by
  have hnodup : (m.members.map (·.1)).Nodup := by
    have : m.members.map (·.1) = ["mutationId", "operation", "table", "recordId", "payload",
      "baseRevision", "resurrect", "status"] := rfl
    rw [this]
    decide
  exact Json.field_flatMap hnodup h

theorem deserialize_serialize {m : ProtocolMutation} (h : m.payload ≠ some .null) :
    deserialize m.serialize = some m := by
  have hpayload : Json.asOption some m.payload = some m.payload := by
    cases hp : m.payload with
    | none => rfl
    | some payload =>
      have hnull : payload ≠ .null := by rintro rfl; exact h hp
      cases payload with
      | null => exact absurd rfl hnull
      | bool _ | number _ | string _ | array _ | object _ => rfl
  have hbase : Json.asOption Json.asString (m.baseRevision.map Json.string) =
      some m.baseRevision := by
    cases m.baseRevision <;> rfl
  have hresurrect : Json.orDefault false Json.asBool
      (if m.resurrect = false then none else some (.bool m.resurrect)) = some m.resurrect := by
    cases m.resurrect <;> rfl
  have hstatus : Json.orDefault .pending LocalProtocolStatus.read
      (if m.status = .pending then none else some (.string m.status.wireName)) = some m.status := by
    cases m.status <;> rfl
  have hf := fun name value => field_members m name value
  have hfid := hf "mutationId" _ (by simp [members]; rfl)
  have hfop := hf "operation" _ (by simp [members]; rfl)
  have hftable := hf "table" _ (by simp [members]; rfl)
  have hfrecord := hf "recordId" _ (by simp [members]; rfl)
  have hfpayload := hf "payload" _ (by simp [members]; rfl)
  have hfbase := hf "baseRevision" _ (by simp [members]; rfl)
  have hfresurrect := hf "resurrect" _ (by simp [members]; rfl)
  have hfstatus := hf "status" _ (by simp [members]; rfl)
  simp only [serialize, Json.record, deserialize, hfid, hfop, hftable, hfrecord, hfpayload, hfbase,
    hfresurrect, hfstatus, Option.bind_eq_bind, Option.bind_some, Json.asString,
    Operation.read_wireName, hpayload, hbase, hresurrect, hstatus]

theorem mapM_deserialize_serialize {ms : List ProtocolMutation}
    (h : ∀ m ∈ ms, m.payload ≠ some .null) :
    (ms.map serialize).mapM deserialize = some ms := by
  induction ms with
  | nil => rfl
  | cons m ms ih =>
    rw [List.map_cons, List.mapM_cons, deserialize_serialize (h m (by simp)),
      ih fun x hx => h x (by simp [hx])]
    rfl

end ProtocolMutation

def readPolicy (field : String × Json) : Option (String × String) :=
  field.2.asString.map fun value => (field.1, value)

/-- `BTreeMap<String, String>`: a later entry replaces an earlier one. -/
def readPolicies : Json → Option (Std.ExtTreeMap String String compare)
  | .object fields => (fields.mapM readPolicy).map fun entries => .ofList entries compare
  | _ => none

theorem readPolicies_serialize (map : Std.ExtTreeMap String String compare) :
    readPolicies (.object (map.toList.map fun entry => (entry.1, .string entry.2))) = some map := by
  have hread : ∀ entries : List (String × String),
      (entries.map fun entry => (entry.1, Json.string entry.2)).mapM readPolicy = some entries := by
    intro entries
    induction entries with
    | nil => rfl
    | cons e es ih =>
      rw [List.map_cons, List.mapM_cons, ih]
      rfl
  rw [readPolicies, hread, Option.map_some, Entries.ofList_toList]

namespace ProtocolQueue

def members (q : ProtocolQueue) : List (String × Option Json) :=
  [("clientId", some (.string q.clientId)),
    ("nextMutationId", some (.number (.int q.nextMutationId))),
    ("checkpoint", some (.string q.checkpoint)),
    ("mutations", some (.array (q.mutations.map ProtocolMutation.serialize))),
    ("maxPendingMutations", some (.number (.int q.maxPendingMutations))),
    ("maxQueuedPayloadBytes", some (.number (.int q.maxQueuedPayloadBytes))),
    ("consistencyPolicies", if q.consistencyPolicies = ∅ then none else
      some (.object (q.consistencyPolicies.toList.map fun entry => (entry.1, .string entry.2))))]

def serialize (q : ProtocolQueue) : Json := .record q.members

def readMutations : Json → Option (List ProtocolMutation)
  | .array items => items.mapM ProtocolMutation.deserialize
  | _ => none

/-- The derived reader of the wire record, then the validation. -/
def deserialize (toText : Json → String) : Json → Option ProtocolQueue
  | .object fields => do
    let clientId ← (← Json.field fields "clientId").bind Json.asString
    let nextMutationId ← (← Json.field fields "nextMutationId").bind Json.asU64
    let checkpoint ← (← Json.field fields "checkpoint").bind Json.asString
    let mutations ← (← Json.field fields "mutations").bind readMutations
    let maxPendingMutations ← Json.orDefault defaultMaxPendingMutations Json.asU64
      (← Json.field fields "maxPendingMutations")
    let maxQueuedPayloadBytes ← Json.orDefault defaultMaxQueuedPayloadBytes Json.asU64
      (← Json.field fields "maxQueuedPayloadBytes")
    let consistencyPolicies ← Json.orDefault ∅ readPolicies
      (← Json.field fields "consistencyPolicies")
    let queue : ProtocolQueue :=
      { clientId, nextMutationId, checkpoint, mutations, maxPendingMutations,
        maxQueuedPayloadBytes, consistencyPolicies }
    match queue.validate toText with
    | .ok () => some queue
    | .error _ => none
  | _ => none

theorem field_members (q : ProtocolQueue) (name : String) (value : Option Json)
    (h : (name, value) ∈ q.members) :
    Json.field (q.members.flatMap fun f => Json.present f.1 f.2) name = some value := by
  have hnodup : (q.members.map (·.1)).Nodup := by
    have : q.members.map (·.1) = ["clientId", "nextMutationId", "checkpoint", "mutations",
      "maxPendingMutations", "maxQueuedPayloadBytes", "consistencyPolicies"] := rfl
    rw [this]
    decide
  exact Json.field_flatMap hnodup h

theorem asU64_int (n : ℕ) :
    Json.asU64 (.number (.int n)) = if n ≤ maxU64 then some n else none := by
  by_cases h : n ≤ maxU64
  · have hn : (n : ℤ) ≤ (maxU64 : ℤ) := by exact_mod_cast h
    simp [Json.asU64, h, hn]
  · have hn : ¬ (n : ℤ) ≤ (maxU64 : ℤ) := by exact_mod_cast h
    simp [Json.asU64, h, hn]

/-- The counters fit their machine type. -/
structure Fits (q : ProtocolQueue) : Prop where
  next : q.nextMutationId ≤ maxU64
  maxPending : q.maxPendingMutations ≤ maxU64
  maxBytes : q.maxQueuedPayloadBytes ≤ maxU64

/-- The document of a queue reads back as that queue, if it is valid. -/
theorem deserialize_serialize {toText : Json → String} {q d : ProtocolQueue}
    (hnull : ∀ m ∈ q.mutations, m.payload ≠ some .null) :
    deserialize toText q.serialize = some d ↔ Fits q ∧ q = d ∧ q.validate toText = .ok () := by
  have hf := fun name value => field_members q name value
  have hfclient := hf "clientId" _ (by simp [members]; rfl)
  have hfnext := hf "nextMutationId" _ (by simp [members]; rfl)
  have hfcheckpoint := hf "checkpoint" _ (by simp [members]; rfl)
  have hfmutations := hf "mutations" _ (by simp [members]; rfl)
  have hfpending := hf "maxPendingMutations" _ (by simp [members]; rfl)
  have hfbytes := hf "maxQueuedPayloadBytes" _ (by simp [members]; rfl)
  have hfpolicies := hf "consistencyPolicies" _ (by simp [members]; rfl)
  have hpolicies : Json.orDefault ∅ readPolicies
      (if q.consistencyPolicies = ∅ then none else
        some (.object (q.consistencyPolicies.toList.map fun entry => (entry.1, .string entry.2)))) =
      some q.consistencyPolicies := by
    split
    · rename_i h
      rw [h]
      rfl
    · exact readPolicies_serialize q.consistencyPolicies
  have hlimit : ∀ (d n : ℕ), Json.orDefault d Json.asU64 (some (.number (.int n))) =
      if n ≤ maxU64 then some n else none := fun d n => asU64_int n
  have hread : deserialize toText q.serialize =
      if q.nextMutationId ≤ maxU64 ∧ q.maxPendingMutations ≤ maxU64 ∧
          q.maxQueuedPayloadBytes ≤ maxU64 then
        match q.validate toText with
        | .ok () => some q
        | .error _ => none
      else none := by
    simp only [serialize, Json.record, deserialize, hfclient, hfnext, hfcheckpoint, hfmutations,
      hfpending, hfbytes, hfpolicies, Option.bind_eq_bind, Option.bind_some, Json.asString,
      hlimit, asU64_int, readMutations, hpolicies,
      ProtocolMutation.mapM_deserialize_serialize hnull]
    by_cases hnext : q.nextMutationId ≤ maxU64 <;>
      by_cases hmaxPending : q.maxPendingMutations ≤ maxU64 <;>
      by_cases hmaxBytes : q.maxQueuedPayloadBytes ≤ maxU64 <;>
      simp [hnext, hmaxPending, hmaxBytes]
  have hfits : Fits q ↔ q.nextMutationId ≤ maxU64 ∧ q.maxPendingMutations ≤ maxU64 ∧
      q.maxQueuedPayloadBytes ≤ maxU64 :=
    ⟨fun h => ⟨h.next, h.maxPending, h.maxBytes⟩, fun h => ⟨h.1, h.2.1, h.2.2⟩⟩
  rw [hread, hfits, Option.ite_none_right_eq_some]
  refine and_congr_right fun _ => ?_
  cases q.validate toText <;> simp

end ProtocolQueue
end OptoSync
