import OptoSync.ProtocolQueueWire

/-!
# Which queues survive their durable text

The text is written by `serde_json::to_string` and read by `serde_json::from_str`, whose default
reader refuses a document nested more than 127 deep and reads floats with limited precision.
`reparse` stands for the two together.
-/
namespace OptoSync
open Decimal Transition

/-- What `serde_json` documents about printing a document and reading the text. -/
structure SerdeText (reparse : Json → Option Json) (readFloat : String → String) : Prop where
  shallow : ∀ doc, doc.depth ≤ 127 → reparse doc = some (doc.rereadFloats readFloat)
  deep : ∀ doc, 127 < doc.depth → reparse doc = none

theorem Json.rereadFloats_record (readFloat : String → String)
    (members : List (String × Option Json)) :
    (Json.record members).rereadFloats readFloat =
      .record (members.map fun f => (f.1, f.2.map (Json.rereadFloats readFloat))) := by
  simp only [Json.record, Json.rereadFloats, Json.rereadFields_eq_map, List.map_flatMap,
    List.flatMap_map, Json.object.injEq]
  congr 1
  funext f
  cases f.2 <;> rfl

theorem Json.eq_null_of_rereadFloats {readFloat : String → String} {v : Json}
    (h : v.rereadFloats readFloat = .null) : v = .null := by
  cases v with
  | null => rfl
  | number value => cases value <;> cases h
  | bool _ | string _ | array _ | object _ => cases h

theorem Json.depth_record_le {members : List (String × Option Json)} {n : ℕ} :
    (Json.record members).depth ≤ n + 1 ↔ ∀ f ∈ members, ∀ v, f.2 = some v → v.depth ≤ n := by
  simp only [Json.record, Json.depth, Nat.add_le_add_iff_right, Json.depthFields_le,
    List.mem_flatMap]
  constructor
  · intro h f hf v hv
    exact h (f.1, v) ⟨f, hf, by simp [Json.present, hv]⟩
  · rintro h g ⟨f, hf, hg⟩
    obtain ⟨v, hv, rfl⟩ := List.mem_map.mp hg
    exact h f hf v (Option.mem_toList.mp hv)

namespace ProtocolMutation

theorem serialize_reread (readFloat : String → String) (m : ProtocolMutation) :
    m.serialize.rereadFloats readFloat = (m.reread readFloat).serialize := by
  have hbase : (m.baseRevision.map Json.string).map (Json.rereadFloats readFloat) =
      m.baseRevision.map Json.string := by
    cases m.baseRevision <;> rfl
  have hresurrect : (if m.resurrect = false then none else some (.bool m.resurrect)).map
      (Json.rereadFloats readFloat) =
      if m.resurrect = false then none else some (.bool m.resurrect) := by
    split <;> rfl
  have hstatus : (if m.status = .pending then none else some (.string m.status.wireName)).map
      (Json.rereadFloats readFloat) =
      if m.status = .pending then none else some (.string m.status.wireName) := by
    split <;> rfl
  simp only [serialize, Json.rereadFloats_record, members, reread, List.map_cons, List.map_nil,
    hbase, hresurrect, hstatus, Option.map_some, Json.rereadFloats]
  rfl

/-- The payload is the only member of a row with a depth. -/
theorem depth_serialize_le {m : ProtocolMutation} {n : ℕ} :
    m.serialize.depth ≤ n + 1 ↔ ∀ payload, m.payload = some payload → payload.depth ≤ n := by
  rw [serialize, Json.depth_record_le]
  constructor
  · intro h payload hp
    exact h ("payload", m.payload) (by simp [members]) payload hp
  · intro h f hf v hv
    simp only [members, List.mem_cons, List.not_mem_nil, or_false] at hf
    rcases hf with rfl | rfl | rfl | rfl | rfl | rfl | rfl | rfl
    · cases hv
      exact Nat.zero_le _
    · cases hv
      exact Nat.zero_le _
    · cases hv
      exact Nat.zero_le _
    · cases hv
      exact Nat.zero_le _
    · exact h v hv
    · obtain ⟨revision, -, rfl⟩ := Option.map_eq_some_iff.mp hv
      exact Nat.zero_le _
    · dsimp only at hv
      split at hv
      · cases hv
      · cases hv
        exact Nat.zero_le _
    · dsimp only at hv
      split at hv
      · cases hv
      · cases hv
        exact Nat.zero_le _

end ProtocolMutation

namespace ProtocolQueue

def reread (readFloat : String → String) (q : ProtocolQueue) : ProtocolQueue :=
  { q with mutations := q.mutations.map (·.reread readFloat) }

theorem serialize_reread (readFloat : String → String) (q : ProtocolQueue) :
    q.serialize.rereadFloats readFloat = (q.reread readFloat).serialize := by
  have hmutations : Json.rereadItems readFloat (q.mutations.map ProtocolMutation.serialize) =
      (q.mutations.map (·.reread readFloat)).map ProtocolMutation.serialize := by
    simp [Json.rereadItems_eq_map, ProtocolMutation.serialize_reread, Function.comp_def]
  have hpolicies : (if q.consistencyPolicies = ∅ then none else
      some (.object (q.consistencyPolicies.toList.map fun e => (e.1, .string e.2)))).map
      (Json.rereadFloats readFloat) = if q.consistencyPolicies = ∅ then none else
      some (.object (q.consistencyPolicies.toList.map fun e => (e.1, .string e.2))) := by
    split
    · rfl
    · simp [Json.rereadFloats, Json.rereadFields_eq_map, Function.comp_def]
  simp only [serialize, Json.rereadFloats_record, members, reread, List.map_cons, List.map_nil,
    hpolicies, hmutations, Option.map_some, Json.rereadFloats]
  rfl

theorem depth_serialize_le {q : ProtocolQueue} {n : ℕ} :
    q.serialize.depth ≤ n + 3 ↔ ∀ m ∈ q.mutations, m.serialize.depth ≤ n + 1 := by
  rw [serialize, Json.depth_record_le]
  constructor
  · intro h m hm
    have hitems := h ("mutations", _) (by simp [members]; rfl) _ rfl
    simp only [Json.depth, Nat.add_le_add_iff_right, Json.depthItems_le] at hitems
    exact hitems _ (List.mem_map_of_mem hm)
  · intro h f hf v hv
    simp only [members, List.mem_cons, List.not_mem_nil, or_false] at hf
    rcases hf with rfl | rfl | rfl | rfl | rfl | rfl | rfl
    · cases hv
      exact Nat.zero_le _
    · cases hv
      exact Nat.zero_le _
    · cases hv
      exact Nat.zero_le _
    · cases hv
      simp only [Json.depth, Nat.add_le_add_iff_right, Json.depthItems_le]
      intro x hx
      obtain ⟨m, hm, rfl⟩ := List.mem_map.mp hx
      exact h m hm
    · cases hv
      exact Nat.zero_le _
    · cases hv
      exact Nat.zero_le _
    · dsimp only at hv
      split at hv
      · cases hv
      · cases hv
        simp only [Json.depth]
        have : Json.depthFields (q.consistencyPolicies.toList.map fun e => (e.1, .string e.2)) ≤ 0 :=
          Json.depthFields_le.mpr fun f hf => by
            obtain ⟨e, -, rfl⟩ := List.mem_map.mp hf
            exact le_rfl
        omega

/-- Write the queue and load it again. -/
def readBack (toText : Json → String) (reparse : Json → Option Json) (q : ProtocolQueue) :
    Option ProtocolQueue :=
  (reparse q.serialize).bind (deserialize toText)

/-- A queue that can be persisted, and is loaded as itself. -/
def Durable (toText : Json → String) (reparse : Json → Option Json) (q : ProtocolQueue) : Prop :=
  q.validate toText = .ok () ∧ q.readBack toText reparse = some q

/-- What a row needs to survive its queue's text. -/
structure Storable (readFloat : String → String) (m : ProtocolMutation) : Prop where
  base : BaseCanonical m
  depth : ∀ payload, m.payload = some payload → payload.depth ≤ 124
  floats : ∀ payload, m.payload = some payload → payload.rereadFloats readFloat = payload

variable {toText : Json → String} {reparse : Json → Option Json} {readFloat : String → String}
  {q : ProtocolQueue} {rows : List ProtocolMutation} {w : ℕ}

theorem reread_eq_self_iff : q.reread readFloat = q ↔
    ∀ m ∈ q.mutations, ∀ payload, m.payload = some payload →
      payload.rereadFloats readFloat = payload := by
  have hrows : q.reread readFloat = q ↔ q.mutations.map (·.reread readFloat) = q.mutations := by
    constructor
    · intro h
      exact congrArg (·.mutations) h
    · intro h
      simp only [reread, h]
  rw [hrows]
  conv_lhs => rw [← List.map_id q.mutations, List.map_map]
  rw [List.map_inj_left]
  refine forall₂_congr fun m hm => ?_
  obtain ⟨mutationId, operation, table, recordId, payload, baseRevision, resurrect, status⟩ := m
  cases payload <;> simp [ProtocolMutation.reread]

theorem Admitted.payload_ne_null {maxBytes : ℕ} {m : ProtocolMutation}
    (h : Admitted toText maxBytes m) : m.payload ≠ some .null := by
  have hc := h.content
  cases hop : m.operation with
  | upsert =>
    rw [hop] at hc
    obtain ⟨payload, hp, hobj, -⟩ := hc
    rw [hp]
    rintro ⟨rfl⟩
    simp [Json.isObject] at hobj
  | delete =>
    rw [hop] at hc
    simp [hc.1]

theorem Reached.payload_ne_null (h : Reached toText q rows w) {m : ProtocolMutation}
    (hm : m ∈ q.mutations) : m.payload ≠ some .null := by
  obtain ⟨r, hr, hmr⟩ := h.mem_row hm
  have := (h.admitted r hr).payload_ne_null
  rcases hmr with rfl | rfl
  · exact this
  · exact this

theorem Valid.payload_ne_null (h : Valid toText q) {m : ProtocolMutation} (hm : m ∈ q.mutations) :
    m.payload ≠ some .null :=
  (h.rows m hm).toAdmitted.payload_ne_null

/-- Reading back a queue, its text taken apart. -/
theorem readBack_eq_some (hs : SerdeText reparse readFloat)
    (hnull : ∀ m ∈ q.mutations, m.payload ≠ some .null) {d : ProtocolQueue} :
    q.readBack toText reparse = some d ↔
      Fits q ∧ q.serialize.depth ≤ 127 ∧ q.reread readFloat = d ∧ d.validate toText = .ok () := by
  unfold readBack
  by_cases hdepth : q.serialize.depth ≤ 127
  · have hnull' : ∀ m ∈ (q.reread readFloat).mutations, m.payload ≠ some .null := by
      intro m hm
      obtain ⟨r, hr, rfl⟩ := List.mem_map.mp hm
      have hrn := hnull r hr
      unfold ProtocolMutation.reread
      cases hp : r.payload with
      | none => simp
      | some payload =>
        rw [hp] at hrn
        exact fun hnull => hrn (by rw [Json.eq_null_of_rereadFloats (Option.some.inj hnull)])
    have hfits : Fits (q.reread readFloat) ↔ Fits q :=
      ⟨fun h => ⟨h.next, h.maxPending, h.maxBytes⟩, fun h => ⟨h.next, h.maxPending, h.maxBytes⟩⟩
    rw [hs.shallow _ hdepth, Option.bind_some, serialize_reread, deserialize_serialize hnull', hfits,
      and_iff_right hdepth]
    refine and_congr_right fun _ => and_congr_right fun h => ?_
    rw [h]
  · rw [hs.deep _ (by omega), Option.bind_none]
    simp [hdepth]

/-- A reached queue is durable exactly when its rows are storable. -/
theorem Reached.durable_iff (h : Reached toText q rows w) (hs : SerdeText reparse readFloat)
    (hpending : q.maxPendingMutations ≤ maxU64) (hbytes : q.maxQueuedPayloadBytes ≤ maxU64) :
    Durable toText reparse q ↔ ∀ m ∈ q.mutations, Storable readFloat m := by
  have hnext : q.nextMutationId ≤ maxU64 := by
    have := h.next
    have := h.bound
    simp only [maxI64, maxU64] at *
    omega
  have hfits : Fits q := ⟨hnext, hpending, hbytes⟩
  rw [Durable, readBack_eq_some hs fun m hm => h.payload_ne_null hm, validate_eq_ok, h.valid_iff,
    reread_eq_self_iff, depth_serialize_le (n := 124), and_iff_right hfits]
  constructor
  · rintro ⟨hbase, hdepth, hfloats, -⟩ m hm
    exact ⟨hbase m hm, ProtocolMutation.depth_serialize_le.mp (hdepth m hm), hfloats m hm⟩
  · intro hrows
    exact ⟨fun m hm => (hrows m hm).base,
      fun m hm => ProtocolMutation.depth_serialize_le.mpr (hrows m hm).depth,
      fun m hm => (hrows m hm).floats, fun m hm => (hrows m hm).base⟩

/-- The rows and limits of a run from `new`, as far as durability needs them. -/
structure DefaultReached (toText : Json → String) (q : ProtocolQueue) : Prop where
  reached : ∃ rows w, Reached toText q rows w
  maxPending : q.maxPendingMutations = defaultMaxPendingMutations
  maxBytes : q.maxQueuedPayloadBytes = defaultMaxQueuedPayloadBytes

theorem DefaultReached.new {clientId : String} (h : new clientId = .ok q) :
    DefaultReached toText q := by
  have hreached : Reached toText q [] 0 := Reached.of_withLimits h
  unfold ProtocolQueue.new withLimits at h
  split_ifs at h
  cases h
  exact ⟨⟨[], 0, hreached⟩, rfl, rfl⟩

theorem Follows.limits {call : QueueCall} {rows' : List ProtocolMutation} {w' : ℕ}
    (hf : Follows toText q rows w call rows' w') :
    (call.perform toText q).2.maxPendingMutations = q.maxPendingMutations ∧
      (call.perform toText q).2.maxQueuedPayloadBytes = q.maxQueuedPayloadBytes := by
  have heffect := hf.effect
  cases hout : (call.perform toText q).1 with
  | allocated id =>
    rw [hout] at heffect
    obtain ⟨-, m, -, -, henq, -⟩ := heffect
    exact ⟨henq.maxPending, henq.maxBytes⟩
  | request request =>
    rw [hout] at heffect
    exact ⟨heffect.2.1.maxPending, heffect.2.1.maxBytes⟩
  | acknowledged n | moved | pruned n | refused =>
    rw [hout] at heffect
    exact ⟨heffect.2.maxPending, heffect.2.maxBytes⟩

theorem DefaultReached.perform (h : DefaultReached toText q) (call : QueueCall) :
    DefaultReached toText (call.perform toText q).2 := by
  obtain ⟨rows, w, hr⟩ := h.reached
  obtain ⟨rows', w', hf⟩ := hr.perform toText call
  obtain ⟨hpending, hbytes⟩ := hf.limits
  exact ⟨⟨rows', w', hr.follows hf⟩, hpending.trans h.maxPending, hbytes.trans h.maxBytes⟩

theorem DefaultReached.durable_iff (h : DefaultReached toText q)
    (hs : SerdeText reparse readFloat) :
    Durable toText reparse q ↔ ∀ m ∈ q.mutations, Storable readFloat m := by
  obtain ⟨rows, w, hr⟩ := h.reached
  have hpending := h.maxPending
  have hbytes := h.maxBytes
  refine hr.durable_iff hs ?_ ?_
  · rw [hpending]
    decide
  · rw [hbytes]
    decide

/-- If the call is an accepted enqueue, its row is storable. -/
def EnqueuesStorable (toText : Json → String) (readFloat : String → String) (q : ProtocolQueue)
    (call : QueueCall) : Prop :=
  ∀ id m, (call.perform toText q).1 = .allocated id → call.row id = some m → Storable readFloat m

theorem Storable.confirm {m : ProtocolMutation} (h : Storable readFloat m) :
    Storable readFloat m.confirm :=
  ⟨h.base, h.depth, h.floats⟩

/-- The step lemma: from a durable queue, a call leads to a durable one exactly when it does not
accept an unstorable row. -/
theorem durable_perform_iff (h : DefaultReached toText q) (hs : SerdeText reparse readFloat)
    (hd : Durable toText reparse q) (call : QueueCall) :
    Durable toText reparse (call.perform toText q).2 ↔ EnqueuesStorable toText readFloat q call := by
  have hrows := (h.durable_iff hs).mp hd
  rw [(h.perform call).durable_iff hs]
  obtain ⟨rows, w, hr⟩ := h.reached
  obtain ⟨rows', w', hf⟩ := hr.perform toText call
  have heffect := hf.effect
  have hkeeps : Keeps q (call.perform toText q).2 →
      ∀ m ∈ (call.perform toText q).2.mutations, Storable readFloat m := by
    intro hk m hm
    obtain ⟨r, hr, hmr⟩ := hk.mutations m hm
    rcases hmr with rfl | rfl
    · exact hrows m hr
    · exact (hrows r hr).confirm
  unfold EnqueuesStorable
  cases hout : (call.perform toText q).1 with
  | allocated id =>
    rw [hout] at heffect
    obtain ⟨rfl, m, hrow, -, henq, -⟩ := heffect
    rw [henq.mutations]
    constructor
    · intro hall id' m' hid hrow'
      cases hid
      rw [hrow, Option.some.injEq] at hrow'
      exact hrow' ▸ hall m (by simp)
    · intro hnew r hr
      rcases List.mem_append.mp hr with hr | hr
      · exact hrows r hr
      · rw [List.mem_singleton.mp hr]
        exact hnew _ m rfl hrow
  | request request =>
    rw [hout] at heffect
    exact ⟨fun _ id m hid => (by cases hid), fun _ => hkeeps heffect.2.1⟩
  | acknowledged n | moved | pruned n | refused =>
    rw [hout] at heffect
    exact ⟨fun _ id m hid => (by cases hid), fun _ => hkeeps heffect.2⟩

/-- Along a run from a new queue, every queue can be persisted and is loaded as itself exactly when
every accepted enqueue has a base revision in canonical form and a payload that its text
preserves. -/
theorem run_durable_iff (toText : Json → String) {clientId : String} (hnew : new clientId = .ok q)
    (hs : SerdeText reparse readFloat) (calls : List QueueCall) :
    StatesMeet (fun q (call : QueueCall) => (call.perform toText q).2) (Durable toText reparse) q
        calls ↔
      StepsMeet (fun q (call : QueueCall) => (call.perform toText q).2)
        (EnqueuesStorable toText readFloat) q calls := by
  have hreached : DefaultReached toText q := DefaultReached.new hnew
  have hfirst : Durable toText reparse q := by
    rw [hreached.durable_iff hs]
    unfold ProtocolQueue.new withLimits at hnew
    split_ifs at hnew
    cases hnew
    simp [empty]
  exact statesMeet_iff_stepsMeet (I := DefaultReached toText)
    (fun _ call h => h.perform call)
    (fun _ call h hd => durable_perform_iff h hs hd call) hreached hfirst calls

theorem run_durable_iff_empty :
    StatesMeet (fun q (call : QueueCall) => (call.perform (fun _ => "") q).2)
      (Durable (fun _ => "") fun doc => if doc.depth ≤ 127 then some (doc.rereadFloats id) else none)
      (empty "client" defaultMaxPendingMutations defaultMaxQueuedPayloadBytes)
      [.queueDelete "todos" "a" (some "1") none] := by
  have hnew : new "client" =
      .ok (empty "client" defaultMaxPendingMutations defaultMaxQueuedPayloadBytes) := by decide
  have hs : SerdeText (fun doc => if doc.depth ≤ 127 then some (doc.rereadFloats id) else none) id :=
    ⟨fun doc h => if_pos h, fun doc h => if_neg (by omega)⟩
  refine (run_durable_iff (fun _ => "") hnew hs _).mpr ⟨fun id m _ hrow => ?_, trivial⟩
  cases hrow
  refine ⟨fun revision h => ?_, fun payload h => ?_, fun payload h => ?_⟩
  · cases h
    decide
  · cases h
  · cases h

/-- An accepted delete with the base revision `01` leaves a queue that validation refuses. -/
theorem run_not_valid :
    new "client" = .ok (empty "client" defaultMaxPendingMutations defaultMaxQueuedPayloadBytes) ∧
    ((QueueCall.queueDelete "todos" "a" (some "01") none).perform (fun _ => "")
      (empty "client" defaultMaxPendingMutations defaultMaxQueuedPayloadBytes)).1 =
        .allocated "1" ∧
    ¬ StatesMeet (fun q (call : QueueCall) => (call.perform (fun _ => "") q).2)
      (fun q => q.validate (fun _ => "") = .ok ())
      (empty "client" defaultMaxPendingMutations defaultMaxQueuedPayloadBytes)
      [.queueDelete "todos" "a" (some "01") none] := by
  refine ⟨by decide, by decide, fun h => ?_⟩
  have hsecond : ((QueueCall.queueDelete "todos" "a" (some "01") none).perform (fun _ => "")
      (empty "client" defaultMaxPendingMutations defaultMaxQueuedPayloadBytes)).2.validate
      (fun _ => "") = .ok () := h.2
  exact absurd hsecond (by decide)

end ProtocolQueue
end OptoSync
