import OptoSync.Entries
import OptoSync.JsonText
import OptoSync.RidlFrame

/-!
# The codec of ridl frames

What `RidlFrame` writes, alone and in a stream of frames with their lengths before them, and that it
is read back. `dart:convert` is a parameter.
-/
namespace OptoSync.Ridl

/-- `jsonEncode` and `jsonDecode` on what Dart holds. -/
structure JsonConvert where
  jsonEncode : Json → String
  jsonDecode : String → Option Json
  Held : Json → Prop
  held_null : Held .null
  held_string : ∀ value, Held (.string value)
  held_int : ∀ value, -2 ^ 63 ≤ value → value < 2 ^ 63 → Held (.number (.int value))
  held_array : ∀ items, (∀ v ∈ items, Held v) → Held (.array items)
  held_object : ∀ fields, (fields.map Prod.fst).Nodup → (∀ f ∈ fields, Held f.2) →
    Held (.object fields)
  decode_encode : ∀ v, Held v → jsonDecode (jsonEncode v) = some v

/-- The order of the keys. -/
def keyOrder : List String :=
  ["v", "id", "t", "key", "method", "path", "query", "body", "code", "message", "meta"]

def queryJson (query : List (List String)) : Json :=
  .array (query.map fun pair => .array (pair.map .string))

/-- A big-endian `uint32`. -/
def uint32 (value : ℕ) : List UInt8 :=
  [value / 2 ^ 24, value / 2 ^ 16, value / 2 ^ 8, value].map UInt8.ofNat

namespace RidlFrame

/-- The values under the keys; one that is `null` is left out. -/
def slots (frame : RidlFrame) : List (String × Option Json) :=
  [("v", some (.number (.int frame.version))), ("id", some (.string frame.id)),
    ("t", some (.string frame.type.wire)), ("key", frame.key.map .string),
    ("method", frame.method.map .string), ("path", frame.path.map .string),
    ("query", frame.query.map queryJson), ("body", if frame.hasBody then some frame.body else none),
    ("code", frame.code.map .string), ("message", frame.message.map .string),
    ("meta", frame.meta_.map .object)]

def toJson (frame : RidlFrame) : List (String × Json) :=
  frame.slots.filterMap fun slot => slot.2.map fun value => (slot.1, value)

def encode (convert : JsonConvert) (frame : RidlFrame) : String :=
  convert.jsonEncode (.object frame.toJson)

def encodeBytes (convert : JsonConvert) (frame : RidlFrame) : List UInt8 :=
  (frame.encode convert).toUTF8.data.toList

def encodeWithLengthPrefix (convert : JsonConvert) (frame : RidlFrame) : List UInt8 :=
  let payload := frame.encodeBytes convert
  uint32 payload.length ++ payload

def call (id key method path : String) (query : Option (List (List String))) (body : Json)
    (hasBody : Bool) (meta_ : Option (List (String × Json))) : RidlFrame :=
  { id, type := .call, key, method, path, query, body, hasBody := hasBody || body != .null, meta_ }

def data (id : String) (body : Json) : RidlFrame := { id, type := .data, body, hasBody := true }

def end_ (id : String) : RidlFrame := { id, type := .end_ }

def error (id code : String) (message : Option String) : RidlFrame :=
  { id, type := .error, code, message }

def cancel (id : String) : RidlFrame := { id, type := .cancel }

theorem map_fst_slots (frame : RidlFrame) : frame.slots.map Prod.fst = keyOrder := rfl

theorem fst_filterMap_sublist {α : Type} (slots : List (String × Option α)) :
    ((slots.filterMap fun slot => slot.2.map fun value => (slot.1, value)).map Prod.fst).Sublist
      (slots.map Prod.fst) := by
  induction slots with
  | nil => exact .slnil
  | cons slot slots ih =>
    obtain ⟨key, _ | value⟩ := slot
    · exact ih.cons key
    · exact ih.cons_cons key

theorem lookup_filterMap {α : Type} {slots : List (String × Option α)}
    (h : (slots.map Prod.fst).Nodup) (name : String) :
    (slots.filterMap fun slot => slot.2.map fun value => (slot.1, value)).lookup name =
      (slots.lookup name).join := by
  induction slots with
  | nil => rfl
  | cons slot slots ih =>
    obtain ⟨key, value⟩ := slot
    obtain ⟨hkey, hnodup⟩ := List.nodup_cons.mp h
    by_cases hname : name = key
    · subst hname
      cases value with
      | none =>
        simp only [List.filterMap_cons, Option.map_none, List.lookup_cons_self]
        rw [ih hnodup, Entries.lookup_eq_none hkey]
        rfl
      | some value => simp
    · have hbeq : (name == key) = false := beq_eq_false_iff_ne.mpr hname
      cases value with
      | none => simpa [List.lookup_cons, hbeq] using ih hnodup
      | some value => simpa [List.lookup_cons, hbeq] using ih hnodup

/-- The keys come in their order, so the assertion of `toJson` holds. -/
theorem keys_toJson (frame : RidlFrame) : (frame.toJson.map Prod.fst).Sublist keyOrder :=
  fst_filterMap_sublist frame.slots

theorem nodup_keyOrder : keyOrder.Nodup := by decide

theorem lookup_toJson (frame : RidlFrame) (name : String) :
    frame.toJson.lookup name = (frame.slots.lookup name).join :=
  lookup_filterMap (frame.map_fst_slots ▸ nodup_keyOrder) name

end RidlFrame

theorem fromWire_wire (type : RidlFrameType) : RidlFrameType.fromWire type.wire = .ok type := by
  cases type <;> decide

theorem castOptionalString_map (value : Option String) :
    castOptionalString (value.map .string) = .ok value := by
  cases value <;> rfl

theorem castOptionalMap_map (fields : Option (List (String × Json))) :
    castOptionalMap (fields.map .object) = .ok fields := by
  cases fields <;> rfl

theorem mapM_castString (values : List String) :
    (values.map Json.string).mapM castString = .ok values := by
  induction values with
  | nil => rfl
  | cons value values ih =>
    rw [List.map_cons, List.mapM_cons, ih]
    rfl

theorem castQuery_map (query : Option (List (List String))) :
    castQuery (query.map queryJson) = .ok query := by
  cases query with
  | none => rfl
  | some query =>
    have hpairs : (query.map fun pair => Json.array (pair.map .string)).mapM castPair = .ok query := by
      induction query with
      | nil => rfl
      | cons pair query ih =>
        rw [List.map_cons, List.mapM_cons, ih, castPair, mapM_castString]
        rfl
    rw [Option.map_some, queryJson, castQuery, hpairs]
    rfl

namespace RidlFrame

/-- The frame without a body that is not written. -/
def written (frame : RidlFrame) : RidlFrame :=
  { frame with body := if frame.hasBody then frame.body else .null }

theorem fromJson_toJson (frame : RidlFrame) : fromJson frame.toJson = .ok frame.written := by
  have hlookup := frame.lookup_toJson
  have ht : requireString frame.toJson "t" = .ok frame.type.wire := by
    rw [requireString, hlookup]
    rfl
  have hid : requireString frame.toJson "id" = .ok frame.id := by
    rw [requireString, hlookup]
    rfl
  have hv : castInt (frame.toJson.lookup "v") = .ok (some frame.version) := by
    rw [hlookup]
    rfl
  have hkey : frame.toJson.lookup "key" = frame.key.map .string := (hlookup "key").trans rfl
  have hmethod : frame.toJson.lookup "method" = frame.method.map .string :=
    (hlookup "method").trans rfl
  have hpath : frame.toJson.lookup "path" = frame.path.map .string := (hlookup "path").trans rfl
  have hquery : frame.toJson.lookup "query" = frame.query.map queryJson :=
    (hlookup "query").trans rfl
  have hcode : frame.toJson.lookup "code" = frame.code.map .string := (hlookup "code").trans rfl
  have hmessage : frame.toJson.lookup "message" = frame.message.map .string :=
    (hlookup "message").trans rfl
  have hmeta : frame.toJson.lookup "meta" = frame.meta_.map .object := (hlookup "meta").trans rfl
  have hbody : frame.toJson.lookup "body" = if frame.hasBody then some frame.body else none :=
    (hlookup "body").trans rfl
  simp only [fromJson, ht, hid, hv, hkey, hmethod, hpath, hquery, hcode, hmessage, hmeta, hbody,
    castOptionalString_map, castQuery_map, castOptionalMap_map]
  cases hhas : frame.hasBody <;>
    simp [written, hhas, fromWire_wire, pure, Except.pure, bind, Except.bind]

variable {convert : JsonConvert}

/-- Dart holds the frame. -/
structure Held (convert : JsonConvert) (frame : RidlFrame) : Prop where
  version : -2 ^ 63 ≤ frame.version ∧ frame.version < 2 ^ 63
  body : convert.Held frame.body
  nodup : ∀ fields ∈ frame.meta_, (fields.map Prod.fst).Nodup
  values : ∀ fields ∈ frame.meta_, ∀ f ∈ fields, convert.Held f.2

theorem Held.query (query : List (List String)) : convert.Held (queryJson query) := by
  refine convert.held_array _ fun v hv => ?_
  obtain ⟨pair, -, rfl⟩ := List.mem_map.mp hv
  refine convert.held_array _ fun w hw => ?_
  obtain ⟨value, -, rfl⟩ := List.mem_map.mp hw
  exact convert.held_string value

theorem Held.slot {frame : RidlFrame} (h : frame.Held convert) {slot : String × Option Json}
    (hslot : slot ∈ frame.slots) {value : Json} (hvalue : slot.2 = some value) :
    convert.Held value := by
  have hstring : ∀ text : Option String, text.map .string = some value → convert.Held value := by
    intro text htext
    obtain ⟨_, -, rfl⟩ := Option.map_eq_some_iff.mp htext
    exact convert.held_string _
  simp only [slots, List.mem_cons, List.not_mem_nil, or_false] at hslot
  rcases hslot with rfl | rfl | rfl | rfl | rfl | rfl | rfl | rfl | rfl | rfl | rfl
  · obtain rfl := Option.some_inj.mp hvalue
    exact convert.held_int _ h.version.1 h.version.2
  · exact hstring (some frame.id) hvalue
  · exact hstring (some frame.type.wire) hvalue
  · exact hstring frame.key hvalue
  · exact hstring frame.method hvalue
  · exact hstring frame.path hvalue
  · obtain ⟨query, -, rfl⟩ := Option.map_eq_some_iff.mp hvalue
    exact Held.query query
  · obtain ⟨-, hbody⟩ := Option.ite_none_right_eq_some.mp hvalue
    obtain rfl := Option.some_inj.mp hbody
    exact h.body
  · exact hstring frame.code hvalue
  · exact hstring frame.message hvalue
  · obtain ⟨fields, hfields, rfl⟩ := Option.map_eq_some_iff.mp hvalue
    exact convert.held_object fields (h.nodup fields hfields) (h.values fields hfields)

theorem Held.object {frame : RidlFrame} (h : frame.Held convert) :
    convert.Held (.object frame.toJson) := by
  refine convert.held_object _ (nodup_keyOrder.sublist frame.keys_toJson) fun f hf => ?_
  obtain ⟨slot, hslot, hvalue⟩ := List.mem_filterMap.mp hf
  obtain ⟨value, hslotValue, rfl⟩ := Option.map_eq_some_iff.mp hvalue
  exact h.slot hslot hslotValue

theorem decode_encode {frame : RidlFrame} (h : frame.Held convert) :
    decode convert.jsonDecode (frame.encode convert) = .ok frame.written := by
  rw [decode, encode, convert.decode_encode _ h.object]
  exact frame.fromJson_toJson

theorem written_eq_iff {frame : RidlFrame} :
    frame.written = frame ↔ (frame.hasBody = false → frame.body = .null) := by
  obtain ⟨_, _, _, _, _, _, _, body, hasBody, _, _, _⟩ := frame
  cases hasBody <;> simp [written, eq_comm]

/-- A frame is read back as it was written, under keys in their order, exactly if it has no body
that it leaves out. -/
theorem decode_encode_iff (convert : JsonConvert) (frame : RidlFrame) (h : frame.Held convert) :
    decode convert.jsonDecode (frame.encode convert) = .ok frame ↔
      (frame.hasBody = false → frame.body = .null) := by
  rw [decode_encode h, ← written_eq_iff]
  exact ⟨Except.ok.inj, congrArg _⟩

/-- Texts as they are printed, for values without floats. -/
def plainConvert : JsonConvert where
  jsonEncode := Json.text fun _ => false
  jsonDecode := Json.read
  Held value := value.floatFree = true
  held_null := rfl
  held_string _ := rfl
  held_int _ _ _ := rfl
  held_array _ h := Json.floatFreeItems_iff.mpr h
  held_object _ _ h := Json.floatFreeFields_iff.mpr h
  decode_encode _ h := Json.read_text (fun _ hc => absurd hc Bool.false_ne_true) h

def createTodo : RidlFrame :=
  call "1" "todos" "POST" "/todos" (some [["limit", "2"], ["q", "ä"]])
    (.object [("title", .string "read"), ("done", .bool false)]) true
    (some [("trace", .string "t-1"), ("attempt", .number (.int 2))])

theorem held_createTodo : createTodo.Held plainConvert where
  version := by decide
  body := rfl
  nodup fields h := by
    obtain rfl := Option.mem_some.mp h
    decide
  values fields h := by
    obtain rfl := Option.mem_some.mp h
    simp [plainConvert, Json.floatFree]

theorem decode_encode_iff_createTodo :
    decode plainConvert.jsonDecode (createTodo.encode plainConvert) = .ok createTodo :=
  (decode_encode_iff plainConvert createTodo held_createTodo).mpr fun h =>
    absurd h (by decide)

theorem uint32_inj {m n : ℕ} (hm : m < 2 ^ 32) (hn : n < 2 ^ 32) (h : uint32 m = uint32 n) :
    m = n := by
  simp only [uint32, List.map_cons, List.map_nil, List.cons.injEq, and_true,
    ← UInt8.toNat_inj, UInt8.toNat_ofNat'] at h
  omega

theorem encodeBytes_inj {frame other : RidlFrame} (h : frame.Held convert)
    (hother : other.Held convert)
    (hbytes : frame.encodeBytes convert = other.encodeBytes convert) :
    frame.written = other.written := by
  have htext : frame.encode convert = other.encode convert :=
    String.toByteArray_inj.mp (ByteArray.ext (Array.toList_inj.mp hbytes))
  have hdecoded := decode_encode h
  rw [htext, decode_encode hother] at hdecoded
  exact (Except.ok.inj hdecoded).symm

/-- A frame whose length can be written, and that leaves no body out. -/
structure Sendable (convert : JsonConvert) (frame : RidlFrame) : Prop where
  held : frame.Held convert
  complete : frame.hasBody = false → frame.body = .null
  short : (frame.encodeBytes convert).length < 2 ^ 32

/-- Where a frame ends does not depend on what follows. -/
theorem encodeWithLengthPrefix_append_inj {frame other : RidlFrame} (h : frame.Sendable convert)
    (hother : other.Sendable convert) {rest more : List UInt8}
    (hbytes : frame.encodeWithLengthPrefix convert ++ rest =
      other.encodeWithLengthPrefix convert ++ more) : frame = other ∧ rest = more := by
  simp only [encodeWithLengthPrefix, List.append_assoc] at hbytes
  obtain ⟨hbegins, htail⟩ := List.append_inj hbytes rfl
  have hlength := uint32_inj h.short hother.short hbegins
  obtain ⟨hpayload, hrest⟩ := List.append_inj htail hlength
  have hwritten := encodeBytes_inj h.held hother.held hpayload
  rw [written_eq_iff.mpr h.complete, written_eq_iff.mpr hother.complete] at hwritten
  exact ⟨hwritten, hrest⟩

theorem encodeWithLengthPrefix_ne_nil (frame : RidlFrame) :
    frame.encodeWithLengthPrefix convert ≠ [] := by
  simp [encodeWithLengthPrefix, uint32]

/-- The bytes of a stream determine its frames. -/
theorem stream_inj (convert : JsonConvert) (frames others : List RidlFrame)
    (h : ∀ frame ∈ frames, frame.Sendable convert) (hothers : ∀ frame ∈ others, frame.Sendable convert)
    (hbytes : frames.flatMap (encodeWithLengthPrefix convert) =
      others.flatMap (encodeWithLengthPrefix convert)) : frames = others := by
  induction frames generalizing others with
  | nil =>
    cases others with
    | nil => rfl
    | cons other others =>
      have hnil := List.append_eq_nil_iff.mp hbytes.symm
      exact absurd hnil.1 other.encodeWithLengthPrefix_ne_nil
  | cons frame frames ih =>
    cases others with
    | nil =>
      have hnil := List.append_eq_nil_iff.mp hbytes
      exact absurd hnil.1 frame.encodeWithLengthPrefix_ne_nil
    | cons other others =>
      obtain ⟨hsame, hrest⟩ := encodeWithLengthPrefix_append_inj (h frame List.mem_cons_self)
        (hothers other List.mem_cons_self) hbytes
      rw [hsame, ih others (fun f hf => h f (List.mem_cons_of_mem _ hf))
        (fun f hf => hothers f (List.mem_cons_of_mem _ hf)) hrest]

/-- A call, its answers and their end. -/
def exchange (answers : List ℤ) : List RidlFrame :=
  createTodo :: (answers.map fun value => data "1" (.number (.int value))) ++ [end_ "1"]

theorem sendable_createTodo : createTodo.Sendable plainConvert where
  held := held_createTodo
  complete h := absurd h (by decide)
  short := by decide +kernel

theorem sendable_end : (end_ "1").Sendable plainConvert where
  held := ⟨⟨by decide, by decide⟩, rfl, by simp [end_], by simp [end_]⟩
  complete _ := rfl
  short := by decide

theorem sendable_exchange (answers : List ℤ) (h : ∀ value ∈ answers,
      ((data "1" (.number (.int value))).encodeBytes plainConvert).length < 2 ^ 32) :
    ∀ frame ∈ exchange answers, frame.Sendable plainConvert := by
  intro frame hframe
  simp only [exchange, List.mem_append, List.mem_cons, List.mem_map, List.not_mem_nil,
    or_false] at hframe
  rcases hframe with (rfl | ⟨value, hvalue, rfl⟩) | rfl
  · exact sendable_createTodo
  · exact ⟨⟨by simp [data, kRidlFrameVersion], rfl, by simp [data], by simp [data]⟩,
      fun hbody => absurd hbody (by simp [data]), h value hvalue⟩
  · exact sendable_end

/-- Four frames are read off their bytes, and answers in another order give other bytes. -/
theorem stream_inj_exchange :
    (exchange [1, 2] = [createTodo, data "1" (.number (.int 1)), data "1" (.number (.int 2)),
        end_ "1"]) ∧
      (exchange [1, 2]).flatMap (encodeWithLengthPrefix plainConvert) ≠
        (exchange [2, 1]).flatMap (encodeWithLengthPrefix plainConvert) := by
  have h12 := sendable_exchange [1, 2] (by decide)
  have h21 := sendable_exchange [2, 1] (by decide)
  refine ⟨stream_inj plainConvert _ _ h12 h12 rfl, fun hbytes => ?_⟩
  have hsame := stream_inj plainConvert _ _ h12 h21 hbytes
  simp [exchange, data] at hsame

end RidlFrame

end OptoSync.Ridl
