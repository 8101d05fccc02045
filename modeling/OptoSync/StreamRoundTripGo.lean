import OptoSync.StreamDecodeGo

/-!
# The round trip of messages in Go

`DecodeLine` after `EncodeMessage`. A line is refused for its length by the decoder alone, and a
message may carry what its line does not.
-/
namespace OptoSync.Stream.Go

open CanonicalForm (Accepted Plain)
open CanonicalJson (InSubset)
open CanonicalJson.Go (canonicalNumber marshal maxNestingDepth htmlEscaped encodedSize)
open Document (ofJson)

/-- The message up to canonicalization of the embedded values. -/
def Message.canonical (message : Message) : Message :=
  { message with
    request := message.request.map Request.canonical
    response := message.response.map Response.canonical }

def RoundTrips (message : Message) : Prop :=
  ∃ line, encodeMessage message = .ok line ∧ decodeLine line = .ok message.canonical

/-- One request or one response, as the kind says, that validates. -/
inductive Message.Validates : Message → Prop
  | request (request : Request) (h : request.validate = .ok ()) :
    Message.Validates { kind := "request", request := some request }
  | response (response : Response) (h : response.validate = .ok ()) :
    Message.Validates { kind := "response", response := some response }

/-- Nothing is set that the operation does not use, and what it embeds is in the adapter subset. -/
structure Request.Encodable (request : Request) : Prop where
  used : request.operation.used = request.operation
  inSubset : ∀ v ∈ request.operation.values, InSubset v

/-- Nothing is set that the outcome does not use, and the numbers in the data of an error are
numerals. -/
structure Response.Encodable (response : Response) : Prop where
  used : response.outcome.used = response.outcome
  marshals : ∀ error, response.outcome.error = some error → marshals error.data = true

/-- The value that stands for the message. -/
def Message.object (message : Message) : Json :=
  envelope message.kind
    (((message.request.map Request.object).or (message.response.map Response.object)).getD .null)

structure Message.Encodable (message : Message) : Prop where
  request : ∀ request, message.request = some request → request.Encodable
  response : ∀ response, message.response = some response → response.Encodable
  depth : message.object.depth ≤ maxNestingDepth
  size : encodedSize message.object ≤ maxMessageBytes

/-- The maps inside have no key twice. -/
structure Message.DistinctKeys (message : Message) : Prop where
  request : ∀ request, message.request = some request →
    ∀ v ∈ request.operation.values, v.distinctKeys = true
  response : ∀ response, message.response = some response →
    response.outcome.value.distinctKeys = true
  error : ∀ response, message.response = some response →
    ∀ error, response.outcome.error = some error → error.data.distinctKeys = true

theorem canonicalValue_null : canonicalValue .null = .null := rfl

theorem null_eq_canonicalValue {v : Json} : .null = canonicalValue v ↔ v = .null := by
  rw [eq_comm, canonicalValue_null_iff]

/-- Canonical forms agree in a field that is not used only if it is not set. -/
theorem Operation.used_of_canonical {operation : Operation}
    (h : operation.used.canonical = operation.canonical) : operation.used = operation := by
  obtain ⟨name, initialState, seed, logicalTime, action, arguments, maxSteps, snapshot, schemaHash,
    fault⟩ := operation
  unfold Operation.used at h ⊢
  dsimp only at h ⊢
  split at h <;>
    simp only [Operation.canonical, canonicalValue_null, Operation.mk.injEq, true_and, and_true,
      null_eq_canonicalValue] at h ⊢ <;>
    grind

theorem Outcome.used_of_canonical {outcome : Outcome}
    (h : outcome.used.canonical = outcome.canonical) : outcome.used = outcome := by
  obtain ⟨kind, value, error⟩ := outcome
  unfold Outcome.used at h ⊢
  dsimp only at h ⊢
  split at h
  · rename_i hkind
    simp only [Outcome.canonical, Outcome.mk.injEq, true_and, Option.map_none] at h
    rw [if_pos hkind, Option.map_eq_none_iff.mp h.symm]
  · rename_i hkind
    simp only [Outcome.canonical, canonicalValue_null, Outcome.mk.injEq, true_and, and_true,
      null_eq_canonicalValue] at h
    rw [if_neg hkind, h]

theorem Operation.accepted_object {operation : Operation} (hvalid : operation.validate = .ok ())
    (h : ∀ v ∈ operation.values, Accepted canonicalNumber marshal v) :
    Accepted canonicalNumber marshal operation.object := by
  refine (canonicalValue_object operation.plain_object ?_).1
  simp only [Operation.values, List.forall_mem_cons] at h
  obtain ⟨hinitial, htime, harguments, hsnapshot, -⟩ := h
  refine List.forall_mem_cons.mpr ⟨accepted_string _, ?_⟩
  unfold Operation.fields
  split
  · by_cases hseed : operation.seed = "" <;>
      simp [omitted, hseed, accepted_string, hinitial, htime]
  · simp [accepted_string, htime, harguments]
  · rename_i hname
    have hsteps := Operation.maxSteps_lt hvalid hname
    have haccepted : Accepted canonicalNumber marshal (.number (.int operation.maxSteps)) :=
      accepted_int (by omega) (by exact_mod_cast hsteps)
    simp [haccepted]
  · simp [accepted_string, hsnapshot]
  · simp [accepted_string, harguments]
  · simp

theorem Operation.accepted_values {operation : Operation} (hused : operation.used = operation)
    (h : Accepted canonicalNumber marshal operation.object) :
    ∀ v ∈ operation.values, Accepted canonicalNumber marshal v := by
  have hfields := (List.forall_mem_cons.mp (accepted_of_object operation.plain_object h)).2
  rw [← hused]
  unfold Operation.fields at hfields
  unfold Operation.used Operation.values
  split at hfields <;> rename_i hname <;>
    simp_all [accepted_null]

theorem Request.accepted_iff {request : Request} (hvalid : request.validate = .ok ()) :
    Accepted canonicalNumber marshal request.object ↔
      Accepted canonicalNumber marshal request.operation.object := by
  obtain ⟨_, henvelope, hrest⟩ := Transition.bind_eq_ok.mp hvalid
  obtain ⟨_, hgeneration, -⟩ := Transition.bind_eq_ok.mp hrest
  have hversion := validateEnvelope_version henvelope
  have hlt := generation_lt hgeneration
  constructor
  · intro h
    exact accepted_of_object request.plain_members h ("operation", request.operation.object)
      (by simp [Request.members])
  · intro h
    refine (canonicalValue_object request.plain_members ?_).1
    simp only [Request.members, List.forall_mem_cons]
    exact ⟨accepted_string _, accepted_int (by omega) (by omega), accepted_string _,
      accepted_string _, accepted_int (by omega) (by omega), h,
      fun _ hf => absurd hf List.not_mem_nil⟩

theorem Response.accepted_object {response : Response} (hvalid : response.validate = .ok ()) :
    Accepted canonicalNumber marshal response.object :=
  (canonicalValue_object response.plain_members (Response.accepted_members hvalid)).1

theorem plain_envelope (kind : String) (encoded : Json) :
    Plain [("kind", .string kind), ("message", encoded)] :=
  CanonicalForm.plain_of_two (by simp)

theorem accepted_envelope (kind : String) {encoded : Json} :
    Accepted canonicalNumber marshal (envelope kind encoded) ↔
      Accepted canonicalNumber marshal encoded := by
  constructor
  · intro h
    exact accepted_of_object (plain_envelope kind encoded) h ("message", encoded) (by simp)
  · intro h
    refine (canonicalValue_object (plain_envelope kind encoded) ?_).1
    simp [accepted_string, h]

theorem encodeMessage_iff {message : Message} {object : Json}
    (h : messageObject message = .ok object) (line : List UInt8) :
    encodeMessage message = .ok line ↔ Accepted canonicalNumber marshal object ∧
      Document.encode (Json.print htmlEscaped (canonicalValue object)) = line := by
  unfold encodeMessage
  rw [h]
  simp only [bind, Except.bind]
  cases hcanonical : CanonicalJson.Go.canonicalize object with
  | none =>
    refine iff_of_false (fun heq => by cases heq) ?_
    rintro ⟨haccepted, -⟩
    have hsome : (CanonicalJson.Go.canonicalize object).isSome = true := haccepted
    rw [hcanonical] at hsome
    cases hsome
  | some canonical =>
    obtain ⟨haccepted, rfl⟩ := CanonicalForm.canonicalize_eq_some.mp hcanonical
    rw [Except.ok.injEq, marshal, Json.text, String.toList_ofList]
    exact (and_iff_right haccepted).symm

theorem print_object (gs : List (String × Json)) :
    ∃ cs, Json.print htmlEscaped (.object gs) = '\x7b' :: cs := by
  cases gs with
  | nil => exact ⟨_, by rw [Json.print]⟩
  | cons g gs => exact ⟨_, by rw [Json.print]⟩

/-- The text of an object is no blank line. -/
theorem not_blank_print (gs : List (String × Json)) :
    ¬ (Document.readChars (Document.encode (Json.print htmlEscaped (.object gs))).length
      (Document.encode (Json.print htmlEscaped (.object gs)))).all isWhiteSpace = true := by
  obtain ⟨cs, hcs⟩ := print_object gs
  rw [hcs, Document.encode_ascii_cons (by decide), List.length_cons, Document.readChars]
  have hread := Document.readChar_encodeChar '\x7b' (Document.encode cs)
  rw [Document.encodeChar_ascii (by decide), List.singleton_append] at hread
  have hbrace : isWhiteSpace '\x7b' = false := by decide
  simp [hread, hbrace]

theorem no_terminator {v : Json} (h : v.floatFree = true) :
    ¬('\r'.toUInt8 ∈ Document.encode (Json.print htmlEscaped v) ∨
      '\n'.toUInt8 ∈ Document.encode (Json.print htmlEscaped v)) := by
  rintro (hmem | hmem)
  · exact absurd (Document.low_le_of_mem_encode (fun _ => Document.low_le_print h) hmem) (by decide)
  · exact absurd (Document.low_le_of_mem_encode (fun _ => Document.low_le_print h) hmem) (by decide)

theorem basicPlane_htmlEscaped : Json.BasicPlane htmlEscaped := by
  intro c hc
  simp only [htmlEscaped, Bool.or_eq_true, decide_eq_true_eq] at hc
  obtain (((rfl | rfl) | rfl) | rfl) | rfl := hc <;> decide

/-- The line of an envelope gets to its decoder exactly if it is neither too long nor too deep. -/
theorem decodeLine_print {kind : String} {encoded : Json}
    (h : Accepted canonicalNumber marshal encoded) (message : Message) :
    decodeLine
        (Document.encode (Json.print htmlEscaped (canonicalValue (envelope kind encoded)))) =
          .ok message ↔
      encodedSize (envelope kind encoded) ≤ maxMessageBytes ∧
        (envelope kind encoded).depth ≤ maxNestingDepth ∧
          decodeMessage (ofJson (canonicalValue (envelope kind encoded))) = .ok message := by
  have haccepted := (accepted_envelope kind).mpr h
  have hfree : (canonicalValue (envelope kind encoded)).floatFree = true :=
    CanonicalForm.form_floatFree _ haccepted
  have hdepth : (ofJson (canonicalValue (envelope kind encoded))).depth =
      (envelope kind encoded).depth := by
    rw [Document.depth_ofJson]
    exact CanonicalForm.depth_form _ haccepted
  have hsize : (Document.encode
      (Json.print htmlEscaped (canonicalValue (envelope kind encoded)))).length =
        encodedSize (envelope kind encoded) := CanonicalJson.Go.textSize_form _ haccepted
  have hread := Document.read_print basicPlane_htmlEscaped hfree
  have hblank : ¬ (Document.readChars (Document.encode
      (Json.print htmlEscaped (canonicalValue (envelope kind encoded)))).length
        (Document.encode (Json.print htmlEscaped
          (canonicalValue (envelope kind encoded))))).all isWhiteSpace = true := by
    obtain ⟨gs, hgs⟩ := CanonicalForm.object_of_canonicalize haccepted.eq_form
    have hobject : canonicalValue (envelope kind encoded) = .object gs := hgs
    rw [hobject]
    exact not_blank_print gs
  rw [hsize] at hblank
  unfold decodeLine
  rw [hsize, if_neg hblank, if_neg (no_terminator hfree), hread]
  dsimp only
  rw [hdepth]
  split_ifs with hlong hdeep
  · refine iff_of_false (fun heq => by cases heq) ?_
    rintro ⟨hle, -⟩
    omega
  · refine iff_of_false (fun heq => by cases heq) ?_
    rintro ⟨-, hle, -⟩
    omega
  · constructor
    · exact fun hok => ⟨by omega, by omega, hok⟩
    · exact fun hall => hall.2.2

theorem decodeObject_envelope (kind : String) {encoded : Json}
    (h : Accepted canonicalNumber marshal encoded) :
    ∃ object : Object, decodeObject (some (ofJson (canonicalValue (envelope kind encoded))))
        "stream message" = .ok object ∧
      requireExactKeys object "stream message" ["kind", "message"] = .ok () ∧
      decodeText (object.lookup "kind") "kind" = .ok kind ∧
      object.lookup "message" = some (ofJson (canonicalValue encoded)) := by
  obtain ⟨object, hobject, hholds⟩ := decodeObject_ofJson
    [("kind", .string kind), ("message", encoded)] (plain_envelope kind encoded) (by simp)
    (by simp [accepted_string, h]) "stream message"
  refine ⟨object, hobject, requireKeys_of_holds hholds _ (by simp) (by simp), ?_,
    hholds.lookup "message" encoded rfl⟩
  rw [hholds.lookup "kind" (.string kind) rfl, decodeText_ofJson]

theorem decodeMessage_request {encoded : Json} (h : Accepted canonicalNumber marshal encoded)
    {request : Request}
    (hrequest : decodeRequest (some (ofJson (canonicalValue encoded))) = .ok request) :
    decodeMessage (ofJson (canonicalValue (envelope "request" encoded))) =
      .ok { kind := "request", request := some request } := by
  obtain ⟨object, hobject, hkeys, hkind, hmessage⟩ := decodeObject_envelope "request" h
  unfold decodeMessage
  simp only [hobject, hkeys, hkind, hmessage, hrequest, bind, Except.bind]

theorem decodeMessage_response {encoded : Json} (h : Accepted canonicalNumber marshal encoded)
    {response : Response}
    (hresponse : decodeResponse (some (ofJson (canonicalValue encoded))) = .ok response) :
    decodeMessage (ofJson (canonicalValue (envelope "response" encoded))) =
      .ok { kind := "response", response := some response } := by
  obtain ⟨object, hobject, hkeys, hkind, hmessage⟩ := decodeObject_envelope "response" h
  unfold decodeMessage
  simp only [hobject, hkeys, hkind, hmessage, hresponse, bind, Except.bind]

theorem messageObject_request {request : Request} (h : request.validate = .ok ()) :
    messageObject { kind := "request", request := some request } =
      .ok (envelope "request" request.object) := by
  simp only [messageObject, requestObject, h, bind, Except.bind]

theorem messageObject_response {response : Response} (h : response.validate = .ok ()) :
    messageObject { kind := "response", response := some response } =
      if response.outcome.kind ≠ "ok" ∧
          response.outcome.error.any (fun error => !error.normalizes) then
        .error "marshal canonical value"
      else .ok (envelope "response" response.object) := by
  simp only [messageObject, responseObject, h, bind, Except.bind]
  split_ifs <;> rfl

theorem StreamError.normalizes_iff {error : StreamError} :
    error.normalizes = true ↔
      marshals error.data = true ∧ error.object.depth ≤ maxNestingDepth := by
  have hmarshals : marshals error.object = marshals error.data := by
    unfold StreamError.object omitted
    by_cases hnull : error.data = .null <;> simp [marshals, marshalsFields, hnull]
  rw [StreamError.normalizes, hmarshals, Bool.and_eq_true, decide_eq_true_iff]

/-- The error of a message is no deeper than the message. -/
theorem StreamError.depth_le {response : Response} {error : StreamError}
    (hkind : response.outcome.kind ≠ "ok") (herror : response.outcome.error = some error) {n : ℕ}
    (h : (envelope "response" response.object).depth ≤ n) : error.object.depth ≤ n := by
  have hresponse := (CanonicalForm.depth_object_le.mp h).2 ("message", response.object) (by simp)
  have houtcome := (CanonicalForm.depth_object_le.mp (Nat.le_of_succ_le hresponse)).2
    ("outcome", response.outcome.object) (by simp)
  have hobject : response.outcome.object =
      .object [("kind", .string response.outcome.kind), ("error", error.object)] := by
    rw [Outcome.object, if_neg hkind, herror]
    rfl
  rw [hobject] at houtcome
  have hinner := (CanonicalForm.depth_object_le.mp (Nat.le_of_succ_le houtcome)).2
    ("error", error.object) (by simp)
  exact Nat.le_of_succ_le hinner

theorem roundTrips_request {request : Request} (hvalid : request.validate = .ok ())
    (hdistinct : ∀ v ∈ request.operation.values, v.distinctKeys = true) :
    RoundTrips { kind := "request", request := some request } ↔
      request.Encodable ∧ (envelope "request" request.object).depth ≤ maxNestingDepth ∧
        encodedSize (envelope "request" request.object) ≤ maxMessageBytes := by
  have hdecode : ∀ haccepted : Accepted canonicalNumber marshal request.object,
      decodeMessage (ofJson (canonicalValue (envelope "request" request.object))) =
        .ok { kind := "request",
              request := some { request with operation := request.operation.used.canonical } } :=
    fun haccepted => decodeMessage_request haccepted
      (decodeRequest_ofJson hvalid haccepted hdistinct)
  have hoperation : request.operation.validate = .ok () := by
    obtain ⟨_, -, hrest⟩ := Transition.bind_eq_ok.mp hvalid
    obtain ⟨_, -, hoperation⟩ := Transition.bind_eq_ok.mp hrest
    exact hoperation
  constructor
  · rintro ⟨line, hencode, hline⟩
    obtain ⟨hmessage, rfl⟩ := (encodeMessage_iff (messageObject_request hvalid) line).mp hencode
    have haccepted := (accepted_envelope _).mp hmessage
    obtain ⟨hsize, hdepth, hback⟩ := (decodeLine_print haccepted _).mp hline
    rw [hdecode haccepted] at hback
    have hcanonical : request.operation.used.canonical = request.operation.canonical := by
      have hrequest := Option.some.inj (congrArg Message.request (Except.ok.inj hback))
      exact congrArg Request.operation hrequest
    have hused := Operation.used_of_canonical hcanonical
    refine ⟨⟨hused, fun v hv => (CanonicalJson.accepted_go_iff v).mp ?_⟩, hdepth, hsize⟩
    exact Operation.accepted_values hused ((Request.accepted_iff hvalid).mp haccepted) v hv
  · rintro ⟨⟨hused, hsubset⟩, hdepth, hsize⟩
    have haccepted : Accepted canonicalNumber marshal request.object :=
      (Request.accepted_iff hvalid).mpr (Operation.accepted_object hoperation fun v hv =>
        (CanonicalJson.accepted_go_iff v).mpr (hsubset v hv))
    refine ⟨_, (encodeMessage_iff (messageObject_request hvalid) _).mpr
      ⟨(accepted_envelope _).mpr haccepted, rfl⟩, ?_⟩
    refine (decodeLine_print haccepted _).mpr ⟨hsize, hdepth, ?_⟩
    rw [hdecode haccepted, hused]
    rfl

theorem roundTrips_response {response : Response} (hvalid : response.validate = .ok ())
    (hdvalue : response.outcome.value.distinctKeys = true)
    (hderror : ∀ error, response.outcome.error = some error → error.data.distinctKeys = true) :
    RoundTrips { kind := "response", response := some response } ↔
      response.Encodable ∧ (envelope "response" response.object).depth ≤ maxNestingDepth ∧
        encodedSize (envelope "response" response.object) ≤ maxMessageBytes := by
  have haccepted := Response.accepted_object hvalid
  have hdecode : decodeMessage (ofJson (canonicalValue (envelope "response" response.object))) =
      .ok { kind := "response",
            response := some { response with outcome := response.outcome.used.canonical } } :=
    decodeMessage_response haccepted (decodeResponse_ofJson hvalid hdvalue hderror)
  have hobject := messageObject_response hvalid
  constructor
  · rintro ⟨line, hencode, hline⟩
    split at hobject
    · rw [encodeMessage, hobject] at hencode
      cases hencode
    · rename_i hnormal
      obtain ⟨-, rfl⟩ := (encodeMessage_iff hobject line).mp hencode
      obtain ⟨hsize, hdepth, hback⟩ := (decodeLine_print haccepted _).mp hline
      rw [hdecode] at hback
      have hcanonical : response.outcome.used.canonical = response.outcome.canonical := by
        have hresponse := Option.some.inj (congrArg Message.response (Except.ok.inj hback))
        exact congrArg Response.outcome hresponse
      refine ⟨⟨Outcome.used_of_canonical hcanonical, fun error herror => ?_⟩, hdepth, hsize⟩
      have hkind : response.outcome.kind ≠ "ok" := by
        rcases Outcome.kind_cases (Response.validate_outcome hvalid) with ⟨-, hnone, -⟩ | ⟨hkind, -⟩
        · rw [herror] at hnone
          cases hnone
        · rcases hkind with hkind | hkind <;> simp [hkind]
      have hnormalizes : error.normalizes = true := by
        simpa [hkind, herror] using hnormal
      exact (StreamError.normalizes_iff.mp hnormalizes).1
  · rintro ⟨⟨hused, hmarshals⟩, hdepth, hsize⟩
    have hnormal : ¬(response.outcome.kind ≠ "ok" ∧
        response.outcome.error.any (fun error => !error.normalizes) = true) := by
      rintro ⟨hkind, hany⟩
      obtain ⟨error, herror, hnot⟩ := (Option.any_eq_true _ _).mp hany
      have hnormalizes : error.normalizes = true := StreamError.normalizes_iff.mpr
        ⟨hmarshals error herror, StreamError.depth_le hkind herror hdepth⟩
      simp [hnormalizes] at hnot
    rw [if_neg hnormal] at hobject
    refine ⟨_, (encodeMessage_iff hobject _).mpr ⟨(accepted_envelope _).mpr haccepted, rfl⟩, ?_⟩
    refine (decodeLine_print haccepted _).mpr ⟨hsize, hdepth, ?_⟩
    rw [hdecode, hused]
    rfl

/-- A validated message comes back exactly if what it sets is used, what it embeds encodes, and its
line is not too long. -/
theorem message_roundTrips_iff (message : Message) (hdistinct : message.DistinctKeys)
    (hvalid : message.Validates) : RoundTrips message ↔ message.Encodable := by
  cases hvalid with
  | request request hvalid =>
    rw [roundTrips_request hvalid (hdistinct.request request rfl)]
    constructor
    · rintro ⟨hencodable, hdepth, hsize⟩
      refine ⟨?_, fun _ hsome => (Option.some_ne_none _ hsome.symm).elim, hdepth, hsize⟩
      rintro _ ⟨⟩
      exact hencodable
    · intro h
      exact ⟨h.request request rfl, h.depth, h.size⟩
  | response response hvalid =>
    rw [roundTrips_response hvalid (hdistinct.response response rfl) (hdistinct.error response rfl)]
    constructor
    · rintro ⟨hencodable, hdepth, hsize⟩
      refine ⟨fun _ hsome => (Option.some_ne_none _ hsome.symm).elim, ?_, hdepth, hsize⟩
      rintro _ ⟨⟩
      exact hencodable
    · intro h
      exact ⟨h.response response rfl, h.depth, h.size⟩

def applyRequest (arguments : Json) : Request :=
  { protocol, protocolVersion, requestId := "1", machine := "m", generation := 0,
    operation := { name := "apply", action := "a", logicalTime := .number (.int 0), arguments } }

theorem applyRequest_validate (arguments : Json) : (applyRequest arguments).validate = .ok () := by
  have henvelope : validateEnvelope protocol protocolVersion "1" "m" = .ok () := by decide
  have hgeneration : validateGeneration 0 = .ok () := by decide
  have haction : validateLabel "action" "a" 256 = .ok () := by decide
  refine Transition.bind_eq_ok.mpr ⟨(), henvelope, Transition.bind_eq_ok.mpr ⟨(), hgeneration, ?_⟩⟩
  simpa only [applyRequest, Operation.validate] using haction

theorem applyRequest_values {P : Json → Prop} {arguments : Json} (hnull : P .null)
    (htime : P (.number (.int 0))) (h : P arguments) :
    ∀ v ∈ (applyRequest arguments).operation.values, P v := by
  simp [Operation.values, applyRequest, hnull, htime, h]

theorem message_roundTrips_apply : RoundTrips
    { kind := "request",
      request := some
        (applyRequest (.object [("b", .number (.int 1)), ("a", .string "<\n")])) } := by
  refine (message_roundTrips_iff _ ⟨?_, ?_, ?_⟩ (.request _ (applyRequest_validate _))).mpr
    ⟨?_, ?_, by decide, by decide +kernel⟩
  · rintro _ ⟨⟩
    exact applyRequest_values rfl rfl (by decide)
  · rintro _ ⟨⟩
  · rintro _ ⟨⟩
  · rintro _ ⟨⟩
    have hone : Accepted canonicalNumber marshal (.number (.int 1)) :=
      accepted_int (by decide) (by decide)
    have haccepted : Accepted canonicalNumber marshal
        (.object [("b", .number (.int 1)), ("a", .string "<\n")]) :=
      (canonicalValue_object (CanonicalForm.plain_of_two (by decide))
        (by simp [accepted_string, hone])).1
    exact ⟨rfl, applyRequest_values ((CanonicalJson.accepted_go_iff _).mp accepted_null)
      ((CanonicalJson.accepted_go_iff _).mp (accepted_int (by decide) (by decide)))
      ((CanonicalJson.accepted_go_iff _).mp haccepted)⟩
  · rintro _ ⟨⟩

/-- No character of a string is printed in less than a byte. -/
theorem length_le_stringSize (value : String) :
    value.toList.length ≤ CanonicalJson.Go.stringSize value := by
  have htext := Json.length_le_flatMap_spell htmlEscaped value.toList
  have hbytes := Document.length_le_encode ('\"' :: Json.printString htmlEscaped value)
  rw [Json.printString, List.length_cons, List.length_append] at hbytes
  exact (htext.trans (by omega)).trans hbytes

theorem stringSize_lt_applyRequest (value : String) : CanonicalJson.Go.stringSize value <
    encodedSize (envelope "request" (applyRequest (.string value)).object) := by
  simp only [envelope, Request.object, Operation.object, Operation.fields, applyRequest,
    encodedSize, CanonicalJson.Go.fieldsSize]
  omega

/-- Arguments of the length that a line may have. -/
def oversized : Request :=
  applyRequest (.string (String.ofList (List.replicate maxMessageBytes 'a')))

/-- The encoder writes a line that is refused. -/
theorem message_oversized :
    Message.Validates { kind := "request", request := some oversized } ∧
      ∃ line, encodeMessage { kind := "request", request := some oversized } = .ok line ∧
        ∀ message, decodeLine line ≠ .ok message := by
  have hvalid : oversized.validate = .ok () := applyRequest_validate _
  have haccepted : Accepted canonicalNumber marshal oversized.object :=
    (Request.accepted_iff hvalid).mpr (Operation.accepted_object rfl
      (applyRequest_values accepted_null (accepted_int (by decide) (by decide))
        (accepted_string _)))
  refine ⟨.request _ hvalid, _, (encodeMessage_iff (messageObject_request hvalid) _).mpr
    ⟨(accepted_envelope _).mpr haccepted, rfl⟩, fun message hline => ?_⟩
  obtain ⟨hsize, -⟩ := (decodeLine_print haccepted message).mp hline
  have hlength := length_le_stringSize (String.ofList (List.replicate maxMessageBytes 'a'))
  rw [String.toList_ofList, List.length_replicate] at hlength
  have hlong := stringSize_lt_applyRequest (String.ofList (List.replicate maxMessageBytes 'a'))
  exact absurd hsize (Nat.not_le.mpr (hlength.trans_lt hlong))

end OptoSync.Stream.Go
