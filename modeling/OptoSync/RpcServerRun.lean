import OptoSync.RpcServer

/-!
# Runs of the JSON-RPC server

Which lines are answered, and under which ids, follows from the lines alone.
-/
namespace OptoSync

mutual
theorem Json.visibleFloats_renumber {number : JsonNumber → JsonNumber}
    (h : ∀ n, (Json.number (number n)).visibleFloats = true) (v : Json) :
    (v.renumber number).visibleFloats = true := by
  cases v with
  | number n => exact h n
  | array items => exact visibleFloatsItems_renumber h items
  | object fields => exact visibleFloatsFields_renumber h fields
  | _ => rfl

theorem Json.visibleFloatsItems_renumber {number : JsonNumber → JsonNumber}
    (h : ∀ n, (Json.number (number n)).visibleFloats = true) (vs : List Json) :
    visibleFloatsItems (renumberItems number vs) = true := by
  cases vs with
  | nil => rfl
  | cons v vs =>
    simp only [renumberItems, visibleFloatsItems, visibleFloats_renumber h v,
      visibleFloatsItems_renumber h vs, Bool.and_self]

theorem Json.visibleFloatsFields_renumber {number : JsonNumber → JsonNumber}
    (h : ∀ n, (Json.number (number n)).visibleFloats = true) (fs : List (String × Json)) :
    visibleFloatsFields (renumberFields number fs) = true := by
  cases fs with
  | nil => rfl
  | cons f fs =>
    simp only [renumberFields, visibleFloatsFields, visibleFloats_renumber h f.2,
      visibleFloatsFields_renumber h fs, Bool.and_self]
end

namespace Rpc
open Json OptoSync.Stream

theorem visible_of_structOf {fields : List Stream.Field} {denyUnknown : Bool} {value w : Json}
    {field : String → Option Json} {name : String} (hvalue : value.visibleFloats = true)
    (h : structOf fields denyUnknown value = some field) (hw : field name = some w) :
    w.visibleFloats = true := by
  cases value with
  | array items =>
    obtain ⟨-, hfield⟩ := Option.ite_none_right_eq_some.mp h
    obtain rfl := Option.some_inj.mp hfield
    exact visibleFloatsItems_iff.mp hvalue w (List.of_mem_zip (Entries.mem_of_lookup hw)).2
  | object members =>
    obtain ⟨-, hfield⟩ := Option.ite_none_right_eq_some.mp h
    obtain rfl := Option.some_inj.mp hfield
    exact visibleFloatsFields_iff.mp hvalue _ (Entries.mem_of_lookup hw)
  | _ => cases h

theorem visible_id {value : Json} {request : RpcRequest} (hvalue : value.visibleFloats = true)
    (h : readRequest value = some request) : (request.id.getD .null).visibleFloats = true := by
  obtain ⟨field, hfield, h⟩ := Option.bind_eq_some_iff.mp h
  obtain ⟨jsonrpc, -, h⟩ := Option.bind_eq_some_iff.mp h
  obtain ⟨method, -, h⟩ := Option.bind_eq_some_iff.mp h
  obtain rfl := Option.some_inj.mp h
  cases hid : field "id" with
  | none => rfl
  | some id => exact visible_of_structOf hvalue hfield hid

def RpcError.Visible (e : RpcError) : Prop := ∀ data ∈ e.data, data.visibleFloats = true

def Dispatched.Visible : Dispatched → Prop
  | .answer (.ok result) => result.visibleFloats = true
  | .answer (.error error) => error.Visible
  | .panic => True

section

variable {σ : Type} {serde : SerdeJson} {app : App σ}

theorem visible_fromFm (error : FmError) : (RpcError.fromFm error).Visible := by
  rintro data hdata
  obtain rfl := Option.some_inj.mp hdata
  rfl

theorem visible_reportOf (answer : σ × Except FmError Report) : (reportOf answer).2.Visible := by
  obtain ⟨s, error | report⟩ := answer
  · exact visible_fromFm error
  · cases hvalue : report.toValue with
    | ok value =>
      simp only [reportOf, hvalue]
      exact report.visible value hvalue
    | error detail =>
      simp only [reportOf, hvalue]
      rintro data hdata
      obtain rfl := Option.some_inj.mp hdata
      rfl

theorem visible_jsonOf (answer : σ × Except FmError Report) {json : Json → Json}
    (h : ∀ v, v.visibleFloats = true → (json v).visibleFloats = true) :
    (jsonOf answer json).2.Visible := by
  obtain ⟨s, error | report⟩ := answer
  · exact visible_fromFm error
  · cases hvalue : report.toValue with
    | ok value =>
      simp only [jsonOf, hvalue]
      exact h value (report.visible value hvalue)
    | error detail =>
      simp only [jsonOf, hvalue]
      trivial

theorem visible_planned (s : σ) (operation : Operation) : (planned app s operation).2.Visible :=
  visible_jsonOf _ fun v hv => by simp [visibleFloats, visibleFloatsFields, hv]

theorem visible_parseParams {params : Json} {error : RpcError}
    (h : parseParams serde params = .error error) : error.Visible := by
  rw [parseParams] at h
  split at h
  · cases h
  · split at h
    · cases h
    · cases h
      rintro data hdata
      obtain rfl := Option.some_inj.mp hdata
      rfl

theorem visible_operationFromName {name : String} {params : OperationParams} {error : RpcError}
    (h : operationFromName name params = .error error) : error.Visible := by
  have hnone : error.data = none := by
    unfold operationFromName at h
    split at h
    · cases h
    · cases h
    · cases h
    · cases h
    · split at h
      · cases h
      · cases h
        rfl
    · cases h
      rfl
  simp [RpcError.Visible, hnone]

theorem visible_operate (s : σ) (name : String) (params : Json) :
    (operate serde app s name params).2.Visible := by
  rw [operate]
  split
  · exact visible_parseParams ‹_›
  · split
    · exact visible_operationFromName ‹_›
    · split
      · exact visible_planned s _
      · exact visible_jsonOf _ fun v hv => by simp [visibleFloats, visibleFloatsFields, hv]

theorem visible_planMethod (s : σ) (params : Json) :
    (planMethod serde app s params).2.Visible := by
  rw [planMethod]
  split
  · exact visible_parseParams ‹_›
  · split
    · simp [Dispatched.Visible, RpcError.Visible]
    · split
      · exact visible_operationFromName ‹_›
      · exact visible_planned s _

theorem visible_dispatch (s : σ) (method : String) (params : Json) :
    (dispatch serde app s method params).2.Visible := by
  unfold dispatch
  split
  · exact (by decide : capabilities.visibleFloats = true)
  · exact visible_reportOf _
  · exact visible_reportOf _
  · exact visible_planMethod s params
  · exact visible_operate s _ params
  · exact visible_operate s _ params
  · exact visible_operate s _ params
  · exact visible_operate s _ params
  · exact visible_operate s _ params
  · rfl
  · simp [Dispatched.Visible, RpcError.Visible]

/-- Every plan and every execution serializes. -/
structure App.Serializes (app : App σ) : Prop where
  plan : ∀ operation s report, (app.plan operation s).2 = .ok report → report.toValue.isOk = true
  execution : ∀ operation s report, (app.executeWithReportBundle operation s).2 = .ok report →
    report.toValue.isOk = true

theorem jsonOf_ne_panic {answer : σ × Except FmError Report} {json : Json → Json}
    (h : ∀ report, answer.2 = .ok report → report.toValue.isOk = true) :
    (jsonOf answer json).2 ≠ .panic := by
  obtain ⟨s, error | report⟩ := answer
  · exact Dispatched.noConfusion
  · cases hvalue : report.toValue with
    | ok value => simp [jsonOf, hvalue]
    | error detail =>
      have hok := h report rfl
      rw [hvalue] at hok
      cases hok

theorem operate_ne_panic (h : app.Serializes) (s : σ) (name : String) (params : Json) :
    (operate serde app s name params).2 ≠ .panic := by
  rw [operate]
  split
  · exact Dispatched.noConfusion
  · split
    · exact Dispatched.noConfusion
    · split
      · exact jsonOf_ne_panic (h.plan _ s)
      · exact jsonOf_ne_panic (h.execution _ s)

theorem planMethod_ne_panic (h : app.Serializes) (s : σ) (params : Json) :
    (planMethod serde app s params).2 ≠ .panic := by
  rw [planMethod]
  split
  · exact Dispatched.noConfusion
  · split
    · exact Dispatched.noConfusion
    · split
      · exact Dispatched.noConfusion
      · exact jsonOf_ne_panic (h.plan _ s)

theorem dispatch_ne_panic (h : app.Serializes) (s : σ) (method : String) (params : Json) :
    (dispatch serde app s method params).2 ≠ .panic := by
  unfold dispatch
  split
  · exact Dispatched.noConfusion
  · exact Dispatched.noConfusion
  · exact Dispatched.noConfusion
  · exact planMethod_ne_panic h s params
  · exact operate_ne_panic h s _ params
  · exact operate_ne_panic h s _ params
  · exact operate_ne_panic h s _ params
  · exact operate_ne_panic h s _ params
  · exact operate_ne_panic h s _ params
  · exact Dispatched.noConfusion
  · exact Dispatched.noConfusion

/-- The response has a result or an error, and no float that would break its line. -/
structure WellFormed (r : RpcResponse) : Prop where
  exclusive : r.error.isSome = !r.result.isSome
  visible : r.json.visibleFloats = true

theorem WellFormed.success {id result : Json} (hid : id.visibleFloats = true)
    (hresult : result.visibleFloats = true) : WellFormed (.success id result) where
  exclusive := rfl
  visible := by
    simp [RpcResponse.success, RpcResponse.json, visibleFloats, visibleFloatsFields, hid, hresult]

theorem WellFormed.failure {id : Json} {error : RpcError} (hid : id.visibleFloats = true)
    (herror : error.Visible) : WellFormed (.failure id error) where
  exclusive := rfl
  visible := by
    have hjson : error.json.visibleFloats = true := by
      obtain ⟨code, message, data⟩ := error
      cases data with
      | none => rfl
      | some data =>
        have hdata : data.visibleFloats = true := herror data rfl
        simp [RpcError.json, visibleFloats, visibleFloatsFields, hdata]
    simp [RpcResponse.failure, RpcResponse.json, visibleFloats, visibleFloatsFields, hid, hjson]

/-- A response is one line. -/
theorem WellFormed.lines {r : RpcResponse} (h : WellFormed r) (rest : List UInt8) :
    lines (r.line ++ rest) = r.line :: lines rest := by
  have hbody : newline ∉ Document.encode (Json.print (fun _ => false) r.json) := by
    intro hmem
    have hlow := Document.low_le_of_mem_encode
      (fun _ => Document.low_le_print_of_visible h.visible) hmem
    exact absurd hlow (by decide)
  rw [RpcResponse.line, List.append_assoc, List.singleton_append, lines_body hbody]

def requestOn (serde : SerdeJson) (line : List UInt8) : Option RpcRequest :=
  serde.fromSlice line >>= readRequest

/-- The id of the answer. -/
def RpcRequest.answered (request : RpcRequest) : Option Json :=
  request.id.map fun id => if idAllowed id then id else .null

def RpcRequest.shutsDown (request : RpcRequest) : Bool :=
  idAllowed (request.id.getD .null) && request.jsonrpc = "2.0" && request.method = "fm.shutdown"

/-- The id that a line is answered under, if it is answered. -/
def answeredId (serde : SerdeJson) : Reported → Option Json
  | .eof => none
  | .oversized => some .null
  | .line line =>
    if line.all isAsciiWhitespace then none
    else (requestOn serde line).elim (some .null) RpcRequest.answered

/-- The line asks the server to stop. -/
def shutsDown (serde : SerdeJson) : Reported → Bool
  | .line line => !line.all isAsciiWhitespace && (requestOn serde line).any RpcRequest.shutsDown
  | _ => false

def courseOf (shutdown : Bool) : Course := if shutdown then .shutdown else .next

structure Reacts (reaction : Reaction σ) (id : Option Json) (shutdown : Bool) : Prop where
  id : reaction.response.map RpcResponse.id = id
  course : reaction.course = courseOf shutdown
  wellFormed : ∀ r ∈ reaction.response, WellFormed r

theorem Reacts.shutsDown {reaction : Reaction σ} {id : Option Json} {shutdown : Bool}
    (h : Reacts reaction id shutdown) : shutdown = true ↔ reaction.course = .shutdown := by
  rw [h.course]
  cases shutdown <;> simp [courseOf]

theorem Reacts.failure (s : σ) {id : Json} {error : RpcError} (hid : id.visibleFloats = true)
    (herror : error.Visible) : Reacts ⟨s, some (.failure id error), .next⟩ (some id) false where
  id := rfl
  course := rfl
  wellFormed r hr := by
    obtain rfl := Option.some_inj.mp hr
    exact .failure hid herror

/-- A response unless the request is a notification. -/
theorem Reacts.respond {request : RpcRequest} {response : RpcResponse} (s : σ) (shutdown : Bool)
    (h : WellFormed response) :
    Reacts ⟨s, if request.id.isNone then none else some response, courseOf shutdown⟩
      (request.id.map fun _ => response.id) shutdown := by
  cases request.id with
  | none => exact ⟨rfl, rfl, fun r hr => absurd hr (Option.not_mem_none r)⟩
  | some id =>
    refine ⟨rfl, rfl, fun r hr => ?_⟩
    obtain rfl := Option.some_inj.mp hr
    exact h

theorem respond_reacts (s : σ) {request : RpcRequest}
    (hid : (request.id.getD .null).visibleFloats = true)
    (hpanic : (respond serde app s request).course ≠ .panic) :
    Reacts (respond serde app s request) request.answered request.shutsDown := by
  have hanswered (hallowed : idAllowed (request.id.getD .null) = true) :
      request.answered = request.id.map fun _ => request.id.getD .null := by
    cases h : request.id with
    | none => simp [RpcRequest.answered, h]
    | some id =>
      rw [h] at hallowed
      simp [RpcRequest.answered, h, show idAllowed id = true from hallowed]
  unfold respond at hpanic ⊢
  by_cases hallowed : idAllowed (request.id.getD .null) = true
  · rw [if_neg (by simp [hallowed])] at hpanic
    rw [hanswered hallowed, if_neg (by simp [hallowed])]
    by_cases hversion : request.jsonrpc = "2.0"
    · rw [if_neg (not_not.mpr hversion)] at hpanic ⊢
      have hdown : request.shutsDown = decide (request.method = "fm.shutdown") := by
        simp [RpcRequest.shutsDown, hallowed, hversion]
      have hvisible : (dispatch serde app s request.method request.params).2.Visible :=
        visible_dispatch s request.method request.params
      have hcourse : (if request.method = "fm.shutdown" then Course.shutdown else .next) =
          courseOf (decide (request.method = "fm.shutdown")) := by
        simp [courseOf]
      rw [hdown]
      rcases hdispatch : dispatch serde app s request.method request.params with
        ⟨s', ⟨error | result⟩ | _⟩
      · rw [hdispatch] at hvisible
        simp only [hcourse]
        exact .respond s' _ (.failure hid hvisible)
      · rw [hdispatch] at hvisible
        simp only [hcourse]
        exact .respond s' _ (.success hid hvisible)
      · rw [hdispatch] at hpanic
        exact absurd rfl hpanic
    · rw [if_pos hversion]
      have hdown : request.shutsDown = false := by simp [RpcRequest.shutsDown, hversion]
      rw [hdown]
      exact .respond s false (.failure hid (by simp [RpcError.Visible]))
  · have hfalse : idAllowed (request.id.getD .null) = false := Bool.eq_false_iff.mpr hallowed
    have hdown : request.shutsDown = false := by simp [RpcRequest.shutsDown, hfalse]
    have hnull : request.answered = request.id.map fun _ => .null := by
      cases h : request.id with
      | none => simp [RpcRequest.answered, h]
      | some id =>
        rw [h] at hfalse
        simp [RpcRequest.answered, h, show idAllowed id = false from hfalse]
    rw [if_pos hfalse, hdown, hnull]
    exact .respond s false (.failure rfl (by simp [RpcError.Visible]))

theorem visible_detail (text : String) {code : ℤ} {message : String} :
    RpcError.Visible ⟨code, message, some (.object [("detail", .string text)])⟩ := by
  rintro data hdata
  obtain rfl := Option.some_inj.mp hdata
  rfl

theorem react_reacts (s : σ) {line : Reported} (hline : line ≠ .eof)
    (hpanic : (react serde app s line).course ≠ .panic) :
    Reacts (react serde app s line) (answeredId serde line) (shutsDown serde line) := by
  cases line with
  | eof => exact absurd rfl hline
  | oversized => exact .failure s rfl (by simp [RpcError.Visible])
  | line line =>
    rw [react] at hpanic
    rw [react, answeredId, shutsDown]
    by_cases hblank : line.all isAsciiWhitespace = true
    · rw [if_pos hblank, if_pos hblank, hblank]
      exact ⟨rfl, rfl, fun r hr => absurd hr (Option.not_mem_none r)⟩
    · rw [if_neg hblank] at hpanic
      rw [if_neg hblank, if_neg hblank, Bool.eq_false_iff.mpr hblank, Bool.not_false, Bool.true_and,
        requestOn]
      cases hvalue : serde.fromSlice line with
      | none => exact .failure s rfl (visible_detail _)
      | some value =>
        cases hrequest : readRequest value with
        | none =>
          simp only [hrequest, Option.bind_eq_bind, Option.bind_some, Option.elim_none, Option.any_none]
          exact .failure s rfl (visible_detail _)
        | some request =>
          simp only [hrequest, Option.bind_eq_bind, Option.bind_some, Option.elim_some, Option.any_some]
          simp only [hvalue, hrequest] at hpanic
          refine respond_reacts s (visible_id ?_ hrequest) hpanic
          obtain ⟨d, -, hd⟩ := Option.bind_eq_some_iff.mp hvalue
          obtain ⟨-, hd⟩ := Option.ite_none_right_eq_some.mp hd
          obtain rfl := Option.some_inj.mp hd
          exact visibleFloats_renumber serde.number_visible d.value

theorem respond_ne_panic (h : app.Serializes) (s : σ) (request : RpcRequest) :
    (respond serde app s request).course ≠ .panic := by
  have hdispatch : (dispatch serde app s request.method request.params).2 ≠ .panic :=
    dispatch_ne_panic h s request.method request.params
  unfold respond
  generalize dispatch serde app s request.method request.params = dispatched at hdispatch ⊢
  obtain ⟨state, answer | -⟩ := dispatched
  · dsimp only
    split_ifs <;> simp
  · exact absurd rfl hdispatch

theorem react_ne_panic (h : app.Serializes) (s : σ) (line : Reported) :
    (react serde app s line).course ≠ .panic := by
  unfold react
  cases line with
  | eof | oversized => simp
  | line line =>
    dsimp only
    by_cases hblank : line.all isAsciiWhitespace = true
    · simp [hblank]
    · rw [if_neg hblank]
      cases serde.fromSlice line with
      | none => simp
      | some value =>
        cases hrequest : readRequest value with
        | none => simp [hrequest]
        | some request =>
          simp only [hrequest]
          exact respond_ne_panic h s request

/-- The lines up to the first that asks the server to stop, with it. -/
def heard (serde : SerdeJson) : List (List UInt8) → List (List UInt8)
  | [] => []
  | line :: rest => if shutsDown serde (reported line) then [line] else line :: heard serde rest

/-- The ids of the answers to lines. -/
def idsOf (serde : SerdeJson) (heard : List (List UInt8)) : List Json :=
  heard.filterMap fun line => answeredId serde (reported line)

def answeredIds (serde : SerdeJson) (stream : List (List UInt8)) : List Json :=
  idsOf serde (heard serde stream)

/-- A server that ends has answered every line that it heard, in order, each answer a line; one whose
writer fails has written the answers up to part of one; one that panics has answered every line
before. -/
structure Serves (serde : SerdeJson) (stream : List (List UInt8)) (served : Served σ) : Prop where
  exclusive : ∀ r ∈ served.responses, r.error.isSome = !r.result.isSome
  ended : served.verdict = .ok →
    served.responses.map RpcResponse.id = answeredIds serde stream ∧
      lines served.output = served.responses.map RpcResponse.line ∧
        lines served.reader.stream = stream.drop (heard serde stream).length
  failed : ∀ error, served.verdict = .failed error → ∃ next written,
    (served.responses ++ [next]).map RpcResponse.id <+: answeredIds serde stream ∧
      served.output = (served.responses.map RpcResponse.line).flatten ++ next.line.take written
  panicked : served.verdict = .panicked → ∃ before line, before ++ [line] <+: heard serde stream ∧
    served.responses.map RpcResponse.id = idsOf serde before ∧
      lines served.output = served.responses.map RpcResponse.line ∧
        lines served.reader.stream = stream.drop (before.length + 1)

variable {line : List UInt8} {rest : List (List UInt8)} {served : Served σ} {response : RpcResponse}

theorem heard_of_not (h : shutsDown serde (reported line) = false) :
    heard serde (line :: rest) = line :: heard serde rest := by
  simp [heard, h]

theorem heard_of_shutsDown (h : shutsDown serde (reported line) = true) :
    heard serde (line :: rest) = [line] := by
  simp [heard, h]

theorem idsOf_cons (line : List UInt8) (rest : List (List UInt8)) : idsOf serde (line :: rest) =
    (answeredId serde (reported line)).toList ++ idsOf serde rest := by
  cases hid : answeredId serde (reported line) <;> simp [hid, idsOf]

theorem answeredIds_of_not (h : shutsDown serde (reported line) = false) :
    answeredIds serde (line :: rest) =
      (answeredId serde (reported line)).toList ++ answeredIds serde rest := by
  rw [answeredIds, heard_of_not h, idsOf_cons, answeredIds]

theorem answeredIds_of_shutsDown (h : shutsDown serde (reported line) = true) :
    answeredIds serde (line :: rest) = (answeredId serde (reported line)).toList := by
  rw [answeredIds, heard_of_shutsDown h, idsOf_cons, idsOf, List.filterMap_nil, List.append_nil]

/-- A line that is not the last one heard. -/
theorem prefix_heard {before : List (List UInt8)} {last : List UInt8}
    (h : shutsDown serde (reported line) = false) (hbefore : before ++ [last] <+: heard serde rest) :
    (line :: before) ++ [last] <+: heard serde (line :: rest) := by
  rw [heard_of_not h]
  exact (List.prefix_cons_inj line).mpr hbefore

theorem Serves.end (s : σ) {reader : BufRead} (h : reader.stream = []) :
    Serves serde [] (⟨s, [], [], reader, .ok⟩ : Served σ) where
  exclusive r hr := nomatch hr
  ended _ := ⟨rfl, rfl, by rw [h]; rfl⟩
  failed error he := nomatch he
  panicked h := nomatch h

/-- The line that the server panics on is the last one it reads. -/
theorem Serves.panic (s : σ) {reader : BufRead} (hreader : lines reader.stream = rest) :
    Serves serde (line :: rest) (⟨s, [], [], reader, .panicked⟩ : Served σ) where
  exclusive r hr := nomatch hr
  ended h := nomatch h
  failed error he := nomatch he
  panicked _ := by
    refine ⟨[], line, ?_, rfl, rfl, hreader⟩
    rw [heard]
    split
    · exact List.prefix_refl _
    · exact ⟨heard serde rest, rfl⟩

/-- The last line that is heard, with its answer. -/
theorem Serves.last (s : σ) {reader : BufRead} {reaction : Reaction σ}
    (h : Reacts reaction (answeredId serde (reported line)) (shutsDown serde (reported line)))
    (hdown : reaction.course = .shutdown) (hreader : lines reader.stream = rest) :
    Serves serde (line :: rest) (reaction.response.elim (⟨s, [], [], reader, .ok⟩ : Served σ)
      fun response => Served.after response ⟨s, [], [], reader, .ok⟩) := by
  have hstop : shutsDown serde (reported line) = true := h.shutsDown.mpr hdown
  cases hresponse : reaction.response with
  | none =>
    refine ⟨by simp, fun _ => ⟨?_, rfl, ?_⟩, by simp, by simp⟩
    · rw [answeredIds_of_shutsDown hstop, ← h.id, hresponse]
      rfl
    · rw [heard_of_shutsDown hstop]
      exact hreader
  | some response =>
    have hformed := h.wellFormed response hresponse
    refine ⟨fun r hr => ?_, fun _ => ⟨?_, ?_, ?_⟩, fun error he => (nomatch he),
      fun h => (nomatch h)⟩
    · rw [List.mem_singleton.mp hr]
      exact hformed.exclusive
    · rw [answeredIds_of_shutsDown hstop, ← h.id, hresponse]
      rfl
    · exact hformed.lines []
    · rw [heard_of_shutsDown hstop]
      exact hreader

theorem Serves.skip {reaction : Reaction σ}
    (h : Reacts reaction (answeredId serde (reported line)) (shutsDown serde (reported line)))
    (hnone : reaction.response = none) (hdown : reaction.course ≠ .shutdown)
    (hserved : Serves serde rest served) : Serves serde (line :: rest) served := by
  have hstop : shutsDown serde (reported line) = false :=
    Bool.eq_false_iff.mpr fun hstop => hdown (h.shutsDown.mp hstop)
  have hid : answeredId serde (reported line) = none := by rw [← h.id, hnone, Option.map_none]
  have hids : answeredIds serde (line :: rest) = answeredIds serde rest := by
    rw [answeredIds_of_not hstop, hid]
    rfl
  refine ⟨hserved.exclusive, fun hok => ?_, fun error he => ?_, fun hpanic => ?_⟩
  · obtain ⟨hsame, hlines, hrest⟩ := hserved.ended hok
    rw [hids, heard_of_not hstop]
    exact ⟨hsame, hlines, hrest⟩
  · rw [hids]
    exact hserved.failed error he
  · obtain ⟨before, last, hbefore, hsame, hlines, hrest⟩ := hserved.panicked hpanic
    refine ⟨line :: before, last, prefix_heard hstop hbefore, ?_, hlines, hrest⟩
    rw [hsame, idsOf_cons, hid]
    rfl

theorem Serves.after {reaction : Reaction σ}
    (h : Reacts reaction (answeredId serde (reported line)) (shutsDown serde (reported line)))
    (hsome : reaction.response = some response) (hdown : reaction.course ≠ .shutdown)
    (hserved : Serves serde rest served) : Serves serde (line :: rest) (served.after response) := by
  have hstop : shutsDown serde (reported line) = false :=
    Bool.eq_false_iff.mpr fun hstop => hdown (h.shutsDown.mp hstop)
  have hid : answeredId serde (reported line) = some response.id := by
    rw [← h.id, hsome, Option.map_some]
  have hids : answeredIds serde (line :: rest) = response.id :: answeredIds serde rest := by
    rw [answeredIds_of_not hstop, hid]
    rfl
  have hformed := h.wellFormed response hsome
  refine ⟨fun r hr => ?_, fun hok => ?_, fun error he => ?_, fun hpanic => ?_⟩
  · rcases List.mem_cons.mp hr with rfl | hr
    · exact hformed.exclusive
    · exact hserved.exclusive r hr
  · obtain ⟨hsame, hlines, hrest⟩ := hserved.ended hok
    rw [hids, heard_of_not hstop]
    refine ⟨congrArg (response.id :: ·) hsame, ?_, hrest⟩
    exact (hformed.lines served.output).trans (congrArg (response.line :: ·) hlines)
  · obtain ⟨next, written, hbegins, houtput⟩ := hserved.failed error he
    rw [hids]
    refine ⟨next, written, (List.prefix_cons_inj response.id).mpr hbegins, ?_⟩
    rw [Served.after, houtput, List.map_cons, List.flatten_cons, List.append_assoc]
  · obtain ⟨before, last, hbefore, hsame, hlines, hrest⟩ := hserved.panicked hpanic
    refine ⟨line :: before, last, prefix_heard hstop hbefore, ?_, ?_, hrest⟩
    · rw [idsOf_cons, hid, ← hsame]
      rfl
    · exact (hformed.lines served.output).trans (congrArg (response.line :: ·) hlines)

theorem Serves.fail (s : σ) {reader : BufRead} {reaction : Reaction σ}
    (h : Reacts reaction (answeredId serde (reported line)) (shutsDown serde (reported line)))
    (hsome : reaction.response = some response) (written : ℕ) (error : FmError) :
    Serves serde (line :: rest)
      (⟨s, [], response.line.take written, reader, .failed error⟩ : Served σ) := by
  refine ⟨by simp, by simp, fun _ _ => ⟨response, written, ?_, rfl⟩, by simp⟩
  have hid : answeredId serde (reported line) = some response.id := by
    rw [← h.id, hsome]
    rfl
  cases hstop : shutsDown serde (reported line) with
  | true =>
    rw [answeredIds_of_shutsDown hstop, hid]
    exact List.prefix_refl _
  | false =>
    rw [answeredIds_of_not hstop, hid]
    exact List.prefix_append ..

theorem reported_ne_eof (line : List UInt8) : reported line ≠ .eof := by
  unfold reported
  split <;> exact Reported.noConfusion

theorem serves_run (serde : SerdeJson) (app : App σ) (s : σ) (reader : BufRead) (writer : Writer) :
    Serves serde (lines reader.stream) (runServer serde app s reader writer) := by
  induction hlines : lines reader.stream generalizing s reader writer with
  | nil =>
    have hstream : reader.stream = [] := by
      rw [← flatten_lines reader.stream, hlines]
      rfl
    rw [runServer]
    simp only [readBoundedLine_nil hstream, dite_true]
    exact .end s hstream
  | cons line rest ih =>
    obtain ⟨after, hread, hafter⟩ := readBoundedLine_lines reader hlines
    rw [runServer]
    simp only [hread, verdict_ne_eof, dite_false, report_verdict]
    split
    · exact .panic _ hafter
    · rename_i hpanic
      have hreacts := react_reacts s (reported_ne_eof line) hpanic
      cases hresponse : (react serde app s (reported line)).response with
      | none =>
        by_cases hdown : (react serde app s (reported line)).course = .shutdown
        · have hlast := Serves.last (react serde app s (reported line)).state hreacts hdown hafter
          rw [hresponse] at hlast
          rw [if_pos hdown]
          exact hlast
        · rw [if_neg hdown]
          exact .skip hreacts hresponse hdown (ih _ _ _ hafter)
      | some response =>
        cases writer 0 with
        | some failure => exact .fail _ hreacts hresponse failure.1 failure.2
        | none =>
          by_cases hdown : (react serde app s (reported line)).course = .shutdown
          · have hlast := Serves.last (react serde app s (reported line)).state hreacts hdown hafter
            rw [hresponse] at hlast
            simp only [if_pos hdown]
            exact hlast
          · simp only [if_neg hdown]
            exact .after hreacts hresponse hdown (ih _ _ _ hafter)

theorem verdict_run (serde : SerdeJson) (happ : app.Serializes) (s : σ) (reader : BufRead)
    {writer : Writer} (hwriter : ∀ call, writer call = none) :
    (runServer serde app s reader writer).verdict = .ok := by
  induction hlines : lines reader.stream generalizing s reader writer with
  | nil =>
    have hstream : reader.stream = [] := by
      rw [← flatten_lines reader.stream, hlines]
      rfl
    rw [runServer]
    simp only [readBoundedLine_nil hstream, dite_true]
  | cons line rest ih =>
    obtain ⟨after, hread, hafter⟩ := readBoundedLine_lines reader hlines
    rw [runServer]
    simp only [hread, verdict_ne_eof, dite_false, report_verdict,
      if_neg (react_ne_panic happ s (reported line)), hwriter]
    split
    · split
      · rfl
      · exact ih _ _ hwriter hafter
    · split
      · rfl
      · exact ih _ _ (fun _ => rfl) hafter

/-- However the stream is split, and whatever the application and the writer do; the server ends
properly if every plan and execution serializes and the writer does not fail. -/
theorem runServer_serves (serde : SerdeJson) (app : App σ) (s : σ) (reader : BufRead)
    (writer : Writer) :
    Serves serde (lines reader.stream) (runServer serde app s reader writer) ∧
      (app.Serializes → (∀ call, writer call = none) →
        (runServer serde app s reader writer).verdict = .ok) :=
  ⟨serves_run serde app s reader writer, fun happ hwriter => verdict_run serde happ s reader hwriter⟩

end

/-! Input that ends early, with an application that has no adapter. -/

def plainSerde : SerdeJson where
  inRange _ := true
  number n := if (Json.number n).visibleFloats then n else .float "0.0"
  number_visible n := by
    split
    · assumption
    · decide
  lineDetail _ := "expected value at line 1 column 1"
  requestDetail _ := "invalid type"
  paramsDetail _ := "unknown field"

/-- The reports count the calls; a path that `fm.doctor` reports is no text. -/
def countingApp : App ℕ where
  validate s := (s + 1, .ok ⟨.ok (.number (.int s)), fun value h => by cases h; rfl⟩)
  doctor s :=
    (s + 1, .ok ⟨.error "path contains invalid UTF-8 characters", fun value h => nomatch h⟩)
  plan _ s := (s + 1, .ok ⟨.ok (.number (.int s)), fun value h => by cases h; rfl⟩)
  executeWithReportBundle _ s := (s + 1, .error ⟨2, "replay requires an adapter"⟩)

theorem serializes_countingApp : countingApp.Serializes where
  plan operation s report h := by
    cases h
    rfl
  execution operation s report h := nomatch h

def requestLine (members : List (String × Json)) : List UInt8 :=
  Document.encode (Json.print (fun _ => false) (.object (("jsonrpc", .string "2.0") :: members))) ++
    [newline]

def lateRequest : List UInt8 :=
  requestLine [("id", .number (.int 4)), ("method", .string "fm.doctor")]

/-- A request, a blank line, a notification, a refused request, no JSON, and a shutdown. -/
def stoppedStream : List UInt8 :=
  requestLine [("id", .number (.int 1)), ("method", .string "fm.doctor")] ++ [32, newline] ++
    requestLine [("method", .string "fm.validate")] ++
    requestLine [("id", .string "two"), ("method", .string "fm.check")] ++ [63, newline] ++
    requestLine [("id", .number (.int 3)), ("method", .string "fm.shutdown")] ++ lateRequest

theorem runServer_serves_stopped :
    let served := runServer plainSerde countingApp 0 ⟨stoppedStream, fun call => call % 7⟩
      fun _ => none
    served.responses.map RpcResponse.id =
        [.number (.int 1), .string "two", .null, .number (.int 3)] ∧
      lines served.output = served.responses.map RpcResponse.line ∧
      lines served.reader.stream = [lateRequest] := by
  intro served
  obtain ⟨hserves, hends⟩ := runServer_serves plainSerde countingApp 0
    ⟨stoppedStream, fun call => call % 7⟩ fun _ => none
  obtain ⟨hids, houtput, hlate⟩ := hserves.ended (hends serializes_countingApp fun _ => rfl)
  have hanswered : answeredIds plainSerde (lines stoppedStream) =
      [.number (.int 1), .string "two", .null, .number (.int 3)] := by decide +kernel
  have hunread : (lines stoppedStream).drop (heard plainSerde (lines stoppedStream)).length =
      [lateRequest] := by decide +kernel
  exact ⟨hids.trans hanswered, houtput, hlate.trans hunread⟩

end Rpc

end OptoSync
