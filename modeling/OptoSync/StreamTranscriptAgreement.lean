import OptoSync.Entries
import OptoSync.StreamTranscript
import OptoSync.Transition

/-!
# The transcript validators side by side

The Go validator follows that of `fmctl` message by message, until an adapter answers `unsupported`
to a request for a capability that it advertised. `fmctl` refuses that answer, the Go SDK takes it.
-/
namespace OptoSync.Stream

open Transition

/-! ## The same message in Go -/

def StreamOperation.toGo : StreamOperation → Go.Operation
  | .hello => { name := "hello" }
  | .reset initialState seed logicalTime =>
    { name := "reset", initialState, seed := seed.getD "", logicalTime }
  | .apply action arguments logicalTime => { name := "apply", action, arguments, logicalTime }
  | .observe => { name := "observe" }
  | .settle maxSteps => { name := "settle", maxSteps }
  | .snapshot => { name := "snapshot" }
  | .restore stored schemaHash => { name := "restore", snapshot := stored, schemaHash }
  | .fault label arguments => { name := "fault", fault := label, arguments }
  | .close => { name := "close" }

def StreamRequest.toGo (request : StreamRequest) : Go.Request :=
  { protocol := request.protocol, protocolVersion := request.protocolVersion,
    requestId := request.requestId, machine := request.machine, generation := request.generation,
    operation := request.operation.toGo }

def StreamError.toGo (error : StreamError) : Go.StreamError :=
  { code := error.code, message := error.message, retryable := error.retryable,
    data := error.data.getD .null }

def StreamOutcome.toGo : StreamOutcome → Go.Outcome
  | .ok value => { kind := "ok", value }
  | .error e => { kind := "error", error := some e.toGo }
  | .unsupported e => { kind := "unsupported", error := some e.toGo }

def StreamResponse.toGo (response : StreamResponse) : Go.Response :=
  { protocol := response.protocol, protocolVersion := response.protocolVersion,
    requestId := response.requestId, machine := response.machine,
    generation := response.generation, operation := response.operation.wireName,
    outcome := response.outcome.toGo }

def StreamMessage.toGo : StreamMessage → Go.Message
  | .request message => { kind := "request", request := some message.toGo }
  | .response message => { kind := "response", response := some message.toGo }

/-- The validation of the message itself, with which `Accept` begins. -/
def Go.Message.validate (message : Go.Message) : Checked Unit :=
  match message.request, message.response with
  | some request, _ => request.validate
  | none, some response => response.validate
  | none, none => .error "unsupported message kind"

/-- Individually valid, for both. -/
def StreamMessage.Valid (message : StreamMessage) : Prop :=
  message.validate = .ok () ∧ message.toGo.validate = .ok ()

@[simp] theorem StreamOperation.toGo_name (operation : StreamOperation) :
    operation.toGo.name = operation.name.wireName := by
  cases operation <;> rfl

theorem wireName_injective : Function.Injective StreamOperationName.wireName := by
  intro a b h
  cases a <;> cases b <;> first | rfl | exact absurd h (by decide)

@[simp] theorem wireName_inj {a b : StreamOperationName} : a.wireName = b.wireName ↔ a = b :=
  wireName_injective.eq_iff

theorem head_ne_sign {value : String} (h : Go.validateDecimal value false = .ok ()) :
    value.toList.head? ≠ some '-' ∧ value.toList.head? ≠ some '+' := by
  unfold Go.validateDecimal at h
  constructor
  · intro hminus
    simp [hminus] at h
    split_ifs at h
  · intro hplus
    simp [hplus] at h
    split_ifs at h

/-- Both parse the same number. -/
theorem parseRequestID_eq {value : String} {n : ℕ} {z : ℤ} (hrust : parseRequestId value = .ok n)
    (hgo : Go.parseRequestID value = .ok z) : z = n := by
  obtain ⟨_, hdecimal, hgo⟩ := bind_eq_ok.mp hgo
  obtain ⟨_, -, hrust⟩ := bind_eq_ok.mp hrust
  obtain ⟨hminus, hplus⟩ := head_ne_sign hdecimal
  have hparse : Decimal.parseU64 value =
      (Decimal.parseDigits value.toList).filter (· ≤ Decimal.maxU64) := by
    unfold Decimal.parseU64
    split
    · rename_i cs heq
      simp [heq] at hplus
    · rfl
  have hset : CanonicalJson.Go.setString value =
      (Decimal.parseDigits value.toList).map fun n : ℕ => (n : ℤ) := by
    unfold CanonicalJson.Go.setString
    split
    · rename_i cs heq
      simp [heq] at hminus
    · rename_i cs heq
      simp [heq] at hplus
    · rfl
  rw [hparse] at hrust
  rw [hset] at hgo
  cases hdigits : Decimal.parseDigits value.toList with
  | none => simp [hdigits] at hgo
  | some m =>
    simp only [hdigits, Option.map_some] at hgo
    split_ifs at hgo
    simp only [hdigits, Option.filter_some] at hrust
    split_ifs at hrust with hmax
    have hn : m = n := by
      simp only at hrust
      split_ifs at hrust
      exact Except.ok.inj hrust
    rw [← Except.ok.inj hgo, hn]

theorem wireName_of_capabilityOf {name : String} {c : StreamOperationName}
    (h : capabilityOf name = some c) : c.wireName = name := by
  simpa using List.find?_some h

/-- A name that both decode is a string. -/
theorem decodeString_wireName {v : Json} {c : StreamOperationName} {w : String}
    (hrust : decodeOperationName v = some c) (hgo : Go.decodeString "" v = some w) :
    w = c.wireName := by
  unfold decodeOperationName at hrust
  split at hrust
  · rw [wireName_of_capabilityOf hrust]
    exact (Option.some.inj hgo).symm
  · cases hgo
  · cases hrust

theorem decodeElements_wireName {items : List Json} {cs : List StreamOperationName}
    {ws : List String} (hrust : items.mapM decodeOperationName = some cs)
    (hgo : Go.decodeElements [] items = some ws) :
    ws = cs.map StreamOperationName.wireName ∧ items.length = ws.length := by
  induction items generalizing cs ws with
  | nil =>
    simp only [List.mapM_nil, Option.pure_def, Option.some.injEq] at hrust
    simp only [Go.decodeElements, Option.some.injEq] at hgo
    rw [← hrust, ← hgo]
    exact ⟨rfl, rfl⟩
  | cons v vs ih =>
    simp only [List.mapM_cons, Option.pure_def, Option.bind_eq_bind, Option.bind_eq_some_iff,
      Option.some.injEq] at hrust
    simp only [Go.decodeElements, Option.bind_eq_bind, Option.bind_eq_some_iff,
      Option.some.injEq, List.headD_nil, List.tail_nil] at hgo
    obtain ⟨c, hc, cs, hcs, rfl⟩ := hrust
    obtain ⟨w, hw, ws, hws, rfl⟩ := hgo
    obtain ⟨hmap, hlength⟩ := ih hcs hws
    rw [List.map_cons, decodeString_wireName hc hw, hmap]
    rw [hmap] at hlength
    exact ⟨rfl, congrArg Nat.succ hlength⟩

theorem decodeSlice_wireName {items : List Json} {cs : List StreamOperationName} {slice : Go.Slice}
    (hrust : items.mapM decodeOperationName = some cs)
    (hgo : Go.decodeSlice {} (.array items) = some slice) :
    slice.elements = cs.map StreamOperationName.wireName := by
  cases items with
  | nil =>
    obtain rfl : [] = cs := by simpa using hrust
    obtain rfl : ({} : Go.Slice) = slice := Option.some.inj hgo
    rfl
  | cons v vs =>
    simp only [Go.decodeSlice, Option.bind_eq_bind, Option.bind_eq_some_iff,
      Option.some.injEq] at hgo
    obtain ⟨ws, hws, rfl⟩ := hgo
    obtain ⟨heq, hlength⟩ := decodeElements_wireName hrust hws
    rw [Go.Slice.elements, hlength, List.take_length, heq]

/-- What a successful decoding of distinct, exact keys leaves in the capabilities. -/
theorem capabilities_of_foldlM {fs : List (String × Json)} {raw result : Go.RawHello}
    (h : fs.foldlM Go.setHello raw = some result)
    (hexact : ∀ f ∈ fs, f.1 ∈ ["implementation", "capabilities", "canonicalStateSchemaHash"])
    (hnodup : (fs.map Prod.fst).Nodup) {v : Json} (hv : ("capabilities", v) ∈ fs) :
    Go.decodeSlice raw.capabilities v = some result.capabilities := by
  have hkeep : ∀ {f : String × Json} {raw next : Go.RawHello}, Go.setHello raw f = some next →
      f.1 ∈ ["implementation", "capabilities", "canonicalStateSchemaHash"] →
      f.1 ≠ "capabilities" → next.capabilities = raw.capabilities := by
    intro f raw next hset hmem hne
    simp only [Go.setHello, Go.structField, hmem, if_true] at hset
    split at hset
    · obtain ⟨w, -, rfl⟩ := Option.map_eq_some_iff.mp hset
      rfl
    · rename_i heq
      exact absurd (Option.some.inj heq) hne
    · obtain ⟨w, -, rfl⟩ := Option.map_eq_some_iff.mp hset
      rfl
    · cases hset
  have hrest : ∀ {fs : List (String × Json)} {raw result : Go.RawHello},
      fs.foldlM Go.setHello raw = some result →
      (∀ f ∈ fs, f.1 ∈ ["implementation", "capabilities", "canonicalStateSchemaHash"]) →
      "capabilities" ∉ fs.map Prod.fst → result.capabilities = raw.capabilities := by
    intro fs
    induction fs with
    | nil =>
      intro raw result h _ _
      rw [← Option.some.inj h]
    | cons f fs ih =>
      intro raw result h hexact hnot
      rw [List.foldlM_cons, Option.bind_eq_bind, Option.bind_eq_some_iff] at h
      obtain ⟨next, hnext, htail⟩ := h
      obtain ⟨hf, hfs⟩ := List.forall_mem_cons.mp hexact
      rw [List.map_cons, List.mem_cons, not_or] at hnot
      rw [ih htail hfs hnot.2, hkeep hnext hf (Ne.symm hnot.1)]
  induction fs generalizing raw with
  | nil => cases hv
  | cons f fs ih =>
    rw [List.foldlM_cons, Option.bind_eq_bind, Option.bind_eq_some_iff] at h
    obtain ⟨next, hnext, htail⟩ := h
    obtain ⟨hf, hfs⟩ := List.forall_mem_cons.mp hexact
    rw [List.map_cons, List.nodup_cons] at hnodup
    obtain rfl | hv := List.mem_cons.mp hv
    · rw [hrest htail hfs hnodup.1]
      simp only [Go.setHello, Go.structField] at hnext
      obtain ⟨w, hw, rfl⟩ := Option.map_eq_some_iff.mp hnext
      exact hw
    · have hne : f.1 ≠ "capabilities" := by
        rintro heq
        exact hnodup.1 (heq ▸ List.mem_map_of_mem hv)
      rw [← hkeep hnext hf hne]
      exact ih htail hfs hnodup.2 hv

/-- Where each name of a struct has a field, an object with as many keys has no others. -/
theorem exact_of_lookup {names : List String} {fields : List (String × Json)}
    (hnames : names.Nodup) (hlength : fields.length = names.length)
    (hlookup : ∀ name ∈ names, ∃ v, fields.lookup name = some v) : ∀ f ∈ fields, f.1 ∈ names := by
  have hsubset : names ⊆ fields.map Prod.fst := by
    intro name hname
    obtain ⟨v, hv⟩ := hlookup name hname
    exact List.mem_map_of_mem (f := Prod.fst) (Entries.mem_of_lookup hv)
  have hperm : names.Perm (fields.map Prod.fst) :=
    (List.subperm_of_subset hnames hsubset).perm_of_length_le (by simp [hlength])
  exact fun f hf => hperm.mem_iff.mpr (List.mem_map_of_mem hf)

/-- Both read the same capabilities. -/
theorem decodeHello_capabilities {value : Json} {hello : HelloResult} {raw : Go.RawHello}
    (hrust : decodeHelloResult value = some hello)
    (hgo : Go.decodeStruct Go.setHello {} value = some raw) :
    raw.capabilities.elements = hello.capabilities.map StreamOperationName.wireName := by
  cases value with
  | object fields =>
    simp only [decodeHelloResult, structFields, Option.bind_eq_bind, Option.bind_eq_some_iff,
      Option.ite_none_right_eq_some] at hrust
    obtain ⟨values, ⟨⟨hlength, hnodup⟩, hvalues⟩, hrust⟩ := hrust
    simp only [List.mapM_cons, List.mapM_nil, Option.pure_def, Option.bind_eq_bind,
      Option.bind_eq_some_iff, Option.some.injEq] at hvalues
    obtain ⟨v₁, h₁, rest, ⟨v₂, h₂, rest, ⟨v₃, h₃, -, rfl, rfl⟩, rfl⟩, rfl⟩ := hvalues
    have hexact := exact_of_lookup (by decide) hlength (by simp [h₁, h₂, h₃])
    have hperm := CanonicalForm.sortByKey_perm fields
    split at hrust
    · rename_i implementation capabilities hash heq
      obtain ⟨-, rfl, -⟩ : v₁ = implementation ∧ v₂ = .array capabilities ∧ v₃ = hash := by
        simpa using heq
      simp only [Option.bind_eq_some_iff, Option.some.injEq] at hrust
      obtain ⟨_, -, cs, hcs, _, -, rfl⟩ := hrust
      have hslice := capabilities_of_foldlM hgo
        (fun f hf => hexact f (hperm.mem_iff.mp hf)) ((hperm.map _).nodup_iff.mpr hnodup)
        (hperm.mem_iff.mpr (Entries.mem_of_lookup h₂))
      exact decodeSlice_wireName hcs hslice
    · cases hrust
  | null => simp [decodeHelloResult, structFields] at hrust
  | _ => cases hgo

/-- The two validations of a hello result give the same capabilities. -/
theorem hello_capabilities {value : Json} {hello : HelloResult} {result : Go.HelloResult}
    {capabilities : List String} (hrust : requireHello value = .ok hello)
    (hgo : Go.decodeHelloResult value = .ok result)
    (hcapabilities : Go.validateCapabilities result.capabilities = .ok capabilities) :
    capabilities = hello.capabilities.map StreamOperationName.wireName := by
  have hdecoded : decodeHelloResult value = some hello := by
    unfold requireHello at hrust
    split at hrust
    · cases hrust
    · rename_i heq
      rw [heq, Except.ok.inj hrust]
  obtain ⟨canonical, -, hcanonical⟩ := bind_eq_ok.mp hcapabilities
  split_ifs at hcanonical with hsame
  obtain rfl := Except.ok.inj hcanonical
  rw [not_not] at hsame
  unfold Go.decodeHelloResult at hgo
  split at hgo
  · cases hgo
  · rename_i raw hraw
    obtain ⟨_, -, hgo⟩ := bind_eq_ok.mp hgo
    obtain ⟨_, -, hgo⟩ := bind_eq_ok.mp hgo
    obtain ⟨_, -, hgo⟩ := bind_eq_ok.mp hgo
    obtain ⟨_, -, hgo⟩ := bind_eq_ok.mp hgo
    split_ifs at hgo
    rw [← hsame, ← Except.ok.inj hgo]
    exact decodeHello_capabilities hdecoded hraw

/-! ## The same state in Go -/

def SessionPhase.toGo : SessionPhase → Go.SessionPhase
  | .awaitHello => .awaitHello
  | .ready => .ready
  | .closed => .closed

def PendingRequest.toGo (pending : PendingRequest) : Go.PendingRequest :=
  { requestID := pending.requestId, machine := pending.machine, generation := pending.generation,
    operation := pending.operation.wireName }

def StreamTranscriptValidator.toGo (v : StreamTranscriptValidator) : Go.TranscriptValidator :=
  { phase := v.phase.toGo, generation := v.generation, lastRequestID := v.lastRequestId,
    pending := v.pending.map PendingRequest.toGo,
    capabilities := v.capabilities.map StreamOperationName.wireName }

/-- A hello is pending before the session is ready, and nothing else; no request is pending after
it has closed; hello is not a capability. -/
structure StreamTranscriptValidator.Fits (v : StreamTranscriptValidator) : Prop where
  capabilities : .hello ∉ v.capabilities
  awaitHello : v.phase = .awaitHello → ∀ p ∈ v.pending, p.operation = .hello
  ready : v.phase = .ready → ∀ p ∈ v.pending, p.operation ≠ .hello
  closed : v.phase = .closed → v.pending = none

/-- The response answers `unsupported` to the pending request, for an advertised capability. -/
def StreamTranscriptValidator.RejectsAdvertised (v : StreamTranscriptValidator) :
    StreamMessage → Prop
  | .request _ => False
  | .response response =>
    ∃ p error, v.pending = some p ∧ response.outcome = .unsupported error ∧
      response.requestId = p.requestId ∧ response.machine = p.machine ∧
      response.generation = p.generation ∧ response.operation = p.operation ∧
      p.operation ≠ .close ∧ p.operation ∈ v.capabilities

theorem SessionPhase.toGo_eq_iff {a : SessionPhase} :
    (a.toGo = .awaitHello ↔ a = .awaitHello) ∧ (a.toGo = .ready ↔ a = .ready) ∧
      (a.toGo = .closed ↔ a = .closed) := by
  cases a <;> decide

theorem wireName_eq_iff (c : StreamOperationName) :
    (c.wireName = "hello" ↔ c = .hello) ∧ (c.wireName = "reset" ↔ c = .reset) ∧
      (c.wireName = "close" ↔ c = .close) := by
  cases c <;> decide

theorem wrongPhase_toGo (v : StreamTranscriptValidator) (request : StreamRequest) :
    (v.toGo.wrongPhase request.toGo).isSome = (v.wrongPhase request).isSome := by
  obtain ⟨hhello, hreset, -⟩ := wireName_eq_iff request.operation.name
  unfold Go.TranscriptValidator.wrongPhase StreamTranscriptValidator.wrongPhase
  cases hphase : v.phase with
  | awaitHello =>
    simp only [StreamTranscriptValidator.toGo, hphase, SessionPhase.toGo, StreamRequest.toGo,
      StreamOperation.toGo_name, ne_eq, hhello]
  | ready =>
    simp only [StreamTranscriptValidator.toGo, hphase, SessionPhase.toGo, StreamRequest.toGo,
      StreamOperation.toGo_name, ne_eq, hhello, hreset, Go.maxSafeInteger, maxStreamGeneration]
    by_cases hhello : request.operation.name = .hello
    · simp [hhello]
    by_cases hlimit : request.operation.name = .reset ∧ v.generation = 9007199254740991
    · simp [hlimit]
    · simp only [hhello, hlimit, if_false]
  | closed => simp [StreamTranscriptValidator.toGo, hphase, SessionPhase.toGo]

/-- A step of the two validators with the same verdict and the same state after it. -/
def Follows (v : Verdict StreamTranscriptValidator) (w : Verdict Go.TranscriptValidator) : Prop :=
  w.1.isOk = v.1.isOk ∧ w.2 = v.2.toGo

theorem Follows.refuse (v : StreamTranscriptValidator) (s t : String) :
    Follows (v.refuse s) (v.toGo.refuse t) := ⟨rfl, rfl⟩

theorem Follows.ok {v : StreamTranscriptValidator} {w : Go.TranscriptValidator} (h : w = v.toGo) :
    Follows (.ok (), v) (.ok (), w) := ⟨rfl, h⟩

theorem requestId_of_validate {request : StreamRequest} (h : request.validate = .ok ()) :
    ∃ n, parseRequestId request.requestId = .ok n := by
  obtain ⟨_, h, -⟩ := bind_eq_ok.mp h
  unfold validateEnvelope at h
  split_ifs at h
  obtain ⟨n, hn, -⟩ := bind_eq_ok.mp h
  exact ⟨n, hn⟩

theorem requestID_of_validate {request : Go.Request} (h : request.validate = .ok ()) :
    ∃ z, Go.parseRequestID request.requestId = .ok z := by
  obtain ⟨_, h, -⟩ := bind_eq_ok.mp h
  unfold Go.validateEnvelope at h
  split_ifs at h
  obtain ⟨z, hz, -⟩ := bind_eq_ok.mp h
  exact ⟨z, hz⟩

theorem acceptRequest_follows (v : StreamTranscriptValidator) {request : StreamRequest}
    (hrust : request.validate = .ok ()) (hgo : request.toGo.validate = .ok ()) :
    Follows (v.acceptRequest request) (v.toGo.acceptRequest request.toGo) := by
  obtain ⟨n, hn⟩ := requestId_of_validate hrust
  obtain ⟨z, hz⟩ := requestID_of_validate hgo
  obtain rfl : z = n := parseRequestID_eq hn hz
  simp only [Go.TranscriptValidator.acceptRequest, hgo, hz,
    StreamTranscriptValidator.acceptRequest, hn]
  by_cases hclosed : v.phase = .closed
  case pos =>
    have hgoClosed : v.toGo.phase = .closed := SessionPhase.toGo_eq_iff.2.2.mpr hclosed
    rw [if_pos hclosed, if_pos hgoClosed]
    exact .refuse v _ _
  have hgoOpen : v.toGo.phase ≠ .closed := SessionPhase.toGo_eq_iff.2.2.not.mpr hclosed
  rw [if_neg hclosed, if_neg hgoOpen]
  cases hpending : v.pending with
  | some p =>
    have hgoPending : v.toGo.pending = some p.toGo := by
      simp [StreamTranscriptValidator.toGo, hpending]
    simp only [hgoPending]
    exact .refuse v _ _
  | none =>
    have hgoPending : v.toGo.pending = none := by
      simp [StreamTranscriptValidator.toGo, hpending]
    simp only [hgoPending]
    by_cases hlast : n ≤ v.lastRequestId
    case pos =>
      have hgoLast : (n : ℤ) ≤ v.toGo.lastRequestID := Int.ofNat_le.mpr hlast
      rw [if_pos hlast, if_pos hgoLast]
      exact .refuse v _ _
    have hgoLast : ¬(n : ℤ) ≤ v.toGo.lastRequestID := Int.ofNat_le.not.mpr hlast
    rw [if_neg hlast, if_neg hgoLast]
    have hphase := wrongPhase_toGo v request
    cases hwrong : v.wrongPhase request with
    | some text =>
      rw [hwrong] at hphase
      obtain ⟨text', htext⟩ := Option.isSome_iff_exists.mp hphase
      simp only [htext]
      exact .refuse v _ _
    | none =>
      rw [hwrong] at hphase
      have hnone : v.toGo.wrongPhase request.toGo = none := by simpa using hphase
      simp only [hnone]
      exact .ok (by simp [StreamTranscriptValidator.toGo, PendingRequest.toGo, StreamRequest.toGo])

theorem hello_of_validate {response : StreamResponse} {value : Json}
    (h : response.validate = .ok ()) (hoperation : response.operation = .hello)
    (houtcome : response.outcome = .ok value) :
    ∃ hello, requireHello value = .ok hello ∧ hello.validate = .ok () := by
  obtain ⟨_, -, h⟩ := bind_eq_ok.mp h
  obtain ⟨_, -, h⟩ := bind_eq_ok.mp h
  simp only [hoperation, houtcome] at h
  obtain ⟨hello, hhello, h⟩ := bind_eq_ok.mp h
  obtain ⟨_, hvalid, -⟩ := bind_eq_ok.mp h
  exact ⟨hello, hhello, hvalid⟩

theorem helloResult_of_validate {response : Go.Response} (h : response.validate = .ok ())
    (hoperation : response.operation = "hello") (houtcome : response.outcome.kind = "ok") :
    ∃ result capabilities, Go.decodeHelloResult response.outcome.value = .ok result ∧
      Go.validateCapabilities result.capabilities = .ok capabilities := by
  obtain ⟨_, -, h⟩ := bind_eq_ok.mp h
  obtain ⟨_, -, h⟩ := bind_eq_ok.mp h
  split_ifs at h
  · obtain ⟨_, -, h⟩ := bind_eq_ok.mp h
    rename_i hhello
    obtain ⟨result, hresult, h⟩ := bind_eq_ok.mp h
    obtain ⟨capabilities, hcapabilities, -⟩ := bind_eq_ok.mp h
    exact ⟨result, capabilities, hresult, hcapabilities⟩
  · rename_i hhello
    exact absurd ⟨hoperation, houtcome⟩ hhello

theorem mem_map_wireName {c : StreamOperationName} {cs : List StreamOperationName} :
    c.wireName ∈ cs.map StreamOperationName.wireName ↔ c ∈ cs :=
  List.mem_map_of_injective wireName_injective

/-- The response echoes the pending request. -/
def Echoes (response : StreamResponse) (p : PendingRequest) : Prop :=
  response.requestId = p.requestId ∧ response.machine = p.machine ∧
    response.generation = p.generation ∧ response.operation = p.operation

theorem echoes_iff {response : StreamResponse} {p : PendingRequest} :
    ¬(response.requestId ≠ p.requestId ∨ response.machine ≠ p.machine ∨
      response.generation ≠ p.generation ∨ response.operation ≠ p.operation) ↔
      Echoes response p := by
  simp only [Echoes, not_or, not_not]

theorem echoes_toGo {response : StreamResponse} {p : PendingRequest} :
    ¬(response.toGo.requestId ≠ p.toGo.requestID ∨ response.toGo.machine ≠ p.toGo.machine ∨
      response.toGo.generation ≠ p.toGo.generation ∨
        response.toGo.operation ≠ p.toGo.operation) ↔ Echoes response p := by
  simp only [Echoes, not_or, not_not, StreamResponse.toGo, PendingRequest.toGo, wireName_inj]

/-- The state after an answer that changes nothing but the pending request. -/
theorem Follows.answered (v : StreamTranscriptValidator) :
    Follows (.ok (), { v with pending := none }) (.ok (), { v.toGo with pending := none }) :=
  .ok rfl

theorem acceptOutcome_hello {v : StreamTranscriptValidator} {p : PendingRequest}
    {response : StreamResponse} (hrust : response.validate = .ok ())
    (hgo : response.toGo.validate = .ok ()) (hpending : p.operation = .hello)
    (hoperation : response.operation = .hello) (hphase : v.phase ≠ .ready) :
    Follows (v.acceptOutcome p response.outcome) (v.toGo.acceptOutcome response.toGo) := by
  have hgoOperation : response.toGo.operation = "hello" := by
    rw [StreamResponse.toGo, hoperation]
    rfl
  have hgoPhase : v.toGo.phase ≠ .ready := SessionPhase.toGo_eq_iff.2.1.not.mpr hphase
  rw [Go.TranscriptValidator.acceptOutcome, if_neg fun h => hgoPhase h.2.1, hgoOperation]
  unfold StreamTranscriptValidator.acceptOutcome
  rw [hpending]
  cases houtcome : response.outcome with
  | ok value =>
    have hkind : response.toGo.outcome = { kind := "ok", value } := by
      rw [StreamResponse.toGo, houtcome, StreamOutcome.toGo]
    obtain ⟨hello, hhello, hvalid⟩ := hello_of_validate hrust hoperation houtcome
    obtain ⟨result, capabilities, hresult, hcapabilities⟩ :=
      helloResult_of_validate hgo hgoOperation (by rw [hkind])
    rw [hkind] at hresult
    have hsame := hello_capabilities hhello hresult hcapabilities
    simp only [hkind, hhello, hvalid, hresult, hcapabilities, ne_eq, not_true_eq_false, if_false]
    refine ⟨rfl, ?_⟩
    simp [StreamTranscriptValidator.toGo, SessionPhase.toGo, hsame]
  | error e =>
    have hkind : response.toGo.outcome.kind ≠ "ok" := by
      simp [StreamResponse.toGo, houtcome, StreamOutcome.toGo]
    simp only [ne_eq, hkind, not_false_eq_true, if_true]
    exact .refuse v _ _
  | unsupported e =>
    have hkind : response.toGo.outcome.kind ≠ "ok" := by
      simp [StreamResponse.toGo, houtcome, StreamOutcome.toGo]
    simp only [ne_eq, hkind, not_false_eq_true, if_true]
    exact .refuse v _ _

theorem toGo_outcome_kind (response : StreamResponse) :
    response.toGo.outcome.kind = match response.outcome with
      | .ok _ => "ok"
      | .error _ => "error"
      | .unsupported _ => "unsupported" := by
  rw [StreamResponse.toGo]
  cases response.outcome <;> rfl

theorem acceptOutcome_reset {v : StreamTranscriptValidator} {p : PendingRequest}
    {response : StreamResponse} (hpending : p.operation = .reset)
    (hoperation : response.operation = .reset) (hgeneration : response.generation = p.generation)
    (hcapable : ∀ e, response.outcome = .unsupported e → .reset ∉ v.capabilities) :
    Follows (v.acceptOutcome p response.outcome) (v.toGo.acceptOutcome response.toGo) := by
  have hgoOperation : response.toGo.operation = "reset" := by
    rw [StreamResponse.toGo, hoperation]
    rfl
  have hgoGeneration : response.toGo.generation = p.generation := hgeneration
  have hkind := toGo_outcome_kind response
  rw [Go.TranscriptValidator.acceptOutcome, if_neg fun h => h.2.2.1 hgoOperation, hgoOperation]
  unfold StreamTranscriptValidator.acceptOutcome
  rw [hpending]
  cases houtcome : response.outcome with
  | ok value =>
    rw [houtcome] at hkind
    simp only [hkind, if_true, hgoGeneration]
    by_cases hlimit : v.generation = maxStreamGeneration
    · have hgoLimit : v.toGo.generation = Go.maxSafeInteger := hlimit
      rw [if_pos hlimit, if_pos hgoLimit]
      exact .refuse v _ _
    have hgoLimit : v.toGo.generation ≠ Go.maxSafeInteger := hlimit
    rw [if_neg hlimit, if_neg hgoLimit]
    by_cases hnext : p.generation ≠ v.generation + 1
    · have hgoNext : p.generation ≠ v.toGo.generation + 1 := hnext
      rw [if_pos hnext, if_pos hgoNext]
      exact .refuse v _ _
    · have hgoNext : ¬p.generation ≠ v.toGo.generation + 1 := hnext
      rw [if_neg hnext, if_neg hgoNext]
      exact .ok rfl
  | error e =>
    rw [houtcome] at hkind
    simp only [hkind, String.reduceEq, if_false]
    exact .answered v
  | unsupported e =>
    rw [houtcome] at hkind
    simp only [hkind, String.reduceEq, if_false, hcapable e houtcome]
    exact .answered v

theorem acceptOutcome_close {v : StreamTranscriptValidator} {p : PendingRequest}
    {response : StreamResponse} (hpending : p.operation = .close)
    (hoperation : response.operation = .close) :
    Follows (v.acceptOutcome p response.outcome) (v.toGo.acceptOutcome response.toGo) := by
  have hgoOperation : response.toGo.operation = "close" := by
    rw [StreamResponse.toGo, hoperation]
    rfl
  have hkind := toGo_outcome_kind response
  rw [Go.TranscriptValidator.acceptOutcome, if_neg fun h => h.2.2.2.1 hgoOperation, hgoOperation]
  unfold StreamTranscriptValidator.acceptOutcome
  rw [hpending]
  cases houtcome : response.outcome with
  | ok value =>
    rw [houtcome] at hkind
    simp only [hkind, ne_eq, not_true_eq_false, if_false]
    exact .ok rfl
  | error e =>
    rw [houtcome] at hkind
    simp only [hkind, ne_eq, String.reduceEq, not_false_eq_true, if_true]
    exact .refuse v _ _
  | unsupported e =>
    rw [houtcome] at hkind
    simp only [hkind, ne_eq, String.reduceEq, not_false_eq_true, if_true]
    exact .refuse v _ _

theorem acceptOutcome_other {v : StreamTranscriptValidator} {p : PendingRequest}
    {response : StreamResponse} (hoperation : response.operation = p.operation)
    (hother : p.operation ≠ .hello ∧ p.operation ≠ .reset ∧ p.operation ≠ .close)
    (hphase : v.phase = .ready)
    (hcapable : ∀ e, response.outcome = .unsupported e → p.operation ∉ v.capabilities) :
    Follows (v.acceptOutcome p response.outcome) (v.toGo.acceptOutcome response.toGo) := by
  obtain ⟨hhello, hreset, hclose⟩ := hother
  obtain ⟨hname, hresetName, hcloseName⟩ := wireName_eq_iff p.operation
  have hgoOperation : response.toGo.operation = p.operation.wireName := by
    rw [StreamResponse.toGo, hoperation]
  have hgoPhase : v.toGo.phase = .ready := SessionPhase.toGo_eq_iff.2.1.mpr hphase
  have hadvertised : p.operation.wireName ∈ v.toGo.capabilities ↔ p.operation ∈ v.capabilities :=
    mem_map_wireName
  have hkind := toGo_outcome_kind response
  have hgo : v.toGo.acceptOutcome response.toGo =
      if response.toGo.outcome.kind = "ok" ∧ p.operation ∉ v.capabilities then
        v.toGo.refuse s!"unadvertised operation {response.toGo.operation} returned ok"
      else (.ok (), { v.toGo with pending := none }) := by
    unfold Go.TranscriptValidator.acceptOutcome
    simp only [hgoOperation, hgoPhase, hadvertised, ne_eq, hresetName, hcloseName, hreset, hclose,
      not_false_eq_true, true_and]
    by_cases hrefused : response.toGo.outcome.kind = "ok" ∧ p.operation ∉ v.capabilities
    · rw [if_pos hrefused, if_pos hrefused]
    · rw [if_neg hrefused, if_neg hrefused]
      split
      · rename_i heq
        exact absurd (hname.mp heq) hhello
      · rename_i heq
        exact absurd (hresetName.mp heq) hreset
      · rename_i heq
        exact absurd (hcloseName.mp heq) hclose
      · rfl
  rw [hgo]
  unfold StreamTranscriptValidator.acceptOutcome
  cases houtcome : response.outcome with
  | ok value =>
    rw [houtcome] at hkind
    simp only [hkind, true_and]
    cases hop : p.operation with
    | hello => exact absurd hop hhello
    | reset => exact absurd hop hreset
    | close => exact absurd hop hclose
    | _ =>
      split_ifs
      · exact .answered v
      · exact .refuse v _ _
  | error e =>
    rw [houtcome] at hkind
    simp only [hkind, String.reduceEq, false_and, if_false]
    cases hop : p.operation with
    | hello => exact absurd hop hhello
    | reset => exact absurd hop hreset
    | close => exact absurd hop hclose
    | _ => exact .answered v
  | unsupported e =>
    rw [houtcome] at hkind
    have hnot := hcapable e houtcome
    simp only [hkind, String.reduceEq, false_and, if_false]
    cases hop : p.operation with
    | hello => exact absurd hop hhello
    | reset => exact absurd hop hreset
    | close => exact absurd hop hclose
    | _ =>
      rw [hop] at hnot
      simp only [hnot, if_false]
      exact .answered v

theorem acceptResponse_follows {v : StreamTranscriptValidator} (hfits : v.Fits)
    {response : StreamResponse} (hrust : response.validate = .ok ())
    (hgo : response.toGo.validate = .ok ()) (h : ¬v.RejectsAdvertised (.response response)) :
    Follows (v.acceptResponse response) (v.toGo.acceptResponse response.toGo) := by
  simp only [Go.TranscriptValidator.acceptResponse, hgo, StreamTranscriptValidator.acceptResponse]
  cases hpending : v.pending with
  | none =>
    have hgoPending : v.toGo.pending = none := by
      simp [StreamTranscriptValidator.toGo, hpending]
    simp only [hgoPending]
    exact .refuse v _ _
  | some p =>
    have hgoPending : v.toGo.pending = some p.toGo := by
      simp [StreamTranscriptValidator.toGo, hpending]
    simp only [hgoPending]
    by_cases hecho : Echoes response p
    case neg =>
      rw [if_pos (not_not.mp (echoes_iff.not.mpr hecho)),
        if_pos (not_not.mp (echoes_toGo.not.mpr hecho))]
      exact .refuse v _ _
    rw [if_neg (echoes_iff.mpr hecho), if_neg (echoes_toGo.mpr hecho)]
    obtain ⟨hid, hmachine, hgeneration, hoperation⟩ := hecho
    have hcapable : p.operation ≠ .close → ∀ e, response.outcome = .unsupported e →
        p.operation ∉ v.capabilities := fun hclose e he hmem =>
      h ⟨p, e, hpending, he, hid, hmachine, hgeneration, hoperation, hclose, hmem⟩
    by_cases hhello : p.operation = .hello
    case pos =>
      exact acceptOutcome_hello hrust hgo hhello (hoperation.trans hhello)
        fun hready => hfits.ready hready p hpending hhello
    by_cases hreset : p.operation = .reset
    case pos =>
      refine acceptOutcome_reset hreset (hoperation.trans hreset) hgeneration ?_
      rw [hreset] at hcapable
      exact hcapable (by decide)
    by_cases hclose : p.operation = .close
    case pos => exact acceptOutcome_close hclose (hoperation.trans hclose)
    have hphase : v.phase = .ready := by
      cases hphase : v.phase with
      | awaitHello => exact absurd (hfits.awaitHello hphase p hpending) hhello
      | ready => rfl
      | closed => exact absurd ((hfits.closed hphase).symm.trans hpending) (by simp)
    exact acceptOutcome_other hoperation ⟨hhello, hreset, hclose⟩ hphase (hcapable hclose)

/-- The answer that only `fmctl` refuses. -/
theorem accept_of_rejectsAdvertised {v : StreamTranscriptValidator} (hfits : v.Fits)
    {message : StreamMessage} (hvalid : message.Valid) (h : v.RejectsAdvertised message) :
    (v.accept message).1.isOk = false ∧ (v.toGo.accept message.toGo).1.isOk = true := by
  cases message with
  | request request => exact h.elim
  | response response =>
    obtain ⟨p, e, hpending, houtcome, hid, hmachine, hgeneration, hoperation, hclose, hmem⟩ := h
    obtain ⟨hrust, hgo⟩ := hvalid
    have hecho : Echoes response p := ⟨hid, hmachine, hgeneration, hoperation⟩
    have hgoPending : v.toGo.pending = some p.toGo := by
      simp [StreamTranscriptValidator.toGo, hpending]
    have hhello : p.operation ≠ .hello := fun hhello => hfits.capabilities (hhello ▸ hmem)
    obtain ⟨hname, -, hcloseName⟩ := wireName_eq_iff p.operation
    have hgoOperation : response.toGo.operation = p.operation.wireName := by
      rw [StreamResponse.toGo, hoperation]
    have hkind := toGo_outcome_kind response
    rw [houtcome] at hkind
    have hrustValid : response.validate = .ok () := hrust
    have hgoValid : response.toGo.validate = .ok () := hgo
    constructor
    · simp only [StreamTranscriptValidator.accept, hrust,
        StreamTranscriptValidator.acceptResponse, hpending]
      rw [if_neg (echoes_iff.mpr hecho), houtcome]
      unfold StreamTranscriptValidator.acceptOutcome
      cases hop : p.operation with
      | hello => exact absurd hop hhello
      | close => exact absurd hop hclose
      | _ =>
        rw [hop] at hmem
        simp only [hmem, if_true]
        rfl
    · simp only [StreamMessage.toGo, Go.TranscriptValidator.accept,
        Go.TranscriptValidator.acceptResponse, hgoValid, hgoPending]
      rw [if_neg (echoes_toGo.mpr hecho)]
      unfold Go.TranscriptValidator.acceptOutcome
      simp only [hkind, String.reduceEq, false_and, if_false, hgoOperation]
      split
      · rename_i heq
        exact absurd (hname.mp heq) hhello
      · rfl
      · rename_i heq
        exact absurd (hcloseName.mp heq) hclose
      · rfl

theorem accept_follows {v : StreamTranscriptValidator} (hfits : v.Fits)
    {message : StreamMessage} (hvalid : message.Valid) (h : ¬v.RejectsAdvertised message) :
    Follows (v.accept message) (v.toGo.accept message.toGo) := by
  obtain ⟨hrust, hgo⟩ := hvalid
  cases message with
  | request request =>
    simp only [StreamTranscriptValidator.accept, hrust]
    exact acceptRequest_follows v hrust hgo
  | response response =>
    simp only [StreamTranscriptValidator.accept, hrust]
    exact acceptResponse_follows hfits hrust hgo h

/-- A refusal changes nothing. -/
def Frame {σ : Type} (s : σ) (r : Verdict σ) : Prop := r.1.isOk = false → r.2 = s

theorem frame_ok {σ : Type} (s t : σ) : Frame s (.ok (), t) := fun h => Bool.noConfusion h

theorem StreamTranscriptValidator.frame_refuse (v : StreamTranscriptValidator) (text : String) :
    Frame v (v.refuse text) := fun _ => rfl

theorem Go.TranscriptValidator.frame_refuse (w : Go.TranscriptValidator) (text : String) :
    Frame w (w.refuse text) := fun _ => rfl

theorem StreamTranscriptValidator.accept_frame (v : StreamTranscriptValidator)
    (message : StreamMessage) : Frame v (v.accept message) := by
  have hrequest : ∀ request, Frame v (v.acceptRequest request) := by
    intro request
    unfold acceptRequest
    repeat' split
    all_goals first | exact v.frame_refuse _ | exact frame_ok _ _
  have houtcome : ∀ p outcome, Frame v (v.acceptOutcome p outcome) := by
    intro p outcome
    unfold acceptOutcome
    repeat' split
    all_goals first | exact v.frame_refuse _ | exact frame_ok _ _
  have hresponse : ∀ response, Frame v (v.acceptResponse response) := by
    intro response
    unfold acceptResponse
    repeat' split
    all_goals first | exact v.frame_refuse _ | exact houtcome _ _
  unfold accept
  repeat' split
  all_goals first | exact v.frame_refuse _ | exact hrequest _ | exact hresponse _

theorem Go.TranscriptValidator.accept_frame (w : Go.TranscriptValidator) (message : Go.Message) :
    Frame w (w.accept message) := by
  have hrequest : ∀ request, Frame w (w.acceptRequest request) := by
    intro request
    unfold acceptRequest
    repeat' split
    all_goals first | exact w.frame_refuse _ | exact frame_ok _ _
  have houtcome : ∀ response, Frame w (w.acceptOutcome response) := by
    intro response
    unfold acceptOutcome
    repeat' split
    all_goals first | exact w.frame_refuse _ | exact frame_ok _ _
  have hresponse : ∀ response, Frame w (w.acceptResponse response) := by
    intro response
    unfold acceptResponse
    repeat' split
    all_goals first | exact w.frame_refuse _ | exact houtcome _
  unfold accept
  repeat' split
  all_goals first | exact w.frame_refuse _ | exact hrequest _ | exact hresponse _

/-! ## Runs -/

theorem StreamTranscriptValidator.Fits.of_idle {v : StreamTranscriptValidator}
    (hcapabilities : .hello ∉ v.capabilities) (hpending : v.pending = none) : v.Fits where
  capabilities := hcapabilities
  awaitHello _ p hp := by simp [hpending] at hp
  ready _ p hp := by simp [hpending] at hp
  closed _ := hpending

theorem not_mem_of_validate {hello : HelloResult} (h : hello.validate = .ok ()) :
    .hello ∉ hello.capabilities := by
  obtain ⟨_, -, h⟩ := bind_eq_ok.mp h
  obtain ⟨_, -, h⟩ := bind_eq_ok.mp h
  obtain ⟨_, -, h⟩ := bind_eq_ok.mp h
  obtain ⟨_, -, h⟩ := bind_eq_ok.mp h
  obtain ⟨canonical, hcanonical, -⟩ := bind_eq_ok.mp h
  intro hmem
  rw [canonicalizeCapabilitySetV1, if_pos hmem] at hcanonical
  cases hcanonical

theorem acceptRequest_fits {v : StreamTranscriptValidator} (hfits : v.Fits)
    (request : StreamRequest) : (v.acceptRequest request).2.Fits := by
  unfold StreamTranscriptValidator.acceptRequest
  split
  · exact hfits
  rename_i hopen
  split
  · exact hfits
  split
  · exact hfits
  split
  · exact hfits
  split
  · exact hfits
  rename_i hphase
  unfold StreamTranscriptValidator.wrongPhase at hphase
  refine ⟨hfits.capabilities, ?_, ?_, fun hclosed => absurd hclosed hopen⟩
  · intro hawait p hp
    obtain rfl := Option.some.inj hp
    simp only at hawait
    by_contra hhello
    have hother : request.operation.name ≠ .hello := hhello
    simp [hawait, hother] at hphase
  · intro hready p hp
    obtain rfl := Option.some.inj hp
    simp only at hready
    intro hhello
    have hname : request.operation.name = .hello := hhello
    simp [hready, hname] at hphase

theorem acceptOutcome_fits {v : StreamTranscriptValidator} (hfits : v.Fits) (p : PendingRequest)
    (outcome : StreamOutcome) : (v.acceptOutcome p outcome).2.Fits := by
  unfold StreamTranscriptValidator.acceptOutcome
  split
  · split
    · exact hfits
    · split
      · exact hfits
      · rename_i hvalid
        exact .of_idle (not_mem_of_validate hvalid) rfl
  · exact hfits
  · repeat' split
    all_goals first | exact hfits | exact .of_idle hfits.capabilities rfl
  · exact .of_idle hfits.capabilities rfl
  · exact hfits
  all_goals
    repeat' split
    all_goals first | exact hfits | exact .of_idle hfits.capabilities rfl

def StreamTranscriptValidator.next (v : StreamTranscriptValidator) (message : StreamMessage) :
    StreamTranscriptValidator :=
  (v.accept message).2

def Go.TranscriptValidator.next (w : Go.TranscriptValidator) (message : Go.Message) :
    Go.TranscriptValidator :=
  (w.accept message).2

theorem next_fits {v : StreamTranscriptValidator} (hfits : v.Fits) (message : StreamMessage) :
    (v.next message).Fits := by
  unfold StreamTranscriptValidator.next StreamTranscriptValidator.accept
  split
  · exact hfits
  split
  · exact acceptRequest_fits hfits _
  · unfold StreamTranscriptValidator.acceptResponse
    split
    · exact hfits
    split
    · exact hfits
    · exact acceptOutcome_fits hfits _ _

/-- The verdicts on the messages of a transcript, in order. -/
def verdicts {σ μ : Type} (accept : σ → μ → Verdict σ) : σ → List μ → List Bool
  | _, [] => []
  | s, m :: ms => (accept s m).1.isOk :: verdicts accept (accept s m).2 ms

theorem finish_toGo (v : StreamTranscriptValidator) : v.toGo.finish.isOk = v.finish.isOk := by
  have hphase : v.toGo.phase = .closed ↔ v.phase = .closed := SessionPhase.toGo_eq_iff.2.2
  unfold Go.TranscriptValidator.finish StreamTranscriptValidator.finish
  cases hpending : v.pending with
  | some p =>
    have hgoPending : v.toGo.pending = some p.toGo := by
      simp [StreamTranscriptValidator.toGo, hpending]
    simp only [hgoPending]
    rfl
  | none =>
    have hgoPending : v.toGo.pending = none := by
      simp [StreamTranscriptValidator.toGo, hpending]
    simp only [hgoPending, ne_eq, hphase]

/-- The two validators take and refuse the same messages of a transcript and agree at its end, and
a message that one refuses leaves it as it was. -/
structure TranscriptsAgree (messages : List StreamMessage) : Prop where
  positions : verdicts StreamTranscriptValidator.accept {} messages =
    verdicts Go.TranscriptValidator.accept {} (messages.map StreamMessage.toGo)
  finish : (run StreamTranscriptValidator.next {} messages).finish.isOk =
    (run Go.TranscriptValidator.next {} (messages.map StreamMessage.toGo)).finish.isOk
  unchanged : StepsMeet StreamTranscriptValidator.next (fun v m => Frame v (v.accept m)) {} messages
  goUnchanged : StepsMeet Go.TranscriptValidator.next (fun w m => Frame w (w.accept m)) {}
    (messages.map StreamMessage.toGo)

theorem stepsMeet_of_forall {σ ε : Type} {next : σ → ε → σ} {C : σ → ε → Prop}
    (h : ∀ s e, C s e) (s : σ) (es : List ε) : StepsMeet next C s es := by
  induction es generalizing s with
  | nil => trivial
  | cons e es ih => exact ⟨h s e, ih _⟩

/-- Related states give the same verdicts exactly as long as no advertised capability is answered
with `unsupported`. -/
theorem verdicts_eq_iff {v : StreamTranscriptValidator} (hfits : v.Fits)
    {messages : List StreamMessage} (hvalid : ∀ m ∈ messages, m.Valid) :
    (verdicts StreamTranscriptValidator.accept v messages =
        verdicts Go.TranscriptValidator.accept v.toGo (messages.map StreamMessage.toGo) ↔
      StepsMeet StreamTranscriptValidator.next (fun v m => ¬v.RejectsAdvertised m) v messages) ∧
      (StepsMeet StreamTranscriptValidator.next (fun v m => ¬v.RejectsAdvertised m) v messages →
        run Go.TranscriptValidator.next v.toGo (messages.map StreamMessage.toGo) =
          (run StreamTranscriptValidator.next v messages).toGo) := by
  induction messages generalizing v with
  | nil => exact ⟨iff_of_true rfl trivial, fun _ => rfl⟩
  | cons m ms ih =>
    obtain ⟨hm, hms⟩ := List.forall_mem_cons.mp hvalid
    by_cases hrejects : v.RejectsAdvertised m
    case pos =>
      obtain ⟨hrust, hgo⟩ := accept_of_rejectsAdvertised hfits hm hrejects
      constructor
      · refine iff_of_false ?_ fun h => h.1 hrejects
        rw [List.map_cons, verdicts, verdicts, hrust, hgo]
        intro h
        cases (List.cons.inj h).1
      · exact fun h => absurd hrejects h.1
    case neg =>
      obtain ⟨hverdict, hstate⟩ := accept_follows hfits hm hrejects
      obtain ⟨hpositions, hrun⟩ := ih (next_fits hfits m) hms
      constructor
      · rw [List.map_cons, verdicts, verdicts, hverdict, hstate, List.cons_inj_right]
        exact hpositions.trans ⟨fun h => ⟨hrejects, h⟩, fun h => h.2⟩
      · intro h
        have hnext : v.toGo.next m.toGo = (v.next m).toGo := hstate
        rw [List.map_cons, run_cons, run_cons, hnext]
        exact hrun h.2

theorem transcriptsAgree_iff (messages : List StreamMessage) (hvalid : ∀ m ∈ messages, m.Valid) :
    TranscriptsAgree messages ↔
      StepsMeet StreamTranscriptValidator.next (fun v m => ¬v.RejectsAdvertised m) {} messages := by
  have hfits : ({} : StreamTranscriptValidator).Fits := .of_idle (by decide) rfl
  obtain ⟨hpositions, hrun⟩ := verdicts_eq_iff hfits hvalid
  constructor
  · intro h
    exact hpositions.mp h.positions
  · intro h
    refine ⟨hpositions.mpr h, ?_, stepsMeet_of_forall (fun v m => v.accept_frame m) _ _,
      stepsMeet_of_forall (fun w m => w.accept_frame m) _ _⟩
    exact (congrArg (fun w => w.finish.isOk) (hrun h)).trans (finish_toGo _) |>.symm

def requestOf (id : String) (generation : ℕ) (operation : StreamOperation) : StreamMessage :=
  .request { protocol := streamAdapterProtocol, protocolVersion := 1, requestId := id,
             machine := "m", generation, operation }

def responseOf (id : String) (generation : ℕ) (operation : StreamOperationName)
    (outcome : StreamOutcome) : StreamMessage :=
  .response { protocol := streamAdapterProtocol, protocolVersion := 1, requestId := id,
              machine := "m", generation, operation, outcome }

def implementationFields : List (String × Json) :=
  [("language", .string "go"), ("name", .string "n"), ("version", .string "1")]

/-- The fields of a hello result that advertises what is required. -/
def requiredOnly : List (String × Json) :=
  [("canonicalStateSchemaHash", .string
      "sha256:0000000000000000000000000000000000000000000000000000000000000000"),
    ("capabilities", .array [
      .string "reset", .string "apply", .string "observe", .string "close"]),
    ("implementation", .object implementationFields)]

/-- A reset, which is advertised, answered with `unsupported`. -/
def unsupportedReset : List StreamMessage :=
  [requestOf "1" 0 .hello, responseOf "1" 0 .hello (.ok (.object requiredOnly)),
    requestOf "2" 1 (.reset .null none .null),
    responseOf "2" 1 .reset (.unsupported ⟨"unsupported_operation", "reset", false, none⟩)]

def requiredHello : Go.HelloResult :=
  { implementation := ⟨"go", "n", "1"⟩, capabilities := ["reset", "apply", "observe", "close"],
    canonicalStateSchemaHash :=
      "sha256:0000000000000000000000000000000000000000000000000000000000000000" }

theorem decodeHelloResult_requiredOnly :
    Go.decodeHelloResult (.object requiredOnly) = .ok requiredHello := by
  have himplementation : Go.decodeStruct Go.setImplementation {} (.object implementationFields) =
      some requiredHello.implementation := by
    rw [Go.decodeStruct_sorted (by decide)]
    rfl
  have hset : ∀ raw : Go.RawHello, raw.implementation = {} →
      Go.setHello raw ("implementation", .object implementationFields) =
        some { raw with implementation := requiredHello.implementation } := by
    intro raw hraw
    have hfield : Go.structField ["implementation", "capabilities", "canonicalStateSchemaHash"]
        "implementation" = some "implementation" := by decide
    rw [Go.setHello, hfield, hraw, himplementation]
    rfl
  have hfold : requiredOnly.foldlM Go.setHello {} =
      some ⟨requiredHello.implementation, ⟨requiredHello.capabilities, 4⟩,
        requiredHello.canonicalStateSchemaHash⟩ := by
    calc requiredOnly.foldlM Go.setHello {}
      _ = (requiredOnly.drop 2).foldlM Go.setHello
          ⟨{}, ⟨requiredHello.capabilities, 4⟩, requiredHello.canonicalStateSchemaHash⟩ := rfl
      _ = (Go.setHello ⟨{}, ⟨requiredHello.capabilities, 4⟩, requiredHello.canonicalStateSchemaHash⟩
          ("implementation", .object implementationFields)).bind some := rfl
      _ = _ := by
        rw [hset _ rfl]
        rfl
  have hdistinct : (if ¬requiredHello.capabilities.Nodup then
      .error "hello capabilities contain duplicate" else .ok requiredHello : Checked _) =
        .ok requiredHello := if_neg (by decide)
  rw [Go.decodeHelloResult, Go.decodeStruct_sorted (by decide), hfold]
  exact hdistinct

theorem unsupportedReset_valid : ∀ m ∈ unsupportedReset, m.Valid := by
  have hrust : ∀ m ∈ unsupportedReset, m.validate = .ok () := by
    simp only [unsupportedReset, List.forall_mem_cons]
    exact ⟨rfl, rfl, rfl, rfl, by simp⟩
  have hhello : (responseOf "1" 0 .hello (.ok (.object requiredOnly))).toGo.validate = .ok () := by
    have hvalidated : (do
        let hello ← Go.decodeHelloResult (.object requiredOnly)
        let _ ← Go.validateCapabilities hello.capabilities
        .ok () : Checked Unit) = .ok () := by
      rw [decodeHelloResult_requiredOnly]
      rfl
    exact hvalidated
  have hgo : ∀ m ∈ unsupportedReset, m.toGo.validate = .ok () := by
    simp only [unsupportedReset, List.forall_mem_cons]
    exact ⟨rfl, hhello, rfl, rfl, by simp⟩
  exact fun m hm => ⟨hrust m hm, hgo m hm⟩

theorem unsupportedReset_splits :
    verdicts StreamTranscriptValidator.accept {} unsupportedReset = [true, true, true, false] ∧
      verdicts Go.TranscriptValidator.accept {} (unsupportedReset.map StreamMessage.toGo) ≠
        [true, true, true, false] ∧
      ¬∀ messages : List StreamMessage, (∀ m ∈ messages, m.Valid) → TranscriptsAgree messages := by
  have hrust : verdicts StreamTranscriptValidator.accept {} unsupportedReset =
      [true, true, true, false] := by decide +kernel
  have hfits : ({} : StreamTranscriptValidator).Fits := .of_idle (by decide) rfl
  have hgo : verdicts Go.TranscriptValidator.accept {}
      (unsupportedReset.map StreamMessage.toGo) ≠ [true, true, true, false] := by
    intro h
    have hsteps := (verdicts_eq_iff hfits unsupportedReset_valid).1.mp (hrust.trans h.symm)
    refine hsteps.2.2.2.1 ⟨_, _, rfl, rfl, rfl, rfl, rfl, rfl, by decide, ?_⟩
    exact List.mem_cons_self
  refine ⟨hrust, hgo, fun h => hgo ?_⟩
  rw [← hrust]
  exact (h unsupportedReset unsupportedReset_valid).positions.symm

/-- The transcript up to the reset. -/
theorem transcriptsAgree_iff_hello : TranscriptsAgree (unsupportedReset.take 3) := by
  have hvalid : ∀ m ∈ unsupportedReset.take 3, m.Valid := fun m hm =>
    unsupportedReset_valid m (List.mem_of_mem_take hm)
  refine (transcriptsAgree_iff _ hvalid).mpr ⟨id, ?_, id, trivial⟩
  rintro ⟨p, e, -, houtcome, -⟩
  cases houtcome

end OptoSync.Stream
