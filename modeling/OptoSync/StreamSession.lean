import OptoSync.StreamTranscriptAgreement

/-!
# The session language

What `StreamTranscriptValidator` of `fmctl` accepts, said about whole sessions: a list of exchanges
with conditions on each of them and on those before it.
-/
namespace OptoSync.Stream

open Transition

/-- A request with the response to it. -/
structure Exchange where
  request : StreamRequest
  response : StreamResponse

def StreamRequest.number (request : StreamRequest) : ℕ :=
  (parseRequestId request.requestId).toOption.getD 0

namespace Exchange

def messages (e : Exchange) : List StreamMessage := [.request e.request, .response e.response]

def operation (e : Exchange) : StreamOperationName := e.request.operation.name

def Echoes (e : Exchange) : Prop :=
  e.response.requestId = e.request.requestId ∧ e.response.machine = e.request.machine ∧
    e.response.generation = e.request.generation ∧ e.response.operation = e.operation

def succeeds (e : Exchange) : Bool :=
  match e.response.outcome with
  | .ok _ => true
  | _ => false

def unsupported (e : Exchange) : Bool :=
  match e.response.outcome with
  | .unsupported _ => true
  | _ => false

/-- The capabilities that a hello result lists. -/
def capabilities (e : Exchange) : List StreamOperationName :=
  match e.response.outcome with
  | .ok value => ((decodeHelloResult value).map HelloResult.capabilities).getD []
  | _ => []

end Exchange

/-- The successful resets. -/
def resets (exchanges : List Exchange) : ℕ :=
  exchanges.countP fun e => e.operation = .reset && e.succeeds

/-- What the first exchange advertises. -/
def advertised (exchanges : List Exchange) : List StreamOperationName :=
  (exchanges.head?.map Exchange.capabilities).getD []

structure Session (exchanges : List Exchange) : Prop where
  increasing : exchanges.Pairwise fun d e => d.request.number < e.request.number
  first : ∃ e ∈ exchanges.head?, e.operation = .hello ∧ e.request.generation = 0
  others : ∀ e ∈ exchanges.tail, e.operation ≠ .hello
  generation : ∀ before e after, exchanges = before ++ e :: after →
    e.request.generation = resets before + if e.operation = .reset then 1 else 0
  echoes : ∀ e ∈ exchanges, e.Echoes
  helloSucceeds : ∀ e ∈ exchanges, e.operation = .hello → e.succeeds = true
  ok_advertised : ∀ e ∈ exchanges, e.operation ≠ .hello → e.succeeds = true →
    e.operation ∈ advertised exchanges
  unsupported_unadvertised : ∀ e ∈ exchanges, e.unsupported = true →
    e.operation ∉ advertised exchanges
  /-- The last message is a successful close. -/
  closes : ∃ e ∈ exchanges.getLast?, e.operation = .close ∧ e.succeeds = true
  once : ∀ e ∈ exchanges.dropLast, e.operation ≠ .close

/-- The request may follow the exchanges. -/
structure Opens (before : List Exchange) (request : StreamRequest) : Prop where
  running : ∀ d ∈ before, d.operation ≠ .close
  increasing : ∀ d ∈ before, d.request.number < request.number
  hello : request.operation.name = .hello ↔ before = []
  generation : request.generation =
    resets before + if request.operation.name = .reset then 1 else 0

/-- The response to a request that may follow the exchanges. -/
structure Answers (before : List Exchange) (e : Exchange) : Prop where
  echoes : e.Echoes
  succeeds : e.operation = .hello ∨ e.operation = .close → e.succeeds = true
  ok_advertised : e.operation ≠ .hello → e.succeeds = true → e.operation ∈ advertised before
  unsupported_unadvertised : e.unsupported = true → e.operation ∉ advertised before

/-- The validator after complete exchanges. -/
def stateOf (before : List Exchange) : StreamTranscriptValidator where
  phase :=
    if before = [] then .awaitHello
    else if ∃ d ∈ before, d.operation = .close then .closed else .ready
  generation := resets before
  lastRequestId := (before.map fun e => e.request.number).foldr max 0
  capabilities := advertised before

def pendingOf (request : StreamRequest) : PendingRequest where
  requestId := request.requestId
  machine := request.machine
  generation := request.generation
  operation := request.operation.name

/-- The validator that waits for the response. -/
def awaiting (before : List Exchange) (request : StreamRequest) : StreamTranscriptValidator :=
  { stateOf before with lastRequestId := request.number, pending := some (pendingOf request) }

theorem foldr_max_lt {numbers : List ℕ} {n : ℕ} (hn : 0 < n) :
    numbers.foldr max 0 < n ↔ ∀ m ∈ numbers, m < n := by
  induction numbers with
  | nil => simpa using hn
  | cons m ms ih => simp [ih]

theorem foldr_max_append {numbers : List ℕ} {n : ℕ} (h : ∀ m ∈ numbers, m < n) :
    (numbers ++ [n]).foldr max 0 = n := by
  induction numbers with
  | nil => simp
  | cons m ms ih =>
    obtain ⟨hm, hms⟩ := List.forall_mem_cons.mp h
    rw [List.cons_append, List.foldr_cons, ih hms, max_eq_right hm.le]

theorem number_of_validate {request : StreamRequest} (h : request.validate = .ok ()) :
    parseRequestId request.requestId = .ok request.number ∧ 0 < request.number := by
  obtain ⟨n, hn⟩ := requestId_of_validate h
  have hnumber : request.number = n := by simp [StreamRequest.number, hn, Except.toOption]
  rw [hnumber]
  refine ⟨hn, Nat.pos_of_ne_zero ?_⟩
  rintro rfl
  obtain ⟨_, -, hn⟩ := bind_eq_ok.mp hn
  split at hn
  · cases hn
  · split_ifs at hn with hzero
    have hparsed := Except.ok.inj hn
    exact hzero (.inl hparsed)

theorem generation_of_validate {request : StreamRequest} (h : request.validate = .ok ()) :
    request.generation ≤ maxStreamGeneration := by
  obtain ⟨_, -, h⟩ := bind_eq_ok.mp h
  obtain ⟨_, h, -⟩ := bind_eq_ok.mp h
  unfold validateGeneration at h
  split_ifs at h with hlimit
  exact not_lt.mp hlimit

theorem stateOf_phase {before : List Exchange} (hnonempty : before ≠ [])
    (hrunning : ∀ d ∈ before, d.operation ≠ .close) : (stateOf before).phase = .ready := by
  have hnone : ¬∃ d ∈ before, d.operation = .close := fun ⟨d, hd, hclose⟩ => hrunning d hd hclose
  simp only [stateOf, hnonempty, if_false, hnone]

theorem wrongPhase_eq_none_iff {before : List Exchange} {request : StreamRequest}
    (hvalid : request.validate = .ok ()) (hrunning : ∀ d ∈ before, d.operation ≠ .close) :
    (stateOf before).wrongPhase request = none ↔
      (request.operation.name = .hello ↔ before = []) ∧ request.generation =
        resets before + if request.operation.name = .reset then 1 else 0 := by
  have hlimit := generation_of_validate hvalid
  unfold StreamTranscriptValidator.wrongPhase
  cases before with
  | nil =>
    by_cases hhello : request.operation.name = .hello
    · simp [stateOf, hhello, resets]
    · simp [stateOf, hhello]
  | cons d ds =>
    have hphase : (stateOf (d :: ds)).phase = .ready := stateOf_phase (by simp) hrunning
    simp only [hphase, show (stateOf (d :: ds)).generation = resets (d :: ds) from rfl,
      reduceCtorEq, iff_false]
    by_cases hhello : request.operation.name = .hello
    · simp [hhello]
    by_cases hreset : request.operation.name = .reset
    · by_cases hmax : resets (d :: ds) = maxStreamGeneration
      · simp only [hreset, hmax, reduceCtorEq, if_false, and_self, if_true, not_false_eq_true,
          true_and, false_iff]
        omega
      · simp [hreset, hmax]
    · simp [hhello, hreset]

theorem accept_request_iff {before : List Exchange} {request : StreamRequest}
    (hvalid : request.validate = .ok ()) {w : StreamTranscriptValidator} :
    (stateOf before).accept (.request request) = (.ok (), w) ↔
      Opens before request ∧ w = awaiting before request := by
  obtain ⟨hnumber, hpositive⟩ := number_of_validate hvalid
  have haccept : (stateOf before).accept (.request request) =
      (stateOf before).acceptRequest request := by
    rw [StreamTranscriptValidator.accept, StreamMessage.validate, hvalid]
  rw [haccept, StreamTranscriptValidator.acceptRequest]
  by_cases hclosed : (stateOf before).phase = .closed
  · rw [if_pos hclosed]
    refine iff_of_false (by simp [StreamTranscriptValidator.refuse]) ?_
    rintro ⟨hopens, -⟩
    have hnone : ¬∃ d ∈ before, d.operation = .close := by
      intro hexists
      obtain ⟨d, hd, hclose⟩ := hexists
      exact hopens.running d hd hclose
    simp only [stateOf, hnone, if_false] at hclosed
    split_ifs at hclosed
  rw [if_neg hclosed]
  have hrunning : ∀ d ∈ before, d.operation ≠ .close := by
    intro d hd hclose
    have hexists : ∃ d ∈ before, d.operation = .close := ⟨d, hd, hclose⟩
    exact hclosed (by simp [stateOf, List.ne_nil_of_mem hd, hexists])
  have hpending : (stateOf before).pending = none := rfl
  simp only [hpending, hnumber]
  have hlast : request.number ≤ (stateOf before).lastRequestId ↔
      ¬∀ d ∈ before, d.request.number < request.number := by
    rw [← not_lt, not_iff_not]
    exact (foldr_max_lt hpositive).trans (by simp)
  by_cases hincreasing : ∀ d ∈ before, d.request.number < request.number
  case neg =>
    rw [if_pos (hlast.mpr hincreasing)]
    refine iff_of_false (by simp [StreamTranscriptValidator.refuse]) ?_
    exact fun h => hincreasing h.1.increasing
  rw [if_neg (hlast.not.mpr (not_not.mpr hincreasing))]
  have hphase := wrongPhase_eq_none_iff hvalid hrunning
  cases hwrong : (stateOf before).wrongPhase request with
  | some text =>
    refine iff_of_false (by simp [StreamTranscriptValidator.refuse]) ?_
    rintro ⟨hopens, -⟩
    have hnone := hphase.mpr ⟨hopens.hello, hopens.generation⟩
    rw [hwrong] at hnone
    cases hnone
  | none =>
    obtain ⟨hhello, hgeneration⟩ := hphase.mp hwrong
    simp only [Prod.mk.injEq, true_and]
    constructor
    · intro h
      exact ⟨⟨hrunning, hincreasing, hhello, hgeneration⟩, h.symm⟩
    · rintro ⟨-, rfl⟩
      rfl

theorem resets_append (before : List Exchange) (e : Exchange) :
    resets (before ++ [e]) =
      resets before + if e.operation = .reset ∧ e.succeeds = true then 1 else 0 := by
  simp [resets, List.countP_append, List.countP_singleton]

theorem advertised_append {before : List Exchange} (h : before ≠ []) (es : List Exchange) :
    advertised (before ++ es) = advertised before := by
  cases before with
  | nil => exact absurd rfl h
  | cons d ds => rfl

/-- The validator after one more exchange. -/
theorem stateOf_append {before : List Exchange} {e : Exchange} (hopens : Opens before e.request) :
    stateOf (before ++ [e]) =
      { awaiting before e.request with
        phase := if e.operation = .close then .closed else .ready
        generation :=
          if e.operation = .reset ∧ e.succeeds = true then e.request.generation
          else resets before
        pending := none
        capabilities := if before = [] then e.capabilities else advertised before } := by
  have hlast : ((before ++ [e]).map fun e => e.request.number).foldr max 0 = e.request.number := by
    rw [List.map_append]
    refine foldr_max_append fun m hm => ?_
    obtain ⟨d, hd, rfl⟩ := List.mem_map.mp hm
    exact hopens.increasing d hd
  have hclose : (∃ d ∈ before ++ [e], d.operation = .close) ↔ e.operation = .close := by
    constructor
    · rintro ⟨d, hd, hclose⟩
      obtain hd | hd := List.mem_append.mp hd
      · exact absurd hclose (hopens.running d hd)
      · rwa [List.mem_singleton.mp hd] at hclose
    · exact fun h => ⟨e, by simp, h⟩
  have hresets : resets (before ++ [e]) =
      if e.operation = .reset ∧ e.succeeds = true then e.request.generation
      else resets before := by
    rw [resets_append]
    split_ifs with hreset
    · rw [hopens.generation, if_pos (show e.request.operation.name = .reset from hreset.1)]
    · rfl
  have hadvertised : advertised (before ++ [e]) =
      if before = [] then e.capabilities else advertised before := by
    split_ifs with hnil
    · rw [hnil]
      rfl
    · exact advertised_append hnil [e]
  unfold stateOf awaiting
  rw [hlast, hresets, hadvertised]
  simp only [hclose, List.append_eq_nil_iff, List.cons_ne_self, and_false, if_false]

theorem required_of_validate {hello : HelloResult} (h : hello.validate = .ok ()) :
    ∀ c ∈ streamRequiredCapabilitiesV1, c ∈ hello.capabilities := by
  obtain ⟨_, -, h⟩ := bind_eq_ok.mp h
  obtain ⟨_, -, h⟩ := bind_eq_ok.mp h
  obtain ⟨_, -, h⟩ := bind_eq_ok.mp h
  obtain ⟨_, -, h⟩ := bind_eq_ok.mp h
  obtain ⟨canonical, hcanonical, -⟩ := bind_eq_ok.mp h
  unfold canonicalizeCapabilitySetV1 at hcanonical
  split_ifs at hcanonical with hhello hnodup hrequired
  exact hrequired

/-- What a valid hello result advertises. -/
theorem capabilities_of_validate {e : Exchange} {value : Json}
    (hvalid : e.response.validate = .ok ()) (hoperation : e.response.operation = .hello)
    (houtcome : e.response.outcome = .ok value) :
    ∃ hello, requireHello value = .ok hello ∧ hello.validate = .ok () ∧
      hello.capabilities = e.capabilities := by
  obtain ⟨hello, hhello, hvalidated⟩ := hello_of_validate hvalid hoperation houtcome
  refine ⟨hello, hhello, hvalidated, ?_⟩
  unfold requireHello at hhello
  split at hhello
  · cases hhello
  · rename_i decoded heq
    rw [← Except.ok.inj hhello]
    simp [Exchange.capabilities, houtcome, heq]

/-- What was advertised includes all that is required. -/
def Advertises (before : List Exchange) : Prop :=
  before ≠ [] → ∀ c ∈ streamRequiredCapabilitiesV1, c ∈ advertised before

theorem answers_iff {before : List Exchange} {e : Exchange} (hechoes : e.Echoes) :
    Answers before e ↔ (e.operation = .hello ∨ e.operation = .close → e.succeeds = true) ∧
      (e.operation ≠ .hello → e.succeeds = true → e.operation ∈ advertised before) ∧
      (e.unsupported = true → e.operation ∉ advertised before) :=
  ⟨fun h => ⟨h.succeeds, h.ok_advertised, h.unsupported_unadvertised⟩,
    fun ⟨hsucceeds, hok, hunsupported⟩ => ⟨hechoes, hsucceeds, hok, hunsupported⟩⟩

/-- An answer that changes nothing but the pending request. -/
theorem stateOf_answered {before : List Exchange} {e : Exchange} (hopens : Opens before e.request)
    (hnonempty : before ≠ []) (hclose : e.operation ≠ .close)
    (hreset : ¬(e.operation = .reset ∧ e.succeeds = true)) :
    stateOf (before ++ [e]) = { awaiting before e.request with pending := none } := by
  have hphase := stateOf_phase hnonempty hopens.running
  rw [stateOf_append hopens, if_neg hclose, if_neg hreset, if_neg hnonempty, ← hphase]
  rfl

theorem verdict_iff {C : Prop} [Decidable C] {v s w : StreamTranscriptValidator} {text : String} :
    (if C then v.refuse text else (.ok (), s)) = (.ok (), w) ↔ ¬C ∧ w = s := by
  split_ifs with hC
  · simp [StreamTranscriptValidator.refuse, hC]
  · simp [hC, eq_comm]

theorem refuse_ne_ok {v w : StreamTranscriptValidator} {text : String} :
    v.refuse text ≠ (.ok (), w) := by
  simp [StreamTranscriptValidator.refuse]

theorem acceptOutcome_iff {before : List Exchange} {e : Exchange} (hopens : Opens before e.request)
    (hadvertises : Advertises before) (hrequest : e.request.validate = .ok ())
    (hvalid : e.response.validate = .ok ()) (hechoes : e.Echoes) {w : StreamTranscriptValidator} :
    (awaiting before e.request).acceptOutcome (pendingOf e.request) e.response.outcome =
        (.ok (), w) ↔ Answers before e ∧ w = stateOf (before ++ [e]) := by
  have hcapabilities : (awaiting before e.request).capabilities = advertised before := rfl
  have hgeneration : (awaiting before e.request).generation = resets before := rfl
  have hrequired : before ≠ [] → ∀ c ∈ streamRequiredCapabilitiesV1, c ∈ advertised before :=
    hadvertises
  have hhello : e.operation = .hello ↔ before = [] := hopens.hello
  have hpending : (pendingOf e.request).operation = e.operation := rfl
  rw [answers_iff hechoes]
  unfold StreamTranscriptValidator.acceptOutcome
  rw [hpending, hcapabilities, hgeneration]
  cases hoperation : e.operation with
  | hello =>
    have hnil : before = [] := hhello.mp hoperation
    cases houtcome : e.response.outcome with
    | ok value =>
      obtain ⟨hello, hdecoded, hvalidated, hlisted⟩ :=
        capabilities_of_validate hvalid (hechoes.2.2.2.trans hoperation) houtcome
      have hsucceeds : e.succeeds = true := by simp [Exchange.succeeds, houtcome]
      have hsupported : e.unsupported = false := by simp [Exchange.unsupported, houtcome]
      rw [stateOf_append hopens]
      simp [hdecoded, hvalidated, hlisted, hoperation, hsucceeds, hsupported, hnil, eq_comm,
        awaiting, stateOf]
    | error error => simp [refuse_ne_ok, Exchange.succeeds, houtcome]
    | unsupported error => simp [refuse_ne_ok, Exchange.succeeds, houtcome]
  | reset =>
    have hnonempty : before ≠ [] := fun h => by simp [hhello.mpr h] at hoperation
    have hmem := hrequired hnonempty .reset (by decide)
    have hnumber : e.request.generation = resets before + 1 := by
      rw [hopens.generation, if_pos (show e.request.operation.name = .reset from hoperation)]
    have hlimit := generation_of_validate hrequest
    have hmax : resets before ≠ maxStreamGeneration := by omega
    cases houtcome : e.response.outcome with
    | ok value =>
      have hsucceeds : e.succeeds = true := by simp [Exchange.succeeds, houtcome]
      have hsupported : e.unsupported = false := by simp [Exchange.unsupported, houtcome]
      have hphase := stateOf_phase hnonempty hopens.running
      rw [stateOf_append hopens]
      simp [hmax, hmem, hnumber, hoperation, hsucceeds, hsupported, hnonempty, eq_comm, awaiting,
        pendingOf, hphase, show (stateOf before).capabilities = advertised before from rfl]
    | error error =>
      have hfails : e.succeeds = false := by simp [Exchange.succeeds, houtcome]
      have hsupported : e.unsupported = false := by simp [Exchange.unsupported, houtcome]
      rw [stateOf_answered hopens hnonempty (by simp [hoperation]) (by simp [hfails])]
      simp [hfails, hsupported, eq_comm, hcapabilities, hgeneration]
    | unsupported error =>
      have hunsupported : e.unsupported = true := by simp [Exchange.unsupported, houtcome]
      simp [hmem, hunsupported, refuse_ne_ok]
  | close =>
    have hnonempty : before ≠ [] := fun h => by simp [hhello.mpr h] at hoperation
    have hmem := hrequired hnonempty .close (by decide)
    cases houtcome : e.response.outcome with
    | ok value =>
      have hsucceeds : e.succeeds = true := by simp [Exchange.succeeds, houtcome]
      have hsupported : e.unsupported = false := by simp [Exchange.unsupported, houtcome]
      rw [stateOf_append hopens]
      simp [hmem, hoperation, hsucceeds, hsupported, hnonempty, eq_comm, awaiting, stateOf]
    | error error => simp [refuse_ne_ok, Exchange.succeeds, houtcome]
    | unsupported error => simp [refuse_ne_ok, Exchange.succeeds, houtcome]
  | _ =>
    have hnonempty : before ≠ [] := fun h => by simp [hhello.mpr h] at hoperation
    rw [stateOf_answered hopens hnonempty (by simp [hoperation]) (by simp [hoperation])]
    cases houtcome : e.response.outcome with
    | ok value =>
      simp only [verdict_iff]
      simp [Exchange.succeeds, Exchange.unsupported, houtcome, hcapabilities, hgeneration]
    | error error =>
      simp [Exchange.succeeds, Exchange.unsupported, houtcome, hcapabilities, hgeneration, eq_comm]
    | unsupported error =>
      simp only [verdict_iff]
      simp [Exchange.succeeds, Exchange.unsupported, houtcome, hcapabilities, hgeneration]

theorem accept_response_iff {before : List Exchange} {e : Exchange}
    (hopens : Opens before e.request) (hadvertises : Advertises before)
    (hrequest : e.request.validate = .ok ()) (hvalid : e.response.validate = .ok ())
    {w : StreamTranscriptValidator} :
    (awaiting before e.request).accept (.response e.response) = (.ok (), w) ↔
      Answers before e ∧ w = stateOf (before ++ [e]) := by
  have haccept : (awaiting before e.request).accept (.response e.response) =
      (awaiting before e.request).acceptResponse e.response := by
    rw [StreamTranscriptValidator.accept, StreamMessage.validate, hvalid]
  have hpending : (awaiting before e.request).pending = some (pendingOf e.request) := rfl
  rw [haccept, StreamTranscriptValidator.acceptResponse, hpending]
  by_cases hechoes : e.Echoes
  case pos =>
    have hmatches : Stream.Echoes e.response (pendingOf e.request) := hechoes
    simp only [if_neg (echoes_iff.mpr hmatches)]
    exact acceptOutcome_iff hopens hadvertises hrequest hvalid hechoes
  case neg =>
    have hdiffers : ¬Stream.Echoes e.response (pendingOf e.request) := hechoes
    simp only [if_pos (not_not.mp (echoes_iff.not.mpr hdiffers))]
    exact iff_of_false refuse_ne_ok fun h => hechoes h.1.echoes

/-- All messages are accepted, and `finish` is `Ok`. -/
def AcceptsAll (v : StreamTranscriptValidator) (messages : List StreamMessage) : Prop :=
  (∀ b ∈ verdicts StreamTranscriptValidator.accept v messages, b = true) ∧
    (run StreamTranscriptValidator.next v messages).finish = .ok ()

theorem acceptsAll_cons {v : StreamTranscriptValidator} {m : StreamMessage}
    {ms : List StreamMessage} :
    AcceptsAll v (m :: ms) ↔ ∃ w, v.accept m = (.ok (), w) ∧ AcceptsAll w ms := by
  have hnext : v.next m = (v.accept m).2 := rfl
  rw [AcceptsAll, verdicts, List.forall_mem_cons, run_cons, hnext]
  obtain ⟨verdict, w⟩ := v.accept m
  cases verdict with
  | error text => simp [Except.isOk, Except.toBool]
  | ok _ => simp [Except.isOk, Except.toBool, AcceptsAll]

/-- Each exchange may follow those before it. -/
def Continues (before : List Exchange) : List Exchange → Prop
  | [] => True
  | e :: es => (Opens before e.request ∧ Answers before e) ∧ Continues (before ++ [e]) es

theorem advertises_append {before : List Exchange} {e : Exchange} (hopens : Opens before e.request)
    (hanswers : Answers before e) (hadvertises : Advertises before)
    (hvalid : e.response.validate = .ok ()) : Advertises (before ++ [e]) := by
  intro _
  by_cases hnil : before = []
  case neg =>
    rw [advertised_append hnil]
    exact hadvertises hnil
  case pos =>
    have hhello : e.operation = .hello := hopens.hello.mpr hnil
    have hsucceeds := hanswers.succeeds (.inl hhello)
    subst hnil
    unfold Exchange.succeeds at hsucceeds
    split at hsucceeds
    case h_2 => cases hsucceeds
    rename_i value houtcome
    obtain ⟨hello, -, hvalidated, hlisted⟩ :=
      capabilities_of_validate hvalid (hanswers.echoes.2.2.2.trans hhello) houtcome
    intro c hc
    have hmem := required_of_validate hvalidated c hc
    rw [hlisted] at hmem
    exact hmem

/-- Two messages at a time: a transcript that is accepted is a list of exchanges. -/
theorem acceptsAll_iff {before : List Exchange} (hadvertises : Advertises before)
    {messages : List StreamMessage} (hvalid : ∀ m ∈ messages, m.validate = .ok ()) :
    AcceptsAll (stateOf before) messages ↔
      ∃ exchanges, messages = exchanges.flatMap Exchange.messages ∧ Continues before exchanges ∧
        (stateOf (before ++ exchanges)).phase = .closed := by
  induction hlength : messages.length using Nat.strong_induction_on generalizing before messages with
  | _ n ih =>
  cases messages with
  | nil =>
    have hfinish : AcceptsAll (stateOf before) [] ↔ (stateOf before).phase = .closed := by
      rw [AcceptsAll, verdicts, run_nil, StreamTranscriptValidator.finish,
        show (stateOf before).pending = none from rfl]
      simp
    rw [hfinish]
    constructor
    · intro h
      exact ⟨[], rfl, trivial, by rwa [List.append_nil]⟩
    · rintro ⟨exchanges, hmessages, -, hclosed⟩
      cases exchanges with
      | nil => rwa [List.append_nil] at hclosed
      | cons e es => cases hmessages
  | cons m₁ ms =>
  rw [acceptsAll_cons]
  cases m₁ with
  | response response =>
    refine iff_of_false ?_ ?_
    · rintro ⟨w, haccept, -⟩
      have hresponse := hvalid _ List.mem_cons_self
      rw [StreamTranscriptValidator.accept, hresponse] at haccept
      exact refuse_ne_ok haccept
    · rintro ⟨exchanges, hmessages, -⟩
      cases exchanges <;> cases hmessages
  | request request =>
  have hrequest : request.validate = .ok () := hvalid _ List.mem_cons_self
  simp only [accept_request_iff hrequest]
  cases ms with
  | nil =>
    refine iff_of_false ?_ ?_
    · rintro ⟨w, ⟨-, rfl⟩, -, hfinish⟩
      cases hfinish
    · rintro ⟨exchanges, hmessages, -⟩
      cases exchanges <;> cases hmessages
  | cons m₂ rest =>
  simp only [acceptsAll_cons]
  have hm₂ : m₂.validate = .ok () := hvalid _ (by simp)
  cases m₂ with
  | request second =>
    refine iff_of_false ?_ ?_
    · rintro ⟨w, ⟨hopens, rfl⟩, u, haccept, -⟩
      rw [StreamTranscriptValidator.accept, hm₂] at haccept
      simp only [StreamTranscriptValidator.acceptRequest] at haccept
      split at haccept <;> exact refuse_ne_ok haccept
    · rintro ⟨exchanges, hmessages, -⟩
      cases exchanges <;> cases hmessages
  | response response =>
    have hrest : ∀ m ∈ rest, m.validate = .ok () := fun m hm => hvalid m (by simp [hm])
    have hshorter : rest.length < n := by
      rw [← hlength]
      simp only [List.length_cons]
      omega
    have hnext : ∀ {e : Exchange}, e.response.validate = .ok () → Opens before e.request →
        Answers before e → _ := fun hresponse hopens hanswers =>
      ih _ hshorter (advertises_append hopens hanswers hadvertises hresponse) hrest rfl
    constructor
    · rintro ⟨w, ⟨hopens, rfl⟩, u, haccept, hall⟩
      let e : Exchange := ⟨request, response⟩
      obtain ⟨hanswers, rfl⟩ :=
        (accept_response_iff (e := e) hopens hadvertises hrequest hm₂).mp haccept
      obtain ⟨exchanges, rfl, hcontinues, hclosed⟩ := (hnext (e := e) hm₂ hopens hanswers).mp hall
      refine ⟨e :: exchanges, rfl, ⟨⟨hopens, hanswers⟩, hcontinues⟩, ?_⟩
      rwa [List.append_assoc] at hclosed
    · rintro ⟨exchanges, hmessages, hcontinues, hclosed⟩
      cases exchanges with
      | nil => cases hmessages
      | cons e es =>
        obtain ⟨⟨hopens, hanswers⟩, hcontinues⟩ := hcontinues
        simp only [List.flatMap_cons, Exchange.messages, List.cons_append, List.nil_append,
          List.cons.injEq, StreamMessage.request.injEq, StreamMessage.response.injEq] at hmessages
        obtain ⟨rfl, rfl, rfl⟩ := hmessages
        refine ⟨_, ⟨hopens, rfl⟩, _,
          (accept_response_iff hopens hadvertises hrequest hm₂).mpr ⟨hanswers, rfl⟩, ?_⟩
        refine (hnext hm₂ hopens hanswers).mpr ⟨es, rfl, hcontinues, ?_⟩
        rwa [List.append_assoc]

theorem continues_iff {before exchanges : List Exchange} :
    Continues before exchanges ↔ ∀ front e back, exchanges = front ++ e :: back →
      Opens (before ++ front) e.request ∧ Answers (before ++ front) e := by
  induction exchanges generalizing before with
  | nil => simp [Continues]
  | cons d ds ih =>
    rw [Continues, ih]
    constructor
    · rintro ⟨hd, hds⟩ front e back heq
      cases front with
      | nil =>
        obtain ⟨rfl, rfl⟩ := List.cons.inj heq
        rwa [List.append_nil]
      | cons f front =>
        obtain ⟨rfl, htail⟩ := List.cons.inj heq
        have hnext := hds front e back htail
        rwa [List.append_assoc] at hnext
    · intro h
      refine ⟨by simpa using h [] d ds rfl, fun front e back heq => ?_⟩
      have hnext := h (d :: front) e back (by rw [heq, List.cons_append])
      rwa [List.append_assoc]

theorem pairwise_iff_splits {α : Type} {R : α → α → Prop} {l : List α} :
    l.Pairwise R ↔ ∀ front a back, l = front ++ a :: back → ∀ d ∈ front, R d a := by
  induction l with
  | nil => simp
  | cons b bs ih =>
    rw [List.pairwise_cons, ih]
    constructor
    · rintro ⟨hb, hbs⟩ front a back heq d hd
      cases front with
      | nil => cases hd
      | cons f front =>
        obtain ⟨rfl, rfl⟩ := List.cons.inj heq
        obtain rfl | hd := List.mem_cons.mp hd
        · exact hb a (by simp)
        · exact hbs front a back rfl d hd
    · intro h
      refine ⟨fun a ha => ?_, fun front a back heq d hd => ?_⟩
      · obtain ⟨front, back, rfl⟩ := List.append_of_mem ha
        exact h (b :: front) a back rfl b (by simp)
      · exact h (b :: front) a back (by rw [heq, List.cons_append]) d (by simp [hd])

theorem closed_iff {exchanges : List Exchange} :
    (stateOf exchanges).phase = .closed ↔ ∃ e ∈ exchanges, e.operation = .close := by
  unfold stateOf
  split_ifs with hnil hclose
  · simp [hnil]
  · exact iff_of_true rfl hclose
  · exact iff_of_false (by simp) hclose

theorem not_succeeds_of_unsupported {e : Exchange} (h : e.unsupported = true) :
    e.succeeds = false := by
  unfold Exchange.unsupported at h
  unfold Exchange.succeeds
  cases houtcome : e.response.outcome with
  | ok value => simp [houtcome] at h
  | error error => rfl
  | unsupported error => rfl

section
variable {front back : List Exchange} {e : Exchange}

theorem Session.hello_iff (h : Session (front ++ e :: back)) :
    e.operation = .hello ↔ front = [] := by
  cases front with
  | nil =>
    obtain ⟨d, hd, hhello, -⟩ := h.first
    obtain rfl := Option.some.inj hd
    exact iff_of_true hhello rfl
  | cons f front =>
    refine iff_of_false (h.others e ?_) (by simp)
    simp

theorem Session.opens (h : Session (front ++ e :: back)) : Opens front e.request := by
  have hrunning : ∀ d ∈ front, d.operation ≠ .close := by
    intro d hd
    refine h.once d ?_
    rw [List.dropLast_append_of_ne_nil (by simp)]
    exact List.mem_append_left _ hd
  exact ⟨hrunning, pairwise_iff_splits.mp h.increasing front e back rfl, h.hello_iff,
    h.generation front e back rfl⟩

theorem Session.close_succeeds (h : Session (front ++ e :: back)) (hclose : e.operation = .close) :
    e.succeeds = true := by
  obtain ⟨last, hlast, -, hsucceeds⟩ := h.closes
  cases back with
  | nil =>
    rw [List.getLast?_concat] at hlast
    rwa [Option.some.inj hlast]
  | cons b back =>
    refine absurd hclose (h.once e ?_)
    rw [List.dropLast_append_of_ne_nil (by simp)]
    simp

theorem Session.answers (h : Session (front ++ e :: back)) : Answers front e := by
  have hmem : e ∈ front ++ e :: back := by simp
  have hadvertised : e.operation ≠ .hello → advertised (front ++ e :: back) = advertised front :=
    fun hother => advertised_append (h.hello_iff.not.mp hother) _
  have hsucceeds : e.operation = .hello ∨ e.operation = .close → e.succeeds = true := by
    rintro (hoperation | hoperation)
    · exact h.helloSucceeds e hmem hoperation
    · exact h.close_succeeds hoperation
  refine ⟨h.echoes e hmem, hsucceeds, ?_, ?_⟩
  · intro hother hok
    rw [← hadvertised hother]
    exact h.ok_advertised e hmem hother hok
  · intro hunsupported
    have hother : e.operation ≠ .hello := by
      intro hoperation
      have hok := h.helloSucceeds e hmem hoperation
      rw [not_succeeds_of_unsupported hunsupported] at hok
      cases hok
    rw [← hadvertised hother]
    exact h.unsupported_unadvertised e hmem hunsupported

end

theorem session_of_splits {exchanges : List Exchange}
    (hsplits : ∀ front e back, exchanges = front ++ e :: back →
      Opens front e.request ∧ Answers front e)
    {e : Exchange} (hmem : e ∈ exchanges) (hclose : e.operation = .close) : Session exchanges := by
  obtain ⟨front, back, rfl⟩ := List.append_of_mem hmem
  have hback : back = [] := by
    cases back with
    | nil => rfl
    | cons f back =>
      have hrunning := (hsplits (front ++ [e]) f back (by simp)).1.running
      exact absurd hclose (hrunning e (by simp))
  subst hback
  have hbefore : ∀ d ∈ front ++ [e], ∃ before after, front ++ [e] = before ++ d :: after :=
    fun d hd => List.append_of_mem hd
  have hlast := hsplits front e [] rfl
  have hnonempty : front ≠ [] := by
    intro hnil
    have hhello : e.operation = .hello := hlast.1.hello.mpr hnil
    rw [hclose] at hhello
    cases hhello
  obtain ⟨first, rest, rfl⟩ := List.exists_cons_of_ne_nil hnonempty
  have hfirst := hsplits [] first (rest ++ [e]) rfl
  have hhello : first.operation = .hello := hfirst.1.hello.mpr rfl
  have hadvertised : ∀ before d after, first :: rest ++ [e] = before ++ d :: after →
      d.operation ≠ .hello → advertised (first :: rest ++ [e]) = advertised before := by
    intro before d after heq hother
    have hbefore : before ≠ [] := (hsplits before d after heq).1.hello.not.mp hother
    rw [heq, advertised_append hbefore]
  constructor
  case increasing => exact pairwise_iff_splits.mpr fun f a b h => (hsplits f a b h).1.increasing
  case first =>
    refine ⟨first, rfl, hhello, ?_⟩
    have hgeneration := hfirst.1.generation
    have hother : first.request.operation.name ≠ .reset := by
      rw [show first.request.operation.name = .hello from hhello]
      decide
    rwa [if_neg hother] at hgeneration
  case others =>
    intro d hd hoperation
    obtain ⟨before, after, heq⟩ := List.append_of_mem hd
    have hsplit := hsplits (first :: before) d after (congrArg (first :: ·) heq)
    exact absurd (hsplit.1.hello.mp hoperation) (by simp)
  case generation => exact fun before d after h => (hsplits before d after h).1.generation
  case echoes =>
    intro d hd
    obtain ⟨before, after, heq⟩ := hbefore d hd
    exact (hsplits before d after heq).2.echoes
  case helloSucceeds =>
    intro d hd hoperation
    obtain ⟨before, after, heq⟩ := hbefore d hd
    exact (hsplits before d after heq).2.succeeds (.inl hoperation)
  case ok_advertised =>
    intro d hd hother hsucceeds
    obtain ⟨before, after, heq⟩ := hbefore d hd
    rw [hadvertised before d after heq hother]
    exact (hsplits before d after heq).2.ok_advertised hother hsucceeds
  case unsupported_unadvertised =>
    intro d hd hunsupported
    obtain ⟨before, after, heq⟩ := hbefore d hd
    have hanswers := (hsplits before d after heq).2
    have hother : d.operation ≠ .hello := by
      intro hoperation
      have hsucceeds := hanswers.succeeds (.inl hoperation)
      rw [not_succeeds_of_unsupported hunsupported] at hsucceeds
      cases hsucceeds
    rw [hadvertised before d after heq hother]
    exact hanswers.unsupported_unadvertised hunsupported
  case closes =>
    exact ⟨e, List.getLast?_concat, hclose, hlast.2.succeeds (.inr hclose)⟩
  case once =>
    rw [List.dropLast_concat]
    exact hlast.1.running

/-- The conditions on single exchanges and the last close are those on the whole session. -/
theorem session_iff {exchanges : List Exchange} :
    Session exchanges ↔
      Continues [] exchanges ∧ (stateOf exchanges).phase = .closed := by
  rw [continues_iff, closed_iff]
  simp only [List.nil_append]
  constructor
  · intro h
    refine ⟨fun front e back heq => ?_, ?_⟩
    · subst heq
      exact ⟨h.opens, h.answers⟩
    · obtain ⟨e, he, hclose, -⟩ := h.closes
      exact ⟨e, List.mem_of_mem_getLast? he, hclose⟩
  · rintro ⟨hsplits, e, hmem, hclose⟩
    exact session_of_splits hsplits hmem hclose

/-- Messages that are valid are all accepted, with `finish` at the end, exactly if they are the
messages of a session. A message that is refused leaves the validator as it was: the verdicts on the
messages after it, and the end, are those of the transcript without it. -/
structure Decides (messages : List StreamMessage) : Prop where
  language : AcceptsAll {} messages ↔
    ∃ exchanges, messages = exchanges.flatMap Exchange.messages ∧ Session exchanges
  unchanged : ∀ before m after, messages = before ++ m :: after →
    ((run StreamTranscriptValidator.next {} before).accept m).1.isOk = false →
    run StreamTranscriptValidator.next {} (before ++ [m]) =
        run StreamTranscriptValidator.next {} before ∧
      verdicts StreamTranscriptValidator.accept {} messages =
        verdicts StreamTranscriptValidator.accept {} before ++ false ::
          verdicts StreamTranscriptValidator.accept
            (run StreamTranscriptValidator.next {} before) after ∧
      verdicts StreamTranscriptValidator.accept {} (before ++ after) =
        verdicts StreamTranscriptValidator.accept {} before ++
          verdicts StreamTranscriptValidator.accept
            (run StreamTranscriptValidator.next {} before) after ∧
      run StreamTranscriptValidator.next {} messages =
        run StreamTranscriptValidator.next {} (before ++ after)

theorem verdicts_append (v : StreamTranscriptValidator) (ms ns : List StreamMessage) :
    verdicts StreamTranscriptValidator.accept v (ms ++ ns) =
      verdicts StreamTranscriptValidator.accept v ms ++
        verdicts StreamTranscriptValidator.accept (run StreamTranscriptValidator.next v ms) ns := by
  induction ms generalizing v with
  | nil => rfl
  | cons m ms ih =>
    rw [List.cons_append, verdicts, verdicts, ih, List.cons_append, run_cons]
    rfl

theorem validator_decides (messages : List StreamMessage)
    (hvalid : ∀ m ∈ messages, m.validate = .ok ()) : Decides messages := by
  constructor
  case language =>
    have hstart : ({} : StreamTranscriptValidator) = stateOf [] := rfl
    have hnothing : Advertises [] := fun h => absurd rfl h
    rw [hstart, acceptsAll_iff hnothing hvalid]
    simp only [List.nil_append, session_iff]
  case unchanged =>
    rintro before m after rfl hrefused
    have hsame : (run StreamTranscriptValidator.next {} before).next m =
        run StreamTranscriptValidator.next {} before :=
      StreamTranscriptValidator.accept_frame _ m hrefused
    refine ⟨by rw [run_append, run_cons, run_nil, hsame], ?_, verdicts_append _ _ _, ?_⟩
    · rw [verdicts_append, verdicts, hrefused]
      exact congrArg (fun v => _ ++ false :: verdicts StreamTranscriptValidator.accept v after) hsame
    · rw [run_append, run_cons, hsame, run_append]

/-- The transcript of an advertised capability that is refused, up to the refusal. -/
theorem validator_decides_hello : Decides (unsupportedReset.take 3) :=
  validator_decides _ fun m hm => (unsupportedReset_valid m (List.mem_of_mem_take hm)).1

end OptoSync.Stream
