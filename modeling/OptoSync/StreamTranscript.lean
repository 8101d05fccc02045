import OptoSync.StreamMessageGo

/-!
# Transcript validators

`StreamTranscriptValidator` of `fmctl` and `TranscriptValidator` of the Go adapter SDK. A method
that may fail returns its verdict and the validator it leaves behind.
-/
namespace OptoSync.Stream

/-- The verdict on a message, and the validator after it. -/
abbrev Verdict (σ : Type) := Checked Unit × σ

inductive SessionPhase
  | awaitHello | ready | closed
  deriving DecidableEq, Repr

structure PendingRequest where
  requestId : String
  machine : String
  generation : ℕ
  operation : StreamOperationName
  deriving DecidableEq

structure StreamTranscriptValidator where
  phase : SessionPhase := .awaitHello
  generation : ℕ := 0
  lastRequestId : ℕ := 0
  pending : Option PendingRequest := none
  capabilities : List StreamOperationName := []
  deriving DecidableEq

namespace StreamTranscriptValidator

def refuse (self : StreamTranscriptValidator) (text : String) : Verdict StreamTranscriptValidator :=
  (.error text, self)

/-- Why a request of this generation does not fit the phase. -/
def wrongPhase (self : StreamTranscriptValidator) (request : StreamRequest) : Option String :=
  let operation := request.operation.name
  match self.phase with
  | .awaitHello =>
    if operation ≠ .hello ∨ request.generation ≠ 0 then
      some "the first request must be hello at generation 0"
    else none
  | .ready =>
    if operation = .hello then some "hello may only occur before the session is ready"
    else if operation = .reset ∧ self.generation = maxStreamGeneration then
      some "adapter generation cannot advance beyond 2^53-1"
    else
      let expectedGeneration := if operation = .reset then self.generation + 1 else self.generation
      if request.generation ≠ expectedGeneration then
        some s!"request {request.requestId} uses generation {request.generation}; expected {expectedGeneration}"
      else none
  | .closed => none

def acceptRequest (self : StreamTranscriptValidator) (request : StreamRequest) :
    Verdict StreamTranscriptValidator :=
  if self.phase = .closed then self.refuse "request received after the session closed"
  else
    match self.pending with
    | some pending =>
      self.refuse
        s!"request {request.requestId} arrived before response to request {pending.requestId}"
    | none =>
      match parseRequestId request.requestId with
      | .error text => self.refuse text
      | .ok requestId =>
        if requestId ≤ self.lastRequestId then
          self.refuse
            s!"request id {request.requestId} must be strictly greater than {self.lastRequestId}"
        else
          match self.wrongPhase request with
          | some text => self.refuse text
          | none =>
            (.ok (),
              { self with
                lastRequestId := requestId
                pending := some { requestId := request.requestId, machine := request.machine,
                                  generation := request.generation,
                                  operation := request.operation.name } })

/-- `accept_response` once the response echoes the pending request. -/
def acceptOutcome (self : StreamTranscriptValidator) (pending : PendingRequest)
    (outcome : StreamOutcome) : Verdict StreamTranscriptValidator :=
  match pending.operation, outcome with
  | .hello, .ok value =>
    match requireHello value with
    | .error text => self.refuse text
    | .ok hello =>
      match hello.validate with
      | .error text => self.refuse text
      | .ok _ =>
        (.ok (), { self with phase := .ready, capabilities := hello.capabilities, pending := none })
  | .hello, _ => self.refuse "hello must succeed"
  | .reset, .ok _ =>
    if self.generation = maxStreamGeneration then
      self.refuse "adapter generation cannot advance beyond 2^53-1"
    else if pending.generation ≠ self.generation + 1 then
      self.refuse
        s!"successful reset response generation {pending.generation} does not advance {self.generation} by one"
    else (.ok (), { self with generation := pending.generation, pending := none })
  | .close, .ok _ => (.ok (), { self with phase := .closed, pending := none })
  | .close, _ => self.refuse "close must succeed"
  | operation, .ok _ =>
    if operation ∉ self.capabilities then
      self.refuse "adapter succeeded for unadvertised capability"
    else (.ok (), { self with pending := none })
  | operation, .unsupported _ =>
    if operation ∈ self.capabilities then
      self.refuse "adapter rejected advertised capability as unsupported"
    else (.ok (), { self with pending := none })
  | _, .error _ => (.ok (), { self with pending := none })

def acceptResponse (self : StreamTranscriptValidator) (response : StreamResponse) :
    Verdict StreamTranscriptValidator :=
  match self.pending with
  | none => self.refuse s!"response {response.requestId} has no pending request"
  | some pending =>
    if response.requestId ≠ pending.requestId ∨ response.machine ≠ pending.machine ∨
        response.generation ≠ pending.generation ∨ response.operation ≠ pending.operation then
      self.refuse "response does not echo the pending request identity"
    else self.acceptOutcome pending response.outcome

def accept (self : StreamTranscriptValidator) (message : StreamMessage) :
    Verdict StreamTranscriptValidator :=
  match message.validate with
  | .error text => self.refuse text
  | .ok _ =>
    match message with
    | .request request => self.acceptRequest request
    | .response response => self.acceptResponse response

def finish (self : StreamTranscriptValidator) : Checked Unit :=
  match self.pending with
  | some pending => .error s!"transcript ended before response to request {pending.requestId}"
  | none =>
    if self.phase ≠ .closed then
      .error "complete transcript must end with a successful close response"
    else .ok ()

end StreamTranscriptValidator

/-! ## The Go SDK -/

namespace Go

inductive SessionPhase
  | awaitHello | ready | closed
  deriving DecidableEq, Repr

structure PendingRequest where
  requestID : String
  machine : String
  generation : ℕ
  operation : String
  deriving DecidableEq

structure TranscriptValidator where
  phase : SessionPhase := .awaitHello
  generation : ℕ := 0
  lastRequestID : ℤ := 0
  pending : Option PendingRequest := none
  capabilities : List String := []
  deriving DecidableEq

namespace TranscriptValidator

def refuse (validator : TranscriptValidator) (text : String) : Verdict TranscriptValidator :=
  (.error text, validator)

def wrongPhase (validator : TranscriptValidator) (request : Request) : Option String :=
  let operation := request.operation.name
  match validator.phase with
  | .awaitHello =>
    if operation ≠ "hello" ∨ request.generation ≠ 0 then
      some "the first request must be hello at generation 0"
    else none
  | .ready =>
    if operation = "hello" then some "hello may only occur before the session is ready"
    else if operation = "reset" ∧ validator.generation = maxSafeInteger then
      some "adapter generation cannot advance beyond 2^53-1"
    else
      let expectedGeneration :=
        if operation = "reset" then validator.generation + 1 else validator.generation
      if request.generation ≠ expectedGeneration then
        some s!"request {request.requestId} uses generation {request.generation}; expected {expectedGeneration}"
      else none
  | .closed => none

def acceptRequest (validator : TranscriptValidator) (request : Request) :
    Verdict TranscriptValidator :=
  match request.validate with
  | .error text => validator.refuse text
  | .ok _ =>
    if validator.phase = .closed then validator.refuse "request received after the session closed"
    else
      match validator.pending with
      | some pending =>
        validator.refuse
          s!"request {request.requestId} arrived before response to request {pending.requestID}"
      | none =>
        match parseRequestID request.requestId with
        | .error text => validator.refuse text
        | .ok requestID =>
          if requestID ≤ validator.lastRequestID then
            validator.refuse
              s!"request id {request.requestId} must be strictly greater than {validator.lastRequestID}"
          else
            match validator.wrongPhase request with
            | some text => validator.refuse text
            | none =>
              (.ok (),
                { validator with
                  lastRequestID := requestID
                  pending := some { requestID := request.requestId, machine := request.machine,
                                    generation := request.generation,
                                    operation := request.operation.name } })

/-- `acceptResponse` once the response echoes the pending request. -/
def acceptOutcome (validator : TranscriptValidator) (response : Response) :
    Verdict TranscriptValidator :=
  if response.outcome.kind = "ok" ∧ validator.phase = .ready ∧ response.operation ≠ "reset" ∧
      response.operation ≠ "close" ∧ response.operation ∉ validator.capabilities then
    validator.refuse s!"unadvertised operation {response.operation} returned ok"
  else
    match response.operation with
    | "hello" =>
      if response.outcome.kind ≠ "ok" then validator.refuse "hello must succeed"
      else
        match decodeHelloResult response.outcome.value with
        | .error text => validator.refuse text
        | .ok hello =>
          match validateCapabilities hello.capabilities with
          | .error text => validator.refuse text
          | .ok validatedCapabilities =>
            (.ok (), { validator with phase := .ready, capabilities := validatedCapabilities,
                                      pending := none })
    | "reset" =>
      if response.outcome.kind = "ok" then
        if validator.generation = maxSafeInteger then
          validator.refuse "adapter generation cannot advance beyond 2^53-1"
        else if response.generation ≠ validator.generation + 1 then
          validator.refuse
            s!"successful reset response generation {response.generation} does not advance {validator.generation} by one"
        else (.ok (), { validator with generation := response.generation, pending := none })
      else (.ok (), { validator with pending := none })
    | "close" =>
      if response.outcome.kind ≠ "ok" then validator.refuse "close must succeed"
      else (.ok (), { validator with phase := .closed, pending := none })
    | _ => (.ok (), { validator with pending := none })

def acceptResponse (validator : TranscriptValidator) (response : Response) :
    Verdict TranscriptValidator :=
  match response.validate with
  | .error text => validator.refuse text
  | .ok _ =>
    match validator.pending with
    | none => validator.refuse s!"response {response.requestId} arrived without a pending request"
    | some pending =>
      if response.requestId ≠ pending.requestID ∨ response.machine ≠ pending.machine ∨
          response.generation ≠ pending.generation ∨ response.operation ≠ pending.operation then
        validator.refuse s!"response does not match request {pending.requestID}"
      else validator.acceptOutcome response

def accept (validator : TranscriptValidator) (message : Message) : Verdict TranscriptValidator :=
  match message.kind with
  | "request" =>
    match message.request with
    | none => validator.refuse "request envelope lacks request"
    | some request => validator.acceptRequest request
  | "response" =>
    match message.response with
    | none => validator.refuse "response envelope lacks response"
    | some response => validator.acceptResponse response
  | _ => validator.refuse "unsupported message kind"

def finish (validator : TranscriptValidator) : Checked Unit :=
  match validator.pending with
  | some pending => .error s!"transcript ended before response to request {pending.requestID}"
  | none =>
    if validator.phase ≠ .closed then
      .error "complete transcript must end with a successful close response"
    else .ok ()

end TranscriptValidator
end Go
end OptoSync.Stream
