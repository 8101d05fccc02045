import OptoSync.FrameCorrelation

/-!
# The WebSocket transport of the Dart client

`WebSocketProtocolTransport`: one connection at a time, each with the generation of its dial, and
the requests that wait for a frame. An action is what runs between two awaits. Delays before the
next dial are left out.
-/
namespace OptoSync.Transport.Dart
open Transition Json

structure SyncTransportException where
  message : String
  retryable : Bool
  code : String
  deriving DecidableEq

structure Connection where
  socket : ℕ
  generation : ℕ
  deriving DecidableEq

/-- How far a dial is. It stays in `_connecting` until its future has completed. -/
inductive Phase
  | token
  | socket
  | finished (result : Except SyncTransportException Connection)

structure Dial where
  generation : ℕ
  phase : Phase

structure PendingRequest where
  requestId : String
  generation : ℕ
  kind : RequestKind
  completer : ℕ

/-- A call that awaits its connection: the one handed to it, or that of the dial. -/
structure AwaitingCall where
  call : ℕ
  kind : RequestKind
  connection : Option (Except SyncTransportException Connection)

inductive Outcome
  | value (body : Frame)
  | errorFrame (error : SyncTransportException)
  | failure (error : SyncTransportException)
  | cancelled
  /-- The fallback transport has the request. -/
  | delegated

/-- The outcome of a call, and the connection and the frame that it came from. -/
structure Settlement where
  call : ℕ
  outcome : Outcome
  origin : Option (Connection × Frame)

/-- A request frame that a socket took. -/
structure SentRequest where
  socket : ℕ
  call : ℕ
  requestId : String
  kind : RequestKind

structure WebSocketTransport where
  pending : List PendingRequest
  connection : Option Connection
  connecting : Option Dial
  socketGeneration : ℕ
  nextRequestId : ℕ
  disposed : Bool
  /-- The calls so far and the sockets so far. -/
  calls : ℕ
  sockets : ℕ
  /-- The sockets whose `readyState` is open. -/
  opened : List ℕ
  /-- The connections that are listened to. -/
  links : List Connection
  awaiting : List AwaitingCall
  sent : List SentRequest
  settled : List Settlement
  /-- The generations whose closure was observed. -/
  observed : List ℕ
  /-- The watermarks that `onChanged` was called with. -/
  hints : List ℤ

namespace WebSocketTransport

def start : WebSocketTransport where
  pending := []
  connection := none
  connecting := none
  socketGeneration := 0
  nextRequestId := 0
  disposed := false
  calls := 0
  sockets := 0
  opened := []
  links := []
  awaiting := []
  sent := []
  settled := []
  observed := []
  hints := []

end WebSocketTransport

inductive TokenResult
  /-- The provider failed. -/
  | failed
  /-- `_validatedTarget` throws. -/
  | invalid (error : SyncTransportException)
  | valid

inductive DialResult
  | opened
  | timedOut
  | failed
  /-- The dispose signal came first. -/
  | disposed

inductive FrameData
  | binary
  | text (text : String)

inductive Action
  | request (kind : RequestKind) (cancelled : Bool)
  | token (result : TokenResult)
  | dialed (result : DialResult)
  /-- The future of the dial completes. -/
  | resolve
  /-- A call goes on with its connection; its socket takes the frame or throws. -/
  | resume (call : ℕ) (cancelled taken : Bool)
  | frame (connection : Connection) (data : FrameData)
  | done (connection : Connection)
  | error (connection : Connection)
  /-- The `readyState` of a socket is no longer open. -/
  | shut (socket : ℕ)
  | timeout (call : ℕ)
  | dispose

def disposedError : SyncTransportException := ⟨"transport disposed", false, "WS_DISPOSED"⟩

/-- What the transport is given: its fallback, its seed, and the language's `jsonDecode` and
equality of a float with one. -/
structure Host where
  fallback : Bool
  seed : String
  jsonDecode : String → Option Json
  isOne : String → Bool

def maxInboundFrameBytes : ℕ := 32 * 1024 * 1024

def maxSafeJavascriptInteger : ℤ := 9007199254740991

namespace WebSocketTransport

def owns (transport : WebSocketTransport) (connection : Connection) : Bool :=
  !transport.disposed && connection.generation = transport.socketGeneration &&
    transport.connection = some connection

def isActive (transport : WebSocketTransport) (connection : Connection) : Bool :=
  transport.owns connection && transport.opened.contains connection.socket

def invalidateGeneration (transport : WebSocketTransport) (generation : ℕ) : WebSocketTransport :=
  if transport.socketGeneration = generation then
    { transport with socketGeneration := transport.socketGeneration + 1 }
  else transport

def isCompleted (transport : WebSocketTransport) (completer : ℕ) : Bool :=
  transport.settled.any (·.call = completer)

def settle (transport : WebSocketTransport) (call : ℕ) (outcome : Outcome)
    (origin : Option (Connection × Frame)) : WebSocketTransport :=
  { transport with settled := transport.settled ++ [⟨call, outcome, origin⟩] }

/-- Without a generation all requests fail. -/
def failPending (transport : WebSocketTransport) (error : SyncTransportException)
    (generation : Option ℕ) : WebSocketTransport :=
  let fails (request : PendingRequest) : Bool := generation.all (request.generation = ·)
  let waiters := (transport.pending.filter fails).filter fun request =>
    !transport.isCompleted request.completer
  { transport with
    pending := transport.pending.filter (!fails ·)
    settled := transport.settled ++ waiters.map fun request =>
      ⟨request.completer, .failure error, none⟩ }

def closeSocket (transport : WebSocketTransport) (socket : ℕ) : WebSocketTransport :=
  { transport with opened := transport.opened.filter (· ≠ socket) }

def onClosed (transport : WebSocketTransport) (connection : Connection) : WebSocketTransport :=
  if transport.owns connection then
    (({ transport with connection := none }).invalidateGeneration
      connection.generation).failPending ⟨"websocket closed", true, "WS_CLOSED"⟩
        (some connection.generation)
  else transport

def failConnection (transport : WebSocketTransport) (connection : Connection)
    (error : SyncTransportException) : WebSocketTransport :=
  if transport.owns connection then
    ((({ transport with connection := none }).invalidateGeneration
      connection.generation).failPending error (some connection.generation)).closeSocket
        connection.socket
  else transport

def startDial (transport : WebSocketTransport) : WebSocketTransport :=
  { transport with
    socketGeneration := transport.socketGeneration + 1
    connecting := some ⟨transport.socketGeneration + 1, .token⟩ }

/-- `_ensureConnection`: the active connection, the dial that goes on, or a new one. -/
def ensureConnection (transport : WebSocketTransport) :
    WebSocketTransport × Option (Except SyncTransportException Connection) :=
  match transport.connection.filter transport.isActive with
  | some connection => (transport, some (.ok connection))
  | none => (if transport.connecting.isSome then transport else transport.startDial, none)

def request (transport : WebSocketTransport) (kind : RequestKind) (cancelled : Bool) :
    WebSocketTransport :=
  let call := transport.calls
  let transport := { transport with calls := transport.calls + 1 }
  if transport.disposed then transport.settle call (.failure disposedError) none
  else if cancelled then transport.settle call .cancelled none
  else
    let (transport, connection) := transport.ensureConnection
    { transport with awaiting := transport.awaiting ++ [⟨call, kind, connection⟩] }

def finish (transport : WebSocketTransport) (generation : ℕ)
    (result : Except SyncTransportException Connection) : WebSocketTransport :=
  { transport with connecting := some ⟨generation, .finished result⟩ }

def superseded (transport : WebSocketTransport) (generation : ℕ) : Bool :=
  transport.disposed || generation ≠ transport.socketGeneration

/-- `_dial` from the token on. -/
def onToken (transport : WebSocketTransport) (result : TokenResult) : WebSocketTransport :=
  match transport.connecting with
  | some ⟨generation, .token⟩ =>
    match result with
    | .failed => (transport.invalidateGeneration generation).finish generation
        (.error ⟨"websocket authentication token lookup failed", true, "WS_AUTH_FAILED"⟩)
    | .invalid error =>
      if transport.superseded generation then transport.finish generation (.error disposedError)
      else transport.finish generation (.error error)
    | .valid =>
      if transport.superseded generation then transport.finish generation (.error disposedError)
      else { transport with connecting := some ⟨generation, .socket⟩ }
  | _ => transport

/-- `_dial` from the socket on. -/
def onDialed (transport : WebSocketTransport) (result : DialResult) : WebSocketTransport :=
  match transport.connecting with
  | some ⟨generation, .socket⟩ =>
    match result with
    | .timedOut => (transport.invalidateGeneration generation).finish generation
        (.error ⟨"websocket dial timed out", true, "WS_DIAL_TIMEOUT"⟩)
    | .failed => (transport.invalidateGeneration generation).finish generation
        (.error ⟨"websocket dial failed", true, "WS_DIAL_FAILED"⟩)
    | .disposed =>
      if transport.disposed then
        (transport.invalidateGeneration generation).finish generation (.error disposedError)
      else transport
    | .opened =>
      -- The provider's socket, and listened to only by a dial that is still current.
      let socket := transport.sockets
      let transport := { transport with sockets := transport.sockets + 1 }
      if transport.superseded generation then transport.finish generation (.error disposedError)
      else
        let connection : Connection := ⟨socket, generation⟩
        ({ transport with
          connection := some connection
          opened := transport.opened ++ [socket]
          links := transport.links ++ [connection] }).finish generation (.ok connection)
  | _ => transport

def onResolve (transport : WebSocketTransport) : WebSocketTransport :=
  match transport.connecting with
  | some ⟨_, .finished result⟩ =>
    { transport with
      connecting := none
      awaiting := transport.awaiting.map fun call =>
        if call.connection.isNone then { call with connection := some result } else call }
  | _ => transport

section
variable (host : Host)

/-- The request is registered, and its socket takes the frame or throws. -/
def send (transport : WebSocketTransport) (call : ℕ) (kind : RequestKind) (connection : Connection)
    (taken : Bool) : WebSocketTransport :=
  let requestId := host.seed ++ "-" ++ toString (transport.nextRequestId + 1)
  let others := transport.pending.filter (·.requestId ≠ requestId)
  let transport := { transport with nextRequestId := transport.nextRequestId + 1 }
  if taken then
    { transport with
      pending := others ++ [⟨requestId, connection.generation, kind, call⟩]
      sent := transport.sent ++ [⟨connection.socket, call, requestId, kind⟩] }
  else
    let error : SyncTransportException := ⟨"websocket send failed", true, "WS_SEND_FAILED"⟩
    (({ transport with pending := others }).failConnection connection error).settle call
      (.failure error) none

/-- `_request` from its connection on. -/
def onResume (transport : WebSocketTransport) (call : ℕ) (cancelled taken : Bool) :
    WebSocketTransport :=
  match transport.awaiting.find? (·.call = call) with
  | some ⟨_, kind, some result⟩ =>
    let transport := { transport with awaiting := transport.awaiting.filter (·.call ≠ call) }
    match result with
    | .error error =>
      if host.fallback && !transport.disposed then transport.settle call .delegated none
      else transport.settle call (.failure error) none
    | .ok connection =>
      if cancelled then transport.settle call .cancelled none
      else if transport.isActive connection then transport.send host call kind connection taken
      else transport.settle call
        (.failure ⟨"websocket closed before request send", true, "WS_CLOSED"⟩) none
  | _ => transport

end

def onTimeout (transport : WebSocketTransport) (call : ℕ) : WebSocketTransport :=
  match transport.pending.find? (·.completer = call) with
  | none => transport
  | some request =>
    ({ transport with pending := transport.pending.filter (·.requestId ≠ request.requestId) }).settle
      call (.failure ⟨"websocket request timed out", true, "WS_TIMEOUT"⟩) none

def dispose (transport : WebSocketTransport) : WebSocketTransport :=
  if transport.disposed then transport
  else
    let disposed := { transport with
      disposed := true, socketGeneration := transport.socketGeneration + 1 }
    let failed := disposed.failPending disposedError none
    match failed.connection with
    | none => failed
    | some active => ({ failed with connection := none }).closeSocket active.socket

end WebSocketTransport

def Host.isVersionOne (host : Host) (frame : Frame) : Bool :=
  match member frame "v" with
  | some (.number (.int value)) => value = 1
  | some (.number (.float literal)) => host.isOne literal
  | _ => false

def errorOfFrame (frame : Frame) : SyncTransportException where
  message := ((member frame "message").bind asString).getD "sync websocket error"
  retryable := member frame "retryable" ≠ some (.bool false)
  code := ((member frame "code").bind asString).getD "WS_ERROR"

def bodyOf (frame : Frame) : Frame :=
  frame.filter fun field => field.1 ∉ ["v", "type", "requestId"]

def resultTypes : List String := ["push-result", "pull-result", "snapshot-result"]

namespace WebSocketTransport

variable (host : Host)

/-- A request leaves the table with its outcome. -/
def complete (transport : WebSocketTransport) (request : PendingRequest) (outcome : Outcome)
    (connection : Connection) (frame : Frame) : WebSocketTransport :=
  ({ transport with pending := transport.pending.filter (·.requestId ≠ request.requestId) }).settle
    request.completer outcome (some (connection, frame))

def onChanged (transport : WebSocketTransport) (watermark : Option Json) : WebSocketTransport :=
  match watermark with
  | some (.number (.int value)) =>
    if 0 ≤ value ∧ value ≤ maxSafeJavascriptInteger then
      { transport with hints := transport.hints ++ [value] }
    else transport
  | _ => transport

/-- A frame for a request that waits. -/
def onAnswer (transport : WebSocketTransport) (connection : Connection) (frame : Frame)
    (request : PendingRequest) : WebSocketTransport :=
  match member frame "type" with
  | some (.string type) =>
    if type = "error" then
      transport.complete request (.errorFrame (errorOfFrame frame)) connection frame
    else if type = request.kind.resultType then
      transport.complete request (.value (bodyOf frame)) connection frame
    else if type ∈ resultTypes then
      transport.failConnection connection
        ⟨"websocket response type does not match " ++ request.kind.resultType, false,
          "WS_PROTOCOL_MISMATCH"⟩
    else transport
  | _ => transport

def onObject (transport : WebSocketTransport) (connection : Connection) (frame : Frame) :
    WebSocketTransport :=
  if !host.isVersionOne frame then transport
  else if member frame "type" = some (.string "changed") then
    transport.onChanged (member frame "watermark")
  else
    match frameRequestId frame with
    | none => transport
    | some requestId =>
      match transport.pending.find? (·.requestId = requestId) with
      | none => transport
      | some request =>
        if request.generation ≠ connection.generation || transport.isCompleted request.completer then
          transport
        else transport.onAnswer connection frame request

def onFrame (transport : WebSocketTransport) (connection : Connection) (data : FrameData) :
    WebSocketTransport :=
  if !transport.owns connection then transport
  else
    match data with
    | .binary => transport.failConnection connection
        ⟨"websocket protocol requires text frames", false, "WS_BINARY_FRAME"⟩
    | .text text =>
      if maxInboundFrameBytes < text.utf8ByteSize then
        transport.failConnection connection
          ⟨"websocket frame exceeds the protocol limit", false, "WS_FRAME_TOO_LARGE"⟩
      else
        match host.jsonDecode text with
        | some (.object frame) => transport.onObject host connection frame
        | _ => transport

/-- The closure of a connection is observed. -/
def observe (transport : WebSocketTransport) (connection : Connection) : WebSocketTransport :=
  { transport with observed := transport.observed ++ [connection.generation] }

/-- Only connections that are listened to have callbacks. -/
def next (transport : WebSocketTransport) : Action → WebSocketTransport
  | .request kind cancelled => transport.request kind cancelled
  | .token result => transport.onToken result
  | .dialed result => transport.onDialed result
  | .resolve => transport.onResolve
  | .resume call cancelled taken => transport.onResume host call cancelled taken
  | .frame connection data =>
    if connection ∈ transport.links then transport.onFrame host connection data else transport
  | .done connection =>
    if connection ∈ transport.links then (transport.onClosed connection).observe connection
    else transport
  | .error connection =>
    if connection ∈ transport.links then
      (transport.failConnection connection
        ⟨"websocket connection error", true, "WS_SOCKET_ERROR"⟩).observe connection
    else transport
  | .shut socket => transport.closeSocket socket
  | .timeout call => transport.onTimeout call
  | .dispose => transport.dispose

end WebSocketTransport

end OptoSync.Transport.Dart
