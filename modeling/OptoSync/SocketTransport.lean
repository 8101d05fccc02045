import OptoSync.FrameCorrelation

/-!
# The socket transports of the Rust client

`Core` with its TCP and its WebSocket sink: any number of threads that request and dispose, and the
reader thread of each link. An action is a section under one lock, or one access to an atomic.
-/
namespace OptoSync.Transport
open Transition

inductive Sink
  | tcp | ws
  deriving DecidableEq

structure SocketCodes extends FrameCodes where
  kind : String
  closed : String
  timeout : String
  sendFailed : String
  disposed : String

inductive RequestError
  /-- The socket could not be established: eligible for the fallback. -/
  | dial (failure : SyncTransportFailure)
  | other (failure : SyncTransportFailure)

def RequestKind.frameType : RequestKind → String
  | .push => "push"
  | .pull => "pull"
  | .snapshot => "snapshot"

/-- The end of a request's channel, and where it is registered. -/
structure Receiver where
  link : ℕ
  number : ℕ
  kind : RequestKind
  ticket : ℕ

/-- A reader thread: it has stored that its link is dead, it has failed all requests, it has dropped
the outbound frames. -/
inductive Reader
  | running
  | closing (message : String)
  | failed
  | gone

structure SocketLink where
  table : System
  alive : Bool
  /-- The stream is shut down, or its thread is told to shut it down. -/
  closed : Bool
  reader : Reader

def SocketLink.dialed : SocketLink := ⟨.start, true, false, .running⟩

inductive Phase
  | idle
  /-- The request read the transport as not disposed, and waits for the slot. -/
  | slot (kind : RequestKind)
  | dialing (kind : RequestKind)
  | linked (kind : RequestKind) (link : ℕ)
  | registered (receiver : Receiver)
  /-- A TCP write failed: then the link is marked, shut down and all its requests fail. -/
  | broken (receiver : Receiver) (reason : String)
  | marked (receiver : Receiver) (reason : String)
  | shut (receiver : Receiver) (reason : String)
  | unsent (receiver : Receiver) (reason : String)
  | receiving (receiver : Receiver)
  | expired (receiver : Receiver)
  | finished (result : Except RequestError Frame)
  /-- `dispose` has stored its flag, emptied the slot, marked the link, failed its requests. -/
  | disposing
  | emptied (link : Option ℕ)
  | silenced (link : ℕ)
  | drained (link : ℕ)

structure Core where
  disposed : Bool
  connection : Option ℕ
  /-- The thread that dials holds the lock of the slot. -/
  holder : Option ℕ
  nextId : ℕ
  /-- The number of links so far. The links to come are as a dial makes them. -/
  dialed : ℕ
  links : ℕ → SocketLink
  phase : ℕ → Phase
  /-- A call of `dispose` has returned. -/
  returned : Bool

inductive CoreAction
  | request (thread : ℕ) (kind : RequestKind)
  | takeSlot (thread : ℕ)
  | dialed (thread : ℕ) (result : Except SyncTransportFailure Unit)
  | register (thread : ℕ)
  /-- The stream takes the frame, or fails for a reason. -/
  | send (thread : ℕ) (result : Except String Unit)
  | receive (thread : ℕ)
  | expire (thread : ℕ)
  | dispose (thread : ℕ)
  | takeLink (thread : ℕ)
  /-- The thread goes on with the next section of what it does. -/
  | proceed (thread : ℕ)
  | frame (link : ℕ) (text : String)
  | stop (link : ℕ) (message : String)
  | failAll (link : ℕ)
  | drop (link : ℕ)

def SyncTransportFailure.retryable (code message : String) : SyncTransportFailure :=
  ⟨⟨code, message⟩, true, none⟩

def SyncTransportFailure.permanent (code message : String) : SyncTransportFailure :=
  ⟨⟨code, message⟩, false, none⟩

section
variable (seed : String)

/-- `RequestIds::allocate`. -/
def allocate (number : ℕ) : String := seed ++ "-" ++ toString number

def Receiver.requestId (receiver : Receiver) : String := allocate seed receiver.number

def Receiver.waiter (receiver : Receiver) : Waiter :=
  ⟨receiver.requestId seed, receiver.kind, receiver.ticket⟩

/-- The outcome that was sent to the receiver. -/
def SocketLink.outcome (link : SocketLink) (receiver : Receiver) : Option FrameOutcome :=
  (link.table.delivered.find? (·.ticket = receiver.ticket)).map (·.outcome)

end

namespace Core

def start : Core where
  disposed := false
  connection := none
  holder := none
  nextId := 0
  dialed := 0
  links _ := .dialed
  phase _ := .idle
  returned := false

def setPhase (core : Core) (thread : ℕ) (phase : Phase) : Core :=
  { core with phase := Function.update core.phase thread phase }

def setLink (core : Core) (link : ℕ) (value : SocketLink) : Core :=
  { core with links := Function.update core.links link value }

section
variable (codes : SocketCodes)

def disposedFailure : SyncTransportFailure := .permanent codes.disposed "transport disposed"

def request (core : Core) (thread : ℕ) (kind : RequestKind) : Core :=
  match core.phase thread with
  | .idle | .finished _ =>
    if core.disposed then core.setPhase thread (.finished (.error (.other (disposedFailure codes))))
    else core.setPhase thread (.slot kind)
  | _ => core

end

/-- `connect` up to its dial. -/
def takeSlot (core : Core) (thread : ℕ) : Core :=
  match core.phase thread, core.holder with
  | .slot kind, none =>
    match core.connection.filter fun link => (core.links link).alive with
    | some link => core.setPhase thread (.linked kind link)
    | none => { core.setPhase thread (.dialing kind) with connection := none, holder := some thread }
  | _, _ => core

/-- `connect` from its dial on. -/
def onDialed (core : Core) (thread : ℕ) (result : Except SyncTransportFailure Unit) : Core :=
  match core.phase thread with
  | .dialing kind =>
    let core := { core with holder := none }
    match result with
    | .error failure => core.setPhase thread (.finished (.error (.dial failure)))
    | .ok () =>
      { core.setPhase thread (.linked kind core.dialed) with
        connection := some core.dialed, dialed := core.dialed + 1 }
  | _ => core

section
variable (seed : String)

def register (core : Core) (thread : ℕ) : Core :=
  match core.phase thread with
  | .linked kind link =>
    let value := core.links link
    let receiver : Receiver := ⟨link, core.nextId + 1, kind, value.table.nextTicket⟩
    { (core.setLink link { value with
        table := value.table.register (receiver.requestId seed) kind }).setPhase thread
          (.registered receiver) with
      nextId := core.nextId + 1 }
  | _ => core

end

/-- `send_frame`. A stream that is shut down takes nothing, a WebSocket frame is queued as long as
the thread of its link has the queue. -/
def send (sink : Sink) (core : Core) (thread : ℕ) (result : Except String Unit) : Core :=
  match core.phase thread with
  | .registered receiver =>
    let link := core.links receiver.link
    match sink with
    | .tcp =>
      match result with
      | .ok () =>
        if link.closed then core else core.setPhase thread (.receiving receiver)
      | .error reason => core.setPhase thread (.broken receiver reason)
    | .ws =>
      match link.reader with
      | .gone => core.setPhase thread (.unsent receiver "websocket connection is closed")
      | _ => core.setPhase thread (.receiving receiver)
  | _ => core

def receive (core : Core) (thread : ℕ) : Core :=
  match core.phase thread with
  | .receiving receiver =>
    match (core.links receiver.link).outcome receiver with
    | some (.ok frame) => core.setPhase thread (.finished (.ok frame))
    | some (.error failure) => core.setPhase thread (.finished (.error (.other failure)))
    | none => core
  | _ => core

def expire (core : Core) (thread : ℕ) : Core :=
  match core.phase thread with
  | .receiving receiver =>
    if ((core.links receiver.link).outcome receiver).isNone then
      core.setPhase thread (.expired receiver)
    else core
  | _ => core

def dispose (core : Core) (thread : ℕ) : Core :=
  match core.phase thread with
  | .idle | .finished _ => { core.setPhase thread .disposing with disposed := true }
  | _ => core

def takeLink (core : Core) (thread : ℕ) : Core :=
  match core.phase thread, core.holder with
  | .disposing, none => { core.setPhase thread (.emptied core.connection) with connection := none }
  | _, _ => core

def mark (core : Core) (link : ℕ) : Core :=
  core.setLink link { core.links link with alive := false }

def close (core : Core) (link : ℕ) : Core :=
  core.setLink link { core.links link with closed := true }

def drain (core : Core) (link : ℕ) (failure : SyncTransportFailure) : Core :=
  core.setLink link { core.links link with table := (core.links link).table.failAll failure }

def forget (seed : String) (core : Core) (receiver : Receiver) : Core :=
  core.setLink receiver.link { core.links receiver.link with
    table := (core.links receiver.link).table.forget (receiver.requestId seed) }

def returns (core : Core) (thread : ℕ) : Core :=
  { core.setPhase thread .idle with returned := true }

def proceed (codes : SocketCodes) (seed : String) (core : Core) (thread : ℕ) : Core :=
  match core.phase thread with
  | .broken receiver reason => (core.mark receiver.link).setPhase thread (.marked receiver reason)
  | .marked receiver reason => (core.close receiver.link).setPhase thread (.shut receiver reason)
  | .shut receiver reason =>
    (core.drain receiver.link (.retryable codes.closed ("tcp connection lost: " ++ reason))).setPhase
      thread (.unsent receiver ("tcp send failed: " ++ reason))
  | .unsent receiver reason =>
    (core.forget seed receiver).setPhase thread
      (.finished (.error (.other (.retryable codes.sendFailed reason))))
  | .expired receiver =>
    (core.forget seed receiver).setPhase thread (.finished (.error (.other
      (.retryable codes.timeout
        (codes.kind ++ " " ++ receiver.kind.frameType ++ " timed out")))))
  | .emptied none => core.returns thread
  | .emptied (some link) => (core.mark link).setPhase thread (.silenced link)
  | .silenced link => (core.drain link (disposedFailure codes)).setPhase thread (.drained link)
  | .drained link => (core.close link).returns thread
  | _ => core

def stop (core : Core) (link : ℕ) (message : String) : Core :=
  match (core.links link).reader with
  | .running =>
    core.setLink link { core.links link with alive := false, reader := .closing message }
  | _ => core

def failAll (codes : SocketCodes) (core : Core) (link : ℕ) : Core :=
  match (core.links link).reader with
  | .closing message =>
    core.setLink link { core.links link with
      table := (core.links link).table.failAll (.retryable codes.closed message)
      reader := .failed }
  | _ => core

def drop (core : Core) (link : ℕ) : Core :=
  match (core.links link).reader with
  | .failed => core.setLink link { core.links link with reader := .gone }
  | _ => core

section
variable (fromStr : String → Option Json) (codes : FrameCodes) (onChanged : Bool)

def frame (core : Core) (link : ℕ) (text : String) : Core :=
  match (core.links link).reader with
  | .running =>
    core.setLink link { core.links link with
      table := dispatchFrame fromStr codes onChanged (core.links link).table text }
  | _ => core

end

section
variable (sink : Sink) (codes : SocketCodes) (seed : String) (fromStr : String → Option Json)
  (onChanged : Bool)

def next (core : Core) : CoreAction → Core
  | .request thread kind => core.request codes thread kind
  | .takeSlot thread => core.takeSlot thread
  | .dialed thread result => core.onDialed thread result
  | .register thread => core.register seed thread
  | .send thread result => core.send sink thread result
  | .receive thread => core.receive thread
  | .expire thread => core.expire thread
  | .dispose thread => core.dispose thread
  | .takeLink thread => core.takeLink thread
  | .proceed thread => core.proceed codes seed thread
  | .frame link text =>
    if link < core.dialed then core.frame fromStr codes.toFrameCodes onChanged link text else core
  | .stop link message => if link < core.dialed then core.stop link message else core
  | .failAll link => if link < core.dialed then core.failAll codes link else core
  | .drop link => if link < core.dialed then core.drop link else core

end
end Core
end OptoSync.Transport
