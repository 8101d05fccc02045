import OptoSync.JsonText
import OptoSync.RidlFrame

/-!
# Exchanges over a ridl channel

`RidlRpcTransport.call`: the exchanges listen to one decoded stream, each through a controller of its
own. Between the close of a controller and the delivery of its done event, frames still arrive at it.
Of a sent frame only the type is kept.
-/
namespace OptoSync.Ridl

/-- What a stream fails with; `send` stands for what the channel threw. -/
inductive Failure
  | rpcError (id code : String) (message : Option String)
  | channelClosed (id : String)
  | send
  | decode (error : DecodeError)
  deriving DecidableEq

inductive Output
  | value (body : Json)
  | error (failure : Failure)
  | done
  deriving DecidableEq

/-- A stream that `call` returned. -/
structure Exchange where
  id : String
  listened : Bool := false
  /-- `sub` listens to the inbound frames. -/
  subscribed : Bool := false
  settled : Bool := false
  /-- The controller was closed. -/
  closed : Bool := false
  outputs : List Output := []
  sent : List RidlFrameType := []
  /-- Calls on the closed controller, which throw into the zone. -/
  thrown : ℕ := 0

namespace Exchange

variable (exchange : Exchange)

def add (output : Output) : Exchange :=
  if exchange.closed then { exchange with thrown := exchange.thrown + 1 }
  else { exchange with outputs := exchange.outputs ++ [output] }

def close : Exchange :=
  if exchange.closed then exchange
  else { exchange with closed := true, outputs := exchange.outputs ++ [.done] }

/-- `addError` and `close`; where the first throws, the second is not reached. -/
def fail (failure : Failure) : Exchange :=
  if exchange.closed then exchange.add (.error failure)
  else (exchange.add (.error failure)).close

def onFrame (frame : RidlFrame) : Exchange :=
  match frame.type with
  | .data => exchange.add (.value frame.body)
  | .end_ | .cancel => { exchange with settled := true }.close
  | .error =>
    { exchange with settled := true }.fail
      (.rpcError exchange.id (frame.code.getD "unknown") frame.message)
  | .call =>
    { exchange with settled := true }.fail
      (.rpcError exchange.id "protocol" (some "unexpected call frame on an open exchange"))

/-- An event of the decoded stream. -/
def onInbound (decoded : Except DecodeError RidlFrame) : Exchange :=
  if !exchange.subscribed then exchange
  else
    match decoded with
    | .ok frame => if frame.id = exchange.id then exchange.onFrame frame else exchange
    | .error error => exchange.add (.error (.decode error))

def onDone : Exchange :=
  if !exchange.subscribed then exchange
  else
    let left := { exchange with subscribed := false }
    if exchange.settled then left.close else left.fail (.channelClosed exchange.id)

/-- `onListen`. A stream has one listener. -/
def onListen (sends channelDone : Bool) : Exchange :=
  if exchange.listened then exchange
  else
    let opened := { exchange with listened := true, subscribed := true }
    let called :=
      if sends then { opened with sent := opened.sent ++ [.call] } else opened.fail .send
    if channelDone then called.onDone else called

/-- `stop`, with `cancelPeer`. -/
def stop (channelDone : Bool) : Exchange where
  __ := exchange
  settled := true
  subscribed := false
  sent := if exchange.settled || channelDone then exchange.sent else exchange.sent ++ [.cancel]

/-- The done event reaches the listener, which ends its subscription. -/
def onDelivered (channelDone : Bool) : Exchange :=
  if exchange.closed then exchange.stop channelDone else exchange

/-- The listener cancels. -/
def onCancel (channelDone : Bool) : Exchange :=
  if exchange.listened then exchange.stop channelDone else exchange

end Exchange

structure RidlRpcTransport where
  counter : ℕ := 0
  closed : Bool := false
  exchanges : List Exchange := []

inductive Event
  /-- `call`, with the id that `nextId` returns where there is one. -/
  | call (nextId : Option String)
  | listen (exchange : ℕ) (sends : Bool)
  | frame (wire : String)
  /-- The channel has no more frames. -/
  | close
  | delivered (exchange : ℕ)
  | cancel (exchange : ℕ)

namespace RidlRpcTransport

variable (jsonDecode : String → Option Json) (transport : RidlRpcTransport)

def allocateId (nextId : Option String) : RidlRpcTransport × String :=
  match nextId with
  | some id => (transport, id)
  | none => ({ transport with counter := transport.counter + 1 }, toString (transport.counter + 1))

def call (nextId : Option String) : RidlRpcTransport :=
  let (left, id) := transport.allocateId nextId
  { left with exchanges := left.exchanges ++ [{ id }] }

def modifyExchange (exchange : ℕ) (f : Exchange → Exchange) : RidlRpcTransport :=
  { transport with exchanges := transport.exchanges.modify exchange f }

def next : Event → RidlRpcTransport
  | .call nextId => transport.call nextId
  | .listen exchange sends =>
    transport.modifyExchange exchange fun e => e.onListen sends transport.closed
  | .frame wire =>
    if transport.closed then transport
    else
      { transport with
        exchanges := transport.exchanges.map fun e => e.onInbound (RidlFrame.decode jsonDecode wire) }
  | .close =>
    { transport with closed := true, exchanges := transport.exchanges.map Exchange.onDone }
  | .delivered exchange =>
    transport.modifyExchange exchange fun e => e.onDelivered transport.closed
  | .cancel exchange => transport.modifyExchange exchange fun e => e.onCancel transport.closed

def run (transport : RidlRpcTransport) (events : List Event) : RidlRpcTransport :=
  events.foldl (next jsonDecode) transport

end RidlRpcTransport

/-- How a frame on the id ends the stream. -/
def ending (frame : RidlFrame) : List Output :=
  match frame.type with
  | .data => []
  | .end_ | .cancel => [.done]
  | .error => [.error (.rpcError frame.id (frame.code.getD "unknown") frame.message), .done]
  | .call =>
    [.error (.rpcError frame.id "protocol" (some "unexpected call frame on an open exchange")), .done]

section
variable (jsonDecode : String → Option Json) (exchange : ℕ) (id : String)

/-- The bodies of the data frames on the id, up to its first other frame, the closure of the
channel or the listener's own cancellation. -/
def yields : List Event → List Output
  | [] => []
  | .frame wire :: events =>
    match RidlFrame.decode jsonDecode wire with
    | .error _ => yields events
    | .ok frame =>
      if frame.id = id then
        if frame.type = .data then .value frame.body :: yields events else ending frame
      else yields events
  | .close :: _ => [.error (.channelClosed id), .done]
  | .cancel other :: events => if other = exchange then [] else yields events
  | .call _ :: events | .listen _ _ :: events | .delivered _ :: events => yields events

/-- No malformed frame arrives before the stream has ended. -/
def Undisturbed : List Event → Prop
  | [] => True
  | .frame wire :: events =>
    match RidlFrame.decode jsonDecode wire with
    | .error _ => False
    | .ok frame => (frame.id = id → frame.type = .data) → Undisturbed events
  | .close :: _ => True
  | .cancel other :: events => other ≠ exchange → Undisturbed events
  | .call _ :: events | .listen _ _ :: events | .delivered _ :: events => Undisturbed events

end

namespace Exchange

/-- What an event does to the exchange of this index. -/
def next (jsonDecode : String → Option Json) (channelDone : Bool) (index : ℕ) (exchange : Exchange) :
    Event → Exchange
  | .call _ => exchange
  | .listen other sends =>
    if other = index then exchange.onListen sends channelDone else exchange
  | .frame wire =>
    if channelDone then exchange else exchange.onInbound (RidlFrame.decode jsonDecode wire)
  | .close => exchange.onDone
  | .delivered other => if other = index then exchange.onDelivered channelDone else exchange
  | .cancel other => if other = index then exchange.onCancel channelDone else exchange

end Exchange

def Event.closes : Event → Bool
  | .close => true
  | _ => false

section
variable (jsonDecode : String → Option Json) {transport : RidlRpcTransport} {index : ℕ}
  {exchange : Exchange}

theorem getElem?_next (h : transport.exchanges[index]? = some exchange) (event : Event) :
    (transport.next jsonDecode event).exchanges[index]? =
      some (exchange.next jsonDecode transport.closed index event) := by
  have hmodify : ∀ (other : ℕ) (f : Exchange → Exchange),
      (transport.modifyExchange other f).exchanges[index]? =
        some (if other = index then f exchange else exchange) := by
    intro other f
    rw [RidlRpcTransport.modifyExchange, List.getElem?_modify, h]
    split <;> rfl
  cases event with
  | call nextId =>
    obtain ⟨hlt, -⟩ := List.getElem?_eq_some_iff.mp h
    cases nextId <;>
      · simp only [RidlRpcTransport.next, RidlRpcTransport.call, RidlRpcTransport.allocateId]
        rw [List.getElem?_append_left hlt, h]
        rfl
  | listen other sends => exact hmodify other _
  | frame wire =>
    rw [RidlRpcTransport.next, Exchange.next]
    split
    · exact h
    · rw [List.getElem?_map, h]
      rfl
  | close => simp [RidlRpcTransport.next, Exchange.next, h]
  | delivered other => exact hmodify other _
  | cancel other => exact hmodify other _

theorem closed_next (transport : RidlRpcTransport) (event : Event) :
    (transport.next jsonDecode event).closed = (transport.closed || event.closes) := by
  cases event with
  | call nextId => cases nextId <;> simp [RidlRpcTransport.next, RidlRpcTransport.call,
      RidlRpcTransport.allocateId, Event.closes]
  | frame wire =>
    rw [RidlRpcTransport.next]
    split <;> simp [Event.closes]
  | listen | close | delivered | cancel =>
    simp [RidlRpcTransport.next, RidlRpcTransport.modifyExchange, Event.closes]

end

namespace Exchange

variable {exchange : Exchange}

theorem outputs_add (exchange : Exchange) (output : Output) :
    exchange.outputs <+: (exchange.add output).outputs := by
  rw [add]
  split
  · exact List.prefix_rfl
  · exact List.prefix_append _ _

theorem outputs_close (exchange : Exchange) : exchange.outputs <+: exchange.close.outputs := by
  rw [close]
  split
  · exact List.prefix_rfl
  · exact List.prefix_append _ _

theorem outputs_fail (exchange : Exchange) (failure : Failure) :
    exchange.outputs <+: (exchange.fail failure).outputs := by
  rw [fail]
  split
  · exact outputs_add exchange _
  · exact (outputs_add exchange _).trans (outputs_close _)

theorem outputs_onFrame (exchange : Exchange) (frame : RidlFrame) :
    exchange.outputs <+: (exchange.onFrame frame).outputs := by
  rw [onFrame]
  split
  · exact outputs_add exchange _
  · exact outputs_close { exchange with settled := true }
  · exact outputs_close { exchange with settled := true }
  · exact outputs_fail { exchange with settled := true } _
  · exact outputs_fail { exchange with settled := true } _

theorem outputs_onInbound (exchange : Exchange) (decoded : Except DecodeError RidlFrame) :
    exchange.outputs <+: (exchange.onInbound decoded).outputs := by
  unfold onInbound
  split
  · exact List.prefix_rfl
  split
  · split
    · exact outputs_onFrame exchange _
    · exact List.prefix_rfl
  · exact outputs_add exchange _

theorem outputs_onDone (exchange : Exchange) : exchange.outputs <+: exchange.onDone.outputs := by
  rw [onDone]
  split
  · exact List.prefix_rfl
  split
  · exact outputs_close { exchange with subscribed := false }
  · exact outputs_fail { exchange with subscribed := false } _

theorem outputs_onListen (exchange : Exchange) (sends channelDone : Bool) :
    exchange.outputs <+: (exchange.onListen sends channelDone).outputs := by
  rw [onListen]
  split
  · exact List.prefix_rfl
  have hcalled : exchange.outputs <+: (if sends then
      { exchange with listened := true, subscribed := true, sent := exchange.sent ++ [.call] }
      else ({ exchange with listened := true, subscribed := true } : Exchange).fail .send).outputs := by
    split
    · exact List.prefix_rfl
    · exact outputs_fail { exchange with listened := true, subscribed := true } _
  simp only
  split
  · exact hcalled.trans (outputs_onDone _)
  · exact hcalled

/-- Nothing that was put out is taken back. -/
theorem outputs_next (jsonDecode : String → Option Json) (channelDone : Bool) (index : ℕ)
    (exchange : Exchange) (event : Event) :
    exchange.outputs <+: (exchange.next jsonDecode channelDone index event).outputs := by
  cases event with
  | call nextId => exact List.prefix_rfl
  | listen other sends =>
    rw [next]
    split
    · exact outputs_onListen exchange sends channelDone
    · exact List.prefix_rfl
  | frame wire =>
    rw [next]
    split
    · exact List.prefix_rfl
    · exact outputs_onInbound exchange _
  | close => exact outputs_onDone exchange
  | delivered other =>
    rw [next, onDelivered]
    split
    · split <;> exact List.prefix_rfl
    · exact List.prefix_rfl
  | cancel other =>
    rw [next, onCancel]
    split
    · split <;> exact List.prefix_rfl
    · exact List.prefix_rfl

@[simp] theorem listened_add (exchange : Exchange) (output : Output) :
    (exchange.add output).listened = exchange.listened := by
  rw [add]
  split <;> rfl

@[simp] theorem listened_close (exchange : Exchange) :
    exchange.close.listened = exchange.listened := by
  rw [close]
  split <;> rfl

@[simp] theorem listened_fail (exchange : Exchange) (failure : Failure) :
    (exchange.fail failure).listened = exchange.listened := by
  rw [fail]
  split <;> simp

@[simp] theorem listened_onDone (exchange : Exchange) :
    exchange.onDone.listened = exchange.listened := by
  unfold onDone
  split
  · rfl
  · split <;> simp

theorem listened_onInbound (exchange : Exchange) (decoded : Except DecodeError RidlFrame) :
    (exchange.onInbound decoded).listened = exchange.listened := by
  unfold onInbound
  split
  · rfl
  split
  · split
    · unfold onFrame
      split <;> simp
    · rfl
  · simp

theorem listened_onListen (exchange : Exchange) (sends channelDone : Bool) :
    (exchange.onListen sends channelDone).listened = true := by
  unfold onListen
  cases hlistened : exchange.listened <;> cases sends <;> cases channelDone <;> simp [hlistened]

theorem listened_next {jsonDecode : String → Option Json} {channelDone : Bool} {index : ℕ}
    {event : Event} (h : exchange.listened = true) :
    (exchange.next jsonDecode channelDone index event).listened = true := by
  cases event with
  | call nextId => exact h
  | listen other sends =>
    rw [next]
    split
    · exact listened_onListen exchange sends channelDone
    · exact h
  | frame wire =>
    rw [next]
    split
    · exact h
    · rw [listened_onInbound, h]
  | close => rw [next, listened_onDone, h]
  | delivered other =>
    rw [next, onDelivered]
    split
    · split <;> exact h
    · exact h
  | cancel other =>
    rw [next, onCancel, h]
    split
    · exact h
    · exact h

/-- The stream has ended, or its listener has left. -/
def Ended (exchange : Exchange) : Prop :=
  exchange.listened = true ∧ (exchange.closed = true ∨ exchange.subscribed = false)

theorem Ended.stop (h : exchange.Ended) (channelDone : Bool) :
    (exchange.stop channelDone).Ended ∧ (exchange.stop channelDone).outputs = exchange.outputs :=
  ⟨⟨h.1, Or.inr rfl⟩, rfl⟩

/-- A closed controller takes nothing more. -/
theorem onFrame_closed (h : exchange.closed = true) (frame : RidlFrame) :
    (exchange.onFrame frame).listened = exchange.listened ∧
      (exchange.onFrame frame).closed = true ∧
      (exchange.onFrame frame).outputs = exchange.outputs := by
  unfold onFrame
  split <;> simp [add, close, fail, h]

theorem onDone_closed (h : exchange.closed = true) :
    exchange.onDone.listened = exchange.listened ∧ exchange.onDone.closed = true ∧
      exchange.onDone.outputs = exchange.outputs := by
  unfold onDone
  split
  · exact ⟨rfl, h, rfl⟩
  · split <;> simp [add, close, fail, h]

theorem Ended.onInbound (h : exchange.Ended) (decoded : Except DecodeError RidlFrame) :
    (exchange.onInbound decoded).Ended ∧
      (exchange.onInbound decoded).outputs = exchange.outputs := by
  obtain ⟨hlistened, hclosed | hleft⟩ := h
  · unfold Exchange.onInbound
    split
    · exact ⟨⟨hlistened, Or.inl hclosed⟩, rfl⟩
    split
    · split
      · obtain ⟨hl, hc, ho⟩ := onFrame_closed hclosed _
        exact ⟨⟨hl.trans hlistened, Or.inl hc⟩, ho⟩
      · exact ⟨⟨hlistened, Or.inl hclosed⟩, rfl⟩
    · rw [add, if_pos hclosed]
      exact ⟨⟨hlistened, Or.inl hclosed⟩, rfl⟩
  · simp [Exchange.onInbound, hleft, Ended, hlistened]

theorem Ended.onDone (h : exchange.Ended) :
    exchange.onDone.Ended ∧ exchange.onDone.outputs = exchange.outputs := by
  obtain ⟨hlistened, hclosed | hleft⟩ := h
  · obtain ⟨hl, hc, ho⟩ := onDone_closed hclosed
    exact ⟨⟨hl.trans hlistened, Or.inl hc⟩, ho⟩
  · simp [Exchange.onDone, hleft, Ended, hlistened]

/-- What has ended puts out nothing more. -/
theorem Ended.next (h : exchange.Ended) (jsonDecode : String → Option Json) (channelDone : Bool)
    (index : ℕ) (event : Event) :
    (exchange.next jsonDecode channelDone index event).Ended ∧
      (exchange.next jsonDecode channelDone index event).outputs = exchange.outputs := by
  cases event with
  | call nextId => exact ⟨h, rfl⟩
  | listen other sends =>
    have hsame : exchange.onListen sends channelDone = exchange := by simp [onListen, h.1]
    rw [Exchange.next, hsame, ite_self]
    exact ⟨h, rfl⟩
  | frame wire =>
    rw [Exchange.next]
    split
    · exact ⟨h, rfl⟩
    · exact h.onInbound _
  | close => exact h.onDone
  | delivered other =>
    rw [Exchange.next, onDelivered]
    split
    · split
      · exact h.stop channelDone
      · exact ⟨h, rfl⟩
    · exact ⟨h, rfl⟩
  | cancel other =>
    rw [Exchange.next, onCancel]
    split
    · split
      · exact h.stop channelDone
      · exact ⟨h, rfl⟩
    · exact ⟨h, rfl⟩

/-- A stream that was listened to and has not ended. -/
structure Open (exchange : Exchange) : Prop where
  listened : exchange.listened = true
  subscribed : exchange.subscribed = true
  settled : exchange.settled = false
  closed : exchange.closed = false

theorem Open.onFrame_data (h : exchange.Open) {frame : RidlFrame} (htype : frame.type = .data) :
    exchange.onFrame frame = { exchange with outputs := exchange.outputs ++ [.value frame.body] } := by
  simp [onFrame, htype, add, h.closed]

/-- A frame that is no data frame ends the stream. -/
theorem Open.onFrame_ending (h : exchange.Open) {frame : RidlFrame} (hid : frame.id = exchange.id)
    (htype : frame.type ≠ .data) :
    (exchange.onFrame frame).Ended ∧
      (exchange.onFrame frame).outputs = exchange.outputs ++ ending frame := by
  unfold onFrame ending
  cases hframe : frame.type with
  | data => exact absurd hframe htype
  | end_ | cancel | error | call =>
    simp [add, close, fail, h.closed, Ended, h.listened, hid]

theorem Open.onDone (h : exchange.Open) :
    exchange.onDone.Ended ∧ exchange.onDone.outputs =
      exchange.outputs ++ [.error (.channelClosed exchange.id), .done] := by
  simp [Exchange.onDone, h.subscribed, h.settled, add, close, fail, h.closed, Ended, h.listened]

end Exchange

section
variable (jsonDecode : String → Option Json) {transport : RidlRpcTransport} {index : ℕ}
  {exchange : Exchange}

theorem run_grows (h : transport.exchanges[index]? = some exchange) (events : List Event) :
    ∃ last, (transport.run jsonDecode events).exchanges[index]? = some last ∧
      exchange.outputs <+: last.outputs := by
  induction events generalizing transport exchange with
  | nil => exact ⟨exchange, h, List.prefix_rfl⟩
  | cons event events ih =>
    obtain ⟨last, hlast, houtputs⟩ := ih (getElem?_next jsonDecode h event)
    exact ⟨last, hlast, (Exchange.outputs_next _ _ _ _ event).trans houtputs⟩

theorem run_ended (h : transport.exchanges[index]? = some exchange) (hended : exchange.Ended)
    (events : List Event) :
    ∃ last, (transport.run jsonDecode events).exchanges[index]? = some last ∧
      last.outputs = exchange.outputs := by
  induction events generalizing transport exchange with
  | nil => exact ⟨exchange, h, rfl⟩
  | cons event events ih =>
    obtain ⟨hnext, hsame⟩ := hended.next jsonDecode transport.closed index event
    obtain ⟨last, hlast, houtputs⟩ := ih (getElem?_next jsonDecode h event) hnext
    exact ⟨last, hlast, houtputs.trans hsame⟩

/-- The peer and the channel are what a stream may fail with. -/
theorem error_mem_yields {index : ℕ} {id : String} {events : List Event} {failure : Failure}
    (h : Output.error failure ∈ yields jsonDecode index id events) :
    (∃ id code message, failure = .rpcError id code message) ∨ ∃ id, failure = .channelClosed id := by
  induction events with
  | nil => simp [yields] at h
  | cons event events ih =>
    cases event with
    | frame wire =>
      rw [yields] at h
      cases hdecode : RidlFrame.decode jsonDecode wire with
      | error _ => exact ih (by simpa [hdecode] using h)
      | ok frame =>
        simp only [hdecode] at h
        split at h
        · split at h
          · exact ih (by simpa using h)
          · rw [ending] at h
            split at h <;> simp at h <;> exact Or.inl ⟨_, _, _, h⟩
        · exact ih h
    | close => exact Or.inr ⟨id, by simpa [yields] using h⟩
    | cancel other =>
      rw [yields] at h
      split at h
      · cases h
      · exact ih h
    | call | listen | delivered => exact ih h

/-- An open stream puts out what it is to yield, unless a malformed frame disturbs it. -/
theorem run_open (hchannel : transport.closed = false)
    (h : transport.exchanges[index]? = some exchange) (hopen : exchange.Open) (events : List Event) :
    ∃ last, (transport.run jsonDecode events).exchanges[index]? = some last ∧
      (last.outputs = exchange.outputs ++ yields jsonDecode index exchange.id events ↔
        Undisturbed jsonDecode index exchange.id events) := by
  induction events generalizing transport exchange with
  | nil => exact ⟨exchange, h, by simp [yields, Undisturbed]⟩
  | cons event events ih =>
    have hnext := getElem?_next jsonDecode h event
    have hclosed := closed_next jsonDecode transport event
    rw [hchannel, Bool.false_or] at hclosed
    -- an event that this exchange does not see
    have hskip : exchange.next jsonDecode transport.closed index event = exchange →
        event.closes = false → ∃ last,
          (transport.run jsonDecode (event :: events)).exchanges[index]? = some last ∧
            (last.outputs = exchange.outputs ++ yields jsonDecode index exchange.id events ↔
              Undisturbed jsonDecode index exchange.id events) := by
      intro hsame hcloses
      rw [hsame] at hnext
      exact ih (hclosed.trans hcloses) hnext hopen
    -- an event that ends the stream
    have hend : ∀ outputs, (exchange.next jsonDecode transport.closed index event).Ended →
        (exchange.next jsonDecode transport.closed index event).outputs =
          exchange.outputs ++ outputs →
        ∃ last, (transport.run jsonDecode (event :: events)).exchanges[index]? = some last ∧
          last.outputs = exchange.outputs ++ outputs := by
      intro outputs hended houtputs
      obtain ⟨last, hlast, hsame⟩ := run_ended jsonDecode hnext hended events
      exact ⟨last, hlast, hsame.trans houtputs⟩
    cases event with
    | call nextId => exact hskip rfl rfl
    | listen other sends =>
      have hsame : exchange.onListen sends transport.closed = exchange := by
        simp [Exchange.onListen, hopen.listened]
      exact hskip (by rw [Exchange.next, hsame, ite_self]) rfl
    | delivered other =>
      have hsame : exchange.onDelivered transport.closed = exchange := by
        simp [Exchange.onDelivered, hopen.closed]
      exact hskip (by rw [Exchange.next, hsame, ite_self]) rfl
    | cancel other =>
      rw [yields, Undisturbed]
      by_cases hother : other = index
      · have hstop : exchange.onCancel transport.closed = exchange.stop transport.closed := by
          simp [Exchange.onCancel, hopen.listened]
        obtain ⟨last, hlast, houtputs⟩ := hend [] (by
          rw [Exchange.next, if_pos hother, hstop]
          exact ⟨hopen.listened, Or.inr rfl⟩) (by
          rw [Exchange.next, if_pos hother, hstop, List.append_nil]
          rfl)
        exact ⟨last, hlast, by simp [hother, houtputs]⟩
      · obtain ⟨last, hlast, hiff⟩ := hskip (by rw [Exchange.next, if_neg hother]) rfl
        exact ⟨last, hlast, by simpa [hother] using hiff⟩
    | close =>
      obtain ⟨hended, houtputs⟩ := hopen.onDone
      obtain ⟨last, hlast, hsame⟩ := hend _ hended houtputs
      exact ⟨last, hlast, by simp [yields, Undisturbed, hsame]⟩
    | frame wire =>
      have hinbound : exchange.next jsonDecode transport.closed index (.frame wire) =
          exchange.onInbound (RidlFrame.decode jsonDecode wire) := by
        rw [Exchange.next, hchannel]
        rfl
      rw [yields, Undisturbed]
      cases hdecode : RidlFrame.decode jsonDecode wire with
      | error error =>
        have hadd : exchange.onInbound (.error error) =
            { exchange with outputs := exchange.outputs ++ [.error (.decode error)] } := by
          simp [Exchange.onInbound, hopen.subscribed, Exchange.add, hopen.closed]
        rw [hinbound, hdecode, hadd] at hnext
        obtain ⟨last, hlast, rest, hrest⟩ := run_grows jsonDecode hnext events
        refine ⟨last, hlast, iff_of_false (fun heq => ?_) not_false⟩
        -- the error that was put out is nowhere in what the stream is to yield
        rw [← hrest, List.append_assoc] at heq
        have htail : _ = yields jsonDecode index exchange.id events := List.append_cancel_left heq
        have hmem : Output.error (.decode error) ∈ yields jsonDecode index exchange.id events := by
          rw [← htail]
          exact List.mem_cons_self
        obtain ⟨_, _, _, hfailure⟩ | ⟨_, hfailure⟩ := error_mem_yields jsonDecode hmem <;> cases hfailure
      | ok frame =>
        by_cases hid : frame.id = exchange.id
        · have hframe : exchange.onInbound (.ok frame) = exchange.onFrame frame := by
            simp [Exchange.onInbound, hopen.subscribed, hid]
          by_cases htype : frame.type = .data
          · rw [hinbound, hdecode, hframe, hopen.onFrame_data htype] at hnext
            obtain ⟨last, hlast, hiff⟩ := ih hclosed hnext ⟨hopen.listened, hopen.subscribed,
              hopen.settled, hopen.closed⟩
            refine ⟨last, hlast, ?_⟩
            simpa [hid, htype] using hiff
          · obtain ⟨hended, houtputs⟩ := hopen.onFrame_ending hid htype
            rw [hinbound, hdecode, hframe] at hend
            obtain ⟨last, hlast, hsame⟩ := hend _ hended houtputs
            exact ⟨last, hlast, by simp [hid, htype, hsame]⟩
        · obtain ⟨last, hlast, hiff⟩ := hskip (by
            rw [hinbound, hdecode]
            simp [Exchange.onInbound, hid]) rfl
          exact ⟨last, hlast, by simpa [hid] using hiff⟩

/-- An exchange after an event was there before, or is one that `call` made. -/
theorem getElem?_next_cases {event : Event}
    (h : (transport.next jsonDecode event).exchanges[index]? = some exchange) :
    (∃ before, transport.exchanges[index]? = some before ∧
      exchange = before.next jsonDecode transport.closed index event) ∨
    exchange = { id := exchange.id } := by
  cases hbefore : transport.exchanges[index]? with
  | some before =>
    rw [getElem?_next jsonDecode hbefore event] at h
    exact Or.inl ⟨before, rfl, (Option.some.inj h).symm⟩
  | none =>
    cases event with
    | call nextId =>
      refine Or.inr ?_
      cases nextId <;>
      · simp only [RidlRpcTransport.next, RidlRpcTransport.call, RidlRpcTransport.allocateId,
          List.getElem?_append_right (List.getElem?_eq_none_iff.mp hbefore)] at h
        rw [List.getElem?_singleton] at h
        split at h
        · rw [← Option.some.inj h]
        · cases h
    | frame wire =>
      rw [RidlRpcTransport.next] at h
      split at h <;> simp [hbefore] at h
    | close => simp [RidlRpcTransport.next, hbefore] at h
    | listen | delivered | cancel =>
      simp [RidlRpcTransport.next, RidlRpcTransport.modifyExchange, List.getElem?_modify,
        hbefore] at h

/-- Without a listener a stream is as `call` made it. -/
def Exchange.Untouched (exchange : Exchange) : Prop :=
  exchange.listened = false → exchange = { id := exchange.id }

theorem Exchange.Untouched.next (h : exchange.Untouched) {channelDone : Bool} (event : Event) :
    (exchange.next jsonDecode channelDone index event).Untouched := by
  cases hlistened : exchange.listened with
  | true =>
    intro hnot
    rw [Exchange.listened_next hlistened] at hnot
    cases hnot
  | false =>
    obtain ⟨id, rfl⟩ : ∃ id, exchange = { id } := ⟨_, h hlistened⟩
    cases event with
    | listen other sends =>
      rw [Exchange.next]
      split
      · intro hnot
        rw [Exchange.listened_onListen] at hnot
        cases hnot
      · exact h
    | frame wire => simpa [Exchange.next, Exchange.onInbound] using h
    | call | close | delivered | cancel =>
      simpa [Exchange.next, Exchange.onDone, Exchange.onDelivered, Exchange.onCancel] using h

theorem run_untouched (events : List Event) {transport : RidlRpcTransport}
    (hstart : ∀ (index : ℕ) (e : Exchange), transport.exchanges[index]? = some e → e.Untouched) :
    ∀ (index : ℕ) (e : Exchange), (transport.run jsonDecode events).exchanges[index]? = some e →
      e.Untouched := by
  induction events generalizing transport with
  | nil => exact hstart
  | cons event events ih =>
    refine ih fun index e he => ?_
    rcases getElem?_next_cases jsonDecode he with ⟨before, hbefore, rfl⟩ | hfresh
    · exact (hstart index before hbefore).next jsonDecode event
    · exact fun _ => hfresh

/-- The stream of an exchange that is listened to yields the bodies of its data frames and ends as
its last frame or the closure of the channel says, if and only if its call was sent and no malformed
frame arrives before it has ended. -/
theorem exchange_isolated_iff {before after : List Event} {index : ℕ} {sends : Bool}
    {exchange : Exchange}
    (hexchange : (({} : RidlRpcTransport).run jsonDecode before).exchanges[index]? = some exchange)
    (hlistened : exchange.listened = false) :
    ∃ last,
      (({} : RidlRpcTransport).run jsonDecode (before ++ .listen index sends :: after)).exchanges[index]? =
        some last ∧
      (last.outputs = (if (({} : RidlRpcTransport).run jsonDecode before).closed then
          [.error (.channelClosed exchange.id), .done]
        else yields jsonDecode index exchange.id after) ↔
      sends = true ∧ ((({} : RidlRpcTransport).run jsonDecode before).closed = true ∨
        Undisturbed jsonDecode index exchange.id after)) := by
  have hstart : ∀ (index : ℕ) (e : Exchange),
      ({} : RidlRpcTransport).exchanges[index]? = some e → e.Untouched := by simp
  have huntouched := run_untouched jsonDecode before hstart
  obtain ⟨id, rfl⟩ : ∃ id, exchange = { id } := ⟨_, huntouched index exchange hexchange hlistened⟩
  have hrun : ({} : RidlRpcTransport).run jsonDecode (before ++ .listen index sends :: after) =
      ((({} : RidlRpcTransport).run jsonDecode before).next jsonDecode (.listen index sends)).run
        jsonDecode after := by
    simp [RidlRpcTransport.run]
  rw [hrun]
  generalize ({} : RidlRpcTransport).run jsonDecode before = transport at hexchange
  have hnext := getElem?_next jsonDecode hexchange (.listen index sends)
  have hclosed := (closed_next jsonDecode transport (.listen index sends)).trans (Bool.or_false _)
  rw [Exchange.next, if_pos rfl] at hnext
  cases hchannel : transport.closed with
  | true =>
    have hended : (({ id } : Exchange).onListen sends true).Ended := by
      cases sends <;> simp [Exchange.onListen, Exchange.onDone, Exchange.fail, Exchange.add,
        Exchange.close, Exchange.Ended]
    rw [hchannel] at hnext
    obtain ⟨last, hlast, houtputs⟩ := run_ended jsonDecode hnext hended after
    refine ⟨last, hlast, ?_⟩
    rw [houtputs]
    cases sends <;> simp [Exchange.onListen, Exchange.onDone, Exchange.fail, Exchange.add,
      Exchange.close]
  | false =>
    rw [hchannel] at hnext hclosed
    cases sends with
    | true =>
      obtain ⟨last, hlast, hiff⟩ := run_open jsonDecode hclosed hnext ⟨rfl, rfl, rfl, rfl⟩ after
      exact ⟨last, hlast, by simpa [Exchange.onListen] using hiff⟩
    | false =>
      have hended : (({ id } : Exchange).onListen false false).Ended := by
        simp [Exchange.onListen, Exchange.fail, Exchange.add, Exchange.close, Exchange.Ended]
      obtain ⟨last, hlast, houtputs⟩ := run_ended jsonDecode hnext hended after
      refine ⟨last, hlast, iff_of_false (fun heq => ?_) (by simp)⟩
      have hmem : Output.error .send ∈ yields jsonDecode index id after := by
        have hsame : last.outputs = yields jsonDecode index id after := heq
        rw [← hsame, houtputs]
        simp [Exchange.onListen, Exchange.fail, Exchange.add, Exchange.close]
      obtain ⟨_, _, _, hfailure⟩ | ⟨_, hfailure⟩ := error_mem_yields jsonDecode hmem <;> cases hfailure

end

/-- Two frames, by names of theirs. -/
@[irreducible] def dataWire : String := "\x7b\"v\":1,\"id\":\"1\",\"t\":\"data\",\"body\":true\x7d"

@[irreducible] def endWire : String := "\x7b\"v\":1,\"id\":\"1\",\"t\":\"end\"\x7d"

theorem decode_dataWire : RidlFrame.decode Json.read dataWire =
    .ok { id := "1", type := .data, body := .bool true, hasBody := true } := by
  have hread : Json.read dataWire = some (.object [("v", .number (.int 1)), ("id", .string "1"),
      ("t", .string "data"), ("body", .bool true)]) := by decide +kernel
  rw [RidlFrame.decode, hread]
  rfl

theorem decode_endWire :
    RidlFrame.decode Json.read endWire = .ok { id := "1", type := .end_ } := by
  have hread : Json.read endWire = some (.object [("v", .number (.int 1)), ("id", .string "1"),
      ("t", .string "end")]) := by decide +kernel
  rw [RidlFrame.decode, hread]
  rfl

/-- A value and the end, and then anything. -/
theorem answered {jsonDecode : String → Option Json} {first last : String}
    (hfirst : RidlFrame.decode jsonDecode first =
      .ok { id := "1", type := .data, body := .bool true, hasBody := true })
    (hlast : RidlFrame.decode jsonDecode last = .ok { id := "1", type := .end_ })
    (rest : String) :
    Undisturbed jsonDecode 0 "1" [.frame first, .listen 1 true, .frame last, .frame rest] ∧
      yields jsonDecode 0 "1" [.frame first, .listen 1 true, .frame last, .frame rest] =
        [.value (.bool true), .done] := by
  simp [Undisturbed, yields, hfirst, hlast, ending]

/-- Two exchanges listen; the second ends no frame of the first, and what comes after its end is
malformed. -/
theorem exchange_isolated_undisturbed :
    ∃ last, (({} : RidlRpcTransport).run Json.read
        ([.call none, .call none] ++ .listen 0 true :: [.frame dataWire, .listen 1 true,
          .frame endWire, .frame "?"])).exchanges[0]? = some last ∧
      last.outputs = [.value (.bool true), .done] := by
  have hcall : (({} : RidlRpcTransport).run Json.read [.call none, .call none]).exchanges[0]? =
      some { id := "1" } := rfl
  obtain ⟨last, hlast, hiff⟩ := @exchange_isolated_iff Json.read [.call none, .call none]
    [.frame dataWire, .listen 1 true, .frame endWire, .frame "?"] 0 true _ hcall rfl
  obtain ⟨hundisturbed, hyields⟩ := answered decode_dataWire decode_endWire "?"
  have houtputs := hiff.mpr ⟨rfl, .inr hundisturbed⟩
  rw [if_neg (by decide)] at houtputs
  exact ⟨last, hlast, houtputs.trans hyields⟩

/-- The text of one malformed frame reaches an open exchange as an error of its stream. -/
theorem malformed_frame_disturbs :
    (({} : RidlRpcTransport).run Json.read
      [.call none, .listen 0 true, .frame "?", .frame endWire]).exchanges[0]?.map (·.outputs) =
        some [.error (.decode .json), .done] ∧
    yields Json.read 0 "1" [.frame "?", .frame endWire] = [.done] := by
  constructor <;> decide +kernel

end OptoSync.Ridl
