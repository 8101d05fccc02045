import OptoSync.WebSocketTransport

/-!
# Correlation over reconnects

Every request of the WebSocket transport settles once, with a frame of its own connection or a
failure. A request of a dead connection is failed with it as long as the connection is not replaced
before its closure is observed.
-/
namespace OptoSync.Transport.Dart
open Transition Json

/-- The frame came over the connection that the call was sent on, and carries its id. -/
structure Answered (host : Host) (sent : List SentRequest) (settlement : Settlement)
    (type : RequestKind → String) (read : Frame → Prop) : Prop where
  answered : ∃ connection frame request, settlement.origin = some (connection, frame) ∧
    request ∈ sent ∧ request.call = settlement.call ∧ request.socket = connection.socket ∧
    host.isVersionOne frame = true ∧ frameRequestId frame = some request.requestId ∧
    frameType frame = some (type request.kind) ∧ read frame

def Rightful (host : Host) (sent : List SentRequest) (settlement : Settlement) : Prop :=
  match settlement.outcome with
  | .value body => Answered host sent settlement RequestKind.resultType (body = bodyOf ·)
  | .errorFrame error => Answered host sent settlement (fun _ => "error") (error = errorOfFrame ·)
  | _ => True

/-- Every request that waits for a frame is of the current generation. -/
def Current (transport : WebSocketTransport) : Prop :=
  ∀ request ∈ transport.pending, request.generation = transport.socketGeneration

structure Correlated (host : Host) (transport : WebSocketTransport) : Prop where
  once : (transport.settled.map Settlement.call).Nodup
  rightful : ∀ settlement ∈ transport.settled, Rightful host transport.sent settlement
  current : Current transport
  /-- No request outlives the observed closure of its connection. -/
  closed : ∀ request ∈ transport.pending, request.generation ∉ transport.observed

/-- A request that starts a dial finds no request waiting. -/
def ReplacesIdle (transport : WebSocketTransport) : Action → Prop
  | .request _ false => transport.disposed = false →
      transport.connection.filter transport.isActive = none → transport.connecting = none →
        transport.pending = []
  | _ => True

section
variable {host : Host} {transport : WebSocketTransport} {connection : Connection}

/-- The outcome that the frame brings to the request. -/
inductive Reads (frame : Frame) (request : PendingRequest) : Outcome → Prop
  | error : frameType frame = some "error" → Reads frame request (.errorFrame (errorOfFrame frame))
  | value : frameType frame = some request.kind.resultType →
      Reads frame request (.value (bodyOf frame))

inductive FrameEffect (host : Host) (transport : WebSocketTransport) (connection : Connection) :
    WebSocketTransport → Prop
  | nothing (hints : List ℤ) : FrameEffect host transport connection { transport with hints }
  | failed (error : SyncTransportException) :
      FrameEffect host transport connection (transport.failConnection connection error)
  | completed {frame : Frame} {request : PendingRequest} {outcome : Outcome} :
      request ∈ transport.pending → transport.owns connection = true →
        request.generation = connection.generation → host.isVersionOne frame = true →
          frameRequestId frame = some request.requestId → Reads frame request outcome →
            FrameEffect host transport connection
              (transport.complete request outcome connection frame)

theorem onChanged_effect (watermark : Option Json) :
    FrameEffect host transport connection (transport.onChanged watermark) := by
  unfold WebSocketTransport.onChanged
  split
  · split
    · exact .nothing _
    · exact .nothing transport.hints
  · exact .nothing transport.hints

theorem onAnswer_effect {frame : Frame} {request : PendingRequest}
    (hmem : request ∈ transport.pending) (howns : transport.owns connection = true)
    (hgeneration : request.generation = connection.generation)
    (hversion : host.isVersionOne frame = true)
    (hid : frameRequestId frame = some request.requestId) :
    FrameEffect host transport connection (transport.onAnswer connection frame request) := by
  rw [WebSocketTransport.onAnswer]
  split
  · next type htype =>
    have hframe : frameType frame = some type := by
      rw [frameType, htype]
      rfl
    split
    · next herror =>
      exact .completed hmem howns hgeneration hversion hid (.error (herror ▸ hframe))
    · split
      · next hresult =>
        exact .completed hmem howns hgeneration hversion hid (.value (hresult ▸ hframe))
      · split
        · exact .failed _
        · exact .nothing transport.hints
  · exact .nothing transport.hints

theorem onObject_effect (howns : transport.owns connection = true) (frame : Frame) :
    FrameEffect host transport connection (transport.onObject host connection frame) := by
  rw [WebSocketTransport.onObject]
  split
  · exact .nothing transport.hints
  · next hversion =>
    split
    · exact onChanged_effect _
    · split
      · exact .nothing transport.hints
      · next requestId hid =>
        split
        · exact .nothing transport.hints
        · next request hfind =>
          split
          · exact .nothing transport.hints
          · next hopen =>
            simp only [Bool.or_eq_true, decide_eq_true_eq, not_or, not_not] at hopen
            have hrequestId : request.requestId = requestId := by simpa using List.find?_some hfind
            refine onAnswer_effect (List.mem_of_find?_eq_some hfind) howns hopen.1 ?_ ?_
            · simpa using hversion
            · rw [hid, hrequestId]

theorem onFrame_effect (data : FrameData) :
    FrameEffect host transport connection (transport.onFrame host connection data) := by
  unfold WebSocketTransport.onFrame
  split
  · exact .nothing transport.hints
  · next howns =>
    rw [Bool.not_eq_true', Bool.not_eq_false] at howns
    cases data with
    | binary => exact .failed _
    | text text =>
      simp only
      split
      · exact .failed _
      · split
        · exact onObject_effect howns _
        · exact .nothing transport.hints

end

/-! ## Connections and their generations -/

structure Links (transport : WebSocketTransport) : Prop where
  bounded : ∀ link ∈ transport.links, link.generation ≤ transport.socketGeneration
  unique : ∀ a ∈ transport.links, ∀ b ∈ transport.links, a.generation = b.generation → a = b
  installed : ∀ link, transport.connection = some link → link ∈ transport.links
  live : ∀ link ∈ transport.links, link.generation = transport.socketGeneration →
    transport.connection = some link ∧ transport.disposed = false
  dialing : ∀ dial, transport.connecting = some dial →
    dial.generation ≤ transport.socketGeneration ∧ ((∃ result, dial.phase = .finished result) ∨
      ∀ link ∈ transport.links, link.generation < dial.generation)
  observed : ∀ generation ∈ transport.observed, generation < transport.socketGeneration

namespace Links
variable {host : Host} {transport later : WebSocketTransport}

theorem start : Links .start where
  bounded _ h := absurd h List.not_mem_nil
  unique _ h := absurd h List.not_mem_nil
  installed _ h := by cases h
  live _ h := absurd h List.not_mem_nil
  dialing _ h := by cases h
  observed _ h := absurd h List.not_mem_nil

/-- A connection is given up only with its generation. -/
theorem keep (h : Links transport) (hlinks : later.links = transport.links)
    (hconnecting : later.connecting = transport.connecting)
    (hobserved : later.observed = transport.observed)
    (hconnection : later.connection = none ∨ later.connection = transport.connection)
    (hgeneration : transport.socketGeneration < later.socketGeneration ∨
      later.socketGeneration = transport.socketGeneration ∧
        later.connection = transport.connection ∧ later.disposed = transport.disposed) :
    Links later := by
  have hle : transport.socketGeneration ≤ later.socketGeneration := by omega
  refine ⟨?_, ?_, ?_, ?_, ?_, ?_⟩
  · intro link hlink
    rw [hlinks] at hlink
    exact (h.bounded link hlink).trans hle
  · rw [hlinks]
    exact h.unique
  · intro link hlink
    rw [hlinks]
    rcases hconnection with hnone | hsame
    · rw [hnone] at hlink
      cases hlink
    · exact h.installed link (hsame ▸ hlink)
  · intro link hlink hcurrent
    rw [hlinks] at hlink
    rcases hgeneration with hlt | ⟨hsame, hconnection, hdisposed⟩
    · have hbounded := h.bounded link hlink
      omega
    · rw [hconnection, hdisposed]
      exact h.live link hlink (hcurrent.trans hsame)
  · intro dial hdial
    obtain ⟨hbounded, hphase⟩ := h.dialing dial (hconnecting ▸ hdial)
    rw [hlinks]
    exact ⟨hbounded.trans hle, hphase⟩
  · intro generation hmem
    rw [hobserved] at hmem
    exact (h.observed generation hmem).trans_le hle

theorem owns_iff {connection : Connection} : transport.owns connection = true ↔
    transport.disposed = false ∧ connection.generation = transport.socketGeneration ∧
      transport.connection = some connection := by
  simp [WebSocketTransport.owns, and_assoc]

/-- The connection that is owned takes its generation along. -/
theorem release {connection : Connection} (h : transport.owns connection = true) :
    ({ transport with connection := none }).invalidateGeneration connection.generation =
      { transport with connection := none, socketGeneration := transport.socketGeneration + 1 } :=
  if_pos (owns_iff.mp h).2.1.symm

theorem invalidateGeneration (h : Links transport) (generation : ℕ) :
    Links (transport.invalidateGeneration generation) := by
  rw [WebSocketTransport.invalidateGeneration]
  split
  · exact h.keep rfl rfl rfl (.inr rfl) (.inl (Nat.lt_succ_self _))
  · exact h

theorem onClosed (h : Links transport) (connection : Connection) :
    Links (transport.onClosed connection) := by
  rw [WebSocketTransport.onClosed]
  split
  · next howns =>
    rw [release howns]
    exact h.keep rfl rfl rfl (.inl rfl) (.inl (Nat.lt_succ_self _))
  · exact h

theorem failConnection (h : Links transport) (connection : Connection)
    (error : SyncTransportException) : Links (transport.failConnection connection error) := by
  rw [WebSocketTransport.failConnection]
  split
  · next howns =>
    rw [release howns]
    exact h.keep rfl rfl rfl (.inl rfl) (.inl (Nat.lt_succ_self _))
  · exact h

/-- Nothing but the table, the calls and the outcomes changes. -/
theorem same (h : Links transport) (hlinks : later.links = transport.links)
    (hconnecting : later.connecting = transport.connecting)
    (hobserved : later.observed = transport.observed)
    (hconnection : later.connection = transport.connection)
    (hgeneration : later.socketGeneration = transport.socketGeneration)
    (hdisposed : later.disposed = transport.disposed) : Links later :=
  h.keep hlinks hconnecting hobserved (.inr hconnection) (.inr ⟨hgeneration, hconnection, hdisposed⟩)

theorem settle (h : Links transport) (call : ℕ) (outcome : Outcome)
    (origin : Option (Connection × Frame)) : Links (transport.settle call outcome origin) :=
  h.same rfl rfl rfl rfl rfl rfl

theorem startDial (h : Links transport) : Links transport.startDial := by
  have hbump : Links { transport with socketGeneration := transport.socketGeneration + 1 } :=
    h.keep rfl rfl rfl (.inr rfl) (.inl (Nat.lt_succ_self _))
  refine ⟨hbump.bounded, hbump.unique, hbump.installed, hbump.live, ?_, hbump.observed⟩
  intro dial hdial
  cases hdial
  exact ⟨le_rfl, .inr fun link hlink => Nat.lt_succ_of_le (h.bounded link hlink)⟩

theorem request (h : Links transport) (kind : RequestKind) (cancelled : Bool) :
    Links (transport.request kind cancelled) := by
  have hcall : Links { transport with calls := transport.calls + 1 } := h.same rfl rfl rfl rfl rfl rfl
  simp only [WebSocketTransport.request]
  split
  · exact hcall.same rfl rfl rfl rfl rfl rfl
  · split
    · exact hcall.same rfl rfl rfl rfl rfl rfl
    · simp only [WebSocketTransport.ensureConnection]
      split
      · exact hcall.same rfl rfl rfl rfl rfl rfl
      · split
        · exact hcall.same rfl rfl rfl rfl rfl rfl
        · exact hcall.startDial.same rfl rfl rfl rfl rfl rfl

theorem finish (h : Links transport) {generation : ℕ} {phase : Phase}
    (hdial : transport.connecting = some ⟨generation, phase⟩)
    (result : Except SyncTransportException Connection) : Links (transport.finish generation result) := by
  refine ⟨h.bounded, h.unique, h.installed, h.live, ?_, h.observed⟩
  intro finished hfinished
  cases hfinished
  exact ⟨(h.dialing _ hdial).1, .inl ⟨result, rfl⟩⟩

theorem fail (h : Links transport) {generation : ℕ} {phase : Phase}
    (hdial : transport.connecting = some ⟨generation, phase⟩)
    (result : Except SyncTransportException Connection) :
    Links ((transport.invalidateGeneration generation).finish generation result) := by
  have hconnecting : (transport.invalidateGeneration generation).connecting =
      some ⟨generation, phase⟩ := by
    rw [WebSocketTransport.invalidateGeneration]
    split <;> exact hdial
  exact (h.invalidateGeneration generation).finish hconnecting result

/-- The links are older than a dial that goes on. -/
theorem older (h : Links transport) {generation : ℕ} {phase : Phase}
    (hdial : transport.connecting = some ⟨generation, phase⟩)
    (hphase : ∀ result, phase ≠ .finished result) :
    ∀ link ∈ transport.links, link.generation < generation := by
  refine (h.dialing _ hdial).2.resolve_left ?_
  intro hfinished
  obtain ⟨result, hfinished⟩ := hfinished
  exact hphase result hfinished

theorem onToken (h : Links transport) (result : TokenResult) : Links (transport.onToken result) := by
  rw [WebSocketTransport.onToken]
  split
  · next generation hdial =>
    cases result with
    | failed => exact h.fail hdial _
    | invalid error =>
      simp only
      split <;> exact h.finish hdial _
    | valid =>
      simp only
      split
      · exact h.finish hdial _
      · refine ⟨h.bounded, h.unique, h.installed, h.live, ?_, h.observed⟩
        intro dial hnew
        cases hnew
        exact ⟨(h.dialing _ hdial).1, .inr (h.older hdial fun _ => Phase.noConfusion)⟩
  · exact h

/-- The links are of older generations than the dial, so that its connection is the live one. -/
theorem install (h : Links transport) {generation : ℕ}
    (hdial : transport.connecting = some ⟨generation, .socket⟩)
    (hcurrent : transport.superseded generation = false) (socket : ℕ) :
    Links (({ transport with
      connection := some ⟨socket, generation⟩
      opened := transport.opened ++ [socket]
      links := transport.links ++ [(⟨socket, generation⟩ : Connection)] }).finish generation
        (.ok ⟨socket, generation⟩)) := by
  have holder := h.older hdial fun _ => Phase.noConfusion
  simp only [WebSocketTransport.superseded, Bool.or_eq_false_iff, decide_eq_false_iff_not,
    not_not] at hcurrent
  obtain ⟨hdisposed, hgeneration⟩ := hcurrent
  have hcases : ∀ link ∈ transport.links ++ [(⟨socket, generation⟩ : Connection)],
      link.generation < generation ∧ link ∈ transport.links ∨ link = ⟨socket, generation⟩ := by
    intro link hlink
    rcases List.mem_append.mp hlink with hold | hnew
    · exact .inl ⟨holder link hold, hold⟩
    · exact .inr (List.mem_singleton.mp hnew)
  refine ⟨?_, ?_, ?_, ?_, ?_, h.observed⟩
  · intro link hlink
    rcases hcases link hlink with ⟨-, hold⟩ | rfl
    · exact h.bounded link hold
    · exact hgeneration.le
  · intro a ha b hb hab
    rcases hcases a ha with ⟨haold, ha⟩ | rfl <;> rcases hcases b hb with ⟨hbold, hb⟩ | rfl
    · exact h.unique a ha b hb hab
    · exact absurd hab haold.ne
    · exact absurd hab hbold.ne'
    · rfl
  · intro link hlink
    cases hlink
    exact List.mem_append_right _ (List.mem_singleton_self _)
  · intro link hlink hlive
    rcases hcases link hlink with ⟨hold, -⟩ | rfl
    · have hnow : link.generation = transport.socketGeneration := hlive
      omega
    · exact ⟨rfl, hdisposed⟩
  · intro dial hnew
    cases hnew
    exact ⟨hgeneration.le, .inl ⟨_, rfl⟩⟩

theorem onDialed (h : Links transport) (result : DialResult) :
    Links (transport.onDialed result) := by
  rw [WebSocketTransport.onDialed]
  split
  · next generation hdial =>
    cases result with
    | timedOut => exact h.fail hdial _
    | failed => exact h.fail hdial _
    | disposed =>
      simp only
      split
      · exact h.fail hdial _
      · exact h
    | opened =>
      have hsocket : Links { transport with sockets := transport.sockets + 1 } :=
        h.same rfl rfl rfl rfl rfl rfl
      simp only
      split
      · exact hsocket.finish hdial _
      · next hcurrent =>
        exact hsocket.install hdial (Bool.eq_false_iff.mpr hcurrent) _
  · exact h

theorem onResolve (h : Links transport) : Links transport.onResolve := by
  rw [WebSocketTransport.onResolve]
  split
  · refine ⟨h.bounded, h.unique, h.installed, h.live, ?_, h.observed⟩
    intro dial hdial
    cases hdial
  · exact h

theorem onResume (h : Links transport) (call : ℕ) (cancelled taken : Bool) :
    Links (transport.onResume host call cancelled taken) := by
  rw [WebSocketTransport.onResume]
  split
  · next result _ =>
    cases result with
    | error error =>
      simp only
      split <;> exact h.same rfl rfl rfl rfl rfl rfl
    | ok connection =>
      simp only
      split
      · exact h.same rfl rfl rfl rfl rfl rfl
      · split
        · simp only [WebSocketTransport.send]
          split
          · exact h.same rfl rfl rfl rfl rfl rfl
          · apply settle
            apply failConnection
            exact h.same rfl rfl rfl rfl rfl rfl
        · exact h.same rfl rfl rfl rfl rfl rfl
  · exact h

theorem onTimeout (h : Links transport) (call : ℕ) : Links (transport.onTimeout call) := by
  rw [WebSocketTransport.onTimeout]
  split
  · exact h
  · exact h.same rfl rfl rfl rfl rfl rfl

theorem dispose (h : Links transport) : Links transport.dispose := by
  rw [WebSocketTransport.dispose]
  split
  · exact h
  · simp only
    split
    · exact h.keep rfl rfl rfl (.inr rfl) (.inl (Nat.lt_succ_self _))
    · exact h.keep rfl rfl rfl (.inl rfl) (.inl (Nat.lt_succ_self _))

theorem onFrame (h : Links transport) (connection : Connection) (data : FrameData) :
    Links (transport.onFrame host connection data) := by
  have heffect := @onFrame_effect host transport connection data
  generalize transport.onFrame host connection data = later at heffect ⊢
  cases heffect with
  | nothing hints => exact h.same rfl rfl rfl rfl rfl rfl
  | failed error => exact h.failConnection _ _
  | completed => exact h.same rfl rfl rfl rfl rfl rfl

/-- A closure is observed of a generation that is over. -/
theorem observe (h : Links transport) {connection : Connection}
    (hover : connection.generation < transport.socketGeneration) :
    Links (transport.observe connection) := by
  refine ⟨h.bounded, h.unique, h.installed, h.live, h.dialing, ?_⟩
  intro generation hmem
  rcases List.mem_append.mp hmem with hold | hnew
  · exact h.observed generation hold
  · rw [List.mem_singleton.mp hnew]
    exact hover

theorem closing {connection : Connection} (h : Links transport) (hlink : connection ∈ transport.links)
    (hlater : transport.owns connection = true →
      later.socketGeneration = transport.socketGeneration + 1)
    (hsame : transport.owns connection = false → later = transport) :
    connection.generation < later.socketGeneration := by
  have hbounded := h.bounded connection hlink
  cases howns : transport.owns connection with
  | true =>
    rw [hlater howns]
    omega
  | false =>
    rw [hsame howns]
    refine lt_of_le_of_ne hbounded fun hcurrent => ?_
    obtain ⟨hconnection, hdisposed⟩ := h.live connection hlink hcurrent
    have hcontra := owns_iff.mpr ⟨hdisposed, hcurrent, hconnection⟩
    rw [howns] at hcontra
    cases hcontra

theorem next (h : Links transport) (action : Action) : Links (transport.next host action) := by
  cases action with
  | request kind cancelled => exact h.request kind cancelled
  | token result => exact h.onToken result
  | dialed result => exact h.onDialed result
  | resolve => exact h.onResolve
  | resume call cancelled taken => exact h.onResume call cancelled taken
  | frame connection data =>
    simp only [WebSocketTransport.next]
    split
    · exact h.onFrame connection data
    · exact h
  | done connection =>
    simp only [WebSocketTransport.next]
    split
    · next hlink =>
      refine (h.onClosed connection).observe (h.closing hlink (fun howns => ?_) fun howns => ?_)
      · rw [WebSocketTransport.onClosed, if_pos howns, release howns]
        rfl
      · rw [WebSocketTransport.onClosed, howns]
        rfl
    · exact h
  | error connection =>
    simp only [WebSocketTransport.next]
    split
    · next hlink =>
      refine (h.failConnection connection _).observe (h.closing hlink (fun howns => ?_) fun howns => ?_)
      · rw [WebSocketTransport.failConnection, if_pos howns, release howns]
        rfl
      · rw [WebSocketTransport.failConnection, howns]
        rfl
    · exact h
  | shut socket => exact h.same rfl rfl rfl rfl rfl rfl
  | timeout call => exact h.onTimeout call
  | dispose => exact h.dispose

end Links
/-! ## Calls and their outcomes -/

/-- Some that do not pass a filter, and all that do. -/
theorem leave {α : Type} {l chosen : List α} {keep : α → Bool} (f : α → ℕ)
    (hsub : chosen.Sublist l) (hchosen : ∀ a ∈ chosen, keep a = false) :
    ((chosen.map f : List ℕ) : Multiset ℕ) + ((l.filter keep).map f : List ℕ) ≤ (l.map f : List ℕ) := by
  have hout : chosen.Sublist (l.filter (!keep ·)) := by
    have hall : chosen.filter (!keep ·) = chosen :=
      List.filter_eq_self.mpr fun a ha => by rw [hchosen a ha]; rfl
    rw [← hall]
    exact hsub.filter _
  rw [add_comm]
  calc ((l.filter keep).map f : Multiset ℕ) + (chosen.map f : List ℕ)
      ≤ ((l.filter keep).map f : List ℕ) + ((l.filter (!keep ·)).map f : List ℕ) := by
        gcongr
        exact Multiset.coe_le.mpr (hout.map f).subperm
    _ = (l.map f : List ℕ) := by
        rw [Multiset.coe_add, ← List.map_append]
        exact Multiset.coe_eq_coe.mpr ((List.filter_append_perm keep l).map f)

namespace WebSocketTransport

/-- The calls that have an outcome, await a connection or wait for a frame. -/
def ids (transport : WebSocketTransport) : Multiset ℕ :=
  (transport.settled.map Settlement.call : List ℕ) +
    ((transport.awaiting.map AwaitingCall.call : List ℕ) +
      (transport.pending.map PendingRequest.completer : List ℕ))

variable {transport : WebSocketTransport}

theorem ids_settle (call : ℕ) (outcome : Outcome) (origin : Option (Connection × Frame)) :
    (transport.settle call outcome origin).ids = {call} + transport.ids := by
  simp only [ids, settle, List.map_append, List.map_cons, List.map_nil, ← Multiset.coe_add,
    Multiset.coe_singleton]
  abel

theorem ids_failPending (error : SyncTransportException) (generation : Option ℕ) :
    (transport.failPending error generation).ids ≤ transport.ids := by
  have hleave := @leave _ transport.pending ((transport.pending.filter fun request =>
      generation.all (request.generation = ·)).filter fun request =>
        !transport.isCompleted request.completer)
    (fun request => !generation.all (request.generation = ·)) PendingRequest.completer
    (List.filter_sublist.trans List.filter_sublist) (by
      intro request hmem
      rw [(List.mem_filter.mp (List.mem_filter.mp hmem).1).2]
      rfl)
  simp only [ids, failPending, List.map_append, List.map_map, ← Multiset.coe_add]
  rw [add_assoc]
  gcongr _ + ?_
  rw [add_left_comm]
  gcongr _ + ?_
  exact hleave

end WebSocketTransport

/-- The request was sent over the link of its generation. -/
def SentOver (transport : WebSocketTransport) (request : PendingRequest) : Prop :=
  ∃ link ∈ transport.links, link.generation = request.generation ∧
    ⟨link.socket, request.completer, request.requestId, request.kind⟩ ∈ transport.sent

/-- A call has one place. Those that are held have none at the moment. -/
structure Calls (host : Host) (held : Multiset ℕ) (transport : WebSocketTransport) : Prop where
  distinct : (held + transport.ids).Nodup
  counted : ∀ call ∈ held + transport.ids, call < transport.calls
  rightful : ∀ settlement ∈ transport.settled, Rightful host transport.sent settlement
  sent : ∀ request ∈ transport.pending, SentOver transport request

theorem Answered.mono {host : Host} {sent later : List SentRequest} (hsub : sent ⊆ later)
    {settlement : Settlement} {type : RequestKind → String} {read : Frame → Prop}
    (h : Answered host sent settlement type read) : Answered host later settlement type read := by
  obtain ⟨connection, frame, request, horigin, hmem, hrest⟩ := h
  exact ⟨connection, frame, request, horigin, hsub hmem, hrest⟩

theorem Rightful.mono {host : Host} {sent later : List SentRequest} (hsub : sent ⊆ later)
    {settlement : Settlement} (h : Rightful host sent settlement) :
    Rightful host later settlement := by
  obtain ⟨call, outcome, origin⟩ := settlement
  cases outcome with
  | value body => exact Answered.mono hsub h
  | errorFrame error => exact Answered.mono hsub h
  | failure | cancelled | delegated => trivial

namespace Calls
variable {host : Host} {held free : Multiset ℕ} {transport later : WebSocketTransport} {call : ℕ}

theorem start : Calls host 0 .start where
  distinct := Multiset.nodup_zero
  counted _ h := absurd h (Multiset.notMem_zero _)
  rightful _ h := absurd h List.not_mem_nil
  sent _ h := absurd h List.not_mem_nil

theorem step (h : Calls host held transport) (hids : free + later.ids ≤ held + transport.ids)
    (hcalls : later.calls = transport.calls) (hsent : transport.sent ⊆ later.sent)
    (hlinks : transport.links ⊆ later.links)
    (hsettled : ∀ settlement ∈ later.settled, settlement ∈ transport.settled ∨
      Rightful host later.sent settlement)
    (hpending : ∀ request ∈ later.pending, request ∈ transport.pending ∨ SentOver later request) :
    Calls host free later where
  distinct := Multiset.nodup_of_le hids h.distinct
  counted call hmem := by
    rw [hcalls]
    exact h.counted call (Multiset.mem_of_le hids hmem)
  rightful settlement hmem :=
    (hsettled settlement hmem).elim (fun hold => (h.rightful settlement hold).mono hsent) id
  sent request hmem := by
    rcases hpending request hmem with hold | hnew
    · obtain ⟨link, hlink, hgeneration, hmessage⟩ := h.sent request hold
      exact ⟨link, hlinks hlink, hgeneration, hsent hmessage⟩
    · exact hnew

/-- Calls, outcomes and requests stay as they are. -/
theorem same (h : Calls host held transport) (hsettled : later.settled = transport.settled)
    (hawaiting : later.awaiting.map AwaitingCall.call = transport.awaiting.map AwaitingCall.call)
    (hpending : later.pending = transport.pending) (hcalls : later.calls = transport.calls)
    (hsent : later.sent = transport.sent) (hlinks : transport.links ⊆ later.links) :
    Calls host held later := by
  refine h.step ?_ hcalls (hsent ▸ List.Subset.refl _) hlinks ?_ ?_
  · rw [WebSocketTransport.ids, hsettled, hawaiting, hpending]
    rfl
  · intro _ hmem
    exact .inl (hsettled ▸ hmem)
  · intro _ hmem
    exact .inl (hpending ▸ hmem)

theorem invalidateGeneration (h : Calls host held transport) (generation : ℕ) :
    Calls host held (transport.invalidateGeneration generation) := by
  rw [WebSocketTransport.invalidateGeneration]
  split
  · exact h.same rfl rfl rfl rfl rfl (List.Subset.refl _)
  · exact h

theorem failPending (h : Calls host held transport) (error : SyncTransportException)
    (generation : Option ℕ) : Calls host held (transport.failPending error generation) := by
  refine h.step ?_ rfl (List.Subset.refl _) (List.Subset.refl _) ?_ ?_
  · gcongr
    exact WebSocketTransport.ids_failPending error generation
  · intro settlement hmem
    rcases List.mem_append.mp hmem with hold | hnew
    · exact .inl hold
    · obtain ⟨request, -, rfl⟩ := List.mem_map.mp hnew
      exact .inr trivial
  · intro _ hmem
    exact .inl (List.mem_filter.mp hmem).1

theorem onClosed (h : Calls host held transport) (connection : Connection) :
    Calls host held (transport.onClosed connection) := by
  rw [WebSocketTransport.onClosed]
  split
  · apply failPending
    apply invalidateGeneration
    exact h.same rfl rfl rfl rfl rfl (List.Subset.refl _)
  · exact h

theorem closeSocket (h : Calls host held transport) (socket : ℕ) :
    Calls host held (transport.closeSocket socket) :=
  h.same rfl rfl rfl rfl rfl (List.Subset.refl _)

theorem failConnection (h : Calls host held transport) (connection : Connection)
    (error : SyncTransportException) :
    Calls host held (transport.failConnection connection error) := by
  rw [WebSocketTransport.failConnection]
  split
  · apply closeSocket
    apply failPending
    apply invalidateGeneration
    exact h.same rfl rfl rfl rfl rfl (List.Subset.refl _)
  · exact h

theorem dispose (h : Calls host held transport) : Calls host held transport.dispose := by
  rw [WebSocketTransport.dispose]
  split
  · exact h
  · have hfailed : Calls host held (({ transport with
        disposed := true, socketGeneration := transport.socketGeneration + 1 }).failPending
          disposedError none) := by
      apply failPending
      exact h.same rfl rfl rfl rfl rfl (List.Subset.refl _)
    simp only
    split
    · exact hfailed
    · exact hfailed.same rfl rfl rfl rfl rfl (List.Subset.refl _)

theorem finish (h : Calls host held transport) (generation : ℕ)
    (result : Except SyncTransportException Connection) :
    Calls host held (transport.finish generation result) :=
  h.same rfl rfl rfl rfl rfl (List.Subset.refl _)

theorem onToken (h : Calls host held transport) (result : TokenResult) :
    Calls host held (transport.onToken result) := by
  rw [WebSocketTransport.onToken]
  split
  · cases result with
    | failed => exact (h.invalidateGeneration _).finish _ _
    | invalid error =>
      simp only
      split <;> exact h.finish _ _
    | valid =>
      simp only
      split
      · exact h.finish _ _
      · exact h.same rfl rfl rfl rfl rfl (List.Subset.refl _)
  · exact h

theorem onDialed (h : Calls host held transport) (result : DialResult) :
    Calls host held (transport.onDialed result) := by
  rw [WebSocketTransport.onDialed]
  split
  · cases result with
    | timedOut => exact (h.invalidateGeneration _).finish _ _
    | failed => exact (h.invalidateGeneration _).finish _ _
    | disposed =>
      simp only
      split
      · exact (h.invalidateGeneration _).finish _ _
      · exact h
    | opened =>
      simp only
      split
      · exact h.same rfl rfl rfl rfl rfl (List.Subset.refl _)
      · exact h.same rfl rfl rfl rfl rfl (List.subset_append_left _ _)
  · exact h

theorem onResolve (h : Calls host held transport) : Calls host held transport.onResolve := by
  rw [WebSocketTransport.onResolve]
  split
  · refine h.same rfl ?_ rfl rfl rfl (List.Subset.refl _)
    rw [List.map_map]
    apply List.map_congr_left
    intro call _
    simp only [Function.comp_apply]
    split <;> rfl
  · exact h

/-- A call that is held gets its outcome. -/
theorem settle (h : Calls host {call} transport) {outcome : Outcome}
    {origin : Option (Connection × Frame)}
    (houtcome : Rightful host transport.sent ⟨call, outcome, origin⟩) :
    Calls host 0 (transport.settle call outcome origin) := by
  refine h.step ?_ rfl (List.Subset.refl _) (List.Subset.refl _) ?_ fun _ hmem => .inl hmem
  · rw [WebSocketTransport.ids_settle, zero_add]
  · intro settlement hmem
    rcases List.mem_append.mp hmem with hold | hnew
    · exact .inl hold
    · rw [List.mem_singleton.mp hnew]
      exact .inr houtcome

/-- A new call is held. -/
theorem arrive (h : Calls host 0 transport) :
    Calls host {transport.calls} { transport with calls := transport.calls + 1 } := by
  have hcounted : ∀ call ∈ transport.ids, call < transport.calls := by
    intro call hmem
    exact h.counted call (by rwa [zero_add])
  have hdistinct : transport.ids.Nodup := by simpa using h.distinct
  refine ⟨?_, ?_, h.rightful, h.sent⟩
  · show ({transport.calls} + transport.ids).Nodup
    rw [Multiset.singleton_add, Multiset.nodup_cons]
    exact ⟨fun hmem => lt_irrefl _ (hcounted _ hmem), hdistinct⟩
  · intro call hmem
    have hmem : call ∈ {transport.calls} + transport.ids := hmem
    rw [Multiset.singleton_add, Multiset.mem_cons] at hmem
    rcases hmem with rfl | hmem
    · exact Nat.lt_succ_self _
    · exact Nat.lt_succ_of_lt (hcounted _ hmem)

theorem await (h : Calls host {call} transport) (kind : RequestKind)
    (connection : Option (Except SyncTransportException Connection)) :
    Calls host 0 { transport with
      awaiting := transport.awaiting ++ [⟨call, kind, connection⟩] } := by
  refine h.step ?_ rfl (List.Subset.refl _) (List.Subset.refl _) (fun _ hmem => .inl hmem)
    fun _ hmem => .inl hmem
  simp only [WebSocketTransport.ids, List.map_append, List.map_cons, List.map_nil,
    ← Multiset.coe_add, Multiset.coe_singleton]
  apply le_of_eq
  abel

theorem resume (h : Calls host 0 transport) {entry : AwaitingCall}
    (hfind : transport.awaiting.find? (·.call = call) = some entry) :
    Calls host {call} { transport with awaiting := transport.awaiting.filter (·.call ≠ call) } := by
  refine h.step ?_ rfl (List.Subset.refl _) (List.Subset.refl _) (fun _ hmem => .inl hmem)
    fun _ hmem => .inl hmem
  have hcall : entry.call = call := by simpa using List.find?_some hfind
  have hleave := @leave _ transport.awaiting [entry] (·.call ≠ call) AwaitingCall.call
    (List.singleton_sublist.mpr (List.mem_of_find?_eq_some hfind)) (by simp [hcall])
  simp only [List.map_cons, List.map_nil, hcall, Multiset.coe_singleton] at hleave
  simp only [WebSocketTransport.ids, zero_add]
  rw [add_left_comm]
  gcongr _ + ?_
  rw [← add_assoc]
  gcongr ?_ + _

theorem complete (h : Calls host held transport) {request : PendingRequest}
    (hmem : request ∈ transport.pending) (keep : PendingRequest → Bool)
    (hleaves : keep request = false) :
    Calls host ({request.completer} + held)
      { transport with pending := transport.pending.filter keep } := by
  refine h.step ?_ rfl (List.Subset.refl _) (List.Subset.refl _) (fun _ hmem => .inl hmem)
    fun _ hmem => .inl (List.mem_filter.mp hmem).1
  have hleave := @leave _ transport.pending [request] keep PendingRequest.completer
    (List.singleton_sublist.mpr hmem) (by simp [hleaves])
  simp only [List.map_cons, List.map_nil, Multiset.coe_singleton] at hleave
  simp only [WebSocketTransport.ids]
  rw [add_comm _ held, add_assoc]
  gcongr _ + ?_
  rw [add_left_comm]
  gcongr _ + ?_
  rw [add_left_comm]
  gcongr _ + ?_

/-- Whatever keeps the requests that leave the table from leaving it is irrelevant here. -/
theorem drop (h : Calls host held transport) (keep : PendingRequest → Bool) :
    Calls host held { transport with pending := transport.pending.filter keep } := by
  refine h.step ?_ rfl (List.Subset.refl _) (List.Subset.refl _) (fun _ hmem => .inl hmem)
    fun _ hmem => .inl (List.mem_filter.mp hmem).1
  simp only [WebSocketTransport.ids]
  gcongr _ + (_ + (_ + ?_))
  exact Multiset.coe_le.mpr (List.filter_sublist.map _).subperm

theorem register (h : Calls host {call} transport) {connection : Connection} (requestId : String)
    (kind : RequestKind) (hlink : connection ∈ transport.links) :
    Calls host 0 { transport with
      pending := transport.pending ++ [⟨requestId, connection.generation, kind, call⟩]
      sent := transport.sent ++ [⟨connection.socket, call, requestId, kind⟩] } := by
  refine h.step ?_ rfl (List.subset_append_left _ _) (List.Subset.refl _) (fun _ hmem => .inl hmem) ?_
  · simp only [WebSocketTransport.ids, List.map_append, List.map_cons, List.map_nil,
      ← Multiset.coe_add, Multiset.coe_singleton]
    apply le_of_eq
    abel
  · intro request hmem
    rcases List.mem_append.mp hmem with hold | hnew
    · exact .inl hold
    · rw [List.mem_singleton.mp hnew]
      exact .inr ⟨connection, hlink, rfl, List.mem_append_right _ (List.mem_singleton_self _)⟩

theorem send (h : Calls host {call} transport) (hlinks : Links transport) {connection : Connection}
    (hactive : transport.isActive connection = true) (kind : RequestKind) (taken : Bool) :
    Calls host 0 (transport.send host call kind connection taken) := by
  have howns : transport.owns connection = true := (Bool.and_eq_true_iff.mp hactive).1
  have hlink := hlinks.installed connection (Links.owns_iff.mp howns).2.2
  simp only [WebSocketTransport.send]
  split
  · exact ((h.drop _).register _ kind hlink).same rfl rfl rfl rfl rfl (List.Subset.refl _)
  · refine settle (failConnection ?_ _ _) trivial
    exact (h.drop _).same rfl rfl rfl rfl rfl (List.Subset.refl _)

theorem onResume (h : Calls host 0 transport) (hlinks : Links transport) (call : ℕ)
    (cancelled taken : Bool) : Calls host 0 (transport.onResume host call cancelled taken) := by
  rw [WebSocketTransport.onResume]
  split
  · next kind result hfind =>
    have hresumed := h.resume hfind
    cases result with
    | error error =>
      simp only
      split <;> exact hresumed.settle trivial
    | ok connection =>
      simp only
      split
      · exact hresumed.settle trivial
      · split
        · next hactive =>
          exact hresumed.send (hlinks.same rfl rfl rfl rfl rfl rfl) hactive kind taken
        · exact hresumed.settle trivial
  · exact h

theorem request (h : Calls host 0 transport) (kind : RequestKind) (cancelled : Bool) :
    Calls host 0 (transport.request kind cancelled) := by
  simp only [WebSocketTransport.request]
  split
  · exact h.arrive.settle trivial
  · split
    · exact h.arrive.settle trivial
    · simp only [WebSocketTransport.ensureConnection]
      split
      · exact h.arrive.await kind _
      · split
        · exact h.arrive.await kind _
        · refine await ?_ kind _
          exact h.arrive.same rfl rfl rfl rfl rfl (List.Subset.refl _)

theorem onTimeout (h : Calls host 0 transport) (call : ℕ) :
    Calls host 0 (transport.onTimeout call) := by
  rw [WebSocketTransport.onTimeout]
  split
  · exact h
  · next request hfind =>
    have hcall : request.completer = call := by simpa using List.find?_some hfind
    have hleft := h.complete (List.mem_of_find?_eq_some hfind) (·.requestId ≠ request.requestId)
      (by simp)
    rw [add_zero, hcall] at hleft
    exact hleft.settle trivial

/-- The frame that answers a request came over the link that the request was sent on. -/
theorem rightful_of_reads (h : Calls host held transport) (hlinks : Links transport)
    {request : PendingRequest} (hmem : request ∈ transport.pending) {connection : Connection}
    (howns : transport.owns connection = true)
    (hgeneration : request.generation = connection.generation) {frame : Frame}
    (hversion : host.isVersionOne frame = true)
    (hid : frameRequestId frame = some request.requestId) {outcome : Outcome}
    (hreads : Reads frame request outcome) :
    Rightful host transport.sent ⟨request.completer, outcome, some (connection, frame)⟩ := by
  obtain ⟨link, hlink, hsame, hsent⟩ := h.sent request hmem
  have hconnection := hlinks.installed connection (Links.owns_iff.mp howns).2.2
  have hown : link = connection :=
    hlinks.unique link hlink connection hconnection (hsame.trans hgeneration)
  rw [hown] at hsent
  cases hreads with
  | error htype => exact ⟨connection, frame, _, rfl, hsent, rfl, rfl, hversion, hid, htype, rfl⟩
  | value htype => exact ⟨connection, frame, _, rfl, hsent, rfl, rfl, hversion, hid, htype, rfl⟩

theorem onFrame (h : Calls host 0 transport) (hlinks : Links transport) (connection : Connection)
    (data : FrameData) : Calls host 0 (transport.onFrame host connection data) := by
  have heffect := @onFrame_effect host transport connection data
  generalize transport.onFrame host connection data = later at heffect ⊢
  cases heffect with
  | nothing hints => exact h.same rfl rfl rfl rfl rfl (List.Subset.refl _)
  | failed error => exact h.failConnection _ _
  | @completed frame request outcome hmem howns hgeneration hversion hid hreads =>
    have hrightful := h.rightful_of_reads hlinks hmem howns hgeneration hversion hid hreads
    have hleft := h.complete hmem (·.requestId ≠ request.requestId) (by simp)
    rw [add_zero] at hleft
    exact hleft.settle hrightful

theorem next (h : Calls host 0 transport) (hlinks : Links transport) (action : Action) :
    Calls host 0 (transport.next host action) := by
  cases action with
  | request kind cancelled => exact h.request kind cancelled
  | token result => exact h.onToken result
  | dialed result => exact h.onDialed result
  | resolve => exact h.onResolve
  | resume call cancelled taken => exact h.onResume hlinks call cancelled taken
  | frame connection data =>
    simp only [WebSocketTransport.next]
    split
    · exact h.onFrame hlinks connection data
    · exact h
  | done connection =>
    simp only [WebSocketTransport.next]
    split
    · exact (h.onClosed connection).same rfl rfl rfl rfl rfl (List.Subset.refl _)
    · exact h
  | error connection =>
    simp only [WebSocketTransport.next]
    split
    · exact (h.failConnection connection _).same rfl rfl rfl rfl rfl (List.Subset.refl _)
    · exact h
  | shut socket => exact h.closeSocket socket
  | timeout call => exact h.onTimeout call
  | dispose => exact h.dispose

end Calls

/-! ## The generation of the requests that wait -/

namespace Current
variable {host : Host} {transport later : WebSocketTransport} {generation : ℕ}

theorem keep (h : Current transport) (hpending : later.pending ⊆ transport.pending)
    (hgeneration : later.socketGeneration = transport.socketGeneration) : Current later := by
  intro request hmem
  rw [hgeneration]
  exact h request (hpending hmem)

theorem of_idle (h : transport.pending = []) : Current transport := by
  intro request hmem
  rw [h] at hmem
  exact absurd hmem List.not_mem_nil

/-- No request outlives the generation that all of them have. -/
theorem none_left {requests : List PendingRequest}
    (h : ∀ request ∈ requests, request.generation = generation) :
    requests.filter (fun request => !(some generation).all (request.generation = ·)) = [] := by
  apply List.filter_eq_nil_iff.mpr
  intro request hmem
  simp [h request hmem]

theorem onClosed (h : Current transport) (connection : Connection) :
    Current (transport.onClosed connection) := by
  rw [WebSocketTransport.onClosed]
  split
  · next howns =>
    obtain ⟨-, hgeneration, -⟩ := Links.owns_iff.mp howns
    rw [Links.release howns]
    have hall : ∀ request ∈ transport.pending, request.generation = connection.generation := by
      intro request hmem
      rw [hgeneration]
      exact h request hmem
    exact of_idle (none_left hall)
  · exact h

theorem failConnection (h : Current transport) (connection : Connection)
    (error : SyncTransportException) : Current (transport.failConnection connection error) := by
  rw [WebSocketTransport.failConnection]
  split
  · next howns =>
    obtain ⟨-, hgeneration, -⟩ := Links.owns_iff.mp howns
    rw [Links.release howns]
    have hall : ∀ request ∈ transport.pending, request.generation = connection.generation := by
      intro request hmem
      rw [hgeneration]
      exact h request hmem
    exact of_idle (none_left hall)
  · exact h

theorem invalidateGeneration (h : Current transport) {generation : ℕ}
    (hidle : generation = transport.socketGeneration → transport.pending = []) :
    Current (transport.invalidateGeneration generation) := by
  rw [WebSocketTransport.invalidateGeneration]
  split
  · next hcurrent => exact of_idle (hidle hcurrent.symm)
  · exact h

/-- While the current dial goes on no request waits. -/
theorem idle (h : Current transport) (hlinks : Links transport) {held : Multiset ℕ}
    (hcalls : Calls host held transport) {generation : ℕ} {phase : Phase}
    (hdial : transport.connecting = some ⟨generation, phase⟩)
    (hphase : ∀ result, phase ≠ .finished result)
    (hcurrent : generation = transport.socketGeneration) : transport.pending = [] := by
  apply List.eq_nil_iff_forall_not_mem.mpr
  intro request hmem
  obtain ⟨link, hlink, hgeneration, -⟩ := hcalls.sent request hmem
  have holder := hlinks.older hdial hphase link hlink
  have hnow := h request hmem
  omega

theorem onToken (h : Current transport) (hlinks : Links transport) {held : Multiset ℕ}
    (hcalls : Calls host held transport) (result : TokenResult) :
    Current (transport.onToken result) := by
  rw [WebSocketTransport.onToken]
  split
  · next generation hdial =>
    have hidle := h.idle hlinks hcalls hdial fun _ => Phase.noConfusion
    cases result with
    | failed => exact h.invalidateGeneration hidle
    | invalid error =>
      simp only
      split <;> exact h
    | valid =>
      simp only
      split <;> exact h
  · exact h

theorem onDialed (h : Current transport) (hlinks : Links transport) {held : Multiset ℕ}
    (hcalls : Calls host held transport) (result : DialResult) :
    Current (transport.onDialed result) := by
  rw [WebSocketTransport.onDialed]
  split
  · next generation hdial =>
    have hidle := h.idle hlinks hcalls hdial fun _ => Phase.noConfusion
    cases result with
    | timedOut => exact h.invalidateGeneration hidle
    | failed => exact h.invalidateGeneration hidle
    | disposed =>
      simp only
      split
      · exact h.invalidateGeneration hidle
      · exact h
    | opened =>
      simp only
      split <;> exact h
  · exact h

theorem send (h : Current transport) {connection : Connection}
    (hactive : transport.isActive connection = true) (call : ℕ) (kind : RequestKind) (taken : Bool) :
    Current (transport.send host call kind connection taken) := by
  have howns : transport.owns connection = true := (Bool.and_eq_true_iff.mp hactive).1
  obtain ⟨-, hgeneration, -⟩ := Links.owns_iff.mp howns
  simp only [WebSocketTransport.send]
  split
  · intro request hmem
    rcases List.mem_append.mp hmem with hold | hnew
    · exact h request (List.mem_filter.mp hold).1
    · rw [List.mem_singleton.mp hnew]
      exact hgeneration
  · refine (Current.failConnection ?_ connection _).keep (List.Subset.refl _) rfl
    exact h.keep (fun _ hmem => (List.mem_filter.mp hmem).1) rfl

theorem onResume (h : Current transport) (call : ℕ) (cancelled taken : Bool) :
    Current (transport.onResume host call cancelled taken) := by
  rw [WebSocketTransport.onResume]
  split
  · next kind result hfind =>
    cases result with
    | error error =>
      simp only
      split <;> exact h
    | ok connection =>
      simp only
      split
      · exact h
      · split
        · next hactive =>
          have hresumed : Current { transport with
            awaiting := transport.awaiting.filter (·.call ≠ call) } := h
          exact hresumed.send hactive call kind taken
        · exact h
  · exact h

theorem onFrame (h : Current transport) (connection : Connection) (data : FrameData) :
    Current (transport.onFrame host connection data) := by
  have heffect := @onFrame_effect host transport connection data
  generalize transport.onFrame host connection data = later at heffect ⊢
  cases heffect with
  | nothing hints => exact h
  | failed error => exact h.failConnection _ _
  | completed => exact h.keep (fun _ hmem => (List.mem_filter.mp hmem).1) rfl

theorem dispose (h : Current transport) : Current transport.dispose := by
  rw [WebSocketTransport.dispose]
  split
  · exact h
  · have hidle : (({ transport with
        disposed := true, socketGeneration := transport.socketGeneration + 1 }).failPending
          disposedError none).pending = [] := by
      apply List.filter_eq_nil_iff.mpr
      intro request _
      simp
    simp only
    split
    · exact of_idle hidle
    · exact of_idle hidle

theorem ensureConnection_dials (hactive : transport.connection.filter transport.isActive = none)
    (hconnecting : transport.connecting = none) :
    transport.ensureConnection = (transport.startDial, none) := by
  rw [WebSocketTransport.ensureConnection, hactive]
  simp only [hconnecting]
  rfl

theorem ensureConnection_joins (h : ¬ (transport.connection.filter transport.isActive = none ∧
      transport.connecting = none)) :
    ∃ connection, transport.ensureConnection = (transport, connection) := by
  rw [WebSocketTransport.ensureConnection]
  split
  · exact ⟨_, rfl⟩
  · next hactive =>
    have hconnecting : transport.connecting.isSome = true := by
      rw [Option.isSome_iff_ne_none]
      exact fun hnone => h ⟨hactive, hnone⟩
    rw [if_pos hconnecting]
    exact ⟨_, rfl⟩

/-- A new dial leaves the requests of the old generation where they are. -/
theorem request_iff (h : Current transport) (kind : RequestKind) (cancelled : Bool) :
    Current (transport.request kind cancelled) ↔
      ReplacesIdle transport (.request kind cancelled) := by
  simp only [WebSocketTransport.request]
  by_cases hdisposed : transport.disposed = true
  · rw [if_pos hdisposed]
    refine iff_of_true h ?_
    cases cancelled with
    | true => trivial
    | false =>
      intro hopen
      rw [hdisposed] at hopen
      cases hopen
  · rw [if_neg hdisposed]
    cases cancelled with
    | true => exact iff_of_true h trivial
    | false =>
      rw [if_neg Bool.false_ne_true]
      by_cases hdials : transport.connection.filter transport.isActive = none ∧
          transport.connecting = none
      · obtain ⟨hactive, hconnecting⟩ := hdials
        have hensure := @ensureConnection_dials { transport with calls := transport.calls + 1 }
          hactive hconnecting
        rw [hensure]
        constructor
        · intro hcurrent _ _ _
          apply List.eq_nil_iff_forall_not_mem.mpr
          intro request hmem
          have hold := h request hmem
          have hnew : request.generation = transport.socketGeneration + 1 := hcurrent request hmem
          omega
        · intro hidle
          exact of_idle (hidle (Bool.eq_false_iff.mpr hdisposed) hactive hconnecting)
      · obtain ⟨connection, hensure⟩ :=
          @ensureConnection_joins { transport with calls := transport.calls + 1 } hdials
        rw [hensure]
        refine iff_of_true h ?_
        intro _ hactive hconnecting
        exact absurd ⟨hactive, hconnecting⟩ hdials

theorem next_iff (h : Current transport) (hlinks : Links transport) (hcalls : Calls host 0 transport)
    (action : Action) : Current (transport.next host action) ↔ ReplacesIdle transport action := by
  cases action with
  | request kind cancelled => exact h.request_iff kind cancelled
  | token result => exact iff_of_true (h.onToken hlinks hcalls result) trivial
  | dialed result => exact iff_of_true (h.onDialed hlinks hcalls result) trivial
  | resolve =>
    refine iff_of_true ?_ trivial
    show Current transport.onResolve
    rw [WebSocketTransport.onResolve]
    split <;> exact h
  | resume call cancelled taken => exact iff_of_true (h.onResume call cancelled taken) trivial
  | frame connection data =>
    refine iff_of_true ?_ trivial
    simp only [WebSocketTransport.next]
    split
    · exact h.onFrame connection data
    · exact h
  | done connection =>
    refine iff_of_true ?_ trivial
    simp only [WebSocketTransport.next]
    split
    · exact h.onClosed connection
    · exact h
  | error connection =>
    refine iff_of_true ?_ trivial
    simp only [WebSocketTransport.next]
    split
    · exact h.failConnection connection _
    · exact h
  | shut socket => exact iff_of_true h trivial
  | timeout call =>
    refine iff_of_true ?_ trivial
    show Current (transport.onTimeout call)
    rw [WebSocketTransport.onTimeout]
    split
    · exact h
    · exact h.keep (fun _ hmem => (List.mem_filter.mp hmem).1) rfl
  | dispose => exact iff_of_true h.dispose trivial

end Current

section
variable {host : Host} {transport : WebSocketTransport}

theorem Calls.once (h : Calls host 0 transport) : (transport.settled.map Settlement.call).Nodup := by
  apply Multiset.coe_nodup.mp
  refine Multiset.nodup_of_le ?_ h.distinct
  rw [zero_add, WebSocketTransport.ids]
  exact Multiset.le_add_right _ _

theorem correlated_iff_current (hlinks : Links transport) (hcalls : Calls host 0 transport) :
    Correlated host transport ↔ Current transport := by
  refine ⟨Correlated.current, fun h => ⟨hcalls.once, hcalls.rightful, h, ?_⟩⟩
  intro request hmem hobserved
  have hover := hlinks.observed _ hobserved
  rw [h request hmem] at hover
  exact lt_irrefl _ hover

end

/-- Requests and frames correlate over the reconnects of a run exactly when no dial starts while a
request of the connection before it still waits. -/
theorem requests_correlate_iff (host : Host) (actions : List Action) :
    StatesMeet (WebSocketTransport.next host) (Correlated host) .start actions ↔
      StepsMeet (WebSocketTransport.next host) ReplacesIdle .start actions := by
  have hinv : ∀ (transport : WebSocketTransport) action, Links transport ∧ Calls host 0 transport →
      Links (transport.next host action) ∧ Calls host 0 (transport.next host action) := by
    intro transport action h
    exact ⟨h.1.next action, h.2.next h.1 action⟩
  refine statesMeet_iff_stepsMeet hinv ?_ ⟨Links.start, Calls.start⟩ ?_ actions
  · intro transport action hI h
    rw [correlated_iff_current (hI.1.next action) (hI.2.next hI.1 action)]
    exact h.current.next_iff hI.1 hI.2 action
  · rw [correlated_iff_current Links.start Calls.start]
    exact Current.of_idle rfl

def bareHost : Host where
  fallback := false
  seed := "seed"
  jsonDecode _ := none
  isOne _ := false

/-- A push is sent, its socket dies, and a pull dials before the closure is observed. -/
def replaced : List Action :=
  [.request .push false, .token .valid, .dialed .opened, .resolve, .resume 0 false true,
    .shut 0, .request .pull false, .done ⟨0, 1⟩]

/-- The push waits on after the closure of its connection. -/
theorem replaced_strands_push :
    ¬ StatesMeet (WebSocketTransport.next bareHost) (Correlated bareHost) .start replaced := by
  intro h
  have hlast : Correlated bareHost (run (WebSocketTransport.next bareHost) .start replaced) :=
    statesMeet_iff_prefix.mp h replaced (List.prefix_refl _)
  exact hlast.closed _ (List.mem_singleton.mpr rfl) (List.mem_singleton.mpr rfl)

end OptoSync.Transport.Dart
