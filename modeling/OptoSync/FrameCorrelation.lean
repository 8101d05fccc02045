import OptoSync.PullPage
import OptoSync.Transition

/-!
# Correlated frames

The table of requests that wait for a frame of the socket transports, and `dispatch_frame`. Each
registration has a ticket of its own, which stands for the receiver that `register` hands out.
-/
namespace OptoSync.Transport
open Json

inductive RequestKind
  | push | pull | snapshot
  deriving DecidableEq

/-- The type of the frame that answers a request of this kind. -/
def RequestKind.resultType : RequestKind → String
  | .push => "push-result"
  | .pull => "pull-result"
  | .snapshot => "snapshot-result"

theorem resultType_injective : Function.Injective RequestKind.resultType := by
  intro a b h
  cases a <;> cases b <;> first | rfl | exact absurd h (by decide)

structure SyncTransportError where
  code : String
  message : String

abbrev SyncTransportFailure := TransportFailure SyncTransportError

abbrev Frame := List (String × Json)

abbrev FrameOutcome := Except SyncTransportFailure Frame

/-- The code of a failure that an error frame does not name itself. -/
structure FrameCodes where
  error : String

structure Waiter where
  requestId : String
  kind : RequestKind
  ticket : ℕ

structure PendingMap where
  waiters : List Waiter
  unique : waiters.Pairwise fun a b => a.requestId ≠ b.requestId

namespace PendingMap

def empty : PendingMap := ⟨[], .nil⟩

def forget (pending : PendingMap) (requestId : String) : PendingMap where
  waiters := pending.waiters.filter fun w => w.requestId ≠ requestId
  unique := pending.unique.filter _

def find (pending : PendingMap) (requestId : String) : Option Waiter :=
  pending.waiters.find? fun w => w.requestId = requestId

theorem mem_forget {pending : PendingMap} {requestId : String} {w : Waiter} :
    w ∈ (pending.forget requestId).waiters ↔ w ∈ pending.waiters ∧ w.requestId ≠ requestId := by
  simp [forget]

/-- An entry under the same id is replaced. -/
def register (pending : PendingMap) (waiter : Waiter) : PendingMap where
  waiters := (pending.forget waiter.requestId).waiters ++ [waiter]
  unique := by
    refine List.pairwise_append.mpr ⟨(pending.forget _).unique, List.pairwise_singleton _ _, ?_⟩
    intro a ha b hb
    rw [List.mem_singleton.mp hb]
    exact (mem_forget.mp ha).2

theorem find_eq_some {pending : PendingMap} {requestId : String} {w : Waiter}
    (h : pending.find requestId = some w) : w ∈ pending.waiters ∧ w.requestId = requestId := by
  refine ⟨List.mem_of_find?_eq_some h, ?_⟩
  simpa using List.find?_some h

theorem find_eq_none {pending : PendingMap} {requestId : String}
    (h : pending.find requestId = none) : ∀ w ∈ pending.waiters, w.requestId ≠ requestId := by
  intro w hw
  simpa using List.find?_eq_none.mp h w hw

theorem find_of_mem {pending : PendingMap} {w : Waiter} (hw : w ∈ pending.waiters) :
    pending.find w.requestId = some w := by
  cases hfind : pending.find w.requestId with
  | none => exact absurd rfl (find_eq_none hfind w hw)
  | some found =>
    obtain ⟨hfound, hid⟩ := find_eq_some hfind
    by_contra hne
    have hne : found ≠ w := fun h => hne (congrArg some h)
    have hsymm : Std.Symm fun a b : Waiter => a.requestId ≠ b.requestId := ⟨fun _ _ h => h.symm⟩
    exact pending.unique.forall hfound hw hne hid

end PendingMap

/-- What an outcome came from. -/
inductive Origin
  | frame (frame : Frame)
  | failAll

structure Delivery where
  waiter : Waiter
  outcome : FrameOutcome
  origin : Origin

def Delivery.ticket (d : Delivery) : ℕ := d.waiter.ticket

structure System where
  pending : PendingMap
  nextTicket : ℕ
  delivered : List Delivery
  /-- The watermarks that the `changed` handler was called with. -/
  hints : List ℕ

def System.start : System := ⟨.empty, 0, [], []⟩

inductive Event
  | register (requestId : String) (kind : RequestKind)
  | dispatchFrame (text : String)
  | forget (requestId : String)
  | failAll (failure : SyncTransportFailure)

namespace System

def register (s : System) (requestId : String) (kind : RequestKind) : System :=
  { s with
    pending := s.pending.register ⟨requestId, kind, s.nextTicket⟩
    nextTicket := s.nextTicket + 1 }

def forget (s : System) (requestId : String) : System :=
  { s with pending := s.pending.forget requestId }

def deliver (s : System) (w : Waiter) (outcome : FrameOutcome) (origin : Origin) : System :=
  { s with
    pending := s.pending.forget w.requestId
    delivered := s.delivered ++ [⟨w, outcome, origin⟩] }

def complete (s : System) (requestId : String) (outcome : FrameOutcome) (origin : Origin) :
    System :=
  match s.pending.find requestId with
  | some w => s.deliver w outcome origin
  | none => s

def failAll (s : System) (failure : SyncTransportFailure) : System :=
  { s with
    pending := .empty
    delivered := s.delivered ++ s.pending.waiters.map fun w => ⟨w, .error failure, .failAll⟩ }

end System

def frameType (frame : Frame) : Option String := (member frame "type").bind asString

def frameRequestId (frame : Frame) : Option String := (member frame "requestId").bind asString

def IsVersionOne (frame : Frame) : Prop := (member frame "v").bind asU64 = some 1

instance (frame : Frame) : Decidable (IsVersionOne frame) :=
  inferInstanceAs (Decidable (_ = _))

def frameFailure (codes : FrameCodes) (frame : Frame) : SyncTransportFailure where
  source := {
    code := ((member frame "code").bind asString).getD codes.error
    message := ((member frame "message").bind asString).getD "sync transport error" }
  retryable := (member frame "retryable").bind asBool ≠ some false
  retryAfter := none

def System.completeFrame (s : System) (frame : Frame) (outcome : FrameOutcome) : System :=
  match frameRequestId frame with
  | some requestId => s.complete requestId outcome (.frame frame)
  | none => s

section Dispatch

variable (fromStr : String → Option Json) (codes : FrameCodes) (onChanged : Bool)

def dispatchFrame (s : System) (text : String) : System :=
  match fromStr text with
  | some (.object frame) =>
    if ¬ IsVersionOne frame then s
    else if frameType frame = some "changed" then
      match (member frame "watermark").bind asU64 with
      | some watermark => if onChanged then { s with hints := s.hints ++ [watermark] } else s
      | none => s
    else if frameType frame = some "error" then
      s.completeFrame frame (.error (frameFailure codes frame))
    else if frameType frame = some "push-result" ∨ frameType frame = some "pull-result" ∨
        frameType frame = some "snapshot-result" then
      s.completeFrame frame (.ok frame)
    else s
  | _ => s

def step (s : System) : Event → System
  | .register requestId kind => s.register requestId kind
  | .dispatchFrame text => dispatchFrame fromStr codes onChanged s text
  | .forget requestId => s.forget requestId
  | .failAll failure => s.failAll failure

end Dispatch

/-- A version 1 frame that carries the id of the request and is an error frame or the result of
its kind. -/
structure Answers (frame : Frame) (w : Waiter) : Prop where
  version : IsVersionOne frame
  requestId : frameRequestId frame = some w.requestId
  type : frameType frame = some "error" ∨ frameType frame = some w.kind.resultType

def Delivery.Rightful (d : Delivery) : Prop :=
  ∀ frame, d.origin = .frame frame → Answers frame d.waiter

/-- Every request has at most one outcome, and no frame but one that answers it caused it. -/
structure Correlates (s : System) : Prop where
  once : (s.delivered.map Delivery.ticket).Nodup
  rightful : ∀ d ∈ s.delivered, d.Rightful

/-- A frame that answers no waiting request leaves all requests as they are. -/
def Undisturbed (fromStr : String → Option Json) (codes : FrameCodes) (onChanged : Bool)
    (s : System) : Event → Prop
  | .dispatchFrame text =>
    (∀ frame, fromStr text = some (.object frame) → ∀ w ∈ s.pending.waiters, ¬ Answers frame w) →
      (dispatchFrame fromStr codes onChanged s text).pending = s.pending ∧
        (dispatchFrame fromStr codes onChanged s text).delivered = s.delivered
  | _ => True

/-- The step does not dispatch the result of one kind under the id of a request of another. -/
def RightKind (fromStr : String → Option Json) (s : System) : Event → Prop
  | .dispatchFrame text => ∀ frame, fromStr text = some (.object frame) → IsVersionOne frame →
    ∀ w ∈ s.pending.waiters, frameRequestId frame = some w.requestId →
      ∀ kind : RequestKind, frameType frame = some kind.resultType → kind = w.kind
  | _ => True

section Dispatch

variable {fromStr : String → Option Json} {codes : FrameCodes} {onChanged : Bool} {s : System}
  {frame : Frame} {w : Waiter}

theorem complete_of_mem (hw : w ∈ s.pending.waiters) (outcome : FrameOutcome) (origin : Origin) :
    s.complete w.requestId outcome origin = s.deliver w outcome origin := by
  simp only [System.complete, PendingMap.find_of_mem hw]

/-- The frame is one that `dispatch_frame` completes a request with. -/
structure Completing (frame : Frame) (w : Waiter) : Prop where
  version : IsVersionOne frame
  requestId : frameRequestId frame = some w.requestId
  type : frameType frame = some "error" ∨
    ∃ kind : RequestKind, frameType frame = some kind.resultType

theorem eq_resultType_iff {type : Option String} :
    (type = some "push-result" ∨ type = some "pull-result" ∨ type = some "snapshot-result") ↔
      ∃ kind : RequestKind, type = some kind.resultType := by
  constructor
  · intro h
    rcases h with h | h | h
    · exact ⟨.push, h⟩
    · exact ⟨.pull, h⟩
    · exact ⟨.snapshot, h⟩
  · intro h
    obtain ⟨kind, h⟩ := h
    cases kind with
    | push => exact .inl h
    | pull => exact .inr (.inl h)
    | snapshot => exact .inr (.inr h)

/-- What a dispatched text does to the requests: nothing, or one of them gets its outcome. -/
inductive Effect (s : System) : Option Json → System → Prop
  | none (value : Option Json) (hints : List ℕ) : Effect s value { s with hints := hints }
  | delivered {frame : Frame} {w : Waiter} (outcome : FrameOutcome) :
      w ∈ s.pending.waiters → Completing frame w →
        Effect s (some (.object frame)) (s.deliver w outcome (.frame frame))

theorem Effect.unchanged_or_delivered {value : Option Json} {next : System}
    (h : Effect s value next) :
    (next.pending = s.pending ∧ next.delivered = s.delivered) ∨
      ∃ frame w outcome, value = some (.object frame) ∧ w ∈ s.pending.waiters ∧
        Completing frame w ∧ next = s.deliver w outcome (.frame frame) := by
  cases h with
  | none hints => exact .inl ⟨rfl, rfl⟩
  | delivered outcome hw hcompleting => exact .inr ⟨_, _, outcome, rfl, hw, hcompleting, rfl⟩

theorem completeFrame_effect (hversion : IsVersionOne frame)
    (htype : frameType frame = some "error" ∨
      ∃ kind : RequestKind, frameType frame = some kind.resultType) (outcome : FrameOutcome) :
    Effect s (some (.object frame)) (s.completeFrame frame outcome) := by
  unfold System.completeFrame System.complete
  cases hid : frameRequestId frame with
  | none => exact .none _ s.hints
  | some requestId =>
    cases hfind : s.pending.find requestId with
    | none =>
      simp only [hfind]
      exact .none _ s.hints
    | some w =>
      obtain ⟨hw, rfl⟩ := PendingMap.find_eq_some hfind
      simp only [hfind]
      exact .delivered outcome hw ⟨hversion, hid, htype⟩

theorem dispatchFrame_effect (text : String) :
    Effect s (fromStr text) (dispatchFrame fromStr codes onChanged s text) := by
  unfold dispatchFrame
  cases htext : fromStr text with
  | none => exact .none _ s.hints
  | some value =>
    cases value with
    | object frame =>
      dsimp only
      by_cases hversion : IsVersionOne frame
      · rw [if_neg (not_not.mpr hversion)]
        by_cases hchanged : frameType frame = some "changed"
        · rw [if_pos hchanged]
          cases hmark : (member frame "watermark").bind asU64 with
          | none => exact .none _ s.hints
          | some watermark =>
            cases onChanged with
            | false => exact .none _ s.hints
            | true => exact .none _ (s.hints ++ [watermark])
        · rw [if_neg hchanged]
          by_cases herror : frameType frame = some "error"
          · rw [if_pos herror]
            exact completeFrame_effect hversion (.inl herror) _
          · rw [if_neg herror]
            by_cases hresult : frameType frame = some "push-result" ∨
                frameType frame = some "pull-result" ∨ frameType frame = some "snapshot-result"
            · rw [if_pos hresult]
              exact completeFrame_effect hversion (.inr (eq_resultType_iff.mp hresult)) _
            · rw [if_neg hresult]
              exact .none _ s.hints
      · rw [if_pos hversion]
        exact .none _ s.hints
    | _ => exact .none _ s.hints

/-- The result of any kind is delivered, whatever was asked. -/
theorem dispatchFrame_result {text : String} (htext : fromStr text = some (.object frame))
    (hversion : IsVersionOne frame) (hw : w ∈ s.pending.waiters)
    (hid : frameRequestId frame = some w.requestId) {kind : RequestKind}
    (htype : frameType frame = some kind.resultType) :
    dispatchFrame fromStr codes onChanged s text = s.deliver w (.ok frame) (.frame frame) := by
  have hchanged : frameType frame ≠ some "changed" := by
    rw [htype]
    cases kind <;> decide
  have herror : frameType frame ≠ some "error" := by
    rw [htype]
    cases kind <;> decide
  unfold dispatchFrame
  rw [htext]
  dsimp only
  rw [if_neg (not_not.mpr hversion), if_neg hchanged, if_neg herror,
    if_pos (eq_resultType_iff.mpr ⟨kind, htype⟩)]
  unfold System.completeFrame
  rw [hid]
  exact complete_of_mem hw _ _

end Dispatch

/-- Tickets are handed out once, and a request leaves the table with its first outcome. -/
structure Tickets (s : System) : Prop where
  waiting_lt : ∀ w ∈ s.pending.waiters, w.ticket < s.nextTicket
  delivered_lt : ∀ d ∈ s.delivered, d.ticket < s.nextTicket
  waiting_nodup : (s.pending.waiters.map Waiter.ticket).Nodup
  delivered_nodup : (s.delivered.map Delivery.ticket).Nodup
  disjoint : ∀ w ∈ s.pending.waiters, ∀ d ∈ s.delivered, w.ticket ≠ d.ticket

namespace Tickets

theorem start : Tickets .start where
  waiting_lt := fun _ hw => absurd hw List.not_mem_nil
  delivered_lt := fun _ hd => absurd hd List.not_mem_nil
  waiting_nodup := List.nodup_nil
  delivered_nodup := List.nodup_nil
  disjoint := fun _ hw => absurd hw List.not_mem_nil

variable {s : System}

theorem forget (h : Tickets s) (requestId : String) : Tickets (s.forget requestId) where
  waiting_lt := fun w hw => h.waiting_lt w (PendingMap.mem_forget.mp hw).1
  delivered_lt := h.delivered_lt
  waiting_nodup := h.waiting_nodup.sublist (List.filter_sublist.map _)
  delivered_nodup := h.delivered_nodup
  disjoint := fun w hw => h.disjoint w (PendingMap.mem_forget.mp hw).1

theorem register (h : Tickets s) (requestId : String) (kind : RequestKind) :
    Tickets (s.register requestId kind) := by
  have hforget := h.forget requestId
  have hcases : ∀ w ∈ (s.register requestId kind).pending.waiters,
      w ∈ (s.forget requestId).pending.waiters ∨ w.ticket = s.nextTicket := by
    intro w hw
    rcases List.mem_append.mp hw with hold | hnew
    · exact .inl hold
    · exact .inr (by rw [List.mem_singleton.mp hnew])
  refine ⟨fun w hw => ?_, fun d hd => Nat.lt_succ_of_lt (h.delivered_lt d hd), ?_,
    h.delivered_nodup, fun w hw d hd => ?_⟩
  · rcases hcases w hw with hold | hnew
    · exact Nat.lt_succ_of_lt (hforget.waiting_lt w hold)
    · rw [hnew]
      exact Nat.lt_succ_self _
  · show (((s.forget requestId).pending.waiters ++ [_]).map Waiter.ticket).Nodup
    rw [List.map_append]
    refine hforget.waiting_nodup.append (List.nodup_singleton _) ?_
    intro ticket hold hnew
    obtain ⟨w, hw, rfl⟩ := List.mem_map.mp hold
    have hlt := hforget.waiting_lt w hw
    rw [List.mem_singleton.mp hnew] at hlt
    exact lt_irrefl _ hlt
  · rcases hcases w hw with hold | hnew
    · exact hforget.disjoint w hold d hd
    · have hlt := h.delivered_lt d hd
      omega

theorem deliver (h : Tickets s) {w : Waiter} (hw : w ∈ s.pending.waiters)
    (outcome : FrameOutcome) (origin : Origin) : Tickets (s.deliver w outcome origin) := by
  have hforget := h.forget w.requestId
  have hcases : ∀ d ∈ (s.deliver w outcome origin).delivered,
      d ∈ s.delivered ∨ d.waiter = w := by
    intro d hd
    rcases List.mem_append.mp hd with hold | hnew
    · exact .inl hold
    · exact .inr (by rw [List.mem_singleton.mp hnew])
  refine ⟨hforget.waiting_lt, fun d hd => ?_, hforget.waiting_nodup, ?_, fun v hv d hd => ?_⟩
  · rcases hcases d hd with hold | hnew
    · exact h.delivered_lt d hold
    · rw [Delivery.ticket, hnew]
      exact h.waiting_lt w hw
  · show ((s.delivered ++ [_]).map Delivery.ticket).Nodup
    rw [List.map_append]
    refine h.delivered_nodup.append (List.nodup_singleton _) ?_
    intro ticket hold hnew
    obtain ⟨d, hd, rfl⟩ := List.mem_map.mp hold
    exact h.disjoint w hw d hd (List.mem_singleton.mp hnew).symm
  · obtain ⟨hv, hid⟩ := PendingMap.mem_forget.mp hv
    rcases hcases d hd with hold | hnew
    · exact h.disjoint v hv d hold
    · intro hticket
      rw [Delivery.ticket, hnew] at hticket
      rw [List.inj_on_of_nodup_map h.waiting_nodup hv hw hticket] at hid
      exact hid rfl

theorem failAll (h : Tickets s) (failure : SyncTransportFailure) : Tickets (s.failAll failure) := by
  have hcases : ∀ d ∈ (s.failAll failure).delivered,
      d ∈ s.delivered ∨ d.waiter ∈ s.pending.waiters := by
    intro d hd
    rcases List.mem_append.mp hd with hold | hnew
    · exact .inl hold
    · obtain ⟨w, hw, rfl⟩ := List.mem_map.mp hnew
      exact .inr hw
  refine ⟨fun _ hw => absurd hw List.not_mem_nil, fun d hd => ?_, List.nodup_nil, ?_,
    fun _ hw => absurd hw List.not_mem_nil⟩
  · rcases hcases d hd with hold | hnew
    · exact h.delivered_lt d hold
    · exact h.waiting_lt _ hnew
  · show ((s.delivered ++ s.pending.waiters.map _).map Delivery.ticket).Nodup
    rw [List.map_append, List.map_map]
    refine h.delivered_nodup.append h.waiting_nodup ?_
    intro ticket hold hnew
    obtain ⟨d, hd, rfl⟩ := List.mem_map.mp hold
    obtain ⟨w, hw, hticket⟩ := List.mem_map.mp hnew
    exact h.disjoint w hw d hd hticket

variable {fromStr : String → Option Json} {codes : FrameCodes} {onChanged : Bool}

theorem effect (h : Tickets s) {value : Option Json} {next : System} (he : Effect s value next) :
    Tickets next := by
  cases he with
  | none hints =>
    exact ⟨h.waiting_lt, h.delivered_lt, h.waiting_nodup, h.delivered_nodup, h.disjoint⟩
  | delivered outcome hw _ => exact h.deliver hw outcome _

theorem step (h : Tickets s) (e : Event) : Tickets (step fromStr codes onChanged s e) := by
  cases e with
  | register requestId kind => exact h.register requestId kind
  | dispatchFrame text => exact h.effect (dispatchFrame_effect text)
  | forget requestId => exact h.forget requestId
  | failAll failure => exact h.failAll failure

end Tickets

variable {fromStr : String → Option Json} {codes : FrameCodes} {onChanged : Bool} {s : System}

theorem Completing.answers_iff {frame : Frame} {w : Waiter} (h : Completing frame w) :
    Answers frame w ↔
      ∀ kind : RequestKind, frameType frame = some kind.resultType → kind = w.kind := by
  constructor
  · intro ha kind hkind
    rcases ha.type with herror | hresult
    · rw [herror] at hkind
      cases kind <;> exact absurd hkind (by decide)
    · rw [hresult] at hkind
      exact (resultType_injective (Option.some.inj hkind)).symm
  · intro hkinds
    refine ⟨h.version, h.requestId, h.type.imp_right fun hresult => ?_⟩
    obtain ⟨kind, hkind⟩ := hresult
    rw [hkind, hkinds kind hkind]

theorem rightful_of_answers {frame : Frame} {w : Waiter} (h : Answers frame w)
    (outcome : FrameOutcome) : Delivery.Rightful ⟨w, outcome, .frame frame⟩ := by
  intro frame' horigin
  cases horigin
  exact h

/-- From a correlating state, a step keeps correlation exactly if it does not answer a request with
the result of another kind. -/
theorem Correlates.step_iff (hI : Tickets s) (h : Correlates s) (e : Event) :
    Correlates (step fromStr codes onChanged s e) ↔ RightKind fromStr s e := by
  have htickets : Tickets (step fromStr codes onChanged s e) := hI.step e
  have honce := htickets.delivered_nodup
  cases e with
  | register requestId kind => exact iff_of_true ⟨honce, h.rightful⟩ trivial
  | forget requestId => exact iff_of_true ⟨honce, h.rightful⟩ trivial
  | failAll failure =>
    refine iff_of_true ⟨honce, fun d hd => ?_⟩ trivial
    rcases List.mem_append.mp hd with hold | hnew
    · exact h.rightful d hold
    · obtain ⟨w, -, rfl⟩ := List.mem_map.mp hnew
      intro frame horigin
      cases horigin
  | dispatchFrame text =>
    constructor
    · intro hnext frame htext hversion w hw hid kind hkind
      have hcompleting : Completing frame w := ⟨hversion, hid, .inr ⟨kind, hkind⟩⟩
      have hdelivered : ⟨w, .ok frame, .frame frame⟩ ∈
          (dispatchFrame fromStr codes onChanged s text).delivered := by
        rw [dispatchFrame_result htext hversion hw hid hkind]
        exact List.mem_append_right _ (List.mem_singleton_self _)
      exact hcompleting.answers_iff.mp (hnext.rightful _ hdelivered frame rfl) kind hkind
    · intro hright
      refine ⟨honce, ?_⟩
      show ∀ d ∈ (dispatchFrame fromStr codes onChanged s text).delivered, d.Rightful
      rcases (dispatchFrame_effect text).unchanged_or_delivered with hsame | hdelivered
      · rw [hsame.2]
        exact h.rightful
      · obtain ⟨frame, w, outcome, htext, hw, hcompleting, hnext⟩ := hdelivered
        rw [hnext]
        intro d hd
        rcases List.mem_append.mp hd with hold | hnew
        · exact h.rightful d hold
        · rw [List.mem_singleton.mp hnew]
          refine rightful_of_answers (hcompleting.answers_iff.mpr ?_) outcome
          exact hright frame htext hcompleting.version w hw hcompleting.requestId

theorem undisturbed_of_rightKind (e : Event) (h : RightKind fromStr s e) :
    Undisturbed fromStr codes onChanged s e := by
  cases e with
  | dispatchFrame text =>
    intro hnone
    rcases (dispatchFrame_effect text).unchanged_or_delivered with hsame | hdelivered
    · exact hsame
    · obtain ⟨frame, w, outcome, htext, hw, hcompleting, -⟩ := hdelivered
      refine absurd (hcompleting.answers_iff.mpr ?_) (hnone frame htext w hw)
      exact h frame htext hcompleting.version w hw hcompleting.requestId
  | register requestId kind => trivial
  | forget requestId => trivial
  | failAll failure => trivial

/-- Requests and frames correlate along a run, and the frames that answer nothing disturb nothing,
exactly when no result of one kind is dispatched under the id of a request of another. -/
theorem frames_correlate_iff (fromStr : String → Option Json) (codes : FrameCodes)
    (onChanged : Bool) (events : List Event) :
    (Transition.StatesMeet (step fromStr codes onChanged) Correlates .start events ∧
        Transition.StepsMeet (step fromStr codes onChanged) (Undisturbed fromStr codes onChanged)
          .start events) ↔
      Transition.StepsMeet (step fromStr codes onChanged) (RightKind fromStr) .start events := by
  have hiff : Transition.StatesMeet (step fromStr codes onChanged) Correlates .start events ↔
      Transition.StepsMeet (step fromStr codes onChanged) (RightKind fromStr) .start events :=
    Transition.statesMeet_iff_stepsMeet (I := Tickets) (fun s e hI => hI.step e)
      (fun s e hI h => h.step_iff hI e) Tickets.start
      ⟨List.nodup_nil, fun _ hd => absurd hd List.not_mem_nil⟩ events
  rw [hiff]
  exact and_iff_left_of_imp fun h => h.imp fun s e => undisturbed_of_rightKind e

def pullResultFrame : Frame :=
  [("requestId", .string "r-1"), ("type", .string "pull-result"), ("v", .number (.int 1))]

def pullResultText : String :=
  "\x7b\"requestId\":\"r-1\",\"type\":\"pull-result\",\"v\":1\x7d"

/-- A pull result under the id of a push is handed to the push as its outcome. -/
theorem pullResult_answers_push :
    ¬ Transition.StatesMeet
      (step (fun text => if text = pullResultText then some (.object pullResultFrame) else none)
        ⟨"WS_ERROR"⟩ false)
      Correlates .start [.register "r-1" .push, .dispatchFrame pullResultText] := by
  intro h
  have hright := (h.2.1.step_iff (Tickets.start.step _) _).mp h.2.2
  exact absurd (hright _ rfl (by decide) _ (List.mem_singleton_self _) rfl .pull rfl) (by decide)

end OptoSync.Transport
