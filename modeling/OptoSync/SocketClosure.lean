import OptoSync.SocketTransport

/-!
# Closure and disposal of the socket transports

A request that waits is in the table of a link whose reader is yet to fail it, and once `dispose` has
returned nothing is dialed: over every interleaving in which no request takes the slot too late and no
frame is sent on a link whose reader is through.
-/
namespace OptoSync.Transport
open Transition

/-- The reader has not failed the requests of its link yet. -/
def Reader.Lives : Reader → Prop
  | .running | .closing _ => True
  | .failed | .gone => False

/-- The sink takes the frame. -/
def Takes (sink : Sink) (link : SocketLink) (result : Except String Unit) : Prop :=
  match sink with
  | .tcp => result = .ok () ∧ link.closed = false
  | .ws => link.reader ≠ .gone

/-- No request takes the slot once `dispose` has returned, `dispose` finds the slot still empty when it
returns, and no frame is taken on a link whose reader has failed all its requests but this one. -/
def Timely (sink : Sink) (core : Core) : CoreAction → Prop
  | .takeSlot thread => ∀ kind, core.phase thread = .slot kind → core.holder = none →
      core.returned = false
  | .send thread result => ∀ receiver, core.phase thread = .registered receiver →
      Takes sink (core.links receiver.link) result →
        (core.links receiver.link).outcome receiver = none → (core.links receiver.link).reader.Lives
  | .proceed thread => core.phase thread = .emptied none ∨ (∃ link, core.phase thread = .drained link) →
      core.connection = none ∧ core.holder = none
  | _ => True

/-- The request waits in the table, or its outcome was sent. -/
def Kept (table : System) (waiter : Waiter) : Prop :=
  waiter ∈ table.pending.waiters ∨ ∃ delivery ∈ table.delivered, delivery.ticket = waiter.ticket

namespace Kept
variable {table : System} {waiter : Waiter}

theorem forget (h : Kept table waiter) {requestId : String} (hne : waiter.requestId ≠ requestId) :
    Kept (table.forget requestId) waiter := by
  rcases h with hwaits | hdelivered
  · exact .inl (PendingMap.mem_forget.mpr ⟨hwaits, hne⟩)
  · exact .inr hdelivered

theorem register (h : Kept table waiter) {requestId : String} (hne : waiter.requestId ≠ requestId)
    (kind : RequestKind) : Kept (table.register requestId kind) waiter := by
  rcases h with hwaits | hdelivered
  · exact .inl (List.mem_append_left _ (PendingMap.mem_forget.mpr ⟨hwaits, hne⟩))
  · exact .inr hdelivered

theorem registered (table : System) (requestId : String) (kind : RequestKind) :
    Kept (table.register requestId kind) ⟨requestId, kind, table.nextTicket⟩ :=
  .inl (List.mem_append_right _ (List.mem_singleton_self _))

theorem failAll (h : Kept table waiter) (failure : SyncTransportFailure) :
    ∃ delivery ∈ (table.failAll failure).delivered, delivery.ticket = waiter.ticket := by
  rcases h with hwaits | hdelivered
  · exact ⟨_, List.mem_append_right _ (List.mem_map_of_mem hwaits), rfl⟩
  · obtain ⟨delivery, hmem, hticket⟩ := hdelivered
    exact ⟨delivery, List.mem_append_left _ hmem, hticket⟩

theorem dispatch (h : Kept table waiter) {fromStr : String → Option Json} {codes : FrameCodes}
    {onChanged : Bool} (text : String) :
    Kept (dispatchFrame fromStr codes onChanged table text) waiter := by
  have heffect := @dispatchFrame_effect fromStr codes onChanged table text
  rcases heffect.unchanged_or_delivered with ⟨hpending, hdelivered⟩ | ⟨frame, other, outcome, -, hother,
    -, hnext⟩
  · rw [Kept, hpending, hdelivered]
    exact h
  · rw [hnext]
    rcases h with hwaits | hdelivered
    · by_cases hsame : waiter.requestId = other.requestId
      · have heq : waiter = other := by
          have hfind := PendingMap.find_of_mem hwaits
          rw [hsame, PendingMap.find_of_mem hother] at hfind
          exact (Option.some.inj hfind).symm
        exact .inr ⟨_, List.mem_append_right _ (List.mem_singleton_self _), by rw [heq]; rfl⟩
      · exact .inl (PendingMap.mem_forget.mpr ⟨hwaits, hsame⟩)
    · obtain ⟨delivery, hmem, hticket⟩ := hdelivered
      exact .inr ⟨delivery, List.mem_append_left _ hmem, hticket⟩

end Kept

theorem outcome_eq_none {link : SocketLink} {receiver : Receiver} :
    link.outcome receiver = none ↔
      ∀ delivery ∈ link.table.delivered, delivery.ticket ≠ receiver.ticket := by
  simp [SocketLink.outcome]

/-- The receiver of a request that may still forget it. -/
def Phase.receiver : Phase → Option Receiver
  | .registered receiver | .broken receiver _ | .marked receiver _ | .shut receiver _
  | .unsent receiver _ | .receiving receiver | .expired receiver => some receiver
  | _ => none

/-- The receiver of a request that has not failed of itself. -/
def Phase.awaited : Phase → Option Receiver
  | .registered receiver | .receiving receiver => some receiver
  | _ => none

theorem Phase.receiver_of_awaited {phase : Phase} {receiver : Receiver}
    (h : phase.awaited = some receiver) : phase.receiver = some receiver := by
  cases phase <;> first | exact h | cases h

structure CoreInv (seed : String) (core : Core) : Prop where
  dialer : ∀ thread kind, core.phase thread = .dialing kind → core.holder = some thread
  numbered : ∀ thread receiver, (core.phase thread).receiver = some receiver →
    receiver.number ≤ core.nextId
  distinct : ∀ a b receiver other, (core.phase a).receiver = some receiver →
    (core.phase b).receiver = some other → receiver.number = other.number → a = b
  kept : ∀ thread receiver, (core.phase thread).awaited = some receiver →
    Kept (core.links receiver.link).table (receiver.waiter seed)

namespace CoreInv
variable {seed : String} {core later : Core}

theorem start : CoreInv seed .start where
  dialer _ _ h := by cases h
  numbered _ _ h := by cases h
  distinct _ _ _ _ h := by cases h
  kept _ _ h := by cases h

/-- One thread goes on, to a phase with the receiver it had or with none. -/
theorem moved (h : CoreInv seed core) {thread : ℕ} {phase : Phase}
    (hphase : later.phase = Function.update core.phase thread phase)
    (hlinks : later.links = core.links) (hnextId : later.nextId = core.nextId)
    (hdialer : ∀ other kind, later.phase other = .dialing kind → later.holder = some other)
    (hreceiver : phase.receiver = none ∨ phase.receiver = (core.phase thread).receiver)
    (hawaited : phase.awaited = none ∨ phase.awaited = (core.phase thread).awaited) :
    CoreInv seed later := by
  have happly : ∀ other, later.phase other = if other = thread then phase else core.phase other := by
    intro other
    rw [hphase, Function.update_apply]
  have hold : ∀ other receiver, (later.phase other).receiver = some receiver →
      (core.phase other).receiver = some receiver := by
    intro other receiver hother
    rw [happly] at hother
    split at hother
    · next heq =>
      rw [heq]
      rcases hreceiver with hnone | hsame
      · rw [hnone] at hother
        cases hother
      · exact hsame ▸ hother
    · exact hother
  refine ⟨hdialer, ?_, ?_, ?_⟩
  · intro other receiver hother
    rw [hnextId]
    exact h.numbered other receiver (hold other receiver hother)
  · intro a b receiver other ha hb
    exact h.distinct a b receiver other (hold a receiver ha) (hold b other hb)
  · intro other receiver hother
    rw [hlinks]
    rw [happly] at hother
    split at hother
    · next heq =>
      rcases hawaited with hnone | hsame
      · rw [hnone] at hother
        cases hother
      · exact h.kept thread receiver (hsame ▸ hother)
    · exact h.kept other receiver hother

theorem setPhase (h : CoreInv seed core) (thread : ℕ) {phase : Phase}
    (hdialing : ∀ kind, phase ≠ .dialing kind)
    (hreceiver : phase.receiver = none ∨ phase.receiver = (core.phase thread).receiver)
    (hawaited : phase.awaited = none ∨ phase.awaited = (core.phase thread).awaited) :
    CoreInv seed (core.setPhase thread phase) := by
  refine h.moved rfl rfl rfl ?_ hreceiver hawaited
  intro other kind hother
  have hother : Function.update core.phase thread phase other = .dialing kind := hother
  rw [Function.update_apply] at hother
  split at hother
  · exact absurd hother (hdialing kind)
  · exact h.dialer other kind hother

/-- A link changes, and its table keeps the requests of all threads. -/
theorem setLink (h : CoreInv seed core) (link : ℕ) {value : SocketLink}
    (hkept : ∀ thread receiver, (core.phase thread).awaited = some receiver → receiver.link = link →
      Kept (core.links link).table (receiver.waiter seed) → Kept value.table (receiver.waiter seed)) :
    CoreInv seed (core.setLink link value) := by
  refine ⟨h.dialer, h.numbered, h.distinct, ?_⟩
  intro thread receiver hawaited
  have hold := h.kept thread receiver hawaited
  show Kept (Function.update core.links link value receiver.link).table (receiver.waiter seed)
  rw [Function.update_apply]
  split
  · next heq =>
    rw [heq] at hold
    exact hkept thread receiver hawaited heq hold
  · exact hold

/-- Neither the threads nor the links change. -/
theorem same (h : CoreInv seed core) (hphase : later.phase = core.phase)
    (hlinks : later.links = core.links) (hholder : later.holder = core.holder)
    (hnextId : later.nextId = core.nextId) : CoreInv seed later := by
  obtain ⟨hdialer, hnumbered, hdistinct, hkept⟩ := h
  refine ⟨?_, ?_, ?_, ?_⟩
  · rw [hphase, hholder]
    exact hdialer
  · rw [hphase, hnextId]
    exact hnumbered
  · rw [hphase]
    exact hdistinct
  · rw [hphase, hlinks]
    exact hkept

theorem request (h : CoreInv seed core) (codes : SocketCodes) (thread : ℕ) (kind : RequestKind) :
    CoreInv seed (core.request codes thread kind) := by
  rw [Core.request]
  split
  · split <;> exact h.setPhase thread (fun _ => Phase.noConfusion) (.inl rfl) (.inl rfl)
  · split <;> exact h.setPhase thread (fun _ => Phase.noConfusion) (.inl rfl) (.inl rfl)
  · exact h

theorem takeSlot (h : CoreInv seed core) (thread : ℕ) : CoreInv seed (core.takeSlot thread) := by
  rw [Core.takeSlot]
  split
  · next kind hphase hholder =>
    split
    · exact h.setPhase thread (fun _ => Phase.noConfusion) (.inl rfl) (.inl rfl)
    · refine h.moved rfl rfl rfl ?_ (.inl rfl) (.inl rfl)
      intro other otherKind hother
      have hother : Function.update core.phase thread (.dialing kind) other = .dialing otherKind := hother
      rw [Function.update_apply] at hother
      split at hother
      · next heq => rw [heq]
      · have hbusy := h.dialer other otherKind hother
        rw [hholder] at hbusy
        cases hbusy
  · exact h

/-- The one thread that dials gives the slot back. -/
theorem release (h : CoreInv seed core) {thread : ℕ} {kind : RequestKind} {phase : Phase}
    (hdialing : core.phase thread = .dialing kind)
    (hphase : later.phase = Function.update core.phase thread phase)
    (hlinks : later.links = core.links) (hnextId : later.nextId = core.nextId)
    (hnot : ∀ kind, phase ≠ .dialing kind) (hreceiver : phase.receiver = none)
    (hawaited : phase.awaited = none) : CoreInv seed later := by
  refine h.moved hphase hlinks hnextId ?_ (.inl hreceiver) (.inl hawaited)
  intro other otherKind hother
  rw [hphase, Function.update_apply] at hother
  split at hother
  · exact absurd hother (hnot otherKind)
  · next hne =>
    have hbusy := h.dialer other otherKind hother
    rw [h.dialer thread kind hdialing] at hbusy
    exact absurd (Option.some.inj hbusy).symm hne

theorem onDialed (h : CoreInv seed core) (thread : ℕ) (result : Except SyncTransportFailure Unit) :
    CoreInv seed (core.onDialed thread result) := by
  rw [Core.onDialed]
  split
  · next kind hdialing =>
    cases result with
    | error failure => exact h.release hdialing rfl rfl rfl (fun _ => Phase.noConfusion) rfl rfl
    | ok _ => exact h.release hdialing rfl rfl rfl (fun _ => Phase.noConfusion) rfl rfl
  · exact h

theorem allocate_injective {a b : ℕ} (h : allocate seed a = allocate seed b) : a = b := by
  have hlist := congrArg String.toList h
  simp only [allocate, String.toList_append] at hlist
  exact Nat.repr_injective (String.toList_injective (List.append_cancel_left hlist))

theorem register (h : CoreInv seed core) (thread : ℕ) : CoreInv seed (core.register seed thread) := by
  rw [Core.register]
  split
  · next kind link _ =>
    let receiver : Receiver := ⟨link, core.nextId + 1, kind, (core.links link).table.nextTicket⟩
    have hphase : ∀ other, Function.update core.phase thread (.registered receiver) other =
        if other = thread then .registered receiver else core.phase other :=
      Function.update_apply core.phase thread _
    have hcases : ∀ other held,
        (Function.update core.phase thread (.registered receiver) other).receiver = some held →
          other = thread ∧ held = receiver ∨ (core.phase other).receiver = some held := by
      intro other held hother
      rw [hphase] at hother
      split at hother
      · next heq => exact .inl ⟨heq, (Option.some.inj hother).symm⟩
      · exact .inr hother
    refine ⟨?_, ?_, ?_, ?_⟩
    · intro other otherKind hother
      have hother := (hphase other).symm.trans hother
      split at hother
      · cases hother
      · exact h.dialer other otherKind hother
    · intro other held hother
      show held.number ≤ core.nextId + 1
      rcases hcases other held hother with ⟨-, rfl⟩ | hold
      · exact le_rfl
      · exact (h.numbered other held hold).trans (Nat.le_succ _)
    · intro a b held other ha hb hnumber
      rcases hcases a held ha with ⟨haeq, rfl⟩ | haold <;>
        rcases hcases b other hb with ⟨hbeq, rfl⟩ | hbold
      · rw [haeq, hbeq]
      · have hle := h.numbered b other hbold
        have hnew : core.nextId + 1 = other.number := hnumber
        omega
      · have hle := h.numbered a held haold
        have hnew : held.number = core.nextId + 1 := hnumber
        omega
      · exact h.distinct a b held other haold hbold hnumber
    · intro other held hother
      show Kept (Function.update core.links link _ held.link).table (held.waiter seed)
      have hother := (congrArg Phase.awaited (hphase other)).symm.trans hother
      split at hother
      · cases hother
        rw [Function.update_self]
        exact Kept.registered _ _ _
      · have hold := h.kept other held hother
        rw [Function.update_apply]
        split
        · next hlink =>
          rw [hlink] at hold
          refine hold.register (fun hsame => ?_) kind
          have hle := h.numbered other held (Phase.receiver_of_awaited hother)
          have hnew : held.number = core.nextId + 1 := allocate_injective hsame
          omega
        · exact hold
  · exact h

theorem send (h : CoreInv seed core) (sink : Sink) (thread : ℕ) (result : Except String Unit) :
    CoreInv seed (core.send sink thread result) := by
  rw [Core.send]
  split
  · next receiver hphase =>
    have hbroken : ∀ reason, CoreInv seed (core.setPhase thread (.broken receiver reason)) := by
      intro reason
      exact h.setPhase thread (fun _ => Phase.noConfusion) (.inr (by rw [hphase]; rfl)) (.inl rfl)
    have hunsent : ∀ reason, CoreInv seed (core.setPhase thread (.unsent receiver reason)) := by
      intro reason
      exact h.setPhase thread (fun _ => Phase.noConfusion) (.inr (by rw [hphase]; rfl)) (.inl rfl)
    have hreceiving : CoreInv seed (core.setPhase thread (.receiving receiver)) :=
      h.setPhase thread (fun _ => Phase.noConfusion) (.inr (by rw [hphase]; rfl))
        (.inr (by rw [hphase]; rfl))
    cases sink with
    | tcp =>
      cases result with
      | error reason => exact hbroken reason
      | ok _ =>
        simp only
        split
        · exact h
        · exact hreceiving
    | ws =>
      simp only
      split
      · exact hunsent _
      · exact hreceiving
  · exact h

theorem receive (h : CoreInv seed core) (thread : ℕ) : CoreInv seed (core.receive thread) := by
  rw [Core.receive]
  split
  · split
    · exact h.setPhase thread (fun _ => Phase.noConfusion) (.inl rfl) (.inl rfl)
    · exact h.setPhase thread (fun _ => Phase.noConfusion) (.inl rfl) (.inl rfl)
    · exact h
  · exact h

theorem expire (h : CoreInv seed core) (thread : ℕ) : CoreInv seed (core.expire thread) := by
  rw [Core.expire]
  split
  · next receiver hphase =>
    split
    · exact h.setPhase thread (fun _ => Phase.noConfusion) (.inr (by rw [hphase]; rfl)) (.inl rfl)
    · exact h
  · exact h

theorem dispose (h : CoreInv seed core) (thread : ℕ) : CoreInv seed (core.dispose thread) := by
  rw [Core.dispose]
  split
  · exact (h.setPhase thread (fun _ => Phase.noConfusion) (.inl rfl) (.inl rfl)).same rfl rfl rfl rfl
  · exact (h.setPhase thread (fun _ => Phase.noConfusion) (.inl rfl) (.inl rfl)).same rfl rfl rfl rfl
  · exact h

theorem takeLink (h : CoreInv seed core) (thread : ℕ) : CoreInv seed (core.takeLink thread) := by
  rw [Core.takeLink]
  split
  · exact (h.setPhase thread (fun _ => Phase.noConfusion) (.inl rfl) (.inl rfl)).same rfl rfl rfl rfl
  · exact h

theorem mark (h : CoreInv seed core) (link : ℕ) : CoreInv seed (core.mark link) :=
  h.setLink link fun _ _ _ _ hkept => hkept

theorem close (h : CoreInv seed core) (link : ℕ) : CoreInv seed (core.close link) :=
  h.setLink link fun _ _ _ _ hkept => hkept

theorem drain (h : CoreInv seed core) (link : ℕ) (failure : SyncTransportFailure) :
    CoreInv seed (core.drain link failure) :=
  h.setLink link fun _ _ _ _ hkept => .inr (hkept.failAll failure)

/-- A thread forgets its own request only. -/
theorem forget (h : CoreInv seed core) {thread : ℕ} {receiver : Receiver}
    (hreceiver : (core.phase thread).receiver = some receiver)
    (hawaited : (core.phase thread).awaited = none) : CoreInv seed (core.forget seed receiver) := by
  refine h.setLink receiver.link fun other otherReceiver hother _ hkept => hkept.forget ?_
  intro hsame
  have hthread := h.distinct other thread otherReceiver receiver
    (Phase.receiver_of_awaited hother) hreceiver (allocate_injective hsame)
  rw [hthread, hawaited] at hother
  cases hother

theorem proceed (h : CoreInv seed core) (codes : SocketCodes) (thread : ℕ) :
    CoreInv seed (core.proceed codes seed thread) := by
  rw [Core.proceed]
  split
  · next receiver reason hphase =>
    exact (h.mark _).setPhase thread (fun _ => Phase.noConfusion) (.inr (congrArg Phase.receiver hphase).symm)
      (.inl rfl)
  · next receiver reason hphase =>
    exact (h.close _).setPhase thread (fun _ => Phase.noConfusion) (.inr (congrArg Phase.receiver hphase).symm)
      (.inl rfl)
  · next receiver reason hphase =>
    exact (h.drain _ _).setPhase thread (fun _ => Phase.noConfusion) (.inr (congrArg Phase.receiver hphase).symm)
      (.inl rfl)
  · next receiver reason hphase =>
    have hforgot : CoreInv seed (core.forget seed receiver) :=
      h.forget (congrArg Phase.receiver hphase) (congrArg Phase.awaited hphase)
    exact hforgot.setPhase thread (fun _ => Phase.noConfusion) (.inl rfl) (.inl rfl)
  · next receiver hphase =>
    have hforgot : CoreInv seed (core.forget seed receiver) :=
      h.forget (congrArg Phase.receiver hphase) (congrArg Phase.awaited hphase)
    exact hforgot.setPhase thread (fun _ => Phase.noConfusion) (.inl rfl) (.inl rfl)
  · exact (h.setPhase thread (fun _ => Phase.noConfusion) (.inl rfl) (.inl rfl)).same rfl rfl rfl rfl
  · exact (h.mark _).setPhase thread (fun _ => Phase.noConfusion) (.inl rfl) (.inl rfl)
  · exact (h.drain _ _).setPhase thread (fun _ => Phase.noConfusion) (.inl rfl) (.inl rfl)
  · exact ((h.close _).setPhase thread (fun _ => Phase.noConfusion) (.inl rfl) (.inl rfl)).same
      rfl rfl rfl rfl
  · exact h

theorem next (h : CoreInv seed core) (sink : Sink) (codes : SocketCodes)
    (fromStr : String → Option Json) (onChanged : Bool) (action : CoreAction) :
    CoreInv seed (core.next sink codes seed fromStr onChanged action) := by
  cases action with
  | request thread kind => exact h.request codes thread kind
  | takeSlot thread => exact h.takeSlot thread
  | dialed thread result => exact h.onDialed thread result
  | register thread => exact h.register thread
  | send thread result => exact h.send sink thread result
  | receive thread => exact h.receive thread
  | expire thread => exact h.expire thread
  | dispose thread => exact h.dispose thread
  | takeLink thread => exact h.takeLink thread
  | proceed thread => exact h.proceed codes thread
  | frame link text =>
    simp only [Core.next, Core.frame]
    split
    · split
      · exact h.setLink link fun _ _ _ _ hkept => hkept.dispatch text
      · exact h
    · exact h
  | stop link message =>
    simp only [Core.next, Core.stop]
    split
    · split
      · exact h.setLink link fun _ _ _ _ hkept => hkept
      · exact h
    · exact h
  | failAll link =>
    simp only [Core.next, Core.failAll]
    split
    · split
      · exact h.setLink link fun _ _ _ _ hkept => .inr (hkept.failAll _)
      · exact h
    · exact h
  | drop link =>
    simp only [Core.next, Core.drop]
    split
    · split
      · exact h.setLink link fun _ _ _ _ hkept => hkept
      · exact h
    · exact h

end CoreInv
/-- What is clean beyond what every interleaving keeps. -/
structure Watched (core : Core) : Prop where
  disposed : core.returned = true → core.connection = none ∧ core.holder = none
  lives : ∀ thread receiver, core.phase thread = .receiving receiver →
    (core.links receiver.link).outcome receiver = none → (core.links receiver.link).reader.Lives

/-- What was delivered stays delivered. -/
theorem outcome_mono {link value : SocketLink} {receiver : Receiver}
    (hsub : link.table.delivered ⊆ value.table.delivered) (h : value.outcome receiver = none) :
    link.outcome receiver = none :=
  outcome_eq_none.mpr fun delivery hmem => outcome_eq_none.mp h delivery (hsub hmem)

theorem delivered_subset {table : System} {fromStr : String → Option Json} {codes : FrameCodes}
    {onChanged : Bool} (text : String) :
    table.delivered ⊆ (dispatchFrame fromStr codes onChanged table text).delivered := by
  have heffect := @dispatchFrame_effect fromStr codes onChanged table text
  rcases heffect.unchanged_or_delivered with ⟨-, hdelivered⟩ | ⟨frame, waiter, outcome, -, -, -, hnext⟩
  · rw [hdelivered]
    exact List.Subset.refl _
  · rw [hnext]
    exact List.subset_append_left _ _

namespace Watched
variable {seed : String} {core later : Core}

/-- One thread goes on, and not to wait for its outcome. -/
theorem moved (h : Watched core) {thread : ℕ} {phase : Phase}
    (hphase : later.phase = Function.update core.phase thread phase)
    (hnot : ∀ receiver, phase ≠ .receiving receiver) (hlinks : later.links = core.links)
    (hdisposed : later.returned = true → later.connection = none ∧ later.holder = none) :
    Watched later := by
  refine ⟨hdisposed, fun other receiver hother houtcome => ?_⟩
  rw [hphase, Function.update_apply] at hother
  rw [hlinks] at houtcome ⊢
  split at hother
  · exact absurd hother (hnot receiver)
  · exact h.lives other receiver hother houtcome

theorem setPhase (h : Watched core) (thread : ℕ) {phase : Phase}
    (hnot : ∀ receiver, phase ≠ .receiving receiver) : Watched (core.setPhase thread phase) :=
  h.moved rfl hnot rfl h.disposed

/-- A link changes, and its reader lives on for those who wait. -/
theorem setLink (h : Watched core) (link : ℕ) {value : SocketLink}
    (hvalue : ∀ thread receiver, core.phase thread = .receiving receiver → receiver.link = link →
      value.outcome receiver = none → (core.links link).outcome receiver = none ∧
        ((core.links link).reader.Lives → value.reader.Lives)) :
    Watched (core.setLink link value) := by
  refine ⟨h.disposed, fun thread receiver hphase houtcome => ?_⟩
  have hcases : (core.setLink link value).links receiver.link =
      if receiver.link = link then value else core.links receiver.link :=
    Function.update_apply core.links link value receiver.link
  rw [hcases] at houtcome ⊢
  split at houtcome
  · next heq =>
    rw [if_pos heq]
    obtain ⟨hold, hlives⟩ := hvalue thread receiver hphase heq houtcome
    rw [← heq] at hold hlives
    exact hlives (h.lives thread receiver hphase hold)
  · next hne =>
    rw [if_neg hne]
    exact h.lives thread receiver hphase houtcome

/-- The reader of the link is as it was, and what was delivered stays delivered. -/
theorem touch (h : Watched core) (link : ℕ) {value : SocketLink}
    (hsub : (core.links link).table.delivered ⊆ value.table.delivered)
    (hreader : (core.links link).reader.Lives → value.reader.Lives) :
    Watched (core.setLink link value) :=
  h.setLink link fun _ _ _ _ houtcome => ⟨outcome_mono hsub houtcome, hreader⟩

theorem mark (h : Watched core) (link : ℕ) : Watched (core.mark link) :=
  h.touch link (List.Subset.refl _) id

theorem close (h : Watched core) (link : ℕ) : Watched (core.close link) :=
  h.touch link (List.Subset.refl _) id

theorem drain (h : Watched core) (link : ℕ) (failure : SyncTransportFailure) :
    Watched (core.drain link failure) :=
  h.touch link (List.subset_append_left _ _) id

theorem forget (h : Watched core) (receiver : Receiver) : Watched (core.forget seed receiver) :=
  h.touch receiver.link (List.Subset.refl _) id

theorem takeSlot_iff (h : Watched core) (sink : Sink) (thread : ℕ) :
    Watched (core.takeSlot thread) ↔ Timely sink core (.takeSlot thread) := by
  constructor
  · intro hnext kind hphase hholder
    by_contra hreturned
    rw [Bool.not_eq_false] at hreturned
    obtain ⟨hconnection, -⟩ := h.disposed hreturned
    have hdials : core.takeSlot thread =
        { core.setPhase thread (.dialing kind) with connection := none, holder := some thread } := by
      simp only [Core.takeSlot, hphase, hholder, hconnection]
      rfl
    rw [hdials] at hnext
    cases (hnext.disposed hreturned).2
  · intro htimely
    rw [Core.takeSlot]
    split
    · next kind hphase hholder =>
      have hreturned : core.returned = false := htimely kind hphase hholder
      split
      · exact h.setPhase thread fun _ => Phase.noConfusion
      · refine h.moved rfl (fun _ => Phase.noConfusion) rfl fun hdone => ?_
        exact absurd (hreturned.symm.trans hdone) Bool.false_ne_true
    · exact h

theorem onDialed (h : Watched core) (hinv : CoreInv seed core) (thread : ℕ)
    (result : Except SyncTransportFailure Unit) : Watched (core.onDialed thread result) := by
  rw [Core.onDialed]
  split
  · next kind hdialing =>
    have hopen : core.returned = false := by
      by_contra hreturned
      obtain ⟨-, hholder⟩ := h.disposed (Bool.not_eq_false _ ▸ hreturned)
      rw [hinv.dialer thread kind hdialing] at hholder
      cases hholder
    cases result with
    | error failure =>
      refine h.moved rfl (fun _ => Phase.noConfusion) rfl fun hdone => ?_
      exact absurd (hopen.symm.trans hdone) Bool.false_ne_true
    | ok _ =>
      refine h.moved rfl (fun _ => Phase.noConfusion) rfl fun hdone => ?_
      exact absurd (hopen.symm.trans hdone) Bool.false_ne_true
  · exact h

theorem register (h : Watched core) (thread : ℕ) : Watched (core.register seed thread) := by
  rw [Core.register]
  split
  · next kind link _ =>
    have htouched : Watched (core.setLink link { core.links link with
        table := (core.links link).table.register (allocate seed (core.nextId + 1)) kind }) :=
      h.touch link (List.Subset.refl _) id
    exact htouched.moved rfl (fun _ => Phase.noConfusion) rfl h.disposed
  · exact h

theorem returns (h : Watched core) (thread : ℕ) :
    Watched (core.returns thread) ↔ core.connection = none ∧ core.holder = none := by
  constructor
  · intro hnext
    exact hnext.disposed rfl
  · intro hidle
    exact h.moved rfl (fun _ => Phase.noConfusion) rfl fun _ => hidle

theorem proceed_iff (h : Watched core) (sink : Sink) (codes : SocketCodes) (thread : ℕ) :
    Watched (core.proceed codes seed thread) ↔ Timely sink core (.proceed thread) := by
  rw [Core.proceed, Timely]
  split
  · next receiver reason hphase =>
    exact iff_of_true ((h.mark _).setPhase thread fun _ => Phase.noConfusion) (by simp [hphase])
  · next receiver reason hphase =>
    exact iff_of_true ((h.close _).setPhase thread fun _ => Phase.noConfusion) (by simp [hphase])
  · next receiver reason hphase =>
    exact iff_of_true ((h.drain _ _).setPhase thread fun _ => Phase.noConfusion) (by simp [hphase])
  · next receiver reason hphase =>
    exact iff_of_true ((h.forget receiver).setPhase thread fun _ => Phase.noConfusion)
      (by simp [hphase])
  · next receiver hphase =>
    exact iff_of_true ((h.forget receiver).setPhase thread fun _ => Phase.noConfusion)
      (by simp [hphase])
  · next hphase => simpa [hphase] using h.returns thread
  · next link hphase =>
    exact iff_of_true ((h.mark _).setPhase thread fun _ => Phase.noConfusion) (by simp [hphase])
  · next link hphase =>
    exact iff_of_true ((h.drain _ _).setPhase thread fun _ => Phase.noConfusion) (by simp [hphase])
  · next link hphase =>
    have hreturns : Watched ((core.close link).returns thread) ↔
        core.connection = none ∧ core.holder = none := (h.close link).returns thread
    simpa [hphase] using hreturns
  · next hemptied _ _ hdrained =>
    refine iff_of_true h fun hreturns => ?_
    rcases hreturns with hreturns | ⟨link, hreturns⟩
    · exact absurd hreturns hemptied
    · exact absurd hreturns (hdrained link)

/-- A thread starts to wait for its outcome. -/
theorem waits_iff (h : Watched core) (thread : ℕ) (receiver : Receiver) :
    Watched (core.setPhase thread (.receiving receiver)) ↔
      ((core.links receiver.link).outcome receiver = none →
        (core.links receiver.link).reader.Lives) := by
  have hphase : ∀ other, (core.setPhase thread (.receiving receiver)).phase other =
      if other = thread then .receiving receiver else core.phase other :=
    Function.update_apply core.phase thread _
  constructor
  · intro hnext
    exact hnext.lives thread receiver ((hphase thread).trans (if_pos rfl))
  · intro hlives
    refine ⟨h.disposed, fun other held hother => ?_⟩
    rw [hphase] at hother
    split at hother
    · cases hother
      exact hlives
    · exact h.lives other held hother

theorem send_iff (h : Watched core) (sink : Sink) (thread : ℕ) (result : Except String Unit) :
    Watched (core.send sink thread result) ↔ Timely sink core (.send thread result) := by
  rw [Core.send, Timely]
  split
  · next receiver hphase =>
    have htimely : ∀ P : Receiver → Prop,
        (∀ held, core.phase thread = .registered held → P held) ↔ P receiver := by
      intro P
      rw [hphase]
      constructor
      · intro hall
        exact hall receiver rfl
      · intro hthis held hheld
        cases hheld
        exact hthis
    rw [htimely fun held => Takes sink (core.links held.link) result →
      (core.links held.link).outcome held = none → (core.links held.link).reader.Lives]
    cases sink with
    | tcp =>
      cases result with
      | error reason =>
        refine iff_of_true (h.setPhase thread fun _ => Phase.noConfusion) fun htakes => ?_
        cases htakes.1
      | ok _ =>
        simp only
        split
        · next hclosed =>
          refine iff_of_true h fun htakes => ?_
          exact absurd (htakes.2.symm.trans hclosed) Bool.false_ne_true
        · next hopen =>
          rw [h.waits_iff thread receiver]
          have htakes : Takes .tcp (core.links receiver.link) (.ok ()) :=
            ⟨rfl, Bool.eq_false_iff.mpr hopen⟩
          exact ⟨fun hlives _ => hlives, fun hlives => hlives htakes⟩
    | ws =>
      simp only
      split
      · next hgone =>
        exact iff_of_true (h.setPhase thread fun _ => Phase.noConfusion) fun htakes =>
          absurd hgone htakes
      · next hqueue =>
        rw [h.waits_iff thread receiver]
        exact ⟨fun hlives _ => hlives, fun hlives => hlives hqueue⟩
  · next hnot => exact iff_of_true h fun receiver hphase => absurd hphase (hnot receiver)

/-- The requests that wait have their outcome once the reader is through. -/
theorem failAll (h : Watched core) (hinv : CoreInv seed core) (codes : SocketCodes) (link : ℕ) :
    Watched (core.failAll codes link) := by
  rw [Core.failAll]
  split
  · refine h.setLink link fun thread receiver hphase hlink houtcome => ?_
    have hkept := hinv.kept thread receiver (congrArg Phase.awaited hphase)
    rw [hlink] at hkept
    obtain ⟨delivery, hmem, hticket⟩ := hkept.failAll (.retryable codes.closed _)
    exact absurd hticket (outcome_eq_none.mp houtcome delivery hmem)
  · exact h

theorem next_iff (h : Watched core) (hinv : CoreInv seed core) (sink : Sink) (codes : SocketCodes)
    (fromStr : String → Option Json) (onChanged : Bool) (action : CoreAction) :
    Watched (core.next sink codes seed fromStr onChanged action) ↔ Timely sink core action := by
  cases action with
  | request thread kind =>
    refine iff_of_true ?_ trivial
    show Watched (core.request codes thread kind)
    rw [Core.request]
    split
    · split <;> exact h.setPhase thread fun _ => Phase.noConfusion
    · split <;> exact h.setPhase thread fun _ => Phase.noConfusion
    · exact h
  | takeSlot thread => exact h.takeSlot_iff sink thread
  | dialed thread result => exact iff_of_true (h.onDialed hinv thread result) trivial
  | register thread => exact iff_of_true (h.register thread) trivial
  | send thread result => exact h.send_iff sink thread result
  | receive thread =>
    refine iff_of_true ?_ trivial
    show Watched (core.receive thread)
    rw [Core.receive]
    split
    · split
      · exact h.setPhase thread fun _ => Phase.noConfusion
      · exact h.setPhase thread fun _ => Phase.noConfusion
      · exact h
    · exact h
  | expire thread =>
    refine iff_of_true ?_ trivial
    show Watched (core.expire thread)
    rw [Core.expire]
    split
    · split
      · exact h.setPhase thread fun _ => Phase.noConfusion
      · exact h
    · exact h
  | dispose thread =>
    refine iff_of_true ?_ trivial
    show Watched (core.dispose thread)
    rw [Core.dispose]
    split
    · exact h.moved rfl (fun _ => Phase.noConfusion) rfl h.disposed
    · exact h.moved rfl (fun _ => Phase.noConfusion) rfl h.disposed
    · exact h
  | takeLink thread =>
    refine iff_of_true ?_ trivial
    show Watched (core.takeLink thread)
    rw [Core.takeLink]
    split
    · exact h.moved rfl (fun _ => Phase.noConfusion) rfl fun hdone => ⟨rfl, (h.disposed hdone).2⟩
    · exact h
  | proceed thread => exact h.proceed_iff sink codes thread
  | frame link text =>
    refine iff_of_true ?_ trivial
    simp only [Core.next, Core.frame]
    split
    · split
      · exact h.touch link (delivered_subset text) id
      · exact h
    · exact h
  | stop link message =>
    refine iff_of_true ?_ trivial
    simp only [Core.next, Core.stop]
    split
    · split
      · exact h.touch link (List.Subset.refl _) fun _ => trivial
      · exact h
    · exact h
  | failAll link =>
    refine iff_of_true ?_ trivial
    simp only [Core.next]
    split
    · exact h.failAll hinv codes link
    · exact h
  | drop link =>
    refine iff_of_true ?_ trivial
    simp only [Core.next, Core.drop]
    split
    · split
      · next hfailed =>
        refine h.touch link (List.Subset.refl _) fun hlives => ?_
        rw [hfailed] at hlives
        exact hlives.elim
      · exact h
    · exact h

end Watched
end OptoSync.Transport
