import OptoSync.Transition

/-!
# Forms that htmx submits

`bindHtmxForm` stops a submit event, queues the form and submits it again for htmx. The events of
htmx that reach the form then settle the entry that is pending.
-/
namespace OptoSync.Forms

open Transition

inductive FormSyncStatus
  | synced
  | failed
  deriving DecidableEq

/-- A request of htmx, for a submit event of the form that it got to see, or for another element. -/
inductive HtmxRequest
  | submission (index : ℕ)
  | other (id : ℕ)
  deriving DecidableEq

structure Xhr where
  status : Option ℕ

structure HtmxDetail where
  successful : Bool := false
  xhr : Option Xhr := none

def HtmxDetail.code (detail : HtmxDetail) : Option ℕ := detail.xhr.bind Xhr.status

def terminal (status : Option ℕ) : Bool :=
  status.any fun code => decide (400 ≤ code ∧ code < 500 ∧ code ∉ [408, 409, 425, 429])

/-- What the entry is marked as, if it is. -/
def HtmxDetail.verdict (detail : HtmxDetail) : Option FormSyncStatus :=
  if detail.successful || detail.code.any fun code => decide (200 ≤ code ∧ code < 300) then
    some .synced
  else if terminal detail.code then some .failed
  else none

/-- What remains to be done of a call of `submit`. -/
inductive Submitting
  | queueing (submit : ℕ)
  | queued (queueId : ℕ)
  | failed
  deriving DecidableEq

/-- A submit event that htmx has seen. -/
inductive Submission
  | replay (queueId : ℕ)
  | failOpen
  | unqueued
  deriving DecidableEq

structure QueueEntry where
  submit : ℕ
  queueId : ℕ

structure Mark where
  queueId : ℕ
  status : FormSyncStatus
  request : HtmxRequest

/-- The variables of `bindHtmxForm`, and what has come of its calls. The user's submit events are
numbered, and those that htmx has seen. -/
structure HtmxForm where
  active : Bool := true
  replaying : Bool := false
  queueing : Bool := false
  pending : Option ℕ := none
  settling : Bool := false
  completedRequests : List HtmxRequest := []
  submitting : Option Submitting := none
  submits : ℕ := 0
  accepted : List ℕ := []
  refused : List ℕ := []
  entries : List QueueEntry := []
  sent : List Submission := []
  marks : List Mark := []

/-- How `requestSubmit` ends. It fires no event where the form is not valid. -/
inductive ReplayOutcome
  | threw
  | undelivered
  | delivered
  deriving DecidableEq

structure HtmxOptions where
  failOpen : Bool := false
  /-- The queue has `markMutation`. -/
  markMutation : Bool := true

namespace HtmxForm

variable (options : HtmxOptions) (s : HtmxForm)

/-- A submit event of the user's. -/
def submit : HtmxForm :=
  if !s.active then
    { s with submits := s.submits + 1, sent := s.sent ++ [.unqueued] }
  else if s.replaying then
    { s with
      replaying := false
      submits := s.submits + 1
      accepted := s.accepted ++ [s.submits]
      sent := s.sent ++ [.unqueued] }
  else if s.queueing || s.pending.isSome then { s with submits := s.submits + 1 }
  else
    { s with
      queueing := true
      submitting := some (.queueing s.submits)
      submits := s.submits + 1
      accepted := s.accepted ++ [s.submits] }

/-- The submit event of a replay finds the listener, unless that has been removed. -/
def replay (submission : Submission) : ReplayOutcome → HtmxForm
  | .threw => { s with replaying := false }
  | .undelivered => { s with replaying := true }
  | .delivered => { s with replaying := !s.active, sent := s.sent ++ [submission] }

/-- The `catch` of `submit`. -/
def submitFailed : HtmxForm :=
  if options.failOpen then { s with pending := none, submitting := some .failed }
  else { s with pending := none, submitting := none, queueing := false }

/-- `queueFormSubmission` has resolved to the id of the entry, or has been rejected. -/
def queueMutation (result : Option ℕ) : HtmxForm :=
  match s.submitting with
  | some (.queueing submit) =>
    match result with
    | some queueId =>
      { s with
        pending := some queueId
        submitting := some (.queued queueId)
        entries := s.entries ++ [{ submit, queueId }] }
    | none => submitFailed options { s with refused := s.refused ++ [submit] }
  | _ => s

def requestSubmit (outcome : ReplayOutcome) : HtmxForm :=
  match s.submitting with
  | some (.queued queueId) =>
    if outcome = .threw then submitFailed options (s.replay (.replay queueId) .threw)
    else { s.replay (.replay queueId) outcome with queueing := false, submitting := none }
  | some .failed => { s.replay .failOpen outcome with queueing := false, submitting := none }
  | _ => s

/-- The listener does more than return. -/
def listens (request : HtmxRequest) (detail : HtmxDetail) : Bool :=
  s.active && s.pending.isSome && !s.settling &&
    !(detail.xhr.isSome && s.completedRequests.contains request)

def complete (request : HtmxRequest) (detail : HtmxDetail) : HtmxForm :=
  if detail.xhr.isSome then { s with completedRequests := s.completedRequests ++ [request] } else s

/-- An `htmx:afterRequest` or `htmx:responseError` of the request. -/
def after (request : HtmxRequest) (detail : HtmxDetail) : HtmxForm :=
  match s.pending with
  | none => s
  | some queueId =>
    if !s.listens request detail then s
    else
      match detail.verdict with
      | some status =>
        { s.complete request detail with
          settling := true
          marks := if options.markMutation then s.marks ++ [{ queueId, status, request }]
            else s.marks }
      | none => { s.complete request detail with pending := none }

/-- `mark` has returned or thrown. -/
def settled : HtmxForm := if s.settling then { s with pending := none, settling := false } else s

def unbind : HtmxForm := { s with active := false }

inductive Event
  | submit
  | queueMutation (result : Option ℕ)
  | requestSubmit (outcome : ReplayOutcome)
  | after (request : HtmxRequest) (detail : HtmxDetail)
  | settled
  | unbind

def next : Event → HtmxForm
  | .submit => s.submit
  | .queueMutation result => s.queueMutation options result
  | .requestSubmit outcome => s.requestSubmit options outcome
  | .after request detail => s.after options request detail
  | .settled => s.settled
  | .unbind => s.unbind

/-- The request is that of a replayed submission. -/
def IsReplayOf (request : HtmxRequest) (queueId : ℕ) : Prop :=
  ∃ index, request = .submission index ∧ s.sent[index]? = some (.replay queueId)

structure SettlesRight : Prop where
  one_entry : ∀ n ∈ s.accepted, s.submitting ≠ some (.queueing n) → n ∉ s.refused →
    s.entries.countP (fun entry => entry.submit = n) = 1
  entry_accepted : ∀ entry ∈ s.entries, entry.submit ∈ s.accepted
  replay_queued : ∀ queueId, .replay queueId ∈ s.sent → ∃ entry ∈ s.entries, entry.queueId = queueId
  own_request : ∀ mark ∈ s.marks, s.IsReplayOf mark.request mark.queueId

/-- A submit event of the user's does not come while that of a replay is waited for, and an event that
the listener takes up has the `xhr` of a request for the replay of some entry. -/
def Undisturbed : Event → Prop
  | .submit => s.active = true → s.replaying = false
  | .after request detail => s.listens request detail = true →
      detail.xhr.isSome = true ∧ ∃ queueId, s.IsReplayOf request queueId
  | _ => True

/-! ## One entry for each accepted submit -/

structure Accounts : Prop where
  accepted_lt : ∀ n ∈ s.accepted, n < s.submits
  entry_accepted : ∀ entry ∈ s.entries, entry.submit ∈ s.accepted
  one_entry : ∀ n ∈ s.accepted, s.submitting ≠ some (.queueing n) → n ∉ s.refused →
    s.entries.countP (fun entry => entry.submit = n) = 1
  current : ∀ n, s.submitting = some (.queueing n) →
    n ∈ s.accepted ∧ s.entries.countP (fun entry => entry.submit = n) = 0

variable {options s}

theorem Accounts.start : Accounts {} where
  accepted_lt _ hn := absurd hn List.not_mem_nil
  entry_accepted _ hentry := absurd hentry List.not_mem_nil
  one_entry _ hn := absurd hn List.not_mem_nil
  current _ hn := by cases hn

/-- Steps that neither take a submit up nor end its queueing. -/
theorem Accounts.congr {t : HtmxForm} (h : s.Accounts) (hsubmits : t.submits = s.submits)
    (haccepted : t.accepted = s.accepted) (hrefused : t.refused = s.refused)
    (hentries : t.entries = s.entries)
    (hsubmitting : ∀ n, t.submitting = some (.queueing n) ↔ s.submitting = some (.queueing n)) :
    t.Accounts where
  accepted_lt := by
    rw [haccepted, hsubmits]
    exact h.accepted_lt
  entry_accepted := by
    rw [hentries, haccepted]
    exact h.entry_accepted
  one_entry n hn hcurrent hnot := by
    rw [hentries]
    exact h.one_entry n (haccepted ▸ hn) (fun hs => hcurrent ((hsubmitting n).mpr hs)) (hrefused ▸ hnot)
  current n hn := by
    rw [hentries, haccepted]
    exact h.current n ((hsubmitting n).mp hn)

theorem Accounts.countP_submits (h : s.Accounts) :
    s.entries.countP (fun entry => entry.submit = s.submits) = 0 := by
  rw [List.countP_eq_zero]
  intro entry hentry heq
  have hlt := h.accepted_lt _ (h.entry_accepted entry hentry)
  have hsubmit : entry.submit = s.submits := of_decide_eq_true heq
  omega

theorem Accounts.submit (h : s.Accounts) (hqueueing : s.queueing = s.submitting.isSome)
    (hundisturbed : s.active = true → s.replaying = false) : s.submit.Accounts := by
  have hlt : ∀ n ∈ s.accepted, n < s.submits + 1 := fun n hn => (h.accepted_lt n hn).trans (by omega)
  unfold HtmxForm.submit
  split
  · exact ⟨hlt, h.entry_accepted, h.one_entry, h.current⟩
  · rename_i hactive
    rw [if_neg (by simp [hundisturbed (by simpa using hactive)])]
    split
    · exact ⟨hlt, h.entry_accepted, h.one_entry, h.current⟩
    · rename_i hidle
      have hnone : s.submitting = none := by
        rw [Bool.or_eq_true, not_or, hqueueing, Option.not_isSome_iff_eq_none] at hidle
        exact hidle.1
      constructor
      case accepted_lt =>
        intro n hn
        rcases List.mem_append.mp hn with hn | hn
        · exact hlt n hn
        · rw [List.mem_singleton.mp hn]
          exact Nat.lt_succ_self _
      case entry_accepted =>
        exact fun entry hentry => List.mem_append_left _ (h.entry_accepted entry hentry)
      case one_entry =>
        intro n hn hcurrent hnot
        rcases List.mem_append.mp hn with hn | hn
        · exact h.one_entry n hn (by simp [hnone]) hnot
        · exact absurd (by rw [List.mem_singleton.mp hn]) hcurrent
      case current =>
        intro n hn
        cases hn
        exact ⟨by simp, h.countP_submits⟩

theorem submitFailed_submitting_ne (n : ℕ) :
    (submitFailed options s).submitting ≠ some (.queueing n) := by
  unfold submitFailed
  split <;> simp

/-- The catch clause touches none of the accounts. -/
theorem submitFailed_accounts (options : HtmxOptions) (s : HtmxForm) :
    (submitFailed options s).submits = s.submits ∧
    (submitFailed options s).accepted = s.accepted ∧
    (submitFailed options s).refused = s.refused ∧
    (submitFailed options s).entries = s.entries := by
  unfold submitFailed
  split <;> exact ⟨rfl, rfl, rfl, rfl⟩

theorem queueMutation_some {submit : ℕ} (h : s.submitting = some (.queueing submit)) (queueId : ℕ) :
    s.queueMutation options (some queueId) =
      { s with
        pending := some queueId
        submitting := some (.queued queueId)
        entries := s.entries ++ [{ submit, queueId }] } := by
  simp only [HtmxForm.queueMutation, h]

theorem queueMutation_none {submit : ℕ} (h : s.submitting = some (.queueing submit)) :
    s.queueMutation options none =
      submitFailed options { s with refused := s.refused ++ [submit] } := by
  simp only [HtmxForm.queueMutation, h]

theorem queueMutation_of_ne (h : ∀ submit, s.submitting ≠ some (.queueing submit))
    (result : Option ℕ) : s.queueMutation options result = s := by
  unfold HtmxForm.queueMutation
  split
  · rename_i submit hsubmitting
    exact absurd hsubmitting (h submit)
  · rfl

theorem Accounts.queueMutation (h : s.Accounts) (result : Option ℕ) :
    (s.queueMutation options result).Accounts := by
  by_cases hqueueing : ∃ submit, s.submitting = some (.queueing submit)
  · obtain ⟨submit, hsubmitting⟩ := hqueueing
    obtain ⟨haccepted, hcount⟩ := h.current submit hsubmitting
    have hother : ∀ n, n ≠ submit → s.submitting ≠ some (.queueing n) := by
      rintro n hn hs
      rw [hsubmitting] at hs
      cases hs
      exact hn rfl
    cases result with
    | some queueId =>
      rw [queueMutation_some hsubmitting]
      constructor
      case accepted_lt => exact h.accepted_lt
      case entry_accepted =>
        intro entry hentry
        rcases List.mem_append.mp hentry with hentry | hentry
        · exact h.entry_accepted entry hentry
        · rw [List.mem_singleton.mp hentry]
          exact haccepted
      case one_entry =>
        intro n hn _ hnot
        rw [List.countP_append, List.countP_singleton]
        by_cases heq : n = submit
        · subst heq
          rw [hcount]
          simp
        · rw [h.one_entry n hn (hother n heq) hnot]
          simp [Ne.symm heq]
      case current => exact fun n hn => by cases hn
    | none =>
      rw [queueMutation_none hsubmitting]
      obtain ⟨hsubmits, haccepted', hrefused, hentries⟩ := submitFailed_accounts options
        { s with refused := s.refused ++ [submit] }
      constructor
      case accepted_lt =>
        rw [haccepted', hsubmits]
        exact h.accepted_lt
      case entry_accepted =>
        rw [haccepted', hentries]
        exact h.entry_accepted
      case one_entry =>
        intro n hn _ hnot
        rw [haccepted'] at hn
        rw [hrefused, List.mem_append, List.mem_singleton, not_or] at hnot
        rw [hentries]
        exact h.one_entry n hn (hother n hnot.2) hnot.1
      case current => exact fun n hn => absurd hn (submitFailed_submitting_ne n)
  · rw [queueMutation_of_ne (not_exists.mp hqueueing)]
    exact h

theorem Accounts.requestSubmit (h : s.Accounts) (outcome : ReplayOutcome) :
    (s.requestSubmit options outcome).Accounts := by
  unfold HtmxForm.requestSubmit
  cases hsubmitting : s.submitting with
  | none => exact h
  | some stage =>
    have hreplay : ∀ submission, (s.replay submission outcome).submits = s.submits ∧
        (s.replay submission outcome).accepted = s.accepted ∧
        (s.replay submission outcome).refused = s.refused ∧
        (s.replay submission outcome).entries = s.entries := by
      intro submission
      cases outcome <;> exact ⟨rfl, rfl, rfl, rfl⟩
    cases stage with
    | queueing submit => exact h
    | failed =>
      obtain ⟨hsubmits, haccepted, hrefused, hentries⟩ := hreplay .failOpen
      exact h.congr hsubmits haccepted hrefused hentries (by simp [hsubmitting])
    | queued queueId =>
      obtain ⟨hsubmits, haccepted, hrefused, hentries⟩ := hreplay (.replay queueId)
      dsimp only
      split
      · obtain ⟨hsubmits', haccepted', hrefused', hentries'⟩ := submitFailed_accounts options
          (s.replay (.replay queueId) .threw)
        exact h.congr hsubmits' haccepted' hrefused' hentries'
          (fun n => by simp [submitFailed_submitting_ne, hsubmitting])
      · exact h.congr hsubmits haccepted hrefused hentries (by simp [hsubmitting])

theorem Accounts.after (h : s.Accounts) (request : HtmxRequest) (detail : HtmxDetail) :
    (s.after options request detail).Accounts := by
  have hcomplete : (s.complete request detail).submits = s.submits ∧
      (s.complete request detail).accepted = s.accepted ∧
      (s.complete request detail).refused = s.refused ∧
      (s.complete request detail).entries = s.entries ∧
      (s.complete request detail).submitting = s.submitting := by
    unfold complete
    split <;> exact ⟨rfl, rfl, rfl, rfl, rfl⟩
  obtain ⟨hsubmits, haccepted, hrefused, hentries, hsubmitting⟩ := hcomplete
  unfold HtmxForm.after
  split
  · exact h
  · split
    · exact h
    · split <;> exact h.congr hsubmits haccepted hrefused hentries (fun n => by simp [hsubmitting])

theorem Accounts.settled (h : s.Accounts) : s.settled.Accounts := by
  unfold HtmxForm.settled
  split
  · exact h.congr rfl rfl rfl rfl (fun _ => Iff.rfl)
  · exact h

theorem Accounts.next {e : Event} (h : s.Accounts) (hqueueing : s.queueing = s.submitting.isSome)
    (hundisturbed : s.Undisturbed e) : (s.next options e).Accounts := by
  cases e with
  | submit => exact h.submit hqueueing hundisturbed
  | queueMutation result => exact h.queueMutation result
  | requestSubmit outcome => exact h.requestSubmit outcome
  | after request detail => exact h.after request detail
  | settled => exact h.settled
  | unbind => exact h.congr rfl rfl rfl rfl (fun _ => Iff.rfl)

/-! ## The request of an entry's own replay -/

/-- The replay of an entry whose request no event has described. -/
def Open (s : HtmxForm) (index queueId : ℕ) : Prop :=
  s.sent[index]? = some (.replay queueId) ∧ .submission index ∉ s.completedRequests

structure Correlates (s : HtmxForm) : Prop where
  queueing : s.queueing = s.submitting.isSome
  settling : s.settling = true → s.pending.isSome = true ∧ s.submitting = none
  queued : ∀ queueId, s.submitting = some (.queued queueId) → s.pending = some queueId
  idle : s.submitting.isSome = true → s.pending = none ∨ ∃ queueId, s.submitting = some (.queued queueId)
  pending_queued : ∀ queueId, s.pending = some queueId → ∃ entry ∈ s.entries, entry.queueId = queueId
  replay_queued : ∀ queueId, .replay queueId ∈ s.sent → ∃ entry ∈ s.entries, entry.queueId = queueId
  own_request : ∀ mark ∈ s.marks, s.IsReplayOf mark.request mark.queueId
  open_pending : ∀ index queueId, s.Open index queueId →
    s.pending = some queueId ∧ s.settling = false ∧ s.submitting = none
  open_unique : ∀ i q j r, s.Open i q → s.Open j r → i = j

theorem Correlates.start : Correlates {} where
  queueing := rfl
  settling h := by cases h
  queued _ h := by cases h
  idle h := by cases h
  pending_queued _ h := by cases h
  replay_queued _ h := absurd h List.not_mem_nil
  own_request _ h := absurd h List.not_mem_nil
  open_pending _ _ h := by cases h.1
  open_unique _ _ _ _ h := by cases h.1

theorem Correlates.congr {t : HtmxForm} (h : s.Correlates) (hqueueing : t.queueing = s.queueing)
    (hpending : t.pending = s.pending) (hsettling : t.settling = s.settling)
    (hcompleted : t.completedRequests = s.completedRequests)
    (hsubmitting : t.submitting = s.submitting) (hentries : t.entries = s.entries)
    (hsent : t.sent = s.sent) (hmarks : t.marks = s.marks) : t.Correlates := by
  obtain ⟨active, replaying, queueing, pending, settling, completedRequests, submitting, submits,
    accepted, refused, entries, sent, marks⟩ := t
  subst hqueueing hpending hsettling hcompleted hsubmitting hentries hsent hmarks
  exact ⟨h.queueing, h.settling, h.queued, h.idle, h.pending_queued, h.replay_queued, h.own_request,
    h.open_pending, h.open_unique⟩

theorem Correlates.not_settling (h : s.Correlates) (hsubmitting : s.submitting.isSome = true) :
    s.settling = false := by
  by_contra hsettling
  rw [(h.settling (by simpa using hsettling)).2] at hsubmitting
  cases hsubmitting

/-- While a submit is being dealt with, no request of a replay is out. -/
theorem Correlates.not_open_of_submitting (h : s.Correlates)
    (hsubmitting : s.submitting.isSome = true) (index queueId : ℕ) : ¬ s.Open index queueId := by
  intro hopen
  rw [(h.open_pending index queueId hopen).2.2] at hsubmitting
  cases hsubmitting

theorem Correlates.not_open_of_pending (h : s.Correlates) (hpending : s.pending = none)
    (index queueId : ℕ) : ¬ s.Open index queueId := by
  intro hopen
  rw [(h.open_pending index queueId hopen).1] at hpending
  cases hpending

/-- An event that htmx sees which is no replay of an entry. -/
theorem replay_of_concat {sent : List Submission} {submission : Submission}
    (hsubmission : ∀ queueId, submission ≠ .replay queueId) {index queueId : ℕ}
    (h : (sent ++ [submission])[index]? = some (.replay queueId)) :
    sent[index]? = some (.replay queueId) := by
  rcases lt_or_ge index sent.length with hlt | hge
  · rwa [List.getElem?_append_left hlt] at h
  · rw [List.getElem?_append_right hge, List.getElem?_singleton] at h
    split at h
    · exact absurd (Option.some_inj.mp h) (hsubmission queueId)
    · cases h

theorem IsReplayOf.mono {t : HtmxForm} {request : HtmxRequest} {queueId : ℕ}
    (h : s.IsReplayOf request queueId) (hsent : s.sent <+: t.sent) : t.IsReplayOf request queueId := by
  obtain ⟨index, hrequest, hindex⟩ := h
  obtain ⟨rest, hrest⟩ := hsent
  refine ⟨index, hrequest, ?_⟩
  rw [← hrest, List.getElem?_append_left (List.getElem?_eq_some_iff.mp hindex).1]
  exact hindex

/-- Htmx sees a submit event that is no replay of an entry. -/
theorem Correlates.see {t : HtmxForm} (h : s.Correlates) (submission : Submission)
    (hsubmission : ∀ queueId, submission ≠ .replay queueId)
    (hqueueing : t.queueing = s.queueing) (hpending : t.pending = s.pending)
    (hsettling : t.settling = s.settling) (hcompleted : t.completedRequests = s.completedRequests)
    (hsubmitting : t.submitting = s.submitting) (hentries : t.entries = s.entries)
    (hsent : t.sent = s.sent ++ [submission]) (hmarks : t.marks = s.marks) : t.Correlates := by
  have hopen : ∀ index queueId, t.Open index queueId → s.Open index queueId := by
    rintro index queueId ⟨hindex, hnot⟩
    rw [hsent] at hindex
    rw [hcompleted] at hnot
    exact ⟨replay_of_concat hsubmission hindex, hnot⟩
  constructor
  case queueing => rw [hqueueing, hsubmitting, h.queueing]
  case settling =>
    rw [hsettling, hpending, hsubmitting]
    exact h.settling
  case queued =>
    rw [hsubmitting, hpending]
    exact h.queued
  case idle =>
    rw [hsubmitting, hpending]
    exact h.idle
  case pending_queued =>
    rw [hpending, hentries]
    exact h.pending_queued
  case replay_queued =>
    intro queueId hmem
    rw [hsent, List.mem_append, List.mem_singleton] at hmem
    rw [hentries]
    exact h.replay_queued queueId (hmem.resolve_right fun heq => hsubmission queueId heq.symm)
  case own_request =>
    intro mark hmark
    rw [hmarks] at hmark
    exact (h.own_request mark hmark).mono (hsent ▸ List.prefix_append _ _)
  case open_pending =>
    rw [hpending, hsettling, hsubmitting]
    exact fun index queueId ho => h.open_pending index queueId (hopen index queueId ho)
  case open_unique =>
    exact fun i q j r hi hj => h.open_unique i q j r (hopen i q hi) (hopen j r hj)

theorem Correlates.submit (h : s.Correlates) (hundisturbed : s.active = true → s.replaying = false) :
    s.submit.Correlates := by
  unfold HtmxForm.submit
  split
  · exact h.see .unqueued (by simp) rfl rfl rfl rfl rfl rfl rfl rfl
  · rename_i hactive
    rw [if_neg (by simp [hundisturbed (by simpa using hactive)])]
    split
    · exact h.congr rfl rfl rfl rfl rfl rfl rfl rfl
    · rename_i hidle
      have hpending : s.pending = none := by
        rw [Bool.or_eq_true, not_or, Option.not_isSome_iff_eq_none] at hidle
        exact hidle.2
      constructor
      case queueing => rfl
      case settling =>
        intro hsettling
        have hsome := (h.settling hsettling).1
        rw [hpending] at hsome
        cases hsome
      case queued => exact fun _ hq => by cases hq
      case idle => exact fun _ => Or.inl hpending
      case pending_queued => exact h.pending_queued
      case replay_queued => exact h.replay_queued
      case own_request => exact h.own_request
      case open_pending => exact fun i q ho => absurd ho (h.not_open_of_pending hpending i q)
      case open_unique => exact h.open_unique

theorem Correlates.submitFailed (h : s.Correlates) (hsubmitting : s.submitting.isSome = true) :
    (submitFailed options s).Correlates := by
  have hsettling := h.not_settling hsubmitting
  have hopen := h.not_open_of_submitting hsubmitting
  unfold HtmxForm.submitFailed
  split
  · constructor
    case queueing =>
      rw [← h.queueing] at hsubmitting
      exact hsubmitting
    case settling => exact fun hs => absurd hs (by simp [hsettling])
    case queued => exact fun _ hq => by cases hq
    case idle => exact fun _ => Or.inl rfl
    case pending_queued => exact fun _ hq => by cases hq
    case replay_queued => exact h.replay_queued
    case own_request => exact h.own_request
    case open_pending => exact fun i q ho => absurd ho (hopen i q)
    case open_unique => exact h.open_unique
  · constructor
    case queueing => rfl
    case settling => exact fun hs => absurd hs (by simp [hsettling])
    case queued => exact fun _ hq => by cases hq
    case idle => exact fun hs => by cases hs
    case pending_queued => exact fun _ hq => by cases hq
    case replay_queued => exact h.replay_queued
    case own_request => exact h.own_request
    case open_pending => exact fun i q ho => absurd ho (hopen i q)
    case open_unique => exact h.open_unique

theorem Correlates.queueMutation (h : s.Correlates) (result : Option ℕ) :
    (s.queueMutation options result).Correlates := by
  by_cases hqueueing : ∃ submit, s.submitting = some (.queueing submit)
  · obtain ⟨submit, hsubmitting⟩ := hqueueing
    have hsome : s.submitting.isSome = true := by
      rw [hsubmitting]
      rfl
    cases result with
    | none =>
      rw [queueMutation_none hsubmitting]
      have hrefused : Correlates { s with refused := s.refused ++ [submit] } :=
        h.congr rfl rfl rfl rfl rfl rfl rfl rfl
      exact hrefused.submitFailed hsome
    | some queueId =>
      rw [queueMutation_some hsubmitting]
      constructor
      case queueing => exact h.queueing.trans hsome
      case settling => exact fun hs => absurd hs (by simp [h.not_settling hsome])
      case queued =>
        intro q hq
        cases hq
        rfl
      case idle => exact fun _ => Or.inr ⟨queueId, rfl⟩
      case pending_queued =>
        intro q hq
        cases hq
        exact ⟨_, List.mem_append_right _ (List.mem_singleton_self _), rfl⟩
      case replay_queued =>
        intro q hq
        obtain ⟨entry, hentry, heq⟩ := h.replay_queued q hq
        exact ⟨entry, List.mem_append_left _ hentry, heq⟩
      case own_request => exact h.own_request
      case open_pending => exact fun i q ho => absurd ho (h.not_open_of_submitting hsome i q)
      case open_unique => exact h.open_unique
  · rw [queueMutation_of_ne (not_exists.mp hqueueing)]
    exact h

/-- A call of `submit` ends with its replay. -/
theorem Correlates.finish {t : HtmxForm} (h : s.Correlates) (hsubmitting : s.submitting.isSome = true)
    (hqueueing : t.queueing = false) (hpending : t.pending = s.pending)
    (hsettling : t.settling = s.settling) (hcompleted : t.completedRequests = s.completedRequests)
    (hnone : t.submitting = none) (hentries : t.entries = s.entries) (hmarks : t.marks = s.marks)
    (hsent : s.sent <+: t.sent)
    (hreplays : ∀ index queueId, t.sent[index]? = some (.replay queueId) →
      s.sent[index]? = some (.replay queueId) ∨
        index = s.sent.length ∧ s.pending = some queueId) : t.Correlates := by
  have hopen : ∀ index queueId, t.Open index queueId →
      index = s.sent.length ∧ s.pending = some queueId := by
    rintro index queueId ⟨hindex, hnot⟩
    rcases hreplays index queueId hindex with hold | hnew
    · rw [hcompleted] at hnot
      exact absurd ⟨hold, hnot⟩ (h.not_open_of_submitting hsubmitting index queueId)
    · exact hnew
  constructor
  case queueing =>
    rw [hqueueing, hnone]
    rfl
  case settling => exact fun hs => absurd hs (by simp [hsettling, h.not_settling hsubmitting])
  case queued =>
    intro queueId hq
    rw [hnone] at hq
    cases hq
  case idle =>
    intro hs
    rw [hnone] at hs
    cases hs
  case pending_queued =>
    rw [hpending, hentries]
    exact h.pending_queued
  case replay_queued =>
    intro queueId hmem
    obtain ⟨index, hindex⟩ := List.mem_iff_getElem?.mp hmem
    rw [hentries]
    rcases hreplays index queueId hindex with hold | ⟨-, hnew⟩
    · exact h.replay_queued queueId (List.mem_of_getElem? hold)
    · exact h.pending_queued queueId hnew
  case own_request =>
    intro mark hmark
    rw [hmarks] at hmark
    exact (h.own_request mark hmark).mono hsent
  case open_pending =>
    intro index queueId ho
    exact ⟨hpending.trans (hopen index queueId ho).2, hsettling.trans (h.not_settling hsubmitting),
      hnone⟩
  case open_unique =>
    exact fun i q j r hi hj => (hopen i q hi).1.trans (hopen j r hj).1.symm

theorem requestSubmit_queued {queueId : ℕ} (h : s.submitting = some (.queued queueId))
    (outcome : ReplayOutcome) : s.requestSubmit options outcome =
      if outcome = .threw then submitFailed options (s.replay (.replay queueId) .threw)
      else { s.replay (.replay queueId) outcome with queueing := false, submitting := none } := by
  simp only [HtmxForm.requestSubmit, h]

theorem requestSubmit_failed (h : s.submitting = some .failed) (outcome : ReplayOutcome) :
    s.requestSubmit options outcome =
      { s.replay .failOpen outcome with queueing := false, submitting := none } := by
  simp only [HtmxForm.requestSubmit, h]

theorem Correlates.requestSubmit (h : s.Correlates) (outcome : ReplayOutcome) :
    (s.requestSubmit options outcome).Correlates := by
  cases hsubmitting : s.submitting with
  | none =>
    have hsame : s.requestSubmit options outcome = s := by simp only [HtmxForm.requestSubmit, hsubmitting]
    rw [hsame]
    exact h
  | some stage =>
    have hsome : s.submitting.isSome = true := by
      rw [hsubmitting]
      rfl
    cases stage with
    | queueing submit =>
      have hsame : s.requestSubmit options outcome = s := by
        simp only [HtmxForm.requestSubmit, hsubmitting]
      rw [hsame]
      exact h
    | failed =>
      rw [requestSubmit_failed hsubmitting]
      cases outcome with
      | threw =>
        exact h.finish hsome rfl rfl rfl rfl rfl rfl rfl (List.prefix_refl _) fun _ _ => Or.inl
      | undelivered =>
        exact h.finish hsome rfl rfl rfl rfl rfl rfl rfl (List.prefix_refl _) fun _ _ => Or.inl
      | delivered =>
        exact h.finish hsome rfl rfl rfl rfl rfl rfl rfl (List.prefix_append _ _) fun _ _ hindex =>
          Or.inl (replay_of_concat (by simp) hindex)
    | queued queueId =>
      rw [requestSubmit_queued hsubmitting]
      cases outcome with
      | threw =>
        have hthrew : (s.replay (.replay queueId) .threw).Correlates :=
          h.congr rfl rfl rfl rfl rfl rfl rfl rfl
        exact hthrew.submitFailed hsome
      | undelivered =>
        exact h.finish hsome rfl rfl rfl rfl rfl rfl rfl (List.prefix_refl _) fun _ _ => Or.inl
      | delivered =>
        refine h.finish hsome rfl rfl rfl rfl rfl rfl rfl (List.prefix_append _ _) ?_
        intro index q hindex
        change (s.sent ++ [.replay queueId])[index]? = some (.replay q) at hindex
        rcases lt_or_ge index s.sent.length with hlt | hge
        · rw [List.getElem?_append_left hlt] at hindex
          exact Or.inl hindex
        · rw [List.getElem?_append_right hge, List.getElem?_singleton] at hindex
          split at hindex
          · cases hindex
            exact Or.inr ⟨by omega, h.queued queueId hsubmitting⟩
          · cases hindex

/-- What an event does that the listener takes up. -/
theorem after_cases (request : HtmxRequest) (detail : HtmxDetail) :
    s.after options request detail = s ∨
      ∃ queueId, s.pending = some queueId ∧ s.listens request detail = true ∧
        (s.after options request detail = { s.complete request detail with pending := none } ∨
          ∃ status, s.after options request detail =
            { s.complete request detail with
              settling := true
              marks := if options.markMutation then s.marks ++ [{ queueId, status, request }]
                else s.marks }) := by
  cases hpending : s.pending with
  | none => exact Or.inl (by simp only [HtmxForm.after, hpending])
  | some queueId =>
    cases hlistens : s.listens request detail with
    | false => exact Or.inl (by simp [HtmxForm.after, hpending, hlistens])
    | true =>
      refine Or.inr ⟨queueId, rfl, rfl, ?_⟩
      cases hverdict : detail.verdict with
      | none => exact Or.inl (by simp [HtmxForm.after, hpending, hlistens, hverdict])
      | some status => exact Or.inr ⟨status, by simp [HtmxForm.after, hpending, hlistens, hverdict]⟩

theorem listens_cases {request : HtmxRequest} {detail : HtmxDetail}
    (h : s.listens request detail = true) (hxhr : detail.xhr.isSome = true) :
    s.settling = false ∧ request ∉ s.completedRequests := by
  have hall : s.active = true ∧ s.pending.isSome = true ∧ s.settling = false ∧
      request ∉ s.completedRequests := by
    simpa [listens, hxhr, and_assoc] using h
  exact hall.2.2

theorem complete_of_isSome {request : HtmxRequest} {detail : HtmxDetail}
    (hxhr : detail.xhr.isSome = true) : s.complete request detail =
      { s with completedRequests := s.completedRequests ++ [request] } :=
  if_pos hxhr

theorem Correlates.after (h : s.Correlates) {request : HtmxRequest} {detail : HtmxDetail}
    (hundisturbed : s.listens request detail = true →
      detail.xhr.isSome = true ∧ ∃ queueId, s.IsReplayOf request queueId) :
    (s.after options request detail).Correlates := by
  rcases after_cases request detail with hsame | ⟨queueId, hpending, hlistens, hafter⟩
  · rw [hsame]
    exact h
  · obtain ⟨hxhr, q, index, hrequest, hindex⟩ := hundisturbed hlistens
    obtain ⟨hsettling, hnot⟩ := listens_cases hlistens hxhr
    rw [hrequest] at hnot
    obtain ⟨hq, -, hnone⟩ := h.open_pending index q ⟨hindex, hnot⟩
    have hclosed : ∀ i r, s.sent[i]? = some (.replay r) →
        .submission i ∈ s.completedRequests ++ [request] := by
      intro i r hi
      by_cases hcompleted : .submission i ∈ s.completedRequests
      · exact List.mem_append_left _ hcompleted
      · rw [hrequest, h.open_unique i r index q ⟨hi, hcompleted⟩ ⟨hindex, hnot⟩]
        exact List.mem_append_right _ (List.mem_singleton_self _)
    rw [complete_of_isSome hxhr] at hafter
    rcases hafter with hafter | ⟨status, hafter⟩
    · rw [hafter]
      constructor
      case queueing => exact h.queueing
      case settling => exact fun hs => absurd hs (by simp [hsettling])
      case queued => exact fun r hr => by rw [hnone] at hr; cases hr
      case idle => exact fun _ => Or.inl rfl
      case pending_queued => exact fun _ hr => by cases hr
      case replay_queued => exact h.replay_queued
      case own_request => exact h.own_request
      case open_pending => exact fun i r ho => absurd (hclosed i r ho.1) ho.2
      case open_unique => exact fun i r _ _ ho => absurd (hclosed i r ho.1) ho.2
    · rw [hafter]
      constructor
      case queueing => exact h.queueing
      case settling => exact fun _ => ⟨by simp [hpending], hnone⟩
      case queued => exact h.queued
      case idle => exact h.idle
      case pending_queued => exact h.pending_queued
      case replay_queued => exact h.replay_queued
      case own_request =>
        intro mark hmark
        have hold : mark ∈ s.marks ∨ mark = { queueId, status, request } := by
          dsimp only at hmark
          split at hmark
          · simpa using hmark
          · exact Or.inl hmark
        rcases hold with hold | rfl
        · exact h.own_request mark hold
        · have heq : q = queueId := Option.some_inj.mp (hq.symm.trans hpending)
          exact ⟨index, hrequest, heq ▸ hindex⟩
      case open_pending => exact fun i r ho => absurd (hclosed i r ho.1) ho.2
      case open_unique => exact fun i r _ _ ho => absurd (hclosed i r ho.1) ho.2

theorem Correlates.settled (h : s.Correlates) : s.settled.Correlates := by
  unfold HtmxForm.settled
  split
  · rename_i hsettling
    have hopen : ∀ i q, ¬ s.Open i q := by
      intro i q ho
      rw [(h.open_pending i q ho).2.1] at hsettling
      cases hsettling
    have hnone := (h.settling hsettling).2
    constructor
    case queueing => exact h.queueing
    case settling => exact fun hs => by cases hs
    case queued => exact fun r hr => by rw [hnone] at hr; cases hr
    case idle => exact fun _ => Or.inl rfl
    case pending_queued => exact fun _ hr => by cases hr
    case replay_queued => exact h.replay_queued
    case own_request => exact h.own_request
    case open_pending => exact fun i r ho => absurd ho (hopen i r)
    case open_unique => exact h.open_unique
  · exact h

theorem Correlates.next {e : Event} (h : s.Correlates) (hundisturbed : s.Undisturbed e) :
    (s.next options e).Correlates := by
  cases e with
  | submit => exact h.submit hundisturbed
  | queueMutation result => exact h.queueMutation result
  | requestSubmit outcome => exact h.requestSubmit outcome
  | after request detail => exact h.after hundisturbed
  | settled => exact h.settled
  | unbind => exact h.congr rfl rfl rfl rfl rfl rfl rfl rfl

/-- In a run without disturbance, each accepted submit makes one entry, and entries are marked by
events of their own requests only. -/
theorem htmxForm_settlesRight (options : HtmxOptions) (events : List Event)
    (h : StepsMeet (next options) Undisturbed {} events) :
    StatesMeet (next options) SettlesRight {} events := by
  have hinvariant : StatesMeet (next options) (fun s => s.Accounts ∧ s.Correlates) {} events :=
    StatesMeet.of_stepsMeet
      (fun s e hundisturbed hs => ⟨hs.1.next hs.2.queueing hundisturbed, hs.2.next hundisturbed⟩)
      ⟨Accounts.start, Correlates.start⟩ h
  exact hinvariant.imp fun s hs =>
    ⟨hs.1.one_entry, hs.1.entry_accepted, hs.2.replay_queued, hs.2.own_request⟩

/-- A submission that is queued, replayed, answered, and answered again after the next submit. -/
theorem htmxForm_settlesRight_answered :
    StatesMeet (next {}) SettlesRight {}
      [.submit, .queueMutation (some 7), .requestSubmit .delivered,
        .after (.submission 0) { xhr := some ⟨some 503⟩ }, .submit, .queueMutation (some 8),
        .requestSubmit .delivered, .after (.submission 0) { xhr := some ⟨some 201⟩ },
        .after (.submission 1) { xhr := some ⟨some 201⟩ }, .settled] := by
  refine htmxForm_settlesRight {} _
    ⟨fun _ => rfl, trivial, trivial, fun _ => ⟨rfl, 7, 0, rfl, rfl⟩, fun _ => rfl, trivial, trivial,
      fun hlistens => ?_, fun _ => ⟨rfl, 8, 1, rfl, rfl⟩, trivial, trivial⟩
  cases hlistens

/-- The request of another element of the form settles the entry, and a user's submit after a replay
of a form that was no longer valid is not queued. -/
theorem htmxForm_settles_other :
    ¬ StatesMeet (next {}) SettlesRight {}
        [.submit, .queueMutation (some 7), .requestSubmit .delivered,
          .after (.other 0) { successful := true, xhr := some ⟨some 200⟩ }] ∧
      ¬ StatesMeet (next {}) SettlesRight {}
        [.submit, .queueMutation (some 7), .requestSubmit .undelivered, .submit] := by
  constructor
  · intro h
    obtain ⟨index, hrequest, -⟩ := h.last.own_request ⟨7, .synced, .other 0⟩ (List.mem_singleton_self _)
    cases hrequest
  · intro h
    have hone := h.last.one_entry 1 (by decide) (by decide) (by decide)
    exact absurd hone (by decide)

end HtmxForm

end OptoSync.Forms
