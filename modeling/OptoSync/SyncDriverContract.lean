import OptoSync.ProtocolQueueValid
import OptoSync.SyncDriver

/-!
# What the atomic driver does to its store

The contract of `sync_cycle_atomic` with its transport and its store. Its state is the queue the
store accepted last; the driver works on that queue at every call and returns it.
-/
namespace OptoSync
open Decimal Interaction

def Change.position (change : Change) : ℕ := (parseDecimal change.checkpoint).getD 0

def checkpointLe (a b : String) : Prop :=
  ∃ m n, parseDecimal a = some m ∧ parseDecimal b = some n ∧ m ≤ n

/-- The changes of a page lie behind its prior checkpoint, in order, up to its own. -/
structure PageWithin (prior : String) (changes : List Change) (checkpoint : String) : Prop where
  advances : checkpointLe prior checkpoint
  ascending : ((parseDecimal prior).getD 0 :: changes.map (·.position)).Pairwise (· < ·)
  within : ∀ change ∈ changes, change.position ≤ (parseDecimal checkpoint).getD 0

theorem PageWithin.empty_of_eq {prior checkpoint : String} {changes : List Change}
    (h : PageWithin prior changes checkpoint)
    (he : parseDecimal prior = parseDecimal checkpoint) : changes = [] := by
  cases changes with
  | nil => rfl
  | cons change changes =>
    have hlt := (List.pairwise_cons.mp h.ascending).1 change.position (by simp)
    have hle := h.within change List.mem_cons_self
    rw [he] at hlt
    omega

theorem checkpointLe.trans {a b c : String} (h : checkpointLe a b) (h' : checkpointLe b c) :
    checkpointLe a c := by
  obtain ⟨m, n, hm, hn, hmn⟩ := h
  obtain ⟨n', k, hn', hk, hnk⟩ := h'
  rw [hn, Option.some.injEq] at hn'
  exact ⟨m, k, hm, hk, by omega⟩

theorem checkpointLe.refl {a : String} (h : (parseDecimal a).isSome = true) : checkpointLe a a := by
  obtain ⟨n, hn⟩ := Option.isSome_iff_exists.mp h
  exact ⟨n, n, hn, hn, le_rfl⟩

theorem validateChange_eq_ok {pageCheckpoint last next : ℕ} {change : Change}
    (h : validateChange pageCheckpoint last change = .ok next) :
    next = change.position ∧ last < next ∧ next ≤ pageCheckpoint ∧
      changeContentRefused change = false := by
  unfold validateChange at h
  cases hp : parseDecimal change.checkpoint with
  | none =>
    rw [hp] at h
    cases h
  | some checkpoint =>
    rw [hp] at h
    dsimp only at h
    split at h
    · cases h
    · rename_i hgood
      cases h
      simp only [not_or, Bool.not_eq_true] at hgood
      obtain ⟨hlast, hpage, -, -, -, hcontent, -⟩ := hgood
      exact ⟨by simp [Change.position, hp], by omega, by omega, hcontent⟩

theorem foldlM_validateChange_eq_ok {pageCheckpoint last next : ℕ} {changes : List Change}
    (h : changes.foldlM (validateChange pageCheckpoint) last = .ok next) :
    (last :: changes.map (·.position)).Pairwise (· < ·) ∧
      (∀ change ∈ changes, change.position ≤ pageCheckpoint) ∧
      ∀ change ∈ changes, changeContentRefused change = false := by
  induction changes generalizing last with
  | nil => simp
  | cons change changes ih =>
    rw [List.foldlM_cons] at h
    cases hc : validateChange pageCheckpoint last change with
    | error e =>
      rw [hc] at h
      cases h
    | ok mid =>
      rw [hc] at h
      obtain ⟨rfl, hlt, hle, hcontent⟩ := validateChange_eq_ok hc
      obtain ⟨hasc, hwithin, hall⟩ := ih h
      refine ⟨?_, List.forall_mem_cons.mpr ⟨hle, hwithin⟩, List.forall_mem_cons.mpr ⟨hcontent, hall⟩⟩
      rw [List.map_cons, List.pairwise_cons]
      refine ⟨fun x hx => ?_, hasc⟩
      rcases List.mem_cons.mp hx with rfl | hx
      · exact hlt
      · exact hlt.trans ((List.pairwise_cons.mp hasc).1 x hx)

theorem validatePullPage_eq_ok {page : PullResponse} {prior : String}
    (h : validatePullPage page prior = .ok ()) :
    PageWithin prior page.changes page.checkpoint ∧
      ∀ change ∈ page.changes, changeContentRefused change = false := by
  unfold validatePullPage at h
  cases hp : parseDecimal page.checkpoint with
  | none =>
    rw [hp] at h
    cases h
  | some pageCheckpoint =>
    cases hq : parseDecimal prior with
    | none =>
      rw [hp, hq] at h
      cases h
    | some last =>
      rw [hp, hq] at h
      dsimp only at h
      split at h
      · cases h
      · rename_i hgood
        cases hf : page.changes.foldlM (validateChange pageCheckpoint) last with
        | error message =>
          rw [hf] at h
          cases h
        | ok next =>
          obtain ⟨hasc, hwithin, hcontent⟩ := foldlM_validateChange_eq_ok hf
          simp only [not_or, Nat.not_lt] at hgood
          exact ⟨⟨⟨last, pageCheckpoint, hq, hp, hgood.2⟩, by rwa [hq], by rwa [hp]⟩, hcontent⟩

theorem validateSnapshot_eq_ok {snapshot : SnapshotResponse} {prior : String}
    (h : validateSnapshot snapshot prior = .ok ()) :
    checkpointLe prior snapshot.checkpoint ∧ snapshot.protocolVersion = 1 ∧
      ∀ record ∈ snapshot.records, record.record.isObject = true ∧
        (parseDecimal record.revision).any (0 < ·) = true := by
  unfold validateSnapshot at h
  cases hp : parseDecimal snapshot.checkpoint with
  | none =>
    rw [hp] at h
    cases h
  | some checkpoint =>
    cases hq : parseDecimal prior with
    | none =>
      rw [hp, hq] at h
      cases h
    | some last =>
      rw [hp, hq] at h
      dsimp only at h
      split at h
      · cases h
      · rename_i hgood
        simp only [not_or, not_not, Nat.not_lt] at hgood
        obtain ⟨hversion, hle, hrecords⟩ := hgood
        refine ⟨⟨last, checkpoint, hq, hp, hle⟩, hversion, fun record hr => ?_⟩
        have hrec : ¬ (record.table.toList = [] || record.recordId.toList = [] ||
            record.record.isObject = false || (parseDecimal record.revision).all (· = 0)) = true :=
          fun hc => hrecords (List.any_eq_true.mpr ⟨record, hr, hc⟩)
        cases hrev : parseDecimal record.revision with
        | none => simp [hrev] at hrec
        | some revision =>
          simp only [hrev, Option.all_some, Bool.or_eq_true, decide_eq_true_eq, not_or,
            Bool.not_eq_false] at hrec
          exact ⟨hrec.1.2, by simp; omega⟩

namespace SyncDriver

variable {τ σ : Type} {toText : Json → String}

/-- The queue the store left when it last accepted one. -/
def accept (accepted : ProtocolQueue) : (op : AtomicOp) → op.Answer τ σ → ProtocolQueue
  | .transport .., _ => accepted
  | .persistAcknowledgement .., answer
  | .applyChangesAndPersist .., answer
  | .replaceAuthoritativeAndPersist .., answer =>
    match answer with
    | .ok stored => stored
    | .error _ => accepted

def StoreRefuses : (op : AtomicOp) → op.Answer τ σ → Prop
  | .transport .., _ => False
  | .persistAcknowledgement .., answer
  | .applyChangesAndPersist .., answer
  | .replaceAuthoritativeAndPersist .., answer =>
    match answer with
    | .ok _ => False
    | .error _ => True

/-- What a store may make of a queue it accepts: it keeps it valid and does not lower the
checkpoint. -/
structure StoreKeeps (toText : Json → String) (offered stored : ProtocolQueue) : Prop where
  valid : stored.validate toText = .ok ()
  forward : checkpointLe offered.checkpoint stored.checkpoint

/-- The queue accepted last, and whether a store call has been refused. -/
structure Progress where
  accepted : ProtocolQueue
  refused : Prop

/-- A refused store call must be the last call. `Honest` is what the transport promises, asked
with a given call. -/
def storeContract (toText : Json → String)
    (Honest : (op : TransportOp) → op.Answer τ → Prop) :
    Contract AtomicOp (AtomicOp.Answer τ σ) Progress where
  allowed progress op := ¬ progress.refused ∧
    match op with
    | .transport queue op => queue = progress.accepted ∧
        match op with
        | .pull checkpoint _ => checkpoint = progress.accepted.checkpoint
        | .push request => ∃ limit, progress.accepted.pushRequest limit = .ok request
        | .snapshot _ => True
    | .persistAcknowledgement queue request response =>
        (∃ limit, progress.accepted.pushRequest limit = .ok request) ∧
          ∃ count, progress.accepted.acknowledge response request = (.ok count, queue)
    | .applyChangesAndPersist changes queue => ∃ page limit,
        Honest (.pull progress.accepted.checkpoint limit) (.ok (.changes page)) ∧
          validatePullPage page progress.accepted.checkpoint = .ok () ∧ changes = page.changes ∧
          queue = { progress.accepted with checkpoint := page.checkpoint }
    | .replaceAuthoritativeAndPersist records queue => ∃ snapshot reset,
        Honest (.snapshot reset) (.ok snapshot) ∧
          validateSnapshot snapshot progress.accepted.checkpoint = .ok () ∧
          records = snapshot.records ∧
          queue = { progress.accepted with checkpoint := snapshot.checkpoint }
  expects _
    | .transport _ op, answer => Honest op answer
    | .persistAcknowledgement queue _ _, answer
    | .applyChangesAndPersist _ queue, answer
    | .replaceAuthoritativeAndPersist _ queue, answer =>
        ∀ stored, answer = .ok stored → StoreKeeps toText queue stored
  advance progress op answer :=
    { accepted := accept progress.accepted op answer
      refused := progress.refused ∨ StoreRefuses op answer }

variable {Honest : (op : TransportOp) → op.Answer τ → Prop} {accepted : ProtocolQueue}
  {refused : Prop}

/-- At the end the caller's queue is the one accepted last, it is valid, and a cycle that had a
store call refused does not succeed. -/
structure Settled (toText : Json → String) {β : Type} (progress : Progress)
    (out : Except (ProtocolSyncError τ σ σ) β × ProtocolQueue) : Prop where
  queue : out.2 = progress.accepted
  valid : ProtocolQueue.Valid toText progress.accepted
  notRefused : ∀ value, out.1 = .ok value → ¬ progress.refused

theorem Settled.error {β : Type} {error : ProtocolSyncError τ σ σ}
    (hvalid : ProtocolQueue.Valid toText accepted) :
    Settled toText ⟨accepted, refused⟩
      ((.error error, accepted) : Except (ProtocolSyncError τ σ σ) β × ProtocolQueue) :=
  ⟨rfl, hvalid, fun value h => by cases h⟩

theorem setCheckpoint_of_le {prior checkpoint : String} (h : checkpointLe prior checkpoint)
    (q : ProtocolQueue) : q.setCheckpoint checkpoint = (.ok (), { q with checkpoint }) := by
  obtain ⟨m, n, -, hn, -⟩ := h
  simp [ProtocolQueue.setCheckpoint, hn]

theorem not_refused (h : ¬ refused) : ¬ (refused ∨ False) := by
  rintro (hr | hf)
  · exact h hr
  · exact hf

theorem obeys_pullToCurrentAtomic (options : ProtocolSyncOptions) (pages : ℕ)
    (result : ProtocolSyncCycleResult) (hrun : ¬ refused)
    (hvalid : ProtocolQueue.Valid toText accepted) :
    Obeys (storeContract toText Honest) (Settled toText) ⟨accepted, refused⟩
      (pullToCurrentAtomic (τ := τ) (σ := σ) options pages accepted result) := by
  induction pages generalizing accepted refused result with
  | zero => exact .error hvalid
  | succ pages ih =>
    unfold pullToCurrentAtomic
    refine ⟨⟨hrun, rfl, rfl⟩, fun answer hhonest => ?_⟩
    match answer with
    | .error failure => exact .error hvalid
    | .ok (.resetRequired reset) =>
      dsimp only
      split
      · exact .error hvalid
      · refine ⟨⟨not_refused hrun, rfl, trivial⟩, fun answer hsnapshot => ?_⟩
        match answer with
        | .error failure => exact .error hvalid
        | .ok snapshot =>
          dsimp only
          cases hcheck : validateSnapshot snapshot accepted.checkpoint with
          | error message => exact .error hvalid
          | ok u =>
            rw [setCheckpoint_of_le (validateSnapshot_eq_ok hcheck).1]
            refine ⟨⟨not_refused (not_refused hrun), snapshot, reset, hsnapshot, hcheck, rfl, rfl⟩,
              fun answer hstore => ?_⟩
            match answer with
            | .error error => exact .error hvalid
            | .ok stored =>
              exact ih _ (not_refused (not_refused (not_refused hrun)))
                (ProtocolQueue.validate_eq_ok.mp (hstore stored rfl).valid)
    | .ok (.changes page) =>
      dsimp only
      cases hcheck : validatePullPage page accepted.checkpoint with
      | error message => exact .error hvalid
      | ok u =>
        rw [setCheckpoint_of_le (validatePullPage_eq_ok hcheck).1.advances]
        refine ⟨⟨not_refused hrun, page, options.pullLimit, hhonest, hcheck, rfl, rfl⟩,
          fun answer hstore => ?_⟩
        match answer with
        | .error error => exact .error hvalid
        | .ok stored =>
          have hstored := ProtocolQueue.validate_eq_ok.mp (hstore stored rfl).valid
          dsimp only
          split
          · exact ⟨rfl, hstored, fun _ _ => not_refused (not_refused hrun)⟩
          · split
            · exact .error hstored
            · exact ih _ (not_refused (not_refused hrun)) hstored

theorem obeys_pushPendingAtomic (options : ProtocolSyncOptions) (batches : ℕ)
    (result : ProtocolSyncCycleResult) (hrun : ¬ refused)
    (hvalid : ProtocolQueue.Valid toText accepted) :
    Obeys (storeContract toText Honest) (Settled toText) ⟨accepted, refused⟩
      (pushPendingAtomic (τ := τ) (σ := σ) options batches accepted result) := by
  induction batches generalizing accepted refused result with
  | zero => exact ⟨rfl, hvalid, fun _ _ => hrun⟩
  | succ batches ih =>
    unfold pushPendingAtomic
    cases hrequest : accepted.pushRequest options.pushLimit with
    | error error => exact .error hvalid
    | ok request =>
      dsimp only
      split
      · exact ⟨rfl, hvalid, fun _ _ => hrun⟩
      · refine ⟨⟨hrun, rfl, options.pushLimit, hrequest⟩, fun answer hhonest => ?_⟩
        match answer with
        | .error failure => exact .error hvalid
        | .ok response =>
          dsimp only
          obtain ⟨error, hrefuse⟩ | ⟨watermark, count, -, hack⟩ :=
            ProtocolQueue.acknowledge_cases (fun m hm => (hvalid.rows m hm).parses) response request
          · rw [hrefuse]
            exact .error hvalid
          · rw [hack]
            refine ⟨⟨not_refused hrun, ⟨options.pushLimit, hrequest⟩, count, hack⟩,
              fun answer hstore => ?_⟩
            match answer with
            | .error error => exact .error hvalid
            | .ok stored =>
              exact ih _ (not_refused (not_refused hrun))
                (ProtocolQueue.validate_eq_ok.mp (hstore stored rfl).valid)

theorem obeys_syncCycleAtomic (options : ProtocolSyncOptions) (hrun : ¬ refused)
    (hvalid : ProtocolQueue.Valid toText accepted) :
    Obeys (storeContract toText Honest) (Settled toText) ⟨accepted, refused⟩
      (syncCycleAtomic (τ := τ) (σ := σ) options accepted) := by
  refine (obeys_pullToCurrentAtomic options _ _ hrun hvalid).bind fun k out hout => ?_
  obtain ⟨accepted', refused'⟩ := k
  obtain ⟨hqueue, hvalid', hrun'⟩ := hout
  match out with
  | (.error error, queue) =>
    subst hqueue
    exact .error hvalid'
  | (.ok result, queue) =>
    subst hqueue
    refine (obeys_pushPendingAtomic options _ _ (hrun' result rfl) hvalid').bind fun k out hout => ?_
    obtain ⟨accepted'', refused''⟩ := k
    obtain ⟨hqueue, hvalid'', hrun''⟩ := hout
    match out with
    | (.error error, queue) =>
      subst hqueue
      exact .error hvalid''
    | (.ok result, queue) =>
      subst hqueue
      refine (obeys_pullToCurrentAtomic options _ _ (hrun'' result rfl) hvalid'').bind
        fun k out hout => ?_
      obtain ⟨hqueue, hvalidEnd, hrunEnd⟩ := hout
      match out with
      | (.error error, queue) =>
        subst hqueue
        exact .error hvalidEnd
      | (.ok result, queue) =>
        subst hqueue
        exact ⟨rfl, hvalidEnd, fun _ _ => hrunEnd result rfl⟩

/-- The queue accepted last after some calls and answers; the first one if there was none. -/
def lastAccepted : ProtocolQueue → List (Σ op, AtomicOp.Answer τ σ op) → ProtocolQueue
  | queue, [] => queue
  | queue, ⟨op, answer⟩ :: t => lastAccepted (accept queue op answer) t

/-- The store keeps to `StoreKeeps` whenever it accepts a queue. -/
def StoreAnswers (toText : Json → String) : (op : AtomicOp) → op.Answer τ σ → Prop
  | .transport .., _ => True
  | .persistAcknowledgement queue _ _, answer
  | .applyChangesAndPersist _ queue, answer
  | .replaceAuthoritativeAndPersist _ queue, answer =>
    ∀ stored, answer = .ok stored → StoreKeeps toText queue stored

/-- What a call may show or offer, given the queue accepted before it. -/
def CallSafe (before : ProtocolQueue) : AtomicOp → Prop
  | .transport queue _ => queue = before
  | .persistAcknowledgement queue _ _ => queue.checkpoint = before.checkpoint
  | .applyChangesAndPersist changes queue =>
    PageWithin before.checkpoint changes queue.checkpoint ∧
      (parseDecimal before.checkpoint = parseDecimal queue.checkpoint → changes = [])
  | .replaceAuthoritativeAndPersist _ queue => checkpointLe before.checkpoint queue.checkpoint

theorem lastAccepted_eq (toText : Json → String)
    (Honest : (op : TransportOp) → op.Answer τ → Prop) (progress : Progress)
    (t : List (Σ op, AtomicOp.Answer τ σ op)) :
    lastAccepted progress.accepted t =
      ((storeContract toText Honest).advanceAll progress t).accepted := by
  induction t generalizing progress with
  | nil => rfl
  | cons e t ih => exact ih ((storeContract toText Honest).advance progress e.1 e.2)

theorem refused_of_mem (toText : Json → String)
    (Honest : (op : TransportOp) → op.Answer τ → Prop) {progress : Progress}
    {t : List (Σ op, AtomicOp.Answer τ σ op)}
    (h : progress.refused ∨ ∃ e ∈ t, StoreRefuses e.1 e.2) :
    ((storeContract toText Honest).advanceAll progress t).refused := by
  induction t generalizing progress with
  | nil =>
    rcases h with h | ⟨e, he, -⟩
    · exact h
    · cases he
  | cons e t ih =>
    refine ih ?_
    rcases h with h | ⟨e', he', hr⟩
    · exact .inl (.inl h)
    · rcases List.mem_cons.mp he' with rfl | he'
      · exact .inl (.inr hr)
      · exact .inr ⟨e', he', hr⟩

theorem acknowledge_checkpoint (q : ProtocolQueue) (response : PushResponse)
    (request : PushRequest) : (q.acknowledge response request).2.checkpoint = q.checkpoint := by
  unfold ProtocolQueue.acknowledge
  split_ifs
  · rfl
  · rfl
  · cases parseDecimal response.lastMutationId with
    | none => rfl
    | some watermark =>
      dsimp only
      split
      · rfl
      · rfl

theorem callSafe_of_allowed {progress : Progress} {op : AtomicOp}
    (h : (storeContract (σ := σ) toText Honest).allowed progress op) :
    CallSafe progress.accepted op := by
  cases op with
  | transport queue op => exact h.2.1
  | persistAcknowledgement queue request response =>
    obtain ⟨-, -, count, hack⟩ := h
    have := acknowledge_checkpoint progress.accepted response request
    rwa [hack] at this
  | applyChangesAndPersist changes queue =>
    obtain ⟨-, page, limit, -, hcheck, rfl, rfl⟩ := h
    have hpage := (validatePullPage_eq_ok hcheck).1
    exact ⟨hpage, hpage.empty_of_eq⟩
  | replaceAuthoritativeAndPersist records queue =>
    obtain ⟨-, snapshot, reset, -, hcheck, -, rfl⟩ := h
    exact (validateSnapshot_eq_ok hcheck).1

theorem valid_accept (hvalid : accepted.validate toText = .ok ()) {op : AtomicOp}
    {answer : op.Answer τ σ} (h : StoreAnswers toText op answer) :
    (accept accepted op answer).validate toText = .ok () := by
  cases op with
  | transport queue op => exact hvalid
  | persistAcknowledgement queue request response =>
    cases answer with
    | error e => exact hvalid
    | ok stored => exact (h stored rfl).valid
  | applyChangesAndPersist changes queue =>
    cases answer with
    | error e => exact hvalid
    | ok stored => exact (h stored rfl).valid
  | replaceAuthoritativeAndPersist records queue =>
    cases answer with
    | error e => exact hvalid
    | ok stored => exact (h stored rfl).valid

/-- One call and its answer never lower the accepted checkpoint. -/
theorem checkpointLe_accept (hvalid : accepted.validate toText = .ok ()) {op : AtomicOp}
    {answer : op.Answer τ σ} (hsafe : CallSafe accepted op) (h : StoreAnswers toText op answer) :
    checkpointLe accepted.checkpoint (accept accepted op answer).checkpoint := by
  have hrefl : checkpointLe accepted.checkpoint accepted.checkpoint :=
    .refl (ProtocolQueue.validate_eq_ok.mp hvalid).checkpoint
  cases op with
  | transport queue op => exact hrefl
  | persistAcknowledgement queue request response =>
    cases answer with
    | error e => exact hrefl
    | ok stored =>
      have hforward := (h stored rfl).forward
      rwa [show queue.checkpoint = accepted.checkpoint from hsafe] at hforward
  | applyChangesAndPersist changes queue =>
    cases answer with
    | error e => exact hrefl
    | ok stored => exact hsafe.1.advances.trans (h stored rfl).forward
  | replaceAuthoritativeAndPersist records queue =>
    cases answer with
    | error e => exact hrefl
    | ok stored => exact checkpointLe.trans hsafe (h stored rfl).forward

theorem valid_lastAccepted {queue : ProtocolQueue} (hvalid : queue.validate toText = .ok ())
    {t : List (Σ op, AtomicOp.Answer τ σ op)} (h : ∀ e ∈ t, StoreAnswers toText e.1 e.2) :
    (lastAccepted queue t).validate toText = .ok () := by
  induction t generalizing queue with
  | nil => exact hvalid
  | cons e t ih =>
    exact ih (valid_accept hvalid (h e List.mem_cons_self))
      fun e' he' => h e' (List.mem_cons_of_mem _ he')

/-- A transport that promises nothing. -/
def AnyTransport (op : TransportOp) (_ : op.Answer τ) : Prop := True

theorem expected_of_storeAnswers {t : List (Σ op, AtomicOp.Answer τ σ op)}
    (h : ∀ e ∈ t, StoreAnswers toText e.1 e.2) (k : Progress) :
    (storeContract toText AnyTransport).Expected k t := by
  induction t generalizing k with
  | nil => trivial
  | cons e t ih =>
    refine ⟨?_, ih (fun e' he' => h e' (List.mem_cons_of_mem _ he')) _⟩
    have hanswer := h e List.mem_cons_self
    obtain ⟨op, answer⟩ := e
    cases op with
    | transport queue op => trivial
    | persistAcknowledgement queue request response => exact hanswer
    | applyChangesAndPersist changes queue => exact hanswer
    | replaceAuthoritativeAndPersist records queue => exact hanswer

/-- At every call of a cycle the caller's queue is the one accepted last, or the one the call
offers to the store next; the offered pages are in order; the accepted checkpoint never goes back;
a refused store call is the last call; and the cycle returns the queue accepted last, whatever it
returns. -/
theorem syncCycleAtomic_safe (toText : Json → String) (options : ProtocolSyncOptions)
    {queue : ProtocolQueue} (hvalid : queue.validate toText = .ok ())
    {t : List (Σ op, AtomicOp.Answer τ σ op)} {rest : AtomicProgram τ σ ProtocolSyncCycleResult}
    (ht : Trace (syncCycleAtomic options queue) t rest)
    (hstore : ∀ e ∈ t, StoreAnswers toText e.1 e.2) :
    (∀ before e after, t = before ++ e :: after →
      CallSafe (lastAccepted queue before) e.1 ∧
      checkpointLe (lastAccepted queue before).checkpoint
        (lastAccepted queue (before ++ [e])).checkpoint ∧
      ∀ e' ∈ before, ¬ StoreRefuses e'.1 e'.2) ∧
    ∀ outcome memory, rest = .done (outcome, memory) → memory = lastAccepted queue t ∧
      ∀ result, outcome = .ok result → ∀ e ∈ t, ¬ StoreRefuses e.1 e.2 := by
  have hlast := lastAccepted_eq (τ := τ) (σ := σ) toText AnyTransport ⟨queue, False⟩
  obtain ⟨hallowed, hpost⟩ := (obeys_syncCycleAtomic options (fun h : False => h)
    (ProtocolQueue.validate_eq_ok.mp hvalid)).trace ht (expected_of_storeAnswers hstore _)
  refine ⟨fun before e after he => ?_, fun outcome memory hrest => ?_⟩
  · subst he
    have hsafe : CallSafe (lastAccepted queue before) e.1 := by
      rw [hlast]
      exact callSafe_of_allowed hallowed.at
    refine ⟨hsafe, ?_, fun e' he' hr => ?_⟩
    · have hbefore : (lastAccepted queue before).validate toText = .ok () :=
        valid_lastAccepted hvalid fun e' he' => hstore e' (by simp [he'])
      have hstep : lastAccepted queue (before ++ [e]) =
          accept (lastAccepted queue before) e.1 e.2 := by
        rw [hlast, hlast, Contract.advanceAll_append]
        rfl
      rw [hstep]
      exact checkpointLe_accept hbefore hsafe (hstore e (by simp))
    · exact hallowed.at.1 (refused_of_mem toText AnyTransport (.inr ⟨e', he', hr⟩))
  · subst hrest
    obtain ⟨hqueue, -, hrun⟩ := hpost
    refine ⟨by rw [hlast]; exact hqueue, fun result hresult e he hr => ?_⟩
    exact hrun result hresult (refused_of_mem toText AnyTransport (.inr ⟨e, he, hr⟩))

def oneChange : Change :=
  { checkpoint := "1", table := "todos", recordId := "b", operation := .delete, record := none
    revision := "1", source := none }

def onePage : PullResponse :=
  { protocolVersion := 1, checkpoint := "1", hasMore := false, changes := [oneChange] }

/-- One delete is pending. -/
def pendingQueue : ProtocolQueue :=
  ((ProtocolQueue.empty "client" 10 100).queueDelete "todos" "a" none).2

def movedQueue : ProtocolQueue := (pendingQueue.setCheckpoint "1").2

def pendingRequest : PushRequest :=
  { protocolVersion := 1, clientId := "client", mutations := movedQueue.pending }

def appliedResponse : PushResponse :=
  { protocolVersion := 1, clientId := "client", lastMutationId := "1", checkpoint := "2"
    results := [{ mutationId := "1", status := .applied, originalStatus := none
                  checkpoint := some "2", revision := none, code := none, message := none }] }

def confirmedQueue : ProtocolQueue := (movedQueue.acknowledge appliedResponse pendingRequest).2

/-- The store accepts a page and then refuses an acknowledgement. -/
def refusedAcknowledgement : List (Σ op, AtomicOp.Answer Unit Unit op) :=
  [⟨.transport pendingQueue (.pull "0" 100), .ok (.changes onePage)⟩,
    ⟨.applyChangesAndPersist [oneChange] movedQueue, .ok movedQueue⟩,
    ⟨.transport movedQueue (.push pendingRequest), .ok appliedResponse⟩,
    ⟨.persistAcknowledgement confirmedQueue pendingRequest appliedResponse, .error ()⟩]

/-- The refused queue is not returned, and the page is. -/
theorem syncCycleAtomic_safe_refused :
    CallSafe (lastAccepted pendingQueue (refusedAcknowledgement.take 1))
        (.applyChangesAndPersist [oneChange] movedQueue) ∧
      CallSafe (lastAccepted pendingQueue (refusedAcknowledgement.take 3))
        (.persistAcknowledgement confirmedQueue pendingRequest appliedResponse) ∧
      movedQueue = lastAccepted pendingQueue refusedAcknowledgement := by
  have ht : Trace (syncCycleAtomic .default pendingQueue) refusedAcknowledgement
      (.done (.error (.persistence ()), movedQueue)) :=
    .cons (.cons (.cons (.cons (.nil _))))
  have hvalid : pendingQueue.validate (fun _ => "") = .ok () := by decide
  have hmoved : StoreKeeps (fun _ => "") movedQueue movedQueue :=
    ⟨by decide, checkpointLe.refl (by decide)⟩
  have hstore : ∀ e ∈ refusedAcknowledgement, StoreAnswers (fun _ => "") e.1 e.2 := by
    simp only [refusedAcknowledgement, List.forall_mem_cons]
    refine ⟨trivial, fun stored hstored => ?_, trivial, fun stored hstored => ?_, by simp⟩
    · cases hstored
      exact hmoved
    · cases hstored
  have hsafe := syncCycleAtomic_safe (fun _ => "") .default hvalid ht hstore
  exact ⟨(hsafe.1 (refusedAcknowledgement.take 1) _ (refusedAcknowledgement.drop 2) rfl).1,
    (hsafe.1 (refusedAcknowledgement.take 3) _ [] rfl).1, (hsafe.2 _ _ rfl).1⟩

end SyncDriver
end OptoSync
