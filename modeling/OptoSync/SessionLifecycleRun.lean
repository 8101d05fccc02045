import OptoSync.SessionLifecycle
import OptoSync.Transition

/-!
# Runs of the session lifecycle

What the application sees of a sequence of logins and logouts follows from the calls alone, whatever
its callbacks answer. The Rust lifecycle does it call by call; the Dart lifecycle, whose calls may
overlap, queues them and does the same.
-/
namespace OptoSync.Session
open Interaction Transition

variable {ε τ κ : Type}

/-- The session that a call leaves. -/
def sessionAfter (session : Option SessionIdentity) : SessionCall → Option SessionIdentity
  | .login next => some (session.getD next)
  | .logout => none

/-- The callbacks of a call: a login syncs once a session, a logout attempts every stage. -/
def stages (session : Option SessionIdentity) : SessionCall → List SessionOp
  | .login _ => if session.isSome then [] else [.sync .login]
  | .logout =>
    (if session.isSome then [.sync .logout] else []) ++
      [.forceFlushTelemetry, .clearCredentials session]

def sessionFrom (session : Option SessionIdentity) (requests : List SessionCall) :
    Option SessionIdentity :=
  requests.foldl sessionAfter session

def stagesFrom : Option SessionIdentity → List SessionCall → List SessionOp
  | _, [] => []
  | session, request :: requests =>
    stages session request ++ stagesFrom (sessionAfter session request) requests

theorem sessionFrom_concat (session : Option SessionIdentity) (requests : List SessionCall)
    (request : SessionCall) :
    sessionFrom session (requests ++ [request]) =
      sessionAfter (sessionFrom session requests) request := by
  simp [sessionFrom]

theorem stagesFrom_append (session : Option SessionIdentity) (requests more : List SessionCall) :
    stagesFrom session (requests ++ more) =
      stagesFrom session requests ++ stagesFrom (sessionFrom session requests) more := by
  induction requests generalizing session with
  | nil => rfl
  | cons request requests ih =>
    rw [List.cons_append, stagesFrom, stagesFrom, ih, List.append_assoc]
    rfl

def opsOf (steps : List (SessionStep ε τ κ)) : List SessionOp :=
  (callbacks steps).map Sigma.fst

@[simp] theorem callbacks_append (steps more : List (SessionStep ε τ κ)) :
    callbacks (steps ++ more) = callbacks steps ++ callbacks more :=
  List.filter_append ..

@[simp] theorem opsOf_append (steps more : List (SessionStep ε τ κ)) :
    opsOf (steps ++ more) = opsOf steps ++ opsOf more := by
  simp [opsOf]

theorem assigned_append (session : Option SessionIdentity) (steps more : List (SessionStep ε τ κ)) :
    assigned session (steps ++ more) = assigned (assigned session steps) more := by
  induction steps generalizing session with
  | nil => rfl
  | cons step steps ih =>
    obtain ⟨op, answer⟩ := step
    cases op <;> exact ih _

section

variable {session current : Option SessionIdentity} {request : SessionCall}
  {steps : List (SessionStep ε τ κ)} {report : SessionReport ε τ κ}

namespace Rust

theorem finishLogout_done (session : Option SessionIdentity)
    {answer : Option (Except ε DurableSyncReceipt)} (h : Trace (finishLogout current answer) steps
      (.done report)) :
    opsOf steps = [.forceFlushTelemetry, .clearCredentials current] ∧
      assigned session steps = session := by
  obtain ⟨telemetry, u, rfl, hu⟩ := trace_call_done_iff.mp h
  obtain ⟨credential, v, rfl, hv⟩ := trace_call_done_iff.mp hu
  obtain ⟨rfl, -⟩ := trace_done_iff.mp hv
  exact ⟨rfl, rfl⟩

/-- A call makes the callbacks of its stages and leaves their session. -/
theorem program_done (h : Trace (program session request) steps (.done report)) :
    opsOf steps = stages session request ∧ assigned session steps = sessionAfter session request := by
  cases request with
  | login next =>
    cases session with
    | none =>
      obtain ⟨written, u, rfl, hu⟩ := trace_call_done_iff.mp h
      obtain ⟨answer, v, rfl, hv⟩ := trace_call_done_iff.mp hu
      obtain ⟨rfl, -⟩ := trace_done_iff.mp hv
      exact ⟨rfl, rfl⟩
    | some current =>
      have hsteps : steps = [] := by
        rw [program, onLogin] at h
        split at h
        · exact (trace_done_iff.mp h).1
        · exact (trace_done_iff.mp h).1
      rw [hsteps]
      exact ⟨rfl, rfl⟩
  | logout =>
    obtain ⟨written, u, rfl, hu⟩ := trace_call_done_iff.mp h
    cases session with
    | none =>
      obtain ⟨hops, hsession⟩ := finishLogout_done none hu
      exact ⟨hops, hsession⟩
    | some current =>
      obtain ⟨answer, v, rfl, hv⟩ := trace_call_done_iff.mp hu
      obtain ⟨hops, hsession⟩ := finishLogout_done none hv
      exact ⟨congrArg (SessionOp.sync .logout :: ·) hops, hsession⟩

end Rust

namespace Dart

theorem sameSession_eq (current other : SessionIdentity) :
    sameSession current other = decide (current = other) := by
  rw [Bool.eq_iff_iff]
  cases current
  cases other
  simp [sameSession, and_assoc]

/-- The Rust end of a logout, with the answers of the Dart end. -/
theorem finishLogout_agrees (answer : Option (Except ε DurableSyncReceipt))
    (h : Trace (finishLogout current (answer.bind valueOf) (answer.bind errorOf)) steps
      (.done report)) :
    (∃ more, Trace (Rust.finishLogout current answer) more (.done report) ∧
        callbacks more = callbacks steps) ∧ assigned session steps = none := by
  obtain ⟨telemetry, u, rfl, hu⟩ := trace_call_done_iff.mp h
  obtain ⟨credential, v, rfl, hv⟩ := trace_call_done_iff.mp hu
  obtain ⟨written, w, rfl, hw⟩ := trace_call_done_iff.mp hv
  obtain ⟨rfl, hreport⟩ := trace_done_iff.mp hw
  have hcleared : (valueOf credential).isSome = (errorOf credential).isNone := by
    cases credential <;> rfl
  rw [hcleared] at hreport
  refine ⟨⟨[⟨.forceFlushTelemetry, telemetry⟩, ⟨.clearCredentials current, credential⟩], ?_, rfl⟩,
    rfl⟩
  rw [hreport]
  exact .cons (.cons (.nil _))

/-- The Rust program does what the Dart program did; only its assignments come sooner. -/
theorem program_agrees (h : Trace (program session request) steps (.done report)) :
    (∃ more, Trace (Rust.program session request) more (.done report) ∧
        callbacks more = callbacks steps) ∧
      assigned session steps = sessionAfter session request := by
  cases request with
  | login next =>
    cases session with
    | none =>
      obtain ⟨written, u, rfl, hu⟩ := trace_call_done_iff.mp h
      obtain ⟨answer, v, rfl, hv⟩ := trace_call_done_iff.mp hu
      obtain rfl : v = [] := by
        cases answer <;> exact (trace_done_iff.mp hv).1
      refine ⟨⟨[⟨.setSession (some next), ()⟩, ⟨.sync .login, answer⟩], ?_, rfl⟩, rfl⟩
      cases answer with
      | ok receipt =>
        rw [(trace_done_iff.mp hv).2]
        exact .cons (.cons (.nil _))
      | error error =>
        rw [(trace_done_iff.mp hv).2]
        exact .cons (.cons (.nil _))
    | some current =>
      have hsteps : steps = [] ∧ Rust.program (some current) (.login next) = .done report := by
        rw [program, onLogin, sameSession_eq] at h
        rw [Rust.program, Rust.onLogin]
        by_cases hsame : current = next
        · simp only [hsame, decide_true, Bool.not_true, Bool.false_eq_true, if_false] at h
          rw [if_neg (not_not.mpr hsame)]
          obtain ⟨hsteps, hreport⟩ := trace_done_iff.mp h
          exact ⟨hsteps, by rw [hsame, hreport]⟩
        · simp only [hsame, decide_false, Bool.not_false, if_true] at h
          rw [if_pos hsame]
          obtain ⟨hsteps, hreport⟩ := trace_done_iff.mp h
          exact ⟨hsteps, hreport.symm⟩
      obtain ⟨rfl, hrust⟩ := hsteps
      refine ⟨⟨[], ?_, rfl⟩, rfl⟩
      rw [hrust]
      exact .nil _
  | logout =>
    cases session with
    | none =>
      obtain ⟨⟨more, hmore, hcallbacks⟩, hsession⟩ := finishLogout_agrees none h
      exact ⟨⟨⟨.setSession none, ()⟩ :: more, .cons hmore, hcallbacks⟩, hsession⟩
    | some current =>
      obtain ⟨answer, v, rfl, hv⟩ := trace_call_done_iff.mp h
      obtain ⟨⟨more, hmore, hcallbacks⟩, hsession⟩ := finishLogout_agrees (some answer) hv
      refine ⟨⟨⟨.setSession none, ()⟩ :: ⟨.sync .logout, answer⟩ :: more, .cons (.cons hmore), ?_⟩,
        hsession⟩
      exact congrArg (⟨.sync .logout, answer⟩ :: ·) hcallbacks

end Dart
end

theorem Sequential.spec {requests : List SessionCall} {steps : List (SessionStep ε τ κ)}
    {reports : List (SessionReport ε τ κ)} {session : Option SessionIdentity}
    (h : Sequential Rust.program requests steps reports session) :
    opsOf steps = stagesFrom none requests ∧ session = sessionFrom none requests ∧
      reports.length = requests.length := by
  induction h with
  | nil => exact ⟨rfl, rfl, rfl⟩
  | snoc _ htrace ih =>
    obtain ⟨hops, rfl, hlength⟩ := ih
    obtain ⟨hmore, hsession⟩ := Rust.program_done htrace
    refine ⟨?_, ?_, by simp [hlength]⟩
    · rw [opsOf_append, hops, hmore, stagesFrom_append]
      simp [stagesFrom]
    · rw [hsession, sessionFrom_concat]

theorem Sequential.agrees {requests : List SessionCall} {steps : List (SessionStep ε τ κ)}
    {reports : List (SessionReport ε τ κ)} {session : Option SessionIdentity}
    (h : Sequential Dart.program requests steps reports session) :
    ∃ more, Sequential Rust.program requests more reports session ∧
      callbacks more = callbacks steps := by
  induction h with
  | nil => exact ⟨[], .nil, rfl⟩
  | snoc _ htrace ih =>
    obtain ⟨more, hrust, hcallbacks⟩ := ih
    obtain ⟨⟨last, hlast, hsame⟩, hsession⟩ := Dart.program_agrees htrace
    refine ⟨more ++ last, ?_, by rw [callbacks_append, hcallbacks, hsame, callbacks_append]⟩
    rw [hsession, ← (Rust.program_done hlast).2]
    exact .snoc hrust hlast

/-! ## The Dart lifecycle -/

/-- A call waits for the one before it, runs, or has completed its future. -/
inductive CallState (ε τ κ : Type)
  | waiting
  | running (program : SessionProgram ε τ κ)
  | finished (report : SessionReport ε τ κ)

def CallState.of : SessionProgram ε τ κ → CallState ε τ κ
  | .done report => .finished report
  | .call op resume => .running (.call op resume)

/-- The calls in the order in which they were made, and the steps that they have taken. -/
structure AuthenticatedSessionLifecycle (ε τ κ : Type) where
  session : Option SessionIdentity
  requests : List (SessionCall × CallState ε τ κ)
  steps : List (SessionStep ε τ κ)

inductive LifecycleEvent (ε τ κ : Type)
  | request (request : SessionCall)
  /-- The `await` of the predecessor comes back. -/
  | turn (n : ℕ)
  | answer (n : ℕ) (answer : (op : SessionOp) → op.Answer ε τ κ)

namespace AuthenticatedSessionLifecycle

def initial : AuthenticatedSessionLifecycle ε τ κ where
  session := none
  requests := []
  steps := []

/-- The call that `_tail` stood for has released it. -/
def released (s : AuthenticatedSessionLifecycle ε τ κ) : ℕ → Bool
  | 0 => true
  | n + 1 =>
    match s.requests[n]? with
    | some (_, .finished _) => true
    | _ => false

def assign (session : Option SessionIdentity) : SessionOp → Option SessionIdentity
  | .setSession next => next
  | _ => session

def next (s : AuthenticatedSessionLifecycle ε τ κ) :
    LifecycleEvent ε τ κ → AuthenticatedSessionLifecycle ε τ κ
  | .request request => { s with requests := s.requests ++ [(request, .waiting)] }
  | .turn n =>
    match s.requests[n]? with
    | some (request, .waiting) =>
      if s.released n = true then
        { s with requests := s.requests.set n (request, .of (Dart.program s.session request)) }
      else s
    | _ => s
  | .answer n answer =>
    match s.requests[n]? with
    | some (request, .running (.call op resume)) =>
      { session := assign s.session op
        requests := s.requests.set n (request, .of (resume (answer op)))
        steps := s.steps ++ [⟨op, answer op⟩] }
    | _ => s

end AuthenticatedSessionLifecycle

/-- The finished calls ran one after the other; of the others, at most the first is running. -/
inductive Serial (s : AuthenticatedSessionLifecycle ε τ κ)
    (finished : List (SessionCall × SessionReport ε τ κ)) (queued : List SessionCall) : Prop
  | idle (requests : s.requests = finished.map (fun pair => (pair.1, .finished pair.2)) ++
        queued.map (fun request => (request, .waiting)))
      (past : Sequential Dart.program (finished.map Prod.fst) s.steps (finished.map Prod.snd)
        s.session)
  | running {request op resume steps more session}
      (requests : s.requests = finished.map (fun pair => (pair.1, .finished pair.2)) ++
        (request, .running (.call op resume)) :: queued.map (fun request => (request, .waiting)))
      (past : Sequential Dart.program (finished.map Prod.fst) steps (finished.map Prod.snd) session)
      (present : Trace (Dart.program session request) more (.call op resume))
      (all : s.steps = steps ++ more) (now : s.session = assigned session more)

section

variable {s : AuthenticatedSessionLifecycle ε τ κ}
  {finished : List (SessionCall × SessionReport ε τ κ)} {queued : List SessionCall}

/-- Finished calls and then unfinished ones: where a call can stand. -/
theorem getElem_finished {n : ℕ} {tail : List (SessionCall × CallState ε τ κ)}
    {entry : SessionCall × CallState ε τ κ}
    (h : (finished.map (fun pair => (pair.1, CallState.finished pair.2)) ++ tail)[n]? = some entry) :
    (n < finished.length ∧ ∃ report, entry.2 = .finished report) ∨
      finished.length ≤ n ∧ tail[n - finished.length]? = some entry := by
  rcases Nat.lt_or_ge n finished.length with hlt | hge
  · left
    rw [List.getElem?_append_left (by simpa using hlt), List.getElem?_map,
      Option.map_eq_some_iff] at h
    obtain ⟨pair, -, rfl⟩ := h
    exact ⟨hlt, pair.2, rfl⟩
  · right
    rw [List.getElem?_append_right (by simpa using hge), List.length_map] at h
    exact ⟨hge, h⟩

theorem released_le {n : ℕ} {tail : List (SessionCall × CallState ε τ κ)}
    (hrequests : s.requests =
      finished.map (fun pair => (pair.1, CallState.finished pair.2)) ++ tail)
    (htail : ∀ entry ∈ tail, ∀ report, entry.2 ≠ .finished report)
    (h : s.released n = true) : n ≤ finished.length := by
  cases n with
  | zero => exact Nat.zero_le _
  | succ n =>
    rw [AuthenticatedSessionLifecycle.released, hrequests] at h
    split at h
    · rename_i request report hentry
      rcases getElem_finished hentry with ⟨hlt, -⟩ | ⟨-, htailentry⟩
      · exact hlt
      · exact absurd rfl (htail _ (List.mem_of_getElem? htailentry) report)
    · cases h

theorem set_first {entry entry' : SessionCall × CallState ε τ κ}
    {tail : List (SessionCall × CallState ε τ κ)} :
    (finished.map (fun pair => (pair.1, CallState.finished pair.2)) ++ entry :: tail).set
        finished.length entry' =
      finished.map (fun pair => (pair.1, CallState.finished pair.2)) ++ entry' :: tail := by
  rw [List.set_append_right _ _ (by simp)]
  simp

/-- The running call has taken a step, the last one perhaps. -/
theorem Serial.proceed {request : SessionCall} {program : SessionProgram ε τ κ}
    {steps more : List (SessionStep ε τ κ)} {session : Option SessionIdentity}
    (hrequests : s.requests = finished.map (fun pair => (pair.1, .finished pair.2)) ++
      (request, .of program) :: queued.map (fun request => (request, .waiting)))
    (hpast : Sequential Dart.program (finished.map Prod.fst) steps (finished.map Prod.snd) session)
    (hpresent : Trace (Dart.program session request) more program)
    (hall : s.steps = steps ++ more) (hnow : s.session = assigned session more) :
    ∃ finished queued, Serial s finished queued := by
  cases program with
  | done report =>
    refine ⟨finished ++ [(request, report)], queued, .idle (by simp [hrequests, CallState.of]) ?_⟩
    rw [hall, hnow, List.map_append, List.map_append]
    exact .snoc hpast hpresent
  | call op resume => exact ⟨finished, queued, .running hrequests hpast hpresent hall hnow⟩

theorem Serial.turn (h : Serial s finished queued) (n : ℕ) :
    ∃ finished queued, Serial (s.next (.turn n)) finished queued := by
  rw [AuthenticatedSessionLifecycle.next]
  split
  · rename_i request hentry
    split
    · rename_i hreleased
      cases h with
      | idle hrequests hpast =>
        have hle := released_le hrequests (by simp) hreleased
        rw [hrequests] at hentry
        rcases getElem_finished hentry with ⟨-, report, hreport⟩ | ⟨hge, htail⟩
        · cases hreport
        · obtain rfl : n = finished.length := by omega
          rw [Nat.sub_self] at htail
          cases queued with
          | nil => cases htail
          | cons first queued =>
            cases htail
            have hset := congrArg (fun requests => requests.set finished.length
              (request, .of (Dart.program s.session request))) hrequests
            rw [List.map_cons, set_first] at hset
            exact Serial.proceed hset hpast (.nil _) (List.append_nil s.steps).symm rfl
      | running hrequests hpast hpresent hall hnow =>
        have hle := released_le hrequests (by simp) hreleased
        rw [hrequests] at hentry
        rcases getElem_finished hentry with ⟨-, report, hreport⟩ | ⟨hge, htail⟩
        · cases hreport
        · obtain rfl : n = finished.length := by omega
          rw [Nat.sub_self] at htail
          cases htail
    · exact ⟨finished, queued, h⟩
  · exact ⟨finished, queued, h⟩

theorem assign_eq (session : Option SessionIdentity) (op : SessionOp) (answer : op.Answer ε τ κ) :
    AuthenticatedSessionLifecycle.assign session op = assigned session [⟨op, answer⟩] := by
  cases op <;> rfl

theorem Serial.answer (h : Serial s finished queued) (n : ℕ)
    (answer : (op : SessionOp) → op.Answer ε τ κ) :
    ∃ finished queued, Serial (s.next (.answer n answer)) finished queued := by
  rw [AuthenticatedSessionLifecycle.next]
  split
  · rename_i request op resume hentry
    cases h with
    | idle hrequests hpast =>
      rw [hrequests] at hentry
      rcases getElem_finished hentry with ⟨-, report, hreport⟩ | ⟨hge, htail⟩
      · cases hreport
      · obtain ⟨first, -, hfirst⟩ := List.mem_map.mp (List.mem_of_getElem? htail)
        cases hfirst
    | running hrequests hpast hpresent hall hnow =>
      rw [hrequests] at hentry
      rcases getElem_finished hentry with ⟨-, report, hreport⟩ | ⟨hge, htail⟩
      · cases hreport
      · obtain rfl : n = finished.length := by
          by_contra hne
          obtain ⟨k, hk⟩ : ∃ k, n - finished.length = k + 1 :=
            ⟨n - finished.length - 1, by omega⟩
          rw [hk, List.getElem?_cons_succ] at htail
          obtain ⟨first, -, hfirst⟩ := List.mem_map.mp (List.mem_of_getElem? htail)
          cases hfirst
        rw [Nat.sub_self] at htail
        cases htail
        have hset := congrArg (fun requests => requests.set finished.length
          (request, .of (resume (answer op)))) hrequests
        rw [set_first] at hset
        have hstep : Trace (.call op resume) [⟨op, answer op⟩] (resume (answer op)) :=
          .cons (.nil _)
        refine Serial.proceed hset hpast (hpresent.append hstep) ?_ ?_
        · dsimp only
          rw [hall, List.append_assoc]
        · dsimp only
          rw [hnow, assigned_append]
          exact assign_eq _ _ _
  · exact ⟨finished, queued, h⟩

theorem Serial.next (h : Serial s finished queued) (e : LifecycleEvent ε τ κ) :
    ∃ finished queued, Serial (s.next e) finished queued := by
  cases e with
  | request request =>
    cases h with
    | idle hrequests hpast =>
      refine ⟨finished, queued ++ [request], .idle ?_ hpast⟩
      simp [AuthenticatedSessionLifecycle.next, hrequests]
    | running hrequests hpast hpresent hall hnow =>
      refine ⟨finished, queued ++ [request], .running ?_ hpast hpresent hall hnow⟩
      simp [AuthenticatedSessionLifecycle.next, hrequests]
  | turn n => exact h.turn n
  | answer n answer => exact h.answer n answer

theorem serial_run (events : List (LifecycleEvent ε τ κ)) :
    ∃ finished queued,
      Serial (run AuthenticatedSessionLifecycle.next .initial events) finished queued := by
  have hstep : ∀ (s : AuthenticatedSessionLifecycle ε τ κ) e,
      (∃ finished queued, Serial s finished queued) →
        ∃ finished queued, Serial (s.next e) finished queued := by
    rintro s e ⟨finished, queued, h⟩
    exact h.next e
  exact run_invariant hstep ⟨[], [], .idle rfl .nil⟩ events

end

def someAnswer : (op : SessionOp) → op.Answer ε τ κ
  | .sync _ => .ok ⟨0, 0, 0, 0, true, true⟩
  | .forceFlushTelemetry | .clearCredentials _ => .ok ()
  | .setSession _ => ()

/-- A call that is not finished has made the first of its callbacks. -/
theorem Dart.opsOf_prefix {session : Option SessionIdentity} {request : SessionCall}
    {steps : List (SessionStep ε τ κ)} {program : SessionProgram ε τ κ}
    (h : Trace (Dart.program session request) steps program) :
    opsOf steps <+: stages session request := by
  obtain ⟨more, report, hmore⟩ := Trace.exists_done someAnswer program
  obtain ⟨⟨rust, hrust, hcallbacks⟩, -⟩ := Dart.program_agrees (h.append hmore)
  rw [← (Rust.program_done hrust).1, opsOf, opsOf, hcallbacks, callbacks_append, List.map_append]
  exact List.prefix_append _ _

/-- Calls of the Dart lifecycle may be made at any time: they run one at a time in the order in
which they were made, the finished ones have reported and done what the Rust lifecycle does call by
call, before anything that a running one has done, and the callbacks so far are the first of those
that the calls ask for. -/
theorem dart_refines_rust (events : List (LifecycleEvent ε τ κ)) :
    let s := run AuthenticatedSessionLifecycle.next .initial events
    ∃ (finished : List (SessionCall × SessionReport ε τ κ))
      (running : Option (SessionCall × SessionProgram ε τ κ)) (queued : List SessionCall)
      (steps : List (SessionStep ε τ κ)) (session : Option SessionIdentity),
      s.requests = finished.map (fun pair => (pair.1, .finished pair.2)) ++
          (running.toList.map (fun pair => (pair.1, .running pair.2)) ++
            queued.map (fun request => (request, .waiting))) ∧
        Sequential Rust.program (finished.map Prod.fst) steps (finished.map Prod.snd) session ∧
        callbacks steps <+: callbacks s.steps ∧
        (running = none → callbacks s.steps = callbacks steps ∧ s.session = session) ∧
        opsOf s.steps <+: stagesFrom none (s.requests.map Prod.fst) := by
  intro s
  obtain ⟨finished, queued, h⟩ := serial_run events
  have hfirst : ∀ tail : List (SessionCall × CallState ε τ κ),
      ((finished.map fun pair => (pair.1, CallState.finished pair.2)) ++ tail).map Prod.fst =
        finished.map Prod.fst ++ tail.map Prod.fst := by
    simp
  cases h with
  | idle hrequests hpast =>
    obtain ⟨steps, hrust, hcallbacks⟩ := hpast.agrees
    refine ⟨finished, none, queued, steps, _, hrequests, hrust, ?_,
      fun _ => ⟨hcallbacks.symm, rfl⟩, ?_⟩
    · rw [hcallbacks]
    have hops : opsOf s.steps = stagesFrom none (finished.map Prod.fst) := by
      rw [← hrust.spec.1, opsOf, opsOf, hcallbacks]
    rw [hops, hrequests, hfirst, stagesFrom_append]
    exact List.prefix_append _ _
  | @running request op resume past more session hrequests hpast hpresent hall hnow =>
    obtain ⟨steps, hrust, hcallbacks⟩ := hpast.agrees
    refine ⟨finished, some (request, .call op resume), queued, steps, session, hrequests,
      hrust, ?_, (by simp), ?_⟩
    · rw [hcallbacks, hall, callbacks_append]
      exact List.prefix_append _ _
    have hops : opsOf past = stagesFrom none (finished.map Prod.fst) := by
      rw [← hrust.spec.1, opsOf, opsOf, hcallbacks]
    rw [hrequests, hfirst, stagesFrom_append, ← hrust.spec.2.1]
    have hsteps : opsOf s.steps = stagesFrom none (finished.map Prod.fst) ++ opsOf more := by
      rw [← hops, ← opsOf_append]
      exact congrArg opsOf hall
    rw [hsteps, List.prefix_append_right_inj, List.map_cons, stagesFrom]
    exact (Dart.opsOf_prefix hpresent).trans (List.prefix_append _ _)

end OptoSync.Session
