import OptoSync.PolicyAliases
import OptoSync.ReactiveRecord

/-!
# Writes under a declared optimism

`writeWithOptimism` of the reactive TypeScript package runs over ports that the application
supplies. Each is called at most once in a write, and may answer, reject or throw.
-/
namespace OptoSync.OptimisticWrite
open Reactive PolicyAliases

inductive SyncOptimism
  | remoteConfirmed
  | localDurable
  | localThenRemote
  deriving DecidableEq, Repr

/-- The own properties of `POLICY_TO_STRATEGY`. -/
def policyToStrategy : List (String × SyncOptimism) :=
  [(Consistency.remoteAcknowledged, .remoteConfirmed), ("remote-acknowledged", .remoteConfirmed),
    ("strict", .remoteConfirmed), ("await-server", .remoteConfirmed),
    ("remote-confirmed", .remoteConfirmed),
    (Consistency.writeThroughLocalFirst, .localThenRemote),
    ("write-through-local-first", .localThenRemote), ("local-first", .localThenRemote),
    ("local-then-remote", .localThenRemote),
    (Consistency.queuedLocalFirst, .localDurable), ("queued-local-first", .localDurable),
    ("background", .localDurable), ("local-durable", .localDurable)]

/-- The strategy that is documented for an identifier. -/
def documented (identifier : String) : Option SyncOptimism := policyToStrategy.lookup identifier

/-- A strategy, or the property that a plain object inherits under that name. -/
inductive Resolved
  | strategy (strategy : SyncOptimism)
  | inherited (name : String)
  deriving DecidableEq

def resolveSyncOptimism (host : JsonHost) (identifier : String) : Except String Resolved :=
  match documented identifier with
  | some strategy => .ok (.strategy strategy)
  | none =>
    if identifier ∈ objectPrototype then .ok (.inherited identifier)
    else .error ("unknown consistency policy " ++ host.stringify (.string identifier))

inductive SyncSession
  | authenticated (identity : SyncSessionIdentity)
  | anonymous
  | unauthenticated
  | degraded (reason : String)

def requireAuthenticated : SyncSession → Except String SyncSessionIdentity
  | .authenticated identity => .ok identity
  | .degraded reason => .error
      ("sync authentication is degraded; privileged synchronization fails closed: " ++ reason)
  | .anonymous => .error "sync requires an authenticated session (anonymous)"
  | .unauthenticated => .error "sync requires an authenticated session (unauthenticated)"

/-- What a port does when it is called. -/
inductive Outcome (α : Type)
  | success (value : α)
  | rejection (error : String)
  | throws (error : String)

/-- A rejected promise that is awaited ends the call as a thrown error does. -/
def Outcome.toExcept {α : Type} : Outcome α → Except String α
  | .success value => .ok value
  | .rejection error => .error error
  | .throws error => .error error

def Outcome.isSuccess {α : Type} : Outcome α → Bool
  | .success _ => true
  | _ => false

/-- The call itself comes back, though the promise it gives may be rejected. -/
def Outcome.returns {α : Type} : Outcome α → Bool
  | .throws _ => false
  | _ => true

variable {T L S : Type}

/-- The ports by what they answer to their argument. -/
structure OptimisticWriteOptions (T L S : Type) where
  strategy : String
  session : SyncSession
  value : T
  commitLocalAndQueue : T → Outcome L
  commitAuthoritative : T → Outcome Unit
  write : T → Outcome T
  syncNow : Outcome S
  hint : Option (Outcome Unit)
  wakeBackground : Option (Outcome Unit)

inductive PortCall (T L S : Type)
  | commitLocalAndQueue (value : T) (outcome : Outcome L)
  | commitAuthoritative (value : T) (outcome : Outcome Unit)
  | write (value : T) (outcome : Outcome T)
  | syncNow (outcome : Outcome S)
  | hint (outcome : Outcome Unit)
  | wakeBackground (outcome : Outcome Unit)

inductive OptimisticWriteResult (T L S : Type)
  | remoteConfirmed (partition : String) (authoritative : T)
  | localDurable (partition : String) (localResult : L)
  | localThenRemote (partition : String) (localResult : L) (syncResult : S)

/-- The calls that were made, and how the promise settled. -/
structure Execution (C α : Type) where
  calls : List C
  result : Except String α

namespace Execution

variable {C α β : Type}

def bind (x : Execution C α) (f : α → Execution C β) : Execution C β :=
  match x.result with
  | .ok a => { calls := x.calls ++ (f a).calls, result := (f a).result }
  | .error error => { calls := x.calls, result := .error error }

instance : Monad (Execution C) where
  pure a := { calls := [], result := .ok a }
  bind := bind

def ofExcept (result : Except String α) : Execution C α := { calls := [], result }

def await (record : Outcome α → C) (outcome : Outcome α) : Execution C α :=
  { calls := [record outcome], result := outcome.toExcept }

/-- A call without `await`: what becomes of its promise is not looked at. -/
def invoke (record : Outcome Unit → C) (outcome : Outcome Unit) : Execution C Unit :=
  { calls := [record outcome]
    result := match outcome with
      | .throws error => .error error
      | _ => .ok () }

/-- `port?.()` -/
def optional (call : Outcome Unit → Execution C Unit) : Option (Outcome Unit) → Execution C Unit
  | some outcome => call outcome
  | none => pure ()

end Execution

variable (host : JsonHost)

namespace OptimisticWriteOptions

variable (options : OptimisticWriteOptions T L S) (partition : String)

def remoteConfirmed : Execution (PortCall T L S) (Option (OptimisticWriteResult T L S)) := do
  let authoritative ← .await (.write options.value) (options.write options.value)
  .await (.commitAuthoritative authoritative) (options.commitAuthoritative authoritative)
  pure (some (.remoteConfirmed partition authoritative))

def localDurable : Execution (PortCall T L S) (Option (OptimisticWriteResult T L S)) := do
  let localResult ← .await (.commitLocalAndQueue options.value)
    (options.commitLocalAndQueue options.value)
  .optional (.invoke .hint) options.hint
  .optional (.await .wakeBackground) options.wakeBackground
  pure (some (.localDurable partition localResult))

def localThenRemote : Execution (PortCall T L S) (Option (OptimisticWriteResult T L S)) := do
  let localResult ← .await (.commitLocalAndQueue options.value)
    (options.commitLocalAndQueue options.value)
  .optional (.invoke .hint) options.hint
  .optional (.await .wakeBackground) options.wakeBackground
  let syncResult ← .await .syncNow options.syncNow
  pure (some (.localThenRemote partition localResult syncResult))

/-- The promise resolves to none where no case is met. -/
def switch : Resolved → Execution (PortCall T L S) (Option (OptimisticWriteResult T L S))
  | .strategy .remoteConfirmed => options.remoteConfirmed partition
  | .strategy .localDurable => options.localDurable partition
  | .strategy .localThenRemote => options.localThenRemote partition
  | .inherited _ => pure none

end OptimisticWriteOptions

def writeWithOptimism (options : OptimisticWriteOptions T L S) :
    Execution (PortCall T L S) (Option (OptimisticWriteResult T L S)) := do
  let identity ← .ofExcept (requireAuthenticated options.session)
  let partition := host.storagePartitionKey identity
  let strategy ← .ofExcept (resolveSyncOptimism host options.strategy)
  options.switch partition strategy

def Committed (calls : List (PortCall T L S)) : Prop :=
  ∃ value result, PortCall.commitLocalAndQueue value (.success result) ∈ calls

def Cycled (calls : List (PortCall T L S)) : Prop :=
  ∃ result, PortCall.syncNow (.success result) ∈ calls

def RemoteWritten (calls : List (PortCall T L S)) : Prop :=
  ∃ value result, PortCall.write value (.success result) ∈ calls

def PortCall.isLocalWrite : PortCall T L S → Bool
  | .commitLocalAndQueue _ _ => true
  | .commitAuthoritative _ _ => true
  | _ => false

def Rejects {C α : Type} (execution : Execution C α) : Prop :=
  ∃ error, execution.result = .error error

structure AllOrNothing (options : OptimisticWriteOptions T L S) : Prop where
  unknown : documented options.strategy = none →
    (writeWithOptimism host options).calls = [] ∧ Rejects (writeWithOptimism host options)
  localDurable : documented options.strategy = some .localDurable →
    Rejects (writeWithOptimism host options) → ¬ Committed (writeWithOptimism host options).calls
  localThenRemote : documented options.strategy = some .localThenRemote →
    ¬ Rejects (writeWithOptimism host options) →
      Committed (writeWithOptimism host options).calls ∧
        Cycled (writeWithOptimism host options).calls
  remoteConfirmed : documented options.strategy = some .remoteConfirmed → ∀ before call,
    before ++ [call] <+: (writeWithOptimism host options).calls → call.isLocalWrite = true →
      RemoteWritten before

/-- What keeps a write all or nothing: with a session, the strategy is no inherited name, and after
a durable commit the hint does not throw and the wake-up does not fail. -/
def Safe (options : OptimisticWriteOptions T L S) : Prop :=
  ∀ identity, options.session = .authenticated identity →
    options.strategy ∉ objectPrototype ∧
      (documented options.strategy = some .localDurable →
        (options.commitLocalAndQueue options.value).isSuccess = true →
          options.hint.all Outcome.returns = true ∧
            options.wakeBackground.all Outcome.isSuccess = true)

theorem Outcome.success_or_fails {α : Type} (outcome : Outcome α) :
    (∃ value, outcome = .success value) ∨
      outcome.isSuccess = false ∧ ∃ error, outcome.toExcept = .error error := by
  cases outcome with
  | success value => exact Or.inl ⟨value, rfl⟩
  | rejection error => exact Or.inr ⟨rfl, error, rfl⟩
  | throws error => exact Or.inr ⟨rfl, error, rfl⟩

namespace Execution

variable {C α β : Type}

theorem bind_of_ok {x : Execution C α} {a : α} (h : x.result = .ok a) (f : α → Execution C β) :
    x >>= f = { calls := x.calls ++ (f a).calls, result := (f a).result } := by
  show bind x f = _
  rw [bind, h]

theorem bind_of_error {x : Execution C α} {error : String} (h : x.result = .error error)
    (f : α → Execution C β) : x >>= f = { calls := x.calls, result := .error error } := by
  show bind x f = _
  rw [bind, h]

@[simp] theorem ofExcept_ok_bind (a : α) (f : α → Execution C β) :
    (ofExcept (.ok a) >>= f) = f a := bind_of_ok rfl f

theorem await_success_bind (record : Outcome α → C) (value : α) (f : α → Execution C β) :
    await record (.success value) >>= f =
      { calls := record (.success value) :: (f value).calls, result := (f value).result } :=
  bind_of_ok rfl f

/-- The outcomes that `goesOn` admits let the caller go on, and the others end it. -/
def Decides (goesOn : Outcome Unit → Bool) (call : Outcome Unit → Execution C Unit) : Prop :=
  ∀ outcome, (goesOn outcome = true ∧ (call outcome).result = .ok ()) ∨
    goesOn outcome = false ∧ ∃ error, (call outcome).result = .error error

theorem await_decides (record : Outcome Unit → C) : Decides Outcome.isSuccess (await record) := by
  intro outcome
  rcases outcome.success_or_fails with ⟨value, rfl⟩ | hfails
  · exact Or.inl ⟨rfl, rfl⟩
  · exact Or.inr hfails

theorem invoke_decides (record : Outcome Unit → C) : Decides Outcome.returns (invoke record) := by
  intro outcome
  cases outcome with
  | success value => exact Or.inl ⟨rfl, rfl⟩
  | rejection error => exact Or.inl ⟨rfl, rfl⟩
  | throws error => exact Or.inr ⟨rfl, error, rfl⟩

/-- An optional port that lets the caller go on leaves the rest of the call to run. -/
theorem optional_bind {goesOn : Outcome Unit → Bool} {call : Outcome Unit → Execution C Unit}
    (h : Decides goesOn call) (port : Option (Outcome Unit)) (f : Unit → Execution C β) :
    (port.all goesOn = true ∧ ∃ calls, optional call port >>= f =
        { calls := calls ++ (f ()).calls, result := (f ()).result }) ∨
      (port.all goesOn = false ∧ ∃ calls error, optional call port >>= f =
        { calls, result := .error error }) := by
  cases port with
  | none => exact Or.inl ⟨rfl, [], rfl⟩
  | some outcome =>
    rcases h outcome with ⟨hgoes, hok⟩ | ⟨hends, error, herror⟩
    · exact Or.inl ⟨hgoes, _, bind_of_ok hok f⟩
    · exact Or.inr ⟨hends, _, error, bind_of_error herror f⟩

end Execution

section Runs

variable {host} {options : OptimisticWriteOptions T L S}

theorem write_of_no_session (h : ∀ identity, options.session ≠ .authenticated identity) :
    (writeWithOptimism host options).calls = [] ∧ Rejects (writeWithOptimism host options) := by
  unfold writeWithOptimism
  cases hsession : options.session with
  | authenticated identity => exact absurd hsession (h identity)
  | anonymous => exact ⟨rfl, _, rfl⟩
  | unauthenticated => exact ⟨rfl, _, rfl⟩
  | degraded reason => exact ⟨rfl, _, rfl⟩

theorem write_of_unknown (hunknown : documented options.strategy = none)
    (hinherited : options.strategy ∉ objectPrototype) :
    (writeWithOptimism host options).calls = [] ∧ Rejects (writeWithOptimism host options) := by
  by_cases hsession : ∃ identity, options.session = .authenticated identity
  · obtain ⟨identity, hidentity⟩ := hsession
    unfold writeWithOptimism
    rw [hidentity]
    simp only [resolveSyncOptimism, hunknown, hinherited, if_false]
    exact ⟨rfl, _, rfl⟩
  · exact write_of_no_session fun identity h => hsession ⟨identity, h⟩

theorem documented_of_inherited {identifier : String} (h : identifier ∈ objectPrototype) :
    documented identifier = none := by
  simp only [objectPrototype, List.mem_cons, List.not_mem_nil, or_false] at h
  rcases h with rfl | rfl | rfl | rfl | rfl | rfl | rfl | rfl | rfl | rfl | rfl | rfl <;> decide

/-- A write under an inherited name does nothing and resolves. -/
theorem write_of_inherited {identity : SyncSessionIdentity}
    (hsession : options.session = .authenticated identity)
    (hinherited : options.strategy ∈ objectPrototype) :
    writeWithOptimism host options = { calls := [], result := .ok none } := by
  unfold writeWithOptimism
  rw [hsession]
  simp only [resolveSyncOptimism, documented_of_inherited hinherited, hinherited, if_true]
  rfl

theorem write_of_strategy {identity : SyncSessionIdentity} {strategy : SyncOptimism}
    (hsession : options.session = .authenticated identity)
    (hstrategy : documented options.strategy = some strategy) :
    writeWithOptimism host options =
      options.switch (host.storagePartitionKey identity) (.strategy strategy) := by
  unfold writeWithOptimism
  rw [hsession]
  simp only [resolveSyncOptimism, hstrategy, requireAuthenticated, Execution.ofExcept_ok_bind]

/-- A durable write is reported as failed exactly if the hint after it throws or the wake-up
fails. -/
theorem localDurable_iff (partition : String) :
    (Rejects (options.localDurable partition) →
        ¬ Committed (options.localDurable partition).calls) ↔
      ((options.commitLocalAndQueue options.value).isSuccess = true →
        options.hint.all Outcome.returns = true ∧
          options.wakeBackground.all Outcome.isSuccess = true) := by
  unfold OptimisticWriteOptions.localDurable
  generalize options.commitLocalAndQueue options.value = commit
  rcases commit.success_or_fails with ⟨localResult, rfl⟩ | ⟨hfails, error, herror⟩
  · have hcommitted : ∀ calls : List (PortCall T L S), Committed
        (PortCall.commitLocalAndQueue options.value (.success localResult) :: calls) :=
      fun calls => ⟨_, _, List.mem_cons_self⟩
    rw [Execution.await_success_bind]
    simp only [hcommitted, not_true_eq_false, imp_false, Outcome.isSuccess, forall_const]
    rcases Execution.optional_bind (Execution.invoke_decides PortCall.hint) options.hint
        (_ : Unit → Execution (PortCall T L S) _) with
      ⟨hhint, calls, hrun⟩ | ⟨hhint, calls, error, hrun⟩
    · rw [hrun]
      rcases Execution.optional_bind (Execution.await_decides PortCall.wakeBackground)
          options.wakeBackground (_ : Unit → Execution (PortCall T L S) _) with
        ⟨hwake, calls', hrun'⟩ | ⟨hwake, calls', error, hrun'⟩
      · rw [hrun']
        simp [Rejects, hhint, hwake, pure]
      · rw [hrun']
        simp [Rejects, hhint, hwake]
    · rw [hrun]
      simp [Rejects, hhint]
  · rw [Execution.bind_of_error herror]
    refine iff_of_true (fun _ hcommitted => ?_) fun h => ?_
    · obtain ⟨value, result, hcall⟩ := hcommitted
      cases List.mem_singleton.mp hcall
      cases hfails
    · rw [hfails] at h
      cases h

/-- A confirmed write has committed and has completed a cycle. -/
theorem localThenRemote_complete (partition : String)
    (h : ¬ Rejects (options.localThenRemote partition)) :
    Committed (options.localThenRemote partition).calls ∧
      Cycled (options.localThenRemote partition).calls := by
  unfold OptimisticWriteOptions.localThenRemote at h ⊢
  generalize options.commitLocalAndQueue options.value = commit at h ⊢
  generalize options.syncNow = syncNow at h ⊢
  rcases commit.success_or_fails with ⟨localResult, rfl⟩ | ⟨-, error, herror⟩
  · rw [Execution.await_success_bind] at h ⊢
    refine ⟨⟨_, _, List.mem_cons_self⟩, ?_⟩
    rcases Execution.optional_bind (Execution.invoke_decides PortCall.hint) options.hint
        (_ : Unit → Execution (PortCall T L S) _) with
      ⟨-, calls, hrun⟩ | ⟨-, calls, error, hrun⟩
    · rw [hrun] at h ⊢
      rcases Execution.optional_bind (Execution.await_decides PortCall.wakeBackground)
          options.wakeBackground (_ : Unit → Execution (PortCall T L S) _) with
        ⟨-, calls', hrun'⟩ | ⟨-, calls', error, hrun'⟩
      · rw [hrun'] at h ⊢
        rcases syncNow.success_or_fails with ⟨syncResult, rfl⟩ | ⟨-, error, herror⟩
        · rw [Execution.await_success_bind]
          exact ⟨syncResult, by simp⟩
        · rw [Execution.bind_of_error herror] at h
          exact absurd ⟨error, rfl⟩ h
      · rw [hrun'] at h
        exact absurd ⟨error, rfl⟩ h
    · rw [hrun] at h
      exact absurd ⟨error, rfl⟩ h
  · rw [Execution.bind_of_error herror] at h
    exact absurd ⟨error, rfl⟩ h

/-- Before a local write there is the answer of the remote one. -/
theorem remoteConfirmed_order (partition : String) {before : List (PortCall T L S)}
    {call : PortCall T L S}
    (horder : before ++ [call] <+: (options.remoteConfirmed partition).calls)
    (hlocal : call.isLocalWrite = true) : RemoteWritten before := by
  unfold OptimisticWriteOptions.remoteConfirmed at horder
  generalize options.write options.value = write at horder
  have hfirst : ∀ {outcome : Outcome T} {calls : List (PortCall T L S)},
      before ++ [call] <+: PortCall.write options.value outcome :: calls →
        ∃ rest, before = PortCall.write options.value outcome :: rest := by
    intro outcome calls h
    cases before with
    | nil =>
      rw [List.nil_append, List.cons_prefix_cons] at h
      rw [h.1] at hlocal
      cases hlocal
    | cons first rest =>
      rw [List.cons_append, List.cons_prefix_cons] at h
      exact ⟨rest, by rw [h.1]⟩
  rcases write.success_or_fails with ⟨authoritative, rfl⟩ | ⟨-, error, herror⟩
  · rw [Execution.await_success_bind] at horder
    obtain ⟨rest, rfl⟩ := hfirst horder
    exact ⟨_, _, List.mem_cons_self⟩
  · rw [Execution.bind_of_error herror] at horder
    obtain ⟨rest, rfl⟩ := hfirst horder
    have hlength := horder.length_le
    simp [Execution.await] at hlength

theorem authenticated_of_calls
    (h : (writeWithOptimism host options).calls ≠ [] ∨ ¬ Rejects (writeWithOptimism host options)) :
    ∃ identity, options.session = .authenticated identity := by
  by_contra hsession
  have hnone : ∀ identity, options.session ≠ .authenticated identity :=
    fun identity hidentity => hsession ⟨identity, hidentity⟩
  obtain ⟨hcalls, hrejects⟩ : (writeWithOptimism host options).calls = [] ∧
      Rejects (writeWithOptimism host options) := write_of_no_session hnone
  exact h.elim (fun hne => hne hcalls) fun hresolves => hresolves hrejects

end Runs

/-- A write keeps all parts of its contract exactly if, with a session, its strategy is no name that
objects inherit and, under local-durable, no hint throws and no wake-up fails after the
commit. -/
theorem allOrNothing_iff (options : OptimisticWriteOptions T L S) :
    AllOrNothing host options ↔ Safe options := by
  constructor
  · intro h identity hsession
    constructor
    · intro hinherited
      obtain ⟨-, error, herror⟩ := h.unknown (documented_of_inherited hinherited)
      rw [write_of_inherited hsession hinherited] at herror
      cases herror
    · intro hstrategy
      have hdurable := h.localDurable hstrategy
      rw [write_of_strategy hsession hstrategy] at hdurable
      exact (localDurable_iff _).mp hdurable
  · intro h
    refine ⟨fun hnone => ?_, fun hstrategy => ?_, fun hstrategy hresolves => ?_,
      fun hstrategy before call horder hlocal => ?_⟩
    · by_cases hinherited : options.strategy ∈ objectPrototype
      · exact write_of_no_session fun identity hsession => (h identity hsession).1 hinherited
      · exact write_of_unknown hnone hinherited
    · by_cases hcalls : (writeWithOptimism host options).calls = []
      · intro _ hcommitted
        obtain ⟨value, result, hcall⟩ := hcommitted
        rw [hcalls] at hcall
        cases hcall
      · obtain ⟨identity, hsession⟩ := authenticated_of_calls (Or.inl hcalls)
        rw [write_of_strategy hsession hstrategy]
        exact (localDurable_iff _).mpr ((h identity hsession).2 hstrategy)
    · obtain ⟨identity, hsession⟩ := authenticated_of_calls (Or.inr hresolves)
      rw [write_of_strategy hsession hstrategy] at hresolves ⊢
      exact localThenRemote_complete _ hresolves
    · have hcalls : (writeWithOptimism host options).calls ≠ [] := by
        intro hcalls
        rw [hcalls, List.prefix_nil] at horder
        exact absurd horder (by simp)
      obtain ⟨identity, hsession⟩ := authenticated_of_calls (Or.inl hcalls)
      rw [write_of_strategy hsession hstrategy] at horder
      exact remoteConfirmed_order _ horder hlocal

/-- A durable write whose registration of the background wake is refused. -/
def wakeRefused : OptimisticWriteOptions String ℕ Unit where
  strategy := "local-durable"
  session := .authenticated
    { sharedUserId := "user-1", provider := "shared-auth", providerTenant := "app"
      sessionId := none }
  value := "draft"
  commitLocalAndQueue _ := .success 41
  commitAuthoritative _ := .success ()
  write value := .success value
  syncNow := .success ()
  hint := none
  wakeBackground := some (.rejection "permission denied")

theorem wakeRefused_reports_failure : ¬ AllOrNothing plainHost wakeRefused := by
  intro h
  have hdurable := h.localDurable (by decide)
  rw [write_of_strategy rfl (by decide : documented wakeRefused.strategy = some .localDurable)]
    at hdurable
  have hwake := ((localDurable_iff _).mp hdurable rfl).2
  exact absurd hwake (by decide)

end OptoSync.OptimisticWrite
