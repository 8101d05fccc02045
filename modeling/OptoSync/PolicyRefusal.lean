import OptoSync.BrowserFormQueue
import OptoSync.ConsistencyWrite
import OptoSync.OptimisticWrite
import OptoSync.ReadModelAgreement

/-!
# Refusal of unknown policies

What becomes of an identifier in the TypeScript packages: on the way into an outcome, into the read
model, into a strategy and into the two queues.
-/
namespace OptoSync.PolicyRefusal
open PolicyAliases ConsistencyWrite ReadModel

structure PolicyOutcome where
  status : OutcomeStatus
  consistencyPolicy : PolicyValue
  coveredMutationIds : Option (List String)
  message : Option String
  deriving DecidableEq

def outcomeForNetwork (policy : String) (network : Network) (coveredMutationIds : List String) :
    Except String PolicyOutcome := do
  let consistencyPolicy ← canonicalizeConsistencyPolicy policy
  let outcome (status : OutcomeStatus) : PolicyOutcome :=
    { status, consistencyPolicy, coveredMutationIds := none, message := none }
  if network = .cancelled then return outcome .cancelled
  else if consistencyPolicy = .id Consistency.queuedLocalFirst then return outcome .pending
  else match network with
    | .notAttempted | .cancelled => return outcome .pending
    | .responseLost =>
      return { outcome .ambiguous with message := some "committed-but-response-lost" }
    | .rejected => return { outcome .rejected with coveredMutationIds := some coveredMutationIds }
    | .transformed =>
      return { outcome .transformed with coveredMutationIds := some coveredMutationIds }
    | .acked => return { outcome .confirmed with coveredMutationIds := some coveredMutationIds }

/-- The default policy of a client, as its constructor reads the option. -/
def constructDefault (defaultConsistencyPolicy : Option String) : Except String PolicyValue :=
  canonicalizeConsistencyPolicy
    (defaultConsistencyPolicy.getD Consistency.writeThroughLocalFirst)

/-- The Rust client parses the identifier. -/
def Documented (identifier : String) : Prop :=
  ∃ policy, Rust.canonicalizeConsistencyPolicy identifier = .ok policy

def strategyOf : ConsistencyPolicy → OptimisticWrite.SyncOptimism
  | .remoteAcknowledged => .remoteConfirmed
  | .writeThroughLocalFirst => .localThenRemote
  | .queuedLocalFirst => .localDurable

/-- Wherever the identifier flows in the client and the reactive package, it is read as in Rust, or
refused. -/
structure ClientFailsClosed (identifier : String) : Prop where
  canonical : ∀ value, canonicalizeConsistencyPolicy identifier = .ok value ↔
    ∃ policy, Rust.canonicalizeConsistencyPolicy identifier = .ok policy ∧ value = .id policy.asStr
  strategy : ∀ host value, OptimisticWrite.resolveSyncOptimism host identifier = .ok value ↔
    ∃ policy, Rust.canonicalizeConsistencyPolicy identifier = .ok policy ∧
      value = .strategy (strategyOf policy)
  default : ¬ Documented identifier → ∃ message, constructDefault (some identifier) = .error message
  outcome : ¬ Documented identifier → ∀ network coveredMutationIds,
    ∃ message, outcomeForNetwork identifier network coveredMutationIds = .error message
  readModel : ¬ Documented identifier → ∀ (π : Type) (localeCompare : String → String → Ordering)
    (input : ReadReconciliationInput π), ∀ entry ∈ input.overlay,
      entry.mutationId ∉ input.acknowledgedMutationIds → entry.consistencyPolicy = identifier →
        ∃ message, TypeScript.reconcileReadModel localeCompare input = .error message
  write : ¬ Documented identifier → ∀ (client : OptoSyncClient) (s : Writers) i write options
    createdAt fails, options.consistency = some identifier →
      ∃ message, s.writeWithConsistency client i write options createdAt fails =
        s.settled i none (.error message)
  queue : ∀ (client : OptoSyncClient) db row db',
    client.insert db row (some identifier) = .ok db' →
      ∃ policy, Rust.canonicalizeConsistencyPolicy identifier = .ok policy ∧
        ∃ queued : LocalMutation, db' = db.add queued ∧
          queued.consistencyPolicy = some policy.asStr

/-- The queue of the forms refuses it too. -/
structure FailsClosed (identifier : String) : Prop extends ClientFailsClosed identifier where
  formQueue : ¬ Documented identifier → ∀ (queue : Forms.BrowserFormQueue) db tableName recordId
    jsonPayload protocol createdAt, protocol.consistencyPolicy = some identifier →
      ∃ message, queue.queueMutation db tableName recordId jsonPayload protocol createdAt =
        .error message

theorem rust_error {identifier : String} (h : ¬ Documented identifier) :
    OptoSyncClient.canonicalizeConsistencyPolicy identifier =
      .error "unknown consistency policy" := by
  rw [canonicalizeConsistencyPolicy_eq]
  cases hpolicy : Rust.canonicalizeConsistencyPolicy identifier with
  | ok policy => exact absurd ⟨policy, hpolicy⟩ h
  | error message =>
    unfold Rust.canonicalizeConsistencyPolicy at hpolicy
    split_ifs at hpolicy
    cases hpolicy
    rfl

/-- What is neither documented nor inherited is refused. -/
theorem canonicalize_error {identifier : String} (h : ¬ Documented identifier)
    (hinherited : identifier ∉ objectPrototype) :
    canonicalizeConsistencyPolicy identifier = .error "unknown consistency policy" := by
  rw [canonicalize_of_error (rust_error h), if_neg hinherited]

/-- One entry that is refused makes the whole overlay refused. -/
theorem foldlM_error {σ ε α : Type} {f : σ → α → Except ε σ} {entries : List α} {entry : α}
    (hentry : entry ∈ entries) (h : ∀ s, ∃ error, f s entry = .error error) (s : σ) :
    ∃ error, entries.foldlM f s = .error error := by
  induction entries generalizing s with
  | nil => cases hentry
  | cons first entries ih =>
    rw [List.foldlM_cons]
    cases hfirst : f s first with
    | error error => exact ⟨error, rfl⟩
    | ok next =>
      rcases List.mem_cons.mp hentry with rfl | hrest
      · obtain ⟨error, herror⟩ := h s
        rw [hfirst] at herror
        cases herror
      · exact ih hrest next

theorem reconcile_error {π : Type} {localeCompare : String → String → Ordering}
    {input : ReadReconciliationInput π} {entry : OverlayEntry π} (hentry : entry ∈ input.overlay)
    (hpending : entry.mutationId ∉ input.acknowledgedMutationIds) {message : String}
    (h : canonicalizeConsistencyPolicy entry.consistencyPolicy = .error message) :
    ∃ message, TypeScript.reconcileReadModel localeCompare input = .error message := by
  have hrefused : ∀ working : TypeScript.JsMap (ProjectedRow π), ∃ message,
      (TypeScript.host localeCompare).applyOverlay input.acknowledgedMutationIds working entry =
        .error message := by
    intro working
    refine ⟨message, ?_⟩
    simp [Host.applyOverlay, hpending, TypeScript.host, h, bind, Except.bind]
  obtain ⟨message, hmessage⟩ := foldlM_error hentry hrefused
    ((TypeScript.host localeCompare).authoritativeRows input)
  refine ⟨message, ?_⟩
  unfold TypeScript.reconcileReadModel Host.reconcile Host.workingRows
  rw [hmessage]
  rfl

theorem writeWithConsistency_error {identifier : String} (h : ¬ Documented identifier)
    (client : OptoSyncClient) (s : Writers) (i : ℕ) (write : Write) {options : RxWriteOptions}
    (createdAt : ℕ) (fails : Option String) (hoptions : options.consistency = some identifier) :
    s.writeWithConsistency client i write options createdAt fails =
      s.settled i none (.error "unknown consistency policy") := by
  simp only [Writers.writeWithConsistency, hoptions, Option.getD_some, rust_error h]

theorem documented_eq (identifier : String) : OptimisticWrite.documented identifier =
    (Rust.canonicalizeConsistencyPolicy identifier).toOption.map strategyOf := by
  by_cases h : identifier ∈ OptimisticWrite.policyToStrategy.map Prod.fst
  · simp only [OptimisticWrite.policyToStrategy, List.map_cons, List.map_nil, List.mem_cons,
      List.not_mem_nil, or_false] at h
    rcases h with rfl | rfl | rfl | rfl | rfl | rfl | rfl | rfl | rfl | rfl | rfl | rfl | rfl <;>
      decide
  · rw [OptimisticWrite.documented, Entries.lookup_eq_none h]
    simp only [OptimisticWrite.policyToStrategy, List.map_cons, List.map_nil, List.mem_cons,
      List.not_mem_nil, or_false, not_or] at h
    unfold Rust.canonicalizeConsistencyPolicy
    simp [h, Except.toOption]

/-- A strategy is resolved as in Rust, but for the inherited names. -/
theorem resolveSyncOptimism_eq_ok {identifier : String} (hinherited : identifier ∉ objectPrototype)
    (host : Reactive.JsonHost) (value : OptimisticWrite.Resolved) :
    OptimisticWrite.resolveSyncOptimism host identifier = .ok value ↔
      ∃ policy, Rust.canonicalizeConsistencyPolicy identifier = .ok policy ∧
        value = .strategy (strategyOf policy) := by
  rw [OptimisticWrite.resolveSyncOptimism, documented_eq]
  cases hpolicy : Rust.canonicalizeConsistencyPolicy identifier with
  | ok policy => simp [Except.toOption, eq_comm]
  | error message => simp [Except.toOption, hinherited]

/-- The row that an accepted insert adds has the policy that was read. -/
theorem insert_eq_ok {client : OptoSyncClient} {db db' : OptoSyncDatabase} {row : LocalMutation}
    {identifier : String} (h : client.insert db row (some identifier) = .ok db') :
    ∃ value stored, canonicalizeConsistencyPolicy identifier = .ok value ∧
      structuredClone value = .ok stored ∧ ∃ queued : LocalMutation, db' = db.add queued ∧
        queued.consistencyPolicy = some stored.propertyKey := by
  unfold OptoSyncClient.insert at h
  cases hpayload : client.assertPayloadQuota row.jsonPayload with
  | error error => simp [hpayload, bind, Except.bind] at h
  | ok _ =>
    cases hpending : client.assertPendingQuota db with
    | error error => simp [hpayload, hpending, bind, Except.bind] at h
    | ok _ =>
      cases hvalue : canonicalizeConsistencyPolicy identifier with
      | error error => simp [hpayload, hpending, hvalue, bind, Except.bind] at h
      | ok value =>
        cases hstored : structuredClone value with
        | error error => simp [hpayload, hpending, hvalue, hstored, bind, Except.bind] at h
        | ok stored =>
          simp only [hpayload, hpending, Option.getD_some, hvalue, hstored, bind, Except.bind, pure,
            Except.pure, Except.ok.injEq] at h
          exact ⟨value, stored, rfl, hstored, _, h.symm, rfl⟩

theorem not_documented_of_inherited {identifier : String} (h : identifier ∈ objectPrototype) :
    ¬ Documented identifier := by
  intro hdocumented
  obtain ⟨policy, hpolicy⟩ := hdocumented
  have herror := error_of_inherited h
  rw [canonicalizeConsistencyPolicy_eq, hpolicy] at herror
  cases herror

theorem not_clientFailsClosed_of_inherited {identifier : String}
    (h : identifier ∈ objectPrototype) : ¬ ClientFailsClosed identifier := by
  intro hcloses
  have haccepted := canonicalize_of_error (error_of_inherited h)
  rw [if_pos h] at haccepted
  obtain ⟨policy, hpolicy, -⟩ := (hcloses.canonical _).mp haccepted
  exact not_documented_of_inherited h ⟨policy, hpolicy⟩

theorem canonicalize_eq_ok {identifier : String} (hinherited : identifier ∉ objectPrototype)
    (value : PolicyValue) : canonicalizeConsistencyPolicy identifier = .ok value ↔
      ∃ policy, Rust.canonicalizeConsistencyPolicy identifier = .ok policy ∧
        value = .id policy.asStr := by
  cases hpolicy : Rust.canonicalizeConsistencyPolicy identifier with
  | ok policy =>
    have hcanonical : OptoSyncClient.canonicalizeConsistencyPolicy identifier =
        .ok policy.asStr := by
      rw [canonicalizeConsistencyPolicy_eq, hpolicy]
      rfl
    rw [canonicalize_of_ok hcanonical]
    constructor
    · intro h
      exact ⟨policy, rfl, (Except.ok.inj h).symm⟩
    · intro h
      obtain ⟨other, hother, rfl⟩ := h
      rw [Except.ok.inj hother]
  | error message =>
    have hnot : ¬ Documented identifier := by
      intro h
      obtain ⟨policy, hok⟩ := h
      rw [hpolicy] at hok
      cases hok
    rw [canonicalize_error hnot hinherited]
    simp

theorem clientFailsClosed_iff (identifier : String) :
    ClientFailsClosed identifier ↔ identifier ∉ objectPrototype := by
  refine ⟨fun h hinherited => not_clientFailsClosed_of_inherited hinherited h,
    fun hinherited => ?_⟩
  have herror : ¬ Documented identifier →
      canonicalizeConsistencyPolicy identifier = .error "unknown consistency policy" :=
    fun h => canonicalize_error h hinherited
  constructor
  case canonical => exact canonicalize_eq_ok hinherited
  case strategy => exact resolveSyncOptimism_eq_ok hinherited
  case default => exact fun h => ⟨_, herror h⟩
  case outcome =>
    intro h network coveredMutationIds
    refine ⟨"unknown consistency policy", ?_⟩
    rw [outcomeForNetwork, herror h]
    rfl
  case readModel =>
    intro h π localeCompare input entry hentry hpending hpolicy
    exact reconcile_error hentry hpending (hpolicy ▸ herror h)
  case write =>
    intro h client s i write options createdAt fails hoptions
    exact ⟨_, writeWithConsistency_error h client s i write createdAt fails hoptions⟩
  case queue =>
    intro client db row db' h
    obtain ⟨value, stored, hvalue, hstored, queued, rfl, hqueued⟩ := insert_eq_ok h
    obtain ⟨policy, hpolicy, rfl⟩ := (canonicalize_eq_ok hinherited value).mp hvalue
    obtain rfl := Except.ok.inj hstored
    exact ⟨policy, hpolicy, queued, rfl, hqueued⟩

def formQueue : Forms.BrowserFormQueue where
  databaseName := "OptoSyncFormDatabase"
  maxPending := 1000
  maxBytes := 255 * 1024
  pending_pos := by decide
  bytes_min := by decide

/-- The form queue takes any policy with a mutation that fits. -/
theorem not_failsClosed_of_not_documented {identifier : String} (h : ¬ Documented identifier) :
    ¬ FailsClosed identifier := by
  intro hcloses
  obtain ⟨message, hrefused⟩ := hcloses.formQueue h formQueue .created "form_submissions" "1"
    "\x7b\x7d" { noOptions with consistencyPolicy := some identifier } 0 rfl
  refine Forms.BrowserFormQueue.queueMutation_refused_iff.mp ⟨message, hrefused⟩ ?_
  exact ⟨by decide, by decide, by decide, by decide⟩

/-- The packages fail closed on an identifier exactly if it is documented; without the form queue,
exactly if no object inherits a property of that name. The form queue refuses by size, room and
names alone. -/
theorem failsClosed_iff (identifier : String) :
    (FailsClosed identifier ↔ Documented identifier) ∧
    (ClientFailsClosed identifier ↔ identifier ∉ objectPrototype) ∧
    ∀ (queue : Forms.BrowserFormQueue) db tableName recordId jsonPayload protocol createdAt,
      protocol.consistencyPolicy = some identifier →
        ((∃ message, queue.queueMutation db tableName recordId jsonPayload protocol createdAt =
          .error message) ↔ ¬ queue.Accepts db tableName recordId jsonPayload) := by
  refine ⟨⟨fun h => not_imp_not.mp not_failsClosed_of_not_documented h, fun h => ?_⟩,
    clientFailsClosed_iff identifier, ?_⟩
  · have hinherited : identifier ∉ objectPrototype := fun hinherited =>
      not_documented_of_inherited hinherited h
    exact { (clientFailsClosed_iff identifier).mpr hinherited with
      formQueue := fun hnot => absurd h hnot }
  · intro queue db tableName recordId jsonPayload protocol createdAt _
    exact Forms.BrowserFormQueue.queueMutation_refused_iff

/-- An unknown policy is queued with a form, an inherited name is read as a policy. -/
theorem unknown_admitted : ¬ FailsClosed "bogus" ∧ ¬ ClientFailsClosed "constructor" ∧
    formQueue.queueMutation .created "form_submissions" "1" "\x7b\x7d"
      { noOptions with consistencyPolicy := some "bogus" } 0 = .ok (1, .add .created
        { id := 1, tableName := "form_submissions", recordId := "1", jsonPayload := "\x7b\x7d"
          createdAt := 0, syncStatus := Forms.FormMutationStatus.pending, operation := .upsert
          attempts := 0, baseRevision := none, resurrect := none
          consistencyPolicy := some "bogus" }) := by
  have hbogus : ¬ Documented "bogus" := by
    rintro ⟨policy, hpolicy⟩
    have herror : Rust.canonicalizeConsistencyPolicy "bogus" =
        .error "unknown consistency policy" := by decide
    rw [herror] at hpolicy
    cases hpolicy
  refine ⟨not_failsClosed_of_not_documented hbogus,
    not_clientFailsClosed_of_inherited (by decide), ?_⟩
  rw [Forms.BrowserFormQueue.queueMutation_eq_ok]
  exact ⟨⟨by decide, by decide, by decide, by decide⟩, rfl⟩

end OptoSync.PolicyRefusal
