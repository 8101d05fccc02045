import OptoSync.LeaseMachineSnapshot
import OptoSync.Transition

/-!
# Safety of the reference lease machine

Runs of the machine under any commands, where a snapshot that is restored was taken in the run.
-/
namespace OptoSync.Stream.Go

inductive Command
  | reset (initialState : Json) (seed : String) (logicalTime : Json)
  | apply (action : String) (arguments logicalTime : Json)
  | observe
  | settle (maxSteps : ℕ)
  | snapshot
  | restore (snapshot : Json) (schemaHash : String)
  | fault (fault : String) (arguments : Json)
  | close

def LeaseMachine.execute (machine : LeaseMachine) : Command → LeaseMachine × Outcome
  | .reset initialState seed logicalTime => machine.reset initialState seed logicalTime
  | .apply action arguments logicalTime => machine.apply action arguments logicalTime
  | .observe => machine.observe
  | .settle maxSteps => machine.settle maxSteps
  | .snapshot => machine.snapshot
  | .restore snapshot schemaHash => machine.restore snapshot schemaHash
  | .fault fault arguments => machine.fault fault arguments
  | .close => machine.close

/-- A command and the machine that executed it. -/
structure Event where
  before : LeaseMachine
  command : Command

def Event.after (event : Event) : LeaseMachine := (event.before.execute event.command).1

def Event.outcome (event : Event) : Outcome := (event.before.execute event.command).2

def Command.Restarts : Command → Prop
  | .reset .. | .restore .. => True
  | _ => False

/-- A snapshot to restore is one that was returned earlier. -/
def Command.Permitted (history : List Event) : Command → Prop
  | .restore taken _ => ∃ event ∈ history, event.command = .snapshot ∧
      event.outcome = ok (.object [("schemaHash", .string leaseSchemaHash), ("snapshot", taken)])
  | _ => True

/-- A history, oldest event first, and the machine it leads to. -/
inductive LeaseRun : List Event → LeaseMachine → Prop
  | new : LeaseRun [] LeaseMachine.new
  | step {history : List Event} {machine : LeaseMachine} (hrun : LeaseRun history machine)
      (command : Command) (hpermitted : command.Permitted history) :
      LeaseRun (history ++ [⟨machine, command⟩]) (machine.execute command).1

structure LeaseMachine.Safe (machine : LeaseMachine) : Prop where
  lease_fence : ∀ {resource : String} {value : Lease}, machine.leases[resource]? = some value →
    0 < value.fence ∧ value.fence < machine.nextFence
  grant_fence : ∀ {request : String} {value : Grant}, machine.grants[request]? = some value →
    0 < value.fence ∧ value.fence < machine.nextFence
  fence_injective : ∀ {p q : String} {g h : Grant}, machine.grants[p]? = some g →
    machine.grants[q]? = some h → g.fence = h.fence → p = q
  lease_backed : ∀ {resource : String} {value : Lease}, machine.leases[resource]? = some value →
    ∃ (request : String) (g : Grant), machine.grants[request]? = some g ∧ g.resource = resource ∧
      g.owner = value.owner ∧ g.fence = value.fence
  not_granted : ∀ {request : String}, request ∈ machine.canceled → machine.grants[request]? = none

namespace Event

variable (event : Event)

/-- The outcome shows an observation. -/
def Observes (observation : Json) : Prop :=
  ∃ fields, event.outcome.value = .object fields ∧ fields.lookup "observation" = some observation

/-- What is observed are the leases of the machine, none of them expired. -/
def ObservesCurrent : Prop :=
  ∀ observation, event.Observes observation →
    observation = event.after.observation ∧ event.after.Current

/-- A lease that a release takes away before it expires is named with its owner and fence. -/
def ReleasesExactly : Prop :=
  ∀ (arguments logicalTime : Json), event.command = .apply "release" arguments logicalTime →
    ∀ (resource : String) (value : Lease), event.before.leases[resource]? = some value →
      event.after.leases[resource]? ≠ some value → event.after.now < value.expiresAt →
        releaseArguments (argumentsObject arguments) =
          .ok { resource, owner := value.owner, fence := value.fence }

/-- A well-formed acquire of the request. -/
def Acquires (request : String) : Prop :=
  ∃ (arguments logicalTime : Json) (a : AcquireArguments),
    event.command = .apply "acquire" arguments logicalTime ∧
      acquireArguments (argumentsObject arguments) = .ok a ∧ a.request = request

/-- The machine is open and its time not after that of the command. -/
def Admitted : Prop :=
  event.before.closed = false ∧ ∃ (action : String) (arguments logicalTime : Json) (now : ℤ),
    event.command = .apply action arguments logicalTime ∧ logicalNow logicalTime = some now ∧
      event.before.now ≤ now

def grantedOutcome (idempotent : Bool) (value : Grant) : Outcome :=
  ok (.object [("grant", grantValue value), ("idempotent", .bool idempotent),
    ("status", .string "granted")])

/-- An acquire of the request returns the grant. -/
def Grants (request : String) (idempotent : Bool) (value : Grant) : Prop :=
  event.Acquires request ∧ event.outcome = grantedOutcome idempotent value

/-- What an event fixes for a later one, with no reset and no restore in between. -/
structure Follows (first second : Event) : Prop where
  returns_grant : ∀ {request : String} {value : Grant},
    first.after.grants[request]? = some value → second.Acquires request →
      (second.Admitted → second.Grants request true value) ∧
        (¬second.Admitted → second.outcome.kind = "error")
  stays_canceled : ∀ {request : String}, request ∈ first.after.canceled →
    ∀ idempotent value, ¬second.Grants request idempotent value
  fence_increases : ∀ {p q : String} {g h : Grant}, first.Grants p false g →
    second.Grants q false h → g.fence < h.fence

/-- What a returned grant or cancellation leaves in the machine. -/
structure Recorded : Prop where
  grant : ∀ {request : String} {idempotent : Bool} {value : Grant},
    event.Grants request idempotent value → event.after.grants[request]? = some value
  canceled : ∀ {arguments logicalTime : Json} {request : String},
    event.command = .apply "cancel" arguments logicalTime →
      event.outcome = ok (.object [("request", .string request), ("status", .string "canceled")]) →
        request ∈ event.after.canceled

end Event

theorem requiredString_ne_empty {object : List (String × Json)} {key value : String}
    (h : requiredString object key = .ok value) : value ≠ "" := by
  unfold requiredString at h
  split at h
  · split_ifs at h with hempty
    obtain rfl := Except.ok.inj h
    exact hempty
  · cases h

theorem positiveBigInt_pos {object : List (String × Json)} {key : String} {value : ℤ}
    (h : positiveBigInt object key = .ok value) : 0 < value := by
  unfold positiveBigInt at h
  split at h
  · cases h
  · split_ifs at h with hsign
    obtain rfl := Except.ok.inj h
    exact not_le.mp hsign

structure AcquireArguments.Named (a : AcquireArguments) : Prop where
  resource : a.resource ≠ ""
  owner : a.owner ≠ ""
  request : a.request ≠ ""
  ttl : 0 < a.ttl

theorem acquireArguments_named {arguments : List (String × Json)} {a : AcquireArguments}
    (h : acquireArguments arguments = .ok a) : a.Named := by
  simp only [acquireArguments, Transition.bind_eq_ok] at h
  obtain ⟨resource, hresource, owner, howner, request, hrequest, ttl, httl, h⟩ := h
  obtain rfl := Except.ok.inj h
  exact ⟨requiredString_ne_empty hresource, requiredString_ne_empty howner,
    requiredString_ne_empty hrequest, positiveBigInt_pos httl⟩

theorem logicalNow_nonneg {logicalTime : Json} {now : ℤ} (h : logicalNow logicalTime = some now) :
    0 ≤ now := by
  unfold logicalNow at h
  split at h
  · split_ifs at h with hsign
    obtain rfl := Option.some.inj h
    exact not_lt.mp hsign
  · cases h

namespace LeaseMachine

variable {machine : LeaseMachine}

/-- The grant that an acquire makes. -/
def nextGrant (machine : LeaseMachine) (a : AcquireArguments) : Grant where
  resource := a.resource
  owner := a.owner
  fence := machine.nextFence
  expiresAt := machine.now + a.ttl

/-- The machine after it has made a grant. -/
def grantNext (machine : LeaseMachine) (a : AcquireArguments) : LeaseMachine :=
  { machine with
    nextFence := machine.nextFence + 1
    leases := machine.leases.insert a.resource
      { owner := a.owner, fence := machine.nextFence, expiresAt := machine.now + a.ttl }
    grants := machine.grants.insert a.request (machine.nextGrant a) }

theorem acquire_cases (machine : LeaseMachine) {arguments : List (String × Json)} {a : AcquireArguments}
    (h : acquireArguments arguments = .ok a) :
    (∃ g, machine.grants[a.request]? = some g ∧
      machine.acquire arguments = (machine, Event.grantedOutcome true g)) ∨
    (machine.grants[a.request]? = none ∧ a.request ∉ machine.canceled ∧
      machine.leases[a.resource]? = none ∧ machine.acquire arguments =
        (machine.grantNext a, Event.grantedOutcome false (machine.nextGrant a))) ∨
    (machine.grants[a.request]? = none ∧ ∃ outcome, outcome.kind = "error" ∧
      machine.acquire arguments = (machine, outcome)) := by
  obtain ⟨resource, owner, request, ttl⟩ := a
  rw [acquire, h]
  cases hgrant : machine.grants[request]? with
  | some g => exact Or.inl ⟨g, rfl, by simp only [hgrant]; rfl⟩
  | none =>
    by_cases hcanceled : request ∈ machine.canceled
    · exact Or.inr (Or.inr ⟨rfl, _, rfl, by simp only [hgrant, hcanceled, if_true]; rfl⟩)
    · cases hlease : machine.leases[resource]? with
      | some existing =>
        exact Or.inr (Or.inr ⟨rfl, _, rfl, by simp only [hgrant, hcanceled, if_false, hlease]; rfl⟩)
      | none =>
        refine Or.inr (Or.inl ⟨rfl, hcanceled, rfl, ?_⟩)
        simp only [hgrant, hcanceled, if_false, hlease]
        rfl

theorem cancel_cases (machine : LeaseMachine) (arguments : List (String × Json)) :
    (∃ request, requiredString arguments "request" = .ok request ∧
      machine.grants[request]? = none ∧ machine.cancel arguments =
        ({ machine with canceled := machine.canceled.insert request },
          ok (.object [("request", .string request), ("status", .string "canceled")]))) ∨
    ∃ outcome, machine.cancel arguments = (machine, outcome) ∧
      ∀ request, outcome ≠
        ok (.object [("request", .string request), ("status", .string "canceled")]) := by
  rw [cancel]
  cases hrequest : requiredString arguments "request" with
  | error message => exact Or.inr ⟨_, rfl, fun request heq => by simp [ok, errorOutcome] at heq⟩
  | ok request =>
    cases hgrant : machine.grants[request]? with
    | some g =>
      simp only [hgrant]
      exact Or.inr ⟨_, rfl, fun request heq => by simp [ok] at heq⟩
    | none =>
      simp only [hgrant]
      exact Or.inl ⟨request, rfl, hgrant, rfl⟩

theorem release_cases (machine : LeaseMachine) (arguments : List (String × Json)) :
    (∃ resource value, machine.leases[resource]? = some value ∧
      releaseArguments arguments = .ok { resource, owner := value.owner, fence := value.fence } ∧
      (machine.release arguments).1 =
        { machine with leases := machine.leases.erase resource }) ∨
    (machine.release arguments).1 = machine := by
  rw [release]
  cases hread : releaseArguments arguments with
  | error message => exact Or.inr rfl
  | ok a =>
    obtain ⟨resource, owner, fence⟩ := a
    cases hlease : machine.leases[resource]? with
    | none =>
      simp only [hlease]
      exact Or.inr trivial
    | some current =>
      simp only [hlease]
      split
      · exact Or.inr rfl
      · rename_i hmatch
        obtain ⟨howner, hfence⟩ := not_or.mp hmatch
        obtain rfl := not_not.mp howner
        obtain rfl := not_not.mp hfence
        exact Or.inl ⟨resource, current, hlease, rfl, rfl⟩

theorem apply_cases (machine : LeaseMachine) (action : String) (arguments logicalTime : Json) :
    (∃ now, machine.closed = false ∧ logicalNow logicalTime = some now ∧ machine.now ≤ now ∧
      machine.apply action arguments logicalTime =
        { machine with now }.expire.act action arguments) ∨
    (¬(machine.closed = false ∧ ∃ now, logicalNow logicalTime = some now ∧ machine.now ≤ now) ∧
      ∃ outcome, outcome.kind = "error" ∧
        machine.apply action arguments logicalTime = (machine, outcome)) := by
  rw [apply]
  cases hclosed : machine.closed with
  | true => exact Or.inr ⟨by simp, _, rfl, rfl⟩
  | false =>
    cases hnow : logicalNow logicalTime with
    | none => exact Or.inr ⟨by simp, _, rfl, rfl⟩
    | some now =>
      by_cases hback : now < machine.now
      · refine Or.inr ⟨by simpa using hback, ?_⟩
        simp only [hback, if_true, Bool.false_eq_true, if_false]
        exact ⟨_, rfl, rfl⟩
      · exact Or.inl ⟨now, rfl, rfl, not_lt.mp hback, by simp [hback]⟩

/-! ## The invariant -/

structure Sound (machine : LeaseMachine) : Prop extends machine.Safe, machine.Storable

structure Valid (machine : LeaseMachine) : Prop extends machine.Sound where
  current : machine.Current

theorem Valid.fresh {now nextFence : ℤ} (hnow : 0 ≤ now) (hnextFence : 0 < nextFence) :
    (LeaseMachine.fresh now nextFence).Valid where
  lease_fence h := by simp [LeaseMachine.fresh] at h
  grant_fence h := by simp [LeaseMachine.fresh] at h
  fence_injective h := by simp [LeaseMachine.fresh] at h
  lease_backed h := by simp [LeaseMachine.fresh] at h
  not_granted h := by simp [LeaseMachine.fresh] at h
  now_nonneg := hnow
  nextFence_pos := hnextFence
  lease_named h := by simp [LeaseMachine.fresh] at h
  grant_named h := by simp [LeaseMachine.fresh] at h
  canceled_named h := by simp [LeaseMachine.fresh] at h
  current h := by simp [LeaseMachine.fresh] at h

theorem Sound.expire (h : machine.Sound) : machine.expire.Sound :=
  { h with
    lease_fence := fun hget => h.lease_fence (getElem?_expire.mp hget).1
    lease_backed := fun hget => h.lease_backed (getElem?_expire.mp hget).1
    lease_named := fun hget => h.lease_named (getElem?_expire.mp hget).1 }

theorem Sound.valid_expire (h : machine.Sound) : machine.expire.Valid :=
  { h.expire with current := current_expire machine }

theorem Sound.setNow (h : machine.Sound) {now : ℤ} (hnow : 0 ≤ now) :
    ({ machine with now } : LeaseMachine).Sound :=
  { h with now_nonneg := hnow }

theorem Valid.setClosed (h : machine.Valid) (closed : Bool) :
    ({ machine with closed } : LeaseMachine).Valid := { h with current := h.current }

theorem Valid.expire_eq (h : machine.Valid) : machine.expire = machine := expire_eq_self h.current

theorem Valid.grantNext (h : machine.Valid) {a : AcquireArguments} (ha : a.Named)
    (hgrant : machine.grants[a.request]? = none) (hcanceled : a.request ∉ machine.canceled) :
    (machine.grantNext a).Valid where
  lease_fence := by
    intro resource value hget
    simp only [LeaseMachine.grantNext, Std.ExtTreeMap.getElem?_insert] at hget ⊢
    split at hget
    · obtain rfl := Option.some.inj hget
      exact ⟨h.nextFence_pos, lt_add_one _⟩
    · obtain ⟨hpos, hlt⟩ := h.lease_fence hget
      exact ⟨hpos, hlt.trans (lt_add_one _)⟩
  grant_fence := by
    intro request value hget
    simp only [LeaseMachine.grantNext, Std.ExtTreeMap.getElem?_insert] at hget ⊢
    split at hget
    · obtain rfl := Option.some.inj hget
      exact ⟨h.nextFence_pos, lt_add_one _⟩
    · obtain ⟨hpos, hlt⟩ := h.grant_fence hget
      exact ⟨hpos, hlt.trans (lt_add_one _)⟩
  fence_injective := by
    intro p q g g' hp hq hfence
    simp only [LeaseMachine.grantNext, Std.ExtTreeMap.getElem?_insert,
      Std.LawfulEqCmp.compare_eq_iff_eq] at hp hq
    split at hp <;> split at hq
    · rename_i hp' hq'
      exact hp'.symm.trans hq'
    · obtain rfl := Option.some.inj hp
      exact absurd hfence (h.grant_fence hq).2.ne'
    · obtain rfl := Option.some.inj hq
      exact absurd hfence (h.grant_fence hp).2.ne
    · exact h.fence_injective hp hq hfence
  lease_backed := by
    intro resource value hget
    simp only [LeaseMachine.grantNext, Std.ExtTreeMap.getElem?_insert,
      Std.LawfulEqCmp.compare_eq_iff_eq] at hget ⊢
    split at hget
    · rename_i hresource
      obtain rfl := Option.some.inj hget
      exact ⟨a.request, machine.nextGrant a, if_pos rfl, hresource, rfl, rfl⟩
    · obtain ⟨request, g, hg, hbacked⟩ := h.lease_backed hget
      refine ⟨request, g, ?_, hbacked⟩
      rw [if_neg, hg]
      rintro rfl
      rw [hgrant] at hg
      cases hg
  not_granted := by
    intro request hmem
    have hne : a.request ≠ request := by
      rintro rfl
      exact hcanceled hmem
    simpa [LeaseMachine.grantNext, Std.ExtTreeMap.getElem?_insert, hne] using h.not_granted hmem
  now_nonneg := h.now_nonneg
  nextFence_pos := h.nextFence_pos.trans (lt_add_one _)
  lease_named := by
    intro resource value hget
    simp only [LeaseMachine.grantNext, Std.ExtTreeMap.getElem?_insert,
      Std.LawfulEqCmp.compare_eq_iff_eq] at hget
    split at hget
    · rename_i hresource
      obtain rfl := Option.some.inj hget
      exact ⟨hresource ▸ ha.resource, ha.owner⟩
    · exact h.lease_named hget
  grant_named := by
    intro request value hget
    simp only [LeaseMachine.grantNext, Std.ExtTreeMap.getElem?_insert,
      Std.LawfulEqCmp.compare_eq_iff_eq] at hget
    split at hget
    · rename_i hrequest
      obtain rfl := Option.some.inj hget
      exact ⟨hrequest ▸ ha.request, ha.resource, ha.owner⟩
    · exact h.grant_named hget
  canceled_named := h.canceled_named
  current := by
    intro resource value hget
    simp only [LeaseMachine.grantNext, Std.ExtTreeMap.getElem?_insert] at hget ⊢
    split at hget
    · obtain rfl := Option.some.inj hget
      exact lt_add_of_pos_right _ ha.ttl
    · exact h.current hget

theorem Valid.acquire (h : machine.Valid) (arguments : List (String × Json)) :
    (machine.acquire arguments).1.Valid := by
  cases hread : acquireArguments arguments with
  | error message =>
    rw [LeaseMachine.acquire, hread]
    exact h
  | ok a =>
    obtain ⟨g, -, heq⟩ | ⟨hgrant, hcanceled, -, heq⟩ | ⟨-, outcome, -, heq⟩ :=
      acquire_cases machine hread
    · rwa [heq]
    · rw [heq]
      exact h.grantNext (acquireArguments_named hread) hgrant hcanceled
    · rwa [heq]

theorem Valid.cancel (h : machine.Valid) (arguments : List (String × Json)) :
    (machine.cancel arguments).1.Valid := by
  obtain ⟨request, hrequest, hgrant, heq⟩ | ⟨outcome, heq, -⟩ :=
    cancel_cases machine arguments
  · rw [heq]
    refine { h with not_granted := ?_, canceled_named := ?_, current := h.current }
    · intro request' hmem
      rcases Std.ExtTreeSet.mem_insert.mp hmem with heq' | hmem
      · rw [Std.LawfulEqCmp.compare_eq_iff_eq] at heq'
        rw [← heq', hgrant]
      · exact h.not_granted hmem
    · intro request' hmem
      rcases Std.ExtTreeSet.mem_insert.mp hmem with heq' | hmem
      · rw [Std.LawfulEqCmp.compare_eq_iff_eq] at heq'
        rw [← heq']
        exact requiredString_ne_empty hrequest
      · exact h.canceled_named hmem
  · rwa [heq]

theorem getElem?_erase_lease {resource other : String} {value : Lease}
    (h : (machine.leases.erase resource)[other]? = some value) :
    machine.leases[other]? = some value := by
  rw [Std.ExtTreeMap.getElem?_erase] at h
  split at h
  · cases h
  · exact h

theorem Valid.release (h : machine.Valid) (arguments : List (String × Json)) :
    (machine.release arguments).1.Valid := by
  obtain ⟨resource, value, -, -, heq⟩ | heq := release_cases machine arguments
  · rw [heq]
    exact { h with
      lease_fence := fun hget => h.lease_fence (getElem?_erase_lease hget)
      lease_backed := fun hget => h.lease_backed (getElem?_erase_lease hget)
      lease_named := fun hget => h.lease_named (getElem?_erase_lease hget)
      current := fun hget => h.current (getElem?_erase_lease hget) }
  · rwa [heq]

theorem Valid.act (h : machine.Valid) (action : String) (arguments : Json) :
    (machine.act action arguments).1.Valid := by
  unfold LeaseMachine.act
  split
  · exact h.acquire _
  · exact h.cancel _
  · exact h.release _
  · exact h.toSound.valid_expire
  · exact h

theorem Valid.apply (h : machine.Valid) (action : String) (arguments logicalTime : Json) :
    (machine.apply action arguments logicalTime).1.Valid := by
  obtain ⟨now, -, hnow, -, heq⟩ | ⟨-, outcome, -, heq⟩ :=
    apply_cases machine action arguments logicalTime
  · rw [heq]
    exact (h.toSound.setNow (logicalNow_nonneg hnow)).valid_expire.act action arguments
  · rwa [heq]

theorem fresh_observe {now nextFence : ℤ} (hnow : 0 ≤ now) (hnextFence : 0 < nextFence) :
    (fresh now nextFence).observe = (fresh now nextFence,
      ok (.object [("observation", (fresh now nextFence).observation)])) := by
  rw [observe, (Valid.fresh hnow hnextFence).expire_eq]

theorem reset_cases (machine : LeaseMachine) (initialState : Json) (seed : String)
    (logicalTime : Json) :
    (machine.reset initialState seed logicalTime).1 = machine ∨
      ∃ now nextFence, 0 ≤ now ∧ 0 < nextFence ∧
        (machine.reset initialState seed logicalTime).1 = fresh now nextFence := by
  rw [reset]
  cases hnow : logicalNow logicalTime with
  | none => exact Or.inl rfl
  | some now =>
    have hsign := logicalNow_nonneg hnow
    have hone := congrArg Prod.fst (fresh_observe hsign one_pos)
    refine Or.inr ?_
    cases initialState with
    | null => exact ⟨now, 1, hsign, one_pos, hone⟩
    | object object =>
      simp only
      split
      · exact ⟨now, 1, hsign, one_pos, hone⟩
      · split
        · rename_i fence _
          split
          · exact ⟨now, 1, hsign, one_pos, rfl⟩
          · rename_i hfence
            exact ⟨now, fence, hsign, not_le.mp hfence,
              congrArg Prod.fst (fresh_observe hsign (not_le.mp hfence))⟩
        · exact ⟨now, 1, hsign, one_pos, rfl⟩
    | bool _ | number _ | string _ | array _ => exact ⟨now, 1, hsign, one_pos, rfl⟩

theorem Valid.reset (h : machine.Valid) (initialState : Json) (seed : String)
    (logicalTime : Json) : (machine.reset initialState seed logicalTime).1.Valid := by
  obtain heq | ⟨now, nextFence, hnow, hnextFence, heq⟩ :=
    reset_cases machine initialState seed logicalTime
  · rwa [heq]
  · rw [heq]
    exact Valid.fresh hnow hnextFence

/-- Restoring what was taken of a valid machine opens that machine again. -/
theorem restore_snapshotValue {source : LeaseMachine} (h : source.Valid) (machine : LeaseMachine) :
    machine.restore source.snapshotValue leaseSchemaHash =
      ({ source with closed := false },
        ok (.object [("observation", ({ source with closed := false } : LeaseMachine).observation)])) := by
  have hopen := (h.setClosed false).expire_eq
  rw [restore, if_neg (by simp), restoreValue_snapshotValue source machine h.toStorable]
  simp only [observe, hopen]

theorem Valid.restore (h : machine.Valid) {source : LeaseMachine} (hsource : source.Valid)
    (schemaHash : String) : (machine.restore source.snapshotValue schemaHash).1.Valid := by
  by_cases hhash : schemaHash = leaseSchemaHash
  · rw [hhash, restore_snapshotValue hsource]
    exact hsource.setClosed false
  · rw [LeaseMachine.restore, if_pos hhash]
    exact h

theorem fault_restart (h : machine.Valid) (arguments : Json) :
    machine.fault "process_restart" arguments = ({ machine with closed := false },
      ok (.object [("observation",
        ({ machine with closed := false } : LeaseMachine).observation), ("restarted", .bool true)])) := by
  have hopen := (h.setClosed false).expire_eq
  simp only [fault, h.expire_eq, restoreValue_snapshotValue machine LeaseMachine.new h.toStorable,
    hopen]

theorem fault_cases (h : machine.Valid) (fault : String) (arguments : Json) :
    (machine.fault fault arguments).1 = machine ∨
      (machine.fault fault arguments).1 = { machine with closed := false } := by
  by_cases hrestart : fault = "process_restart"
  · subst hrestart
    exact Or.inr (by rw [fault_restart h])
  · refine Or.inl ?_
    unfold LeaseMachine.fault
    split
    · rfl
    · exact absurd rfl hrestart
    · rfl

theorem Valid.fault (h : machine.Valid) (fault : String) (arguments : Json) :
    (machine.fault fault arguments).1.Valid := by
  obtain heq | heq := fault_cases h fault arguments
  · rwa [heq]
  · rw [heq]
    exact h.setClosed false

structure Extends (before after : LeaseMachine) : Prop where
  grants : ∀ {request : String} {value : Grant}, before.grants[request]? = some value →
    after.grants[request]? = some value
  canceled : ∀ {request : String}, request ∈ before.canceled → request ∈ after.canceled
  nextFence : before.nextFence ≤ after.nextFence

theorem Extends.refl (machine : LeaseMachine) : Extends machine machine := ⟨id, id, le_rfl⟩

theorem Extends.trans {a b c : LeaseMachine} (hab : Extends a b) (hbc : Extends b c) :
    Extends a c :=
  ⟨fun h => hbc.grants (hab.grants h), fun h => hbc.canceled (hab.canceled h),
    hab.nextFence.trans hbc.nextFence⟩

theorem Extends.grantNext {a : AcquireArguments} (hgrant : machine.grants[a.request]? = none) :
    Extends machine (machine.grantNext a) where
  grants := by
    intro request value hget
    have hne : a.request ≠ request := by
      rintro rfl
      rw [hgrant] at hget
      cases hget
    simpa [LeaseMachine.grantNext, Std.ExtTreeMap.getElem?_insert, hne] using hget
  canceled := id
  nextFence := (lt_add_one _).le

theorem extends_acquire (machine : LeaseMachine) (arguments : List (String × Json)) :
    Extends machine (machine.acquire arguments).1 := by
  cases hread : acquireArguments arguments with
  | error message =>
    rw [acquire, hread]
    exact Extends.refl machine
  | ok a =>
    obtain ⟨g, -, heq⟩ | ⟨hgrant, -, -, heq⟩ | ⟨-, outcome, -, heq⟩ :=
      acquire_cases machine hread
    · rw [heq]
      exact Extends.refl machine
    · rw [heq]
      exact Extends.grantNext hgrant
    · rw [heq]
      exact Extends.refl machine

theorem extends_act (machine : LeaseMachine) (action : String) (arguments : Json) :
    Extends machine (machine.act action arguments).1 := by
  unfold act
  split
  · exact extends_acquire machine _
  · obtain ⟨request, -, -, heq⟩ | ⟨outcome, heq, -⟩ :=
      cancel_cases machine (argumentsObject arguments)
    · rw [heq]
      exact ⟨id, fun hmem => Std.ExtTreeSet.mem_insert.mpr (Or.inr hmem), le_rfl⟩
    · rw [heq]
      exact Extends.refl machine
  · obtain ⟨resource, value, -, -, heq⟩ | heq :=
      release_cases machine (argumentsObject arguments)
    · rw [heq]
      exact ⟨id, id, le_rfl⟩
    · rw [heq]
      exact Extends.refl machine
  · exact ⟨id, id, le_rfl⟩
  · exact Extends.refl machine

theorem extends_apply (machine : LeaseMachine) (action : String) (arguments logicalTime : Json) :
    Extends machine (machine.apply action arguments logicalTime).1 := by
  obtain ⟨now, -, -, -, heq⟩ | ⟨-, outcome, -, heq⟩ :=
    apply_cases machine action arguments logicalTime
  · have htime : Extends machine { machine with now }.expire := ⟨id, id, le_rfl⟩
    rw [heq]
    exact htime.trans (extends_act _ action arguments)
  · rw [heq]
    exact Extends.refl machine

theorem extends_execute (h : machine.Valid) {command : Command} (hcommand : ¬command.Restarts) :
    Extends machine (machine.execute command).1 := by
  cases command with
  | reset initialState seed logicalTime => exact absurd trivial hcommand
  | apply action arguments logicalTime => exact extends_apply machine action arguments logicalTime
  | observe => exact ⟨id, id, le_rfl⟩
  | settle maxSteps => exact ⟨id, id, le_rfl⟩
  | snapshot => exact ⟨id, id, le_rfl⟩
  | restore snapshot schemaHash => exact absurd trivial hcommand
  | fault fault arguments =>
    obtain heq | heq := fault_cases h fault arguments
    · rw [execute, heq]
      exact Extends.refl machine
    · rw [execute, heq]
      exact ⟨id, id, le_rfl⟩
  | close => exact ⟨id, id, le_rfl⟩

theorem Valid.execute (h : machine.Valid) {history : List Event} {command : Command}
    (hpermitted : command.Permitted history)
    (hhistory : ∀ event ∈ history, event.before.Valid) : (machine.execute command).1.Valid := by
  cases command with
  | reset initialState seed logicalTime => exact h.reset initialState seed logicalTime
  | apply action arguments logicalTime => exact h.apply action arguments logicalTime
  | observe | settle _ | snapshot => exact h.toSound.valid_expire
  | restore taken schemaHash =>
    obtain ⟨event, hevent, hcommand, houtcome⟩ := hpermitted
    have hvalue : taken = event.before.expire.snapshotValue := by
      rw [Event.outcome, hcommand] at houtcome
      simpa [LeaseMachine.execute, LeaseMachine.snapshot, ok, eq_comm] using houtcome
    rw [hvalue]
    exact h.restore (hhistory event hevent).toSound.valid_expire schemaHash
  | fault fault arguments => exact h.fault fault arguments
  | close => exact h.setClosed true

end LeaseMachine

open LeaseMachine (Valid Extends)

namespace LeaseRun

variable {history : List Event} {machine : LeaseMachine}

theorem valid (h : LeaseRun history machine) :
    machine.Valid ∧ ∀ event ∈ history, event.before.Valid ∧ event.after.Valid := by
  induction h with
  | new => exact ⟨Valid.fresh le_rfl one_pos, by simp⟩
  | @step history machine _ command hpermitted ih =>
    obtain ⟨hmachine, hhistory⟩ := ih
    have hnext := hmachine.execute hpermitted fun event hevent => (hhistory event hevent).1
    refine ⟨hnext, fun event hevent => ?_⟩
    rcases List.mem_append.mp hevent with hevent | hevent
    · exact hhistory event hevent
    · rw [List.mem_singleton.mp hevent]
      exact ⟨hmachine, hnext⟩

/-- The machine after an event is kept up to the next reset or restore. -/
theorem extends_after (h : LeaseRun history machine) {earlier segment : List Event} {first : Event}
    (hhistory : history = earlier ++ first :: segment)
    (hsegment : ∀ event ∈ segment, ¬event.command.Restarts) :
    Extends first.after machine ∧ ∀ second ∈ segment, Extends first.after second.before := by
  induction h generalizing segment with
  | new => simp at hhistory
  | @step history machine hrun command _ ih =>
    rcases List.eq_nil_or_concat segment with rfl | ⟨segment, last, rfl⟩
    · obtain ⟨-, hlast⟩ := List.append_inj' hhistory rfl
      obtain rfl := (List.cons.inj hlast).1
      exact ⟨Extends.refl _, by simp⟩
    · rw [List.concat_eq_append, ← List.cons_append, ← List.append_assoc] at hhistory
      obtain ⟨hstart, hlast⟩ := List.append_inj' hhistory rfl
      obtain rfl := (List.cons.inj hlast).1
      rw [List.concat_eq_append] at hsegment ⊢
      obtain ⟨hmachine, hevents⟩ :=
        ih hstart fun event hevent => hsegment event (List.mem_append_left _ hevent)
      have hcommand : ¬command.Restarts := hsegment ⟨machine, command⟩ (by simp)
      refine ⟨hmachine.trans (LeaseMachine.extends_execute hrun.valid.1 hcommand), ?_⟩
      intro second hsecond
      rcases List.mem_append.mp hsecond with hsecond | hsecond
      · exact hevents second hsecond
      · rw [List.mem_singleton.mp hsecond]
        exact hmachine

end LeaseRun

/-! ## Events -/

theorem bigInt_injective : Function.Injective bigInt := by
  intro a b h
  have hparse := congrArg parseBigIntValue h
  rw [parseBigIntValue_bigInt, parseBigIntValue_bigInt] at hparse
  exact Except.ok.inj hparse

theorem grantValue_injective : Function.Injective grantValue := by
  intro g h heq
  obtain ⟨resource, owner, fence, expiresAt⟩ := g
  simp only [grantValue, Json.object.injEq, List.cons.injEq, Prod.mk.injEq, true_and,
    Json.string.injEq, and_true] at heq
  obtain ⟨hexpires, hfence, rfl, rfl⟩ := heq
  obtain rfl := bigInt_injective hexpires
  obtain rfl := bigInt_injective hfence
  rfl

namespace Event

theorem grantedOutcome_inj {b c : Bool} {g h : Grant}
    (heq : grantedOutcome b g = grantedOutcome c h) : b = c ∧ g = h := by
  simp only [grantedOutcome, ok, Outcome.mk.injEq, Json.object.injEq, List.cons.injEq,
    Prod.mk.injEq, true_and, Json.bool.injEq, and_true] at heq
  exact ⟨heq.2, grantValue_injective heq.1⟩

theorem ne_ok_of_error {outcome : Outcome} (hkind : outcome.kind = "error") (value : Json) :
    outcome ≠ ok value := by
  rintro rfl
  simp [ok] at hkind

variable {event : Event} {request : String} {idempotent : Bool} {value : Grant}

/-- An acquire that is answered by a grant found it, or made it. -/
theorem Grants.cases (h : event.Grants request idempotent value) :
    (event.before.grants[request]? = some value ∧ event.after.grants[request]? = some value ∧
      idempotent = true) ∨
    (event.before.grants[request]? = none ∧ request ∉ event.before.canceled ∧
      event.after.grants[request]? = some value ∧ value.fence = event.before.nextFence ∧
      event.after.nextFence = event.before.nextFence + 1 ∧ idempotent = false) := by
  obtain ⟨⟨arguments, logicalTime, a, hcommand, hread, rfl⟩, houtcome⟩ := h
  rw [outcome, hcommand, LeaseMachine.execute] at houtcome
  rw [after, hcommand, LeaseMachine.execute]
  obtain ⟨now, -, -, -, happly⟩ | ⟨-, refusal, hkind, happly⟩ :=
    LeaseMachine.apply_cases event.before "acquire" arguments logicalTime
  · rw [happly, LeaseMachine.act] at houtcome ⊢
    obtain ⟨g, hg, heq⟩ | ⟨hgrant, hcanceled, -, heq⟩ | ⟨-, refusal, hkind, heq⟩ :=
      LeaseMachine.acquire_cases { event.before with now }.expire hread
    · rw [heq] at houtcome ⊢
      obtain ⟨rfl, rfl⟩ := grantedOutcome_inj houtcome
      exact Or.inl ⟨hg, hg, rfl⟩
    · rw [heq] at houtcome ⊢
      obtain ⟨rfl, rfl⟩ := grantedOutcome_inj houtcome
      exact Or.inr ⟨hgrant, hcanceled, Std.ExtTreeMap.getElem?_insert_self, rfl, rfl, rfl⟩
    · rw [heq] at houtcome
      exact absurd houtcome (ne_ok_of_error hkind _)
  · rw [happly] at houtcome
    exact absurd houtcome (ne_ok_of_error hkind _)

theorem recorded (event : Event) : event.Recorded where
  grant := by
    intro request idempotent value h
    obtain ⟨-, hafter, -⟩ | ⟨-, -, hafter, -⟩ := h.cases
    · exact hafter
    · exact hafter
  canceled := by
    intro arguments logicalTime request hcommand houtcome
    rw [outcome, hcommand, LeaseMachine.execute] at houtcome
    rw [after, hcommand, LeaseMachine.execute]
    obtain ⟨now, -, -, -, happly⟩ | ⟨-, refusal, hkind, happly⟩ :=
      LeaseMachine.apply_cases event.before "cancel" arguments logicalTime
    · rw [happly, LeaseMachine.act] at houtcome ⊢
      obtain ⟨request', -, -, heq⟩ | ⟨other, heq, hother⟩ :=
        LeaseMachine.cancel_cases { event.before with now }.expire
          (argumentsObject arguments)
      · rw [heq] at houtcome ⊢
        obtain rfl : request' = request := by simpa [ok] using houtcome
        exact Std.ExtTreeSet.mem_insert_self
      · rw [heq] at houtcome
        exact absurd houtcome (hother request)
    · rw [happly] at houtcome
      exact absurd houtcome (ne_ok_of_error hkind _)

theorem releasesExactly (event : Event) : event.ReleasesExactly := by
  intro arguments logicalTime hcommand resource value hbefore hafter hnow
  rw [after, hcommand, LeaseMachine.execute] at hafter hnow
  obtain ⟨now, -, -, -, happly⟩ | ⟨-, refusal, -, happly⟩ :=
    LeaseMachine.apply_cases event.before "release" arguments logicalTime
  · rw [happly, LeaseMachine.act] at hafter hnow
    obtain ⟨other, current, hother, hread, heq⟩ | heq :=
      LeaseMachine.release_cases { event.before with now }.expire
        (argumentsObject arguments)
    · rw [heq] at hafter hnow
      have hkept : ({ event.before with now } : LeaseMachine).expire.leases[resource]? = some value :=
        LeaseMachine.getElem?_expire.mpr ⟨hbefore, hnow⟩
      have hsame : other = resource := by
        by_contra hne
        refine hafter ?_
        rw [Std.ExtTreeMap.getElem?_erase, if_neg (by simpa using hne)]
        exact hkept
      subst hsame
      rw [hkept] at hother
      obtain rfl := Option.some.inj hother
      exact hread
    · rw [heq] at hafter hnow
      have hkept : ({ event.before with now } : LeaseMachine).expire.leases[resource]? = some value :=
        LeaseMachine.getElem?_expire.mpr ⟨hbefore, hnow⟩
      exact absurd hkept hafter
  · rw [happly] at hafter
    exact absurd hbefore hafter

/-- An outcome without an observation. -/
def Silent (outcome : Outcome) : Prop :=
  ∀ fields, outcome.value = .object fields → fields.lookup "observation" = none

theorem silent_error {code message : String} {retryable : Bool} {data : Json} :
    Silent (errorOutcome code message retryable data) := by
  intro fields h
  cases h

theorem silent_unsupported {code message : String} {data : Json} :
    Silent (unsupportedOutcome code message data) := by
  intro fields h
  cases h

theorem silent_ok {fields : List (String × Json)} (h : fields.lookup "observation" = none) :
    Silent (ok (.object fields)) := by
  intro other hother
  obtain rfl := Json.object.inj hother
  exact h

theorem silent_acquire (machine : LeaseMachine) (arguments : List (String × Json)) :
    Silent (machine.acquire arguments).2 := by
  unfold LeaseMachine.acquire
  split
  · exact silent_error
  split
  · exact silent_ok rfl
  split
  · exact silent_error
  split
  · exact silent_error
  · exact silent_ok rfl

theorem silent_cancel (machine : LeaseMachine) (arguments : List (String × Json)) :
    Silent (machine.cancel arguments).2 := by
  unfold LeaseMachine.cancel
  split
  · exact silent_error
  split <;> exact silent_ok rfl

theorem silent_release (machine : LeaseMachine) (arguments : List (String × Json)) :
    Silent (machine.release arguments).2 := by
  unfold LeaseMachine.release
  split
  · exact silent_error
  split
  · exact silent_ok rfl
  split
  · exact silent_error
  · exact silent_ok rfl

/-- The machine has expired its leases, and the outcome is its observation if it shows one. -/
def Shows (result : LeaseMachine × Outcome) : Prop :=
  Silent result.2 ∨ result.1.Current ∧
    ∃ more, result.2.value = .object (("observation", result.1.observation) :: more)

theorem shows_observe (machine : LeaseMachine) : Shows machine.observe :=
  Or.inr ⟨LeaseMachine.current_expire machine, [], rfl⟩

theorem shows_apply (machine : LeaseMachine) (action : String) (arguments logicalTime : Json) :
    Shows (machine.apply action arguments logicalTime) := by
  unfold LeaseMachine.apply
  split
  · exact Or.inl silent_error
  split
  · exact Or.inl silent_error
  split
  · exact Or.inl silent_error
  unfold LeaseMachine.act
  split
  · exact Or.inl (silent_acquire _ _)
  · exact Or.inl (silent_cancel _ _)
  · exact Or.inl (silent_release _ _)
  · exact shows_observe _
  · exact Or.inl silent_error

theorem shows_reset (machine : LeaseMachine) (initialState : Json) (seed : String)
    (logicalTime : Json) : Shows (machine.reset initialState seed logicalTime) := by
  unfold LeaseMachine.reset
  split
  · exact Or.inl silent_error
  split
  · exact shows_observe _
  · split
    · exact shows_observe _
    · split
      · split
        · exact Or.inl silent_error
        · exact shows_observe _
      · exact Or.inl silent_error
  · exact Or.inl silent_error

theorem shows_restore (machine : LeaseMachine) (snapshot : Json) (schemaHash : String) :
    Shows (machine.restore snapshot schemaHash) := by
  unfold LeaseMachine.restore
  split
  · exact Or.inl silent_error
  split
  · exact Or.inl silent_error
  · exact shows_observe _

theorem shows_fault (machine : LeaseMachine) (fault : String) (arguments : Json) :
    Shows (machine.fault fault arguments) := by
  unfold LeaseMachine.fault
  split
  · exact Or.inl silent_error
  · split
    · exact Or.inl silent_error
    · exact Or.inr ⟨LeaseMachine.current_expire _, _, rfl⟩
  · exact Or.inl silent_unsupported

theorem shows_execute (machine : LeaseMachine) (command : Command) :
    Shows (machine.execute command) := by
  cases command with
  | reset initialState seed logicalTime => exact shows_reset machine initialState seed logicalTime
  | apply action arguments logicalTime => exact shows_apply machine action arguments logicalTime
  | observe | settle _ => exact shows_observe machine
  | snapshot | close => exact Or.inl (silent_ok rfl)
  | restore snapshot schemaHash => exact shows_restore machine snapshot schemaHash
  | fault fault arguments => exact shows_fault machine fault arguments

theorem observesCurrent (event : Event) : event.ObservesCurrent := by
  rintro observation ⟨fields, hvalue, hlookup⟩
  obtain hsilent | ⟨hcurrent, more, hshown⟩ := shows_execute event.before event.command
  · rw [hsilent fields hvalue] at hlookup
    cases hlookup
  · obtain rfl := Json.object.inj (hvalue.symm.trans hshown)
    exact ⟨(Option.some.inj hlookup).symm, hcurrent⟩

/-- Later events see what the machine still holds of an earlier state. -/
theorem follows {first second : Event} (hvalid : second.before.Valid)
    (h : Extends first.after second.before) : first.Follows second where
  returns_grant := by
    intro request value hgrant hacquires
    have hbefore := h.grants hgrant
    obtain ⟨arguments, logicalTime, a, hcommand, hread, rfl⟩ := hacquires
    obtain ⟨now, hclosed, hnow, hle, happly⟩ | ⟨hrefused, refusal, hkind, happly⟩ :=
      LeaseMachine.apply_cases second.before "acquire" arguments logicalTime
    · constructor
      · intro _
        refine ⟨⟨arguments, logicalTime, a, hcommand, hread, rfl⟩, ?_⟩
        rw [outcome, hcommand, LeaseMachine.execute, happly, LeaseMachine.act]
        obtain ⟨g, hg, heq⟩ | ⟨hnone, -⟩ | ⟨hnone, -⟩ :=
          LeaseMachine.acquire_cases { second.before with now }.expire hread
        · rw [heq]
          obtain rfl := Option.some.inj (hbefore.symm.trans hg)
          rfl
        · exact absurd (hbefore.symm.trans hnone) (by simp)
        · exact absurd (hbefore.symm.trans hnone) (by simp)
      · intro hadmitted
        exact absurd ⟨hclosed, _, arguments, logicalTime, now, hcommand, hnow, hle⟩ hadmitted
    · constructor
      · rintro ⟨hclosed, action, arguments', logicalTime', now, hcommand', hnow, hle⟩
        obtain ⟨-, -, rfl⟩ := Command.apply.inj (hcommand.symm.trans hcommand')
        exact absurd ⟨hclosed, now, hnow, hle⟩ hrefused
      · intro _
        rw [outcome, hcommand, LeaseMachine.execute, happly]
        exact hkind
  stays_canceled := by
    intro request hcanceled idempotent value hgrants
    have hbefore := h.canceled hcanceled
    obtain ⟨hgrant, -⟩ | ⟨-, hnot, -⟩ := hgrants.cases
    · rw [hvalid.not_granted hbefore] at hgrant
      cases hgrant
    · exact hnot hbefore
  fence_increases := by
    intro p q g g' hfirst hsecond
    obtain ⟨-, -, hfalse⟩ | ⟨-, -, -, hfence, hnext, -⟩ := hfirst.cases
    · cases hfalse
    · obtain ⟨-, -, hfalse⟩ | ⟨-, -, -, hfence', -⟩ := hsecond.cases
      · cases hfalse
      · rw [hfence, hfence']
        calc first.before.nextFence < first.after.nextFence := by rw [hnext]; exact lt_add_one _
          _ ≤ second.before.nextFence := h.nextFence

end Event

/-- After any run the machine is safe and holds no expired lease. Every event observes unexpired
leases, releases only what it names, and leaves in the machine what it returns; and what it leaves
there binds every event up to the next reset or restore. -/
theorem leaseMachine_safe {history : List Event} {machine : LeaseMachine}
    (h : LeaseRun history machine) :
    machine.Safe ∧ machine.Current ∧
      (∀ event ∈ history, event.ObservesCurrent ∧ event.ReleasesExactly ∧ event.Recorded) ∧
      ∀ (earlier segment : List Event) (first : Event), history = earlier ++ first :: segment →
        (∀ event ∈ segment, ¬event.command.Restarts) →
          ∀ second ∈ segment, first.Follows second := by
  obtain ⟨hvalid, hevents⟩ := h.valid
  refine ⟨hvalid.toSafe, hvalid.current, fun event _ => ?_, ?_⟩
  · exact ⟨event.observesCurrent, event.releasesExactly, event.recorded⟩
  · intro earlier segment first hhistory hsegment second hsecond
    have hmem : second ∈ history := by
      rw [hhistory]
      exact List.mem_append_right _ (List.mem_cons_of_mem _ hsecond)
    exact Event.follows (hevents second hmem).1 ((h.extends_after hhistory hsegment).2 second hsecond)

def acquireCommand : Command :=
  .apply "acquire" (.object [("owner", .string "o"), ("request", .string "q"),
    ("resource", .string "r"), ("ttl", bigInt 5)]) (bigInt 0)

/-- A lease that was acquired and snapshotted, restored. -/
theorem leaseMachine_safe_restored :
    let held := (LeaseMachine.new.execute acquireCommand).1
    ((held.execute .snapshot).1.execute
      (.restore held.expire.snapshotValue leaseSchemaHash)).1.Safe :=
  (leaseMachine_safe (.step (.step (.step .new acquireCommand trivial) .snapshot trivial)
    (.restore _ _) ⟨_, List.mem_append_right _ (List.mem_singleton.mpr rfl), rfl, rfl⟩)).1

end OptoSync.Stream.Go
