import OptoSync.Decimal
import OptoSync.Transition

/-!
# Resource policies

`ResourceProfile` of `fmctl`: what a run may ask for, and what it gets. Numbers are unbounded here;
products are checked against 64 bits.
-/
namespace OptoSync.Resource

open Transition (bind_eq_ok)

def resourcePolicySchemaVersion : ℕ := 1
def resourcePolicyVersion : String := "fm.resources.v1"

inductive ResourceProfileName
  | «local» | ci | service
  deriving DecidableEq, Repr

inductive OverageBehavior
  | reject | clamp
  deriving DecidableEq, Repr

structure ResourceValues where
  timeoutSeconds : ℕ
  maxOutputBytes : ℕ
  simulationMaxSamples : ℕ
  simulationMaxSteps : ℕ
  verificationMaxSteps : ℕ
  traceCount : ℕ
  traceMaxSteps : ℕ
  traceMaxSamples : ℕ
  deriving DecidableEq, Repr

structure ResourceCeilings where
  scalar : ResourceValues
  maxSimulationWork : ℕ
  maxTraceWork : ℕ
  deriving DecidableEq, Repr

structure ResourceRequest where
  timeoutSeconds : Option ℕ := none
  maxOutputBytes : Option ℕ := none
  simulationMaxSamples : Option ℕ := none
  simulationMaxSteps : Option ℕ := none
  verificationMaxSteps : Option ℕ := none
  traceCount : Option ℕ := none
  traceMaxSteps : Option ℕ := none
  traceMaxSamples : Option ℕ := none
  deriving DecidableEq, Repr

structure ResourceProfile where
  schemaVersion : ℕ
  policyVersion : String
  name : ResourceProfileName
  overageBehavior : OverageBehavior
  defaults : ResourceValues
  maximum : ResourceCeilings
  deriving DecidableEq, Repr

structure EffectiveResourceValues where
  scalar : ResourceValues
  simulationWork : ℕ
  traceCountWork : ℕ
  traceSampleWork : ℕ
  deriving DecidableEq, Repr

structure EffectiveResourcePolicy where
  schemaVersion : ℕ
  policyVersion : String
  profile : ResourceProfileName
  overageBehavior : OverageBehavior
  requested : ResourceRequest
  policyDefaults : ResourceValues
  policyMaximum : ResourceCeilings
  effective : EffectiveResourceValues
  inheritedFields : List String
  clampedFields : List String
  deriving DecidableEq, Repr

inductive ResourcePolicyError
  | unsupportedSchema (actual : ℕ)
  | unsupportedPolicyVersion (actual : String)
  | invalidProfile (profile : ResourceProfileName) (field : String)
  | defaultOverMaximum (profile : ResourceProfileName) (field : String) (default maximum : ℕ)
  | zeroRequest (field : String)
  | overPolicy (profile : ResourceProfileName) (field : String) (requested maximum : ℕ)
  | workOverflow (field : String)
  | workOverPolicy (profile : ResourceProfileName) (field : String) (actual maximum : ℕ)
  deriving DecidableEq, Repr

abbrev Resolved (α : Type) := Except ResourcePolicyError α

/-- `u64::checked_mul` -/
def checkedMul (left right : ℕ) : Option ℕ :=
  if left * right ≤ Decimal.maxU64 then some (left * right) else none

def checkedWork (profile : ResourceProfileName) (field : String) (left right maximum : ℕ) :
    Resolved ℕ :=
  match checkedMul left right with
  | none => .error (.workOverflow field)
  | some actual =>
    if actual > maximum then .error (.workOverPolicy profile field actual maximum) else .ok actual

def resourceFields (values : ResourceValues) : List (String × ℕ) :=
  [("timeout_seconds", values.timeoutSeconds), ("max_output_bytes", values.maxOutputBytes),
    ("simulation_max_samples", values.simulationMaxSamples),
    ("simulation_max_steps", values.simulationMaxSteps),
    ("verification_max_steps", values.verificationMaxSteps), ("trace_count", values.traceCount),
    ("trace_max_steps", values.traceMaxSteps), ("trace_max_samples", values.traceMaxSamples)]

namespace ResourceProfile

def localV1 : ResourceProfile where
  schemaVersion := resourcePolicySchemaVersion
  policyVersion := resourcePolicyVersion
  name := .local
  overageBehavior := .reject
  defaults :=
    { timeoutSeconds := 120, maxOutputBytes := 4 * 1024 * 1024, simulationMaxSamples := 10000,
      simulationMaxSteps := 40, verificationMaxSteps := 100, traceCount := 8, traceMaxSteps := 30,
      traceMaxSamples := 500 }
  maximum :=
    { scalar :=
        { timeoutSeconds := 21600, maxOutputBytes := 64 * 1024 * 1024,
          simulationMaxSamples := 1000000, simulationMaxSteps := 100000,
          verificationMaxSteps := 100000, traceCount := 10000, traceMaxSteps := 100000,
          traceMaxSamples := 1000000 }
      maxSimulationWork := 100000000
      maxTraceWork := 100000000 }

variable (self : ResourceProfile)

/-- The check of one field of the profile. -/
def validateField (field : String) (default maximum : ℕ) : Resolved Unit :=
  if default = 0 then .error (.invalidProfile self.name field)
  else if maximum = 0 then .error (.invalidProfile self.name field)
  else if default > maximum then
    .error (.defaultOverMaximum self.name field default maximum)
  else .ok ()

def validate : Resolved Unit := do
  if self.schemaVersion ≠ resourcePolicySchemaVersion then
    .error (.unsupportedSchema self.schemaVersion)
  else if self.policyVersion ≠ resourcePolicyVersion then
    .error (.unsupportedPolicyVersion self.policyVersion)
  else do
    for (default, maximum) in
        (resourceFields self.defaults).zip (resourceFields self.maximum.scalar) do
      self.validateField default.1 default.2 maximum.2
    if self.maximum.maxSimulationWork = 0 then
      .error (.invalidProfile self.name "max_simulation_work")
    else if self.maximum.maxTraceWork = 0 then
      .error (.invalidProfile self.name "max_trace_work")
    else do
      let _ ← checkedWork self.name "default simulation work" self.defaults.simulationMaxSamples
        self.defaults.simulationMaxSteps self.maximum.maxSimulationWork
      let _ ← checkedWork self.name "default trace count work" self.defaults.traceCount
        self.defaults.traceMaxSteps self.maximum.maxTraceWork
      let _ ← checkedWork self.name "default trace sample work" self.defaults.traceMaxSamples
        self.defaults.traceMaxSteps self.maximum.maxTraceWork
      .ok ()

/-- The names of the fields that were not requested, and of those that were cut. -/
structure Notes where
  inheritedFields : List String := []
  clampedFields : List String := []

def resolveField (field : String) (requested : Option ℕ) (default maximum : ℕ) (notes : Notes) :
    Resolved (ℕ × Notes) :=
  match requested with
  | none => .ok (default, { notes with inheritedFields := notes.inheritedFields ++ [field] })
  | some requested =>
    if requested = 0 then .error (.zeroRequest field)
    else if requested ≤ maximum then .ok (requested, notes)
    else
      match self.overageBehavior with
      | .reject => .error (.overPolicy self.name field requested maximum)
      | .clamp => .ok (maximum, { notes with clampedFields := notes.clampedFields ++ [field] })

def resolve (request : ResourceRequest) : Resolved EffectiveResourcePolicy := do
  self.validate
  let (timeoutSeconds, notes) ← self.resolveField "timeout_seconds"
    request.timeoutSeconds self.defaults.timeoutSeconds self.maximum.scalar.timeoutSeconds {}
  let (maxOutputBytes, notes) ← self.resolveField "max_output_bytes"
    request.maxOutputBytes self.defaults.maxOutputBytes self.maximum.scalar.maxOutputBytes notes
  let (simulationMaxSamples, notes) ← self.resolveField "simulation_max_samples"
    request.simulationMaxSamples self.defaults.simulationMaxSamples
    self.maximum.scalar.simulationMaxSamples notes
  let (simulationMaxSteps, notes) ← self.resolveField "simulation_max_steps"
    request.simulationMaxSteps self.defaults.simulationMaxSteps
    self.maximum.scalar.simulationMaxSteps notes
  let (verificationMaxSteps, notes) ← self.resolveField "verification_max_steps"
    request.verificationMaxSteps self.defaults.verificationMaxSteps
    self.maximum.scalar.verificationMaxSteps notes
  let (traceCount, notes) ← self.resolveField "trace_count"
    request.traceCount self.defaults.traceCount self.maximum.scalar.traceCount notes
  let (traceMaxSteps, notes) ← self.resolveField "trace_max_steps"
    request.traceMaxSteps self.defaults.traceMaxSteps self.maximum.scalar.traceMaxSteps notes
  let (traceMaxSamples, notes) ← self.resolveField "trace_max_samples"
    request.traceMaxSamples self.defaults.traceMaxSamples
    self.maximum.scalar.traceMaxSamples notes
  let simulationWork ← checkedWork self.name "simulation_max_samples * simulation_max_steps"
    simulationMaxSamples simulationMaxSteps self.maximum.maxSimulationWork
  let traceCountWork ← checkedWork self.name "trace_count * trace_max_steps" traceCount
    traceMaxSteps self.maximum.maxTraceWork
  let traceSampleWork ← checkedWork self.name "trace_max_samples * trace_max_steps"
    traceMaxSamples traceMaxSteps self.maximum.maxTraceWork
  .ok
    { schemaVersion := self.schemaVersion, policyVersion := self.policyVersion,
      profile := self.name, overageBehavior := self.overageBehavior, requested := request,
      policyDefaults := self.defaults, policyMaximum := self.maximum,
      effective :=
        { scalar :=
            { timeoutSeconds, maxOutputBytes, simulationMaxSamples, simulationMaxSteps,
              verificationMaxSteps, traceCount, traceMaxSteps, traceMaxSamples }
          simulationWork, traceCountWork, traceSampleWork }
      inheritedFields := notes.inheritedFields, clampedFields := notes.clampedFields }

theorem checkedWork_eq_ok_iff {profile : ResourceProfileName} {field : String}
    {left right maximum work : ℕ} (hmaximum : maximum ≤ Decimal.maxU64) :
    checkedWork profile field left right maximum = .ok work ↔
      left * right ≤ maximum ∧ left * right = work := by
  unfold checkedWork checkedMul
  by_cases hfits : left * right ≤ maximum
  · have hword : left * right ≤ Decimal.maxU64 := hfits.trans hmaximum
    simp [hword, hfits, not_lt.mpr hfits]
  · by_cases hword : left * right ≤ Decimal.maxU64 <;> simp [hword, hfits, not_le.mp hfits]

/-- Every field is asked for within the bounds of the profile, or not at all. -/
structure Admits (profile : ResourceProfile) (request : ResourceRequest) : Prop where
  timeoutSeconds : ∀ r ∈ request.timeoutSeconds, 0 < r ∧ r ≤ profile.maximum.scalar.timeoutSeconds
  maxOutputBytes : ∀ r ∈ request.maxOutputBytes, 0 < r ∧ r ≤ profile.maximum.scalar.maxOutputBytes
  simulationMaxSamples : ∀ r ∈ request.simulationMaxSamples,
    0 < r ∧ r ≤ profile.maximum.scalar.simulationMaxSamples
  simulationMaxSteps : ∀ r ∈ request.simulationMaxSteps,
    0 < r ∧ r ≤ profile.maximum.scalar.simulationMaxSteps
  verificationMaxSteps : ∀ r ∈ request.verificationMaxSteps,
    0 < r ∧ r ≤ profile.maximum.scalar.verificationMaxSteps
  traceCount : ∀ r ∈ request.traceCount, 0 < r ∧ r ≤ profile.maximum.scalar.traceCount
  traceMaxSteps : ∀ r ∈ request.traceMaxSteps, 0 < r ∧ r ≤ profile.maximum.scalar.traceMaxSteps
  traceMaxSamples : ∀ r ∈ request.traceMaxSamples,
    0 < r ∧ r ≤ profile.maximum.scalar.traceMaxSamples

/-- The work of a request whose fields are granted as asked. -/
structure WorkFits (profile : ResourceProfile) (request : ResourceRequest) : Prop where
  simulation : request.simulationMaxSamples.getD profile.defaults.simulationMaxSamples *
    request.simulationMaxSteps.getD profile.defaults.simulationMaxSteps ≤
      profile.maximum.maxSimulationWork
  traceCount : request.traceCount.getD profile.defaults.traceCount *
    request.traceMaxSteps.getD profile.defaults.traceMaxSteps ≤ profile.maximum.maxTraceWork
  traceSamples : request.traceMaxSamples.getD profile.defaults.traceMaxSamples *
    request.traceMaxSteps.getD profile.defaults.traceMaxSteps ≤ profile.maximum.maxTraceWork

/-- A field that is asked for within the bounds is granted as asked. -/
theorem resolveField_of_admitted (field : String) (default : ℕ) {requested : Option ℕ}
    {maximum : ℕ} (h : ∀ r ∈ requested, 0 < r ∧ r ≤ maximum) (notes : Notes) :
    ∃ notes', self.resolveField field requested default maximum notes =
      .ok (requested.getD default, notes') := by
  cases requested with
  | none => exact ⟨_, rfl⟩
  | some r =>
    obtain ⟨hpositive, hle⟩ := h r rfl
    exact ⟨notes, by simp [resolveField, hpositive.ne', hle]⟩

variable {self}

/-- Of a valid profile, a request within the bounds is refused for its work only. -/
theorem resolve_ok_iff {request : ResourceRequest} (hvalid : self.validate = .ok ())
    (hsimulation : self.maximum.maxSimulationWork ≤ Decimal.maxU64)
    (htrace : self.maximum.maxTraceWork ≤ Decimal.maxU64) (h : self.Admits request) :
    (∃ policy, self.resolve request = .ok policy) ↔ self.WorkFits request := by
  obtain ⟨n₁, h₁⟩ := self.resolveField_of_admitted "timeout_seconds"
    self.defaults.timeoutSeconds h.timeoutSeconds {}
  obtain ⟨n₂, h₂⟩ := self.resolveField_of_admitted "max_output_bytes"
    self.defaults.maxOutputBytes h.maxOutputBytes n₁
  obtain ⟨n₃, h₃⟩ := self.resolveField_of_admitted "simulation_max_samples"
    self.defaults.simulationMaxSamples h.simulationMaxSamples n₂
  obtain ⟨n₄, h₄⟩ := self.resolveField_of_admitted "simulation_max_steps"
    self.defaults.simulationMaxSteps h.simulationMaxSteps n₃
  obtain ⟨n₅, h₅⟩ := self.resolveField_of_admitted "verification_max_steps"
    self.defaults.verificationMaxSteps h.verificationMaxSteps n₄
  obtain ⟨n₆, h₆⟩ := self.resolveField_of_admitted "trace_count"
    self.defaults.traceCount h.traceCount n₅
  obtain ⟨n₇, h₇⟩ := self.resolveField_of_admitted "trace_max_steps"
    self.defaults.traceMaxSteps h.traceMaxSteps n₆
  obtain ⟨n₈, h₈⟩ := self.resolveField_of_admitted "trace_max_samples"
    self.defaults.traceMaxSamples h.traceMaxSamples n₇
  unfold resolve
  simp only [bind_eq_ok, hvalid, h₁, h₂, h₃, h₄, h₅, h₆, h₇, h₈, Except.ok.injEq,
    exists_eq_left', checkedWork_eq_ok_iff hsimulation, checkedWork_eq_ok_iff htrace]
  constructor
  · rintro ⟨policy, -, -, _, ⟨hsim, -⟩, _, ⟨hcount, -⟩, _, ⟨hsamples, -⟩, -⟩
    exact ⟨hsim, hcount, hsamples⟩
  · rintro ⟨hsim, hcount, hsamples⟩
    exact ⟨_, (), trivial, _, ⟨hsim, rfl⟩, _, ⟨hcount, rfl⟩, _, ⟨hsamples, rfl⟩, rfl⟩

end ResourceProfile
end OptoSync.Resource
