import OptoSync.FormalManifest
import OptoSync.ResourcePolicy

/-!
# The resources of a validated manifest

`resolve_local_resource_policy` of `fmctl`, with which every plan begins. A manifest that passes its
validation asks for no field beyond the local profile. What may still be refused is the product of
two sections: traces without `max_samples` take that of the simulation.
-/
namespace OptoSync.Formal

open Resource

def resourceRequest (manifest : Manifest) : ResourceRequest where
  timeoutSeconds := some manifest.execution.timeoutSeconds
  maxOutputBytes :=
    some (if manifest.execution.maxOutputBytes ≤ Decimal.maxU64 then
      manifest.execution.maxOutputBytes else Decimal.maxU64)
  simulationMaxSamples := manifest.simulation.map SimulationConfig.maxSamples
  simulationMaxSteps := manifest.simulation.map SimulationConfig.maxSteps
  verificationMaxSteps := manifest.verification.bind VerificationConfig.maxSteps
  traceCount := manifest.traces.map TraceConfig.count
  traceMaxSteps := manifest.traces.map TraceConfig.maxSteps
  traceMaxSamples := manifest.traces.map fun traces =>
    (traces.maxSamples <|> manifest.simulation.map SimulationConfig.maxSamples).getD 500

def resolveLocalResourcePolicy (manifest : Manifest) : Resolved EffectiveResourcePolicy :=
  ResourceProfile.localV1.resolve (resourceRequest manifest)

theorem errorIf_eq_nil {fails : Bool} {text : String} :
    errorIf fails text = [] ↔ fails = false := by
  cases fails <;> simp [errorIf]

theorem validateBound_eq_nil {label : String} {value maximum : ℕ} :
    validateBound label value maximum = [] ↔ 0 < value ∧ value ≤ maximum := by
  unfold validateBound
  split_ifs with hzero
  · simp [hzero]
  · simp [errorIf_eq_nil, Nat.pos_of_ne_zero hzero]

theorem validateOptionalBound_eq_nil {label : String} {value : Option ℕ} {maximum : ℕ} :
    validateOptionalBound label value maximum = [] ↔ ∀ n ∈ value, 0 < n ∧ n ≤ maximum := by
  cases value with
  | none => simp [validateOptionalBound, errorIf_eq_nil]
  | some n => simp [validateOptionalBound, errorIf_eq_nil, Nat.pos_iff_ne_zero]

theorem validateWorkProduct_eq_nil {label : String} {left right maximum : ℕ}
    (hmaximum : maximum ≤ Decimal.maxU64) :
    validateWorkProduct label left right maximum = [] ↔ left * right ≤ maximum := by
  unfold validateWorkProduct
  by_cases hword : left * right ≤ Decimal.maxU64
  · simp [hword, errorIf_eq_nil]
  · have hover : ¬left * right ≤ maximum := fun h => hword (h.trans hmaximum)
    simp [hword, hover]

/-- The bounds of the execution section. -/
theorem ExecutionConfig.bounds {execution : ExecutionConfig} (h : execution.validate = []) :
    (0 < execution.timeoutSeconds ∧ execution.timeoutSeconds ≤ maxTimeoutSeconds) ∧
      1024 ≤ execution.maxOutputBytes ∧ execution.maxOutputBytes ≤ Formal.maxOutputBytes := by
  simp only [ExecutionConfig.validate, List.append_eq_nil_iff, validateBound_eq_nil] at h
  obtain ⟨⟨htimeout, houtput⟩, -⟩ := h
  split_ifs at houtput with hmin
  exact ⟨htimeout, not_lt.mp hmin, by simpa [errorIf_eq_nil] using houtput⟩

/-- The bounds of the simulation section. -/
theorem SimulationConfig.bounds {simulation : SimulationConfig} (h : simulation.validate = []) :
    (0 < simulation.maxSamples ∧ simulation.maxSamples ≤ maxSimulationSamples) ∧
      (0 < simulation.maxSteps ∧ simulation.maxSteps ≤ maxSimulationSteps) ∧
      simulation.maxSamples * simulation.maxSteps ≤ maxSimulationWork := by
  simp only [SimulationConfig.validate, List.append_eq_nil_iff, validateBound_eq_nil,
    validateWorkProduct_eq_nil (show maxSimulationWork ≤ Decimal.maxU64 by decide)] at h
  obtain ⟨⟨⟨-, hsamples⟩, hsteps⟩, hwork⟩ := h
  exact ⟨hsamples, hsteps, hwork⟩

/-- The bound of the verification section. -/
theorem VerificationConfig.bounds {verification : VerificationConfig}
    (h : verification.validate = []) :
    ∀ n ∈ verification.maxSteps, 0 < n ∧ n ≤ maxVerificationSteps := by
  simp only [VerificationConfig.validate, List.append_eq_nil_iff, validateOptionalBound_eq_nil] at h
  exact h.2

/-- The bounds of the traces section. -/
structure TraceConfig.Bounds (traces : TraceConfig) : Prop where
  count : 0 < traces.count ∧ traces.count ≤ maxTraceCount
  maxSteps : 0 < traces.maxSteps ∧ traces.maxSteps ≤ maxTraceSteps
  maxSamples : ∀ n ∈ traces.maxSamples, 0 < n ∧ n ≤ maxTraceSamples
  countWork : traces.count * traces.maxSteps ≤ maxTraceWork
  sampleWork : ∀ n ∈ traces.maxSamples, n * traces.maxSteps ≤ maxTraceWork

theorem TraceConfig.bounds {traces : TraceConfig} (h : traces.validate = []) : traces.Bounds := by
  have hword : maxTraceWork ≤ Decimal.maxU64 := by decide
  simp only [TraceConfig.validate, List.append_eq_nil_iff, validateBound_eq_nil,
    validateOptionalBound_eq_nil, validateWorkProduct_eq_nil hword] at h
  obtain ⟨⟨⟨⟨⟨⟨-, hcount⟩, hsteps⟩, hsamples⟩, hcountWork⟩, hsampleWork⟩, -⟩ := h
  refine ⟨hcount, hsteps, hsamples, hcountWork, fun n hn => ?_⟩
  rw [Option.mem_def.mp hn] at hsampleWork
  exact (validateWorkProduct_eq_nil hword).mp hsampleWork

/-- The sections of a manifest that is validated. -/
structure Manifest.Validated (manifest : Manifest) : Prop where
  execution : manifest.execution.validate = []
  simulation : ∀ simulation ∈ manifest.simulation, simulation.validate = []
  verification : ∀ verification ∈ manifest.verification, verification.validate = []
  traces : ∀ traces ∈ manifest.traces, traces.validate = []

theorem validated_of_shape {manifest : Manifest} (h : validateManifestShape manifest = []) :
    manifest.Validated := by
  have hsection : ∀ {α : Type} {validate : α → List String} {s : Option α},
      (s.map validate).getD [] = [] → ∀ a ∈ s, validate a = [] := by
    intro α validate s hs a ha
    rw [Option.mem_def.mp ha] at hs
    exact hs
  simp only [validateManifestShape, List.append_eq_nil_iff] at h
  exact ⟨h.1.1.1.1.2, hsection h.1.1.1.2, hsection h.1.1.2, hsection h.1.2⟩

/-- The samples of the traces, with their fallbacks. -/
theorem traceMaxSamples_cases {manifest : Manifest} {traces : TraceConfig}
    (htraces : manifest.traces = some traces) :
    (∃ n ∈ traces.maxSamples, (resourceRequest manifest).traceMaxSamples = some n) ∨
      (traces.maxSamples = none ∧ ∃ simulation ∈ manifest.simulation,
        (resourceRequest manifest).traceMaxSamples = some simulation.maxSamples) ∨
      (traces.maxSamples = none ∧ manifest.simulation = none ∧
        (resourceRequest manifest).traceMaxSamples = some 500) := by
  simp only [resourceRequest, htraces, Option.map_some]
  cases hsamples : traces.maxSamples with
  | some n => exact .inl ⟨n, rfl, rfl⟩
  | none =>
    cases hsimulation : manifest.simulation with
    | some simulation => exact .inr (.inl ⟨rfl, simulation, rfl, rfl⟩)
    | none => exact .inr (.inr ⟨rfl, rfl, rfl⟩)

/-- Every field that a validated manifest asks for is within the local profile. -/
theorem Manifest.Validated.admits {manifest : Manifest} (h : manifest.Validated) :
    ResourceProfile.localV1.Admits (resourceRequest manifest) := by
  obtain ⟨htimeout, hmin, hmax⟩ := ExecutionConfig.bounds h.execution
  have hsimulation := fun s hs => SimulationConfig.bounds (h.simulation s hs)
  have htraces := fun t ht => TraceConfig.bounds (h.traces t ht)
  constructor
  case timeoutSeconds =>
    rintro r ⟨⟩
    exact htimeout
  case maxOutputBytes =>
    have hword : manifest.execution.maxOutputBytes ≤ Decimal.maxU64 := hmax.trans (by decide)
    rintro r hr
    simp only [resourceRequest, hword, if_true, Option.mem_def, Option.some.injEq] at hr
    exact hr ▸ ⟨by omega, hmax⟩
  case simulationMaxSamples =>
    rintro r hr
    obtain ⟨simulation, hs, rfl⟩ := Option.mem_map.mp hr
    exact (hsimulation simulation hs).1
  case simulationMaxSteps =>
    rintro r hr
    obtain ⟨simulation, hs, rfl⟩ := Option.mem_map.mp hr
    exact (hsimulation simulation hs).2.1
  case verificationMaxSteps =>
    rintro r hr
    obtain ⟨verification, hv, hr⟩ := Option.mem_bind_iff.mp hr
    exact VerificationConfig.bounds (h.verification verification hv) r hr
  case traceCount =>
    rintro r hr
    obtain ⟨traces, ht, rfl⟩ := Option.mem_map.mp hr
    exact (htraces traces ht).count
  case traceMaxSteps =>
    rintro r hr
    obtain ⟨traces, ht, rfl⟩ := Option.mem_map.mp hr
    exact (htraces traces ht).maxSteps
  case traceMaxSamples =>
    rintro r hr
    obtain ⟨traces, ht, -⟩ := Option.mem_map.mp hr
    obtain ⟨n, hn, heq⟩ | ⟨-, simulation, hs, heq⟩ | ⟨-, -, heq⟩ := traceMaxSamples_cases ht
    · obtain rfl := Option.some.inj (hr.symm.trans heq)
      exact (htraces traces ht).maxSamples _ hn
    · obtain rfl := Option.some.inj (hr.symm.trans heq)
      exact (hsimulation simulation hs).1
    · obtain rfl := Option.some.inj (hr.symm.trans heq)
      decide

/-- Traces that leave `max_samples` to the simulation stay within the work of traces with it. -/
def Manifest.FallbackFits (manifest : Manifest) : Prop :=
  ∀ traces ∈ manifest.traces, traces.maxSamples = none →
    ∀ simulation ∈ manifest.simulation, simulation.maxSamples * traces.maxSteps ≤ maxTraceWork

theorem Manifest.Validated.workFits_iff {manifest : Manifest} (h : manifest.Validated) :
    ResourceProfile.localV1.WorkFits (resourceRequest manifest) ↔ manifest.FallbackFits := by
  constructor
  · intro hfits traces ht hnone simulation hs
    have hwork := hfits.traceSamples
    have hsteps : (resourceRequest manifest).traceMaxSteps = some traces.maxSteps := by
      simp [resourceRequest, Option.mem_def.mp ht]
    have hsamples : (resourceRequest manifest).traceMaxSamples = some simulation.maxSamples := by
      simp [resourceRequest, Option.mem_def.mp ht, Option.mem_def.mp hs, hnone]
    rw [hsteps, hsamples] at hwork
    exact hwork
  · intro hfallback
    constructor
    case simulation =>
      cases hs : manifest.simulation with
      | none => simp [resourceRequest, hs, ResourceProfile.localV1]
      | some simulation =>
        have hwork := (SimulationConfig.bounds (h.simulation simulation hs)).2.2
        simp only [resourceRequest, hs, Option.map_some, Option.getD_some]
        exact hwork
    case traceCount =>
      cases ht : manifest.traces with
      | none => simp [resourceRequest, ht, ResourceProfile.localV1]
      | some traces =>
        have hwork := (TraceConfig.bounds (h.traces traces ht)).countWork
        simp only [resourceRequest, ht, Option.map_some, Option.getD_some]
        exact hwork
    case traceSamples =>
      cases ht : manifest.traces with
      | none => simp [resourceRequest, ht, ResourceProfile.localV1]
      | some traces =>
        have hbounds := TraceConfig.bounds (h.traces traces ht)
        have hsteps : (resourceRequest manifest).traceMaxSteps = some traces.maxSteps := by
          simp [resourceRequest, ht]
        rw [hsteps]
        obtain ⟨n, hn, heq⟩ | ⟨hnone, simulation, hs, heq⟩ | ⟨-, -, heq⟩ := traceMaxSamples_cases ht
        · rw [heq]
          exact hbounds.sampleWork n hn
        · rw [heq]
          exact hfallback traces ht hnone simulation hs
        · rw [heq]
          calc 500 * traces.maxSteps
            _ ≤ 500 * maxTraceSteps := Nat.mul_le_mul_left _ hbounds.maxSteps.2
            _ ≤ maxTraceWork := by decide

/-- A validated manifest has a plan for its resources exactly if its fallback fits. -/
theorem validated_resolves_iff (manifest : Manifest) (h : validateManifestShape manifest = []) :
    (∃ policy, resolveLocalResourcePolicy manifest = .ok policy) ↔ manifest.FallbackFits := by
  have hvalidated := validated_of_shape h
  have hprofile : ResourceProfile.localV1.validate = .ok () := by decide
  exact (ResourceProfile.resolve_ok_iff hprofile (by decide) (by decide) hvalidated.admits).trans
    hvalidated.workFits_iff

/-- A million samples of a hundred steps, and traces of a thousand steps. -/
def manySamples : Manifest where
  schemaVersion := 1
  project := "project"
  model := "model"
  main := "main"
  init := "init"
  step := "step"
  invariants := ["inv"]
  toolchain := { quint := "0.25.0", java := "17" }
  simulation := some { backend := "rust", maxSamples := 1000000, maxSteps := 100 }
  traces := some { format := "itf", count := 1, maxSteps := 1000 }

theorem manySamples_refused :
    validateManifestShape manySamples = [] ∧
      resolveLocalResourcePolicy manySamples = .error
        (.workOverPolicy .local "trace_max_samples * trace_max_steps" 1000000000 100000000) ∧
      ¬∀ manifest, validateManifestShape manifest = [] →
        ∃ policy, resolveLocalResourcePolicy manifest = .ok policy := by
  have hvalid : validateManifestShape manySamples = [] := by decide +kernel
  have hrefused : resolveLocalResourcePolicy manySamples = .error
      (.workOverPolicy .local "trace_max_samples * trace_max_steps" 1000000000 100000000) := by
    decide +kernel
  refine ⟨hvalid, hrefused, fun h => ?_⟩
  obtain ⟨policy, hpolicy⟩ := h manySamples hvalid
  rw [hrefused] at hpolicy
  cases hpolicy

/-- The same with its own samples for the traces. -/
theorem validated_resolves_iff_ownSamples :
    ∃ policy, resolveLocalResourcePolicy { manySamples with
      traces := some { format := "itf", count := 1, maxSteps := 1000, maxSamples := some 500 } } =
        .ok policy := by
  refine (validated_resolves_iff _ (by decide +kernel)).mpr ?_
  rintro traces ⟨⟩ hnone
  cases hnone

end OptoSync.Formal
