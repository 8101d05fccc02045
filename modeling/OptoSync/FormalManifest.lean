import OptoSync.StreamMessage

/-!
# Manifests

`validate_manifest_shape` of `fmctl`. Paths are those of Unix. Values that are printed with
`{:?}` are left out of the error texts.
-/
namespace OptoSync.Formal

open OptoSync.Stream (isWhiteSpace isControl)

def manifestSchemaVersion : ℕ := 1
def maxInvariants : ℕ := 256
def maxWitnesses : ℕ := 256
def maxTemporalProperties : ℕ := 256
def maxAdapters : ℕ := 32
def maxRequiredActions : ℕ := 256
def maxObservableFields : ℕ := 256
def maxCommandArguments : ℕ := 64
def maxEnvironmentEntries : ℕ := 64
def maxLabelBytes : ℕ := 128
def maxIdentifierBytes : ℕ := 128
def maxToolchainTokenBytes : ℕ := 256
def maxCommandArgumentBytes : ℕ := 4096
def maxEnvironmentKeyBytes : ℕ := 128
def maxEnvironmentValueBytes : ℕ := 4096
def maxTimeoutSeconds : ℕ := 21600
def maxOutputBytes : ℕ := 64 * 1024 * 1024
def maxSimulationSamples : ℕ := 1000000
def maxSimulationSteps : ℕ := 100000
def maxSimulationWork : ℕ := 100000000
def maxVerificationSteps : ℕ := 100000
def maxTraceCount : ℕ := 10000
def maxTraceSteps : ℕ := 100000
def maxTraceSamples : ℕ := 1000000
def maxTraceWork : ℕ := 100000000

structure ToolchainConfig where
  quint : String
  java : String
  node : Option String := none
  rust : Option String := none
  npx : String := "npx"

structure ExecutionConfig where
  timeoutSeconds : ℕ := 1200
  maxOutputBytes : ℕ := 8 * 1024 * 1024
  artifactsDir : String := ".formal-artifacts"

structure SimulationConfig where
  backend : String
  maxSamples : ℕ
  maxSteps : ℕ

structure VerificationConfig where
  backend : String
  exhaustiveFiniteModel : Bool := false
  maxSteps : Option ℕ := none

structure TraceConfig where
  format : String
  backend : Option String := none
  seed : Option String := none
  count : ℕ
  maxSteps : ℕ
  maxSamples : Option ℕ := none
  requiredActions : List String := []

inductive AdapterStatus
  | planned | active | disabled
  deriving DecidableEq

structure AdapterConfig where
  strategy : String
  target : Option String := none
  implementation : Option String := none
  observableState : List String := []
  issue : Option String := none
  status : AdapterStatus := .planned
  command : List String := []
  workingDirectory : Option String := none
  environment : List (String × String) := []

structure Manifest where
  schemaVersion : ℕ
  project : String
  model : String
  main : String
  init : String
  step : String
  invariants : List String := []
  witnesses : List String := []
  temporalProperties : List String := []
  toolchain : ToolchainConfig
  execution : ExecutionConfig := {}
  simulation : Option SimulationConfig := none
  verification : Option VerificationConfig := none
  traces : Option TraceConfig := none
  adapters : List (String × AdapterConfig) := []

/-- An error text, if the check fails. -/
def errorIf (fails : Bool) (text : String) : List String := if fails then [text] else []

def trim (value : String) : List Char :=
  (value.toList.dropWhile isWhiteSpace).rdropWhile isWhiteSpace

def validateLabel (label value : String) : List String :=
  let trimmed := trim value
  if trimmed = [] then [s!"{label} must not be empty"]
  else if (String.ofList trimmed).utf8ByteSize > maxLabelBytes then
    [s!"{label} must be at most {maxLabelBytes} bytes"]
  else if trimmed.any isControl then [s!"{label} must not contain control characters"]
  else []

def validateIdentifier (label value : String) : List String :=
  if value.utf8ByteSize > maxIdentifierBytes then
    [s!"{label} must be at most {maxIdentifierBytes} bytes"]
  else
    match value.toList with
    | [] => [s!"{label} must not be empty"]
    | first :: chars =>
      errorIf (!(first.isAlpha || first = '_') || !chars.all fun c => c.isAlphanum || c = '_')
        s!"{label} must be a Quint-compatible identifier, got"

/-- The values that have occurred before. -/
def validateUnique (check : String → List String) (duplicate : String) :
    List String → List String → List String
  | _, [] => []
  | seen, value :: values =>
    check value ++ errorIf (value ∈ seen) duplicate ++
      validateUnique check duplicate (value :: seen) values

def validateUniqueIdentifiers (label : String) (values : List String) : List String :=
  validateUnique (validateIdentifier label) s!"{label} contains duplicate value" [] values

def validateCollectionLimit (label : String) (actual maximum : ℕ) : List String :=
  errorIf (actual > maximum) s!"{label} must contain at most {maximum} entries, got {actual}"

def validateWorkProduct (label : String) (left right maximum : ℕ) : List String :=
  if left * right ≤ Decimal.maxU64 then
    errorIf (left * right > maximum) s!"{label} must be at most {maximum}, got {left * right}"
  else [s!"{label} overflows u64"]

def isSafeVersion (version : String) : Bool :=
  version ≠ "" && version.utf8ByteSize ≤ maxToolchainTokenBytes &&
    version.toList.all fun c => c.isAlphanum || c ∈ ['.', '+', '-', '_']

def isSafeProgram (program : String) : Bool :=
  program ≠ "" && program.utf8ByteSize ≤ maxCommandArgumentBytes &&
    '\x00' ∉ program.toList && !program.toList.any isWhiteSpace

def validateRelativePath (label path : String) : List String :=
  if path = "" then [s!"{label} must not be empty"]
  else if path.toList.head? = some '/' then [s!"{label} must be relative to the workspace"]
  else
    errorIf (path.toList.splitOn '/' |>.any fun component => component = ['.', '.'])
      s!"{label} must not escape the workspace with '..' or an absolute prefix"

def ToolchainConfig.validate (toolchain : ToolchainConfig) : List String :=
  errorIf (!isSafeVersion toolchain.quint) "toolchain.quint must be a pinned version token, got" ++
  validateLabel "toolchain.java" toolchain.java ++
  errorIf (toolchain.node.any fun node => !isSafeVersion node)
    "toolchain.node must be a pinned version token, got" ++
  errorIf (toolchain.rust.any fun rust => !isSafeVersion rust)
    "toolchain.rust must be a pinned version token, got" ++
  errorIf (!isSafeProgram toolchain.npx)
    "toolchain.npx must be one executable token without whitespace, got"

/-- A bound that must be given: positive, and at most a maximum. -/
def validateBound (label : String) (value maximum : ℕ) : List String :=
  if value = 0 then [s!"{label} must be greater than zero"]
  else errorIf (value > maximum) s!"{label} must be at most {maximum}"

/-- A bound that may be given. -/
def validateOptionalBound (label : String) (value : Option ℕ) (maximum : ℕ) : List String :=
  errorIf (value = some 0) s!"{label} must be greater than zero when set" ++
  errorIf (value.any fun n => n > maximum) s!"{label} must be at most {maximum}"

def ExecutionConfig.validate (execution : ExecutionConfig) : List String :=
  validateBound "execution.timeout_seconds" execution.timeoutSeconds maxTimeoutSeconds ++
  (if execution.maxOutputBytes < 1024 then ["execution.max_output_bytes must be at least 1024"]
    else errorIf (execution.maxOutputBytes > Formal.maxOutputBytes)
      s!"execution.max_output_bytes must be at most {Formal.maxOutputBytes}") ++
  validateRelativePath "execution.artifacts_dir" execution.artifactsDir

def SimulationConfig.validate (simulation : SimulationConfig) : List String :=
  errorIf (simulation.backend ∉ ["typescript", "rust"])
    "simulation.backend must be 'typescript' or 'rust', got" ++
  validateBound "simulation.max_samples" simulation.maxSamples maxSimulationSamples ++
  validateBound "simulation.max_steps" simulation.maxSteps maxSimulationSteps ++
  validateWorkProduct "simulation.max_samples * simulation.max_steps" simulation.maxSamples
    simulation.maxSteps maxSimulationWork

def VerificationConfig.validate (verification : VerificationConfig) : List String :=
  errorIf (verification.backend ∉ ["tlc", "apalache"])
    "verification.backend must be 'tlc' or 'apalache', got" ++
  errorIf (verification.backend = "tlc" && !verification.exhaustiveFiniteModel)
    "TLC verification must declare exhaustive_finite_model = true" ++
  errorIf (verification.backend = "apalache" && verification.exhaustiveFiniteModel)
    "Apalache bounded verification cannot declare exhaustive_finite_model = true" ++
  errorIf (verification.backend = "apalache" && verification.maxSteps.isNone)
    "Apalache verification requires an explicit max_steps bound" ++
  errorIf (verification.backend = "tlc" && verification.maxSteps.isSome)
    "verification.max_steps is only valid for Apalache" ++
  validateOptionalBound "verification.max_steps" verification.maxSteps maxVerificationSteps

def TraceConfig.validate (traces : TraceConfig) : List String :=
  validateCollectionLimit "traces.required_actions" traces.requiredActions.length
    maxRequiredActions ++
  errorIf (traces.format ≠ "itf") "traces.format must be 'itf', got" ++
  errorIf (traces.backend.any fun backend => backend ∉ ["typescript", "rust"])
    "traces.backend must be 'typescript' or 'rust', got" ++
  errorIf (traces.seed.any fun seed => !isSafeVersion seed)
    "traces.seed must be one deterministic seed token, got" ++
  validateBound "traces.count" traces.count maxTraceCount ++
  validateBound "traces.max_steps" traces.maxSteps maxTraceSteps ++
  validateOptionalBound "traces.max_samples" traces.maxSamples maxTraceSamples ++
  validateWorkProduct "traces.count * traces.max_steps" traces.count traces.maxSteps
    maxTraceWork ++
  (match traces.maxSamples with
    | some samples => validateWorkProduct "traces.max_samples * traces.max_steps" samples
        traces.maxSteps maxTraceWork
    | none => []) ++
  validateUniqueIdentifiers "traces.required_actions" traces.requiredActions

/-- The arguments of a command, with their indices. -/
def validateCommand (name : String) : ℕ → List String → List String
  | _, [] => []
  | index, part :: parts =>
    errorIf (part = "" || '\x00' ∈ part.toList)
      s!"adapter '{name}' command argument {index} is empty or contains NUL" ++
    errorIf (part.utf8ByteSize > maxCommandArgumentBytes)
      s!"adapter '{name}' command argument {index} must be at most {maxCommandArgumentBytes} bytes" ++
    validateCommand name (index + 1) parts

def validateEnvironment (name : String) (entry : String × String) : List String :=
  errorIf (entry.1 = "" || '=' ∈ entry.1.toList || '\x00' ∈ entry.1.toList ||
      '\x00' ∈ entry.2.toList)
    s!"adapter '{name}' has an invalid environment entry" ++
  errorIf (entry.1.utf8ByteSize > maxEnvironmentKeyBytes)
    s!"adapter '{name}' environment key must be at most {maxEnvironmentKeyBytes} bytes, got" ++
  errorIf (entry.2.utf8ByteSize > maxEnvironmentValueBytes)
    s!"adapter '{name}' environment value must be at most {maxEnvironmentValueBytes} bytes"

def AdapterConfig.validate (name : String) (adapter : AdapterConfig) : List String :=
  validateIdentifier "adapter name" name ++
  validateLabel s!"adapter '{name}' strategy" adapter.strategy ++
  validateCollectionLimit s!"adapter '{name}' observable_state" adapter.observableState.length
    maxObservableFields ++
  validateCollectionLimit s!"adapter '{name}' command" adapter.command.length
    maxCommandArguments ++
  validateCollectionLimit s!"adapter '{name}' environment" adapter.environment.length
    maxEnvironmentEntries ++
  (adapter.target.map (validateRelativePath s!"adapter '{name}' target")).getD [] ++
  (adapter.workingDirectory.map
    (validateRelativePath s!"adapter '{name}' working_directory")).getD [] ++
  (adapter.implementation.map (validateLabel s!"adapter '{name}' implementation")).getD [] ++
  (adapter.issue.map (validateLabel s!"adapter '{name}' issue")).getD [] ++
  validateUnique (validateLabel s!"adapter '{name}' observable_state")
    s!"adapter '{name}' observable_state contains duplicate value" [] adapter.observableState ++
  errorIf (adapter.status = .active && adapter.command.isEmpty)
    s!"active adapter '{name}' must declare a command array" ++
  validateCommand name 0 adapter.command ++
  adapter.environment.flatMap (validateEnvironment name)

/-- What stands before the sections. -/
def Manifest.validateHead (manifest : Manifest) : List String :=
  errorIf (manifest.schemaVersion ≠ manifestSchemaVersion)
    s!"unsupported schema_version {manifest.schemaVersion}; expected {manifestSchemaVersion}" ++
  validateLabel "project" manifest.project ++
  validateLabel "model" manifest.model ++
  validateIdentifier "main" manifest.main ++
  validateIdentifier "init" manifest.init ++
  validateIdentifier "step" manifest.step

def Manifest.validateProperties (manifest : Manifest) : List String :=
  errorIf manifest.invariants.isEmpty "at least one invariant is required" ++
  validateCollectionLimit "invariants" manifest.invariants.length maxInvariants ++
  validateCollectionLimit "witnesses" manifest.witnesses.length maxWitnesses ++
  validateCollectionLimit "temporal_properties" manifest.temporalProperties.length
    maxTemporalProperties ++
  validateCollectionLimit "adapters" manifest.adapters.length maxAdapters ++
  validateUniqueIdentifiers "invariants" manifest.invariants ++
  validateUniqueIdentifiers "witnesses" manifest.witnesses ++
  validateUniqueIdentifiers "temporal_properties" manifest.temporalProperties ++
  errorIf (!manifest.temporalProperties.isEmpty && manifest.verification.isNone)
    "temporal_properties require a [verification] configuration"

def validateManifestShape (manifest : Manifest) : List String :=
  manifest.validateHead ++ manifest.validateProperties ++
  manifest.toolchain.validate ++
  manifest.execution.validate ++
  (manifest.simulation.map SimulationConfig.validate).getD [] ++
  (manifest.verification.map VerificationConfig.validate).getD [] ++
  (manifest.traces.map TraceConfig.validate).getD [] ++
  manifest.adapters.flatMap fun (name, adapter) => adapter.validate name

end OptoSync.Formal
