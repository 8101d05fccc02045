import OptoSync.Entries
import OptoSync.Protocol

/-!
# Policy aliases

`POLICY_ALIASES` of the TypeScript client is a plain object: what is looked up in it may be a
property that it inherits.
-/
namespace OptoSync

/-- The identifiers that are documented for the policies. -/
def OptoSyncClient.canonicalizeConsistencyPolicy (identifier : String) : Except String String :=
  if identifier ∈ [Consistency.remoteAcknowledged, "remote-acknowledged", "strict",
      "remote-confirmed", "await-server"] then .ok Consistency.remoteAcknowledged
  else if identifier ∈ [Consistency.writeThroughLocalFirst, "write-through-local-first",
      "local-then-remote", "local-first"] then .ok Consistency.writeThroughLocalFirst
  else if identifier ∈ [Consistency.queuedLocalFirst, "queued-local-first", "local-durable",
      "background"] then .ok Consistency.queuedLocalFirst
  else .error "unknown consistency policy"

namespace PolicyAliases

/-- The own properties. -/
def policyAliases : List (String × String) :=
  [("opto.consistency.remote-acknowledged.v1", Consistency.remoteAcknowledged),
    ("remote-acknowledged", Consistency.remoteAcknowledged),
    ("strict", Consistency.remoteAcknowledged),
    ("remote-confirmed", Consistency.remoteAcknowledged),
    ("await-server", Consistency.remoteAcknowledged),
    ("opto.consistency.write-through-local-first.v1", Consistency.writeThroughLocalFirst),
    ("write-through-local-first", Consistency.writeThroughLocalFirst),
    ("local-then-remote", Consistency.writeThroughLocalFirst),
    ("local-first", Consistency.writeThroughLocalFirst),
    ("opto.consistency.queued-local-first.v1", Consistency.queuedLocalFirst),
    ("queued-local-first", Consistency.queuedLocalFirst),
    ("local-durable", Consistency.queuedLocalFirst),
    ("background", Consistency.queuedLocalFirst)]

/-- The properties of `Object.prototype`: functions, and the accessor `__proto__`, which reads as
`Object.prototype` itself. -/
def objectPrototype : List String :=
  ["constructor", "__defineGetter__", "__defineSetter__", "hasOwnProperty", "__lookupGetter__",
    "__lookupSetter__", "isPrototypeOf", "propertyIsEnumerable", "toString", "valueOf",
    "__proto__", "toLocaleString"]

/-- What `POLICY_ALIASES[identifier]` is when it is not undefined; all of it is truthy. -/
inductive PolicyValue
  | id (canonical : String)
  | inherited (name : String)
  deriving DecidableEq

def property (identifier : String) : Option PolicyValue :=
  match policyAliases.lookup identifier with
  | some canonical => some (.id canonical)
  | none => if identifier ∈ objectPrototype then some (.inherited identifier) else none

def canonicalizeConsistencyPolicy (identifier : String) : Except String PolicyValue :=
  match property identifier with
  | some canonical => .ok canonical
  | none => .error "unknown consistency policy"

inductive StoredPolicy
  | id (canonical : String)
  | emptyObject
  deriving DecidableEq

/-- How IndexedDB copies a value that it stores: a function is refused, `Object.prototype` is copied
to an empty object. -/
def structuredClone : PolicyValue → Except String StoredPolicy
  | .id canonical => .ok (.id canonical)
  | .inherited name => if name = "__proto__" then .ok .emptyObject else .error "DataCloneError"

/-- The name that a stored value is looked up under. -/
def StoredPolicy.propertyKey : StoredPolicy → String
  | .id canonical => canonical
  | .emptyObject => "[object Object]"

theorem lookup_policyAliases (identifier : String) :
    policyAliases.lookup identifier =
      (OptoSyncClient.canonicalizeConsistencyPolicy identifier).toOption := by
  by_cases h : identifier ∈ policyAliases.map Prod.fst
  · simp only [policyAliases, List.map_cons, List.map_nil, List.mem_cons, List.not_mem_nil,
      or_false] at h
    rcases h with rfl | rfl | rfl | rfl | rfl | rfl | rfl | rfl | rfl | rfl | rfl | rfl | rfl <;>
      decide
  · rw [Entries.lookup_eq_none h]
    simp only [policyAliases, List.map_cons, List.map_nil, List.mem_cons, List.not_mem_nil,
      or_false, not_or] at h
    unfold OptoSyncClient.canonicalizeConsistencyPolicy
    simp [Consistency.remoteAcknowledged, Consistency.writeThroughLocalFirst,
      Consistency.queuedLocalFirst, h, Except.toOption]

/-- An identifier that names a policy is read as that policy. -/
theorem canonicalize_of_ok {identifier canonical : String}
    (h : OptoSyncClient.canonicalizeConsistencyPolicy identifier = .ok canonical) :
    canonicalizeConsistencyPolicy identifier = .ok (.id canonical) := by
  rw [canonicalizeConsistencyPolicy, property, lookup_policyAliases, h]
  rfl

theorem canonicalize_of_error {identifier message : String}
    (h : OptoSyncClient.canonicalizeConsistencyPolicy identifier = .error message) :
    canonicalizeConsistencyPolicy identifier =
      if identifier ∈ objectPrototype then .ok (.inherited identifier)
      else .error "unknown consistency policy" := by
  rw [canonicalizeConsistencyPolicy, property, lookup_policyAliases, h]
  by_cases hinherited : identifier ∈ objectPrototype
  · simp [Except.toOption, hinherited]
  · simp [Except.toOption, hinherited]

/-- No inherited name is an identifier of a policy. -/
theorem error_of_inherited {identifier : String} (h : identifier ∈ objectPrototype) :
    OptoSyncClient.canonicalizeConsistencyPolicy identifier =
      .error "unknown consistency policy" := by
  simp only [objectPrototype, List.mem_cons, List.not_mem_nil, or_false] at h
  rcases h with rfl | rfl | rfl | rfl | rfl | rfl | rfl | rfl | rfl | rfl | rfl | rfl <;> decide

end PolicyAliases
end OptoSync
