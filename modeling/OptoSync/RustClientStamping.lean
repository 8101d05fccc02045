import OptoSync.DriftPush
import OptoSync.HybridLogicalClockRun
import OptoSync.JsonPointer
import OptoSync.JsonText

/-!
# Stamping in the Rust client

`observe_incoming` and `queue_mutation` over the in-memory store. The parser and the printer of
`serde_json` and its `Value::pointer` are parameters, the wall clock is the reading at each call of
the clock.
-/
namespace OptoSync.RustClient
open Dart (trimEnds)
open JsonPointer
open Transition

/-- `char::is_whitespace` -/
def isWhitespace (c : Char) : Bool :=
  (9 ≤ c.toNat && c.toNat ≤ 13) || (0x2000 ≤ c.toNat && c.toNat ≤ 0x200A) ||
    [0x20, 0x85, 0xA0, 0x1680, 0x2028, 0x2029, 0x202F, 0x205F, 0x3000].contains c.toNat

def splitKeys (space : Char → Bool) (lwwKeys : String) : List (List Char) :=
  ((lwwKeys.toList.splitOn ',').map (trimEnds space)).filter (· ≠ [])

inductive ClientError
  | invalidJson
  | notAJsonObject
  | clock (error : ClockError)
  deriving DecidableEq

structure SystemClock where
  hlc : HybridLogicalClock
  calls : ℕ

structure OptoSyncClient where
  /-- The payloads in the order of their ids. -/
  store : List String
  lwwKeys : String
  clock : Option SystemClock
  /-- The payloads that were observed, and the stamps that were issued. -/
  observed : List Json
  stamps : List String

/-- An answer and the state it leaves; none where a timestamp cannot be printed. -/
abbrev Answer (α σ : Type) := Option (Except ClientError α × σ)

/-- The operator `?`. -/
def andThen {σ : Type} (x : Answer Unit σ) (f : σ → Answer Unit σ) : Answer Unit σ :=
  match x with
  | some (.ok (), s) => f s
  | some (.error error, s) => some (.error error, s)
  | none => none

/-- `BTreeMap::insert` -/
def insertField (key : String) (value : Json) : List (String × Json) → List (String × Json)
  | [] => [(key, value)]
  | (k, v) :: fields =>
    if key < k then (key, value) :: (k, v) :: fields
    else if key = k then (key, value) :: fields
    else (k, v) :: insertField key value fields

section
variable (pointer : Json → String → Option Json) (parse : String → Option Json)
variable (print : Json → String) (now : ℕ → ℕ)

def timestamp (fields : List (String × Json)) (selector : List Char) : Option Json :=
  match selector with
  | '#' :: rest => pointer (.object fields) (String.ofList rest)
  | _ => fields.lookup (String.ofList selector)

def SystemClock.observe (clock : SystemClock) (remote : String) : Answer Unit SystemClock :=
  (clock.hlc.observe remote (now clock.calls)).map fun (result, hlc) =>
    (result.mapError .clock, { hlc, calls := clock.calls + 1 })

def observeKeys (fields : List (String × Json)) :
    List (List Char) → SystemClock → Answer Unit SystemClock
  | [], clock => some (.ok (), clock)
  | selector :: keys, clock =>
    match timestamp pointer fields selector with
    | some (.string ts) => andThen (clock.observe now ts) (observeKeys fields keys)
    | _ => observeKeys fields keys clock

mutual
def observeTree (keys : List (List Char)) : Json → SystemClock → Answer Unit SystemClock
  | .array items, clock => observeItems keys items clock
  | .object fields, clock =>
    andThen (observeKeys pointer now fields keys clock) (observeFields keys fields)
  | _, clock => some (.ok (), clock)

def observeItems (keys : List (List Char)) : List Json → SystemClock → Answer Unit SystemClock
  | [], clock => some (.ok (), clock)
  | v :: vs, clock => andThen (observeTree keys v clock) (observeItems keys vs)

def observeFields (keys : List (List Char)) :
    List (String × Json) → SystemClock → Answer Unit SystemClock
  | [], clock => some (.ok (), clock)
  | (_, v) :: fields, clock => andThen (observeTree keys v clock) (observeFields keys fields)
end

namespace OptoSyncClient

def keys (client : OptoSyncClient) : List (List Char) := splitKeys isWhitespace client.lwwKeys

def push (client : OptoSyncClient) (fields : List (String × Json)) : Answer ℕ OptoSyncClient :=
  some (.ok client.store.length,
    { client with store := client.store ++ [print (.object fields)] })

def queueMutationValue (client : OptoSyncClient) : Json → Answer ℕ OptoSyncClient
  | .object fields =>
    match client.clock with
    | none => client.push print fields
    | some clock =>
      if (fields.lookup "updatedAt").isSome then client.push print fields
      else
        (clock.hlc.next (now clock.calls)).bind fun (stamp, hlc) =>
          ({ client with
            clock := some { hlc, calls := clock.calls + 1 }
            stamps := stamp :: client.stamps } : OptoSyncClient).push print
            (insertField "updatedAt" (.string stamp) fields)
  | _ => some (.error .notAJsonObject, client)

def queueMutation (client : OptoSyncClient) (payload : String) : Answer ℕ OptoSyncClient :=
  match parse payload with
  | none => some (.error .invalidJson, client)
  | some value => client.queueMutationValue print now value

def observeIncoming (client : OptoSyncClient) (payload : String) : Answer Unit OptoSyncClient :=
  match parse payload with
  | none => some (.error .invalidJson, client)
  | some value =>
    match client.clock with
    | none => some (.ok (), client)
    | some clock =>
      (observeTree pointer now client.keys value clock).map fun (result, clock) =>
        (result, { client with
          clock := some clock
          observed := if result.isOk then value :: client.observed else client.observed })

/-- Calls of one client. -/
inductive Call
  | queueMutation (payload : String)
  | observeIncoming (payload : String)

def next (client : OptoSyncClient) : Call → OptoSyncClient
  | .queueMutation payload => ((client.queueMutation parse print now payload).map (·.2)).getD client
  | .observeIncoming payload =>
    ((client.observeIncoming pointer parse now payload).map (·.2)).getD client

/-- Where the call takes a stamp, the reading is in range and the format is not exhausted. -/
def Representable (client : OptoSyncClient) : Call → Prop
  | .queueMutation payload =>
    ∀ fields, parse payload = some (.object fields) → fields.lookup "updatedAt" = none →
      ∀ clock, client.clock = some clock →
        ClockRun.Representable { clock := clock.hlc, seen := [] } (.next (now clock.calls))
  | .observeIncoming _ => True

end OptoSyncClient
end

def text : Json → Option String
  | .string ts => some ts
  | _ => none

section
variable (pointer : Json → String → Option Json) (now : ℕ → ℕ)

/-- The strings that one object hands to the clock. -/
def strings (keys : List (List Char)) (fields : List (String × Json)) : List String :=
  keys.filterMap fun selector => (timestamp pointer fields selector).bind text

def observeAll : List String → SystemClock → Answer Unit SystemClock
  | [], clock => some (.ok (), clock)
  | ts :: rest, clock => andThen (clock.observe now ts) (observeAll rest)

variable {pointer now}

theorem andThen_assoc {σ : Type} (x : Answer Unit σ) (f g : σ → Answer Unit σ) :
    andThen (andThen x f) g = andThen x fun s => andThen (f s) g := by
  cases x with
  | none => rfl
  | some answer =>
    obtain ⟨result, s⟩ := answer
    cases result with
    | error error => rfl
    | ok _ => rfl

theorem observeAll_append (as bs : List String) (clock : SystemClock) :
    observeAll now (as ++ bs) clock = andThen (observeAll now as clock) (observeAll now bs) := by
  induction as generalizing clock with
  | nil => rfl
  | cons a as ih =>
    rw [List.cons_append, observeAll, observeAll, andThen_assoc]
    exact congrArg _ (funext ih)

theorem observeKeys_eq (fields : List (String × Json)) (keys : List (List Char))
    (clock : SystemClock) : observeKeys pointer now fields keys clock =
      observeAll now (strings pointer keys fields) clock := by
  induction keys generalizing clock with
  | nil => rfl
  | cons selector keys ih =>
    rw [observeKeys, strings, List.filterMap_cons, ← strings]
    cases timestamp pointer fields selector with
    | none => exact ih clock
    | some value =>
      cases value with
      | string ts =>
        simp only [Option.bind_some, text, observeAll]
        exact congrArg _ (funext ih)
      | _ => exact ih clock

mutual
/-- A tree is observed by handing over its strings one after another. -/
theorem observeTree_eq (keys : List (List Char)) (v : Json) (clock : SystemClock) :
    observeTree pointer now keys v clock =
      observeAll now (gather (strings pointer keys) v) clock := by
  cases v with
  | array items =>
    rw [observeTree, gather]
    exact observeItems_eq keys items clock
  | object fields =>
    rw [observeTree, gather, observeAll_append, observeKeys_eq]
    exact congrArg _ (funext (observeFields_eq keys fields))
  | _ => simp [observeTree, gather, observeAll]

theorem observeItems_eq (keys : List (List Char)) (items : List Json) (clock : SystemClock) :
    observeItems pointer now keys items clock =
      observeAll now (gatherItems (strings pointer keys) items) clock := by
  cases items with
  | nil => rw [observeItems, gatherItems, observeAll]
  | cons v vs =>
    rw [observeItems, gatherItems, observeAll_append, observeTree_eq keys v clock]
    exact congrArg _ (funext (observeItems_eq keys vs))

theorem observeFields_eq (keys : List (List Char)) (fields : List (String × Json))
    (clock : SystemClock) : observeFields pointer now keys fields clock =
      observeAll now (gatherFields (strings pointer keys) fields) clock := by
  cases fields with
  | nil => rw [observeFields, gatherFields, observeAll]
  | cons field fields =>
    obtain ⟨k, v⟩ := field
    rw [observeFields, gatherFields, observeAll_append, observeTree_eq keys v clock]
    exact congrArg _ (funext (observeFields_eq keys fields))
end

/-- An observation of the clock is one of its run. -/
theorem observe_inv {clock clock' : SystemClock} {seen : List String}
    (h : ClockRun.Inv { clock := clock.hlc, seen }) {remote : String}
    {result : Except ClientError Unit} (hobserve : clock.observe now remote = some (result, clock')) :
    ∃ seen', ClockRun.Inv { clock := clock'.hlc, seen := seen' } ∧ seen ⊆ seen' ∧
      (result = .ok () → (parseHlc remote).isSome = true → remote ∈ seen') := by
  obtain ⟨⟨answer, hlc⟩, hhlc, heq⟩ := Option.map_eq_some_iff.mp hobserve
  obtain ⟨rfl, rfl⟩ := Prod.mk.inj heq
  have hinv := h.next (e := .observe remote (now clock.calls)) trivial
  simp only [ClockRun.next, hhlc] at hinv
  cases answer with
  | error error => exact ⟨seen, hinv, List.Subset.refl _, fun hok => by cases hok⟩
  | ok _ =>
    refine ⟨_, hinv, ?_, fun _ hparsed => ?_⟩
    · split
      · exact List.subset_cons_self _ _
      · exact List.Subset.refl _
    · rw [if_pos hparsed]
      exact List.mem_cons_self

/-- What was handed over without a refusal has been seen. -/
theorem observeAll_inv {texts : List String} {clock clock' : SystemClock} {seen : List String}
    (h : ClockRun.Inv { clock := clock.hlc, seen }) {result : Except ClientError Unit}
    (hobserve : observeAll now texts clock = some (result, clock')) :
    ∃ seen', ClockRun.Inv { clock := clock'.hlc, seen := seen' } ∧ seen ⊆ seen' ∧
      (result = .ok () → ∀ ts ∈ texts, (parseHlc ts).isSome = true → ts ∈ seen') := by
  induction texts generalizing clock seen with
  | nil =>
    obtain ⟨rfl, rfl⟩ := Prod.mk.inj (Option.some.inj hobserve)
    exact ⟨seen, h, List.Subset.refl _, fun _ ts hts => absurd hts List.not_mem_nil⟩
  | cons ts texts ih =>
    rw [observeAll] at hobserve
    cases hfirst : clock.observe now ts with
    | none => rw [hfirst] at hobserve; cases hobserve
    | some answer =>
      obtain ⟨first, middle⟩ := answer
      obtain ⟨seen₁, hinv₁, hsub₁, hts⟩ := observe_inv h hfirst
      rw [hfirst] at hobserve
      cases first with
      | error error =>
        obtain ⟨rfl, rfl⟩ := Prod.mk.inj (Option.some.inj hobserve)
        exact ⟨seen₁, hinv₁, hsub₁, fun hok => by cases hok⟩
      | ok _ =>
        obtain ⟨seen₂, hinv₂, hsub₂, hrest⟩ := ih hinv₁ hobserve
        refine ⟨seen₂, hinv₂, List.Subset.trans hsub₁ hsub₂, fun hok other hother hparsed => ?_⟩
        rcases List.mem_cons.mp hother with rfl | hother
        · exact hsub₂ (hts rfl hparsed)
        · exact hrest hok other hother hparsed

/-- A plain key of the object, or a pointer relative to it. -/
def Selects (selector : List Char) (fields : List (String × Json)) (value : Json) : Prop :=
  (selector.head? ≠ some '#' ∧ fields.lookup (String.ofList selector) = some value) ∨
    ∃ tokens, selector = '#' :: encode tokens ∧ resolve (.object fields) tokens = some value

/-- A timestamp at a selected position of an object at any depth. -/
structure Found (keys : List (List Char)) (document : Json) (ts : String) : Prop where
  selected : ∃ fields, Part document (.object fields) ∧
    ∃ selector ∈ keys, Selects selector fields (.string ts)
  parsed : (parseHlc ts).isSome = true

theorem timestamp_of_selects (hpointer : Follows pointer) {selector : List Char}
    {fields : List (String × Json)} {value : Json} (h : Selects selector fields value) :
    timestamp pointer fields selector = some value := by
  rcases h with ⟨hplain, hvalue⟩ | ⟨tokens, rfl, hvalue⟩
  · unfold timestamp
    split
    · exact absurd rfl hplain
    · exact hvalue
  · rw [timestamp, hpointer.resolves, hvalue]

theorem mem_gather_of_found (hpointer : Follows pointer) {keys : List (List Char)} {document : Json}
    {ts : String} (h : Found keys document ts) : ts ∈ gather (strings pointer keys) document := by
  obtain ⟨⟨fields, hpart, selector, hselector, hvalue⟩, -⟩ := h
  refine (mem_gather _).mpr ⟨fields, hpart, List.mem_filterMap.mpr ⟨selector, hselector, ?_⟩⟩
  rw [timestamp_of_selects hpointer hvalue]
  rfl

theorem lookup_insertField (key : String) (value : Json) (fields : List (String × Json))
    (other : String) : (insertField key value fields).lookup other =
      if other = key then some value else fields.lookup other := by
  induction fields with
  | nil =>
    by_cases h : other = key
    · simp [insertField, h]
    · simp [insertField, List.lookup, h, beq_false_of_ne h]
  | cons field fields ih =>
    obtain ⟨k, v⟩ := field
    rw [insertField]
    by_cases hlt : key < k
    · rw [if_pos hlt, List.lookup_cons]
      by_cases h : other = key
      · simp [h]
      · simp [h, beq_false_of_ne h]
    · rw [if_neg hlt]
      by_cases hkey : key = k
      · subst hkey
        rw [if_pos rfl, List.lookup_cons, List.lookup_cons]
        by_cases h : other = key
        · simp [h]
        · simp [h, beq_false_of_ne h]
      · rw [if_neg hkey, List.lookup_cons, List.lookup_cons, ih]
        by_cases h : other = k
        · have hother : other ≠ key := fun hc => hkey (hc.symm.trans h)
          simp [h, Ne.symm hkey]
        · simp [beq_false_of_ne h]

namespace OptoSyncClient

/-- Everything found and issued so far has been seen by the clock. -/
structure Inv (client : OptoSyncClient) (clock : SystemClock) (seen : List String) : Prop where
  running : client.clock = some clock
  inv : ClockRun.Inv { clock := clock.hlc, seen }
  stamps : ∀ ts ∈ client.stamps, ts ∈ seen
  observed : ∀ document ∈ client.observed, ∀ ts, Found client.keys document ts → ts ∈ seen

def Kept (client : OptoSyncClient) : Prop := ∃ clock seen, client.Inv clock seen

variable {parse : String → Option Json} {print : Json → String}

theorem Kept.observeIncoming (hpointer : Follows pointer) {client client' : OptoSyncClient}
    (h : client.Kept) {payload : String} {result : Except ClientError Unit}
    (hobserve : client.observeIncoming pointer parse now payload = some (result, client')) :
    client'.Kept := by
  obtain ⟨clock, seen, hinv⟩ := h
  unfold OptoSyncClient.observeIncoming at hobserve
  cases hparse : parse payload with
  | none =>
    rw [hparse] at hobserve
    obtain ⟨-, rfl⟩ := Prod.mk.inj (Option.some.inj hobserve)
    exact ⟨clock, seen, hinv⟩
  | some value =>
    simp only [hparse, hinv.running] at hobserve
    obtain ⟨⟨answer, clock'⟩, htree, heq⟩ := Option.map_eq_some_iff.mp hobserve
    obtain ⟨rfl, rfl⟩ := Prod.mk.inj heq
    rw [observeTree_eq] at htree
    obtain ⟨seen', hinv', hsub, hseen⟩ := observeAll_inv hinv.inv htree
    refine ⟨clock', seen', rfl, hinv', fun ts hts => hsub (hinv.stamps ts hts), ?_⟩
    intro document hdocument ts hfound
    cases answer with
    | error error => exact hsub (hinv.observed document hdocument ts hfound)
    | ok _ =>
      rcases List.mem_cons.mp hdocument with rfl | hdocument
      · exact hseen rfl ts (mem_gather_of_found hpointer hfound) hfound.parsed
      · exact hsub (hinv.observed document hdocument ts hfound)

/-- A stamp is above everything seen, and has been seen from then on. -/
theorem Inv.stamp {client : OptoSyncClient} {clock : SystemClock} {seen : List String}
    (h : client.Inv clock seen) {payload : String} {fields : List (String × Json)}
    (hparse : parse payload = some (.object fields)) (habsent : fields.lookup "updatedAt" = none)
    (hclock : ClockRun.Representable { clock := clock.hlc, seen := [] } (.next (now clock.calls))) :
    ∃ stamp client', client.queueMutation parse print now payload =
        some (.ok client.store.length, client') ∧
      client'.store =
        client.store ++ [print (.object (insertField "updatedAt" (.string stamp) fields))] ∧
      (∀ ts ∈ seen, ts < stamp) ∧ client'.Kept := by
  have hissue : ClockRun.Representable { clock := clock.hlc, seen } (.next (now clock.calls)) := hclock
  obtain ⟨stamp, hnext, -, hlt⟩ := h.inv.issue hissue
  have hinv := h.inv.next hissue
  simp only [ClockRun.next, hnext] at hinv
  have hqueue : client.queueMutation parse print now payload =
      some (.ok client.store.length,
        { store :=
            client.store ++ [print (.object (insertField "updatedAt" (.string stamp) fields))]
          lwwKeys := client.lwwKeys
          clock := some { hlc := { clock.hlc.advance (now clock.calls) with saved := some stamp }
                          calls := clock.calls + 1 }
          observed := client.observed
          stamps := stamp :: client.stamps }) := by
    unfold queueMutation queueMutationValue
    simp only [hparse, h.running, habsent, Option.isSome_none, Bool.false_eq_true, if_false, hnext,
      Option.bind_some, push]
  refine ⟨stamp, _, hqueue, rfl, hlt, _, stamp :: seen, rfl, hinv, fun ts hts => ?_,
    fun document hdocument ts hfound => ?_⟩
  · rcases List.mem_cons.mp hts with rfl | hts
    · exact List.mem_cons_self
    · exact List.mem_cons_of_mem _ (h.stamps ts hts)
  · exact List.mem_cons_of_mem _ (h.observed document hdocument ts hfound)

theorem Kept.push {client client' : OptoSyncClient} (h : client.Kept)
    {fields : List (String × Json)} {result : Except ClientError ℕ}
    (hpush : client.push print fields = some (result, client')) : client'.Kept := by
  obtain ⟨-, rfl⟩ := Prod.mk.inj (Option.some.inj hpush)
  obtain ⟨clock, seen, hinv⟩ := h
  exact ⟨clock, seen, hinv.running, hinv.inv, hinv.stamps, hinv.observed⟩

theorem Kept.queueMutation {client : OptoSyncClient} (h : client.Kept) {payload : String}
    (hcall : client.Representable parse now (.queueMutation payload))
    {client' : OptoSyncClient} {result : Except ClientError ℕ}
    (hqueue : client.queueMutation parse print now payload = some (result, client')) :
    client'.Kept := by
  obtain ⟨clock, seen, hinv⟩ := h
  cases hparse : parse payload with
  | none =>
    simp only [OptoSyncClient.queueMutation, hparse] at hqueue
    obtain ⟨-, rfl⟩ := Prod.mk.inj (Option.some.inj hqueue)
    exact ⟨clock, seen, hinv⟩
  | some value =>
    cases value with
    | object fields =>
      cases hupdated : fields.lookup "updatedAt" with
      | none =>
        obtain ⟨stamp, after, hstamp, -, -, hkept⟩ :=
          hinv.stamp hparse hupdated (hcall fields hparse hupdated clock hinv.running)
        rw [hstamp] at hqueue
        obtain ⟨-, rfl⟩ := Prod.mk.inj (Option.some.inj hqueue)
        exact hkept
      | some updated =>
        simp only [OptoSyncClient.queueMutation, hparse, queueMutationValue, hinv.running, hupdated,
          Option.isSome_some, if_true] at hqueue
        exact Kept.push ⟨clock, seen, hinv⟩ hqueue
    | _ =>
      simp only [OptoSyncClient.queueMutation, hparse, queueMutationValue] at hqueue
      obtain ⟨-, rfl⟩ := Prod.mk.inj (Option.some.inj hqueue)
      exact ⟨clock, seen, hinv⟩

theorem Kept.next (hpointer : Follows pointer) {client : OptoSyncClient} {call : Call}
    (hcall : client.Representable parse now call) (h : client.Kept) :
    (client.next pointer parse print now call).Kept := by
  cases call with
  | queueMutation payload =>
    rw [OptoSyncClient.next]
    cases hqueue : client.queueMutation parse print now payload with
    | none => exact h
    | some answer => exact h.queueMutation hcall hqueue
  | observeIncoming payload =>
    rw [OptoSyncClient.next]
    cases hobserve : client.observeIncoming pointer parse now payload with
    | none => exact h
    | some answer => exact h.observeIncoming hpointer hobserve

def start (store : List String) (lwwKeys : String) (hlc : HybridLogicalClock) : OptoSyncClient where
  store := store
  lwwKeys := lwwKeys
  clock := some { hlc, calls := 0 }
  observed := []
  stamps := []

theorem Kept.start {nodeId : String} {saved : Option String} {maxDriftMs : ℕ}
    {hlc : HybridLogicalClock} (h : HybridLogicalClock.withMaxDrift nodeId saved maxDriftMs = .ok hlc)
    (store : List String) (lwwKeys : String) : (start store lwwKeys hlc).Kept :=
  ⟨{ hlc, calls := 0 }, [], rfl, ClockRun.inv_of_new h, fun _ hts => absurd hts List.not_mem_nil,
    fun _ hdocument => absurd hdocument List.not_mem_nil⟩

theorem refused_of_no_object (client : OptoSyncClient) {payload : String}
    (h : ∀ fields, parse payload ≠ some (.object fields)) :
    ∃ error, client.queueMutation parse print now payload = some (.error error, client) := by
  unfold queueMutation
  cases hparse : parse payload with
  | none => exact ⟨_, rfl⟩
  | some value =>
    cases value with
    | object fields => exact absurd hparse (h fields)
    | _ => exact ⟨_, rfl⟩

/-- In every run of a client with a clock, whose readings are in range and that does not exhaust the
format: the payload that is queued next without an `updatedAt` gets one above every timestamp at a
selected position of what was observed and above every stamp so far, and keeps its other fields; and
what is no object is refused and changes nothing. -/
theorem run_stamps_after (hpointer : Follows pointer) {nodeId : String} {saved : Option String}
    {maxDriftMs : ℕ} {hlc : HybridLogicalClock}
    (hnew : HybridLogicalClock.withMaxDrift nodeId saved maxDriftMs = .ok hlc) (store : List String)
    (lwwKeys : String) {calls : List Call}
    (hcalls : StepsMeet (next pointer parse print now) (Representable parse now)
      (start store lwwKeys hlc) calls) :
    let s := run (next pointer parse print now) (start store lwwKeys hlc) calls
    (∀ payload fields, parse payload = some (.object fields) → fields.lookup "updatedAt" = none →
      s.Representable parse now (.queueMutation payload) →
      ∃ stamp stamped s', s.queueMutation parse print now payload = some (.ok s.store.length, s') ∧
        s'.store = s.store ++ [print (.object stamped)] ∧
        stamped.lookup "updatedAt" = some (.string stamp) ∧
        (∀ key, key ≠ "updatedAt" → stamped.lookup key = fields.lookup key) ∧
        (∀ document ∈ s.observed, ∀ ts, Found s.keys document ts → ts < stamp) ∧
        ∀ earlier ∈ s.stamps, earlier < stamp) ∧
    ∀ payload, (∀ fields, parse payload ≠ some (.object fields)) →
      ∃ error, s.queueMutation parse print now payload = some (.error error, s) := by
  intro s
  have hkept : s.Kept :=
    run_invariant_of_stepsMeet (fun _ _ hcall h => Kept.next hpointer hcall h)
      (Kept.start hnew store lwwKeys) hcalls
  refine ⟨fun payload fields hparse habsent hcall => ?_,
    fun payload hpayload => refused_of_no_object s hpayload⟩
  obtain ⟨clock, seen, hinv⟩ := hkept
  obtain ⟨stamp, s', hqueue, hstore, hlt, -⟩ :=
    hinv.stamp hparse habsent (hcall fields hparse habsent clock hinv.running)
  refine ⟨stamp, _, s', hqueue, hstore, ?_, fun key hkey => ?_, ?_, ?_⟩
  · rw [lookup_insertField, if_pos rfl]
  · rw [lookup_insertField, if_neg hkey]
  · intro document hdocument ts hfound
    exact hlt ts (hinv.observed document hdocument ts hfound)
  · intro earlier hearlier
    exact hlt earlier (hinv.stamps earlier hearlier)

/-- An edit based on a record that a peer stamped outranks the peer. -/
theorem run_stamps_after_record :
    let record : List (String × Json) :=
      [("_sync", .object [("updatedAt", .string "1721822401000-00ff-peer")])]
    let parse := Json.read
    let print := Json.text fun _ => false
    let payload := print (.object record)
    let now := fun _ : ℕ => 1721822400000
    let hlc : HybridLogicalClock :=
      { nodeId := "me", millis := 0, counter := 0, maxDriftMs := 60000, saved := none
        node_valid := rfl }
    let s := run (next lenient parse print now) (start [] "#/_sync/updatedAt, syncedAt" hlc)
      [.observeIncoming payload]
    ∃ stamp s', s.queueMutation parse print now payload = some (.ok 0, s') ∧
      "1721822401000-00ff-peer" < stamp := by
  intro record parse print payload now hlc s
  have hparse : parse payload = some (.object record) :=
    Json.read_text (fun _ hc => absurd hc Bool.false_ne_true) rfl
  have hnew : HybridLogicalClock.withMaxDrift "me" none 60000 = .ok hlc := rfl
  have hcalls : StepsMeet (next lenient parse print now) (Representable parse now)
      (start [] "#/_sync/updatedAt, syncedAt" hlc) [.observeIncoming payload] := ⟨trivial, trivial⟩
  have hgather : gather (strings lenient (splitKeys isWhitespace "#/_sync/updatedAt, syncedAt"))
      (.object record) = ["1721822401000-00ff-peer"] := by decide
  have hclock : (observeAll now ["1721822401000-00ff-peer"] { hlc, calls := 0 }).map
      (fun x => (x.1.isOk, x.2.hlc.millis, x.2.hlc.counter)) = some (true, 1721822401000, 255) := by
    decide
  obtain ⟨⟨result, clock⟩, hall, heq⟩ := Option.map_eq_some_iff.mp hclock
  simp only [Prod.mk.injEq] at heq
  obtain ⟨hok, hmillis, hcounter⟩ := heq
  have hobserve : (start [] "#/_sync/updatedAt, syncedAt" hlc).observeIncoming lenient parse now
      payload = some (result,
        { store := [], lwwKeys := "#/_sync/updatedAt, syncedAt", clock := some clock
          observed := [.object record], stamps := [] }) := by
    unfold observeIncoming
    simp only [hparse, start, keys, observeTree_eq, hgather, hall, Option.map_some, hok, if_true]
  have hs : s = { store := [], lwwKeys := "#/_sync/updatedAt, syncedAt", clock := some clock
                  observed := [.object record], stamps := [] } := by
    have hnext : s = (start [] "#/_sync/updatedAt, syncedAt" hlc).next lenient parse print now
        (.observeIncoming payload) := rfl
    rw [hnext, next, hobserve]
    rfl
  have hroom : s.Representable parse now (.queueMutation payload) := by
    rw [hs]
    intro fields _ _ other hother
    obtain rfl := Option.some.inj hother
    refine ⟨by decide, fun _ hlast => ?_⟩
    rw [hmillis] at hlast
    exact absurd hlast (by decide)
  have hkey : "#/_sync/updatedAt".toList ∈
      splitKeys isWhitespace "#/_sync/updatedAt, syncedAt" := by decide
  have hfound : Found s.keys (.object record) "1721822401000-00ff-peer" := by
    rw [hs]
    exact ⟨⟨record, .self _, "#/_sync/updatedAt".toList, hkey,
      .inr ⟨["_sync".toList, "updatedAt".toList], by decide, by decide⟩⟩, by decide⟩
  obtain ⟨stamp, -, s', hqueue, -, -, -, hlt, -⟩ :=
    (run_stamps_after follows_lenient hnew [] "#/_sync/updatedAt, syncedAt" hcalls).1 payload record
      hparse rfl hroom
  have hstore : s.store.length = 0 := by rw [hs]; rfl
  have hmem : Json.object record ∈ s.observed := by rw [hs]; exact List.mem_singleton_self _
  refine ⟨stamp, s', ?_, hlt _ hmem _ hfound⟩
  rw [← hstore]
  exact hqueue

end OptoSyncClient
end

end OptoSync.RustClient
