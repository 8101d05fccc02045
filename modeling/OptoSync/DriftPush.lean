import OptoSync.DriftQueue

/-!
# Pushing from the Drift queue

The batches of the Dart client. A request is the map that is sent. `jsonDecode` returns none where
it throws.
-/
namespace OptoSync
namespace Dart

/-- The whitespace of a regular expression. -/
def isSpace (c : Char) : Bool :=
  (9 ≤ c.toNat && c.toNat ≤ 13) || (0x2000 ≤ c.toNat && c.toNat ≤ 0x200A) ||
    [0x20, 0xA0, 0x1680, 0x2028, 0x2029, 0x202F, 0x205F, 0x3000, 0xFEFF].contains c.toNat

def trimEnds (space : Char → Bool) (cs : List Char) : List Char :=
  ((cs.dropWhile space).reverse.dropWhile space).reverse

def hexValue (c : Char) : Option ℕ :=
  if c.isDigit then some (c.toNat - '0'.toNat)
  else if 'a' ≤ c ∧ c ≤ 'f' then some (c.toNat - 'a'.toNat + 10)
  else if 'A' ≤ c ∧ c ≤ 'F' then some (c.toNat - 'A'.toNat + 10)
  else none

/-- The digits of an integer literal, in base 16 after `0x`. -/
def magnitude : List Char → Option ℕ
  | [] => none
  | '0' :: 'x' :: digits | '0' :: 'X' :: digits =>
    if digits = [] then none
    else (digits.mapM hexValue).map fun values => values.foldl (fun n v => 16 * n + v) 0
  | digits => if digits.all Char.isDigit then some (Nat.ofDigitChars 10 digits 0) else none

/-- `BigInt.tryParse` -/
def bigIntTryParse (source : String) : Option ℤ :=
  match trimEnds isSpace source.toList with
  | '-' :: digits => (magnitude digits).map fun n => -(n : ℤ)
  | '+' :: digits => (magnitude digits).map fun n => (n : ℤ)
  | digits => (magnitude digits).map fun n => (n : ℤ)

namespace OptoSyncClient
open OptoSync.Dart.OptoSyncDatabase

def pendingMutations (db : OptoSyncDatabase) (limit : ℕ) : Except String (List Mutation) :=
  if limit < 1 ∨ 100 < limit then .error "limit"
  else .ok ((orderById (db.localMutations.filter isPending)).take limit)

theorem pendingMutations_eq (db : OptoSyncDatabase) {limit : ℕ} (hone : 1 ≤ limit)
    (hmax : limit ≤ 100) : pendingMutations db limit =
      .ok ((db.localMutations.filter isPending).take limit) := by
  rw [pendingMutations, if_neg (by omega), orderById_filter db.sorted]

section
variable (jsonDecode : String → Option Json)

/-- The entries of a mutation, without the payload of an upsert. -/
def encodedEntries (row : Mutation) (mutationId : String) : List (String × Json) :=
  [("mutationId", .string mutationId), ("operation", .string row.operation),
    ("table", .string row.targetTable), ("recordId", .string row.recordId)] ++
    (row.baseRevision.map fun revision => ("baseRevision", Json.string revision)).toList

def encodeProtocolRow (row : Mutation) (mutationId : String) : Except String Json :=
  if row.operation = "upsert" then
    match jsonDecode row.jsonPayload with
    | some (.object fields) =>
      .ok (.object (encodedEntries row mutationId ++ [("payload", .object fields)] ++
        if row.resurrect then [("resurrect", .bool true)] else []))
    | some _ => .error ("mutation " ++ mutationId ++ " payload is not a JSON object")
    | none => .error "FormatException"
  else .ok (.object (encodedEntries row mutationId))

/-- One round of the loop over the rows: the number of the row and its encoding. -/
def encodeNext (clientIdentity : String) (previous : Option ℤ) (row : Mutation) :
    Except String (ℤ × Json) :=
  match row.mutationId with
  | none => .error ("queued row " ++ row.id.repr ++ " has no matching protocol identity")
  | some mutationId =>
    if row.clientId ≠ some clientIdentity then
      .error ("queued row " ++ row.id.repr ++ " has no matching protocol identity")
    else
      match bigIntTryParse mutationId with
      | none => .error ("queued row " ++ row.id.repr ++ " has an invalid mutation id")
      | some current =>
        if current ≤ 0 then
          .error ("queued row " ++ row.id.repr ++ " has an invalid mutation id")
        else if previous.any fun previous => current ≠ previous + 1 then
          .error "pending mutations are not contiguous"
        else (encodeProtocolRow jsonDecode row current.repr).map fun encoded => (current, encoded)

def encodeMutations (clientIdentity : String) : Option ℤ → List Mutation → Except String (List Json)
  | _, [] => .ok []
  | previous, row :: rows => do
    let (current, encoded) ← encodeNext jsonDecode clientIdentity previous row
    let mutations ← encodeMutations clientIdentity (some current) rows
    pure (encoded :: mutations)

def encodeProtocolRows (clientIdentity : String) (rows : List Mutation) : Except String Json := do
  let mutations ← encodeMutations jsonDecode clientIdentity none rows
  pure (.object [("protocolVersion", .number (.int 1)), ("clientId", .string clientIdentity),
    ("mutations", .array mutations)])

def protocolPushRequest (client : OptoSyncClient) (db : OptoSyncDatabase) (limit : ℕ) :
    Except String Json := do
  let rows ← pendingMutations db limit
  encodeProtocolRows jsonDecode client.clientId rows

end

end OptoSyncClient
end Dart
end OptoSync
