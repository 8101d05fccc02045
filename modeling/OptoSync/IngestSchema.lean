import OptoSync.IngestEnvelope
import OptoSync.Utf16

/-!
# The ingest schema

The schema of the TypeScript client. The combinators of the schema library are a parameter, with
what they accept; regular expressions read the code units of a text.
-/
namespace OptoSync.Ingest
open Json

section
variable {α : Type} (code : α → ℕ)

/-- One element with the code of a character. -/
def literally (c : Char) : List α → Option (List α) := exactly (fun a => code a = c.toNat) 1

def digit (a : α) : Bool := 48 ≤ code a && code a ≤ 57

def alphabetic (a : α) : Bool :=
  (97 ≤ code a && code a ≤ 122) || (65 ≤ code a && code a ≤ 90)

/-- `/^[0-9]{1,20}$/` -/
def digitsPattern (l : List α) : Bool := 1 ≤ l.length && l.length ≤ 20 && l.all (digit code)

/-- The fixed part of `/^[0-9]{13}-[0-9a-f]{4}-[^-]{1,128}$/`. -/
def hlcHead (l : List α) : Option (List α) := do
  let l ← exactly (digit code) 13 l
  let l ← literally code '-' l
  let l ← exactly (fun a => digit code a || (97 ≤ code a && code a ≤ 102)) 4 l
  literally code '-' l

def hlcPattern (l : List α) : Bool :=
  (hlcHead code l).any fun node =>
    1 ≤ node.length && node.length ≤ 128 && node.all fun a => code a ≠ '-'.toNat

def isoHead (l : List α) : Option (List α) := do
  let l ← exactly (digit code) 4 l
  let l ← literally code '-' l
  let l ← exactly (digit code) 2 l
  let l ← literally code '-' l
  let l ← exactly (digit code) 2 l
  let l ← literally code 'T' l
  let l ← exactly (digit code) 2 l
  let l ← literally code ':' l
  let l ← exactly (digit code) 2 l
  let l ← literally code ':' l
  exactly (digit code) 2 l

def suffixCode (a : α) : Bool :=
  alphabetic code a || digit code a || code a = '.'.toNat || code a = '_'.toNat ||
    code a = '~'.toNat || code a = '-'.toNat

/-- `Z(-[0-9A-Za-z._~-]+)*$`. A dash is one of the characters after a dash, so a single group
matches what any number of groups do. -/
def isoEnd (l : List α) : Bool :=
  (literally code 'Z' l).any fun suffix =>
    suffix.isEmpty || (literally code '-' suffix).any fun rest =>
      !rest.isEmpty && rest.all (suffixCode code)

/-- `/^\d{4}-\d{2}-\d{2}T\d{2}:\d{2}:\d{2}(\.\d{1,9})?Z(-[0-9A-Za-z._~-]+)*$/` -/
def isoPattern (l : List α) : Bool :=
  (isoHead code l).any fun rest =>
    isoEnd code rest || (literally code '.' rest).any fun fraction =>
      (List.range' 1 9).any fun count =>
        (exactly (digit code) count fraction).any (isoEnd code)

/-- `/^[A-Za-z_][A-Za-z0-9_]{0,62}$/` -/
def identifierPattern (l : List α) : Bool :=
  (exactly (fun a => alphabetic code a || code a = '_'.toNat) 1 l).any fun rest =>
    rest.length ≤ 62 && rest.all fun a =>
      alphabetic code a || digit code a || code a = '_'.toNat

/-- `/^(?:0|[1-9][0-9]*)$/` -/
def decimalPattern (l : List α) : Bool :=
  (literally code '0' l).any List.isEmpty ||
    (exactly (fun a => 49 ≤ code a && code a ≤ 57) 1 l).any fun rest => rest.all (digit code)

end

/-- A schema parses a value or, as none, a missing one; the result is what it passes on. -/
structure Zod (doubles : Doubles) where
  Schema : Type
  safeParse : Schema → Option Json → Option (Option Json)
  string : Schema
  number : Schema
  literal : ℚ → Schema
  enum : List String → Schema
  record : Schema
  regex : Schema → (List ℕ → Bool) → Schema
  int : Schema → Schema
  nonnegative : Schema → Schema
  max : Schema → ℚ → Schema
  superRefine : Schema → (Option Json → Bool) → Schema
  optional : Schema → Schema
  union : List Schema → Schema
  array : Schema → Schema
  min : Schema → ℕ → Schema
  strictObject : List (String × Schema) → Schema
  passthroughObject : List (String × Schema) → Schema
  /-- The keys that `z.record` copies. -/
  keeps : String → Bool

namespace Zod

variable {doubles : Doubles} (z : Zod doubles)

/-- The fields of a shape, parsed. -/
def parseShape (shape : List (String × z.Schema)) (fields : List (String × Json)) :
    Option (List (String × Option Json)) :=
  shape.mapM fun entry => (z.safeParse entry.2 (member fields entry.1)).map fun out => (entry.1, out)

end Zod

/-- The number of a value as a double. -/
def doubleOf (doubles : Doubles) : Option Json → Option ℚ
  | some (.number (.int value)) => some (doubles.ofInt value)
  | some (.number (.float literal)) => some (doubles.float literal)
  | _ => none

def textOf : Option Json → Option String
  | some (.string text) => some text
  | _ => none

/-- What the documentation of the library says. -/
structure LawfulZod {doubles : Doubles} (z : Zod doubles) : Prop where
  string : ∀ v, z.safeParse z.string v = if (textOf v).isSome then some v else none
  number : ∀ v, z.safeParse z.number v = if (doubleOf doubles v).isSome then some v else none
  literal : ∀ q v, z.safeParse (z.literal q) v = if doubleOf doubles v = some q then some v else none
  enum : ∀ names v, z.safeParse (z.enum names) v =
    if (textOf v).any (names.contains ·) then some v else none
  record : ∀ v, z.safeParse z.record v = match v with
    | some (.object fields) => some (some (.object (fields.filter fun field => z.keeps field.1)))
    | _ => none
  regex : ∀ s pattern v, z.safeParse (z.regex s pattern) v = (z.safeParse s v).filter fun out =>
    (textOf out).any fun text => pattern (Utf16.encode text.toList)
  int : ∀ s v, z.safeParse (z.int s) v = (z.safeParse s v).filter fun out =>
    (doubleOf doubles out).any fun q => q.den = 1
  nonnegative : ∀ s v, z.safeParse (z.nonnegative s) v = (z.safeParse s v).filter fun out =>
    (doubleOf doubles out).any fun q => 0 ≤ q
  max : ∀ s bound v, z.safeParse (z.max s bound) v = (z.safeParse s v).filter fun out =>
    (doubleOf doubles out).any fun q => q ≤ bound
  superRefine : ∀ s accepts v, z.safeParse (z.superRefine s accepts) v =
    (z.safeParse s v).filter accepts
  optional : ∀ s v, z.safeParse (z.optional s) v =
    if v.isNone then some none else z.safeParse s v
  union : ∀ options v, z.safeParse (z.union options) v = options.findSome? (z.safeParse · v)
  array : ∀ s v, z.safeParse (z.array s) v = match v with
    | some (.array items) => (items.mapM fun item => (z.safeParse s (some item)).map fun out =>
        out.getD .null).map fun outs => some (.array outs)
    | _ => none
  min : ∀ s count v, z.safeParse (z.min s count) v = (z.safeParse s v).filter fun out =>
    match out with
    | some (.array items) => count ≤ items.length
    | _ => false
  strictObject : ∀ shape v, z.safeParse (z.strictObject shape) v = match v with
    | some (.object fields) =>
      if fields.all (fun field => (shape.map Prod.fst).contains field.1) then
        (z.parseShape shape fields).map fun outs =>
          some (.object (outs.filterMap fun out => out.2.map fun value => (out.1, value)))
      else none
    | _ => none
  passthroughObject : ∀ shape v, (z.safeParse (z.passthroughObject shape) v).isSome = match v with
    | some (.object fields) => (z.parseShape shape fields).isSome
    | _ => false
  /-- `z.record` copies the ordinary keys. -/
  keeps : z.keeps "updatedAt" = true ∧ z.keeps "createdAt" = true ∧ z.keeps "syncedAt" = true

namespace Zod

variable {doubles : Doubles} (z : Zod doubles)

/-- `codePointLength` is the number of characters. -/
def boundedString (least most : ℕ) : z.Schema :=
  z.superRefine z.string fun value => (textOf value).any fun text =>
    least ≤ text.toList.length && text.toList.length ≤ most

def timestampSchema : z.Schema :=
  z.union [
    z.max (z.nonnegative (z.int z.number)) maxSafeTimestampInteger,
    z.regex z.string (digitsPattern id),
    z.regex z.string (hlcPattern id),
    z.regex z.string (isoPattern id)]

def identifierSchema : z.Schema := z.regex z.string (identifierPattern id)

def payloadSchema : z.Schema :=
  z.passthroughObject [
    ("updatedAt", z.timestampSchema),
    ("createdAt", z.optional z.timestampSchema),
    ("syncedAt", z.optional z.timestampSchema)]

/-- The refinement of a record: no issue for its payload. -/
def payloadAccepted (record : Option Json) : Bool :=
  let payload := record.bind fun value => SyncLoop.property value "payload"
  if record.bind (fun value => SyncLoop.property value "operation") = some (.string "delete") then
    payload = some (.object [])
  else (z.safeParse z.payloadSchema payload).isSome

def recordSchema : z.Schema :=
  z.superRefine
    (z.strictObject [
      ("table", z.identifierSchema),
      ("recordId", z.boundedString 1 512),
      ("operation", z.optional (z.enum ["upsert", "delete"])),
      ("baseRevision", z.optional (z.regex z.string (decimalPattern id))),
      ("payload", z.record)])
    z.payloadAccepted

def envelopeSchema : z.Schema :=
  z.strictObject [
    ("formatVersion", z.literal 1),
    ("source", z.optional (z.boundedString 0 200)),
    ("records", z.min (z.array z.recordSchema) 1)]

/-- `envelopeSchema.safeParse(value).success` -/
def accepts (value : Json) : Bool := (z.safeParse z.envelopeSchema (some value)).isSome

end Zod
end OptoSync.Ingest
