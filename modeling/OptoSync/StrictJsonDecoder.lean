import OptoSync.JavaDecimal

/-!
# The strict JSON decoder

`StrictJsonDecoder` of the Java client. A parser is its input and what is left of it; its index is
the difference of the two lengths. The recursion and the loops of the parser run on fuel.
-/
namespace OptoSync.StrictJson

open JsonGrammar Java InsertionOrder

def maxDepth : ℕ := 128

inductive Failure
  | illegalArgument (message : String)
  /-- No behaviour of the decoder: the fuel was too little. -/
  | exhausted
  deriving DecidableEq, Repr

section
variable (input : List UInt16)

def error {α : Type} (message : String) (rest : List UInt16) : Except Failure α :=
  .error (.illegalArgument s!"{message} at character {input.length - rest.length}")

def skipWhitespace (rest : List UInt16) : List UInt16 := rest.dropWhile isBlank

def consume (expected : Char) : List UInt16 → Except Failure (List UInt16)
  | [] => error input s!"expected '{expected}'" []
  | u :: us => if u = unit expected then .ok us else error input s!"expected '{expected}'" (u :: us)

def tryConsume (expected : Char) : List UInt16 → Option (List UInt16)
  | [] => none
  | u :: us => if u = unit expected then some us else none

def requireDigits (rest : List UInt16) : Except Failure (List UInt16) :=
  let stop := rest.dropWhile Character.isDigit
  if stop.length = rest.length then error input "expected digit" rest else .ok stop

/-- The integer part of `parseNumber`. -/
def scanInteger (rest : List UInt16) : Except Failure (List UInt16) :=
  match tryConsume '0' rest with
  | some rest =>
    if rest.head?.any Character.isDigit then error input "leading zero in number" rest else .ok rest
  | none => requireDigits input rest

def scanFraction (rest : List UInt16) : Except Failure (List UInt16) :=
  match tryConsume '.' rest with
  | some rest => requireDigits input rest
  | none => .ok rest

def scanExponent (rest : List UInt16) : Except Failure (List UInt16) :=
  match (tryConsume 'e' rest).or (tryConsume 'E' rest) with
  | some rest => requireDigits input (((tryConsume '+' rest).or (tryConsume '-' rest)).getD rest)
  | none => .ok rest

def parseNumber (start : List UInt16) : Except Failure (BigDecimal × List UInt16) :=
  if tryConsume '-' start = some [] then error input "incomplete number" []
  else do
    let rest ← scanInteger input ((tryConsume '-' start).getD start)
    let rest ← scanFraction input rest
    let rest ← scanExponent input rest
    match BigDecimal.ofText (start.take (start.length - rest.length)) with
    | some value => .ok (value, rest)
    | none => error input "invalid number" rest

def escapeDigit (u : UInt16) (rest : List UInt16) : Except Failure ℕ :=
  match Character.digit u 16 with
  | some digit => .ok digit
  | none => error input "invalid Unicode escape" rest

/-- The four rounds of its loop are written out. -/
def parseUnicodeEscape : List UInt16 → Except Failure (UInt16 × List UInt16)
  | a :: b :: c :: d :: rest => do
    let w ← escapeDigit input a (b :: c :: d :: rest)
    let x ← escapeDigit input b (c :: d :: rest)
    let y ← escapeDigit input c (d :: rest)
    let z ← escapeDigit input d rest
    .ok (UInt16.ofNat ([w, x, y, z].foldl (fun value digit => value <<< 4 ||| digit) 0), rest)
  | rest => error input "short Unicode escape" rest

/-- The switch of `parseString` on what follows a backslash: the character to append. -/
def parseEscape : List UInt16 → Except Failure (UInt16 × List UInt16)
  | [] => error input "unfinished string escape" []
  | escape :: rest =>
    if escape = unit '\"' ∨ escape = unit '\\' ∨ escape = unit '/' then .ok (escape, rest)
    else if escape = unit 'b' then .ok (unit '\x08', rest)
    else if escape = unit 'f' then .ok (unit '\x0c', rest)
    else if escape = unit 'n' then .ok (unit '\n', rest)
    else if escape = unit 'r' then .ok (unit '\r', rest)
    else if escape = unit 't' then .ok (unit '\t', rest)
    else if escape = unit 'u' then parseUnicodeEscape input rest
    else error input "invalid string escape" rest

/-- The loop of `parseString`. -/
def stringLoop : ℕ → List UInt16 → List UInt16 → Except Failure (List UInt16 × List UInt16)
  | 0, _, _ => .error .exhausted
  | _ + 1, _, [] => error input "unterminated string" []
  | fuel + 1, output, character :: rest =>
    if character = unit '\"' then .ok (output, rest)
    else if character = unit '\\' then do
      let (u, rest) ← parseEscape input rest
      stringLoop fuel (output ++ [u]) rest
    else if character < 0x20 then error input "unescaped control character in string" rest
    else stringLoop fuel (output ++ [character]) rest

def parseString (rest : List UInt16) : Except Failure (List UInt16 × List UInt16) := do
  let rest ← consume input '\"' rest
  stringLoop input (rest.length + 1) [] rest

def parseLiteral (literal : String) (value : Value BigDecimal) (rest : List UInt16) :
    Except Failure (Value BigDecimal × List UInt16) :=
  if (units literal).isPrefixOf rest then .ok (value, rest.drop (units literal).length)
  else error input "invalid literal" rest

mutual

def parseValue : ℕ → ℕ → List UInt16 → Except Failure (Value BigDecimal × List UInt16)
  | 0, _, _ => .error .exhausted
  | fuel + 1, depth, rest =>
    if maxDepth < depth then error input "maximum nesting depth exceeded" rest
    else
      match skipWhitespace rest with
      | [] => error input "unexpected end of JSON" []
      | u :: us =>
        if u = unit '{' then parseObject fuel (depth + 1) (u :: us)
        else if u = unit '[' then parseArray fuel (depth + 1) (u :: us)
        else if u = unit '\"' then (parseString input (u :: us)).map (Prod.map .string id)
        else if u = unit 't' then parseLiteral input "true" (.bool true) (u :: us)
        else if u = unit 'f' then parseLiteral input "false" (.bool false) (u :: us)
        else if u = unit 'n' then parseLiteral input "null" .null (u :: us)
        else (parseNumber input (u :: us)).map (Prod.map .number id)
termination_by structural fuel => fuel

def parseObject : ℕ → ℕ → List UInt16 → Except Failure (Value BigDecimal × List UInt16)
  | 0, _, _ => .error .exhausted
  | fuel + 1, depth, rest => do
    let rest ← consume input '{' rest
    match tryConsume '}' (skipWhitespace rest) with
    | some rest => .ok (.object [], rest)
    | none => objectLoop fuel depth InsertionMap.empty (skipWhitespace rest)
termination_by structural fuel => fuel

def objectLoop : ℕ → ℕ → InsertionMap (List UInt16) (Value BigDecimal) → List UInt16 →
    Except Failure (Value BigDecimal × List UInt16)
  | 0, _, _, _ => .error .exhausted
  | fuel + 1, depth, object, rest =>
    if (skipWhitespace rest).head? ≠ some (unit '\"') then
      error input "object key must be a string" (skipWhitespace rest)
    else do
      let (key, rest) ← parseString input (skipWhitespace rest)
      let rest ← consume input ':' (skipWhitespace rest)
      let (value, rest) ← parseValue fuel depth rest
      match tryConsume '}' (skipWhitespace rest) with
      | some rest => .ok (.object (object.set key value).entries, rest)
      | none => do
        let rest ← consume input ',' (skipWhitespace rest)
        objectLoop fuel depth (object.set key value) rest
termination_by structural fuel => fuel

def parseArray : ℕ → ℕ → List UInt16 → Except Failure (Value BigDecimal × List UInt16)
  | 0, _, _ => .error .exhausted
  | fuel + 1, depth, rest => do
    let rest ← consume input '[' rest
    match tryConsume ']' (skipWhitespace rest) with
    | some rest => .ok (.array [], rest)
    | none => arrayLoop fuel depth [] (skipWhitespace rest)
termination_by structural fuel => fuel

def arrayLoop : ℕ → ℕ → List (Value BigDecimal) → List UInt16 →
    Except Failure (Value BigDecimal × List UInt16)
  | 0, _, _, _ => .error .exhausted
  | fuel + 1, depth, values, rest => do
    let (value, rest) ← parseValue fuel depth rest
    match tryConsume ']' (skipWhitespace rest) with
    | some rest => .ok (.array (values ++ [value]), rest)
    | none => do
      let rest ← consume input ',' (skipWhitespace rest)
      arrayLoop fuel depth (values ++ [value]) rest
termination_by structural fuel => fuel

end

end

/-- `decode(text)`, where `none` is the null reference. -/
def decode : Option (List UInt16) → Except Failure (Value BigDecimal)
  | none => .error (.illegalArgument "JSON text must not be null")
  | some text => do
    let (value, rest) ← parseValue text (3 * text.length + 1) 0 text
    if skipWhitespace rest = [] then .ok value
    else error text "unexpected trailing content" (skipWhitespace rest)

end OptoSync.StrictJson
