import OptoSync.Json

/-!
# JSON documents

A JSON text as it is spelled: the members of an object with their order and their repetitions, and
numerals that are told apart by their spelling where a value would not tell them apart. The reader
takes UTF-8 bytes. Decoders that look for characters replace what is none by `U+FFFD` or refuse it.
-/
namespace OptoSync

/-- What stands between two quotes. It is whole if no byte and no escape of it had to be replaced. -/
structure Text where
  value : String
  whole : Bool
  deriving DecidableEq

/-- An integer numeral is its integer, every other one (also `-0`) its spelling. -/
inductive Document
  | null
  | bool (value : Bool)
  | number (value : JsonNumber)
  | string (text : Text)
  | array (items : List Document)
  | object (members : List (Text × Document))

namespace Document

def continuation (b : UInt8) : Option ℕ :=
  if 0x80 ≤ b.toNat ∧ b.toNat < 0xc0 then some (b.toNat - 0x80) else none

/-- A code point of `count` more bytes, unless it is too low for them or no character. -/
def readContinuations (low : ℕ) : ℕ → ℕ → List UInt8 → Option (Char × List UInt8)
  | 0, point, r => if low ≤ point ∧ point.isValidChar then some (Char.ofNat point, r) else none
  | _ + 1, _, [] => none
  | count + 1, point, b :: r => do
    readContinuations low count (point * 64 + (← continuation b)) r

/-- The first character of a UTF-8 text. -/
def readChar : List UInt8 → Option (Char × List UInt8)
  | [] => none
  | b :: r =>
    if b.toNat < 0x80 then some (Char.ofNat b.toNat, r)
    else if b.toNat < 0xc0 then none
    else if b.toNat < 0xe0 then readContinuations 0x80 1 (b.toNat - 0xc0) r
    else if b.toNat < 0xf0 then readContinuations 0x800 2 (b.toNat - 0xe0) r
    else if b.toNat < 0xf8 then readContinuations 0x10000 3 (b.toNat - 0xf0) r
    else none

def replacement : Char := '\ufffd'

/-- The characters of a byte text, the first argument bounding their number. -/
def readChars : ℕ → List UInt8 → List Char
  | 0, _ | _ + 1, [] => []
  | n + 1, b :: r =>
    match readChar (b :: r) with
    | some (c, r) => c :: readChars n r
    | none => replacement :: readChars n r

def hexValue (b : UInt8) : Option ℕ :=
  let n := b.toNat
  if 48 ≤ n ∧ n ≤ 57 then some (n - 48)
  else if 97 ≤ n ∧ n ≤ 102 then some (n - 87)
  else if 65 ≤ n ∧ n ≤ 70 then some (n - 55)
  else none

def readHex4 : List UInt8 → Option (ℕ × List UInt8)
  | a :: b :: c :: d :: r => do
    some ((((← hexValue a) * 16 + (← hexValue b)) * 16 + (← hexValue c)) * 16 + (← hexValue d), r)
  | _ => none

/-- The code unit of a `\u` escape that follows at once. -/
def readUnit : List UInt8 → Option (ℕ × List UInt8)
  | a :: b :: r => if a = '\\'.toUInt8 ∧ b = 'u'.toUInt8 then readHex4 r else none
  | _ => none

/-- Behind `\u`. A surrogate outside a pair stands for no character. -/
def readUnicode (bytes : List UInt8) : Option (Option Char × List UInt8) := do
  let (unit, r) ← readHex4 bytes
  if unit.isValidChar then some (some (Char.ofNat unit), r)
  else if 0xdc00 ≤ unit then some (none, r)
  else
    match readUnit r with
    | some (low, rest) =>
      if 0xdc00 ≤ low ∧ low < 0xe000 then
        some (some (Char.ofNat (0x10000 + (unit - 0xd800) * 0x400 + (low - 0xdc00))), rest)
      else some (none, r)
    | none => some (none, r)

/-- Behind a backslash. -/
def readEscape : List UInt8 → Option (Option Char × List UInt8)
  | [] => none
  | b :: r =>
    if b = 'u'.toUInt8 then readUnicode r
    else
      [('\"', '\"'), ('\\', '\\'), ('/', '/'), ('b', '\x08'), ('f', '\x0c'), ('n', '\n'),
        ('r', '\r'), ('t', '\t')].findSome? fun (escape, c) =>
          if b = escape.toUInt8 then some (some c, r) else none

/-- The characters up to the closing quote, `none` for what has to be replaced. -/
def readString : ℕ → List UInt8 → Option (List (Option Char) × List UInt8)
  | 0, _ | _ + 1, [] => none
  | n + 1, b :: r =>
    if b = '\"'.toUInt8 then some ([], r)
    else if b.toNat < 0x20 then none
    else do
      let (c, r) ← if b = '\\'.toUInt8 then readEscape r
        else match readChar (b :: r) with
          | some (c, rest) => some (some c, rest)
          | none => some (none, r)
      let (cs, r) ← readString n r
      some (c :: cs, r)

def readText (bytes : List UInt8) : Option (Text × List UInt8) := do
  let (cs, r) ← readString bytes.length bytes
  some ({ value := String.ofList (cs.map fun c => c.getD replacement),
          whole := cs.all Option.isSome }, r)

def isDigit (b : UInt8) : Bool := 48 ≤ b.toNat && b.toNat ≤ 57

def readDigits (bytes : List UInt8) : Option (List UInt8 × List UInt8) :=
  if bytes.takeWhile isDigit = [] then none
  else some (bytes.takeWhile isDigit, bytes.dropWhile isDigit)

def readFraction : List UInt8 → Option (List UInt8 × List UInt8)
  | [] => some ([], [])
  | b :: r =>
    if b = '.'.toUInt8 then (readDigits r).map fun p => (b :: p.1, p.2) else some ([], b :: r)

def readExponent : List UInt8 → Option (List UInt8 × List UInt8)
  | [] => some ([], [])
  | b :: r =>
    if b = 'e'.toUInt8 ∨ b = 'E'.toUInt8 then
      match r with
      | [] => none
      | sign :: rest =>
        if sign = '+'.toUInt8 ∨ sign = '-'.toUInt8 then
          (readDigits rest).map fun p => (b :: sign :: p.1, p.2)
        else (readDigits r).map fun p => (b :: p.1, p.2)
    else some ([], b :: r)

def numeralOf (negative : Bool) (digits rest : List UInt8) : JsonNumber :=
  let n : ℕ := digits.foldl (fun n b => n * 10 + (b.toNat - 48)) 0
  if rest = [] ∧ ¬(negative ∧ n = 0) then .int (if negative then -(n : ℤ) else n)
  else
    let sign := if negative then ['-'] else []
    .float (String.ofList (sign ++ (digits ++ rest).map fun b => Char.ofNat b.toNat))

def readNumber (bytes : List UInt8) : Option (JsonNumber × List UInt8) := do
  let negative : Bool := bytes.head? = some '-'.toUInt8
  let (digits, r) ← readDigits (if negative then bytes.tail else bytes)
  if 1 < digits.length ∧ digits.head? = some '0'.toUInt8 then none
  else
    let (fraction, r) ← readFraction r
    let (exponent, r) ← readExponent r
    some (numeralOf negative digits (fraction ++ exponent), r)

def isBlank (b : UInt8) : Bool := b.toNat = 0x20 || b.toNat = 0x09 || b.toNat = 0x0a || b.toNat = 0x0d

def skipBlanks (bytes : List UInt8) : List UInt8 := bytes.dropWhile isBlank

def readWord (word : List Char) (value : Document) (bytes : List UInt8) :
    Option (Document × List UInt8) :=
  if word.map Char.toUInt8 <+: bytes then some (value, bytes.drop word.length) else none

mutual
/-- One value, with the blanks before it. -/
def readValue : ℕ → List UInt8 → Option (Document × List UInt8)
  | 0, _ => none
  | n + 1, bytes =>
    match skipBlanks bytes with
    | [] => none
    | b :: r =>
      if b = '\"'.toUInt8 then do
        let (text, r) ← readText r
        some (.string text, r)
      else if b = '['.toUInt8 then
        if (skipBlanks r).head? = some ']'.toUInt8 then some (.array [], (skipBlanks r).tail)
        else do
          let (items, r) ← readItems n r
          some (.array items, r)
      else if b = '\x7b'.toUInt8 then
        if (skipBlanks r).head? = some '\x7d'.toUInt8 then some (.object [], (skipBlanks r).tail)
        else do
          let (members, r) ← readMembers n r
          some (.object members, r)
      else if b = 'n'.toUInt8 then readWord ['n', 'u', 'l', 'l'] .null (b :: r)
      else if b = 't'.toUInt8 then readWord ['t', 'r', 'u', 'e'] (.bool true) (b :: r)
      else if b = 'f'.toUInt8 then readWord ['f', 'a', 'l', 's', 'e'] (.bool false) (b :: r)
      else do
        let (value, r) ← readNumber (b :: r)
        some (.number value, r)

/-- Items up to the closing bracket. -/
def readItems : ℕ → List UInt8 → Option (List Document × List UInt8)
  | 0, _ => none
  | n + 1, bytes => do
    let (v, r) ← readValue n bytes
    match skipBlanks r with
    | [] => none
    | b :: r =>
      if b = ']'.toUInt8 then some ([v], r)
      else if b = ','.toUInt8 then do
        let (vs, r) ← readItems n r
        some (v :: vs, r)
      else none

/-- Members up to the closing brace. -/
def readMembers : ℕ → List UInt8 → Option (List (Text × Document) × List UInt8)
  | 0, _ => none
  | n + 1, bytes =>
    if (skipBlanks bytes).head? = some '\"'.toUInt8 then do
      let (key, r) ← readText (skipBlanks bytes).tail
      if (skipBlanks r).head? = some ':'.toUInt8 then do
        let (v, r) ← readValue n (skipBlanks r).tail
        match skipBlanks r with
        | [] => none
        | b :: r =>
          if b = '\x7d'.toUInt8 then some ([(key, v)], r)
          else if b = ','.toUInt8 then do
            let (members, r) ← readMembers n r
            some ((key, v) :: members, r)
          else none
      else none
    else none
end

/-- A text that holds one document. -/
def read (bytes : List UInt8) : Option Document :=
  match readValue (2 * bytes.length + 2) bytes with
  | some (document, r) => if skipBlanks r = [] then some document else none
  | none => none

end Document
end OptoSync
