import Mathlib

/-!
# Where a WebSocket URL leads

The host that a WebSocket constructor reads from a string, as the URL Standard has it for special
schemes and no base URL, if the connection is a cleartext one. The host parser, which decodes a name
or reads an address, is a parameter.
-/
namespace OptoSync.SpecialUrl

def isC0OrSpace (c : Char) : Bool := c.toNat ≤ 32

def isTabOrNewline (c : Char) : Bool := c = '\t' || c = '\n' || c = '\r'

/-- Control characters and blanks go at both ends, tabs and newlines everywhere. -/
def prepare (url : List Char) : List Char :=
  ((url.dropWhile isC0OrSpace).rdropWhile isC0OrSpace).filter (!isTabOrNewline ·)

/-- The backslash is a slash in these schemes. -/
def isSlash (c : Char) : Bool := c = '/' || c = '\\'

def endsAuthority (c : Char) : Bool := isSlash c || c = '?' || c = '#'

def isCleartext (scheme : List Char) : Bool :=
  let scheme := scheme.map Char.toLower
  scheme = ['w', 's'] || scheme = ['h', 't', 't', 'p']

def afterScheme (url : List Char) : Option (List Char) :=
  let scheme := url.takeWhile (· ≠ ':')
  if ':' ∈ url ∧ isCleartext scheme = true then some (url.drop (scheme.length + 1)) else none

/-- Any number of slashes may stand before the authority, none included. -/
def authority (rest : List Char) : List Char :=
  (rest.dropWhile isSlash).takeWhile (!endsAuthority ·)

/-- The text before the first colon outside of brackets, and the rest. -/
def splitPort : Bool → List Char → List Char × List Char
  | _, [] => ([], [])
  | insideBrackets, c :: cs =>
    if c = ':' ∧ insideBrackets = false then ([], c :: cs)
    else
      let (text, port) := splitPort (c = '[' || (insideBrackets && c ≠ ']')) cs
      (c :: text, port)

def validPort : List Char → Bool
  | [] => true
  | _ :: digits => digits.all Char.isDigit && Nat.ofDigitChars 10 digits 0 ≤ 65535

/-- The host; `none` if the constructor throws or encrypts. It refuses a fragment. -/
def host (parseHost : List Char → Option (List Char)) (url : List Char) : Option (List Char) :=
  (afterScheme (prepare url)).bind fun rest =>
    if '#' ∈ rest then none
    else
      let (text, port) := splitPort false ((authority rest).rtakeWhile (· ≠ '@'))
      if text = [] ∨ validPort port = false then none else parseHost text

variable {parseHost : List Char → Option (List Char)}

end OptoSync.SpecialUrl
