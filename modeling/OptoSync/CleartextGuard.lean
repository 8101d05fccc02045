import OptoSync.Decimal
import OptoSync.HostNames

/-!
# The cleartext guards

The Rust and the TypeScript WebSocket transport refuse to send a token over a cleartext URL, unless
the host of the URL looks internal; the Node TCP transport asks for a loopback host. Both guards of
the WebSocket transports are one classification with different prefixes and readers of octets.
-/
namespace OptoSync
open HostNames Decimal

namespace CleartextGuard

/-- The first two octets, if `piece` reads four parts between dots. -/
def octetsWith (piece : List Char → Option ℕ) (host : List Char) : Option (ℕ × ℕ) :=
  match (host.splitOn '.').mapM piece with
  | some [a, b, _, _] => some (a, b)
  | _ => none

def internalHostAllowedWith (prefixes : List (List Char)) (piece : List Char → Option ℕ)
    (host : List Char) : Bool :=
  if host = [] ∨ Localhost host then true
  else if host = [':', ':', '1'] ∨ ∃ start ∈ prefixes, start <+: host then true
  else
    match octetsWith piece host with
    | some (a, b) => InternalQuad a b
    | none => '.' ∉ host || InCluster host

def afterScheme (url : List Char) : Option (List Char) :=
  if (url.take 5).map Char.toLower = "ws://".toList then some (url.drop 5)
  else if (url.take 7).map Char.toLower = "http://".toList then some (url.drop 7)
  else none

def isDelimiter (c : Char) : Bool := c = '/' || c = '?' || c = '#'

/-- The authority of a cleartext URL, without user information. -/
def hostPort (url : List Char) : Option (List Char) :=
  (afterScheme url).map fun rest => (rest.takeWhile (!isDelimiter ·)).rtakeWhile (· ≠ '@')

/-- One byte in the form `%02X`. -/
def percentByte (byte : UInt8) : List Char :=
  '%' :: [Nat.digitChar (byte.toNat / 16), Nat.digitChar (byte.toNat % 16)].map Char.toUpper

def percentEncode (unreserved : Char → Bool) (value : String) : List Char :=
  value.toUTF8.data.toList.flatMap fun byte =>
    let c := Char.ofNat byte.toNat
    if byte < 128 && unreserved c then [c] else percentByte byte

/-- The token as the last query parameter of the URL. -/
def withToken (unreserved : Char → Bool) (url token : String) : String :=
  let separator := if '?' ∈ url.toList then "&" else "?"
  url ++ separator ++ "token=" ++ String.ofList (percentEncode unreserved token)

end CleartextGuard

open CleartextGuard

namespace WsTransport

/-- `str::parse::<u8>`: a plus sign is allowed, and so are leading zeros. -/
def parseU8 (cs : List Char) : Option ℕ :=
  let digits := match cs with
    | '+' :: cs => cs
    | cs => cs
  (parseDigits digits).filter (· ≤ 255)

def prefixes : List (List Char) := ["fc".toList, "fd".toList, "fe8".toList]

def isBracket (c : Char) : Bool := c = '[' || c = ']'

/-- The host as the guard compares it: in lower case, without brackets. -/
def normalizeHost (host : List Char) : List Char :=
  ((host.map Char.toLower).dropWhile isBracket).rdropWhile isBracket

def internalHostAllowed (host : List Char) : Bool :=
  internalHostAllowedWith prefixes parseU8 (normalizeHost host)

def cleartextHost (url : List Char) : Option (List Char) :=
  (hostPort url).map fun hostPort =>
    match hostPort with
    | '[' :: v6 => v6.takeWhile (· ≠ ']')
    | hostPort => hostPort.takeWhile (· ≠ ':')

def isUnreserved (c : Char) : Bool :=
  c.isAlphanum || c = '-' || c = '.' || c = '_' || c = '~'

/-- The part of `dial` before the connection: the URL to connect to, or the refused host. -/
def dialUrl (url : String) (token : Option String) : Except (List Char) String :=
  match token with
  | none => .ok url
  | some token =>
    if token = "" then .ok url
    else
      match cleartextHost url.toList with
      | some host =>
        if internalHostAllowed host = false then .error host
        else .ok (withToken isUnreserved url token)
      | none => .ok (withToken isUnreserved url token)

end WsTransport

namespace WebSocketTransport

/-- One to three digits, as the regular expression of the guard asks. -/
def digitsPiece (cs : List Char) : Option ℕ := if cs.length ≤ 3 then parseDigits cs else none

def prefixes : List (List Char) :=
  ["fc".toList, "fd".toList, "fe8".toList, "fe9".toList, "fea".toList, "feb".toList]

def internalHostAllowed (host : List Char) : Bool :=
  internalHostAllowedWith prefixes digitsPiece host

variable (toLowerCase : List Char → List Char)

/-- Without a closing bracket the slice ends before the last character. -/
def cleartextHost (url : List Char) : Option (List Char) :=
  (hostPort url).map fun hostPort =>
    match hostPort with
    | '[' :: v6 => toLowerCase (if ']' ∈ v6 then v6.takeWhile (· ≠ ']') else v6.dropLast)
    | hostPort => toLowerCase (hostPort.takeWhile (· ≠ ':'))

def requireEncryptedTransport (url : List Char) : Except String Unit :=
  match cleartextHost toLowerCase url with
  | some host =>
    if internalHostAllowed host = false then
      .error ("opto-sync: refusing to send a session token over cleartext to public host \"" ++
        String.ofList host ++ "\": use wss:// (or https://), an in-cluster address, or loopback")
    else .ok ()
  | none => .ok ()

/-- The characters that `encodeURIComponent` keeps; 39 is the apostrophe. -/
def isUnreserved (c : Char) : Bool :=
  c.isAlphanum || "-_.!~*()".toList.contains c || c = Char.ofNat 39

/-- The part of `dial` that makes the URL for the socket factory. -/
def dialUrl (url : String) (token : Option String) : Except String String := do
  match token with
  | none => pure url
  | some token =>
    if token = "" then pure url
    else
      requireEncryptedTransport toLowerCase url.toList
      if '#' ∈ url.toList then
        throw "websocket URL must not contain a fragment when authentication is enabled"
      pure (withToken isUnreserved url token)

end WebSocketTransport

namespace NodeTcp

variable (toLowerCase : List Char → List Char)

/-- One opening bracket and one closing one are removed. -/
def normalizeHost (host : List Char) : List Char :=
  let host := toLowerCase host
  let host := if host.head? = some '[' then host.tail else host
  if host.getLast? = some ']' then host.dropLast else host

end NodeTcp
end OptoSync
