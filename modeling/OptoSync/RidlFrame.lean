import OptoSync.Json

/-!
# Frames of the ridl protocol

`RidlFrame.decode` of the Dart package. What `jsonDecode` makes of a wire string is a parameter.
-/
namespace OptoSync.Ridl

inductive RidlFrameType
  | call | data | end_ | error | cancel
  deriving DecidableEq

def RidlFrameType.wire : RidlFrameType → String
  | .call => "call"
  | .data => "data"
  | .end_ => "end"
  | .error => "error"
  | .cancel => "cancel"

/-- What decoding a wire string throws. -/
inductive DecodeError
  | json
  | cast
  | format (message : String)
  deriving DecidableEq

def RidlFrameType.fromWire (wire : String) : Except DecodeError RidlFrameType :=
  match [call, data, end_, error, cancel].find? fun type => type.wire = wire with
  | some type => .ok type
  | none => .error (.format s!"not a ridl frame type: {wire}")

def kRidlFrameVersion : ℤ := 1

structure RidlFrame where
  version : ℤ := kRidlFrameVersion
  id : String
  type : RidlFrameType
  key : Option String := none
  method : Option String := none
  path : Option String := none
  query : Option (List (List String)) := none
  body : Json := .null
  hasBody : Bool := false
  code : Option String := none
  message : Option String := none
  meta_ : Option (List (String × Json)) := none

/-- `as int?`. -/
def castInt : Option Json → Except DecodeError (Option ℤ)
  | none | some .null => .ok none
  | some (.number (.int value)) => .ok (some value)
  | some _ => .error .cast

/-- `as String`. -/
def castString : Json → Except DecodeError String
  | .string value => .ok value
  | _ => .error .cast

/-- `as String?`. -/
def castOptionalString : Option Json → Except DecodeError (Option String)
  | none | some .null => .ok none
  | some value => (castString value).map some

/-- `as Map<String, Object?>?`. -/
def castOptionalMap : Option Json → Except DecodeError (Option (List (String × Json)))
  | none | some .null => .ok none
  | some (.object fields) => .ok (some fields)
  | some _ => .error .cast

/-- A list of strings. -/
def castPair : Json → Except DecodeError (List String)
  | .array items => items.mapM castString
  | _ => .error .cast

def castQuery : Option Json → Except DecodeError (Option (List (List String)))
  | none | some .null => .ok none
  | some (.array pairs) => (pairs.mapM castPair).map some
  | some _ => .error .cast

/-- A member that has to be a string. -/
def requireString (json : List (String × Json)) (name : String) : Except DecodeError String :=
  match json.lookup name with
  | some (.string value) => .ok value
  | _ => .error (.format s!"ridl frame: missing \"{name}\"")

namespace RidlFrame

def fromJson (json : List (String × Json)) : Except DecodeError RidlFrame := do
  let rawType ← requireString json "t"
  let rawId ← requireString json "id"
  let version ← castInt (json.lookup "v")
  let type ← RidlFrameType.fromWire rawType
  let key ← castOptionalString (json.lookup "key")
  let method ← castOptionalString (json.lookup "method")
  let path ← castOptionalString (json.lookup "path")
  let query ← castQuery (json.lookup "query")
  let code ← castOptionalString (json.lookup "code")
  let message ← castOptionalString (json.lookup "message")
  let meta_ ← castOptionalMap (json.lookup "meta")
  return {
    version := version.getD kRidlFrameVersion, id := rawId, type, key, method, path, query,
    body := (json.lookup "body").getD .null, hasBody := (json.lookup "body").isSome, code, message,
    meta_ }

def decode (jsonDecode : String → Option Json) (wire : String) : Except DecodeError RidlFrame :=
  match jsonDecode wire with
  | none => .error .json
  | some (.object json) => fromJson json
  | some _ => .error .cast

end RidlFrame

end OptoSync.Ridl
