import OptoSync.Json

/-!
# Sanitizing form payloads

`sanitizeFormPayload` of the TypeScript package on JSON values, and the names that it takes for
credentials. An object is the map from its keys to its values.
-/
namespace OptoSync.Forms

def blockedKeys : List String := ["__proto__", "prototype", "constructor"]

/-- `TRANSIENT_NAMES`. -/
def transientFields : List String :=
  ["authorization", "cfturnstileresponse", "csrf", "csrftoken", "grecaptcharesponse", "password",
    "passcode", "secret", "turnstiletoken", "accesstoken", "refreshtoken"]

/-- What `toLowerCase` and the deletion of `[^a-z0-9]` leave of a character. Two characters outside
ASCII have a letter in their lower case. -/
def normalizedChar (c : Char) : Option Char :=
  if c.isLower || c.isDigit then some c
  else if c.isUpper then some c.toLower
  else if c = '\u212a' then some 'k'
  else if c = '\u0130' then some 'i'
  else none

def normalized (name : String) : String := String.ofList (name.toList.filterMap normalizedChar)

def transientNames (extra : List String) : List String := transientFields ++ extra.map normalized

def isTransientFormField (name : String) (extra : List String) : Bool :=
  let value := (normalized name).toList
  (transientNames extra).contains (normalized name) ||
    ["password", "passcode", "secret", "token"].any (fun ending => ending.toList.isSuffixOf value) ||
    ["turnstile", "recaptcha"].any fun part => decide (part.toList <:+: value)

/-- The extra names may come from an iterator, which yields them once. -/
structure FormSanitizationOptions where
  includeFileMetadata : Bool := false
  transientFieldNames : List String := []
  oneShot : Bool := false

/-- An object with the fields of a file. -/
def fileLike (fields : List (String × Json)) : Bool :=
  match fields.lookup "name", fields.lookup "size", fields.lookup "type" with
  | some (.string _), some (.number _), some (.string _) => true
  | _, _, _ => false

/-- A field, where the object has it. -/
def fieldOf (fields : List (String × Json)) (name : String) : List (String × Json) :=
  ((fields.lookup name).map fun value => (name, value)).toList

def lastModified (fields : List (String × Json)) : List (String × Json) :=
  match fields.lookup "lastModified" with
  | some (.number value) => [("lastModified", .number value)]
  | _ => []

def fileDescriptor (fields : List (String × Json)) : Json :=
  .object (lastModified fields ++ fieldOf fields "name" ++ fieldOf fields "size" ++
    fieldOf fields "type")

section
variable (includeFileMetadata : Bool) (names : List String)

mutual
/-- `visit`; none is `undefined`. -/
def visit : Json → Option Json
  | .array items => some (.array (visitItems items))
  | .object fields =>
    if fileLike fields then if includeFileMetadata then some (fileDescriptor fields) else none
    else some (.object (visitFields fields))
  | value => some value

def visitItems : List Json → List Json
  | [] => []
  | item :: items => (visit item).toList ++ visitItems items

/-- The empty key is no key to `visit`. -/
def visitFields : List (String × Json) → List (String × Json)
  | [] => []
  | (name, child) :: fields =>
    if blockedKeys.contains name then visitFields fields
    else if name ≠ "" && isTransientFormField name names then visitFields fields
    else ((visit child).map fun value => (name, value)).toList ++ visitFields fields
end

end

def sanitizeFormPayload (value : Json) (options : FormSanitizationOptions) : Option Json :=
  visit options.includeFileMetadata (transientNames options.transientFieldNames) value

end OptoSync.Forms
