import DocumentStore.Json.Basic
import DocumentStore.Text.Printable

/-!
# Reading settings from JSON

Named settings are read from an object in the order of its keys, or from an array by
position.  The first value that does not fit stops the reading with its error.
-/

namespace DocumentStore.Json

/-! ## Errors -/

inductive ReadError where
  | invalidType (found : Json) (expected : String)
  | invalidValue (found : Json) (expected : String)
  | missingField (name : String)
  | duplicateField (name : String)
  | unknownField (name : String) (known : List String)
  | unknownVariant (name : String) (known : List String)
  | invalidLength (length : Nat) (expected : String)
  | malformed (text : String)

def described : Json → String
  | .null => "null"
  | .bool b => "boolean `" ++ (if b then "true" else "false") ++ "`"
  | .int n => "integer `" ++ String.ofList (Decimal.ofInt n) ++ "`"
  | .float x => "floating point `" ++ floatText x ++ "`"
  | .string s => "string " ++ Text.quoted s
  | .array _ => "sequence"
  | .object _ => "map"

def fieldName (name : String) : String := "`" ++ name ++ "`"

def oneOfText : List String → String
  | [name] => fieldName name
  | [first, second] => fieldName first ++ " or " ++ fieldName second
  | names => "one of " ++ String.intercalate ", " (names.map fieldName)

namespace ReadError

def message : ReadError → String
  | .invalidType found expected =>
    "invalid type: " ++ found.described ++ ", expected " ++ expected
  | .invalidValue found expected =>
    "invalid value: " ++ found.described ++ ", expected " ++ expected
  | .missingField name => "missing field " ++ fieldName name
  | .duplicateField name => "duplicate field " ++ fieldName name
  | .unknownField name known =>
    "unknown field " ++ fieldName name ++ ", expected " ++ oneOfText known
  | .unknownVariant name known =>
    "unknown variant " ++ fieldName name ++ ", expected " ++ oneOfText known
  | .invalidLength length expected =>
    "invalid length " ++ String.ofList (Decimal.ofNat length) ++ ", expected " ++ expected
  | .malformed text => text

end ReadError

/-! ## Single values -/

def readText : Json → Except ReadError String
  | .string s => .ok s
  | found => .error (.invalidType found "a string")

def readBool : Json → Except ReadError Bool
  | .bool b => .ok b
  | found => .error (.invalidType found "a boolean")

/-- An unsigned integer below a bound, under the name that its errors give to the type. -/
def readBelow (bound : Nat) (typeName : String) : Json → Except ReadError Nat
  | .int n =>
    if 0 ≤ n ∧ n < bound then .ok n.toNat else .error (.invalidValue (.int n) typeName)
  | found => .error (.invalidType found typeName)

def readUnsigned : String → Json → Except ReadError Nat := readBelow UInt64.size

def readCount : Json → Except ReadError Nat := readUnsigned "u64"

/-- Null stands for no value. -/
def readOptional {α : Type} (read : Json → Except ReadError α) :
    Json → Except ReadError (Option α)
  | .null => .ok none
  | json => (read json).map some

def readList {α : Type} (read : Json → Except ReadError α) : Json → Except ReadError (List α)
  | .array items => items.mapM read
  | found => .error (.invalidType found "a sequence")

/-- One of several names, alone or as the only key of an object with a null value. -/
def readChoice {α : Type} (choices : List (String × α)) (json : Json) : Except ReadError α :=
  match json with
  | .string name => choose name
  | .object [(name, value)] => do
    let choice ← choose name
    match value with
    | .null => .ok choice
    | found => .error (.invalidType found "unit")
  | .object fields =>
    .error (.invalidValue (.object fields) "map with a single key")
  | found => .error (.invalidType found "string or map")
where
  choose (name : String) : Except ReadError α :=
    match choices.lookup name with
    | some choice => .ok choice
    | none => .error (.unknownVariant name (choices.map Prod.fst))

/-! ## Named settings -/

/-- A setting of `σ`: its name, other accepted spellings, and what reading it changes. -/
structure Setting (σ : Type) where
  name : String
  aliases : List String
  /-- Whether leaving it out is an error. -/
  required : Bool
  store : Json → σ → Except ReadError σ

/-- The settings of one structure, in order of declaration. -/
structure Shape (σ : Type) where
  name : String
  settings : List (Setting σ)
  /-- Whether a key that is no setting is an error. -/
  strict : Bool

namespace Shape

variable {σ : Type}

def knownNames (shape : Shape σ) : List String :=
  shape.settings.flatMap fun setting => setting.aliases ++ [setting.name]

def find? (shape : Shape σ) (key : String) : Option (Setting σ) :=
  shape.settings.find? fun setting => setting.name == key || setting.aliases.contains key

/-- Reads the fields of an object one after the other; `seen` names the settings read. -/
def readFields (shape : Shape σ) (seen : List String) (state : σ) :
    List (String × Json) → Except ReadError (List String × σ)
  | [] => .ok (seen, state)
  | (key, value) :: fields =>
    match shape.find? key with
    | none =>
      if shape.strict then .error (.unknownField key shape.knownNames)
      else shape.readFields seen state fields
    | some setting =>
      if seen.contains setting.name then .error (.duplicateField setting.name)
      else do
        let state ← setting.store value state
        shape.readFields (setting.name :: seen) state fields

def lengthText (shape : Shape σ) : String :=
  "struct " ++ shape.name ++ " with " ++ String.ofList (Decimal.ofNat shape.settings.length)
    ++ (if shape.settings.length = 1 then " element" else " elements")

/-- Reads the items of an array by position, `position` being the number read so far. -/
def readItems (shape : Shape σ) (items : List Json) (position : Nat) (state : σ) :
    List (Setting σ) → List Json → Except ReadError σ
  | [], [] => .ok state
  | [], _ :: _ => .error (.invalidLength items.length "fewer elements in array")
  | setting :: settings, [] =>
    if setting.required then .error (.invalidLength position shape.lengthText)
    else shape.readItems items (position + 1) state settings []
  | setting :: settings, value :: values => do
    let state ← setting.store value state
    shape.readItems items (position + 1) state settings values

def read (shape : Shape σ) (initial : σ) : Json → Except ReadError σ
  | .object fields => do
    let (seen, state) ← shape.readFields [] initial fields
    match shape.settings.find? fun setting => setting.required && !seen.contains setting.name with
    | some setting => .error (.missingField setting.name)
    | none => .ok state
  | .array items => shape.readItems items 0 initial shape.settings items
  | found => .error (.invalidType found ("struct " ++ shape.name))

end Shape

end DocumentStore.Json
