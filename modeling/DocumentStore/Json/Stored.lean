import DocumentStore.Json.Settings
import DocumentStore.Value.Display
import DocumentStore.Value.Extended

/-!
# Reading stored documents

The documents of a stored list are read field by field.  An unsigned integer takes the
narrow width where it fits.  A reserved key ends its object, whatever fields stand before
it, and a content that does not fit it is an error.
-/

namespace DocumentStore.Json

open Value

/-! ## Reserved keys -/

def kindError (text : String) : ReadError := .malformed ("BSON error. Kind: " ++ text ++ ".")

/-- An error in the meaning of a content that has the right shape. -/
def contentError (cause : ReadError) : ReadError :=
  kindError ("A deserialization-related error occurred. Message: " ++ cause.message)

def valueOf (expected : String) (read : String → Option Value) (s : String) :
    Except ReadError Value :=
  match read s with
  | some value => .ok value
  | none => .error (.invalidValue (.string s) expected)

def readObjectId : Json → Except ReadError Value
  | .string s => valueOf "24-character, big-endian hex string" Extended.objectId? s
  | found => .error (.invalidType found "hexstring or byte array")

def readInt32 (json : Json) : Except ReadError Value := do
  valueOf "32-bit signed integer as a string" Extended.int32? (← readText json)

def readInt64 (json : Json) : Except ReadError Value := do
  valueOf "64-bit signed integer as a string" Extended.int64? (← readText json)

def readDouble (json : Json) : Except ReadError Value := do
  valueOf "64-bit signed integer as a string" Extended.double? (← readText json)

def readDecimal (json : Json) : Except ReadError Value := do
  valueOf "decimal128 as a string" Extended.decimal? (← readText json)

/-- Bytes as numbers, or as the text that they encode. -/
def readBytes : Json → Except ReadError (List UInt8)
  | .string s => .ok s.toUTF8.toList
  | .array items =>
    items.mapM fun item => return UInt8.ofNat (← readBelow UInt8.size "u8" item)
  | found => .error (.invalidType found "byte array")

def readDecimalBytes (json : Json) : Except ReadError Value := do
  match Decimal128.ofBytes? (← readBytes json) with
  | some x => return .decimal x
  | none => throw (.malformed "could not convert slice to array")

def readUuid (json : Json) : Except ReadError Value := do
  (valueOf "$uuid value does not follow RFC 4122 format regarding length and hyphens"
    Extended.uuid? (← readText json)).mapError contentError

def readBorrowed (found : Json) : Except ReadError Value :=
  .error (.invalidType found "a borrowed byte array")

def readSymbol (json : Json) : Except ReadError Value := (readText json).map .symbol

def timestampShape : Shape (Nat × Nat) where
  name := "TimestampBody"
  strict := true
  settings :=
    [ { name := "t", aliases := [], required := true
        store := fun json body => return (← readBelow UInt32.size "u32" json, body.2) },
      { name := "i", aliases := [], required := true
        store := fun json body => return (body.1, ← readBelow UInt32.size "u32" json) } ]

def readTimestamp (json : Json) : Except ReadError Value := do
  let (time, increment) ← timestampShape.read (0, 0) json
  return .timestamp (UInt32.ofNat time) (UInt32.ofNat increment)

def binaryShape : Shape (String × String) where
  name := "BinaryBody"
  strict := true
  settings :=
    [ { name := "base64", aliases := [], required := true
        store := fun json body => return (← readText json, body.2) },
      { name := "subType", aliases := [], required := true
        store := fun json body => return (body.1, ← readText json) } ]

def readBinary (json : Json) : Except ReadError Value := do
  let (letters, digits) ← binaryShape.read ("", "") json
  match Text.Base64.decode? letters.toList, Text.Hex.decodeBytes? digits.toList with
  | some bytes, some [subtype] => return .binary subtype bytes
  | none, _ => throw (contentError (.invalidValue (.string letters) "base64 encoded bytes"))
  | _, none =>
    throw (contentError (.invalidValue (.string digits) "hexadecimal number as a string"))
  | _, _ => throw (contentError (.malformed "invalid value: byte array, expected one byte subtype"))

def expressionShape : Shape (String × String) where
  name := "RegexBody"
  strict := true
  settings :=
    [ { name := "pattern", aliases := [], required := true
        store := fun json body => return (← readText json, body.2) },
      { name := "options", aliases := [], required := true
        store := fun json body => return (body.1, ← readText json) } ]

def readExpression (json : Json) : Except ReadError Value := do
  let (pattern, options) ← expressionShape.read ("", "") json
  match Extended.regularExpression? pattern options with
  | some value => return value
  | none =>
    let fault := if pattern.toList.contains '\x00' then pattern else options
    throw (kindError ("Malformed BSON bytes. Message: cstring with interior null: "
      ++ Text.quoted fault))

/-- Why a text is no identifier: an odd number of bytes, the first byte that is no digit,
or another number of digits. -/
def objectIdFault (digits : String) : String :=
  let bytes := digits.toUTF8.toList.map fun byte => Char.ofNat byte.toNat
  let length := "invalid hex string length " ++ String.ofList (Decimal.ofNat bytes.length)
  if bytes.length % 2 = 1 then length
  else
    match bytes.findIdx? fun c => (Text.Hex.digit? c).isNone with
    | some index =>
      "invalid character '" ++ String.ofList ((bytes.drop index).take 1)
        ++ "' encountered at index " ++ String.ofList (Decimal.ofNat index)
    | none => length

def idShape : Shape String where
  name := "ObjectId"
  strict := true
  settings :=
    [ { name := "$oid", aliases := [], required := true, store := fun json _ => readText json } ]

def pointerShape : Shape (String × String) where
  name := "DbPointerBody"
  strict := true
  settings :=
    [ { name := "$ref", aliases := [], required := true
        store := fun json body => return (← readText json, body.2) },
      { name := "$id", aliases := [], required := true
        store := fun json body => return (body.1, ← idShape.read "" json) } ]

def readPointer (json : Json) : Except ReadError Value := do
  let (collection, digits) ← pointerShape.read ("", "") json
  match ObjectId.ofHex? digits.toList with
  | some id => return .pointer collection id
  | none =>
    throw (kindError ("An ObjectId-related error occurred: " ++ objectIdFault digits))

/-- Milliseconds as a number or as a text in an object, or a date and time in text. -/
def readDate : Json → Except ReadError Value
  | .object [("$numberLong", .string digits)] => ofDigits digits
  | .array [.string digits] => ofDigits digits
  | .string text =>
    (valueOf "rfc3339 formatted utc datetime" Extended.dateTime? text).mapError contentError
  | .int n =>
    if n ≤ Int64.maxValue.toInt then .ok (.dateTime (Int64.ofInt n)) else .error unmatched
  | _ => .error unmatched
where
  unmatched : ReadError :=
    .malformed "data did not match any variant of untagged enum DateTimeBody"
  ofDigits (digits : String) : Except ReadError Value :=
    match Extended.int64? digits with
    | some (.int64 milliseconds) => .ok (.dateTime milliseconds)
    | _ => .error (contentError (.invalidValue (.string digits) "i64 as a string"))

/-- The number 1 behind the key of a value without content. -/
def readMarker (key : String) (value : Value) (json : Json) : Except ReadError Value := do
  let n ← readBelow UInt8.size "u8" json
  if n = 1 then return value
  else throw (contentError (.invalidValue json ("value of " ++ key ++ " should always be 1")))

def readUndefined (json : Json) : Except ReadError Value := do
  if ← readBool json then return .undefined
  else throw (contentError (.invalidValue json "$undefined should always be true"))

/-- The reserved keys that alone make a value, each with the reading of its content. -/
def reserved : Fields (Json → Except ReadError Value) :=
  [ ("$oid", readObjectId),
    ("$symbol", readSymbol),
    ("$numberInt", readInt32),
    ("$numberLong", readInt64),
    ("$numberDouble", readDouble),
    ("$numberDecimal", readDecimal),
    ("$numberDecimalBytes", readDecimalBytes),
    ("$binary", readBinary),
    ("$uuid", readUuid),
    ("$timestamp", readTimestamp),
    ("$regularExpression", readExpression),
    ("$dbPointer", readPointer),
    ("$date", readDate),
    ("$minKey", readMarker "$minKey" .minKey),
    ("$maxKey", readMarker "$maxKey" .maxKey),
    ("$undefined", readUndefined),
    ("$__private__bson_RawDocument", readBorrowed),
    ("$__private__bson_RawArray", readBorrowed) ]

def endObject (size : Nat) (left : List (String × Json)) (value : Value) :
    Except ReadError Value :=
  if left.isEmpty then .ok value else .error (.invalidLength size "fewer elements in map")

/-! ## Values -/

mutual

/-- An unsigned integer takes the narrow width where it fits, a negative one never. -/
def toStored : Json → Except ReadError Value
  | .null => .ok .null
  | .bool b => .ok (.bool b)
  | .int n =>
    if n < 0 then .ok (.int64 (Int64.ofInt n))
    else if n ≤ Int64.maxValue.toInt then .ok (.ofInt64 (Int64.ofInt n))
    else .error (.malformed ("cannot represent " ++ String.ofList (Decimal.ofInt n)
      ++ " as a signed number"))
  | .float x => .ok (.double x)
  | .string s => .ok (.string s)
  | .array items => (toStoredItems items).map .array
  | .object fields => toStoredObject fields.length [] fields

def toStoredItems : List Json → Except ReadError (List Value)
  | [] => .ok []
  | item :: items => do
    let value ← toStored item
    return value :: (← toStoredItems items)

/-- Reads the fields of an object of `size` keys behind those read before.  Code may have
a scope next to it, in either order. -/
def toStoredObject (size : Nat) (before : Document) :
    List (String × Json) → Except ReadError Value
  | [] => .ok (.document before)
  | ("$code", item) :: fields => do
    let code ← readText item
    match fields with
    | [] => return .javaScript code
    | ("$scope", scope) :: left =>
      endObject size left (.scopedJavaScript code (← toStoredDocument scope))
    | (key, _) :: _ => throw (.unknownField key ["$scope"])
  | ("$scope", scope) :: fields => do
    let scope ← toStoredDocument scope
    match fields with
    | [] => throw (.missingField "$code")
    | ("$code", item) :: left => endObject size left (.scopedJavaScript (← readText item) scope)
    | (key, _) :: _ => throw (.unknownField key ["$code"])
  | (key, item) :: fields =>
    match Fields.get? key reserved with
    | some read => do
      let value ← read item
      endObject size fields value
    | none => do
      let value ← toStored item
      toStoredObject size (before ++ [(key, value)]) fields

def toStoredDocument : Json → Except ReadError Document
  | .object fields => do
    match ← toStoredObject fields.length [] fields with
    | .document record => return record
    | other =>
      throw (.invalidType (.object fields)
        ("expected document, found extended JSON data type: " ++ other.display))
  | found => .error (.invalidType found "a Bson")

end

end DocumentStore.Json
