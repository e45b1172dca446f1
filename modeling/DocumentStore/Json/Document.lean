import DocumentStore.Json.Basic
import DocumentStore.Value.Extended

/-!
# Documents and JSON

Writing keeps the kind of a value in extended JSON, but neither the width of an integer
nor a number that is not finite.  A payload is read with every integer wide and every
object of a reserved form as its value.
-/

namespace DocumentStore

/-! ## Writing -/

mutual

def Value.toJson : Value → Json
  | .null => .null
  | .bool b => .bool b
  | .int32 n => .int n.toInt
  | .int64 n => .int n.toInt
  | .double x => if x.isNaN || x.isInfinite then .null else .float x
  | .decimal x => .object [("$numberDecimalBytes", ofBytes x.bytes)]
  | .string s => .string s
  | .objectId id => .object [("$oid", .string id.toHex)]
  | .dateTime ms =>
    .object [("$date", .object [("$numberLong", .string (String.ofList (Decimal.ofInt ms.toInt)))])]
  | .timestamp time increment =>
    .object [("$timestamp", .object [("t", .int time.toNat), ("i", .int increment.toNat)])]
  | .binary subtype bytes =>
    if subtype = 0 then ofBytes bytes
    else
      .object [("$binary", .object
        [("base64", .string (String.ofList (Text.Base64.encode bytes))),
          ("subType", .string (String.ofList (Text.Hex.encodeBytes [subtype])))])]
  | .symbol name => .object [("$symbol", .string name)]
  | .javaScript code => .object [("$code", .string code)]
  | .regularExpression pattern options =>
    .object [("$regularExpression", .object
      [("pattern", .string pattern), ("options", .string options)])]
  | .pointer collection id =>
    .object [("$dbPointer", .object
      [("$ref", .string collection), ("$id", .object [("$oid", .string id.toHex)])])]
  | .undefined => .object [("$undefined", .bool true)]
  | .minKey => .object [("$minKey", .int 1)]
  | .maxKey => .object [("$maxKey", .int 1)]
  | .array items => .array (Value.toJsonItems items)
  | .document fields => .object (Value.toJsonFields fields)
  | .scopedJavaScript code scope =>
    .object [("$code", .string code), ("$scope", .object (Value.toJsonFields scope))]
where
  ofBytes (bytes : List UInt8) : Json := .array (bytes.map fun byte => .int byte.toNat)

def Value.toJsonItems : List Value → List Json
  | [] => []
  | value :: values => value.toJson :: Value.toJsonItems values

def Value.toJsonFields : List (String × Value) → List (String × Json)
  | [] => []
  | (key, value) :: fields => (key, value.toJson) :: Value.toJsonFields fields

end

/-! ## Reading a payload -/

namespace Json

def tooLarge (n : Int) : String :=
  "BSON error. Kind: Unsigned integer " ++ String.ofList (Decimal.ofInt n)
    ++ " cannot fit into BSON."

mutual

def toValue : Json → Except String Value
  | .null => .ok .null
  | .bool b => .ok (.bool b)
  | .int n => if n ≤ Int64.maxValue.toInt then .ok (.int64 (Int64.ofInt n)) else .error (tooLarge n)
  | .float x => .ok (.double x)
  | .string s => .ok (.string s)
  | .array items => (toValues items).map .array
  | .object fields => (toFields fields).map .ofDocument

def toValues : List Json → Except String (List Value)
  | [] => .ok []
  | item :: items => do
    let value ← toValue item
    return value :: (← toValues items)

def toFields : List (String × Json) → Except String (List (String × Value))
  | [] => .ok []
  | (key, item) :: fields => do
    let value ← toValue item
    return (key, value) :: (← toFields fields)

end

end Json

end DocumentStore
