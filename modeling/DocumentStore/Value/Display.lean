import DocumentStore.Number.Shortest
import DocumentStore.Number.Numeral
import DocumentStore.Text.Base64
import DocumentStore.Value.Basic

/-!
# Text of a value in messages

Strings stand in quotes without any escape, and a double has the fewest digits that
read back, never an exponent.
-/

namespace DocumentStore.Value

def commaSeparated (items : List String) : String := String.intercalate ", " items

def quoted (s : String) : String := "\"" ++ s ++ "\""

mutual

def display : Value → String
  | .null => "null"
  | .bool b => if b then "true" else "false"
  | .int32 n => String.ofList (Decimal.ofInt n.toInt)
  | .int64 n => String.ofList (Decimal.ofInt n.toInt)
  | .double x => x.plain
  | .decimal x => x.text
  | .string s => quoted s
  | .objectId id => "ObjectId(" ++ quoted id.toHex ++ ")"
  | .dateTime ms => "DateTime(" ++ String.ofList (Decimal.ofInt ms.toInt) ++ ")"
  | .timestamp time increment =>
    "Timestamp(" ++ String.ofList (Decimal.ofNat time.toNat) ++ ", "
      ++ String.ofList (Decimal.ofNat increment.toNat) ++ ")"
  | .binary subtype bytes =>
    "Binary(0x" ++ String.ofList (Nat.toDigits 16 subtype.toNat) ++ ", "
      ++ String.ofList (Text.Base64.encode bytes) ++ ")"
  | .symbol name => "Symbol(" ++ quoted name ++ ")"
  | .javaScript code => code
  | .regularExpression pattern options => "/" ++ pattern ++ "/" ++ options
  | .pointer collection id => "DbPointer(" ++ collection ++ ", " ++ id.toHex ++ ")"
  | .scopedJavaScript code _ => code
  | .undefined => "undefined"
  | .minKey => "MinKey"
  | .maxKey => "MaxKey"
  | .array items => "[" ++ commaSeparated (displayItems items) ++ "]"
  | .document [] => "\x7b\x7d"
  | .document (field :: fields) =>
    "\x7b " ++ commaSeparated (displayFields (field :: fields)) ++ " \x7d"

def displayItems : List Value → List String
  | [] => []
  | value :: values => value.display :: displayItems values

def displayFields : List (String × Value) → List String
  | [] => []
  | (key, value) :: fields => (quoted key ++ ": " ++ value.display) :: displayFields fields

end

end DocumentStore.Value
