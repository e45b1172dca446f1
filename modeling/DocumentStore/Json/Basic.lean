import DocumentStore.Fields
import DocumentStore.Number.Numeral
import DocumentStore.Number.Shortest
import DocumentStore.Text.Hex

/-!
# JSON values

Objects keep the order of their keys.  A number is an integer of 64 bits, signed or
unsigned, or a finite double.
-/

namespace DocumentStore

inductive Json where
  | null
  | bool (b : Bool)
  | int (n : Int)
  | float (x : Binary64)
  | string (s : String)
  | array (items : List Json)
  | object (fields : List (String × Json))

namespace Json

instance : Inhabited Json := ⟨.null⟩

/-! ## Writing -/

/-- From `1e-5` up to below `1e16` without an exponent, and always with a fraction or
an exponent. -/
def floatLayout : Binary64.Layout where
  tie := .even
  positional := fun exponent => -5 ≤ exponent && exponent < 16
  wholeMark := ".0"
  nan := "null"
  infinity := "null"

def floatText (x : Binary64) : String := x.format floatLayout

/-- A character inside a string: quotes, backslashes and control characters are escaped. -/
def escapeChar (c : Char) : List Char :=
  if c = '"' then ['\\', '"']
  else if c = '\\' then ['\\', '\\']
  else if c = '\n' then ['\\', 'n']
  else if c = '\r' then ['\\', 'r']
  else if c = '\t' then ['\\', 't']
  else if c = '\x08' then ['\\', 'b']
  else if c = '\x0c' then ['\\', 'f']
  else if c.toNat < 0x20 then '\\' :: 'u' :: Text.Hex.encode 4 c.toNat
  else [c]

def stringText (s : String) : String :=
  "\"" ++ String.ofList (s.toList.flatMap escapeChar) ++ "\""

mutual

def text : Json → String
  | .null => "null"
  | .bool b => if b then "true" else "false"
  | .int n => String.ofList (Decimal.ofInt n)
  | .float x => floatText x
  | .string s => stringText s
  | .array items => "[" ++ String.intercalate "," (itemTexts items) ++ "]"
  | .object fields => "\x7b" ++ String.intercalate "," (fieldTexts fields) ++ "\x7d"

def itemTexts : List Json → List String
  | [] => []
  | item :: items => item.text :: itemTexts items

def fieldTexts : List (String × Json) → List String
  | [] => []
  | (key, value) :: fields => (stringText key ++ ":" ++ value.text) :: fieldTexts fields

end

end Json

end DocumentStore
