import DocumentStore.Number.Numeral
import DocumentStore.Number.Shortest
import DocumentStore.Text.Blank
import DocumentStore.Value.Basic

/-!
# Literals

The scalar that an unquoted token of a filter or of an identifier list stands for.
Quotes make a string; the canonical text of a 64-bit integer is that integer; any
other numeral is a double; `true` and `false` are Booleans in any case.
-/

namespace DocumentStore

inductive Literal where
  | int (n : Int64)
  | float (x : Binary64)
  | bool (b : Bool)
  | string (s : String)
deriving DecidableEq, Repr

namespace Literal

def isQuote (c : Char) : Bool := c == '\'' || c == '"'

/-- The text between two equal quotes at the ends of a token. -/
def quotedText? : List Char → Option (List Char)
  | [] => none
  | quote :: rest =>
    if isQuote quote then Text.dropEnd? quote rest else none

/-- A numeral: optional sign, digits with an optional point, optional exponent. -/
def isNumeral (token : List Char) : Bool := (Numeral.read? token).isSome

/-- An integer of 64 bits whose canonical text is the token. -/
def canonicalInt? (token : List Char) : Option Int64 :=
  match Numeral.read? token with
  | none => none
  | some numeral =>
    let size : Int := Decimal.ofDigits numeral.whole
    let n := if numeral.negative then -size else size
    if Int64.minValue.toInt ≤ n ∧ n ≤ Int64.maxValue.toInt ∧ Decimal.ofInt n = token then
      some (Int64.ofInt n)
    else none

def ofToken (token : List Char) : Literal :=
  match quotedText? token with
  | some inner => .string (String.ofList inner)
  | none =>
    match canonicalInt? token with
    | some n => .int n
    | none =>
      match Numeral.read? token with
      | some numeral => .float numeral.value
      | none =>
        if Text.lower token = ['t', 'r', 'u', 'e'] then .bool true
        else if Text.lower token = ['f', 'a', 'l', 's', 'e'] then .bool false
        else .string (String.ofList token)

/-- The value of a literal; an integer takes the narrower width that holds it. -/
def value : Literal → Value
  | .int n => .ofInt64 n
  | .float x => .double x
  | .bool b => .bool b
  | .string s => .string s

def text : Literal → String
  | .int n => String.ofList (Decimal.ofInt n.toInt)
  | .float x => x.plain
  | .bool b => if b then "true" else "false"
  | .string s => s

end Literal

end DocumentStore
