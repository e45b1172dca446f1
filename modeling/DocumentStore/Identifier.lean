import DocumentStore.Literal
import DocumentStore.Value.Display
import DocumentStore.Value.Equality

/-!
# Identifiers

A text of 24 hexadecimal digits is a native identifier, and any other value stands
for itself.  Records are stored with native identifiers and shown with their
hexadecimal text.
-/

namespace DocumentStore

inductive Identifier where
  | native (id : ObjectId)
  | external (value : Value)

namespace Identifier

/-- The field that callers may use in place of the identifier field. -/
def aliasField : String := "id"

/-- The value that addresses the record in a store. -/
def stored : Identifier → Value
  | .native id => .objectId id
  | .external value => value

def shown : Identifier → Value
  | .native id => .string id.toHex
  | .external value => value

def display : Identifier → String
  | .native id => id.toHex
  | .external (.string s) => s
  | .external value => value.display

/-! ## Normal form -/

/-- The identifier that a text stands for; with `typed`, what is not hexadecimal is read as
an unquoted literal. -/
def ofText (typed : Bool) (text : List Char) : Identifier :=
  match ObjectId.ofHex? text with
  | some id => .native id
  | none =>
    if typed then .external (Literal.ofToken text).value
    else .external (.string (String.ofList text))

def ofValue (typed : Bool) : Value → Identifier
  | .objectId id => .native id
  | .string s => ofText typed s.toList
  | value => .external value

def asNumber? : Identifier → Option Identifier
  | .external (.string s) =>
    match Literal.ofToken s.toList with
    | .int n => some (.external (Literal.int n).value)
    | .float x => some (.external (Literal.float x).value)
    | _ => none
  | _ => none

/-! ## Equality of stored identifiers -/

/-- Integers are compared exactly with each other and through binary64 with a double;
all else has to be the same value. -/
def sameStored (stored wanted : Value) : Bool :=
  match stored.integer?, wanted.integer? with
  | some a, some b => a == b
  | some a, none =>
    match wanted with
    | .double x => (Binary64.ofInt a).equal x
    | _ => false
  | none, some b =>
    match stored with
    | .double x => (Binary64.ofInt b).equal x
    | _ => false
  | none, none => stored.same wanted

/-! ## Identifiers of records -/

/-- The identifier under the identifier field, else under the alias. -/
def ofRecord? (idField : String) (record : Document) : Option Identifier :=
  ((Fields.get? idField record).or (Fields.get? aliasField record)).map (ofValue false)

/-- The record with its identifier in stored form under the identifier field; an alias
in use is given up. -/
def storedRecord (idField : String) (record : Document) : Document :=
  match Fields.get? idField record with
  | some value => Fields.insert idField (ofValue false value).stored record
  | none =>
    match Fields.get? aliasField record with
    | some value =>
      Fields.insert idField (ofValue false value).stored (Fields.erase aliasField record)
    | none => record

def shownValue : Value → Value
  | .objectId id => .string id.toHex
  | value => value

/-- The record with its identifier in the form shown to callers. -/
def shownRecord (idField : String) (record : Document) : Document :=
  match Fields.get? idField record with
  | some value => Fields.insert idField (shownValue value) record
  | none =>
    match Fields.get? aliasField record with
    | some value => Fields.insert aliasField (shownValue value) record
    | none => record

end Identifier

/-! ## Lists of identifiers -/

inductive IdentifierList where
  | delimited (text : String)
  | values (items : List Value)

namespace IdentifierList

/-- A string is a delimited list, an array its elements, and all else one value. -/
def ofValue : Value → IdentifierList
  | .string s => .delimited s
  | .array items => .values items
  | value => .values [value]

def isSeparator (c : Char) : Bool := c == ',' || Text.isBlank c

def elements (text : List Char) : List (List Char) :=
  ((Text.splitOn ',' (Text.trimWhere isSeparator text)).map Text.trim).filter (!·.isEmpty)

/-- Delimited elements are typed as literals, and given values are kept. -/
def identifiers : IdentifierList → List Identifier
  | .delimited text => (elements text.toList).map (Identifier.ofText true)
  | .values items => items.map (Identifier.ofValue false)

def isEmpty (ids : IdentifierList) : Bool := ids.identifiers.isEmpty

end IdentifierList

end DocumentStore
