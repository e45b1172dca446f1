import DocumentStore.Fields
import DocumentStore.Number.Binary64
import DocumentStore.Number.Decimal128
import DocumentStore.Value.ObjectId

/-!
# Document values

A value is a scalar, code with a scope of its own, an array, or a document with ordered
fields.  A record is a document.
-/

namespace DocumentStore

inductive Value where
  | null
  | bool (b : Bool)
  | int32 (n : Int32)
  | int64 (n : Int64)
  | double (x : Binary64)
  | decimal (x : Decimal128)
  | string (s : String)
  | objectId (id : ObjectId)
  | dateTime (milliseconds : Int64)
  | timestamp (time increment : UInt32)
  /-- The subtype says what the bytes stand for, and 0 is the general one. -/
  | binary (subtype : UInt8) (bytes : List UInt8)
  | symbol (name : String)
  | javaScript (code : String)
  | regularExpression (pattern options : String)
  /-- The record of a collection that is named with its database. -/
  | pointer (collection : String) (id : ObjectId)
  | undefined
  | minKey
  | maxKey
  | array (items : List Value)
  | document (fields : List (String × Value))
  | scopedJavaScript (code : String) (scope : List (String × Value))

abbrev Document := Fields Value

instance : Inhabited Value := ⟨.null⟩

namespace Value

def integer? : Value → Option Int
  | .int32 n => some n.toInt
  | .int64 n => some n.toInt
  | _ => none

def ofInt64 (n : Int64) : Value :=
  if Int32.minValue.toInt ≤ n.toInt ∧ n.toInt ≤ Int32.maxValue.toInt then
    .int32 (Int32.ofInt n.toInt)
  else .int64 n

def isNull : Value → Bool
  | .null => true
  | _ => false

def members : Value → List Value
  | .array items => items
  | value => [value]

end Value

end DocumentStore
