import DocumentStore.Value.Basic

/-!
# Comparison of stored values

A comparand is what the store sees of a value when it filters, sorts and looks for
duplicate identifiers.  The width of an integer is gone, and kinds without an order
of their own count as null.  Integers compare exactly with each other and through
binary64 with a double.
-/

namespace DocumentStore

inductive Comparand where
  | null
  | bool (b : Bool)
  | int (n : Int)
  | double (x : Binary64)
  | text (s : String)
  | objectId (id : ObjectId)
  | dateTime (milliseconds : Int)
  | list (items : List Comparand)
  | document (fields : List (String × Comparand))

mutual

def Value.comparand : Value → Comparand
  | .bool b => .bool b
  | .int32 n => .int n.toInt
  | .int64 n => .int n.toInt
  | .double x => .double x
  | .string s => .text s
  | .objectId id => .objectId id
  | .dateTime ms => .dateTime ms.toInt
  | .array items => .list (Value.comparandItems items)
  | .document fields => .document (Value.comparandFields fields)
  | _ => .null

def Value.comparandItems : List Value → List Comparand
  | [] => []
  | value :: values => value.comparand :: Value.comparandItems values

def Value.comparandFields : List (String × Value) → List (String × Comparand)
  | [] => []
  | (key, value) :: fields => (key, value.comparand) :: Value.comparandFields fields

end

namespace Comparand

/-! ## Equality -/

mutual

def equal : Comparand → Comparand → Bool
  | .null, .null => true
  | .bool a, .bool b => a == b
  | .int a, .int b => a == b
  | .int a, .double b => (Binary64.ofInt a).equal b
  | .double a, .int b => (Binary64.ofInt b).equal a
  | .double a, .double b => a.equal b
  | .text a, .text b => a == b
  | .objectId a, .objectId b => a == b
  | .dateTime a, .dateTime b => a == b
  | .list a, .list b => equalItems a b
  | .document a, .document b => a.length == b.length && equalFields a b
  | _, _ => false

def equalItems : List Comparand → List Comparand → Bool
  | [], [] => true
  | a :: as, b :: bs => equal a b && equalItems as bs
  | _, _ => false

def equalFields : List (String × Comparand) → Fields Comparand → Bool
  | [], _ => true
  | (key, a) :: fields, other =>
    (match Fields.get? key other with
      | some b => equal a b
      | none => false)
    && equalFields fields other

end

/-! ## Order -/

/-- The order of two comparands of one kind; lists, documents and nulls have none. -/
def order? : Comparand → Comparand → Option Ordering
  | .bool a, .bool b => some (compare a b)
  | .int a, .int b => some (compare a b)
  | .int a, .double b => (Binary64.ofInt a).compare? b
  | .double a, .int b => a.compare? (Binary64.ofInt b)
  | .double a, .double b => a.compare? b
  | .text a, .text b => some (compare a b)
  | .objectId a, .objectId b => some (a.order b)
  | .dateTime a, .dateTime b => some (compare a b)
  | _, _ => none

/-- The place of a kind among the others when records are sorted. -/
def kindRank : Comparand → Nat
  | .null => 0
  | .int _ => 1
  | .double _ => 1
  | .text _ => 2
  | .document _ => 3
  | .list _ => 4
  | .objectId _ => 5
  | .bool _ => 6
  | .dateTime _ => 7

/-- First by kind, then by value; what has no order ranks equal. -/
def ranking (a b : Comparand) : Ordering :=
  (compare a.kindRank b.kindRank).then ((a.order? b).getD .eq)

end Comparand

end DocumentStore
