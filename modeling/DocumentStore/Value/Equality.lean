import DocumentStore.Value.Basic

/-!
# Equality of values by kind and content

Two values are the same when kind and content agree: integers of different width
differ, a NaN differs from itself, and the order of a document's fields is no part
of its content.
-/

namespace DocumentStore.Value

mutual

def same : Value → Value → Bool
  | .null, .null => true
  | .bool a, .bool b => a == b
  | .int32 a, .int32 b => a == b
  | .int64 a, .int64 b => a == b
  | .double a, .double b => a.equal b
  | .decimal a, .decimal b => a == b
  | .string a, .string b => a == b
  | .objectId a, .objectId b => a == b
  | .dateTime a, .dateTime b => a == b
  | .timestamp a i, .timestamp b j => a == b && i == j
  | .binary s a, .binary t b => s == t && a == b
  | .symbol a, .symbol b => a == b
  | .javaScript a, .javaScript b => a == b
  | .regularExpression a s, .regularExpression b t => a == b && s == t
  | .pointer a i, .pointer b j => a == b && i == j
  | .undefined, .undefined => true
  | .minKey, .minKey => true
  | .maxKey, .maxKey => true
  | .array a, .array b => sameItems a b
  | .document a, .document b => a.length == b.length && sameFields a b
  | .scopedJavaScript a s, .scopedJavaScript b t =>
    a == b && s.length == t.length && sameFields s t
  | _, _ => false

def sameItems : List Value → List Value → Bool
  | [], [] => true
  | a :: as, b :: bs => same a b && sameItems as bs
  | _, _ => false

def sameFields : List (String × Value) → Document → Bool
  | [], _ => true
  | (key, a) :: fields, other =>
    (match Fields.get? key other with
      | some b => same a b
      | none => false)
    && sameFields fields other

end

end DocumentStore.Value
