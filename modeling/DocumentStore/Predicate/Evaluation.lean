import DocumentStore.Failure
import DocumentStore.Path
import DocumentStore.Predicate.Basic
import DocumentStore.Value.Comparand

/-!
# Evaluation of predicates

A test of an array holds when it holds of the array or of one of its elements.  A
missing field equals null only, so negated tests accept records without the field.
Children are evaluated from the left and only as far as needed.
-/

namespace DocumentStore

namespace Value

def testedValues (value : Value) : List Comparand :=
  value.comparand ::
    match value with
    | .array items => items.map comparand
    | _ => []

end Value

namespace Comparison

/-- Whether a tested value equals the wanted one; a missing field is like null. -/
def foundEqual (found : Option Value) (value : Value) : Bool :=
  match found with
  | some stored => stored.testedValues.any fun candidate => candidate.equal value.comparand
  | none => value.comparand.equal .null

def foundOrdered (found : Option Value) (value : Value) (accepts : Ordering → Bool) : Bool :=
  match found with
  | some stored =>
    stored.testedValues.any fun candidate =>
      match candidate.order? value.comparand with
      | some ordering => accepts ordering
      | none => false
  | none => false

/-- Whether a field with this value, or without one, passes the test. -/
def holds (op : Comparison) (found : Option Value) (value : Value) : Bool :=
  match op with
  | .eq => foundEqual found value
  | .ne => !foundEqual found value
  | .oneOf => value.members.any (foundEqual found)
  | .noneOf => !value.members.any (foundEqual found)
  | .allOf => !value.members.isEmpty && value.members.all (foundEqual found)
  | .gt => foundOrdered found value (· == .gt)
  | .gte => foundOrdered found value (· != .lt)
  | .lt => foundOrdered found value (· == .lt)
  | .lte => foundOrdered found value (· != .gt)

end Comparison

namespace Pattern

/-- The engine's diagnostic stands behind the text that it refuses. -/
def invalidError (regex : String) (diagnostic : Option String) : Failure :=
  .badRequest ("invalid pattern '" ++ regex ++ "'" ++ (diagnostic.map (": " ++ ·)).getD "")

def isFoundIn (test : String → Bool) (stored : Value) : Bool :=
  stored.testedValues.any fun candidate =>
    match candidate with
    | .text s => test s
    | _ => false

/-- The text of the pattern is read only for a field that is present. -/
def accepts (reader : PatternReader) (regex : String) : Option Value → Except Failure Bool
  | none => .ok false
  | some stored =>
    match reader regex with
    | .error diagnostic => .error (invalidError regex diagnostic)
    | .ok test => .ok (isFoundIn test stored)

end Pattern

namespace Predicate

def unrecognizedError (text : String) : Failure :=
  .badRequest ("unrecognized filter expression '" ++ text ++ "'")

mutual

def evaluate (reader : PatternReader) (record : Document) : Predicate → Except Failure Bool
  | .matchAll => .ok true
  | .and children => evaluateAll reader record children
  | .or children => evaluateAny reader record children
  | .nor children => (evaluateAny reader record children).map (!·)
  | .not child => (evaluate reader record child).map (!·)
  | .compare field op value => .ok (op.holds (Document.valueOf? field record) value)
  | .pattern field _ regex => Pattern.accepts reader regex (Document.valueOf? field record)
  | .unrecognized text => .error (unrecognizedError text)

/-- Stops at the first child that is false or fails. -/
def evaluateAll (reader : PatternReader) (record : Document) : List Predicate → Except Failure Bool
  | [] => .ok true
  | child :: children =>
    match evaluate reader record child with
    | .ok true => evaluateAll reader record children
    | .ok false => .ok false
    | .error error => .error error

def evaluateAny (reader : PatternReader) (record : Document) : List Predicate → Except Failure Bool
  | [] => .ok false
  | child :: children =>
    match evaluate reader record child with
    | .ok true => .ok true
    | .ok false => evaluateAny reader record children
    | .error error => .error error

end

end Predicate

end DocumentStore
