import DocumentStore.Predicate.Evaluation
import DocumentStore.Projection
import DocumentStore.Sort

/-!
# MongoDB queries

The query, projection and sort documents for a predicate, a projection and a sort
specification.  A negation is written as a `$nor` of one condition, since `$not`
takes operators only.
-/

namespace DocumentStore.Mongo

def operatorKey : Comparison → String
  | .eq => "$eq"
  | .ne => "$ne"
  | .gt => "$gt"
  | .gte => "$gte"
  | .lt => "$lt"
  | .lte => "$lte"
  | .oneOf => "$in"
  | .noneOf => "$nin"
  | .allOf => "$all"

def operand (op : Comparison) (value : Value) : Value :=
  if op.isMembership then .array value.members else value

def condition (field operator : String) (value : Value) : Document :=
  [(field, .document [(operator, value)])]

mutual

def query : Predicate → Except Failure Document
  | .matchAll => .ok []
  | .and children => (queries children).map fun items => [("$and", .array items)]
  | .or children => (queries children).map fun items => [("$or", .array items)]
  | .nor children => (queries children).map fun items => [("$nor", .array items)]
  | .not child => (query child).map fun item => [("$nor", .array [.document item])]
  | .compare field op value => .ok (condition field (operatorKey op) (operand op value))
  | .pattern field _ regex => .ok (condition field "$regex" (.string regex))
  | .unrecognized text => .error (Predicate.unrecognizedError text)

def queries : List Predicate → Except Failure (List Value)
  | [] => .ok []
  | child :: children => do
    let item ← query child
    return .document item :: (← queries children)

end

/-- Nothing when every field is selected. -/
def projectionDocument? : Projection → Option Document
  | .all => none
  | .fields paths => some (Fields.ofList (paths.map fun path => (path, .int32 1)))

def directionNumber : Direction → Int32
  | .asc => 1
  | .desc => -1

/-- Nothing without a sort key; of a field that is repeated the first place and the last
direction remain. -/
def sortDocument? (sort : SortOrder) : Option Document :=
  if sort.isEmpty then none
  else some (Fields.ofList (sort.map fun key =>
    (key.field, .int32 (directionNumber key.direction))))

end DocumentStore.Mongo
