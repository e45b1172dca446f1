import DocumentStore.Predicate.Pattern
import DocumentStore.Value.Equality

/-!
# Predicates

A predicate is a tree of conditions on records.  A segment of a filter without an
operator is kept as an unrecognized leaf, which no store accepts.
-/

namespace DocumentStore

/-- The tests of one field against a value. -/
inductive Comparison where
  | eq
  | ne
  | gt
  | gte
  | lt
  | lte
  | oneOf
  | noneOf
  | allOf
deriving DecidableEq, Repr

def Comparison.names : List (String × Comparison) :=
  [("eq", .eq), ("ne", .ne), ("gt", .gt), ("gte", .gte), ("lt", .lt), ("lte", .lte),
    ("in", .oneOf), ("nin", .noneOf), ("all", .allOf)]

def Comparison.isMembership : Comparison → Bool
  | .oneOf | .noneOf | .allOf => true
  | _ => false

inductive Predicate where
  | matchAll
  | and (children : List Predicate)
  | or (children : List Predicate)
  | nor (children : List Predicate)
  | not (child : Predicate)
  | compare (field : String) (op : Comparison) (value : Value)
  | pattern (field : String) (kind : Wildcards) (regex : String)
  | unrecognized (text : String)

instance : Inhabited Predicate := ⟨.matchAll⟩

namespace Predicate

/-! ## Building trees -/

/-- A test of a field; the value of a membership test is put into a list if it is none. -/
def test (field : String) (op : Comparison) (value : Value) : Predicate :=
  if op.isMembership then .compare field op (.array value.members) else .compare field op value

def oneOf (field : String) (values : List Value) : Predicate :=
  .compare field .oneOf (.array values)

def conj (p q : Predicate) : Predicate :=
  match p with
  | .and children => .and (children ++ [q])
  | p => .and [p, q]

def disj (p q : Predicate) : Predicate :=
  match p with
  | .or children => .or (children ++ [q])
  | p => .or [p, q]

def acceptsAll : Predicate → Bool
  | .matchAll => true
  | _ => false

/-! ## Unrecognized leaves -/

mutual

def unrecognized? : Predicate → Option String
  | .unrecognized text => some text
  | .and children => firstUnrecognized? children
  | .or children => firstUnrecognized? children
  | .nor children => firstUnrecognized? children
  | .not child => child.unrecognized?
  | _ => none

def firstUnrecognized? : List Predicate → Option String
  | [] => none
  | child :: children =>
    match child.unrecognized? with
    | some text => some text
    | none => firstUnrecognized? children

end

/-! ## Equality -/

mutual

/-- Equality of trees, with values compared by kind and content. -/
def same : Predicate → Predicate → Bool
  | .matchAll, .matchAll => true
  | .and ps, .and qs => sameAll ps qs
  | .or ps, .or qs => sameAll ps qs
  | .nor ps, .nor qs => sameAll ps qs
  | .not p, .not q => same p q
  | .compare f op v, .compare g op' w => f == g && op == op' && v.same w
  | .pattern f k r, .pattern g k' r' => f == g && k == k' && r == r'
  | .unrecognized s, .unrecognized t => s == t
  | _, _ => false

def sameAll : List Predicate → List Predicate → Bool
  | [], [] => true
  | p :: ps, q :: qs => same p q && sameAll ps qs
  | _, _ => false

end

end Predicate

end DocumentStore
