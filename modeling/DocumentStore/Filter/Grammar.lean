import DocumentStore.Filter.Token

/-!
# Grammar of a filter

```text
filter     := nors ( OR nors )*
nors       := ands ( NOR ands )*
ands       := operand ( AND operand )*
operand    := NOT operand | segment
segment    := field OPERATOR value
```

A segment runs up to the next connective, and its first operator parts the field
from the value.  A segment without an operator becomes an unrecognized leaf.
-/

namespace DocumentStore.Filter

/-- A filter as a caller gives it. -/
inductive Source where
  | empty
  | text (source : String)
  | prebuilt (tree : Predicate)

instance : Inhabited Source := ⟨.empty⟩

/-! ## Values of a segment -/

def enclosed? (opening closing : Char) : List Char → Option (List Char)
  | [] => none
  | c :: rest => if c = opening then Text.dropEnd? closing rest else none

/-- The elements of a list, cut at commas outside of quotes.  A quote opens only at the
start of an element and only where it is closed later on.  The element read so far
is kept in reverse. -/
def cutElements (quote : Option Char) (element : List Char) : List Char → List (List Char)
  | [] => [element.reverse]
  | c :: rest =>
    match quote with
    | some q => cutElements (if c = q then none else some q) (c :: element) rest
    | none =>
      if Literal.isQuote c && element.all Text.isBlank && rest.contains c then
        cutElements (some c) (c :: element) rest
      else if c = ',' then element.reverse :: cutElements none [] rest
      else cutElements none (c :: element) rest

def elements (value : List Char) : List (List Char) :=
  let inner :=
    ((enclosed? '(' ')' value).or (enclosed? '[' ']' value)).getD value
  ((cutElements none [] inner).map Text.trim).filter (!·.isEmpty)

def elementValues (value : List Char) : List Value :=
  (elements value).map fun element => (Literal.ofToken element).value

/-! ## Leaves -/

/-- Cuts a percent sign off each end of a text, the front one first. -/
def cutWildcards (text : List Char) : Wildcards × List Char :=
  match text with
  | '%' :: rest =>
    match Text.dropEnd? '%' rest with
    | some inner => (.bothEnds, inner)
    | none => (.atStart, rest)
  | rest =>
    match Text.dropEnd? '%' rest with
    | some inner => (.atEnd, inner)
    | none => (.nowhere, rest)

def textTest (field value : List Char) : Predicate :=
  let (wildcards, inner) := cutWildcards (Literal.ofToken value).text.toList
  .pattern (String.ofList field) wildcards (String.ofList (wildcards.anchored inner))

def condition (field : List Char) (op : Operator) (value : List Char) : Predicate :=
  match op with
  | .like => textTest field value
  | .comparison op =>
    if op.isMembership then .compare (String.ofList field) op (.array (elementValues value))
    else .compare (String.ofList field) op (Literal.ofToken value).value

/-! ## Segments -/

def splitAtOperator : List Token → Option (List Token × Operator × List Token)
  | [] => none
  | token :: rest =>
    match token.kind with
    | .operator op => some ([], op, rest)
    | _ => (splitAtOperator rest).map fun (before, op, behind) => (token :: before, op, behind)

def segment (tokens : List Token) : Predicate :=
  match splitAtOperator tokens with
  | some (before, op, behind) =>
    condition (Text.trim (sourceText before)) op (Text.trim (sourceText behind))
  | none => .unrecognized (String.ofList (Text.trim (sourceText tokens)))

/-! ## Descent -/

abbrev Reader (α : Type) :=
  (tokens : List Token) → α × { rest : List Token // rest.length ≤ tokens.length }

def Token.isConnective (token : Token) : Bool :=
  match token.kind with
  | .connective _ => true
  | _ => false

def readSegment : Reader Predicate := fun tokens =>
  (segment (tokens.takeWhile (!·.isConnective)),
    ⟨tokens.dropWhile (!·.isConnective), (List.dropWhile_sublist _).length_le⟩)

def readOperand : Reader Predicate
  | [] => readSegment []
  | token :: rest =>
    if token.kind = .not then
      let (operand, ⟨last, h⟩) := readOperand rest
      (.not operand, ⟨last, Nat.le_succ_of_le h⟩)
    else readSegment (token :: rest)

/-- Operands with the same connective between them. -/
def readChain (connective : Connective) (operand : Reader Predicate) :
    Reader (List Predicate) := fun tokens =>
  match operand tokens with
  | (first, ⟨[], h⟩) => ([first], ⟨[], h⟩)
  | (first, ⟨token :: rest, h⟩) =>
    if token.kind = .connective connective then
      let (others, ⟨last, h'⟩) := readChain connective operand rest
      (first :: others, ⟨last, by simp at h; omega⟩)
    else ([first], ⟨token :: rest, h⟩)
termination_by tokens => tokens.length
decreasing_by simp at h; omega

/-- One operand stands for itself, more become the children of one node. -/
def combine (node : List Predicate → Predicate) : List Predicate → Predicate
  | [operand] => operand
  | operands => node operands

def readAnds : Reader Predicate := fun tokens =>
  let (operands, rest) := readChain .and readOperand tokens
  (combine .and operands, rest)

def readNors : Reader Predicate := fun tokens =>
  let (operands, rest) := readChain .nor readAnds tokens
  (combine .nor operands, rest)

def readOrs : Reader Predicate := fun tokens =>
  let (operands, rest) := readChain .or readNors tokens
  (combine .or operands, rest)

/-! ## Whole filters -/

/-- A blank text matches every record. -/
def parse (source : List Char) : Predicate :=
  if source.all Text.isBlank then .matchAll else (readOrs (tokens source)).1

def Source.tree : Source → Predicate
  | .empty => .matchAll
  | .prebuilt tree => tree
  | .text source => parse source.toList

end DocumentStore.Filter
