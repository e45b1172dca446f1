import DocumentStore.Predicate.Evaluation

/-!
# Evaluators

An evaluator tests records one after the other.  It keeps the patterns that it has read, by
their texts, so that a scan reads the text of a pattern once for all records.
-/

namespace DocumentStore

structure Evaluator where
  patterns : Fields (String → Bool) := []

namespace Evaluator

/-! ## Patterns -/

/-- Reads the text of a pattern, unless it is kept already. -/
def keep (evaluator : Evaluator) (reader : PatternReader) (regex : String) :
    Except Failure Evaluator :=
  if Fields.contains regex evaluator.patterns then .ok evaluator
  else
    match reader regex with
    | .error diagnostic => .error (Pattern.invalidError regex diagnostic)
    | .ok test => .ok { patterns := Fields.insert regex test evaluator.patterns }

def kept (evaluator : Evaluator) (regex : String) : Except Failure (String → Bool) :=
  match Fields.get? regex evaluator.patterns with
  | some test => .ok test
  | none => .error (.store ("pattern '" ++ regex ++ "' was not cached"))

/-- The test of a field against a pattern, which is looked up only for a field that is
present. -/
def testPattern (evaluator : Evaluator) (reader : PatternReader) (regex : String) :
    Option Value → Except Failure Bool × Evaluator
  | none => (.ok false, evaluator)
  | some stored =>
    match evaluator.keep reader regex with
    | .error failure => (.error failure, evaluator)
    | .ok evaluator => ((evaluator.kept regex).map (Pattern.isFoundIn · stored), evaluator)

/-! ## Trees -/

def negated (answered : Except Failure Bool × Evaluator) : Except Failure Bool × Evaluator :=
  (answered.1.map (!·), answered.2)

mutual

/-- The answer for a record, and the evaluator with the patterns read for it. -/
def test (evaluator : Evaluator) (reader : PatternReader) (record : Document) :
    Predicate → Except Failure Bool × Evaluator
  | .matchAll => (.ok true, evaluator)
  | .and children => testAll evaluator reader record children
  | .or children => testAny evaluator reader record children
  | .nor children => negated (testAny evaluator reader record children)
  | .not child => negated (test evaluator reader record child)
  | .compare field op value =>
    (.ok (op.holds (Document.valueOf? field record) value), evaluator)
  | .pattern field _ regex => evaluator.testPattern reader regex (Document.valueOf? field record)
  | .unrecognized text => (.error (Predicate.unrecognizedError text), evaluator)

def testAll (evaluator : Evaluator) (reader : PatternReader) (record : Document) :
    List Predicate → Except Failure Bool × Evaluator
  | [] => (.ok true, evaluator)
  | child :: children =>
    match test evaluator reader record child with
    | (.ok true, evaluator) => testAll evaluator reader record children
    | stopped => stopped

def testAny (evaluator : Evaluator) (reader : PatternReader) (record : Document) :
    List Predicate → Except Failure Bool × Evaluator
  | [] => (.ok false, evaluator)
  | child :: children =>
    match test evaluator reader record child with
    | (.ok false, evaluator) => testAny evaluator reader record children
    | stopped => stopped

end

end Evaluator

end DocumentStore
