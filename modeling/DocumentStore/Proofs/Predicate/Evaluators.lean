import DocumentStore.Memory.Scan

/-!
# Evaluators answer like evaluation

What an evaluator keeps is what reading the texts again would give.  So its answer is the one of
the evaluation that keeps nothing, whatever it has tested before, and a scan fails where the
evaluation of one of its records does.
-/

namespace DocumentStore

namespace Evaluator

/-- Every test is kept under the text that the engine read it from. -/
def Faithful (reader : PatternReader) (evaluator : Evaluator) : Prop :=
  ∀ regex test, Fields.get? regex evaluator.patterns = some test → reader regex = .ok test

/-- A step answers as expected and keeps what it should. -/
structure Answers {α : Type} (reader : PatternReader) (expected : Except Failure α)
    (answered : Except Failure α × Evaluator) : Prop where
  answer : answered.1 = expected
  faithful : answered.2.Faithful reader

variable {reader : PatternReader} {evaluator : Evaluator}

theorem faithful_new : Faithful reader {} := nofun

/-! ## Patterns -/

theorem keep_eq (h : evaluator.Faithful reader) (regex : String) :
    match reader regex with
    | .error diagnostic =>
      evaluator.keep reader regex = .error (Pattern.invalidError regex diagnostic)
    | .ok test => ∃ next, evaluator.keep reader regex = .ok next ∧ next.Faithful reader ∧
        next.kept regex = .ok test := by
  unfold keep
  cases hkept : Fields.get? regex evaluator.patterns with
  | some test =>
      have hcontains : Fields.contains regex evaluator.patterns = true := by
        rw [Fields.contains, hkept]
        rfl
      rw [h regex test hkept, if_pos hcontains]
      exact ⟨evaluator, rfl, h, by rw [kept, hkept]⟩
  | none =>
      have habsent : ¬ Fields.contains regex evaluator.patterns = true := by
        rw [Fields.contains, hkept]
        exact Bool.false_ne_true
      rw [if_neg habsent]
      cases hread : reader regex with
      | error diagnostic => rfl
      | ok test =>
          refine ⟨_, rfl, ?_, by rw [kept, Fields.get?_insert_self]⟩
          intro other found hfound
          by_cases hother : other = regex
          · rw [hother, Fields.get?_insert_self] at hfound
            rw [hother, hread, Option.some.inj hfound]
          · rw [Fields.get?_insert_of_ne hother] at hfound
            exact h other found hfound

theorem answers_testPattern (h : evaluator.Faithful reader) (regex : String)
    (found : Option Value) :
    Answers reader (Pattern.accepts reader regex found)
      (evaluator.testPattern reader regex found) := by
  cases found with
  | none => exact ⟨rfl, h⟩
  | some stored =>
      have hkeep := keep_eq h regex
      rw [Pattern.accepts, testPattern]
      cases hread : reader regex with
      | error diagnostic =>
          rw [hread] at hkeep
          rw [hkeep]
          exact ⟨rfl, h⟩
      | ok test =>
          rw [hread] at hkeep
          obtain ⟨next, hnext, hfaithful, htest⟩ := hkeep
          rw [hnext]
          exact ⟨congrArg (Except.map (Pattern.isFoundIn · stored)) htest, hfaithful⟩

/-! ## Trees -/

theorem Answers.negated {expected : Except Failure Bool}
    {answered : Except Failure Bool × Evaluator} (h : Answers reader expected answered) :
    Answers reader (expected.map (!·)) (negated answered) :=
  ⟨congrArg (Except.map (!·)) h.answer, h.faithful⟩

mutual

theorem answers_test (record : Document) : ∀ {evaluator : Evaluator} (p : Predicate),
    evaluator.Faithful reader →
      Answers reader (p.evaluate reader record) (evaluator.test reader record p)
  | _, .matchAll, h | _, .compare .., h | _, .unrecognized _, h => ⟨rfl, h⟩
  | _, .and children, h => answers_testAll record children h
  | _, .or children, h => answers_testAny record children h
  | _, .nor children, h => (answers_testAny record children h).negated
  | _, .not child, h => (answers_test record child h).negated
  | _, .pattern _ _ regex, h => answers_testPattern h regex _

theorem answers_testAll (record : Document) : ∀ {evaluator : Evaluator} (ps : List Predicate),
    evaluator.Faithful reader →
      Answers reader (Predicate.evaluateAll reader record ps)
        (evaluator.testAll reader record ps)
  | _, [], h => ⟨rfl, h⟩
  | evaluator, p :: ps, h => by
    obtain ⟨hanswer, hfaithful⟩ := answers_test record p h
    rw [Predicate.evaluateAll, testAll, ← hanswer]
    rcases htest : evaluator.test reader record p with ⟨answer, next⟩
    rw [htest] at hfaithful
    match answer with
    | .ok true => exact answers_testAll record ps hfaithful
    | .ok false => exact ⟨rfl, hfaithful⟩
    | .error failure => exact ⟨rfl, hfaithful⟩

theorem answers_testAny (record : Document) : ∀ {evaluator : Evaluator} (ps : List Predicate),
    evaluator.Faithful reader →
      Answers reader (Predicate.evaluateAny reader record ps)
        (evaluator.testAny reader record ps)
  | _, [], h => ⟨rfl, h⟩
  | evaluator, p :: ps, h => by
    obtain ⟨hanswer, hfaithful⟩ := answers_test record p h
    rw [Predicate.evaluateAny, testAny, ← hanswer]
    rcases htest : evaluator.test reader record p with ⟨answer, next⟩
    rw [htest] at hfaithful
    match answer with
    | .ok false => exact answers_testAny record ps hfaithful
    | .ok true => exact ⟨rfl, hfaithful⟩
    | .error failure => exact ⟨rfl, hfaithful⟩

end

theorem test_new (record : Document) (p : Predicate) :
    (Evaluator.test {} reader record p).1 = p.evaluate reader record :=
  (answers_test record p faithful_new).answer

/-! ## Many tests -/

/-- What is left of a new evaluator by tests of records, each with a filter of its own. -/
def afterTests (reader : PatternReader) (tests : List (Document × Predicate)) : Evaluator :=
  tests.foldl (fun evaluator entry => (evaluator.test reader entry.1 entry.2).2) {}

theorem faithful_afterTests (reader : PatternReader) (tests : List (Document × Predicate)) :
    (afterTests reader tests).Faithful reader := by
  have hall : ∀ evaluator : Evaluator, evaluator.Faithful reader →
      (tests.foldl (fun evaluator entry => (evaluator.test reader entry.1 entry.2).2)
        evaluator).Faithful reader := by
    induction tests with
    | nil => exact fun _ h => h
    | cons entry tests ih => exact fun _ h => ih _ (answers_test entry.1 entry.2 h).faithful
  exact hall {} faithful_new

end Evaluator

/-! ## Scans -/

namespace Memory.Marked

variable {reader : PatternReader}

theorem ofScanWith_eq (filter : Predicate) {evaluator : Evaluator}
    (h : evaluator.Faithful reader) (records : List Document) :
    ofScanWith reader filter evaluator records =
      records.mapM fun record => (filter.evaluate reader record).map (record, ·) := by
  induction records generalizing evaluator with
  | nil => rfl
  | cons record records ih =>
      obtain ⟨hanswer, hfaithful⟩ := Evaluator.answers_test record filter h
      rw [ofScanWith, List.mapM_cons, ← hanswer]
      rcases htest : evaluator.test reader record filter with ⟨answer, next⟩
      rw [htest] at hfaithful
      cases answer with
      | error failure => rfl
      | ok hit =>
          dsimp only
          rw [ih hfaithful]
          rfl

theorem ofScan_eq (filter : Predicate) (records : List Document) :
    ofScan reader filter records =
      records.mapM fun record => (filter.evaluate reader record).map (record, ·) :=
  ofScanWith_eq filter Evaluator.faithful_new records

end Memory.Marked

end DocumentStore
