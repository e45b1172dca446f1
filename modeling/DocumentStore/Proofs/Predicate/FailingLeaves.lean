import DocumentStore.Proofs.Memory.Scans

/-!
# Leaves that fail

A leaf without a result fails the evaluation of its tree only where it is reached.  The children
that are not reached have no say in the value of the tree, so an answer is the value of the tree
whatever the failing leaves are taken for.
-/

namespace DocumentStore.Predicate

/-! ## Leaves -/

def isLeaf : Predicate → Bool
  | .and _ | .or _ | .nor _ | .not _ => false
  | _ => true

mutual

def leaves : Predicate → List Predicate
  | .and children | .or children | .nor children => leavesOf children
  | .not child => child.leaves
  | leaf => [leaf]

def leavesOf : List Predicate → List Predicate
  | [] => []
  | child :: children => child.leaves ++ leavesOf children

end

/-- An unrecognized leaf fails on every record, an invalid pattern on those with its field. -/
def failsOn (reader : PatternReader) (record : Document) : Predicate → Bool
  | .unrecognized _ => true
  | .pattern field _ regex => (Document.valueOf? field record).isSome && !(reader regex).isOk
  | _ => false

variable {reader : PatternReader} {record : Document} {p : Predicate} {hit : Bool}

theorem leaves_of_isLeaf (h : p.isLeaf = true) : p.leaves = [p] := by
  cases p with
  | and | or | nor | not => cases h
  | _ => rfl

mutual

theorem isLeaf_of_mem_leaves {leaf : Predicate} :
    ∀ (p : Predicate), leaf ∈ p.leaves → leaf.isLeaf = true
  | .and children, h | .or children, h | .nor children, h => isLeaf_of_mem_leavesOf children h
  | .not child, h => isLeaf_of_mem_leaves child h
  | .matchAll, h | .compare .., h | .pattern .., h | .unrecognized _, h => by
    rw [List.mem_singleton.1 h]
    rfl

theorem isLeaf_of_mem_leavesOf {leaf : Predicate} :
    ∀ (ps : List Predicate), leaf ∈ leavesOf ps → leaf.isLeaf = true
  | [], h => nomatch h
  | p :: ps, h => (List.mem_append.1 h).elim (isLeaf_of_mem_leaves p) (isLeaf_of_mem_leavesOf ps)

end

theorem failsOn_iff (h : p.isLeaf = true) :
    p.failsOn reader record = true ↔ ∃ failure, p.evaluate reader record = .error failure := by
  cases p with
  | and | or | nor | not => cases h
  | matchAll | compare => exact iff_of_false nofun nofun
  | unrecognized text => exact iff_of_true rfl ⟨_, rfl⟩
  | pattern field kind regex =>
      rw [failsOn, evaluate, Pattern.accepts.eq_def]
      cases Document.valueOf? field record with
      | none => exact iff_of_false nofun nofun
      | some stored =>
          cases reader regex with
          | error diagnostic => exact iff_of_true rfl ⟨_, rfl⟩
          | ok test => exact iff_of_false nofun nofun

/-! ## The value of a tree -/

mutual

/-- The value of a tree, where each leaf that fails has the value that is guessed for its place.
A place tells for each node on the way which child comes next. -/
def truth (reader : PatternReader) (record : Document) (guess : List Nat → Bool) : Predicate → Bool
  | .and children => (truths reader record guess 0 children).all id
  | .or children => (truths reader record guess 0 children).any id
  | .nor children => !(truths reader record guess 0 children).any id
  | .not child => !truth reader record (fun place => guess (0 :: place)) child
  | leaf => if leaf.failsOn reader record then guess [] else leaf.accepts reader record

def truths (reader : PatternReader) (record : Document) (guess : List Nat → Bool) (first : Nat) :
    List Predicate → List Bool
  | [] => []
  | child :: children =>
    truth reader record (fun place => guess (first :: place)) child ::
      truths reader record guess (first + 1) children

end

theorem truth_of_isLeaf (h : p.isLeaf = true) (guess : List Nat → Bool) :
    p.truth reader record guess =
      if p.failsOn reader record then guess [] else p.accepts reader record := by
  cases p with
  | and | or | nor | not => cases h
  | _ => rfl

theorem truth_leaf_of_evaluate (hleaf : p.isLeaf = true) (h : p.evaluate reader record = .ok hit)
    (guess : List Nat → Bool) : p.truth reader record guess = hit := by
  have hfine : ¬ p.failsOn reader record = true := by
    rw [failsOn_iff hleaf, h]
    exact nofun
  rw [truth_of_isLeaf hleaf, if_neg hfine, accepts_of_ok h]

mutual

theorem truth_of_evaluate : ∀ (p : Predicate) {hit : Bool} (guess : List Nat → Bool),
    p.evaluate reader record = .ok hit → p.truth reader record guess = hit
  | .and children, _, guess, h => all_truths_of_evaluateAll children guess 0 h
  | .or children, _, guess, h => any_truths_of_evaluateAny children guess 0 h
  | .nor children, hit, guess, h => by
    rw [evaluate] at h
    cases hany : evaluateAny reader record children with
    | error failure => simp [hany, Except.map] at h
    | ok found =>
        have hfound : (!found) = hit := by simpa [hany, Except.map] using h
        rw [truth, any_truths_of_evaluateAny children guess 0 hany, hfound]
  | .not child, hit, guess, h => by
    rw [evaluate] at h
    cases hchild : evaluate reader record child with
    | error failure => simp [hchild, Except.map] at h
    | ok found =>
        have hfound : (!found) = hit := by simpa [hchild, Except.map] using h
        rw [truth, truth_of_evaluate child _ hchild, hfound]
  | .matchAll, _, guess, h | .compare .., _, guess, h | .pattern .., _, guess, h
  | .unrecognized _, _, guess, h => truth_leaf_of_evaluate rfl h guess

/-- Behind the first child that is false the others have no say. -/
theorem all_truths_of_evaluateAll : ∀ (ps : List Predicate) {hit : Bool}
    (guess : List Nat → Bool) (first : Nat),
    evaluateAll reader record ps = .ok hit → (truths reader record guess first ps).all id = hit
  | [], _, _, _, h => Except.ok.inj h
  | p :: ps, hit, guess, first, h => by
    rw [evaluateAll] at h
    rw [truths, List.all_cons]
    cases hp : p.evaluate reader record with
    | error failure => simp [hp] at h
    | ok found =>
        rw [hp] at h
        rw [truth_of_evaluate p _ hp]
        cases found with
        | true => exact all_truths_of_evaluateAll ps guess (first + 1) h
        | false => exact Except.ok.inj h

theorem any_truths_of_evaluateAny : ∀ (ps : List Predicate) {hit : Bool}
    (guess : List Nat → Bool) (first : Nat),
    evaluateAny reader record ps = .ok hit → (truths reader record guess first ps).any id = hit
  | [], _, _, _, h => Except.ok.inj h
  | p :: ps, hit, guess, first, h => by
    rw [evaluateAny] at h
    rw [truths, List.any_cons]
    cases hp : p.evaluate reader record with
    | error failure => simp [hp] at h
    | ok found =>
        rw [hp] at h
        rw [truth_of_evaluate p _ hp]
        cases found with
        | true => exact Except.ok.inj h
        | false => exact any_truths_of_evaluateAny ps guess (first + 1) h

end

/-! ## The failure of a tree -/

section

variable {failure : Failure}

mutual

theorem exists_leaf_of_evaluate : ∀ (p : Predicate), p.evaluate reader record = .error failure →
    ∃ leaf ∈ p.leaves, leaf.evaluate reader record = .error failure
  | .and children, h => exists_leaf_of_evaluateAll children h
  | .or children, h => exists_leaf_of_evaluateAny children h
  | .nor children, h => by
    rw [evaluate] at h
    cases hany : evaluateAny reader record children with
    | ok found => simp [hany, Except.map] at h
    | error cause =>
        rw [hany] at h
        cases h
        exact exists_leaf_of_evaluateAny children hany
  | .not child, h => by
    rw [evaluate] at h
    cases hchild : evaluate reader record child with
    | ok found => simp [hchild, Except.map] at h
    | error cause =>
        rw [hchild] at h
        cases h
        exact exists_leaf_of_evaluate child hchild
  | .matchAll, h | .compare .., h | .pattern .., h | .unrecognized _, h =>
    ⟨_, List.mem_singleton_self _, h⟩

theorem exists_leaf_of_evaluateAll : ∀ (ps : List Predicate),
    evaluateAll reader record ps = .error failure →
      ∃ leaf ∈ leavesOf ps, leaf.evaluate reader record = .error failure
  | [], h => nomatch h
  | p :: ps, h => by
    rw [evaluateAll] at h
    cases hp : p.evaluate reader record with
    | error cause =>
        rw [hp] at h
        cases h
        obtain ⟨leaf, hleaf, hfails⟩ := exists_leaf_of_evaluate p hp
        exact ⟨leaf, List.mem_append_left _ hleaf, hfails⟩
    | ok found =>
        rw [hp] at h
        cases found with
        | false => cases h
        | true =>
            obtain ⟨leaf, hleaf, hfails⟩ := exists_leaf_of_evaluateAll ps h
            exact ⟨leaf, List.mem_append_right _ hleaf, hfails⟩

theorem exists_leaf_of_evaluateAny : ∀ (ps : List Predicate),
    evaluateAny reader record ps = .error failure →
      ∃ leaf ∈ leavesOf ps, leaf.evaluate reader record = .error failure
  | [], h => nomatch h
  | p :: ps, h => by
    rw [evaluateAny] at h
    cases hp : p.evaluate reader record with
    | error cause =>
        rw [hp] at h
        cases h
        obtain ⟨leaf, hleaf, hfails⟩ := exists_leaf_of_evaluate p hp
        exact ⟨leaf, List.mem_append_left _ hleaf, hfails⟩
    | ok found =>
        rw [hp] at h
        cases found with
        | true => cases h
        | false =>
            obtain ⟨leaf, hleaf, hfails⟩ := exists_leaf_of_evaluateAny ps h
            exact ⟨leaf, List.mem_append_right _ hleaf, hfails⟩

end

theorem exists_badRequest_of_evaluate (h : p.evaluate reader record = .error failure) :
    ∃ text, failure = .badRequest text := by
  obtain ⟨leaf, hleaf, hfails⟩ := exists_leaf_of_evaluate p h
  have hisLeaf := isLeaf_of_mem_leaves p hleaf
  cases leaf with
  | and | or | nor | not => cases hisLeaf
  | matchAll | compare => cases hfails
  | unrecognized text =>
      cases hfails
      exact ⟨_, rfl⟩
  | pattern field kind regex =>
      rw [evaluate, Pattern.accepts.eq_def] at hfails
      split at hfails
      · cases hfails
      · split at hfails
        · cases hfails
          exact ⟨_, rfl⟩
        · cases hfails

end

theorem exists_evaluate (p : Predicate)
    (h : ∀ leaf ∈ p.leaves, leaf.failsOn reader record = false) :
    ∃ hit, p.evaluate reader record = .ok hit := by
  cases hresult : p.evaluate reader record with
  | ok hit => exact ⟨hit, rfl⟩
  | error failure =>
      obtain ⟨leaf, hleaf, hfails⟩ := exists_leaf_of_evaluate p hresult
      have hfailsOn := (failsOn_iff (isLeaf_of_mem_leaves p hleaf)).2 ⟨failure, hfails⟩
      rw [h leaf hleaf] at hfailsOn
      cases hfailsOn

/-- Whatever the engine reads, an answer is the value of the tree under every guess for the leaves
that fail, and a failure needs such a leaf.  What an evaluator has tested before changes neither, so
a scan with one evaluator is a list of tests with a new one for each record, up to the first that
fails. -/
theorem answer_under_every_guess (reader : PatternReader) (p : Predicate) (record : Document) :
    (∀ leaf ∈ p.leaves, leaf.failsOn reader record = true ↔
      ∃ failure, (Evaluator.test {} reader record leaf).1 = .error failure) ∧
    (∀ hit, (Evaluator.test {} reader record p).1 = .ok hit →
      ∀ guess, p.truth reader record guess = hit) ∧
    ((∀ leaf ∈ p.leaves, leaf.failsOn reader record = false) →
      ∃ hit, (Evaluator.test {} reader record p).1 = .ok hit) ∧
    (∀ tests, ((Evaluator.afterTests reader tests).test reader record p).1 =
      (Evaluator.test {} reader record p).1) ∧
    ∀ records, Memory.Marked.ofScan reader p records =
      records.mapM fun other => (Evaluator.test {} reader other p).1.map (other, ·) := by
  simp only [Evaluator.test_new]
  refine ⟨fun leaf hleaf => failsOn_iff (isLeaf_of_mem_leaves p hleaf),
    fun hit hhit guess => truth_of_evaluate p guess hhit, exists_evaluate p, ?_,
    Memory.Marked.ofScan_eq p⟩
  intro tests
  have hfaithful := Evaluator.faithful_afterTests reader tests
  exact (Evaluator.answers_test record p hfaithful).answer

end DocumentStore.Predicate
