import DocumentStore.Proofs.Filter.Places
import DocumentStore.Proofs.Predicate.FailingLeaves
import DocumentStore.Proofs.Predicate.Wildcards

/-!
# Segments of a filter

The segments of a filter text are the runs of its tokens between connectives, without the
negations in front.  The leaves of its tree stand for them in their order, and only a segment
without an operator gives one that can fail.
-/

namespace DocumentStore

namespace Predicate

/-! ## Leaves of trees that are put together -/

theorem leavesOf_eq_flatMap (ps : List Predicate) : leavesOf ps = ps.flatMap leaves := by
  induction ps with
  | nil => rfl
  | cons p ps ih => rw [leavesOf, ih, List.flatMap_cons]

theorem leaves_and (ps : List Predicate) : (and ps).leaves = leavesOf ps := rfl

theorem leaves_or (ps : List Predicate) : (or ps).leaves = leavesOf ps := rfl

theorem leaves_nor (ps : List Predicate) : (nor ps).leaves = leavesOf ps := rfl

theorem leaves_not_iterate (n : Nat) (p : Predicate) : (Predicate.not^[n] p).leaves = p.leaves := by
  induction n with
  | zero => rfl
  | succ n ih => rw [Function.iterate_succ_apply', leaves, ih]

mutual

theorem unrecognized?_eq_findSome? : ∀ (p : Predicate),
    p.unrecognized? = p.leaves.findSome? unrecognized?
  | .and children | .or children | .nor children => firstUnrecognized?_eq_findSome? children
  | .not child => unrecognized?_eq_findSome? child
  | .matchAll | .compare .. | .pattern .. | .unrecognized _ => rfl

theorem firstUnrecognized?_eq_findSome? : ∀ (ps : List Predicate),
    firstUnrecognized? ps = (leavesOf ps).findSome? unrecognized?
  | [] => rfl
  | p :: ps => by
    rw [firstUnrecognized?, leavesOf, List.findSome?_append, ← unrecognized?_eq_findSome? p,
      ← firstUnrecognized?_eq_findSome? ps]
    cases p.unrecognized? <;> rfl

end

end Predicate

namespace Filter

namespace Reading

section

variable {α : Type} (kind : α → TokenKind)

def cuts (token : α) : Bool :=
  match kind token with
  | .connective _ => true
  | _ => false

/-- The runs between connectives, without the negations in front of them. -/
def runs (tokens : List α) : List (List α) :=
  (tokens.splitOnP (cuts kind)).map fun run => run.dropWhile fun token => kind token == .not

variable {kind} {leaf : List α → Predicate}

theorem flatMap_splitOnP (first second : α → Bool) (xs : List α) :
    (xs.splitOnP first).flatMap (·.splitOnP second) =
      xs.splitOnP fun x => first x || second x := by
  induction xs with
  | nil => simp
  | cons x xs ih =>
      obtain ⟨piece, pieces, hpieces⟩ :=
        List.exists_cons_of_ne_nil (List.splitOnP_ne_nil first xs)
      obtain ⟨part, parts, hparts⟩ :=
        List.exists_cons_of_ne_nil (List.splitOnP_ne_nil second piece)
      rw [List.splitOnP_cons_eq_if_modifyHead, List.splitOnP_cons_eq_if_modifyHead, ← ih, hpieces]
      cases hfirst : first x with
      | true => simp
      | false =>
          cases hsecond : second x with
          | true => simp [List.splitOnP_cons_eq_if_modifyHead, hsecond]
          | false => simp [List.splitOnP_cons_eq_if_modifyHead, hsecond, hparts]

theorem leaves_combine {node : List Predicate → Predicate}
    (hnode : ∀ ps, (node ps).leaves = Predicate.leavesOf ps) (ps : List Predicate) :
    (combine node ps).leaves = Predicate.leavesOf ps := by
  rw [combine.eq_def]
  split
  · rw [Predicate.leavesOf, Predicate.leavesOf, List.append_nil]
  · exact hnode ps

theorem leaves_level (kind : α → TokenKind) (connective : Connective)
    {node : List Predicate → Predicate} {read : List α → Predicate} {cut : α → Bool}
    {leafOf : List α → Predicate}
    (hnode : ∀ ps, (node ps).leaves = Predicate.leavesOf ps)
    (hread : ∀ tokens, (read tokens).leaves = (tokens.splitOnP cut).map leafOf)
    (tokens : List α) :
    (level kind connective node read tokens).leaves =
      (tokens.splitOnP fun token => kind token == .connective connective || cut token).map
        leafOf := by
  rw [level, leaves_combine hnode, Predicate.leavesOf_eq_flatMap, List.flatMap_map, pieces,
    ← flatMap_splitOnP, List.map_flatMap]
  simp only [hread]

theorem leaves_operand (hleaf : ∀ run, (leaf run).isLeaf = true) (tokens : List α) :
    (operand kind leaf tokens).leaves =
      [leaf (tokens.dropWhile fun token => kind token == .not)] := by
  rw [operand, Predicate.leaves_not_iterate, Predicate.leaves_of_isLeaf (hleaf _)]

theorem leaves_ors (hleaf : ∀ run, (leaf run).isLeaf = true) (tokens : List α) :
    (ors kind leaf tokens).leaves = (runs kind tokens).map leaf := by
  have hoperand (tokens : List α) : (operand kind leaf tokens).leaves =
      (tokens.splitOnP fun _ => false).map fun run =>
        leaf (run.dropWhile fun token => kind token == .not) := by
    rw [List.splitOnP_eq_singleton (by simp), leaves_operand hleaf]
    rfl
  have hcuts : (fun token => kind token == .connective .or || (kind token == .connective .nor ||
      (kind token == .connective .and || false))) = cuts kind := by
    funext token
    rw [cuts.eq_def]
    cases kind token with
    | connective c => cases c <;> rfl
    | _ => rfl
  have hands := leaves_level kind .and Predicate.leaves_and hoperand
  have hnors := leaves_level kind .nor Predicate.leaves_nor hands
  have hors := leaves_level kind .or Predicate.leaves_or hnors
  rw [hcuts] at hors
  rw [runs, List.map_map]
  exact hors tokens

end

end Reading

/-! ## Segments of a text -/

/-- The segments of a filter text, in the order of the text; a blank text has none. -/
def segments (source : List Char) : List (List Placed) :=
  if source.all Text.isBlank then [] else Reading.runs Placed.kind (place 0 (tokens source))

def hasOperator (segment : List Placed) : Bool := (segment.findSome? Placed.operator?).isSome

/-- What the source has from the first token of a segment to its last one, without blanks at the
ends. -/
def segmentText (source : List Char) : List Placed → String
  | [] => ""
  | head :: rest =>
    String.ofList (Text.trim (slice source head.first (rest.getLastD head).last))

/-- The text of the leftmost segment without an operator. -/
def unparsed? (source : List Char) : Option String :=
  ((segments source).find? (!hasOperator ·)).map (segmentText source)

theorem unrecognized?_condition (field value : List Char) (op : Operator) :
    (condition field op value).unrecognized? = none := by
  unfold condition
  split
  · rfl
  · split <;> rfl

theorem isLeaf_condition (field value : List Char) (op : Operator) :
    (condition field op value).isLeaf = true := by
  unfold condition
  split
  · rfl
  · split <;> rfl

theorem condition_ne_matchAll (field value : List Char) (op : Operator) :
    condition field op value ≠ .matchAll := by
  unfold condition
  split
  · exact nofun
  · split <;> exact nofun

theorem failsOn_condition {reader : PatternReader} (hreader : reader.ReadsEscaped)
    (field value : List Char) (op : Operator) (record : Document) :
    (condition field op value).failsOn reader record = false := by
  unfold condition
  split
  · obtain ⟨test, htest⟩ := hreader (cutWildcards (Literal.ofToken value).text.toList).1
      (cutWildcards (Literal.ofToken value).text.toList).2
    rw [textTest, Predicate.failsOn, htest]
    exact Bool.and_false _
  · split <;> rfl

theorem leaf_cases (source : List Char) (segment : List Placed) :
    (hasOperator segment = false ∧
      Reading.leaf source segment = .unrecognized (segmentText source segment)) ∨
    hasOperator segment = true ∧
      ∃ field op value, Reading.leaf source segment = condition field op value := by
  cases segment with
  | nil => exact .inl ⟨rfl, rfl⟩
  | cons head rest =>
      rw [hasOperator, Reading.leaf]
      cases (head :: rest).findSome? Placed.operator? with
      | none => exact .inl ⟨rfl, rfl⟩
      | some found => exact .inr ⟨rfl, _, _, _, rfl⟩

theorem isLeaf_leaf (source : List Char) (segment : List Placed) :
    (Reading.leaf source segment).isLeaf = true := by
  rcases leaf_cases source segment with ⟨-, hleaf⟩ | ⟨-, field, op, value, hleaf⟩
  · rw [hleaf]
    rfl
  · rw [hleaf]
    exact isLeaf_condition field value op

theorem leaves_tree (text : String) :
    (Source.text text).tree.leaves =
      if text.toList.all Text.isBlank then [.matchAll]
      else (segments text.toList).map (Reading.leaf text.toList) := by
  rw [Source.tree, parse, readOrs_tokens, segments]
  split
  · rfl
  · exact Reading.leaves_ors (isLeaf_leaf text.toList) _

theorem unrecognized?_tree (text : String) :
    (Source.text text).tree.unrecognized? = unparsed? text.toList := by
  rw [Predicate.unrecognized?_eq_findSome?, leaves_tree, unparsed?, segments]
  split
  · rfl
  · rw [List.findSome?_map]
    generalize Reading.runs Placed.kind (place 0 (tokens text.toList)) = runs
    induction runs with
    | nil => rfl
    | cons run runs ih =>
        rw [List.findSome?_cons, List.find?_cons, Function.comp_apply]
        rcases leaf_cases text.toList run with ⟨hnone, hleaf⟩ | ⟨hsome, field, op, value, hleaf⟩
        · rw [hleaf, hnone]
          rfl
        · rw [hleaf, unrecognized?_condition, hsome]
          exact ih

theorem exists_evaluate_tree {reader : PatternReader} (hreader : reader.ReadsEscaped)
    {text : String} (h : unparsed? text.toList = none) (record : Document) :
    ∃ hit, (Source.text text).tree.evaluate reader record = .ok hit := by
  refine Predicate.exists_evaluate _ fun leaf hleaf => ?_
  rw [leaves_tree] at hleaf
  split at hleaf
  · rw [List.mem_singleton.1 hleaf]
    rfl
  · obtain ⟨segment, hsegment, rfl⟩ := List.mem_map.1 hleaf
    have hall := List.find?_eq_none.1 (Option.map_eq_none_iff.1 h) segment hsegment
    rcases leaf_cases text.toList segment with ⟨hnone, -⟩ | ⟨-, field, op, value, htest⟩
    · rw [hnone] at hall
      exact absurd rfl hall
    · rw [htest]
      exact failsOn_condition hreader field value op record

end Filter

end DocumentStore
