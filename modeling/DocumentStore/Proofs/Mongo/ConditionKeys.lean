import DocumentStore.Proofs.Filter.FieldNames
import DocumentStore.Proofs.Mongo.Meaning
import DocumentStore.Proofs.Results

/-!
# Keys of a query

In a query a key joins the queries that are listed behind it, or names the field that its
operators test.  Each such key stands for one node of the tree: a connective gives a key of its
own, and a test gives the text of its field as it is.  So a filter text puts a key with a dollar
sign into its query, other than by a connective, exactly when a field in it starts with one.
-/

namespace DocumentStore

/-! ## Nodes -/

namespace Predicate

mutual

def nodes : Predicate → List Predicate
  | .and children => .and children :: nodesOf children
  | .or children => .or children :: nodesOf children
  | .nor children => .nor children :: nodesOf children
  | .not child => .not child :: child.nodes
  | leaf => [leaf]

def nodesOf : List Predicate → List Predicate
  | [] => []
  | child :: children => child.nodes ++ nodesOf children

end

mutual

theorem leaves_eq_filter_nodes : ∀ (p : Predicate), p.leaves = p.nodes.filter isLeaf
  | .and children | .or children | .nor children => leavesOf_eq_filter_nodesOf children
  | .not child => leaves_eq_filter_nodes child
  | .matchAll | .compare .. | .pattern .. | .unrecognized _ => rfl

theorem leavesOf_eq_filter_nodesOf : ∀ (ps : List Predicate),
    leavesOf ps = (nodesOf ps).filter isLeaf
  | [] => rfl
  | p :: ps => by
    rw [leavesOf, nodesOf, List.filter_append, leaves_eq_filter_nodes p,
      leavesOf_eq_filter_nodesOf ps]

end

/-- The key that a node puts into the query. -/
def key? : Predicate → Option String
  | .and _ => some "$and"
  | .or _ => some "$or"
  | .nor _ | .not _ => some "$nor"
  | leaf => leaf.field?

theorem key?_of_isLeaf {leaf : Predicate} (h : leaf.isLeaf = true) : leaf.key? = leaf.field? := by
  cases leaf with
  | and | or | nor | not => cases h
  | _ => rfl

/-- Every key with a dollar sign in front is that of a connective. -/
def DollarsOnlyConnect (p : Predicate) : Prop :=
  ∀ node ∈ p.nodes, ∀ key, node.key? = some key → key.toList.head? = some '$' →
    node.isLeaf = false

theorem dollarsOnlyConnect_iff (p : Predicate) :
    p.DollarsOnlyConnect ↔
      ∀ leaf ∈ p.leaves, ∀ field, leaf.field? = some field → field.toList.head? ≠ some '$' := by
  rw [leaves_eq_filter_nodes]
  constructor
  · intro h leaf hleaf field hfield hdollar
    obtain ⟨hnode, hisLeaf⟩ := List.mem_filter.1 hleaf
    have hconnects := h leaf hnode field ((key?_of_isLeaf hisLeaf).trans hfield) hdollar
    rw [hisLeaf] at hconnects
    cases hconnects
  · intro h node hnode key hkey hdollar
    apply Bool.eq_false_iff.2
    intro hisLeaf
    rw [key?_of_isLeaf hisLeaf] at hkey
    exact h node (List.mem_filter.2 ⟨hnode, hisLeaf⟩) key hkey hdollar

end Predicate

namespace Mongo

/-! ## Keys in their places -/

mutual

/-- The keys of a query and of every query that is listed behind one of its keys, from the
left. -/
def conditionKeys : List (String × Value) → List String
  | [] => []
  | (key, value) :: entries => key :: (listedKeys value ++ conditionKeys entries)

def listedKeys : Value → List String
  | .array items => itemKeys items
  | _ => []

def itemKeys : List Value → List String
  | [] => []
  | item :: items => queryKeys item ++ itemKeys items

def queryKeys : Value → List String
  | .document query => conditionKeys query
  | _ => []

end

theorem conditionKeys_listed (key : String) (items : List Value) :
    conditionKeys [(key, .array items)] = key :: itemKeys items := by
  rw [conditionKeys, conditionKeys, List.append_nil, listedKeys]

theorem itemKeys_cons_document (query : Document) (items : List Value) :
    itemKeys (.document query :: items) = conditionKeys query ++ itemKeys items := by
  rw [itemKeys, queryKeys]

mutual

theorem conditionKeys_query : ∀ (p : Predicate) {q : Document}, query p = .ok q →
    conditionKeys q = p.nodes.filterMap Predicate.key?
  | .and children, q, h | .or children, q, h | .nor children, q, h => by
    rw [query] at h
    obtain ⟨items, hitems, rfl⟩ := exists_of_map_eq_ok h
    rw [conditionKeys_listed, itemKeys_queries children hitems]
    rfl
  | .not child, q, h => by
    rw [query] at h
    obtain ⟨item, hitem, rfl⟩ := exists_of_map_eq_ok h
    rw [conditionKeys_listed, itemKeys_cons_document, conditionKeys_query child hitem]
    exact congrArg ("$nor" :: ·) (List.append_nil _)
  | .matchAll, q, h | .compare .., q, h | .pattern .., q, h => by
    cases h
    rfl

theorem itemKeys_queries : ∀ (ps : List Predicate) {items : List Value},
    queries ps = .ok items → itemKeys items = (Predicate.nodesOf ps).filterMap Predicate.key?
  | [], items, h => by
    cases h
    rfl
  | p :: ps, items, h => by
    rw [queries] at h
    obtain ⟨item, hitem, h⟩ := exists_of_bind_eq_ok h
    obtain ⟨rest, hrest, h⟩ := exists_of_bind_eq_ok h
    cases h
    rw [itemKeys_cons_document, conditionKeys_query p hitem, itemKeys_queries ps hrest,
      Predicate.nodesOf, List.filterMap_append]

end

end Mongo

/-! ## Keys out of a text -/

namespace Filter

theorem dollarsOnlyConnect_tree_iff {text : String}
    (h : (Source.text text).tree.unrecognized? = none) :
    (Source.text text).tree.DollarsOnlyConnect ↔
      ∀ segment ∈ segments text.toList, fieldHead? segment ≠ some '$' := by
  rw [Predicate.dollarsOnlyConnect_iff]
  rw [Predicate.unrecognized?_eq_findSome?, List.findSome?_eq_none_iff, leaves_tree] at h
  rw [leaves_tree]
  split
  · next hblank =>
    have hnone : segments text.toList = [] := if_pos hblank
    rw [hnone]
    exact iff_of_true (by simp [Predicate.field?]) nofun
  · next hvisible =>
    rw [if_neg hvisible, List.forall_mem_map] at h
    rw [List.forall_mem_map]
    refine forall₂_congr fun segment hsegment => ?_
    obtain ⟨field, hfield, hhead⟩ :=
      exists_field?_leaf (infix_of_mem_segments hsegment) (h segment hsegment)
    rw [← hhead, hfield]
    simp

end Filter

namespace Mongo

open DocumentStore.Filter

/-- The keys of the query of a filter text that is not refused are those of the nodes of its tree,
the field of each test unchanged.  Those with a dollar sign in front are the keys of connectives
alone exactly when no field of the text starts with one. -/
theorem conditionKeys_of_text {text : String}
    (h : (Source.text text).tree.unrecognized? = none) :
    ∃ q, query (Source.text text).tree = .ok q ∧
      conditionKeys q = (Source.text text).tree.nodes.filterMap Predicate.key? ∧
      ((Source.text text).tree.DollarsOnlyConnect ↔
        ∀ segment ∈ segments text.toList, fieldHead? segment ≠ some '$') := by
  obtain ⟨q, hq, -⟩ := exists_query h
  exact ⟨q, hq, conditionKeys_query _ hq, dollarsOnlyConnect_tree_iff h⟩

/-- A dollar sign within a field, in a value or in a list is no operator. -/
theorem conditionKeys_of_inner_dollars :
    let text := "not a.$b = '$where' and c$ in ($d, 1)"
    (Source.text text).tree.unrecognized? = none ∧
    (∀ segment ∈ segments text.toList, fieldHead? segment ≠ some '$') ∧
    ∃ q, query (Source.text text).tree = .ok q ∧
      conditionKeys q = ["$and", "$nor", "a.$b", "c$"] ∧
      (Source.text text).tree.DollarsOnlyConnect := by
  intro text
  have htokens : tokens text.toList =
      [⟨.not, [], "not".toList⟩, ⟨.word, [' '], "a.$b".toList⟩,
        ⟨.operator (.comparison .eq), [' '], ['=']⟩, ⟨.quoted, [' '], "'$where'".toList⟩,
        ⟨.connective .and, [' '], "and".toList⟩, ⟨.word, [' '], "c$".toList⟩,
        ⟨.operator (.comparison .oneOf), [' '], "in".toList⟩, ⟨.word, [' '], "($d,".toList⟩,
        ⟨.word, [' '], "1)".toList⟩] := by
    decide +kernel
  have hvisible : text.toList.all Text.isBlank = false := by decide
  have htree : (Source.text text).tree = .and [.not (.compare "a.$b" .eq (.string "$where")),
      .compare "c$" .oneOf (.array [.string "$d", .int32 1])] := by
    rw [Source.tree, parse_of_not_blank hvisible, htokens]
    rfl
  have haccepted : (Source.text text).tree.unrecognized? = none := by
    rw [htree]
    rfl
  have hfields : ∀ segment ∈ segments text.toList, fieldHead? segment ≠ some '$' := by
    rw [segments, if_neg (Bool.eq_false_iff.1 hvisible), htokens]
    decide
  obtain ⟨q, hq, hkeys, hiff⟩ := conditionKeys_of_text haccepted
  refine ⟨haccepted, hfields, q, hq, ?_, hiff.2 hfields⟩
  rw [hkeys, htree]
  rfl

/-- A field that starts with a dollar sign goes into the query as it is, where it is read as an
operator. -/
theorem conditionKeys_of_dollar_field :
    (Source.text "$where = 1").tree.unrecognized? = none ∧
    query (Source.text "$where = 1").tree = .ok (condition "$where" "$eq" (.int32 1)) ∧
    "$where" ∈ conditionKeys (condition "$where" "$eq" (.int32 1)) ∧
    "$where" ∉ ["$and", "$or", "$nor"] ∧
    ¬ (Source.text "$where = 1").tree.DollarsOnlyConnect := by
  have htokens : tokens "$where = 1".toList =
      [⟨.word, [], "$where".toList⟩, ⟨.operator (.comparison .eq), [' '], ['=']⟩,
        ⟨.word, [' '], ['1']⟩] := by
    decide +kernel
  have htree : (Source.text "$where = 1").tree = .compare "$where" .eq (.int32 1) := by
    rw [Source.tree, parse_of_not_blank (by decide), htokens]
    rfl
  rw [htree]
  refine ⟨rfl, rfl, List.mem_singleton_self _, by decide, fun honly => ?_⟩
  have hconnects := honly _ (List.mem_singleton_self _) "$where" rfl (by decide)
  cases hconnects

end Mongo

end DocumentStore
