import DocumentStore.Proofs.Filter.Segments
import DocumentStore.Proofs.Number.Rounding

/-!
# Shapes of filter trees

Each node of the tree of a filter text stands where the precedence of its connective puts it, and
the constants of its tests are scalars that a token can stand for.
-/

namespace DocumentStore

/-! ## Constants -/

/-- The scalars that a token can stand for. -/
def Value.IsConstant : Value → Prop
  | .bool _ | .int32 _ | .string _ => True
  | .int64 n => ¬ (Int32.minValue.toInt ≤ n.toInt ∧ n.toInt ≤ Int32.maxValue.toInt)
  | .double x => x.isNaN = false
  | _ => False

theorem Value.isConstant_ofInt64 (n : Int64) : (ofInt64 n).IsConstant := by
  rw [ofInt64]
  split
  · exact trivial
  · next hwide => exact hwide

theorem Literal.isConstant_value_ofToken (token : List Char) :
    (ofToken token).value.IsConstant := by
  unfold ofToken
  split
  · exact trivial
  · split
    · next n _ => exact Value.isConstant_ofInt64 n
    · split
      · next numeral _ => exact numeral.isNaN_value
      · split
        · exact trivial
        · split <;> exact trivial

namespace Predicate

/-! ## Nodes -/

def children : Predicate → List Predicate
  | .and ps | .or ps | .nor ps => ps
  | .not p => [p]
  | _ => []

/-- A node of a tree, with what it stands directly under.  The tree itself stands under `above`,
and under nothing where it is a whole filter. -/
inductive Occurs : (above : Option Predicate) → (tree : Predicate) →
    (parent : Option Predicate) → (node : Predicate) → Prop
  | root (above : Option Predicate) (tree : Predicate) : Occurs above tree above tree
  | within {above parent : Option Predicate} {tree child node : Predicate}
      (hchild : child ∈ tree.children) (hnode : Occurs (some tree) child parent node) :
      Occurs above tree parent node

/-- What a node has to be under its parent, in the tree of a filter text. -/
def FitsUnder (parent : Option Predicate) : Predicate → Prop
  | .matchAll => False
  | .or operands => parent = none ∧ 2 ≤ operands.length
  | .nor operands => (parent = none ∨ ∃ ps, parent = some (.or ps)) ∧ 2 ≤ operands.length
  | .and operands =>
    (parent = none ∨ (∃ ps, parent = some (.or ps)) ∨ ∃ ps, parent = some (.nor ps)) ∧
      2 ≤ operands.length
  | .not operand => operand.isLeaf = true ∨ ∃ p, operand = .not p
  | .compare _ op value =>
    if op.isMembership then ∃ items, value = .array items ∧ ∀ item ∈ items, item.IsConstant
    else value.IsConstant
  | .pattern _ .bothEnds regex | .pattern _ .nowhere regex =>
    ∃ text, regex.toList = Pattern.escape text
  | .pattern _ .atEnd regex => ∃ text, regex.toList = '^' :: Pattern.escape text
  | .pattern _ .atStart regex => ∃ text, regex.toList = Pattern.escape text ++ ['$']
  | .unrecognized _ => True

def WellPlaced (above : Option Predicate) (tree : Predicate) : Prop :=
  ∀ parent node, Occurs above tree parent node → node.FitsUnder parent

variable {above : Option Predicate} {tree leaf : Predicate}

theorem wellPlaced_of_children (htree : tree.FitsUnder above)
    (hchildren : ∀ child ∈ tree.children, WellPlaced (some tree) child) :
    WellPlaced above tree := by
  intro parent node hnode
  cases hnode with
  | root => exact htree
  | within hchild hnode => exact hchildren _ hchild _ _ hnode

theorem children_of_isLeaf (h : leaf.isLeaf = true) : leaf.children = [] := by
  cases leaf with
  | and | or | nor | not => cases h
  | _ => rfl

theorem wellPlaced_of_isLeaf (hleaf : leaf.isLeaf = true) (hfits : leaf.FitsUnder above) :
    WellPlaced above leaf := by
  refine wellPlaced_of_children hfits fun child hchild => ?_
  rw [children_of_isLeaf hleaf] at hchild
  cases hchild

theorem isLeaf_or_not (hleaf : leaf.isLeaf = true) (n : Nat) :
    (Predicate.not^[n] leaf).isLeaf = true ∨ ∃ p, Predicate.not^[n] leaf = .not p := by
  cases n with
  | zero => exact .inl hleaf
  | succ n => exact .inr ⟨_, Function.iterate_succ_apply' _ _ _⟩

theorem wellPlaced_not_iterate (hleaf : leaf.isLeaf = true) (hfits : ∀ above, leaf.FitsUnder above)
    (n : Nat) : WellPlaced above (Predicate.not^[n] leaf) := by
  induction n generalizing above with
  | zero => exact wellPlaced_of_isLeaf hleaf (hfits above)
  | succ n ih =>
      rw [Function.iterate_succ_apply']
      refine wellPlaced_of_children (isLeaf_or_not hleaf n) fun child hchild => ?_
      rw [List.mem_singleton.1 hchild]
      exact ih

theorem wellPlaced_combine {node : List Predicate → Predicate} {operands : List Predicate}
    (hne : operands ≠ []) (hchildren : ∀ ps, (node ps).children = ps)
    (halone : ∀ p ∈ operands, WellPlaced above p)
    (hnode : 2 ≤ operands.length → (node operands).FitsUnder above)
    (hunder : ∀ p ∈ operands, WellPlaced (some (node operands)) p) :
    WellPlaced above (Filter.combine node operands) := by
  match operands with
  | [] => exact absurd rfl hne
  | [operand] => exact halone operand (List.mem_singleton_self _)
  | first :: second :: others =>
      have hlength : 2 ≤ (first :: second :: others).length := by simp
      rw [Filter.combine_of_length hlength]
      refine wellPlaced_of_children (hnode hlength) fun child hchild => ?_
      rw [hchildren] at hchild
      exact hunder child hchild

end Predicate

namespace Filter

open Predicate

/-! ## Leaves -/

theorem fitsUnder_condition (parent : Option Predicate) (field value : List Char)
    (op : Operator) : (condition field op value).FitsUnder parent := by
  unfold condition
  split
  · rw [textTest]
    rcases cutWildcards (Literal.ofToken value).text.toList with ⟨wildcards, inner⟩
    cases wildcards <;> exact ⟨inner, String.toList_ofList⟩
  · split
    · next hmembership =>
      rw [FitsUnder, if_pos hmembership]
      refine ⟨elementValues value, rfl, fun item hitem => ?_⟩
      obtain ⟨element, -, rfl⟩ := List.mem_map.1 hitem
      exact Literal.isConstant_value_ofToken element
    · next hmembership =>
      rw [FitsUnder, if_neg hmembership]
      exact Literal.isConstant_value_ofToken value

theorem fitsUnder_segment (parent : Option Predicate) (tokens : List Token) :
    (segment tokens).FitsUnder parent := by
  rw [segment]
  split
  · exact fitsUnder_condition parent _ _ _
  · exact trivial

theorem isLeaf_segment (tokens : List Token) : (segment tokens).isLeaf = true := by
  rw [segment]
  split
  · exact isLeaf_condition _ _ _
  · rfl

/-! ## Levels -/

variable {above : Option Predicate}

theorem wellPlaced_operand (above : Option Predicate) (tokens : List Token) :
    WellPlaced above (Reading.operand Token.kind segment tokens) :=
  wellPlaced_not_iterate (isLeaf_segment _) (fun parent => fitsUnder_segment parent _) _

theorem wellPlaced_level {connective : Connective} {read : List Token → Predicate}
    (node : List Predicate → Predicate) (hchildren : ∀ ps, (node ps).children = ps)
    (halone : ∀ tokens, WellPlaced above (read tokens))
    (hnode : ∀ ps, 2 ≤ ps.length → (node ps).FitsUnder above)
    (hunder : ∀ ps tokens, WellPlaced (some (node ps)) (read tokens)) (tokens : List Token) :
    WellPlaced above (Reading.level Token.kind connective node read tokens) := by
  have hne : (Reading.pieces Token.kind connective tokens).map read ≠ [] := by
    rw [Ne, List.map_eq_nil_iff]
    exact List.splitOnP_ne_nil _ _
  refine wellPlaced_combine hne hchildren (fun p hp => ?_) (hnode _) (fun p hp => ?_)
  · obtain ⟨piece, -, rfl⟩ := List.mem_map.1 hp
    exact halone piece
  · obtain ⟨piece, -, rfl⟩ := List.mem_map.1 hp
    exact hunder _ piece

theorem wellPlaced_ands
    (h : above = none ∨ (∃ ps, above = some (.or ps)) ∨ ∃ ps, above = some (.nor ps))
    (tokens : List Token) : WellPlaced above (Reading.ands Token.kind segment tokens) :=
  wellPlaced_level .and (fun _ => rfl) (wellPlaced_operand above)
    (fun _ hlength => ⟨h, hlength⟩) (fun _ => wellPlaced_operand _) tokens

theorem wellPlaced_nors (h : above = none ∨ ∃ ps, above = some (.or ps)) (tokens : List Token) :
    WellPlaced above (Reading.nors Token.kind segment tokens) :=
  wellPlaced_level .nor (fun _ => rfl) (wellPlaced_ands (h.imp_right .inl))
    (fun _ hlength => ⟨h, hlength⟩) (fun ps => wellPlaced_ands (.inr (.inr ⟨ps, rfl⟩))) tokens

theorem wellPlaced_ors (tokens : List Token) :
    WellPlaced none (Reading.ors Token.kind segment tokens) :=
  wellPlaced_level .or (fun _ => rfl) (wellPlaced_nors (.inl rfl))
    (fun _ hlength => ⟨rfl, hlength⟩) (fun ps => wellPlaced_nors (.inr ⟨ps, rfl⟩)) tokens

/-- In the tree of a text that is not blank, every node fits under its parent. -/
theorem fitsUnder_of_occurs {text : String} (htext : text.toList.all Text.isBlank = false)
    {parent : Option Predicate} {node : Predicate}
    (hnode : Occurs none (Source.text text).tree parent node) : node.FitsUnder parent := by
  rw [Source.tree, parse_of_not_blank htext] at hnode
  exact wellPlaced_ors (tokens text.toList) parent node hnode

/-- A list with a wide integer and a number beyond the largest double, under a negation. -/
theorem fitsUnder_of_nested_operands :
    let text := "a like '%x' nor not b all (9999999999, 1e999) and c or d"
    let infinite := Binary64.ofMagnitude false Binary64.infiniteMagnitude
    let test : Predicate := .compare "b" .allOf (.array [.int64 9999999999, .double infinite])
    let operands : Predicate := .and [.not test, .unrecognized "c"]
    let alternative : Predicate := .nor [.pattern "a" .atStart "x$", operands]
    text.toList.all Text.isBlank = false ∧
    (Source.text text).tree = .or [alternative, .unrecognized "d"] ∧
    Occurs none (Source.text text).tree (some alternative) operands ∧
    Occurs none (Source.text text).tree (some (.not test)) test ∧
    operands.FitsUnder (some alternative) ∧ test.FitsUnder (some (.not test)) := by
  intro text infinite test operands alternative
  have htext : text.toList.all Text.isBlank = false := by decide
  have htokens : tokens text.toList =
      [⟨.word, [], ['a']⟩, ⟨.operator .like, [' '], "like".toList⟩,
        ⟨.quoted, [' '], "'%x'".toList⟩, ⟨.connective .nor, [' '], "nor".toList⟩,
        ⟨.not, [' '], "not".toList⟩, ⟨.word, [' '], ['b']⟩,
        ⟨.operator (.comparison .allOf), [' '], "all".toList⟩,
        ⟨.word, [' '], "(9999999999,".toList⟩, ⟨.word, [' '], "1e999)".toList⟩,
        ⟨.connective .and, [' '], "and".toList⟩, ⟨.word, [' '], ['c']⟩,
        ⟨.connective .or, [' '], "or".toList⟩, ⟨.word, [' '], ['d']⟩] := by
    decide +kernel
  have htree : (Source.text text).tree = .or [alternative, .unrecognized "d"] := by
    rw [Source.tree, parse_of_not_blank htext, htokens]
    rfl
  have hbelow {parent node : Predicate}
      (h : Occurs (some alternative) operands (some parent) node) :
      Occurs none (Source.text text).tree (some parent) node := by
    rw [htree]
    exact .within (by simp [children]) (.within (by simp [children, alternative]) h)
  have htest : Occurs (some alternative) operands (some (.not test)) test :=
    .within (by simp [children, operands]) (.within (by simp [children]) (.root _ _))
  exact ⟨htext, htree, hbelow (.root _ _), hbelow htest,
    fitsUnder_of_occurs htext (hbelow (.root _ _)), fitsUnder_of_occurs htext (hbelow htest)⟩

end Filter

end DocumentStore
