import DocumentStore.Proofs.Filter.LeafSlices

/-!
# The descent over places

A filter text is read by the places of its tokens alone, and every slice of it is checked on the
way.  The reading has a result, and that is the tree of the text.
-/

namespace DocumentStore.Filter

/-! ## Readers of places -/

/-- A reader of tokens by their places: what it read, and the tokens that remain. -/
abbrev MarkReader (α : Type) := List Mark → Option (α × List Mark)

def Mark.isConnective (mark : Mark) : Bool :=
  match mark.kind with
  | .connective _ => true
  | _ => false

def segment? (source : List Char) : MarkReader Predicate := fun marks => do
  let leaf ← leaf? source (marks.takeWhile (!·.isConnective))
  return (leaf, marks.dropWhile (!·.isConnective))

def operand? (source : List Char) : MarkReader Predicate
  | [] => segment? source []
  | mark :: rest =>
    if mark.kind = .not then do
      let (operand, last) ← operand? source rest
      return (.not operand, last)
    else segment? source (mark :: rest)

/-- Operands with the same connective between them, read in at most so many turns. -/
def chain? (connective : Connective) (operand : MarkReader Predicate) :
    Nat → MarkReader (List Predicate)
  | 0, _ => none
  | turns + 1, marks => do
    match ← operand marks with
    | (first, []) => return ([first], [])
    | (first, mark :: rest) =>
      if mark.kind = .connective connective then
        let (others, last) ← chain? connective operand turns rest
        return (first :: others, last)
      else return ([first], mark :: rest)

def level? (connective : Connective) (node : List Predicate → Predicate)
    (operand : MarkReader Predicate) : MarkReader Predicate := fun marks => do
  let (operands, rest) ← chain? connective operand (marks.length + 1) marks
  return (combine node operands, rest)

def ors? (source : List Char) : MarkReader Predicate :=
  level? .or .or (level? .nor .nor (level? .and .and (operand? source)))

def compile? (source : List Char) : Option Predicate :=
  if source.all Text.isBlank then some .matchAll
  else do
    let marks ← marks? source
    let (tree, _) ← ors? source marks
    return tree

/-! ## Readers of places and readers of tokens -/

/-- On the places of the last tokens, the one reader reads what the other reads on the tokens. -/
def Follows {α : Type} (all : List Placed) (read? : MarkReader α) (reader : Reader α) : Prop :=
  ∀ placed, placed <:+ all → ∃ rest, rest <:+ placed ∧
    read? (placed.map Placed.mark) =
      some ((reader (placed.map Placed.token)).1, rest.map Placed.mark) ∧
    (reader (placed.map Placed.token)).2.1 = rest.map Placed.token

theorem follows_segment (source : List Char) :
    Follows (place 0 (tokens source)) (segment? source) readSegment := by
  intro placed hplaced
  have hpart : placed.takeWhile (fun placed => !placed.token.isConnective) <:+:
      place 0 (tokens source) :=
    (List.takeWhile_prefix _).isInfix.trans hplaced.isInfix
  have hleaf := leaf?_eq hpart
  refine ⟨placed.dropWhile fun placed => !placed.token.isConnective,
    List.dropWhile_suffix _, ?_, ?_⟩
  · rw [segment?, List.takeWhile_map, List.dropWhile_map]
    show (leaf? source ((placed.takeWhile fun placed => !placed.token.isConnective).map
      Placed.mark)).bind _ = _
    rw [hleaf, readSegment, List.takeWhile_map]
    rfl
  · show (placed.map Placed.token).dropWhile (!·.isConnective) = _
    rw [List.dropWhile_map]
    rfl

theorem follows_operand (source : List Char) :
    Follows (place 0 (tokens source)) (operand? source) readOperand := by
  intro placed hplaced
  induction placed with
  | nil => exact follows_segment source [] hplaced
  | cons first placed ih =>
      have hkind : first.mark.kind = first.token.kind := rfl
      rw [List.map_cons, List.map_cons, operand?, readOperand, hkind]
      by_cases hnot : first.token.kind = .not
      · obtain ⟨rest, hsuffix, hread, hrest⟩ :=
          ih ((List.suffix_cons first placed).trans hplaced)
        refine ⟨rest, hsuffix.trans (List.suffix_cons first placed), ?_, ?_⟩
        · rw [if_pos hnot, if_pos hnot, hread]
          rfl
        · rw [if_pos hnot]
          exact hrest
      · rw [if_neg hnot, if_neg hnot]
        exact follows_segment source (first :: placed) hplaced

variable {all : List Placed} {operand : MarkReader Predicate} {reader : Reader Predicate}

theorem follows_chain (connective : Connective) (hfollows : Follows all operand reader)
    {turns : Nat} {placed : List Placed} (hplaced : placed <:+ all)
    (hturns : placed.length < turns) :
    ∃ rest, rest <:+ placed ∧
      chain? connective operand turns (placed.map Placed.mark) =
        some ((readChain connective reader (placed.map Placed.token)).1,
          rest.map Placed.mark) ∧
      (readChain connective reader (placed.map Placed.token)).2.1 = rest.map Placed.token := by
  induction turns generalizing placed with
  | zero => omega
  | succ turns ih =>
      obtain ⟨left, hleft, hread, hrest⟩ := hfollows placed hplaced
      rw [chain?, hread, readChain, Option.bind_eq_bind, Option.bind_some]
      generalize reader (placed.map Placed.token) = result at hrest ⊢
      obtain ⟨first, behind, hle⟩ := result
      obtain rfl : behind = left.map Placed.token := hrest
      cases left with
      | nil => exact ⟨[], List.nil_suffix, rfl, rfl⟩
      | cons next left =>
          have htail : left <:+ placed := (List.suffix_cons next left).trans hleft
          have hshorter : left.length < turns := by
            have hle := hleft.length_le
            rw [List.length_cons] at hle
            omega
          obtain ⟨rest, hsuffix, hothers, hlast⟩ := ih (htail.trans hplaced) hshorter
          have hkind : next.mark.kind = next.token.kind := rfl
          simp only [List.map_cons, hkind]
          by_cases hconnective : next.token.kind = .connective connective
          · rw [if_pos hconnective, if_pos hconnective, hothers]
            exact ⟨rest, hsuffix.trans htail, rfl, hlast⟩
          · rw [if_neg hconnective, if_neg hconnective]
            exact ⟨next :: left, hleft, rfl, rfl⟩

theorem follows_level (connective : Connective) (node : List Predicate → Predicate)
    (hfollows : Follows all operand reader) :
    Follows all (level? connective node operand) fun tokens =>
      let (operands, rest) := readChain connective reader tokens
      (combine node operands, rest) := by
  intro placed hplaced
  obtain ⟨rest, hsuffix, hread, hrest⟩ := follows_chain connective hfollows hplaced
    (Nat.lt_succ_self _)
  refine ⟨rest, hsuffix, ?_, hrest⟩
  rw [level?, List.length_map, hread]
  rfl

theorem follows_ors (source : List Char) :
    Follows (place 0 (tokens source)) (ors? source) readOrs :=
  follows_level .or .or (follows_level .nor .nor (follows_level .and .and (follows_operand source)))

/-! ## Whole texts -/

def textMarks (text : String) : List Mark := (place 0 (tokens text.toList)).map Placed.mark

theorem compile?_eq (source : List Char) : compile? source = some (parse source) := by
  rw [compile?, parse]
  split
  · rfl
  · obtain ⟨rest, -, hread, -⟩ := follows_ors source _ List.suffix_rfl
    rw [marks?_eq, Option.bind_eq_bind, Option.bind_some, hread, map_token_place]
    rfl

/-- The scan of a text ends, and its tokens lie well in it.  The reading that goes by their places
never asks for what is no slice, and gives the tree of the text. -/
theorem compile?_text (text : String) :
    marks? text.toList = some (textMarks text) ∧ WellPlaced text (textMarks text) ∧
      compile? text.toList = some (Source.text text).tree :=
  ⟨marks?_eq text.toList, wellPlaced_tokens text, compile?_eq text.toList⟩

end DocumentStore.Filter
