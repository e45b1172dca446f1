import DocumentStore.Filter.Grammar
import Mathlib.Data.List.TakeWhile
import Mathlib.Logic.Function.Iterate

/-!
# The descent as a split of the tokens

A filter is read by cutting its tokens at the connectives, the loosest first.  The
descent reads the same tree: a reader for one level takes the tokens up to the next looser
connective, and cuts them at its own.
-/

namespace DocumentStore.Filter

/-! ## Splitting -/

namespace Reading

section

variable {α β : Type} (kind : α → TokenKind) (leaf : List α → Predicate)

/-- The pieces between the connectives of one kind. -/
def pieces (connective : Connective) (tokens : List α) : List (List α) :=
  tokens.splitOnP fun token => kind token == .connective connective

/-- The negations at the front stand around the leaf of the rest. -/
def operand (tokens : List α) : Predicate :=
  let negations := tokens.takeWhile fun token => kind token == .not
  Predicate.not^[negations.length] (leaf (tokens.dropWhile fun token => kind token == .not))

/-- One piece is read by itself; more become the children of a node. -/
def level (connective : Connective) (node : List Predicate → Predicate)
    (read : List α → Predicate) (tokens : List α) : Predicate :=
  combine node ((pieces kind connective tokens).map read)

def ands : List α → Predicate := level kind .and .and (operand kind leaf)

def nors : List α → Predicate := level kind .nor .nor (ands kind leaf)

def ors : List α → Predicate := level kind .or .or (nors kind leaf)

end

/-! ## Tokens with more than their kind -/

section

variable {α β : Type} {kind : α → TokenKind} {leaf : List α → Predicate}
  {leaf' : List β → Predicate} {f : β → α} {tokens : List β}

theorem splitOnP_map (cut : α → Bool) (f : β → α) (xs : List β) :
    (xs.map f).splitOnP cut = (xs.splitOnP (cut ∘ f)).map (List.map f) := by
  induction xs with
  | nil => simp
  | cons x xs ih =>
      obtain ⟨piece, pieces, hpieces⟩ :=
        List.exists_cons_of_ne_nil (List.splitOnP_ne_nil (cut ∘ f) xs)
      rw [List.map_cons, List.splitOnP_cons_eq_if_modifyHead, ih,
        List.splitOnP_cons_eq_if_modifyHead, hpieces]
      by_cases hcut : cut (f x) = true
      · simp [hcut]
      · simp [hcut]

theorem exists_splitOnP_eq_cons (cut : β → Bool) (xs : List β) :
    ∃ first rest, xs.splitOnP cut = first :: rest ∧ first <+: xs ∧
      ∀ other ∈ rest, other <:+: xs := by
  induction xs with
  | nil => exact ⟨[], [], by simp, List.nil_prefix, by simp⟩
  | cons x xs ih =>
      obtain ⟨first, rest, hsplit, hfirst, hrest⟩ := ih
      have htail : xs <:+: x :: xs := (List.suffix_cons x xs).isInfix
      have hbehind : ∀ other ∈ rest, other <:+: x :: xs :=
        fun other hother => (hrest other hother).trans htail
      rw [List.splitOnP_cons_eq_if_modifyHead, hsplit]
      split
      · refine ⟨[], first :: rest, rfl, List.nil_prefix, ?_⟩
        intro other hother
        rcases List.mem_cons.1 hother with rfl | hmem
        · exact hfirst.isInfix.trans htail
        · exact hbehind other hmem
      · -- The first piece gets the new element, and stays a run because it is a prefix.
        exact ⟨x :: first, rest, rfl, List.cons_prefix_cons.2 ⟨rfl, hfirst⟩, hbehind⟩

theorem infix_of_mem_splitOnP {cut : β → Bool} {xs piece : List β}
    (h : piece ∈ xs.splitOnP cut) : piece <:+: xs := by
  obtain ⟨first, rest, hsplit, hfirst, hrest⟩ := exists_splitOnP_eq_cons cut xs
  rw [hsplit] at h
  rcases List.mem_cons.1 h with rfl | hmem
  · exact hfirst.isInfix
  · exact hrest piece hmem

theorem operand_map (h : ∀ part, part <:+: tokens → leaf (part.map f) = leaf' part) :
    operand kind leaf (tokens.map f) = operand (kind ∘ f) leaf' tokens := by
  have hrest := h _ (List.dropWhile_suffix fun token => kind (f token) == .not).isInfix
  simp only [operand, List.takeWhile_map, List.dropWhile_map, List.length_map,
    Function.comp_def, hrest]

theorem level_map {read : List α → Predicate} {read' : List β → Predicate}
    (connective : Connective) (node : List Predicate → Predicate)
    (h : ∀ part, part <:+: tokens → read (part.map f) = read' part) :
    level kind connective node read (tokens.map f) =
      level (kind ∘ f) connective node read' tokens := by
  rw [level, level, pieces, splitOnP_map, List.map_map]
  congr 1
  apply List.map_congr_left
  intro piece hpiece
  exact h piece (infix_of_mem_splitOnP hpiece)

theorem ors_map (h : ∀ part, part <:+: tokens → leaf (part.map f) = leaf' part) :
    ors kind leaf (tokens.map f) = ors (kind ∘ f) leaf' tokens :=
  level_map .or .or fun _ hnors => level_map .nor .nor fun _ hands =>
    level_map .and .and fun _ hoperand => operand_map fun part hpart =>
      h part (hpart.trans (hoperand.trans (hands.trans hnors)))

end

end Reading

/-! ## Readers -/

/-- The token is a connective out of the list. -/
def Token.endsAt (outer : List Connective) (token : Token) : Bool :=
  match token.kind with
  | .connective c => outer.contains c
  | _ => false

/-- A reader takes the tokens up to the next of the connectives, and reads all of them. -/
def Reads {α : Type} (outer : List Connective) (reader : Reader α) (read : List Token → α) :
    Prop :=
  ∀ tokens, (reader tokens).1 = read (tokens.takeWhile (!·.endsAt outer)) ∧
    (reader tokens).2.1 = tokens.dropWhile (!·.endsAt outer)

variable {connective : Connective} {outer : List Connective}

theorem endsAt_of_connective {token : Token} (h : token.kind = .connective connective) :
    token.endsAt outer = outer.contains connective := by
  rw [Token.endsAt, h]

theorem endsAt_of_ne {token : Token} (h : ∀ c, token.kind ≠ .connective c) :
    token.endsAt outer = false := by
  rw [Token.endsAt]
  split
  · next c hkind => exact absurd hkind (h c)
  · rfl

theorem endsAt_cons (token : Token) :
    token.endsAt (connective :: outer) =
      (token.kind == .connective connective || token.endsAt outer) := by
  by_cases h : ∃ c, token.kind = .connective c
  · obtain ⟨c, hc⟩ := h
    rw [endsAt_of_connective hc, endsAt_of_connective hc, hc, List.contains_cons]
    cases c <;> cases connective <;> rfl
  · have hne : ∀ c, token.kind ≠ .connective c := fun c hc => h ⟨c, hc⟩
    simp [endsAt_of_ne hne, hne]

theorem isConnective_eq_endsAt : Token.isConnective = Token.endsAt [.and, .nor, .or] := by
  funext token
  rw [Token.isConnective]
  split
  · next c hkind =>
    rw [endsAt_of_connective hkind]
    cases c <;> rfl
  · next hne => exact (endsAt_of_ne hne).symm

/-! ## Operands -/

theorem operand_cons_not {leaf : List Token → Predicate} {token : Token} (rest : List Token)
    (h : token.kind = .not) :
    Reading.operand Token.kind leaf (token :: rest) =
      .not (Reading.operand Token.kind leaf rest) := by
  simp [Reading.operand, h, Function.iterate_succ_apply']

theorem operand_of_head? {leaf : List Token → Predicate} {tokens : List Token}
    (h : ∀ token ∈ tokens.head?, token.kind ≠ .not) :
    Reading.operand Token.kind leaf tokens = leaf tokens := by
  cases tokens with
  | nil => rfl
  | cons token rest =>
      have hne : token.kind ≠ .not := h token rfl
      simp [Reading.operand, hne]

theorem reads_operand :
    Reads [.and, .nor, .or] readOperand (Reading.operand Token.kind segment) := by
  intro tokens
  rw [← isConnective_eq_endsAt]
  induction tokens with
  | nil => exact ⟨rfl, rfl⟩
  | cons token rest ih =>
      obtain ⟨htree, hrest⟩ := ih
      rw [readOperand]
      by_cases hnot : token.kind = .not
      · have hplain : token.isConnective = false := by rw [Token.isConnective, hnot]
        simp only [if_pos hnot, List.takeWhile_cons, List.dropWhile_cons, hplain, Bool.not_false,
          if_true, hrest, and_true]
        rw [htree, operand_cons_not _ hnot]
      · rw [if_neg hnot]
        refine ⟨?_, rfl⟩
        show segment ((token :: rest).takeWhile (!·.isConnective)) = _
        refine (operand_of_head? ?_).symm
        intro first hfirst
        rw [List.takeWhile_cons] at hfirst
        split at hfirst
        · rw [← Option.some.inj hfirst]
          exact hnot
        · cases hfirst

/-! ## Chains -/

/-- Cutting at one connective more continues the split behind the first cut. -/
theorem pieces_takeWhile {tokens : List Token} (hfresh : connective ∉ outer) :
    Reading.pieces Token.kind connective (tokens.takeWhile (!·.endsAt outer)) =
      tokens.takeWhile (!·.endsAt (connective :: outer)) ::
        match tokens.dropWhile (!·.endsAt (connective :: outer)) with
        | [] => []
        | token :: rest =>
          if token.kind = .connective connective then
            Reading.pieces Token.kind connective (rest.takeWhile (!·.endsAt outer))
          else [] := by
  induction tokens with
  | nil => simp [Reading.pieces]
  | cons token rest ih =>
      by_cases hkind : token.kind = .connective connective
      · have houter : token.endsAt outer = false := by
          rw [endsAt_of_connective hkind]
          simpa using hfresh
        simp [endsAt_cons, hkind, houter, Reading.pieces, List.splitOnP_cons_eq_if_modifyHead]
      · have hinner : token.endsAt (connective :: outer) = token.endsAt outer := by
          simp [endsAt_cons, hkind]
        by_cases houter : token.endsAt outer = true
        · simp [hinner, houter, hkind, Reading.pieces]
        · have hkeep : token.endsAt outer = false := Bool.not_eq_true _ ▸ houter
          simp only [List.takeWhile_cons, List.dropWhile_cons, hinner, hkeep, Bool.not_false,
            if_true]
          rw [Reading.pieces] at ih ⊢
          rw [List.splitOnP_cons_eq_if_modifyHead, if_neg (by simpa using hkind), ih]
          rfl

theorem dropWhile_endsAt {tokens : List Token} (hfresh : connective ∉ outer) :
    tokens.dropWhile (!·.endsAt outer) =
      match tokens.dropWhile (!·.endsAt (connective :: outer)) with
      | [] => []
      | token :: rest =>
        if token.kind = .connective connective then rest.dropWhile (!·.endsAt outer)
        else token :: rest := by
  induction tokens with
  | nil => rfl
  | cons token rest ih =>
      by_cases hkind : token.kind = .connective connective
      · have houter : token.endsAt outer = false := by
          rw [endsAt_of_connective hkind]
          simpa using hfresh
        simp [endsAt_cons, hkind, houter]
      · have hinner : token.endsAt (connective :: outer) = token.endsAt outer := by
          simp [endsAt_cons, hkind]
        by_cases houter : token.endsAt outer = true
        · simp [hinner, houter, hkind]
        · have hkeep : token.endsAt outer = false := Bool.not_eq_true _ ▸ houter
          simp only [List.dropWhile_cons, hinner, hkeep, Bool.not_false, if_true]
          exact ih

theorem readChain_eq {reader : Reader Predicate} {read : List Token → Predicate}
    (hfresh : connective ∉ outer) (hreader : Reads (connective :: outer) reader read)
    (tokens : List Token) :
    (readChain connective reader tokens).1 =
      (Reading.pieces Token.kind connective (tokens.takeWhile (!·.endsAt outer))).map read ∧
    (readChain connective reader tokens).2.1 = tokens.dropWhile (!·.endsAt outer) := by
  obtain ⟨hfirst, hbehind⟩ := hreader tokens
  rw [pieces_takeWhile hfresh, dropWhile_endsAt hfresh, ← hbehind, List.map_cons, ← hfirst,
    readChain]
  -- What the operand leaves is empty, or starts with this connective or an outer one.
  rcases reader tokens with ⟨first, ⟨_ | ⟨token, rest⟩, hle⟩⟩
  · exact ⟨rfl, rfl⟩
  · have hshorter : rest.length < tokens.length := hle
    by_cases hkind : token.kind = .connective connective
    · obtain ⟨hothers, hlast⟩ := readChain_eq hfresh hreader rest
      simp only [if_pos hkind]
      exact ⟨congrArg (first :: ·) hothers, hlast⟩
    · simp [if_neg hkind]
termination_by tokens.length

theorem reads_level {reader : Reader Predicate} {read : List Token → Predicate}
    (node : List Predicate → Predicate) (hfresh : connective ∉ outer)
    (hreader : Reads (connective :: outer) reader read) :
    Reads outer
      (fun tokens => let (operands, rest) := readChain connective reader tokens
        (combine node operands, rest))
      (Reading.level Token.kind connective node read) := by
  intro tokens
  obtain ⟨hoperands, hrest⟩ := readChain_eq hfresh hreader tokens
  exact ⟨congrArg (combine node) hoperands, hrest⟩

theorem reads_ors : Reads [] readOrs (Reading.ors Token.kind segment) := by
  have hands : Reads [.nor, .or] readAnds (Reading.ands Token.kind segment) :=
    reads_level .and (by decide) reads_operand
  have hnors : Reads [.or] readNors (Reading.nors Token.kind segment) :=
    reads_level .nor (by decide) hands
  exact reads_level .or (by decide) hnors

/-- The descent reads all tokens, and what it reads is the split of all tokens. -/
theorem readOrs_eq (tokens : List Token) :
    (readOrs tokens).1 = Reading.ors Token.kind segment tokens ∧ (readOrs tokens).2.1 = [] := by
  have hall : ∀ token ∈ tokens, (!token.endsAt []) = true := by
    intro token _
    rw [Token.endsAt]
    split <;> rfl
  obtain ⟨htree, hrest⟩ := reads_ors tokens
  rw [List.takeWhile_eq_self_iff.2 hall] at htree
  rw [List.dropWhile_eq_nil_iff.2 hall] at hrest
  exact ⟨htree, hrest⟩

theorem combine_of_length {node : List Predicate → Predicate} {operands : List Predicate}
    (h : 2 ≤ operands.length) : combine node operands = node operands := by
  match operands with
  | _ :: _ :: _ => rfl

theorem parse_of_not_blank {source : List Char} (h : source.all Text.isBlank = false) :
    parse source = Reading.ors Token.kind segment (tokens source) := by
  rw [parse, if_neg (Bool.eq_false_iff.1 h), (readOrs_eq _).1]

end DocumentStore.Filter
