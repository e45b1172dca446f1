import DocumentStore.Proofs.Filter.Shapes
import DocumentStore.Proofs.Filter.Spelling

/-!
# Filters joined by a connective

Two filter texts with a connective between them are read as they are read alone, and their
operands become the operands of one node.  The first text must not leave a quote open that the
second one closes.
-/

namespace DocumentStore.Filter

/-! ## Tokens of joined texts -/

/-- No word starts with a quote: the quotes at the start of tokens are closed within the text. -/
def ClosesQuotes (source : List Char) : Prop :=
  ∀ token ∈ tokens source, token.kind = .word →
    token.text.head?.any Literal.isQuote = false

theorem quotedRun?_append {cs run : List Char} (h : quotedRun? cs = some run)
    (rest : List Char) : quotedRun? (cs ++ rest) = some run := by
  cases cs with
  | nil => cases h
  | cons c tail =>
      obtain ⟨more, hmore⟩ := quotedRun?_prefix h
      rw [quotedRun?] at h
      split at h
      · next hquote =>
        rw [Bool.and_eq_true] at hquote
        have hinner : c ∉ tail.takeWhile (· != c) := by
          intro hc
          simpa using List.mem_takeWhile_imp hc
        rw [← Option.some.inj h] at hmore ⊢
        rw [← hmore]
        simpa using quotedRun?_quoted hquote.1 hinner (more ++ rest)
      · cases h

theorem symbol?_of_isQuote {c : Char} (h : Literal.isQuote c = true) (rest : List Char) :
    symbol? (c :: rest) = none := by
  simp only [Literal.isQuote, Bool.or_eq_true, beq_iff_eq] at h
  rcases h with rfl | rfl <;> rfl

theorem toNat_le_of_isQuote {c : Char} (h : Literal.isQuote c = true) : c.toNat ≤ 57 := by
  simp only [Literal.isQuote, Bool.or_eq_true, beq_iff_eq] at h
  rcases h with rfl | rfl <;> decide

/-- A quote that opens no run starts a word. -/
theorem lexeme_of_isQuote {c : Char} {rest : List Char} (hquote : Literal.isQuote c = true)
    (hspace : isSpace c = false) (hrun : quotedRun? (c :: rest) = none) :
    lexeme (c :: rest) = (.word, c :: wordRun rest) := by
  have hword : wordRun (c :: rest) = c :: wordRun rest :=
    wordRun_cons hspace (symbol?_of_isQuote hquote rest)
  rw [lexeme, hrun, symbol?_of_isQuote hquote, hword, wordKind_of_le (toNat_le_of_isQuote hquote)]

theorem lexeme_append {cs rest : List Char} (hrest : Ends rest) (hopens : Opens cs)
    (hquote : (lexeme cs).1 = .word → (lexeme cs).2.head?.any Literal.isQuote = false) :
    lexeme (cs ++ rest) = lexeme cs := by
  obtain ⟨c, tail, rfl, hspace⟩ := hopens
  cases hrun : quotedRun? (c :: tail) with
  | some run => rw [lexeme, quotedRun?_append hrun, lexeme, hrun]
  | none =>
      have hplain : Literal.isQuote c = false := by
        refine Bool.eq_false_iff.2 fun hopens => ?_
        rw [lexeme_of_isQuote hopens hspace hrun, List.head?_cons, Option.any_some,
          hopens] at hquote
        cases hquote rfl
      have hboth : quotedRun? (c :: tail ++ rest) = none := quotedRun?_of_not_isQuote hplain
      rw [lexeme, hboth, symbol?_append hrest.stops (by simp), wordRun_append hrest.stops, lexeme,
        hrun]

theorem exists_tokens_append {source rest : List Char} (hcloses : ClosesQuotes source)
    (hrest : Ends rest) :
    ∃ gap, (∀ c ∈ gap, isSpace c = true) ∧
      tokens (source ++ rest) = tokens source ++ tokens (gap ++ rest) := by
  induction source using tokens_induction with
  | blank source h => exact ⟨source, h, by rw [tokens_of_isSpace h, List.nil_append]⟩
  | token kind gap text behind hgap hopens hlexeme ih =>
      have htokens := tokens_of_lexeme hgap hopens hlexeme
      rw [ClosesQuotes, htokens, List.forall_mem_cons] at hcloses
      obtain ⟨last, hlast, hbehind⟩ := ih hcloses.2
      have hopensBoth : Opens (text ++ behind) := by
        obtain ⟨c, tail, rfl, hc⟩ := hopens
        exact ⟨c, tail ++ behind, rfl, hc⟩
      have hboth : lexeme (text ++ (behind ++ rest)) = (kind, text) := by
        rw [← List.append_assoc, lexeme_append hrest hopensBoth (by rw [hlexeme]; exact hcloses.1),
          hlexeme]
      refine ⟨last, hlast, ?_⟩
      rw [List.append_assoc, tokens_of_lexeme hgap hopens hboth, hbehind, htokens]
      rfl

/-! ## The gap in front of a text -/

/-- The gap before the first token has no say in what is read. -/
def GapBlind {α : Type} (read : List Token → α) : Prop :=
  ∀ (kind : TokenKind) (text gap gap' : List Char) (rest : List Token),
    read (⟨kind, gap, text⟩ :: rest) = read (⟨kind, gap', text⟩ :: rest)

theorem GapBlind.tokens_append {α : Type} {read : List Token → α} (hread : GapBlind read)
    {gap : List Char} (hgap : ∀ c ∈ gap, isSpace c = true) (source : List Char) :
    read (tokens (gap ++ source)) = read (tokens source) := by
  have hdrop : (gap ++ source).dropWhile isSpace = source.dropWhile isSpace :=
    List.dropWhile_append_of_pos hgap
  cases h : source.dropWhile isSpace with
  | nil => rw [tokens_of_blank h, tokens_of_blank (hdrop.trans h)]
  | cons c rest =>
      rw [tokens_of_cons h, tokens_of_cons (hdrop.trans h)]
      exact hread _ _ _ _ _

theorem gapBlind_segment : GapBlind segment := by
  intro kind text gap gap' rest
  rw [segment, segment, splitAtOperator, splitAtOperator]
  cases kind with
  | operator op => rfl
  | _ => cases splitAtOperator rest <;> rfl

theorem gapBlind_operand : GapBlind (Reading.operand Token.kind segment) := by
  intro kind text gap gap' rest
  by_cases hnot : kind = .not
  · rw [operand_cons_not rest hnot, operand_cons_not rest hnot]
  · rw [operand_of_head? (by simpa using hnot), operand_of_head? (by simpa using hnot)]
    exact gapBlind_segment _ _ _ _ _

section

variable {read : List Token → Predicate} (hread : GapBlind read) (connective : Connective)

include hread

theorem GapBlind.pieces :
    GapBlind fun tokens => (Reading.pieces Token.kind connective tokens).map read := by
  intro kind text gap gap' rest
  obtain ⟨piece, pieces, hpieces⟩ := List.exists_cons_of_ne_nil
    (List.splitOnP_ne_nil (fun token : Token => token.kind == .connective connective) rest)
  have hfirst := hread kind text gap gap' piece
  simp only [Reading.pieces, List.splitOnP_cons_eq_if_modifyHead, hpieces]
  split
  · rfl
  · rw [List.modifyHead_cons, List.modifyHead_cons, List.map_cons, List.map_cons, hfirst]

theorem GapBlind.level (node : List Predicate → Predicate) :
    GapBlind (Reading.level Token.kind connective node read) :=
  fun kind text gap gap' rest =>
    congrArg (combine node) (hread.pieces connective kind text gap gap' rest)

end

theorem gapBlind_ands : GapBlind (Reading.ands Token.kind segment) :=
  gapBlind_operand.level .and .and

theorem gapBlind_nors : GapBlind (Reading.nors Token.kind segment) :=
  gapBlind_ands.level .nor .nor

/-! ## Operands of a connective -/

def uses (connective : Connective) (text : String) : Bool :=
  (tokens text.toList).any fun token => token.kind == .connective connective

/-- What a connective joins in a filter text: the trees under the root, and the whole tree where
the text does not have the connective. -/
def operandsOf (connective : Connective) (text : String) : List Predicate :=
  if uses connective text then (Source.text text).tree.children else [(Source.text text).tree]

section

variable {connective : Connective} {node : List Predicate → Predicate}
  {read : List Token → Predicate}

theorem pieces_append_cons {token : Token} (hkind : token.kind = .connective connective)
    (front back : List Token) :
    Reading.pieces Token.kind connective (front ++ token :: back) =
      Reading.pieces Token.kind connective front ++ Reading.pieces Token.kind connective back :=
  List.splitOnP_append_cons front back (by simp [hkind])

theorem level_append_cons {token : Token} (hkind : token.kind = .connective connective)
    (front back : List Token) :
    Reading.level Token.kind connective node read (front ++ token :: back) =
      node ((Reading.pieces Token.kind connective front).map read ++
        (Reading.pieces Token.kind connective back).map read) := by
  have hfront : 0 < (Reading.pieces Token.kind connective front).length :=
    List.length_pos_iff.2 (List.splitOnP_ne_nil _ _)
  have hback : 0 < (Reading.pieces Token.kind connective back).length :=
    List.length_pos_iff.2 (List.splitOnP_ne_nil _ _)
  rw [Reading.level, pieces_append_cons hkind, List.map_append, combine_of_length]
  simp only [List.length_append, List.length_map]
  omega

theorem pieces_of_absent {tokens : List Token}
    (h : ∀ token ∈ tokens, token.kind ≠ .connective connective) :
    Reading.pieces Token.kind connective tokens = [tokens] :=
  List.splitOnP_eq_singleton fun token htoken => by simpa using h token htoken

theorem level_of_absent {tokens : List Token}
    (h : ∀ token ∈ tokens, token.kind ≠ .connective connective) :
    Reading.level Token.kind connective node read tokens = read tokens := by
  rw [Reading.level, pieces_of_absent h]
  rfl

theorem uses_eq_false_iff {text : String} : uses connective text = false ↔
    ∀ token ∈ tokens text.toList, token.kind ≠ .connective connective := by
  simp [uses]

theorem operandsOf_eq {text : String} (hchildren : ∀ ps, (node ps).children = ps)
    (htree : (Source.text text).tree =
      Reading.level Token.kind connective node read (tokens text.toList)) :
    operandsOf connective text =
      (Reading.pieces Token.kind connective (tokens text.toList)).map read := by
  rw [operandsOf, htree]
  split
  · next huses =>
    obtain ⟨token, htoken, hkind⟩ := List.any_eq_true.1 huses
    rw [beq_iff_eq] at hkind
    obtain ⟨front, back, hsplit⟩ := List.append_of_mem htoken
    rw [hsplit, level_append_cons hkind, hchildren, pieces_append_cons hkind, List.map_append]
  · next hunused =>
    have habsent := uses_eq_false_iff.1 (Bool.not_eq_true _ ▸ hunused)
    rw [level_of_absent habsent, pieces_of_absent habsent]
    rfl

end

/-! ## Joined texts -/

theorem tree_of_not_blank {text : String} (h : text.toList.all Text.isBlank = false) :
    (Source.text text).tree =
      Reading.level Token.kind .or .or (Reading.nors Token.kind segment) (tokens text.toList) :=
  parse_of_not_blank h

theorem tree_of_conjunction {text : String} (h : text.toList.all Text.isBlank = false)
    (hloose : uses .or text = false ∧ uses .nor text = false) :
    (Source.text text).tree =
      Reading.level Token.kind .and .and (Reading.operand Token.kind segment)
        (tokens text.toList) := by
  rw [tree_of_not_blank h, level_of_absent (uses_eq_false_iff.1 hloose.1), Reading.nors,
    level_of_absent (uses_eq_false_iff.1 hloose.2), Reading.ands]

section

variable {connective : Connective} {a b text : String} {word : List Char}
  (hcloses : ClosesQuotes a.toList) (hword : IsLexeme (.connective connective) word)
  (htext : text.toList = a.toList ++ ' ' :: (word ++ ' ' :: b.toList))

include hcloses hword htext

theorem exists_tokens_joined :
    ∃ token, token.kind = .connective connective ∧
      tokens text.toList = tokens a.toList ++ token :: tokens ([' '] ++ b.toList) := by
  obtain ⟨gap, hgap, htokens⟩ :=
    exists_tokens_append hcloses (ends_space (word ++ ' ' :: b.toList))
  have hspaces : ∀ c ∈ gap ++ [' '], isSpace c = true := by
    intro c hc
    rcases List.mem_append.1 hc with hc | hc
    · exact hgap c hc
    · exact isSpace_of_mem_space c hc
  have hbehind := hword.lexes (gap ++ [' ']) (' ' :: b.toList) hspaces (ends_space _)
  refine ⟨⟨.connective connective, gap ++ [' '], word⟩, rfl, ?_⟩
  rw [htext, htokens, ← List.singleton_append, ← List.append_assoc, ← List.append_assoc, hbehind]
  rfl

theorem uses_joined (other : Connective) :
    uses other text = (uses other a || (connective == other || uses other b)) := by
  obtain ⟨token, hkind, htokens⟩ := exists_tokens_joined hcloses hword htext
  have hblind : GapBlind fun tokens : List Token =>
      tokens.any fun token => token.kind == .connective other := fun _ _ _ _ _ => rfl
  have hgap := hblind.tokens_append isSpace_of_mem_space b.toList
  simp only [uses, htokens, List.any_append, List.any_cons, hkind, hgap]
  cases connective <;> cases other <;> rfl

theorem tree_joined {node : List Predicate → Predicate} {read : List Token → Predicate}
    (hread : GapBlind read) (hchildren : ∀ ps, (node ps).children = ps)
    (hlevel : ∀ t ∈ [a, b, text], (Source.text t).tree =
      Reading.level Token.kind connective node read (tokens t.toList)) :
    (Source.text text).tree = node (operandsOf connective a ++ operandsOf connective b) := by
  obtain ⟨token, hkind, htokens⟩ := exists_tokens_joined hcloses hword htext
  have hgap := (hread.pieces connective).tokens_append isSpace_of_mem_space b.toList
  rw [hlevel text (by simp), htokens, level_append_cons hkind, hgap,
    operandsOf_eq hchildren (hlevel a (by simp)), operandsOf_eq hchildren (hlevel b (by simp))]

end

/-- Two filter texts with `or` between them are the disjunction of their alternatives.  With
`and` between them, and no looser connective in them, they are the conjunction of their
conjuncts. -/
theorem tree_of_joined_texts {a b : String} (ha : a.toList.all Text.isBlank = false)
    (hb : b.toList.all Text.isBlank = false) (hcloses : ClosesQuotes a.toList) :
    (Source.text (a ++ " or " ++ b)).tree = .or (operandsOf .or a ++ operandsOf .or b) ∧
    ((∀ text ∈ [a, b], uses .or text = false ∧ uses .nor text = false) →
      (Source.text (a ++ " and " ++ b)).tree = .and (operandsOf .and a ++ operandsOf .and b)) := by
  have hor : IsLexeme (.connective .or) ['o', 'r'] := isLexeme_word rfl (by decide) rfl
  have hand : IsLexeme (.connective .and) ['a', 'n', 'd'] := isLexeme_word rfl (by decide) rfl
  have hvisible (word : String) : (a ++ word ++ b).toList.all Text.isBlank = false := by
    simp [ha]
  refine ⟨tree_joined hcloses hor (by simp) gapBlind_nors (fun _ => rfl) ?_, fun hloose => ?_⟩
  · simp only [List.forall_mem_cons]
    exact ⟨tree_of_not_blank ha, tree_of_not_blank hb, tree_of_not_blank (hvisible _), nofun⟩
  · simp only [List.forall_mem_cons] at hloose
    obtain ⟨haloose, hbloose, -⟩ := hloose
    have htext : (a ++ " and " ++ b).toList =
        a.toList ++ ' ' :: (['a', 'n', 'd'] ++ ' ' :: b.toList) := by simp
    have hboth (other : Connective) (hother : other ≠ .and) (hfirst : uses other a = false)
        (hsecond : uses other b = false) : uses other (a ++ " and " ++ b) = false := by
      rw [uses_joined hcloses hand htext, hfirst, hsecond]
      simpa using hother.symm
    refine tree_joined hcloses hand htext gapBlind_operand (fun _ => rfl) ?_
    simp only [List.forall_mem_cons]
    exact ⟨tree_of_conjunction ha haloose, tree_of_conjunction hb hbloose,
      tree_of_conjunction (hvisible _) ⟨hboth .or nofun haloose.1 hbloose.1,
        hboth .nor nofun haloose.2 hbloose.2⟩, nofun⟩

/-- A quoted `or`, an apostrophe within a word, and a quote in the second text that stays open. -/
theorem tree_of_two_conjunctions :
    let a := "x = 'p or q' and not name = O'Brien "
    let b := " y = 'open and z > 3"
    a.toList.all Text.isBlank = false ∧ b.toList.all Text.isBlank = false ∧
    ClosesQuotes a.toList ∧
    (∀ text ∈ [a, b], uses .or text = false ∧ uses .nor text = false) ∧
    (Source.text (a ++ " or " ++ b)).tree = .or [(Source.text a).tree, (Source.text b).tree] ∧
    (Source.text (a ++ " and " ++ b)).tree =
      .and [.compare "x" .eq (.string "p or q"), .not (.compare "name" .eq (.string "O'Brien")),
        .compare "y" .eq (.string "'open"), .compare "z" .gt (.int32 3)] := by
  intro a b
  have ha : a.toList.all Text.isBlank = false := by decide
  have hb : b.toList.all Text.isBlank = false := by decide
  have hfirst : tokens a.toList =
      [⟨.word, [], ['x']⟩, ⟨.operator (.comparison .eq), [' '], ['=']⟩,
        ⟨.quoted, [' '], "'p or q'".toList⟩, ⟨.connective .and, [' '], "and".toList⟩,
        ⟨.not, [' '], "not".toList⟩, ⟨.word, [' '], "name".toList⟩,
        ⟨.operator (.comparison .eq), [' '], ['=']⟩, ⟨.word, [' '], "O'Brien".toList⟩] := by
    decide +kernel
  have hsecond : tokens b.toList =
      [⟨.word, [' '], ['y']⟩, ⟨.operator (.comparison .eq), [' '], ['=']⟩,
        ⟨.word, [' '], "'open".toList⟩, ⟨.connective .and, [' '], "and".toList⟩,
        ⟨.word, [' '], ['z']⟩, ⟨.operator (.comparison .gt), [' '], ['>']⟩,
        ⟨.word, [' '], ['3']⟩] := by
    decide +kernel
  have hcloses : ClosesQuotes a.toList := by
    rw [ClosesQuotes, hfirst]
    decide
  have hloose : ∀ text ∈ [a, b], uses .or text = false ∧ uses .nor text = false := by
    simp [uses, hfirst, hsecond]
  obtain ⟨hor, hand⟩ := tree_of_joined_texts ha hb hcloses
  have halternatives : operandsOf .or a ++ operandsOf .or b =
      [(Source.text a).tree, (Source.text b).tree] := by
    rw [operandsOf, (hloose a (by simp)).1, operandsOf, (hloose b (by simp)).1]
    rfl
  have hconjuncts : operandsOf .and a ++ operandsOf .and b =
      [.compare "x" .eq (.string "p or q"), .not (.compare "name" .eq (.string "O'Brien")),
        .compare "y" .eq (.string "'open"), .compare "z" .gt (.int32 3)] := by
    rw [operandsOf, operandsOf, tree_of_not_blank ha, tree_of_not_blank hb, uses, uses, hfirst,
      hsecond]
    rfl
  rw [halternatives] at hor
  rw [hand hloose, hconjuncts]
  exact ⟨ha, hb, hcloses, hloose, hor, rfl⟩

end DocumentStore.Filter
