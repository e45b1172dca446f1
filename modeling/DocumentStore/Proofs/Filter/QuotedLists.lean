import DocumentStore.Proofs.Filter.Composition
import DocumentStore.Proofs.Filter.Printing

/-!
# Lists of quoted strings

A membership test with a list of quoted strings is read as that test exactly when the lexer finds
no connective in its text.  Only the first string can make it find one: its quote stands behind the
bracket, where no token starts, and the words of the string are read as if it were not quoted.
-/

namespace DocumentStore.Filter

/-! ## Tests with a list -/

/-- The words for the tests that compare with a list. -/
def membershipWords : List (List Char × Comparison) :=
  [(['i', 'n'], .oneOf), (['n', 'i', 'n'], .noneOf), (['a', 'l', 'l'], .allOf)]

/-- A test of a field against one string or more, none of which holds a single quote. -/
structure ListTest where
  field : FieldName
  word : List Char
  op : Comparison
  spelled : (word, op) ∈ membershipWords
  first : String
  others : List String
  quotable : ∀ s ∈ first :: others, '\'' ∉ s.toList

namespace ListTest

def quoted (s : String) : List Char := '\'' :: s.toList ++ ['\'']

def listed (first : String) (others : List String) : List Char :=
  [',', ' '].intercalate ((first :: others).map quoted)

def list (test : ListTest) : List Char := '(' :: listed test.first test.others ++ [')']

def text (test : ListTest) : List Char :=
  test.field.name.toList ++ ' ' :: (test.word ++ ' ' :: test.list)

def tree (test : ListTest) : Predicate :=
  .compare test.field.name test.op (.array ((test.first :: test.others).map .string))

end ListTest

/-! ## Elements -/

theorem cutElements_inside {quote : Char} {inner : List Char} (h : quote ∉ inner)
    (element rest : List Char) :
    cutElements (some quote) element (inner ++ quote :: rest) =
      cutElements none (quote :: (inner.reverse ++ element)) rest := by
  induction inner generalizing element with
  | nil => simp [cutElements]
  | cons c inner ih =>
      rw [List.mem_cons, not_or] at h
      rw [List.cons_append, cutElements, if_neg (Ne.symm h.1), ih h.2]
      simp

namespace ListTest

theorem cutElements_quoted {s : String} (h : '\'' ∉ s.toList) {element : List Char}
    (hblank : element.all Text.isBlank = true) (rest : List Char) :
    cutElements none element (quoted s ++ rest) =
      cutElements none ((quoted s).reverse ++ element) rest := by
  have hopens : (Literal.isQuote '\'' && element.all Text.isBlank &&
      (s.toList ++ '\'' :: rest).contains '\'') = true := by
    simp [Literal.isQuote, hblank]
  rw [quoted, List.cons_append, List.cons_append, List.append_assoc, List.singleton_append,
    cutElements, if_pos hopens, cutElements_inside h]
  simp

theorem listed_cons (first next : String) (others : List String) :
    listed first (next :: others) = quoted first ++ ',' :: ' ' :: listed next others := by
  rw [listed, List.map_cons, List.map_cons, List.intercalate_cons_cons, List.append_assoc]
  rfl

theorem cutElements_listed {first : String} {others : List String}
    (h : ∀ s ∈ first :: others, '\'' ∉ s.toList) (element : List Char)
    (hblank : element.all Text.isBlank = true) :
    cutElements none element (listed first others) =
      (element.reverse ++ quoted first) :: others.map fun s => ' ' :: quoted s := by
  have hfirst : '\'' ∉ first.toList := h first List.mem_cons_self
  induction others generalizing first element with
  | nil =>
      have hquoted := cutElements_quoted hfirst hblank []
      rw [List.append_nil] at hquoted
      rw [listed, List.map_singleton, List.intercalate_singleton, hquoted, cutElements]
      simp
  | cons next others ih =>
      have hothers : ∀ s ∈ next :: others, '\'' ∉ s.toList :=
        fun s hs => h s (List.mem_cons_of_mem _ hs)
      have hnext := ih hothers [' '] rfl (hothers next List.mem_cons_self)
      have hcomma (before : List Char) :
          cutElements none before (',' :: ' ' :: listed next others) =
            before.reverse :: cutElements none [' '] (listed next others) := by
        simp [cutElements, Literal.isQuote]
      rw [listed_cons, cutElements_quoted hfirst hblank, hcomma, hnext]
      simp

theorem elements_list (test : ListTest) :
    elements test.list = (test.first :: test.others).map quoted := by
  have hinner : enclosed? '(' ')' test.list = some (listed test.first test.others) := by
    simp [list, enclosed?, Text.dropEnd?]
  have hcut := cutElements_listed test.quotable [] rfl
  have htrim (s : String) : Text.trim (quoted s) = quoted s := trim_quoted rfl s.toList
  have hspaced (s : String) : Text.trim ([' '] ++ quoted s) = quoted s :=
    (Text.trim_append_left isBlank_of_mem_space).trans (htrim s)
  have hvisible : ∀ s ∈ (test.first :: test.others).map quoted, (!s.isEmpty) = true := by
    intro s hs
    obtain ⟨s, -, rfl⟩ := List.mem_map.1 hs
    rfl
  have hmap : ((cutElements none [] (listed test.first test.others)).map Text.trim) =
      (test.first :: test.others).map quoted := by
    rw [hcut, List.map_cons, List.map_map, List.map_cons, List.reverse_nil, List.nil_append, htrim]
    exact congrArg _ (List.map_congr_left fun s _ => hspaced s)
  rw [elements, hinner, Option.some_or, Option.getD_some, hmap, List.filter_eq_self.2 hvisible]

theorem elementValues_list (test : ListTest) :
    elementValues test.list = (test.first :: test.others).map .string := by
  rw [elementValues, elements_list, List.map_map]
  refine List.map_congr_left fun s _ => ?_
  rw [Function.comp_apply, quoted, Literal.ofToken_quoted rfl, String.ofList_toList]
  rfl

end ListTest

/-! ## Tokens -/

theorem trim_sourceText_tokens (source : List Char) :
    Text.trim (sourceText (tokens source)) = Text.trim source := by
  obtain ⟨trailing, hsource, hspace⟩ := exists_eq_gappedText source
  calc Text.trim (sourceText (tokens source))
      = Text.trim (gappedText (tokens source)) :=
        (trim_gappedText fun token htoken c hc => isSpace_of_mem_gap htoken hc).symm
    _ = Text.trim (gappedText (tokens source) ++ trailing) :=
        (Text.trim_append_right fun c hc => isBlank_of_isSpace (hspace c hc)).symm
    _ = Text.trim source := by rw [← hsource]

theorem trim_list (test : ListTest) : Text.trim test.list = test.list := by
  refine Text.trim_eq_self (fun c hc => ?_) (fun c hc => ?_)
  · rw [← Option.some.inj hc]
    rfl
  · rw [ListTest.list, List.getLast?_append, List.getLast?_singleton] at hc
    rw [← Option.some.inj hc]
    rfl

theorem isLexeme_membership {word : List Char} {op : Comparison}
    (h : (word, op) ∈ membershipWords) :
    IsLexeme (.operator (.comparison op)) word ∧ op.isMembership = true := by
  simp only [membershipWords, List.mem_cons, Prod.mk.injEq, List.not_mem_nil, or_false] at h
  rcases h with ⟨rfl, rfl⟩ | ⟨rfl, rfl⟩ | ⟨rfl, rfl⟩
  all_goals exact ⟨isLexeme_word rfl (by decide) rfl, rfl⟩

theorem tokens_listTest (test : ListTest) :
    tokens test.text = ⟨.word, [], test.field.name.toList⟩ ::
      ⟨.operator (.comparison test.op), [' '], test.word⟩ :: tokens (' ' :: test.list) := by
  have hfield := test.field.isLexeme.lexes [] (' ' :: (test.word ++ ' ' :: test.list)) nofun
    (ends_space _)
  have hword := (isLexeme_membership test.spelled).1.lexes [' '] (' ' :: test.list)
    isSpace_of_mem_space (ends_space _)
  rw [List.nil_append] at hfield
  rw [ListTest.text, hfield, ← List.singleton_append, ← List.append_assoc, hword]
  rfl

/-! ## Trees -/

theorem isConnective_of_isLeaf {tokens : List Token}
    (h : (Reading.ors Token.kind segment tokens).isLeaf = true) :
    ∀ token ∈ tokens, token.isConnective = false := by
  intro token htoken
  refine Bool.eq_false_iff.2 fun hconnective => ?_
  obtain ⟨front, back, rfl⟩ := List.append_of_mem htoken
  have hcuts : Reading.cuts Token.kind token = true := hconnective
  have hone : (Reading.ors Token.kind segment (front ++ token :: back)).leaves =
      (Reading.runs Token.kind (front ++ token :: back)).map segment :=
    Reading.leaves_ors isLeaf_segment _
  rw [Predicate.leaves_of_isLeaf h, Reading.runs,
    List.splitOnP_append_cons front back hcuts] at hone
  have hlength := congrArg List.length hone
  have hfront := List.length_pos_iff.2 (List.splitOnP_ne_nil (Reading.cuts Token.kind) front)
  have hback := List.length_pos_iff.2 (List.splitOnP_ne_nil (Reading.cuts Token.kind) back)
  simp only [List.length_map, List.length_append, List.length_singleton] at hlength
  omega

theorem ors_of_no_connective {tokens : List Token}
    (h : ∀ token ∈ tokens, token.isConnective = false) :
    Reading.ors Token.kind segment tokens = Reading.operand Token.kind segment tokens := by
  have habsent (connective : Connective) :
      ∀ token ∈ tokens, token.kind ≠ .connective connective := by
    intro token htoken hkind
    have hnone := h token htoken
    rw [Token.isConnective, hkind] at hnone
    cases hnone
  rw [Reading.ors, level_of_absent (habsent .or), Reading.nors, level_of_absent (habsent .nor),
    Reading.ands, level_of_absent (habsent .and)]

theorem segment_listTest (test : ListTest) : segment (tokens test.text) = test.tree := by
  have hvalue : Text.trim (sourceText (tokens (' ' :: test.list))) = test.list :=
    calc Text.trim (sourceText (tokens (' ' :: test.list)))
        = Text.trim ([' '] ++ test.list) := trim_sourceText_tokens _
      _ = Text.trim test.list := Text.trim_append_left isBlank_of_mem_space
      _ = test.list := trim_list test
  have hmembership := (isLexeme_membership test.spelled).2
  have hfield (gap : List Char) :
      Text.trim (sourceText [⟨.word, gap, test.field.name.toList⟩]) = test.field.name.toList := by
    rw [sourceText_cons, gappedText_nil, List.append_nil, test.field.trimmed]
  rw [tokens_listTest, segment]
  simp only [splitAtOperator, Option.map_some]
  rw [hfield, hvalue, condition, if_pos hmembership, String.ofList_toList,
    ListTest.elementValues_list, ListTest.tree]

theorem tree_listTest (test : ListTest) :
    (Source.text (String.ofList test.text)).tree =
      Reading.ors Token.kind segment (tokens test.text) := by
  obtain ⟨c, hc, hvisible⟩ := test.field.visible
  have hblank : test.text.all Text.isBlank = false :=
    List.all_eq_false.2 ⟨c, List.mem_append_left _ hc, by simp [hvisible]⟩
  rw [Source.tree, String.toList_ofList, parse_of_not_blank hblank]

theorem tree_listTest_iff (test : ListTest) :
    (Source.text (String.ofList test.text)).tree = test.tree ↔
      ∀ token ∈ tokens test.text, token.isConnective = false := by
  rw [tree_listTest]
  constructor
  · intro htree
    exact isConnective_of_isLeaf (by rw [htree]; rfl)
  · intro hnone
    have hhead : ∀ token ∈ (tokens test.text).head?, token.kind ≠ .not := by
      rw [tokens_listTest]
      intro token htoken
      rw [← Option.some.inj htoken]
      exact nofun
    rw [ors_of_no_connective hnone, operand_of_head? hhead, segment_listTest]

/-! ## The first string -/

namespace ListTest

def closing : List String → Char
  | [] => ')'
  | _ :: _ => ','

def front (test : ListTest) : List Char :=
  test.field.name.toList ++ ' ' ::
    (test.word ++ ' ' :: ('(' :: quoted test.first ++ [closing test.others]))

def behind : List String → List Char
  | [] => []
  | s :: others => ' ' :: quoted s ++ closing others :: behind others

theorem ends_behind (others : List String) : Ends (behind others) := by
  cases others with
  | nil => exact ends_nil
  | cons s others => exact ends_space _

theorem listed_eq (first : String) (others : List String) :
    listed first others ++ [')'] = quoted first ++ closing others :: behind others := by
  induction others generalizing first with
  | nil => rw [listed, List.map_singleton, List.intercalate_singleton, closing, behind]
  | cons next others ih =>
      rw [listed_cons, List.append_assoc, List.cons_append, List.cons_append, ih, closing, behind]
      rfl

theorem text_eq (test : ListTest) : test.text = test.front ++ behind test.others := by
  rw [text, list, List.cons_append, listed_eq, front]
  simp

theorem isLexeme_closing (others : List String) : IsLexeme .word [closing others] := by
  cases others with
  | nil => exact isLexeme_word rfl (by decide) rfl
  | cons next others =>
      rw [closing]
      exact isLexeme_word rfl (by decide) rfl

theorem isConnective_behind {others : List String} (h : ∀ s ∈ others, '\'' ∉ s.toList)
    {gap : List Char} (hgap : ∀ c ∈ gap, isSpace c = true) :
    ∀ token ∈ tokens (gap ++ behind others), token.isConnective = false := by
  induction others generalizing gap with
  | nil =>
      rw [behind, List.append_nil, tokens_of_isSpace hgap]
      exact nofun
  | cons s others ih =>
      rw [List.forall_mem_cons] at h
      have hspaces : ∀ c ∈ gap ++ [' '], isSpace c = true :=
        List.forall_mem_append.2 ⟨hgap, isSpace_of_mem_space⟩
      have hsource : gap ++ behind (s :: others) =
          gap ++ [' '] ++ quoted s ++ (closing others :: behind others) := by
        rw [behind]
        simp
      have hquoted : tokens (gap ++ behind (s :: others)) =
          ⟨.quoted, gap ++ [' '], quoted s⟩ :: tokens (closing others :: behind others) := by
        rw [hsource]
        exact tokens_of_lexeme hspaces (opens_quoted rfl s.toList) (lexeme_quoted rfl h.1 _)
      have hclosed : tokens (closing others :: behind others) =
          ⟨.word, [], [closing others]⟩ :: tokens (behind others) :=
        (isLexeme_closing others).lexes [] (behind others) nofun (ends_behind others)
      have hbehind : ∀ token ∈ tokens ([] ++ behind others), token.isConnective = false :=
        ih h.2 nofun
      rw [hquoted, hclosed, List.forall_mem_cons, List.forall_mem_cons]
      exact ⟨rfl, rfl, hbehind⟩

end ListTest

/-- Where the first string leaves no quote open, the strings behind it have no say. -/
theorem isConnective_text_iff {test : ListTest} (h : ClosesQuotes test.front) :
    (∀ token ∈ tokens test.text, token.isConnective = false) ↔
      ∀ token ∈ tokens test.front, token.isConnective = false := by
  have hothers : ∀ s ∈ test.others, '\'' ∉ s.toList :=
    fun s hs => test.quotable s (List.mem_cons_of_mem _ hs)
  obtain ⟨gap, hgap, htokens⟩ := exists_tokens_append h (ListTest.ends_behind test.others)
  rw [ListTest.text_eq, htokens, List.forall_mem_append]
  exact and_iff_left (ListTest.isConnective_behind hothers hgap)

theorem wordRun_append_quote {word : List Char} (h : wordRun word = word) (rest : List Char) :
    wordRun (word ++ '\'' :: rest) = word ++ wordRun ('\'' :: rest) := by
  induction word with
  | nil => rfl
  | cons c word ih =>
      obtain ⟨hspace, hsymbol⟩ := symbol?_of_wordRun h
      have hboth : symbol? (c :: (word ++ '\'' :: rest)) = none :=
        (symbol?_append_cons (by decide) (List.cons_ne_nil c word) rest).trans hsymbol
      rw [wordRun_cons hspace hsymbol] at h
      rw [List.cons_append, wordRun_cons hspace hboth, ih (List.cons.inj h).2, List.cons_append]

theorem tokens_front {test : ListTest} (h : wordRun test.first.toList = test.first.toList) :
    tokens test.front = [⟨.word, [], test.field.name.toList⟩,
      ⟨.operator (.comparison test.op), [' '], test.word⟩,
      ⟨.word, [' '], '(' :: ListTest.quoted test.first ++ [ListTest.closing test.others]⟩] := by
  have hrun : wordRun ('(' :: ListTest.quoted test.first ++ [ListTest.closing test.others]) =
      '(' :: ListTest.quoted test.first ++ [ListTest.closing test.others] := by
    have hinner := wordRun_append_quote h [ListTest.closing test.others]
    have hclosing : wordRun ['\'', ListTest.closing test.others] =
        ['\'', ListTest.closing test.others] := by
      cases test.others <;> rfl
    have hshape : '(' :: ListTest.quoted test.first ++ [ListTest.closing test.others] =
        '(' :: '\'' :: (test.first.toList ++ ['\'', ListTest.closing test.others]) := by
      simp [ListTest.quoted]
    rw [hshape, wordRun_cons rfl rfl, wordRun_cons rfl rfl, hinner, hclosing]
  have hlist : IsLexeme .word
      ('(' :: ListTest.quoted test.first ++ [ListTest.closing test.others]) :=
    isLexeme_word hrun (wordKind_of_le (by decide) _) rfl
  exact tokens_of_lexes (lexes_join test.field.isLexeme.lexes
    (lexes_join (isLexeme_membership test.spelled).1.lexes hlist.lexes))

/-- The text of a test with a list of quoted strings is read as that test exactly when the lexer
finds no connective in it.  Where the first string leaves no quote open, the connectives up to its
end decide, and a first string of one word has none. -/
theorem tree_text_of_quoted_list (test : ListTest) :
    ((Source.text (String.ofList test.text)).tree = test.tree ↔
      ∀ token ∈ tokens test.text, token.isConnective = false) ∧
    (ClosesQuotes test.front →
      ((Source.text (String.ofList test.text)).tree = test.tree ↔
        ∀ token ∈ tokens test.front, token.isConnective = false)) ∧
    (wordRun test.first.toList = test.first.toList →
      (Source.text (String.ofList test.text)).tree = test.tree) := by
  have hall := tree_listTest_iff test
  have hfront (h : ClosesQuotes test.front) := hall.trans (isConnective_text_iff h)
  refine ⟨hall, hfront, fun hword => ?_⟩
  have htokens := tokens_front hword
  refine (hfront ?_).2 ?_
  · have hfield : test.field.name.toList.head?.any Literal.isQuote = false :=
      (Option.any_eq_false _ _).2 test.field.unquoted
    rw [ClosesQuotes, htokens]
    simp [hfield, Literal.isQuote]
  · rw [htokens]
    simp [Token.isConnective]

/-- A first string of one word, and one of two, before strings with connectives and brackets. -/
theorem tree_text_of_hidden_connectives :
    ∃ word phrase : ListTest,
      word.text = "tag nin ('red', 'a or b', '),( and not')".toList ∧
      wordRun word.first.toList = word.first.toList ∧
      (Source.text (String.ofList word.text)).tree =
        .compare "tag" .noneOf (.array [.string "red", .string "a or b", .string "),( and not"]) ∧
      phrase.text = "tag all ('light red', '\" nor =')".toList ∧
      ClosesQuotes phrase.front ∧
      (Source.text (String.ofList phrase.text)).tree =
        .compare "tag" .allOf (.array [.string "light red", .string "\" nor ="]) := by
  let field : FieldName := ⟨"tag", by decide +kernel, by simp [Literal.isQuote], by decide⟩
  let word : ListTest := ⟨field, ['n', 'i', 'n'], .noneOf, by simp [membershipWords], "red",
    ["a or b", "),( and not"], by decide⟩
  let phrase : ListTest := ⟨field, ['a', 'l', 'l'], .allOf, by simp [membershipWords],
    "light red", ["\" nor ="], by decide⟩
  have hword : wordRun word.first.toList = word.first.toList := by decide
  have htokens : tokens phrase.front =
      [⟨.word, [], "tag".toList⟩, ⟨.operator (.comparison .allOf), [' '], "all".toList⟩,
        ⟨.word, [' '], "('light".toList⟩, ⟨.word, [' '], "red',".toList⟩] := by
    decide +kernel
  have hcloses : ClosesQuotes phrase.front := by
    rw [ClosesQuotes, htokens]
    decide
  have hnone : ∀ token ∈ tokens phrase.front, token.isConnective = false := by
    rw [htokens]
    decide
  obtain ⟨-, -, hone⟩ := tree_text_of_quoted_list word
  obtain ⟨-, hfront, -⟩ := tree_text_of_quoted_list phrase
  exact ⟨word, phrase, by decide, hword, hone hword, by decide, hcloses, (hfront hcloses).2 hnone⟩

/-- The words of the first string are read as a connective and an operator. -/
theorem tree_text_of_open_connective :
    ∃ test : ListTest,
      test.text = "tag in ('a or b = c')".toList ∧
      (Source.text "tag in ('a or b = c')").tree =
        .or [.compare "tag" .oneOf (.array [.string "('a"]), .compare "b" .eq (.string "c')")] ∧
      (Source.text "tag in ('a or b = c')").tree ≠ test.tree := by
  let field : FieldName := ⟨"tag", by decide +kernel, by simp [Literal.isQuote], by decide⟩
  let test : ListTest := ⟨field, ['i', 'n'], .oneOf, by simp [membershipWords], "a or b = c", [],
    by decide⟩
  have htokens : tokens "tag in ('a or b = c')".toList =
      [⟨.word, [], "tag".toList⟩, ⟨.operator (.comparison .oneOf), [' '], "in".toList⟩,
        ⟨.word, [' '], "('a".toList⟩, ⟨.connective .or, [' '], "or".toList⟩,
        ⟨.word, [' '], ['b']⟩, ⟨.operator (.comparison .eq), [' '], ['=']⟩,
        ⟨.word, [' '], "c')".toList⟩] := by
    decide +kernel
  have htree : (Source.text "tag in ('a or b = c')").tree =
      .or [.compare "tag" .oneOf (.array [.string "('a"]), .compare "b" .eq (.string "c')")] := by
    rw [tree_of_not_blank (by decide), htokens]
    rfl
  refine ⟨test, by decide, htree, fun hsame => ?_⟩
  rw [htree] at hsame
  cases hsame

end DocumentStore.Filter
