import DocumentStore.Proofs.Filter.Spelling
import DocumentStore.Proofs.Literal

/-!
# Printing undone by parsing

Filters as trees with one level for each connective, printed with single spaces between
their parts.  Whatever text a constant holds, the printed filter is parsed as the tree that
it was printed from.
-/

namespace DocumentStore.Filter

/-! ## Syntax -/

/-- A value that a filter can hold.  An integer of 64 bits is one that 32 bits can not hold,
and a string comes with a quote that it lacks. -/
inductive Constant where
  | bool (b : Bool)
  | int32 (n : Int32)
  | int64 (n : Int64)
      (wide : ¬ (Int32.minValue.toInt ≤ n.toInt ∧ n.toInt ≤ Int32.maxValue.toInt))
  | string (s : String) (quote : Char) (hquote : Literal.isQuote quote = true)
      (fresh : quote ∉ s.toList)

/-- A field that the lexer reads as one word, without blanks or an opening quote. -/
structure FieldName where
  name : String
  word : (tokens name.toList).map Token.kind = [.word]
  unquoted : ∀ c ∈ name.toList.head?, Literal.isQuote c = false
  trimmed : Text.trim name.toList = name.toList

/-- The words and symbols for the tests that compare with one value. -/
def spellings : List (List Char × Comparison) :=
  [(['e', 'q'], .eq), (['='], .eq), (['n', 'e'], .ne), (['!', '='], .ne),
    (['g', 't'], .gt), (['>'], .gt), (['g', 't', 'e'], .gte), (['>', '='], .gte),
    (['l', 't'], .lt), (['<'], .lt), (['l', 't', 'e'], .lte), (['<', '='], .lte)]

structure Test where
  field : FieldName
  sign : List Char
  op : Comparison
  spelled : (sign, op) ∈ spellings
  constant : Constant

inductive Operand where
  | leaf (test : Test)
  | not (operand : Operand)

/-- One part or more. -/
structure Chain (α : Type) where
  first : α
  others : List α

/-! ## Trees -/

def Constant.value : Constant → Value
  | .bool b => .bool b
  | .int32 n => .int32 n
  | .int64 n _ => .int64 n
  | .string s .. => .string s

def Test.tree (test : Test) : Predicate :=
  .compare test.field.name test.op test.constant.value

def Operand.tree : Operand → Predicate
  | .leaf test => test.tree
  | .not operand => .not operand.tree

def Chain.tree {α : Type} (node : List Predicate → Predicate) (tree : α → Predicate)
    (chain : Chain α) : Predicate :=
  combine node ((chain.first :: chain.others).map tree)

/-! ## Texts -/

def Constant.text : Constant → List Char
  | .bool true => ['t', 'r', 'u', 'e']
  | .bool false => ['f', 'a', 'l', 's', 'e']
  | .int32 n => Decimal.ofInt n.toInt
  | .int64 n _ => Decimal.ofInt n.toInt
  | .string s quote .. => quote :: s.toList ++ [quote]

def Test.text (test : Test) : List Char :=
  test.field.name.toList ++ ' ' :: (test.sign ++ ' ' :: test.constant.text)

def Operand.text : Operand → List Char
  | .leaf test => test.text
  | .not operand => ['n', 'o', 't'] ++ ' ' :: operand.text

def joined {α : Type} (word : List Char) (text : α → List Char) : α → List α → List Char
  | first, [] => text first
  | first, next :: others => text first ++ ' ' :: (word ++ ' ' :: joined word text next others)

def Chain.text {α : Type} (word : List Char) (text : α → List Char) (chain : Chain α) :
    List Char :=
  joined word text chain.first chain.others

/-! ## Filters -/

abbrev Conjunction := Chain Operand

abbrev Exclusion := Chain Conjunction

abbrev Disjunction := Chain Exclusion

def Conjunction.tree : Conjunction → Predicate := Chain.tree .and Operand.tree

def Exclusion.tree : Exclusion → Predicate := Chain.tree .nor Conjunction.tree

def Disjunction.tree : Disjunction → Predicate := Chain.tree .or Exclusion.tree

def Conjunction.text : Conjunction → List Char := Chain.text ['a', 'n', 'd'] Operand.text

def Exclusion.text : Exclusion → List Char := Chain.text ['n', 'o', 'r'] Conjunction.text

def Disjunction.text : Disjunction → List Char := Chain.text ['o', 'r'] Exclusion.text

/-! ## Fields -/

theorem symbol?_ne_word {cs text : List Char} : symbol? cs ≠ some (.word, text) := by
  unfold symbol?
  split <;> simp

theorem word_of_lexeme {cs : List Char} (h : lexeme cs = (.word, cs)) :
    wordRun cs = cs ∧ wordKind cs = .word := by
  unfold lexeme at h
  split at h
  · cases h
  · split at h
    · next symbol hsymbol =>
      rw [h] at hsymbol
      exact absurd hsymbol symbol?_ne_word
    · obtain ⟨hkind, hrun⟩ := Prod.mk.inj h
      rw [hrun] at hkind
      exact ⟨hrun, hkind⟩

theorem lexeme_of_trim {cs : List Char} (htrim : Text.trim cs = cs)
    (hword : (tokens cs).map Token.kind = [.word]) :
    lexeme cs = (.word, cs) ∧ ∃ c rest, cs = c :: rest ∧ Text.isBlank c = false := by
  cases cs with
  | nil => rw [tokens_of_blank rfl] at hword; cases hword
  | cons c rest =>
      have hc : Text.isBlank c = false := Text.not_isBlank_of_trim htrim
      have hspace : isSpace c = false := by
        refine Bool.eq_false_iff.2 fun h => ?_
        rw [isBlank_of_isSpace h] at hc
        cases hc
      have hdrop : (c :: rest).dropWhile isSpace = c :: rest :=
        List.dropWhile_cons_of_neg (by simp [hspace])
      obtain ⟨trailing, hsource, htrailing⟩ := exists_eq_gappedText (c :: rest)
      rw [tokens_of_cons hdrop] at hword hsource
      rw [List.map_cons, List.cons.injEq, List.map_eq_nil_iff] at hword
      obtain ⟨hkind, hnone⟩ := hword
      rw [hnone, gappedText_cons, gappedText_nil, List.append_nil,
        List.takeWhile_cons_of_neg (by simp [hspace]), List.nil_append] at hsource
      dsimp only at hsource
      have hblank : ∀ d ∈ trailing, Text.isBlank d = true :=
        fun d hd => isBlank_of_isSpace (htrailing d hd)
      have hsame : Text.trim (lexeme (c :: rest)).2 = c :: rest :=
        calc Text.trim (lexeme (c :: rest)).2
            = Text.trim ((lexeme (c :: rest)).2 ++ trailing) :=
              (Text.trim_append_right hblank).symm
          _ = Text.trim (c :: rest) := congrArg Text.trim hsource.symm
          _ = c :: rest := htrim
      -- The token alone is as long as the text, so nothing stands behind it.
      have hle := Text.length_trim_le (lexeme (c :: rest)).2
      have hlength := congrArg List.length hsource
      rw [hsame] at hle
      rw [List.length_append] at hlength
      have hempty : trailing = [] := List.length_eq_zero_iff.1 (by omega)
      rw [hempty, List.append_nil] at hsource
      exact ⟨Prod.ext hkind hsource.symm, c, rest, rfl, hc⟩

theorem FieldName.isLexeme (field : FieldName) : IsLexeme .word field.name.toList := by
  obtain ⟨hlexeme, c, rest, htext, -⟩ := lexeme_of_trim field.trimmed field.word
  obtain ⟨hrun, hkind⟩ := word_of_lexeme hlexeme
  have hquote : Literal.isQuote c = false := field.unquoted c (by rw [htext]; rfl)
  rw [htext] at hrun hkind ⊢
  exact isLexeme_word hrun hkind hquote

theorem FieldName.visible (field : FieldName) :
    ∃ c ∈ field.name.toList, Text.isBlank c = false := by
  obtain ⟨-, c, rest, htext, hc⟩ := lexeme_of_trim field.trimmed field.word
  exact ⟨c, by simp [htext], hc⟩

/-! ## Operators -/

theorem isLexeme_sign {sign : List Char} {op : Comparison} (h : (sign, op) ∈ spellings) :
    IsLexeme (.operator (.comparison op)) sign ∧ op.isMembership = false := by
  simp only [spellings, List.mem_cons, Prod.mk.injEq, List.not_mem_nil, or_false] at h
  rcases h with ⟨rfl, rfl⟩ | ⟨rfl, rfl⟩ | ⟨rfl, rfl⟩ | ⟨rfl, rfl⟩ | ⟨rfl, rfl⟩ | ⟨rfl, rfl⟩ |
    ⟨rfl, rfl⟩ | ⟨rfl, rfl⟩ | ⟨rfl, rfl⟩ | ⟨rfl, rfl⟩ | ⟨rfl, rfl⟩ | ⟨rfl, rfl⟩
  all_goals
    refine ⟨?_, rfl⟩
    first
      | exact isLexeme_symbol rfl rfl rfl
      | exact isLexeme_word rfl (by decide) rfl

/-! ## Constants -/

section

variable {c : Char} (h : 45 ≤ c.toNat ∧ c.toNat ≤ 57)

include h

theorem isBlank_of_numeric : Text.isBlank c = false := by
  simp [Text.isBlank]
  omega

theorem isSpace_of_numeric : isSpace c = false := by
  refine Bool.eq_false_iff.2 fun hspace => ?_
  have hblank := isBlank_of_isSpace hspace
  rw [isBlank_of_numeric h] at hblank
  cases hblank

theorem symbol?_of_numeric (rest : List Char) : symbol? (c :: rest) = none := by
  unfold symbol?
  split <;> simp_all

end

theorem wordRun_of_numeric {cs : List Char} (h : ∀ c ∈ cs, 45 ≤ c.toNat ∧ c.toNat ≤ 57) :
    wordRun cs = cs := by
  induction cs with
  | nil => rfl
  | cons c cs ih =>
      have hc := h c List.mem_cons_self
      rw [wordRun_cons (isSpace_of_numeric hc) (symbol?_of_numeric hc _),
        ih fun d hd => h d (List.mem_cons_of_mem _ hd)]

theorem isLexeme_ofInt (n : Int) : IsLexeme .word (Decimal.ofInt n) := by
  have hall : ∀ c ∈ Decimal.ofInt n, 45 ≤ c.toNat ∧ c.toNat ≤ 57 :=
    fun _ hc => Decimal.toNat_of_mem_ofInt hc
  obtain ⟨c, rest, hcons⟩ := List.exists_cons_of_ne_nil (Decimal.ofInt_ne_nil n)
  rw [hcons] at hall ⊢
  have hc := hall c List.mem_cons_self
  exact isLexeme_word (wordRun_of_numeric hall) (wordKind_of_le hc.2 rest)
    (Literal.isQuote_of_numeric hc)

theorem trim_ofInt (n : Int) : Text.trim (Decimal.ofInt n) = Decimal.ofInt n := by
  refine Text.trim_eq_self (fun c hc => ?_) (fun c hc => ?_)
  · exact isBlank_of_numeric (Decimal.toNat_of_mem_ofInt (List.mem_of_mem_head? hc))
  · exact isBlank_of_numeric (Decimal.toNat_of_mem_ofInt (List.mem_of_getLast? hc))

theorem trim_quoted {quote : Char} (hquote : Literal.isQuote quote = true) (inner : List Char) :
    Text.trim (quote :: inner ++ [quote]) = quote :: inner ++ [quote] := by
  have hblank : Text.isBlank quote = false := by
    simp only [Literal.isQuote, Bool.or_eq_true, beq_iff_eq] at hquote
    rcases hquote with rfl | rfl <;> decide
  refine Text.trim_eq_self ?_ ?_
  · intro c hc
    rw [← Option.some.inj hc]
    exact hblank
  · intro c hc
    rw [List.getLast?_append, List.getLast?_singleton] at hc
    rw [← Option.some.inj hc]
    exact hblank

theorem Constant.isLexeme (constant : Constant) :
    ∃ kind, IsLexeme kind constant.text ∧ ∀ c, kind ≠ .connective c := by
  cases constant with
  | bool b =>
      cases b with
      | true => exact ⟨.word, isLexeme_word rfl (by decide) rfl, by simp⟩
      | false => exact ⟨.word, isLexeme_word rfl (by decide) rfl, by simp⟩
  | int32 n => exact ⟨.word, isLexeme_ofInt n.toInt, by simp⟩
  | int64 n wide => exact ⟨.word, isLexeme_ofInt n.toInt, by simp⟩
  | string s quote hquote fresh => exact ⟨.quoted, isLexeme_quoted hquote fresh, by simp⟩

theorem Constant.value_text (constant : Constant) :
    (Literal.ofToken (Text.trim constant.text)).value = constant.value := by
  cases constant with
  | bool b => cases b <;> rfl
  | int32 n => rw [text, trim_ofInt, Literal.value_ofToken_int32, value]
  | int64 n wide => rw [text, trim_ofInt, Literal.value_ofToken_int64 wide, value]
  | string s quote hquote fresh =>
      rw [text, trim_quoted hquote, Literal.ofToken_quoted hquote, String.ofList_toList]
      rfl

/-! ## Tests -/

theorem Test.spells (test : Test) :
    Spells [.and, .nor, .or] (Reading.operand Token.kind segment) test.text test.tree where
  visible := by
    obtain ⟨c, hc, hvisible⟩ := test.field.visible
    exact ⟨c, List.mem_append_left _ hc, hvisible⟩
  finds := by
    obtain ⟨kind, hconstant, hkind⟩ := test.constant.isLexeme
    obtain ⟨hsign, hmembership⟩ := isLexeme_sign test.spelled
    refine ⟨_, lexes_join test.field.isLexeme.lexes (lexes_join hsign.lexes hconstant.lexes),
      fun gap => ⟨?_, ?_⟩⟩
    · intro token htoken
      refine endsAt_of_ne fun c => ?_
      simp only [List.cons_append, List.nil_append, List.mem_cons, List.not_mem_nil,
        or_false] at htoken
      rcases htoken with rfl | rfl | rfl
      · simp
      · simp
      · exact hkind c
    · rw [operand_of_head? (by simp)]
      simp only [List.cons_append, List.nil_append, segment, splitAtOperator, Option.map_some,
        sourceText, List.flatMap_nil, List.append_nil, condition, hmembership, test.field.trimmed,
        test.constant.value_text, String.ofList_toList]
      rfl

theorem Operand.spells (operand : Operand) :
    Spells [.and, .nor, .or] (Reading.operand Token.kind segment) operand.text operand.tree := by
  induction operand with
  | leaf test => exact test.spells
  | not operand ih => exact ih.not

/-! ## Chains -/

theorem spells_joined {α : Type} {connective : Connective} {outer : List Connective}
    {read : List Token → Predicate} {word : List Char} {text : α → List Char}
    {tree : α → Predicate} (hfresh : connective ∉ outer)
    (hword : IsLexeme (.connective connective) word)
    (h : ∀ part, Spells (connective :: outer) read (text part) (tree part))
    (first : α) (others : List α) :
    Spells outer (fun tokens => (Reading.pieces Token.kind connective tokens).map read)
      (joined word text first others) ((first :: others).map tree) := by
  induction others generalizing first with
  | nil => exact (h first).single
  | cons next others ih => exact (h first).cons hfresh hword (ih next)

theorem Chain.spells {α : Type} {connective : Connective} {outer : List Connective}
    {read : List Token → Predicate} {word : List Char} {text : α → List Char}
    {tree : α → Predicate} (node : List Predicate → Predicate) (hfresh : connective ∉ outer)
    (hword : IsLexeme (.connective connective) word)
    (h : ∀ part, Spells (connective :: outer) read (text part) (tree part))
    (chain : Chain α) :
    Spells outer (Reading.level Token.kind connective node read) (chain.text word text)
      (chain.tree node tree) :=
  (spells_joined hfresh hword h chain.first chain.others).map (combine node)

theorem Conjunction.spells (filter : Conjunction) :
    Spells [.nor, .or] (Reading.ands Token.kind segment) filter.text filter.tree :=
  Chain.spells .and (by decide) (isLexeme_word rfl (by decide) rfl) Operand.spells filter

theorem Exclusion.spells (filter : Exclusion) :
    Spells [.or] (Reading.nors Token.kind segment) filter.text filter.tree :=
  Chain.spells .nor (by decide) (isLexeme_word rfl (by decide) rfl) Conjunction.spells filter

theorem Disjunction.spells (filter : Disjunction) :
    Spells [] (Reading.ors Token.kind segment) filter.text filter.tree :=
  Chain.spells .or (by decide) (isLexeme_word rfl (by decide) rfl) Exclusion.spells filter

/-- A printed filter is parsed as the tree that it was printed from. -/
theorem tree_text_of_printed (filter : Disjunction) :
    (Source.text (String.ofList filter.text)).tree = filter.tree := by
  rw [Source.tree, String.toList_ofList]
  exact parse_of_spells filter.spells

example : ∃ filter : Disjunction,
    filter.text = "not a eq 'x\" or b = 1' and a >= -5".toList ∧
    filter.tree = .and [.not (.compare "a" .eq (.string "x\" or b = 1")),
      .compare "a" .gte (.int32 (-5))] := by
  let field : FieldName := ⟨"a", by cbv, by simp [Literal.isQuote], by decide⟩
  let quoted : Test := ⟨field, ['e', 'q'], .eq, by simp [spellings],
    .string "x\" or b = 1" '\'' rfl (by decide)⟩
  let number : Test := ⟨field, ['>', '='], .gte, by simp [spellings], .int32 (-5)⟩
  exact ⟨⟨⟨⟨.not (.leaf quoted), [.leaf number]⟩, []⟩, []⟩, by cbv, rfl⟩

end DocumentStore.Filter
