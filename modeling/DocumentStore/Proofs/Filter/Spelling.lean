import DocumentStore.Proofs.Filter.Lexemes
import DocumentStore.Proofs.Filter.Reading
import DocumentStore.Proofs.Literal

/-!
# Texts that spell tokens and trees

A text spells tokens when the lexer finds them in it wherever it stands between spaces,
and it spells a tree when a reader makes the tree of those tokens.  Both go through joins
with a space, so a filter can be spelled part by part.
-/

namespace DocumentStore.Filter

/-- Where a token may end: at the end of the source, or before a space. -/
def Ends (rest : List Char) : Prop := rest = [] ∨ ∃ more, rest = ' ' :: more

theorem ends_nil : Ends [] := .inl rfl

theorem ends_space (more : List Char) : Ends (' ' :: more) := .inr ⟨more, rfl⟩

/-- Where no token goes on: at the end of the source, or before any whitespace. -/
def Stops (rest : List Char) : Prop := ∀ c ∈ rest.head?, isSpace c = true

theorem Ends.stops {rest : List Char} (h : Ends rest) : Stops rest := by
  rcases h with rfl | ⟨more, rfl⟩
  · exact nofun
  · intro c hc
    cases hc
    rfl

/-! ## Single tokens -/

theorem symbol?_cons_cons (a b : Char) (rest other : List Char) :
    symbol? (a :: b :: rest) = symbol? (a :: b :: other) := by
  by_cases hb : b = '='
  · subst hb
    unfold symbol?
    split <;> simp_all
    · next hne heq => exact hne rest heq.2.symm
    · next hne heq => exact hne rest heq.2.symm
  · unfold symbol?
    split <;> simp_all

theorem symbol?_append_cons {d : Char} (hd : d ≠ '|' ∧ d ≠ '&' ∧ d ≠ '=') {word : List Char}
    (hword : word ≠ []) (more : List Char) : symbol? (word ++ d :: more) = symbol? word := by
  rcases word with _ | ⟨a, _ | ⟨b, word⟩⟩
  · exact absurd rfl hword
  · unfold symbol?
    split <;> simp_all
  · exact symbol?_cons_cons a b _ _

theorem symbol?_append {word rest : List Char} (hrest : Stops rest) (hword : word ≠ []) :
    symbol? (word ++ rest) = symbol? word := by
  cases rest with
  | nil => rw [List.append_nil]
  | cons c rest =>
      have hspace : isSpace c = true := hrest c rfl
      have hother : c ≠ '|' ∧ c ≠ '&' ∧ c ≠ '=' := by
        refine ⟨?_, ?_, ?_⟩ <;> rintro rfl <;> cases hspace
      exact symbol?_append_cons hother hword rest

theorem wordRun_of_stops {rest : List Char} (hrest : Stops rest) : wordRun rest = [] := by
  cases rest with
  | nil => rfl
  | cons c rest => rw [wordRun, hrest c rfl, Bool.true_or, if_pos rfl]

theorem wordRun_cons {c : Char} {rest : List Char} (hspace : isSpace c = false)
    (hsymbol : symbol? (c :: rest) = none) : wordRun (c :: rest) = c :: wordRun rest := by
  rw [wordRun, hspace, hsymbol]
  rfl

theorem wordRun_append {rest : List Char} (hrest : Stops rest) (word : List Char) :
    wordRun (word ++ rest) = wordRun word := by
  induction word with
  | nil => exact wordRun_of_stops hrest
  | cons c word ih =>
      rw [List.cons_append, wordRun, wordRun, ← List.cons_append, symbol?_append hrest (by simp),
        ih]

theorem symbol?_of_wordRun {c : Char} {word : List Char} (h : wordRun (c :: word) = c :: word) :
    isSpace c = false ∧ symbol? (c :: word) = none := by
  rw [wordRun] at h
  split at h
  · cases h
  · next hc => simpa using hc

theorem quotedRun?_of_not_isQuote {c : Char} {rest : List Char}
    (h : Literal.isQuote c = false) : quotedRun? (c :: rest) = none := by
  simp [quotedRun?, h]

theorem quotedRun?_quoted {quote : Char} {inner : List Char}
    (hquote : Literal.isQuote quote = true) (hinner : quote ∉ inner) (rest : List Char) :
    quotedRun? (quote :: (inner ++ quote :: rest)) = some (quote :: inner ++ [quote]) := by
  have hbefore : ∀ c ∈ inner, (c != quote) = true := by
    intro c hc
    simpa using fun heq : c = quote => hinner (heq ▸ hc)
  have htake : (inner ++ quote :: rest).takeWhile (· != quote) = inner := by
    rw [List.takeWhile_append_of_pos hbefore]
    simp
  rw [quotedRun?, htake]
  simp [hquote]

theorem wordKind_of_le {c : Char} (h : c.toNat ≤ 57) (rest : List Char) :
    wordKind (c :: rest) = .word := by
  have hheads : keywords.all (fun entry => entry.1.toList.head?.all (57 < ·.toNat)) = true := by
    decide
  have hnone : keywords.lookup (String.ofList (Text.lower (c :: rest))) = none := by
    rw [List.lookup_eq_none_iff]
    intro entry hentry
    rw [bne_iff_ne]
    intro heq
    have hletter := List.all_eq_true.1 hheads entry hentry
    rw [← heq, String.toList_ofList, Text.lower, List.map_cons, Text.toLower_of_le h,
      List.head?_cons, Option.all_some, decide_eq_true_eq] at hletter
    omega
  rw [wordKind, hnone]
  rfl

/-- The lexer reads a text as one token, wherever that may end. -/
structure IsLexeme (kind : TokenKind) (text : List Char) : Prop where
  opens : Opens text
  reads : ∀ rest, Ends rest → lexeme (text ++ rest) = (kind, text)

theorem isLexeme_word {c : Char} {word : List Char} {kind : TokenKind}
    (hword : wordRun (c :: word) = c :: word) (hkind : wordKind (c :: word) = kind)
    (hquote : Literal.isQuote c = false) : IsLexeme kind (c :: word) where
  opens := ⟨c, word, rfl, (symbol?_of_wordRun hword).1⟩
  reads := by
    intro rest hrest
    have hrun : quotedRun? (c :: word ++ rest) = none := quotedRun?_of_not_isQuote hquote
    have hsymbol : symbol? (c :: word ++ rest) = none := by
      rw [symbol?_append hrest.stops (by simp), (symbol?_of_wordRun hword).2]
    rw [lexeme, hrun, hsymbol, wordRun_append hrest.stops, hword, hkind]

theorem isLexeme_symbol {c : Char} {text : List Char} {kind : TokenKind}
    (hsymbol : symbol? (c :: text) = some (kind, c :: text))
    (hspace : isSpace c = false) (hquote : Literal.isQuote c = false) :
    IsLexeme kind (c :: text) where
  opens := ⟨c, text, rfl, hspace⟩
  reads := by
    intro rest hrest
    have hrun : quotedRun? (c :: text ++ rest) = none := quotedRun?_of_not_isQuote hquote
    rw [lexeme, hrun, symbol?_append hrest.stops (by simp), hsymbol]

theorem lexeme_quoted {quote : Char} {inner : List Char} (hquote : Literal.isQuote quote = true)
    (hinner : quote ∉ inner) (rest : List Char) :
    lexeme (quote :: inner ++ [quote] ++ rest) = (.quoted, quote :: inner ++ [quote]) := by
  have hrun := quotedRun?_quoted hquote hinner rest
  rw [List.cons_append, List.cons_append, List.append_assoc, List.singleton_append, lexeme, hrun]
  rfl

theorem opens_quoted {quote : Char} (hquote : Literal.isQuote quote = true) (inner : List Char) :
    Opens (quote :: inner ++ [quote]) := by
  refine ⟨quote, inner ++ [quote], rfl, ?_⟩
  simp only [Literal.isQuote, Bool.or_eq_true, beq_iff_eq] at hquote
  rcases hquote with rfl | rfl <;> decide

theorem isLexeme_quoted {quote : Char} {inner : List Char} (hquote : Literal.isQuote quote = true)
    (hinner : quote ∉ inner) : IsLexeme .quoted (quote :: inner ++ [quote]) where
  opens := opens_quoted hquote inner
  reads := fun rest _ => lexeme_quoted hquote hinner rest

/-! ## Tokens -/

/-- Behind any gap the lexer finds the tokens, the first of which gets the gap. -/
def Lexes (text : List Char) (found : List Char → List Token) : Prop :=
  ∀ gap rest, (∀ c ∈ gap, isSpace c = true) → Ends rest →
    tokens (gap ++ text ++ rest) = found gap ++ tokens rest

theorem IsLexeme.lexes {kind : TokenKind} {text : List Char} (h : IsLexeme kind text) :
    Lexes text fun gap => [⟨kind, gap, text⟩] := by
  intro gap rest hgap hrest
  exact tokens_of_lexeme hgap h.opens (h.reads rest hrest)

theorem isSpace_of_mem_space : ∀ c ∈ [' '], isSpace c = true := by simp [isSpace]

theorem isBlank_of_mem_space : ∀ c ∈ [' '], Text.isBlank c = true :=
  fun c hc => isBlank_of_isSpace (isSpace_of_mem_space c hc)

theorem lexes_join {text other : List Char} {found others : List Char → List Token}
    (htext : Lexes text found) (hother : Lexes other others) :
    Lexes (text ++ ' ' :: other) fun gap => found gap ++ others [' '] := by
  intro gap rest hgap hrest
  have hsource : gap ++ (text ++ ' ' :: other) ++ rest =
      gap ++ text ++ (' ' :: (other ++ rest)) := by
    simp
  have hother : tokens (' ' :: (other ++ rest)) = others [' '] ++ tokens rest :=
    hother [' '] rest isSpace_of_mem_space hrest
  rw [hsource, htext gap _ hgap (ends_space _), hother, List.append_assoc]

theorem tokens_of_lexes {text : List Char} {found : List Char → List Token}
    (h : Lexes text found) : tokens text = found [] := by
  have hall := h [] [] (by simp) ends_nil
  rw [List.nil_append, List.append_nil] at hall
  rw [hall, tokens_of_blank rfl, List.append_nil]

/-! ## Trees -/

/-- The lexer finds tokens in the text that no outer connective ends, and that are read as
the given result, whatever the gap before them is. -/
structure Spells {α : Type} (outer : List Connective) (read : List Token → α)
    (text : List Char) (result : α) : Prop where
  visible : ∃ c ∈ text, Text.isBlank c = false
  finds : ∃ found, Lexes text found ∧ ∀ gap,
    (∀ token ∈ found gap, token.endsAt outer = false) ∧ read (found gap) = result

variable {α β : Type} {outer : List Connective} {connective : Connective}
  {read : List Token → α} {text other : List Char} {result : α} {results : List α}

theorem Spells.map (f : α → β) (h : Spells outer read text result) :
    Spells outer (f ∘ read) text (f result) where
  visible := h.visible
  finds := by
    obtain ⟨found, hlexes, hfound⟩ := h.finds
    refine ⟨found, hlexes, fun gap => ⟨(hfound gap).1, ?_⟩⟩
    rw [Function.comp_apply, (hfound gap).2]

theorem kind_ne_of_endsAt {token : Token} (h : token.endsAt (connective :: outer) = false) :
    (token.kind == .connective connective) = false ∧ token.endsAt outer = false := by
  rw [endsAt_cons, Bool.or_eq_false_iff] at h
  exact h

theorem Spells.single (h : Spells (connective :: outer) read text result) :
    Spells outer (fun tokens => (Reading.pieces Token.kind connective tokens).map read) text
      [result] where
  visible := h.visible
  finds := by
    obtain ⟨found, hlexes, hfound⟩ := h.finds
    refine ⟨found, hlexes, fun gap => ?_⟩
    obtain ⟨hfree, hread⟩ := hfound gap
    refine ⟨fun token htoken => (kind_ne_of_endsAt (hfree token htoken)).2, ?_⟩
    have hpieces : Reading.pieces Token.kind connective (found gap) = [found gap] :=
      List.splitOnP_eq_singleton fun token htoken =>
        (kind_ne_of_endsAt (hfree token htoken)).1
    rw [hpieces, List.map_singleton, hread]

theorem Spells.cons {word : List Char} (hfresh : connective ∉ outer)
    (hword : IsLexeme (.connective connective) word)
    (h : Spells (connective :: outer) read text result)
    (hother : Spells outer
      (fun tokens => (Reading.pieces Token.kind connective tokens).map read) other results) :
    Spells outer (fun tokens => (Reading.pieces Token.kind connective tokens).map read)
      (text ++ ' ' :: (word ++ ' ' :: other)) (result :: results) where
  visible := by
    obtain ⟨c, hc, hvisible⟩ := h.visible
    exact ⟨c, List.mem_append_left _ hc, hvisible⟩
  finds := by
    obtain ⟨found, hlexes, hfound⟩ := h.finds
    obtain ⟨others, hlexesOther, hothers⟩ := hother.finds
    refine ⟨_, lexes_join hlexes (lexes_join hword.lexes hlexesOther), fun gap => ?_⟩
    obtain ⟨hfree, hread⟩ := hfound gap
    -- The gap of what follows is the space behind the connective.
    obtain ⟨hfreeOther, hreadOther⟩ := hothers [' ']
    constructor
    · intro token htoken
      rcases List.mem_append.1 htoken with hmem | hmem
      · exact (kind_ne_of_endsAt (hfree token hmem)).2
      · rcases List.mem_cons.1 hmem with rfl | hmem
        · rw [endsAt_of_connective rfl]
          simpa using hfresh
        · exact hfreeOther token hmem
    · have hpieces := List.splitOnP_append_cons_of_forall_mem
        (fun token htoken => (kind_ne_of_endsAt (hfree token htoken)).1)
        ⟨.connective connective, [' '], word⟩ (beq_self_eq_true _) (others [' '])
      rw [Reading.pieces, List.cons_append, List.nil_append, hpieces, List.map_cons, hread]
      exact congrArg (result :: ·) hreadOther

theorem Spells.not {leaf : List Token → Predicate} {tree : Predicate}
    (h : Spells outer (Reading.operand Token.kind leaf) text tree) :
    Spells outer (Reading.operand Token.kind leaf) (['n', 'o', 't'] ++ ' ' :: text)
      (.not tree) where
  visible := ⟨'n', by simp, by decide⟩
  finds := by
    have hnot : IsLexeme .not ['n', 'o', 't'] := isLexeme_word rfl (by decide) rfl
    obtain ⟨found, hlexes, hfound⟩ := h.finds
    refine ⟨_, lexes_join hnot.lexes hlexes, fun gap => ?_⟩
    obtain ⟨hfree, hread⟩ := hfound [' ']
    constructor
    · intro token htoken
      rcases List.mem_cons.1 htoken with rfl | hmem
      · rfl
      · exact hfree token hmem
    · rw [List.cons_append, List.nil_append, operand_cons_not _ rfl, hread]

theorem parse_of_spells {tree : Predicate}
    (h : Spells [] (Reading.ors Token.kind segment) text tree) : parse text = tree := by
  obtain ⟨found, hlexes, hfound⟩ := h.finds
  obtain ⟨c, hc, hvisible⟩ := h.visible
  have hblank : text.all Text.isBlank = false := by
    refine Bool.eq_false_iff.2 fun hall => ?_
    rw [List.all_eq_true.1 hall c hc] at hvisible
    cases hvisible
  rw [parse_of_not_blank hblank, tokens_of_lexes hlexes]
  exact (hfound []).2

end DocumentStore.Filter
