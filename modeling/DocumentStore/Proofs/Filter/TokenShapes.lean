import DocumentStore.Proofs.Filter.Blanks
import DocumentStore.Proofs.Filter.Printing

/-!
# Shapes of tokens

A token is a quoted run, a symbol, or a run of letters without whitespace and symbols.  What
follows a token has a say in it only through the quotes that are still to come, and through the
place where a symbol or a word stops.
-/

namespace DocumentStore.Filter

/-! ## Symbols -/

/-- The symbols, each in front of those that it starts with. -/
def symbols : List (TokenKind × List Char) :=
  [(.connective .or, ['|', '|']), (.connective .and, ['&', '&']),
    (.operator (.comparison .ne), ['!', '=']), (.operator (.comparison .gte), ['>', '=']),
    (.operator (.comparison .lte), ['<', '=']), (.operator (.comparison .eq), ['=']),
    (.operator (.comparison .gt), ['>']), (.operator (.comparison .lt), ['<'])]

theorem symbol?_eq_find? (cs : List Char) :
    symbol? cs = symbols.find? fun symbol => symbol.2.isPrefixOf cs := by
  -- Two characters decide which symbol it is.
  match cs with
  | [] => rfl
  | [a] =>
      unfold symbol?
      split <;> simp_all [symbols, List.isPrefixOf, List.find?]
      grind
  | a :: b :: rest =>
      unfold symbol?
      split <;> simp_all [symbols, List.isPrefixOf, List.find?]
      all_goals grind

theorem symbol?_ne_quoted {cs text : List Char} : symbol? cs ≠ some (.quoted, text) := by
  unfold symbol?
  split <;> simp

theorem symbol?_self {cs text : List Char} {kind : TokenKind}
    (h : symbol? cs = some (kind, text)) : symbol? text = some (kind, text) := by
  unfold symbol? at h
  split at h
  case h_9 => cases h
  all_goals
    cases h
    rfl

theorem wordRun_wordRun (cs : List Char) : wordRun (wordRun cs) = wordRun cs := by
  induction cs with
  | nil => rfl
  | cons c cs ih =>
      by_cases hstop : isSpace c = true ∨ (symbol? (c :: cs)).isSome = true
      · have hnil : wordRun (c :: cs) = [] := by rw [wordRun, if_pos (by simpa using hstop)]
        rw [hnil]
        rfl
      · simp only [not_or, Bool.not_eq_true, Option.isSome_eq_false_iff,
          Option.isNone_iff_eq_none] at hstop
        have hcons : wordRun (c :: cs) = c :: wordRun cs := wordRun_cons hstop.1 hstop.2
        have hsymbol : symbol? (c :: wordRun cs) = none := hcons ▸ symbol?_wordRun hstop.2
        rw [hcons, wordRun_cons hstop.1 hsymbol, ih]

theorem not_infix_of_wordRun {word : List Char} (hword : wordRun word = word)
    {symbol : TokenKind × List Char} (hsymbol : symbol ∈ symbols) : ¬ symbol.2 <:+: word := by
  rintro ⟨front, back, hinfix⟩
  have hrun : wordRun (front ++ (symbol.2 ++ back)) = front ++ (symbol.2 ++ back) := by
    rw [← List.append_assoc, hinfix, hword]
  have hrest : wordRun (symbol.2 ++ back) = symbol.2 ++ back := wordRun_of_append hrun
  have hne : symbol.2 ≠ [] := by
    have hall : symbols.all (fun symbol => symbol.2 != []) = true := by decide
    simpa using List.all_eq_true.1 hall symbol hsymbol
  obtain ⟨c, tail, htext⟩ := List.exists_cons_of_ne_nil hne
  have hnone : symbol? (symbol.2 ++ back) = none := by
    rw [htext, List.cons_append] at hrest ⊢
    exact (symbol?_of_wordRun hrest).2
  rw [symbol?_eq_find?, List.find?_eq_none] at hnone
  apply hnone symbol hsymbol
  exact List.isPrefixOf_iff_prefix.2 (List.prefix_append symbol.2 back)

/-! ## Tokens in front of a text -/

/-- The ways in which a token stands in front of the text behind it. -/
inductive Leads (behind : List Char) : TokenKind → List Char → Prop
  | quoted {quote : Char} {inner : List Char} (hquote : Literal.isQuote quote = true)
      (hinner : quote ∉ inner) : Leads behind .quoted (quote :: inner ++ [quote])
  | symbol {kind : TokenKind} {text : List Char} (hsymbol : symbol? text = some (kind, text)) :
      Leads behind kind text
  | word {c : Char} {rest : List Char}
      (hopen : Literal.isQuote c = true → c ∉ rest ∧ c ∉ behind)
      (hword : wordRun (c :: rest) = c :: rest) : Leads behind (wordKind (c :: rest)) (c :: rest)

namespace Leads

variable {kind : TokenKind} {text behind other : List Char}

theorem of_lexeme (hopens : Opens text) (h : lexeme (text ++ behind) = (kind, text)) :
    Leads behind kind text := by
  obtain ⟨c, rest, rfl, hspace⟩ := hopens
  rw [List.cons_append] at h
  cases hrun : quotedRun? (c :: (rest ++ behind)) with
  | some run =>
      rw [lexeme, hrun] at h
      obtain ⟨rfl, rfl⟩ := Prod.mk.inj h
      rw [quotedRun?] at hrun
      split at hrun
      · next hquote =>
        rw [Bool.and_eq_true] at hquote
        rw [← Option.some.inj hrun]
        refine .quoted hquote.1 fun hmem => ?_
        simpa using List.mem_takeWhile_imp hmem
      · cases hrun
  | none =>
      cases hsymbol : symbol? (c :: (rest ++ behind)) with
      | some found =>
          rw [lexeme, hrun, hsymbol] at h
          rw [show found = (kind, c :: rest) from h] at hsymbol
          exact .symbol (symbol?_self hsymbol)
      | none =>
          rw [lexeme_of_isWritten hrun hsymbol] at h
          obtain ⟨hkind, hword⟩ := Prod.mk.inj h
          rw [hword] at hkind
          rw [← hkind]
          refine .word ?_ (by rw [← hword, wordRun_wordRun])
          intro hquote
          rw [quotedRun?] at hrun
          split at hrun
          · cases hrun
          · next hopen => simpa [hquote] using hopen

theorem mono (h : Leads behind kind text)
    (hquotes : ∀ c ∈ other, Literal.isQuote c = true → c ∈ behind) : Leads other kind text := by
  cases h with
  | quoted hquote hinner => exact .quoted hquote hinner
  | symbol hsymbol => exact .symbol hsymbol
  | word hopen hword =>
      refine .word (fun hquote => ?_) hword
      obtain ⟨hrest, hbehind⟩ := hopen hquote
      exact ⟨hrest, fun hmem => hbehind (hquotes _ hmem hquote)⟩

theorem lexeme (h : Leads behind kind text) (hstops : Stops behind) :
    lexeme (text ++ behind) = (kind, text) := by
  cases h with
  | quoted hquote hinner => exact lexeme_quoted hquote hinner behind
  | symbol hsymbol =>
      have hne : text ≠ [] := by
        rintro rfl
        cases hsymbol
      have hboth : symbol? (text ++ behind) = some (kind, text) := by
        rw [symbol?_append hstops hne, hsymbol]
      have hrun : quotedRun? (text ++ behind) = none := by
        obtain ⟨c, rest, rfl⟩ := List.exists_cons_of_ne_nil hne
        apply quotedRun?_of_not_isQuote
        refine Bool.eq_false_iff.2 fun hquote => ?_
        rw [symbol?_of_isQuote hquote] at hsymbol
        cases hsymbol
      rw [Filter.lexeme, hrun, hboth]
  | @word c rest hopen hword =>
      have hrun : quotedRun? (c :: rest ++ behind) = none := by
        rw [List.cons_append, quotedRun?, if_neg]
        intro hclosed
        rw [Bool.and_eq_true, List.contains_iff_mem, List.mem_append] at hclosed
        obtain ⟨hquote, hmem⟩ := hclosed
        exact hmem.elim (hopen hquote).1 (hopen hquote).2
      have hsymbol : symbol? (c :: rest ++ behind) = none := by
        rw [symbol?_append hstops (List.cons_ne_nil c rest), (symbol?_of_wordRun hword).2]
      rw [lexeme_of_isWritten hrun hsymbol, wordRun_append hstops, hword]

theorem exists_of_quoted (h : Leads behind kind text) (hkind : kind = .quoted) :
    ∃ quote inner, Literal.isQuote quote = true ∧ text = quote :: inner ++ [quote] ∧
      quote ∉ inner := by
  cases h with
  | @quoted quote inner hquote hinner => exact ⟨quote, inner, hquote, rfl, hinner⟩
  | symbol hsymbol => exact absurd (hkind ▸ hsymbol) symbol?_ne_quoted
  | word => exact absurd hkind (wordKind_ne_quoted _)

theorem wordRun_of_word (h : Leads behind kind text) (hkind : kind = .word) :
    wordRun text = text := by
  cases h with
  | quoted => cases hkind
  | symbol hsymbol => exact absurd (hkind ▸ hsymbol) symbol?_ne_word
  | word _ hrun => exact hrun

end Leads

/-! ## Tokens of a source -/

theorem exists_leads_of_mem {source : List Char} {token : Token} (h : token ∈ tokens source) :
    ∃ behind, Leads behind token.kind token.text := by
  induction source using tokens_induction with
  | blank source hspace => rw [tokens_of_isSpace hspace] at h; cases h
  | token kind gap text behind hgap hopens hlexeme ih =>
      rw [tokens_of_lexeme hgap hopens hlexeme] at h
      rcases List.mem_cons.1 h with rfl | hmem
      · exact ⟨behind, .of_lexeme hopens hlexeme⟩
      · exact ih hmem

theorem mem_source_of_mem_text {source : List Char} {token : Token} (h : token ∈ tokens source)
    {c : Char} (hc : c ∈ token.text) : c ∈ source := by
  obtain ⟨trailing, hsource, -⟩ := exists_eq_gappedText source
  rw [hsource, gappedText]
  apply List.mem_append_left
  exact List.mem_flatMap.2 ⟨token, h, List.mem_append_right _ hc⟩

end DocumentStore.Filter
