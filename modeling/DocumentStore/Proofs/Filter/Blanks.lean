import DocumentStore.Proofs.Filter.Composition
import Mathlib.Data.List.DropRight

/-!
# Blanks beside tokens

The lexer skips some blanks and takes the others for letters of words.  One of these joins the
word that stands behind it or before it, and makes a plain word of a keyword; beside a symbol or
at a space it is a word of its own.
-/

namespace DocumentStore.Filter

/-- The token is no quoted run and no symbol. -/
def Token.isWritten (token : Token) : Bool :=
  token.kind != .quoted && (symbol? token.text).isNone

/-- The token is a word with a meaning of its own. -/
def Token.isKeyword (token : Token) : Bool := token.isWritten && token.kind != .word

/-! ## Blanks as letters -/

section

variable {c : Char} (hblank : Text.isBlank c = true)

include hblank

theorem isQuote_of_isBlank : Literal.isQuote c = false := by
  refine Bool.eq_false_iff.2 fun hquote => ?_
  simp only [Literal.isQuote, Bool.or_eq_true, beq_iff_eq] at hquote
  rcases hquote with rfl | rfl <;> cases hblank

theorem symbol?_of_isBlank (rest : List Char) : symbol? (c :: rest) = none := by
  unfold symbol?
  split
  case h_9 => rfl
  all_goals
    rename_i heq
    rw [(List.cons.inj heq).1] at hblank
    cases hblank

theorem toLower_of_isBlank : c.toLower = c := by
  refine dif_neg fun hletter => ?_
  have hfrom : 65 ≤ c.toNat := UInt32.le_iff_toNat_le.1 hletter.1
  have hto : c.toNat ≤ 90 := UInt32.le_iff_toNat_le.1 hletter.2
  simp [Text.isBlank] at hblank
  omega

theorem wordKind_of_mem {word : List Char} (hmem : c ∈ word) : wordKind word = .word := by
  have hletters : keywords.all (fun entry => entry.1.toList.all (!Text.isBlank ·)) = true := by
    decide
  have hnone : keywords.lookup (String.ofList (Text.lower word)) = none := by
    rw [List.lookup_eq_none_iff]
    intro entry hentry
    rw [bne_iff_ne]
    intro heq
    have hvisible := List.all_eq_true.1 hletters entry hentry
    have hlower : c ∈ Text.lower word :=
      List.mem_map.2 ⟨c, hmem, toLower_of_isBlank hblank⟩
    rw [← heq, String.toList_ofList, List.all_eq_true] at hvisible
    have hc := hvisible c hlower
    rw [hblank] at hc
    cases hc
  rw [wordKind, hnone]
  rfl

theorem quotedRun?_concat (cs : List Char) : quotedRun? (cs ++ [c]) = quotedRun? cs := by
  cases hrun : quotedRun? cs with
  | some run => exact quotedRun?_append hrun [c]
  | none =>
      cases cs with
      | nil => exact quotedRun?_of_not_isQuote (isQuote_of_isBlank hblank)
      | cons first rest =>
          rw [quotedRun?] at hrun
          rw [List.cons_append, quotedRun?]
          split at hrun
          · cases hrun
          · next hopen =>
            rw [if_neg]
            -- the blank is no quote, so it closes nothing
            intro hclosed
            rw [Bool.and_eq_true, List.contains_iff_mem, List.mem_append,
              List.mem_singleton] at hclosed
            rcases hclosed with ⟨hquote, hmem | rfl⟩
            · exact hopen (by simp [hquote, hmem])
            · rw [isQuote_of_isBlank hblank] at hquote
              cases hquote

theorem symbol?_concat {cs : List Char} (hne : cs ≠ []) : symbol? (cs ++ [c]) = symbol? cs := by
  refine symbol?_append_cons ⟨?_, ?_, ?_⟩ hne []
  all_goals
    rintro rfl
    cases hblank

end

/-- A word that reaches the end of a text goes on to a blank that is not skipped. -/
theorem wordRun_concat {c : Char} (hblank : Text.isBlank c = true) (cs : List Char) :
    wordRun (cs ++ [c]) =
      if wordRun cs = cs ∧ isSpace c = false then cs ++ [c] else wordRun cs := by
  induction cs with
  | nil =>
      cases hspace : isSpace c with
      | true => simp [wordRun, hspace]
      | false => simp [wordRun, hspace, symbol?_of_isBlank hblank]
  | cons d cs ih =>
      rw [List.cons_append, wordRun, ← List.cons_append,
        symbol?_concat hblank (List.cons_ne_nil d cs), wordRun]
      split
      · rw [if_neg]
        rintro ⟨hnil, -⟩
        cases hnil
      · rw [ih]
        by_cases hall : wordRun cs = cs ∧ isSpace c = false
        · rw [if_pos hall, if_pos ⟨congrArg (d :: ·) hall.1, hall.2⟩]
          rfl
        · rw [if_neg hall, if_neg fun h => hall ⟨(List.cons.inj h.1).2, h.2⟩]

theorem wordRun_of_append {front cs rest : List Char}
    (h : wordRun (front ++ cs) = front ++ rest) : wordRun cs = rest := by
  induction front with
  | nil => exact h
  | cons d front ih =>
      rw [List.cons_append, wordRun] at h
      split at h
      · cases h
      · exact ih (List.cons.inj h).2

theorem exists_wordRun_append {trail : List Char} (htrail : ∀ c ∈ trail, Text.isBlank c = true)
    (cs : List Char) :
    ∃ more, wordRun (cs ++ trail) = wordRun cs ++ more ∧ ∀ c ∈ more, Text.isBlank c = true := by
  induction trail generalizing cs with
  | nil => exact ⟨[], by rw [List.append_nil, List.append_nil], List.forall_mem_nil _⟩
  | cons c trail ih =>
      rw [List.forall_mem_cons] at htrail
      obtain ⟨more, hword, hmore⟩ := ih htrail.2 (cs ++ [c])
      rw [wordRun_concat htrail.1] at hword
      rw [List.append_cons]
      split at hword
      · next hall =>
        exact ⟨c :: more, by rw [hword, hall.1, List.append_assoc, List.singleton_append],
          List.forall_mem_cons.2 ⟨htrail.1, hmore⟩⟩
      · exact ⟨more, hword, hmore⟩

theorem isSpace_of_mem_wordRun {c : Char} {cs : List Char} (h : c ∈ wordRun cs) :
    isSpace c = false := by
  induction cs with
  | nil => cases h
  | cons d cs ih =>
      rw [wordRun] at h
      split at h
      · cases h
      · next hstop =>
        rcases List.mem_cons.1 h with rfl | hmem
        · simp only [Bool.or_eq_true, not_or, Bool.not_eq_true] at hstop
          exact hstop.1
        · exact ih hmem

theorem wordKind_ne_quoted (word : List Char) : wordKind word ≠ .quoted := by
  have hkinds : keywords.all (fun entry => entry.2 != .quoted) = true := by decide
  intro hquoted
  rw [wordKind] at hquoted
  cases hkind : keywords.lookup (String.ofList (Text.lower word)) with
  | none => rw [hkind] at hquoted; cases hquoted
  | some kind =>
      rw [hkind, Option.getD_some] at hquoted
      obtain ⟨front, back, hsplit, -⟩ := List.lookup_eq_some_iff.1 hkind
      have hentry := List.all_eq_true.1 hkinds (String.ofList (Text.lower word), kind)
        (by rw [hsplit]; simp)
      rw [hquoted] at hentry
      cases hentry

/-! ## Lexemes -/

theorem isSome_symbol?_text {cs text : List Char} {kind : TokenKind}
    (h : symbol? cs = some (kind, text)) : (symbol? text).isSome = true ∧ kind ≠ .not := by
  unfold symbol? at h
  split at h
  case h_9 => cases h
  all_goals
    cases h
    exact ⟨rfl, nofun⟩

theorem symbol?_wordRun {cs : List Char} (h : symbol? cs = none) : symbol? (wordRun cs) = none := by
  match cs with
  | [] => rfl
  | [a] =>
      rw [wordRun]
      split
      · rfl
      · exact h
  | a :: b :: rest =>
      rw [wordRun]
      split
      · rfl
      rw [wordRun]
      split
      · -- A first character that is a symbol by itself is one before any other.
        unfold symbol? at h ⊢
        split at h <;> simp_all
      · rw [← h]
        exact symbol?_cons_cons a b _ _

theorem isWritten_lexeme (cs gap : List Char) :
    (⟨(lexeme cs).1, gap, (lexeme cs).2⟩ : Token).isWritten =
      ((quotedRun? cs).isNone && (symbol? cs).isNone) := by
  rw [lexeme]
  cases hrun : quotedRun? cs with
  | some run => rfl
  | none =>
      cases hsymbol : symbol? cs with
      | some found =>
          obtain ⟨kind, text⟩ := found
          have htext := (isSome_symbol?_text hsymbol).1
          simp [Token.isWritten, htext]
      | none =>
          have hkind := wordKind_ne_quoted (wordRun cs)
          simp [Token.isWritten, symbol?_wordRun hsymbol, hkind]

theorem lexeme_of_isWritten {cs : List Char} (hrun : quotedRun? cs = none)
    (hsymbol : symbol? cs = none) : lexeme cs = (wordKind (wordRun cs), wordRun cs) := by
  rw [lexeme, hrun, hsymbol]

theorem word_of_isWritten {kind : TokenKind} {gap text behind : List Char}
    (hlexeme : lexeme (text ++ behind) = (kind, text))
    (hwritten : (⟨kind, gap, text⟩ : Token).isWritten = true) :
    kind = wordKind text ∧ wordRun (text ++ behind) = text := by
  have hplain := isWritten_lexeme (text ++ behind) gap
  rw [hlexeme, hwritten, eq_comm, Bool.and_eq_true, Option.isNone_iff_eq_none,
    Option.isNone_iff_eq_none] at hplain
  rw [lexeme_of_isWritten hplain.1 hplain.2] at hlexeme
  obtain ⟨hkind, hword⟩ := Prod.mk.inj hlexeme
  rw [hword] at hkind
  exact ⟨hkind.symm, hword⟩

theorem isWritten_of_not {gap text behind : List Char}
    (hlexeme : lexeme (text ++ behind) = (.not, text)) :
    (⟨.not, gap, text⟩ : Token).isWritten = true := by
  have hplain := isWritten_lexeme (text ++ behind) gap
  rw [hlexeme] at hplain
  rw [hplain]
  rw [lexeme] at hlexeme
  cases hrun : quotedRun? (text ++ behind) with
  | some run => rw [hrun] at hlexeme; cases hlexeme
  | none =>
      cases hsymbol : symbol? (text ++ behind) with
      | some found =>
          rw [hrun, hsymbol] at hlexeme
          obtain ⟨kind, symbol⟩ := found
          exact absurd (congrArg Prod.fst hlexeme) (isSome_symbol?_text hsymbol).2
      | none => rfl

section

variable {c : Char} (hblank : Text.isBlank c = true)

include hblank

theorem lexeme_cons_of_isBlank (hspace : isSpace c = false) (rest : List Char) :
    lexeme (c :: rest) = (.word, c :: wordRun rest) := by
  have hsymbol := symbol?_of_isBlank hblank rest
  rw [lexeme_of_isWritten (quotedRun?_of_not_isQuote (isQuote_of_isBlank hblank)) hsymbol,
    wordRun_cons hspace hsymbol, wordKind_of_mem hblank List.mem_cons_self]

/-- A blank behind a text changes its first lexeme only where that is a word, is the whole text,
and the blank is not skipped. -/
theorem lexeme_concat {cs : List Char} (hne : cs ≠ []) :
    lexeme (cs ++ [c]) =
      if (⟨(lexeme cs).1, [], (lexeme cs).2⟩ : Token).isWritten = true ∧ (lexeme cs).2 = cs ∧
          isSpace c = false then (.word, cs ++ [c])
      else lexeme cs := by
  rw [isWritten_lexeme]
  cases hrun : quotedRun? cs with
  | some run =>
      rw [if_neg (by simp), lexeme, quotedRun?_concat hblank, hrun, lexeme, hrun]
  | none =>
      cases hsymbol : symbol? cs with
      | some found =>
          rw [if_neg (by simp), lexeme, quotedRun?_concat hblank, hrun,
            symbol?_concat hblank hne, hsymbol, lexeme, hrun, hsymbol]
      | none =>
          have hboth : symbol? (cs ++ [c]) = none := (symbol?_concat hblank hne).trans hsymbol
          rw [lexeme_of_isWritten ((quotedRun?_concat hblank cs).trans hrun) hboth,
            lexeme_of_isWritten hrun hsymbol, wordRun_concat hblank]
          by_cases hall : wordRun cs = cs ∧ isSpace c = false
          · rw [if_pos hall, if_pos ⟨rfl, hall⟩, wordKind_of_mem hblank (by simp)]
          · rw [if_neg hall, if_neg fun h => hall h.2]

end

/-! ## A blank before tokens -/

theorem isSpace_of_isQuote {c : Char} (h : Literal.isQuote c = true) : isSpace c = false := by
  refine Bool.eq_false_iff.2 fun hspace => ?_
  rw [isQuote_of_isBlank (isBlank_of_isSpace hspace)] at h
  cases h

theorem opens_of_quotedRun? {cs run : List Char} (h : quotedRun? cs = some run) : Opens run := by
  cases cs with
  | nil => cases h
  | cons c rest =>
      rw [quotedRun?] at h
      split at h
      · next hquote =>
        rw [Bool.and_eq_true] at hquote
        exact ⟨c, _, (Option.some.inj h).symm, isSpace_of_isQuote hquote.1⟩
      · cases h

section

variable {c : Char} (hblank : Text.isBlank c = true) (hspace : isSpace c = false)

include hblank hspace

theorem tokens_cons_of_wordRun {source word behind : List Char} (hsource : source = word ++ behind)
    (hword : wordRun source = word) :
    tokens (c :: source) = ⟨.word, [], c :: word⟩ :: tokens behind := by
  have hlexeme : lexeme (c :: word ++ behind) = (.word, c :: word) := by
    rw [List.cons_append, ← hsource, lexeme_cons_of_isBlank hblank hspace, hword]
  rw [hsource]
  exact @tokens_of_lexeme [] _ _ _ (List.forall_mem_nil _) ⟨c, word, rfl, hspace⟩ hlexeme

theorem tokens_cons_of_wordRun_nil {source : List Char} (hword : wordRun source = []) :
    tokens (c :: source) = ⟨.word, [], [c]⟩ :: tokens source :=
  tokens_cons_of_wordRun hblank hspace rfl hword

theorem exists_tokens_cons_of_word {source : List Char} (hrun : quotedRun? source = none)
    (hword : wordRun source ≠ []) :
    ∃ first rest, tokens source = first :: rest ∧ first.isWritten = true ∧
      tokens (c :: source) = ⟨.word, [], c :: first.text⟩ :: rest := by
  obtain ⟨behind, hsource⟩ := wordRun_prefix source
  cases source with
  | nil => exact absurd rfl hword
  | cons d source =>
      have hstop : (isSpace d || (symbol? (d :: source)).isSome) = false := by
        refine Bool.eq_false_iff.2 fun hstop => hword ?_
        rw [wordRun, if_pos hstop]
      rw [Bool.or_eq_false_iff] at hstop
      have hsymbol : symbol? (d :: source) = none := by simpa using hstop.2
      have hlexeme := lexeme_of_isWritten hrun hsymbol
      have hopens : Opens (wordRun (d :: source)) := by
        rw [wordRun_cons hstop.1 hsymbol]
        exact ⟨d, _, rfl, hstop.1⟩
      have hfirst : lexeme (wordRun (d :: source) ++ behind) =
          (wordKind (wordRun (d :: source)), wordRun (d :: source)) := by rw [hsource, hlexeme]
      have htokens := @tokens_of_lexeme [] _ _ _ (List.forall_mem_nil _) hopens hfirst
      rw [List.nil_append, hsource] at htokens
      have hwritten := isWritten_lexeme (d :: source) []
      rw [hlexeme, hrun, hsymbol] at hwritten
      exact ⟨_, _, htokens, hwritten, tokens_cons_of_wordRun hblank hspace hsource.symm rfl⟩

end

/-! ## A blank behind tokens -/

theorem tokens_concat_of_isSpace {c : Char} (hspace : isSpace c = true) (source : List Char) :
    tokens (source ++ [c]) = tokens source := by
  induction source using tokens_induction with
  | blank source h =>
      have hall : ∀ d ∈ source ++ [c], isSpace d = true := by
        intro d hd
        rcases List.mem_append.1 hd with hmem | hlast
        · exact h d hmem
        · rwa [List.mem_singleton.1 hlast]
      rw [tokens_of_isSpace hall, tokens_of_isSpace h]
  | token kind gap text behind hgap hopens hlexeme ih =>
      have hne : text ++ behind ≠ [] := by
        obtain ⟨d, rest, rfl, -⟩ := hopens
        exact List.cons_ne_nil _ _
      have hboth : lexeme (text ++ (behind ++ [c])) = (kind, text) := by
        rw [← List.append_assoc, lexeme_concat (isBlank_of_isSpace hspace) hne, if_neg, hlexeme]
        rintro ⟨-, -, hunskipped⟩
        rw [hspace] at hunskipped
        cases hunskipped
      rw [List.append_assoc, tokens_of_lexeme hgap hopens hboth, ih,
        tokens_of_lexeme hgap hopens hlexeme]

/-- A blank that is not skipped becomes the last letter of a word that ends before it, and else is
a word by itself. -/
theorem exists_tokens_concat {c : Char} (hblank : Text.isBlank c = true)
    (hspace : isSpace c = false) (source : List Char) :
    (∃ init last, tokens source = init ++ [last] ∧ last.isWritten = true ∧
      (∀ d ∈ source.getLast?, isSpace d = false) ∧
      tokens (source ++ [c]) = init ++ [⟨.word, last.gap, last.text ++ [c]⟩]) ∨
    ∃ gap, (∀ d ∈ gap, isSpace d = true) ∧
      ((∀ d ∈ source.getLast?, isSpace d = false) → ∀ last ∈ (tokens source).getLast?,
        last.isWritten = false) ∧
      tokens (source ++ [c]) = tokens source ++ [⟨.word, gap, [c]⟩] := by
  have hempty : tokens [] = [] := tokens_of_blank rfl
  have hlone (gap : List Char) (hgap : ∀ d ∈ gap, isSpace d = true) :
      tokens (gap ++ [c]) = [⟨.word, gap, [c]⟩] := by
    have hlexeme : lexeme ([c] ++ []) = (.word, [c]) := lexeme_cons_of_isBlank hblank hspace []
    have htokens := tokens_of_lexeme hgap ⟨c, [], rfl, hspace⟩ hlexeme
    rwa [List.append_nil, hempty] at htokens
  induction source using tokens_induction with
  | blank source h =>
      refine .inr ⟨source, h, fun _ last hlast => ?_, ?_⟩
      · rw [tokens_of_isSpace h] at hlast
        cases hlast
      · rw [hlone source h, tokens_of_isSpace h]
        rfl
  | token kind gap text behind hgap hopens hlexeme ih =>
      have hne : text ++ behind ≠ [] := by
        obtain ⟨d, rest, rfl, -⟩ := hopens
        exact List.cons_ne_nil _ _
      have hconcat := lexeme_concat hblank hne
      have htokens := tokens_of_lexeme hgap hopens hlexeme
      rw [hlexeme, hspace] at hconcat
      cases behind with
      | nil =>
          rw [List.append_nil] at hlexeme hconcat htokens ⊢
          rw [hempty] at htokens
          cases hwritten : (⟨kind, gap, text⟩ : Token).isWritten with
          | true =>
              rw [if_pos ⟨hwritten, rfl, rfl⟩] at hconcat
              obtain ⟨d, rest, htext, hd⟩ := hopens
              refine .inl ⟨[], _, htokens, hwritten, fun e he => ?_, ?_⟩
              · rw [htext, List.getLast?_append_cons, ← htext] at he
                have hword := (word_of_isWritten (by rwa [List.append_nil]) hwritten).2
                rw [List.append_nil] at hword
                exact isSpace_of_mem_wordRun (hword.symm ▸ List.mem_of_getLast? he)
              · have hboth : lexeme (text ++ [c] ++ []) = (.word, text ++ [c]) := by
                  rw [List.append_nil, hconcat]
                have hall := tokens_of_lexeme hgap ⟨d, rest ++ [c], by rw [htext]; rfl, hd⟩ hboth
                rw [List.append_nil, hempty, ← List.append_assoc] at hall
                exact hall
          | false =>
              rw [if_neg fun h => Bool.false_ne_true (hwritten.symm.trans h.1)] at hconcat
              refine .inr ⟨[], nofun, fun _ last hlast => ?_, ?_⟩
              · rw [htokens] at hlast
                rw [← Option.some_inj.1 hlast]
                exact hwritten
              · rw [htokens, List.append_assoc, ← List.append_assoc,
                  tokens_of_lexeme hgap hopens hconcat]
                exact congrArg _ (hlone [] nofun)
      | cons d behind =>
          -- The first lexeme is not the whole text, so the blank does not reach it.
          have hpart : text ≠ text ++ d :: behind := by simp
          rw [if_neg fun h => hpart h.2.1] at hconcat
          have hboth := tokens_of_lexeme hgap hopens (by rw [← List.append_assoc, hconcat])
          have hend : (gap ++ text ++ d :: behind).getLast? = (d :: behind).getLast? :=
            List.getLast?_append_cons _ _ _
          rw [htokens, hend, List.append_assoc]
          rcases ih with ⟨init, last, hbehind, hwritten, hlast, hbefore⟩ |
            ⟨last, hlast, hplain, hbefore⟩
          · refine .inl ⟨⟨kind, gap, text⟩ :: init, last, by rw [hbehind]; rfl, hwritten, hlast, ?_⟩
            rw [hboth, hbefore]
            rfl
          · refine .inr ⟨last, hlast, fun hvisible => ?_, by rw [hboth, hbefore]; rfl⟩
            cases hfound : tokens (d :: behind) with
            | nil =>
                -- A text without a token is skipped to its end.
                obtain ⟨trailing, hsource, htrailing⟩ := exists_eq_gappedText (d :: behind)
                rw [hfound, gappedText_nil, List.nil_append] at hsource
                have hvisible := hvisible _
                  (List.getLast?_eq_some_getLast (List.cons_ne_nil d behind))
                rw [htrailing _ (by rw [← hsource]; exact List.getLast_mem _)] at hvisible
                cases hvisible
            | cons first rest =>
                rw [List.getLast?_cons_cons, ← hfound]
                exact hplain hvisible

end DocumentStore.Filter
