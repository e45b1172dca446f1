import DocumentStore.Proofs.Filter.EndTokens

/-!
# Blanks around a filter

The lexer skips fewer blanks than are trimmed off a text.  The others change the tree of a filter
just where they stand beside a keyword that is read, or before a negation.  Left out are quoted
runs that such a blank would cut in two.
-/

namespace DocumentStore.Filter

/-! ## What blanks around a text change -/

/-- A blank in front takes its meaning from the first token: from a negation in any case, from
another keyword only right beside it. -/
def losesFront (beside : Bool) (found : List Token) : Bool :=
  found.head?.any fun first => first.kind == .not || first.isKeyword && beside

/-- Some of the blanks in front are not skipped, and the first token loses its meaning to them. -/
def changesFront (lead : List Char) (found : List Token) : Bool :=
  lead.any (!isSpace ·) && losesFront (lead.getLast?.any (!isSpace ·)) found

/-- The last token is a keyword that is read. -/
def losesBack (found : List Token) : Bool :=
  found.getLast?.any fun last =>
    last.isKeyword && last.kind.isRead (found.dropLast.rtakeWhile (!·.isConnective))

/-- The first of the blanks behind is not skipped, and the last token loses its meaning to it. -/
def changesBack (trail : List Char) (found : List Token) : Bool :=
  trail.head?.any (!isSpace ·) && losesBack found

/-- Where a quoted run stands in front, the word that starts there is that run with blanks behind
it at most. -/
def KeepsQuotes (source : List Char) : Prop :=
  ∀ run ∈ quotedRun? source, ∃ more, wordRun source = run ++ more ∧
    ∀ c ∈ more, Text.isBlank c = true

/-- The trees are the same, or the first is coarser where there is a change. -/
def Alters (changed : Bool) (tree other : Predicate) : Prop :=
  if changed then tree.Coarser other else tree = other

def treeOf (source : List Char) : Predicate := Reading.ors Token.kind segment (tokens source)

theorem treeOf_eq_parse {source : List Char} (h : source.all Text.isBlank = false) :
    parse source = treeOf source :=
  parse_of_not_blank h

/-! ## Words that keep or lose their meaning -/

def Token.isText (token : Token) : Bool := token.kind == .word || token.kind == .quoted

theorem isOperator_of_isText {token : Token} (h : token.isText = true) :
    token.isOperator = false := by
  rw [Token.isText, Bool.or_eq_true, beq_iff_eq, beq_iff_eq] at h
  rw [Token.isOperator]
  rcases h with h | h <;> rw [h]

theorem isConnective_of_isText {token : Token} (h : token.isText = true) :
    token.isConnective = false := by
  rw [Token.isText, Bool.or_eq_true, beq_iff_eq, beq_iff_eq] at h
  rw [Token.isConnective]
  rcases h with h | h <;> rw [h]

theorem visible_text_of_keyword {source : List Char} {token : Token}
    (htoken : token ∈ tokens source) (hkeyword : token.isKeyword = true) :
    0 < visible token.text := by
  induction source using tokens_induction with
  | blank source h => rw [tokens_of_isSpace h] at htoken; cases htoken
  | token kind gap text behind hgap hopens hlexeme ih =>
      rw [tokens_of_lexeme hgap hopens hlexeme] at htoken
      rcases List.mem_cons.1 htoken with rfl | hmem
      · obtain ⟨c, rest, rfl, -⟩ := hopens
        rw [Token.isKeyword, Bool.and_eq_true, bne_iff_ne] at hkeyword
        have hword := (word_of_isWritten hlexeme hkeyword.1).1
        have hvisible : Text.isBlank c = false := Bool.eq_false_iff.2 fun hblank =>
          hkeyword.2 (hword.trans (wordKind_of_mem hblank List.mem_cons_self))
        exact List.countP_pos_iff.2 ⟨c, List.mem_cons_self, by rw [hvisible]; rfl⟩
      · exact ih hmem

theorem isKeyword_of_not {source : List Char} {token : Token} (htoken : token ∈ tokens source)
    (hkind : token.kind = .not) : token.isKeyword = true := by
  induction source using tokens_induction with
  | blank source h => rw [tokens_of_isSpace h] at htoken; cases htoken
  | token kind gap text behind hgap hopens hlexeme ih =>
      rw [tokens_of_lexeme hgap hopens hlexeme] at htoken
      rcases List.mem_cons.1 htoken with rfl | hmem
      · cases hkind
        rw [Token.isKeyword, isWritten_of_not hlexeme]
        rfl
      · exact ih hmem

section

variable {c : Char} (hblank : Text.isBlank c = true)

include hblank

theorem trim_singleton : Text.trim [c] = [] := by
  rw [Text.trim_eq_nil_iff]
  simpa using hblank

theorem ors_cons_blank {found : List Token}
    (hgap : ∀ first ∈ found.head?, ∀ d ∈ first.gap, Text.isBlank d = true)
    (hfirst : ∀ first ∈ found.head?, first.kind ≠ .not) :
    Reading.ors Token.kind segment (⟨.word, [], [c]⟩ :: found) =
      Reading.ors Token.kind segment found := by
  let fits (rest : List Token) : Prop := ∀ first ∈ rest.head?, first.kind ≠ .not ∧
    ∀ d ∈ first.gap, Text.isBlank d = true
  have hfits : ∀ rest part, part <+: rest → fits rest → fits part := by
    rintro _ part ⟨behind, rfl⟩ hrest first hfirst
    cases part with
    | nil => cases hfirst
    | cons token part => exact hrest first hfirst
  have halike : AlikeBefore fits [⟨.word, [], [c]⟩] [] (Reading.operand Token.kind segment) := by
    intro rest hrest
    rw [List.nil_append, operand_of_head? (by simp),
      operand_of_head? fun first hfirst => (hrest first hfirst).1]
    refine @segment_congr_front [⟨.word, [], [c]⟩] [] rest (by simp [Token.isOperator]) nofun
      fun part hpart => ?_
    have hgap := hfits rest part hpart hrest
    cases part with
    | nil => exact trim_singleton hblank
    | cons token part =>
        have htext : sourceText ([⟨.word, [], [c]⟩] ++ token :: part) =
            (c :: token.gap) ++ sourceText (token :: part) := by
          simp [sourceText_cons]
        rw [htext, List.nil_append]
        exact Text.trim_append_left (List.forall_mem_cons.2 ⟨hblank, (hgap token rfl).2⟩)
  exact @ors_congr_front fits [⟨.word, [], [c]⟩] [] found hfits (by simp [Token.isConnective])
    nofun halike fun first hmem => ⟨hfirst first hmem, hgap first hmem⟩

theorem ors_congr_texts {front front' : List Token} (hfront : ∀ token ∈ front, token.isText = true)
    (hfront' : ∀ token ∈ front', token.isText = true) (hne : front ≠ []) (hne' : front' ≠ [])
    (htext : sourceText front = c :: sourceText front') (rest : List Token) :
    Reading.ors Token.kind segment (front ++ rest) =
      Reading.ors Token.kind segment (front' ++ rest) := by
  have hhead {front : List Token} (hfront : ∀ token ∈ front, token.isText = true)
      (hne : front ≠ []) (rest : List Token) :
      ∀ first ∈ (front ++ rest).head?, first.kind ≠ .not := by
    obtain ⟨first, others, rfl⟩ := List.exists_cons_of_ne_nil hne
    rintro token htoken hnot
    have hfirst := hfront first List.mem_cons_self
    rw [Option.some_inj.1 htoken, Token.isText, hnot] at hfirst
    cases hfirst
  have halike : AlikeBefore (fun _ => True) front front'
      (Reading.operand Token.kind segment) := by
    intro rest _
    rw [operand_of_head? (hhead hfront hne rest), operand_of_head? (hhead hfront' hne' rest)]
    refine segment_congr_front (fun token htoken => isOperator_of_isText (hfront token htoken))
      (fun token htoken => isOperator_of_isText (hfront' token htoken)) fun part _ => ?_
    rw [sourceText_append hne, sourceText_append hne', htext]
    exact @Text.trim_append_left _ [c] (by simpa using hblank)
  exact ors_congr_front (fun _ _ _ _ => trivial)
    (fun token htoken => isConnective_of_isText (hfront token htoken))
    (fun token htoken => isConnective_of_isText (hfront' token htoken)) halike trivial

theorem ors_concat_blank {gap : List Char} (hgap : ∀ d ∈ gap, Text.isBlank d = true)
    (found : List Token) :
    Reading.ors Token.kind segment (found ++ [⟨.word, gap, [c]⟩]) =
      Reading.ors Token.kind segment found := by
  have hback := @ors_congr_back found [⟨.word, gap, [c]⟩] [] (by simp [TokenKind.isRead]) nofun
    fun part => by
      rw [List.append_nil]
      cases part with
      | nil => exact trim_singleton hblank
      | cons token part =>
          rw [sourceText_append (List.cons_ne_nil token part)]
          refine Text.trim_append_right fun d hd => ?_
          have hmem : d ∈ gap ∨ d = c := by simpa using hd
          rcases hmem with hmem | rfl
          · exact hgap d hmem
          · exact hblank
  rwa [List.append_nil] at hback

theorem ors_concat_word {found : List Token} {last : Token}
    (hidle : last.kind.isRead (found.rtakeWhile (!·.isConnective)) = false) :
    Reading.ors Token.kind segment (found ++ [⟨.word, last.gap, last.text ++ [c]⟩]) =
      Reading.ors Token.kind segment (found ++ [last]) := by
  refine ors_congr_back (by simp [TokenKind.isRead]) (by simpa using hidle) fun part => ?_
  have htext : sourceText (part ++ [⟨.word, last.gap, last.text ++ [c]⟩]) =
      sourceText (part ++ [last]) ++ [c] := by
    cases part <;> simp [sourceText_cons]
  rw [htext]
  exact Text.trim_append_right (by simpa using hblank)

end

/-! ## Blanks in front -/

theorem treeOf_cons_of_quotedRun? {c : Char} (hblank : Text.isBlank c = true)
    (hspace : isSpace c = false) {source run more : List Char} (hrun : quotedRun? source = some run)
    (hword : wordRun source = run ++ more) (hmore : ∀ d ∈ more, Text.isBlank d = true) :
    treeOf (c :: source) = treeOf source ∧ ∀ beside, losesFront beside (tokens source) = false := by
  obtain ⟨behind, hsource⟩ := wordRun_prefix source
  rw [hword] at hsource
  have hlexeme : lexeme (run ++ (more ++ behind)) = (.quoted, run) := by
    rw [← List.append_assoc, hsource, lexeme, hrun]
  have hopens := opens_of_quotedRun? hrun
  have hfound := @tokens_of_lexeme [] _ _ _ (List.forall_mem_nil _) hopens hlexeme
  rw [List.nil_append, ← List.append_assoc, hsource] at hfound
  have hjoined := tokens_cons_of_wordRun hblank hspace hsource.symm hword
  refine ⟨?_, fun beside => by rw [hfound]; rfl⟩
  rw [treeOf, treeOf, hjoined, hfound]
  cases more with
  | nil =>
      rw [List.append_nil]
      exact @ors_congr_texts c hblank [⟨.word, [], c :: run⟩] [⟨.quoted, [], run⟩]
        (by simp [Token.isText]) (by simp [Token.isText]) (List.cons_ne_nil _ _)
        (List.cons_ne_nil _ _) (by simp [sourceText_cons]) (tokens behind)
  | cons d more =>
      -- Behind the quoted run the blanks are a word of their own.
      have hd : isSpace d = false := isSpace_of_mem_wordRun (by rw [hword]; simp)
      have hrest : wordRun (more ++ behind) = more := by
        refine @wordRun_of_append (run ++ [d]) _ _ ?_
        rw [List.append_assoc, List.append_assoc, List.singleton_append, List.singleton_append,
          ← List.cons_append, ← List.append_assoc, hsource, hword]
      have hparted := tokens_cons_of_wordRun (hmore d List.mem_cons_self) hd rfl hrest
      rw [List.cons_append, hparted]
      exact @ors_congr_texts c hblank [⟨.word, [], c :: (run ++ d :: more)⟩]
        [⟨.quoted, [], run⟩, ⟨.word, [], d :: more⟩] (by simp [Token.isText])
        (by simp [Token.isText]) (List.cons_ne_nil _ _) (List.cons_ne_nil _ _)
        (by simp [sourceText_cons]) (tokens behind)

theorem gapBlind_ors : GapBlind (Reading.ors Token.kind segment) := gapBlind_nors.level .or .or

section

variable {c : Char} (hblank : Text.isBlank c = true) (hspace : isSpace c = false)
  {source : List Char}

include hblank hspace

theorem alters_cons_of_wordRun_nil (hword : wordRun source = []) :
    Alters (losesFront false (tokens source)) (treeOf (c :: source)) (treeOf source) := by
  rw [treeOf, treeOf, tokens_cons_of_wordRun_nil hblank hspace hword]
  cases hsource : tokens source with
  | nil => exact ors_cons_blank hblank nofun nofun
  | cons first rest =>
      have hfirst : first ∈ tokens source := hsource ▸ List.mem_cons_self
      by_cases hnot : first.kind = .not
      · have hvisible := visible_text_of_keyword hfirst (isKeyword_of_not hfirst hnot)
        have hfront : 0 < visible (sourceText [⟨.word, [], [c]⟩, first]) := by
          simp only [sourceText_cons, gappedText_cons, visible_append]
          omega
        have hcoarser := @coarser_front first [⟨.word, [], [c]⟩, first] rest
          (by simp [hnot]) (by simp [Token.isConnective, Token.isOperator, hnot]) (by simp) hfront
        simpa [Alters, losesFront, hnot] using hcoarser
      · have hgap : ∀ d ∈ first.gap, Text.isBlank d = true := fun d hd =>
          isBlank_of_isSpace (isSpace_of_mem_gap hfirst hd)
        have hsame := @ors_cons_blank c hblank (first :: rest) (by simpa using hgap)
          (by simpa using hnot)
        simpa [Alters, losesFront, hnot] using hsame

theorem alters_cons_of_word (hrun : quotedRun? source = none) (hword : wordRun source ≠ []) :
    Alters (losesFront true (tokens source)) (treeOf (c :: source)) (treeOf source) := by
  obtain ⟨first, rest, hsource, hwritten, hbefore⟩ :=
    exists_tokens_cons_of_word hblank hspace hrun hword
  have hfirst : first ∈ tokens source := hsource ▸ List.mem_cons_self
  rw [treeOf, treeOf, hbefore, hsource]
  by_cases hkind : first.kind = .word
  · obtain ⟨kind, gap, text⟩ := first
    cases hkind
    have hsame := @ors_congr_texts c hblank [⟨.word, [], c :: text⟩] [⟨.word, gap, text⟩]
      (by simp [Token.isText]) (by simp [Token.isText]) (List.cons_ne_nil _ _)
      (List.cons_ne_nil _ _) (by simp [sourceText_cons]) rest
    simpa [Alters, losesFront, Token.isKeyword] using hsame
  · have hkeyword : first.isKeyword = true := by simp [Token.isKeyword, hwritten, hkind]
    have hvisible := visible_text_of_keyword hfirst hkeyword
    have hquoted : first.kind ≠ .quoted := by
      rw [Token.isWritten, Bool.and_eq_true, bne_iff_ne] at hwritten
      exact hwritten.1
    have hfront : 0 < visible (sourceText [⟨.word, [], c :: first.text⟩]) := by
      rw [sourceText_cons, gappedText_nil, List.append_nil, ← List.singleton_append,
        visible_append]
      omega
    have hcoarser := @coarser_front first [⟨.word, [], c :: first.text⟩] rest ⟨hquoted, hkind⟩
      (by simp [Token.isConnective, Token.isOperator]) (by simp) hfront
    simpa [Alters, losesFront, hkeyword] using hcoarser

end

theorem gapBlind_losesFront (beside : Bool) : GapBlind (losesFront beside) :=
  fun _ _ _ _ _ => rfl

theorem head?_tokens {source : List Char} (hne : source ≠ [])
    (hsource : ∀ c ∈ source.head?, isSpace c = false) :
    (tokens source).head? = some ⟨(lexeme source).1, [], (lexeme source).2⟩ := by
  obtain ⟨c, rest, rfl⟩ := List.exists_cons_of_ne_nil hne
  have hspace : isSpace c = false := hsource c rfl
  have hdrop : (c :: rest).dropWhile isSpace = c :: rest :=
    List.dropWhile_cons_of_neg (by simp [hspace])
  rw [tokens_of_cons hdrop, List.takeWhile_cons_of_neg (by simp [hspace])]
  rfl

theorem losesFront_of_wordRun_nil {source : List Char}
    (hsource : ∀ c ∈ source.head?, isSpace c = false) (hword : wordRun source = []) :
    losesFront true (tokens source) = losesFront false (tokens source) := by
  cases source with
  | nil => rw [tokens_of_blank rfl]; rfl
  | cons c rest =>
      have hwritten := isWritten_lexeme (c :: rest) []
      have hsymbol : (symbol? (c :: rest)).isNone = false := by
        rw [wordRun, hsource c rfl, Bool.false_or] at hword
        split at hword
        · next hsome => rw [← Option.not_isSome, hsome]; rfl
        · cases hword
      rw [hsymbol, Bool.and_false] at hwritten
      rw [losesFront, losesFront, head?_tokens (List.cons_ne_nil c rest) hsource]
      simp [Token.isKeyword, hwritten]

/-- A plain word stands in front. -/
def opensWithWord (found : List Token) : Bool := found.head?.any (·.kind == .word)

theorem opensWithWord_cons {c : Char} (hblank : Text.isBlank c = true)
    (hspace : isSpace c = false) (source : List Char) :
    opensWithWord (tokens (c :: source)) = true := by
  obtain ⟨behind, hsource⟩ := wordRun_prefix source
  rw [tokens_cons_of_wordRun hblank hspace hsource.symm rfl]
  rfl

theorem losesFront_of_opensWithWord {found : List Token} (h : opensWithWord found = true)
    (beside : Bool) : losesFront beside found = false := by
  cases found with
  | nil => rfl
  | cons first rest =>
      have hword : first.kind = .word := beq_iff_eq.1 h
      simp [losesFront, Token.isKeyword, hword]

theorem quotedRun?_of_opensWithWord {source : List Char}
    (h : opensWithWord (tokens source) = true) : quotedRun? source = none := by
  cases source with
  | nil => rfl
  | cons c rest =>
      cases hquote : Literal.isQuote c with
      | false => exact quotedRun?_of_not_isQuote hquote
      | true =>
          have hspace : isSpace c = false := isSpace_of_isQuote hquote
          rw [opensWithWord, head?_tokens (List.cons_ne_nil c rest) (by simpa using hspace)] at h
          cases hrun : quotedRun? (c :: rest) with
          | none => rfl
          | some run =>
              rw [lexeme, hrun] at h
              cases h

theorem treeOf_append_of_isSpace {gap : List Char} (hgap : ∀ c ∈ gap, isSpace c = true)
    (source : List Char) : treeOf (gap ++ source) = treeOf source :=
  gapBlind_ors.tokens_append hgap source

theorem treeOf_append_of_opensWithWord {lead : List Char}
    (hlead : ∀ c ∈ lead, Text.isBlank c = true) {source : List Char}
    (hopens : opensWithWord (tokens source) = true) :
    treeOf (lead ++ source) = treeOf source ∧
      opensWithWord (tokens (lead ++ source)) = true := by
  induction lead with
  | nil => exact ⟨rfl, hopens⟩
  | cons c lead ih =>
      rw [List.forall_mem_cons] at hlead
      obtain ⟨htree, hword⟩ := ih hlead.2
      cases hspace : isSpace c with
      | true =>
          have hskipped : ∀ d ∈ [c], isSpace d = true := by simpa using hspace
          have hblind : GapBlind opensWithWord := fun _ _ _ _ _ => rfl
          exact ⟨(treeOf_append_of_isSpace hskipped _).trans htree,
            (hblind.tokens_append hskipped _).trans hword⟩
      | false =>
          refine ⟨Eq.trans ?_ htree, opensWithWord_cons hlead.1 hspace _⟩
          by_cases hrun : wordRun (lead ++ source) = []
          · have halters := alters_cons_of_wordRun_nil hlead.1 hspace hrun
            rwa [losesFront_of_opensWithWord hword] at halters
          · have hquotes := quotedRun?_of_opensWithWord hword
            have halters := alters_cons_of_word hlead.1 hspace hquotes hrun
            rwa [losesFront_of_opensWithWord hword] at halters

/-- Spaces may stand between a blank that is not skipped and the first token. -/
theorem alters_cons_append {c : Char} (hblank : Text.isBlank c = true) (hspace : isSpace c = false)
    {gap : List Char} (hgap : ∀ d ∈ gap, isSpace d = true) {source : List Char}
    (hsource : ∀ d ∈ source.head?, isSpace d = false)
    (hkeeps : KeepsQuotes source ∨ gap.isEmpty = false) :
    Alters (losesFront gap.isEmpty (tokens source)) (treeOf (c :: (gap ++ source)))
      (treeOf source) := by
  cases gap with
  | nil =>
      cases hrun : quotedRun? source with
      | some run =>
          obtain ⟨more, hword, hmore⟩ := hkeeps.resolve_right nofun run hrun
          obtain ⟨htree, hkept⟩ := treeOf_cons_of_quotedRun? hblank hspace hrun hword hmore
          rw [hkept]
          exact htree
      | none =>
          by_cases hword : wordRun source = []
          · have halters := alters_cons_of_wordRun_nil hblank hspace hword
            exact losesFront_of_wordRun_nil hsource hword ▸ halters
          · exact alters_cons_of_word hblank hspace hrun hword
  | cons d gap =>
      have hd : isSpace d = true := hgap d List.mem_cons_self
      have hword : wordRun (d :: gap ++ source) = [] := by simp [wordRun, hd]
      have halters := alters_cons_of_wordRun_nil hblank hspace hword
      rwa [(gapBlind_losesFront _).tokens_append hgap, treeOf_append_of_isSpace hgap] at halters

theorem alters_append_left {lead : List Char} (hlead : ∀ c ∈ lead, Text.isBlank c = true)
    {source : List Char} (hsource : ∀ c ∈ source.head?, isSpace c = false)
    (hkeeps : KeepsQuotes source ∨ lead.getLast?.any (!isSpace ·) = false) :
    Alters (changesFront lead (tokens source)) (treeOf (lead ++ source)) (treeOf source) := by
  have hsplit := List.rdropWhile_append_rtakeWhile (p := isSpace) (l := lead)
  have hgap : ∀ c ∈ lead.rtakeWhile isSpace, isSpace c = true :=
    fun _ hc => List.mem_rtakeWhile_imp hc
  generalize lead.rtakeWhile isSpace = gap at *
  rcases List.eq_nil_or_concat (lead.rdropWhile isSpace) with hnil | ⟨before, c, hbefore⟩
  · rw [hnil, List.nil_append] at hsplit
    subst hsplit
    have hskipped : gap.any (!isSpace ·) = false := by simpa using hgap
    rw [changesFront, hskipped]
    exact treeOf_append_of_isSpace hgap source
  · have hspace : isSpace c = false := by
      have hne : lead.rdropWhile isSpace ≠ [] := by simp [hbefore]
      have hstop := List.rdropWhile_last_not isSpace lead hne
      simpa [hbefore] using hstop
    obtain rfl : before ++ c :: gap = lead := by simpa [hbefore] using hsplit
    rw [List.forall_mem_append, List.forall_mem_cons] at hlead
    obtain ⟨hfront, hblank, -⟩ := hlead
    have hany : (before ++ c :: gap).any (!isSpace ·) = true := by simp [hspace]
    have hlast : (before ++ c :: gap).getLast?.any (!isSpace ·) = gap.isEmpty := by
      rw [List.getLast?_append_cons]
      cases gap with
      | nil => simp [hspace]
      | cons d gap =>
          have hskipped := hgap _ (List.getLast_mem (List.cons_ne_nil d gap))
          rw [List.getLast?_cons_cons, List.getLast?_eq_some_getLast (List.cons_ne_nil d gap),
            Option.any_some, hskipped]
          rfl
    rw [hlast] at hkeeps
    -- Everything before the last blank that is not skipped stands before a plain word.
    rw [changesFront, hany, hlast, Bool.true_and, List.append_assoc, List.cons_append,
      (treeOf_append_of_opensWithWord hfront (opensWithWord_cons hblank hspace _)).1]
    exact alters_cons_append hblank hspace hgap hsource hkeeps

/-! ## Blanks behind -/

/-- A blank behind the text meets a keyword that is read. -/
def endsWithKeyword (source : List Char) : Bool :=
  source.getLast?.any (!isSpace ·) && losesBack (tokens source)

theorem losesBack_concat_word (found : List Token) (gap text : List Char) :
    losesBack (found ++ [⟨.word, gap, text⟩]) = false := by
  simp [losesBack, Token.isKeyword]

theorem losesFront_concat_word (beside : Bool) (found : List Token) (gap text : List Char) :
    losesFront beside (found ++ [⟨.word, gap, text⟩]) = losesFront beside found := by
  cases found with
  | nil => simp [losesFront, Token.isKeyword]
  | cons first rest => rfl

theorem isKeyword_of_isRead {token : Token} {before : List Token}
    (hwritten : token.isWritten = true) (hread : token.kind.isRead before = true) :
    token.isKeyword = true := by
  have hne : token.kind ≠ .word := by
    intro hword
    rw [hword] at hread
    cases hread
  rw [Token.isKeyword, hwritten, Bool.true_and, bne_iff_ne]
  exact hne

theorem isRead_nil {token : Token} (h : token.isKeyword = true) :
    token.kind.isRead [] = true := by
  rw [Token.isKeyword, Token.isWritten, Bool.and_eq_true, Bool.and_eq_true, bne_iff_ne,
    bne_iff_ne] at h
  cases hkind : token.kind with
  | quoted => exact absurd hkind h.1.1
  | word => exact absurd hkind h.2
  | connective | not | operator => rfl

/-- A blank that is not skipped makes a plain word of the last token, or is one by itself. -/
theorem alters_concat_of_not_isSpace {c : Char} (hblank : Text.isBlank c = true)
    (hspace : isSpace c = false) (source : List Char) :
    Alters (endsWithKeyword source) (treeOf (source ++ [c])) (treeOf source) ∧
    endsWithKeyword (source ++ [c]) = false ∧
    (endsWithKeyword source = false → ∀ beside,
      losesFront beside (tokens (source ++ [c])) = losesFront beside (tokens source)) := by
  rcases exists_tokens_concat hblank hspace source with
    ⟨init, last, htokens, hwritten, hend, hbehind⟩ | ⟨gap, hgap, hplain, hbehind⟩
  · have hlost : endsWithKeyword source =
        (last.isKeyword && last.kind.isRead (init.rtakeWhile (!·.isConnective))) := by
      have hne : source ≠ [] := by
        have hempty : tokens [] = [] := tokens_of_blank rfl
        rintro rfl
        simp [hempty] at htokens
      have hvisible := hend _ (List.getLast?_eq_some_getLast hne)
      rw [endsWithKeyword, List.getLast?_eq_some_getLast hne, Option.any_some, hvisible, losesBack,
        htokens]
      simp
    refine ⟨?_, ?_, fun hkept beside => ?_⟩
    · rw [hlost, treeOf, treeOf, hbehind, htokens]
      cases hread : last.kind.isRead (init.rtakeWhile (!·.isConnective)) with
      | true =>
          have hkeyword := isKeyword_of_isRead hwritten hread
          have hvisible := visible_text_of_keyword (by rw [htokens]; simp) hkeyword
          rw [hkeyword]
          refine coarser_back hread rfl ?_
          rw [visible_append]
          omega
      | false =>
          rw [Bool.and_false]
          exact ors_concat_word hblank hread
    · rw [endsWithKeyword, hbehind, losesBack_concat_word, Bool.and_false]
    · rw [hbehind, htokens, losesFront_concat_word]
      cases init with
      | nil =>
          have hplain : last.isKeyword = false := by
            refine Bool.eq_false_iff.2 fun hkeyword => ?_
            rw [hlost, hkeyword, List.rtakeWhile_nil, isRead_nil hkeyword] at hkept
            cases hkept
          have hword : last.kind = .word := by simpa [Token.isKeyword, hwritten] using hplain
          have hopens : opensWithWord [last] = true := beq_iff_eq.2 hword
          exact (losesFront_of_opensWithWord hopens beside).symm
      | cons first rest => rfl
  · have hlost : endsWithKeyword source = false := by
      refine Bool.eq_false_iff.2 fun hlost => ?_
      rw [endsWithKeyword, Bool.and_eq_true, losesBack, Option.any_eq_true,
        Option.any_eq_true] at hlost
      obtain ⟨⟨d, hd, hvisible⟩, last, hlast, hkeyword⟩ := hlost
      have hend : ∀ e ∈ source.getLast?, isSpace e = false := fun e he => by
        rw [← Option.mem_unique hd he]
        simpa using hvisible
      have hwritten := hplain hend last hlast
      rw [Token.isKeyword, hwritten] at hkeyword
      cases hkeyword
    refine ⟨?_, ?_, fun hkept beside => ?_⟩
    · rw [hlost, treeOf, treeOf, hbehind]
      exact ors_concat_blank hblank (fun d hd => isBlank_of_isSpace (hgap d hd)) _
    · rw [endsWithKeyword, hbehind, losesBack_concat_word, Bool.and_false]
    · rw [hbehind, losesFront_concat_word]

theorem alters_concat {c : Char} (hblank : Text.isBlank c = true) (source : List Char) :
    Alters (!isSpace c && endsWithKeyword source) (treeOf (source ++ [c])) (treeOf source) ∧
    endsWithKeyword (source ++ [c]) = false ∧
    ((!isSpace c && endsWithKeyword source) = false → ∀ beside,
      losesFront beside (tokens (source ++ [c])) = losesFront beside (tokens source)) := by
  cases hspace : isSpace c with
  | false => exact alters_concat_of_not_isSpace hblank hspace source
  | true =>
      have htokens := tokens_concat_of_isSpace hspace source
      refine ⟨congrArg (Reading.ors Token.kind segment) htokens, ?_, fun _ beside => ?_⟩
      · simp [endsWithKeyword, hspace]
      · rw [htokens]

theorem treeOf_append_of_endsWithKeyword {trail : List Char}
    (htrail : ∀ c ∈ trail, Text.isBlank c = true) {source : List Char}
    (hplain : endsWithKeyword source = false) :
    treeOf (source ++ trail) = treeOf source ∧
      ∀ beside, losesFront beside (tokens (source ++ trail)) =
        losesFront beside (tokens source) := by
  induction trail generalizing source with
  | nil => rw [List.append_nil]; exact ⟨rfl, fun _ => rfl⟩
  | cons c trail ih =>
      rw [List.forall_mem_cons] at htrail
      obtain ⟨halters, hend, hfront⟩ := alters_concat htrail.1 source
      rw [hplain, Bool.and_false] at halters hfront
      obtain ⟨htree, hfronts⟩ := ih htrail.2 hend
      rw [List.append_cons]
      exact ⟨htree.trans halters, fun beside => (hfronts beside).trans (hfront rfl beside)⟩

theorem alters_append_right {trail : List Char} (htrail : ∀ c ∈ trail, Text.isBlank c = true)
    {source : List Char} (hsource : ∀ c ∈ source.getLast?, isSpace c = false) :
    Alters (changesBack trail (tokens source)) (treeOf (source ++ trail)) (treeOf source) ∧
    (changesBack trail (tokens source) = false → ∀ beside,
      losesFront beside (tokens (source ++ trail)) = losesFront beside (tokens source)) := by
  cases trail with
  | nil => rw [List.append_nil]; exact ⟨rfl, fun _ _ => rfl⟩
  | cons c trail =>
      rw [List.forall_mem_cons] at htrail
      have hchanges : changesBack (c :: trail) (tokens source) =
          (!isSpace c && endsWithKeyword source) := by
        rw [changesBack, endsWithKeyword]
        cases hlast : source.getLast? with
        | none =>
            rw [List.getLast?_eq_none_iff.1 hlast, tokens_of_blank rfl]
            rfl
        | some d =>
            have hvisible := hsource d hlast
            simp [hvisible]
      -- Behind the first blank no keyword is left.
      obtain ⟨halters, hend, hfront⟩ := alters_concat htrail.1 source
      obtain ⟨htree, hfronts⟩ := treeOf_append_of_endsWithKeyword htrail.2 hend
      rw [hchanges, List.append_cons, htree]
      exact ⟨halters, fun hkept beside => (hfronts beside).trans (hfront hkept beside)⟩

/-! ## Trimmed texts -/

theorem Alters.eq_iff {changed : Bool} {tree other : Predicate} (h : Alters changed tree other) :
    tree = other ↔ changed = false := by
  cases changed with
  | false => exact iff_of_true h rfl
  | true => exact iff_of_false h.ne nofun

theorem Alters.ne_of_coarser {changed : Bool} {tree middle other : Predicate}
    (h : Alters changed tree middle) (hcoarser : middle.Coarser other) : tree ≠ other := by
  cases changed with
  | false => exact h ▸ hcoarser.ne
  | true => exact (h.trans hcoarser).ne

theorem quotedRun?_append_of_isBlank {trail : List Char}
    (htrail : ∀ c ∈ trail, Text.isBlank c = true) (source : List Char) :
    quotedRun? (source ++ trail) = quotedRun? source := by
  induction trail generalizing source with
  | nil => rw [List.append_nil]
  | cons c trail ih =>
      rw [List.forall_mem_cons] at htrail
      rw [List.append_cons, ih htrail.2, quotedRun?_concat htrail.1]

theorem KeepsQuotes.append {source : List Char} (h : KeepsQuotes source) {trail : List Char}
    (htrail : ∀ c ∈ trail, Text.isBlank c = true) : KeepsQuotes (source ++ trail) := by
  intro run hrun
  rw [quotedRun?_append_of_isBlank htrail] at hrun
  obtain ⟨more, hword, hmore⟩ := h run hrun
  obtain ⟨others, hwords, hothers⟩ := exists_wordRun_append htrail source
  exact ⟨more ++ others, by rw [hwords, hword, List.append_assoc],
    List.forall_mem_append.2 ⟨hmore, hothers⟩⟩

/-- Blanks around a text leave its tree as it is just where none of them changes the meaning of a
token beside it. -/
theorem treeOf_surrounded_iff {lead trail core : List Char}
    (hlead : ∀ c ∈ lead, Text.isBlank c = true) (htrail : ∀ c ∈ trail, Text.isBlank c = true)
    (hne : core ≠ []) (hfirst : ∀ c ∈ core.head?, isSpace c = false)
    (hlast : ∀ c ∈ core.getLast?, isSpace c = false)
    (hkeeps : KeepsQuotes core ∨ lead.getLast?.any (!isSpace ·) = false) :
    treeOf (lead ++ (core ++ trail)) = treeOf core ↔
      changesFront lead (tokens core) = false ∧ changesBack trail (tokens core) = false := by
  obtain ⟨hback, hkept⟩ := alters_append_right htrail hlast
  have hhead : (core ++ trail).head? = core.head? := List.head?_append_of_ne_nil core hne
  have hfront := @alters_append_left lead hlead (core ++ trail) (by rwa [hhead])
    (hkeeps.imp_left (·.append htrail))
  cases hchanges : changesBack trail (tokens core) with
  | true =>
      rw [hchanges] at hback
      exact iff_of_false (hfront.ne_of_coarser hback) (by simp)
  | false =>
      rw [hchanges] at hback
      have hsame :
          changesFront lead (tokens (core ++ trail)) = changesFront lead (tokens core) := by
        rw [changesFront, changesFront, hkept hchanges]
      have htree : treeOf (core ++ trail) = treeOf core := hback
      rw [hsame, htree] at hfront
      rw [hfront.eq_iff, and_iff_left rfl]

/-- The blanks at an end of a text change the meaning of a token beside them. -/
def changesTrimmed (text : List Char) : Bool :=
  changesFront (text.takeWhile Text.isBlank) (tokens (Text.trim text)) ||
    changesBack ((text.dropWhile Text.isBlank).rtakeWhile Text.isBlank) (tokens (Text.trim text))

/-- A filter means what its trimmed text means just where no blank around it changes the meaning
of a token, unless such a blank cuts a quoted run behind it. -/
theorem tree_trim_iff {text : String}
    (hkeeps : KeepsQuotes (Text.trim text.toList) ∨
      (text.toList.takeWhile Text.isBlank).getLast?.any (!isSpace ·) = false) :
    (Source.text text).tree = (Source.text (String.ofList (Text.trim text.toList))).tree ↔
      changesTrimmed text.toList = false := by
  rw [Source.tree, Source.tree, String.toList_ofList]
  generalize text.toList = cs at *
  by_cases hnil : Text.trim cs = []
  · have hblank : cs.all Text.isBlank = true := List.all_eq_true.2 (Text.trim_eq_nil_iff.1 hnil)
    have hempty : tokens [] = [] := tokens_of_blank rfl
    refine iff_of_true ?_ ?_
    · rw [parse, if_pos hblank, hnil]
      rfl
    · rw [changesTrimmed, hnil, hempty]
      simp [changesFront, losesFront, changesBack, losesBack]
  · have hvisible (source : List Char) (h : Text.trim source ≠ []) :
        source.all Text.isBlank = false :=
      Bool.eq_false_iff.2 fun hall => h (Text.trim_eq_nil_iff.2 (List.all_eq_true.1 hall))
    have hunskipped {d : Char} (hd : Text.isBlank d = false) : isSpace d = false :=
      Bool.eq_false_iff.2 fun hspace => by
        rw [isBlank_of_isSpace hspace] at hd
        cases hd
    have hiff := @treeOf_surrounded_iff (cs.takeWhile Text.isBlank)
      ((cs.dropWhile Text.isBlank).rtakeWhile Text.isBlank) (Text.trim cs)
      (fun _ hc => List.mem_takeWhile_imp hc) (fun _ hc => List.mem_rtakeWhile_imp hc) hnil
      (fun d hd => hunskipped (Text.isBlank_head?_trim d hd))
      (fun d hd => hunskipped (Text.isBlank_getLast?_trim d hd)) hkeeps
    rw [Text.takeWhile_append_trim_append] at hiff
    have htrimmed : Text.trim (Text.trim cs) = Text.trim cs :=
      Text.trim_eq_self Text.isBlank_head?_trim Text.isBlank_getLast?_trim
    rw [treeOf_eq_parse (hvisible cs hnil), treeOf_eq_parse (hvisible _ (by rwa [htrimmed])), hiff,
      changesTrimmed, Bool.or_eq_false_iff]

/-- Blanks that are not skipped, before a quoted field and behind a value. -/
theorem tree_trim_of_quoted_ends :
    let text := "\u2003 \u00a0'and' like 'x or y'\u00a0"
    (KeepsQuotes (Text.trim text.toList) ∨
      (text.toList.takeWhile Text.isBlank).getLast?.any (!isSpace ·) = false) ∧
    changesTrimmed text.toList = false ∧
    (Source.text text).tree = (Source.text (String.ofList (Text.trim text.toList))).tree := by
  intro text
  have hkeeps : KeepsQuotes (Text.trim text.toList) := by
    have hrun : quotedRun? (Text.trim text.toList) = some "'and'".toList := by decide
    have hword : wordRun (Text.trim text.toList) = "'and'".toList := by decide
    intro run hfound
    rw [hrun, Option.mem_some] at hfound
    exact ⟨[], by rw [hword, hfound, List.append_nil], List.forall_mem_nil _⟩
  have hkept : changesTrimmed text.toList = false := by decide +kernel
  exact ⟨.inl hkeeps, hkept, (tree_trim_iff (.inl hkeeps)).2 hkept⟩

/-- A blank that is not skipped takes a negation into the name of the field. -/
theorem tree_ne_tree_trim_of_not :
    let text := "\u00a0not a = 1"
    (Source.text text).tree = .compare "not a" .eq (.int32 1) ∧
    (Source.text (String.ofList (Text.trim text.toList))).tree =
      .not (.compare "a" .eq (.int32 1)) ∧
    (Source.text text).tree ≠ (Source.text (String.ofList (Text.trim text.toList))).tree := by
  intro text
  have hblank : text.toList.all Text.isBlank = false := by decide
  have htokens : tokens text.toList =
      [⟨.word, [], "\u00a0not".toList⟩, ⟨.word, [' '], ['a']⟩,
        ⟨.operator (.comparison .eq), [' '], ['=']⟩, ⟨.word, [' '], ['1']⟩] := by
    decide +kernel
  have htree : (Source.text text).tree = .compare "not a" .eq (.int32 1) := by
    rw [Source.tree, parse_of_not_blank hblank, htokens]
    rfl
  have htrim : String.ofList (Text.trim text.toList) = "not a = 1" := by decide
  have htrimmed : tokens "not a = 1".toList =
      [⟨.not, [], "not".toList⟩, ⟨.word, [' '], ['a']⟩,
        ⟨.operator (.comparison .eq), [' '], ['=']⟩, ⟨.word, [' '], ['1']⟩] := by
    decide +kernel
  have hother : (Source.text "not a = 1").tree = .not (.compare "a" .eq (.int32 1)) := by
    rw [Source.tree, parse_of_not_blank (by decide), htrimmed]
    rfl
  rw [htrim, htree, hother]
  refine ⟨rfl, rfl, fun heq => ?_⟩
  cases heq

end DocumentStore.Filter
