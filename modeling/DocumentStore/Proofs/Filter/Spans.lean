import DocumentStore.Proofs.Filter.ByteScan

/-!
# Where tokens lie

The tokens of a text lie in it one behind the other, from one boundary between characters to
another, and what they leave uncovered is whitespace.
-/

namespace DocumentStore.Filter

/-! ## Tokens that lie well -/

/-- What a word and a quoted token are. -/
structure HasShape (kind : TokenKind) (run : List Char) : Prop where
  word : kind = .word →
    (∀ c ∈ run, isSpace c = false) ∧ ∀ symbol ∈ symbols, ¬ symbol.2 <:+: run
  quoted : kind = .quoted →
    ∃ quote inner, Literal.isQuote quote = true ∧ run = quote :: inner ++ [quote] ∧ quote ∉ inner

/-- A token from one boundary of a text to a later one. -/
structure Mark.LiesIn (text : String) (mark : Mark) : Prop where
  nonempty : mark.first < mark.last
  inside : mark.last ≤ text.utf8ByteSize
  first_valid : String.Pos.Raw.IsValid text ⟨mark.first⟩
  last_valid : String.Pos.Raw.IsValid text ⟨mark.last⟩
  shape : ∃ run, slice? text.toList mark.first mark.last = some run ∧ HasShape mark.kind run

/-- Tokens with whitespace between them. -/
structure WellPlaced (text : String) (marks : List Mark) : Prop where
  liesIn : ∀ mark ∈ marks, mark.LiesIn text
  ordered : marks.Pairwise fun mark next => mark.first < next.first ∧ mark.last ≤ next.first
  outside : ∀ place (h : place < text.rawEndPos),
    (∀ mark ∈ marks, place.byteIdx < mark.first ∨ mark.last ≤ place.byteIdx) →
      isSpaceByte (text.getUTF8Byte place h) = true

/-! ## Shapes -/

theorem Leads.hasShape {behind text : List Char} {kind : TokenKind} (h : Leads behind kind text) :
    HasShape kind text where
  word hkind := by
    have hword := h.wordRun_of_word hkind
    refine ⟨fun c hc => ?_, fun symbol hsymbol => not_infix_of_wordRun hword hsymbol⟩
    rw [← hword] at hc
    exact isSpace_of_mem_wordRun hc
  quoted := h.exists_of_quoted

theorem Leads.ne_nil {behind text : List Char} {kind : TokenKind} (h : Leads behind kind text) :
    text ≠ [] := by
  cases h with
  | quoted => exact List.cons_ne_nil _ _
  | symbol hsymbol =>
      rintro rfl
      cases hsymbol
  | word => exact List.cons_ne_nil _ _

/-! ## Places of tokens -/

theorem le_first_of_mem_place {start : Nat} {tokens : List Token} {placed : Placed}
    (h : placed ∈ place start tokens) : start ≤ placed.first := by
  induction tokens generalizing start with
  | nil => cases h
  | cons token rest ih =>
      rw [place] at h
      rcases List.mem_cons.1 h with rfl | hmem
      · exact Nat.le_add_right start _
      · have hle := ih hmem
        omega

theorem pairwise_place (start : Nat) (tokens : List Token) :
    (place start tokens).Pairwise fun placed next => placed.last ≤ next.first := by
  induction tokens generalizing start with
  | nil => exact List.Pairwise.nil
  | cons token rest ih =>
      rw [place]
      exact List.Pairwise.cons (fun _ hnext => le_first_of_mem_place hnext) (ih _)

theorem exists_of_mem_place {source : List Char} {placed : Placed}
    (h : placed ∈ place 0 (tokens source)) :
    ∃ before behind, source = before ++ placed.token.text ++ behind ∧
      placed.first = utf8Length before ∧
      placed.last = utf8Length (before ++ placed.token.text) ∧ placed.token ∈ tokens source := by
  obtain ⟨front, back, hsplit⟩ := List.append_of_mem h
  obtain ⟨upTo, rest, htokens, -, hrest⟩ := exists_of_place_eq_append hsplit
  obtain ⟨trailing, hsource, -⟩ := exists_eq_gappedText source
  cases rest with
  | nil => cases hrest
  | cons token rest =>
      rw [place, Nat.zero_add] at hrest
      obtain ⟨rfl, -⟩ := List.cons.inj hrest
      refine ⟨gappedText upTo ++ token.gap, gappedText rest ++ trailing, ?_,
        (utf8Length_append _ _).symm, ?_, ?_⟩
      · rw [htokens, gappedText_append, gappedText_cons] at hsource
        simpa only [List.append_assoc] using hsource
      · simp only [utf8Length_append]
      · rw [htokens]
        exact List.mem_append_right upTo List.mem_cons_self

theorem boundaries_of_mem_place {source : List Char} {placed : Placed}
    (h : placed ∈ place 0 (tokens source)) :
    placed.first < placed.last ∧ IsBoundary source placed.first ∧
      IsBoundary source placed.last := by
  obtain ⟨before, behind, hsource, hfirst, hlast, htoken⟩ := exists_of_mem_place h
  obtain ⟨follower, hleads⟩ := exists_leads_of_mem htoken
  obtain ⟨c, rest, htext⟩ := List.exists_cons_of_ne_nil hleads.ne_nil
  refine ⟨?_, ?_, ?_⟩
  · have hpos := utf8Length_cons_ne_zero c rest
    rw [hfirst, hlast, utf8Length_append, htext]
    omega
  · rw [hfirst, hsource, List.append_assoc]
    exact isBoundary_append _ _
  · rw [hlast, hsource]
    exact isBoundary_append _ _

/-! ## Bytes outside of tokens -/

section

variable {source before gap trailing : List Char} {index : Nat} {byte : UInt8}
  (hbyte : (utf8 source)[index]? = some byte)

include hbyte

theorem isSpaceByte_of_gap {behind : List Char} (hgap : ∀ c ∈ gap, isSpace c = true)
    (hsource : source = before ++ gap ++ behind) (hle : utf8Length before ≤ index)
    (hlt : index < utf8Length (before ++ gap)) : isSpaceByte byte = true := by
  obtain ⟨count, rfl⟩ : ∃ count, index = utf8Length before + count := Nat.exists_eq_add_of_le hle
  have hcount : count < gap.length := by
    rw [utf8Length_append, utf8Length_of_isSpace hgap] at hlt
    omega
  have hfront : utf8Length (before ++ gap.take count) = utf8Length before + count := by
    rw [utf8Length_append, utf8Length_of_isSpace fun c hc => hgap c (List.mem_of_mem_take hc),
      List.length_take_of_le (Nat.le_of_lt hcount)]
  have hat : source =
      (before ++ gap.take count) ++ gap[count] :: (gap.drop (count + 1) ++ behind) := by
    rw [← List.cons_append, List.cons_getElem_drop_succ, List.append_assoc before,
      ← List.append_assoc (gap.take count), List.take_append_drop, hsource, List.append_assoc]
  rw [← hfront, getElem?_utf8 hat] at hbyte
  rw [← Option.some.inj hbyte, isSpaceByte_leadByte]
  exact hgap _ (List.getElem_mem hcount)

theorem isSpaceByte_of_outside {tokens : List Token}
    (hgaps : ∀ token ∈ tokens, ∀ c ∈ token.gap, isSpace c = true)
    (htrailing : ∀ c ∈ trailing, isSpace c = true)
    (hsource : source = before ++ gappedText tokens ++ trailing) (hle : utf8Length before ≤ index)
    (houtside : ∀ placed ∈ place (utf8Length before) tokens,
      index < placed.first ∨ placed.last ≤ index) : isSpaceByte byte = true := by
  induction tokens generalizing before with
  | nil =>
      have hall : source = before ++ trailing := by rw [hsource, gappedText_nil, List.append_nil]
      have hlt : index < utf8Length (before ++ trailing) := by
        rw [← hall, ← length_utf8]
        exact (List.getElem?_eq_some_iff.1 hbyte).1
      exact isSpaceByte_of_gap hbyte htrailing (by rw [hall, List.append_nil]) hle hlt
  | cons token rest ih =>
      rw [List.forall_mem_cons] at hgaps
      rw [place, List.forall_mem_cons] at houtside
      have hgapped : source =
          before ++ token.gap ++ (token.text ++ gappedText rest ++ trailing) := by
        rw [hsource, gappedText_cons]
        simp only [List.append_assoc]
      -- The byte stands in the gap before the token, or behind the token.
      rcases houtside.1 with hbefore | hbehind
      · rw [← utf8Length_append] at hbefore
        exact isSpaceByte_of_gap hbyte hgaps.1 hgapped hle hbefore
      · rw [← utf8Length_append, ← utf8Length_append] at hbehind houtside
        apply ih hgaps.2 _ hbehind houtside.2
        rw [hgapped]
        simp only [List.append_assoc]

end

/-! ## Tokens of a text -/

theorem liesIn_of_mem_place {text : String} {placed : Placed}
    (h : placed ∈ place 0 (tokens text.toList)) : placed.mark.LiesIn text := by
  obtain ⟨before, behind, hsource, hfirst, hlast, htoken⟩ := exists_of_mem_place h
  obtain ⟨hlt, hfirstBoundary, hlastBoundary⟩ := boundaries_of_mem_place h
  obtain ⟨follower, hleads⟩ := exists_leads_of_mem htoken
  have hvalid : String.Pos.Raw.IsValid text ⟨placed.last⟩ := isBoundary_toList.1 hlastBoundary
  constructor
  case nonempty => exact hlt
  case inside => exact hvalid.le_rawEndPos
  case first_valid => exact isBoundary_toList.1 hfirstBoundary
  case last_valid => exact hvalid
  case shape => exact ⟨placed.token.text, slice?_eq hsource hfirst hlast, hleads.hasShape⟩

theorem wellPlaced_tokens (text : String) :
    WellPlaced text ((place 0 (tokens text.toList)).map Placed.mark) where
  liesIn := by
    intro mark hmark
    obtain ⟨placed, hplaced, rfl⟩ := List.mem_map.1 hmark
    exact liesIn_of_mem_place hplaced
  ordered := by
    rw [List.pairwise_map]
    refine (pairwise_place 0 _).imp_of_mem fun {placed next} hplaced _ hle => ⟨?_, hle⟩
    exact Nat.lt_of_lt_of_le (liesIn_of_mem_place hplaced).nonempty hle
  outside := by
    intro place h houtside
    rw [List.forall_mem_map] at houtside
    obtain ⟨trailing, hsource, htrailing⟩ := exists_eq_gappedText text.toList
    have hall : text.toList = [] ++ gappedText (tokens text.toList) ++ trailing := hsource
    exact isSpaceByte_of_outside (getElem?_utf8_toList h)
      (fun _ htoken _ hc => isSpace_of_mem_gap htoken hc) htrailing hall (Nat.zero_le _) houtside

end DocumentStore.Filter
