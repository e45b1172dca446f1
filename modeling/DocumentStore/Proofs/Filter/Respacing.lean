import DocumentStore.Proofs.Filter.TokenShapes

/-!
# Tokens written anew

The tokens of a source may be written with other whitespace around them, as long as there is some
between two of them: they are read as the same tokens.  No quote comes behind a token that did not
come behind it before, so that a quote that opened nothing still opens nothing.
-/

namespace DocumentStore.Filter

def spaced : List (List Char) → List (List Char) → List Char → List Char
  | [], _, trailing => trailing
  | _ :: _, [], trailing => trailing
  | gap :: gaps, text :: texts, trailing => gap ++ text ++ spaced gaps texts trailing

/-- Whitespace to be put around a number of texts, with some of it between any two. -/
structure Spacing (gaps : List (List Char)) (trailing : List Char) (count : Nat) : Prop where
  length : gaps.length = count
  space : ∀ gap ∈ gaps, ∀ c ∈ gap, isSpace c = true
  apart : ∀ gap ∈ gaps.tail, gap ≠ []
  trailing : ∀ c ∈ trailing, isSpace c = true

def behindGaps (gaps : List (List Char)) (tokens : List Token) : List Token :=
  List.zipWith (fun gap token => ⟨token.kind, gap, token.text⟩) gaps tokens

section

variable {gaps texts : List (List Char)} {gap trailing : List Char} {count : Nat}

theorem Spacing.tail (h : Spacing (gap :: gaps) trailing (count + 1)) :
    Spacing gaps trailing count where
  length := Nat.succ.inj h.length
  space other hother := h.space other (List.mem_cons_of_mem gap hother)
  apart other hother := h.apart other (List.mem_of_mem_tail hother)
  trailing := h.trailing

theorem Spacing.stops (h : Spacing (gap :: gaps) trailing (count + 1)) :
    Stops (spaced gaps texts trailing) := by
  intro c hc
  rcases gaps with _ | ⟨next, gaps⟩
  · exact h.trailing c (List.mem_of_mem_head? hc)
  · rcases texts with _ | ⟨text, texts⟩
    · exact h.trailing c (List.mem_of_mem_head? hc)
    · have hnext : next ∈ gap :: next :: gaps := by simp
      obtain ⟨first, rest, rfl⟩ := List.exists_cons_of_ne_nil (h.apart next (by simp))
      obtain rfl : first = c := Option.some.inj hc
      exact h.space _ hnext first List.mem_cons_self

theorem Spacing.exists_text_of_mem (h : Spacing gaps trailing count) {c : Char}
    (hc : c ∈ spaced gaps texts trailing) (hspace : isSpace c = false) :
    ∃ text ∈ texts, c ∈ text := by
  induction gaps generalizing texts count with
  | nil =>
      rw [h.trailing c hc] at hspace
      cases hspace
  | cons gap gaps ih =>
      rcases texts with _ | ⟨text, texts⟩
      · rw [h.trailing c hc] at hspace
        cases hspace
      · obtain ⟨count, rfl⟩ : ∃ left, count = left + 1 := ⟨gaps.length, h.length.symm⟩
        rw [spaced, List.mem_append, List.mem_append] at hc
        rcases hc with (hgap | htext) | hrest
        · rw [h.space gap List.mem_cons_self c hgap] at hspace
          cases hspace
        · exact ⟨text, List.mem_cons_self, htext⟩
        · obtain ⟨other, hother, hmem⟩ := ih h.tail hrest
          exact ⟨other, List.mem_cons_of_mem text hother, hmem⟩

end

theorem map_behindGaps {gaps : List (List Char)} {tokens : List Token}
    (h : gaps.length = tokens.length) :
    (behindGaps gaps tokens).map Token.kind = tokens.map Token.kind ∧
    (behindGaps gaps tokens).map Token.text = tokens.map Token.text ∧
    (behindGaps gaps tokens).map Token.gap = gaps := by
  induction tokens generalizing gaps with
  | nil =>
      rw [List.length_eq_zero_iff.1 h]
      exact ⟨rfl, rfl, rfl⟩
  | cons token tokens ih =>
      obtain ⟨gap, gaps, rfl⟩ := List.exists_cons_of_length_eq_add_one h
      obtain ⟨hkinds, htexts, hgaps⟩ := ih (Nat.succ.inj h)
      exact ⟨congrArg (token.kind :: ·) hkinds, congrArg (token.text :: ·) htexts,
        congrArg (gap :: ·) hgaps⟩

theorem tokens_spaced_eq {source trailing : List Char} {gaps : List (List Char)}
    (h : Spacing gaps trailing (tokens source).length) :
    tokens (spaced gaps ((tokens source).map Token.text) trailing) =
      behindGaps gaps (tokens source) := by
  induction source using tokens_induction generalizing gaps with
  | blank source hspace =>
      have hnone := tokens_of_isSpace hspace
      rw [hnone] at h ⊢
      rw [List.length_eq_zero_iff.1 h.length]
      exact tokens_of_isSpace h.trailing
  | token kind gap text behind hgap hopens hlexeme ih =>
      have htokens := tokens_of_lexeme hgap hopens hlexeme
      rw [htokens] at h ⊢
      obtain ⟨first, gaps, rfl⟩ := List.exists_cons_of_length_eq_add_one h.length
      have hleads : Leads (spaced gaps ((tokens behind).map Token.text) trailing) kind text := by
        refine (Leads.of_lexeme hopens hlexeme).mono fun c hc hquote => ?_
        obtain ⟨other, hother, hmem⟩ :=
          h.tail.exists_text_of_mem hc (isSpace_of_isQuote hquote)
        obtain ⟨token, htoken, rfl⟩ := List.mem_map.1 hother
        exact mem_source_of_mem_text htoken hmem
      rw [List.map_cons, spaced,
        tokens_of_lexeme (h.space first List.mem_cons_self) hopens (hleads.lexeme h.stops),
        ih h.tail]
      rfl

/-- The texts of the tokens of any source, written with any whitespace between them, in front of
them and behind them, are read as tokens of the same kinds with the same texts. -/
theorem tokens_spaced {source trailing : List Char} {gaps : List (List Char)}
    (h : Spacing gaps trailing (tokens source).length) :
    let again := tokens (spaced gaps ((tokens source).map Token.text) trailing)
    again.map Token.kind = (tokens source).map Token.kind ∧
    again.map Token.text = (tokens source).map Token.text ∧
    again.map Token.gap = gaps := by
  intro again
  have hagain : again = behindGaps gaps (tokens source) := tokens_spaced_eq h
  rw [hagain]
  exact map_behindGaps h.length

/-- A quote that opens nothing, one inside a word, and symbols without whitespace. -/
theorem tokens_spaced_of_open_quotes :
    let source := "\"a!==b'c||'d e'".toList
    let gaps := [['\n'], [' '], ['\t', ' '], [' '], [' '], ['\r', '\n']]
    Spacing gaps [' '] (tokens source).length ∧
    (tokens (spaced gaps ((tokens source).map Token.text) [' '])).map Token.text =
      ["\"a".toList, "!=".toList, "=".toList, "b'c".toList, "||".toList, "'d e'".toList] := by
  intro source gaps
  have htokens : tokens source =
      [⟨.word, [], "\"a".toList⟩, ⟨.operator (.comparison .ne), [], "!=".toList⟩,
        ⟨.operator (.comparison .eq), [], "=".toList⟩, ⟨.word, [], "b'c".toList⟩,
        ⟨.connective .or, [], "||".toList⟩, ⟨.quoted, [], "'d e'".toList⟩] := by
    decide +kernel
  have hspacing : Spacing gaps [' '] (tokens source).length := by
    rw [htokens]
    constructor
    case length => rfl
    case space => simp [gaps, isSpace]
    case apart => simp [gaps]
    case trailing => simp [isSpace]
  refine ⟨hspacing, ?_⟩
  rw [(tokens_spaced hspacing).2.1, htokens]
  rfl

end DocumentStore.Filter
