import DocumentStore.Filter.Token
import DocumentStore.Proofs.Text.Trim
import Mathlib.Data.List.TakeWhile

/-!
# Tokens and their source

The gaps and texts of the tokens make up the source again, up to the whitespace at its
end.
-/

namespace DocumentStore.Filter

def gappedText (tokens : List Token) : List Char := tokens.flatMap fun t => t.gap ++ t.text

@[simp] theorem gappedText_nil : gappedText [] = [] := rfl

@[simp] theorem gappedText_cons (token : Token) (tokens : List Token) :
    gappedText (token :: tokens) = token.gap ++ token.text ++ gappedText tokens := rfl

@[simp] theorem gappedText_append (tokens others : List Token) :
    gappedText (tokens ++ others) = gappedText tokens ++ gappedText others :=
  List.flatMap_append

theorem sourceText_cons (token : Token) (tokens : List Token) :
    sourceText (token :: tokens) = token.text ++ gappedText tokens := rfl

/-! ## One lexeme -/

theorem isBlank_of_isSpace {c : Char} (h : isSpace c = true) : Text.isBlank c = true := by
  simp only [isSpace, Bool.or_eq_true, beq_iff_eq] at h
  rcases h with (((rfl | rfl) | rfl) | rfl) | rfl <;> decide

theorem takeWhile_concat_prefix {c : Char} {cs : List Char} (h : c ∈ cs) :
    cs.takeWhile (· != c) ++ [c] <+: cs := by
  induction cs with
  | nil => cases h
  | cons d cs ih =>
      by_cases hd : d = c
      · simp [hd]
      · have hmem : c ∈ cs := by
          rcases List.mem_cons.1 h with heq | hmem
          · exact absurd heq.symm hd
          · exact hmem
        rw [List.takeWhile_cons, if_pos (by simpa using hd)]
        exact List.cons_prefix_cons.2 ⟨rfl, ih hmem⟩

theorem quotedRun?_prefix {cs run : List Char} (h : quotedRun? cs = some run) : run <+: cs := by
  cases cs with
  | nil => cases h
  | cons c rest =>
      rw [quotedRun?] at h
      split at h
      · next hquote =>
        rw [Bool.and_eq_true, List.contains_iff_mem] at hquote
        rw [← Option.some.inj h]
        exact List.cons_prefix_cons.2 ⟨rfl, takeWhile_concat_prefix hquote.2⟩
      · cases h

theorem symbol?_prefix {cs : List Char} {kind : TokenKind} {text : List Char}
    (h : symbol? cs = some (kind, text)) : text <+: cs := by
  unfold symbol? at h
  split at h <;> simp at h <;> simp [← h.2]

theorem wordRun_prefix (cs : List Char) : wordRun cs <+: cs := by
  induction cs with
  | nil => exact List.nil_prefix
  | cons c rest ih =>
      rw [wordRun]
      split
      · exact List.nil_prefix
      · exact List.cons_prefix_cons.2 ⟨rfl, ih⟩

theorem lexeme_prefix (cs : List Char) : (lexeme cs).2 <+: cs := by
  unfold lexeme
  split
  · next run hrun => exact quotedRun?_prefix hrun
  · split
    · next kind text hsymbol => exact symbol?_prefix hsymbol
    · exact wordRun_prefix cs

/-! ## All tokens -/

theorem tokens_of_blank {source : List Char} (h : source.dropWhile isSpace = []) :
    tokens source = [] := by
  rw [tokens]
  split
  · rfl
  · next hcons => rw [h] at hcons; cases hcons

theorem tokens_of_cons {source : List Char} {c : Char} {rest : List Char}
    (h : source.dropWhile isSpace = c :: rest) :
    tokens source =
      ⟨(lexeme (c :: rest)).1, source.takeWhile isSpace, (lexeme (c :: rest)).2⟩
        :: tokens ((c :: rest).drop (lexeme (c :: rest)).2.length) := by
  rw [tokens]
  split
  · next hnil => rw [h] at hnil; cases hnil
  · next hcons =>
    rw [h] at hcons
    cases hcons
    rfl

/-- The text is not empty and has no whitespace in front. -/
abbrev Opens (text : List Char) : Prop := ∃ c rest, text = c :: rest ∧ isSpace c = false

theorem tokens_of_lexeme {gap text rest : List Char} {kind : TokenKind}
    (hgap : ∀ c ∈ gap, isSpace c = true) (hopens : Opens text)
    (hlexeme : lexeme (text ++ rest) = (kind, text)) :
    tokens (gap ++ text ++ rest) = ⟨kind, gap, text⟩ :: tokens rest := by
  obtain ⟨c, tail, htext, hc⟩ := hopens
  have hhead : (text ++ rest).dropWhile isSpace = text ++ rest := by
    rw [htext, List.cons_append, List.dropWhile_cons_of_neg (by simp [hc])]
  have htake : (text ++ rest).takeWhile isSpace = [] := by
    rw [htext, List.cons_append, List.takeWhile_cons_of_neg (by simp [hc])]
  have hdrop : (gap ++ text ++ rest).dropWhile isSpace = c :: (tail ++ rest) := by
    rw [List.append_assoc, List.dropWhile_append_of_pos hgap, hhead, htext]
    rfl
  have hgapped : (gap ++ text ++ rest).takeWhile isSpace = gap := by
    rw [List.append_assoc, List.takeWhile_append_of_pos hgap, htake, List.append_nil]
  have hfirst : lexeme (c :: (tail ++ rest)) = (kind, text) := by
    rw [← hlexeme, htext]
    rfl
  have hbehind : (c :: (tail ++ rest)).drop text.length = rest := by
    rw [← List.cons_append, ← htext]
    exact List.drop_left
  rw [tokens_of_cons hdrop, hfirst, hgapped, hbehind]

/-- A text is whitespace alone, or a token with a gap before it and a text behind it. -/
@[elab_as_elim]
theorem tokens_induction {motive : List Char → Prop}
    (blank : ∀ source, (∀ c ∈ source, isSpace c = true) → motive source)
    (token : ∀ kind gap text behind, (∀ c ∈ gap, isSpace c = true) → Opens text →
      lexeme (text ++ behind) = (kind, text) → motive behind → motive (gap ++ text ++ behind))
    (source : List Char) : motive source := by
  induction source using tokens.induct with
  | case1 source h => exact blank source (List.dropWhile_eq_nil_iff.1 h)
  | case2 source c rest h ih =>
      obtain ⟨behind, hbehind⟩ := lexeme_prefix (c :: rest)
      have hspace : isSpace c = false := by
        have hhead := List.head?_dropWhile_not isSpace source
        rw [h] at hhead
        simpa using hhead
      have hopens : Opens (lexeme (c :: rest)).2 := by
        obtain ⟨d, more, htext⟩ :=
          List.exists_cons_of_length_pos (@length_lexeme_pos c rest hspace)
        rw [htext, List.cons_append] at hbehind
        exact ⟨d, more, htext, (List.cons.inj hbehind).1 ▸ hspace⟩
      have hdrop : (c :: rest).drop (lexeme (c :: rest)).2.length = behind :=
        calc (c :: rest).drop (lexeme (c :: rest)).2.length
            = ((lexeme (c :: rest)).2 ++ behind).drop (lexeme (c :: rest)).2.length := by
              rw [hbehind]
          _ = behind := List.drop_left
      rw [hdrop] at ih
      have hsource : source.takeWhile isSpace ++ (lexeme (c :: rest)).2 ++ behind = source := by
        rw [List.append_assoc, hbehind, ← h, List.takeWhile_append_dropWhile]
      rw [← hsource]
      exact token _ _ _ behind (fun _ hd => List.mem_takeWhile_imp hd) hopens (by rw [hbehind]) ih

theorem tokens_of_isSpace {source : List Char} (h : ∀ c ∈ source, isSpace c = true) :
    tokens source = [] :=
  tokens_of_blank (List.dropWhile_eq_nil_iff.2 h)

theorem exists_eq_gappedText (source : List Char) :
    ∃ trailing, source = gappedText (tokens source) ++ trailing ∧
      ∀ c ∈ trailing, isSpace c = true := by
  induction source using tokens_induction with
  | blank source h =>
      refine ⟨source, ?_, h⟩
      rw [tokens_of_isSpace h]
      rfl
  | token kind gap text behind hgap hopens hlexeme ih =>
      obtain ⟨trailing, hbehind, hspace⟩ := ih
      refine ⟨trailing, ?_, hspace⟩
      rw [tokens_of_lexeme hgap hopens hlexeme, gappedText_cons, List.append_assoc (gap ++ text),
        ← hbehind]

theorem isSpace_of_mem_gap {source : List Char} {token : Token} (htoken : token ∈ tokens source)
    {c : Char} (hc : c ∈ token.gap) : isSpace c = true := by
  induction source using tokens_induction with
  | blank source h => rw [tokens_of_isSpace h] at htoken; cases htoken
  | token kind gap text behind hgap hopens hlexeme ih =>
      rw [tokens_of_lexeme hgap hopens hlexeme] at htoken
      rcases List.mem_cons.1 htoken with rfl | hmem
      · exact hgap c hc
      · exact ih hmem

end DocumentStore.Filter
