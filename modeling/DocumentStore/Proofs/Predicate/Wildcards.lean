import DocumentStore.Predicate.LiteralPattern
import Mathlib.Data.List.Infix

/-!
# Texts with wildcards

An escaped text stands for its characters, and an anchor beside it for an end of the string.  This
is what is relied on of an engine for patterns, and the one for literal patterns is such an engine.
-/

namespace DocumentStore

/-- Where a text has to have the characters between the wildcards. -/
def Wildcards.Fits (wildcards : Wildcards) (inner text : List Char) : Prop :=
  match wildcards with
  | .bothEnds | .nowhere => inner <:+: text
  | .atEnd => inner <+: text
  | .atStart => inner <:+ text

/-! ## Engines -/

namespace PatternReader

/-- An escaped text is never refused, alone or with an anchor at one end. -/
def ReadsEscaped (reader : PatternReader) : Prop :=
  ∀ (wildcards : Wildcards) (text : List Char),
    ∃ test, reader (String.ofList (wildcards.anchored text)) = .ok test

/-- An escaped text matches itself literally, and an anchor in front of it or behind it ties the
match to the start or the end of the string. -/
structure MatchesEscaped (reader : PatternReader) : Prop where
  anywhere (text : List Char) : ∃ test, reader (String.ofList (Pattern.escape text)) = .ok test ∧
    ∀ s, test s = true ↔ text <:+: s.toList
  atStart (text : List Char) :
    ∃ test, reader (String.ofList ('^' :: Pattern.escape text)) = .ok test ∧
      ∀ s, test s = true ↔ text <+: s.toList
  atEnd (text : List Char) :
    ∃ test, reader (String.ofList (Pattern.escape text ++ ['$'])) = .ok test ∧
      ∀ s, test s = true ↔ text <:+ s.toList

variable {reader : PatternReader}

theorem MatchesEscaped.anchored (h : reader.MatchesEscaped) (wildcards : Wildcards)
    (inner : List Char) :
    ∃ test, reader (String.ofList (wildcards.anchored inner)) = .ok test ∧
      ∀ s, test s = true ↔ wildcards.Fits inner s.toList := by
  cases wildcards with
  | bothEnds | nowhere => exact h.anywhere inner
  | atEnd => exact h.atStart inner
  | atStart => exact h.atEnd inner

end PatternReader

namespace LiteralPattern

open Pattern (escape isMeta)

/-! ## Reading literal patterns -/

theorem read?_escape_append (cs behind : List Char) :
    read? (escape cs ++ behind) = (read? behind).map (cs.map PatternAtom.literal ++ ·) := by
  induction cs with
  | nil => simp [escape]
  | cons c cs ih =>
      have hescape : escape (c :: cs) ++ behind =
          (if isMeta c then ['\\', c] else [c]) ++ (escape cs ++ behind) := by
        rw [escape, List.flatMap_cons, List.append_assoc]
        rfl
      rw [hescape]
      cases hmeta : isMeta c with
      | true =>
          rw [if_pos rfl, List.cons_append, List.singleton_append, read?, if_pos hmeta, ih,
            Option.map_map]
          rfl
      | false =>
          have hplain (d : Char) (hd : isMeta d = true) : c ≠ d := by
            rintro rfl
            rw [hd] at hmeta
            cases hmeta
          have hback : ∀ d rest, c = '\\' → escape cs ++ behind = d :: rest → False :=
            fun _ _ h _ => hplain '\\' (by decide) h
          rw [if_neg Bool.false_ne_true, List.singleton_append, read?,
            if_neg (hplain '^' (by decide)), if_neg (hplain '$' (by decide)), hmeta, Bool.false_and,
            if_neg Bool.false_ne_true, ih, Option.map_map]
          · rfl
          · exact hback

theorem read?_escape (cs : List Char) : read? (escape cs) = some (cs.map .literal) := by
  have hread := read?_escape_append cs []
  simpa [read?] using hread

theorem read?_start_escape (cs : List Char) :
    read? ('^' :: escape cs) = some (.start :: cs.map .literal) := by
  have hread : read? ('^' :: escape cs) = (read? (escape cs)).map (.start :: ·) := by
    rw [read?, if_pos rfl]
    exact nofun
  rw [hread, read?_escape]
  rfl

theorem read?_escape_finish (cs : List Char) :
    read? (escape cs ++ ['$']) = some (cs.map .literal ++ [.finish]) := by
  rw [read?_escape_append]
  rfl

/-! ## Matching literal patterns -/

theorem matchesHere_literals (atStart : Bool) (cs : List Char) (places : LiteralPattern)
    (text : List Char) :
    matchesHere atStart (cs.map .literal ++ places) text = true ↔
      ∃ rest, text = cs ++ rest ∧ matchesHere (atStart && cs.isEmpty) places rest = true := by
  induction cs generalizing atStart text with
  | nil => simp
  | cons c cs ih =>
      cases text with
      | nil => simp [matchesHere]
      | cons d text =>
          rw [List.map_cons, List.cons_append, matchesHere, Bool.and_eq_true, beq_iff_eq, ih]
          constructor
          · rintro ⟨rfl, rest, rfl, hrest⟩
            exact ⟨rest, rfl, by simpa using hrest⟩
          · rintro ⟨rest, htext, hrest⟩
            obtain ⟨rfl, rfl⟩ := List.cons.inj htext
            exact ⟨rfl, rest, rfl, by simpa using hrest⟩

theorem search_iff (places : LiteralPattern) (atStart : Bool) (text : List Char) :
    search places atStart text = true ↔
      ∃ front rest, text = front ++ rest ∧
        matchesHere (atStart && front.isEmpty) places rest = true := by
  induction text generalizing atStart with
  | nil => simp [search]
  | cons c text ih =>
      rw [search, Bool.or_eq_true, ih]
      constructor
      · rintro (hhere | ⟨front, rest, rfl, hrest⟩)
        · exact ⟨[], c :: text, rfl, by simpa using hhere⟩
        · exact ⟨c :: front, rest, rfl, by simpa using hrest⟩
      · rintro ⟨front, rest, htext, hrest⟩
        cases front with
        | nil =>
            left
            rw [htext]
            simpa using hrest
        | cons d front =>
            right
            obtain ⟨rfl, rfl⟩ := List.cons.inj htext
            exact ⟨front, rest, rfl, by simpa using hrest⟩

theorem isMatch_literals (inner text : List Char) :
    isMatch (inner.map .literal) text = true ↔ inner <:+: text := by
  have hhere (atStart : Bool) (rest : List Char) :
      matchesHere atStart (inner.map .literal) rest = true ↔ inner <+: rest := by
    have hliterals := matchesHere_literals atStart inner [] rest
    rw [List.append_nil] at hliterals
    simp [hliterals, matchesHere, List.IsPrefix, eq_comm]
  simp only [isMatch, search_iff, hhere]
  constructor
  · rintro ⟨front, rest, rfl, back, rfl⟩
    exact ⟨front, back, List.append_assoc ..⟩
  · rintro ⟨front, back, rfl⟩
    exact ⟨front, inner ++ back, List.append_assoc .., List.prefix_append _ _⟩

theorem isMatch_start (inner text : List Char) :
    isMatch (.start :: inner.map .literal) text = true ↔ inner <+: text := by
  have hliterals := matchesHere_literals true inner [] text
  rw [List.append_nil] at hliterals
  rw [isMatch, search_iff]
  constructor
  · rintro ⟨front, rest, rfl, hrest⟩
    -- The anchor leaves the front of the whole text as the only place.
    rw [matchesHere, Bool.and_eq_true, Bool.true_and, List.isEmpty_iff] at hrest
    obtain ⟨rfl, hrest⟩ := hrest
    obtain ⟨back, hback, -⟩ := hliterals.1 hrest
    exact ⟨back, hback.symm⟩
  · rintro ⟨back, rfl⟩
    exact ⟨[], inner ++ back, rfl, hliterals.2 ⟨back, rfl, rfl⟩⟩

theorem isMatch_finish (inner text : List Char) :
    isMatch (inner.map .literal ++ [.finish]) text = true ↔ inner <:+ text := by
  have hhere (atStart : Bool) (rest : List Char) :
      matchesHere atStart (inner.map .literal ++ [.finish]) rest = true ↔ rest = inner := by
    rw [matchesHere_literals]
    simp [matchesHere]
  simp only [isMatch, search_iff, hhere]
  constructor
  · rintro ⟨front, rest, rfl, rfl⟩
    exact List.suffix_append _ _
  · rintro ⟨front, rfl⟩
    exact ⟨front, inner, rfl, rfl⟩

end LiteralPattern

theorem PatternReader.literal_of_read? {text : List Char} {pattern : LiteralPattern}
    (h : LiteralPattern.read? text = some pattern) :
    literal (String.ofList text) = .ok fun s => pattern.isMatch s.toList := by
  rw [literal, String.toList_ofList, h]

theorem PatternReader.literal_matchesEscaped : literal.MatchesEscaped where
  anywhere text :=
    ⟨_, literal_of_read? (LiteralPattern.read?_escape text),
      fun s => LiteralPattern.isMatch_literals text s.toList⟩
  atStart text :=
    ⟨_, literal_of_read? (LiteralPattern.read?_start_escape text),
      fun s => LiteralPattern.isMatch_start text s.toList⟩
  atEnd text :=
    ⟨_, literal_of_read? (LiteralPattern.read?_escape_finish text),
      fun s => LiteralPattern.isMatch_finish text s.toList⟩

theorem PatternReader.MatchesEscaped.readsEscaped {reader : PatternReader}
    (h : reader.MatchesEscaped) : reader.ReadsEscaped := fun wildcards text =>
  (h.anchored wildcards text).imp fun _ => And.left

end DocumentStore
