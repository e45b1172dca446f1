import DocumentStore.Proofs.Filter.Slices
import DocumentStore.Proofs.Filter.TokenShapes

/-!
# Tokens found byte by byte

The scan of a source goes from byte to byte, and asks for slices of the source as it goes.  A scan
that asks for what is no slice, for a byte behind the end, or for too many turns has no result.
The scan of a text has one: the tokens of the text with their places.
-/

namespace DocumentStore.Filter

/-! ## Kinds of bytes -/

def isSpaceByte (byte : UInt8) : Bool :=
  byte == 0x20 || byte == 0x09 || byte == 0x0a || byte == 0x0c || byte == 0x0d

def isQuoteByte (byte : UInt8) : Bool := byte == 0x27 || byte == 0x22

theorem beq_leadByte {byte : UInt8} {d : Char} (hbyte : byte < 0x80)
    (hd : d.toNat = byte.toNat) (c : Char) : (leadByte c == byte) = (c == d) := by
  rw [Bool.eq_iff_iff, beq_iff_eq, beq_iff_eq, leadByte_eq_iff hbyte, ← hd]
  exact ⟨fun h => Char.toNat_inj.1 h, fun h => congrArg Char.toNat h⟩

theorem isSpaceByte_leadByte (c : Char) : isSpaceByte (leadByte c) = isSpace c := by
  rw [isSpaceByte, isSpace, beq_leadByte (d := ' ') (by decide) rfl,
    beq_leadByte (d := '\t') (by decide) rfl, beq_leadByte (d := '\n') (by decide) rfl,
    beq_leadByte (d := '\x0c') (by decide) rfl, beq_leadByte (d := '\r') (by decide) rfl]

theorem isQuoteByte_leadByte (c : Char) : isQuoteByte (leadByte c) = Literal.isQuote c := by
  rw [isQuoteByte, Literal.isQuote, beq_leadByte (d := '\'') (by decide) rfl,
    beq_leadByte (d := '"') (by decide) rfl]

theorem utf8Size_of_isSpace {c : Char} (h : isSpace c = true) : c.utf8Size = 1 := by
  simp only [isSpace, Bool.or_eq_true, beq_iff_eq] at h
  rcases h with (((rfl | rfl) | rfl) | rfl) | rfl <;> rfl

theorem utf8Size_of_isQuote {c : Char} (h : Literal.isQuote c = true) : c.utf8Size = 1 := by
  simp only [Literal.isQuote, Bool.or_eq_true, beq_iff_eq] at h
  rcases h with rfl | rfl <;> rfl

theorem ofNat_leadByte_of_isQuote {c : Char} (h : Literal.isQuote c = true) :
    Char.ofNat (leadByte c).toNat = c := by
  simp only [Literal.isQuote, Bool.or_eq_true, beq_iff_eq] at h
  rcases h with rfl | rfl <;> rfl

theorem utf8Length_of_isSpace {gap : List Char} (h : ∀ c ∈ gap, isSpace c = true) :
    utf8Length gap = gap.length := by
  induction gap with
  | nil => rfl
  | cons c gap ih =>
      rw [List.forall_mem_cons] at h
      rw [utf8Length, utf8Size_of_isSpace h.1, ih h.2, List.length_cons]
      omega

theorem length_le_utf8Length (cs : List Char) : cs.length ≤ utf8Length cs := by
  induction cs with
  | nil => exact Nat.le_refl 0
  | cons c cs ih =>
      have hpos := c.utf8Size_pos
      rw [List.length_cons, utf8Length]
      omega

/-! ## Scans -/

/-- The kind of a token with its first byte and the byte behind it. -/
structure Mark where
  kind : TokenKind
  first : Nat
  last : Nat
deriving DecidableEq

def Placed.mark (placed : Placed) : Mark := ⟨placed.kind, placed.first, placed.last⟩

/-- Whether a word ends at a place. -/
def endsWord? (source : List Char) (place : Nat) : Option Bool := do
  let byte ← (utf8 source)[place]?
  if isSpaceByte byte then
    return true
  let behind ← behind? source place
  return symbols.any fun symbol => symbol.2.isPrefixOf behind

def wordEnd? (source : List Char) : Nat → Nat → Option Nat
  | 0, _ => none
  | turns + 1, place =>
    if place < (utf8 source).length then do
      if ← endsWord? source place then
        return place
      let behind ← behind? source place
      wordEnd? source turns (place + behind.head?.elim 1 Char.utf8Size)
    else some place

def runEnd? (source : List Char) (place : Nat) (byte : UInt8) : Option (Option Nat) :=
  if isQuoteByte byte then do
    let behind ← behind? source (place + 1)
    let quote := Char.ofNat byte.toNat
    return if behind.contains quote then
        some (place + 1 + utf8Length (behind.takeWhile (· != quote)) + 1)
      else none
  else some none

def mark? (source : List Char) (place : Nat) (byte : UInt8) : Option Mark := do
  match ← runEnd? source place byte with
  | some last => return ⟨.quoted, place, last⟩
  | none =>
    let behind ← behind? source place
    match symbols.find? fun symbol => symbol.2.isPrefixOf behind with
    | some symbol => return ⟨symbol.1, place, place + utf8Length symbol.2⟩
    | none =>
      let last ← wordEnd? source ((utf8 source).length + 1) place
      let word ← slice? source place last
      return ⟨wordKind word, place, last⟩

def marksFrom? (source : List Char) : Nat → Nat → Option (List Mark)
  | 0, _ => none
  | turns + 1, place =>
    if place < (utf8 source).length then do
      let byte ← (utf8 source)[place]?
      if isSpaceByte byte then
        marksFrom? source turns (place + 1)
      else
        let mark ← mark? source place byte
        let marks ← marksFrom? source turns mark.last
        return mark :: marks
    else some []

/-- The tokens of a source, in one turn more than it has bytes. -/
def marks? (source : List Char) : Option (List Mark) :=
  marksFrom? source ((utf8 source).length + 1) 0

/-! ## Results of a scan -/

section

variable {source before rest : List Char} {c : Char}

theorem place_lt (hsource : source = before ++ c :: rest) :
    utf8Length before < (utf8 source).length := by
  have hpos := c.utf8Size_pos
  rw [length_utf8, hsource, utf8Length_append, utf8Length]
  omega

theorem endsWord?_eq (hsource : source = before ++ c :: rest) :
    endsWord? source (utf8Length before) =
      some (isSpace c || (symbol? (c :: rest)).isSome) := by
  rw [endsWord?, getElem?_utf8 hsource, behind?_eq hsource rfl, symbol?_eq_find?,
    List.isSome_find?, Option.bind_eq_bind, Option.bind_some, isSpaceByte_leadByte]
  cases isSpace c <;> rfl

theorem wordEnd?_eq {turns : Nat} (hsource : source = before ++ rest)
    (hturns : rest.length < turns) :
    wordEnd? source turns (utf8Length before) = some (utf8Length (before ++ wordRun rest)) := by
  induction rest generalizing before turns with
  | nil =>
      obtain ⟨turns, rfl⟩ : ∃ left, turns = left + 1 := ⟨turns - 1, by omega⟩
      have hend : ¬ utf8Length before < (utf8 source).length := by
        rw [length_utf8, hsource, List.append_nil]
        omega
      rw [wordEnd?, if_neg hend, wordRun, List.append_nil]
  | cons c rest ih =>
      obtain ⟨turns, rfl⟩ : ∃ left, turns = left + 1 := ⟨turns - 1, by omega⟩
      have hnext : source = (before ++ [c]) ++ rest := by rw [hsource, List.append_cons]
      rw [wordEnd?, if_pos (place_lt hsource), endsWord?_eq hsource, behind?_eq hsource rfl,
        wordRun, Option.bind_eq_bind, Option.bind_some]
      cases isSpace c || (symbol? (c :: rest)).isSome with
      | true => rw [if_pos rfl, if_pos rfl, List.append_nil]; rfl
      | false =>
          rw [if_neg Bool.false_ne_true, if_neg Bool.false_ne_true, Option.bind_eq_bind,
            Option.bind_some, List.head?_cons, Option.elim_some, ← utf8Length_concat,
            ih hnext (by simp at hturns; omega), List.append_assoc]
          rfl

theorem runEnd?_eq (hsource : source = before ++ c :: rest) :
    runEnd? source (utf8Length before) (leadByte c) =
      some ((quotedRun? (c :: rest)).map fun run => utf8Length (before ++ run)) := by
  rw [runEnd?, isQuoteByte_leadByte, quotedRun?]
  cases hquote : Literal.isQuote c with
  | false => rfl
  | true =>
      have hsize : c.utf8Size = 1 := utf8Size_of_isQuote hquote
      have hnext : source = (before ++ [c]) ++ rest := by rw [hsource, List.append_cons]
      have hplace : utf8Length before + 1 = utf8Length (before ++ [c]) := by
        rw [utf8Length_concat, hsize]
      rw [if_pos rfl, behind?_eq hnext hplace, ofNat_leadByte_of_isQuote hquote,
        Option.bind_eq_bind, Option.bind_some, Bool.true_and]
      dsimp only
      cases rest.contains c with
      | false => rfl
      | true =>
          rw [if_pos rfl, if_pos rfl]
          simp only [Option.map_some, utf8Length_append, utf8Length, List.cons_append, hsize]
          congr 2
          omega

theorem mark?_eq (hsource : source = before ++ c :: rest) :
    mark? source (utf8Length before) (leadByte c) =
      some ⟨(lexeme (c :: rest)).1, utf8Length before,
        utf8Length (before ++ (lexeme (c :: rest)).2)⟩ := by
  rw [mark?, runEnd?_eq hsource, lexeme, Option.bind_eq_bind, Option.bind_some]
  cases quotedRun? (c :: rest) with
  | some run => rfl
  | none =>
      rw [Option.map_none, behind?_eq hsource rfl, Option.bind_eq_bind, Option.bind_some]
      dsimp only
      rw [← symbol?_eq_find?]
      cases symbol? (c :: rest) with
      | some symbol =>
          dsimp only
          rw [utf8Length_append]
          rfl
      | none =>
          have hturns : (c :: rest).length < (utf8 source).length + 1 := by
            have hle := length_le_utf8Length source
            rw [length_utf8]
            rw [hsource, List.length_append] at hle
            rw [hsource]
            omega
          obtain ⟨behind, hword⟩ := wordRun_prefix (c :: rest)
          have hslice : slice? source (utf8Length before)
              (utf8Length (before ++ wordRun (c :: rest))) = some (wordRun (c :: rest)) :=
            slice?_eq (by rw [hsource, List.append_assoc, hword]) rfl rfl
          dsimp only
          rw [wordEnd?_eq hsource hturns, Option.bind_eq_bind, Option.bind_some, hslice,
            Option.bind_some]
          rfl

theorem marksFrom?_gap {gap behind : List Char} (hgap : ∀ d ∈ gap, isSpace d = true)
    (hsource : source = before ++ gap ++ behind) (turns : Nat) :
    marksFrom? source (gap.length + turns) (utf8Length before) =
      marksFrom? source turns (utf8Length (before ++ gap)) := by
  induction gap generalizing before with
  | nil => rw [List.length_nil, Nat.zero_add, List.append_nil]
  | cons d gap ih =>
      rw [List.forall_mem_cons] at hgap
      have hcons : source = before ++ d :: (gap ++ behind) := by
        rw [hsource, List.append_assoc, List.cons_append]
      have hnext : source = (before ++ [d]) ++ gap ++ behind := by
        rw [hsource, List.append_cons before d]
      have hplace : utf8Length before + 1 = utf8Length (before ++ [d]) := by
        rw [utf8Length_concat, utf8Size_of_isSpace hgap.1]
      rw [List.length_cons, Nat.add_right_comm, marksFrom?, if_pos (place_lt hcons),
        getElem?_utf8 hcons, Option.bind_eq_bind, Option.bind_some, isSpaceByte_leadByte,
        if_pos hgap.1, hplace, ih hgap.2 hnext, List.append_assoc]
      rfl

theorem marksFrom?_eq {turns : Nat} (hsource : source = before ++ rest)
    (hturns : utf8Length rest < turns) :
    marksFrom? source turns (utf8Length before) =
      some ((place (utf8Length before) (tokens rest)).map Placed.mark) := by
  induction rest using tokens_induction generalizing before turns with
  | blank rest hspace =>
      rw [utf8Length_of_isSpace hspace] at hturns
      obtain ⟨turns, rfl⟩ : ∃ left, turns = rest.length + (left + 1) :=
        ⟨turns - rest.length - 1, by omega⟩
      have hend : ¬ utf8Length (before ++ rest) < (utf8 source).length := by
        rw [length_utf8, hsource]
        omega
      rw [marksFrom?_gap hspace (by rw [hsource, List.append_nil]), marksFrom?, if_neg hend,
        tokens_of_isSpace hspace]
      rfl
  | token kind gap text behind hgap hopens hlexeme ih =>
      obtain ⟨c, tail, rfl, hspace⟩ := hopens
      rw [utf8Length_append, utf8Length_append, utf8Length_of_isSpace hgap] at hturns
      obtain ⟨turns, rfl⟩ : ∃ left, turns = gap.length + (left + 1) :=
        ⟨turns - gap.length - 1, by omega⟩
      have hgapped : source = before ++ gap ++ (c :: tail ++ behind) := by
        rw [hsource, List.append_assoc, List.append_assoc]
      have hbehind : source = (before ++ gap ++ (c :: tail)) ++ behind := by
        rw [hgapped, List.append_assoc _ (c :: tail)]
      -- A token has a byte at least, so that the turns left outnumber the bytes left.
      have hleft : utf8Length behind < turns := by
        have hpos := utf8Length_cons_ne_zero c tail
        omega
      have hcons : source = before ++ gap ++ c :: (tail ++ behind) := hgapped
      have hmark := mark?_eq hcons
      rw [← List.cons_append, hlexeme] at hmark
      rw [marksFrom?_gap hgap hgapped, marksFrom?, if_pos (place_lt hcons),
        getElem?_utf8 hcons, Option.bind_eq_bind, Option.bind_some, isSpaceByte_leadByte, hspace,
        if_neg Bool.false_ne_true, hmark, Option.bind_eq_bind, Option.bind_some,
        ih hbehind hleft, tokens_of_lexeme hgap ⟨c, tail, rfl, hspace⟩ hlexeme]
      simp only [place, List.map_cons, utf8Length_append]
      rfl

end

/-- The scan of a source ends, with the tokens of the source. -/
theorem marks?_eq (source : List Char) :
    marks? source = some ((place 0 (tokens source)).map Placed.mark) :=
  marksFrom?_eq (List.nil_append source).symm (by rw [length_utf8]; omega)

example : marks? "é='a".toList =
    some [⟨.word, 0, 2⟩, ⟨.operator (.comparison .eq), 2, 3⟩, ⟨.word, 3, 5⟩] := by cbv

end DocumentStore.Filter
