import DocumentStore.Proofs.Literal

/-!
# Which literal a token is

The kind of a literal is read off its token: the text between quotes, the canonical text of an
integer, any other numeral of the grammar, a Boolean in any case, and else the token itself.
-/

namespace DocumentStore.Literal

variable {token rest inner : List Char} {c : Char}

/-- Two bytes or more, of which the first and the last are the same quote. -/
structure IsQuoted (token : List Char) : Prop where
  length : 2 ≤ (String.ofList token).utf8ByteSize
  quotes : ∃ quote, isQuote quote = true ∧ token.head? = some quote ∧ token.getLast? = some quote

/-- The decimal text of an integer of 64 bits. -/
def IsCanonicalInt (token : List Char) (n : Int64) : Prop := token = Decimal.ofInt n.toInt

/-- The name of a truth value, whatever the case of its letters. -/
def IsName (token : List Char) (b : Bool) : Prop := Text.lower token = (bool b).text.toList

/-! ## Quotes -/

theorem eq_of_isQuote (h : isQuote c = true) : c = '\'' ∨ c = '"' := by
  simpa [isQuote] using h

theorem utf8ByteSize_quote (h : isQuote c = true) : (String.ofList [c]).utf8ByteSize = 1 := by
  rcases eq_of_isQuote h with rfl | rfl <;> rfl

theorem isQuoted_quoted {quote : Char} (h : isQuote quote = true) (inner : List Char) :
    IsQuoted (quote :: inner ++ [quote]) := by
  refine ⟨?_, quote, h, rfl, List.getLast?_concat ..⟩
  have hfront : (String.ofList (quote :: inner)).utf8ByteSize =
      1 + (String.ofList inner).utf8ByteSize := by
    rw [← List.singleton_append, String.ofList_append, String.utf8ByteSize_append,
      utf8ByteSize_quote h]
  rw [String.ofList_append, String.utf8ByteSize_append, hfront, utf8ByteSize_quote h]
  omega

theorem quotedText?_eq_some_iff :
    quotedText? token = some inner ↔ IsQuoted token ∧ inner = token.tail.dropLast := by
  constructor
  · intro h
    obtain ⟨quote, hquote, rfl⟩ := exists_of_quotedText? h
    exact ⟨isQuoted_quoted hquote inner, by simp⟩
  · rintro ⟨⟨hlength, quote, hquote, hhead, hlast⟩, rfl⟩
    cases token with
    | nil => cases hhead
    | cons first rest =>
        cases hhead
        rcases List.eq_nil_or_concat rest with rfl | ⟨inner, last, rfl⟩
        · -- a quote alone is a single byte
          rw [utf8ByteSize_quote hquote] at hlength
          omega
        · rw [List.concat_eq_append, ← List.cons_append] at hlast ⊢
          rw [List.getLast?_concat, Option.some_inj] at hlast
          rw [hlast, quotedText?_eq hquote]
          simp

theorem quotedText?_eq_none (h : ¬ IsQuoted token) : quotedText? token = none := by
  cases hquoted : quotedText? token with
  | none => rfl
  | some inner => exact absurd (quotedText?_eq_some_iff.1 hquoted).1 h

/-! ## Numerals -/

theorem canonicalInt?_eq_some_iff {n : Int64} :
    canonicalInt? token = some n ↔ IsCanonicalInt token n := by
  constructor
  · intro h
    rw [canonicalInt?] at h
    split at h
    · cases h
    · next numeral _ =>
      dsimp only at h
      generalize (if numeral.negative = true then -(Decimal.ofDigits numeral.whole : Int)
        else Decimal.ofDigits numeral.whole) = size at h
      split at h
      · next hfits =>
        obtain ⟨hlower, hupper, htext⟩ := hfits
        have hsize : (Int64.ofInt size).toInt = size :=
          Int64.toInt_ofInt_of_le hlower (Int.lt_add_one_of_le hupper)
        rw [← Option.some.inj h, IsCanonicalInt, hsize, htext]
      · cases h
  · intro h
    rw [h, canonicalInt?_ofInt]

theorem canonicalInt?_eq_none (h : ∀ n, ¬ IsCanonicalInt token n) : canonicalInt? token = none := by
  cases hint : canonicalInt? token with
  | none => rfl
  | some n => exact absurd (canonicalInt?_eq_some_iff.1 hint) (h n)

theorem isNumeral_iff : isNumeral token = true ↔ ∃ numeral, Numeral.Spelling token numeral := by
  rw [isNumeral, Option.isSome_iff_exists]
  simp only [Numeral.read?_eq_some_iff]

theorem read?_eq_none (h : ∀ numeral, ¬ Numeral.Spelling token numeral) :
    Numeral.read? token = none := by
  cases hread : Numeral.read? token with
  | none => rfl
  | some numeral => exact absurd (Numeral.read?_eq_some_iff.1 hread) (h numeral)

theorem read?_of_outside (h : c.toNat < 43 ∨ 57 < c.toNat) (rest : List Char) :
    Numeral.read? (c :: rest) = none := by
  have hne {d : Char} (hd : 43 ≤ d.toNat ∧ d.toNat ≤ 57) : c ≠ d := by
    rintro rfl
    omega
  have hdigit : c.isDigit = false := by
    by_contra hc
    have hbounds : 48 ≤ c.toNat ∧ c.toNat ≤ 57 :=
      Char.isDigit_iff_toNat.1 (Bool.not_eq_false _ ▸ hc)
    omega
  have hsign : Numeral.takeSign (c :: rest) = (false, c :: rest) := by
    simp [Numeral.takeSign, hne (d := '+') (by decide), hne (d := '-') (by decide)]
  have hwhole : Numeral.takeDigits (c :: rest) = ([], c :: rest) := by
    simp [Numeral.takeDigits, hdigit]
  have hfraction : Numeral.takeFraction (c :: rest) = ([], c :: rest) := by
    simp [Numeral.takeFraction, hne (d := '.') (by decide)]
  simp [Numeral.read?, hsign, hwhole, hfraction]

theorem canonicalInt?_of_read? (h : Numeral.read? token = none) : canonicalInt? token = none := by
  rw [canonicalInt?, h]

theorem not_isQuoted_of_read? {numeral : Numeral} (h : Numeral.read? token = some numeral) :
    ¬ IsQuoted token := by
  rintro ⟨-, quote, hquote, hhead, -⟩
  cases token with
  | nil => cases hhead
  | cons first rest =>
      cases hhead
      have houtside : quote.toNat < 43 := by
        rcases eq_of_isQuote hquote with rfl | rfl <;> decide
      rw [read?_of_outside (.inl houtside)] at h
      cases h

/-! ## Truth values -/

theorem exists_of_isName {b : Bool} (h : IsName token b) :
    ∃ c rest, token = c :: rest ∧ 57 < c.toNat := by
  cases token with
  | nil => cases b <;> cases h
  | cons c rest =>
      refine ⟨c, rest, rfl, ?_⟩
      by_contra hle
      have hlower := congrArg List.head? h
      rw [Text.lower, List.map_cons, Text.toLower_of_le (by omega), List.head?_cons] at hlower
      cases b <;> cases hlower <;> exact hle (by decide)

theorem of_isName {b : Bool} (h : IsName token b) :
    Numeral.read? token = none ∧ ¬ IsQuoted token := by
  obtain ⟨c, rest, rfl, hletter⟩ := exists_of_isName h
  refine ⟨read?_of_outside (.inr hletter) rest, ?_⟩
  rintro ⟨-, quote, hquote, hhead, -⟩
  cases hhead
  rcases eq_of_isQuote hquote with rfl | rfl <;> exact absurd hletter (by decide)

/-! ## Literals -/

/-- What a token stands for.  The classes of tokens have none in common, but for the integers among
the numerals, and the text of a token stands for itself only if it is in none of them. -/
inductive Denotes (token : List Char) : Literal → Prop
  | quoted (h : IsQuoted token) : Denotes token (.string (String.ofList token.tail.dropLast))
  | int {n : Int64} (h : IsCanonicalInt token n) : Denotes token (.int n)
  | float {numeral : Numeral} (hint : ∀ n, ¬ IsCanonicalInt token n)
      (h : Numeral.Spelling token numeral) : Denotes token (.float numeral.value)
  | bool {b : Bool} (h : IsName token b) : Denotes token (.bool b)
  | string (hquoted : ¬ IsQuoted token) (hnumeral : ∀ numeral, ¬ Numeral.Spelling token numeral)
      (hname : ∀ b, ¬ IsName token b) : Denotes token (.string (String.ofList token))

theorem ofToken_of_not_read? (hquoted : ¬ IsQuoted token) (h : Numeral.read? token = none) :
    ofToken token = if Text.lower token = ['t', 'r', 'u', 'e'] then .bool true
      else if Text.lower token = ['f', 'a', 'l', 's', 'e'] then .bool false
      else .string (String.ofList token) := by
  rw [ofToken, quotedText?_eq_none hquoted, canonicalInt?_of_read? h, h]

theorem ofToken_of_denotes {literal : Literal} (h : Denotes token literal) :
    ofToken token = literal := by
  cases h with
  | quoted h => rw [ofToken, quotedText?_eq_some_iff.2 ⟨h, rfl⟩]
  | int h => rw [h, ofToken_ofInt]
  | float hint h =>
      have hread := Numeral.read?_eq_some_iff.2 h
      rw [ofToken, quotedText?_eq_none (not_isQuoted_of_read? hread), canonicalInt?_eq_none hint,
        hread]
  | @bool b h =>
      obtain ⟨hread, hquoted⟩ := of_isName h
      rw [ofToken_of_not_read? hquoted hread]
      cases b with
      | true => exact if_pos h
      | false =>
          have hother : Text.lower token ≠ ['t', 'r', 'u', 'e'] := by
            rw [show Text.lower token = ['f', 'a', 'l', 's', 'e'] from h]
            decide
          rw [if_neg hother]
          exact if_pos h
  | string hquoted hnumeral hname =>
      rw [ofToken_of_not_read? hquoted (read?_eq_none hnumeral)]
      exact (if_neg (hname true)).trans (if_neg (hname false))

theorem exists_denotes (token : List Char) : ∃ literal, Denotes token literal := by
  by_cases hquoted : IsQuoted token
  · exact ⟨_, .quoted hquoted⟩
  · by_cases hnumeral : ∃ numeral, Numeral.Spelling token numeral
    · obtain ⟨numeral, hnumeral⟩ := hnumeral
      by_cases hint : ∃ n, IsCanonicalInt token n
      · obtain ⟨n, hint⟩ := hint
        exact ⟨_, .int hint⟩
      · exact ⟨_, .float (fun n hn => hint ⟨n, hn⟩) hnumeral⟩
    · by_cases hname : ∃ b, IsName token b
      · obtain ⟨b, hname⟩ := hname
        exact ⟨_, .bool hname⟩
      · exact ⟨_, .string hquoted (fun n hn => hnumeral ⟨n, hn⟩) fun b hb => hname ⟨b, hb⟩⟩

/-- A token is a numeral just when the grammar spells it, and it is read as the literal that it
stands for: of all tokens each stands for just one. -/
theorem ofToken_eq_iff_denotes (token : List Char) :
    (isNumeral token = true ↔ ∃ numeral, Numeral.Spelling token numeral) ∧
    ∀ literal, ofToken token = literal ↔ Denotes token literal := by
  refine ⟨isNumeral_iff, fun literal => ⟨fun h => ?_, ofToken_of_denotes⟩⟩
  obtain ⟨other, hother⟩ := exists_denotes token
  rwa [← h, ofToken_of_denotes hother]

end DocumentStore.Literal
