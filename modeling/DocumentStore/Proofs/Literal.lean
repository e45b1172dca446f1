import DocumentStore.Literal
import DocumentStore.Proofs.Number.Grammar

/-!
# Literals read back

The text of a Boolean, of an integer and of a quoted string is the literal that stands for
it.
-/

namespace DocumentStore

/-! ## Decimal texts -/

theorem Text.toLower_of_le {c : Char} (h : c.toNat ≤ 57) : c.toLower = c := by
  have hletter : ¬ (c.val ≥ 'A'.val ∧ c.val ≤ 'Z'.val) := by
    intro hle
    have hfrom : 65 ≤ c.toNat := UInt32.le_iff_toNat_le.1 hle.1
    omega
  exact dif_neg hletter

namespace Decimal

theorem ofDigits_ofNat (n : Nat) : ofDigits (ofNat n) = n :=
  Nat.ofDigitChars_ten_toDigits

theorem isDigit_of_mem_ofNat {n : Nat} {c : Char} (h : c ∈ ofNat n) : c.isDigit = true :=
  Nat.isDigit_of_mem_toDigits (by decide) (by decide) h

theorem ofNat_ne_nil (n : Nat) : ofNat n ≠ [] := Nat.toDigits_ne_nil

theorem head?_ofNat {n : Nat} (h : 0 < n) : (ofNat n).head?.any (· != '0') = true := by
  induction n using Nat.strongRecOn with
  | ind n ih =>
      by_cases hsmall : n < 10
      · have hdigit : ∀ n < 10, 0 < n → Nat.digitChar n ≠ '0' := by decide
        rw [ofNat, Nat.toDigits_of_lt_base hsmall, List.head?_singleton, Option.any_some,
          bne_iff_ne]
        exact hdigit n hsmall h
      · have hfront := ih (n / 10) (by omega) (by omega)
        rw [ofNat] at hfront
        rw [ofNat, Nat.toDigits_of_base_le (by decide) (Nat.le_of_not_lt hsmall),
          List.head?_append_of_ne_nil _ Nat.toDigits_ne_nil]
        exact hfront

theorem ofInt_ne_nil (n : Int) : ofInt n ≠ [] := by
  rw [ofInt]
  split
  · exact List.cons_ne_nil _ _
  · exact ofNat_ne_nil _

theorem toNat_of_mem_ofInt {n : Int} {c : Char} (h : c ∈ ofInt n) :
    45 ≤ c.toNat ∧ c.toNat ≤ 57 := by
  have hdigit : ∀ d ∈ ofNat n.natAbs, 45 ≤ d.toNat ∧ d.toNat ≤ 57 := by
    intro d hd
    have hbounds : 48 ≤ d.toNat ∧ d.toNat ≤ 57 :=
      Char.isDigit_iff_toNat.1 (isDigit_of_mem_ofNat hd)
    omega
  rw [ofInt] at h
  split at h
  · rcases List.mem_cons.1 h with rfl | hmem
    · decide
    · exact hdigit c hmem
  · exact hdigit c h

end Decimal

namespace Numeral

theorem read?_ofInt (n : Int) :
    read? (Decimal.ofInt n) = some ⟨decide (n < 0), Decimal.ofNat n.natAbs, [], 0⟩ := by
  have hdigits : IsDigits (Decimal.ofNat n.natAbs) :=
    ⟨Decimal.ofNat_ne_nil _, fun _ => Decimal.isDigit_of_mem_ofNat⟩
  have hspelling {sign : List Char} {negative : Bool} (hsign : Sign sign negative) :
      Spelling (sign ++ Decimal.ofNat n.natAbs) ⟨negative, Decimal.ofNat n.natAbs, [], 0⟩ := by
    simpa using Spelling.intro hsign (.whole hdigits) .missing
  rw [read?_eq_some_iff, Decimal.ofInt]
  split
  · next h =>
    rw [decide_eq_true h]
    exact hspelling .minus
  · next h =>
    rw [decide_eq_false h]
    exact hspelling .missing

theorem takeSign_ofInt (n : Int) :
    takeSign (Decimal.ofInt n) = (decide (n < 0), Decimal.ofNat n.natAbs) := by
  have hfirst : ∀ c, (Decimal.ofNat n.natAbs).head? = some c → c ≠ '+' ∧ c ≠ '-' := by
    intro c hc
    have hdigit : c.isDigit = true := Decimal.isDigit_of_mem_ofNat (List.mem_of_mem_head? hc)
    constructor <;> rintro rfl <;> cases hdigit
  rw [Decimal.ofInt]
  split
  · next hneg =>
    rw [decide_eq_true hneg]
    exact takeSign_append .minus hfirst
  · next hneg =>
    rw [decide_eq_false hneg]
    exact takeSign_append .missing hfirst

theorem integer?_of_takeSign {cs : List Char} {negative : Bool} {n : Nat}
    (h : takeSign cs = (negative, Decimal.ofNat n)) :
    integer? cs = some (if negative then -(n : Int) else n) := by
  have hdigits : ((Decimal.ofNat n).isEmpty || !(Decimal.ofNat n).all Char.isDigit) = false := by
    rw [List.isEmpty_eq_false_iff.2 (Decimal.ofNat_ne_nil n),
      List.all_eq_true.2 fun _ => Decimal.isDigit_of_mem_ofNat]
    rfl
  simp only [integer?, h, hdigits, Bool.false_eq_true, if_false, Decimal.ofDigits_ofNat]

theorem integer?_ofInt (n : Int) : integer? (Decimal.ofInt n) = some n := by
  rw [integer?_of_takeSign (takeSign_ofInt n), Option.some_inj]
  simp only [decide_eq_true_eq]
  split <;> omega

end Numeral

/-! ## Literals -/

namespace Literal

theorem quotedText?_eq {quote : Char} (h : isQuote quote = true) (inner : List Char) :
    quotedText? (quote :: inner ++ [quote]) = some inner := by
  simp [quotedText?, h, Text.dropEnd?]

theorem exists_of_quotedText? {token inner : List Char} (h : quotedText? token = some inner) :
    ∃ quote, isQuote quote = true ∧ token = quote :: inner ++ [quote] := by
  cases token with
  | nil => cases h
  | cons quote rest =>
      rw [quotedText?] at h
      split at h
      · next hquote =>
        rw [Text.dropEnd?] at h
        cases hrest : rest.reverse with
        | nil => simp [hrest] at h
        | cons last back =>
            obtain ⟨rfl, rfl⟩ : last = quote ∧ back.reverse = inner := by simpa [hrest] using h
            exact ⟨last, hquote, by rw [List.cons_append, ← List.reverse_eq_cons_iff.1 hrest]⟩
      · cases h

theorem ofToken_quoted {quote : Char} (h : isQuote quote = true) (inner : List Char) :
    ofToken (quote :: inner ++ [quote]) = .string (String.ofList inner) := by
  rw [ofToken, quotedText?_eq h]

theorem eq_of_ofToken_eq_string {token : List Char} {s : String}
    (hquoted : quotedText? token = none) (h : ofToken token = .string s) :
    s = String.ofList token := by
  rw [ofToken, hquoted] at h
  dsimp only at h
  split at h
  · cases h
  · split at h
    · cases h
    · split at h
      · cases h
      · split at h
        · cases h
        · exact (Literal.string.inj h).symm

theorem isQuote_of_numeric {c : Char} (h : 45 ≤ c.toNat ∧ c.toNat ≤ 57) :
    isQuote c = false := by
  have hsingle : c ≠ '\'' := by rintro rfl; exact absurd h (by decide)
  have hdouble : c ≠ '"' := by rintro rfl; exact absurd h (by decide)
  simp [isQuote, hsingle, hdouble]

theorem canonicalInt?_ofInt (n : Int64) : canonicalInt? (Decimal.ofInt n.toInt) = some n := by
  have hsize : (if decide (n.toInt < 0) = true then
      -(Decimal.ofDigits (Decimal.ofNat n.toInt.natAbs) : Int)
      else (Decimal.ofDigits (Decimal.ofNat n.toInt.natAbs) : Int)) = n.toInt := by
    rw [Decimal.ofDigits_ofNat]
    by_cases hneg : n.toInt < 0
    · rw [if_pos (decide_eq_true hneg)]
      omega
    · rw [if_neg (by simpa using hneg)]
      omega
  rw [canonicalInt?, Numeral.read?_ofInt]
  dsimp only
  rw [hsize, if_pos ⟨n.minValue_le_toInt, n.toInt_le, rfl⟩, Int64.ofInt_toInt]

theorem ofToken_ofInt (n : Int64) : ofToken (Decimal.ofInt n.toInt) = .int n := by
  have hquoted : quotedText? (Decimal.ofInt n.toInt) = none := by
    obtain ⟨c, rest, hcons⟩ := List.exists_cons_of_ne_nil (Decimal.ofInt_ne_nil n.toInt)
    have hc : c ∈ Decimal.ofInt n.toInt := by
      rw [hcons]
      exact List.mem_cons_self
    rw [hcons, quotedText?, isQuote_of_numeric (Decimal.toNat_of_mem_ofInt hc)]
    rfl
  rw [ofToken, hquoted, canonicalInt?_ofInt]

theorem value_ofToken_int32 (n : Int32) :
    (ofToken (Decimal.ofInt n.toInt)).value = .int32 n := by
  rw [← Int32.toInt_toInt64, ofToken_ofInt, value, Value.ofInt64, Int32.toInt_toInt64,
    if_pos ⟨n.minValue_le_toInt, n.toInt_le⟩, Int32.ofInt_toInt]

theorem value_ofToken_int64 {n : Int64}
    (h : ¬ (Int32.minValue.toInt ≤ n.toInt ∧ n.toInt ≤ Int32.maxValue.toInt)) :
    (ofToken (Decimal.ofInt n.toInt)).value = .int64 n := by
  rw [ofToken_ofInt, value, Value.ofInt64, if_neg h]

end Literal

end DocumentStore
