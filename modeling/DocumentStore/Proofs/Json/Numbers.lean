import DocumentStore.Json.Reader
import DocumentStore.Proofs.Literal

/-!
# JSON integers read back

An integer of 64 bits, signed or unsigned, is read from its digits as that integer.
-/

namespace DocumentStore

namespace Decimal

/-- The characters of the canonical text of an integer. -/
def IsMark (c : Char) : Prop := c = '-' ∨ c.isDigit = true

theorem isMark_of_mem_ofInt {n : Int} {c : Char} (h : c ∈ ofInt n) : IsMark c := by
  rw [ofInt] at h
  split at h
  · exact (List.mem_cons.1 h).imp_right isDigit_of_mem_ofNat
  · exact .inr (isDigit_of_mem_ofNat h)

theorem IsMark.ne {c d : Char} (h : IsMark c) (hsign : d ≠ '-') (hdigit : d.isDigit = false) :
    c ≠ d := by
  rintro rfl
  exact h.elim hsign fun h => Bool.false_ne_true (hdigit.symm.trans h)

end Decimal

namespace Json

/-- The integers of 64 bits, signed or unsigned. -/
def IsWide (n : Int) : Prop := Int64.minValue.toInt ≤ n ∧ n < UInt64.size

theorem isNumberChar_of_mem_ofInt {n : Int} {c : Char} (h : c ∈ Decimal.ofInt n) :
    isNumberChar c = true := by
  rcases Decimal.isMark_of_mem_ofInt h with rfl | hdigit
  · rfl
  · simp [isNumberChar, hdigit]

theorem isPlain_ofInt (n : Int) :
    isPlain (Decimal.ofInt n) ⟨decide (n < 0), Decimal.ofNat n.natAbs, [], 0⟩ = true := by
  have hsign : (Decimal.ofInt n).head? ≠ some '+' := fun h =>
    (Decimal.isMark_of_mem_ofInt (List.mem_of_mem_head? h)).ne (by decide) rfl rfl
  have hpoint : '.' ∉ Decimal.ofInt n := fun h =>
    (Decimal.isMark_of_mem_ofInt h).ne (by decide) rfl rfl
  have hwhole : Decimal.ofNat n.natAbs = ['0'] ∨
      (Decimal.ofNat n.natAbs).head?.any (· != '0') = true := by
    rcases Nat.eq_zero_or_pos n.natAbs with hzero | hpos
    · exact .inl (by rw [hzero]; rfl)
    · exact .inr (Decimal.head?_ofNat hpos)
  simp [isPlain, hsign, hpoint, hwhole]

theorem any_fractionMark_ofInt (n : Int) :
    (Decimal.ofInt n).any (fun c => c == '.' || c == 'e' || c == 'E') = false := by
  refine List.any_eq_false.2 fun c hc => ?_
  have hmark := Decimal.isMark_of_mem_ofInt hc
  simp [hmark.ne (d := '.') (by decide) rfl, hmark.ne (d := 'e') (by decide) rfl,
    hmark.ne (d := 'E') (by decide) rfl]

theorem number?_ofInt {n : Int} (h : IsWide n) : number? (Decimal.ofInt n) = some (.int n) := by
  obtain ⟨hlow, hhigh⟩ := h
  have hmin : Int64.minValue.toInt = -9223372036854775808 := rfl
  have hsize : ¬ significandBound ≤ n.natAbs := by
    rw [significandBound]
    change n < 18446744073709551616 at hhigh
    change ¬ 18446744073709551616 ≤ n.natAbs
    omega
  simp only [number?, Numeral.read?_ofInt, Option.filter_some, isPlain_ofInt, if_true,
    Option.bind_eq_bind, Option.bind_some, any_fractionMark_ofInt, Decimal.ofDigits_ofNat, hsize,
    decide_false, Bool.or_false, Bool.false_eq_true, if_false]
  by_cases hneg : n < 0
  · have hne : n.natAbs ≠ 0 := by omega
    have hvalue : -(n.natAbs : Int) = n := by omega
    simp only [hneg, decide_true, if_true, hne, if_false, hvalue, hlow]
    rfl
  · have hvalue : (n.natAbs : Int) = n := by omega
    simp only [hneg, decide_false, Bool.false_eq_true, if_false, hvalue]
    rfl

end Json

end DocumentStore
