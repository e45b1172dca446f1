import DocumentStore.Number.Numeral

/-!
# Rounded numbers

The number nearest to a quotient lies at or below the infinite one, so no numeral writes a NaN.
A larger quotient has no smaller number nearest to it, and integers keep their order when they
are rounded.
-/

namespace DocumentStore

namespace Binary64

theorem magnitude_ofMagnitude {size : Nat} (negative : Bool) (h : size < signBit) :
    (ofMagnitude negative size).magnitude = size := by
  unfold signBit at h
  cases negative <;> simp [ofMagnitude, magnitude, signBit] <;> omega

theorem isNaN_ofMagnitude {size : Nat} (negative : Bool) (h : size ≤ infiniteMagnitude) :
    (ofMagnitude negative size).isNaN = false := by
  have hsign : size < signBit := Nat.lt_of_le_of_lt h (by decide)
  rw [isNaN, magnitude_ofMagnitude negative hsign]
  exact decide_eq_false (Nat.not_lt.2 h)

theorem divNearest_le {num den bound : Nat} (h : num / den < bound) :
    divNearest num den ≤ bound := by
  unfold divNearest
  dsimp only
  split
  · exact Nat.le_of_lt h
  · split
    · exact h
    · omega

theorem shifted_div_lt {num den scale : Nat} (h : Nat.log2 (num / den) - 52 ≤ scale) :
    num / (den <<< scale) < 2 * hiddenBit := by
  have hbits : num / den < 2 ^ (scale + 53) :=
    Nat.lt_of_lt_of_le Nat.lt_log2_self (Nat.pow_le_pow_right (by decide) (by omega))
  rw [Nat.shiftLeft_eq, ← Nat.div_div_eq_div_mul]
  apply Nat.div_lt_of_lt_mul
  calc num / den < 2 ^ (scale + 53) := hbits
    _ = 2 ^ scale * (2 * hiddenBit) := by rw [Nat.pow_add]; rfl

theorem nearest_le (num den : Nat) : nearest num den ≤ infiniteMagnitude := by
  unfold nearest
  dsimp only
  generalize hscale : max 1 (Nat.log2 ((num <<< 1075) / den) - 52) = scale
  split
  · exact Nat.le_refl _
  · next hfinite =>
    have hrounded : divNearest (num <<< 1075) (den <<< scale) ≤ 2 * hiddenBit :=
      divNearest_le (shifted_div_lt (by omega))
    calc (scale - 1) * hiddenBit + divNearest (num <<< 1075) (den <<< scale)
        ≤ (scale - 1) * hiddenBit + 2 * hiddenBit := Nat.add_le_add_left hrounded _
      _ = (scale - 1 + 2) * hiddenBit := (Nat.add_mul ..).symm
      _ ≤ infiniteMagnitude := Nat.mul_le_mul_right _ (by omega)

theorem isNaN_ofRatio (negative : Bool) (num den : Nat) :
    (ofRatio negative num den).isNaN = false :=
  isNaN_ofMagnitude negative (nearest_le num den)

/-! ## Monotonicity -/

theorem le_divNearest (num den : Nat) : num / den ≤ divNearest num den := by
  unfold divNearest
  dsimp only
  split
  · exact Nat.le_refl _
  · split <;> omega

theorem divNearest_mono {num num' : Nat} (den : Nat) (h : num ≤ num') :
    divNearest num den ≤ divNearest num' den := by
  rcases Nat.lt_or_eq_of_le (Nat.div_le_div_right (c := den) h) with hlt | heq
  · exact Nat.le_trans (divNearest_le hlt) (le_divNearest num' den)
  · -- With one quotient the remainders decide, and they are ordered as the numerators.
    have hrest : num % den ≤ num' % den := by
      have hnum := Nat.div_add_mod num den
      have hnum' := Nat.div_add_mod num' den
      rw [heq] at hnum
      omega
    unfold divNearest
    rw [heq]
    dsimp only
    split
    · exact le_divNearest num' den
    · split <;> split <;> first | omega | (split <;> omega)

/-- A quotient that needs a scale above the least one fills its significand there. -/
theorem hiddenBit_le_shifted_div {num den : Nat} (h : 1 < Nat.log2 (num / den) - 52) :
    hiddenBit ≤ num / (den <<< (Nat.log2 (num / den) - 52)) := by
  have hpos : num / den ≠ 0 := by
    intro hzero
    rw [hzero] at h
    simp at h
  have hpow : 2 ^ (Nat.log2 (num / den) - 52) * hiddenBit = 2 ^ Nat.log2 (num / den) := by
    rw [show hiddenBit = 2 ^ 52 from rfl, ← Nat.pow_add]
    congr 1
    omega
  rw [Nat.shiftLeft_eq, ← Nat.div_div_eq_div_mul, Nat.le_div_iff_mul_le (Nat.two_pow_pos _),
    Nat.mul_comm, hpow]
  exact Nat.log2_self_le hpos

theorem log2_mono {m n : Nat} (h : m ≤ n) : Nat.log2 m ≤ Nat.log2 n := by
  by_cases hm : m = 0
  · simp [hm]
  · exact (Nat.le_log2 (by omega)).2 (Nat.le_trans (Nat.log2_self_le hm) h)

theorem nearest_mono {num num' : Nat} (den : Nat) (h : num ≤ num') :
    nearest num den ≤ nearest num' den := by
  have hshift : num <<< 1075 ≤ num' <<< 1075 := by
    rw [Nat.shiftLeft_eq, Nat.shiftLeft_eq]
    exact Nat.mul_le_mul_right _ h
  have hlog := log2_mono (Nat.div_le_div_right (c := den) hshift)
  have hbound := nearest_le num den
  unfold nearest at hbound ⊢
  dsimp only at hbound ⊢
  generalize hscale : max 1 (Nat.log2 ((num <<< 1075) / den) - 52) = scale at hbound ⊢
  generalize hscale' : max 1 (Nat.log2 ((num' <<< 1075) / den) - 52) = scale'
  split
  · exact Nat.le_of_eq (if_pos (by omega)).symm
  · next hfinite =>
    split
    · rwa [if_neg hfinite] at hbound
    · rcases Nat.lt_or_eq_of_le (show scale ≤ scale' by omega) with hlt | rfl
      · -- The larger number has a full significand, the smaller at most twice as much.
        have hbelow : divNearest (num <<< 1075) (den <<< scale) ≤ 2 * hiddenBit :=
          divNearest_le (shifted_div_lt (by omega))
        have hbits : Nat.log2 ((num' <<< 1075) / den) - 52 = scale' := by omega
        have habove : hiddenBit ≤ (num' <<< 1075) / (den <<< scale') := by
          have hfull := @hiddenBit_le_shifted_div (num' <<< 1075) den (by omega)
          rwa [hbits] at hfull
        calc (scale - 1) * hiddenBit + divNearest (num <<< 1075) (den <<< scale)
            ≤ (scale - 1) * hiddenBit + 2 * hiddenBit := Nat.add_le_add_left hbelow _
          _ = (scale - 1 + 2) * hiddenBit := (Nat.add_mul ..).symm
          _ ≤ (scale' - 1 + 1) * hiddenBit := Nat.mul_le_mul_right _ (by omega)
          _ = (scale' - 1) * hiddenBit + hiddenBit := by rw [Nat.add_mul, Nat.one_mul]
          _ ≤ (scale' - 1) * hiddenBit + divNearest (num' <<< 1075) (den <<< scale') :=
            Nat.add_le_add_left (Nat.le_trans habove (le_divNearest _ _)) _
      · exact Nat.add_le_add_left (divNearest_mono _ hshift) _

/-! ## Integers -/

theorem isNaN_ofInt (n : Int) : (ofInt n).isNaN = false := isNaN_ofRatio _ _ _

theorem negative_ofMagnitude {size : Nat} (sign : Bool) (h : size < signBit) :
    (ofMagnitude sign size).negative = sign := by
  unfold signBit at h
  cases sign <;> simp [ofMagnitude, negative, signBit] <;> omega

theorem key_ofInt (n : Int) :
    (ofInt n).key = if n < 0 then -(nearest n.natAbs 1 : Int) else nearest n.natAbs 1 := by
  have hsize : nearest n.natAbs 1 < signBit := Nat.lt_of_le_of_lt (nearest_le _ _) (by decide)
  rw [key, ofInt, ofRatio, negative_ofMagnitude _ hsize, magnitude_ofMagnitude _ hsize]
  simp

/-- Rounding keeps the order of integers, though it may bring two together. -/
theorem key_ofInt_mono {m n : Int} (h : m ≤ n) : (ofInt m).key ≤ (ofInt n).key := by
  rw [key_ofInt, key_ofInt]
  split
  · split
    · have hsize : nearest n.natAbs 1 ≤ nearest m.natAbs 1 := nearest_mono 1 (by omega)
      omega
    · omega
  · rw [if_neg (by omega)]
    have hsize : nearest m.natAbs 1 ≤ nearest n.natAbs 1 := nearest_mono 1 (by omega)
    omega

end Binary64

theorem Numeral.isNaN_value (numeral : Numeral) : numeral.value.isNaN = false := by
  rw [value, nearest]
  split
  · exact Binary64.isNaN_ofMagnitude _ (Nat.zero_le _)
  · split
    · exact Binary64.isNaN_ofMagnitude _ (Nat.le_refl _)
    · split
      · exact Binary64.isNaN_ofRatio _ _ _
      · exact Binary64.isNaN_ofRatio _ _ _

end DocumentStore
