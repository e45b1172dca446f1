import DocumentStore.Number.Decimal128
import DocumentStore.Proofs.Literal
import Mathlib.Algebra.Group.Nat.Defs

/-!
# Decimal numbers read back

A decimal number is read from its text with the same sign, digits and power of ten.  The zeros that
the text puts in front of the digits are dropped again, and the point moves the exponent back.  From
its bytes it is read bit by bit.
-/

namespace DocumentStore.Decimal128

variable {cs digits whole fraction : List Char} {coefficient : Nat} {exponent : Int}

/-! ## Digits -/

theorem cutAt_of_notMem {c : Char} (h : c ∉ cs) : cutAt c cs = (cs, none) := by
  have hall : cs.dropWhile (· != c) = [] :=
    List.dropWhile_eq_nil_iff.2 fun d hd => by
      simp only [bne_iff_ne]
      rintro rfl
      exact h hd
  rw [cutAt, hall]

theorem cutAt_append {c : Char} (h : c ∉ cs) (rest : List Char) :
    cutAt c (cs ++ c :: rest) = (cs, some rest) := by
  have hfront : ∀ d ∈ cs, (d != c) = true := fun d hd => by
    rw [bne_iff_ne]
    rintro rfl
    exact h hd
  have hrest : ∀ d, (c :: rest).head? = some d → (d != c) = false := fun d hd => by
    cases hd
    exact bne_self_eq_false c
  obtain ⟨htake, hdrop⟩ := Numeral.span_append hfront hrest
  rw [cutAt, hdrop, htake]

theorem significant_of_head (h : digits.head?.any (· != '0') = true) :
    significant digits = digits := by
  cases digits with
  | nil => cases h
  | cons c digits =>
      have hc : ¬ (c == '0') = true := by simpa using h
      have hall : (c :: digits).dropWhile (· == '0') = c :: digits := List.dropWhile_cons_of_neg hc
      rw [significant, hall]

theorem significant_zeros (count : Nat) (digits : List Char) :
    significant (List.replicate count '0' ++ digits) = significant digits := by
  rw [significant, List.dropWhile_append_of_pos fun c hc => by
    rw [(List.mem_replicate.1 hc).2]; rfl]
  rfl

theorem significant_ofNat (n : Nat) : significant (Decimal.ofNat n) = Decimal.ofNat n := by
  rcases Nat.eq_zero_or_pos n with rfl | hpos
  · rfl
  · exact significant_of_head (Decimal.head?_ofNat hpos)

theorem keepDigits?_of_length_le {count : Nat} (h : digits.length ≤ count) :
    keepDigits? count digits = some digits := by
  rw [keepDigits?, List.drop_eq_nil_of_le h, List.take_of_length_le h]
  rfl

/-- A coefficient of no more than 34 digits, and a power of ten in its range. -/
structure IsInRange (coefficient : Nat) (exponent : Int) : Prop where
  coefficient : coefficient ≤ greatestCoefficient
  least : leastExponent ≤ exponent
  greatest : exponent ≤ greatestExponent

theorem length_ofNat_le (h : IsInRange coefficient exponent) :
    (Decimal.ofNat coefficient).length ≤ precision :=
  (Nat.length_toDigits_le_iff (by decide) (by decide)).2
    (Nat.lt_succ_of_le (by simpa [greatestCoefficient] using h.coefficient))

theorem fit?_ofNat (h : IsInRange coefficient exponent) :
    fit? (Decimal.ofNat coefficient) exponent = some (Decimal.ofNat coefficient, exponent) := by
  have hlength := length_ofNat_le h
  have hleft : exponent + ((Decimal.ofNat coefficient).length - precision : Nat) = exponent := by
    omega
  have hclamped : max leastExponent (min exponent greatestExponent) = exponent := by
    rw [Int.min_eq_left h.greatest, Int.max_eq_right h.least]
  simp only [fit?, keepDigits?_of_length_le hlength, bind, Option.bind, hleft, hclamped,
    if_neg (Int.not_lt.2 h.least), if_neg (Int.not_lt.2 h.greatest)]
  split
  · next hzero =>
    rw [hzero]
    rfl
  · rfl

/-! ## Reading -/

theorem natural?_ofNat (n : Nat) : natural? (Decimal.ofNat n) = some n := by
  have hdigits : ∀ c ∈ Decimal.ofNat n, c.isDigit = true := fun _ => Decimal.isDigit_of_mem_ofNat
  have hplus : ∀ digits, Decimal.ofNat n = '+' :: digits → False := fun digits heq => by
    cases hdigits '+' (heq ▸ List.mem_cons_self)
  rw [natural?.eq_2 _ hplus, natural?.digitsOnly?, List.all_eq_true.2 hdigits,
    List.isEmpty_eq_false_iff.2 (Decimal.ofNat_ne_nil _), Decimal.ofDigits_ofNat]
  rfl

theorem integer?_zero : Numeral.integer? ['0'] = some 0 := rfl

theorem finite?_eq {mantissa : List Char} {power fraction : Option (List Char)} {shown : Int}
    (hrange : IsInRange coefficient exponent) (hmark : cutAt 'e' cs = (mantissa, power))
    (hpower : Numeral.integer? (power.getD ['0']) = some shown)
    (hpoint : cutAt '.' mantissa = (whole, fraction))
    (hdigits : significant (whole ++ fraction.getD []) = Decimal.ofNat coefficient)
    (hexponent : shown - (fraction.getD []).length = exponent)
    (hbound : (fraction.getD []).length ≤ 10000) :
    finite? cs = some (.finite coefficient exponent) := by
  -- the shown exponent is the one of the number moved by the places behind the point
  have hfits : ¬ (shown < -(1 <<< 127 : Nat) ∨ (1 <<< 127 : Nat) ≤ shown) := by
    have hleast := hrange.least
    have hgreatest := hrange.greatest
    have hsize : 1 <<< 127 = 170141183460469231731687303715884105728 := rfl
    rw [leastExponent] at hleast
    rw [greatestExponent] at hgreatest
    omega
  simp only [finite?, hmark, hpower, hpoint, hdigits, hexponent, fit?_ofNat hrange,
    natural?_ofNat, bind, Option.bind, if_neg hfits]
  rfl

theorem notMem_ofNat {n : Nat} {c : Char} (h : c.isDigit = false) : c ∉ Decimal.ofNat n :=
  fun hc => Bool.false_ne_true (h.symm.trans (Decimal.isDigit_of_mem_ofNat hc))

theorem finite?_digits (hrange : IsInRange coefficient 0) :
    finite? (Decimal.ofNat coefficient) = some (.finite coefficient 0) :=
  finite?_eq hrange (cutAt_of_notMem (notMem_ofNat rfl)) integer?_zero
    (cutAt_of_notMem (notMem_ofNat rfl))
    ((congrArg significant (List.append_nil _)).trans (significant_ofNat coefficient)) rfl
    (Nat.zero_le _)

/-- Zeros stand between the point and the digits. -/
theorem finite?_leading {zeros : Nat}
    (hrange : IsInRange coefficient (-(zeros + (Decimal.ofNat coefficient).length : Nat))) :
    finite? ('0' :: '.' :: List.replicate zeros '0' ++ Decimal.ofNat coefficient) =
      some (.finite coefficient (-(zeros + (Decimal.ofNat coefficient).length : Nat))) := by
  have hzeros {c : Char} (h : c ≠ '0') : c ∉ List.replicate zeros '0' := fun hc =>
    h (List.mem_replicate.1 hc).2
  have hmark : cutAt 'e' ('0' :: '.' :: List.replicate zeros '0' ++ Decimal.ofNat coefficient) =
      ('0' :: '.' :: List.replicate zeros '0' ++ Decimal.ofNat coefficient, none) :=
    cutAt_of_notMem (by simp [hzeros, notMem_ofNat])
  have hpoint : cutAt '.' ('0' :: '.' :: List.replicate zeros '0' ++ Decimal.ofNat coefficient) =
      (['0'], some (List.replicate zeros '0' ++ Decimal.ofNat coefficient)) :=
    cutAt_append (show '.' ∉ ['0'] by decide) _
  have hlow := hrange.least
  rw [leastExponent] at hlow
  refine finite?_eq hrange hmark integer?_zero hpoint ?_ ?_ ?_
  · exact (significant_zeros (zeros + 1) (Decimal.ofNat coefficient)).trans (significant_ofNat _)
  · simp
  · simp
    omega

/-- The point stands between the digits. -/
theorem finite?_inner {places : Nat} (hplaces : places ≤ (Decimal.ofNat coefficient).length)
    (hrange : IsInRange coefficient (-places : Int)) :
    finite? ((Decimal.ofNat coefficient).take ((Decimal.ofNat coefficient).length - places) ++
      '.' :: (Decimal.ofNat coefficient).drop ((Decimal.ofNat coefficient).length - places)) =
      some (.finite coefficient (-places)) := by
  have htake {c : Char} (count : Nat) (h : c.isDigit = false) :
      c ∉ (Decimal.ofNat coefficient).take count := fun hc =>
    notMem_ofNat h (List.mem_of_mem_take hc)
  have hdrop {c : Char} (count : Nat) (h : c.isDigit = false) :
      c ∉ (Decimal.ofNat coefficient).drop count := fun hc =>
    notMem_ofNat h (List.mem_of_mem_drop hc)
  have hlow := hrange.least
  rw [leastExponent] at hlow
  refine finite?_eq hrange (cutAt_of_notMem ?_) integer?_zero (cutAt_append (htake _ rfl) _) ?_ ?_
    ?_
  · simp [htake, hdrop]
  · rw [Option.getD_some, List.take_append_drop, significant_ofNat]
  · simp
    omega
  · simp
    omega

theorem integer?_signed (n : Int) :
    Numeral.integer? ((if 0 < n then ['+'] else []) ++ Decimal.ofInt n) = some n := by
  split
  · next hpos =>
    have htext : Decimal.ofInt n = Decimal.ofNat n.natAbs := if_neg (by omega)
    have hvalue : (n.natAbs : Int) = n := by omega
    have hsign : Numeral.takeSign ('+' :: Decimal.ofNat n.natAbs) =
        (false, Decimal.ofNat n.natAbs) := rfl
    rw [htext, List.singleton_append, Numeral.integer?_of_takeSign hsign, hvalue]
    rfl
  · exact Numeral.integer?_ofInt n

/-- The point stands behind the first digit, and an exponent behind the last. -/
theorem finite?_scientific (hrange : IsInRange coefficient exponent) :
    finite? ((Decimal.ofNat coefficient).take 1 ++
      (if (Decimal.ofNat coefficient).length = 1 then []
        else '.' :: (Decimal.ofNat coefficient).drop 1) ++
      'e' :: ((if 0 < exponent + (Decimal.ofNat coefficient).length - 1 then ['+'] else []) ++
        Decimal.ofInt (exponent + (Decimal.ofNat coefficient).length - 1))) =
      some (.finite coefficient exponent) := by
  have hpower := integer?_signed (exponent + (Decimal.ofNat coefficient).length - 1)
  have hlength := length_ofNat_le hrange
  have htake {c : Char} (h : c.isDigit = false) : c ∉ (Decimal.ofNat coefficient).take 1 :=
    fun hc => notMem_ofNat h (List.mem_of_mem_take hc)
  have hdrop {c : Char} (h : c.isDigit = false) : c ∉ (Decimal.ofNat coefficient).drop 1 :=
    fun hc => notMem_ofNat h (List.mem_of_mem_drop hc)
  split
  · next hone =>
    have hall : (Decimal.ofNat coefficient).take 1 = Decimal.ofNat coefficient :=
      List.take_of_length_le (by omega)
    rw [List.append_nil, hall]
    refine finite?_eq hrange (cutAt_append (notMem_ofNat rfl) _) hpower
      (cutAt_of_notMem (notMem_ofNat rfl)) ?_ ?_ (Nat.zero_le _)
    · exact (congrArg significant (List.append_nil _)).trans (significant_ofNat _)
    · rw [hone]
      simp
  · next hmore =>
    have hmantissa : 'e' ∉ (Decimal.ofNat coefficient).take 1 ++
        '.' :: (Decimal.ofNat coefficient).drop 1 := fun hc =>
      (List.mem_append.1 hc).elim (htake rfl) fun hc =>
        (List.mem_cons.1 hc).elim (by decide) (hdrop rfl)
    have hpositive := List.length_pos_iff.2 (Decimal.ofNat_ne_nil coefficient)
    have hprecision : precision = 34 := rfl
    refine finite?_eq hrange (cutAt_append hmantissa _) hpower (cutAt_append (htake rfl) _) ?_ ?_ ?_
    · rw [Option.getD_some, List.take_append_drop, significant_ofNat]
    · rw [Option.getD_some, List.length_drop]
      omega
    · rw [Option.getD_some, List.length_drop]
      omega

/-! ## Whole texts -/

theorem lower_eq_self (h : ∀ c ∈ cs, c.toNat ≤ 57) : Text.lower cs = cs := by
  rw [Text.lower, List.map_congr_left fun c hc => Text.toLower_of_le (h c hc), List.map_id']

theorem toNat_le_of_mem_ofNat {n : Nat} {c : Char} (h : c ∈ Decimal.ofNat n) : c.toNat ≤ 57 :=
  (Char.isDigit_iff_toNat.1 (Decimal.isDigit_of_mem_ofNat h)).2

/-- Only the mark of the exponent changes its case. -/
theorem lower_scientific {front back : List Char} (hfront : ∀ c ∈ front, c.toNat ≤ 57)
    (hback : ∀ c ∈ back, c.toNat ≤ 57) :
    Text.lower (front ++ 'E' :: back) = front ++ 'e' :: back := by
  have hparts : Text.lower (front ++ 'E' :: back) = Text.lower front ++ 'e' :: Text.lower back := by
    rw [Text.lower, List.map_append]
    rfl
  rw [hparts, lower_eq_self hfront, lower_eq_self hback]

theorem finite?_finiteText (hrange : IsInRange coefficient exponent) :
    finite? (Text.lower (finiteText (Decimal.ofNat coefficient) exponent)) =
      some (.finite coefficient exponent) := by
  have hdigit {c : Char} (hc : c ∈ Decimal.ofNat coefficient) : c.toNat ≤ 57 :=
    toNat_le_of_mem_ofNat hc
  have hpointed (before behind : Nat) : ∀ c ∈ (Decimal.ofNat coefficient).take before ++
      '.' :: (Decimal.ofNat coefficient).drop behind, c.toNat ≤ 57 := by
    intro c hc
    rcases List.mem_append.1 hc with hc | hc
    · exact hdigit (List.mem_of_mem_take hc)
    · rcases List.mem_cons.1 hc with rfl | hc
      · decide
      · exact hdigit (List.mem_of_mem_drop hc)
  rw [finiteText]
  dsimp only
  split
  · next hplain =>
    obtain ⟨places, rfl⟩ : ∃ places : Nat, exponent = -(places : Int) :=
      ⟨(-exponent).toNat, by omega⟩
    rw [Int.neg_neg, Int.toNat_natCast]
    split
    · next hwhole =>
      subst hwhole
      rw [lower_eq_self fun _ => hdigit]
      exact finite?_digits hrange
    · split
      · next hleading =>
        obtain ⟨zeros, rfl⟩ := Nat.exists_eq_add_of_le' hleading
        rw [Nat.add_sub_cancel, lower_eq_self]
        · exact finite?_leading hrange
        · intro c hc
          rcases List.mem_append.1 hc with hc | hc
          · rcases List.mem_cons.1 hc with rfl | hc
            · decide
            · rcases List.mem_cons.1 hc with rfl | hc
              · decide
              · rw [(List.mem_replicate.1 hc).2]
                decide
          · exact hdigit hc
      · next hinner =>
        rw [lower_eq_self]
        · exact finite?_inner (by omega) hrange
        · exact hpointed _ _
  · rw [List.append_assoc, List.cons_append, lower_scientific]
    · exact finite?_scientific hrange
    · split
      · exact fun c hc => hdigit (List.mem_of_mem_take ((List.append_nil _) ▸ hc))
      · exact hpointed _ _
    · intro c hc
      rcases List.mem_append.1 hc with hc | hc
      · split at hc
        · rw [List.mem_singleton.1 hc]
          decide
        · cases hc
      · exact (Decimal.toNat_of_mem_ofInt hc).2

theorem exponentAt_mem_range (x : Decimal128) (low : Nat)
    (h : x.bits.toNat >>> low % 16384 < 12288) :
    leastExponent ≤ x.exponentAt low ∧ x.exponentAt low ≤ greatestExponent := by
  have hvalue : x.exponentAt low = (x.bits.toNat >>> low % 16384 : Nat) + leastExponent := rfl
  rw [hvalue, leastExponent, greatestExponent]
  omega

/-- The five bits below the sign keep the exponent in its range. -/
theorem isInRange_form {x : Decimal128} (h : x.form = .finite coefficient exponent) :
    IsInRange coefficient exponent := by
  have hfar : x.bits.toNat >>> 122 = x.bits.toNat >>> 111 / 2048 := by
    rw [Nat.shiftRight_add _ 111 11, Nat.shiftRight_eq_div_pow _ 11]
  have hnear : x.bits.toNat >>> 122 = x.bits.toNat >>> 113 / 512 := by
    rw [Nat.shiftRight_add _ 113 9, Nat.shiftRight_eq_div_pow _ 9]
  rw [form] at h
  dsimp only at h
  split_ifs at h with hnan hinfinite hlarge hfits
  · obtain ⟨hleast, hgreatest⟩ := exponentAt_mem_range x 111 (by omega)
    cases h
    exact ⟨Nat.zero_le _, hleast, hgreatest⟩
  · obtain ⟨hleast, hgreatest⟩ := exponentAt_mem_range x 113 (by omega)
    cases h
    exact ⟨hfits, hleast, hgreatest⟩
  · obtain ⟨hleast, hgreatest⟩ := exponentAt_mem_range x 113 (by omega)
    cases h
    exact ⟨Nat.zero_le _, hleast, hgreatest⟩

theorem head?_finiteText (coefficient : Nat) (exponent : Int) :
    ∃ c rest, finiteText (Decimal.ofNat coefficient) exponent = c :: rest ∧ c.isDigit = true := by
  obtain ⟨c, digits, hdigits⟩ := List.exists_cons_of_ne_nil (Decimal.ofNat_ne_nil coefficient)
  have hc : c.isDigit = true := Decimal.isDigit_of_mem_ofNat (hdigits ▸ List.mem_cons_self)
  rw [finiteText, hdigits]
  dsimp only
  split
  · split
    · exact ⟨c, digits, rfl, hc⟩
    · split
      · exact ⟨'0', _, rfl, rfl⟩
      · next hinner =>
        obtain ⟨count, hcount⟩ := Nat.exists_eq_succ_of_ne_zero (Nat.sub_ne_zero_of_lt
          (Nat.lt_of_not_le hinner))
        rw [hcount]
        exact ⟨c, _, rfl, hc⟩
  · exact ⟨c, _, rfl, hc⟩

/-- A text that starts with a digit behind its sign is no name. -/
theorem read?_of_isDigit {rest : List Char} {c : Char} {negative : Bool}
    (hsign : Numeral.takeSign cs = (negative, c :: rest)) (hc : c.isDigit = true) :
    read? cs = (finite? (Text.lower (c :: rest))).map (ofForm negative) := by
  have hlower : Text.lower (c :: rest) = c :: Text.lower rest := by
    rw [Text.lower, List.map_cons, Text.toLower_of_le (Char.isDigit_iff_toNat.1 hc).2, Text.lower]
  have hdigit {d : Char} {others : List Char} (heq : Text.lower (c :: rest) = d :: others) :
      d.isDigit = true := (List.cons.inj (hlower.symm.trans heq)).1 ▸ hc
  rw [read?, hsign]
  dsimp only
  split
  · next heq => cases hdigit heq
  · next heq => cases hdigit heq
  · next heq => cases hdigit heq
  · next heq => cases hdigit heq
  · rfl

/-- What is written of a number is read with the same sign, digits and power of ten. -/
theorem read?_text {x : Decimal128} (h : ∀ signalling, x.form ≠ .nan signalling) :
    read? x.text.toList = some (ofForm x.negative x.form) := by
  cases hform : x.form with
  | nan signalling => exact absurd hform (h signalling)
  | infinity =>
      rw [text, hform]
      cases x.negative <;> rfl
  | finite coefficient exponent =>
      obtain ⟨c, rest, htext, hc⟩ := head?_finiteText coefficient exponent
      have hfirst : ∀ d, (c :: rest).head? = some d → d ≠ '+' ∧ d ≠ '-' := by
        intro d hd
        cases hd
        constructor <;> rintro rfl <;> cases hc
      have hsign : Numeral.takeSign x.text.toList = (x.negative, c :: rest) := by
        rw [text, hform]
        dsimp only
        rw [String.toList_append, String.toList_ofList, htext]
        cases x.negative with
        | false => exact Numeral.takeSign_append .missing hfirst
        | true => exact Numeral.takeSign_append .minus hfirst
      rw [read?_of_isDigit hsign hc, ← htext, finite?_finiteText (isInRange_form hform),
        Option.map_some]

/-! ## Bytes -/

theorem foldr_bytes (count n : Nat) :
    ((List.range count).map fun i => UInt8.ofNat (n >>> (8 * i))).foldr
      (fun byte rest => 256 * rest + byte.toNat) 0 = n % 256 ^ count := by
  induction count generalizing n with
  | zero => rw [Nat.pow_zero, Nat.mod_one]; rfl
  | succ count ih =>
      have hshift : ∀ i, n >>> (8 * (i + 1)) = (n / 256) >>> (8 * i) := by
        intro i
        rw [Nat.mul_succ, Nat.add_comm, Nat.shiftRight_add, Nat.shiftRight_eq_div_pow n 8]
      have hbytes : (List.range count).map (fun i => UInt8.ofNat (n >>> (8 * (i + 1)))) =
          (List.range count).map fun i => UInt8.ofNat ((n / 256) >>> (8 * i)) :=
        List.map_congr_left fun i _ => congrArg UInt8.ofNat (hshift i)
      have hfirst : (UInt8.ofNat n).toNat = n % 256 := UInt8.toNat_ofNat'
      have hsplit : n % 256 ^ (count + 1) = n % 256 + 256 * (n / 256 % 256 ^ count) := by
        rw [Nat.pow_succ', Nat.mod_mul]
      rw [List.range_succ_eq_map, List.map_cons, List.map_map, List.foldr_cons]
      change 256 * (((List.range count).map fun i => UInt8.ofNat (n >>> (8 * (i + 1)))).foldr _ 0)
        + (UInt8.ofNat n).toNat = _
      rw [hbytes, ih, hfirst, hsplit, Nat.add_comm]

theorem ofBytes?_bytes (x : Decimal128) : ofBytes? x.bytes = some x := by
  have hlength : x.bytes.length = 16 := by rw [bytes, List.length_map, List.length_range]
  have hbits : x.bits.toNat % 256 ^ 16 = x.bits.toNat := Nat.mod_eq_of_lt x.bits.isLt
  rw [ofBytes?, if_pos hlength, bytes, foldr_bytes, hbits, BitVec.ofNat_toNat, BitVec.setWidth_eq]

end DocumentStore.Decimal128
