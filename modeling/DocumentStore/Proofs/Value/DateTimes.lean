import DocumentStore.Proofs.Number.Grammar
import DocumentStore.Value.DateTime
import Mathlib.Algebra.Group.Nat.Defs

/-!
# Dates and times read back

A valid date and time is read from its text with all digits of the fraction and an offset of hours
and minutes.
-/

namespace DocumentStore.DateTime

/-! ## Numbers of a fixed width -/

/-- The last digits of a number, with zeros in front. -/
def padded (width n : Nat) : List Char :=
  match width with
  | 0 => []
  | width + 1 => padded width (n / 10) ++ [Nat.digitChar (n % 10)]

theorem length_padded (width n : Nat) : (padded width n).length = width := by
  induction width generalizing n with
  | zero => rfl
  | succ width ih => rw [padded, List.length_append, ih, List.length_singleton]

theorem isDigit_digitChar : ∀ n < 10, (Nat.digitChar n).isDigit = true ∧
    Decimal.digitValue (Nat.digitChar n) = n := by
  decide

theorem isDigit_of_mem_padded {width n : Nat} {c : Char} (h : c ∈ padded width n) :
    c.isDigit = true := by
  induction width generalizing n with
  | zero => cases h
  | succ width ih =>
      rcases List.mem_append.1 h with hfront | hlast
      · exact ih hfront
      · rw [List.mem_singleton.1 hlast]
        exact (isDigit_digitChar _ (Nat.mod_lt n (by decide))).1

theorem ofDigits_padded (width n : Nat) : Decimal.ofDigits (padded width n) = n % 10 ^ width := by
  induction width generalizing n with
  | zero => rw [Nat.pow_zero, Nat.mod_one]; rfl
  | succ width ih =>
      have hsplit : n % 10 ^ (width + 1) = n % 10 + 10 * (n / 10 % 10 ^ width) := by
        rw [Nat.pow_succ', Nat.mod_mul]
      have hlast := (isDigit_digitChar _ (Nat.mod_lt n (by decide))).2
      have hdigits (front : List Char) (c : Char) : Decimal.ofDigits (front ++ [c]) =
          10 * Decimal.ofDigits front + Decimal.digitValue c := List.foldl_append ..
      rw [padded, hdigits, ih, hlast, hsplit, Nat.add_comm]

theorem takeNumber?_padded {width n : Nat} (h : n < 10 ^ width) (rest : List Char) :
    takeNumber? width (padded width n ++ rest) = some (n, rest) := by
  have htake : (padded width n ++ rest).take width = padded width n :=
    List.take_left' (length_padded width n)
  have hdrop : (padded width n ++ rest).drop width = rest := List.drop_left' (length_padded width n)
  have hdigits : (padded width n).all Char.isDigit = true :=
    List.all_eq_true.2 fun _ => isDigit_of_mem_padded
  simp only [takeNumber?, htake, hdrop]
  rw [if_pos ⟨length_padded width n, hdigits⟩, ofDigits_padded, Nat.mod_eq_of_lt h]

/-! ## Texts -/

def offsetText (offset : Int) : List Char :=
  (if offset < 0 then '-' else '+') :: (padded 2 (offset.natAbs / 60) ++
    ':' :: padded 2 (offset.natAbs % 60))

def dateText (t : DateTime) (rest : List Char) : List Char :=
  padded 4 t.year ++ '-' :: (padded 2 t.month ++ '-' :: (padded 2 t.day ++ rest))

def timeText (t : DateTime) (rest : List Char) : List Char :=
  padded 2 t.hour ++ ':' :: (padded 2 t.minute ++ ':' :: (padded 2 t.second ++ rest))

/-- The text with nine digits behind the point and a numeric offset. -/
def text (t : DateTime) : List Char :=
  t.dateText ('T' :: t.timeText ('.' :: (padded 9 t.nanosecond ++ offsetText t.offset)))

theorem readOffset?_offsetText {offset : Int} (h : offset.natAbs < 1440) :
    readOffset? (offsetText offset) = some offset := by
  have hhours : takeNumber? 2 (padded 2 (offset.natAbs / 60) ++
      ':' :: padded 2 (offset.natAbs % 60)) =
      some (offset.natAbs / 60, ':' :: padded 2 (offset.natAbs % 60)) :=
    takeNumber?_padded (by omega) _
  have hminutes : takeNumber? 2 (padded 2 (offset.natAbs % 60)) =
      some (offset.natAbs % 60, []) := by
    have hread := takeNumber?_padded (show offset.natAbs % 60 < 10 ^ 2 by omega) []
    rwa [List.append_nil] at hread
  have hrest : padded 2 (offset.natAbs / 60) ++ ':' :: padded 2 (offset.natAbs % 60) ≠ [] :=
    List.append_ne_nil_of_right_ne_nil _ (List.cons_ne_nil _ _)
  have hfits : ¬ (24 ≤ offset.natAbs / 60 ∨ 60 ≤ offset.natAbs % 60 ∨
      (!([] : List Char).isEmpty) = true) := by
    simp only [List.isEmpty_nil, Bool.not_true, Bool.false_eq_true, or_false]
    omega
  rw [offsetText, readOffset?.eq_3 _ _ (fun _ h => hrest h) (fun _ h => hrest h), hhours]
  simp only [bind, Option.bind, Text.dropStart?, if_true, hminutes, if_neg hfits]
  split
  · next hneg =>
    rw [if_neg (by decide), if_pos rfl]
    exact congrArg some (by omega)
  · next hneg =>
    rw [if_pos rfl]
    exact congrArg some (by omega)

theorem takeNanosecond?_padded {n : Nat} (h : n < 10 ^ 9) {rest : List Char}
    (hrest : ∀ c, rest.head? = some c → c.isDigit = false) :
    takeNanosecond? ('.' :: (padded 9 n ++ rest)) = some (n, rest) := by
  have hdigits : (padded 9 n).isEmpty = false :=
    List.isEmpty_eq_false_iff.2 (List.ne_nil_of_length_eq_add_one (length_padded 9 n))
  have htake : (padded 9 n ++ List.replicate 9 '0').take 9 = padded 9 n :=
    List.take_left' (length_padded 9 n)
  rw [takeNanosecond?, Numeral.takeDigits_append (fun _ => isDigit_of_mem_padded) hrest]
  simp only [hdigits, Bool.false_eq_true, if_false, htake, ofDigits_padded, Nat.mod_eq_of_lt h]

theorem monthLength_le (year month : Nat) : monthLength year month ≤ 31 := by
  rw [monthLength]
  split_ifs <;> omega

theorem head?_offsetText (offset : Int) :
    ∀ c, (offsetText offset).head? = some c → c.isDigit = false := by
  intro c hc
  rw [offsetText, List.head?_cons, Option.some_inj] at hc
  rw [← hc]
  split <;> rfl

/-- A valid date and time has parts of two digits. -/
theorem parts_lt {t : DateTime} (h : t.isValid = true) :
    t.month < 10 ^ 2 ∧ t.day < 10 ^ 2 ∧ t.hour < 10 ^ 2 ∧ t.minute < 10 ^ 2 ∧
      t.second < 10 ^ 2 := by
  have hlength := monthLength_le t.year t.month
  simp only [isValid, Bool.and_eq_true, Bool.or_eq_true, decide_eq_true_eq, beq_iff_eq] at h
  obtain ⟨⟨⟨⟨⟨⟨-, hmonth⟩, -⟩, hday⟩, hhour⟩, hminute⟩, hsecond⟩ := h
  omega

theorem read?_text {t : DateTime} (hvalid : t.isValid = true) (hyear : t.year < 10 ^ 4)
    (hnanosecond : t.nanosecond < 10 ^ 9) (hoffset : t.offset.natAbs < 1440) :
    read? t.text = some t := by
  obtain ⟨hmonth, hday, hhour, hminute, hsecond⟩ := parts_lt hvalid
  simp only [read?, text, dateText, timeText, bind, Option.bind, Text.dropStart?, if_true,
    takeNumber?_padded hyear, takeNumber?_padded hmonth, takeNumber?_padded hday,
    takeNumber?_padded hhour, takeNumber?_padded hminute, takeNumber?_padded hsecond,
    takeNanosecond?_padded hnanosecond (head?_offsetText t.offset), readOffset?_offsetText hoffset]
  have hread : ('T'.toNat < 128 && t.isValid) = true := by rw [hvalid]; rfl
  exact if_pos hread

end DocumentStore.DateTime
