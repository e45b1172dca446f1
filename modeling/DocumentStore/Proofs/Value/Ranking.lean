import DocumentStore.Proofs.Number.Rounding
import DocumentStore.Value.Comparand
import Mathlib.Tactic.ByContra

/-!
# The ranking of comparands

Ranking compares every two values the same way from both sides.  It is transitive for three
values unless a double blurs the other two: a NaN ranks equal with every number, and a double with
all integers that it is the nearest double to.
-/

namespace DocumentStore

theorem Binary64.compare?_swap (x y : Binary64) :
    y.compare? x = (x.compare? y).map Ordering.swap := by
  rw [compare?, compare?, Bool.or_comm]
  split
  · rfl
  · exact congrArg some Std.OrientedOrd.eq_swap

namespace Comparand

def roundTo (x : Binary64) : Comparand → Comparand → Bool
  | int m, int n => (Binary64.ofInt m).equal x && (Binary64.ofInt n).equal x
  | _, _ => false

/-- A double ranks equal with two numbers that rank apart. -/
def blurs (a c : Comparand) : Comparand → Bool
  | double x => a.kindRank == 1 && c.kindRank == 1 && a.ranking c != .eq &&
      (x.isNaN || roundTo x a c)
  | _ => false

/-! ## The ranking from the other side -/

theorem order?_swap (a b : Comparand) : b.order? a = (a.order? b).map Ordering.swap := by
  cases a with
  | bool | text | objectId | dateTime =>
      cases b with
      | bool | text | objectId | dateTime =>
          first | rfl | exact congrArg some Std.OrientedOrd.eq_swap
      | _ => rfl
  | int m =>
      cases b with
      | int n => exact congrArg some Std.OrientedOrd.eq_swap
      | double y => exact Binary64.compare?_swap _ y
      | _ => rfl
  | double x =>
      cases b with
      | int n => exact Binary64.compare?_swap x _
      | double y => exact Binary64.compare?_swap x y
      | _ => rfl
  | null | list | document => cases b <;> rfl

theorem ranking_swap (a b : Comparand) : b.ranking a = (a.ranking b).swap := by
  have hkind : compare b.kindRank a.kindRank = (compare a.kindRank b.kindRank).swap :=
    Std.OrientedOrd.eq_swap
  rw [ranking, ranking, order?_swap a b, Ordering.swap_then, hkind]
  cases a.order? b <;> rfl

theorem ranking_self (a : Comparand) : a.ranking a = .eq := by
  have h := ranking_swap a a
  cases hself : a.ranking a with
  | eq => rfl
  | lt | gt => rw [hself] at h; cases h

/-! ## Numbers -/

theorem isNumber_cases {a : Comparand} (h : a.kindRank = 1) :
    (∃ n, a = int n) ∨ ∃ x, a = double x := by
  cases a with
  | int n => exact .inl ⟨n, rfl⟩
  | double x => exact .inr ⟨x, rfl⟩
  | _ => cases h

def rounded : Comparand → Binary64
  | int n => .ofInt n
  | double x => x
  | _ => .nan

theorem ranking_of_nan {x : Binary64} (hx : x.isNaN = true) {a : Comparand}
    (ha : a.kindRank = 1) : (double x).ranking a = .eq := by
  rcases isNumber_cases ha with ⟨n, rfl⟩ | ⟨y, rfl⟩ <;>
    simp [ranking, kindRank, order?, Binary64.compare?, hx]

theorem getD_compare? {x y : Binary64} (hx : x.isNaN = false) (hy : y.isNaN = false) :
    (x.compare? y).getD .eq = compare x.key y.key := by
  simp [Binary64.compare?, hx, hy]

theorem ranking_of_rounded {n : Int} {x : Binary64} (h : (Binary64.ofInt n).equal x = true) :
    (int n).ranking (double x) = .eq := by
  have hsame : (Binary64.ofInt n).compare? x = some .eq := by simpa [Binary64.equal] using h
  simp [ranking, kindRank, order?, hsame]

theorem isLE_ranking_int {m n : Int} : ((int m).ranking (int n)).isLE = true ↔ m ≤ n :=
  Int.isLE_compare

/-- Numbers other than NaN rank as the doubles that they round to, and integers that round to
the same one rank as integers. -/
theorem isLE_ranking_of_number {a b : Comparand} (ha : a.kindRank = 1) (hb : b.kindRank = 1)
    (hanan : a.rounded.isNaN = false) (hbnan : b.rounded.isNaN = false) :
    (a.ranking b).isLE = true ↔ a.rounded.key < b.rounded.key ∨
      a.rounded.key = b.rounded.key ∧ ∀ m n, a = int m → b = int n → m ≤ n := by
  have hcompare (hkeys : a.ranking b = compare a.rounded.key b.rounded.key)
      (hdouble : ∀ m n, a = int m → b ≠ int n) : (a.ranking b).isLE = true ↔
        a.rounded.key < b.rounded.key ∨
          a.rounded.key = b.rounded.key ∧ ∀ m n, a = int m → b = int n → m ≤ n := by
    have hvacuous : ∀ m n, a = int m → b = int n → m ≤ n :=
      fun m n hm hn => absurd hn (hdouble m n hm)
    rw [hkeys, Int.isLE_compare, and_iff_left hvacuous]
    omega
  rcases isNumber_cases ha with ⟨m, rfl⟩ | ⟨x, rfl⟩
  · rcases isNumber_cases hb with ⟨n, rfl⟩ | ⟨y, rfl⟩
    · have hup := @Binary64.key_ofInt_mono m n
      have hdown := @Binary64.key_ofInt_mono n m
      simp only [isLE_ranking_int, rounded, int.injEq]
      constructor
      · intro hle
        rcases Int.lt_or_eq_of_le (hup hle) with hlt | heq
        · exact .inl hlt
        · exact .inr ⟨heq, by rintro _ _ rfl rfl; exact hle⟩
      · rintro (hlt | ⟨-, hle⟩)
        · by_contra hnot
          have hback := hdown (by omega)
          omega
        · exact hle m n rfl rfl
    · exact hcompare (getD_compare? hanan hbnan) nofun
  · rcases isNumber_cases hb with ⟨n, rfl⟩ | ⟨y, rfl⟩
    · exact hcompare (getD_compare? hanan hbnan) nofun
    · exact hcompare (getD_compare? hanan hbnan) nofun

theorem rounded_nan {a : Comparand} (ha : a.kindRank = 1) (hnan : a.rounded.isNaN = true) :
    ∃ x, a = double x ∧ x.isNaN = true := by
  rcases isNumber_cases ha with ⟨n, rfl⟩ | ⟨x, rfl⟩
  · rw [rounded, Binary64.isNaN_ofInt] at hnan
    cases hnan
  · exact ⟨x, rfl, hnan⟩

theorem equal_of_key {x y : Binary64} (hx : x.isNaN = false) (hy : y.isNaN = false)
    (hkey : x.key = y.key) : x.equal y = true := by
  simp [Binary64.equal, Binary64.compare?, hx, hy, hkey]

theorem isLE_trans_of_number {a b c : Comparand} (ha : a.kindRank = 1) (hb : b.kindRank = 1)
    (hc : c.kindRank = 1) (hclear : blurs a c b = false) (hab : (a.ranking b).isLE = true)
    (hbc : (b.ranking c).isLE = true) : (a.ranking c).isLE = true := by
  by_contra hac
  have hapart : a.ranking c ≠ .eq := by
    intro heq
    rw [heq] at hac
    exact hac rfl
  have hanan : a.rounded.isNaN = false := by
    by_contra hnan
    obtain ⟨x, rfl, hx⟩ := rounded_nan ha (Bool.not_eq_false _ ▸ hnan)
    exact hapart (ranking_of_nan hx hc)
  have hcnan : c.rounded.isNaN = false := by
    by_contra hnan
    obtain ⟨x, rfl, hx⟩ := rounded_nan hc (Bool.not_eq_false _ ▸ hnan)
    rw [ranking_swap, ranking_of_nan hx ha] at hapart
    exact hapart rfl
  have hbnan : b.rounded.isNaN = false := by
    by_contra hnan
    obtain ⟨x, rfl, hx⟩ := rounded_nan hb (Bool.not_eq_false _ ▸ hnan)
    have hblurs : blurs a c (double x) = true := by simp [blurs, ha, hc, hapart, hx]
    rw [hclear] at hblurs
    cases hblurs
  have hkeyab := (isLE_ranking_of_number ha hb hanan hbnan).1 hab
  have hkeybc := (isLE_ranking_of_number hb hc hbnan hcnan).1 hbc
  -- Only integers on both sides that round to one double are left to be out of order.
  refine hac ((isLE_ranking_of_number ha hc hanan hcnan).2 ?_)
  rcases Int.lt_or_le a.rounded.key c.rounded.key with hlt | hge
  · exact .inl hlt
  · refine .inr ⟨by omega, ?_⟩
    rintro m n rfl rfl
    rcases isNumber_cases hb with ⟨k, rfl⟩ | ⟨y, rfl⟩
    · exact Int.le_trans (isLE_ranking_int.1 hab) (isLE_ranking_int.1 hbc)
    · by_contra hmn
      have hkeys : (Binary64.ofInt m).key = y.key ∧ (Binary64.ofInt n).key = y.key := by
        have hmono := @Binary64.key_ofInt_mono n m (by omega)
        simp only [rounded] at hge hkeyab hkeybc
        omega
      have hm := equal_of_key hanan hbnan hkeys.1
      have hn := equal_of_key hcnan hbnan hkeys.2
      have hblurs : blurs (int m) (int n) (double y) = true := by
        simp only [rounded] at hm hn
        simp [blurs, roundTo, kindRank, hapart, hm, hn]
      rw [hclear] at hblurs
      cases hblurs

/-! ## Three values -/

theorem isLE_ranking_iff {a b : Comparand} : (a.ranking b).isLE = true ↔
    a.kindRank < b.kindRank ∨
      a.kindRank = b.kindRank ∧ ((a.order? b).getD .eq).isLE = true := by
  rw [ranking, Ordering.isLE_then_iff_or, Nat.compare_eq_lt, Nat.compare_eq_eq]

theorem isLE_order?_trans {a b c : Comparand} (hab : a.kindRank = b.kindRank)
    (hbc : b.kindRank = c.kindRank) (hnumber : a.kindRank ≠ 1)
    (hfirst : ((a.order? b).getD .eq).isLE = true)
    (hsecond : ((b.order? c).getD .eq).isLE = true) : ((a.order? c).getD .eq).isLE = true := by
  cases a with
  | null | list | document => cases c <;> rfl
  | int | double => exact absurd rfl hnumber
  | bool x =>
      cases b with
      | bool y =>
          cases c with
          | bool z => exact Std.TransOrd.isLE_trans hfirst hsecond
          | _ => cases hbc
      | _ => cases hab
  | text x =>
      cases b with
      | text y =>
          cases c with
          | text z => exact Std.TransOrd.isLE_trans hfirst hsecond
          | _ => cases hbc
      | _ => cases hab
  | objectId x =>
      cases b with
      | objectId y =>
          cases c with
          | objectId z => exact Std.TransOrd.isLE_trans hfirst hsecond
          | _ => cases hbc
      | _ => cases hab
  | dateTime x =>
      cases b with
      | dateTime y =>
          cases c with
          | dateTime z => exact Std.TransOrd.isLE_trans hfirst hsecond
          | _ => cases hbc
      | _ => cases hab

/-- The ranking goes on past a value that does not blur the others. -/
theorem isLE_ranking_trans {a b c : Comparand} (hclear : blurs a c b = false)
    (hab : (a.ranking b).isLE = true) (hbc : (b.ranking c).isLE = true) :
    (a.ranking c).isLE = true := by
  have hkindab := isLE_ranking_iff.1 hab
  have hkindbc := isLE_ranking_iff.1 hbc
  rcases hkindab with hlt | ⟨heq, hfirst⟩
  · exact isLE_ranking_iff.2 (.inl (by omega))
  · rcases hkindbc with hlt | ⟨heq', hsecond⟩
    · exact isLE_ranking_iff.2 (.inl (by omega))
    · by_cases hnumber : a.kindRank = 1
      · exact isLE_trans_of_number hnumber (by omega) (by omega) hclear hab hbc
      · exact isLE_ranking_iff.2
          (.inr ⟨by omega, isLE_order?_trans heq heq' hnumber hfirst hsecond⟩)

theorem blurs_comm (a b c : Comparand) : blurs c a b = blurs a c b := by
  have hround (x : Binary64) : roundTo x c a = roundTo x a c := by
    cases a <;> cases c <;> simp [roundTo, Bool.and_comm]
  have hrank : (c.ranking a != .eq) = (a.ranking c != .eq) := by
    rw [ranking_swap a c]
    cases a.ranking c <;> rfl
  cases b with
  | double x => rw [blurs, blurs, hround, hrank, Bool.and_comm (c.kindRank == 1)]
  | _ => rfl

/-- A value that blurs two others ranks equal with both, and they rank apart. -/
theorem ranking_of_blurs {a b c : Comparand} (h : blurs a c b = true) :
    a.ranking b = .eq ∧ b.ranking c = .eq ∧ a.ranking c ≠ .eq := by
  cases b with
  | double x =>
      simp only [blurs, Bool.and_eq_true, beq_iff_eq, bne_iff_ne, Bool.or_eq_true] at h
      obtain ⟨⟨⟨ha, hc⟩, hapart⟩, hnan | hround⟩ := h
      · rw [ranking_swap (double x) a, ranking_of_nan hnan ha, ranking_of_nan hnan hc]
        exact ⟨rfl, rfl, hapart⟩
      · cases a with
        | int m =>
            cases c with
            | int n =>
                rw [roundTo, Bool.and_eq_true] at hround
                rw [ranking_swap (int n) (double x), ranking_of_rounded hround.1,
                  ranking_of_rounded hround.2]
                exact ⟨rfl, rfl, hapart⟩
            | _ => cases hround
        | _ => cases hround
  | _ => cases h

end Comparand

end DocumentStore
