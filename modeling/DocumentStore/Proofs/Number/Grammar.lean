import DocumentStore.Number.Numeral
import Mathlib.Data.List.Basic
import Mathlib.Data.List.TakeWhile

/-!
# The grammar of numerals

A numeral is spelled as an optional sign, digits around an optional point, and an optional
exponent.  The reading accepts just these texts and finds the parts that they were put together
from.
-/

namespace DocumentStore.Numeral

/-! ## Grammar -/

structure IsDigits (cs : List Char) : Prop where
  nonempty : cs ≠ []
  digits : ∀ c ∈ cs, c.isDigit = true

/-- A sign, which may be missing, and whether it is a minus. -/
inductive Sign : List Char → Bool → Prop
  | missing : Sign [] false
  | plus : Sign ['+'] false
  | minus : Sign ['-'] true

/-- Digits before and behind a point. -/
inductive Significand : List Char → List Char → List Char → Prop
  | whole {whole : List Char} (h : IsDigits whole) : Significand whole whole []
  | point {whole fraction : List Char} (hwhole : IsDigits whole)
      (hfraction : ∀ c ∈ fraction, c.isDigit = true) :
      Significand (whole ++ '.' :: fraction) whole fraction
  | fraction {fraction : List Char} (h : IsDigits fraction) :
      Significand ('.' :: fraction) [] fraction

/-- A power of ten, which may be missing. -/
inductive Exponent : List Char → Int → Prop
  | missing : Exponent [] 0
  | marked {mark : Char} {sign digits : List Char} {negative : Bool}
      (hmark : mark = 'e' ∨ mark = 'E') (hsign : Sign sign negative) (h : IsDigits digits) :
      Exponent (mark :: (sign ++ digits))
        (if negative then -(Decimal.ofDigits digits : Int) else Decimal.ofDigits digits)

/-- The text of a numeral, part by part. -/
inductive Spelling : List Char → Numeral → Prop
  | intro {sign significand rest whole fraction : List Char} {negative : Bool} {exponent : Int}
      (hsign : Sign sign negative) (hsignificand : Significand significand whole fraction)
      (hexponent : Exponent rest exponent) :
      Spelling (sign ++ (significand ++ rest)) ⟨negative, whole, fraction, exponent⟩

/-! ## Parts that are read -/

variable {cs rest digits sign whole fraction significand : List Char} {negative : Bool}
  {exponent : Int}

theorem exists_sign (cs : List Char) :
    ∃ sign, Sign sign (takeSign cs).1 ∧ cs = sign ++ (takeSign cs).2 := by
  unfold takeSign
  split
  · exact ⟨['+'], .plus, rfl⟩
  · exact ⟨['-'], .minus, rfl⟩
  · exact ⟨[], .missing, rfl⟩

theorem takeSign_append (h : Sign sign negative)
    (hrest : ∀ c, rest.head? = some c → c ≠ '+' ∧ c ≠ '-') :
    takeSign (sign ++ rest) = (negative, rest) := by
  cases h with
  | plus | minus => rfl
  | missing =>
      cases rest with
      | nil => rfl
      | cons c rest =>
          obtain ⟨hplus, hminus⟩ := hrest c rfl
          simp [takeSign, hplus, hminus]

theorem append_takeDigits (cs : List Char) : (takeDigits cs).1 ++ (takeDigits cs).2 = cs :=
  List.takeWhile_append_dropWhile

theorem isDigit_of_mem_takeDigits {c : Char} (h : c ∈ (takeDigits cs).1) : c.isDigit = true :=
  List.mem_takeWhile_imp h

theorem span_append {p : Char → Bool} {front : List Char} (h : ∀ c ∈ front, p c = true)
    (hrest : ∀ c, rest.head? = some c → p c = false) :
    (front ++ rest).takeWhile p = front ∧ (front ++ rest).dropWhile p = rest := by
  rw [List.takeWhile_append_of_pos h, List.dropWhile_append_of_pos h]
  cases rest with
  | nil => exact ⟨List.append_nil _, rfl⟩
  | cons c rest =>
      have hc : ¬ p c = true := by simp [hrest c rfl]
      rw [List.takeWhile_cons_of_neg hc, List.dropWhile_cons_of_neg hc, List.append_nil]
      exact ⟨rfl, rfl⟩

theorem takeDigits_append (h : ∀ c ∈ digits, c.isDigit = true)
    (hrest : ∀ c, rest.head? = some c → c.isDigit = false) :
    takeDigits (digits ++ rest) = (digits, rest) := by
  obtain ⟨htake, hdrop⟩ := span_append h hrest
  rw [takeDigits, htake, hdrop]

theorem takeDigits_of_isDigits (h : IsDigits digits) : takeDigits digits = (digits, []) := by
  have hall : takeDigits (digits ++ []) = (digits, []) := takeDigits_append h.digits nofun
  rwa [List.append_nil] at hall

theorem takeFraction_of_head (h : rest.head? ≠ some '.') : takeFraction rest = ([], rest) := by
  cases rest with
  | nil => rfl
  | cons c rest =>
      have hc : c ≠ '.' := fun heq => h (congrArg some heq)
      simp [takeFraction, hc]

/-! ### Around the point -/

theorem exists_significand
    (h : (takeDigits cs).1 ≠ [] ∨ (takeFraction (takeDigits cs).2).1 ≠ []) :
    ∃ significand, Significand significand (takeDigits cs).1 (takeFraction (takeDigits cs).2).1 ∧
      cs = significand ++ (takeFraction (takeDigits cs).2).2 := by
  have hcs := append_takeDigits cs
  have hwhole : ∀ c ∈ (takeDigits cs).1, c.isDigit = true := fun _ => isDigit_of_mem_takeDigits
  generalize (takeDigits cs).1 = whole at *
  generalize (takeDigits cs).2 = rest at *
  subst hcs
  unfold takeFraction at *
  split at h
  · next behind =>
    have hfraction : ∀ c ∈ (takeDigits behind).1, c.isDigit = true :=
      fun _ => isDigit_of_mem_takeDigits
    have hbehind := append_takeDigits behind
    by_cases hne : whole = []
    · subst hne
      refine ⟨'.' :: (takeDigits behind).1, .fraction ⟨h.resolve_left (· rfl), hfraction⟩, ?_⟩
      rw [List.nil_append, List.cons_append, hbehind]
    · refine ⟨whole ++ '.' :: (takeDigits behind).1, .point ⟨hne, hwhole⟩ hfraction, ?_⟩
      rw [List.append_assoc, List.cons_append, hbehind]
  · exact ⟨whole, .whole ⟨h.resolve_right (· rfl), hwhole⟩, rfl⟩

theorem takeDigits_significand (h : Significand significand whole fraction)
    (hrest : ∀ c, rest.head? = some c → c.isDigit = false ∧ c ≠ '.') :
    ∃ behind, takeDigits (significand ++ rest) = (whole, behind) ∧
      takeFraction behind = (fraction, rest) := by
  have hdigit : ∀ c, rest.head? = some c → c.isDigit = false := fun c hc => (hrest c hc).1
  cases h with
  | whole h =>
      exact ⟨rest, takeDigits_append h.digits hdigit,
        takeFraction_of_head fun hhead => (hrest '.' hhead).2 rfl⟩
  | point hwhole hfraction =>
      have hpoint : ∀ c, ('.' :: (fraction ++ rest)).head? = some c → c.isDigit = false := by
        rintro _ ⟨rfl⟩
        rfl
      rw [List.append_assoc, List.cons_append]
      exact ⟨'.' :: (fraction ++ rest), takeDigits_append hwhole.digits hpoint,
        takeDigits_append hfraction hdigit⟩
  | fraction h =>
      exact ⟨'.' :: (fraction ++ rest), rfl, takeDigits_append h.digits hdigit⟩

theorem Significand.nonempty (h : Significand significand whole fraction) :
    whole ≠ [] ∨ fraction ≠ [] := by
  cases h with
  | whole h => exact .inl h.nonempty
  | point hwhole _ => exact .inl hwhole.nonempty
  | fraction h => exact .inr h.nonempty

/-! ### The exponent -/

theorem head?_of_isDigits (h : IsDigits digits) {c : Char} (hc : digits.head? = some c) :
    c ≠ '+' ∧ c ≠ '-' := by
  have hdigit := h.digits c (List.mem_of_mem_head? hc)
  constructor
  · rintro rfl
    exact absurd hdigit (by decide)
  · rintro rfl
    exact absurd hdigit (by decide)

theorem exponent_of_readExponent? (h : readExponent? cs = some exponent) :
    Exponent cs exponent := by
  unfold readExponent? at h
  split at h
  · cases h
    exact .missing
  · next mark rest =>
    split at h
    · next hmark =>
      obtain ⟨sign, hsign, hrest⟩ := exists_sign rest
      have hdigits := append_takeDigits (takeSign rest).2
      have hall : ∀ c ∈ (takeDigits (takeSign rest).2).1, c.isDigit = true :=
        fun _ => isDigit_of_mem_takeDigits
      dsimp only at h
      split at h
      · cases h
      · next hfound =>
        have hparts : (takeDigits (takeSign rest).2).1 ≠ [] ∧
            (takeDigits (takeSign rest).2).2 = [] := by simpa using hfound
        rw [hparts.2, List.append_nil] at hdigits
        rw [hrest, ← hdigits, ← Option.some.inj h]
        exact .marked hmark hsign ⟨hparts.1, hall⟩
    · cases h

theorem readExponent?_of_exponent (h : Exponent cs exponent) :
    readExponent? cs = some exponent := by
  cases h with
  | missing => rfl
  | marked hmark hsign h =>
      have hsigned := takeSign_append hsign fun _ => head?_of_isDigits h
      simp only [readExponent?, if_pos hmark, hsigned, takeDigits_of_isDigits h]
      simp [h.nonempty]

theorem head?_of_exponent (h : Exponent cs exponent) {c : Char} (hc : cs.head? = some c) :
    c.isDigit = false ∧ c ≠ '.' := by
  cases h with
  | missing => cases hc
  | marked hmark _ _ =>
      cases hc
      rcases hmark with rfl | rfl <;> decide

/-! ## Numerals that are read -/

theorem head?_of_significand (h : Significand significand whole fraction) (rest : List Char)
    {c : Char} (hc : (significand ++ rest).head? = some c) : c ≠ '+' ∧ c ≠ '-' := by
  have hwhole {back : List Char} (h : IsDigits whole)
      (hc : (whole ++ back).head? = some c) : c ≠ '+' ∧ c ≠ '-' := by
    rw [List.head?_append_of_ne_nil _ h.nonempty] at hc
    exact head?_of_isDigits h hc
  cases h with
  | whole h => exact hwhole h hc
  | point h _ =>
      rw [List.append_assoc] at hc
      exact hwhole h hc
  | fraction _ =>
      cases hc
      decide

theorem read?_eq_some_iff {numeral : Numeral} :
    read? cs = some numeral ↔ Spelling cs numeral := by
  constructor
  · intro h
    obtain ⟨sign, hsign, hcs⟩ := exists_sign cs
    unfold read? at h
    generalize takeSign cs = signed at hsign hcs h
    dsimp only at h
    split at h
    · cases h
    · next hfound =>
      have hparts : (takeDigits signed.2).1 ≠ [] ∨
          (takeFraction (takeDigits signed.2).2).1 ≠ [] := by
        simpa [Classical.or_iff_not_imp_left] using hfound
      obtain ⟨exponent, hexponent, rfl⟩ := Option.map_eq_some_iff.1 h
      obtain ⟨significand, hsignificand, hrest⟩ := exists_significand hparts
      have hspelling := Spelling.intro hsign hsignificand (exponent_of_readExponent? hexponent)
      rwa [← hrest, ← hcs] at hspelling
  · intro h
    cases h with
    | @intro sign significand rest _ _ _ _ hsign hsignificand hexponent =>
        have hsigned := takeSign_append hsign fun _ => head?_of_significand hsignificand rest
        obtain ⟨behind, hdigits, hfraction⟩ :=
          takeDigits_significand hsignificand fun _ => head?_of_exponent hexponent
        have hparts := Classical.or_iff_not_imp_left.1 hsignificand.nonempty
        simp only [read?, hsigned, hdigits, hfraction, readExponent?_of_exponent hexponent]
        simpa using hparts

end DocumentStore.Numeral
