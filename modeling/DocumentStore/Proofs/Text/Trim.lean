import DocumentStore.Text.Blank
import Mathlib.Data.List.DropRight
import Mathlib.Data.List.TakeWhile

/-!
# Blanks at the ends of a text

What stands between two ends of blanks decides the trimmed text alone.
-/

namespace DocumentStore.Text

variable {cs : List Char}

theorem trim_append_left {front : List Char} (h : ∀ c ∈ front, isBlank c = true) :
    trim (front ++ cs) = trim cs := by
  rw [trim, trimWhere, trimLeft, List.dropWhile_append_of_pos h]
  rfl

theorem trimRight_append {drop : Char → Bool} {back : List Char}
    (h : ∀ c ∈ back, drop c = true) : trimRight drop (cs ++ back) = trimRight drop cs := by
  have hback : ∀ c ∈ back.reverse, drop c = true := fun c hc => h c (List.mem_reverse.1 hc)
  rw [trimRight, List.reverse_append, List.dropWhile_append_of_pos hback]
  rfl

theorem trim_append_right {back : List Char} (h : ∀ c ∈ back, isBlank c = true) :
    trim (cs ++ back) = trim cs := by
  rw [trim, trim, trimWhere, trimWhere, trimLeft, List.dropWhile_append]
  split
  · next hempty =>
    have hcs : trimLeft isBlank cs = [] := List.isEmpty_iff.1 hempty
    have hback : back.dropWhile isBlank = [] := by
      rw [← List.append_nil back, List.dropWhile_append_of_pos h]
      rfl
    rw [hback, hcs]
  · exact trimRight_append h

theorem trim_eq_nil_iff : trim cs = [] ↔ ∀ c ∈ cs, isBlank c = true := by
  constructor
  · intro h c hc
    rw [trim, trimWhere, trimRight, List.reverse_eq_nil_iff, List.dropWhile_eq_nil_iff] at h
    rw [← List.takeWhile_append_dropWhile (p := isBlank) (l := cs)] at hc
    rcases List.mem_append.1 hc with hfront | hback
    · exact List.mem_takeWhile_imp hfront
    · exact h c (List.mem_reverse.2 hback)
  · intro h
    rw [← List.append_nil cs, trim_append_left h]
    rfl

theorem length_trim_le (cs : List Char) : (trim cs).length ≤ cs.length := by
  have hleft : (trimLeft isBlank cs).length ≤ cs.length :=
    (List.dropWhile_sublist _).length_le
  have hright : (trim cs).length ≤ (trimLeft isBlank cs).length := by
    have hsub := (List.dropWhile_sublist isBlank (l := (trimLeft isBlank cs).reverse)).length_le
    simpa [trim, trimWhere, trimRight] using hsub
  exact Nat.le_trans hright hleft

theorem not_isBlank_of_trim {c : Char} (h : trim (c :: cs) = c :: cs) : isBlank c = false := by
  refine Bool.eq_false_iff.2 fun hblank => ?_
  have hc : ∀ d ∈ [c], isBlank d = true := by simpa using hblank
  have hrest : trim cs = c :: cs := (trim_append_left hc).symm.trans h
  have hlength := length_trim_le cs
  rw [hrest, List.length_cons] at hlength
  omega

theorem trim_eq_self (hfirst : ∀ c ∈ cs.head?, isBlank c = false)
    (hlast : ∀ c ∈ cs.getLast?, isBlank c = false) : trim cs = cs := by
  have hleft : trimLeft isBlank cs = cs := by
    cases cs with
    | nil => rfl
    | cons c cs => exact List.dropWhile_cons_of_neg (by simp [hfirst c rfl])
  rw [trim, trimWhere, hleft, trimRight]
  cases hback : cs.reverse with
  | nil => exact (List.reverse_eq_nil_iff.1 hback).symm
  | cons d ds =>
      have hd : isBlank d = false := by
        apply hlast
        rw [← List.head?_reverse, hback]
        rfl
      rw [List.dropWhile_cons_of_neg (by simp [hd]), ← hback, List.reverse_reverse]

/-! ## The blanks that are cut off -/

/-- A text is its trimmed text with what is cut off in front and behind. -/
theorem takeWhile_append_trimWhere_append (drop : Char → Bool) (cs : List Char) :
    cs.takeWhile drop ++ (trimWhere drop cs ++ (cs.dropWhile drop).rtakeWhile drop) = cs := by
  have hback : trimWhere drop cs ++ (cs.dropWhile drop).rtakeWhile drop = cs.dropWhile drop :=
    List.rdropWhile_append_rtakeWhile
  rw [hback, List.takeWhile_append_dropWhile]

theorem takeWhile_append_trim_append (cs : List Char) :
    cs.takeWhile isBlank ++ (trim cs ++ (cs.dropWhile isBlank).rtakeWhile isBlank) = cs :=
  takeWhile_append_trimWhere_append isBlank cs

theorem isBlank_head?_trim : ∀ c ∈ (trim cs).head?, isBlank c = false := by
  intro c hc
  obtain ⟨back, hback⟩ : trim cs <+: cs.dropWhile isBlank :=
    List.rdropWhile_prefix isBlank _
  have hhead := List.head?_dropWhile_not isBlank cs
  rw [← hback, List.head?_append, Option.mem_def.1 hc] at hhead
  simpa using hhead

theorem isBlank_getLast?_trim : ∀ c ∈ (trim cs).getLast?, isBlank c = false := by
  intro c hc
  obtain ⟨hne, rfl⟩ := List.mem_getLast?_eq_getLast hc
  exact Bool.eq_false_iff.2 (List.rdropWhile_last_not isBlank (cs.dropWhile isBlank) hne)

theorem find?_of_isBlank (h : ∀ c ∈ cs, isBlank c = true) : cs.find? (!isBlank ·) = none :=
  List.find?_eq_none.2 fun c hc => by simp [h c hc]

theorem head?_trim (cs : List Char) : (trim cs).head? = cs.find? (!isBlank ·) := by
  have hparts := takeWhile_append_trim_append cs
  have hfront : ∀ c ∈ cs.takeWhile isBlank, isBlank c = true := fun _ => List.mem_takeWhile_imp
  have hback : ∀ c ∈ (cs.dropWhile isBlank).rtakeWhile isBlank, isBlank c = true :=
    fun _ => List.mem_rtakeWhile_imp
  have hfind : cs.find? (!isBlank ·) = (trim cs).find? (!isBlank ·) := by
    rw [← hparts, List.find?_append, List.find?_append, find?_of_isBlank hfront,
      find?_of_isBlank hback, hparts, Option.none_or, Option.or_none]
  rw [hfind]
  cases htrim : trim cs with
  | nil => rfl
  | cons c rest =>
      have hc : isBlank c = false := isBlank_head?_trim c (by rw [htrim]; rfl)
      rw [List.find?_cons_of_pos (by simp [hc]), List.head?_cons]

end DocumentStore.Text
