import DocumentStore.Text.Blank
import Mathlib.Data.List.Induction

/-!
# Pieces of a cut text

A text is cut like any other list, so the pieces obey the laws that the library has for lists.  No
character that cuts is left in a piece.
-/

namespace DocumentStore.Text

variable {cut : Char → Bool} {cs piece front : List Char} {c : Char}

theorem splitWhere_eq_splitOnP (cut : Char → Bool) (cs : List Char) :
    splitWhere cut cs = cs.splitOnP cut := by
  induction cs with
  | nil => rfl
  | cons c cs ih =>
      rw [splitWhere, List.splitOnP_cons_eq_if_modifyHead, ih]
      by_cases hc : cut c = true
      · rw [if_pos hc, if_pos hc]
      · rw [if_neg hc, if_neg hc]
        cases hpieces : cs.splitOnP cut with
        | nil => exact absurd hpieces (List.splitOnP_ne_nil cut cs)
        | cons piece pieces => rfl

theorem splitOn_eq_splitOn (separator : Char) (cs : List Char) :
    splitOn separator cs = cs.splitOn separator := by
  rw [splitOn, splitWhere_eq_splitOnP, List.splitOn_eq_splitOnP]

theorem splitWhere_ne_nil (cut : Char → Bool) (cs : List Char) : splitWhere cut cs ≠ [] := by
  rw [splitWhere_eq_splitOnP]
  exact List.splitOnP_ne_nil cut cs

theorem splitWhere_of_none (h : ∀ c ∈ cs, cut c = false) : splitWhere cut cs = [cs] := by
  rw [splitWhere_eq_splitOnP]
  exact List.splitOnP_eq_singleton h

theorem splitWhere_append_cons (hfront : ∀ d ∈ front, cut d = false) (hc : cut c = true)
    (back : List Char) :
    splitWhere cut (front ++ c :: back) = front :: splitWhere cut back := by
  rw [splitWhere_eq_splitOnP, splitWhere_eq_splitOnP]
  exact List.splitOnP_append_cons_of_forall_mem hfront c hc back

theorem eq_of_splitWhere_eq_singleton (h : splitWhere cut cs = [piece]) : piece = cs := by
  induction cs generalizing piece with
  | nil => simpa [splitWhere] using h.symm
  | cons c cs ih =>
      rw [splitWhere] at h
      split at h
      · exact absurd (List.cons.inj h).2 (splitWhere_ne_nil cut cs)
      · cases hs : splitWhere cut cs with
        | nil => exact absurd hs (splitWhere_ne_nil cut cs)
        | cons first pieces =>
            simp only [hs, List.cons.injEq] at h
            obtain ⟨rfl, rfl⟩ := h
            rw [ih hs]

theorem of_mem_splitWhere (hpiece : piece ∈ splitWhere cut cs) (hc : c ∈ piece) :
    c ∈ cs ∧ cut c = false := by
  induction cs generalizing piece with
  | nil =>
      rw [splitWhere, List.mem_singleton] at hpiece
      rw [hpiece] at hc
      cases hc
  | cons d cs ih =>
      rw [splitWhere] at hpiece
      split at hpiece
      · rcases List.mem_cons.1 hpiece with rfl | hrest
        · cases hc
        · exact ⟨List.mem_cons_of_mem d (ih hrest hc).1, (ih hrest hc).2⟩
      · next hd =>
        cases hpieces : splitWhere cut cs with
        | nil => exact absurd hpieces (splitWhere_ne_nil cut cs)
        | cons first pieces =>
            rw [hpieces] at ih hpiece
            rcases List.mem_cons.1 hpiece with rfl | hrest
            · rcases List.mem_cons.1 hc with rfl | hfirst
              · exact ⟨List.mem_cons_self, by simpa using hd⟩
              · have h := ih List.mem_cons_self hfirst
                exact ⟨List.mem_cons_of_mem d h.1, h.2⟩
            · have h := ih (List.mem_cons_of_mem _ hrest) hc
              exact ⟨List.mem_cons_of_mem d h.1, h.2⟩

/-! ## Pieces at a separator -/

theorem splitOn_append_cons (separator : Char) (front back : List Char) :
    splitOn separator (front ++ separator :: back) =
      splitOn separator front ++ splitOn separator back := by
  rw [splitOn_eq_splitOn, splitOn_eq_splitOn, splitOn_eq_splitOn]
  exact List.splitOn_append_cons_self ..

theorem intercalate_splitOn (separator : Char) (cs : List Char) :
    List.intercalate [separator] (splitOn separator cs) = cs := by
  rw [splitOn_eq_splitOn]
  exact List.intercalate_splitOn separator

theorem splitOn_intercalate {separator : Char} {pieces : List (List Char)} (hne : pieces ≠ [])
    (h : ∀ piece ∈ pieces, separator ∉ piece) :
    splitOn separator (List.intercalate [separator] pieces) = pieces := by
  rw [splitOn_eq_splitOn]
  exact List.splitOn_intercalate separator h hne

theorem dropEnd?_eq (c : Char) (cs : List Char) :
    dropEnd? c cs = if cs.getLast? == some c then some cs.dropLast else none := by
  induction cs using List.reverseRecOn with
  | nil => rfl
  | append_singleton front last _ => simp [dropEnd?]

theorem dropEnd?_eq_some_iff {c : Char} {cs front : List Char} :
    dropEnd? c cs = some front ↔ cs = front ++ [c] := by
  rw [dropEnd?]
  constructor
  · intro h
    split at h
    · next d rest heq =>
      split at h
      · next hd =>
        cases h
        rw [← hd, ← List.reverse_cons, ← heq, List.reverse_reverse]
      · cases h
    · cases h
  · rintro rfl
    rw [List.reverse_append, List.reverse_singleton, List.singleton_append]
    dsimp only
    rw [if_pos rfl, List.reverse_reverse]

/-! ## Words -/

theorem of_mem_words (hpiece : piece ∈ words cs) :
    piece ≠ [] ∧ ∀ c ∈ piece, c ∈ cs ∧ isBlank c = false := by
  obtain ⟨hsplit, hne⟩ := List.mem_filter.1 hpiece
  exact ⟨by simpa using hne, fun c hc => of_mem_splitWhere hsplit hc⟩

theorem words_pair {first second : List Char} (hfirst : ∀ c ∈ first, isBlank c = false)
    (hne : first ≠ []) (hsecond : ∀ c ∈ second, isBlank c = false) (hne' : second ≠ []) :
    words (first ++ ' ' :: second) = [first, second] := by
  rw [words, splitWhere_append_cons hfirst (by decide), splitWhere_of_none hsecond]
  simp [hne, hne']

end DocumentStore.Text
