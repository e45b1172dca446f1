import DocumentStore.Failure
import Mathlib.Data.List.Forall2

/-!
# Lists of results

A list of steps that may fail succeeds as a whole exactly when every step does.
-/

namespace DocumentStore

variable {ε α β : Type}

theorem mapM_eq_ok_iff {f : α → Except ε β} {xs : List α} {ys : List β} :
    xs.mapM f = .ok ys ↔ List.Forall₂ (fun x y => f x = .ok y) xs ys := by
  induction xs generalizing ys with
  | nil => cases ys <;> simp [pure, Except.pure]
  | cons x xs ih =>
      rw [List.mapM_cons, List.forall₂_cons_left_iff]
      cases hx : f x with
      | error failure => simp [bind, Except.bind]
      | ok y =>
          cases hxs : xs.mapM f with
          | error failure => simp [bind, Except.bind, ← ih, hxs]
          | ok rest => simp [bind, Except.bind, pure, Except.pure, ← ih, hxs, eq_comm]

theorem mapM_eq_ok_map {f : α → Except ε β} {g : α → β} {xs : List α}
    (h : ∀ x ∈ xs, f x = .ok (g x)) : xs.mapM f = .ok (xs.map g) := by
  rw [mapM_eq_ok_iff, List.forall₂_map_right_iff, List.forall₂_same]
  exact h

theorem eq_map_of_mapM_eq_ok {f : α → Except ε β} {g : α → β} {xs : List α} {ys : List β}
    (hmap : xs.mapM f = .ok ys) (h : ∀ x ∈ xs, ∀ y, f x = .ok y → y = g x) :
    ys = xs.map g := by
  rw [mapM_eq_ok_iff] at hmap
  induction hmap with
  | nil => rfl
  | @cons x y xs ys hx _ ih =>
      have hy : y = g x := h x (by simp) y hx
      have hys : ys = xs.map g := ih fun x' hx' => h x' (by simp [hx'])
      rw [hy, hys, List.map_cons]

theorem map_eq_map_of_mapM_eq_ok {γ : Type} {f : α → Except ε β} {g : α → γ} {g' : β → γ}
    {xs : List α} {ys : List β} (hmap : xs.mapM f = .ok ys)
    (h : ∀ x y, f x = .ok y → g x = g' y) : xs.map g = ys.map g' := by
  rw [mapM_eq_ok_iff] at hmap
  induction hmap with
  | nil => rfl
  | cons hx _ ih => rw [List.map_cons, List.map_cons, h _ _ hx, ih]

theorem exists_of_mem_mapM {f : α → Except ε β} {xs : List α} {ys : List β}
    (hmap : xs.mapM f = .ok ys) {y : β} (hy : y ∈ ys) : ∃ x ∈ xs, f x = .ok y := by
  rw [mapM_eq_ok_iff] at hmap
  induction hmap with
  | nil => simp at hy
  | @cons x first xs ys hx _ ih =>
      rcases List.mem_cons.1 hy with rfl | hy
      · exact ⟨x, by simp, hx⟩
      · obtain ⟨x', hmem, hx'⟩ := ih hy
        exact ⟨x', by simp [hmem], hx'⟩

theorem exists_ok_of_mem_of_mapM {f : α → Except ε β} {xs : List α} {ys : List β}
    (hmap : xs.mapM f = .ok ys) {x : α} (hx : x ∈ xs) : ∃ y, f x = .ok y := by
  rw [mapM_eq_ok_iff] at hmap
  induction hmap with
  | nil => cases hx
  | @cons first y xs ys hfirst _ ih =>
      rcases List.mem_cons.1 hx with rfl | hx
      · exact ⟨y, hfirst⟩
      · exact ih hx

theorem exists_of_mapM_eq_error {f : α → Except ε β} {xs : List α} {failure : ε}
    (hmap : xs.mapM f = .error failure) : ∃ x ∈ xs, f x = .error failure := by
  induction xs with
  | nil => cases hmap
  | cons x xs ih =>
      rw [List.mapM_cons] at hmap
      cases hx : f x with
      | error cause =>
          rw [hx] at hmap
          cases hmap
          exact ⟨x, List.mem_cons_self, hx⟩
      | ok y =>
          rw [hx] at hmap
          cases hxs : xs.mapM f with
          | error cause =>
              rw [hxs] at hmap
              cases hmap
              obtain ⟨x', hmem, hx'⟩ := ih hxs
              exact ⟨x', List.mem_cons_of_mem _ hmem, hx'⟩
          | ok rest =>
              rw [hxs] at hmap
              cases hmap

theorem exists_error_of_mapM {f : α → Except ε β} {xs : List α} {failure : ε}
    (hmap : xs.mapM f = .error failure) : ∃ x ∈ xs, ∃ cause, f x = .error cause := by
  obtain ⟨x, hmem, hx⟩ := exists_of_mapM_eq_error hmap
  exact ⟨x, hmem, failure, hx⟩

theorem exists_of_bind_eq_ok {x : Except ε α} {f : α → Except ε β} {b : β}
    (h : x >>= f = .ok b) : ∃ a, x = .ok a ∧ f a = .ok b := by
  cases x with
  | error failure => cases h
  | ok a => exact ⟨a, rfl, h⟩

theorem except_map_map {γ : Type} (f : α → β) (g : β → γ) (x : Except ε α) :
    (x.map f).map g = x.map (g ∘ f) := by
  cases x <;> rfl

theorem exists_of_map_eq_ok {f : α → β} {x : Except ε α} {b : β} (h : x.map f = .ok b) :
    ∃ a, x = .ok a ∧ f a = b := by
  cases x with
  | error failure => cases h
  | ok a => exact ⟨a, rfl, Except.ok.inj h⟩

theorem exists_of_isOk {x : Except ε α} (h : x.isOk = true) : ∃ a, x = .ok a := by
  cases x with
  | error failure => cases h
  | ok a => exact ⟨a, rfl⟩

theorem mapError_eq_ok_iff {ε' : Type} {f : ε → ε'} {result : Except ε α} {a : α} :
    result.mapError f = .ok a ↔ result = .ok a := by
  cases result <;> simp [Except.mapError]

end DocumentStore
