import DocumentStore.Predicate.Evaluation
import Mathlib.Data.List.Forall2

/-!
# Evaluation under an engine for patterns

Where the engine reads the patterns of a tree, and no leaf is unrecognized, the children of a node
all have a result, and the node has the one that joins them.
-/

namespace DocumentStore

namespace Pattern

def foundMatching (found : Option Value) (test : String → Bool) : Bool :=
  match found with
  | some stored => isFoundIn test stored
  | none => false

theorem accepts_of_read {reader : PatternReader} {regex : String} {test : String → Bool}
    (h : reader regex = .ok test) (found : Option Value) :
    accepts reader regex found = .ok (foundMatching found test) := by
  cases found with
  | none => rfl
  | some stored =>
      rw [accepts, h]
      rfl

end Pattern

namespace Predicate

/-! ## Children that all have a result -/

variable {reader : PatternReader} {record : Document}

theorem evaluateAll_of_hits {ps : List Predicate} {hits : List Bool}
    (h : List.Forall₂ (fun p hit => p.evaluate reader record = .ok hit) ps hits) :
    evaluateAll reader record ps = .ok (hits.all id) := by
  induction h with
  | nil => rfl
  | @cons p hit ps hits hp _ ih =>
      rw [evaluateAll, hp]
      cases hit with
      | true => exact ih
      | false => rfl

theorem evaluateAny_of_hits {ps : List Predicate} {hits : List Bool}
    (h : List.Forall₂ (fun p hit => p.evaluate reader record = .ok hit) ps hits) :
    evaluateAny reader record ps = .ok (hits.any id) := by
  induction h with
  | nil => rfl
  | @cons p hit ps hits hp _ ih =>
      rw [evaluateAny, hp]
      cases hit with
      | true => rfl
      | false => exact ih

/-! ## Leaves from the left -/

theorem firstUnrecognized?_cons_eq_none {child : Predicate} {children : List Predicate}
    (h : firstUnrecognized? (child :: children) = none) :
    child.unrecognized? = none ∧ firstUnrecognized? children = none := by
  rw [firstUnrecognized?] at h
  cases hchild : child.unrecognized? with
  | some text => simp [hchild] at h
  | none => exact ⟨rfl, by simpa [hchild] using h⟩

theorem firstUnrecognized?_cons_eq_some {child : Predicate} {children : List Predicate}
    {text : String} (h : firstUnrecognized? (child :: children) = some text) :
    child.unrecognized? = some text ∨
      (child.unrecognized? = none ∧ firstUnrecognized? children = some text) := by
  rw [firstUnrecognized?] at h
  cases hchild : child.unrecognized? with
  | some leaf => exact .inl (by simpa [hchild] using h)
  | none => exact .inr ⟨rfl, by simpa [hchild] using h⟩

mutual

def patterns : Predicate → List String
  | .and children | .or children | .nor children => patternsOf children
  | .not child => child.patterns
  | .pattern _ _ regex => [regex]
  | _ => []

def patternsOf : List Predicate → List String
  | [] => []
  | child :: children => child.patterns ++ patternsOf children

end

end Predicate

end DocumentStore
