import DocumentStore.Fields

/-!
# Fields under a map of their values

A map of the values leaves keys and places as they are, so it goes before or behind each operation.
-/

namespace DocumentStore.Fields

variable {α β : Type} (f : α → β)

theorem get?_map (key : String) (fields : Fields α) :
    get? key (fields.map fun field => (field.1, f field.2)) = (get? key fields).map f := by
  induction fields with
  | nil => rfl
  | cons field fields ih =>
      rw [List.map_cons, get?_cons, get?_cons, ih]
      split <;> rfl

theorem contains_map (key : String) (fields : Fields α) :
    contains key (fields.map fun field => (field.1, f field.2)) = contains key fields := by
  rw [contains, contains, get?_map, Option.isSome_map]

theorem insert_map (key : String) (value : α) (fields : Fields α) :
    insert key (f value) (fields.map fun field => (field.1, f field.2)) =
      (insert key value fields).map fun field => (field.1, f field.2) := by
  induction fields with
  | nil => rfl
  | cons field fields ih =>
      rw [List.map_cons, insert, insert]
      split
      · rfl
      · rw [ih, List.map_cons]

theorem insertAll_map (fields added : Fields α) :
    insertAll (fields.map fun field => (field.1, f field.2))
        (added.map fun field => (field.1, f field.2)) =
      (insertAll fields added).map fun field => (field.1, f field.2) := by
  induction added generalizing fields with
  | nil => rfl
  | cons field added ih =>
      simp only [insertAll, List.map_cons, List.foldl_cons, insert_map]
      exact ih _

end DocumentStore.Fields
