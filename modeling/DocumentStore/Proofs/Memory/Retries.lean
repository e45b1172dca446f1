import DocumentStore.Proofs.Document.RepeatedWrites
import DocumentStore.Proofs.Memory.Answers
import DocumentStore.Proofs.Memory.FirstMatch

/-!
# Merges asked again

A patch laid over a document a second time changes nothing.  So a merge of all matches can be asked
again, whatever became of it and whichever records its filter accepts by then.
-/

namespace DocumentStore.Memory.Store

variable {store : Store} {collection : String} {filter : Predicate}

theorem update_of_fixed {change : Change}
    (h : ∀ record ∈ store.records collection, filter.accepts store.patterns record = true →
      changed store.idField change record = record) :
    (store.update collection filter change).2 = store := by
  rw [update_eq_scan]
  split
  · next hexists =>
    split
    · rfl
    · next marked hscan =>
      split
      · rfl
      · next records hrecords =>
        rw [eq_mark_of_scan hscan] at hrecords
        have hsame : records = store.records collection := by
          rw [eq_map_of_changeMatched hrecords]
          refine (List.map_congr_left fun record hrecord => ?_).trans (List.map_id _)
          split
          · next haccepts => exact h record hrecord haccepts
          · rfl
        rw [hsame]
        exact ensureCollection_eq_self hexists
  · rfl

/-- A merge of all matches leaves records that it does not change: those that it has merged, and
those that its filter does not accept. -/
theorem changed_merge_of_update {patch : Document} {count : Nat} {after : Store}
    (h : store.update collection filter (.merge patch) = (.ok count, after)) {record : Document}
    (hrecord : record ∈ after.records collection)
    (haccepts : filter.accepts after.patterns record = true) :
    changed after.idField (.merge patch) record = record := by
  have hsettings := settings_update store collection filter (.merge patch)
  rw [h] at hsettings
  rw [patterns_of_settings store hsettings] at haccepts
  rw [records_update_of_ok h, Function.update_self] at hrecord
  obtain ⟨previous, -, rfl⟩ := List.mem_map.1 hrecord
  split
  · exact previous.overlay_overlay patch
  · next hrefused =>
    rw [if_neg hrefused] at haccepts
    exact absurd haccepts hrefused

/-- A patch laid over a document twice gives what it gives once, with the fields in the same order,
and a merge that is asked twice leaves the store that it leaves once. -/
theorem merge_twice_eq_once (patch : Document) :
    (∀ fields : Document, (fields.overlay patch).overlay patch = fields.overlay patch) ∧
    ∀ (store : Store) (collection : String) (filter : Predicate),
      let once := (store.update collection filter (.merge patch)).2
      (once.update collection filter (.merge patch)).2 = once := by
  refine ⟨fun fields => fields.overlay_overlay patch, fun store collection filter => ?_⟩
  intro once
  cases hanswer : (store.update collection filter (.merge patch)).1 with
  | error failure =>
      have hsame : once = store := update_of_error store collection hanswer
      rw [hsame]
      exact hsame
  | ok count =>
      have hupdate : store.update collection filter (.merge patch) = (.ok count, once) :=
        Prod.ext hanswer rfl
      exact update_of_fixed fun _ hrecord => changed_merge_of_update hupdate hrecord

/-- The second time `a.x` goes behind the `y` that is left from the first time, and the next write
forgets both. -/
example :
    let patch : Document := [("a.x", .int32 1), ("a", .document []), ("a.y.z", .int32 2)]
    Document.overlay [("b", .null)] patch =
      [("b", .null), ("a", .document [("y", .document [("z", .int32 2)])])] := rfl

end DocumentStore.Memory.Store
