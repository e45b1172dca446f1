import DocumentStore.Proofs.Backend.Calls
import DocumentStore.Proofs.Memory.Failures
import DocumentStore.Proofs.Memory.Writes

/-!
# Calls that succeed

What a reading without order and limit answers, and what the changes and deletions that succeed
leave, read off the filter alone.
-/

namespace DocumentStore

open Backend

namespace Memory

theorem Marked.matched_mark (reader : PatternReader) (filter : Predicate)
    (records : List Document) :
    (mark reader filter records).matched = records.filter (filter.accepts reader) := by
  simp [matched, mark, List.filter_map, Function.comp_def]

namespace Store

variable {store : Store} {collection : String} {filter : Predicate}

/-! ## Readings -/

theorem cut_projection (projection : Projection) (found : List Document) :
    cut { projection } found = found.map projection.project := by
  simp [cut]

theorem head?_cut_one (projection : Projection) (found : List Document) :
    (cut { projection, limit := some 1 } found).head? = found.head?.map projection.project := by
  cases found <;> simp [cut]

theorem exists_of_mem_cut {selection : Selection} {sorted : List Document} {record : Document}
    (h : record ∈ cut selection sorted) :
    ∃ original ∈ sorted, record = selection.projection.project original := by
  obtain ⟨original, hpage, rfl⟩ := List.mem_map.1 h
  refine ⟨original, ?_, rfl⟩
  split at hpage
  · exact List.mem_of_mem_drop (List.mem_of_mem_take hpage)
  · exact List.mem_of_mem_drop hpage

theorem find_eq_map_scan {selection : Selection} (hsort : selection.sort = []) :
    store.find collection filter selection =
      (store.scan collection filter).map fun marked => cut selection marked.matched := by
  rw [find]
  cases store.scan collection filter with
  | error failure => rfl
  | ok marked =>
      dsimp only
      rw [select, hsort, store.sorting.run_nil]
      rfl

theorem exists_sorted_of_find {selection : Selection} {found : List Document}
    (h : store.find collection filter selection = .ok found) :
    ∃ sorted, store.sorting.run selection.sort
        ((store.records collection).filter (filter.accepts store.patterns)) = some sorted ∧
      found = cut selection sorted := by
  rw [find] at h
  split at h
  · next marked hscan =>
    rw [eq_mark_of_scan hscan, Marked.matched_mark, select] at h
    split at h
    · next sorted hsorted => exact ⟨sorted, hsorted, (Except.ok.inj h).symm⟩
    · cases h
  · cases h

theorem find_eq_ok {projection : Projection} {found : List Document}
    (h : store.find collection filter { projection } = .ok found) :
    found = ((store.records collection).filter (filter.accepts store.patterns)).map
      projection.project := by
  obtain ⟨sorted, hsorted, hfound⟩ := exists_sorted_of_find h
  rw [store.sorting.run_nil] at hsorted
  rw [hfound, ← Option.some.inj hsorted, cut_projection]

theorem evaluate_of_find_eq_ok {selection : Selection} {found : List Document}
    (h : store.find collection filter selection = .ok found) {record : Document}
    (hrecord : record ∈ store.records collection) :
    ∃ hit, filter.evaluate store.patterns record = .ok hit := by
  rw [find] at h
  split at h
  · next marked hscan => exact evaluate_of_scan_eq_ok hscan hrecord
  · cases h

theorem exists_error_of_find {selection : Selection} {failure : Failure}
    (hsort : selection.sort = []) (h : store.find collection filter selection = .error failure) :
    ∃ record ∈ store.records collection,
      ∃ cause, filter.evaluate store.patterns record = .error cause := by
  rw [find_eq_map_scan hsort] at h
  cases hscan : store.scan collection filter with
  | ok marked => simp [hscan, Except.map] at h
  | error cause => exact exists_error_of_scan hscan

section

variable (h : ∀ record ∈ store.records collection,
  ∃ hit, filter.evaluate store.patterns record = .ok hit)

include h

theorem find_of_total (selection : Selection) :
    store.find collection filter selection =
      store.select selection
        ((store.records collection).filter (filter.accepts store.patterns)) := by
  rw [find, scan, Marked.ofScan_of_total h, ← Marked.matched_mark]

theorem find_unsorted_of_total {selection : Selection} (hsort : selection.sort = []) :
    store.find collection filter selection =
      .ok (cut selection
        ((store.records collection).filter (filter.accepts store.patterns))) := by
  rw [find_of_total h, select, hsort, store.sorting.run_nil]

theorem count_of_total :
    store.count collection filter =
      .ok ((store.records collection).filter (filter.accepts store.patterns)).length := by
  rw [count_eq_scan, scan, Marked.ofScan_of_total h, ← Marked.matched_mark]
  rfl

end

/-! ## Changes -/

theorem of_run_perform_find {operation : Operation} {name : String} {selection : Selection}
    {found : List Document} {after : Store}
    (h : (Program.perform operation name (.find collection filter selection)).run handle store =
      (.ok found, after)) :
    store.find collection filter selection = .ok found ∧ store = after := by
  have hfind := Program.handle_of_run_perform_eq_ok h
  rw [handle, Prod.mk.injEq] at hfind
  exact hfind

theorem update_self_of_missing (h : ¬ Fields.contains collection store.collections = true)
    (change : List Document → List Document) (hnil : change [] = []) :
    Function.update store.records collection (change (store.records collection)) =
      store.records := by
  have hmissing := records_of_missing store collection (Bool.not_eq_true _ ▸ h)
  rw [hmissing, hnil, ← hmissing, Function.update_eq_self]

theorem filter_of_missing (h : ¬ Fields.contains collection store.collections = true) :
    (store.records collection).filter (filter.accepts store.patterns) = [] := by
  rw [records_of_missing store collection (Bool.not_eq_true _ ▸ h), List.filter_nil]

theorem count_update_of_ok {change : Change} {count : Nat} {after : Store}
    (h : store.update collection filter change = (.ok count, after)) :
    count = ((store.records collection).filter (filter.accepts store.patterns)).length := by
  rw [update_eq_scan] at h
  split at h
  · split at h
    · cases h
    · next marked hscan =>
      split at h
      · cases h
      · cases h
        rw [eq_mark_of_scan hscan, Marked.matched_mark]
  · next hmissing =>
    cases h
    rw [filter_of_missing hmissing, List.length_nil]

theorem records_update_of_ok {change : Change} {count : Nat} {after : Store}
    (h : store.update collection filter change = (.ok count, after)) :
    after.records = Function.update store.records collection
      ((store.records collection).map fun record =>
        if filter.accepts store.patterns record then
          changed store.idField change record
        else record) := by
  rw [update_eq_scan] at h
  split at h
  · split at h
    · cases h
    · next marked hscan =>
      split at h
      · cases h
      · next records hrecords =>
        rw [eq_mark_of_scan hscan] at hrecords
        cases h
        rw [records_setRecords, eq_map_of_changeMatched hrecords]
  · next hmissing =>
    cases h
    exact (update_self_of_missing hmissing (List.map _) rfl).symm

theorem keys_update_of_ok {change : Change} {count : Nat} {after : Store}
    (h : store.update collection filter change = (.ok count, after)) :
    Fields.keys after.collections = Fields.keys store.collections := by
  have hkeys := keys_collections_update store collection filter change
  rwa [h] at hkeys

theorem exists_error_of_update {change : Change} {failure : Failure}
    (h : (store.update collection filter change).1 = .error failure) :
    (∃ record ∈ store.records collection,
      ∃ cause, filter.evaluate store.patterns record = .error cause) ∨
    ∃ record ∈ store.records collection, filter.accepts store.patterns record = true ∧
      ∃ field, store.missingField? collection (changed store.idField change record) =
        some field := by
  rw [update_eq_scan] at h
  split at h
  · split at h
    · next hscan => exact .inl (exists_error_of_scan hscan)
    · next marked hscan =>
      split at h
      · next hchanged =>
        rw [eq_mark_of_scan hscan] at hchanged
        exact .inr (exists_missingField_of_changeMatched hchanged)
      · cases h
  · cases h

theorem exists_error_of_delete {failure : Failure}
    (h : (store.delete collection filter).1 = .error failure) :
    ∃ record ∈ store.records collection,
      ∃ cause, filter.evaluate store.patterns record = .error cause := by
  rw [delete_eq_scan] at h
  split at h
  · split at h
    · next hscan => exact exists_error_of_scan hscan
    · cases h
  · cases h

theorem delete_of_total
    (h : ∀ record ∈ store.records collection,
      ∃ hit, filter.evaluate store.patterns record = .ok hit) :
    (store.delete collection filter).1 =
      .ok ((store.records collection).filter (filter.accepts store.patterns)).length := by
  rw [delete_eq_scan]
  split
  · rw [scan, Marked.ofScan_of_total h, ← Marked.matched_mark]
  · next hmissing => rw [filter_of_missing hmissing, List.length_nil]

theorem records_delete_of_ok {count : Nat} {after : Store}
    (h : store.delete collection filter = (.ok count, after)) :
    after.records = Function.update store.records collection
      ((store.records collection).filter (!filter.accepts store.patterns ·)) := by
  rw [delete_eq_scan] at h
  split at h
  · split at h
    · cases h
    · next marked hscan =>
      cases h
      rw [records_setRecords, eq_mark_of_scan hscan, Marked.unmatched_mark]
  · next hmissing =>
    cases h
    exact (update_self_of_missing hmissing (List.filter _) rfl).symm

theorem keys_delete_of_ok {count : Nat} {after : Store}
    (h : store.delete collection filter = (.ok count, after)) :
    Fields.keys after.collections = Fields.keys store.collections := by
  have hkeys := keys_collections_delete store collection filter
  rwa [h] at hkeys

end Store

end Memory

end DocumentStore
