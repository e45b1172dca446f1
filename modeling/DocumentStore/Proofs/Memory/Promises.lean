import DocumentStore.Proofs.Backend.Endings
import DocumentStore.Proofs.Memory.Answers

/-!
# What the store in memory promises

Every record that an answer holds is the projection of a record that is stored before or after
the call.  A call fails as its filter does on a record, or with a raw failure of the store.
-/

namespace DocumentStore

open Backend

/-! ## The parts of a call -/

namespace Backend.Call

def filter? : Call → Option Predicate
  | .replace _ filter _ _ | .update _ filter _ | .find _ filter _ | .count _ filter
  | .findAndMerge _ filter _ _ | .findAndDelete _ filter _ | .delete _ filter => some filter
  | _ => none

def projection : Call → Projection
  | .find _ _ selection => selection.projection
  | .findAndMerge _ _ _ projection | .findAndDelete _ _ projection => projection
  | _ => .all

def found : (call : Call) → call.Answer → List Document
  | .find .., records => records
  | .findAndMerge .., record | .findAndDelete .., record => record.toList
  | _, _ => []

end Backend.Call

/-- What a store with such records answers to a call, and how it fails. -/
structure AnswersFrom (patterns : PatternReader) (stored : Document → Prop) (call : Call)
    (result : Except Failure call.Answer) : Prop where
  issued : call = .newId → ∃ id, result = .ok id
  found : ∀ answer, result = .ok answer → ∀ record ∈ call.found answer,
    ∃ original, stored original ∧ record = call.projection.project original
  failed : ∀ failure, result = .error failure →
    (∃ text, failure = .store text) ∨
    ∃ filter ∈ call.filter?, ∃ record, filter.evaluate patterns record = .error failure

/-! ## Records that are found -/

namespace Memory.Store

variable {store : Store} {collection : String} {filter : Predicate}

theorem exists_of_mem_find {selection : Selection} {found : List Document}
    (h : store.find collection filter selection = .ok found) {record : Document}
    (hrecord : record ∈ found) :
    ∃ original ∈ store.records collection, record = selection.projection.project original := by
  obtain ⟨sorted, hsorted, rfl⟩ := exists_sorted_of_find h
  obtain ⟨original, horiginal, hproject⟩ := exists_of_mem_cut hrecord
  exact ⟨original, List.mem_of_mem_filter ((store.sorting.perm hsorted).subset horiginal), hproject⟩

theorem exists_of_findAndMerge {patch record : Document} {projection : Projection}
    (h : (store.findAndMerge collection filter patch projection).1 = .ok (some record)) :
    ∃ merged ∈ (store.findAndMerge collection filter patch projection).2.records collection,
      record = projection.project merged := by
  rw [findAndMerge_eq_scan] at h ⊢
  split
  · next hscan =>
    rw [hscan] at h
    cases h
  · next marked hscan =>
    rw [hscan] at h
    dsimp only at h
    split
    · next hsplit =>
      rw [hsplit] at h
      cases h
    · next before previous behind hsplit =>
      rw [hsplit] at h
      dsimp only at h
      split
      · next hchecked =>
        rw [hchecked] at h
        cases h
      · next merged hchecked =>
        rw [hchecked] at h
        cases h
        rw [records_setRecords_self]
        exact ⟨merged, List.mem_append_right _ List.mem_cons_self, rfl⟩

theorem exists_of_findAndDelete {record : Document} {projection : Projection}
    (h : (store.findAndDelete collection filter projection).1 = .ok (some record)) :
    ∃ removed ∈ store.records collection, record = projection.project removed := by
  rw [findAndDelete_eq_scan] at h
  split at h
  · cases h
  · next marked hscan =>
    split at h
    · cases h
    · next before removed behind hsplit =>
      rw [eq_mark_of_scan hscan] at hsplit
      cases h
      rw [(Marked.splitAtMatch?_mark hsplit).1]
      exact ⟨removed, List.mem_append_right _ List.mem_cons_self, rfl⟩

/-! ## Failures -/

/-- A raw failure, or the one of the filter on a record. -/
def FailsBy (patterns : PatternReader) (filter : Predicate) (failure : Failure) : Prop :=
  (∃ text, failure = .store text) ∨ ∃ record, filter.evaluate patterns record = .error failure

variable {failure : Failure}

theorem failsBy_of_scan (h : store.scan collection filter = .error failure) :
    FailsBy store.patterns filter failure := by
  obtain ⟨record, -, hfails⟩ := exists_of_scan_eq_error h
  exact .inr ⟨record, hfails⟩

theorem failsBy_of_checked {patterns : PatternReader} {record : Document}
    (h : store.checked collection record = .error failure) : FailsBy patterns filter failure := by
  rw [checked] at h
  split at h
  · cases h
    exact .inl ⟨_, rfl⟩
  · cases h

theorem failsBy_of_changeMatched {change : Change} {marked : Marked}
    (h : store.changeMatched collection change marked = .error failure) :
    FailsBy store.patterns filter failure := by
  obtain ⟨⟨record, hit⟩, -, hfails⟩ := exists_of_mapM_eq_error h
  cases hit with
  | true => exact failsBy_of_checked hfails
  | false => cases hfails

theorem failsBy_of_map_scan {α : Type} {f : Marked → α}
    (h : (store.scan collection filter).map f = .error failure) :
    FailsBy store.patterns filter failure := by
  cases hscan : store.scan collection filter with
  | ok marked => simp [hscan, Except.map] at h
  | error cause =>
      rw [hscan] at h
      cases h
      exact failsBy_of_scan hscan

theorem failsBy_of_find {selection : Selection}
    (h : store.find collection filter selection = .error failure) :
    FailsBy store.patterns filter failure := by
  rw [find] at h
  split at h
  · rw [select] at h
    split at h
    · cases h
    · cases h
      exact .inl ⟨_, rfl⟩
  · next hscan =>
    cases h
    exact failsBy_of_scan hscan

theorem failsBy_of_replace {record : Document} {upsert : Bool}
    (h : (store.replace collection filter record upsert).1 = .error failure) :
    FailsBy store.patterns filter failure := by
  rw [replace_eq_scan] at h
  dsimp only at h
  split at h
  · next hscan =>
    cases h
    exact (failsBy_of_scan hscan : FailsBy (store.ensureCollection collection).patterns _ _)
  · split at h
    · split at h
      · next hchecked =>
        cases h
        exact failsBy_of_checked hchecked
      · cases h
    · split at h
      · split at h
        · next hchecked =>
          cases h
          exact failsBy_of_checked hchecked
        · cases h
      · cases h

theorem failsBy_of_update {change : Change}
    (h : (store.update collection filter change).1 = .error failure) :
    FailsBy store.patterns filter failure := by
  rw [update_eq_scan] at h
  split at h
  · split at h
    · next hscan =>
      cases h
      exact failsBy_of_scan hscan
    · split at h
      · next hchanged =>
        cases h
        exact failsBy_of_changeMatched hchanged
      · cases h
  · cases h

theorem failsBy_of_findAndMerge {patch : Document} {projection : Projection}
    (h : (store.findAndMerge collection filter patch projection).1 = .error failure) :
    FailsBy store.patterns filter failure := by
  rw [findAndMerge_eq_scan] at h
  split at h
  · next hscan =>
    cases h
    exact failsBy_of_scan hscan
  · split at h
    · cases h
    · split at h
      · next hchecked =>
        cases h
        exact failsBy_of_checked hchecked
      · cases h

theorem failsBy_of_findAndDelete {projection : Projection}
    (h : (store.findAndDelete collection filter projection).1 = .error failure) :
    FailsBy store.patterns filter failure := by
  rw [findAndDelete_eq_scan] at h
  split at h
  · next hscan =>
    cases h
    exact failsBy_of_scan hscan
  · split at h <;> cases h

theorem failsBy_of_delete (h : (store.delete collection filter).1 = .error failure) :
    FailsBy store.patterns filter failure := by
  rw [delete_eq_scan] at h
  split at h
  · split at h
    · next hscan =>
      cases h
      exact failsBy_of_scan hscan
    · cases h
  · cases h

/-! ## Calls -/

theorem failed_handle {call : Call} (h : (handle call store).1 = .error failure) :
    (∃ text, failure = .store text) ∨
    ∃ filter ∈ call.filter?, ∃ record, filter.evaluate store.patterns record = .error failure := by
  have hby {filter : Predicate} (hfilter : filter ∈ call.filter?)
      (hby : FailsBy store.patterns filter failure) :
      (∃ text, failure = .store text) ∨
      ∃ filter ∈ call.filter?, ∃ record, filter.evaluate store.patterns record = .error failure :=
    hby.imp_right fun hfails => ⟨filter, hfilter, hfails⟩
  cases call with
  | newId | insert | listCollections | shutdown => cases h
  | replace => exact hby rfl (failsBy_of_replace h)
  | update => exact hby rfl (failsBy_of_update h)
  | find => exact hby rfl (failsBy_of_find h)
  | count =>
      rw [handle, count_eq_scan] at h
      exact hby rfl (failsBy_of_map_scan h)
  | findAndMerge => exact hby rfl (failsBy_of_findAndMerge h)
  | findAndDelete => exact hby rfl (failsBy_of_findAndDelete h)
  | delete => exact hby rfl (failsBy_of_delete h)
  | createCollection name =>
      rw [handle, createCollection] at h
      split at h
      · cases h
        exact .inl ⟨_, rfl⟩
      · cases h
  | dropCollection name =>
      rw [handle, dropCollection] at h
      split at h
      · cases h
      · cases h
        exact .inl ⟨_, rfl⟩

theorem answersFrom_handle {stored : Document → Prop} (call : Call) (store : Store)
    (hbefore : ∀ name, ∀ record ∈ store.records name, stored record)
    (hafter : ∀ name, ∀ record ∈ (handle call store).2.records name, stored record) :
    AnswersFrom store.patterns stored call (handle call store).1 where
  issued h := by
    subst h
    exact ⟨_, rfl⟩
  failed _ h := failed_handle h
  found answer hanswer record hrecord := by
    cases call with
    | find collection filter selection =>
        obtain ⟨original, horiginal, hproject⟩ := exists_of_mem_find hanswer hrecord
        exact ⟨original, hbefore collection original horiginal, hproject⟩
    | findAndMerge collection filter patch projection =>
        rw [Call.found, Option.mem_toList] at hrecord
        rw [Option.mem_def.1 hrecord] at hanswer
        obtain ⟨merged, hmerged, hproject⟩ := exists_of_findAndMerge hanswer
        exact ⟨merged, hafter collection merged hmerged, hproject⟩
    | findAndDelete collection filter projection =>
        rw [Call.found, Option.mem_toList] at hrecord
        rw [Option.mem_def.1 hrecord] at hanswer
        obtain ⟨removed, hremoved, hproject⟩ := exists_of_findAndDelete hanswer
        exact ⟨removed, hbefore collection removed hremoved, hproject⟩
    | _ => cases hrecord

theorem run_ends_of_any {α : Type} {p : Program α} {result : α → Prop} {failed : Failure → Prop}
    (store : Store) (hp : p.Ends (AnswersFrom store.patterns fun _ => True) result failed) :
    (∀ a, (p.run handle store).1 = .ok a → result a) ∧
    ∀ cause, (p.run handle store).1 = .error cause → failed cause := by
  have hkeeps (call : Call) (state : Store) (hstate : state.patterns = store.patterns) :
      AnswersFrom store.patterns (fun _ => True) call (handle call state).1 ∧
      (handle call state).2.patterns = store.patterns := by
    refine ⟨?_, (patterns_of_settings state (settings_handle call state)).trans hstate⟩
    rw [← hstate]
    exact answersFrom_handle call state (fun _ _ _ => trivial) fun _ _ _ => trivial
  exact Program.run_ends hp hkeeps store rfl

end Memory.Store

end DocumentStore
