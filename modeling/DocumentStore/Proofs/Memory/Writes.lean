import DocumentStore.Memory.Answer
import DocumentStore.Proofs.Document.Paths
import DocumentStore.Proofs.Memory.Indexes
import Mathlib.Logic.Function.Basic

/-!
# What a write leaves

For each write the records of all collections afterwards: they are what they were, or the
records of the one collection are replaced by a list that the statement gives.  Records that
are new in this list have their required fields.
-/

namespace DocumentStore.Memory.Store

variable (store : Store) (collection : String)

/-- What no call changes: the field that keys records, the fields that they have to have, and the
engine and the sort that the store is given. -/
def settings : String × Fields (List String) × PatternReader × Sorting :=
  (store.idField, store.required, store.patterns, store.sorting)

theorem idField_of_settings {after : Store} (h : after.settings = store.settings) :
    after.idField = store.idField :=
  congrArg Prod.fst h

theorem patterns_of_settings {after : Store} (h : after.settings = store.settings) :
    after.patterns = store.patterns :=
  congrArg (·.2.2.1) h

theorem missingField?_congr {after : Store} (h : after.settings = store.settings) :
    after.missingField? = store.missingField? := by
  have hrequired : after.required = store.required := congrArg (·.2.1) h
  funext name record
  rw [missingField?, missingField?, hrequired]

theorem records_setRecords (records : List Document) :
    (store.setRecords collection records).records =
      Function.update store.records collection records := by
  funext other
  by_cases h : other = collection
  · rw [h, records_setRecords_self, Function.update_self]
  · rw [records_setRecords_of_ne h, Function.update_of_ne h]

@[simp] theorem records_ensureCollection_eq :
    (store.ensureCollection collection).records = store.records :=
  funext fun other => records_ensureCollection store collection other

@[simp] theorem idField_ensureCollection :
    (store.ensureCollection collection).idField = store.idField := rfl

@[simp] theorem idField_setRecords (records : List Document) :
    (store.setRecords collection records).idField = store.idField := rfl

theorem settings_ensureCollection :
    (store.ensureCollection collection).settings = store.settings := rfl

theorem checked_ensureCollection (other : String) (record : Document) :
    (store.ensureCollection collection).checked other record = store.checked other record := rfl

theorem settings_takeId : store.takeId.2.settings = store.settings := rfl

@[simp] theorem records_ensureId (record : Document) :
    (store.ensureId record).2.records = store.records := by
  rw [ensureId]
  split <;> rfl

theorem settings_ensureId (record : Document) :
    (store.ensureId record).2.settings = store.settings := by
  rw [ensureId]
  split <;> rfl

/-- Which identifier a record gets does not depend on the collections. -/
theorem ensureId_ensureCollection (record : Document) :
    ((store.ensureCollection collection).ensureId record).1 = (store.ensureId record).1 := by
  by_cases h : Fields.contains store.idField record = true
  · simp [ensureId, h]
  · simp [ensureId, h, takeId, ensureCollection, setRecords]

/-! ## One record -/

theorem settings_replace (filter : Predicate) (record : Document) (upsert : Bool) :
    (store.replace collection filter record upsert).2.settings = store.settings := by
  rw [replace_eq_scan]
  dsimp only
  split
  · rfl
  · split
    · split <;> rfl
    · split
      · split <;> exact settings_ensureId _ record
      · rfl

theorem records_replace (filter : Predicate) (record : Document) (upsert : Bool) :
    (store.replace collection filter record upsert).2.records = store.records ∨
    (∃ before previous behind,
      store.records collection = before ++ previous :: behind ∧
      store.missingField? collection (replaced store.idField previous record) = none ∧
      (store.replace collection filter record upsert).2.records =
        Function.update store.records collection
          (before ++ replaced store.idField previous record :: behind)) ∨
    (upsert = true ∧
      (∀ other ∈ store.records collection, filter.accepts store.patterns other = false) ∧
      store.missingField? collection (store.ensureId record).1 = none ∧
      (store.replace collection filter record upsert).2.records =
        Function.update store.records collection
          (store.records collection ++ [(store.ensureId record).1])) := by
  rw [replace_eq_scan]
  dsimp only
  split
  · exact .inl (records_ensureCollection_eq store collection)
  · next marked hscan =>
    have hmarked := eq_mark_of_scan hscan
    rw [records_ensureCollection] at hmarked
    split
    · next before previous behind hsplit =>
      rw [hmarked] at hsplit
      have hrecords := (Marked.splitAtMatch?_mark hsplit).1
      split
      · exact .inl (records_ensureCollection_eq store collection)
      · next body hbody =>
        refine .inr (.inl ⟨before, previous, behind, hrecords, ?_, ?_⟩)
        · exact missingField?_of_checked hbody
        · rw [records_setRecords, records_ensureCollection_eq, eq_of_checked hbody]
          rfl
    · next hsplit =>
      rw [hmarked] at hsplit
      have hnone := Marked.splitAtMatch?_mark_eq_none hsplit
      split
      · next hupsert =>
        split
        · exact .inl (by simp)
        · next body hbody =>
          refine .inr (.inr ⟨hupsert, hnone, ?_, ?_⟩)
          · have hchecked := missingField?_of_checked hbody
            rw [missingField?_congr _ (settings_ensureId _ record)] at hchecked
            rw [← ensureId_ensureCollection store collection]
            exact hchecked
          · rw [records_setRecords, records_ensureId, records_ensureCollection_eq,
              eq_of_checked hbody, ensureId_ensureCollection]
      · exact .inl (records_ensureCollection_eq store collection)

theorem settings_findAndMerge (filter : Predicate) (patch : Document) (projection : Projection) :
    (store.findAndMerge collection filter patch projection).2.settings = store.settings := by
  rw [findAndMerge_eq_scan]
  split
  · rfl
  · split
    · rfl
    · split <;> rfl

theorem records_findAndMerge (filter : Predicate) (patch : Document) (projection : Projection) :
    (store.findAndMerge collection filter patch projection).2.records = store.records ∨
    ∃ before previous behind,
      store.records collection = before ++ previous :: behind ∧
      store.missingField? collection (previous.overlay patch) = none ∧
      (store.findAndMerge collection filter patch projection).2.records =
        Function.update store.records collection
          (before ++ previous.overlay patch :: behind) := by
  rw [findAndMerge_eq_scan]
  split
  · exact .inl rfl
  · next marked hscan =>
    have hmarked := eq_mark_of_scan hscan
    split
    · exact .inl rfl
    · next before previous behind hsplit =>
      rw [hmarked] at hsplit
      have hrecords := (Marked.splitAtMatch?_mark hsplit).1
      split
      · exact .inl rfl
      · next record hrecord =>
        refine .inr ⟨before, previous, behind, hrecords, missingField?_of_checked hrecord, ?_⟩
        rw [records_setRecords, eq_of_checked hrecord]

theorem settings_findAndDelete (filter : Predicate) (projection : Projection) :
    (store.findAndDelete collection filter projection).2.settings = store.settings := by
  rw [findAndDelete_eq_scan]
  split
  · rfl
  · split <;> rfl

theorem records_findAndDelete (filter : Predicate) (projection : Projection) :
    (store.findAndDelete collection filter projection).2.records = store.records ∨
    ∃ before previous behind,
      store.records collection = before ++ previous :: behind ∧
      (store.findAndDelete collection filter projection).2.records =
        Function.update store.records collection (before ++ behind) := by
  rw [findAndDelete_eq_scan]
  split
  · exact .inl rfl
  · next marked hscan =>
    have hmarked := eq_mark_of_scan hscan
    split
    · exact .inl rfl
    · next before previous behind hsplit =>
      rw [hmarked] at hsplit
      have hrecords := (Marked.splitAtMatch?_mark hsplit).1
      exact .inr ⟨before, previous, behind, hrecords, records_setRecords _ _ _⟩

/-! ## All matches -/

theorem settings_update (filter : Predicate) (change : Change) :
    (store.update collection filter change).2.settings = store.settings := by
  rw [update_eq_scan]
  split
  · split
    · rfl
    · split <;> rfl
  · rfl

theorem records_update (filter : Predicate) (change : Change) :
    (store.update collection filter change).2.records = store.records ∨
    (∀ record ∈ store.records collection, filter.accepts store.patterns record = true →
        store.missingField? collection (changed store.idField change record) = none) ∧
      (store.update collection filter change).2.records =
        Function.update store.records collection
          ((store.records collection).map fun record =>
            if filter.accepts store.patterns record then
              changed store.idField change record
            else record) := by
  rw [update_eq_scan]
  split
  · split
    · exact .inl rfl
    · next marked hscan =>
      split
      · exact .inl rfl
      · next records hrecords =>
        rw [eq_mark_of_scan hscan] at hrecords
        refine .inr ⟨fun _ => missingField?_of_changeMatched hrecords, ?_⟩
        rw [records_setRecords, eq_map_of_changeMatched hrecords]
  · exact .inl rfl

theorem keys_collections_update (filter : Predicate) (change : Change) :
    Fields.keys (store.update collection filter change).2.collections =
      Fields.keys store.collections := by
  rw [update_eq_scan]
  split
  · next hexists =>
    split
    · rfl
    · split
      · rfl
      · exact Fields.keys_insert hexists _
  · rfl

theorem settings_delete (filter : Predicate) :
    (store.delete collection filter).2.settings = store.settings := by
  rw [delete_eq_scan]
  split
  · split <;> rfl
  · rfl

theorem records_delete (filter : Predicate) :
    (store.delete collection filter).2.records = store.records ∨
    (store.delete collection filter).2.records =
      Function.update store.records collection
        ((store.records collection).filter (!filter.accepts store.patterns ·)) := by
  rw [delete_eq_scan]
  split
  · split
    · exact .inl rfl
    · next marked hscan =>
      exact .inr (by rw [records_setRecords, eq_mark_of_scan hscan, Marked.unmatched_mark])
  · exact .inl rfl

theorem keys_collections_delete (filter : Predicate) :
    Fields.keys (store.delete collection filter).2.collections =
      Fields.keys store.collections := by
  rw [delete_eq_scan]
  split
  · next hexists =>
    split
    · rfl
    · exact Fields.keys_insert hexists _
  · rfl

/-! ## Insertion -/

theorem refusal?_ensureId (record : Document) :
    (store.ensureId record).2.refusal? = store.refusal? := by
  have hsettings := settings_ensureId store record
  funext name new
  rw [refusal?, refusal?, missingField?_congr _ hsettings, idField_of_settings _ hsettings,
    records_ensureId]

theorem settings_insertOne (record : Document) :
    (store.insertOne collection record).2.settings = store.settings := by
  unfold insertOne
  dsimp only
  split <;> exact settings_ensureId store record

theorem records_insertOne (record : Document) :
    (store.insertOne collection record).2.records = store.records ∨
    (store.missingField? collection (store.ensureId record).1 = none ∧
      (∀ other ∈ store.records collection,
        hasId store.idField
          ((Fields.get? store.idField (store.ensureId record).1).getD .null) other = false) ∧
      (store.insertOne collection record).2.records =
        Function.update store.records collection
          (store.records collection ++ [(store.ensureId record).1])) := by
  unfold insertOne
  dsimp only
  split
  · exact .inl (records_ensureId store record)
  · next hrefusal =>
    rw [refusal?_ensureId, refusal?] at hrefusal
    split at hrefusal
    · cases hrefusal
    · next hmissing =>
      split at hrefusal
      · cases hrefusal
      · next hany =>
        refine .inr ⟨hmissing, ?_, by rw [records_setRecords, records_ensureId]⟩
        intro other hother
        simpa using (List.any_eq_false.1 (Bool.not_eq_true _ ▸ hany)) other hother

variable {store collection}

theorem insertEach_keeps {Inv : Store → Prop}
    (hstep : ∀ store record, Inv store → Inv (store.insertOne collection record).2)
    (ordered : Bool) (records : List Document) (hstore : Inv store) :
    Inv (insertEach collection ordered store records).2 := by
  induction records generalizing store with
  | nil => exact hstore
  | cons record records ih =>
      have hfirst := hstep store record hstore
      unfold insertEach
      dsimp only
      split
      · exact hfirst
      · exact ih hfirst

/-! ## Collections -/

theorem records_createCollection (store : Store) (name : String) :
    (store.createCollection name).2.records = store.records ∨
    (store.createCollection name).2.records = Function.update store.records name [] := by
  unfold createCollection
  split
  · exact .inl rfl
  · exact .inr (records_setRecords store name [])

theorem records_dropCollection (store : Store) (name : String) :
    (store.dropCollection name).2.records = store.records ∨
    (store.dropCollection name).2.records = Function.update store.records name [] := by
  unfold dropCollection
  split
  · refine .inr (funext fun other => ?_)
    by_cases h : other = name
    · rw [h, Function.update_self, records, Fields.get?_erase_self]
      rfl
    · rw [Function.update_of_ne h, records, Fields.get?_erase_of_ne h, records]
  · exact .inl rfl

/-! ## Calls -/

theorem settings_handle (call : Backend.Call) (store : Store) :
    (handle call store).2.settings = store.settings := by
  cases call with
  | newId => exact settings_takeId store
  | insert collection records ordered =>
      have hstep : ∀ (before : Store) record, before.settings = store.settings →
          (before.insertOne collection record).2.settings = store.settings := by
        intro before record hbefore
        rw [settings_insertOne, hbefore]
      exact insertEach_keeps hstep ordered records (settings_ensureCollection store collection)
  | replace collection filter record upsert =>
      exact settings_replace store collection filter record upsert
  | update collection filter change => exact settings_update store collection filter change
  | findAndMerge collection filter patch projection =>
      exact settings_findAndMerge store collection filter patch projection
  | findAndDelete collection filter projection =>
      exact settings_findAndDelete store collection filter projection
  | delete collection filter => exact settings_delete store collection filter
  | createCollection name =>
      simp only [handle, createCollection]
      split <;> rfl
  | dropCollection name =>
      simp only [handle, dropCollection]
      split <;> rfl
  | find | count | listCollections | shutdown => rfl

end DocumentStore.Memory.Store
