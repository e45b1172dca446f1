import DocumentStore.Memory.Answer
import DocumentStore.Proofs.Document.Paths
import DocumentStore.Proofs.Memory.Indexes

/-!
# Calls that fail

A call that fails, or finds nothing to change, leaves all collections as they were.  A single
replacement is the exception: it creates its collection before it looks for a match, as an
insertion does, and the collection stays when nothing is written to it.
-/

namespace DocumentStore.Memory.Store

variable (store : Store) (collection : String)

/-! ## Changes of stored records -/

theorem update_of_error {filter : Predicate} {change : Change} {failure : Failure}
    (h : (store.update collection filter change).1 = .error failure) :
    (store.update collection filter change).2 = store := by
  rw [update_eq_scan] at h ⊢
  split
  · next hexists =>
    rw [if_pos hexists] at h
    split
    · rfl
    · next marked hscan =>
      rw [hscan] at h
      dsimp only at h
      split
      · rfl
      · next records hrecords =>
        rw [hrecords] at h
        cases h
  · rfl

theorem delete_of_error {filter : Predicate} {failure : Failure}
    (h : (store.delete collection filter).1 = .error failure) :
    (store.delete collection filter).2 = store := by
  rw [delete_eq_scan] at h ⊢
  split
  · next hexists =>
    rw [if_pos hexists] at h
    split
    · rfl
    · next marked hscan =>
      rw [hscan] at h
      cases h
  · rfl

theorem findAndMerge_of_miss {filter : Predicate} {patch : Document} {projection : Projection}
    (h : ∀ record, (store.findAndMerge collection filter patch projection).1 ≠ .ok (some record)) :
    (store.findAndMerge collection filter patch projection).2 = store := by
  rw [findAndMerge_eq_scan] at h ⊢
  split
  · rfl
  · next marked hscan =>
    rw [hscan] at h
    dsimp only at h
    split
    · rfl
    · next before previous behind hsplit =>
      rw [hsplit] at h
      dsimp only at h
      split
      · rfl
      · next record hrecord =>
        rw [hrecord] at h
        exact absurd rfl (h _)

theorem findAndDelete_of_miss {filter : Predicate} {projection : Projection}
    (h : ∀ record, (store.findAndDelete collection filter projection).1 ≠ .ok (some record)) :
    (store.findAndDelete collection filter projection).2 = store := by
  rw [findAndDelete_eq_scan] at h ⊢
  split
  · rfl
  · next marked hscan =>
    rw [hscan] at h
    dsimp only at h
    split
    · rfl
    · next before previous behind hsplit =>
      rw [hsplit] at h
      exact absurd rfl (h _)

/-! ## Calls that create their collection -/

theorem collections_ensureId (record : Document) :
    (store.ensureId record).2.collections = store.collections := by
  unfold ensureId
  split <;> rfl

/-- A failing replacement, and one without a match that is no upsert, creates the collection. -/
theorem collections_replace_of_miss {filter : Predicate} {record : Document} {upsert : Bool}
    (h : (∃ failure, (store.replace collection filter record upsert).1 = .error failure) ∨
      upsert = false ∧ (store.replace collection filter record upsert).1 = .ok 0) :
    (store.replace collection filter record upsert).2.collections =
      (store.ensureCollection collection).collections := by
  rw [replace_eq_scan] at h ⊢
  dsimp only at h ⊢
  split
  · rfl
  · next marked hscan =>
    rw [hscan] at h
    dsimp only at h
    split
    · next before previous behind hsplit =>
      rw [hsplit] at h
      dsimp only at h
      split
      · rfl
      · next body hbody =>
        rw [hbody] at h
        rcases h with ⟨_, hfails⟩ | ⟨-, hnone⟩
        · cases hfails
        · cases hnone
    · next hsplit =>
      rw [hsplit] at h
      dsimp only at h
      split
      · next hupsert =>
        rw [if_pos hupsert] at h
        split
        · exact collections_ensureId _ _
        · next body hbody =>
          rw [hbody] at h
          rcases h with ⟨_, hfails⟩ | ⟨hno, -⟩
          · cases hfails
          · rw [hupsert] at hno
            cases hno
      · rfl

theorem collections_insertOne_of_refusal {record : Document}
    (h : (store.insertOne collection record).1 ≠ .written) :
    (store.insertOne collection record).2.collections = store.collections := by
  unfold insertOne at h ⊢
  dsimp only at h ⊢
  split
  · exact collections_ensureId store record
  · next hrefusal =>
    rw [hrefusal] at h
    exact absurd rfl h

theorem insert_singleton (record : Document) (ordered : Bool) :
    store.insert collection [record] ordered =
      ([((store.ensureCollection collection).insertOne collection record).1],
        ((store.ensureCollection collection).insertOne collection record).2) := by
  simp only [insert, insertEach]
  split <;> rfl

theorem length_insertEach (ordered : Bool) (records : List Document) :
    (insertEach collection ordered store records).1.length = records.length := by
  induction records generalizing store with
  | nil => rfl
  | cons record records ih =>
      unfold insertEach
      dsimp only
      split
      · simp
      · simp [ih]

/-! ## The collection that is created -/

theorem ensureCollection_of_contains (h : Fields.contains collection store.collections = true) :
    (store.ensureCollection collection).collections = store.collections := by
  obtain ⟨records, hrecords⟩ := Option.isSome_iff_exists.1 h
  have hself : store.records collection = records := by
    rw [Store.records, hrecords]
    rfl
  rw [ensureCollection, setRecords, hself]
  exact Fields.insert_of_get? hrecords

theorem records_of_missing (h : Fields.contains collection store.collections = false) :
    store.records collection = [] := by
  have hnone : Fields.get? collection store.collections = none := by
    simpa [Fields.contains] using h
  rw [Store.records, hnone]
  rfl

theorem ensureCollection_of_missing
    (h : Fields.contains collection store.collections = false) :
    (store.ensureCollection collection).collections = store.collections ++ [(collection, [])] := by
  have hnone : Fields.get? collection store.collections = none := by
    simpa [Fields.contains] using h
  rw [ensureCollection, setRecords, records_of_missing store collection h]
  exact Fields.insert_of_get?_eq_none hnone

end DocumentStore.Memory.Store
