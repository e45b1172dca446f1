import DocumentStore.Proofs.Document.Paths
import DocumentStore.Proofs.Memory.Writes

/-!
# Stored identifiers

The identifiers of the records of a collection in storage order, and the calls that leave
them alone: a replacement keeps the identifier of what it replaces, and a patch changes it
only through a key that leads into the identifier field.
-/

namespace DocumentStore

open Backend

/-- A new body keeps the identifier anyway; new values keep the field that they spare. -/
def Change.Spares (field : String) : Change → Prop
  | .replace _ => True
  | .merge patch => patch.Spares field

/-- The call adds no record, takes none out, and writes nothing to the field. -/
def Backend.Call.Spares (field : String) : Call → Prop
  | .replace _ _ _ upsert => upsert = false
  | .update _ _ change => change.Spares field
  | .findAndMerge _ _ patch _ => patch.Spares field
  | .newId | .find .. | .count .. | .listCollections | .shutdown => True
  | .insert .. | .findAndDelete .. | .delete .. | .createCollection _ | .dropCollection _ =>
    False

namespace Memory.Store

def identifiers (store : Store) (collection : String) : List (Option Value) :=
  (store.records collection).map (Fields.get? store.idField)

theorem identifiers_congr {store store' : Store} (hkey : store'.idField = store.idField)
    (hrecords : store'.records = store.records) : store'.identifiers = store.identifiers := by
  funext collection
  rw [identifiers, identifiers, hkey, hrecords]

/-! ## New records for stored ones -/

theorem get?_replaced (idField : String) (previous body : Document) :
    Fields.get? idField (replaced idField previous body) = Fields.get? idField previous := by
  have hbody : ∀ field ∈ Fields.erase idField body, field.1 ≠ idField :=
    fun _ hfield => Fields.ne_of_mem_erase hfield
  unfold replaced
  rw [Fields.get?_insertAll_of_ne hbody]
  cases h : Fields.get? idField previous with
  | some id => simp [Fields.get?]
  | none => rfl

theorem replaced_congr {idField : String} {first second : Document}
    (h : Fields.get? idField first = Fields.get? idField second) (body : Document) :
    replaced idField first body = replaced idField second body := by
  rw [replaced, replaced, h]

theorem get?_changed {idField : String} {change : Change} (h : change.Spares idField)
    (record : Document) :
    Fields.get? idField (changed idField change record) = Fields.get? idField record := by
  cases change with
  | replace body => exact get?_replaced idField record body
  | merge patch => exact Document.get?_overlay_of_spares h record

/-! ## New records -/

theorem ensureId_of_get? {store : Store} {record : Document} {id : Value}
    (h : Fields.get? store.idField record = some id) : (store.ensureId record).1 = record := by
  rw [ensureId, if_pos]
  simp [Fields.contains, h]

theorem exists_get?_ensureId (store : Store) (record : Document) :
    ∃ id, Fields.get? store.idField (store.ensureId record).1 = some id := by
  cases h : Fields.get? store.idField record with
  | some id =>
      rw [ensureId_of_get? h]
      exact ⟨id, h⟩
  | none =>
      have habsent : ¬ Fields.contains store.idField record = true := by
        rw [Fields.contains, h]
        exact Bool.false_ne_true
      refine ⟨store.takeId.1, ?_⟩
      rw [ensureId, if_neg habsent]
      have hfields : ∀ field ∈ record, field.1 ≠ store.idField :=
        fun _ hfield => Fields.ne_of_get?_eq_none h hfield
      rw [Fields.get?_insertAll_of_ne hfields]
      exact Fields.get?_insert_self store.idField _ []

/-! ## Calls -/

theorem idField_handle (call : Call) (store : Store) :
    (handle call store).2.idField = store.idField :=
  idField_of_settings store (settings_handle call store)

theorem identifiers_of_update {store store' : Store} {collection : String}
    {records : List Document} (hkey : store'.idField = store.idField)
    (hrecords : store'.records = Function.update store.records collection records)
    (hids : records.map (Fields.get? store.idField) = store.identifiers collection) :
    store'.identifiers = store.identifiers := by
  funext other
  rw [identifiers, hkey, hrecords]
  by_cases h : other = collection
  · rw [h, Function.update_self, hids]
  · rw [Function.update_of_ne h, identifiers]

theorem map_get?_of_replaced_one {idField : String} {before behind : List Document}
    {previous record : Document} (h : Fields.get? idField record = Fields.get? idField previous) :
    (before ++ record :: behind).map (Fields.get? idField) =
      (before ++ previous :: behind).map (Fields.get? idField) := by
  simp [h]

theorem identifiers_handle {call : Call} {store : Store} (h : call.Spares store.idField) :
    (handle call store).2.identifiers = store.identifiers := by
  have hkey := idField_handle call store
  cases call with
  | newId => rfl
  | find | count | listCollections | shutdown => rfl
  | replace collection filter record upsert =>
      have hupsert : upsert = false := h
      rcases records_replace store collection filter record upsert with
        hsame | ⟨before, previous, behind, hstored, -, hafter⟩ | ⟨htrue, -⟩
      · exact identifiers_congr hkey hsame
      · refine identifiers_of_update hkey hafter ?_
        rw [identifiers, hstored]
        exact map_get?_of_replaced_one (get?_replaced _ _ _)
      · rw [hupsert] at htrue
        exact Bool.noConfusion htrue
  | update collection filter change =>
      rcases records_update store collection filter change with hsame | ⟨-, hafter⟩
      · exact identifiers_congr hkey hsame
      · refine identifiers_of_update hkey hafter ?_
        rw [identifiers, List.map_map]
        apply List.map_congr_left
        intro record _
        rw [Function.comp_apply]
        split
        · exact get?_changed h record
        · rfl
  | findAndMerge collection filter patch projection =>
      rcases records_findAndMerge store collection filter patch projection with
        hsame | ⟨before, previous, behind, hstored, -, hafter⟩
      · exact identifiers_congr hkey hsame
      · refine identifiers_of_update hkey hafter ?_
        rw [identifiers, hstored]
        exact map_get?_of_replaced_one (Document.get?_overlay_of_spares h previous)
  | insert | findAndDelete | delete | createCollection | dropCollection => exact h.elim

end Memory.Store

end DocumentStore
