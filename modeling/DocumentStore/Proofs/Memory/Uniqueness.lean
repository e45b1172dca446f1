import DocumentStore.Proofs.Memory.Identifiers
import DocumentStore.Proofs.Value.ComparandEquality

/-!
# Unique identifiers

Every stored record has an identifier, and no two records of a collection have equal ones.
An insertion checks this against all records.  An upsert does not: it relies on a filter
that accepts every record with the identifier of the new one.
-/

namespace DocumentStore

open Backend

/-- The store compares the two as different, whichever comes first.  From the right to the
left this needs documents with distinct keys. -/
def Value.Apart (a b : Value) : Prop :=
  a.comparand.equal b.comparand = false ∧
    (a.comparand.WellKeyed → b.comparand.WellKeyed → b.comparand.equal a.comparand = false)

theorem Value.apart_of_not_equal {a b : Value} (h : a.comparand.equal b.comparand = false) :
    a.Apart b :=
  ⟨h, fun ha hb => (Comparand.equal_comm hb ha).trans h⟩

/-- A call that can not give a second record the identifier of a stored one: an upsert has
to look for the identifier that it may append, and values may not be written over any. -/
def Backend.Call.Distinguishes (field : String) : Call → Prop
  | .replace _ filter record upsert =>
    upsert = true → ∃ id, Fields.get? field record = some id ∧
      ∀ reader other stored, Fields.get? field other = some stored →
        filter.accepts reader other = false → stored.comparand.equal id.comparand = false
  | .update _ _ change => change.Spares field
  | .findAndMerge _ _ patch _ => patch.Spares field
  | _ => True

namespace Memory.Store

/-- Every record has an identifier that is apart from those of the other records. -/
def Unique (store : Store) : Prop :=
  ∀ collection, ∃ ids : List Value,
    store.identifiers collection = ids.map some ∧ ids.Pairwise Value.Apart

theorem unique_of_no_collections {store : Store} (h : store.collections = []) :
    store.Unique := by
  intro collection
  refine ⟨[], ?_, .nil⟩
  rw [identifiers, records, h]
  rfl

theorem unique_of_identifiers {store store' : Store} (h : store'.identifiers = store.identifiers)
    (hstore : store.Unique) : store'.Unique := by
  intro collection
  rw [h]
  exact hstore collection

theorem unique_of_update {store store' : Store} {collection : String}
    {records : List Document} {ids : List Value} (hkey : store'.idField = store.idField)
    (hrecords : store'.records = Function.update store.records collection records)
    (hids : records.map (Fields.get? store.idField) = ids.map some)
    (hapart : ids.Pairwise Value.Apart) (hstore : store.Unique) : store'.Unique := by
  intro other
  rw [identifiers, hkey, hrecords]
  by_cases h : other = collection
  · rw [h, Function.update_self]
    exact ⟨ids, hids, hapart⟩
  · rw [Function.update_of_ne h]
    exact hstore other

/-! ## Records that go and records that come -/

theorem unique_of_sublist {store store' : Store} {collection : String}
    {records : List Document} (hkey : store'.idField = store.idField)
    (hrecords : store'.records = Function.update store.records collection records)
    (hsub : records.Sublist (store.records collection)) (hstore : store.Unique) :
    store'.Unique := by
  obtain ⟨ids, hids, hapart⟩ := hstore collection
  have hmap : (records.map (Fields.get? store.idField)).Sublist (ids.map some) := by
    rw [← hids]
    exact hsub.map _
  obtain ⟨kept, hkept, heq⟩ := List.sublist_map_iff.1 hmap
  exact unique_of_update hkey hrecords heq (hapart.sublist hkept) hstore

theorem unique_of_append {store store' : Store} {collection : String} {record : Document}
    {id : Value} (hkey : store'.idField = store.idField)
    (hrecords : store'.records =
      Function.update store.records collection (store.records collection ++ [record]))
    (hid : Fields.get? store.idField record = some id)
    (hnew : ∀ other ∈ store.records collection, ∀ stored,
      Fields.get? store.idField other = some stored →
        stored.comparand.equal id.comparand = false)
    (hstore : store.Unique) : store'.Unique := by
  obtain ⟨ids, hids, hapart⟩ := hstore collection
  have hmap : (store.records collection ++ [record]).map (Fields.get? store.idField) =
      (ids ++ [id]).map some := by
    rw [List.map_append, List.map_append, List.map_singleton, List.map_singleton, hid, ← hids]
    rfl
  refine unique_of_update hkey hrecords hmap ?_ hstore
  refine List.pairwise_append.2 ⟨hapart, List.pairwise_singleton _ _, ?_⟩
  intro stored hstored value hvalue
  rw [List.mem_singleton.1 hvalue]
  have hmem : some stored ∈ store.identifiers collection := by
    rw [hids]
    exact List.mem_map_of_mem hstored
  obtain ⟨other, hother, hget⟩ := List.mem_map.1 hmem
  exact Value.apart_of_not_equal (hnew other hother stored hget)

/-! ## Calls -/

theorem unique_insertOne {store : Store} (collection : String) (record : Document)
    (hstore : store.Unique) : (store.insertOne collection record).2.Unique := by
  have hkey := idField_of_settings store (settings_insertOne store collection record)
  rcases records_insertOne store collection record with hsame | ⟨-, hnew, hrecords⟩
  · exact unique_of_identifiers (identifiers_congr hkey hsame) hstore
  · obtain ⟨id, hid⟩ := exists_get?_ensureId store record
    refine unique_of_append hkey hrecords hid ?_ hstore
    intro other hother stored hstored
    have hother := hnew other hother
    rw [hid, Option.getD_some, hasId, hstored] at hother
    exact hother

theorem unique_handle {call : Call} {store : Store} (h : call.Distinguishes store.idField)
    (hstore : store.Unique) : (handle call store).2.Unique := by
  have hkey := idField_handle call store
  cases call with
  | newId | find | count | listCollections | shutdown | update | findAndMerge =>
      exact unique_of_identifiers (identifiers_handle h) hstore
  | insert collection records ordered =>
      have hsame := records_ensureCollection_eq store collection
      have hensured : (store.ensureCollection collection).Unique :=
        unique_of_identifiers (identifiers_congr (idField_ensureCollection _ _) hsame) hstore
      exact insertEach_keeps (fun _ record hbefore => unique_insertOne collection record hbefore)
        ordered records hensured
  | replace collection filter record upsert =>
      cases upsert with
      | false => exact unique_of_identifiers (identifiers_handle rfl) hstore
      | true =>
          rcases records_replace store collection filter record true with
            hsame | ⟨before, previous, behind, hstored, -, hafter⟩ | ⟨-, hnone, -, hafter⟩
          · exact unique_of_identifiers (identifiers_congr hkey hsame) hstore
          · refine unique_of_identifiers (identifiers_of_update hkey hafter ?_) hstore
            rw [identifiers, hstored]
            exact map_get?_of_replaced_one (get?_replaced _ _ _)
          · -- The filter accepts no record, so none has the identifier that is appended.
            obtain ⟨id, hid, hnew⟩ := h rfl
            rw [ensureId_of_get? hid] at hafter
            exact unique_of_append hkey hafter hid
              (fun other hother stored hget => hnew _ other stored hget (hnone other hother)) hstore
  | findAndDelete collection filter projection =>
      rcases records_findAndDelete store collection filter projection with
        hsame | ⟨before, previous, behind, hstored, hafter⟩
      · exact unique_of_identifiers (identifiers_congr hkey hsame) hstore
      · refine unique_of_sublist hkey hafter ?_ hstore
        rw [hstored]
        exact (List.sublist_cons_self previous behind).append_left before
  | delete collection filter =>
      rcases records_delete store collection filter with hsame | hafter
      · exact unique_of_identifiers (identifiers_congr hkey hsame) hstore
      · exact unique_of_sublist hkey hafter List.filter_sublist hstore
  | createCollection name =>
      rcases records_createCollection store name with hsame | hafter
      · exact unique_of_identifiers (identifiers_congr hkey hsame) hstore
      · exact unique_of_sublist hkey hafter (List.nil_sublist _) hstore
  | dropCollection name =>
      rcases records_dropCollection store name with hsame | hafter
      · exact unique_of_identifiers (identifiers_congr hkey hsame) hstore
      · exact unique_of_sublist hkey hafter (List.nil_sublist _) hstore

end Memory.Store

end DocumentStore
