import DocumentStore.Proofs.Memory.Identifiers

/-!
# Stored records are complete

Every record that a store holds has the identifier field and the required fields of its
collection.  Each write checks the records that it makes, and takes no identifier field away from
those that it makes them from.
-/

namespace DocumentStore.Memory.Store

open Backend

/-- A record that the collection may hold. -/
structure Complete (store : Store) (collection : String) (record : Document) : Prop where
  identified : Fields.contains store.idField record = true
  checked : store.missingField? collection record = none

def AllComplete (store : Store) : Prop :=
  ∀ collection, ∀ record ∈ store.records collection, store.Complete collection record

theorem complete_congr {store after : Store} (hsettings : after.settings = store.settings) :
    after.Complete = store.Complete := by
  have hfield := idField_of_settings store hsettings
  have hmissing := missingField?_congr store hsettings
  funext collection record
  apply propext
  constructor
  · rintro ⟨hidentified, hchecked⟩
    exact ⟨hfield ▸ hidentified, hmissing ▸ hchecked⟩
  · rintro ⟨hidentified, hchecked⟩
    exact ⟨hfield ▸ hidentified, hmissing ▸ hchecked⟩

theorem Complete.exists_value {store : Store} {collection : String} {record : Document}
    (h : store.Complete collection record) {fields : List String}
    (hfields : Fields.get? collection store.required = some fields) {field : String}
    (hfield : field ∈ fields) : ∃ value, record.valueOf? field = some value ∧ value ≠ .null := by
  have hpresent : isPresent record field = true := by
    have hall := h.checked
    rw [missingField?, hfields, Option.getD_some, List.find?_eq_none] at hall
    simpa using hall field hfield
  rw [isPresent] at hpresent
  split at hpresent
  · cases hpresent
  · next value hvalue =>
    refine ⟨value, hvalue, fun hnull => ?_⟩
    rw [hnull] at hpresent
    cases hpresent

/-! ## Records that are made -/

theorem contains_ensureId (store : Store) (record : Document) :
    Fields.contains store.idField (store.ensureId record).1 = true := by
  obtain ⟨id, hid⟩ := exists_get?_ensureId store record
  rw [Fields.contains, hid]
  rfl

theorem contains_changed {idField : String} {record : Document}
    (h : Fields.contains idField record = true) (change : Change) :
    Fields.contains idField (changed idField change record) = true := by
  cases change with
  | replace body =>
      rw [changed, Fields.contains, get?_replaced]
      exact h
  | merge patch => exact Document.contains_overlay h patch

/-! ## Stores that are left -/

variable {store after : Store}

theorem allComplete_of_same (hsettings : after.settings = store.settings)
    (hrecords : after.records = store.records) (hstore : store.AllComplete) :
    after.AllComplete := by
  rw [AllComplete, complete_congr hsettings, hrecords]
  exact hstore

theorem allComplete_of_update {collection : String} {records : List Document}
    (hsettings : after.settings = store.settings)
    (hrecords : after.records = Function.update store.records collection records)
    (hnew : ∀ record ∈ records, store.Complete collection record) (hstore : store.AllComplete) :
    after.AllComplete := by
  rw [AllComplete, complete_congr hsettings, hrecords]
  intro other record hrecord
  by_cases hother : other = collection
  · subst hother
    rw [Function.update_self] at hrecord
    exact hnew record hrecord
  · rw [Function.update_of_ne hother] at hrecord
    exact hstore other record hrecord

theorem allComplete_of_replaced_one {collection : String} {before behind : List Document}
    {previous record : Document} (hsettings : after.settings = store.settings)
    (hstored : store.records collection = before ++ previous :: behind)
    (hrecords : after.records =
      Function.update store.records collection (before ++ record :: behind))
    (hnew : store.Complete collection previous → store.Complete collection record)
    (hstore : store.AllComplete) : after.AllComplete := by
  have hold := hstore collection
  rw [hstored] at hold
  refine allComplete_of_update hsettings hrecords ?_ hstore
  intro other hother
  rcases List.mem_append.1 hother with hbefore | hother
  · exact hold other (List.mem_append_left _ hbefore)
  rcases List.mem_cons.1 hother with rfl | hbehind
  · exact hnew (hold previous (List.mem_append_right _ List.mem_cons_self))
  · exact hold other (List.mem_append_right _ (List.mem_cons_of_mem _ hbehind))

theorem allComplete_of_append {collection : String} {record : Document}
    (hsettings : after.settings = store.settings)
    (hrecords : after.records =
      Function.update store.records collection (store.records collection ++ [record]))
    (hnew : store.Complete collection record) (hstore : store.AllComplete) :
    after.AllComplete := by
  refine allComplete_of_update hsettings hrecords ?_ hstore
  intro other hother
  rcases List.mem_append.1 hother with hold | hlast
  · exact hstore collection other hold
  · rw [List.mem_singleton.1 hlast]
    exact hnew

theorem allComplete_of_subset {collection : String} {records : List Document}
    (hsettings : after.settings = store.settings)
    (hrecords : after.records = Function.update store.records collection records)
    (hsub : records ⊆ store.records collection) (hstore : store.AllComplete) :
    after.AllComplete :=
  allComplete_of_update hsettings hrecords
    (fun _ hrecord => hstore collection _ (hsub hrecord)) hstore

/-! ## Calls -/

theorem allComplete_insertOne (collection : String) (record : Document)
    (hstore : store.AllComplete) : (store.insertOne collection record).2.AllComplete := by
  have hsettings := settings_insertOne store collection record
  rcases records_insertOne store collection record with hsame | ⟨hchecked, -, hafter⟩
  · exact allComplete_of_same hsettings hsame hstore
  · exact allComplete_of_append hsettings hafter ⟨contains_ensureId store record, hchecked⟩ hstore

theorem allComplete_handle (call : Call) (hstore : store.AllComplete) :
    (handle call store).2.AllComplete := by
  have hsettings := settings_handle call store
  cases call with
  | newId | find | count | listCollections | shutdown =>
      exact allComplete_of_same hsettings rfl hstore
  | insert collection records ordered =>
      have hensured : (store.ensureCollection collection).AllComplete :=
        allComplete_of_same (settings_ensureCollection store collection)
          (records_ensureCollection_eq store collection) hstore
      exact insertEach_keeps
        (fun _ record hbefore => allComplete_insertOne collection record hbefore)
        ordered records hensured
  | replace collection filter record upsert =>
      rcases records_replace store collection filter record upsert with
        hsame | ⟨before, previous, behind, hstored, hchecked, hafter⟩ | ⟨-, -, hchecked, hafter⟩
      · exact allComplete_of_same hsettings hsame hstore
      · refine allComplete_of_replaced_one hsettings hstored hafter (fun hprevious => ?_) hstore
        exact ⟨contains_changed hprevious.identified (.replace record), hchecked⟩
      · exact allComplete_of_append hsettings hafter ⟨contains_ensureId store record, hchecked⟩
          hstore
  | update collection filter change =>
      rcases records_update store collection filter change with hsame | ⟨hchecked, hafter⟩
      · exact allComplete_of_same hsettings hsame hstore
      · refine allComplete_of_update hsettings hafter (fun record hrecord => ?_) hstore
        obtain ⟨previous, hprevious, rfl⟩ := List.mem_map.1 hrecord
        have hold := hstore collection previous hprevious
        split
        · next haccepts =>
          exact ⟨contains_changed hold.identified change, hchecked previous hprevious haccepts⟩
        · exact hold
  | findAndMerge collection filter patch projection =>
      rcases records_findAndMerge store collection filter patch projection with
        hsame | ⟨before, previous, behind, hstored, hchecked, hafter⟩
      · exact allComplete_of_same hsettings hsame hstore
      · refine allComplete_of_replaced_one hsettings hstored hafter (fun hprevious => ?_) hstore
        exact ⟨contains_changed hprevious.identified (.merge patch), hchecked⟩
  | findAndDelete collection filter projection =>
      rcases records_findAndDelete store collection filter projection with
        hsame | ⟨before, previous, behind, hstored, hafter⟩
      · exact allComplete_of_same hsettings hsame hstore
      · refine allComplete_of_subset hsettings hafter ?_ hstore
        rw [hstored]
        exact ((List.sublist_cons_self previous behind).append_left before).subset
  | delete collection filter =>
      rcases records_delete store collection filter with hsame | hafter
      · exact allComplete_of_same hsettings hsame hstore
      · exact allComplete_of_subset hsettings hafter List.filter_sublist.subset hstore
  | createCollection name =>
      rcases records_createCollection store name with hsame | hafter
      · exact allComplete_of_same hsettings hsame hstore
      · exact allComplete_of_subset hsettings hafter (List.nil_subset _) hstore
  | dropCollection name =>
      rcases records_dropCollection store name with hsame | hafter
      · exact allComplete_of_same hsettings hsame hstore
      · exact allComplete_of_subset hsettings hafter (List.nil_subset _) hstore

/-! ## Histories of calls -/

def afterCalls (calls : List Call) (store : Store) : Store :=
  calls.foldl (fun store call => (handle call store).2) store

theorem settings_afterCalls (calls : List Call) (store : Store) :
    (afterCalls calls store).settings = store.settings := by
  induction calls generalizing store with
  | nil => rfl
  | cons call calls ih => exact (ih (handle call store).2).trans (settings_handle call store)

theorem allComplete_afterCalls (calls : List Call) (hstore : store.AllComplete) :
    (afterCalls calls store).AllComplete := by
  induction calls generalizing store with
  | nil => exact hstore
  | cons call calls ih => exact ih (allComplete_handle call hstore)

/-- In a store that started empty, every record has the identifier field, and in each required
field of its collection a value that is not null. -/
theorem fields_of_mem_afterCalls (idField : String) (required : Fields (List String))
    (freshId : Nat → ObjectId) (patterns : PatternReader) (sorting : Sorting) (calls : List Call)
    (collection : String) :
    let start : Store := { idField, required, freshId, patterns, sorting }
    ∀ record ∈ (afterCalls calls start).records collection,
      Fields.contains idField record = true ∧
      ∀ fields, Fields.get? collection required = some fields → ∀ field ∈ fields,
        ∃ value, record.valueOf? field = some value ∧ value ≠ .null := by
  intro start record hrecord
  have hempty : start.AllComplete := fun _ _ hother => nomatch hother
  have hcomplete := allComplete_afterCalls calls hempty collection record hrecord
  rw [complete_congr (settings_afterCalls calls _)] at hcomplete
  exact ⟨hcomplete.identified, fun fields hfields field hfield =>
    hcomplete.exists_value hfields hfield⟩

/-- A merge that would overwrite the parent of the required path is refused. -/
theorem fields_after_refused_merge :
    let calls : List Call :=
      [.insert "c" [[("a", .document [("b", .int32 1)])]] true,
        .update "c" .matchAll (.merge [("a", .int32 2)])]
    let required : Fields (List String) := [("c", ["a.b"])]
    let record : Document := [("_id", .objectId (.ofNat 0)), ("a", .document [("b", .int32 1)])]
    record ∈ (afterCalls calls { required, freshId := .ofNat }).records "c" ∧
    Fields.get? "c" required = some ["a.b"] ∧ "a.b" ∈ ["a.b"] ∧
    Fields.contains "_id" record = true ∧
    ∃ value, record.valueOf? "a.b" = some value ∧ value ≠ .null := by
  intro calls required record
  have hrecord : record ∈ (afterCalls calls { required, freshId := .ofNat }).records "c" :=
    List.mem_singleton_self record
  have hfields := fields_of_mem_afterCalls "_id" required .ofNat .literal .insertion calls "c"
    record hrecord
  exact ⟨hrecord, rfl, List.mem_singleton_self _, hfields.1,
    hfields.2 ["a.b"] rfl "a.b" (List.mem_singleton_self _)⟩

end DocumentStore.Memory.Store
