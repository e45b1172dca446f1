import DocumentStore.Proofs.Collection.RequestEndings
import DocumentStore.Proofs.Memory.Completeness
import DocumentStore.Proofs.Service.Histories

/-!
# Records that are shown

Whatever a store has been asked before, every record that an answer holds has its identifier in
the form for callers, and no other fields than those that were chosen.
-/

namespace DocumentStore

open Backend

namespace Collection

variable {c : Collection} {fields : FieldChoice}

/-- The record has an identifier that is no object identifier, and unless everything is chosen,
each of its other keys is the first segment of a chosen name. -/
structure IsShown (c : Collection) (fields : FieldChoice) (record : Document) : Prop where
  identified : ∃ id : Value, Fields.get? c.idField record = some id ∧ id.IsPlain
  chosen : fields.chosen = [] ∨ "*" ∈ fields.chosen ∨
    ∀ entry ∈ record, entry.1 = c.idField ∨
      ∃ name ∈ fields.chosen, (Path.ofText name).head? = some entry.1

theorem isShown_shown (hdot : '.' ∉ c.idField.toList) {record : Document}
    (h : Fields.contains c.idField record = true) :
    c.IsShown fields (c.shown (c.projection fields) record) := by
  obtain ⟨id, hid⟩ := Option.isSome_iff_exists.1 h
  have hkept := get?_project hdot fields record
  rw [hid] at hkept
  have hshown : c.shown (c.projection fields) record =
      Fields.insert c.idField (Identifier.shownValue id)
        ((c.projection fields).project record) := by
    rw [shown, Identifier.shownRecord, hkept]
  rw [hshown]
  constructor
  · exact ⟨_, Fields.get?_insert_self _ _ _, Identifier.isPlain_shownValue id⟩
  · rcases Projection.key_of_mem_project hdot fields record with hnone | hstar | hkeys
    · exact .inl hnone
    · exact .inr (.inl hstar)
    · refine .inr (.inr fun entry hentry => ?_)
      by_cases hkey : entry.1 = c.idField
      · exact .inl hkey
      · exact hkeys entry (Fields.mem_of_mem_insert hentry hkey)

theorem isShown_alone {id : Value} (h : id.IsPlain) : c.IsShown fields [(c.idField, id)] where
  identified := ⟨id, by rw [Fields.get?_cons, if_pos rfl], h⟩
  chosen := .inr (.inr fun entry hentry => .inl (by rw [List.mem_singleton.1 hentry]))

theorem shows_isShown (hdot : '.' ∉ c.idField.toList) (fields : FieldChoice) :
    c.Shows (c.projection fields) (fun record => Fields.contains c.idField record = true)
      (c.IsShown fields) where
  stored _ h := isShown_shown hdot h
  identified _ h := isShown_shown hdot h
  alone _ h := isShown_alone h

end Collection

namespace Service

variable {service : Service}

/-- The store keys its records by the field of the service, and every record has it. -/
structure Identified (service : Service) (store : Memory.Store) : Prop where
  idField : store.idField = service.settings.idField
  complete : store.AllComplete

theorem identified_handle (call : Call) {store : Memory.Store} (h : service.Identified store) :
    service.Identified (Memory.Store.handle call store).2 where
  idField := (Memory.Store.idField_handle call store).trans h.idField
  complete := Memory.Store.allComplete_handle call h.complete

theorem Identified.contains {store : Memory.Store} (h : service.Identified store) (name : String) :
    ∀ record ∈ store.records name, Fields.contains service.settings.idField record = true :=
  fun record hrecord => h.idField ▸ (h.complete name record hrecord).identified

theorem identified_afterAll (requests : List Request) {store : Memory.Store}
    (h : service.Identified store) : service.Identified (service.afterAll requests store) := by
  induction requests generalizing store with
  | nil => exact h
  | cons request requests ih =>
      refine ih ?_
      exact Program.run_keeps (Program.asks_any (request.program service))
        (fun call _ _ hstate => identified_handle call hstate) h

/-- After any history of a store that started empty, every record that a request returns, alone,
in a list or in an outcome, is one for callers, whichever way it takes. -/
theorem isShown_of_afterAll (service : Service) (hdot : '.' ∉ service.settings.idField.toList)
    (store : Memory.Store) (hkey : store.idField = service.settings.idField)
    (hempty : store.collections = []) (requests : List Request) (name : String)
    (request : Collection.Request) (answer : request.Answer)
    (hanswer : ((request.program (service.collection name)).run Memory.Store.handle
      (service.afterAll requests store)).1 = .ok answer) :
    ∀ record ∈ request.documents answer,
      (service.collection name).IsShown request.fields record := by
  have hcomplete : store.AllComplete := by
    intro collection record hrecord
    rw [Memory.Store.records, hempty] at hrecord
    cases hrecord
  have hinitial : service.Identified store := ⟨hkey, hcomplete⟩
  have hstore := identified_afterAll requests hinitial
  let patterns := (service.afterAll requests store).patterns
  have hkeeps (call : Call) (state : Memory.Store)
      (hstate : service.Identified state ∧ state.patterns = patterns) :
      AnswersFrom patterns (fun record => Fields.contains service.settings.idField record = true)
        call (Memory.Store.handle call state).1 ∧
      service.Identified (Memory.Store.handle call state).2 ∧
      (Memory.Store.handle call state).2.patterns = patterns := by
    obtain ⟨hidentified, hpatterns⟩ := hstate
    have hnext := identified_handle call hidentified
    have hsettings := Memory.Store.settings_handle call state
    refine ⟨?_, hnext, (Memory.Store.patterns_of_settings state hsettings).trans hpatterns⟩
    rw [← hpatterns]
    exact Memory.Store.answersFrom_handle call state hidentified.contains hnext.contains
  have hshows := Collection.shows_isShown (c := service.collection name) hdot request.fields
  have hends := Program.run_ends (Collection.Request.ends_program request hshows) hkeeps _
    ⟨hstore, rfl⟩
  exact (hends.1 answer hanswer).documents

/-- The records of a batch are read before they are deleted, one by the identifier that it got from
the store; of the field that leads nowhere in the second one nothing is shown. -/
theorem isShown_of_deletion :
    let service := ofStore "_id"
    let store : Memory.Store := { freshId := .ofNat }
    let first : Document := [("a", .document [("b", .int32 1), ("d", .int32 2)]), ("e", .null)]
    let requests : List Request :=
      [.within "c" (.createEach ⟨[first, [("a", .int32 3), ("id", .int32 5)]]⟩ default {})]
    let request : Collection.Request :=
      .deleteListed (.values [.objectId (.ofNat 0), .int32 5]) (.delimited "a.b")
    let shown : List Document :=
      [[("_id", .string (ObjectId.ofNat 0).toHex), ("a", .document [("b", .int32 1)])],
        [("_id", .int32 5)]]
    '.' ∉ service.settings.idField.toList ∧ store.idField = service.settings.idField ∧
    store.collections = [] ∧
    ((request.program (service.collection "c")).run Memory.Store.handle
      (service.afterAll requests store)).1 = .ok (shown.map .record) ∧
    ∀ record ∈ shown, (service.collection "c").IsShown request.fields record := by
  intro service store first requests request shown
  have hafter : service.afterAll requests store =
      { collections :=
          [("c", [("_id", .objectId (.ofNat 0)) :: first, [("a", .int32 3), ("_id", .int32 5)]])],
        freshId := .ofNat, issued := 1 } := rfl
  have hanswer : ((request.program (service.collection "c")).run Memory.Store.handle
      (service.afterAll requests store)).1 = .ok (shown.map .record) := by
    have hcollection : service.collection "c" = ⟨"c", "_id"⟩ := rfl
    rw [hafter, hcollection]
    rfl
  exact ⟨by decide, rfl, rfl, hanswer,
    isShown_of_afterAll service (by decide) store rfl rfl requests
    "c" request (shown.map .record) hanswer⟩

end Service

end DocumentStore
