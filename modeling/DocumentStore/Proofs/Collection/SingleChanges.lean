import DocumentStore.Proofs.Collection.Keys
import DocumentStore.Proofs.Collection.Requests
import DocumentStore.Proofs.Memory.FirstMatch
import DocumentStore.Proofs.Memory.Identifiers
import DocumentStore.Proofs.Projection

/-!
# Changes of one record by identifier

A replacement and a merge by identifier are one change of the first record that the identifier
addresses, and differ in the record that they answer with.  Answer and store afterwards are read
off this record.
-/

namespace DocumentStore

open Backend Program Memory Memory.Store

namespace Change

/-- The operation that messages about the change name. -/
def operation : Change → Operation
  | .replace _ => .update
  | .merge _ => .merge

/-- A replacement creates its collection before it looks for a match. -/
def creates : Change → Bool
  | .replace _ => true
  | .merge _ => false

end Change

namespace Collection

def reviseStored (c : Collection) (projection : Projection) (id : Identifier) :
    Change → Program Document
  | .replace body => c.replaceStored projection id body
  | .merge patch => c.mergeStored projection id patch

/-- A replacement answers with the body under the identifier that it was asked for, a merge with
the record that is stored. -/
def reply (c : Collection) (id : Identifier) : Change → Document → Document
  | .replace body, _ => Fields.insert c.idField id.stored body
  | .merge patch, previous => previous.overlay patch

def revisionResult (c : Collection) (store : Memory.Store) (projection : Projection)
    (id : Identifier) (change : Change) : Option Document → Except Failure Document
  | none => .error (c.notFound id)
  | some previous =>
    match store.missingField? c.name (changed c.idField change previous) with
    | some field => .error (.failed change.operation c.name (missingFieldText field))
    | none => .ok (c.shown projection (c.reply id change previous))

def afterRevision (c : Collection) (store : Memory.Store) (id : Identifier) (change : Change) :
    Memory.Store :=
  if change.creates || Fields.contains c.name store.collections then
    store.withFirstChanged c.name (c.keyIs id) (changed c.idField change)
  else store

def deletionResult (c : Collection) (projection : Projection) (id : Identifier) :
    Option Document → Except Failure Document
  | none => .error (c.notFound id)
  | some record => .ok (c.shown projection record)

variable {c : Collection}

theorem evaluate_keyIs_total (c : Collection) (id : Identifier) (store : Memory.Store) :
    ∀ record ∈ store.records c.name,
      ∃ hit, (c.keyIs id).evaluate store.patterns record = .ok hit :=
  fun _ _ => ⟨_, rfl⟩

theorem replaced_insert (idField : String) (previous body : Document) (id : Value) :
    replaced idField previous (Fields.insert idField id body) = replaced idField previous body := by
  rw [replaced, replaced, Fields.erase_insert_self]

theorem run_replaceStored {store : Memory.Store} (hfield : store.idField = c.idField)
    (projection : Projection) (id : Identifier) (body : Document) :
    (c.replaceStored projection id body).run handle store =
      (c.revisionResult store projection id (.replace body)
        ((store.records c.name).find? ((c.keyIs id).accepts store.patterns)),
        c.afterRevision store id (.replace body)) := by
  have hcall := replace_eq (evaluate_keyIs_total c id store)
    (Fields.insert c.idField id.stored body)
  simp only [hfield, replaced_insert] at hcall
  rw [replaceStored, run_bind, run_perform, handle, hcall]
  cases (store.records c.name).find? ((c.keyIs id).accepts store.patterns) with
  | none => rfl
  | some previous =>
      cases hmissing : store.missingField? c.name (replaced c.idField previous body) with
      | some field =>
          simp only [checked, revisionResult, changed, hmissing]
          rfl
      | none =>
          simp only [checked, revisionResult, changed, hmissing]
          rfl

theorem run_mergeStored (store : Memory.Store) (projection : Projection) (id : Identifier)
    (patch : Document) :
    (c.mergeStored projection id patch).run handle store =
      (c.revisionResult store projection id (.merge patch)
        ((store.records c.name).find? ((c.keyIs id).accepts store.patterns)),
        c.afterRevision store id (.merge patch)) := by
  rw [mergeStored, run_bind, run_perform, handle, afterRevision]
  cases hexists : Fields.contains c.name store.collections with
  | false =>
      rw [findAndMerge_of_missing patch projection hexists,
        records_of_missing store c.name hexists]
      rfl
  | true =>
      have htotal := evaluate_keyIs_total c id store
      rw [findAndMerge_eq htotal patch projection hexists]
      cases (store.records c.name).find? ((c.keyIs id).accepts store.patterns) with
      | none => rfl
      | some previous =>
          cases hmissing : store.missingField? c.name (previous.overlay patch) with
          | some field =>
              simp only [checked, revisionResult, changed, hmissing]
              rfl
          | none =>
              simp only [checked, revisionResult, changed, hmissing, reply]
              rw [← shown_project]
              rfl

theorem run_reviseStored {store : Memory.Store} (hfield : store.idField = c.idField)
    (projection : Projection) (id : Identifier) (change : Change) :
    (c.reviseStored projection id change).run handle store =
      (c.revisionResult store projection id change
        ((store.records c.name).find? ((c.keyIs id).accepts store.patterns)),
        c.afterRevision store id change) := by
  cases change with
  | replace body => exact run_replaceStored hfield projection id body
  | merge patch => exact run_mergeStored store projection id patch

theorem run_deleteStored (store : Memory.Store) (projection : Projection) (id : Identifier) :
    (c.deleteStored projection id).run handle store =
      (c.deletionResult projection id
        ((store.records c.name).find? ((c.keyIs id).accepts store.patterns)),
        if ((store.records c.name).find? ((c.keyIs id).accepts store.patterns)).isSome then
          store.setRecords c.name
            ((store.records c.name).eraseP ((c.keyIs id).accepts store.patterns))
        else store) := by
  rw [deleteStored, run_bind, run_perform, handle,
    findAndDelete_eq (evaluate_keyIs_total c id store)]
  cases (store.records c.name).find? ((c.keyIs id).accepts store.patterns) with
  | none => rfl
  | some record =>
      rw [deletionResult, ← shown_project]
      rfl

/-! ## The store afterwards -/

theorem settings_afterRevision (store : Memory.Store) (id : Identifier) (change : Change) :
    (c.afterRevision store id change).settings = store.settings := by
  unfold afterRevision
  split <;> rfl

theorem afterRevision_of_writes {store : Memory.Store} {change : Change}
    (h : (change.creates || Fields.contains c.name store.collections) = true) (id : Identifier) :
    c.afterRevision store id change =
      store.withFirstChanged c.name (c.keyIs id) (changed c.idField change) := by
  rw [afterRevision, if_pos h]

theorem afterRevision_of_not_writes {store : Memory.Store} {change : Change}
    (h : (change.creates || Fields.contains c.name store.collections) = false)
    (id : Identifier) : c.afterRevision store id change = store := by
  rw [afterRevision, h]
  rfl

/-- Two changes one after the other write the collection once. -/
theorem afterRevision_afterRevision {store : Memory.Store} {change : Change}
    (h : (change.creates || Fields.contains c.name store.collections) = true)
    (id other : Identifier) (last : Change) :
    c.afterRevision (c.afterRevision store id change) other last =
      store.setRecords c.name
        (changeFirst ((c.keyIs other).accepts store.patterns)
          (store.settled c.name (changed c.idField last))
          (changeFirst ((c.keyIs id).accepts store.patterns)
            (store.settled c.name (changed c.idField change)) (store.records c.name))) := by
  have hsettled : (store.withFirstChanged c.name (c.keyIs id) (changed c.idField change)).settled =
      store.settled := settled_congr rfl
  rw [afterRevision_of_writes h,
    afterRevision_of_writes (by rw [contains_withFirstChanged, Bool.or_true]), withFirstChanged,
    hsettled, withFirstChanged, records_setRecords_self, setRecords_setRecords]
  rfl

theorem records_afterRevision (store : Memory.Store) (id : Identifier) (change : Change) :
    (c.afterRevision store id change).records c.name =
      changeFirst ((c.keyIs id).accepts store.patterns)
        (store.settled c.name (changed c.idField change)) (store.records c.name) := by
  unfold afterRevision
  split
  · rw [withFirstChanged, records_setRecords_self]
  · next hmissing =>
    rw [Bool.or_eq_true, not_or, Bool.not_eq_true, Bool.not_eq_true] at hmissing
    rw [records_of_missing store c.name hmissing.2]
    rfl

theorem get?_settled {change : Change} (hspares : change.Spares c.idField) (store : Memory.Store)
    (record : Document) :
    Fields.get? c.idField (store.settled c.name (changed c.idField change) record) =
      Fields.get? c.idField record := by
  rcases settled_eq_or store c.name (changed c.idField change) record with hsame | hchanged
  · rw [hsame]
  · rw [hchanged, get?_changed hspares]

theorem revisionResult_congr {store after : Memory.Store} (h : after.settings = store.settings) :
    c.revisionResult after = c.revisionResult store := by
  funext projection id change found
  cases found with
  | none => rfl
  | some previous => rw [revisionResult, revisionResult, missingField?_congr store h]

/-! ## Requests -/

namespace Request

theorem program_reviseAt {record body : Document} {id : Value} {key : Identifier}
    (hpayload : c.payload record = .ok body) (hid : readId id = .ok key) (fields : FieldChoice) :
    (replaceAt record id fields).program c =
        c.reviseStored (c.projection fields) key (.replace body) ∧
      (mergeAt record id fields).program c =
        c.reviseStored (c.projection fields) key (.merge body) := by
  constructor
  · rw [program, Collection.replaceAt, hpayload, hid]
    rfl
  · rw [program, Collection.mergeAt, hpayload, hid]
    rfl

end Request

end Collection

end DocumentStore
