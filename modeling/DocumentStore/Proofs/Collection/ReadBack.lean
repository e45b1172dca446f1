import DocumentStore.Proofs.Collection.Readings
import DocumentStore.Proofs.Collection.SingleChanges
import DocumentStore.Proofs.Document.Splitting

/-!
# Reading a replacement back

The answer to a replacement is made of the payload and of the identifier that was asked for, and
the store keeps the payload under the identifier that it had.  A reading by the same identifier
finds what was answered, up to the order of fields and the kind of number of the identifier.
-/

namespace DocumentStore

open Backend Program Memory Memory.Store

/-- Only object identifiers are shown in another form, and they equal nothing else. -/
theorem Value.equal_shownValue {value wanted : Value}
    (h : value.comparand.equal wanted.comparand = true) :
    (Identifier.shownValue value).comparand.equal (Identifier.shownValue wanted).comparand =
      true := by
  cases value with
  | objectId id =>
      cases wanted with
      | objectId other =>
          have hsame : id = other := by simpa [comparand, Comparand.equal] using h
          simp [hsame, Identifier.shownValue, comparand, Comparand.equal]
      | _ => simp [comparand, Comparand.equal] at h
  | _ =>
      cases wanted with
      | objectId other => simp [comparand, Comparand.equal] at h
      | _ => exact h

namespace Collection

/-- Two shown records with the same fields in whatever order, whose identifiers are equal for the
store. -/
def ShowsSame (c : Collection) (record other : Document) : Prop :=
  ∃ id id' rest, record.Splits c.idField id rest ∧ other.Splits c.idField id' rest ∧
    id'.comparand.equal id.comparand = true

theorem replaced_eq_cons {idField : String} {previous body : Document} {id : Value}
    (hid : Fields.get? idField previous = some id) (hbody : (Fields.keys body).Nodup) :
    replaced idField previous body = (idField, id) :: Fields.erase idField body := by
  rw [replaced, hid]
  refine Fields.insertAll_of_new (Fields.nodup_keys_erase hbody idField) ?_
  intro field hfield other hother
  rw [List.mem_singleton.1 hother]
  exact (Fields.ne_of_mem_erase hfield).symm

theorem splits_replaced {idField : String} {previous body : Document} {id : Value}
    (hid : Fields.get? idField previous = some id) (hbody : (Fields.keys body).Nodup) :
    (replaced idField previous body).Splits idField id (Fields.erase idField body) := by
  rw [replaced_eq_cons hid hbody]
  exact ⟨.refl _, fun _ hfield => Fields.ne_of_mem_erase hfield⟩

variable {c : Collection}

theorem splits_shown (hdot : '.' ∉ c.idField.toList) (fields : FieldChoice)
    {record rest : Document} {id : Value} (h : record.Splits c.idField id rest) :
    (c.shown (c.projection fields) record).Splits c.idField (Identifier.shownValue id)
      ((c.projection fields).project rest) := by
  have hprojected : ((c.projection fields).project record).Splits c.idField id
      ((c.projection fields).project rest) := by
    constructor
    · rw [← project_cons_id hdot]
      exact Projection.project_perm _ h.perm
    · intro field hfield
      obtain ⟨other, hother, hkey⟩ := Projection.exists_of_mem_project hfield
      exact hkey ▸ h.others other hother
  rw [shown, Identifier.shownRecord, hprojected.get?]
  exact hprojected.insert _

/-! ## The run of a replacement -/

section Replacement

variable {before after : Memory.Store} (hdot : '.' ∉ c.idField.toList)
    (hfield : before.idField = c.idField) {key : Identifier} {body shown : Document}

include hdot hfield

theorem of_run_replaceStored {projection : Projection}
    (hrun : (c.replaceStored projection key body).run handle before = (.ok shown, after)) :
    ∃ previous,
      (before.records c.name).find? ((c.keyIs key).accepts before.patterns) = some previous ∧
      shown = c.shown projection (Fields.insert c.idField key.stored body) ∧
      (after.records c.name).find? ((c.keyIs key).accepts after.patterns) =
        some (replaced c.idField previous body) := by
  rw [run_replaceStored hfield] at hrun
  obtain ⟨hanswer, rfl⟩ := Prod.mk.inj hrun
  have haccepts (record : Document) : (c.keyIs key).accepts before.patterns
      (before.settled c.name (changed c.idField (.replace body)) record) =
        (c.keyIs key).accepts before.patterns record := by
    have hspares : (Change.replace body).Spares c.idField := trivial
    rw [accepts_keyIs hdot, accepts_keyIs hdot, get?_settled hspares]
  cases hfind : (before.records c.name).find? ((c.keyIs key).accepts before.patterns) with
  | none =>
      rw [hfind] at hanswer
      cases hanswer
  | some previous =>
      rw [hfind, revisionResult] at hanswer
      cases hmissing : before.missingField? c.name (changed c.idField (.replace body) previous) with
      | some field =>
          rw [hmissing] at hanswer
          cases hanswer
      | none =>
          rw [hmissing] at hanswer
          refine ⟨previous, rfl, (Except.ok.inj hanswer).symm, ?_⟩
          rw [patterns_of_settings before (settings_afterRevision before key _),
            records_afterRevision, find?_changeFirst_self haccepts, hfind, Option.map_some,
            settled, hmissing]
          rfl

end Replacement

theorem run_retrieveAt_of_find? {id : Value} {key : Identifier} (hid : readId id = .ok key)
    {store : Memory.Store} {record : Document}
    (hfind : (store.records c.name).find? ((c.keyIs key).accepts store.patterns) = some record)
    (fields : FieldChoice) :
    ((Request.retrieveAt id fields).program c).run handle store =
      (.ok (c.shown (c.projection fields) record), store) := by
  rw [Request.program, retrieveAt, hid]
  change (c.findStored (c.projection fields) key >>= _).run handle store = _
  rw [run_bind, run_findStored, hfind]
  rfl

theorem showsSame_of_run_replaceStored (hdot : '.' ∉ c.idField.toList) {before after : Memory.Store}
    (hfield : before.idField = c.idField)
    (hids : ∀ record ∈ before.records c.name, ∃ id, Fields.get? c.idField record = some id ∧
      id.IsScalar) {body : Document} (hbody : (Fields.keys body).Nodup) {id : Value}
    {key : Identifier} (hid : readId id = .ok key) {fields : FieldChoice} {shown : Document}
    (hrun : (c.replaceStored (c.projection fields) key body).run handle before =
      (.ok shown, after)) :
    ∃ read, ((Request.retrieveAt id fields).program c).run handle after = (.ok read, after) ∧
      c.ShowsSame shown read := by
  obtain ⟨previous, hfind, rfl, hafter⟩ := of_run_replaceStored hdot hfield hrun
  obtain ⟨old, hold, hscalar⟩ := hids previous (List.mem_of_find?_eq_some hfind)
  have hequal : old.comparand.equal key.stored.comparand = true := by
    have haccepts := List.find?_some hfind
    rwa [accepts_keyIs hdot, hold, Value.foundEqual_of_isScalar hscalar] at haccepts
  refine ⟨_, run_retrieveAt_of_find? hid hafter fields, _, _, _,
    splits_shown hdot fields (Document.splits_insert hbody c.idField key.stored),
    splits_shown hdot fields (splits_replaced hold hbody), ?_⟩
  exact Value.equal_shownValue hequal

/-! ## Requests -/

namespace Request

theorem nodup_keys_payload {record body : Document} (hrecord : (Fields.keys record).Nodup)
    (h : c.payload record = .ok body) : (Fields.keys body).Nodup := by
  unfold payload at h
  dsimp only at h
  split at h
  · cases h
  · rw [← Except.ok.inj h]
    exact Fields.nodup_keys_erase (Fields.nodup_keys_erase hrecord _) _

theorem nodup_keys_storedRecord {idField : String} {record : Document}
    (h : (Fields.keys record).Nodup) :
    (Fields.keys (Identifier.storedRecord idField record)).Nodup := by
  unfold Identifier.storedRecord
  split
  · exact Fields.nodup_keys_insert h _ _
  · split
    · exact Fields.nodup_keys_insert (Fields.nodup_keys_erase h _) _ _
    · exact h

theorem of_addressed {operation : Operation} {record stored : Document} {key : Identifier}
    (h : c.addressed operation record = .ok (key, stored)) :
    stored = Identifier.storedRecord c.idField record ∧
      key = .ofValue false ((Fields.get? c.idField stored).getD .null) ∧
      isBlankId ((Fields.get? c.idField stored).getD .null) = false := by
  unfold addressed at h
  split at h
  · cases h
  · dsimp only at h
    split at h
    · cases h
    · next hblank =>
      obtain ⟨rfl, rfl⟩ := Prod.mk.inj (Except.ok.inj h)
      exact ⟨rfl, rfl, Bool.eq_false_iff.2 hblank⟩

theorem readId_of_addressed {operation : Operation} {record stored : Document} {key : Identifier}
    (h : c.addressed operation record = .ok (key, stored)) {id : Value}
    (hid : (Fields.get? c.idField record).or (Fields.get? Identifier.aliasField record) =
      some id) : readId id = .ok key := by
  obtain ⟨rfl, rfl, hblank⟩ := of_addressed h
  rw [Identifier.get?_storedRecord hid, Option.getD_some] at hblank ⊢
  have hvalue : ¬ isBlankId id = true := fun hvalue => by
    rw [isBlankId_stored_of_isBlankId hvalue] at hblank
    cases hblank
  rw [readId, if_neg hvalue, Identifier.ofValue_stored]

/-- A reading by the identifier of an update that succeeded answers with what the update answered
with, up to the order of fields and the kind of number of the identifier.  No document has a key
twice. -/
theorem showsSame_of_replacement {c : Collection} (hdot : '.' ∉ c.idField.toList)
    {before : Memory.Store} (hfield : before.idField = c.idField)
    (hids : ∀ record ∈ before.records c.name, ∃ id, Fields.get? c.idField record = some id ∧
      id.IsScalar) {record : Document} (hrecord : (Fields.keys record).Nodup)
    (fields : FieldChoice) :
    (∀ id shown after,
      ((replaceAt record id fields).program c).run handle before = (.ok shown, after) →
      ∃ read, ((retrieveAt id fields).program c).run handle after = (.ok read, after) ∧
        c.ShowsSame shown read) ∧
    ∀ id shown after,
      (Fields.get? c.idField record).or (Fields.get? Identifier.aliasField record) = some id →
      ((replaceOne record fields).program c).run handle before = (.ok shown, after) →
      ∃ read, ((retrieveAt id fields).program c).run handle after = (.ok read, after) ∧
        c.ShowsSame shown read := by
  constructor
  · intro id shown after hrun
    obtain ⟨body, hbody, hrest⟩ := run_lift_bind_eq_ok hrun
    obtain ⟨key, hid, hreplace⟩ := run_lift_bind_eq_ok hrest
    exact showsSame_of_run_replaceStored hdot hfield hids (nodup_keys_payload hrecord hbody) hid
      hreplace
  · intro id shown after hid hrun
    obtain ⟨⟨key, stored⟩, haddressed, hreplace⟩ := run_lift_bind_eq_ok hrun
    have hstored : (Fields.keys stored).Nodup :=
      (of_addressed haddressed).1 ▸ nodup_keys_storedRecord hrecord
    exact showsSame_of_run_replaceStored hdot hfield hids hstored
      (readId_of_addressed haddressed hid) hreplace

/-- The identifier is stored in another width than the requests name it in. -/
theorem showsSame_of_wider_identifier :
    let c : Collection := ⟨"c", "_id"⟩
    let before : Memory.Store :=
      { collections := [("c", [[("_id", .int32 1), ("k", .int32 2)]])], freshId := .ofNat }
    let after : Memory.Store :=
      { collections := [("c", [[("_id", .int32 1), ("k", .int32 5), ("m", .int32 6)]])],
        freshId := .ofNat }
    let record : Document := [("id", .int64 1), ("k", .int32 5), ("m", .int32 6)]
    let fields : FieldChoice := .delimited "k"
    let shown : Document := [("k", .int32 5), ("_id", .int64 1)]
    '.' ∉ c.idField.toList ∧ before.idField = c.idField ∧
    (∀ record ∈ before.records c.name, ∃ id, Fields.get? c.idField record = some id ∧
      id.IsScalar) ∧
    (Fields.keys record).Nodup ∧
    (Fields.get? c.idField record).or (Fields.get? Identifier.aliasField record) =
      some (.int64 1) ∧
    ((replaceAt record (.int64 1) fields).program c).run handle before = (.ok shown, after) ∧
    ((replaceOne record fields).program c).run handle before = (.ok shown, after) ∧
    ∃ read, ((retrieveAt (.int64 1) fields).program c).run handle after = (.ok read, after) ∧
      c.ShowsSame shown read := by
  refine ⟨?dot, rfl, ?ids, ?keys, rfl, ?updated, rfl,
    (showsSame_of_replacement ?dot rfl ?ids ?keys _).1 (.int64 1) _ _ ?updated⟩
  case dot => decide
  case keys => decide
  case updated => rfl
  case ids =>
    intro record hrecord
    rw [List.mem_singleton.1 hrecord]
    exact ⟨.int32 1, rfl, trivial⟩

end Request

end Collection

end DocumentStore
