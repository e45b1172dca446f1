import DocumentStore.Proofs.Collection.SingleChanges
import DocumentStore.Proofs.Document.Reordering

/-!
# Merges of two clients

Two merges by identifier write to different places, of one record or of two.  Whichever of them
comes first, both values are stored, and only the place of a new field tells the order.
-/

namespace DocumentStore

open Backend Program Memory Memory.Store

namespace Memory

/-- The same collections of the same records in their order, up to the order of fields. -/
def Store.SameUpToOrder (store other : Store) : Prop :=
  List.Forall₂ (fun collection collection' => collection.1 = collection'.1 ∧
    List.Forall₂ Document.Reordered collection.2 collection'.2) store.collections other.collections

theorem forall₂_reordered_refl (records : List Document) :
    List.Forall₂ Document.Reordered records records :=
  List.forall₂_same.2 fun record _ => .refl record

theorem Store.sameUpToOrder_refl (store : Store) : store.SameUpToOrder store :=
  List.forall₂_same.2 fun collection _ => ⟨rfl, forall₂_reordered_refl collection.2⟩

theorem Store.sameUpToOrder_setRecords (store : Store) (collection : String)
    {records others : List Document} (h : List.Forall₂ Document.Reordered records others) :
    (store.setRecords collection records).SameUpToOrder (store.setRecords collection others) := by
  unfold SameUpToOrder setRecords
  induction store.collections with
  | nil => exact .cons ⟨rfl, h⟩ .nil
  | cons first collections ih =>
      have hrest : List.Forall₂ (fun collection collection' => collection.1 = collection'.1 ∧
          List.Forall₂ Document.Reordered collection.2 collection'.2) collections collections :=
        List.forall₂_same.2 fun collection _ => ⟨rfl, forall₂_reordered_refl collection.2⟩
      simp only [Fields.insert]
      split
      · exact .cons ⟨rfl, h⟩ hrest
      · exact .cons ⟨rfl, forall₂_reordered_refl first.2⟩ ih

theorem Store.settled_of_no_required {store : Store} {collection : String}
    (h : (Fields.get? collection store.required).getD [] = []) (change : Document → Document) :
    store.settled collection change = change := by
  funext record
  rw [settled, missingField?, h]
  rfl

end Memory

namespace Collection

/-- Both answers are a record, or both are that there is none. -/
def AnsweredAlike (c : Collection) (key : Identifier) (answer other : Except Failure Document) :
    Prop :=
  (∃ shown shown', answer = .ok shown ∧ other = .ok shown') ∨
    answer = .error (c.notFound key) ∧ other = .error (c.notFound key)

/-- Two steps under identifiers leave the same collections in either order, up to the order of
fields, and are answered as they are without the other. -/
structure Commute (c : Collection) (key key' : Identifier)
    (step step' : Memory.Store → Except Failure Document × Memory.Store) (before : Memory.Store) :
    Prop where
  collections : (step' (step before).2).2.SameUpToOrder (step (step' before).2).2
  answer : c.AnsweredAlike key (step before).1 (step (step' before).2).1
  answer' : c.AnsweredAlike key' (step' before).1 (step' (step before).2).1

variable {c : Collection}

theorem accepts_keyIs_overlay {reader : PatternReader} (hdot : '.' ∉ c.idField.toList)
    {patch : Document} (hspares : patch.Spares c.idField) (id : Identifier) (record : Document) :
    (c.keyIs id).accepts reader (record.overlay patch) = (c.keyIs id).accepts reader record := by
  rw [accepts_keyIs hdot, accepts_keyIs hdot, Document.get?_overlay_of_spares hspares]

section Merges

variable {store : Memory.Store} (hrequired : (Fields.get? c.name store.required).getD [] = [])

include hrequired

theorem answeredAlike_revisionResult (projection : Projection) (key : Identifier)
    (patch : Document) {found found' : Option Document} (h : found.isSome = found'.isSome) :
    c.AnsweredAlike key (c.revisionResult store projection key (.merge patch) found)
      (c.revisionResult store projection key (.merge patch) found') := by
  have hmissing (record : Document) : store.missingField? c.name record = none := by
    rw [missingField?, hrequired]
    rfl
  cases found with
  | none =>
      cases found' with
      | none => exact .inr ⟨rfl, rfl⟩
      | some other => cases h
  | some previous =>
      cases found' with
      | none => cases h
      | some other =>
          rw [revisionResult, revisionResult, hmissing, hmissing]
          exact .inl ⟨_, _, rfl, rfl⟩

theorem isSome_find?_afterRevision (hdot : '.' ∉ c.idField.toList) {patch : Document}
    (hspares : patch.Spares c.idField) (key other : Identifier) :
    (((c.afterRevision store key (.merge patch)).records c.name).find?
      ((c.keyIs other).accepts store.patterns)).isSome =
      ((store.records c.name).find? ((c.keyIs other).accepts store.patterns)).isSome := by
  rw [records_afterRevision, settled_of_no_required hrequired]
  exact isSome_find?_changeFirst fun record => accepts_keyIs_overlay hdot hspares other record

theorem sameUpToOrder_afterRevision (hdot : '.' ∉ c.idField.toList) {patch patch' : Document}
    (hspares : patch.Spares c.idField) (hspares' : patch'.Spares c.idField)
    (hapart : patch.PathsApart patch') (key key' : Identifier) :
    (c.afterRevision (c.afterRevision store key (.merge patch)) key'
      (.merge patch')).SameUpToOrder
      (c.afterRevision (c.afterRevision store key' (.merge patch')) key (.merge patch)) := by
  have hcreates (written : Document) : ((Change.merge written).creates ||
      Fields.contains c.name store.collections) = Fields.contains c.name store.collections := rfl
  cases hexists : Fields.contains c.name store.collections with
  | false =>
      have hsame (id : Identifier) (written : Document) :
          c.afterRevision store id (.merge written) = store :=
        afterRevision_of_not_writes ((hcreates written).trans hexists) id
      rw [hsame, hsame, hsame]
      exact sameUpToOrder_refl store
  | true =>
      rw [afterRevision_afterRevision ((hcreates patch).trans hexists),
        afterRevision_afterRevision ((hcreates patch').trans hexists),
        settled_of_no_required hrequired, settled_of_no_required hrequired]
      apply sameUpToOrder_setRecords
      exact forall₂_changeFirst_comm (fun record => .refl record)
        (accepts_keyIs_overlay hdot hspares' key) (accepts_keyIs_overlay hdot hspares key')
        fun record => Document.overlay_comm hapart.symm record

end Merges

/-! ## Requests -/

namespace Request

theorem run_mergeAt {record patch : Document} (hpatch : c.payload record = .ok patch) {id : Value}
    {key : Identifier} (hid : readId id = .ok key) (fields : FieldChoice) (store : Memory.Store) :
    ((mergeAt record id fields).program c).run handle store =
      (c.revisionResult store (c.projection fields) key (.merge patch)
        ((store.records c.name).find? ((c.keyIs key).accepts store.patterns)),
        c.afterRevision store key (.merge patch)) := by
  rw [(program_reviseAt hpatch hid fields).2]
  exact run_mergeStored store (c.projection fields) key patch

theorem answeredAlike_mergeAt (hdot : '.' ∉ c.idField.toList) {before : Memory.Store}
    (hrequired : (Fields.get? c.name before.required).getD [] = [])
    {record patch patch' : Document} (hpatch : c.payload record = .ok patch)
    (hspares' : patch'.Spares c.idField) {id : Value} {key : Identifier} (hid : readId id = .ok key)
    (fields : FieldChoice) (key' : Identifier) :
    c.AnsweredAlike key (((mergeAt record id fields).program c).run handle before).1
      (((mergeAt record id fields).program c).run handle
        (c.afterRevision before key' (.merge patch'))).1 := by
  have hsettings := settings_afterRevision (c := c) before key' (.merge patch')
  rw [run_mergeAt hpatch hid, run_mergeAt hpatch hid, revisionResult_congr hsettings,
    patterns_of_settings before hsettings]
  apply answeredAlike_revisionResult hrequired
  exact (isSome_find?_afterRevision hrequired hdot hspares' key' key).symm

/-- Merges by identifier to different places commute, if no field is required and neither writes
to the identifier: no value that one of them writes is lost to the other. -/
theorem commute_of_pathsApart {c : Collection} (hdot : '.' ∉ c.idField.toList)
    {before : Memory.Store} (hrequired : (Fields.get? c.name before.required).getD [] = [])
    {record record' patch patch' : Document} (hpatch : c.payload record = .ok patch)
    (hpatch' : c.payload record' = .ok patch') (hspares : patch.Spares c.idField)
    (hspares' : patch'.Spares c.idField) (hapart : patch.PathsApart patch')
    {id id' : Value} {key key' : Identifier} (hid : readId id = .ok key)
    (hid' : readId id' = .ok key') (fields fields' : FieldChoice) :
    c.Commute key key' (((mergeAt record id fields).program c).run handle)
      (((mergeAt record' id' fields').program c).run handle) before := by
  have hstep := congrArg Prod.snd (run_mergeAt hpatch hid fields before)
  have hstep' := congrArg Prod.snd (run_mergeAt hpatch' hid' fields' before)
  refine ⟨?_, ?_, ?_⟩
  · rw [hstep, hstep', run_mergeAt hpatch hid, run_mergeAt hpatch' hid']
    exact sameUpToOrder_afterRevision hrequired hdot hspares hspares' hapart key key'
  · rw [hstep']
    exact answeredAlike_mergeAt hdot hrequired hpatch hspares' hid fields key'
  · rw [hstep]
    exact answeredAlike_mergeAt hdot hrequired hpatch' hspares hid' fields' key

/-- Both merges write into the text of the field `a`, which becomes a document, and both add a
field, so the orders differ in the places of fields. -/
theorem commute_of_two_merges :
    let c : Collection := ⟨"c", "_id"⟩
    let before : Memory.Store :=
      { collections := [("c", [[("_id", .int32 1), ("a", .string "x"), ("b", .int32 2)]])],
        freshId := .ofNat }
    let record : Document := [("_id", .int32 9), ("a.x", .int32 3), ("d", .int32 4)]
    let record' : Document := [("a.y.z", .int32 5), ("e", .null)]
    let patch : Document := [("a.x", .int32 3), ("d", .int32 4)]
    '.' ∉ c.idField.toList ∧ (Fields.get? c.name before.required).getD [] = [] ∧
    c.payload record = .ok patch ∧ c.payload record' = .ok record' ∧
    patch.Spares c.idField ∧ record'.Spares c.idField ∧ patch.PathsApart record' ∧
    readId (.int32 1) = .ok (.external (.int32 1)) ∧
    readId (.int64 1) = .ok (.external (.int64 1)) ∧
    c.Commute (.external (.int32 1)) (.external (.int64 1))
      (((mergeAt record (.int32 1) default).program c).run handle)
      (((mergeAt record' (.int64 1) default).program c).run handle) before := by
  intro c before record record' patch
  have hdot : '.' ∉ c.idField.toList := by decide
  have hspares : patch.Spares c.idField := by decide
  have hspares' : record'.Spares c.idField := by decide
  have hapart : patch.PathsApart record' := by decide
  exact ⟨hdot, rfl, rfl, rfl, hspares, hspares', hapart, rfl, rfl,
    commute_of_pathsApart hdot rfl rfl rfl hspares hspares' hapart rfl rfl default default⟩

end Request

end Collection

end DocumentStore
