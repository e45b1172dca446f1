import DocumentStore.Proofs.Backend.Endings
import DocumentStore.Proofs.Collection.ReadBack
import DocumentStore.Proofs.Memory.Promises
import DocumentStore.Proofs.Predicate.FailingLeaves

/-!
# How the steps of operations end

What a step returns and how it fails, for every store that answers out of its records: a record
leaves in the form that is shown, whichever way it came, and a failure of the store is put into
the context of the operation.
-/

namespace DocumentStore

open Backend Program

/-! ## Values that are shown -/

/-- No object identifier. -/
def Value.IsPlain (value : Value) : Prop := ∀ id, value ≠ .objectId id

namespace Identifier

theorem isPlain_shownValue (value : Value) : (shownValue value).IsPlain := by
  intro id h
  cases value with
  | _ => cases h

theorem isPlain_value (literal : Literal) : literal.value.IsPlain := by
  intro id h
  cases literal with
  | int n =>
      rw [Literal.value, Value.ofInt64] at h
      split at h <;> cases h
  | _ => cases h

theorem isPlain_shown_ofText (typed : Bool) (text : List Char) :
    (ofText typed text).shown.IsPlain := by
  rw [ofText]
  split
  · intro id h
    cases h
  · split
    · exact isPlain_value (Literal.ofToken text)
    · intro id h
      cases h

theorem isPlain_shown_ofValue (typed : Bool) (value : Value) :
    (ofValue typed value).shown.IsPlain := by
  cases value with
  | string s => exact isPlain_shown_ofText typed s.toList
  | _ =>
      intro id h
      cases h

end Identifier

theorem IdentifierList.isPlain_shown {ids : IdentifierList} {id : Identifier}
    (h : id ∈ ids.identifiers) : id.shown.IsPlain := by
  cases ids with
  | delimited text =>
      obtain ⟨element, -, rfl⟩ := List.mem_map.1 h
      exact Identifier.isPlain_shown_ofText true element
  | values items =>
      obtain ⟨item, -, rfl⟩ := List.mem_map.1 h
      exact Identifier.isPlain_shown_ofValue false item

/-- The record of an outcome, or the cause of its failure, is of the given kind. -/
structure Outcome.Holds (fine : Document → Prop) (excused : Failure → Prop) (outcome : Outcome) :
    Prop where
  record : ∀ record, outcome = .record record → fine record
  failed : ∀ cause, outcome = .failed cause → excused cause

namespace Outcome

variable {fine : Document → Prop} {excused : Failure → Prop}

theorem holds_record {record : Document} (h : fine record) :
    (Outcome.record record).Holds fine excused where
  record _ hother := by
    cases hother
    exact h
  failed := nofun

theorem holds_failed {cause : Failure} (h : excused cause) :
    (Outcome.failed cause).Holds fine excused where
  record := nofun
  failed _ hother := by
    cases hother
    exact h

theorem holds_notAttempted : Outcome.notAttempted.Holds fine excused := ⟨nofun, nofun⟩

end Outcome

namespace Collection

variable (c : Collection)

/-- What the collection shows is fine, out of stored records, out of records that carry an
identifier, and made of an identifier alone. -/
structure Shows (projection : Projection) (stored fine : Document → Prop) : Prop where
  stored : ∀ record, stored record → fine (c.shown projection record)
  identified : ∀ record, Fields.contains c.idField record = true →
    fine (c.shown projection record)
  alone : ∀ id : Value, id.IsPlain → fine [(c.idField, id)]

theorem shows_any (projection : Projection) (stored : Document → Prop) :
    c.Shows projection stored fun _ => True :=
  ⟨fun _ _ => trivial, fun _ _ => trivial, fun _ _ => trivial⟩

variable {c} {patterns : PatternReader} {projection : Projection} {stored fine : Document → Prop}
  {operation : Operation} {excused : Failure → Prop} {excusedFor : Identifier → Failure → Prop}

/-! ## Calls -/

/-- The filter can be evaluated on every record, whatever the engine is. -/
def NeverFails (filter : Predicate) : Prop :=
  ∀ reader record failure, filter.evaluate reader record ≠ .error failure

theorem neverFails_none : ∀ filter ∈ (none : Option Predicate), NeverFails filter := by
  rintro _ ⟨⟩

theorem neverFails_keyIs {id : Identifier} : ∀ filter ∈ some (c.keyIs id), NeverFails filter := by
  rintro _ ⟨⟩
  exact nofun

theorem neverFails_oneOf {field : String} {values : List Value} :
    ∀ filter ∈ some (Predicate.oneOf field values), NeverFails filter := by
  rintro _ ⟨⟩
  exact nofun

theorem ends_call {call : Call} (hfailed : ∀ text, excused (.failed operation c.name text))
    (hfilter : ∀ filter ∈ call.filter?, ∀ record failure,
      filter.evaluate patterns record = .error failure → excused failure) :
    (perform operation c.name call).Ends (AnswersFrom patterns stored)
      (fun answer => ∀ record ∈ call.found answer,
        ∃ original, stored original ∧ record = call.projection.project original) excused := by
  refine ends_perform (fun answer h => h.found answer rfl) fun cause h => ?_
  rcases h.failed cause rfl with ⟨text, rfl⟩ | ⟨filter, hcall, record, hfails⟩
  · exact hfailed text
  · obtain ⟨text, rfl⟩ := Predicate.exists_badRequest_of_evaluate hfails
    exact hfilter filter hcall record _ hfails

theorem ends_total_call {call : Call} (hfailed : ∀ text, excused (.failed operation c.name text))
    (hfilter : ∀ filter ∈ call.filter?, NeverFails filter) :
    (perform operation c.name call).Ends (AnswersFrom patterns stored)
      (fun answer => ∀ record ∈ call.found answer,
        ∃ original, stored original ∧ record = call.projection.project original) excused :=
  ends_call hfailed fun filter hcall record failure hfails =>
    absurd hfails (hfilter filter hcall patterns record failure)

/-! ## One identifier -/

section

variable (hshows : c.Shows projection stored fine)

include hshows

theorem Shows.found {record : Document}
    (h : ∃ original, stored original ∧ record = projection.project original) :
    fine (c.shown projection record) := by
  obtain ⟨original, horiginal, rfl⟩ := h
  rw [shown_project]
  exact hshows.stored original horiginal

variable {id : Identifier}

theorem ends_replaceStored (hfailed : ∀ text, excused (.failed .update c.name text))
    (hmiss : excused (c.notFound id)) (record : Document) :
    (c.replaceStored projection id record).Ends (AnswersFrom patterns stored) fine excused := by
  refine ends_bind (ends_total_call hfailed neverFails_keyIs) fun matched _ => ?_
  split
  · exact ends_fail hmiss
  · refine ends_pure (hshows.identified _ ?_)
    rw [Fields.contains, Fields.get?_insert_self]
    rfl

theorem ends_orNotFound (hmiss : excused (c.notFound id)) {found : Option Document}
    (hfound : ∀ record ∈ found.toList,
      ∃ original, stored original ∧ record = projection.project original) :
    (c.orNotFound id projection found).Ends (AnswersFrom patterns stored) fine excused := by
  cases found with
  | none => exact ends_fail hmiss
  | some record => exact ends_pure (hshows.found (hfound record (List.mem_singleton_self _)))

theorem ends_mergeStored (hfailed : ∀ text, excused (.failed .merge c.name text))
    (hmiss : excused (c.notFound id)) (patch : Document) :
    (c.mergeStored projection id patch).Ends (AnswersFrom patterns stored) fine excused :=
  ends_bind (ends_total_call hfailed neverFails_keyIs) fun _ => ends_orNotFound hshows hmiss

theorem ends_deleteStored (hfailed : ∀ text, excused (.failed .delete c.name text))
    (hmiss : excused (c.notFound id)) :
    (c.deleteStored projection id).Ends (AnswersFrom patterns stored) fine excused :=
  ends_bind (ends_total_call hfailed neverFails_keyIs) fun _ => ends_orNotFound hshows hmiss

theorem ends_findStored (hfailed : ∀ text, excused (.failed .retrieve c.name text))
    (id : Identifier) :
    (c.findStored projection id).Ends (AnswersFrom patterns stored)
      (fun found => ∀ record, found = some record → fine record) excused := by
  refine ends_bind (ends_total_call hfailed neverFails_keyIs) fun found hfound => ?_
  refine ends_pure fun record hrecord => ?_
  obtain ⟨first, hfirst, rfl⟩ := Option.map_eq_some_iff.1 hrecord
  exact hshows.found (hfound first (List.mem_of_mem_head? hfirst))

/-! ## Lists of identifiers -/

theorem holds_pair {found : List Document}
    (hfound : ∀ record ∈ found,
      ∃ original, stored original ∧ record = projection.project original)
    (hmiss : excused (c.notFound id)) : (c.pair projection found id).Holds fine excused := by
  rw [pair]
  split
  · next record hrecord =>
    exact Outcome.holds_record (hshows.found (hfound record (List.mem_of_find?_eq_some hrecord)))
  · exact Outcome.holds_failed hmiss

variable {ids : List Identifier}

theorem ends_lookUpListed (hfailed : ∀ text, excused (.failed operation c.name text))
    (hmiss : ∀ id, excusedFor id (c.notFound id)) :
    (c.lookUpListed operation projection ids).Ends (AnswersFrom patterns stored)
      (List.Forall₂ (fun id outcome => outcome.Holds fine (excusedFor id)) ids) excused := by
  refine ends_bind (ends_total_call hfailed neverFails_oneOf) fun found hfound => ?_
  refine ends_pure (List.forall₂_map_right_iff.2 (List.forall₂_same.2 fun id _ => ?_))
  exact holds_pair hshows hfound (hmiss id)

theorem ends_outcomesOf (hfailed : ∀ text, excused (.failed operation c.name text))
    (hmiss : ∀ id, excusedFor id (c.notFound id)) (hids : ∀ id ∈ ids, id.shown.IsPlain) :
    (c.outcomesOf operation projection ids).Ends (AnswersFrom patterns stored)
      (List.Forall₂ (fun id outcome => outcome.Holds fine (excusedFor id)) ids) excused := by
  unfold outcomesOf
  split
  · refine ends_pure (List.forall₂_map_right_iff.2 (List.forall₂_same.2 fun id hid => ?_))
    exact Outcome.holds_record (hshows.alone id.shown (hids id hid))
  · exact ends_lookUpListed hshows hfailed hmiss

theorem ends_removeListed (hfailed : ∀ text, excused (.failed .delete c.name text))
    (hmiss : ∀ id, excusedFor id (c.notFound id)) (hids : ∀ id ∈ ids, id.shown.IsPlain) :
    (c.removeListed projection ids).Ends (AnswersFrom patterns stored)
      (List.Forall₂ (fun id outcome => outcome.Holds fine (excusedFor id)) ids) excused :=
  ends_bind (ends_outcomesOf hshows hfailed hmiss hids) fun _ houtcomes =>
    ends_bind (ends_total_call hfailed neverFails_oneOf) fun _ _ => ends_pure houtcomes

theorem ends_modifyListed (hfailed : ∀ text, excused (.failed operation c.name text))
    (hmiss : ∀ id, excusedFor id (c.notFound id)) (hids : ∀ id ∈ ids, id.shown.IsPlain)
    (change : Change) :
    (c.modifyListed operation change projection ids).Ends (AnswersFrom patterns stored)
      (List.Forall₂ (fun id outcome => outcome.Holds fine (excusedFor id)) ids) excused :=
  ends_bind (ends_total_call hfailed neverFails_oneOf) fun _ _ =>
    ends_outcomesOf hshows hfailed hmiss hids

/-! ## Filters -/

variable {filter : Predicate}
  (hfilter : ∀ record failure,
    filter.evaluate patterns record = .error failure → excused failure)

include hfilter

theorem ends_modifyMatching (hfailed : ∀ text, excused (.failed operation c.name text))
    (change : Change) :
    (c.modifyMatching operation change projection filter).Ends (AnswersFrom patterns stored)
      (fun records => ∀ record ∈ records, fine record) excused := by
  refine ends_bind (ends_call hfailed ?_) fun found _ => ?_
  · rintro _ ⟨⟩
    exact hfilter
  dsimp only
  split
  · exact ends_pure nofun
  · refine ends_bind (ends_total_call hfailed neverFails_oneOf) fun _ _ => ?_
    split
    · refine ends_pure fun record hrecord => ?_
      obtain ⟨id, -, rfl⟩ := List.mem_map.1 hrecord
      exact hshows.alone _ (Identifier.isPlain_shownValue id)
    · refine ends_bind (ends_total_call hfailed neverFails_oneOf) fun again hagain => ?_
      refine ends_pure fun record hrecord => ?_
      obtain ⟨changed, hchanged, rfl⟩ := List.mem_map.1 hrecord
      exact hshows.found (hagain changed hchanged)

theorem ends_removeMatching (hfailed : ∀ text, excused (.failed .delete c.name text)) :
    (c.removeMatching projection filter).Ends (AnswersFrom patterns stored)
      (fun records => ∀ record ∈ records, fine record) excused := by
  refine ends_bind (ends_call hfailed ?_) fun found hfound => ?_
  · rintro _ ⟨⟩
    exact hfilter
  have hshown : ∀ record ∈ found.map (c.shown projection), fine record := by
    intro record hrecord
    obtain ⟨removed, hremoved, rfl⟩ := List.mem_map.1 hrecord
    exact hshows.found (hfound removed hremoved)
  dsimp only
  split
  · exact ends_bind (ends_total_call hfailed neverFails_oneOf) fun _ _ => ends_pure hshown
  · exact ends_pure hshown

end

/-! ## Batches -/

theorem ends_assignId (record : Document) :
    (c.assignId record).Ends (AnswersFrom patterns stored)
      (fun assigned => Fields.contains c.idField assigned = true) excused := by
  unfold assignId
  dsimp only
  split
  · next hcontains => exact ends_pure hcontains
  · next hmissing =>
    refine ends_bind (ends_send (fun _ _ => trivial) ?_) fun id (_ : True) => ?_
    · intro cause h
      obtain ⟨id, hid⟩ := h.issued rfl
      cases hid
    · have hnone : Fields.get? c.idField (Identifier.storedRecord c.idField record) = none := by
        simpa [Fields.contains] using hmissing
      refine ends_pure ?_
      rw [Fields.contains, Fields.get?_insertAll_of_ne fun _ hfield =>
        Fields.ne_of_get?_eq_none hnone hfield]
      rw [Fields.get?_cons, if_pos rfl]
      rfl

theorem ends_forEach {step : Identifier → Document → Program Document}
    {records : List (Identifier × Document)} {excusedAt : Identifier × Document → Failure → Prop}
    (h : ∀ entry ∈ records,
      (step entry.1 entry.2).Ends (AnswersFrom patterns stored) fine (excusedAt entry)) :
    (forEach step records).Ends (AnswersFrom patterns stored)
      (List.Forall₂ (fun entry outcome => outcome.Holds fine (excusedAt entry)) records)
      excused := by
  refine ends_mapM fun entry hentry => ends_attempt_bind (h entry hentry) ?_ ?_
  · exact fun record hrecord => ends_pure (Outcome.holds_record hrecord)
  · exact fun cause hcause => ends_pure (Outcome.holds_failed hcause)

end Collection

end DocumentStore
