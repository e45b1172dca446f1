import DocumentStore.Proofs.Collection.SeenFailures

/-!
# How requests end

Every record of an answer is shown by the collection, and every failure, of a request or of a
place in a batch, is one that a caller may see there.
-/

namespace DocumentStore

open Backend Program Memory.Store

theorem Outcome.eq_record_of_record? {outcome : Outcome} {record : Document}
    (h : outcome.record? = some record) : outcome = .record record := by
  cases outcome with
  | record found =>
      cases h
      rfl
  | failed cause => cases h
  | notAttempted => cases h

namespace Collection

/-! ## The parts of a request and of its answer -/

/-- Each outcome has a record that is fine, or a failure that is seen at its place. -/
abbrev OutcomesAt (c : Collection) (fine : Document → Prop) (operations : List Operation) :
    List (Option Identifier) → List Outcome → Prop :=
  List.Forall₂ fun target outcome => outcome.Holds fine (c.Surfaces operations target)

namespace Request

def fields : Request → FieldChoice
  | .createEach _ fields _ | .createOne _ fields | .replaceEach _ fields | .replaceOne _ fields
  | .replaceAt _ _ fields | .replaceWhere _ _ fields | .replaceListed _ _ fields
  | .mergeEach _ fields | .mergeOne _ fields | .mergeAt _ _ fields | .mergeWhere _ _ fields
  | .mergeListed _ _ fields | .deleteEach _ fields | .deleteOne _ fields | .deleteAt _ fields
  | .deleteWhere _ fields | .deleteListed _ fields | .retrieveEach _ fields
  | .retrieveOne _ fields | .retrieveAt _ fields | .retrieveWhere _ fields _
  | .retrieveListed _ fields => fields

def filter? : Request → Option Filter.Source
  | .replaceWhere _ filter _ | .mergeWhere _ filter _ | .deleteWhere filter _
  | .retrieveWhere filter _ _ => some filter
  | _ => none

def operations : Request → List Operation
  | .retrieveWhere .. => [.retrieve, .count]
  | request => [request.operation]

/-- The identifier of the record that a request addresses alone. -/
def target? (c : Collection) : Request → Option Identifier
  | .replaceOne record _ | .mergeOne record _ | .deleteOne record _ | .retrieveOne record _ =>
    Identifier.ofRecord? c.idField record
  | .replaceAt _ id _ | .mergeAt _ id _ | .deleteAt id _ | .retrieveAt id _ =>
    some (.ofValue false id)
  | _ => none

/-- The identifier at each place of a batch; a new record has none. -/
def targets (c : Collection) : Request → List (Option Identifier)
  | .createEach batch _ _ => batch.records.map fun _ => none
  | .replaceEach batch _ | .mergeEach batch _ | .deleteEach batch _ | .retrieveEach batch _ =>
    batch.records.map (Identifier.ofRecord? c.idField)
  | .replaceListed _ ids _ | .mergeListed _ ids _ | .deleteListed ids _ | .retrieveListed ids _ =>
    ids.identifiers.map some
  | _ => []

def outcomes : (request : Request) → request.Answer → List Outcome
  | .createEach .., outcomes | .replaceEach .., outcomes | .mergeEach .., outcomes
  | .deleteEach .., outcomes | .retrieveEach .., outcomes | .replaceListed .., outcomes
  | .mergeListed .., outcomes | .deleteListed .., outcomes | .retrieveListed .., outcomes =>
    outcomes
  | _, _ => []

/-- The records that an answer holds, on their own, in a list or in outcomes. -/
def documents : (request : Request) → request.Answer → List Document
  | .createOne .., record | .replaceOne .., record | .replaceAt .., record
  | .mergeOne .., record | .mergeAt .., record | .deleteOne .., record | .deleteAt .., record
  | .retrieveOne .., record | .retrieveAt .., record => [record]
  | .replaceWhere .., records | .mergeWhere .., records | .deleteWhere .., records => records
  | .retrieveWhere .., list => list.records
  | request, answer => (request.outcomes answer).filterMap Outcome.record?

structure Returns (c : Collection) (fine : Document → Prop) (request : Request)
    (answer : request.Answer) : Prop where
  documents : ∀ record ∈ request.documents answer, fine record
  outcomes : c.OutcomesAt fine request.operations (request.targets c) (request.outcomes answer)

end Request

variable {c : Collection} {patterns : PatternReader} {stored fine : Document → Prop}
  {operation : Operation}
  {operations : List Operation} {target : Option Identifier} {failure : Failure}

/-! ## Batches -/

theorem fine_of_outcomes {targets : List (Option Identifier)} {outcomes : List Outcome}
    (h : c.OutcomesAt fine operations targets outcomes) :
    ∀ record ∈ outcomes.filterMap Outcome.record?, fine record := by
  intro record hrecord
  obtain ⟨outcome, houtcome, hsome⟩ := List.mem_filterMap.1 hrecord
  obtain ⟨i, hi, rfl⟩ := List.mem_iff_getElem.1 houtcome
  have hlength := h.length_eq
  exact (h.get (hlength ▸ hi) hi).record record (Outcome.eq_record_of_record? hsome)

theorem ends_addressedBatch {batch : Batch}
    {next : List (Identifier × Document) → Program (List Outcome)}
    (h : ∀ entries, c.addressedBatch operation batch = .ok entries →
      (next entries).Ends (AnswersFrom patterns stored)
        (c.OutcomesAt fine [operation] (entries.map fun entry => some entry.1))
        (c.Surfaces [operation] none)) :
    (liftM (c.addressedBatch operation batch) >>= next).Ends (AnswersFrom patterns stored)
      (c.OutcomesAt fine [operation] (batch.records.map (Identifier.ofRecord? c.idField)))
      (c.Surfaces [operation] none) := by
  refine ends_lift_bind ?_ fun entries hentries => ?_
  · exact fun _ => surfaces_of_refusal (refusesWhen_addressedBatch operation batch)
  · rw [map_ofRecord?_of_addressedBatch hentries]
    exact h entries hentries

theorem ends_entries {step : Identifier → Document → Program Document}
    {entries : List (Identifier × Document)}
    (h : ∀ id record, (step id record).Ends (AnswersFrom patterns stored) fine
      (c.Surfaces [operation] (some id))) :
    (forEach step entries).Ends (AnswersFrom patterns stored)
      (c.OutcomesAt fine [operation] (entries.map fun entry => some entry.1))
      (c.Surfaces [operation] none) :=
  ends_mono (ends_forEach fun entry _ => h entry.1 entry.2) fun _ houtcomes =>
    List.forall₂_map_left_iff.2 houtcomes

theorem ends_ids {ids : List Identifier} {p : Program (List Outcome)}
    (h : p.Ends (AnswersFrom patterns stored)
      (List.Forall₂ (fun id outcome => outcome.Holds fine (c.Surfaces [operation] (some id))) ids)
      (c.Surfaces [operation] none)) :
    p.Ends (AnswersFrom patterns stored) (c.OutcomesAt fine [operation] (ids.map some))
      (c.Surfaces [operation] none) :=
  ends_mono h fun _ houtcomes => List.forall₂_map_left_iff.2 houtcomes

theorem ends_entryIds {entries : List (Identifier × Document)} {p : Program (List Outcome)}
    (h : p.Ends (AnswersFrom patterns stored)
      (List.Forall₂ (fun id outcome => outcome.Holds fine (c.Surfaces [operation] (some id)))
        (entries.map Prod.fst)) (c.Surfaces [operation] none)) :
    p.Ends (AnswersFrom patterns stored)
      (c.OutcomesAt fine [operation] (entries.map fun entry => some entry.1))
      (c.Surfaces [operation] none) := by
  have hends := ends_ids h
  rwa [List.map_map] at hends

theorem ends_readIds {ids : IdentifierList} {next : List Identifier → Program (List Outcome)}
    (h : (∀ id ∈ ids.identifiers, id.shown.IsPlain) →
      (next ids.identifiers).Ends (AnswersFrom patterns stored)
        (List.Forall₂ (fun id outcome => outcome.Holds fine (c.Surfaces [operation] (some id)))
          ids.identifiers) (c.Surfaces [operation] none)) :
    (liftM (c.readIds operation ids) >>= next).Ends (AnswersFrom patterns stored)
      (c.OutcomesAt fine [operation] (ids.identifiers.map some)) (c.Surfaces [operation] none) := by
  refine ends_lift_bind (fun _ => surfaces_of_readIds) fun keys hkeys => ?_
  rw [readIds_eq_ok hkeys]
  exact ends_ids (h fun _ => IdentifierList.isPlain_shown)

/-! ## Operations -/

section

variable {fields : FieldChoice} (hshows : c.Shows (c.projection fields) stored fine)

include hshows

theorem ends_createEach (batch : Batch) (options : CreationOptions) :
    (c.createEach batch fields options).Ends (AnswersFrom patterns stored)
      (c.OutcomesAt fine [.create] (batch.records.map fun _ => none))
      (c.Surfaces [.create] none) := by
  refine ends_lift_bind (fun _ => surfaces_of_refusal batch.refusesWhen_check) fun _ _ => ?_
  refine ends_bind (ends_mapM fun record _ => ends_assignId record) fun records hrecords => ?_
  refine ends_bind (ends_total_call (surfaces_failed c .create none) neverFails_none)
    fun statuses _ => ?_
  split
  · exact ends_fail (surfaces_failed c .create none _)
  · next hlength =>
    have hidentified : ∀ assigned ∈ records, Fields.contains c.idField assigned = true :=
      ((List.forall₂_and_left _ _).1 (hrecords.flip.imp fun _ _ h => ⟨h, trivial⟩)).1
    refine ends_pure (List.forall₂_iff_zip.2 ⟨?_, fun hentry => ?_⟩)
    · rw [List.length_map, List.length_map, List.length_zip, not_not.1 hlength, Nat.min_self,
        hrecords.length_eq]
    · obtain ⟨htarget, houtcome⟩ := List.of_mem_zip hentry
      obtain ⟨-, -, rfl⟩ := List.mem_map.1 htarget
      obtain ⟨⟨assigned, status⟩, hpair, rfl⟩ := List.mem_map.1 houtcome
      cases status with
      | written =>
          exact Outcome.holds_record (hshows.identified _ (hidentified _ (List.of_mem_zip hpair).1))
      | failed text => exact Outcome.holds_failed (surfaces_failed c .create none text)
      | notAttempted => exact Outcome.holds_notAttempted

theorem ends_createOne (record : Document) :
    (c.createOne record fields).Ends (AnswersFrom patterns stored) fine
      (c.Surfaces [.create] none) := by
  refine ends_lift_bind ?_ fun _ _ => ?_
  · intro cause hcause
    unfold createOne.nonEmpty at hcause
    split at hcause
    · cases hcause
      exact .badRequest _
    · cases hcause
  dsimp only
  split
  · next id hid =>
    refine ends_bind (ends_total_call (surfaces_failed c .create none) neverFails_keyIs) ?_
    refine fun _ _ => ends_pure (hshows.identified _ ?_)
    rw [Fields.contains, Identifier.get?_storedRecord_of_ofRecord? hid]
    rfl
  · refine ends_bind (ends_assignId _) fun assigned hassigned => ?_
    refine ends_bind (ends_total_call (surfaces_failed c .create none) neverFails_none)
      fun statuses _ => ?_
    split
    · exact ends_pure (hshows.identified _ hassigned)
    · exact ends_fail (surfaces_failed c .create none _)
    · exact ends_fail (surfaces_failed c .create none _)

theorem ends_retrieveOne (record : Document) :
    (c.retrieveOne record fields).Ends (AnswersFrom patterns stored) fine
      (c.Surfaces [.retrieve] (Identifier.ofRecord? c.idField record)) := by
  refine ends_lift_bind (fun _ => surfaces_of_refusal (refusesWhen_addressed .retrieve record)) ?_
  rintro ⟨id, addressed⟩ haddressed
  rw [ofRecord?_of_addressed haddressed]
  refine ends_bind (ends_findStored hshows (surfaces_failed c .retrieve _) id)
    fun found hfound => ?_
  split
  · next shown => exact ends_pure (hfound shown rfl)
  · exact ends_fail (surfaces_notFound c [.retrieve] id)

/-- The second reading is for the same identifier, which the failure names. -/
theorem ends_retrieveAt (value : Value) :
    (c.retrieveAt value fields).Ends (AnswersFrom patterns stored) fine
      (c.Surfaces [.retrieve] (some (.ofValue false value))) := by
  refine ends_lift_bind (fun _ => surfaces_of_readId) fun id hid => ?_
  rw [← readId_eq_ok hid]
  have hread (id' : Identifier) :
      (c.findStored (c.projection fields) id').Ends (AnswersFrom patterns stored)
        (fun found => ∀ record, found = some record → fine record)
        (c.Surfaces [.retrieve] (some id)) :=
    ends_findStored hshows (surfaces_failed c .retrieve (some id)) id'
  have hmiss := surfaces_notFound c [.retrieve] id
  refine ends_bind (hread id) fun found hfound => ?_
  split
  · next shown => exact ends_pure (hfound shown rfl)
  · split
    · exact ends_fail hmiss
    · next number _ =>
      refine ends_bind (hread number) fun found hfound => ?_
      split
      · next shown => exact ends_pure (hfound shown rfl)
      · exact ends_fail hmiss

end

/-! ## Requests -/

namespace Request

variable {request : Request} {excused : Failure → Prop}

/-- A request by filter fails in its checks, as the tree of the filter does on a record, or
within an operation. -/
theorem ends_filtered {filter : Filter.Source} (hfilter : request.filter? = some filter)
    (hshows : c.Shows (c.projection request.fields) stored fine)
    (hpayload : ∀ record ∈ request.records, ∀ cause,
      c.payload record = .error cause → excused cause)
    (htree : ∀ cause, filterTree filter = .error cause → excused cause)
    (hdeletion : request.operation = .delete → ∀ tree, filterTree filter = .ok tree →
      tree.acceptsAll = true →
        excused (.badRequest "Filter for delete request can not be empty."))
    (hevaluate : ∀ tree, filterTree filter = .ok tree → ∀ record failure,
      tree.evaluate patterns record = .error failure → excused failure)
    (hfailed : ∀ operation ∈ request.operations, ∀ text,
      excused (.failed operation c.name text)) :
    (request.program c).Ends (AnswersFrom patterns stored)
      (fun answer => ∀ record ∈ request.documents answer, fine record) excused := by
  cases request with
  | replaceWhere record filter fields =>
      cases hfilter
      refine ends_lift_bind (hpayload record (List.mem_singleton_self _)) fun body _ => ?_
      refine ends_lift_bind htree fun tree hok => ?_
      exact ends_modifyMatching hshows (hevaluate tree hok)
        (hfailed .update (List.mem_singleton_self _)) _
  | mergeWhere record filter fields =>
      cases hfilter
      refine ends_lift_bind (hpayload record (List.mem_singleton_self _)) fun patch _ => ?_
      refine ends_lift_bind htree fun tree hok => ?_
      exact ends_modifyMatching hshows (hevaluate tree hok)
        (hfailed .merge (List.mem_singleton_self _)) _
  | deleteWhere filter fields =>
      cases hfilter
      refine ends_lift_bind (fun cause hcause => ?_) fun tree hok => ?_
      · rw [deletionFilter_eq] at hcause
        split at hcause
        · next hrefused =>
          cases hcause
          exact htree _ hrefused
        · next tree hok =>
          split at hcause
          · next hall =>
            cases hcause
            exact hdeletion rfl tree hok hall
          · cases hcause
      · refine ends_removeMatching hshows (hevaluate tree ?_)
          (hfailed .delete (List.mem_singleton_self _))
        rw [deletionFilter_eq] at hok
        split at hok
        · cases hok
        · next other hother =>
          split at hok
          · cases hok
          · cases hok
            exact hother
  | retrieveWhere filter fields options =>
      cases hfilter
      refine ends_lift_bind htree fun tree hok => ?_
      have hneeded : ∀ other ∈ some tree, ∀ record failure,
          other.evaluate patterns record = .error failure → excused failure := by
        rintro _ ⟨⟩
        exact hevaluate tree hok
      refine ends_bind (ends_call (hfailed .retrieve List.mem_cons_self) hneeded) ?_
      intro found hfound
      have hshown : ∀ record ∈ found.map (c.shown (c.projection fields)), fine record := by
        intro record hrecord
        obtain ⟨original, horiginal, rfl⟩ := List.mem_map.1 hrecord
        exact hshows.found (hfound original horiginal)
      dsimp only
      split
      · refine ends_bind (ends_call (hfailed .count ?_) hneeded) fun _ _ => ends_pure hshown
        exact List.mem_cons_of_mem _ (List.mem_singleton_self _)
      · exact ends_pure hshown
  | _ => cases hfilter

theorem ends_program (request : Request)
    (hshows : c.Shows (c.projection request.fields) stored fine) :
    (request.program c).Ends (AnswersFrom patterns stored) (request.Returns c fine)
      (c.Surfaces request.operations (request.target? c)) := by
  have hfiltered {filter : Filter.Source} (hfilter : request.filter? = some filter) :
      (request.program c).Ends (AnswersFrom patterns stored)
        (fun answer => ∀ record ∈ request.documents answer, fine record)
        (c.Surfaces request.operations none) :=
    ends_filtered hfilter hshows (fun _ _ _ => surfaces_of_payload)
      (fun _ => surfaces_of_filterTree) (fun _ _ _ _ => .badRequest _)
      (fun _ _ => surfaces_of_evaluate) fun _ hoperation text => .failed hoperation text
  have halone {record : Document} (h : fine record) : ∀ other ∈ [record], fine other :=
    fun other hother => List.mem_singleton.1 hother ▸ h
  cases request with
  | createEach batch fields options =>
      exact ends_mono (ends_createEach hshows batch options)
        fun _ h => ⟨fine_of_outcomes h, h⟩
  | createOne record fields =>
      exact ends_mono (ends_createOne hshows record) fun _ h => ⟨halone h, .nil⟩
  | replaceEach batch fields =>
      refine ends_mono (ends_addressedBatch fun entries _ => ends_entries fun id record => ?_)
        fun _ h => ⟨fine_of_outcomes h, h⟩
      exact ends_replaceStored hshows (surfaces_failed c .update _) (surfaces_notFound c _ id)
        record
  | replaceOne record fields =>
      refine ends_lift_bind (fun _ => surfaces_of_addressed) fun ⟨id, stored⟩ haddressed => ?_
      rw [target?, ofRecord?_of_addressed haddressed]
      exact ends_mono (ends_replaceStored hshows (surfaces_failed c .update _)
        (surfaces_notFound c _ id) stored) fun _ h => ⟨halone h, .nil⟩
  | replaceAt record id fields =>
      refine ends_lift_bind (fun _ => surfaces_of_payload) fun body _ => ?_
      refine ends_lift_bind (fun _ => surfaces_of_readId) fun key hkey => ?_
      rw [target?, ← readId_eq_ok hkey]
      exact ends_mono (ends_replaceStored hshows (surfaces_failed c .update _)
        (surfaces_notFound c _ key) body) fun _ h => ⟨halone h, .nil⟩
  | replaceListed record ids fields =>
      refine ends_lift_bind (fun _ => surfaces_of_payload) fun body _ => ?_
      refine ends_mono (ends_readIds fun hids => ?_) fun _ h => ⟨fine_of_outcomes h, h⟩
      exact ends_modifyListed hshows (surfaces_failed c .update _) (surfaces_notFound c _) hids _
  | mergeEach batch fields =>
      refine ends_mono (ends_addressedBatch fun entries _ => ?_)
        fun _ h => ⟨fine_of_outcomes h, h⟩
      refine ends_lift_bind (fun _ => ?_) fun payloads hpayloads => ?_
      · exact surfaces_of_refusal (RefusesWhen.mapM (fun entry : Identifier × Document =>
          (refusesWhen_payload entry.2).map (entry.1, ·)) entries)
      · rw [← map_fst_of_payloads hpayloads]
        exact ends_entries fun id patch => ends_mergeStored hshows (surfaces_failed c .merge _)
          (surfaces_notFound c _ id) patch
  | mergeOne record fields =>
      refine ends_lift_bind (fun _ => surfaces_of_addressed) fun ⟨id, stored⟩ haddressed => ?_
      refine ends_lift_bind (fun _ => surfaces_of_payload) fun patch _ => ?_
      rw [target?, ofRecord?_of_addressed haddressed]
      exact ends_mono (ends_mergeStored hshows (surfaces_failed c .merge _)
        (surfaces_notFound c _ id) patch) fun _ h => ⟨halone h, .nil⟩
  | mergeAt record id fields =>
      refine ends_lift_bind (fun _ => surfaces_of_payload) fun patch _ => ?_
      refine ends_lift_bind (fun _ => surfaces_of_readId) fun key hkey => ?_
      rw [target?, ← readId_eq_ok hkey]
      exact ends_mono (ends_mergeStored hshows (surfaces_failed c .merge _)
        (surfaces_notFound c _ key) patch) fun _ h => ⟨halone h, .nil⟩
  | mergeListed record ids fields =>
      refine ends_lift_bind (fun _ => surfaces_of_payload) fun patch _ => ?_
      refine ends_mono (ends_readIds fun hids => ?_) fun _ h => ⟨fine_of_outcomes h, h⟩
      exact ends_modifyListed hshows (surfaces_failed c .merge _) (surfaces_notFound c _) hids _
  | deleteEach batch fields =>
      refine ends_mono (ends_addressedBatch fun entries hentries => ?_)
        fun _ h => ⟨fine_of_outcomes h, h⟩
      exact ends_entryIds (ends_removeListed hshows (surfaces_failed c .delete _)
        (surfaces_notFound c _) (isPlain_of_mem_addressedBatch hentries))
  | deleteOne record fields =>
      refine ends_lift_bind (fun _ => surfaces_of_addressed) fun ⟨id, stored⟩ haddressed => ?_
      rw [target?, ofRecord?_of_addressed haddressed]
      exact ends_mono (ends_deleteStored hshows (surfaces_failed c .delete _)
        (surfaces_notFound c _ id)) fun _ h => ⟨halone h, .nil⟩
  | deleteAt id fields =>
      refine ends_lift_bind (fun _ => surfaces_of_readId) fun key hkey => ?_
      rw [target?, ← readId_eq_ok hkey]
      exact ends_mono (ends_deleteStored hshows (surfaces_failed c .delete _)
        (surfaces_notFound c _ key)) fun _ h => ⟨halone h, .nil⟩
  | deleteListed ids fields =>
      refine ends_mono (ends_readIds fun hids => ?_) fun _ h => ⟨fine_of_outcomes h, h⟩
      exact ends_removeListed hshows (surfaces_failed c .delete _) (surfaces_notFound c _) hids
  | retrieveEach batch fields =>
      refine ends_mono (ends_addressedBatch fun entries _ => ?_)
        fun _ h => ⟨fine_of_outcomes h, h⟩
      exact ends_entryIds (ends_lookUpListed hshows (surfaces_failed c .retrieve _)
        (surfaces_notFound c _))
  | retrieveOne record fields =>
      exact ends_mono (ends_retrieveOne hshows record) fun _ h => ⟨halone h, .nil⟩
  | retrieveAt id fields =>
      exact ends_mono (ends_retrieveAt hshows id) fun _ h => ⟨halone h, .nil⟩
  | retrieveListed ids fields =>
      refine ends_mono (ends_readIds fun _ => ?_) fun _ h => ⟨fine_of_outcomes h, h⟩
      exact ends_lookUpListed hshows (surfaces_failed c .retrieve _) (surfaces_notFound c _)
  | replaceWhere | mergeWhere | deleteWhere | retrieveWhere =>
      exact ends_mono (hfiltered rfl) fun _ h => ⟨h, .nil⟩

/-- Whatever a store holds, every failure that a request ends with, and every one among its
outcomes, is a bad request, a failure within the operation on this collection, or the missing of
the one record that the request, or that place of the batch, addresses. -/
theorem surfaces_of_run (c : Collection) (request : Request) (store : Memory.Store) :
    (∀ failure, ((request.program c).run handle store).1 = .error failure →
      c.Surfaces request.operations (request.target? c) failure) ∧
    ∀ answer, ((request.program c).run handle store).1 = .ok answer →
      List.Forall₂
        (fun target outcome => ∀ cause, outcome = .failed cause →
          c.Surfaces request.operations target cause)
        (request.targets c) (request.outcomes answer) := by
  obtain ⟨hanswer, hfailure⟩ :=
    run_ends_of_any store (ends_program request (shows_any c _ _))
  exact ⟨hfailure, fun answer h =>
    (hanswer answer h).outcomes.imp fun _ _ houtcome => houtcome.failed⟩

end Request

end Collection

end DocumentStore
