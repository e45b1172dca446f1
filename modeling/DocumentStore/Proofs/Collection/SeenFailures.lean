import DocumentStore.Proofs.Collection.BatchChecks
import DocumentStore.Proofs.Collection.StepEndings

/-!
# Failures that a caller sees

A failure that a request ends with tells what was wrong with the request, which operation on the
collection the store failed in, or that the one record which was addressed is not there.
-/

namespace DocumentStore

namespace Collection

/-- A failure that a caller sees, with the operations that were asked for and the identifier that
was addressed, if it was a single one. -/
inductive Surfaces (c : Collection) (operations : List Operation) (target : Option Identifier) :
    Failure → Prop
  | badRequest (text : String) : Surfaces c operations target (.badRequest text)
  | failed {operation : Operation} (h : operation ∈ operations) (text : String) :
    Surfaces c operations target (.failed operation c.name text)
  | notFound {id : Identifier} (h : target = some id) :
    Surfaces c operations target (.notFound id.display c.name)

variable {c : Collection} {operation : Operation} {operations : List Operation}
  {target : Option Identifier} {failure : Failure}

/-! ## Failures of the checks -/

theorem surfaces_failed (c : Collection) (operation : Operation) (target : Option Identifier)
    (text : String) : c.Surfaces [operation] target (.failed operation c.name text) :=
  .failed (List.mem_singleton_self _) text

theorem surfaces_notFound (c : Collection) (operations : List Operation) (id : Identifier) :
    c.Surfaces operations (some id) (c.notFound id) :=
  .notFound rfl

theorem surfaces_of_refusal {α : Type} {condition : Prop} {check : Except Failure α}
    (h : RefusesWhen condition check) (hfails : check = .error failure) :
    c.Surfaces operations target failure := by
  by_cases hcondition : condition
  · obtain ⟨text, htext⟩ := h.refuses hcondition
    rw [htext] at hfails
    cases hfails
    exact .badRequest text
  · obtain ⟨a, ha⟩ := h.passes hcondition
    rw [ha] at hfails
    cases hfails

theorem surfaces_of_payload {record : Document} (h : c.payload record = .error failure) :
    c.Surfaces operations target failure :=
  surfaces_of_refusal (refusesWhen_payload record) h

theorem surfaces_of_addressed {record : Document}
    (h : c.addressed operation record = .error failure) : c.Surfaces operations target failure :=
  surfaces_of_refusal (refusesWhen_addressed operation record) h

theorem surfaces_of_evaluate {reader : PatternReader} {filter : Predicate} (record : Document)
    (failure : Failure) (h : filter.evaluate reader record = .error failure) :
    c.Surfaces operations target failure := by
  obtain ⟨text, rfl⟩ := Predicate.exists_badRequest_of_evaluate h
  exact .badRequest text

theorem surfaces_of_filterTree {filter : Filter.Source} (h : filterTree filter = .error failure) :
    c.Surfaces operations target failure := by
  unfold filterTree at h
  split at h
  · cases h
    exact .badRequest _
  · cases h

theorem deletionFilter_eq (filter : Filter.Source) :
    deletionFilter filter =
      match filterTree filter with
      | .error failure => .error failure
      | .ok tree =>
        if tree.acceptsAll then
          .error (.badRequest "Filter for delete request can not be empty.")
        else .ok tree := by
  rw [deletionFilter]
  cases filterTree filter with
  | error failure => rfl
  | ok tree =>
      cases tree with
      | _ => rfl

theorem surfaces_of_readId {id : Value} (h : readId id = .error failure) :
    c.Surfaces operations target failure := by
  unfold readId at h
  split at h
  · cases h
    exact .badRequest _
  · cases h

theorem surfaces_of_readIds {ids : IdentifierList}
    (h : c.readIds operation ids = .error failure) : c.Surfaces operations target failure := by
  unfold readIds at h
  split at h
  · cases h
    exact .badRequest _
  · cases h

/-! ## Identifiers that are read -/

theorem readId_eq_ok {id : Value} {key : Identifier} (h : readId id = .ok key) :
    key = .ofValue false id := by
  unfold readId at h
  split at h
  · cases h
  · exact (Except.ok.inj h).symm

theorem readIds_eq_ok {ids : IdentifierList} {keys : List Identifier}
    (h : c.readIds operation ids = .ok keys) : keys = ids.identifiers := by
  unfold readIds at h
  split at h
  · cases h
  · next first rest hids => rw [← Except.ok.inj h, hids]

theorem ofRecord?_of_addressed {record stored : Document} {id : Identifier}
    (h : c.addressed operation record = .ok (id, stored)) :
    Identifier.ofRecord? c.idField record = some id := by
  obtain ⟨rfl, rfl, hblank⟩ := Request.of_addressed h
  cases hvalue : (Fields.get? c.idField record).or (Fields.get? Identifier.aliasField record) with
  | none =>
      rw [Identifier.storedRecord_of_none hvalue, (Option.or_eq_none_iff.1 hvalue).1] at hblank
      cases hblank
  | some value =>
      rw [Identifier.ofRecord?, hvalue, Identifier.get?_storedRecord hvalue, Option.getD_some,
        Identifier.ofValue_stored, Option.map_some]

theorem isPlain_of_addressed {record stored : Document} {id : Identifier}
    (h : c.addressed operation record = .ok (id, stored)) : id.shown.IsPlain := by
  obtain ⟨-, rfl, -⟩ := Request.of_addressed h
  exact Identifier.isPlain_shown_ofValue false _

theorem map_ofRecord?_of_addressedBatch {batch : Batch} {entries : List (Identifier × Document)}
    (h : c.addressedBatch operation batch = .ok entries) :
    batch.records.map (Identifier.ofRecord? c.idField) =
      entries.map fun entry => some entry.1 := by
  obtain ⟨_, -, haddressed⟩ := exists_of_bind_eq_ok h
  exact map_eq_map_of_mapM_eq_ok haddressed fun _ _ hentry => ofRecord?_of_addressed hentry

theorem isPlain_of_mem_addressedBatch {batch : Batch} {entries : List (Identifier × Document)}
    (h : c.addressedBatch operation batch = .ok entries) :
    ∀ id ∈ entries.map Prod.fst, id.shown.IsPlain := by
  intro id hid
  obtain ⟨entry, hentry, rfl⟩ := List.mem_map.1 hid
  obtain ⟨record, -, haddressed⟩ := Request.exists_addressed_of_mem c h hentry
  exact isPlain_of_addressed haddressed

theorem map_fst_of_payloads {entries payloads : List (Identifier × Document)}
    (h : c.payloads entries = .ok payloads) :
    payloads.map (fun entry => some entry.1) = entries.map fun entry => some entry.1 := by
  refine (map_eq_map_of_mapM_eq_ok h fun entry payload hentry => ?_).symm
  cases hpayload : c.payload entry.2 with
  | error cause => simp [hpayload, Except.map] at hentry
  | ok body =>
      simp only [hpayload, Except.map, Except.ok.injEq] at hentry
      rw [← hentry]

end Collection

end DocumentStore
