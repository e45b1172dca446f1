import DocumentStore.Proofs.Collection.Calls
import DocumentStore.Proofs.Collection.Requests
import DocumentStore.Proofs.Identifier.NormalForm
import DocumentStore.Proofs.Results

/-!
# The calls of a request

`MayAsk` names the calls that a request to a collection can ask: all of them are on that
collection, and those that write are of the kind of the request.
-/

namespace DocumentStore.Collection.Request

open Backend Program

/-- A patch holds fields of one of the records given, and not the identifier. -/
def IsPatch (c : Collection) (request : Request) (patch : Document) : Prop :=
  ∃ record ∈ request.records, ∀ entry ∈ patch, entry ∈ record ∧ entry.1 ≠ c.idField

def MayAsk (c : Collection) (request : Request) : Call → Prop
  | .newId => request.operation = .create
  | .insert name _ _ => name = c.name ∧ request.operation = .create
  | .replace name filter record upsert =>
    name = c.name ∧ request.operation = (if upsert then .create else .update) ∧
      ∃ id : Identifier, filter = c.keyIs id ∧ Fields.get? c.idField record = some id.stored
  | .update name _ (.replace _) => name = c.name ∧ request.operation = .update
  | .update name _ (.merge patch) =>
    name = c.name ∧ request.operation = .merge ∧ request.IsPatch c patch
  | .find name _ _ => name = c.name
  | .count name _ => name = c.name
  | .findAndMerge name filter patch _ =>
    name = c.name ∧ request.operation = .merge ∧ request.IsPatch c patch ∧
      ∃ id : Identifier, filter = c.keyIs id
  | .findAndDelete name filter _ =>
    name = c.name ∧ request.operation = .delete ∧ ∃ id : Identifier, filter = c.keyIs id
  | .delete name _ => name = c.name ∧ request.operation = .delete
  | .createCollection _ | .dropCollection _ | .listCollections | .shutdown => False

variable (c : Collection)

/-! ## Records of a request -/

theorem mem_of_payload {record patch : Document} (h : c.payload record = .ok patch)
    {entry : String × Value} (hentry : entry ∈ patch) :
    entry ∈ record ∧ entry.1 ≠ c.idField := by
  unfold payload at h
  dsimp only at h
  split at h
  · cases h
  · cases h
    have hmem := Fields.mem_of_mem_erase hentry
    exact ⟨Fields.mem_of_mem_erase hmem, Fields.ne_of_mem_erase hmem⟩

theorem mem_of_addressed {operation : Operation} {record stored : Document} {id : Identifier}
    (h : c.addressed operation record = .ok (id, stored)) {entry : String × Value}
    (hentry : entry ∈ stored) (hne : entry.1 ≠ c.idField) : entry ∈ record := by
  unfold addressed at h
  split at h
  · cases h
  · dsimp only at h
    split at h
    · cases h
    · cases h
      exact Identifier.mem_of_mem_storedRecord hentry hne

theorem isPatch_of_payload {request : Request} {record patch : Document}
    (hrecord : record ∈ request.records) (h : c.payload record = .ok patch) :
    request.IsPatch c patch :=
  ⟨record, hrecord, fun _ hentry => mem_of_payload c h hentry⟩

theorem isPatch_of_addressed {request : Request} {operation : Operation}
    {record stored patch : Document} {id : Identifier} (hrecord : record ∈ request.records)
    (hstored : c.addressed operation record = .ok (id, stored))
    (hpatch : c.payload stored = .ok patch) : request.IsPatch c patch := by
  refine ⟨record, hrecord, fun entry hentry => ?_⟩
  obtain ⟨hmem, hne⟩ := mem_of_payload c hpatch hentry
  exact ⟨mem_of_addressed c hstored hmem hne, hne⟩

theorem exists_addressed_of_mem {operation : Operation} {batch : Batch}
    {records : List (Identifier × Document)}
    (h : c.addressedBatch operation batch = .ok records) {entry : Identifier × Document}
    (hentry : entry ∈ records) :
    ∃ record ∈ batch.records, c.addressed operation record = .ok entry := by
  obtain ⟨_, -, hmap⟩ := exists_of_bind_eq_ok h
  exact exists_of_mem_mapM hmap hentry

theorem isPatch_of_mem_payloads {batch : Batch} {fields : FieldChoice}
    {records payloads : List (Identifier × Document)}
    (hrecords : c.addressedBatch .merge batch = .ok records)
    (hpayloads : c.payloads records = .ok payloads) {entry : Identifier × Document}
    (hentry : entry ∈ payloads) : (mergeEach batch fields).IsPatch c entry.2 := by
  obtain ⟨stored, hstored, hpatch⟩ := exists_of_mem_mapM hpayloads hentry
  obtain ⟨record, hrecord, haddressed⟩ := exists_addressed_of_mem c hrecords hstored
  cases hpayload : c.payload stored.2 with
  | error failure => simp [hpayload, Except.map] at hpatch
  | ok patch =>
      simp only [hpayload, Except.map, Except.ok.injEq] at hpatch
      subst hpatch
      exact isPatch_of_addressed c hrecord haddressed hpayload

/-! ## Calls -/

theorem mayAsk_replaceStored {request : Request} (h : request.operation = .update)
    (id : Identifier) (record : Document) :
    request.MayAsk c
      (.replace c.name (c.keyIs id) (Fields.insert c.idField id.stored record) false) :=
  ⟨rfl, h, id, rfl, Fields.get?_insert_self _ _ _⟩

theorem asks_createEach (batch : Batch) (fields : FieldChoice) (options : CreationOptions) :
    (c.createEach batch fields options).Asks ((createEach batch fields options).MayAsk c) := by
  have hnew : (createEach batch fields options).MayAsk c .newId := rfl
  refine asks_lift_bind fun _ _ => asks_bind ?_ fun records => asks_bind ?_ fun statuses => ?_
  · exact asks_mapM fun record _ => asks_assignId c hnew record
  · exact asks_perform ⟨rfl, rfl⟩
  · split
    · exact asks_fail _
    · exact asks_pure _

theorem asks_createOne (record : Document) (fields : FieldChoice) :
    (c.createOne record fields).Asks ((createOne record fields).MayAsk c) := by
  refine asks_lift_bind fun _ _ => ?_
  dsimp only
  split
  · next id hid =>
    have hkey := Identifier.get?_storedRecord_of_ofRecord? hid
    exact asks_bind (asks_perform ⟨rfl, rfl, id, rfl, hkey⟩) fun _ => asks_pure _
  · have hnew : (createOne record fields).MayAsk c .newId := rfl
    refine asks_bind (asks_assignId c hnew _) fun assigned =>
      asks_bind (asks_perform ⟨rfl, rfl⟩) fun statuses => ?_
    split
    · exact asks_pure _
    · exact asks_fail _
    · exact asks_fail _

theorem asks_mayAsk (request : Request) : (request.program c).Asks (request.MayAsk c) := by
  cases request with
  | createEach batch fields options => exact asks_createEach c batch fields options
  | createOne record fields => exact asks_createOne c record fields
  | replaceEach batch fields =>
      exact asks_lift_bind fun records _ => asks_forEach fun entry _ =>
        asks_replaceStored c (mayAsk_replaceStored c rfl _ _)
  | replaceOne record fields =>
      exact asks_lift_bind fun entry _ =>
        asks_replaceStored c (mayAsk_replaceStored c rfl _ _)
  | replaceAt record id fields =>
      exact asks_lift_bind fun payload _ => asks_lift_bind fun id _ =>
        asks_replaceStored c (mayAsk_replaceStored c rfl _ _)
  | replaceWhere record filter fields =>
      exact asks_lift_bind fun payload _ => asks_lift_bind fun tree _ =>
        asks_modifyMatching c (fun _ _ => rfl) fun _ => ⟨rfl, rfl⟩
  | replaceListed record ids fields =>
      exact asks_lift_bind fun payload _ => asks_lift_bind fun ids _ =>
        asks_modifyListed c (fun _ _ => rfl) ⟨rfl, rfl⟩
  | mergeEach batch fields =>
      refine asks_lift_bind fun records hrecords => asks_lift_bind fun payloads hpayloads => ?_
      refine asks_forEach fun entry hentry => asks_mergeStored c ⟨rfl, rfl, ?_, _, rfl⟩
      exact isPatch_of_mem_payloads c hrecords hpayloads hentry
  | mergeOne record fields =>
      refine asks_lift_bind fun entry hentry => asks_lift_bind fun payload hpayload => ?_
      refine asks_mergeStored c ⟨rfl, rfl, ?_, _, rfl⟩
      exact isPatch_of_addressed c (List.mem_singleton_self record) hentry hpayload
  | mergeAt record id fields =>
      refine asks_lift_bind fun payload hpayload => asks_lift_bind fun id _ => ?_
      refine asks_mergeStored c ⟨rfl, rfl, ?_, _, rfl⟩
      exact isPatch_of_payload c (List.mem_singleton_self record) hpayload
  | mergeWhere record filter fields =>
      refine asks_lift_bind fun payload hpayload => asks_lift_bind fun tree _ => ?_
      refine asks_modifyMatching c (fun _ _ => rfl) fun _ => ⟨rfl, rfl, ?_⟩
      exact isPatch_of_payload c (List.mem_singleton_self record) hpayload
  | mergeListed record ids fields =>
      refine asks_lift_bind fun payload hpayload => asks_lift_bind fun ids _ => ?_
      refine asks_modifyListed c (fun _ _ => rfl) ⟨rfl, rfl, ?_⟩
      exact isPatch_of_payload c (List.mem_singleton_self record) hpayload
  | deleteEach batch fields =>
      exact asks_lift_bind fun records _ => asks_removeListed c (fun _ _ => rfl) ⟨rfl, rfl⟩
  | deleteOne record fields =>
      exact asks_lift_bind fun entry _ => asks_deleteStored c ⟨rfl, rfl, _, rfl⟩
  | deleteAt id fields =>
      exact asks_lift_bind fun id _ => asks_deleteStored c ⟨rfl, rfl, _, rfl⟩
  | deleteWhere filter fields =>
      exact asks_lift_bind fun tree _ =>
        asks_removeMatching c (fun _ _ => rfl) fun _ => ⟨rfl, rfl⟩
  | deleteListed ids fields =>
      exact asks_lift_bind fun ids _ => asks_removeListed c (fun _ _ => rfl) ⟨rfl, rfl⟩
  | retrieveEach batch fields =>
      exact asks_lift_bind fun records _ => asks_lookUpListed c (fun _ _ => rfl) _ _ _
  | retrieveOne record fields =>
      refine asks_lift_bind fun entry _ =>
        asks_bind (asks_findStored c (fun _ _ => rfl) _ _) fun found => ?_
      split
      · exact asks_pure _
      · exact asks_fail _
  | retrieveAt id fields =>
      refine asks_lift_bind fun id _ =>
        asks_bind (asks_findStored c (fun _ _ => rfl) _ _) fun found => ?_
      split
      · exact asks_pure _
      · split
        · exact asks_fail _
        · refine asks_bind (asks_findStored c (fun _ _ => rfl) _ _) fun found => ?_
          split
          · exact asks_pure _
          · exact asks_fail _
  | retrieveWhere filter fields options =>
      refine asks_lift_bind fun tree _ => asks_bind (asks_perform rfl) fun found => ?_
      dsimp only
      split
      · exact asks_bind (asks_perform rfl) fun _ => asks_pure _
      · exact asks_pure _
  | retrieveListed ids fields =>
      exact asks_lift_bind fun ids _ => asks_lookUpListed c (fun _ _ => rfl) _ _ _

end DocumentStore.Collection.Request
