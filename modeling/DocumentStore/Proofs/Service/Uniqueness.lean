import DocumentStore.Proofs.Collection.Keys
import DocumentStore.Proofs.Collection.RequestCalls
import DocumentStore.Proofs.Memory.Uniqueness
import DocumentStore.Proofs.Service.Histories

/-!
# Unique identifiers along a history

Without merges, the identifiers of a collection stay unique whatever a service is asked.
-/

namespace DocumentStore

open Backend

variable {service : Service}

theorem Collection.Request.distinguishes_of_mayAsk {c : Collection}
    (hdot : '.' ∉ c.idField.toList) {request : Request} (hmerge : request.operation ≠ .merge)
    {call : Call} (hcall : request.MayAsk c call) : call.Distinguishes c.idField := by
  cases call with
  | replace name filter record upsert =>
      obtain ⟨-, -, id, hfilter, hid⟩ := hcall
      intro _
      refine ⟨id.stored, hid, fun reader other stored hstored haccepts => ?_⟩
      rw [hfilter] at haccepts
      exact not_equal_of_not_accepts hdot hstored haccepts
  | update name filter change =>
      cases change with
      | replace body => trivial
      | merge patch => exact absurd hcall.2.1 hmerge
  | findAndMerge name filter patch projection => exact absurd hcall.2.1 hmerge
  | newId | insert | find | count | findAndDelete | delete => trivial
  | createCollection | dropCollection | listCollections | shutdown => trivial

namespace Service

theorem Request.asks_distinguishes (hdot : '.' ∉ service.settings.idField.toList)
    {request : Request} (hmerge : request.isMerge = false) :
    (request.program service).Asks (Call.Distinguishes service.settings.idField) := by
  cases request with
  | within name request =>
      have hoperation : request.operation ≠ .merge := by
        simpa [isMerge] using hmerge
      refine Program.asks_mono ?_ (request.asks_mayAsk (service.collection name))
      exact fun _ hcall => request.distinguishes_of_mayAsk hdot hoperation hcall
  | createCollection name => exact Program.asks_perform trivial
  | dropCollection name => exact Program.asks_perform trivial
  | listCollections => exact Program.asks_perform trivial
  | shutdown => exact Program.asks_send trivial

/-- The store keys its records by the field of the service, and uniquely. -/
structure Keys (service : Service) (store : Memory.Store) : Prop where
  idField : store.idField = service.settings.idField
  unique : store.Unique

theorem keys_handle {call : Call} {store : Memory.Store}
    (hcall : call.Distinguishes service.settings.idField) (hstore : service.Keys store) :
    service.Keys (Memory.Store.handle call store).2 where
  idField := (Memory.Store.idField_handle call store).trans hstore.idField
  unique := by
    rw [← hstore.idField] at hcall
    exact Memory.Store.unique_handle hcall hstore.unique

theorem keys_after (hdot : '.' ∉ service.settings.idField.toList) {request : Request}
    (hmerge : request.isMerge = false) {store : Memory.Store} (hstore : service.Keys store) :
    service.Keys (request.after service store) :=
  Program.run_keeps (Request.asks_distinguishes hdot hmerge)
    (fun _ _ hcall hstate => keys_handle hcall hstate) hstore

theorem keys_afterAll (hdot : '.' ∉ service.settings.idField.toList) {requests : List Request}
    (hmerge : ∀ request ∈ requests, request.isMerge = false) {store : Memory.Store}
    (hstore : service.Keys store) : service.Keys (service.afterAll requests store) := by
  induction requests generalizing store with
  | nil => exact hstore
  | cons request requests ih =>
      have hfirst : service.Keys (request.after service store) :=
        keys_after hdot (hmerge request List.mem_cons_self) hstore
      exact ih (fun other hother => hmerge other (List.mem_cons_of_mem _ hother)) hfirst

/-- Whatever a service without merges is asked, in every collection all records have
identifiers, and no two of them are equal. -/
theorem apart_of_afterAll (service : Service) (hdot : '.' ∉ service.settings.idField.toList)
    (store : Memory.Store) (hkey : store.idField = service.settings.idField)
    (hempty : store.collections = []) (requests : List Request)
    (hmerge : ∀ request ∈ requests, request.isMerge = false) (name : String) :
    ∃ ids : List Value,
      ((service.afterAll requests store).records name).map
        (Fields.get? service.settings.idField) = ids.map some ∧
      ids.Pairwise Value.Apart := by
  have hstore : service.Keys store := ⟨hkey, Memory.Store.unique_of_no_collections hempty⟩
  have hafter := keys_afterAll hdot hmerge hstore
  rw [← hafter.idField]
  exact hafter.unique name

/-- The second record has the identifier of the first in another width and replaces it. -/
theorem apart_of_three_creations :
    let requests : List Request :=
      [.createCollection "c",
        .within "c" (.createOne [("_id", .int32 1)] default),
        .within "c" (.createOne [("_id", .int64 1), ("a", .bool true)] default),
        .within "c" (.createOne [("_id", .bool true)] default)]
    let store : Memory.Store := { freshId := .ofNat }
    (∀ request ∈ requests, request.isMerge = false) ∧
    (((ofStore "_id").afterAll requests store).records "c").length = 2 ∧
    ∃ ids : List Value,
      (((ofStore "_id").afterAll requests store).records "c").map (Fields.get? "_id") =
        ids.map some ∧
      ids.Pairwise Value.Apart := by
  intro requests store
  have hmerge : ∀ request ∈ requests, request.isMerge = false := by
    simp [requests, Request.isMerge, Collection.Request.operation]
  refine ⟨hmerge, by decide +kernel, ?_⟩
  exact apart_of_afterAll (ofStore "_id") (by decide) store rfl rfl requests hmerge "c"

end Service

end DocumentStore
