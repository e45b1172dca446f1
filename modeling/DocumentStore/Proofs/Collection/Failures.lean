import DocumentStore.Proofs.Backend.Failures
import DocumentStore.Proofs.Collection.RequestCalls
import DocumentStore.Proofs.Memory.Answers

/-!
# What a failing request leaves

A request that fails leaves every collection with its records.  Only a request that saves a
single record can leave a trace: it creates its collection before the record is matched and
checked, so a failure may leave an empty collection that was not there before.
-/

namespace DocumentStore

open Backend Program Memory.Store

/-- A call that only reads, or takes a new identifier. -/
def Backend.Call.Reads : Call → Prop
  | .newId | .find .. | .count .. | .listCollections | .shutdown => True
  | _ => False

namespace Collection

def SameCollections (before after : Memory.Store) : Prop :=
  after.collections = before.collections

def SameOrCreated (name : String) (before after : Memory.Store) : Prop :=
  after.collections = before.collections ∨
    after.collections = (before.ensureCollection name).collections

theorem sameCollections_refl (store : Memory.Store) : SameCollections store store := rfl

theorem sameCollections_trans (s t u : Memory.Store) (hst : SameCollections s t)
    (htu : SameCollections t u) : SameCollections s u :=
  Eq.trans htu hst

theorem sameOrCreated_refl (name : String) (store : Memory.Store) :
    SameOrCreated name store store := .inl rfl

theorem sameOrCreated_of_same (name : String) (s t : Memory.Store) (h : SameCollections s t) :
    SameOrCreated name s t := .inl h

theorem ensureCollection_congr {s t : Memory.Store} (h : SameCollections s t) (name : String) :
    (t.ensureCollection name).collections = (s.ensureCollection name).collections := by
  have hcollections : t.collections = s.collections := h
  simp only [Memory.Store.ensureCollection, Memory.Store.setRecords, Memory.Store.records,
    hcollections]

theorem sameOrCreated_trans (name : String) (s t u : Memory.Store) (hst : SameCollections s t)
    (htu : SameOrCreated name t u) : SameOrCreated name s u := by
  rcases htu with hsame | hcreated
  · exact .inl (Eq.trans hsame hst)
  · exact .inr (hcreated.trans (ensureCollection_congr hst name))

/-! ## Reading -/

theorem keeps_of_reads {α : Type} {p : Program α} (hp : p.Asks Call.Reads) :
    p.Keeps handle SameCollections := by
  intro store
  have hstep : ∀ call state, Call.Reads call → SameCollections store state →
      SameCollections store (handle call state).2 := by
    intro call state hcall hstate
    cases call with
    | newId | find | count | listCollections | shutdown => exact hstate
    | _ => exact hcall.elim
  exact run_keeps hp hstep rfl

theorem find_oneOf_succeeds (store : Memory.Store) (name field : String) (values : List Value)
    {selection : Selection} (hsort : selection.sort = []) :
    ∃ found, store.find name (.oneOf field values) selection = .ok found :=
  ⟨_, find_unsorted_of_total (fun _ _ => ⟨_, rfl⟩) hsort⟩

theorem succeeds_perform_find (operation : Operation) (name field : String)
    (values : List Value) {selection : Selection} (hsort : selection.sort = []) :
    (perform operation name (.find name (.oneOf field values) selection)).Succeeds handle := by
  intro store
  obtain ⟨found, hfound⟩ := find_oneOf_succeeds store name field values hsort
  rw [run_perform]
  exact ⟨found, mapError_eq_ok_iff.2 hfound⟩

/-! ## Steps of operations -/

variable (c : Collection)

theorem failsWithin_perform {R : Memory.Store → Memory.Store → Prop} {operation : Operation}
    {name : String} {call : Call}
    (h : ∀ store failure, (handle call store).1 = .error failure → R store (handle call store).2) :
    (perform operation name call).FailsWithin handle R := by
  intro store failure hfails
  obtain ⟨cause, hcause⟩ := exists_of_run_perform_eq_error (Prod.ext hfails rfl)
  rw [run_perform]
  exact h store cause hcause

theorem failsWithin_orNotFound {p : Program (Option Document)} {id : Identifier}
    {projection : Projection}
    (hmiss : ∀ store, (∀ record, (p.run handle store).1 ≠ .ok (some record)) →
      SameCollections store (p.run handle store).2) :
    (p >>= c.orNotFound id projection).FailsWithin handle SameCollections := by
  refine failsWithin_bind ?_ ?_
  · intro store failure hfails
    exact hmiss store fun record hrecord => by simp [hfails] at hrecord
  · intro store found next failure hrun hfails
    have hnext := hmiss store
    rw [hrun] at hnext
    cases found with
    | none => exact hnext fun _ => nofun
    | some record => cases hfails

theorem failsWithin_mergeStored (projection : Projection) (id : Identifier) (patch : Document) :
    (c.mergeStored projection id patch).FailsWithin handle SameCollections := by
  refine failsWithin_orNotFound c fun store hmiss => ?_
  rw [run_perform] at hmiss ⊢
  have hnone := findAndMerge_of_miss store c.name fun record hrecord =>
    hmiss record (mapError_eq_ok_iff.2 hrecord)
  exact congrArg Memory.Store.collections hnone

theorem failsWithin_deleteStored (projection : Projection) (id : Identifier) :
    (c.deleteStored projection id).FailsWithin handle SameCollections := by
  refine failsWithin_orNotFound c fun store hmiss => ?_
  rw [run_perform] at hmiss ⊢
  have hnone := findAndDelete_of_miss store c.name fun record hrecord =>
    hmiss record (mapError_eq_ok_iff.2 hrecord)
  exact congrArg Memory.Store.collections hnone

theorem failsWithin_perform_replace {operation : Operation} {filter : Predicate}
    {record : Document} {upsert : Bool} :
    (perform operation c.name (.replace c.name filter record upsert)).FailsWithin handle
      (SameOrCreated c.name) :=
  failsWithin_perform fun store failure hfails =>
    .inr (collections_replace_of_miss store c.name (.inl ⟨failure, hfails⟩))

theorem failsWithin_replaceStored (projection : Projection) (id : Identifier)
    (record : Document) :
    (c.replaceStored projection id record).FailsWithin handle (SameOrCreated c.name) := by
  refine failsWithin_bind (failsWithin_perform_replace c) ?_
  intro store matched next failure hrun hfails
  have hcall := handle_of_run_perform_eq_ok hrun
  split at hfails
  · next hzero =>
    rw [hzero] at hcall
    rw [if_pos hzero, run_fail, ← congrArg Prod.snd hcall]
    exact .inr (collections_replace_of_miss store c.name (.inr ⟨rfl, congrArg Prod.fst hcall⟩))
  · cases hfails

/-! ## Creation -/

theorem keeps_assignId (record : Document) :
    (c.assignId record).Keeps handle SameCollections :=
  keeps_of_reads (asks_assignId c trivial record)

theorem run_perform_insert {store next : Memory.Store} {operation : Operation}
    {records : List Document} {ordered : Bool} {statuses : List InsertStatus}
    (h : (perform operation c.name (.insert c.name records ordered)).run handle store =
      (.ok statuses, next)) :
    store.insert c.name records ordered = (statuses, next) := by
  have hcall := handle_of_run_perform_eq_ok h
  have hstatuses := congrArg Prod.fst hcall
  have hnext := congrArg Prod.snd hcall
  exact Prod.ext (Except.ok.inj hstatuses) hnext

theorem failsWithin_createOne (record : Document) (fields : FieldChoice) :
    (c.createOne record fields).FailsWithin handle (SameOrCreated c.name) := by
  refine failsWithin_lift_bind (sameOrCreated_refl c.name) fun _ => ?_
  dsimp only
  split
  · exact failsWithin_bind_of_succeeds (failsWithin_perform_replace c) fun _ => succeeds_pure _
  · refine failsWithin_bind_of_keeps (sameOrCreated_of_same c.name) (sameOrCreated_trans c.name)
      (keeps_assignId c _) fun assigned => ?_
    refine failsWithin_bind (failsWithin_perform fun store failure hfails => nomatch hfails) ?_
    intro store statuses next failure hrun hfails
    have hinsert := run_perform_insert c hrun
    rw [insert_singleton, Prod.mk.injEq] at hinsert
    obtain ⟨rfl, rfl⟩ := hinsert
    have hrefused (h : ((store.ensureCollection c.name).insertOne c.name assigned).1 ≠ .written) :
        SameOrCreated c.name store
          ((store.ensureCollection c.name).insertOne c.name assigned).2 :=
      .inr (collections_insertOne_of_refusal (store.ensureCollection c.name) c.name h)
    cases hstatus : ((store.ensureCollection c.name).insertOne c.name assigned).1 with
    | written =>
        rw [hstatus] at hfails
        cases hfails
    | failed text => exact hrefused (by rw [hstatus]; nofun)
    | notAttempted => exact hrefused (by rw [hstatus]; nofun)

/-- A batch insert reports on every record, so a batch that passes its check is answered. -/
theorem failsWithin_createEach (batch : Batch) (fields : FieldChoice)
    (options : CreationOptions) :
    (c.createEach batch fields options).FailsWithin handle SameCollections := by
  refine failsWithin_lift_bind sameCollections_refl fun _ => ?_
  refine failsWithin_bind_of_keeps (fun _ _ => id) sameCollections_trans
    (keeps_mapM sameCollections_refl sameCollections_trans (keeps_assignId c) _) fun records => ?_
  refine failsWithin_bind (failsWithin_perform fun store failure hfails => nomatch hfails) ?_
  intro store statuses next failure hrun hfails
  have hlength : statuses.length = records.length := by
    have hinsert : (store.insert c.name records options.rollback).1 = statuses :=
      congrArg Prod.fst (run_perform_insert c hrun)
    rw [← hinsert]
    exact length_insertEach _ _ _ _
  rw [if_neg (not_not.2 hlength)] at hfails
  cases hfails

theorem succeeds_outcomesOf (operation : Operation) (projection : Projection)
    (ids : List Identifier) : (c.outcomesOf operation projection ids).Succeeds handle := by
  unfold outcomesOf
  split
  · exact succeeds_pure _
  · exact succeeds_bind (succeeds_perform_find _ _ _ _ rfl) fun _ => succeeds_pure _

theorem failsWithin_modifyListed (operation : Operation) (change : Change)
    (projection : Projection) (ids : List Identifier) :
    (c.modifyListed operation change projection ids).FailsWithin handle SameCollections := by
  refine failsWithin_bind_of_succeeds (failsWithin_perform ?_) fun _ => succeeds_outcomesOf c _ _ _
  intro store failure hfails
  exact congrArg Memory.Store.collections (update_of_error store _ hfails)

theorem failsWithin_perform_delete {operation : Operation} {name : String} {filter : Predicate} :
    (perform operation name (.delete name filter)).FailsWithin handle SameCollections := by
  refine failsWithin_perform fun store failure hfails => ?_
  exact congrArg Memory.Store.collections (delete_of_error store _ hfails)

theorem failsWithin_removeListed (projection : Projection) (ids : List Identifier) :
    (c.removeListed projection ids).FailsWithin handle SameCollections := by
  have hread : (c.outcomesOf .delete projection ids).Keeps handle SameCollections :=
    keeps_of_reads (asks_outcomesOf c (fun _ _ => trivial) _ _ _)
  refine failsWithin_bind_of_keeps (fun _ _ => id) sameCollections_trans hread fun _ => ?_
  exact failsWithin_bind_of_succeeds failsWithin_perform_delete fun _ => succeeds_pure _

theorem failsWithin_modifyMatching (operation : Operation) (change : Change)
    (projection : Projection) (filter : Predicate) :
    (c.modifyMatching operation change projection filter).FailsWithin handle SameCollections := by
  have hread : ∀ selection, (perform operation c.name (.find c.name filter selection)).Keeps
      handle SameCollections := fun _ => keeps_of_reads (asks_perform trivial)
  refine failsWithin_bind_of_keeps (fun _ _ => id) sameCollections_trans (hread _) fun found => ?_
  dsimp only
  split
  · exact (succeeds_pure _).failsWithin
  · refine failsWithin_bind_of_succeeds (failsWithin_perform ?_) fun _ => ?_
    · intro store failure hfails
      exact congrArg Memory.Store.collections (update_of_error store _ hfails)
    · split
      · exact succeeds_pure _
      · exact succeeds_bind (succeeds_perform_find _ _ _ _ rfl) fun _ => succeeds_pure _

theorem failsWithin_removeMatching (projection : Projection) (filter : Predicate) :
    (c.removeMatching projection filter).FailsWithin handle SameCollections := by
  have hread : ∀ selection, (perform .delete c.name (.find c.name filter selection)).Keeps
      handle SameCollections := fun _ => keeps_of_reads (asks_perform trivial)
  refine failsWithin_bind_of_keeps (fun _ _ => id) sameCollections_trans (hread _) fun found => ?_
  dsimp only
  split
  · exact failsWithin_bind_of_succeeds failsWithin_perform_delete fun _ => succeeds_pure _
  · exact (succeeds_pure _).failsWithin

theorem succeeds_forEach (step : Identifier → Document → Program Document)
    (records : List (Identifier × Document)) : (forEach step records).Succeeds handle :=
  succeeds_mapM (fun _ => succeeds_bind (succeeds_attempt _) fun _ => succeeds_pure _) records

/-! ## Requests -/

namespace Request

/-- The requests that write one record under the identifier that it is given with. -/
def savesOne : Request → Bool
  | .createOne .. | .replaceOne .. | .replaceAt .. => true
  | _ => false

def Leaves (request : Request) (before after : Memory.Store) : Prop :=
  SameCollections before after ∨ request.savesOne = true ∧ SameOrCreated c.name before after

theorem asks_reads_of_retrieve {request : Request} (h : request.operation = .retrieve) :
    (request.program c).Asks Call.Reads := by
  have hother {operation : Operation} (hne : operation ≠ .retrieve) :
      request.operation ≠ operation := h ▸ hne.symm
  refine asks_mono ?_ (asks_mayAsk c request)
  intro call hcall
  cases call with
  | newId | find | count | listCollections | shutdown => trivial
  | insert | delete => exact absurd hcall.2 (hother nofun)
  | replace name filter record upsert =>
      cases upsert with
      | true => exact absurd hcall.2.1 (hother nofun)
      | false => exact absurd hcall.2.1 (hother nofun)
  | update name filter change =>
      cases change with
      | replace body => exact absurd hcall.2 (hother nofun)
      | merge patch => exact absurd hcall.2.1 (hother nofun)
  | findAndMerge | findAndDelete => exact absurd hcall.2.1 (hother nofun)
  | createCollection | dropCollection => exact hcall

theorem failsWithin_program (request : Request) :
    (request.program c).FailsWithin handle (request.Leaves c) := by
  have hsame {α : Type} {p : Program α} (h : p.FailsWithin handle SameCollections) :
      p.FailsWithin handle (request.Leaves c) := h.mono fun _ _ => .inl
  have hrefl : ∀ store, request.Leaves c store store := fun _ => .inl rfl
  cases request with
  | createEach batch fields options => exact hsame (failsWithin_createEach c batch fields options)
  | createOne record fields =>
      exact (failsWithin_createOne c record fields).mono fun _ _ h => .inr ⟨rfl, h⟩
  | replaceOne record fields =>
      exact failsWithin_lift_bind hrefl fun _ =>
        (failsWithin_replaceStored c _ _ _).mono fun _ _ h => .inr ⟨rfl, h⟩
  | replaceAt record id fields =>
      exact failsWithin_lift_bind hrefl fun _ => failsWithin_lift_bind hrefl fun _ =>
        (failsWithin_replaceStored c _ _ _).mono fun _ _ h => .inr ⟨rfl, h⟩
  | replaceEach batch fields =>
      exact failsWithin_lift_bind hrefl fun _ => (succeeds_forEach _ _).failsWithin
  | mergeEach batch fields =>
      exact failsWithin_lift_bind hrefl fun _ => failsWithin_lift_bind hrefl fun _ =>
        (succeeds_forEach _ _).failsWithin
  | mergeOne record fields | mergeAt record id fields =>
      exact failsWithin_lift_bind hrefl fun _ => failsWithin_lift_bind hrefl fun _ =>
        hsame (failsWithin_mergeStored c _ _ _)
  | replaceWhere record filter fields | mergeWhere record filter fields =>
      exact failsWithin_lift_bind hrefl fun _ => failsWithin_lift_bind hrefl fun _ =>
        hsame (failsWithin_modifyMatching c _ _ _ _)
  | replaceListed record ids fields | mergeListed record ids fields =>
      exact failsWithin_lift_bind hrefl fun _ => failsWithin_lift_bind hrefl fun _ =>
        hsame (failsWithin_modifyListed c _ _ _ _)
  | deleteEach batch fields | deleteListed ids fields =>
      exact failsWithin_lift_bind hrefl fun _ => hsame (failsWithin_removeListed c _ _)
  | deleteOne record fields | deleteAt id fields =>
      exact failsWithin_lift_bind hrefl fun _ => hsame (failsWithin_deleteStored c _ _)
  | deleteWhere filter fields =>
      exact failsWithin_lift_bind hrefl fun _ => hsame (failsWithin_removeMatching c _ _)
  | retrieveEach | retrieveOne | retrieveAt | retrieveWhere | retrieveListed =>
      exact hsame (keeps_of_reads (asks_reads_of_retrieve c rfl)).failsWithin

/-- In a collection that does not exist there is nothing to replace, and yet it exists then. -/
theorem run_replaceAt_of_missing {record payload : Document} {id : Value} {key : Identifier}
    (hpayload : c.payload record = .ok payload) (hid : readId id = .ok key)
    (fields : FieldChoice) {store : Memory.Store}
    (hmissing : Fields.contains c.name store.collections = false) :
    (((replaceAt record id fields).program c).run handle store).1 = .error (c.notFound key) ∧
    ((replaceAt record id fields).after c store).collections =
      store.collections ++ [(c.name, [])] := by
  have hprogram : (replaceAt record id fields).program c =
      c.replaceStored (c.projection fields) key payload := by
    rw [program, Collection.replaceAt, hpayload, hid]
    rfl
  have hempty : (store.ensureCollection c.name).records c.name = [] := by
    rw [Memory.Store.records_ensureCollection]
    exact records_of_missing store c.name hmissing
  have hreplace : store.replace c.name (c.keyIs key)
      (Fields.insert c.idField key.stored payload) false =
        (.ok 0, store.ensureCollection c.name) := by
    simp only [Memory.Store.replace_eq_scan, Memory.Store.scan, hempty]
    rfl
  have hrun : ((replaceAt record id fields).program c).run handle store =
      (.error (c.notFound key), store.ensureCollection c.name) := by
    rw [hprogram, replaceStored, run_bind, run_perform]
    simp only [handle, hreplace]
    rfl
  rw [after, hrun]
  exact ⟨rfl, ensureCollection_of_missing store c.name hmissing⟩

/-- A failing request changes no record and no collection, except that a request which saves one
record may leave its collection behind, empty, where there was none.  A replacement by identifier
that is asked of a missing collection always does. -/
theorem collections_of_failure (c : Collection) :
    (∀ (request : Request) (store : Memory.Store) (failure : Failure),
      ((request.program c).run handle store).1 = .error failure →
        (request.after c store).collections = store.collections ∨
        request.savesOne = true ∧ Fields.contains c.name store.collections = false ∧
          (request.after c store).collections = store.collections ++ [(c.name, [])]) ∧
    ∀ (record payload : Document) (id : Value) (key : Identifier) (fields : FieldChoice)
      (store : Memory.Store), c.payload record = .ok payload → readId id = .ok key →
        Fields.contains c.name store.collections = false →
          (((replaceAt record id fields).program c).run handle store).1 =
            .error (c.notFound key) ∧
          ((replaceAt record id fields).after c store).collections =
            store.collections ++ [(c.name, [])] := by
  refine ⟨?_, fun _ _ _ _ fields _ hpayload hid hmissing =>
    run_replaceAt_of_missing c hpayload hid fields hmissing⟩
  intro request store failure hfails
  rcases failsWithin_program c request store failure hfails with hsame | ⟨hsaves, hsame | hcreated⟩
  · exact .inl hsame
  · exact .inl hsame
  · cases hexists : Fields.contains c.name store.collections with
    | true => exact .inl (hcreated.trans (ensureCollection_of_contains store c.name hexists))
    | false =>
        exact .inr ⟨hsaves, rfl, hcreated.trans (ensureCollection_of_missing store c.name hexists)⟩

theorem collections_of_replacement_in_empty_store :
    let c : Collection := ⟨"c", "_id"⟩
    let store : Memory.Store := { freshId := .ofNat }
    let request : Request := replaceAt [("a", .int32 1)] (.int32 1) default
    ((request.program c).run handle store).1 = .error (.notFound "1" "c") ∧
    store.collections = [] ∧ (request.after c store).collections = [("c", [])] := by
  refine ⟨?_, rfl, ?_⟩
  · rfl
  · rfl

end Request

end Collection

end DocumentStore
