import DocumentStore.Proofs.Collection.BatchCreation
import DocumentStore.Proofs.Collection.Failures
import DocumentStore.Proofs.Collection.ReadBack

/-!
# Checks of a batch

A batch is checked as a whole before the store is asked, and what stands behind the checks always
succeeds.  So a batch is refused for what a record of it is like, whatever its place, and for
nothing else.
-/

namespace DocumentStore

open Backend Program Memory.Store

/-! ## Checks that refuse on a condition -/

/-- The check ends with a bad request where the condition holds, and succeeds where it does not. -/
structure RefusesWhen {α : Type} (condition : Prop) (check : Except Failure α) : Prop where
  refuses : condition → ∃ text, check = .error (.badRequest text)
  passes : ¬ condition → ∃ a, check = .ok a

namespace RefusesWhen

variable {α β : Type} {condition other : Prop} {check : Except Failure α}

theorem of_iff (h : RefusesWhen condition check) (hiff : condition ↔ other) :
    RefusesWhen other check :=
  ⟨fun hother => h.refuses (hiff.2 hother), fun hnot => h.passes (mt hiff.1 hnot)⟩

theorem bind (h : RefusesWhen condition check) {next : α → Except Failure β}
    (hnext : ∀ a, check = .ok a → RefusesWhen other (next a)) :
    RefusesWhen (condition ∨ other) (check >>= next) := by
  by_cases hcondition : condition
  · obtain ⟨text, htext⟩ := h.refuses hcondition
    rw [htext]
    exact ⟨fun _ => ⟨text, rfl⟩, fun hnot => absurd (.inl hcondition) hnot⟩
  · obtain ⟨a, ha⟩ := h.passes hcondition
    have hrest := hnext a ha
    rw [ha]
    exact hrest.of_iff (or_iff_right hcondition).symm

theorem map (h : RefusesWhen condition check) (f : α → β) :
    RefusesWhen condition (check.map f) := by
  constructor
  · intro hcondition
    obtain ⟨text, htext⟩ := h.refuses hcondition
    exact ⟨text, by rw [htext]; rfl⟩
  · intro hnot
    obtain ⟨a, ha⟩ := h.passes hnot
    exact ⟨f a, by rw [ha]; rfl⟩

theorem mapM {step : α → Except Failure β} {wrong : α → Prop}
    (h : ∀ x, RefusesWhen (wrong x) (step x)) (xs : List α) :
    RefusesWhen (∃ x ∈ xs, wrong x) (xs.mapM step) := by
  induction xs with
  | nil =>
      refine ⟨fun hmem => ?_, fun _ => ⟨[], rfl⟩⟩
      obtain ⟨x, hx, -⟩ := hmem
      cases hx
  | cons x xs ih =>
      -- putting the element in front of the others adds no condition
      have hrest (y : β) : RefusesWhen (∃ x ∈ xs, wrong x)
          (xs.mapM step >>= fun ys => pure (y :: ys)) :=
        (ih.bind fun ys _ => ⟨False.elim, fun _ => ⟨y :: ys, rfl⟩⟩).of_iff (or_iff_left id)
      rw [List.mapM_cons]
      exact ((h x).bind fun y _ => hrest y).of_iff (List.exists_mem_cons_iff _ x xs).symm

end RefusesWhen

theorem Batch.refusesWhen_check (batch : Batch) :
    RefusesWhen (batch.records = [] ∨ ∃ record ∈ batch.records, record = []) batch.check := by
  constructor
  · intro hcondition
    cases hcheck : batch.check with
    | ok _ =>
        obtain ⟨hsome, hfields⟩ := check_eq_ok_iff.1 hcheck
        rcases hcondition with hnone | ⟨record, hrecord, hempty⟩
        · exact absurd hnone hsome
        · exact absurd hempty (hfields record hrecord)
    | error failure =>
        unfold check at hcheck
        split at hcheck
        · exact ⟨_, by rw [← hcheck]⟩
        · split at hcheck
          · exact ⟨_, by rw [← hcheck]⟩
          · cases hcheck
  · intro hnot
    rw [not_or, not_exists] at hnot
    exact ⟨(), check_eq_ok_iff.2
      ⟨hnot.1, fun record hrecord hempty => hnot.2 record ⟨hrecord, hempty⟩⟩⟩

namespace Collection

/-! ## Records that are refused -/

/-- The identifier of the record, under the identifier field or else under the alias, is missing,
null or blank text. -/
def Unidentified (c : Collection) (record : Document) : Prop :=
  ∀ id, (Fields.get? c.idField record).or (Fields.get? Identifier.aliasField record) = some id →
    id = .null ∨ ∃ text, id = .string text ∧ ∀ char ∈ text.toList, Text.isBlank char = true

/-- The record has no field but the identifier field and the alias. -/
def NothingToMerge (c : Collection) (record : Document) : Prop :=
  ∀ field ∈ record, field.1 = c.idField ∨ field.1 = Identifier.aliasField

/-- A batch with this record is refused. -/
def Malformed (c : Collection) (operation : Operation) (record : Document) : Prop :=
  record = [] ∨ operation ≠ .create ∧ c.Unidentified record ∨
    operation = .merge ∧ c.NothingToMerge record

variable {c : Collection}

theorem isBlankId_eq_true_iff {value : Value} :
    isBlankId value = true ↔
      value = .null ∨ ∃ text, value = .string text ∧
        ∀ char ∈ text.toList, Text.isBlank char = true := by
  cases value with
  | string text => simp [isBlankId]
  | null => simp [isBlankId]
  | _ => simp [isBlankId]

theorem isBlankId_storedRecord_iff (record : Document) :
    isBlankId ((Fields.get? c.idField (Identifier.storedRecord c.idField record)).getD .null) =
      true ↔ c.Unidentified record := by
  cases hid : (Fields.get? c.idField record).or (Fields.get? Identifier.aliasField record) with
  | none =>
      rw [Identifier.storedRecord_of_none hid, Unidentified, hid, (Option.or_eq_none_iff.1 hid).1]
      exact iff_of_true rfl nofun
  | some id =>
      have hiff : c.Unidentified record ↔ isBlankId id = true := by
        rw [Unidentified, hid, isBlankId_eq_true_iff]
        simp
      rw [Identifier.get?_storedRecord hid, Option.getD_some, hiff]
      cases hblank : isBlankId id with
      | true => simp [Request.isBlankId_stored_of_isBlankId hblank]
      | false => simp [Request.isBlankId_stored hblank]

theorem nothingToMerge_iff {record : Document} :
    c.NothingToMerge record ↔
      Fields.erase Identifier.aliasField (Fields.erase c.idField record) = [] := by
  simp [Fields.erase, NothingToMerge, or_iff_not_imp_right]

theorem nothingToMerge_storedRecord_iff {record : Document} :
    c.NothingToMerge (Identifier.storedRecord c.idField record) ↔ c.NothingToMerge record := by
  have hfields : Fields.erase Identifier.aliasField
        (Fields.erase c.idField (Identifier.storedRecord c.idField record)) =
      Fields.erase Identifier.aliasField (Fields.erase c.idField record) := by
    unfold Identifier.storedRecord
    split
    · rw [Fields.erase_insert_self]
    · split
      · rw [Fields.erase_insert_self, Fields.erase_comm c.idField, Fields.erase_erase_self]
      · rfl
  rw [nothingToMerge_iff, nothingToMerge_iff, hfields]

theorem refusesWhen_payload (record : Document) :
    RefusesWhen (c.NothingToMerge record) (c.payload record) := by
  rw [nothingToMerge_iff, ← List.isEmpty_iff]
  unfold payload
  dsimp only
  split
  · next hnone => exact ⟨fun _ => ⟨_, rfl⟩, fun hnot => absurd hnone hnot⟩
  · next hsome => exact ⟨fun hnone => absurd hnone hsome, fun _ => ⟨_, rfl⟩⟩

theorem refusesWhen_addressed (operation : Operation) (record : Document) :
    RefusesWhen (record = [] ∨ c.Unidentified record) (c.addressed operation record) := by
  rw [← isBlankId_storedRecord_iff, addressed]
  by_cases hempty : record = []
  · rw [if_pos (List.isEmpty_iff.2 hempty)]
    exact ⟨fun _ => ⟨_, rfl⟩, fun hnot => absurd (.inl hempty) hnot⟩
  · rw [if_neg (mt List.isEmpty_iff.1 hempty)]
    refine RefusesWhen.of_iff ?_ (or_iff_right hempty).symm
    dsimp only
    split
    · next hblank => exact ⟨fun _ => ⟨_, rfl⟩, fun hnot => absurd hblank hnot⟩
    · next hblank => exact ⟨fun hid => absurd hid hblank, fun _ => ⟨_, rfl⟩⟩

/-! ## Batches that are refused -/

theorem refusesWhen_addressedBatch (operation : Operation) (batch : Batch) :
    RefusesWhen (batch.records = [] ∨
        ∃ record ∈ batch.records, record = [] ∨ c.Unidentified record)
      (c.addressedBatch operation batch) := by
  have hchecks := batch.refusesWhen_check.bind fun _ _ =>
    RefusesWhen.mapM (fun record => refusesWhen_addressed (c := c) operation record) batch.records
  refine hchecks.of_iff ⟨?_, ?_⟩
  · rintro ((hnone | ⟨record, hrecord, hempty⟩) | hwrong)
    · exact .inl hnone
    · exact .inr ⟨record, hrecord, .inl hempty⟩
    · exact .inr hwrong
  · rintro (hnone | hwrong)
    · exact .inl (.inl hnone)
    · exact .inr hwrong

theorem map_snd_of_mapM_addressed {operation : Operation} {records : List Document}
    {entries : List (Identifier × Document)}
    (h : records.mapM (c.addressed operation) = .ok entries) :
    entries.map Prod.snd = records.map (Identifier.storedRecord c.idField) :=
  (map_eq_map_of_mapM_eq_ok h fun _ _ haddressed => (Request.of_addressed haddressed).1.symm).symm

theorem refusesWhen_payloads {operation : Operation} {batch : Batch}
    {entries : List (Identifier × Document)}
    (h : c.addressedBatch operation batch = .ok entries) :
    RefusesWhen (∃ record ∈ batch.records, c.NothingToMerge record) (c.payloads entries) := by
  obtain ⟨_, -, haddressed⟩ := exists_of_bind_eq_ok h
  have hpayloads : RefusesWhen (∃ entry ∈ entries, c.NothingToMerge entry.2) (c.payloads entries) :=
    RefusesWhen.mapM (fun entry => (refusesWhen_payload entry.2).map (entry.1, ·)) entries
  refine hpayloads.of_iff ?_
  calc (∃ entry ∈ entries, c.NothingToMerge entry.2)
      ↔ ∃ stored ∈ entries.map Prod.snd, c.NothingToMerge stored := by
        simp only [List.mem_map, exists_exists_and_eq_and]
    _ ↔ ∃ stored ∈ batch.records.map (Identifier.storedRecord c.idField),
          c.NothingToMerge stored := by rw [map_snd_of_mapM_addressed haddressed]
    _ ↔ ∃ record ∈ batch.records, c.NothingToMerge record := by
        simp [nothingToMerge_storedRecord_iff]

/-! ## Programs behind their checks -/

/-- The program ends with a bad request and leaves the store where the condition holds, and
succeeds where it does not. -/
structure RefusedWhen {α : Type} (condition : Prop) (p : Program α) : Prop where
  refused : condition → ∀ store, ∃ text, p.run handle store = (.error (.badRequest text), store)
  succeeds : ¬ condition → p.Succeeds handle

namespace RefusedWhen

variable {α β : Type} {condition other : Prop}

theorem of_iff {p : Program α} (h : RefusedWhen condition p) (hiff : condition ↔ other) :
    RefusedWhen other p :=
  ⟨fun hother => h.refused (hiff.2 hother), fun hnot => h.succeeds (mt hiff.1 hnot)⟩

theorem of_succeeds {p : Program α} (h : p.Succeeds handle) : RefusedWhen False p :=
  ⟨False.elim, fun _ => h⟩

theorem lift_bind {check : Except Failure α} (hcheck : RefusesWhen condition check)
    {next : α → Program β} (hnext : ∀ a, check = .ok a → RefusedWhen other (next a)) :
    RefusedWhen (condition ∨ other) (liftM check >>= next) := by
  by_cases hcondition : condition
  · obtain ⟨text, htext⟩ := hcheck.refuses hcondition
    rw [htext]
    exact ⟨fun _ _ => ⟨text, rfl⟩, fun hnot => absurd (.inl hcondition) hnot⟩
  · obtain ⟨a, ha⟩ := hcheck.passes hcondition
    have hrest := hnext a ha
    rw [ha]
    exact hrest.of_iff (or_iff_right hcondition).symm

end RefusedWhen

theorem succeeds_perform_delete (operation : Operation) (name field : String)
    (values : List Value) :
    (perform operation name (.delete name (.oneOf field values))).Succeeds handle := by
  intro store
  rw [run_perform]
  cases hdelete : (store.delete name (.oneOf field values)).1 with
  | ok count => exact ⟨count, mapError_eq_ok_iff.2 hdelete⟩
  | error failure =>
      obtain ⟨stored, -, cause, hcause⟩ := exists_error_of_delete hdelete
      cases hcause

theorem succeeds_removeListed (projection : Projection) (ids : List Identifier) :
    (c.removeListed projection ids).Succeeds handle :=
  succeeds_bind (succeeds_outcomesOf c .delete projection ids) fun _ =>
    succeeds_bind (succeeds_perform_delete .delete c.name c.idField _) fun _ => succeeds_pure _

theorem succeeds_lookUpListed (operation : Operation) (projection : Projection)
    (ids : List Identifier) : (c.lookUpListed operation projection ids).Succeeds handle :=
  succeeds_bind (succeeds_perform_find operation c.name c.idField _ rfl) fun _ => succeeds_pure _

theorem refusedWhen_createEach (batch : Batch) (fields : FieldChoice)
    (options : CreationOptions) :
    RefusedWhen (batch.records = [] ∨ ∃ record ∈ batch.records, record = [])
      (c.createEach batch fields options) := by
  constructor
  · intro hcondition store
    obtain ⟨text, htext⟩ := batch.refusesWhen_check.refuses hcondition
    exact ⟨text, by rw [createEach, htext]; rfl⟩
  · intro hnot store
    obtain ⟨_, hcheck⟩ := batch.refusesWhen_check.passes hnot
    rw [run_createEach hcheck]
    exact ⟨_, rfl⟩

theorem refusedWhen_of_addressed {operation : Operation} {batch : Batch} {α : Type}
    {next : List (Identifier × Document) → Program α}
    (hnext : ∀ entries, (next entries).Succeeds handle) :
    RefusedWhen (batch.records = [] ∨
        ∃ record ∈ batch.records, record = [] ∨ c.Unidentified record)
      (liftM (c.addressedBatch operation batch) >>= next) :=
  (RefusedWhen.lift_bind (refusesWhen_addressedBatch operation batch) fun entries _ =>
    .of_succeeds (hnext entries)).of_iff (or_iff_left id)

theorem refusedWhen_mergeEach (batch : Batch) (fields : FieldChoice) :
    RefusedWhen ((batch.records = [] ∨
        ∃ record ∈ batch.records, record = [] ∨ c.Unidentified record) ∨
          ∃ record ∈ batch.records, c.NothingToMerge record)
      (c.mergeEach batch fields) := by
  refine RefusedWhen.lift_bind (refusesWhen_addressedBatch .merge batch) fun entries hentries => ?_
  have hpayloads := RefusedWhen.lift_bind (refusesWhen_payloads hentries) fun payloads _ =>
    RefusedWhen.of_succeeds (succeeds_forEach (c.mergeStored (c.projection fields)) payloads)
  exact hpayloads.of_iff (or_iff_left id)

namespace Request

def batch? : Request → Option Batch
  | .createEach batch .. | .replaceEach batch _ | .mergeEach batch _ | .deleteEach batch _
  | .retrieveEach batch _ => some batch
  | _ => none

theorem refusedWhen_of_batch {request : Request} {batch : Batch}
    (hbatch : request.batch? = some batch) :
    RefusedWhen (batch.records = [] ∨
        ∃ record ∈ batch.records, c.Malformed request.operation record)
      (request.program c) := by
  cases request with
  | createEach records fields options =>
      cases hbatch
      refine (refusedWhen_createEach batch fields options).of_iff ?_
      simp [Malformed, operation]
  | replaceEach records fields =>
      cases hbatch
      refine (refusedWhen_of_addressed fun _ => succeeds_forEach _ _).of_iff ?_
      simp [Malformed, operation]
  | mergeEach records fields =>
      cases hbatch
      refine (refusedWhen_mergeEach batch fields).of_iff ?_
      rw [or_assoc, ← exists_or]
      simp [Malformed, operation, ← and_or_left, or_assoc]
  | deleteEach records fields =>
      cases hbatch
      refine (refusedWhen_of_addressed fun _ => succeeds_removeListed _ _).of_iff ?_
      simp [Malformed, operation]
  | retrieveEach records fields =>
      cases hbatch
      refine (refusedWhen_of_addressed fun _ => succeeds_lookUpListed _ _ _).of_iff ?_
      simp [Malformed, operation]
  | _ => cases hbatch

/-- A batch ends with a bad request just when it is empty or has a malformed record, and then
nothing is written. -/
theorem badRequest_iff_of_batch {c : Collection} {request : Request} {batch : Batch}
    (hbatch : request.batch? = some batch) (store : Memory.Store) :
    ((∃ text, ((request.program c).run handle store).1 = .error (.badRequest text)) ↔
      batch.records = [] ∨ ∃ record ∈ batch.records, c.Malformed request.operation record) ∧
    ∀ text, ((request.program c).run handle store).1 = .error (.badRequest text) →
      request.after c store = store := by
  have hrefused := refusedWhen_of_batch (c := c) hbatch
  by_cases hwrong : batch.records = [] ∨
      ∃ record ∈ batch.records, c.Malformed request.operation record
  · obtain ⟨text, hrun⟩ := hrefused.refused hwrong store
    rw [after, hrun]
    exact ⟨iff_of_true ⟨text, rfl⟩ hwrong, fun _ _ => rfl⟩
  · obtain ⟨answer, hanswer⟩ := hrefused.succeeds hwrong store
    have hnone (text : String) : Except.ok answer ≠ .error (Failure.badRequest text) := by
      simp only [ne_eq, reduceCtorEq, not_false_eq_true]
    rw [hanswer]
    exact ⟨iff_of_false (fun hfails => hnone _ hfails.choose_spec) hwrong,
      fun text hfails => absurd hfails (hnone text)⟩

/-- The last record has the alias besides its identifier, and nothing else. -/
theorem badRequest_of_last_record :
    let c : Collection := ⟨"c", "_id"⟩
    let store : Memory.Store :=
      { collections := [("c", [[("_id", .int32 1), ("a", .int32 1)]])], freshId := .ofNat }
    let batch : Batch :=
      ⟨[[("_id", .int32 1), ("a", .int32 2)], [("_id", .int32 2), ("id", .int32 3)]]⟩
    let request : Request := mergeEach batch default
    request.batch? = some batch ∧
    (∃ text, ((request.program c).run handle store).1 = .error (.badRequest text)) ∧
    request.after c store = store := by
  intro c store batch request
  have hmalformed : c.Malformed request.operation [("_id", .int32 2), ("id", .int32 3)] := by
    refine .inr (.inr ⟨rfl, fun field hfield => ?_⟩)
    rcases List.mem_pair.1 hfield with rfl | rfl
    · exact .inl rfl
    · exact .inr rfl
  have hlast : [("_id", .int32 2), ("id", .int32 3)] ∈ batch.records := .tail _ (.head _)
  have hbatch : request.batch? = some batch := rfl
  obtain ⟨hiff, hafter⟩ := badRequest_iff_of_batch (c := c) hbatch store
  obtain ⟨text, hfails⟩ := hiff.2 (.inr ⟨_, hlast, hmalformed⟩)
  exact ⟨hbatch, ⟨text, hfails⟩, hafter text hfails⟩

end Request

end Collection

end DocumentStore
