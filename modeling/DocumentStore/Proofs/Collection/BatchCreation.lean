import DocumentStore.Proofs.Collection.Requests
import DocumentStore.Proofs.Memory.Insertions

/-!
# Creation of a batch

Every record of the batch is brought into stored form first, with an identifier from the stream
if it has none, and then inserted behind the records that are stored.  The outcomes tell what was
stored, in the order of the batch.
-/

namespace DocumentStore

open Backend Program Memory Memory.Store

theorem Batch.check_eq_ok_iff {batch : Batch} :
    batch.check = .ok () ↔ batch.records ≠ [] ∧ ∀ record ∈ batch.records, record ≠ [] := by
  rw [Batch.check]
  by_cases hnone : batch.records = []
  · simp [hnone]
  · rw [if_neg (by simpa using hnone)]
    cases hempty : batch.records.findIdx? List.isEmpty with
    | some index =>
        obtain ⟨hindex, hrecord, -⟩ := List.findIdx?_eq_some_iff_getElem.1 hempty
        simp only [reduceCtorEq, false_iff, not_and, not_forall, not_not]
        exact fun _ => ⟨_, List.getElem_mem hindex, List.isEmpty_iff.1 hrecord⟩
    | none =>
        simp only [true_iff]
        refine ⟨hnone, fun record hrecord hfields => ?_⟩
        have hnot := List.findIdx?_eq_none_iff.1 hempty record hrecord
        rw [hfields] at hnot
        cases hnot

def Outcome.isRecord : Outcome → Bool
  | .record _ => true
  | _ => false

namespace Collection

/-! ## Identifiers for new records -/

/-- A new record in stored form, and how many identifiers of the stream are in use then. -/
def identify (c : Collection) (freshId : Nat → ObjectId) (issued : Nat) (record : Document) :
    Document × Nat :=
  let stored := Identifier.storedRecord c.idField record
  if Fields.contains c.idField stored then (stored, issued)
  else (Fields.insertAll [(c.idField, .objectId (freshId issued))] stored, issued + 1)

def identifyEach (c : Collection) (freshId : Nat → ObjectId) (issued : Nat) :
    List Document → List Document × Nat
  | [] => ([], issued)
  | record :: records =>
    let first := c.identify freshId issued record
    let rest := c.identifyEach freshId first.2 records
    (first.1 :: rest.1, rest.2)

variable {c : Collection}

theorem contains_identify (freshId : Nat → ObjectId) (issued : Nat) (record : Document) :
    Fields.contains c.idField (c.identify freshId issued record).1 = true := by
  by_cases hid : Fields.contains c.idField (Identifier.storedRecord c.idField record) = true
  · simp only [identify, hid, if_true]
  · have hnone : Fields.get? c.idField (Identifier.storedRecord c.idField record) = none := by
      simpa [Fields.contains] using hid
    have hnew : ∀ field ∈ Identifier.storedRecord c.idField record, field.1 ≠ c.idField :=
      fun _ hfield => Fields.ne_of_get?_eq_none hnone hfield
    simp only [identify, if_neg hid]
    rw [Fields.contains, Fields.get?_insertAll_of_ne hnew, Fields.get?_cons, if_pos rfl]
    rfl

theorem contains_of_mem_identifyEach {freshId : Nat → ObjectId} {issued : Nat}
    {records : List Document} {record : Document}
    (h : record ∈ (c.identifyEach freshId issued records).1) :
    Fields.contains c.idField record = true := by
  induction records generalizing issued with
  | nil => cases h
  | cons first records ih =>
      rcases List.mem_cons.1 h with rfl | hmem
      · exact contains_identify freshId issued first
      · exact ih hmem

theorem length_identifyEach (freshId : Nat → ObjectId) (issued : Nat) (records : List Document) :
    (c.identifyEach freshId issued records).1.length = records.length := by
  induction records generalizing issued with
  | nil => rfl
  | cons first records ih => exact congrArg (· + 1) (ih _)

theorem run_assignId (record : Document) (store : Memory.Store) :
    (c.assignId record).run handle store =
      (.ok (c.identify store.freshId store.issued record).1,
        { store with issued := (c.identify store.freshId store.issued record).2 }) := by
  rw [assignId, identify]
  split <;> rfl

theorem run_assignEach (records : List Document) (store : Memory.Store) :
    (records.mapM c.assignId).run handle store =
      (.ok (c.identifyEach store.freshId store.issued records).1,
        { store with issued := (c.identifyEach store.freshId store.issued records).2 }) := by
  induction records generalizing store with
  | nil => rfl
  | cons record records ih =>
      rw [List.mapM_cons, run_bind, run_assignId]
      dsimp only
      rw [run_bind, ih]
      rfl

/-! ## Outcomes of an insertion -/

def created (records : List Document) (outcomes : List Outcome) : List Document :=
  ((records.zip outcomes).filter fun entry => entry.2.isRecord).map Prod.fst

def insertOutcomes (c : Collection) (projection : Projection) (records : List Document)
    (statuses : List InsertStatus) : List Outcome :=
  List.zipWith (c.insertOutcome projection) records statuses

section Outcomes

variable {projection : Projection} {records : List Document} {statuses : List InsertStatus}

theorem isRecord_insertOutcome (record : Document) (status : InsertStatus) :
    (c.insertOutcome projection record status).isRecord = true ↔ status = .written := by
  cases status <;> simp [insertOutcome, Outcome.isRecord]

theorem getElem?_insertOutcomes_eq_some {i : Nat} {record : Document} {outcome : Outcome}
    (hrecord : records[i]? = some record) :
    (c.insertOutcomes projection records statuses)[i]? = some outcome ↔
      ∃ status, statuses[i]? = some status ∧
        c.insertOutcome projection record status = outcome := by
  rw [insertOutcomes, List.getElem?_zipWith, hrecord]
  cases statuses[i]? <;> simp

theorem created_insertOutcomes :
    created records (c.insertOutcomes projection records statuses) =
      inserted records statuses := by
  induction records generalizing statuses with
  | nil => rfl
  | cons record records ih =>
      cases statuses with
      | nil => rfl
      | cons status statuses =>
          rw [inserted_cons, ← ih]
          by_cases hwritten : status = .written
          · have hrecord : (c.insertOutcome projection record status).isRecord = true :=
              (isRecord_insertOutcome record status).2 hwritten
            rw [if_pos hwritten]
            simp [created, insertOutcomes, hrecord]
          · rw [if_neg hwritten]
            simp [created, insertOutcomes, isRecord_insertOutcome, hwritten]

theorem insertOutcomes_of_notAttempted :
    c.insertOutcomes projection records (records.map fun _ => .notAttempted) =
      List.replicate records.length .notAttempted := by
  induction records with
  | nil => rfl
  | cons record records ih => exact congrArg (Outcome.notAttempted :: ·) ih

theorem exists_of_mem_insertOutcomes {outcome : Outcome}
    (h : outcome ∈ c.insertOutcomes projection records statuses) :
    ∃ record, ∃ status ∈ statuses, c.insertOutcome projection record status = outcome := by
  rw [insertOutcomes, ← List.map_uncurry_zip_eq_zipWith, List.mem_map] at h
  obtain ⟨⟨record, status⟩, hentry, rfl⟩ := h
  exact ⟨record, status, (List.of_mem_zip hentry).2, rfl⟩

theorem failed_notMem_insertOutcomes_iff (hlength : statuses.length = records.length) :
    (∀ cause, .failed cause ∉ c.insertOutcomes projection records statuses) ↔
      ∀ text, .failed text ∉ statuses := by
  constructor
  · intro hnone text hmem
    obtain ⟨i, hi⟩ := List.mem_iff_getElem?.1 hmem
    obtain ⟨hbound, -⟩ := List.getElem?_eq_some_iff.1 hi
    have hrecord := List.getElem?_eq_getElem (hlength ▸ hbound)
    exact hnone _ (List.mem_of_getElem? ((getElem?_insertOutcomes_eq_some hrecord).2 ⟨_, hi, rfl⟩))
  · intro hnone cause hmem
    obtain ⟨record, status, hstatus, houtcome⟩ := exists_of_mem_insertOutcomes hmem
    cases status with
    | failed text => exact hnone text hstatus
    | written | notAttempted => cases houtcome

end Outcomes

section Insertion

variable {projection : Projection} {ordered : Bool} {store after : Memory.Store}
    {records : List Document} {statuses : List InsertStatus}
    (h : Inserts c.name ordered store records statuses after)

include h

theorem isRecord_iff_of_inserts {i : Nat} {record : Document} {outcome : Outcome}
    (hrecord : records[i]? = some record)
    (houtcome : (c.insertOutcomes projection records statuses)[i]? = some outcome) :
    outcome.isRecord = true ↔
      (ordered = true →
        ∀ cause, .failed cause ∉ (c.insertOutcomes projection records statuses).take i) ∧
      store.Admits c.name
        (store.records c.name ++
          created (records.take i) ((c.insertOutcomes projection records statuses).take i))
        record := by
  obtain ⟨status, hstatus, rfl⟩ := (getElem?_insertOutcomes_eq_some hrecord).1 houtcome
  have hlength : (statuses.take i).length = (records.take i).length := by
    rw [List.length_take, List.length_take, h.length_eq]
  have hwritten := h.getElem?_eq_written_iff hrecord
  rw [hstatus, Option.some_inj] at hwritten
  have htake : (c.insertOutcomes projection records statuses).take i =
      c.insertOutcomes projection (records.take i) (statuses.take i) :=
    List.take_zipWith
  rw [isRecord_insertOutcome, hwritten, htake, created_insertOutcomes,
    failed_notMem_insertOutcomes_iff hlength]

theorem notAttempted_notMem_of_inserts (hordered : ordered = false) :
    .notAttempted ∉ c.insertOutcomes projection records statuses := by
  intro hmem
  obtain ⟨record, status, hstatus, houtcome⟩ := exists_of_mem_insertOutcomes hmem
  cases status with
  | notAttempted => exact h.not_mem_notAttempted hordered hstatus
  | written | failed text => cases houtcome

theorem stops_of_inserts (hordered : ordered = true) :
    ∃ front rest, c.insertOutcomes projection records statuses = front ++ rest ∧
      (∀ outcome ∈ front, outcome.isRecord = true) ∧
      (rest = [] ∨ ∃ cause left, rest = .failed cause :: List.replicate left .notAttempted) := by
  induction h with
  | nil => exact ⟨[], [], rfl, nofun, .inl rfl⟩
  | @written store after record rest statuses _ _ ih =>
      obtain ⟨front, last, houtcomes, hfront, hlast⟩ := ih
      refine ⟨c.insertOutcome projection record .written :: front, last, ?_, ?_, hlast⟩
      · exact congrArg (c.insertOutcome projection record .written :: ·) houtcomes
      · intro outcome houtcome
        rcases List.mem_cons.1 houtcome with rfl | hmem
        · rfl
        · exact hfront outcome hmem
  | failed _ _ hfalse => exact absurd (hordered.symm.trans hfalse) nofun
  | @stopped store record rest text =>
      refine ⟨[], _, rfl, nofun, .inr ⟨.failed .create c.name text, rest.length, ?_⟩⟩
      exact congrArg (Outcome.failed (.failed .create c.name text) :: ·)
        insertOutcomes_of_notAttempted

end Insertion

/-! ## Batches -/

/-- The records of a batch, with their identifiers, were stored behind those of the collection as
far as their outcomes tell. -/
structure CreatesEach (c : Collection) (projection : Projection) (rollback : Bool)
    (before : Memory.Store) (records : List Document) (outcomes : List Outcome)
    (after : Memory.Store) : Prop where
  length : outcomes.length = records.length
  stored : after.records = Function.update before.records c.name
    (before.records c.name ++ created records outcomes)
  admitted : ∀ (i : Nat) record outcome, records[i]? = some record → outcomes[i]? = some outcome →
    (outcome.isRecord = true ↔
      (rollback = true → ∀ cause, .failed cause ∉ outcomes.take i) ∧
      before.Admits c.name
        (before.records c.name ++ created (records.take i) (outcomes.take i)) record)
  shown : ∀ (i : Nat) record fields, records[i]? = some record →
    outcomes[i]? = some (Outcome.record fields) → fields = c.shown projection record
  attempted : rollback = false → .notAttempted ∉ outcomes
  stopped : rollback = true → ∃ front rest, outcomes = front ++ rest ∧
    (∀ outcome ∈ front, outcome.isRecord = true) ∧
    (rest = [] ∨ ∃ cause left, rest = .failed cause :: List.replicate left .notAttempted)

theorem createsEach_of_inserts {projection : Projection} {rollback : Bool}
    {before after : Memory.Store} {records : List Document} {statuses : List InsertStatus}
    (h : Inserts c.name rollback before records statuses after) :
    c.CreatesEach projection rollback before records
      (c.insertOutcomes projection records statuses) after where
  length := by rw [insertOutcomes, List.length_zipWith, h.length_eq, Nat.min_self]
  stored := by rw [h.records_eq, created_insertOutcomes]
  admitted _ _ _ := isRecord_iff_of_inserts h
  shown i record fields hrecord houtcome := by
    obtain ⟨status, -, hshown⟩ := (getElem?_insertOutcomes_eq_some hrecord).1 houtcome
    cases status with
    | written => exact (Outcome.record.inj hshown).symm
    | failed text | notAttempted => cases hshown
  attempted := notAttempted_notMem_of_inserts h
  stopped := stops_of_inserts h

theorem CreatesEach.of_same {projection : Projection} {rollback : Bool}
    {before middle after : Memory.Store} {records : List Document} {outcomes : List Outcome}
    (hrecords : middle.records = before.records) (hsettings : middle.settings = before.settings)
    (h : c.CreatesEach projection rollback middle records outcomes after) :
    c.CreatesEach projection rollback before records outcomes after :=
  { h with
    stored := hrecords ▸ h.stored
    admitted := hrecords ▸ admits_congr hsettings ▸ h.admitted }

theorem createsEach_insert {store : Memory.Store} {records : List Document}
    (hids : ∀ record ∈ records, Fields.contains store.idField record = true)
    (projection : Projection) (rollback : Bool) :
    c.CreatesEach projection rollback store records
      (c.insertOutcomes projection records (store.insert c.name records rollback).1)
      (store.insert c.name records rollback).2 :=
  .of_same (records_ensureCollection_eq store c.name) (settings_ensureCollection store c.name)
    (createsEach_of_inserts (inserts_insertEach hids))

/-- The records get their identifiers first, and are then inserted together. -/
theorem run_createEach {batch : Batch} (hbatch : batch.check = .ok ()) (fields : FieldChoice)
    (options : CreationOptions) (store : Memory.Store) :
    (c.createEach batch fields options).run handle store =
      (let identified := c.identifyEach store.freshId store.issued batch.records
        let inserted := { store with issued := identified.2 }.insert c.name identified.1
          options.rollback
        (.ok (c.insertOutcomes (c.projection fields) identified.1 inserted.1), inserted.2)) := by
  have hlength (middle : Memory.Store) (records : List Document) :
      (middle.insert c.name records options.rollback).1.length = records.length :=
    length_insertEach _ _ _ _
  rw [createEach, hbatch]
  change (batch.records.mapM c.assignId >>= _).run handle store = _
  rw [run_bind, run_assignEach]
  dsimp only
  rw [run_bind, run_perform]
  dsimp only [handle, Except.mapError]
  rw [if_neg (not_not.2 (hlength _ _))]
  rw [insertOutcomes, List.map_zip_eq_zipWith]
  rfl

namespace Request

/-- A batch of records that have fields is created as far as its records can be stored behind the
collection, and each outcome tells what became of its record. -/
theorem createsEach_of_batch {c : Collection} {before : Memory.Store}
    (hfield : before.idField = c.idField) {batch : Batch} (hnone : batch.records ≠ [])
    (hrecords : ∀ record ∈ batch.records, record ≠ []) (fields : FieldChoice)
    (options : CreationOptions) :
    ∃ outcomes after, ((createEach batch fields options).program c).run handle before =
        (.ok outcomes, after) ∧
      outcomes.length = batch.records.length ∧
      c.CreatesEach (c.projection fields) options.rollback before
        (c.identifyEach before.freshId before.issued batch.records).1 outcomes after := by
  -- the stream has moved on before the insertion, and neither records nor settings have changed
  let middle : Memory.Store :=
    { before with issued := (c.identifyEach before.freshId before.issued batch.records).2 }
  have hids : ∀ record ∈ (c.identifyEach before.freshId before.issued batch.records).1,
      Fields.contains middle.idField record = true := by
    intro record hrecord
    change Fields.contains before.idField record = true
    rw [hfield]
    exact contains_of_mem_identifyEach hrecord
  have hrecords' : middle.records = before.records := rfl
  have hsettings : middle.settings = before.settings := rfl
  have hcreates := (createsEach_insert (c := c) hids (c.projection fields)
    options.rollback).of_same hrecords' hsettings
  refine ⟨_, _, run_createEach (Batch.check_eq_ok_iff.2 ⟨hnone, hrecords⟩) fields options before,
    ?_, hcreates⟩
  exact hcreates.length.trans (length_identifyEach _ _ _)

/-- The second record has the identifier that is stored, in another width, and the third one is
not attempted. -/
theorem createsEach_of_three_records :
    let c : Collection := ⟨"c", "_id"⟩
    let before : Memory.Store :=
      { collections := [("c", [[("_id", .int32 1)]])], freshId := .ofNat }
    let batch : Batch :=
      ⟨[[("a", .int32 1)], [("id", .int64 1)], [("_id", .string "x")]]⟩
    let options : CreationOptions := { rollback := true }
    before.idField = c.idField ∧ batch.records ≠ [] ∧ (∀ record ∈ batch.records, record ≠ []) ∧
    ∃ outcomes after, ((createEach batch default options).program c).run handle before =
        (.ok outcomes, after) ∧
      outcomes.length = 3 ∧
      c.CreatesEach (c.projection default) true before
        [[("_id", .objectId (.ofNat 0)), ("a", .int32 1)], [("_id", .int64 1)],
          [("_id", .string "x")]] outcomes after := by
  intro c before batch options
  have hnone : batch.records ≠ [] := List.cons_ne_nil _ _
  have hrecords : ∀ record ∈ batch.records, record ≠ [] := by decide
  exact ⟨rfl, hnone, hrecords, createsEach_of_batch rfl hnone hrecords default options⟩

end Request

end Collection

end DocumentStore
