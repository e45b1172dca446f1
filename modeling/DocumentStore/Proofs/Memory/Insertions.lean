import DocumentStore.Proofs.Memory.Failures
import DocumentStore.Proofs.Memory.Identifiers

/-!
# Batch insertions

An insertion writes a record behind those that are stored, if it has its required fields and none
of them has its identifier, and so each record of a batch depends on the earlier ones.  What
becomes of a batch is read off the statuses, record by record.
-/

namespace DocumentStore.Memory

def inserted (records : List Document) (statuses : List InsertStatus) : List Document :=
  ((records.zip statuses).filter fun entry => entry.2 = .written).map Prod.fst

@[simp] theorem inserted_nil (statuses : List InsertStatus) : inserted [] statuses = [] := rfl

theorem inserted_cons (record : Document) (records : List Document) (status : InsertStatus)
    (statuses : List InsertStatus) :
    inserted (record :: records) (status :: statuses) =
      if status = .written then record :: inserted records statuses
      else inserted records statuses := by
  by_cases h : status = .written
  · simp [inserted, h]
  · simp [inserted, h]

theorem inserted_of_notAttempted (records : List Document) :
    inserted records (records.map fun _ => .notAttempted) = [] := by
  induction records with
  | nil => rfl
  | cons record records ih => rw [List.map_cons, inserted_cons, if_neg nofun, ih]

namespace Store

/-- The record has its required fields, and no record among those stored has its identifier. -/
def Admits (store : Store) (collection : String) (stored : List Document) (record : Document) :
    Prop :=
  store.missingField? collection record = none ∧
    ∀ other ∈ stored,
      hasId store.idField ((Fields.get? store.idField record).getD .null) other = false

theorem admits_congr {store after : Store} (h : after.settings = store.settings) :
    after.Admits = store.Admits := by
  funext collection stored record
  rw [Admits, Admits, missingField?_congr store h, idField_of_settings store h]

/-! ## One record -/

section Step

variable {store : Store} {collection : String} {record : Document}

theorem refusal?_eq_none_iff :
    store.refusal? collection record = none ↔
      store.Admits collection (store.records collection) record := by
  rw [refusal?, Admits]
  cases hmissing : store.missingField? collection record with
  | some field => simp
  | none => simp

variable (hid : Fields.contains store.idField record = true)

include hid

theorem insertOne_of_admits
    (h : store.Admits collection (store.records collection) record) :
    store.insertOne collection record =
      (.written, store.setRecords collection (store.records collection ++ [record])) := by
  simp only [insertOne, ensureId, if_pos hid, refusal?_eq_none_iff.2 h]

theorem exists_insertOne_of_not_admits
    (h : ¬ store.Admits collection (store.records collection) record) :
    ∃ text, store.insertOne collection record = (.failed text, store) := by
  cases hrefusal : store.refusal? collection record with
  | none => exact absurd (refusal?_eq_none_iff.1 hrefusal) h
  | some text => exact ⟨text, by simp only [insertOne, ensureId, if_pos hid, hrefusal]⟩

end Step

/-! ## A batch -/

/-- A batch insertion record by record, with the statuses that it reports and the store that it
leaves. -/
inductive Inserts (collection : String) (ordered : Bool) :
    Store → List Document → List InsertStatus → Store → Prop
  | nil (store : Store) : Inserts collection ordered store [] [] store
  | written {store after : Store} {record : Document} {rest : List Document}
      {statuses : List InsertStatus}
      (hadmits : store.Admits collection (store.records collection) record)
      (hrest : Inserts collection ordered
        (store.setRecords collection (store.records collection ++ [record])) rest statuses after) :
      Inserts collection ordered store (record :: rest) (.written :: statuses) after
  | failed {store after : Store} {record : Document} {rest : List Document}
      {statuses : List InsertStatus} (text : String)
      (hrefused : ¬ store.Admits collection (store.records collection) record)
      (hordered : ordered = false) (hrest : Inserts collection ordered store rest statuses after) :
      Inserts collection ordered store (record :: rest) (.failed text :: statuses) after
  | stopped {store : Store} {record : Document} {rest : List Document} (text : String)
      (hrefused : ¬ store.Admits collection (store.records collection) record)
      (hordered : ordered = true) :
      Inserts collection ordered store (record :: rest)
        (.failed text :: rest.map fun _ => .notAttempted) store

theorem inserts_insertEach {collection : String} {ordered : Bool} {store : Store}
    {records : List Document}
    (hids : ∀ record ∈ records, Fields.contains store.idField record = true) :
    Inserts collection ordered store records (insertEach collection ordered store records).1
      (insertEach collection ordered store records).2 := by
  induction records generalizing store with
  | nil => exact .nil store
  | cons record records ih =>
      have hid := hids record List.mem_cons_self
      have hrest : ∀ other ∈ records, Fields.contains store.idField other = true :=
        fun other hother => hids other (List.mem_cons_of_mem _ hother)
      by_cases hadmits : store.Admits collection (store.records collection) record
      · rw [insertEach, insertOne_of_admits hid hadmits]
        simp only [bne_self_eq_false, Bool.and_false, Bool.false_eq_true, if_false]
        exact .written hadmits (ih hrest)
      · obtain ⟨text, hfailed⟩ := exists_insertOne_of_not_admits hid hadmits
        rw [insertEach, hfailed]
        cases ordered with
        | true => exact .stopped text hadmits rfl
        | false => exact .failed text hadmits rfl (ih hrest)

namespace Inserts

variable {collection : String} {ordered : Bool} {store after : Store} {records : List Document}
    {statuses : List InsertStatus}

theorem length_eq (h : Inserts collection ordered store records statuses after) :
    statuses.length = records.length := by
  induction h with
  | nil => rfl
  | written _ _ ih | failed _ _ _ _ ih => simp [ih]
  | stopped => simp

theorem records_eq (h : Inserts collection ordered store records statuses after) :
    after.records = Function.update store.records collection
      (store.records collection ++ inserted records statuses) := by
  induction h with
  | nil => rw [inserted_nil, List.append_nil, Function.update_eq_self]
  | @written store after record rest statuses _ _ ih =>
      rw [ih, records_setRecords_self, records_setRecords, Function.update_idem,
        inserted_cons, if_pos rfl, List.append_assoc, List.singleton_append]
  | failed _ _ _ _ ih => rw [ih, inserted_cons, if_neg nofun]
  | stopped =>
      rw [inserted_cons, if_neg nofun, inserted_of_notAttempted, List.append_nil,
        Function.update_eq_self]

/-- A record is written just when it is attempted and can stand behind the records that were
stored before, those of the batch included. -/
theorem getElem?_eq_written_iff (h : Inserts collection ordered store records statuses after)
    {i : Nat} {record : Document} (hrecord : records[i]? = some record) :
    statuses[i]? = some .written ↔
      (ordered = true → ∀ text, .failed text ∉ statuses.take i) ∧
      store.Admits collection
        (store.records collection ++ inserted (records.take i) (statuses.take i)) record := by
  induction h generalizing i with
  | nil => cases hrecord
  | @written store after first rest statuses hadmits _ ih =>
      cases i with
      | zero =>
          cases hrecord
          simpa using hadmits
      | succ i =>
          have hsettings : (store.setRecords collection
              (store.records collection ++ [first])).settings = store.settings := rfl
          rw [List.getElem?_cons_succ] at hrecord ⊢
          -- the first record stands behind the stored ones when the rest is inserted
          rw [ih hrecord, admits_congr hsettings, records_setRecords_self, List.take_succ_cons,
            List.take_succ_cons, inserted_cons, if_pos rfl, List.append_assoc,
            List.singleton_append]
          simp
  | @failed store after first rest statuses text hrefused hordered _ ih =>
      cases i with
      | zero =>
          cases hrecord
          simpa using hrefused
      | succ i =>
          rw [List.getElem?_cons_succ] at hrecord ⊢
          rw [ih hrecord, List.take_succ_cons, List.take_succ_cons,
            inserted_cons, if_neg nofun]
          simp [hordered]
  | @stopped store first rest text hrefused hordered =>
      cases i with
      | zero =>
          cases hrecord
          simpa using hrefused
      | succ i =>
          rw [List.getElem?_cons_succ] at hrecord ⊢
          rw [List.getElem?_map, hrecord]
          simp [hordered]

theorem not_mem_notAttempted (h : Inserts collection ordered store records statuses after)
    (hordered : ordered = false) : .notAttempted ∉ statuses := by
  induction h with
  | nil => exact List.not_mem_nil
  | written _ _ ih | failed _ _ _ _ ih => simp [ih]
  | stopped _ _ htrue => exact absurd (htrue.symm.trans hordered) nofun

end Inserts

end Store

end DocumentStore.Memory
