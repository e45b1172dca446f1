import DocumentStore.Fields
import DocumentStore.Path
import DocumentStore.Predicate.LiteralPattern
import DocumentStore.Sorting

/-!
# Store in memory

Collections of records in order of insertion, the fields that records of a collection
have to have, and what the store is given from outside: a stream of new identifiers, an
engine for patterns and a sort.
-/

namespace DocumentStore.Memory

structure Store where
  idField : String := "_id"
  /-- The fields that every record of a collection has to have. -/
  required : Fields (List String) := []
  collections : Fields (List Document) := []
  /-- The stream of identifiers for records that come without one. -/
  freshId : Nat → ObjectId
  /-- How many of them are in use. -/
  issued : Nat := 0
  patterns : PatternReader := .literal
  sorting : Sorting := .insertion

namespace Store

/-! ## Collections -/

def records (store : Store) (collection : String) : List Document :=
  (Fields.get? collection store.collections).getD []

def setRecords (store : Store) (collection : String) (records : List Document) : Store :=
  { store with collections := Fields.insert collection records store.collections }

def ensureCollection (store : Store) (collection : String) : Store :=
  store.setRecords collection (store.records collection)

@[simp] theorem records_setRecords_self (store : Store) (collection : String)
    (records : List Document) :
    (store.setRecords collection records).records collection = records := by
  simp [Store.records, setRecords]

theorem records_setRecords_of_ne {collection other : String} (h : other ≠ collection)
    (store : Store) (records : List Document) :
    (store.setRecords collection records).records other = store.records other := by
  simp [Store.records, setRecords, Fields.get?_insert_of_ne h]

@[simp] theorem records_ensureCollection (store : Store) (collection other : String) :
    (store.ensureCollection collection).records other = store.records other := by
  by_cases h : other = collection
  · rw [h, ensureCollection, records_setRecords_self]
  · exact records_setRecords_of_ne h store (store.records collection)

/-- Names in the order of their code points. -/
def collectionNames (store : Store) : List String :=
  (Fields.keys store.collections).mergeSort fun a b => (compare a b).isLE

/-! ## Required fields -/

/-- Adds required fields to those that a collection has already. -/
def require (store : Store) (collection : String) (fields : List String) : Store :=
  let known := (Fields.get? collection store.required).getD []
  { store with required := Fields.insert collection (known ++ fields) store.required }

def isPresent (record : Document) (field : String) : Bool :=
  match record.valueOf? field with
  | none => false
  | some value => !value.isNull

def missingField? (store : Store) (collection : String) (record : Document) : Option String :=
  ((Fields.get? collection store.required).getD []).find? (!isPresent record ·)

def missingFieldText (field : String) : String :=
  "Document failed validation: missing required field '" ++ field ++ "'"

/-! ## Identifiers -/

def takeId (store : Store) : Value × Store :=
  (.objectId (store.freshId store.issued), { store with issued := store.issued + 1 })

/-- The record with its identifier; a new one is put in front. -/
def ensureId (store : Store) (record : Document) : Document × Store :=
  if Fields.contains store.idField record then (record, store)
  else
    let (id, store) := store.takeId
    (Fields.insertAll [(store.idField, id)] record, store)

end Store

end DocumentStore.Memory
