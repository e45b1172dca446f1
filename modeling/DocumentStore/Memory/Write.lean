import DocumentStore.Memory.Scan
import DocumentStore.Value.Display

/-!
# Writes to a collection

A record is written only when its required fields are present.  A change of stored
records is all or nothing: when the scan or one of the new records fails, every record
stays as it was.
-/

namespace DocumentStore.Memory.Store

/-! ## Insertion -/

def duplicateText (idField : String) (id : Value) : String :=
  "Duplicate key: " ++ idField ++ " " ++ id.display ++ " already exists"

def hasId (idField : String) (id : Value) (record : Document) : Bool :=
  match Fields.get? idField record with
  | some stored => stored.comparand.equal id.comparand
  | none => false

def refusal? (store : Store) (collection : String) (record : Document) : Option String :=
  let id := (Fields.get? store.idField record).getD .null
  match store.missingField? collection record with
  | some field => some (missingFieldText field)
  | none =>
    if (store.records collection).any (hasId store.idField id) then
      some (duplicateText store.idField id)
    else none

/-- Inserts a record behind those that are stored. -/
def insertOne (store : Store) (collection : String) (record : Document) :
    InsertStatus × Store :=
  let (record, store) := store.ensureId record
  match store.refusal? collection record with
  | some text => (.failed text, store)
  | none => (.written, store.setRecords collection (store.records collection ++ [record]))

/-- Inserts records one after the other.  An ordered insert attempts nothing after a
record that failed. -/
def insertEach (collection : String) (ordered : Bool) (store : Store) :
    List Document → List InsertStatus × Store
  | [] => ([], store)
  | record :: rest =>
    let (status, store) := store.insertOne collection record
    if ordered && status != .written then
      (status :: rest.map fun _ => .notAttempted, store)
    else
      let (statuses, store) := insertEach collection ordered store rest
      (status :: statuses, store)

/-- An insert creates the collection, whatever becomes of the records. -/
def insert (store : Store) (collection : String) (records : List Document) (ordered : Bool) :
    List InsertStatus × Store :=
  insertEach collection ordered (store.ensureCollection collection) records

/-! ## New records for stored ones -/

/-- A body in place of a record, whose identifier stays and comes first. -/
def replaced (idField : String) (previous body : Document) : Document :=
  let kept : Document :=
    match Fields.get? idField previous with
    | some id => [(idField, id)]
    | none => []
  Fields.insertAll kept (Fields.erase idField body)

def changed (idField : String) (change : Change) (record : Document) : Document :=
  match change with
  | .replace body => replaced idField record body
  | .merge patch => record.overlay patch

def checked (store : Store) (collection : String) (record : Document) :
    Except Failure Document :=
  match store.missingField? collection record with
  | some field => .error (.store (missingFieldText field))
  | none => .ok record

/-! ## One record -/

/-- Replaces the first match, or with `upsert` appends the record if there is none.  The
collection is created in any case. -/
def replace (store : Store) (collection : String) (filter : Predicate) (record : Document)
    (upsert : Bool) : Except Failure Nat × Store :=
  let store := store.ensureCollection collection
  match store.matching collection filter with
  | .error error => (.error error, store)
  | .ok ((index, previous) :: _) =>
    match store.checked collection (replaced store.idField previous record) with
    | .error error => (.error error, store)
    | .ok body =>
      (.ok 1, store.setRecords collection ((store.records collection).set index body))
  | .ok [] =>
    if upsert then
      let (record, store) := store.ensureId record
      match store.checked collection record with
      | .error error => (.error error, store)
      | .ok record =>
        (.ok 0, store.setRecords collection (store.records collection ++ [record]))
    else (.ok 0, store)

/-- Merges into the first match, which is returned as it is afterwards. -/
def findAndMerge (store : Store) (collection : String) (filter : Predicate) (patch : Document)
    (projection : Projection) : Except Failure (Option Document) × Store :=
  match store.matching collection filter with
  | .error error => (.error error, store)
  | .ok [] => (.ok none, store)
  | .ok ((index, previous) :: _) =>
    match store.checked collection (previous.overlay patch) with
    | .error error => (.error error, store)
    | .ok record =>
      (.ok (some (projection.project record)),
        store.setRecords collection ((store.records collection).set index record))

/-- Deletes the first match, which is returned as it was. -/
def findAndDelete (store : Store) (collection : String) (filter : Predicate)
    (projection : Projection) : Except Failure (Option Document) × Store :=
  match store.matching collection filter with
  | .error error => (.error error, store)
  | .ok [] => (.ok none, store)
  | .ok ((index, record) :: _) =>
    (.ok (some (projection.project record)),
      store.setRecords collection ((store.records collection).eraseIdx index))

/-! ## All matches -/

def changeHits (store : Store) (collection : String) (change : Change)
    (hits : List (Nat × Document)) : Except Failure (List (Nat × Document)) :=
  hits.mapM fun (index, record) =>
    (store.checked collection (changed store.idField change record)).map (index, ·)

def writeHits (hits : List (Nat × Document)) (records : List Document) : List Document :=
  hits.foldl (fun records (index, record) => records.set index record) records

/-- Takes the last match out first, as the indexes of those in front of it stay. -/
def removeHits (hits : List (Nat × Document)) (records : List Document) : List Document :=
  hits.reverse.foldl (fun records (index, _) => records.eraseIdx index) records

def update (store : Store) (collection : String) (filter : Predicate) (change : Change) :
    Except Failure Nat × Store :=
  if Fields.contains collection store.collections then
    match store.matching collection filter with
    | .error error => (.error error, store)
    | .ok hits =>
      match store.changeHits collection change hits with
      | .error error => (.error error, store)
      | .ok written =>
        (.ok hits.length,
          store.setRecords collection (writeHits written (store.records collection)))
  else (.ok 0, store)

def delete (store : Store) (collection : String) (filter : Predicate) :
    Except Failure Nat × Store :=
  if Fields.contains collection store.collections then
    match store.matching collection filter with
    | .error error => (.error error, store)
    | .ok hits =>
      (.ok hits.length, store.setRecords collection (removeHits hits (store.records collection)))
  else (.ok 0, store)

end DocumentStore.Memory.Store
