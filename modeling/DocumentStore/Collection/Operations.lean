import DocumentStore.Collection.Access
import DocumentStore.Options

/-!
# Operations on a collection

Creating, replacing, merging, deleting and retrieving records, one at a time, in a
batch, by identifiers or by a filter.  A request is checked as a whole before the
store is asked.
-/

namespace DocumentStore.Collection

open Backend

/-! ## Create -/

def insertOutcome (c : Collection) (projection : Projection) (record : Document) :
    InsertStatus → Outcome
  | .written => .record (c.shown projection record)
  | .failed text => .failed (.failed .create c.name text)
  | .notAttempted => .notAttempted

def countMismatch (c : Collection) (statuses records : Nat) : Failure :=
  .failed .create c.name ("backend reported " ++ String.ofList (Decimal.ofNat statuses)
    ++ " results for " ++ String.ofList (Decimal.ofNat records) ++ " records")

/-- One batch insert.  With `rollback` nothing is attempted after a failure, and what is
written stays. -/
def createEach (c : Collection) (batch : Batch) (fields : FieldChoice)
    (options : CreationOptions) : Program (List Outcome) := do
  batch.check
  let projection := c.projection fields
  let records ← batch.records.mapM c.assignId
  let statuses ← Program.perform .create c.name (.insert c.name records options.rollback)
  if statuses.length ≠ records.length then
    Program.fail (c.countMismatch statuses.length records.length)
  else return (records.zip statuses).map fun (record, status) =>
    c.insertOutcome projection record status

/-- A record with an identifier is saved over the one that has it. -/
def createOne (c : Collection) (record : Document) (fields : FieldChoice) :
    Program Document := do
  nonEmpty record
  let projection := c.projection fields
  let record := Identifier.storedRecord c.idField record
  match Identifier.ofRecord? c.idField record with
  | some id =>
    let _ ← Program.perform .create c.name (.replace c.name (c.keyIs id) record true)
    return c.shown projection record
  | none =>
    let record ← c.assignId record
    let statuses ← Program.perform .create c.name (.insert c.name [record] true)
    match statuses with
    | .written :: _ => return c.shown projection record
    | .failed text :: _ => Program.fail (.failed .create c.name text)
    | _ => Program.fail (.failed .create c.name "record was not written")
where
  nonEmpty (record : Document) : Except Failure Unit :=
    if record.isEmpty then .error (.badRequest "There are no record fields in the request.")
    else .ok ()

/-! ## Update -/

/-- Runs a step for every record of a batch, whatever becomes of the others. -/
def forEach (step : Identifier → Document → Program Document)
    (records : List (Identifier × Document)) : Program (List Outcome) :=
  records.mapM fun (id, record) => do return .ofResult (← (step id record).attempt)

def replaceEach (c : Collection) (batch : Batch) (fields : FieldChoice) :
    Program (List Outcome) := do
  let records ← c.addressedBatch .update batch
  forEach (c.replaceStored (c.projection fields)) records

def replaceOne (c : Collection) (record : Document) (fields : FieldChoice) :
    Program Document := do
  let (id, record) ← c.addressed .update record
  c.replaceStored (c.projection fields) id record

/-- An identifier inside the record is ignored. -/
def replaceAt (c : Collection) (record : Document) (id : Value) (fields : FieldChoice) :
    Program Document := do
  let payload ← c.payload record
  let id ← readId id
  c.replaceStored (c.projection fields) id payload

def replaceWhere (c : Collection) (record : Document) (filter : Filter.Source)
    (fields : FieldChoice) : Program (List Document) := do
  let payload ← c.payload record
  let tree ← filterTree filter
  c.modifyMatching .update (.replace payload) (c.projection fields) tree

def replaceListed (c : Collection) (record : Document) (ids : IdentifierList)
    (fields : FieldChoice) : Program (List Outcome) := do
  let payload ← c.payload record
  let ids ← c.readIds .update ids
  c.modifyListed .update (.replace payload) (c.projection fields) ids

/-! ## Merge -/

def mergeEach (c : Collection) (batch : Batch) (fields : FieldChoice) :
    Program (List Outcome) := do
  let records ← c.addressedBatch .merge batch
  let payloads ← c.payloads records
  forEach (c.mergeStored (c.projection fields)) payloads

def mergeOne (c : Collection) (record : Document) (fields : FieldChoice) :
    Program Document := do
  let (id, record) ← c.addressed .merge record
  let payload ← c.payload record
  c.mergeStored (c.projection fields) id payload

def mergeAt (c : Collection) (record : Document) (id : Value) (fields : FieldChoice) :
    Program Document := do
  let payload ← c.payload record
  let id ← readId id
  c.mergeStored (c.projection fields) id payload

def mergeWhere (c : Collection) (record : Document) (filter : Filter.Source)
    (fields : FieldChoice) : Program (List Document) := do
  let payload ← c.payload record
  let tree ← filterTree filter
  c.modifyMatching .merge (.merge payload) (c.projection fields) tree

def mergeListed (c : Collection) (record : Document) (ids : IdentifierList)
    (fields : FieldChoice) : Program (List Outcome) := do
  let payload ← c.payload record
  let ids ← c.readIds .merge ids
  c.modifyListed .merge (.merge payload) (c.projection fields) ids

/-! ## Delete -/

def deleteEach (c : Collection) (batch : Batch) (fields : FieldChoice) :
    Program (List Outcome) := do
  let records ← c.addressedBatch .delete batch
  c.removeListed (c.projection fields) (records.map Prod.fst)

def deleteOne (c : Collection) (record : Document) (fields : FieldChoice) :
    Program Document := do
  let (id, _) ← c.addressed .delete record
  c.deleteStored (c.projection fields) id

/-- A filter that matches every record is refused. -/
def deletionFilter (filter : Filter.Source) : Except Failure Predicate := do
  let tree ← filterTree filter
  if tree.acceptsAll then throw (.badRequest "Filter for delete request can not be empty.")
  return tree

def deleteWhere (c : Collection) (filter : Filter.Source) (fields : FieldChoice) :
    Program (List Document) := do
  let tree ← deletionFilter filter
  c.removeMatching (c.projection fields) tree

def deleteListed (c : Collection) (ids : IdentifierList) (fields : FieldChoice) :
    Program (List Outcome) := do
  let ids ← c.readIds .delete ids
  c.removeListed (c.projection fields) ids

def deleteAt (c : Collection) (id : Value) (fields : FieldChoice) :
    Program Document := do
  let id ← readId id
  c.deleteStored (c.projection fields) id

/-! ## Retrieve -/

/-- A limit or an offset of zero is none. -/
def selection (projection : Projection) (options : RetrievalOptions) : Selection where
  projection := projection
  sort := options.sort.getD []
  skip := options.offset.filter (0 < ·)
  limit := options.limit.filter (0 < ·)

def retrieveWhere (c : Collection) (filter : Filter.Source) (fields : FieldChoice)
    (options : RetrievalOptions) : Program Listing := do
  let tree ← filterTree filter
  let projection := c.projection fields
  let found ← Program.perform .retrieve c.name
    (.find c.name tree (selection projection options))
  let list : Listing := { records := found.map (c.shown projection) }
  if options.includeCount then
    let count ← Program.perform .count c.name (.count c.name tree)
    return { list with count := some count }
  else return list

def retrieveEach (c : Collection) (batch : Batch) (fields : FieldChoice) :
    Program (List Outcome) := do
  let records ← c.addressedBatch .retrieve batch
  c.lookUpListed .retrieve (c.projection fields) (records.map Prod.fst)

def retrieveOne (c : Collection) (record : Document) (fields : FieldChoice) :
    Program Document := do
  let (id, _) ← c.addressed .retrieve record
  match ← c.findStored (c.projection fields) id with
  | some record => return record
  | none => Program.fail (c.notFound id)

def retrieveListed (c : Collection) (ids : IdentifierList) (fields : FieldChoice) :
    Program (List Outcome) := do
  let ids ← c.readIds .retrieve ids
  c.lookUpListed .retrieve (c.projection fields) ids

/-- A numeral that finds nothing as text is tried as a number. -/
def retrieveAt (c : Collection) (id : Value) (fields : FieldChoice) :
    Program Document := do
  let id ← readId id
  let projection := c.projection fields
  match ← c.findStored projection id with
  | some record => return record
  | none =>
    match id.asNumber? with
    | none => Program.fail (c.notFound id)
    | some number =>
      match ← c.findStored projection number with
      | some record => return record
      | none => Program.fail (c.notFound id)

end DocumentStore.Collection
