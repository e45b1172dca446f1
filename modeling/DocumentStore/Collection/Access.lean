import DocumentStore.Backend.Program
import DocumentStore.Collection.Request
import DocumentStore.Outcome

/-!
# Access to stored records

The steps that operations share: writing and reading by one identifier, by a list of
identifiers, and by a filter.  Every record leaves projected and with its identifier
in the form shown to callers.
-/

namespace DocumentStore.Collection

open Backend

def shown (c : Collection) (projection : Projection) (record : Document) : Document :=
  Identifier.shownRecord c.idField (projection.project record)

def notFound (c : Collection) (id : Identifier) : Failure :=
  .notFound id.display c.name

/-- A new record in stored form; without an identifier it gets one from the store. -/
def assignId (c : Collection) (record : Document) : Program Document :=
  let record := Identifier.storedRecord c.idField record
  if Fields.contains c.idField record then pure record
  else do
    let id ← Program.send .newId
    return Fields.insertAll [(c.idField, id)] record

/-! ## One identifier -/

def orNotFound (c : Collection) (id : Identifier) (projection : Projection) :
    Option Document → Program Document
  | some record => pure (c.shown projection record)
  | none => Program.fail (c.notFound id)

def replaceStored (c : Collection) (projection : Projection) (id : Identifier)
    (record : Document) : Program Document := do
  let record := Fields.insert c.idField id.stored record
  let matched ← Program.perform .update c.name (.replace c.name (c.keyIs id) record false)
  if matched = 0 then Program.fail (c.notFound id)
  else return c.shown projection record

def mergeStored (c : Collection) (projection : Projection) (id : Identifier)
    (patch : Document) : Program Document := do
  let found ← Program.perform .merge c.name (.findAndMerge c.name (c.keyIs id) patch projection)
  c.orNotFound id projection found

def deleteStored (c : Collection) (projection : Projection) (id : Identifier) :
    Program Document := do
  let found ← Program.perform .delete c.name (.findAndDelete c.name (c.keyIs id) projection)
  c.orNotFound id projection found

def findStored (c : Collection) (projection : Projection) (id : Identifier) :
    Program (Option Document) := do
  let found ← Program.perform .retrieve c.name
    (.find c.name (c.keyIs id) { projection, limit := some 1 })
  return found.head?.map (c.shown projection)

/-! ## Lists of identifiers -/

def pair (c : Collection) (projection : Projection) (found : List Document)
    (id : Identifier) : Outcome :=
  match found.find? (hasId id.stored) with
  | some record => .record (c.shown projection record)
  | none => .failed (c.notFound id)
where
  hasId (wanted : Value) (record : Document) : Bool :=
    match Fields.get? c.idField record with
    | some stored => Identifier.sameStored stored wanted
    | none => false

/-- One outcome for each identifier, from one reading of all of them. -/
def lookUpListed (c : Collection) (operation : Operation) (projection : Projection)
    (ids : List Identifier) : Program (List Outcome) := do
  let found ← Program.perform operation c.name (.find c.name (c.keyIn ids) { projection })
  return ids.map (c.pair projection found)

/-- Outcomes that hold the identifiers alone need no reading. -/
def idOnlyOutcomes (c : Collection) (ids : List Identifier) : List Outcome :=
  ids.map fun id => .record [(c.idField, id.shown)]

def outcomesOf (c : Collection) (operation : Operation) (projection : Projection)
    (ids : List Identifier) : Program (List Outcome) :=
  if projection.keepsOnly c.idField then pure (c.idOnlyOutcomes ids)
  else c.lookUpListed operation projection ids

/-- Reads the records before they are deleted. -/
def removeListed (c : Collection) (projection : Projection) (ids : List Identifier) :
    Program (List Outcome) := do
  let outcomes ← c.outcomesOf .delete projection ids
  let _ ← Program.perform .delete c.name (.delete c.name (c.keyIn ids))
  return outcomes

/-- Reads the records after they are changed. -/
def modifyListed (c : Collection) (operation : Operation) (change : Change)
    (projection : Projection) (ids : List Identifier) : Program (List Outcome) := do
  let _ ← Program.perform operation c.name (.update c.name (c.keyIn ids) change)
  c.outcomesOf operation projection ids

/-! ## Filters -/

def idsOf (c : Collection) (found : List Document) : List Value :=
  found.filterMap (Fields.get? c.idField)

/-- Changes the records that match now, and reads exactly those again. -/
def modifyMatching (c : Collection) (operation : Operation) (change : Change)
    (projection : Projection) (filter : Predicate) : Program (List Document) := do
  let idOnly := c.projection (.delimited c.idField)
  let found ← Program.perform operation c.name (.find c.name filter { projection := idOnly })
  let ids := c.idsOf found
  if ids.isEmpty then return []
  let targets := Predicate.oneOf c.idField ids
  let _ ← Program.perform operation c.name (.update c.name targets change)
  if projection.keepsOnly c.idField then
    return ids.map fun id => [(c.idField, Identifier.shownValue id)]
  let changed ← Program.perform operation c.name (.find c.name targets { projection })
  return changed.map (c.shown projection)

/-- Deletes the records that match now, by their identifiers, and returns them. -/
def removeMatching (c : Collection) (projection : Projection) (filter : Predicate) :
    Program (List Document) := do
  let found ← Program.perform .delete c.name (.find c.name filter { projection })
  let ids := c.idsOf found
  if !ids.isEmpty then
    let _ ← Program.perform .delete c.name (.delete c.name (.oneOf c.idField ids))
  return found.map (c.shown projection)

end DocumentStore.Collection
