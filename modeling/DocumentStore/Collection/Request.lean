import DocumentStore.Filter.Grammar
import DocumentStore.Identifier
import DocumentStore.Projection
import DocumentStore.Batch

/-!
# Requests to a collection

What an operation checks before it asks the store: filters, identifiers, patches and
batches.  All of these errors are bad requests.
-/

namespace DocumentStore

/-- A collection of a store by its name, with the field that keys its records. -/
structure Collection where
  name : String
  idField : String
deriving DecidableEq, Repr

namespace Collection

def projection (c : Collection) (fields : FieldChoice) : Projection :=
  .ofChoice c.idField fields

def filterTree (filter : Filter.Source) : Except Failure Predicate :=
  match filter.tree.unrecognized? with
  | some text =>
    .error (.badRequest ("Invalid or unparsable filter segment '" ++ text ++ "'"))
  | none => .ok filter.tree

/-! ## Identifiers -/

def keyIs (c : Collection) (id : Identifier) : Predicate :=
  .test c.idField .eq id.stored

def keyIn (c : Collection) (ids : List Identifier) : Predicate :=
  .oneOf c.idField (ids.map Identifier.stored)

/-- Null and blank text identify nothing. -/
def isBlankId : Value → Bool
  | .null => true
  | .string s => s.toList.all Text.isBlank
  | _ => false

def readId (value : Value) : Except Failure Identifier :=
  if isBlankId value then .error (.badRequest "No identifier exist in record.")
  else .ok (.ofValue false value)

def readIds (c : Collection) (operation : Operation) (ids : IdentifierList) :
    Except Failure (List Identifier) :=
  match ids.identifiers with
  | [] =>
    .error (.badRequest ("Identifying values for '" ++ c.idField ++ "' can not be empty for "
      ++ operation.phrase ++ " request."))
  | id :: ids => .ok (id :: ids)

/-! ## Records -/

/-- A payload without its identifier fields, which must leave something to write. -/
def payload (c : Collection) (record : Document) : Except Failure Document :=
  let fields := Fields.erase Identifier.aliasField (Fields.erase c.idField record)
  if fields.isEmpty then .error (.badRequest "There are no fields in the record.")
  else .ok fields

def addressed (c : Collection) (operation : Operation) (record : Document) :
    Except Failure (Identifier × Document) :=
  if record.isEmpty then .error (.badRequest "There are no record fields in the request.")
  else
    let record := Identifier.storedRecord c.idField record
    let value := (Fields.get? c.idField record).getD .null
    if isBlankId value then
      .error (.badRequest ("Identifying field '" ++ c.idField ++ "' can not be empty for "
        ++ operation.phrase ++ " request."))
    else .ok (.ofValue false value, record)

/-- Every record of a batch has to be there and to carry an identifier. -/
def addressedBatch (c : Collection) (operation : Operation) (batch : Batch) :
    Except Failure (List (Identifier × Document)) := do
  batch.check
  batch.records.mapM (c.addressed operation)

def payloads (c : Collection) (records : List (Identifier × Document)) :
    Except Failure (List (Identifier × Document)) :=
  records.mapM fun (id, record) => (c.payload record).map (id, ·)

end Collection

end DocumentStore
