import DocumentStore.Backend.Call

/-!
# MongoDB writes

The body of a replacement keeps what the server must not change, and the failure of a
batch insert tells what became of each record.
-/

namespace DocumentStore.Mongo

/-! ## Replacement -/

/-- The `_id` and the identifier field of the stored document, in this order. -/
def keptFields (idField : String) (found : Document) : Document :=
  ["_id", idField].foldl
    (fun kept field =>
      match Fields.get? field found with
      | some value => Fields.insert field value kept
      | none => kept)
    []

/-- A body in place of a stored document: what is kept comes first and is not changed. -/
def replaced (idField : String) (found body : Document) : Document :=
  body.foldl
    (fun fields entry =>
      if Fields.contains entry.1 fields then fields else Fields.insert entry.1 entry.2 fields)
    (keptFields idField found)

/-! ## Batch insert -/

structure WriteError where
  index : Nat
  text : String
deriving DecidableEq, Repr

/-- How a batch insert failed. -/
structure InsertFailure where
  writeErrors : Option (List WriteError) := none
  /-- The message of a failed write concern. -/
  writeConcern : Option String := none
deriving DecidableEq, Repr

/-- Marks the records that a list of write errors names, later errors over earlier ones;
an index beyond the batch names none. -/
def markFailures (statuses : List InsertStatus) : List WriteError → List InsertStatus
  | [] => statuses
  | error :: errors => markFailures (statuses.set error.index (.failed error.text)) errors

/-- The least index inside a batch, or the size of the batch. -/
def firstFailure (size : Nat) (errors : List WriteError) : Nat :=
  errors.foldl (fun first error => min first error.index) size

/-- The statuses of the records, or else the message of the failure if it has one.  An
ordered insert attempts nothing behind its first failure. -/
def insertStatuses (failure : InsertFailure) (size : Nat) (ordered : Bool) :
    Except (Option String) (List InsertStatus) :=
  match failure.writeErrors with
  | none => .error failure.writeConcern
  | some errors =>
    let statuses := markFailures (List.replicate size .written) errors
    if ordered then
      let attempted := firstFailure size errors + 1
      .ok (statuses.take attempted ++ List.replicate (size - attempted) .notAttempted)
    else .ok statuses

end DocumentStore.Mongo
