import DocumentStore.Failure
import DocumentStore.Json.Document
import DocumentStore.Value.Display

/-!
# Batches of records

A payload of several records: a list of documents, one document, or one document
whose keys number other documents from `0` on.
-/

namespace DocumentStore

structure Batch where
  records : List Document

namespace Batch

/-- The documents under the keys `first`, `first + 1`, …, if the fields are just that. -/
def numberedFrom? (first : Nat) : List (String × Value) → Option (List Document)
  | [] => some []
  | (key, .document record) :: fields =>
    if key = String.ofList (Decimal.ofNat first) then
      (numberedFrom? (first + 1) fields).map (record :: ·)
    else none
  | _ :: _ => none

/-- A numbered document stands for its records, any other for itself. -/
def ofDocument (document : Document) : Batch :=
  if document.isEmpty then ⟨[document]⟩
  else ⟨(numberedFrom? 0 document).getD [document]⟩

def documentsFrom (index : Nat) : List Value → Except Failure (List Document)
  | [] => .ok []
  | .document record :: values => do
    return record :: (← documentsFrom (index + 1) values)
  | other :: _ =>
    .error (.badRequest ("record " ++ String.ofList (Decimal.ofNat index)
      ++ " is not a mapping of fields: " ++ other.display))

def ofValue : Value → Except Failure Batch
  | .document document => .ok (ofDocument document)
  | .array values => (documentsFrom 0 values).map .mk
  | .null => .ok ⟨[]⟩
  | other =>
    .error (.badRequest ("expected a record or a list of records, got " ++ other.display))

def ofJson (json : Json) : Except Failure Batch :=
  match json.toValue with
  | .ok value => ofValue value
  | .error text => .error (.serialization text)

/-- A batch without records, or with a record without fields, is refused. -/
def check (batch : Batch) : Except Failure Unit :=
  if batch.records.isEmpty then
    .error (.badRequest "There are no record sets in the request.")
  else
    match batch.records.findIdx? List.isEmpty with
    | some index =>
      .error (.badRequest ("record " ++ String.ofList (Decimal.ofNat index) ++ " has no fields"))
    | none => .ok ()

end Batch

end DocumentStore
