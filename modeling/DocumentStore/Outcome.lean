import DocumentStore.Failure
import DocumentStore.Json.Document
import DocumentStore.Json.Stored

/-!
# Results of batches and of retrieval

A batch has one outcome for each record or identifier, in the order of the request.
Retrieval by filter gives a list of records, with a count of all matches on demand.
-/

namespace DocumentStore

/-- What became of one entry of a batch. -/
inductive Outcome where
  | record (fields : Document)
  | failed (cause : Failure)
  /-- An earlier record failed and the batch stopped writing. -/
  | notAttempted

namespace Outcome

def notAttemptedText : String := "Not attempted after an earlier failure in the batch"

def ofResult : Except Failure Document → Outcome
  | .ok fields => .record fields
  | .error cause => .failed cause

def result : Outcome → Except String Document
  | .record fields => .ok fields
  | .failed cause => .error cause.message
  | .notAttempted => .error notAttemptedText

def record? (outcome : Outcome) : Option Document := outcome.result.toOption

def toJson (outcome : Outcome) : Json :=
  match outcome.result with
  | .ok fields => (Value.document fields).toJson
  | .error text => .object [("error", .string text)]

end Outcome

/-! ## Lists of records -/

structure Listing where
  records : List Document
  /-- The number of all matches, whatever the offset and the limit. -/
  count : Option Nat := none

namespace Listing

def toJson (list : Listing) : Json :=
  let records := ("record", Json.array (list.records.map fun r => (Value.document r).toJson))
  match list.count with
  | some count => .object [records, ("meta", .object [("count", .int count)])]
  | none => .object [records]

def countShape : Json.Shape Nat where
  name := "ListMeta"
  strict := false
  settings :=
    [ { name := "count", aliases := [], required := true
        store := fun json _ => Json.readCount json } ]

def shape : Json.Shape Listing where
  name := "RecordList"
  strict := false
  settings :=
    [ { name := "record", aliases := [], required := true
        store := fun json list => do
          return { list with records := ← Json.readList Json.toStoredDocument json } },
      { name := "meta", aliases := [], required := false
        store := fun json list => do
          return { list with count := ← Json.readOptional (countShape.read 0) json } } ]

def ofJson (json : Json) : Except Failure Listing :=
  (shape.read { records := [] } json).mapError fun error => .serialization error.message

end Listing

end DocumentStore
