import DocumentStore.Collection.Operations
import DocumentStore.Memory.Answer

/-!
# Requests as data

Every operation of a collection with its arguments, the type of its answer, and the program
that it runs.
-/

namespace DocumentStore

open Backend

namespace Collection

inductive Request where
  | createEach (batch : Batch) (fields : FieldChoice) (options : CreationOptions)
  | createOne (record : Document) (fields : FieldChoice)
  | replaceEach (batch : Batch) (fields : FieldChoice)
  | replaceOne (record : Document) (fields : FieldChoice)
  | replaceAt (record : Document) (id : Value) (fields : FieldChoice)
  | replaceWhere (record : Document) (filter : Filter.Source) (fields : FieldChoice)
  | replaceListed (record : Document) (ids : IdentifierList) (fields : FieldChoice)
  | mergeEach (batch : Batch) (fields : FieldChoice)
  | mergeOne (record : Document) (fields : FieldChoice)
  | mergeAt (record : Document) (id : Value) (fields : FieldChoice)
  | mergeWhere (record : Document) (filter : Filter.Source) (fields : FieldChoice)
  | mergeListed (record : Document) (ids : IdentifierList) (fields : FieldChoice)
  | deleteEach (batch : Batch) (fields : FieldChoice)
  | deleteOne (record : Document) (fields : FieldChoice)
  | deleteAt (id : Value) (fields : FieldChoice)
  | deleteWhere (filter : Filter.Source) (fields : FieldChoice)
  | deleteListed (ids : IdentifierList) (fields : FieldChoice)
  | retrieveEach (batch : Batch) (fields : FieldChoice)
  | retrieveOne (record : Document) (fields : FieldChoice)
  | retrieveAt (id : Value) (fields : FieldChoice)
  | retrieveWhere (filter : Filter.Source) (fields : FieldChoice)
      (options : RetrievalOptions)
  | retrieveListed (ids : IdentifierList) (fields : FieldChoice)

namespace Request

@[reducible] def Answer : Request → Type
  | .createOne .. | .replaceOne .. | .replaceAt .. | .mergeOne .. | .mergeAt ..
  | .deleteOne .. | .deleteAt .. | .retrieveOne .. | .retrieveAt .. => Document
  | .replaceWhere .. | .mergeWhere .. | .deleteWhere .. => List Document
  | .retrieveWhere .. => Listing
  | _ => List Outcome

def program (c : Collection) : (request : Request) → Program request.Answer
  | .createEach batch fields options => c.createEach batch fields options
  | .createOne record fields => c.createOne record fields
  | .replaceEach batch fields => c.replaceEach batch fields
  | .replaceOne record fields => c.replaceOne record fields
  | .replaceAt record id fields => c.replaceAt record id fields
  | .replaceWhere record filter fields => c.replaceWhere record filter fields
  | .replaceListed record ids fields => c.replaceListed record ids fields
  | .mergeEach batch fields => c.mergeEach batch fields
  | .mergeOne record fields => c.mergeOne record fields
  | .mergeAt record id fields => c.mergeAt record id fields
  | .mergeWhere record filter fields => c.mergeWhere record filter fields
  | .mergeListed record ids fields => c.mergeListed record ids fields
  | .deleteEach batch fields => c.deleteEach batch fields
  | .deleteOne record fields => c.deleteOne record fields
  | .deleteAt id fields => c.deleteAt id fields
  | .deleteWhere filter fields => c.deleteWhere filter fields
  | .deleteListed ids fields => c.deleteListed ids fields
  | .retrieveEach batch fields => c.retrieveEach batch fields
  | .retrieveOne record fields => c.retrieveOne record fields
  | .retrieveAt id fields => c.retrieveAt id fields
  | .retrieveWhere filter fields options => c.retrieveWhere filter fields options
  | .retrieveListed ids fields => c.retrieveListed ids fields

def operation : Request → Operation
  | .createEach .. | .createOne .. => .create
  | .replaceEach .. | .replaceOne .. | .replaceAt .. | .replaceWhere .. | .replaceListed .. =>
    .update
  | .mergeEach .. | .mergeOne .. | .mergeAt .. | .mergeWhere .. | .mergeListed .. => .merge
  | .deleteEach .. | .deleteOne .. | .deleteAt .. | .deleteWhere .. | .deleteListed .. =>
    .delete
  | .retrieveEach .. | .retrieveOne .. | .retrieveAt .. | .retrieveWhere ..
  | .retrieveListed .. => .retrieve

def records : Request → List Document
  | .createEach batch .. | .replaceEach batch _ | .mergeEach batch _ | .deleteEach batch _
  | .retrieveEach batch _ => batch.records
  | .createOne record _ | .replaceOne record _ | .replaceAt record .. | .replaceWhere record ..
  | .replaceListed record .. | .mergeOne record _ | .mergeAt record .. | .mergeWhere record ..
  | .mergeListed record .. | .deleteOne record _ | .retrieveOne record _ => [record]
  | _ => []

/-- The store in memory after a request to a collection, whatever its result is. -/
def after (c : Collection) (request : Request) (store : Memory.Store) : Memory.Store :=
  ((request.program c).run Memory.Store.handle store).2

end Request

end Collection

end DocumentStore
