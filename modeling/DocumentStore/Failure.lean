/-!
# Failures of record operations

A failure says what went wrong; `message` is its wording.  A raw failure of a store
gains the operation and the collection that it happened in.
-/

namespace DocumentStore

inductive Operation where
  | create
  | update
  | merge
  | delete
  | retrieve
  | count
  | createCollection
  | dropCollection
  | listCollections
deriving DecidableEq, Repr

def Operation.phrase : Operation → String
  | .create => "create records"
  | .update => "update records"
  | .merge => "merge records"
  | .delete => "delete records"
  | .retrieve => "retrieve records"
  | .count => "count records"
  | .createCollection => "create collection"
  | .dropCollection => "drop collection"
  | .listCollections => "list collections"

inductive Failure where
  /-- A malformed or missing part of a request. -/
  | badRequest (text : String)
  /-- An identifier that addresses no record. -/
  | notFound (id collection : String)
  /-- A failure of the store within an operation on a collection. -/
  | failed (operation : Operation) (collection text : String)
  /-- A failure inside a store, without its context. -/
  | store (text : String)
  | serialization (text : String)
  | initialization (text : String)
deriving DecidableEq, Repr

namespace Failure

def message : Failure → String
  | .badRequest text => "Bad request: " ++ text
  | .notFound id collection =>
    "Record with id '" ++ id ++ "' was not found in collection " ++ collection
  | .failed operation collection text =>
    "Failed to " ++ operation.phrase ++ " in '" ++ collection ++ "': " ++ text
  | .store text => "Store error: " ++ text
  | .serialization text => "Serialization error: " ++ text
  | .initialization text => "Initialization error: " ++ text

/-- Puts a raw store failure into its context; any other failure has one already. -/
def within (operation : Operation) (collection : String) : Failure → Failure
  | .store text => .failed operation collection text
  | failure => failure

def isMiss : Failure → Bool
  | .notFound _ _ => true
  | _ => false

end Failure

end DocumentStore
