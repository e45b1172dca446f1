import DocumentStore.Predicate.Basic
import DocumentStore.Projection
import DocumentStore.Sort

/-!
# Calls of a store

What the operations on records ask of a store, as data: every call with its
arguments, and the type of its answer.
-/

namespace DocumentStore

inductive InsertStatus where
  | written
  | failed (text : String)
  /-- An earlier record of an ordered insert failed. -/
  | notAttempted
deriving DecidableEq, Repr

/-- A change of every record that matches a filter. -/
inductive Change where
  /-- A new body; the identifier stays. -/
  | replace (body : Document)
  /-- New values of some fields. -/
  | merge (patch : Document)

/-- Which part of the records found is wanted, and in which order. -/
structure Selection where
  projection : Projection := .all
  sort : SortOrder := []
  skip : Option Nat := none
  limit : Option Nat := none

namespace Backend

inductive Call where
  | newId
  | insert (collection : String) (records : List Document) (ordered : Bool)
  | replace (collection : String) (filter : Predicate) (record : Document) (upsert : Bool)
  | update (collection : String) (filter : Predicate) (change : Change)
  | find (collection : String) (filter : Predicate) (selection : Selection)
  | count (collection : String) (filter : Predicate)
  | findAndMerge (collection : String) (filter : Predicate) (patch : Document)
      (projection : Projection)
  | findAndDelete (collection : String) (filter : Predicate) (projection : Projection)
  | delete (collection : String) (filter : Predicate)
  | createCollection (name : String)
  | dropCollection (name : String)
  | listCollections
  | shutdown

/-- The answer to a call that does not fail; the numbers count the matched records. -/
@[reducible] def Call.Answer : Call → Type
  | .newId => Value
  | .insert .. => List InsertStatus
  | .replace .. => Nat
  | .update .. => Nat
  | .find .. => List Document
  | .count .. => Nat
  | .findAndMerge .. => Option Document
  | .findAndDelete .. => Option Document
  | .delete .. => Nat
  | .createCollection _ => Unit
  | .dropCollection _ => Unit
  | .listCollections => List String
  | .shutdown => Unit

end Backend

end DocumentStore
