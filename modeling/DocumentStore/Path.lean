import DocumentStore.Text.Blank
import DocumentStore.Value.Basic

/-!
# Field paths

A path is a field name cut at its dots.  Reading follows nested documents; writing
puts a document wherever one is missing on the way.
-/

namespace DocumentStore

abbrev Path := List String

def Path.ofText (field : String) : Path :=
  (Text.splitOn '.' field.toList).map String.ofList

namespace Document

def valueAt? : Path → Document → Option Value
  | [], _ => none
  | [key], fields => Fields.get? key fields
  | key :: path, fields =>
    match Fields.get? key fields with
    | some (.document nested) => valueAt? path nested
    | _ => none

def nested (key : String) (fields : Document) : Document :=
  match Fields.get? key fields with
  | some (.document nested) => nested
  | _ => []

def setAt (value : Value) : Path → Document → Document
  | [], fields => fields
  | [key], fields => Fields.insert key value fields
  | key :: path, fields =>
    Fields.insert key (.document (setAt value path (nested key fields))) fields

def valueOf? (field : String) (fields : Document) : Option Value :=
  valueAt? (Path.ofText field) fields

/-- Writes the fields of a patch, in its order, each to the path that its key names. -/
def overlay (fields patch : Document) : Document :=
  patch.foldl (fun fields entry => setAt entry.2 (Path.ofText entry.1) fields) fields

end Document

end DocumentStore
