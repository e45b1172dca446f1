import DocumentStore.Path

/-!
# Projections

A projection keeps every field of a record, or a list of field paths with the
identifier field in front.
-/

namespace DocumentStore

/-- A choice of fields as a caller gives it. -/
inductive FieldChoice where
  | delimited (text : String)
  | named (names : List String)

instance : Inhabited FieldChoice := ⟨.delimited ""⟩

namespace FieldChoice

/-- The chosen names without blanks around them and without the empty ones. -/
def chosen (choice : FieldChoice) : List String :=
  let raw :=
    match choice with
    | .delimited text => Text.splitOn ',' text.toList
    | .named names => names.map String.toList
  ((raw.map Text.trim).filter (!·.isEmpty)).map String.ofList

end FieldChoice

inductive Projection where
  | all
  | fields (paths : List String)
deriving DecidableEq, Repr

/-! ## Keeping paths -/

/-- The rests of the paths that start with a key. -/
def Path.restsBehind (key : String) (paths : List Path) : List Path :=
  paths.filterMap fun path =>
    match path with
    | [] => none
    | first :: rest => if first = key then some rest else none

namespace Document

mutual

/-- Keeps the fields that a path ends at, and the kept part of the documents that a path
leads through. -/
def keepPaths (paths : List Path) : List (String × Value) → Document
  | [] => []
  | (key, value) :: fields =>
    let rests := Path.restsBehind key paths
    if rests.any List.isEmpty then (key, value) :: keepPaths paths fields
    else
      match keepNested rests value with
      | [] => keepPaths paths fields
      | field :: part => (key, .document (field :: part)) :: keepPaths paths fields

def keepNested (paths : List Path) : Value → Document
  | .document fields => keepPaths paths fields
  | _ => []

end

end Document

namespace Projection

def addNew (selected : List String) : List String → List String
  | [] => selected
  | name :: names =>
    if selected.contains name then addNew selected names else addNew (selected ++ [name]) names

/-- No name, or a star among them, keeps every field. -/
def ofChoice (idField : String) (choice : FieldChoice) : Projection :=
  if choice.chosen.isEmpty || choice.chosen.contains "*" then .all
  else .fields (addNew [idField] choice.chosen)

def keepsAll : Projection → Bool
  | .all => true
  | .fields _ => false

def keepsOnly (field : String) : Projection → Bool
  | .all => false
  | .fields paths => paths.all (· == field)

def project (projection : Projection) (record : Document) : Document :=
  match projection with
  | .all => record
  | .fields paths => Document.keepPaths (paths.map Path.ofText) record

end Projection

end DocumentStore
