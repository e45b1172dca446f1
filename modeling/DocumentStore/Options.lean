import DocumentStore.Failure
import DocumentStore.Json.Settings
import DocumentStore.Sort

/-!
# Options of operations and of a service

Options are read from JSON and written back to it.  Retrieval and creation refuse
settings that they do not know.
-/

namespace DocumentStore

/-! ## Retrieval -/

structure RetrievalOptions where
  limit : Option Nat := none
  offset : Option Nat := none
  sort : Option SortOrder := none
  includeCount : Bool := false
deriving DecidableEq, Repr

namespace RetrievalOptions

def shape : Json.Shape RetrievalOptions where
  name := "RetrieveOptions"
  strict := true
  settings :=
    [ { name := "limit", aliases := [], required := false
        store := fun json options => do
          return { options with limit := ← Json.readOptional Json.readCount json } },
      { name := "offset", aliases := [], required := false
        store := fun json options => do
          return { options with offset := ← Json.readOptional Json.readCount json } },
      { name := "sort", aliases := ["order"], required := false
        store := fun json options => do
          let text ← Json.readOptional Json.readText json
          return { options with sort := text.map SortOrder.ofText } },
      { name := "include_count", aliases := [], required := false
        store := fun json options => do
          return { options with includeCount := ← Json.readBool json } } ]

def toJson (options : RetrievalOptions) : Json :=
  .object
    [ ("limit", natOrNull options.limit), ("offset", natOrNull options.offset),
      ("sort", (options.sort.map fun sort => Json.string sort.text).getD .null),
      ("include_count", .bool options.includeCount) ]
where
  natOrNull (n : Option Nat) : Json := (n.map fun n => Json.int n).getD .null

end RetrievalOptions

/-! ## Creation -/

structure CreationOptions where
  /-- Stop at the first record that fails; what is written stays. -/
  rollback : Bool := false
deriving DecidableEq, Repr

namespace CreationOptions

def shape : Json.Shape CreationOptions where
  name := "CreateOptions"
  strict := true
  settings :=
    [ { name := "rollback", aliases := [], required := false
        store := fun json options => do
          return { options with rollback := ← Json.readBool json } } ]

def toJson (options : CreationOptions) : Json := .object [("rollback", .bool options.rollback)]

end CreationOptions

/-- Null gives the defaults, and a value that does not fit is a bad request. -/
def readOptions {σ : Type} (shape : Json.Shape σ) (defaults : σ) (json : Json) :
    Except Failure σ :=
  match json with
  | .null => .ok defaults
  | json => (shape.read defaults json).mapError fun error => .badRequest error.message

def RetrievalOptions.ofJson (json : Json) : Except Failure RetrievalOptions :=
  readOptions shape {} json

def CreationOptions.ofJson (json : Json) : Except Failure CreationOptions :=
  readOptions shape {} json

/-! ## Service -/

structure ServiceSettings where
  idField : String := "_id"
  /-- How many calls of one batch may be under way at a time. -/
  maxConcurrency : Nat := 8
deriving DecidableEq, Repr

namespace ServiceSettings

def allowing (settings : ServiceSettings) (calls : Nat) : ServiceSettings :=
  { settings with maxConcurrency := max 1 calls }

def shape : Json.Shape ServiceSettings where
  name := "ServiceConfig"
  strict := false
  settings :=
    [ { name := "id_field", aliases := [], required := false
        store := fun json settings => do
          return { settings with idField := ← Json.readText json } },
      { name := "max_concurrency", aliases := [], required := false
        store := fun json settings => do
          return { settings with maxConcurrency := ← Json.readUnsigned "usize" json } } ]

def ofJson (json : Json) : Except Failure ServiceSettings :=
  (shape.read {} json).mapError fun error => .serialization error.message

def toJson (settings : ServiceSettings) : Json :=
  .object
    [("id_field", .string settings.idField), ("max_concurrency", .int settings.maxConcurrency)]

end ServiceSettings

/-! ## Sort keys -/

namespace Direction

def jsonName : Direction → String
  | .asc => "Asc"
  | .desc => "Desc"

def ofJson (json : Json) : Except Json.ReadError Direction :=
  json.readChoice [("Asc", .asc), ("Desc", .desc)]

end Direction

namespace SortKey

def shape : Json.Shape SortKey where
  name := "SortKey"
  strict := false
  settings :=
    [ { name := "field", aliases := [], required := true
        store := fun json key => do return { key with field := ← Json.readText json } },
      { name := "direction", aliases := [], required := true
        store := fun json key => do return { key with direction := ← Direction.ofJson json } } ]

def ofJson (json : Json) : Except Failure SortKey :=
  (shape.read ⟨"", .asc⟩ json).mapError fun error => .serialization error.message

def toJson (key : SortKey) : Json :=
  .object [("field", .string key.field), ("direction", .string key.direction.jsonName)]

end SortKey

end DocumentStore
