import DocumentStore.Failure
import DocumentStore.Json.Settings
import DocumentStore.Text.Blank

/-!
# MongoDB connection settings

A connection string without a scheme gets `mongodb://`, and the database is the
configured one or the path of the connection string.
-/

namespace DocumentStore.Mongo

structure Settings where
  dsn : String := ""
  db : Option String := none
  user : Option String := none
  pwd : Option String := none
  idField : Option String := none
deriving DecidableEq, Repr

namespace Settings

def shape : Json.Shape Settings where
  name := "MongoDbConfig"
  strict := false
  settings :=
    [ { name := "dsn", aliases := [], required := false
        store := fun json settings => do
          return { settings with dsn := ← Json.readText json } },
      { name := "db", aliases := [], required := false
        store := fun json settings => do
          return { settings with db := ← Json.readOptional Json.readText json } },
      { name := "user", aliases := [], required := false
        store := fun json settings => do
          return { settings with user := ← Json.readOptional Json.readText json } },
      { name := "pwd", aliases := [], required := false
        store := fun json settings => do
          return { settings with pwd := ← Json.readOptional Json.readText json } },
      { name := "id_field", aliases := [], required := false
        store := fun json settings => do
          return { settings with idField := ← Json.readOptional Json.readText json } } ]

def ofJson (json : Json) : Except Failure Settings :=
  (shape.read {} json).mapError fun error => .serialization error.message

/-! ## Texts -/

def behind? (separator : List Char) : List Char → Option (List Char)
  | [] => Text.dropStart? separator []
  | c :: cs =>
    match Text.dropStart? separator (c :: cs) with
    | some rest => some rest
    | none => behind? separator cs

def schemeMark : List Char := [':', '/', '/']

def trimmed? (text : Option String) : Option String :=
  match text with
  | none => none
  | some s =>
    let inner := Text.trim s.toList
    if inner.isEmpty then none else some (String.ofList inner)

def connectionString (settings : Settings) : String :=
  match trimmed? (some settings.dsn) with
  | none => "mongodb://localhost:27017"
  | some dsn => if (behind? schemeMark dsn.toList).isSome then dsn else "mongodb://" ++ dsn

def databaseOf? (connection : List Char) : Option String := do
  let rest ← behind? schemeMark connection
  let path ← behind? ['/'] rest
  let name := path.takeWhile fun c => c != '?' && c != '/'
  if name.isEmpty then none else some (String.ofList name)

def noDatabase : Failure :=
  .initialization "no database given in the configuration or the connection string"

def database (settings : Settings) : Except Failure String :=
  match (trimmed? settings.db).or (databaseOf? settings.connectionString.toList) with
  | some name => .ok name
  | none => .error noDatabase

def idFieldName (settings : Settings) : String := (trimmed? settings.idField).getD "_id"

/-- User and password, when both are given and the user has a name. -/
def credentials? (settings : Settings) : Option (String × String) :=
  match settings.user, settings.pwd with
  | some user, some pwd => if user.isEmpty then none else some (user, pwd)
  | _, _ => none

end Settings

/-! ## Connections -/

/-- What a connection to a database is opened with. -/
structure Connection where
  dsn : String
  database : String
  credentials : Option (String × String) := none
  idField : String := "_id"
deriving DecidableEq, Repr

namespace Connection

def ofSettings (settings : Settings) : Except Failure Connection := do
  let database ← settings.database
  return { dsn := settings.connectionString, database
           credentials := settings.credentials?, idField := settings.idFieldName }

end Connection

end DocumentStore.Mongo
