import DocumentStore.Collection.Operations

/-!
# Service over a store

A service hands out the collections of one store and manages them by name.
-/

namespace DocumentStore

open Backend

structure Service where
  settings : ServiceSettings

namespace Service

/-- The default settings with the field that the store keys its records by. -/
def ofStore (storeIdField : String) : Service :=
  ⟨{ idField := storeIdField }⟩

/-- Given settings, which have to name the field that the store keys its records by. -/
def ofSettings (storeIdField : String) (settings : ServiceSettings) : Except Failure Service :=
  if settings.idField = storeIdField then .ok ⟨settings⟩
  else
    .error (.initialization ("id field '" ++ settings.idField
      ++ "' does not match the backend id field '" ++ storeIdField ++ "'"))

def collection (service : Service) (name : String) : Collection :=
  ⟨name, service.settings.idField⟩

def createCollection (name : String) : Program Unit :=
  Program.perform .createCollection name (.createCollection name)

def dropCollection (name : String) : Program Unit :=
  Program.perform .dropCollection name (.dropCollection name)

def listCollections : Program (List String) :=
  Program.perform .listCollections "*" .listCollections

def shutdown : Program Unit := Program.send .shutdown

end Service

end DocumentStore
