import DocumentStore.Backend.Program
import DocumentStore.Memory.Write

/-!
# Answers of the store in memory

The store as a handler of calls: every call is one step, and a failure is raised without
its context.
-/

namespace DocumentStore.Memory.Store

def createCollection (store : Store) (name : String) : Except Failure Unit × Store :=
  if Fields.contains name store.collections then
    (.error (.store ("collection '" ++ name ++ "' already exists")), store)
  else (.ok (), store.setRecords name [])

def dropCollection (store : Store) (name : String) : Except Failure Unit × Store :=
  if Fields.contains name store.collections then
    (.ok (), { store with collections := Fields.erase name store.collections })
  else (.error (.store ("collection '" ++ name ++ "' not found")), store)

def handle : Backend.Program.Handler Store := fun call store =>
  match call with
  | .newId => let (id, store) := store.takeId; (.ok id, store)
  | .insert collection records ordered =>
    let (statuses, store) := store.insert collection records ordered
    (.ok statuses, store)
  | .replace collection filter record upsert => store.replace collection filter record upsert
  | .update collection filter change => store.update collection filter change
  | .find collection filter selection => (store.find collection filter selection, store)
  | .count collection filter => (store.count collection filter, store)
  | .findAndMerge collection filter patch projection =>
    store.findAndMerge collection filter patch projection
  | .findAndDelete collection filter projection =>
    store.findAndDelete collection filter projection
  | .delete collection filter => store.delete collection filter
  | .createCollection name => store.createCollection name
  | .dropCollection name => store.dropCollection name
  | .listCollections => (.ok store.collectionNames, store)
  | .shutdown => (.ok (), store)

end DocumentStore.Memory.Store
