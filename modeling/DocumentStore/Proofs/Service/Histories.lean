import DocumentStore.Proofs.Collection.Requests
import DocumentStore.Service

/-!
# Histories of a service

A history is a list of requests, to collections and to the service itself, that a store in
memory answers one after the other.
-/

namespace DocumentStore

open Backend

namespace Service

inductive Request where
  | within (name : String) (request : Collection.Request)
  | createCollection (name : String)
  | dropCollection (name : String)
  | listCollections
  | shutdown

namespace Request

@[reducible] def Answer : Request → Type
  | .within _ request => request.Answer
  | .listCollections => List String
  | _ => Unit

def program (service : Service) : (request : Request) → Program request.Answer
  | .within name request => request.program (service.collection name)
  | .createCollection name => Service.createCollection name
  | .dropCollection name => Service.dropCollection name
  | .listCollections => Service.listCollections
  | .shutdown => Service.shutdown

def isMerge : Request → Bool
  | .within _ request => request.operation == .merge
  | _ => false

def after (service : Service) (request : Request) (store : Memory.Store) : Memory.Store :=
  ((request.program service).run Memory.Store.handle store).2

end Request

def afterAll (service : Service) (requests : List Request) (store : Memory.Store) :
    Memory.Store :=
  requests.foldl (fun store request => request.after service store) store

end Service

end DocumentStore
