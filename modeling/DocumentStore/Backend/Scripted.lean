import DocumentStore.Backend.Program

/-!
# Stores with a script of faults

A scripted store notes every call, hands out identifiers of its own, and answers the
calls that its script names without asking the store below.
-/

namespace DocumentStore.Backend

inductive Method where
  | insert
  | replace
  | update
  | find
  | count
  | findAndMerge
  | findAndDelete
  | delete
  | createCollection
  | dropCollection
  | listCollections
  | shutdown
deriving DecidableEq, Repr

/-- A new identifier is no call that is noted. -/
def Call.method? : Call → Option Method
  | .newId => none
  | .insert .. => some .insert
  | .replace .. => some .replace
  | .update .. => some .update
  | .find .. => some .find
  | .count .. => some .count
  | .findAndMerge .. => some .findAndMerge
  | .findAndDelete .. => some .findAndDelete
  | .delete .. => some .delete
  | .createCollection _ => some .createCollection
  | .dropCollection _ => some .dropCollection
  | .listCollections => some .listCollections
  | .shutdown => some .shutdown

inductive FaultAnswer where
  | raise (error : Failure)
  /-- The statuses that an insert is answered with. -/
  | statuses (statuses : List InsertStatus)

structure Fault where
  method : Method
  number : Nat
  answer : FaultAnswer

structure Scripted (σ : Type) where
  store : σ
  faults : List Fault
  /-- The calls so far, the latest first. -/
  log : List Call := []
  freshId : Nat → ObjectId
  /-- How many identifiers were handed out. -/
  issued : Nat := 0

namespace Scripted

variable {σ : Type}

def timesCalled (method : Method) (log : List Call) : Nat :=
  log.countP fun call => call.method? == some method

def fault? (scripted : Scripted σ) (call : Call) : Option FaultAnswer := do
  let method ← call.method?
  let fault ← scripted.faults.find? fun fault =>
    fault.method == method && fault.number == timesCalled method scripted.log
  return fault.answer

def forward (handler : Program.Handler σ) (scripted : Scripted σ) (call : Call) :
    Except Failure call.Answer × Scripted σ :=
  let (answer, store) := handler call scripted.store
  (answer, { scripted with store })

def handle (handler : Program.Handler σ) : Program.Handler (Scripted σ) :=
  fun call scripted =>
    match call with
    | .newId =>
      (.ok (.objectId (scripted.freshId (scripted.issued + 1))),
        { scripted with issued := scripted.issued + 1 })
    | call =>
      let noted := { scripted with log := call :: scripted.log }
      match noted.fault? call, call with
      | some (.raise error), _ => (.error error, noted)
      | some (.statuses statuses), .insert .. => (.ok statuses, noted)
      | _, call => noted.forward handler call

end Scripted

end DocumentStore.Backend
