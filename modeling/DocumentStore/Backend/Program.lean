import DocumentStore.Backend.Call
import DocumentStore.Failure

/-!
# Programs over a store

A program asks a store one call after the other and ends with a result or an error.
Each call is one atomic step of the store; `run` answers the calls by a handler.
-/

namespace DocumentStore.Backend

inductive Program (α : Type) where
  | done (result : Except Failure α)
  | ask (call : Call) (next : Except Failure call.Answer → Program α)

namespace Program

variable {α β : Type}

def bind : Program α → (α → Program β) → Program β
  | .done (.ok a), f => f a
  | .done (.error error), _ => .done (.error error)
  | .ask call next, f => .ask call fun answer => (next answer).bind f

instance : Monad Program where
  pure a := .done (.ok a)
  bind := bind

instance : MonadLift (Except Failure) Program where
  monadLift := .done

theorem id_map (p : Program α) : id <$> p = p := by
  induction p with
  | done result => cases result <;> rfl
  | ask call next ih => exact congrArg (Program.ask call) (funext ih)

theorem bind_assoc {γ : Type} (p : Program α) (f : α → Program β) (g : β → Program γ) :
    p >>= f >>= g = p >>= fun a => f a >>= g := by
  induction p with
  | done result => cases result <;> rfl
  | ask call next ih => exact congrArg (Program.ask call) (funext ih)

instance : LawfulMonad Program :=
  LawfulMonad.mk' Program id_map (fun _ _ => rfl) bind_assoc

def fail (error : Failure) : Program α := .done (.error error)

/-- One call, whose failure is put into the context of an operation on a collection. -/
def perform (operation : Operation) (collection : String) (call : Call) : Program call.Answer :=
  .ask call fun answer => .done (answer.mapError (.within operation collection))

def send (call : Call) : Program call.Answer := .ask call .done

/-- The result of a program as a value, so that its failure ends nothing. -/
def attempt : Program α → Program (Except Failure α)
  | .done result => .done (.ok result)
  | .ask call next => .ask call fun answer => (next answer).attempt

/-! ## Running -/

abbrev Handler (σ : Type) := (call : Call) → σ → Except Failure call.Answer × σ

def run {σ : Type} (handler : Handler σ) : Program α → σ → Except Failure α × σ
  | .done result, state => (result, state)
  | .ask call next, state =>
    (next (handler call state).1).run handler (handler call state).2

section

variable {σ : Type} (handler : Handler σ)

@[simp] theorem run_pure (a : α) (state : σ) :
    (pure a : Program α).run handler state = (.ok a, state) := rfl

@[simp] theorem run_fail (failure : Failure) (state : σ) :
    (fail failure : Program α).run handler state = (.error failure, state) := rfl

@[simp] theorem run_lift (result : Except Failure α) (state : σ) :
    (liftM result : Program α).run handler state = (result, state) := rfl

/-- The second part of a program runs where the first one succeeds, on the state that it
left. -/
theorem run_bind (p : Program α) (f : α → Program β) (state : σ) :
    (p >>= f).run handler state =
      match p.run handler state with
      | (.ok a, next) => (f a).run handler next
      | (.error failure, next) => (.error failure, next) := by
  induction p generalizing state with
  | done result => cases result <;> rfl
  | ask call next ih => exact ih (handler call state).1 (handler call state).2

@[simp] theorem run_send (call : Call) (state : σ) :
    (send call).run handler state = handler call state := rfl

@[simp] theorem run_perform (operation : Operation) (collection : String) (call : Call)
    (state : σ) :
    (perform operation collection call).run handler state =
      ((handler call state).1.mapError (.within operation collection),
        (handler call state).2) := rfl

@[simp] theorem run_attempt (p : Program α) (state : σ) :
    p.attempt.run handler state = (.ok (p.run handler state).1, (p.run handler state).2) := by
  induction p generalizing state with
  | done result => rfl
  | ask call next ih => exact ih (handler call state).1 (handler call state).2

end

end Program

end DocumentStore.Backend
