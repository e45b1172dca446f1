import DocumentStore.Proofs.Backend.Calls
import Mathlib.Data.List.Forall2

/-!
# How programs end

A promise says what a store may answer to each call.  `Ends` bounds the results and the failures
of a program under all answers that keep a promise, so an operation is examined once, without a
store, and holds for every store that keeps the promise.
-/

namespace DocumentStore.Backend

abbrev Promise := (call : Call) → Except Failure call.Answer → Prop

namespace Program

variable {α β : Type} {promise : Promise} {result : α → Prop} {failure : Failure → Prop}

/-- Whatever a store that keeps the promise answers, the program ends with such a result or with
such a failure. -/
def Ends (promise : Promise) (result : α → Prop) (failure : Failure → Prop) : Program α → Prop
  | .done (.ok a) => result a
  | .done (.error cause) => failure cause
  | .ask call next =>
    ∀ answer, promise call answer → (next answer).Ends promise result failure

/-! ## Building blocks -/

theorem ends_pure {a : α} (h : result a) : (pure a : Program α).Ends promise result failure := h

theorem ends_fail {cause : Failure} (h : failure cause) :
    (fail cause : Program α).Ends promise result failure := h

theorem ends_send {call : Call} {result : call.Answer → Prop}
    (hresult : ∀ answer, promise call (.ok answer) → result answer)
    (hfailure : ∀ cause, promise call (.error cause) → failure cause) :
    (send call).Ends promise result failure
  | .ok answer, h => hresult answer h
  | .error cause, h => hfailure cause h

theorem ends_perform {operation : Operation} {collection : String} {call : Call}
    {result : call.Answer → Prop} (hresult : ∀ answer, promise call (.ok answer) → result answer)
    (hfailure : ∀ cause, promise call (.error cause) →
      failure (cause.within operation collection)) :
    (perform operation collection call).Ends promise result failure
  | .ok answer, h => hresult answer h
  | .error cause, h => hfailure cause h

theorem ends_bind {result' : β → Prop} {p : Program α} {f : α → Program β}
    (hp : p.Ends promise result failure)
    (hf : ∀ a, result a → (f a).Ends promise result' failure) :
    (p >>= f).Ends promise result' failure := by
  induction p with
  | done outcome =>
      cases outcome with
      | ok a => exact hf a hp
      | error cause => exact hp
  | ask call next ih => exact fun answer hanswer => ih answer (hp answer hanswer)

theorem ends_lift_bind {check : Except Failure β} {f : β → Program α}
    (hfailure : ∀ cause, check = .error cause → failure cause)
    (hf : ∀ b, check = .ok b → (f b).Ends promise result failure) :
    ((liftM check : Program β) >>= f).Ends promise result failure := by
  cases check with
  | ok b => exact hf b rfl
  | error cause => exact hfailure cause rfl

theorem ends_mono {result' : α → Prop} {p : Program α} (hp : p.Ends promise result failure)
    (h : ∀ a, result a → result' a) : p.Ends promise result' failure := by
  induction p with
  | done outcome =>
      cases outcome with
      | ok a => exact h a hp
      | error cause => exact hp
  | ask call next ih => exact fun answer hanswer => ih answer (hp answer hanswer)

/-- An attempt turns the failures of a program into results. -/
theorem ends_attempt_bind {result' : β → Prop} {failure' : Failure → Prop} {p : Program α}
    {f : Except Failure α → Program β} (hp : p.Ends promise result failure)
    (hok : ∀ a, result a → (f (.ok a)).Ends promise result' failure')
    (herror : ∀ cause, failure cause → (f (.error cause)).Ends promise result' failure') :
    (p.attempt >>= f).Ends promise result' failure' := by
  induction p with
  | done outcome =>
      cases outcome with
      | ok a => exact hok a hp
      | error cause => exact herror cause hp
  | ask call next ih => exact fun answer hanswer => ih answer (hp answer hanswer)

theorem ends_mapM {related : α → β → Prop} {f : α → Program β} {xs : List α}
    (h : ∀ x ∈ xs, (f x).Ends promise (related x) failure) :
    (xs.mapM f).Ends promise (List.Forall₂ related xs) failure := by
  induction xs with
  | nil => exact ends_pure .nil
  | cons x xs ih =>
      rw [List.mapM_cons]
      refine ends_bind (h x List.mem_cons_self) fun y hy => ?_
      refine ends_bind (ih fun other hother => h other (List.mem_cons_of_mem _ hother)) ?_
      exact fun ys hys => ends_pure (.cons hy hys)

/-! ## Runs -/

theorem run_ends {σ : Type} {handler : Handler σ} {Inv : σ → Prop} {p : Program α}
    (hp : p.Ends promise result failure)
    (hkeeps : ∀ call state, Inv state →
      promise call (handler call state).1 ∧ Inv (handler call state).2)
    (state : σ) (hstate : Inv state) :
    (∀ a, (p.run handler state).1 = .ok a → result a) ∧
    ∀ cause, (p.run handler state).1 = .error cause → failure cause := by
  induction p generalizing state with
  | done outcome =>
      cases outcome with
      | ok a =>
          refine ⟨fun b hb => ?_, nofun⟩
          cases hb
          exact hp
      | error cause =>
          refine ⟨nofun, fun other hother => ?_⟩
          cases hother
          exact hp
  | ask call next ih =>
      obtain ⟨hanswer, hnext⟩ := hkeeps call state hstate
      exact ih _ (hp _ hanswer) _ hnext

end Program

end DocumentStore.Backend
