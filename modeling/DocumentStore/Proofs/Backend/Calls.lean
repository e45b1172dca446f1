import DocumentStore.Backend.Program

/-!
# The calls that a program can ask

`Asks` bounds the calls of a program whatever the store answers.  A run keeps every
invariant that the store keeps under those calls, so an invariant is proved for one call
at a time.
-/

namespace DocumentStore.Backend.Program

variable {α β : Type} {allowed wider : Call → Prop}

/-- Every call that the program can ask, under any answers, is allowed. -/
def Asks (allowed : Call → Prop) : Program α → Prop
  | .done _ => True
  | .ask call next => allowed call ∧ ∀ answer, (next answer).Asks allowed

/-! ## Building blocks -/

@[simp] theorem asks_pure (a : α) : (pure a : Program α).Asks allowed := trivial

@[simp] theorem asks_fail (failure : Failure) : (fail failure : Program α).Asks allowed :=
  trivial

theorem asks_send {call : Call} (h : allowed call) : (send call).Asks allowed :=
  ⟨h, fun _ => trivial⟩

theorem asks_perform {operation : Operation} {collection : String} {call : Call}
    (h : allowed call) : (perform operation collection call).Asks allowed :=
  ⟨h, fun _ => trivial⟩

theorem asks_bind {p : Program α} {f : α → Program β} (hp : p.Asks allowed)
    (hf : ∀ a, (f a).Asks allowed) : (p >>= f).Asks allowed := by
  induction p with
  | done result =>
      cases result with
      | ok a => exact hf a
      | error failure => trivial
  | ask call next ih => exact ⟨hp.1, fun answer => ih answer (hp.2 answer)⟩

theorem asks_lift_bind {result : Except Failure α} {f : α → Program β}
    (hf : ∀ a, result = .ok a → (f a).Asks allowed) :
    ((liftM result : Program α) >>= f).Asks allowed := by
  cases result with
  | ok a => exact hf a rfl
  | error failure => trivial

theorem asks_attempt {p : Program α} (hp : p.Asks allowed) : p.attempt.Asks allowed := by
  induction p with
  | done result => trivial
  | ask call next ih => exact ⟨hp.1, fun answer => ih answer (hp.2 answer)⟩

theorem asks_mapM {f : α → Program β} {xs : List α} (h : ∀ x ∈ xs, (f x).Asks allowed) :
    (xs.mapM f).Asks allowed := by
  induction xs with
  | nil => exact asks_pure []
  | cons x xs ih =>
      rw [List.mapM_cons]
      have hx : (f x).Asks allowed := h x (by simp)
      have hxs : (xs.mapM f).Asks allowed := ih fun y hy => h y (by simp [hy])
      exact asks_bind hx fun _ => asks_bind hxs fun _ => asks_pure _

theorem asks_mono (h : ∀ call, allowed call → wider call) {p : Program α}
    (hp : p.Asks allowed) : p.Asks wider := by
  induction p with
  | done result => trivial
  | ask call next ih => exact ⟨h call hp.1, fun answer => ih answer (hp.2 answer)⟩

theorem asks_any (p : Program α) : p.Asks fun _ => True := by
  induction p with
  | done result => trivial
  | ask call next ih => exact ⟨trivial, ih⟩

/-! ## Runs -/

theorem run_keeps {σ : Type} {handler : Handler σ} {Inv : σ → Prop} {p : Program α}
    (hp : p.Asks allowed)
    (hstep : ∀ call state, allowed call → Inv state → Inv (handler call state).2)
    {state : σ} (hstate : Inv state) : Inv (p.run handler state).2 := by
  induction p generalizing state with
  | done result => exact hstate
  | ask call next ih => exact ih _ (hp.2 _) (hstep call state hp.1 hstate)

theorem run_bind_snd {σ : Type} (handler : Handler σ) {p : Program α} {f : α → Program β}
    (hf : ∀ a state, ((f a).run handler state).2 = state) (state : σ) :
    ((p >>= f).run handler state).2 = (p.run handler state).2 := by
  rw [run_bind]
  cases hrun : p.run handler state with
  | mk result next =>
      cases result with
      | ok a => exact hf a next
      | error failure => rfl

/-! ## Runs that succeed -/

theorem exists_of_run_bind_eq_ok {σ : Type} {handler : Handler σ} {p : Program α}
    {f : α → Program β} {state after : σ} {b : β}
    (h : (p >>= f).run handler state = (.ok b, after)) :
    ∃ a next, p.run handler state = (.ok a, next) ∧ (f a).run handler next = (.ok b, after) := by
  rw [run_bind] at h
  cases hrun : p.run handler state with
  | mk result next =>
      rw [hrun] at h
      cases result with
      | ok a => exact ⟨a, next, rfl, h⟩
      | error failure => cases h

theorem run_lift_bind_eq_ok {σ : Type} {handler : Handler σ} {result : Except Failure α}
    {f : α → Program β} {state after : σ} {b : β}
    (h : ((liftM result : Program α) >>= f).run handler state = (.ok b, after)) :
    ∃ a, result = .ok a ∧ (f a).run handler state = (.ok b, after) := by
  obtain ⟨a, next, hresult, hrun⟩ := exists_of_run_bind_eq_ok h
  rw [run_lift, Prod.mk.injEq] at hresult
  obtain ⟨hok, rfl⟩ := hresult
  exact ⟨a, hok, hrun⟩

theorem handle_of_run_perform_eq_ok {σ : Type} {handler : Handler σ} {operation : Operation}
    {collection : String} {call : Call} {state after : σ} {answer : call.Answer}
    (h : (perform operation collection call).run handler state = (.ok answer, after)) :
    handler call state = (.ok answer, after) := by
  rw [run_perform] at h
  cases hcall : handler call state with
  | mk result next =>
      rw [hcall] at h
      cases result with
      | ok a => exact h
      | error failure => cases h

/-! ## Runs that fail -/

theorem of_run_bind_eq_error {σ : Type} {handler : Handler σ} {p : Program α}
    {f : α → Program β} {state after : σ} {failure : Failure}
    (h : (p >>= f).run handler state = (.error failure, after)) :
    p.run handler state = (.error failure, after) ∨
    ∃ a next, p.run handler state = (.ok a, next) ∧
      (f a).run handler next = (.error failure, after) := by
  rw [run_bind] at h
  cases hrun : p.run handler state with
  | mk result next =>
      rw [hrun] at h
      cases result with
      | ok a => exact .inr ⟨a, next, rfl, h⟩
      | error cause =>
          cases h
          exact .inl rfl

theorem exists_of_run_perform_eq_error {σ : Type} {handler : Handler σ} {operation : Operation}
    {collection : String} {call : Call} {state after : σ} {failure : Failure}
    (h : (perform operation collection call).run handler state = (.error failure, after)) :
    ∃ cause, (handler call state).1 = .error cause := by
  rw [run_perform] at h
  cases hcall : (handler call state).1 with
  | ok answer =>
      rw [hcall] at h
      cases h
  | error cause => exact ⟨cause, rfl⟩

end DocumentStore.Backend.Program
