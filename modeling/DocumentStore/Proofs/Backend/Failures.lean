import DocumentStore.Backend.Program

/-!
# Programs that fail

A failure ends a program, and what it leaves is what the steps before it left.  The relation of
that state to the first one is put together along the program: steps that keep it may stand in
front, and behind a step that may break it only steps that succeed.
-/

namespace DocumentStore.Backend.Program

variable {α β σ : Type} {handler : Handler σ} {R : σ → σ → Prop}

/-- A run that fails leaves a state in the relation to the first one. -/
def FailsWithin (handler : Handler σ) (R : σ → σ → Prop) (p : Program α) : Prop :=
  ∀ state failure, (p.run handler state).1 = .error failure → R state (p.run handler state).2

def Keeps (handler : Handler σ) (R : σ → σ → Prop) (p : Program α) : Prop :=
  ∀ state, R state (p.run handler state).2

def Succeeds (handler : Handler σ) (p : Program α) : Prop :=
  ∀ state, ∃ a, (p.run handler state).1 = .ok a

theorem FailsWithin.of_run_eq_error {p : Program α} (h : p.FailsWithin handler R) {state after : σ}
    {failure : Failure} (hrun : p.run handler state = (.error failure, after)) : R state after := by
  have hrelated := h state failure (congrArg Prod.fst hrun)
  rwa [hrun] at hrelated

theorem Keeps.failsWithin {p : Program α} (h : p.Keeps handler R) : p.FailsWithin handler R :=
  fun state _ _ => h state

theorem Succeeds.failsWithin {p : Program α} (h : p.Succeeds handler) :
    p.FailsWithin handler R := by
  intro state failure hfails
  obtain ⟨a, ha⟩ := h state
  rw [ha] at hfails
  cases hfails

theorem FailsWithin.mono {R' : σ → σ → Prop} {p : Program α} (h : p.FailsWithin handler R)
    (hmono : ∀ s t, R s t → R' s t) : p.FailsWithin handler R' :=
  fun state failure hfails => hmono _ _ (h state failure hfails)

/-! ## Steps that succeed -/

theorem succeeds_pure (a : α) : (pure a : Program α).Succeeds handler := fun _ => ⟨a, rfl⟩

theorem succeeds_bind {p : Program α} {f : α → Program β} (hp : p.Succeeds handler)
    (hf : ∀ a, (f a).Succeeds handler) : (p >>= f).Succeeds handler := by
  intro state
  obtain ⟨a, ha⟩ := hp state
  obtain ⟨b, hb⟩ := hf a (p.run handler state).2
  refine ⟨b, ?_⟩
  rw [run_bind]
  cases hrun : p.run handler state with
  | mk result next =>
      rw [hrun] at ha hb
      change result = .ok a at ha
      rw [ha]
      exact hb

theorem succeeds_attempt (p : Program α) : p.attempt.Succeeds handler := by
  intro state
  rw [run_attempt]
  exact ⟨_, rfl⟩

theorem succeeds_mapM {f : α → Program β} (h : ∀ x, (f x).Succeeds handler) (xs : List α) :
    (xs.mapM f).Succeeds handler := by
  induction xs with
  | nil => exact succeeds_pure []
  | cons x xs ih =>
      rw [List.mapM_cons]
      exact succeeds_bind (h x) fun _ => succeeds_bind ih fun _ => succeeds_pure _

/-! ## Steps that keep the relation -/

section Refl

variable (hrefl : ∀ state, R state state)

include hrefl

theorem keeps_pure (a : α) : (pure a : Program α).Keeps handler R := hrefl

theorem failsWithin_lift_bind {result : Except Failure α} {f : α → Program β}
    (hf : ∀ a, (f a).FailsWithin handler R) :
    ((liftM result : Program α) >>= f).FailsWithin handler R := by
  cases result with
  | ok a => exact hf a
  | error failure => exact fun state _ _ => hrefl state

end Refl

theorem keeps_bind (htrans : ∀ s t u, R s t → R t u → R s u) {p : Program α}
    {f : α → Program β} (hp : p.Keeps handler R) (hf : ∀ a, (f a).Keeps handler R) :
    (p >>= f).Keeps handler R := by
  intro state
  have hfirst := hp state
  rw [run_bind]
  cases hrun : p.run handler state with
  | mk result next =>
      rw [hrun] at hfirst
      cases result with
      | ok a => exact htrans _ _ _ hfirst (hf a next)
      | error failure => exact hfirst

theorem keeps_mapM (hrefl : ∀ state, R state state) (htrans : ∀ s t u, R s t → R t u → R s u)
    {f : α → Program β} (h : ∀ x, (f x).Keeps handler R) (xs : List α) :
    (xs.mapM f).Keeps handler R := by
  induction xs with
  | nil => exact keeps_pure hrefl []
  | cons x xs ih =>
      rw [List.mapM_cons]
      exact keeps_bind htrans (h x) fun _ =>
        keeps_bind htrans ih fun _ => keeps_pure hrefl _

/-! ## Two steps -/

theorem failsWithin_bind {p : Program α} {f : α → Program β} (hp : p.FailsWithin handler R)
    (hf : ∀ state a next failure, p.run handler state = (.ok a, next) →
      ((f a).run handler next).1 = .error failure → R state ((f a).run handler next).2) :
    (p >>= f).FailsWithin handler R := by
  intro state failure hfails
  have hfirst := hp state
  rw [run_bind] at hfails ⊢
  cases hrun : p.run handler state with
  | mk result next =>
      rw [hrun] at hfirst hfails
      cases result with
      | ok a => exact hf state a next failure hrun hfails
      | error failure' => exact hfirst failure' rfl

theorem failsWithin_bind_of_keeps {Q : σ → σ → Prop} (hsub : ∀ s t, R s t → Q s t)
    (htrans : ∀ s t u, R s t → Q t u → Q s u) {p : Program α} {f : α → Program β}
    (hp : p.Keeps handler R) (hf : ∀ a, (f a).FailsWithin handler Q) :
    (p >>= f).FailsWithin handler Q := by
  refine failsWithin_bind (fun state _ _ => hsub _ _ (hp state)) ?_
  intro state a next failure hrun hfails
  have hfirst := hp state
  rw [hrun] at hfirst
  exact htrans _ _ _ hfirst (hf a next failure hfails)

theorem failsWithin_bind_of_succeeds {p : Program α} {f : α → Program β}
    (hp : p.FailsWithin handler R) (hf : ∀ a, (f a).Succeeds handler) :
    (p >>= f).FailsWithin handler R := by
  refine failsWithin_bind hp ?_
  intro state a next failure _ hfails
  obtain ⟨b, hb⟩ := hf a next
  rw [hb] at hfails
  cases hfails

end DocumentStore.Backend.Program
