import DocumentStore.Backend.Program
import Mathlib.Data.List.Perm.Subperm

/-!
# Programs of several clients

Clients take turns at a store, one call at each turn.  Programs that ask for a single call are
one step each, so every way to take turns is an order of steps.  Steps that are independent of
each other may go in any order: all orders leave the same state, and each step has the answer
that it has alone.
-/

namespace DocumentStore.Backend

/-! ## Steps one after the other -/

section Steps

variable {β γ σ : Type} (act : β → σ → γ × σ)

def events : List β → σ → List (β × γ)
  | [], _ => []
  | step :: steps, state => (step, (act step state).1) :: events steps (act step state).2

def afterSteps : List β → σ → σ
  | [], state => state
  | step :: steps, state => afterSteps steps (act step state).2

@[simp] theorem map_fst_events (steps : List β) (state : σ) :
    (events act steps state).map Prod.fst = steps := by
  induction steps generalizing state with
  | nil => rfl
  | cons step steps ih => rw [events, List.map_cons, ih]

theorem exists_of_events_eq_append {steps : List β} {state : σ} {earlier later : List (β × γ)}
    {event : β × γ} (h : events act steps state = earlier ++ event :: later) :
    ∃ before behind, steps = before ++ event.1 :: behind ∧ earlier = events act before state ∧
      event.2 = (act event.1 (afterSteps act before state)).1 := by
  induction earlier generalizing steps state with
  | nil =>
      cases steps with
      | nil => cases h
      | cons step steps =>
          obtain ⟨rfl, -⟩ := List.cons.inj h
          exact ⟨[], steps, rfl, rfl, rfl⟩
  | cons first earlier ih =>
      cases steps with
      | nil => cases h
      | cons step steps =>
          obtain ⟨rfl, hrest⟩ := List.cons.inj h
          obtain ⟨before, behind, rfl, rfl, hevent⟩ := ih hrest
          exact ⟨step :: before, behind, rfl, rfl, hevent⟩

/-! ## Independent steps -/

/-- As long as the invariant holds, each of the two steps has the answer that it has without the
other, and both orders leave the same state. -/
structure Independent (Inv : σ → Prop) (first second : β) : Prop where
  first_answer : ∀ state, Inv state →
    (act first (act second state).2).1 = (act first state).1
  second_answer : ∀ state, Inv state →
    (act second (act first state).2).1 = (act second state).1
  state : ∀ state, Inv state →
    (act first (act second state).2).2 = (act second (act first state).2).2

variable {act} {Inv : σ → Prop}

theorem Independent.symm {first second : β} (h : Independent act Inv first second) :
    Independent act Inv second first :=
  ⟨h.second_answer, h.first_answer, fun state hstate => (h.state state hstate).symm⟩

theorem events_of_independent {steps : List β}
    (hkeeps : ∀ step ∈ steps, ∀ state, Inv state → Inv (act step state).2)
    (h : steps.Pairwise (Independent act Inv)) {state : σ} (hstate : Inv state) :
    events act steps state = steps.map fun step => (step, (act step state).1) := by
  induction steps generalizing state with
  | nil => rfl
  | cons first steps ih =>
      obtain ⟨hfirst, hsteps⟩ := List.pairwise_cons.1 h
      have hnext := hkeeps first List.mem_cons_self state hstate
      have hrest := ih (fun step hstep => hkeeps step (List.mem_cons_of_mem _ hstep)) hsteps hnext
      rw [events, hrest, List.map_cons]
      congr 1
      apply List.map_congr_left
      intro step hstep
      rw [(hfirst step hstep).second_answer state hstate]

theorem afterSteps_perm {order steps : List β} (hperm : order.Perm steps)
    (hkeeps : ∀ step ∈ steps, ∀ state, Inv state → Inv (act step state).2)
    (h : steps.Pairwise (Independent act Inv)) {state : σ} (hstate : Inv state) :
    afterSteps act order state = afterSteps act steps state := by
  induction hperm generalizing state with
  | nil => rfl
  | cons step hperm ih =>
      exact ih (fun other hother => hkeeps other (List.mem_cons_of_mem _ hother))
        (List.pairwise_cons.1 h).2 (hkeeps step List.mem_cons_self state hstate)
  | swap first second rest =>
      have hboth := (List.pairwise_cons.1 h).1 second List.mem_cons_self
      simp only [afterSteps]
      rw [hboth.state state hstate]
  | trans first second ihFirst ihSecond =>
      have hmiddle := (second.pairwise_iff Independent.symm).2 h
      have hkept := fun step hstep => hkeeps step (second.subset hstep)
      rw [ihFirst hkept hmiddle hstate, ihSecond hkeeps h hstate]

end Steps

namespace Program

variable {α κ σ : Type} {handler : Handler σ}

/-! ## Turns -/

/-- The next call of a program is answered; a program that is done asks for nothing. -/
def turn (handler : Handler σ) : Program α → σ → Program α × σ
  | .done result, state => (.done result, state)
  | .ask call next, state => (next (handler call state).1, (handler call state).2)

def OneCall : Program α → Prop
  | .done _ => True
  | .ask _ next => ∀ answer, ∃ result, next answer = .done result

theorem turn_of_oneCall (handler : Handler σ) {p : Program α} (h : p.OneCall) (state : σ) :
    p.turn handler state = (.done (p.run handler state).1, (p.run handler state).2) := by
  cases p with
  | done result => rfl
  | ask call next =>
      obtain ⟨result, hresult⟩ := h (handler call state).1
      simp only [turn, run, hresult]

theorem oneCall_lift_bind {β : Type} {x : Except Failure α} {f : α → Program β}
    (h : ∀ a, (f a).OneCall) : ((liftM x : Program α) >>= f).OneCall := by
  cases x with
  | error failure => trivial
  | ok a => exact h a

theorem oneCall_perform_bind {operation : Operation} {collection : String} {call : Call}
    {f : call.Answer → Program α} (h : ∀ answer, ∃ result, f answer = .done result) :
    (perform operation collection call >>= f).OneCall := by
  intro answer
  change ∃ result, (Program.done (answer.mapError (.within operation collection))).bind f =
    .done result
  cases answer with
  | error failure => exact ⟨_, rfl⟩
  | ok given => exact h given

/-- Clients with what is left of their programs take turns in some order, of which not all need
to come to their end.  A client is noted with its result at its last turn. -/
inductive Interleaved (handler : Handler σ) :
    List (κ × Program α) → σ → List (κ × Except Failure α) → σ → Prop where
  | stop (clients : List (κ × Program α)) (state : σ) : Interleaved handler clients state [] state
  | ends {before behind : List (κ × Program α)} {client : κ} {p : Program α} {state after : σ}
      {result : Except Failure α} {events : List (κ × Except Failure α)}
      (hturn : (p.turn handler state).1 = .done result)
      (hrest : Interleaved handler (before ++ behind) (p.turn handler state).2 events after) :
      Interleaved handler (before ++ (client, p) :: behind) state ((client, result) :: events) after
  | continues {before behind : List (κ × Program α)} {client : κ} {p : Program α}
      {state after : σ} {events : List (κ × Except Failure α)}
      (hturn : ∀ result, (p.turn handler state).1 ≠ .done result)
      (hrest : Interleaved handler (before ++ (client, (p.turn handler state).1) :: behind)
        (p.turn handler state).2 events after) :
      Interleaved handler (before ++ (client, p) :: behind) state events after

/-- Programs of one call are run one after the other, in the order of their turns. -/
theorem Interleaved.exists_order {program : κ → Program α} {clients : List κ}
    (hone : ∀ client ∈ clients, (program client).OneCall) {state after : σ}
    {events : List (κ × Except Failure α)}
    (h : Interleaved handler (clients.map fun client => (client, program client)) state events
      after) :
    ∃ order : List κ, order.Subperm clients ∧
      events = Backend.events (fun client => (program client).run handler) order state ∧
      after = afterSteps (fun client => (program client).run handler) order state := by
  -- A client whose turn it was has left, so the induction runs over all lists of clients.
  generalize hpool : clients.map (fun client => (client, program client)) = pool at h
  induction h generalizing clients with
  | stop => exact ⟨[], List.nil_subperm, rfl, rfl⟩
  | @ends _ _ _ _ now _ _ _ hturn _ ih =>
      obtain ⟨first, rest, rfl, rfl, hrest⟩ := List.map_eq_append_iff.1 hpool
      obtain ⟨client, last, rfl, hclient, rfl⟩ := List.map_eq_cons_iff.1 hrest
      obtain ⟨rfl, rfl⟩ := Prod.mk.inj hclient
      have hclients : first ++ last ⊆ first ++ client :: last :=
        (List.sublist_cons_self client last).append_left first |>.subset
      rw [turn_of_oneCall handler (hone client (by simp)) now] at hturn ih
      cases hturn
      obtain ⟨order, hsub, hevents, hafter⟩ :=
        ih (fun other hother => hone other (hclients hother)) List.map_append
      refine ⟨client :: order, ?_, by rw [Backend.events, hevents], hafter⟩
      exact ((List.subperm_cons client).2 hsub).trans List.perm_middle.symm.subperm
  | continues hturn _ ih =>
      obtain ⟨first, rest, rfl, rfl, hrest⟩ := List.map_eq_append_iff.1 hpool
      obtain ⟨client, last, rfl, hclient, rfl⟩ := List.map_eq_cons_iff.1 hrest
      obtain ⟨rfl, rfl⟩ := Prod.mk.inj hclient
      rw [turn_of_oneCall handler (hone client (by simp))] at hturn
      exact absurd rfl (hturn _)

theorem Interleaved.of_order {program : κ → Program α} {clients : List κ}
    (hone : ∀ client ∈ clients, (program client).OneCall) (order : List κ)
    (hsub : order.Subperm clients) (state : σ) :
    Interleaved handler (clients.map fun client => (client, program client)) state
      (Backend.events (fun client => (program client).run handler) order state)
      (afterSteps (fun client => (program client).run handler) order state) := by
  induction order generalizing clients state with
  | nil => exact .stop _ state
  | cons client order ih =>
      have hclient : client ∈ clients := hsub.subset List.mem_cons_self
      obtain ⟨first, last, rfl⟩ := List.append_of_mem hclient
      have hrest : order.Subperm (first ++ last) :=
        (List.subperm_cons client).1 (hsub.trans List.perm_middle.subperm)
      have hlast : first ++ last ⊆ first ++ client :: last :=
        (List.sublist_cons_self client last).append_left first |>.subset
      have hturn := turn_of_oneCall handler (hone client hclient) state
      have hnext := ih (fun other hother => hone other (hlast hother)) hrest
        ((program client).run handler state).2
      rw [List.map_append, List.map_cons, Backend.events, afterSteps]
      refine .ends (congrArg Prod.fst hturn) ?_
      rw [hturn, ← List.map_append]
      exact hnext

end Program

end DocumentStore.Backend
