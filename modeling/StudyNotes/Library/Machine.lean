/-
This file builds the theory of machines that take one action after another.

An action is refused or leads to a next state, and what can be seen of it is a
list of events. An invariant may speak about the events so far, so it says what
holds after every run and in which order things have happened in it.
-/

import Mathlib.Data.List.Basic

namespace StudyNotes.Library

variable {State Action Event : Type} {Relates : List Event → Event → Prop}
  {step : State → Action → Option (State × List Event)} {events : List Event} {state last : State}

/-- Take actions one after another. The events of the run are those of its steps. -/
def run (step : State → Action → Option (State × List Event)) :
    State → List Action → Option (State × List Event)
  | state, [] => some (state, [])
  | state, action :: rest =>
    match step state action with
    | none => none
    | some (next, events) => (run step next rest).map fun (last, later) => (last, events ++ later)

theorem run_cons {action : Action} {rest : List Action} :
    run step state (action :: rest) = some (last, events) ↔
      ∃ next first later, step state action = some (next, first) ∧
        run step next rest = some (last, later) ∧ events = first ++ later := by
  rw [run]
  cases taken : step state action with
  | none => simp
  | some result =>
    obtain ⟨next, first⟩ := result
    constructor
    · intro ran
      obtain ⟨⟨last', later⟩, ranRest, isPair⟩ := Option.map_eq_some_iff.mp ran
      cases isPair
      exact ⟨next, first, later, rfl, ranRest, rfl⟩
    · rintro ⟨next', first', later, isPair, ranRest, rfl⟩
      cases isPair
      exact Option.map_eq_some_iff.mpr ⟨(last, later), ranRest, rfl⟩

/-- A run whose result passes a test has a result, with what follows from the test. -/
theorem exists_run_of_any {ran : Option (State × List Event)} {Holds : State → List Event → Prop}
    (test : State × List Event → Bool) (passes : ran.any test = true)
    (holds : ∀ last events, ran = some (last, events) → test (last, events) = true →
      Holds last events) :
    ∃ last events, ran = some (last, events) ∧ Holds last events := by
  obtain ⟨⟨last, events⟩, isRan, passed⟩ := (Option.any_eq_true _ _).mp passes
  exact ⟨last, events, isRan, holds last events isRan passed⟩

/-- What holds of the start and is kept by every step holds after every run. -/
theorem run_invariant (step : State → Action → Option (State × List Event))
    (Holds : State → List Event → Prop)
    (keeps : ∀ state past action next events, Holds state past →
      step state action = some (next, events) → Holds next (past ++ events))
    (past : List Event) {actions : List Action}
    (holds : Holds state past) (ran : run step state actions = some (last, events)) :
    Holds last (past ++ events) := by
  induction actions generalizing state past events with
  | nil =>
    cases ran
    rw [List.append_nil]
    exact holds
  | cons action rest inductionHypothesis =>
    obtain ⟨next, first, later, taken, ranRest, rfl⟩ := run_cons.mp ran
    rw [← List.append_assoc]
    exact inductionHypothesis _ (keeps _ _ _ _ _ holds taken) ranRest

/-- Every event of a history stands in a relation to the events before it. -/
def Preceded (Relates : List Event → Event → Prop) (events : List Event) : Prop :=
  ∀ before event after, events = before ++ event :: after → Relates before event

theorem preceded_nil : Preceded Relates [] := by
  intro before event after isSplit
  simp at isSplit

/-- One more event has to stand in the relation to the whole history before it. -/
theorem Preceded.concat (preceded : Preceded Relates events) (event : Event)
    (relates : Relates events event) : Preceded Relates (events ++ [event]) := by
  intro before other after isSplit
  rcases List.eq_nil_or_concat after with rfl | ⟨front, last, rfl⟩
  · obtain ⟨rfl, isEvent⟩ := List.append_inj' isSplit rfl
    exact List.head_eq_of_cons_eq isEvent ▸ relates
  · rw [List.concat_eq_append, ← List.cons_append, ← List.append_assoc] at isSplit
    exact preceded before other front (List.append_inj' isSplit rfl).1

/-- A state that some run leads to. -/
def Reachable (step : State → Action → Option (State × List Event)) (start last : State) : Prop :=
  ∃ actions events, run step start actions = some (last, events)

/-- An invariant of single states holds in every state that can be reached. -/
theorem Reachable.invariant (Holds : State → Prop)
    (keeps : ∀ state action next events, Holds state → step state action = some (next, events) →
      Holds next)
    {start last : State} (holds : Holds start) (reachable : Reachable step start last) :
    Holds last := by
  obtain ⟨actions, events, ran⟩ := reachable
  exact run_invariant step (fun state _ => Holds state)
    (fun state _ action next events held taken => keeps state action next events held taken)
    [] holds ran

end StudyNotes.Library
