/-
This file relates the histories of a machine to a specification.

A specification says which event it allows in which of its states. A machine
conforms to it when every step is matched by the specification, with the events
of the step that concern it.
-/

import StudyNotes.Library.Machine

namespace StudyNotes.Library

variable {Spec State Action Event : Type} {Allows : Spec → Event → Spec → Prop}

/-- A specification allows the events of a history one after another. -/
inductive Conforms (Allows : Spec → Event → Spec → Prop) : Spec → List Event → Spec → Prop where
  | nil {spec : Spec} : Conforms Allows spec [] spec
  | cons {spec middle last : Spec} {event : Event} {events : List Event}
      (allows : Allows spec event middle) (later : Conforms Allows middle events last) :
      Conforms Allows spec (event :: events) last

theorem Conforms.append {spec middle last : Spec} {events later : List Event}
    (first : Conforms Allows spec events middle) (second : Conforms Allows middle later last) :
    Conforms Allows spec (events ++ later) last := by
  induction first with
  | nil => exact second
  | cons allows _ inductionHypothesis => exact .cons allows (inductionHypothesis second)

theorem Conforms.single {spec last : Spec} {event : Event} (allows : Allows spec event last) :
    Conforms Allows spec [event] last :=
  .cons allows .nil

/-- A machine whose steps the specification can match conforms to it in every run. -/
theorem run_conforms {step : State → Action → Option (State × List Event)}
    (concerns : Event → Bool) (Related : State → Spec → Prop)
    (matched : ∀ state spec action next events, Related state spec →
      step state action = some (next, events) →
      ∃ spec', Conforms Allows spec (events.filter concerns) spec' ∧ Related next spec')
    {state last : State} {spec : Spec} {actions : List Action} {events : List Event}
    (related : Related state spec) (ran : run step state actions = some (last, events)) :
    ∃ spec', Conforms Allows spec (events.filter concerns) spec' ∧ Related last spec' := by
  have kept := run_invariant step
    (fun state past => ∃ spec', Conforms Allows spec (past.filter concerns) spec' ∧
      Related state spec') ?_ [] ⟨spec, .nil, related⟩ ran
  · exact kept
  · rintro state past action next events ⟨middle, conforms, related⟩ taken
    obtain ⟨last, later, related'⟩ := matched state middle action next events related taken
    refine ⟨last, ?_, related'⟩
    rw [List.filter_append]
    exact conforms.append later

end StudyNotes.Library
