/-
This file gives the rules of pre- and postconditions for programs that change a
state and log what they do. A condition may speak about the log so far, so it can
say in which order things happen.
-/

import Mathlib.Data.List.Basic

namespace StudyNotes.Library

/-- A program that changes the state and logs events. -/
abbrev Logged (State Event : Type) := State → State × List Event

namespace Logged

variable {State Event : Type} {Allowed : Event → Prop} {condition : State → Bool}
  {Pre Mid Post : State → List Event → Prop} {first second : Logged State Event}

def skip : Logged State Event := fun state => (state, [])

def emit (event : State → Event) : Logged State Event := fun state => (state, [event state])

def andThen (first second : Logged State Event) : Logged State Event := fun state =>
  ((second (first state).1).1, (first state).2 ++ (second (first state).1).2)

def choose (condition : State → Bool) (first second : Logged State Event) : Logged State Event :=
  fun state => if condition state then first state else second state

/-- From a state and a log with the precondition the program leads to the postcondition. -/
def Ensures (Pre : State → List Event → Prop) (program : Logged State Event)
    (Post : State → List Event → Prop) : Prop :=
  ∀ state past, Pre state past → Post (program state).1 (past ++ (program state).2)

theorem Ensures.skip (holds : ∀ state past, Pre state past → Post state past) :
    Ensures Pre skip Post := by
  intro state past pre
  rw [Logged.skip, List.append_nil]
  exact holds state past pre

theorem Ensures.emit {event : State → Event}
    (holds : ∀ state past, Pre state past → Post state (past ++ [event state])) :
    Ensures Pre (emit event) Post :=
  holds

theorem Ensures.andThen (one : Ensures Pre first Mid) (two : Ensures Mid second Post) :
    Ensures Pre (andThen first second) Post := by
  intro state past pre
  rw [Logged.andThen, ← List.append_assoc]
  exact two _ _ (one state past pre)

theorem Ensures.choose
    (one : Ensures (fun state past => Pre state past ∧ condition state = true) first Post)
    (two : Ensures (fun state past => Pre state past ∧ condition state = false) second Post) :
    Ensures Pre (choose condition first second) Post := by
  intro state past pre
  rw [Logged.choose]
  split
  · next holds => exact one state past ⟨pre, holds⟩
  · next fails => exact two state past ⟨pre, Bool.not_eq_true _ ▸ fails⟩

theorem Ensures.mono {Pre' Post' : State → List Event → Prop} {program : Logged State Event}
    (ensures : Ensures Pre program Post) (stronger : ∀ state past, Pre' state past → Pre state past)
    (weaker : ∀ state past, Post state past → Post' state past) : Ensures Pre' program Post' :=
  fun state past pre => weaker _ _ (ensures state past (stronger state past pre))

/-- Whatever the program logs is allowed. -/
def Logs (Allowed : Event → Prop) (program : Logged State Event) : Prop :=
  ∀ state, ∀ event ∈ (program state).2, Allowed event

theorem Logs.skip : Logs Allowed (skip : Logged State Event) :=
  fun _ _ member => absurd member List.not_mem_nil

theorem Logs.andThen (one : Logs Allowed first) (two : Logs Allowed second) :
    Logs Allowed (andThen first second) :=
  fun state => List.forall_mem_append.mpr ⟨one state, two _⟩

theorem Logs.choose (one : Logs Allowed first) (two : Logs Allowed second) :
    Logs Allowed (choose condition first second) := by
  intro state
  rw [Logged.choose]
  split
  · exact one state
  · exact two state

end Logged

end StudyNotes.Library
