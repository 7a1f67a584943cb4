/-
This file gives the two rules that proofs about fallible programs use: how a
computation that succeeds continues, and how an invariant that every step keeps
carries over a whole run.
-/

import Mathlib.Data.List.Basic

namespace StudyNotes.Library

variable {Error State Value Action : Type}

@[simp] theorem ok_bind (value : State) (next : State → Except Error Value) :
    (Except.ok value >>= next) = next value := rfl

@[simp] theorem error_bind (error : Error) (next : State → Except Error Value) :
    ((Except.error error : Except Error State) >>= next) = .error error := rfl

/-- When every step succeeds from the invariant and keeps it, so does every run. -/
theorem foldlM_invariant (step : State → Action → Except Error State) (Invariant : State → Prop)
    (keeps : ∀ state action, Invariant state →
      ∃ next, step state action = .ok next ∧ Invariant next)
    (actions : List Action) (state : State) (holds : Invariant state) :
    ∃ final, actions.foldlM step state = .ok final ∧ Invariant final := by
  induction actions generalizing state with
  | nil => exact ⟨state, rfl, holds⟩
  | cons action rest inductionHypothesis =>
    obtain ⟨next, result, kept⟩ := keeps state action holds
    obtain ⟨final, run, invariant⟩ := inductionHypothesis next kept
    exact ⟨final, by rw [List.foldlM_cons, result, ok_bind, run], invariant⟩

end StudyNotes.Library
