/-
This file builds the theory of loops whose number of turns is not known.

A turn goes on with a new state or is done. The loop runs for as many turns as
its fuel allows and has no result when the fuel ends first; it returns when
some fuel gives it a result. A measure that falls at every turn makes a loop
return, and a state that leads back to itself keeps it from returning.
-/

import Mathlib.Logic.Relation

namespace StudyNotes.Library

/-- What one turn of a loop does. -/
inductive Turn (State Result : Type) where
  | again (state : State)
  | done (result : Result)

variable {State Result : Type} {state : State} {result : Result}
  {body : State → Option (Turn State Result)}

/-- Run a loop for at most `fuel` turns. A turn without a value never ends itself. -/
def loop (body : State → Option (Turn State Result)) : Nat → State → Option Result
  | 0, _ => none
  | fuel + 1, state =>
    match body state with
    | none => none
    | some (.again next) => loop body fuel next
    | some (.done result) => some result

theorem loop_again {state next : State} (turn : body state = some (.again next)) (fuel : Nat) :
    loop body (fuel + 1) state = loop body fuel next := by
  rw [loop, turn]

theorem loop_done (turn : body state = some (.done result))
    (fuel : Nat) : loop body (fuel + 1) state = some result := by
  rw [loop, turn]

variable (Invariant : State → Prop) {fuel : Nat}

/-- A loop whose turns keep the invariant and make the measure fall returns. -/
theorem loop_returns (Answer : Result → Prop) (measure : State → Nat)
    (turns : ∀ state, Invariant state →
      (∃ next, body state = some (.again next) ∧ Invariant next ∧ measure next < measure state) ∨
      ∃ result, body state = some (.done result) ∧ Answer result) (holds : Invariant state)
    (enough : measure state < fuel) :
    ∃ result, loop body fuel state = some result ∧ Answer result := by
  induction fuel generalizing state with
  | zero => exact absurd enough (Nat.not_lt_zero _)
  | succ fuel inductionHypothesis =>
    rcases turns state holds with ⟨next, turn, kept, falls⟩ | ⟨result, turn, answer⟩
    · rw [loop_again turn]
      exact inductionHypothesis kept (by omega)
    · exact ⟨result, loop_done turn fuel, answer⟩

/-- A result of the loop is the result of some turn that the invariant reaches. -/
theorem loop_invariant (Answer : Result → Prop)
    (goesOn : ∀ state next, Invariant state → body state = some (.again next) → Invariant next)
    (ends : ∀ state result, Invariant state → body state = some (.done result) → Answer result)
    (holds : Invariant state) (returned : loop body fuel state = some result) : Answer result := by
  induction fuel generalizing state with
  | zero => cases returned
  | succ fuel inductionHypothesis =>
    rw [loop] at returned
    split at returned
    · cases returned
    · next next turn => exact inductionHypothesis (goesOn state next holds turn) returned
    · next last turn =>
      cases returned
      exact ends state _ holds turn

/-! ### Loops that return -/

/-- Some fuel is enough for the loop. -/
def Returns (body : State → Option (Turn State Result)) (state : State) : Prop :=
  ∃ fuel result, loop body fuel state = some result

/-- One turn leads from a state to the next. -/
def GoesTo (body : State → Option (Turn State Result)) (state next : State) : Prop :=
  body state = some (.again next)

theorem returns_of_done (turn : body state = some (.done result)) : Returns body state:=
  ⟨1, result, loop_done turn 0⟩

theorem GoesTo.returns_iff {state next : State} (goes : GoesTo body state next) :
    Returns body state ↔ Returns body next := by
  constructor
  · rintro ⟨fuel, result, returned⟩
    cases fuel with
    | zero => cases returned
    | succ fuel => exact ⟨fuel, result, (loop_again goes fuel).symm.trans returned⟩
  · rintro ⟨fuel, result, returned⟩
    exact ⟨fuel + 1, result, (loop_again goes fuel).trans returned⟩

/-- The loop returns what the last turn of a run of turns returns. -/
theorem loop_of_done {state last : State} (steps : Relation.ReflTransGen (GoesTo body) state last)
    (turn : body last = some (.done result)) : ∃ fuel, loop body fuel state = some result := by
  induction steps using Relation.ReflTransGen.head_induction_on with
  | refl => exact ⟨1, loop_done turn 0⟩
  | head goes _ inductionHypothesis =>
    obtain ⟨fuel, returned⟩ := inductionHypothesis
    exact ⟨fuel + 1, (loop_again goes fuel).trans returned⟩

/-- A loop that never leaves the states of an invariant does not return. -/
theorem not_returns_of_invariant
    (goesOn : ∀ state, Invariant state → ∃ next, GoesTo body state next ∧ Invariant next)
    (holds : Invariant state) : ¬ Returns body state := by
  rintro ⟨fuel, result, returned⟩
  induction fuel generalizing state with
  | zero => cases returned
  | succ fuel inductionHypothesis =>
    obtain ⟨next, goes, kept⟩ := goesOn state holds
    exact inductionHypothesis kept ((loop_again goes fuel).symm.trans returned)

/-- A state that leads back to itself keeps the loop going for ever. -/
theorem not_returns_of_cycle
    (cycle : Relation.TransGen (GoesTo body) state state) : ¬ Returns body state := by
  refine not_returns_of_invariant (fun state => Relation.TransGen (GoesTo body) state state)
    (fun state cycle => ?_) cycle
  obtain ⟨next, goes, back⟩ := Relation.TransGen.head'_iff.mp cycle
  exact ⟨next, goes, .tail' back goes⟩

/-- The result does not depend on the fuel. -/
theorem loop_unique {fuel' : Nat} {result' : Result} (returned : loop body fuel state = some result)
    (returned' : loop body fuel' state = some result') : result = result' := by
  induction fuel generalizing fuel' state with
  | zero => cases returned
  | succ fuel inductionHypothesis =>
    cases fuel' with
    | zero => cases returned'
    | succ fuel' =>
      rw [loop] at returned returned'
      split at returned
      · cases returned
      · next next turn =>
        rw [turn] at returned'
        exact inductionHypothesis returned returned'
      · next last turn =>
        rw [turn] at returned'
        exact Option.some.inj (returned.symm.trans returned')

end StudyNotes.Library
