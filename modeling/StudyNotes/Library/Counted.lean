/-
This file has the rules for loops that count upwards. The invariant speaks about
the number that the next turn is for.
-/

import Mathlib.Data.List.Basic

namespace StudyNotes.Library

variable {State : Type} {first count : Nat}

/-- What every turn keeps holds at the end, for the number behind the last one. -/
theorem foldl_range'_invariant (Invariant : Nat → State → Prop) {body : State → Nat → State}
    {state : State} (holds : Invariant first state)
    (keeps : ∀ i state, first ≤ i → i < first + count → Invariant i state →
      Invariant (i + 1) (body state i)) :
    Invariant (first + count) ((List.range' first count).foldl body state) := by
  induction count generalizing first state with
  | zero => exact holds
  | succ count inductionHypothesis =>
    rw [List.range'_succ, List.foldl_cons, ← Nat.add_assoc, Nat.add_right_comm]
    refine inductionHypothesis (keeps first state (Nat.le_refl _) (by omega) holds) ?_
    intro i state atLeast less
    exact keeps i state (by omega) (by omega)

/-- A loop in steps of two over the numbers of pairs. -/
theorem range'_two (first count : Nat) :
    List.range' (2 * first) count 2 = (List.range' first count).map (2 * ·) := by
  induction count generalizing first with
  | zero => rfl
  | succ count inductionHypothesis =>
    rw [List.range'_succ, List.range'_succ, List.map_cons, ← inductionHypothesis (first + 1),
      Nat.mul_succ]

/-- How far a test holds from the start on. -/
theorem length_takeWhile_range {test : Nat → Bool} (inside : first ≤ count)
    (before : ∀ i < first, test i = true) (fails : first < count → test first = false) :
    ((List.range count).takeWhile test).length = first := by
  obtain ⟨others, rfl⟩ := Nat.exists_eq_add_of_le inside
  rw [List.range_add, List.takeWhile_append_of_pos fun i member =>
    before i (List.mem_range.mp member)]
  cases others with
  | zero => simp
  | succ others =>
    have stops : ¬test (first + 0) = true := by
      rw [Nat.add_zero, fails (by omega)]
      exact Bool.false_ne_true
    rw [List.range_succ_eq_map (n := others), List.map_cons, List.takeWhile_cons_of_neg stops]
    simp

end StudyNotes.Library
