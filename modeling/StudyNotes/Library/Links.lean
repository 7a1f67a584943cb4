/-
This file builds the theory of lists that are linked by a function from every
element to the next one.

A list of a known length needs no mark at its end, so what lies after the last
element may be anything. Two functions that agree on the elements give the same
list and the same end, and lists are joined by making one end at the start of
another.
-/

import Mathlib.Data.List.Iterate
import Mathlib.Data.List.Perm.Basic

namespace StudyNotes.Library

variable {α : Type}

section

variable (next : α → α) (start : α)

theorem iterate_succ_last (count : Nat) :
    List.iterate next start (count + 1) =
      List.iterate next start count ++ [next^[count] start] :=
  List.iterate_add next start count 1

theorem mem_iterate_of_lt {count index : Nat} (within : index < count) :
    next^[index] start ∈ List.iterate next start count :=
  List.mem_iterate.mpr ⟨index, within, rfl⟩

end

/-- What is linked does not depend on the links of other elements. -/
theorem iterate_congr {next next' : α → α} {start : α} {count : Nat}
    (agree : ∀ x ∈ List.iterate next start count, next' x = next x) :
    List.iterate next' start count = List.iterate next start count ∧
      next'^[count] start = next^[count] start := by
  induction count generalizing start with
  | zero => exact ⟨rfl, rfl⟩
  | succ count inductionHypothesis =>
    have first : next' start = next start := agree start List.mem_cons_self
    have agreeRest : ∀ x ∈ List.iterate next (next start) count, next' x = next x :=
      fun x member => agree x (List.mem_cons_of_mem start member)
    obtain ⟨sameList, sameEnd⟩ := inductionHypothesis agreeRest
    simp only [List.iterate, Function.iterate_succ_apply, first, sameList, sameEnd, and_self]

/-- Links from every number to the one above it give an interval. -/
theorem iterate_consecutive {next : Nat → Nat} {start count : Nat}
    (links : ∀ i, start ≤ i → i + 1 < start + count → next i = i + 1) :
    List.iterate next start count = List.range' start count := by
  induction count generalizing start with
  | zero => rfl
  | succ count inductionHypothesis =>
    cases count with
    | zero => rfl
    | succ count =>
      have first : next start = start + 1 := links start (Nat.le_refl start) (by omega)
      rw [List.range'_succ, List.iterate, first, inductionHypothesis]
      intro i above below
      exact links i (by omega) (by omega)

end StudyNotes.Library
