/-
This file builds the theory of lists that are threaded through a memory: every
element names the one after it, and a head names the first.

Appending an element changes what the last element names and nothing else, so
a threaded list grows by one write.
-/

import Mathlib.Data.List.Nodup

namespace StudyNotes.Library

variable {α : Type} {xs : List α} {x : α}

/-- Following `next` from a start gives the elements of a list, in order. -/
def Threaded (next : α → Option α) : Option α → List α → Prop
  | start, [] => start = none
  | start, x :: rest => start = some x ∧ Threaded next (next x) rest

variable [DecidableEq α]

/-- The element after another one in a list. -/
def successor (x : α) : List α → Option α
  | [] => none
  | y :: rest => if y = x then rest.head? else successor x rest

theorem successor_middle (fresh : x ∉ xs) (later : List α) :
    successor x (xs ++ x :: later) = later.head? := by
  induction xs with
  | nil => simp [successor]
  | cons y rest inductionHypothesis =>
    have differs := List.ne_of_not_mem_cons fresh
    rw [List.cons_append, successor, if_neg differs.symm,
      inductionHypothesis (List.not_mem_of_not_mem_cons fresh)]

/-- Nothing comes after the last element. -/
theorem successor_append_self (fresh : x ∉ xs) : successor x (xs ++ [x]) = none :=
  successor_middle fresh []

theorem successor_of_getLast (nodup : xs.Nodup) (last : xs.getLast? = some x) :
    successor x xs = none := by
  obtain ⟨front, rfl⟩ := List.getLast?_eq_some_iff.mp last
  refine successor_append_self fun inside => ?_
  exact (List.nodup_append.mp nodup).2.2 x inside x List.mem_cons_self rfl

/-- Appending an element changes what comes after the last one. -/
theorem successor_append {y : α} (nodup : xs.Nodup) (member : x ∈ xs) :
    successor x (xs ++ [y]) = if xs.getLast? = some x then some y else successor x xs := by
  obtain ⟨front, later, rfl⟩ := List.append_of_mem member
  obtain ⟨-, nodupRest, apart⟩ := List.nodup_append.mp nodup
  have fresh : x ∉ front := fun inside => apart x inside x List.mem_cons_self rfl
  rw [List.append_assoc, List.cons_append, successor_middle fresh, successor_middle fresh]
  rcases List.eq_nil_or_concat' later with rfl | ⟨middle, last, rfl⟩
  · simp
  · have differs : last ≠ x := fun same => (List.nodup_cons.mp nodupRest).1 (by simp [same])
    rw [← List.cons_append, ← List.append_assoc, List.getLast?_concat, if_neg (by simpa),
      List.head?_append_of_ne_nil _ (by simp)]

/-- A list is threaded when every element names its successor. -/
theorem threaded_of_successor {next : α → Option α} (nodup : xs.Nodup)
    (named : ∀ x ∈ xs, next x = successor x xs) : Threaded next xs.head? xs := by
  induction xs with
  | nil => rfl
  | cons y rest inductionHypothesis =>
    obtain ⟨outside, nodupRest⟩ := List.nodup_cons.mp nodup
    have first : next y = rest.head? := by simp [named y List.mem_cons_self, successor]
    refine ⟨rfl, ?_⟩
    rw [first]
    refine inductionHypothesis nodupRest fun x member => ?_
    have differs : y ≠ x := fun same => outside (same ▸ member)
    rw [named x (List.mem_cons_of_mem y member), successor, if_neg differs]

end StudyNotes.Library
