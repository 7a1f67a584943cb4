/-
This file builds the theory of data that is kept in pieces, as in a vector of
buffers. A part of the data is copied as a vector of its own, whose pieces share
the buffers, and the copy may have room for only so many pieces.

No piece of a copy is empty. So what a copy without enough room leaves out is
never empty either, and the data is complete exactly if there was enough room.
-/

import Mathlib.Algebra.BigOperators.Group.List.Basic

namespace StudyNotes.Library

variable {Element : Type} {vector : List (List Element)} {count : Nat}

/-- The pieces of the `count` elements behind the first `offset` ones. -/
def pieces : List (List Element) → Nat → Nat → List (List Element)
  | [], _, _ => []
  | entry :: rest, offset, count =>
    if count = 0 then []
    else if entry.length ≤ offset then pieces rest (offset - entry.length) count
    else (entry.drop offset).take count :: pieces rest 0 (count - (entry.length - offset))

/-- The same, into a vector with room for `room` pieces. -/
def copyPieces : Nat → List (List Element) → Nat → Nat → List (List Element)
  | _, [], _, _ => []
  | room, entry :: rest, offset, count =>
    if room = 0 ∨ count = 0 then []
    else if entry.length ≤ offset then copyPieces room rest (offset - entry.length) count
    else
      (entry.drop offset).take count ::
        copyPieces (room - 1) rest 0 (count - (entry.length - offset))

theorem copyPieces_eq (room : Nat) (vector : List (List Element)) (offset count : Nat) :
    copyPieces room vector offset count = (pieces vector offset count).take room := by
  induction vector generalizing room offset count with
  | nil => simp [copyPieces, pieces]
  | cons entry rest inductionHypothesis =>
    rw [copyPieces, pieces]
    by_cases nothing : count = 0
    · simp [nothing]
    by_cases full : room = 0
    · simp [full]
    rw [if_neg (not_or.mpr ⟨full, nothing⟩), if_neg nothing]
    split
    · exact inductionHypothesis room _ _
    · obtain ⟨less, rfl⟩ := Nat.exists_eq_succ_of_ne_zero full
      rw [inductionHypothesis, Nat.succ_eq_add_one, Nat.add_sub_cancel, List.take_succ_cons]

theorem flatten_pieces (vector : List (List Element)) (offset count : Nat) :
    (pieces vector offset count).flatten = (vector.flatten.drop offset).take count := by
  induction vector generalizing offset count with
  | nil => simp [pieces]
  | cons entry rest inductionHypothesis =>
    rw [pieces, List.flatten_cons, List.drop_append]
    split
    · next nothing => simp [nothing]
    split
    · next skipped =>
      rw [inductionHypothesis, List.drop_eq_nil_of_le skipped, List.nil_append]
    · next used =>
      have reached : offset - entry.length = 0 := by omega
      rw [List.flatten_cons, inductionHypothesis, reached, List.take_append, List.length_drop]

theorem pieces_ne_nil {offset : Nat} {piece : List Element}
    (member : piece ∈ pieces vector offset count) : piece ≠ [] := by
  induction vector generalizing offset count with
  | nil => exact absurd member List.not_mem_nil
  | cons entry rest inductionHypothesis =>
    rw [pieces] at member
    split at member
    · exact absurd member List.not_mem_nil
    split at member
    · exact inductionHypothesis member
    · next more used =>
      rcases List.mem_cons.mp member with rfl | later
      · rw [← List.length_pos_iff, List.length_take, List.length_drop]
        omega
      · exact inductionHypothesis later

section

variable (notEmpty : ∀ piece ∈ vector, piece ≠ [])
include notEmpty

/-- There are no more pieces than elements in them. -/
theorem length_le_flatten : vector.length ≤ vector.flatten.length := by
  rw [List.length_flatten, ← List.length_map List.length]
  refine List.length_le_sum_of_one_le _ (List.forall_mem_map.mpr fun piece member => ?_)
  exact List.length_pos_iff.mpr (notEmpty piece member)

/-- A vector that lost pieces has lost data. -/
theorem flatten_take_eq_iff (room : Nat) :
    (vector.take room).flatten = vector.flatten ↔ vector.length ≤ room := by
  constructor
  · intro same
    have split := congrArg List.flatten (List.take_append_drop room vector)
    rw [List.flatten_append, same, List.append_right_eq_self, List.flatten_eq_nil_iff] at split
    refine List.drop_eq_nil_iff.mp (List.eq_nil_iff_forall_not_mem.mpr fun piece member => ?_)
    exact notEmpty piece (List.mem_of_mem_drop member) (split piece member)
  · intro fits
    rw [List.take_of_length_le fits]

/-- A copy of everything, if no piece is empty, is the vector itself. -/
theorem pieces_all (enough : vector.flatten.length ≤ count) : pieces vector 0 count = vector := by
  induction vector generalizing count with
  | nil => rfl
  | cons piece rest inductionHypothesis =>
    have pos := List.length_pos_iff.mpr (notEmpty piece List.mem_cons_self)
    rw [List.flatten_cons, List.length_append] at enough
    rw [pieces, if_neg (by omega), if_neg (by omega), List.drop_zero,
      List.take_of_length_le (by omega), inductionHypothesis _ (by omega)]
    exact fun other member => notEmpty other (List.mem_cons_of_mem piece member)

end

end StudyNotes.Library
