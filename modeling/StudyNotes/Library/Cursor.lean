/-
This file describes array code that walks an index over a list and edits the
list there. With the list split at the index, into what the walk has passed and
what it has not, reading, writing, inserting and erasing at the index act on
the head of the second part.
-/

import Mathlib.Data.List.Basic

namespace StudyNotes.Library

variable {Item : Type}

@[simp] theorem getElem?_cursor_nil (passed : List Item) :
    (passed ++ [])[passed.length]? = none := by
  simp

variable (passed rest : List Item)

@[simp] theorem getElem?_cursor (item : Item) :
    (passed ++ item :: rest)[passed.length]? = some item := by
  rw [List.getElem?_append_right (Nat.le_refl _), Nat.sub_self, List.getElem?_cons_zero]

@[simp] theorem getElem?_cursor_succ (item : Item) :
    (passed ++ item :: rest)[passed.length + 1]? = rest[0]? := by
  rw [List.getElem?_append_right (Nat.le_add_right _ 1), Nat.add_sub_cancel_left,
    List.getElem?_cons_succ]

@[simp] theorem insertIdx_cursor (item : Item) :
    (passed ++ rest).insertIdx passed.length item = passed ++ item :: rest := by
  induction passed with
  | nil => rfl
  | cons head passed inductionHypothesis =>
    simp only [List.cons_append, List.length_cons, List.insertIdx_succ_cons, inductionHypothesis]

@[simp] theorem set_cursor (item value : Item) :
    (passed ++ item :: rest).set passed.length value = passed ++ value :: rest := by
  rw [List.set_append_right _ _ (Nat.le_refl _), Nat.sub_self, List.set_cons_zero]

@[simp] theorem eraseIdx_cursor (item : Item) :
    (passed ++ item :: rest).eraseIdx passed.length = passed ++ rest := by
  rw [List.eraseIdx_append_of_length_le (Nat.le_refl _), Nat.sub_self, List.eraseIdx_cons_zero]

@[simp] theorem eraseIdx_cursor_succ (item next : Item) :
    (passed ++ item :: next :: rest).eraseIdx (passed.length + 1) = passed ++ item :: rest := by
  rw [List.eraseIdx_append_of_length_le (Nat.le_add_right _ 1), Nat.add_sub_cancel_left]
  rfl

/-- An index that holds an item splits the list there. -/
theorem exists_cursor {items : List Item} {index : Nat} {item : Item}
    (found : items[index]? = some item) :
    ∃ passed rest, items = passed ++ item :: rest ∧ passed.length = index := by
  obtain ⟨bound, rfl⟩ := List.getElem?_eq_some_iff.mp found
  refine ⟨items.take index, items.drop (index + 1), ?_, ?_⟩
  · rw [← List.drop_eq_getElem_cons bound, List.take_append_drop]
  · rw [List.length_take, Nat.min_eq_left (Nat.le_of_lt bound)]

end StudyNotes.Library
