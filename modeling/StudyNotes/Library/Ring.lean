/-
This file builds the theory of rings that hold the last entries of a log.

An entry of the log is in the ring at its number modulo the size, possibly in a form
that depends on its number. Writing one more entry overwrites the one that is a whole
ring older, and no other.
-/

import Mathlib.Data.List.Basic

namespace StudyNotes.Library

variable {Entry Cell : Type}

/-- The last `size` entries of a log are in the ring, from `offset` on. -/
def InRing (size offset : Nat) (view : Nat → Entry → Cell) (ring : Nat → Cell)
    (log : List Entry) : Prop :=
  ∀ number entry, log[number]? = some entry → log.length ≤ number + size →
    ring ((offset + number) % size) = view number entry

/-- Two numbers that are less than a ring apart have different places. -/
theorem mod_ne_of_near {size low high : Nat} (below : low < high) (near : high < low + size) :
    low % size ≠ high % size := by
  intro same
  have divides : size ∣ high - low :=
    Nat.dvd_of_mod_eq_zero (Nat.sub_mod_eq_zero_of_mod_eq same.symm)
  have atLeast := Nat.le_of_dvd (by omega) divides
  omega

theorem InRing.push {size offset : Nat} {view : Nat → Entry → Cell} {ring : Nat → Cell}
    {log : List Entry} (inRing : InRing size offset view ring log) (entry : Entry) :
    InRing size offset view
      (Function.update ring ((offset + log.length) % size) (view log.length entry))
      (log ++ [entry]) := by
  intro number other isOther recent
  rw [List.length_append, List.length_singleton] at recent
  rcases Nat.lt_trichotomy number log.length with earlier | same | later
  · rw [List.getElem?_append_left earlier] at isOther
    rw [Function.update_of_ne (mod_ne_of_near (by omega) (by omega))]
    exact inRing number other isOther (by omega)
  · subst same
    rw [List.getElem?_concat_length] at isOther
    rw [Function.update_self, Option.some.inj isOther]
  · rw [List.getElem?_eq_none (by simp; omega)] at isOther
    cases isOther

end StudyNotes.Library
