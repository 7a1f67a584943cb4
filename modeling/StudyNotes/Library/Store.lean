/-
This file builds the theory of storing a list of values at a list of addresses.

The two lists are walked together, and the shorter one ends the walk. What is
stored at distinct addresses can be read back, and all other addresses keep
their values.
-/

import Mathlib.Data.List.Nodup

namespace StudyNotes.Library

open Function

variable {Address Value : Type} [DecidableEq Address]

/-- Store values at addresses, one after the other. -/
def store (memory : Address → Value) : List Address → List Value → Address → Value
  | address :: addresses, value :: values =>
    store (update memory address value) addresses values
  | _, _ => memory

variable {addresses : List Address} {address : Address} (memory : Address → Value)

theorem store_outside (values : List Value) (outside : address ∉ addresses) :
    store memory addresses values address = memory address := by
  induction addresses generalizing memory values with
  | nil => rfl
  | cons first rest inductionHypothesis =>
    have differs := List.ne_of_not_mem_cons outside
    have outsideRest := List.not_mem_of_not_mem_cons outside
    cases values with
    | nil => rfl
    | cons value values =>
      rw [store, inductionHypothesis _ values outsideRest, update_of_ne differs]

/-- What is at an address after storing depends on what was there before, and on nothing else. -/
theorem store_congr {memory memory' : Address → Value}
    (same : memory address = memory' address) (addresses : List Address) (values : List Value) :
    store memory addresses values address = store memory' addresses values address := by
  induction addresses generalizing memory memory' values with
  | nil => exact same
  | cons first rest inductionHypothesis =>
    cases values with
    | nil => exact same
    | cons value values =>
      refine inductionHypothesis ?_ values
      by_cases here : address = first
      · rw [here, update_self, update_self]
      · rw [update_of_ne here, update_of_ne here, same]

variable {values : List Value}

/-- At an address that is written it does not matter what was there before. -/
theorem store_inside (memory memory' : Address → Value)
    (inside : address ∈ addresses.take values.length) :
    store memory addresses values address = store memory' addresses values address := by
  induction addresses generalizing memory memory' values with
  | nil => simp at inside
  | cons first rest inductionHypothesis =>
    cases values with
    | nil => simp at inside
    | cons value values =>
      by_cases here : address = first
      · refine store_congr ?_ rest values
        rw [here, update_self, update_self]
      · rw [List.length_cons, List.take_succ_cons, List.mem_cons] at inside
        exact inductionHypothesis _ _ (inside.resolve_left here)

/-- Addresses that are not written keep their values. -/
theorem map_store_outside {others : List Address} (values : List Value)
    (apart : ∀ address ∈ others, address ∉ addresses) :
    others.map (store memory addresses values) = others.map memory :=
  List.map_congr_left fun address member => store_outside memory values (apart address member)

/-- What is stored at distinct addresses is read back, as far as there are addresses for it. -/
theorem map_take_store (values : List Value) (nodup : addresses.Nodup) {count : Nat}
    (isCount : min values.length addresses.length = count) :
    (addresses.take count).map (store memory addresses values) = values.take count := by
  induction addresses generalizing memory values count with
  | nil =>
    obtain rfl : count = 0 := by rw [← isCount, List.length_nil, Nat.min_zero]
    rfl
  | cons first rest inductionHypothesis =>
    obtain ⟨fresh, nodupRest⟩ := List.nodup_cons.mp nodup
    cases values with
    | nil =>
      obtain rfl : count = 0 := by rw [← isCount, List.length_nil, Nat.zero_min]
      rfl
    | cons value values =>
      obtain rfl : min values.length rest.length + 1 = count := by
        rw [← isCount, List.length_cons, List.length_cons, Nat.add_min_add_right]
      rw [List.take_succ_cons, List.take_succ_cons, List.map_cons, store,
        inductionHypothesis _ values nodupRest rfl, store_outside _ _ fresh, update_self]

/-- Storing as many values as there are addresses replaces one part of a list. -/
theorem map_store_middle {front field others : List Address}
    (nodup : (front ++ (field ++ others)).Nodup) (sameLength : field.length = values.length) :
    (front ++ (field ++ others)).map (store memory field values) =
      front.map memory ++ (values ++ others.map memory) := by
  obtain ⟨-, nodupRest, apart⟩ := List.nodup_append.mp nodup
  obtain ⟨nodupField, -, apartOthers⟩ := List.nodup_append.mp nodupRest
  have isCount : min values.length field.length = field.length := by omega
  have stored := map_take_store memory values nodupField isCount
  rw [List.take_length, sameLength, List.take_length] at stored
  rw [List.map_append, List.map_append, stored,
    map_store_outside memory values fun address member inside =>
      apart address member address (List.mem_append_left _ inside) rfl,
    map_store_outside memory values fun address member inside =>
      apartOthers address inside address member rfl]

end StudyNotes.Library
