/-
This file builds the theory of objects that are created, used and freed.

A cell of the heap counts how often it was freed. Using or freeing a cell that
is not there any more is recorded and changes nothing else, so a program can go
on after it. Who holds the cells is up to the program: the invariant says that
every holder has a live cell of its own and that no live cell is lost.
-/

import Mathlib.Data.List.Basic

namespace StudyNotes.Library

open Function

/-- The cells below `next` exist. -/
structure Heap (Object Use : Type) where
  next : Nat
  object : Nat → Object
  frees : Nat → Nat
  misuses : List (Use × Option Nat)

namespace Heap

variable {Object Use Holder : Type} {pointer pointer' : Holder → Option Nat}
  {Holds Holds' : Holder → Prop}

def empty [Inhabited Object] : Heap Object Use where
  next := 0
  object := fun _ => default
  frees := fun _ => 0
  misuses := []

variable (heap : Heap Object Use)

/-- The cell exists and was not freed. -/
def Live (address : Nat) : Prop :=
  address < heap.next ∧ heap.frees address = 0

instance (heap : Heap Object Use) (address : Nat) : Decidable (heap.Live address) :=
  inferInstanceAs (Decidable (_ ∧ _))

/-- A new cell. Its address is the old value of `next`. -/
def alloc (object : Object) : Heap Object Use where
  next := heap.next + 1
  object := update heap.object heap.next object
  frees := update heap.frees heap.next 0
  misuses := heap.misuses

def misuse (use : Use) (pointer : Option Nat) : Heap Object Use :=
  { heap with misuses := heap.misuses ++ [(use, pointer)] }

/-- Change the object that a pointer leads to. -/
def use (heap : Heap Object Use) (use : Use) (change : Object → Object) :
    Option Nat → Heap Object Use
  | none => heap.misuse use none
  | some address =>
    if heap.Live address then
      { heap with
        object := update heap.object address (change (heap.object address)) }
    else heap.misuse use (some address)

/-- Free the object that a pointer leads to. -/
def free (use : Use) : Option Nat → Heap Object Use
  | none => heap.misuse use none
  | some address =>
    if heap.Live address then
      { heap with frees := update heap.frees address 1 }
    else
      { heap.misuse use (some address) with
        frees := update heap.frees address (heap.frees address + 1) }

variable {heap} {address other : Nat} (operation : Use)

section

variable (change : Object → Object)
include change

@[simp] theorem use_next (pointer : Option Nat) :
    (heap.use operation change pointer).next = heap.next := by
  cases pointer with
  | none => rfl
  | some address =>
    rw [use]
    split <;> rfl

@[simp] theorem use_frees (pointer : Option Nat) :
    (heap.use operation change pointer).frees = heap.frees := by
  cases pointer with
  | none => rfl
  | some address =>
    rw [use]
    split <;> rfl

@[simp] theorem live_use (pointer : Option Nat) :
    (heap.use operation change pointer).Live address ↔ heap.Live address := by
  simp [Live]

theorem use_object (pointer : Option Nat) (address : Nat) :
    (heap.use operation change pointer).object address = heap.object address ∨
      (heap.use operation change pointer).object address = change (heap.object address) := by
  cases pointer with
  | none => exact .inl rfl
  | some target =>
    rw [use]
    split
    · by_cases same : address = target
      · exact .inr (by simp [same])
      · exact .inl (update_of_ne same ..)
    · exact .inl rfl

theorem use_misuses (live : heap.Live address) :
    (heap.use operation change (some address)).misuses = heap.misuses := by
  rw [use, if_pos live]

end

theorem alloc_object (object : Object) :
    (heap.alloc object).object = update heap.object heap.next object := rfl

theorem live_alloc (object : Object) :
    (heap.alloc object).Live address ↔ heap.Live address ∨ address = heap.next := by
  by_cases isNew : address = heap.next
  · simp [Live, alloc, isNew]
  · have same : address < heap.next + 1 ↔ address < heap.next := by omega
    simp [Live, alloc, isNew, same]

@[simp] theorem free_next (pointer : Option Nat) :
    (heap.free operation pointer).next = heap.next := by
  cases pointer with
  | none => rfl
  | some address =>
    rw [free]
    split <;> rfl

@[simp] theorem free_object (pointer : Option Nat) :
    (heap.free operation pointer).object = heap.object := by
  cases pointer with
  | none => rfl
  | some address =>
    rw [free]
    split <;> rfl

theorem live_free (live : heap.Live address) :
    (heap.free operation (some address)).Live other ↔ heap.Live other ∧ other ≠ address := by
  rw [free, if_pos live]
  by_cases same : other = address
  · simp [Live, same]
  · simp [Live, same]

/-! ### Holders -/

/--
Every holder has a live cell of its own, every live cell has a holder, and no
cell was freed more than once.
-/
structure Held (heap : Heap Object Use) (pointer : Holder → Option Nat) (Holds : Holder → Prop) :
    Prop where
  live : ∀ holder, Holds holder → ∃ address, pointer holder = some address ∧ heap.Live address
  apart : ∀ holder other, Holds holder → Holds other → pointer holder = pointer other →
    holder = other
  covered : ∀ address, heap.Live address → ∃ holder, Holds holder ∧ pointer holder = some address
  once : ∀ address < heap.next, heap.frees address ≤ 1

theorem held_empty [Inhabited Object] (nobody : ∀ holder, ¬Holds holder) :
    (empty : Heap Object Use).Held pointer Holds where
  live holder holds := absurd holds (nobody holder)
  apart holder _ holds := absurd holds (nobody holder)
  covered _ live := absurd live.1 (Nat.not_lt_zero _)
  once _ inside := absurd inside (Nat.not_lt_zero _)

section

variable (held : heap.Held pointer Holds)
include held

/-- Only the pointers of the holders matter. -/
theorem Held.congr (sameHolders : ∀ holder, Holds' holder ↔
    Holds holder) (samePointer : ∀ holder, Holds holder → pointer' holder = pointer holder) :
    heap.Held pointer' Holds' where
  live holder holds := by
    have holds := (sameHolders holder).mp holds
    rw [samePointer holder holds]
    exact held.live holder holds
  apart holder other holds otherHolds same := by
    have holds := (sameHolders holder).mp holds
    have otherHolds := (sameHolders other).mp otherHolds
    rw [samePointer holder holds, samePointer other otherHolds] at same
    exact held.apart holder other holds otherHolds same
  covered address live := by
    obtain ⟨holder, holds, isPointer⟩ := held.covered address live
    exact ⟨holder, (sameHolders holder).mpr holds, (samePointer holder holds).trans isPointer⟩
  once := held.once

theorem Held.use (operation : Use) (change : Object → Object)
    (target : Option Nat) : (heap.use operation change target).Held pointer Holds where
  live holder holds := by
    simp only [live_use]
    exact held.live holder holds
  apart := held.apart
  covered address live := held.covered address ((live_use operation change target).mp live)
  once := by
    rw [use_next, use_frees]
    exact held.once

variable {holder : Holder}

/-- What a holder uses is there. -/
theorem Held.use_misuses (operation : Use) (change : Object → Object) (holds : Holds holder) :
    (heap.use operation change (pointer holder)).misuses = heap.misuses := by
  obtain ⟨address, isPointer, live⟩ := held.live holder holds
  rw [isPointer]
  exact Heap.use_misuses operation change live

/-- A new cell, and one more holder for it. -/
theorem Held.alloc (object : Object) (isPointer : pointer' holder = some heap.next)
    (others : ∀ other, Holds other → pointer' other = pointer other) :
    (heap.alloc object).Held pointer' (fun other => other = holder ∨ Holds other) where
  live other holds := by
    rcases holds with rfl | holds
    · exact ⟨heap.next, isPointer, (live_alloc object).mpr (.inr rfl)⟩
    · obtain ⟨address, isOld, live⟩ := held.live other holds
      exact ⟨address, (others other holds).trans isOld, (live_alloc object).mpr (.inl live)⟩
  apart first second firstHolds secondHolds same := by
    have fresh : ∀ other, Holds other → pointer' other ≠ some heap.next := by
      intro other holds isNext
      obtain ⟨address, isOld, live⟩ := held.live other holds
      rw [others other holds, isOld] at isNext
      exact absurd live.1 (Option.some.inj isNext ▸ Nat.lt_irrefl _)
    rcases firstHolds with rfl | firstHolds <;> rcases secondHolds with rfl | secondHolds
    · rfl
    · exact absurd (same.symm.trans isPointer) (fresh second secondHolds)
    · exact absurd (same.trans isPointer) (fresh first firstHolds)
    · rw [others first firstHolds, others second secondHolds] at same
      exact held.apart first second firstHolds secondHolds same
  covered address live := by
    rcases (live_alloc object).mp live with old | rfl
    · obtain ⟨other, holds, isOld⟩ := held.covered address old
      exact ⟨other, .inr holds, (others other holds).trans isOld⟩
    · exact ⟨holder, .inl rfl, isPointer⟩
  once address inside := by
    by_cases isNew : address = heap.next
    · simp [Heap.alloc, isNew]
    · simp only [Heap.alloc, update_of_ne isNew] at inside ⊢
      exact held.once address (by omega)

/-- A holder frees its cell, which was there, and holds none from then on. -/
theorem Held.free (operation : Use) (holds : Holds holder) :
    (heap.free operation (pointer holder)).Held pointer
        (fun other => Holds other ∧ other ≠ holder) ∧
      (heap.free operation (pointer holder)).misuses = heap.misuses := by
  obtain ⟨address, isPointer, live⟩ := held.live holder holds
  rw [isPointer]
  refine ⟨⟨fun other otherHolds => ?_, fun first second firstHolds secondHolds =>
    held.apart first second firstHolds.1 secondHolds.1, fun found foundLive => ?_,
    fun found inside => ?_⟩, ?_⟩
  · obtain ⟨found, isFound, foundLive⟩ := held.live other otherHolds.1
    refine ⟨found, isFound, (live_free operation live).mpr ⟨foundLive, fun same => ?_⟩⟩
    exact otherHolds.2 (held.apart other holder otherHolds.1 holds
      (isFound.trans (same ▸ isPointer.symm)))
  · obtain ⟨stays, differs⟩ := (live_free operation live).mp foundLive
    obtain ⟨other, otherHolds, isFound⟩ := held.covered found stays
    refine ⟨other, ⟨otherHolds, fun same => differs ?_⟩, isFound⟩
    exact Option.some.inj (isFound.symm.trans (same ▸ isPointer))
  · rw [Heap.free, if_pos live] at inside ⊢
    by_cases same : found = address
    · simp [same]
    · simp only [update_of_ne same]
      exact held.once found inside
  · rw [Heap.free, if_pos live]

/-- When nobody holds a cell any more, every cell was freed exactly once. -/
theorem Held.frees_eq_one (nobody : ∀ holder, ¬Holds holder)
    (inside : address < heap.next) : heap.frees address = 1 := by
  have atMost := held.once address inside
  have notLive : heap.frees address ≠ 0 := fun never => by
    obtain ⟨holder, holds, -⟩ := held.covered address ⟨inside, never⟩
    exact nobody holder holds
  omega

end

end Heap

end StudyNotes.Library
