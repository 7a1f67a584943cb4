/-
This file proves that the controllers of a vhost target are spread evenly over the cores.
-/

import Mathlib.Logic.Function.Iterate

namespace StudyNotes.Vhost

open Function

/-- `INT_MAX`. -/
def intMax : Nat := 0x7fffffff

/-- The cores of `SPDK_ENV_FOREACH_CORE` and a mask. -/
structure CoreMask where
  cores : List Nat
  cpumask : Nat → Bool

/-- An available core of the mask. -/
def CoreMask.Has (mask : CoreMask) (core : Nat) : Prop :=
  core ∈ mask.cores ∧ mask.cpumask core = true

/-- A turn of the search for a core: the one selected so far, and `min_ctrlrs`. -/
def selectTurn (cpumask : Nat → Bool) (numCtrlrs : Nat → Nat) (found : Nat × Nat) (i : Nat) :
    Nat × Nat :=
  if cpumask i = true ∧ numCtrlrs i < found.2 then (i, numCtrlrs i) else found

/-- `spdk_vhost_allocate_reactor`, with the counts that it leaves. -/
def allocateReactor (mask : CoreMask) (numCtrlrs : Nat → Nat) : Nat × (Nat → Nat) :=
  let start := (mask.cores.headD 0xffffffff, intMax)
  let selectedCore := (mask.cores.foldl (selectTurn mask.cpumask numCtrlrs) start).1
  (selectedCore, update numCtrlrs selectedCore (numCtrlrs selectedCore + 1))

/-- The counts after a number of calls. -/
def countsAfter (mask : CoreMask) (numCtrlrs : Nat → Nat) (calls : Nat) : Nat → Nat :=
  (fun numCtrlrs => (allocateReactor mask numCtrlrs).2)^[calls] numCtrlrs

variable {mask : CoreMask} {numCtrlrs : Nat → Nat}

/-- The search keeps what it has found unless a core of the mask has fewer controllers. -/
theorem foldl_selectTurn {cores : List Nat} {cpumask : Nat → Bool} {found last : Nat × Nat}
    (isLast : cores.foldl (selectTurn cpumask numCtrlrs) found = last) :
    (last = found ∨ CoreMask.Has ⟨cores, cpumask⟩ last.1 ∧ numCtrlrs last.1 = last.2) ∧
      last.2 ≤ found.2 ∧ ∀ core, CoreMask.Has ⟨cores, cpumask⟩ core → last.2 ≤ numCtrlrs core := by
  induction cores generalizing found with
  | nil =>
    cases isLast
    exact ⟨.inl rfl, Nat.le_refl _, fun core has => by cases has.1⟩
  | cons i rest inductionHypothesis =>
    obtain ⟨selected, le, least⟩ := inductionHypothesis isLast
    by_cases fewer : cpumask i = true ∧ numCtrlrs i < found.2
    · rw [selectTurn, if_pos fewer] at selected le
      grind [CoreMask.Has]
    · rw [selectTurn, if_neg fewer] at selected le
      grind [CoreMask.Has]

theorem allocateReactor_least (available : ∃ core, mask.Has core)
    (below : ∀ core, mask.Has core → numCtrlrs core < intMax) :
    mask.Has (allocateReactor mask numCtrlrs).1 ∧
      ∀ core, mask.Has core → numCtrlrs (allocateReactor mask numCtrlrs).1 ≤ numCtrlrs core := by
  obtain ⟨core, has⟩ := available
  simp only [allocateReactor]
  generalize isLast : mask.cores.foldl _ _ = last
  obtain ⟨selected, -, least⟩ := foldl_selectTurn isLast
  have few := Nat.lt_of_le_of_lt (least core has) (below core has)
  rcases selected with rfl | ⟨isCore, isMin⟩
  · exact absurd few (Nat.lt_irrefl _)
  · exact ⟨isCore, fun core has => isMin ▸ least core has⟩

theorem countsAfter_succ (calls : Nat) :
    let counts := countsAfter mask numCtrlrs calls
    let chosen := (allocateReactor mask counts).1
    countsAfter mask numCtrlrs (calls + 1) = update counts chosen (counts chosen + 1) :=
  iterate_succ_apply' ..

/--
Calls with a mask that has an available core choose a core of the mask with the fewest
controllers, as long as the counts are below `INT_MAX`, and add one to the count of this core
only. From equal counts on they differ by at most one, and those of other cores stay as they are.
-/
theorem countsAfter_balanced (available : ∃ core, mask.Has core)
    (equal : ∀ core other, mask.Has core → mask.Has other → numCtrlrs core = numCtrlrs other)
    (calls : Nat) (below : ∀ earlier < calls, ∀ core, mask.Has core →
      countsAfter mask numCtrlrs earlier core < intMax) :
    (∀ earlier < calls, let counts := countsAfter mask numCtrlrs earlier
      let chosen := (allocateReactor mask counts).1
      (mask.Has chosen ∧ ∀ core, mask.Has core → counts chosen ≤ counts core) ∧
        countsAfter mask numCtrlrs (earlier + 1) =
          update counts chosen (counts chosen + 1)) ∧
    (∀ core other, mask.Has core → mask.Has other →
      countsAfter mask numCtrlrs calls core ≤ countsAfter mask numCtrlrs calls other + 1) ∧
    ∀ core, ¬ mask.Has core → countsAfter mask numCtrlrs calls core = numCtrlrs core := by
  refine ⟨fun earlier less => ⟨allocateReactor_least available (below earlier less),
    countsAfter_succ earlier⟩, ?_⟩
  induction calls with
  | zero =>
    refine ⟨fun core other has hasOther => ?_, fun _ _ => rfl⟩
    exact Nat.le_succ_of_le (Nat.le_of_eq (equal core other has hasOther))
  | succ calls inductionHypothesis =>
    obtain ⟨balanced, others⟩ := inductionHypothesis fun earlier less => below earlier (by omega)
    obtain ⟨isCore, least⟩ := allocateReactor_least available (below calls (by omega))
    rw [countsAfter_succ]
    generalize countsAfter mask numCtrlrs calls = counts at *
    generalize (allocateReactor mask counts).1 = chosen at *
    refine ⟨fun core other has hasOther => ?_, fun core hasNot => ?_⟩
    · have := balanced core other has hasOther
      have := balanced core chosen has isCore
      have := least other hasOther
      simp only [update_apply]
      split <;> split <;> omega
    · rw [update_of_ne (fun same => hasNot (same ▸ isCore) : core ≠ chosen)]
      exact others core hasNot

/-- Three calls with a mask of two of three cores. -/
theorem countsAfter_balanced_three :
    let mask : CoreMask := ⟨[24, 4, 7], (· != 7)⟩
    let counts := countsAfter mask (fun _ => 0) 3
    (counts 24, counts 4) = (2, 1) ∧ counts 24 ≤ counts 4 + 1 ∧ counts 7 = 0 := by
  intro mask counts
  have few : ∀ earlier < 3, ∀ core ∈ mask.cores,
      countsAfter mask (fun _ => 0) earlier core < intMax := by decide
  obtain ⟨-, balanced, others⟩ := @countsAfter_balanced mask _ ⟨24, by decide, rfl⟩
    (fun _ _ _ _ => rfl) 3 fun earlier less core has => few earlier less core has.1
  exact ⟨by decide, balanced 24 4 ⟨by decide, rfl⟩ ⟨by decide, rfl⟩,
    others 7 fun has => absurd has.2 (by decide)⟩

end StudyNotes.Vhost
