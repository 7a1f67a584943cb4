/-
This file proves where the load averages settle when the number of active tasks
does not change. Each sample is rounded to the nearest value, so an average stops
as soon as a sample moves it by less than half a unit, and need not reach its goal.
-/

import Mathlib.Algebra.Order.Ring.Nat

namespace StudyNotes.Scheduler

/-- The averages over one, five and fifteen minutes. -/
inductive Average where
  | one
  | five
  | fifteen

/-- `EXP_1`, `EXP_5` and `EXP_15`. -/
def Average.exp : Average → Nat
  | .one => 1884
  | .five => 2014
  | .fifteen => 2037

/-- `FIXED_1`. -/
def fixed1 : Nat := 2048

/-- `calc_load`, on words of 64 bits. -/
def calcLoad (load exp active : Nat) : Nat :=
  (load * exp + active * (fixed1 - exp) + 1024) % 2 ^ 64 / fixed1

/-- How far a load is from a goal. -/
def distance (goal load : Nat) : Nat := load - goal + (goal - load)

/-- What `calc_global_load` does to the averages when a sample is due. -/
def calcGlobalLoad (active : Int) (avenrun : Average → Nat) (average : Average) : Nat :=
  calcLoad (avenrun average) average.exp (if 0 < active then active.toNat * fixed1 else 0)

/-- A sample would move the load by at most half a unit. -/
def Settled (exp goal load : Nat) : Prop := (fixed1 - exp) * distance goal load ≤ 1024

theorem calcGlobalLoad_lt (active : Int) (avenrun : Average → Nat) (average : Average) :
    calcGlobalLoad active avenrun average < 2 ^ 53 := by
  unfold calcGlobalLoad calcLoad fixed1
  omega

section Samples

variable {active : Nat} (small : active < 2 ^ 42) {avenrun : Average → Nat} {average : Average}
include small

/-- A sample keeps an average that is settled, and takes another one nearer to its goal. -/
theorem calcGlobalLoad_nearer (below : avenrun average < 2 ^ 53) :
    (Settled average.exp (active * fixed1) (avenrun average) →
      Settled average.exp (active * fixed1) (calcGlobalLoad active avenrun average)) ∧
    (¬ Settled average.exp (active * fixed1) (avenrun average) →
      distance (active * fixed1) (calcGlobalLoad active avenrun average) <
        distance (active * fixed1) (avenrun average)) := by
  have isGoal : (if 0 < (active : Int) then (active : Int).toNat * fixed1 else 0) =
      active * fixed1 := by
    split <;> simp_all
  have isLoad : calcGlobalLoad active avenrun average =
      (avenrun average * average.exp + active * fixed1 * (fixed1 - average.exp) + 1024) /
        fixed1 := by
    rw [calcGlobalLoad, calcLoad, isGoal, Nat.mod_eq_of_lt]
    unfold fixed1
    cases average <;> simp only [Average.exp] <;> omega
  rw [isLoad]
  unfold Settled distance fixed1
  cases average <;> simp only [Average.exp] <;> omega

theorem iterate_settled (below : avenrun average < 2 ^ 53)
    (settled : Settled average.exp (active * fixed1) (avenrun average)) (count : Nat) :
    Settled average.exp (active * fixed1) ((calcGlobalLoad active)^[count] avenrun average) := by
  induction count generalizing avenrun with
  | zero => exact settled
  | succ count inductionHypothesis =>
    exact inductionHypothesis (calcGlobalLoad_lt ..) ((calcGlobalLoad_nearer small below).1 settled)

/--
Whatever the averages start with, with a constant number of active tasks each of them comes
so near to this number that a sample moves it by at most half a unit, and stays there.
-/
theorem iterate_calcGlobalLoad_settled (avenrun : Average → Nat) (average : Average) :
    ∃ count, ∀ more, Settled average.exp (active * fixed1)
      ((calcGlobalLoad active)^[more + count] avenrun average) := by
  -- The first sample may start above `2 ^ 53`; from then on the distance decreases.
  induction isDistance : distance (active * fixed1) (calcGlobalLoad active avenrun average) using
    Nat.strong_induction_on generalizing avenrun with
  | h far inductionHypothesis =>
    have below := calcGlobalLoad_lt active avenrun average
    by_cases settled :
        Settled average.exp (active * fixed1) (calcGlobalLoad active avenrun average)
    · exact ⟨1, iterate_settled small below settled⟩
    · have nearer := (calcGlobalLoad_nearer small below).2 settled
      rw [isDistance] at nearer
      obtain ⟨count, later⟩ := inductionHypothesis _ nearer (calcGlobalLoad active avenrun) rfl
      exact ⟨count + 1, later⟩

end Samples

theorem iterate_calcGlobalLoad_settled_one :
    ∃ count, ∀ more, Settled Average.one.exp (3 * fixed1)
      ((calcGlobalLoad (3 : Nat))^[more + count] (fun _ => 0) .one) :=
  iterate_calcGlobalLoad_settled (by decide) _ _

/-- An idle system does not get rid of a load of one unit. -/
theorem calcGlobalLoad_stuck :
    ¬ ∃ count average, (calcGlobalLoad 0)^[count] (fun _ => 1) average = 0 := by
  rintro ⟨count, average, isZero⟩
  have stays : calcGlobalLoad 0 (fun _ => 1) = fun _ => 1 := by
    funext average
    cases average <;> rfl
  rw [Function.iterate_fixed stays] at isZero
  exact Nat.one_ne_zero isZero

end StudyNotes.Scheduler
