/-
This file proves what the runnable average of a scheduling entity keeps over any
sequence of updates: its sum stays below its period and its clock is never ahead.

An update counts the time since the last one in units of 1024 ns and then takes
its own time as the last one, so the part of a unit that is left is lost.
-/

import Mathlib.Algebra.Order.Ring.Nat

namespace StudyNotes.Scheduler

/-- `struct sched_avg`, with sums that have no bound. -/
structure SchedAvg where
  runnableAvgSum : Nat
  runnableAvgPeriod : Nat
  lastRunnableUpdate : BitVec 64
  deriving DecidableEq

/-- `decay_load` and `__compute_runnable_contrib`. -/
structure Decay where
  decayLoad : Nat → Nat → Nat
  computeRunnableContrib : Nat → Nat

/--
`__update_entity_runnable_avg`: the average after it, whether it has decayed, and the units of
time that it has accrued, as they are before decay.
-/
def updateEntityRunnableAvg (decay : Decay) (now : BitVec 64) (runnable : Bool) (sa : SchedAvg) :
    SchedAvg × Bool × Nat :=
  let delta := now - sa.lastRunnableUpdate
  if delta.toInt < 0 then ({ sa with lastRunnableUpdate := now }, false, 0)
  else
    let delta := delta.toNat / 1024
    if delta = 0 then (sa, false, 0)
    else
      let accrue (value units : Nat) := if runnable then value + units else value
      let deltaW := sa.runnableAvgPeriod % 1024
      if 1024 ≤ delta + deltaW then
        let deltaW := 1024 - deltaW
        let periods := (delta - deltaW) / 1024
        let rest := (delta - deltaW) % 1024
        let contrib := decay.computeRunnableContrib periods
        let sum := decay.decayLoad (accrue sa.runnableAvgSum deltaW) (periods + 1)
        let period := decay.decayLoad (sa.runnableAvgPeriod + deltaW) (periods + 1)
        (⟨accrue (accrue sum contrib) rest, period + contrib + rest, now⟩, true,
          deltaW + 1024 * periods + rest)
      else (⟨accrue sa.runnableAvgSum delta, sa.runnableAvgPeriod + delta, now⟩, false, delta)

/-- Updates at one clock value after another, each with its own flag. -/
def runUpdates (decay : Decay) (sa : SchedAvg) (calls : List (BitVec 64 × Bool)) : SchedAvg :=
  calls.foldl (fun sa call => (updateEntityRunnableAvg decay call.1 call.2 sa).1) sa

/-- The units that these updates accrue, as they are before decay. -/
def accountedUnits (decay : Decay) (sa : SchedAvg) : List (BitVec 64 × Bool) → Nat
  | [] => 0
  | call :: rest =>
    let result := updateEntityRunnableAvg decay call.1 call.2 sa
    result.2.2 + accountedUnits decay result.1 rest

variable {decay : Decay} {sa : SchedAvg} {now : BitVec 64} {runnable : Bool}

theorem update_sum_le (monotone : ∀ periods, Monotone (decay.decayLoad · periods))
    (le : sa.runnableAvgSum ≤ sa.runnableAvgPeriod) :
    (updateEntityRunnableAvg decay now runnable sa).1.runnableAvgSum ≤
      (updateEntityRunnableAvg decay now runnable sa).1.runnableAvgPeriod := by
  unfold updateEntityRunnableAvg
  dsimp only
  split_ifs
  · exact le
  · exact le
  · exact Nat.add_le_add_right (Nat.add_le_add_right
      (monotone _ (Nat.add_le_add_right le _)) _) _
  · exact Nat.le_add_right_of_le (Nat.le_add_right_of_le (monotone _ (Nat.le_add_right_of_le le)))
  · exact Nat.add_le_add_right le _
  · exact Nat.le_add_right_of_le le

theorem update_not_ahead :
    0 ≤ (now - (updateEntityRunnableAvg decay now runnable sa).1.lastRunnableUpdate).toInt := by
  unfold updateEntityRunnableAvg
  dsimp only
  split_ifs with backwards
  · simp
  · exact Int.not_lt.mp backwards
  all_goals simp

/--
After every sequence of updates the sum is at most the period, and the last update is not
ahead of the latest clock value.
-/
theorem runUpdates_bounded (monotone : ∀ periods, Monotone (decay.decayLoad · periods))
    (start : sa.runnableAvgSum = sa.runnableAvgPeriod) (calls : List (BitVec 64 × Bool)) :
    (runUpdates decay sa calls).runnableAvgSum ≤ (runUpdates decay sa calls).runnableAvgPeriod ∧
      ∀ latest, calls.getLast? = some latest →
        0 ≤ (latest.1 - (runUpdates decay sa calls).lastRunnableUpdate).toInt := by
  constructor
  · have le := Nat.le_of_eq start
    clear start
    induction calls generalizing sa with
    | nil => exact le
    | cons call rest inductionHypothesis => exact inductionHypothesis (update_sum_le monotone le)
  · intro latest isLatest
    obtain ⟨front, rfl⟩ := List.getLast?_eq_some_iff.mp isLatest
    rw [runUpdates, List.foldl_append]
    exact update_not_ahead

/-- A period decays to `1002 / 1024`, which the 32nd power takes to about a half. -/
def truncating : Decay where
  decayLoad value periods := value * 1002 ^ periods / 1024 ^ periods
  computeRunnableContrib periods :=
    ((List.range periods).map fun i => 1024 * 1002 ^ (i + 1) / 1024 ^ (i + 1)).sum

theorem runUpdates_bounded_truncating :
    let sa := runUpdates truncating ⟨700, 700, 0⟩
      [(4000000, true), (3000000, true), (5000000, false)]
    sa = ⟨4202, 6102, 5000000⟩ ∧ sa.runnableAvgSum ≤ sa.runnableAvgPeriod := by
  intro sa
  have monotone : ∀ periods, Monotone (truncating.decayLoad · periods) := fun _ _ _ le =>
    Nat.div_le_div_right (Nat.mul_le_mul_right _ le)
  exact ⟨by decide +kernel, (runUpdates_bounded monotone rfl _).1⟩

/-- Updates have accounted units and lost some time, and less than a unit is pending at `now`. -/
def Accounts (sa next : SchedAvg) (units lost : Nat) (now : BitVec 64) : Prop :=
  next.lastRunnableUpdate.toNat = sa.lastRunnableUpdate.toNat + 1024 * units + lost ∧
  next.lastRunnableUpdate.toNat ≤ now.toNat ∧
  now.toNat < next.lastRunnableUpdate.toNat + 1024

theorem update_accounts (later : sa.lastRunnableUpdate.toNat ≤ now.toNat)
    (near : now.toNat < sa.lastRunnableUpdate.toNat + 2 ^ 63) :
    ∃ lost < 1024, Accounts sa (updateEntityRunnableAvg decay now runnable sa).1
      (updateEntityRunnableAvg decay now runnable sa).2.2 lost now := by
  have isDelta := BitVec.toNat_sub_of_le (BitVec.le_def.mpr later)
  have forwards : ¬ (now - sa.lastRunnableUpdate).toInt < 0 := by
    rw [BitVec.toInt_eq_toNat_of_lt (by omega)]
    omega
  unfold updateEntityRunnableAvg Accounts
  dsimp only
  rw [if_neg forwards, isDelta]
  split
  · exact ⟨0, by dsimp only; omega⟩
  · refine ⟨(now.toNat - sa.lastRunnableUpdate.toNat) % 1024, by omega, ?_⟩
    split <;> dsimp only <;> omega

/--
At clock values that never go back, the units accounted make up the time up to the last
update that was accepted, but for less than a unit that each call may lose.
-/
theorem runUpdates_accounts {calls : List (BitVec 64 × Bool)}
    (sorted : (sa.lastRunnableUpdate :: calls.map Prod.fst).Pairwise fun first second =>
      first.toNat ≤ second.toNat)
    (near : ∀ call ∈ calls, call.1.toNat < sa.lastRunnableUpdate.toNat + 2 ^ 63) :
    ∃ lost ≤ 1023 * calls.length,
      Accounts sa (runUpdates decay sa calls) (accountedUnits decay sa calls) lost
        ((sa.lastRunnableUpdate :: calls.map Prod.fst).getLast (List.cons_ne_nil _ _)) := by
  induction calls generalizing sa with
  | nil => exact ⟨0, Nat.zero_le _, by simp [Accounts, runUpdates, accountedUnits]⟩
  | cons call rest inductionHypothesis =>
    obtain ⟨now, runnable⟩ := call
    obtain ⟨ahead, sortedRest⟩ := List.pairwise_cons.mp sorted
    obtain ⟨lost, few, isNext, notAhead, pending⟩ := @update_accounts decay sa now runnable
      (ahead now List.mem_cons_self) (near _ List.mem_cons_self)
    rw [accountedUnits, runUpdates, List.foldl_cons, ← runUpdates]
    generalize updateEntityRunnableAvg decay now runnable sa = result at *
    have stillAhead : ∀ clock ∈ rest.map Prod.fst,
        result.1.lastRunnableUpdate.toNat ≤ clock.toNat := fun clock member =>
      Nat.le_trans notAhead (List.rel_of_pairwise_cons sortedRest member)
    obtain ⟨more, fewMore, isLast, pendingLast⟩ := inductionHypothesis
      (List.pairwise_cons.mpr ⟨stillAhead, sortedRest.of_cons⟩) fun other member => by
        have := near other (List.mem_cons_of_mem _ member)
        omega
    refine ⟨lost + more, by rw [List.length_cons]; omega, by omega, ?_⟩
    -- The last clock value is that of this call only when no call is left.
    cases rest with
    | nil => exact ⟨notAhead, pending⟩
    | cons other rest => exact pendingLast

/-- Three calls, of which the second one is too early to be accepted and the third one decays. -/
theorem runUpdates_accounts_split :
    let calls := [(1536, true), (2048, true), (2000000, true)]
    accountedUnits truncating ⟨700, 700, 0⟩ calls = 1952 ∧
      ∃ lost ≤ 1023 * 3, Accounts ⟨700, 700, 0⟩ (runUpdates truncating ⟨700, 700, 0⟩ calls)
        (accountedUnits truncating ⟨700, 700, 0⟩ calls) lost 2000000 :=
  ⟨by decide +kernel, @runUpdates_accounts truncating ⟨700, 700, 0⟩
    [(1536, true), (2048, true), (2000000, true)] (by decide) (by simp)⟩

/-- Two calls lose half a unit each: three units have passed, and two are accounted. -/
theorem accountedUnits_loses :
    accountedUnits truncating ⟨0, 0, 0⟩ [(1536, true), (3072, true)] = 2 ∧
      accountedUnits truncating ⟨0, 0, 0⟩ [(3072, true)] = 3 := by
  decide +kernel

end StudyNotes.Scheduler
