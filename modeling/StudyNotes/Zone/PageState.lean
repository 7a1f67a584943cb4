/-
This file proves when the page counts of a zone are exact. A caller gives a change as
an `unsigned long`, but `mod_zone_page_state` takes it as an `int`, and the count of
the zone is a `long`.
-/

import Mathlib.Algebra.BigOperators.Fin

namespace StudyNotes.Zone

open Function

/-- One item of the zone's `vm_stat`, and what each CPU has not yet added to it. -/
structure PageState (Cpu : Type) where
  vmStat : BitVec 64
  vmStatDiff : Cpu → Int

variable {Cpu : Type} [DecidableEq Cpu]

/-- `mod_zone_page_state`, on the CPU it runs on. -/
def modZonePageState (statThreshold : Cpu → Nat) (zone : PageState Cpu) (change : Cpu × UInt64) :
    PageState Cpu :=
  let delta := Int.bmod change.2.toNat (2 ^ 32)
  -- The sum of an `int` and an `s8` is an `int`.
  let x := Int.bmod (delta + zone.vmStatDiff change.1) (2 ^ 32)
  if statThreshold change.1 < x ∨ x < -statThreshold change.1 then
    ⟨zone.vmStat + BitVec.ofInt 64 x, update zone.vmStatDiff change.1 0⟩
  else { zone with vmStatDiff := update zone.vmStatDiff change.1 (x.bmod (2 ^ 8)) }

/-- What the CPUs have not yet added is within their thresholds. -/
def Bounded (statThreshold : Cpu → Nat) (zone : PageState Cpu) : Prop :=
  ∀ cpu, (zone.vmStatDiff cpu).natAbs ≤ statThreshold cpu

/-- The change and what the CPU has not yet added make an `int`, and a `long` with the count. -/
def Fits (zone : PageState Cpu) (change : Cpu × UInt64) : Prop :=
  change.2.toNat + zone.vmStatDiff change.1 < 2 ^ 31 ∧
    zone.vmStat.toInt + change.2.toNat + zone.vmStatDiff change.1 < 2 ^ 63

variable [Fintype Cpu]

/-- The count of the zone and what the CPUs have not yet added. -/
def PageState.total (zone : PageState Cpu) : Int :=
  zone.vmStat.toInt + ∑ cpu, zone.vmStatDiff cpu

theorem sum_update (diff : Cpu → Int) (cpu : Cpu) (value : Int) :
    ∑ other, update diff cpu value other = ∑ other, diff other - diff cpu + value := by
  rw [Finset.sum_update_of_mem (Finset.mem_univ cpu),
    Finset.sum_eq_add_sum_sdiff_singleton_of_mem (Finset.mem_univ cpu) diff]
  omega

section Changes

variable {statThreshold : Cpu → Nat} (small : ∀ cpu, statThreshold cpu < 128)
  {zone : PageState Cpu} (bounded : Bounded statThreshold zone)
include small bounded

theorem modZonePageState_spec (change : Cpu × UInt64) :
    Bounded statThreshold (modZonePageState statThreshold zone change) ∧
      (Fits zone change →
        (modZonePageState statThreshold zone change).total = zone.total + change.2.toNat) := by
  obtain ⟨cpu, pages⟩ := change
  have within := bounded cpu
  have narrow := small cpu
  have stays : ∀ value : Int, value.natAbs ≤ statThreshold cpu → ∀ other,
      (update zone.vmStatDiff cpu value other).natAbs ≤ statThreshold other := by
    intro value le other
    rw [update_apply]
    split
    · next same => rwa [same]
    · exact bounded other
  unfold modZonePageState Fits PageState.total
  dsimp only
  rw [Int.bmod_add_bmod]
  have isExact (fits : pages.toNat + zone.vmStatDiff cpu < 2 ^ 31) :
      Int.bmod (pages.toNat + zone.vmStatDiff cpu) (2 ^ 32) =
        pages.toNat + zone.vmStatDiff cpu := by
    rw [Int.bmod_def]
    omega
  generalize Int.bmod (pages.toNat + zone.vmStatDiff cpu) (2 ^ 32) = x at isExact
  split
  · refine ⟨stays 0 (Nat.zero_le _), fun fits => ?_⟩
    have isX := isExact fits.1
    have lowest := zone.vmStat.le_toInt
    -- A sum that fits is above the threshold here, so the count does not get smaller.
    have isSum : (zone.vmStat + BitVec.ofInt 64 x).toInt = zone.vmStat.toInt + x := by
      rw [BitVec.toInt_add, BitVec.toInt_ofInt, Int.add_bmod_bmod, Int.bmod_def]
      omega
    dsimp only
    rw [sum_update, isSum]
    omega
  · have kept : x.bmod (2 ^ 8) = x := by
      rw [Int.bmod_def]
      omega
    rw [kept]
    refine ⟨stays x (by omega), fun fits => ?_⟩
    have isX := isExact fits.1
    dsimp only
    rw [sum_update]
    omega

/--
The differentials stay within the thresholds, and the count is exact after every run in
which each change makes an `int` with what its CPU has not yet added, and a `long` with the count.
-/
theorem foldl_modZonePageState_exact (changes : List (Cpu × UInt64)) :
    Bounded statThreshold (changes.foldl (modZonePageState statThreshold) zone) ∧
      ((∀ n (inside : n < changes.length),
          Fits ((changes.take n).foldl (modZonePageState statThreshold) zone) changes[n]) →
        (changes.foldl (modZonePageState statThreshold) zone).total =
          zone.total + (changes.map fun change => change.2.toNat).sum) := by
  induction changes generalizing zone with
  | nil => exact ⟨bounded, fun _ => by simp⟩
  | cons change rest inductionHypothesis =>
    obtain ⟨boundedNext, exactNext⟩ := modZonePageState_spec small bounded change
    obtain ⟨boundedRest, exactRest⟩ := inductionHypothesis boundedNext
    rw [List.foldl_cons]
    refine ⟨boundedRest, fun fits => ?_⟩
    have isRest := exactRest fun n inside => by
      simpa using fits (n + 1) (Nat.succ_lt_succ inside)
    rw [exactNext (fits 0 (Nat.zero_lt_succ _))] at isRest
    simp [isRest, Int.add_assoc]

end Changes

/-- Four changes on two CPUs, of which two are added to the count of the zone. -/
theorem foldl_modZonePageState_exact_four :
    let zone : PageState Bool := ⟨100, fun cpu => if cpu then 2 else -1⟩
    ([(false, 5), (true, 1), (false, 3), (true, 4)].foldl
      (modZonePageState fun _ => 3) zone).total = 101 + 13 := by
  intro zone
  have starts : Bounded (fun _ => 3) zone := fun cpu => by cases cpu <;> decide
  refine (foldl_modZonePageState_exact (by decide) starts _).2 ?_
  unfold Fits
  decide +kernel

/-- The count of a zone with as many pages as an `int` has values is lost. -/
theorem modZonePageState_loses :
    (modZonePageState (fun _ : Unit => 0) ⟨0, fun _ => 0⟩ ((), 0x100000000)).total = 0 := by
  decide +kernel

end StudyNotes.Zone
