/-
This file says on which lists a timer may be.

A timer that is due at a tick is in the slot of that tick of `tv1`, or it waits
in a slot of a higher level for the tick at which the slot is cascaded, which is
not after the one it is due at. `__internal_add_timer` chooses such a slot, also
for a timer in the past and for one beyond the reach of the wheel.
-/

import StudyNotes.Timer.Wheel
import Mathlib.Tactic.Linarith
import Mathlib.Tactic.Positivity
import Mathlib.Tactic.Ring

namespace StudyNotes.Timer

open Library

/-- The number of low bits that the slots of a level leave open. -/
def Config.shift (config : Config) (n : Nat) : Nat := config.tvrBits + (n - 2) * config.tvnBits

/-- The ticks from one slot of a level to the next. -/
def Config.span (config : Config) (n : Nat) : Int := 2 ^ config.shift n

/-- When a timer is due that is armed at `now`. -/
def dueAt (expires now : Int) : Int := now + max 0 (slong (expires - now))

/-- A timer that is due at `due` may wait in a slot of a level while `timer_jiffies` is `now`: the
slot is cascaded at the start of a block of ticks, not before `low` and not after `due`. -/
structure Waits (config : Config) (now low due expires : Int) (n index : Nat) : Prop where
  two_le : 2 ≤ n
  le_five : n ≤ 5
  same : ulong expires = ulong due
  half : due < now + 2 ^ 63
  block : ∃ block : Int, (index : Int) = block % config.tvnSize ∧ low ≤ block * config.span n ∧
    block * config.span n ≤ due

/-- A timer that is due at `due` may be on a list. For each level `low` is the first tick that
the list is still there for; `tick` is the tick of the work list. -/
def Sits (config : Config) (now : Int) (low : Nat → Int) (tick : Option Int) (due expires : Int) :
    ListHead → Prop
  | .workList => tick = some due
  | .tv n index =>
    (n = 1 ∧ low 1 ≤ due ∧ due < now + config.tvrSize ∧ (index : Int) = due % config.tvrSize) ∨
      Waits config now (low n) due expires n index

section Slots

variable (config : Config)

/-! ### Sizes -/

theorem Config.tvrSize_eq : config.tvrSize = config.span 2 := by
  simp [Config.tvrSize, Config.span, Config.shift]

theorem Config.span_pos (n : Nat) : 0 < config.span n := by
  unfold Config.span
  positivity

variable {n : Nat} {expires now : Int}

theorem Config.span_succ (level : 2 ≤ n) :
    config.span (n + 1) = config.span n * config.tvnSize := by
  obtain ⟨k, rfl⟩ := Nat.exists_eq_add_of_le' level
  simp only [Config.span, Config.tvnSize, Config.shift, ← pow_add]
  congr 1
  rw [show k + 2 + 1 - 2 = k + 1 by omega, show k + 2 - 2 = k by omega, Nat.add_one_mul,
    Nat.add_assoc]

theorem Config.span_lt_succ (level : 2 ≤ n) : config.span n < config.span (n + 1) := by
  rw [config.span_succ level]
  have two_le : 2 ≤ config.tvnSize := by
    unfold Config.tvnSize Config.tvnBits
    cases config.baseSmall <;> decide
  have := config.span_pos n
  nlinarith

/-- The whole wheel reaches further than a slot, and less than half the range of times. -/
theorem Config.span_lt_maxTval : config.span 5 < config.maxTval ∧ config.maxTval < 2 ^ 63 := by
  unfold Config.span Config.shift Config.maxTval Config.tvrBits Config.tvnBits
  cases config.baseSmall <;> decide

/-! ### Indices -/

/-- Numbers that are less than a period apart and have one residue are the same. -/
theorem eq_of_emod_eq {a b period : Int} (le : a ≤ b) (lt : b < a + period)
    (same : a % period = b % period) : a = b := by
  have zero := Int.emod_eq_emod_iff_emod_sub_eq_zero.mp same.symm
  rw [Int.emod_eq_of_lt (by omega) (by omega)] at zero
  omega

theorem rootIndex_eq (time : Int) : (rootIndex config time : Int) = time % config.tvrSize := by
  unfold rootIndex ulong Config.tvrSize Config.tvrBits
  cases config.baseSmall
  · simp only [Bool.false_eq_true, if_false]
    omega
  · simp only [if_true]
    omega

/-- The digits of a time do not depend on the bits beyond a word. -/
theorem emod_ediv_emod {time range span size : Int} (span_pos : 0 < span)
    (divides : span * size ∣ range) : time % range / span % size = time / span % size := by
  obtain ⟨k, rfl⟩ := divides
  have isSum : time % (span * size * k) =
      time + span * (size * -(k * (time / (span * size * k)))) := by
    rw [Int.emod_def]
    ring
  rw [isSum, Int.add_mul_ediv_left _ _ span_pos.ne', Int.add_mul_emod_self_left]

theorem slotIndex_eq (time : Int) (low : 2 ≤ n) (high : n ≤ 5) :
    (slotIndex config time (n - 2) : Int) = time / config.span n % config.tvnSize := by
  have divides : config.span n * config.tvnSize ∣ 2 ^ 64 := by
    rw [← config.span_succ low]
    refine pow_dvd_pow 2 ?_
    unfold Config.shift Config.tvrBits Config.tvnBits
    split <;> omega
  have size_ne : config.tvnSize ≠ 0 := by
    unfold Config.tvnSize
    positivity
  rw [slotIndex, Int.toNat_of_nonneg (Int.emod_nonneg _ size_ne)]
  exact emod_ediv_emod (config.span_pos n) divides

/-! ### The slot of a timer -/

/-- A timer that is not in the past is due when it expires. -/
theorem dueAt_of_near (near : ulong (expires - now) < 2 ^ 63) :
    dueAt expires now = now + ulong (expires - now) ∧
      ulong expires = ulong (dueAt expires now) := by
  unfold dueAt slong ulong at *
  omega

theorem dueAt_of_past (past : slong (expires - now) < 0) : dueAt expires now = now := by
  unfold dueAt
  omega

/-- A timer is due at the later of its expiry and the time at which it is armed. -/
theorem dueAt_eq_max (low : -2 ^ 63 ≤ expires - now)
    (high : expires - now < 2 ^ 63) : dueAt expires now = max expires now := by
  unfold dueAt slong
  omega

/-- A timer is due at the same tick when it is added again before that. -/
theorem dueAt_of_same {expires due now : Int} (same : ulong expires = ulong due) (le : now ≤ due)
    (half : due < now + 2 ^ 63) : dueAt expires now = due := by
  unfold dueAt slong ulong at *
  omega

/-- The slot of a level that is at least one slot away from `now`. -/
theorem waits_level (two_le : 2 ≤ n) (le_five : n ≤ 5) (near : ulong (expires - now) < 2 ^ 63)
    (away : config.span n ≤ ulong (expires - now)) :
    Waits config now (now + 1) (dueAt expires now) expires n
      (slotIndex config expires (n - 2)) := by
  obtain ⟨isDue, same⟩ := dueAt_of_near near
  have index : slotIndex config expires (n - 2) =
      slotIndex config (dueAt expires now) (n - 2) := by
    unfold slotIndex
    rw [same]
  have start := Int.ediv_mul_le (dueAt expires now) (config.span_pos n).ne'
  have next := Int.lt_ediv_add_one_mul_self (dueAt expires now) (config.span_pos n)
  rw [add_mul, one_mul] at next
  refine ⟨two_le, le_five, same, by omega, dueAt expires now / config.span n, ?_, by omega, start⟩
  rw [index]
  exact slotIndex_eq config _ two_le le_five

/-- A timer beyond the reach of the wheel waits in the last slot within reach. -/
theorem waits_clamped (near : ulong (expires - now) < 2 ^ 63)
    (far : config.maxTval < ulong (expires - now)) :
    Waits config now (now + 1) (dueAt expires now) expires 5
      (slotIndex config (config.maxTval + now) 3) := by
  obtain ⟨isDue, same⟩ := dueAt_of_near near
  have wide := config.span_lt_maxTval
  have start := Int.ediv_mul_le (config.maxTval + now) (config.span_pos 5).ne'
  have next := Int.lt_ediv_add_one_mul_self (config.maxTval + now) (config.span_pos 5)
  rw [add_mul, one_mul] at next
  have index := slotIndex_eq config (config.maxTval + now) (show 2 ≤ 5 by decide) (le_refl 5)
  exact ⟨by decide, le_refl 5, same, by omega, (config.maxTval + now) / config.span 5, index,
    by omega, by omega⟩

/-- `__internal_add_timer` chooses a slot in which the timer may wait, and one that is cascaded
later. -/
theorem vecFor_sits (expires now : Int) (tick : Option Int) :
    Sits config now (fun n => if n = 1 then now else now + 1) tick (dueAt expires now) expires
      (vecFor config expires now) := by
  have root := config.tvrSize_eq
  have spans : config.span 2 < config.span 3 ∧ config.span 3 < config.span 4 ∧
      config.span 4 < config.span 5 :=
    ⟨config.span_lt_succ (by decide), config.span_lt_succ (by decide),
      config.span_lt_succ (by decide)⟩
  have wide := config.span_lt_maxTval
  have powers : (2 : Int) ^ (config.tvrBits + config.tvnBits) = config.span 3 ∧
      (2 : Int) ^ (config.tvrBits + 2 * config.tvnBits) = config.span 4 ∧
      (2 : Int) ^ (config.tvrBits + 3 * config.tvnBits) = config.span 5 := by
    simp [Config.span, Config.shift]
  simp only [vecFor, powers]
  split
  next inRoot =>
    obtain ⟨isDue, same⟩ := dueAt_of_near (show ulong (expires - now) < 2 ^ 63 by omega)
    have nonneg : 0 ≤ ulong (expires - now) := Int.emod_nonneg _ (by decide)
    have index : rootIndex config expires = rootIndex config (dueAt expires now) := by
      unfold rootIndex
      rw [same]
    exact .inl ⟨rfl, by simp; omega, by omega, index ▸ rootIndex_eq config _⟩
  split
  · exact .inr (waits_level config (by decide) (by decide) (by omega) (by omega))
  split
  · exact .inr (waits_level config (by decide) (by decide) (by omega) (by omega))
  split
  · exact .inr (waits_level config (by decide) (by decide) (by omega) (by omega))
  split
  next past =>
    rw [dueAt_of_past past]
    have := config.span_pos 2
    exact .inl ⟨rfl, by simp, by omega, rootIndex_eq config now⟩
  next future =>
    have near : ulong (expires - now) < 2 ^ 63 := by
      unfold slong ulong at *
      omega
    split
    next far => exact .inr (waits_clamped config near far)
    next => exact .inr (waits_level config (by decide) (by decide) near (by omega))

end Slots

end StudyNotes.Timer
