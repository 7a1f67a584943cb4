/-
This file gives fixed-width unsigned arithmetic on natural numbers: sums and
differences are taken modulo a power of two, and agree with the exact ones as
long as nothing wraps.
-/

import Mathlib.Tactic.Ring

namespace StudyNotes.Library.Word

/-- The sum of two words of the given width. -/
def add (width a b : Nat) : Nat := (a + b) % 2 ^ width

/-- The difference of two words of the given width. -/
def sub (width a b : Nat) : Nat := (a + (2 ^ width - b)) % 2 ^ width

theorem add_of_lt {width a b : Nat} (fits : a + b < 2 ^ width) : add width a b = a + b :=
  Nat.mod_eq_of_lt fits

theorem sub_of_le {width a b : Nat} (le : b ≤ a) (fits : a < 2 ^ width) :
    sub width a b = a - b := by
  unfold sub
  rw [show a + (2 ^ width - b) = a - b + 2 ^ width by omega, Nat.add_mod_right]
  exact Nat.mod_eq_of_lt (by omega)

/-! ### Alignment -/

/-- `x & ~(align - 1)`. -/
def alignDown (width x align : Nat) : Nat := x &&& (2 ^ width - 1 - (align - 1))

/-- Clearing the low bits rounds down to a multiple of a power of two. -/
theorem alignDown_two_pow {width x : Nat} (bits : Nat) (narrow : bits ≤ width)
    (fits : x < 2 ^ width) : alignDown width x (2 ^ bits) = x / 2 ^ bits * 2 ^ bits := by
  have powers : 2 ^ width = 2 ^ (width - bits) * 2 ^ bits := by
    rw [← Nat.pow_add, Nat.sub_add_cancel narrow]
  have mask : 2 ^ width - 1 - (2 ^ bits - 1) = (2 ^ (width - bits) - 1) * 2 ^ bits := by
    have positive : 0 < 2 ^ bits := Nat.two_pow_pos bits
    rw [Nat.sub_mul, Nat.one_mul, ← powers]
    omega
  refine Nat.eq_of_testBit_eq fun i => ?_
  rw [alignDown, mask, Nat.testBit_and, Nat.testBit_mul_two_pow, Nat.testBit_mul_two_pow,
    Nat.testBit_two_pow_sub_one, Nat.testBit_div_two_pow]
  rcases Nat.lt_or_ge i bits with low | high
  · simp [Nat.not_le.mpr low]
  · rw [Nat.sub_add_cancel high]
    rcases Nat.lt_or_ge i width with inside | outside
    · have small : i - bits < width - bits := by omega
      simp [high, small]
    · have gone : x.testBit i = false := Nat.testBit_lt_two_pow
        (lt_of_lt_of_le fits (Nat.pow_le_pow_right (by decide) outside))
      simp [gone]

/-- Rounding down gives the greatest multiple below. -/
theorem le_div_mul {x align multiple : Nat} (below : multiple ≤ x) (aligned : align ∣ multiple) :
    multiple ≤ x / align * align := by
  obtain ⟨factor, rfl⟩ := aligned
  rcases Nat.eq_zero_or_pos align with rfl | positive
  · simp
  · rw [Nat.mul_comm]
    exact Nat.mul_le_mul_right _ ((Nat.le_div_iff_mul_le positive).mpr (by rwa [Nat.mul_comm]))

end StudyNotes.Library.Word
