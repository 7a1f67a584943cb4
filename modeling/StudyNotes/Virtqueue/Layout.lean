/-
This file proves that the two computations of the layout of a ring agree: the
size for which memory is allocated, and the addresses of the parts.
-/

import StudyNotes.Library.Word

namespace StudyNotes.Virtqueue

open Library

/-! ### The layout -/

/-- `(x + align - 1) & ~(align - 1)`. -/
def alignMask (x align : Nat) : Nat := Word.alignDown 64 ((x + align - 1) % 2 ^ 64) align

/-- What `vring_size` computes, before it is cut to an `unsigned`. -/
def vringBytes (num align : Nat) : Nat :=
  alignMask (16 * num + 2 * ((3 + num) % 2 ^ 32)) align + 2 * 3 + 8 * num

/-- `vring_size`. -/
def vringSize (num align : Nat) : Nat := vringBytes num align % 2 ^ 32

/-- `struct vring`: the addresses of its parts. -/
structure VringLayout where
  num : Nat
  desc : Nat
  avail : Nat
  used : Nat

/-- `vring_init`. The entries of the available ring lie behind two 16-bit fields. -/
def vringInit (num p align : Nat) : VringLayout :=
  let avail := (p + num * 16) % 2 ^ 64
  { num
    desc := p
    avail
    used := alignMask (avail + 2 * 2 + 2 * num + 2) align }

/-! ### Agreement -/

/-- The next multiple of a power of two, as an integer. -/
def roundUp (bits x : Nat) : Nat := (x + 2 ^ bits - 1) / 2 ^ bits * 2 ^ bits

variable {bits num p : Nat}

theorem alignMask_two_pow (narrow : bits ≤ 64) (x : Nat) :
    alignMask x (2 ^ bits) = roundUp bits x % 2 ^ 64 := by
  obtain ⟨rest, isRest⟩ : 2 ^ bits ∣ 2 ^ 64 := Nat.pow_dvd_pow 2 narrow
  rw [alignMask, Word.alignDown_two_pow bits narrow (Nat.mod_lt _ (by decide)), roundUp, isRest,
    Nat.mod_mul_right_div_self, Nat.mul_comm, Nat.mul_comm _ (2 ^ bits), Nat.mul_mod_mul_left]

theorem roundUp_bounds (bits x : Nat) :
    x ≤ roundUp bits x ∧ roundUp bits x < x + 2 ^ bits := by
  have division := Nat.div_add_mod' (x + 2 ^ bits - 1) (2 ^ bits)
  have remainder := Nat.mod_lt (x + 2 ^ bits - 1) (Nat.two_pow_pos bits)
  rw [roundUp]
  omega

/-- Rounding up commutes with a shift by a multiple of the alignment. -/
theorem roundUp_shift (aligned : 2 ^ bits ∣ p) (x : Nat) :
    roundUp bits (p + x) = p + roundUp bits x := by
  have positive : 0 < 2 ^ bits := Nat.two_pow_pos bits
  obtain ⟨factor, rfl⟩ := aligned
  rw [roundUp, Nat.add_assoc, Nat.add_sub_assoc (by omega), Nat.mul_add_div positive,
    Nat.add_mul, Nat.mul_comm factor, roundUp]

/-- The size of a ring is never the first one that does not fit. -/
theorem roundUp_ne (bits num : Nat) :
    roundUp bits (16 * num + 2 * (3 + num)) + 2 * 3 + 8 * num ≠ 2 ^ 32 := by
  rw [roundUp]
  rcases bits with - | - | bits
  · omega
  · omega
  · have multiple (k : Nat) : k * 2 ^ (bits + 2) = 4 * (k * 2 ^ bits) := by ring
    rw [multiple]
    omega

/-- The parts follow each other, the used ring is aligned, and it ends where the size says.
The structure has their addresses modulo the size of the address space. -/
theorem vringInit_layout (narrow : bits < 64) (aligned : 2 ^ bits ∣ p)
    (small : vringBytes num (2 ^ bits) ≤ 2 ^ 32) :
    ∃ used, vringInit num p (2 ^ bits) = ⟨num, p, (p + 16 * num) % 2 ^ 64, used % 2 ^ 64⟩ ∧
      p + 16 * num + 2 * (3 + num) ≤ used ∧ 2 ^ bits ∣ used ∧
      used + (2 * 3 + 8 * num) = p + vringSize num (2 ^ bits) := by
  have few : 8 * num ≤ 2 ^ 32 := (Nat.le_add_left _ _).trans small
  have power : 2 ^ bits ≤ 2 ^ 63 := Nat.pow_le_pow_right (by decide) (by omega)
  have sizes : (3 + num) % 2 ^ 32 = 3 + num := by omega
  obtain ⟨above, below⟩ := roundUp_bounds bits (16 * num + 2 * (3 + num))
  have isBytes : vringBytes num (2 ^ bits) =
      roundUp bits (16 * num + 2 * (3 + num)) + 2 * 3 + 8 * num := by
    rw [vringBytes, sizes, alignMask_two_pow narrow.le, Nat.mod_eq_of_lt (by omega)]
  have isSize : vringSize num (2 ^ bits) = vringBytes num (2 ^ bits) :=
    Nat.mod_eq_of_lt (lt_of_le_of_ne small (isBytes ▸ roundUp_ne bits num))
  refine ⟨p + roundUp bits (16 * num + 2 * (3 + num)), ?_, by omega,
    Nat.dvd_add aligned (Nat.dvd_mul_left _ _), by omega⟩
  rw [← roundUp_shift aligned, ← alignMask_two_pow narrow.le, vringInit, alignMask, alignMask]
  have positive : 0 < 2 ^ bits := Nat.two_pow_pos bits
  congr 2 <;> omega

theorem vringInit_layout_page : 2 ^ 12 ∣ 8192 ∧ (vringInit 256 8192 (2 ^ 12)).used = 16384 := by
  have size : vringSize 256 (2 ^ 12) = 10246 := by decide
  obtain ⟨used, layout, -, -, ends⟩ :=
    vringInit_layout (show 12 < 64 by decide) (show 2 ^ 12 ∣ 8192 by decide)
      (show vringBytes 256 (2 ^ 12) ≤ 2 ^ 32 by decide)
  refine ⟨by decide, ?_⟩
  rw [layout]
  show used % 2 ^ 64 = 16384
  omega

end StudyNotes.Virtqueue
