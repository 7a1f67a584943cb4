/-
This file gives numbers as lists of bytes, buffers that are written in pieces,
and the reading of both from a stream of bytes. A stream that has ended goes on
with zeros.
-/

import Mathlib.Data.List.GetD
import Mathlib.Algebra.Order.Ring.Nat

namespace StudyNotes.Library

/-! ### Numbers -/

/-- The bytes of a number, the least significant one first. -/
def toLittleEndian : Nat → Nat → List UInt8
  | 0, _ => []
  | width + 1, number => UInt8.ofNat number :: toLittleEndian width (number / 256)

def ofLittleEndian : List UInt8 → Nat
  | [] => 0
  | byte :: bytes => byte.toNat + 256 * ofLittleEndian bytes

variable {width number : Nat}

/-- The bytes of a number, the most significant one first. -/
def toBigEndian (width number : Nat) : List UInt8 := (toLittleEndian width number).reverse

def ofBigEndian (bytes : List UInt8) : Nat := ofLittleEndian bytes.reverse

/-- Write bytes into a buffer from an offset on. -/
def overwrite (buffer : Nat → UInt8) (start : Nat) (bytes : List UInt8) (i : Nat) : UInt8 :=
  if start ≤ i then (bytes[i - start]?).getD (buffer i) else buffer i

variable (buffer : Nat → UInt8) {bytes : List UInt8}

/-- The next bytes of a stream. -/
def nextBytes (count : Nat) (stream : List UInt8) : List UInt8 :=
  (List.range count).map fun i => stream.getD i 0

/-- The next number of a stream, with its most significant byte first. -/
def nextNumber (width : Nat) (stream : List UInt8) : Nat := ofBigEndian (nextBytes width stream)

end StudyNotes.Library
