/-
This file models the functions that read a flattened device tree: the header,
the tags of the structure block, and the walks from tag to tag.

Offsets into the structure block are values of the type `int` and may be any of
them, so sums wrap at 32 bits, and a negative offset below a large enough
`size_dt_struct` is read from the bytes before the block. Walks are loops that
run on fuel: whether they end is a question about the blob.
-/

import StudyNotes.Library.Loop
import Mathlib.Algebra.Order.Ring.Int
import Mathlib.Algebra.Order.Ring.Nat

namespace StudyNotes.DeviceTree

open Library

/-! ### Integers and bytes -/

/-- A blob: the words of its header that are read here, and the bytes around it. The blob
starts at address 0. -/
structure Blob where
  magic : BitVec 32
  offDtStruct : BitVec 32
  offDtStrings : BitVec 32
  version : BitVec 32
  lastCompVersion : BitVec 32
  sizeDtStruct : BitVec 32
  byte : Int → BitVec 8

/-- The value that an `int` keeps. -/
def int32 (value : Int) : Int := (value + 2 ^ 31) % 2 ^ 32 - 2 ^ 31

theorem int32_of_lt {a : Int} (low : 0 ≤ a) (high : a < 2 ^ 31) : int32 a = a := by
  unfold int32
  omega

/-- The value that an `unsigned int` keeps. -/
def uint32 (value : Int) : Int := value % 2 ^ 32

variable (blob : Blob)

/-- `fdt32_to_cpu` of the word at an address. -/
def fdt32 (p : Int) : Int :=
  (((blob.byte p).toNat * 256 + (blob.byte (p + 1)).toNat) * 256 +
    (blob.byte (p + 2)).toNat) * 256 + (blob.byte (p + 3)).toNat

theorem fdt32_bounds (p : Int) : 0 ≤ fdt32 blob p ∧ fdt32 blob p < 2 ^ 32 := by
  unfold fdt32
  omega

/-! ### The header -/

/-- `fdt_magic`. -/
def fdtMagic : Int := blob.magic.toNat

/-- `fdt_off_dt_struct`. -/
def fdtOffDtStruct : Int := blob.offDtStruct.toNat

/-- `fdt_off_dt_strings`. -/
def fdtOffDtStrings : Int := blob.offDtStrings.toNat

/-- `fdt_version`. -/
def fdtVersion : Int := blob.version.toNat

/-- `fdt_last_comp_version`. -/
def fdtLastCompVersion : Int := blob.lastCompVersion.toNat

/-- `fdt_size_dt_struct`. -/
def fdtSizeDtStruct : Int := blob.sizeDtStruct.toNat

/-- `FDT_MAGIC`. -/
def fdtMagicWord : Int := 0xd00dfeed

/-- `FDT_SW_MAGIC`, the complement of the magic word. -/
def fdtSwMagic : Int := 0x2ff20112

/-- `FDT_FIRST_SUPPORTED_VERSION`. -/
def fdtFirstSupportedVersion : Int := 0x10

/-- `FDT_LAST_SUPPORTED_VERSION`. -/
def fdtLastSupportedVersion : Int := 0x11

/-- `FDT_ERR_NOTFOUND`. -/
def fdtErrNotfound : Int := 1

/-- `FDT_ERR_BADOFFSET`. -/
def fdtErrBadoffset : Int := 4

/-- `FDT_ERR_BADSTATE`. -/
def fdtErrBadstate : Int := 7

/-- `FDT_ERR_TRUNCATED`. -/
def fdtErrTruncated : Int := 8

/-- `FDT_ERR_BADMAGIC`. -/
def fdtErrBadmagic : Int := 9

/-- `FDT_ERR_BADVERSION`. -/
def fdtErrBadversion : Int := 10

/-- `FDT_ERR_BADSTRUCTURE`. -/
def fdtErrBadstructure : Int := 11

/-- `fdt_check_header`. -/
def fdtCheckHeader : Int :=
  if fdtMagic blob = fdtMagicWord then
    if fdtVersion blob < fdtFirstSupportedVersion then -fdtErrBadversion
    else if fdtLastCompVersion blob > fdtLastSupportedVersion then -fdtErrBadversion
    else 0
  else if fdtMagic blob = fdtSwMagic then
    if fdtSizeDtStruct blob = 0 then -fdtErrBadstate else 0
  else -fdtErrBadmagic

/-! ### Tags -/

/-- The tags of the structure block. -/
inductive Tag where
  | beginNode
  | endNode
  | prop
  | nop
  | fin
  deriving DecidableEq, Repr

/-- The tag that a word stands for. -/
def Tag.ofWord (word : Int) : Option Tag :=
  if word = 1 then some .beginNode
  else if word = 2 then some .endNode
  else if word = 3 then some .prop
  else if word = 4 then some .nop
  else if word = 9 then some .fin
  else none

/-- `fdt_string`, as an address. -/
def fdtString (stroffset : Int) : Int := fdtOffDtStrings blob + int32 stroffset

variable (offset : Int)

/-- `_fdt_offset_ptr`, as an address. -/
def fdtOffsetPtrUnchecked : Int := fdtOffDtStruct blob + offset

/-- `fdt_offset_ptr`, as an address. Its last test is about pointers that wrap at the end of
the address space, where no blob lies. -/
def fdtOffsetPtr (offset len : Int) : Option Int :=
  if fdtVersion blob ≥ 0x11 ∧ (uint32 (offset + len) < uint32 offset ∨
      uint32 (offset + len) > fdtSizeDtStruct blob) then
    none
  else some (fdtOffsetPtrUnchecked blob offset)

/-- One turn of the loop that skips a name. -/
def skipNameTurn : Option (Turn Int (Option Int)) :=
  match fdtOffsetPtr blob offset 1 with
  | none => some (.done none)
  | some p =>
    if blob.byte p = 0 then some (.done (some (int32 (offset + 1))))
    else some (.again (int32 (offset + 1)))

/-- The offset after a name, if the name ends in the block. A counter of 32 bits is back where
it started after `2 ^ 32` turns, so a loop without a result by then never has one. -/
def skipName : Option (Option Int) :=
  loop (skipNameTurn blob) (2 ^ 32) offset

/-- The `switch` of `fdt_next_tag`: the offset where a tag ends, if it is known. -/
def tagEnd (tag : Tag) (offset : Int) : Option (Option Int) :=
  match tag with
  | .beginNode => skipName blob offset
  | .prop =>
    match fdtOffsetPtr blob offset 4 with
    | none => some none
    | some lenp => some (some (int32 (offset + (8 + fdt32 blob lenp))))
  | .fin | .endNode | .nop => some (some offset)

/-- `FDT_TAGALIGN`. -/
def fdtTagalign : Int := int32 ((offset + 3) / 4 * 4)

/-- The end of `fdt_next_tag`: the whole tag has to lie in the block. -/
def acceptTag (startoffset : Int) (tag : Tag) (offset : Int) : Tag × Int :=
  match fdtOffsetPtr blob startoffset (uint32 (offset - startoffset)) with
  | none => (.fin, -fdtErrBadstructure)
  | some _ => (tag, fdtTagalign offset)

/-- `fdt_next_tag`: the tag at an offset and the offset of the next one. There is no result
when the loop over a name never ends. -/
def fdtNextTag (startoffset : Int) : Option (Tag × Int) :=
  match fdtOffsetPtr blob startoffset 4 with
  | none => some (.fin, -fdtErrTruncated)
  | some tagp =>
    match Tag.ofWord (fdt32 blob tagp) with
    | none => some (.fin, -fdtErrBadstructure)
    | some tag =>
      match tagEnd blob tag (int32 (startoffset + 4)) with
      | none => none
      | some none => some (.fin, -fdtErrBadstructure)
      | some (some offset) => some (acceptTag blob startoffset tag offset)

/-! ### Walks -/

/-- One turn of the loop of `_nextprop`. -/
def nextpropTurn : Option (Turn Int Int) :=
  match fdtNextTag blob offset with
  | none => none
  | some (.fin, nextoffset) =>
    some (.done (if nextoffset ≥ 0 then -fdtErrBadstructure else nextoffset))
  | some (.prop, _) => some (.done offset)
  | some (.nop, nextoffset) => some (.again nextoffset)
  | some (_, _) => some (.done (-fdtErrNotfound))

/-- `_nextprop`. -/
def nextprop (fuel : Nat) (offset : Int) : Option Int :=
  loop (nextpropTurn blob) fuel offset

/-- What `_fdt_check_node_offset` and `_fdt_check_prop_offset` do. -/
def checkTagOffset (expected : Tag) (offset : Int) : Option Int :=
  if offset < 0 ∨ offset % 4 ≠ 0 then some (-fdtErrBadoffset)
  else match fdtNextTag blob offset with
    | none => none
    | some (tag, nextoffset) =>
      some (if tag = expected then nextoffset else -fdtErrBadoffset)

/-- `_fdt_check_node_offset`. -/
def fdtCheckNodeOffset : Option Int :=
  checkTagOffset blob .beginNode offset

/-- `_fdt_check_prop_offset`. -/
def fdtCheckPropOffset : Option Int :=
  checkTagOffset blob .prop offset

/-- `fdt_first_property_offset`. -/
def fdtFirstPropertyOffset (fuel : Nat) (nodeoffset : Int) : Option Int := do
  let offset ← fdtCheckNodeOffset blob nodeoffset
  if offset < 0 then some offset else nextprop blob fuel offset

/-- `fdt_next_property_offset`. -/
def fdtNextPropertyOffset (fuel : Nat) (offset : Int) : Option Int := do
  let offset ← fdtCheckPropOffset blob offset
  if offset < 0 then some offset else nextprop blob fuel offset

/-- A property as `fdt_getprop_by_offset` finds it: the addresses of its value and its name, and
its length. -/
structure FdtProperty where
  data : Int
  name : Int
  len : Int
  deriving DecidableEq, Repr

/-- `fdt_getprop_by_offset`; the inner option is its null pointer. -/
def fdtGetpropByOffset : Option (Option FdtProperty) := do
  let err ← fdtCheckPropOffset blob offset
  if err < 0 then some none
  else
    let prop := fdtOffsetPtrUnchecked blob offset
    some (some {
      data := prop + 12
      name := fdtString blob (fdt32 blob (prop + 8))
      len := fdt32 blob (prop + 4) })

/-- The bytes of a string before its terminator. -/
def cString (blob : Blob) : Nat → Int → Option (List (BitVec 8))
  | 0, _ => none
  | fuel + 1, p =>
    if blob.byte p = 0 then some []
    else (cString blob fuel (p + 1)).map (blob.byte p :: ·)

/-- `fdt_get_name`: the name as a string; the inner option is its null pointer. -/
def fdtGetName (fuel : Nat) (nodeoffset : Int) : Option (Option (List (BitVec 8))) :=
  if fdtCheckHeader blob ≠ 0 then some none
  else do
    let err ← fdtCheckNodeOffset blob nodeoffset
    if err < 0 then some none
    else
      let name ← cString blob fuel (fdtOffsetPtrUnchecked blob nodeoffset + 4)
      some (some name)

/-- One turn of the loop of `fdt_next_node`, on the offset and the depth. -/
def nextNodeTurn (state : Int × Int) : Option (Turn (Int × Int) (Int × Int)) :=
  let (offset, depth) := state
  match fdtNextTag blob offset with
  | none => none
  | some (.beginNode, _) => some (.done (offset, depth + 1))
  | some (.endNode, nextoffset) =>
    if depth - 1 < 0 then some (.done (nextoffset, depth - 1))
    else some (.again (nextoffset, depth - 1))
  | some (.fin, nextoffset) =>
    some (.done (if nextoffset ≥ 0 then -fdtErrNotfound else nextoffset, depth))
  | some (_, nextoffset) => some (.again (nextoffset, depth))

/-- `fdt_next_node` with a depth to keep: the offset it returns and the new depth. -/
def fdtNextNode (fuel : Nat) (offset depth : Int) : Option (Int × Int) := do
  let nextoffset ← if offset ≥ 0 then fdtCheckNodeOffset blob offset else some 0
  if nextoffset < 0 then some (nextoffset, depth)
  else loop (nextNodeTurn blob) fuel (nextoffset, depth)

end StudyNotes.DeviceTree
