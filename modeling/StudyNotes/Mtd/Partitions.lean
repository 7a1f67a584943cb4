/-
This file proves which partition tables of an MTD device give partitions that lie
inside the device, with whole erase blocks where they can be written.
-/

import Mathlib.Algebra.Order.Ring.Nat

namespace StudyNotes.Mtd

/-! ### Partitions -/

/-- `MTDPART_OFS_APPEND`. -/
def mtdpartOfsAppend : BitVec 64 := 0xffffffffffffffff

/-- `MTDPART_OFS_NXTBLK`. -/
def mtdpartOfsNxtblk : BitVec 64 := 0xfffffffffffffffe

/-- `MTDPART_OFS_RETAIN`. -/
def mtdpartOfsRetain : BitVec 64 := 0xfffffffffffffffd

/-- `MTDPART_SIZ_FULL`. -/
def mtdpartSizFull : BitVec 64 := 0

/-- `MTD_WRITEABLE`. -/
def mtdWriteable : BitVec 32 := 0x400

/-- `struct mtd_erase_region_info`. -/
structure EraseRegion where
  offset : BitVec 64
  erasesize : BitVec 32

/-- What `allocate_partition` reads of the master for the place and the blocks of a partition. -/
structure MtdInfo where
  size : BitVec 64
  erasesize : BitVec 32
  flags : BitVec 32
  eraseregions : List EraseRegion := []
  blockIsreserved : BitVec 64 → Bool := fun _ => false
  hasBlockIsbad : Bool := false
  blockIsbad : BitVec 64 → Bool := fun _ => false

/-- `struct mtd_partition`. -/
structure MtdPartition where
  size : BitVec 64
  offset : BitVec 64
  maskFlags : BitVec 32 := 0

/-- `struct mtd_ecc_stats`. -/
structure EccStats where
  bbtblocks : Nat := 0
  badblocks : Nat := 0

/-- `struct mtd_part`. -/
structure MtdPart where
  offset : BitVec 64
  size : BitVec 64
  flags : BitVec 32
  erasesize : BitVec 32 := 0
  eccStats : EccStats := {}

/-! ### Their place -/

/-- `mtd_div_by_eb`, unless it divides by zero. -/
def mtdDivByEb (sz : BitVec 64) (erasesize : BitVec 32) : Option (BitVec 32) :=
  if erasesize = 0 then none else some ((sz / erasesize.setWidth 64).setWidth 32)

/-- `mtd_mod_by_eb`, unless it divides by zero. -/
def mtdModByEb (sz : BitVec 64) (erasesize : BitVec 32) : Option (BitVec 32) :=
  if erasesize = 0 then none else some ((sz % erasesize.setWidth 64).setWidth 32)

variable (master : MtdInfo)

/--
The offset behind `MTDPART_OFS_APPEND` and `MTDPART_OFS_NXTBLK`, unless the code divides
by zero. The number of the next block and its offset are computed in 32 bits.
-/
def placeOffset (part : MtdPartition) (curOffset : BitVec 64) : Option (BitVec 64) :=
  let offset := if part.offset = mtdpartOfsAppend then curOffset else part.offset
  if offset ≠ mtdpartOfsNxtblk then some offset
  else (mtdModByEb curOffset master.erasesize).bind fun rest =>
    if rest = 0 then some curOffset
    else (mtdDivByEb curOffset master.erasesize).map fun block =>
      ((block + 1) * master.erasesize).setWidth 64

/-- The biggest erase size in a partition, unless the code stops at `BUG_ON`. -/
def pickErasesize (offset finish : BitVec 64) : Option (BitVec 32) :=
  let regions := master.eraseregions
  if regions.length > 1 then
    let behind := (regions.takeWhile fun region => region.offset ≤ offset).length
    let erasesize := ((regions.drop (behind - 1)).takeWhile fun region =>
      region.offset < finish).foldl (fun erasesize region =>
        if erasesize < region.erasesize then region.erasesize else erasesize) 0
    if erasesize = 0 then none else some erasesize
  else some master.erasesize

/-- The flags behind one of the two checks of a boundary, unless the code divides by zero. -/
def checkBoundary (erasesize : BitVec 32) (boundary : BitVec 64) (flags : BitVec 32) :
    Option (BitVec 32) :=
  if flags &&& mtdWriteable = 0 then some flags
  else (mtdModByEb boundary erasesize).map fun rest =>
    if rest = 0 then flags else flags &&& ~~~mtdWriteable

/-- The loop over the blocks of a partition, if it ends within a number of turns. -/
def countBlocks (master : MtdInfo) (slave : MtdPart) :
    Nat → BitVec 64 → EccStats → Option EccStats
  | 0, _, _ => none
  | turns + 1, offs, stats =>
    if offs < slave.size then
      countBlocks master slave turns (offs + slave.erasesize.setWidth 64)
        (if master.blockIsreserved (offs + slave.offset) then
          { stats with bbtblocks := stats.bbtblocks + 1 }
        else if master.blockIsbad (offs + slave.offset) then
          { stats with badblocks := stats.badblocks + 1 }
        else stats)
    else some stats

/-- The size behind `MTDPART_SIZ_FULL` and the check of the end. -/
def partSize (offset size : BitVec 64) : BitVec 64 :=
  let size := if size = mtdpartSizFull then master.size - offset else size
  if offset + size > master.size then master.size - offset else size

/-- `allocate_partition` once the place is known. -/
def finishPartition (turns : Nat) (master : MtdInfo) (flags : BitVec 32)
    (offset size : BitVec 64) : Option MtdPart :=
  (pickErasesize master offset (offset + size)).bind fun erasesize =>
  (checkBoundary erasesize offset flags).bind fun flags =>
  (checkBoundary erasesize size flags).bind fun flags =>
    let slave : MtdPart := { offset, size, erasesize, flags }
    (if master.hasBlockIsbad then countBlocks master slave turns 0 {} else some {}).map
      fun eccStats => { slave with eccStats }

/-- `allocate_partition` from `MTDPART_SIZ_FULL` on. -/
def checkPartition (turns : Nat) (master : MtdInfo) (flags : BitVec 32)
    (offset size : BitVec 64) : Option MtdPart :=
  if offset ≥ master.size then some { offset := 0, size := 0, flags }
  else finishPartition turns master flags offset (partSize master offset size)

/-- `allocate_partition`. -/
def allocatePartition (turns : Nat) (master : MtdInfo) (part : MtdPartition)
    (curOffset : BitVec 64) : Option MtdPart :=
  let flags := master.flags &&& ~~~part.maskFlags
  (placeOffset master part curOffset).bind fun offset =>
    if offset = mtdpartOfsRetain then
      if master.size - curOffset ≥ part.size then
        checkPartition turns master flags curOffset (master.size - curOffset - part.size)
      else some { offset := curOffset, size := part.size, flags }
    else checkPartition turns master flags offset part.size

/-- `add_mtd_partitions`: the partitions that are created, from an offset on. -/
def addMtdPartitions (turns : Nat) (master : MtdInfo) :
    BitVec 64 → List MtdPartition → List MtdPart
  | _, [] => []
  | curOffset, part :: parts =>
    match allocatePartition turns master part curOffset with
    | none => []
    | some slave => slave :: addMtdPartitions turns master (slave.offset + slave.size) parts

/-! ### Partitions inside the master -/

/-- The partition lies in the device and, if it can be written, on whole blocks. -/
structure MtdPart.Fine (slave : MtdPart) (master : MtdInfo) : Prop where
  inside : slave.offset.toNat + slave.size.toNat ≤ master.size.toNat
  blocks : slave.flags &&& mtdWriteable ≠ 0 →
    slave.erasesize.toNat ∣ slave.offset.toNat ∧ slave.erasesize.toNat ∣ slave.size.toNat

/-- The end of an entry does not wrap around into the master. -/
def EndFits (offset size : BitVec 64) : Prop :=
  master.size ≤ offset ∨ offset.toNat + size.toNat < 2 ^ 64 ∨ master.size < offset + size

/-- An entry that is handled with a given offset gives a partition inside the master. -/
def EntryFits (part : MtdPartition) (curOffset : BitVec 64) : Prop :=
  ∀ offset ∈ placeOffset master part curOffset,
    if offset = mtdpartOfsRetain then part.size ≤ master.size - curOffset
    else EndFits master offset part.size

/-- All entries that are handled fit. -/
def TableFits (turns : Nat) (master : MtdInfo) : BitVec 64 → List MtdPartition → Prop
  | _, [] => True
  | curOffset, part :: parts => ∀ slave ∈ allocatePartition turns master part curOffset,
      EntryFits master part curOffset ∧
        TableFits turns master (slave.offset + slave.size) parts

variable {master} {flags : BitVec 32} {turns : Nat} {slave : MtdPart} {curOffset : BitVec 64}

theorem mtdModByEb_toNat {sz : BitVec 64} {erasesize rest : BitVec 32}
    (divided : mtdModByEb sz erasesize = some rest) :
    rest.toNat = sz.toNat % erasesize.toNat := by
  obtain ⟨nonzero, ⟨⟩⟩ := Option.ite_none_left_eq_some.mp divided
  have small := Nat.mod_lt sz.toNat (by bv_omega : 0 < erasesize.toNat)
  rw [BitVec.toNat_setWidth, BitVec.toNat_umod, BitVec.toNat_setWidth_of_le (by decide)]
  omega

theorem checkBoundary_spec {erasesize flags' : BitVec 32} {boundary : BitVec 64}
    (checked : checkBoundary erasesize boundary flags = some flags')
    (isWriteable : flags' &&& mtdWriteable ≠ 0) :
    flags = flags' ∧ erasesize.toNat ∣ boundary.toNat := by
  rw [checkBoundary] at checked
  split at checked
  · next never =>
    cases checked
    exact absurd never isWriteable
  · obtain ⟨rest, divided, rfl⟩ := Option.map_eq_some_iff.mp checked
    split at isWriteable
    · next isBoundary =>
      have isRest := mtdModByEb_toNat divided
      rw [isBoundary] at isRest
      exact ⟨(if_pos isBoundary).symm, Nat.dvd_of_mod_eq_zero isRest.symm⟩
    · refine absurd ?_ isWriteable
      rw [BitVec.and_assoc, mtdWriteable]
      simp

theorem finishPartition_fine_iff {offset size : BitVec 64}
    (created : finishPartition turns master flags offset size = some slave) :
    slave.Fine master ↔ offset.toNat + size.toNat ≤ master.size.toNat := by
  obtain ⟨erasesize, -, created⟩ := Option.bind_eq_some_iff.mp created
  obtain ⟨flags', starts, created⟩ := Option.bind_eq_some_iff.mp created
  obtain ⟨flags'', ends, created⟩ := Option.bind_eq_some_iff.mp created
  obtain ⟨eccStats, -, rfl⟩ := Option.map_eq_some_iff.mp created
  refine ⟨MtdPart.Fine.inside, fun inside => ⟨inside, fun isWriteable => ?_⟩⟩
  obtain ⟨rfl, isEnd⟩ := checkBoundary_spec ends isWriteable
  exact ⟨(checkBoundary_spec starts isWriteable).2, isEnd⟩

theorem checkPartition_fine_iff {offset size : BitVec 64}
    (created : checkPartition turns master flags offset size = some slave) :
    slave.Fine master ↔ EndFits master offset size := by
  rw [checkPartition] at created
  split at created
  · next reach =>
    cases created
    exact iff_of_true ⟨Nat.zero_le _, fun _ => ⟨Nat.dvd_zero _, Nat.dvd_zero _⟩⟩ (.inl reach)
  · next inReach =>
    rw [finishPartition_fine_iff created, EndFits]
    dsimp only [partSize]
    by_cases isFull : size = mtdpartSizFull
    · have isZero : size.toNat = 0 := congrArg BitVec.toNat isFull
      rw [if_pos isFull]
      split <;> bv_omega
    · rw [if_neg isFull]
      split <;> bv_omega

theorem allocatePartition_fine_iff {part : MtdPartition}
    (created : allocatePartition turns master part curOffset = some slave) :
    slave.Fine master ↔ EntryFits master part curOffset := by
  obtain ⟨offset, isOffset, created⟩ := Option.bind_eq_some_iff.mp created
  simp only [EntryFits, isOffset, Option.mem_some_iff, forall_eq']
  split at created
  · next isRetain =>
    rw [if_pos isRetain]
    split at created
    · next enough =>
      rw [checkPartition_fine_iff created]
      refine iff_of_true ?_ enough
      unfold EndFits
      bv_omega
    · next tooMuch =>
      cases created
      refine iff_of_false (fun fine => tooMuch ?_) tooMuch
      have inside := fine.inside
      bv_omega
  · next notRetain =>
    rw [if_neg notRetain]
    exact checkPartition_fine_iff created

/-- All partitions that are created are fine exactly if all entries that are handled fit. -/
theorem addMtdPartitions_fine_iff (turns : Nat) (master : MtdInfo) (curOffset : BitVec 64)
    (parts : List MtdPartition) :
    (∀ slave ∈ addMtdPartitions turns master curOffset parts, slave.Fine master) ↔
      TableFits turns master curOffset parts := by
  induction parts generalizing curOffset with
  | nil => simp [addMtdPartitions, TableFits]
  | cons part parts inductionHypothesis =>
    rw [addMtdPartitions, TableFits]
    cases created : allocatePartition turns master part curOffset with
    | none => simp
    | some slave =>
      simp only [List.forall_mem_cons, Option.mem_some_iff, forall_eq']
      rw [allocatePartition_fine_iff created, inductionHypothesis]

/-- A master of 4096 bytes, which can be written. -/
def smallMaster : MtdInfo where
  size := 0x1000
  erasesize := 0x100
  flags := mtdWriteable

/-- A table with all special offsets, and the rest of the master as its last entry. -/
def smallTable : List MtdPartition :=
  [⟨0x180, mtdpartOfsAppend, 0⟩, ⟨0x100, mtdpartOfsNxtblk, 0⟩, ⟨0x400, mtdpartOfsRetain, 0⟩,
    ⟨mtdpartSizFull, mtdpartOfsAppend, 0⟩]

theorem smallTable_fine :
    ∀ slave ∈ addMtdPartitions 1 smallMaster 0 smallTable, slave.Fine smallMaster := by
  refine (addMtdPartitions_fine_iff ..).mpr ?_
  -- Only the first partition ends within an erase block.
  have first : allocatePartition 1 smallMaster ⟨0x180, mtdpartOfsAppend, 0⟩ 0 =
      some ⟨0, 0x180, 0, 0x100, {}⟩ := rfl
  have second : allocatePartition 1 smallMaster ⟨0x100, mtdpartOfsNxtblk, 0⟩ (0 + 0x180) =
      some ⟨0x200, 0x100, mtdWriteable, 0x100, {}⟩ := rfl
  have third : allocatePartition 1 smallMaster ⟨0x400, mtdpartOfsRetain, 0⟩ (0x200 + 0x100) =
      some ⟨0x300, 0x900, mtdWriteable, 0x100, {}⟩ := rfl
  have fourth : allocatePartition 1 smallMaster ⟨mtdpartSizFull, mtdpartOfsAppend, 0⟩
      (0x300 + 0x900) = some ⟨0xc00, 0x400, mtdWriteable, 0x100, {}⟩ := rfl
  simp only [smallTable, TableFits, first, second, third, fourth, Option.mem_some_iff, forall_eq']
  refine ⟨?_, ?_, ?_, ?_, trivial⟩ <;>
  · rintro offset ⟨⟩
    unfold EndFits
    decide

/-- A partition that is reported as disabled, and one with an end that wraps around. -/
theorem smallMaster_outside :
    (¬∀ slave ∈ addMtdPartitions 1 smallMaster 0
        [{ size := 0x2000, offset := mtdpartOfsRetain }], slave.Fine smallMaster) ∧
      ¬∀ slave ∈ addMtdPartitions 1 smallMaster 0
        [{ size := 0xfffffffffffff900, offset := 0x800 }], slave.Fine smallMaster := by
  constructor <;> exact fun fine => absurd (fine _ List.mem_cons_self).inside (by decide)

end StudyNotes.Mtd
