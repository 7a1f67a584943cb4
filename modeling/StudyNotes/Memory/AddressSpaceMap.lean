/-
This file proves that a direct mapping of guest memory is what its translations
say, byte by byte.

`address_space_map` puts translations together for as long as each of them goes on
where the first one would, and stops at the first that does not. The invariant of
the loop is that all bytes so far are translated as by the first translation alone.
-/

import StudyNotes.Library.Loop

namespace StudyNotes.Memory

open Library

/-! ### The model -/

/-- The part of `RAMBlock` that a mapping reads. -/
structure RAMBlock where
  host : BitVec 64
  offset : BitVec 64
  maxLength : BitVec 64

/-- What `address_space_translate` returns. -/
structure Translation (Mr : Type) where
  mr : Mr
  xlat : BitVec 64
  len : BitVec 64

/-- The list of blocks, with the one that was found last. -/
structure RamList where
  mruBlock : Option RAMBlock
  blocks : List RAMBlock

/-- The bounce buffer, without its bytes. -/
structure BounceBuffer (Mr : Type) where
  inUse : Bool
  addr : BitVec 64
  len : BitVec 64
  mr : Option Mr

/-- The two globals that a mapping may change. -/
structure Globals (Mr : Type) where
  bounce : BounceBuffer Mr
  ramList : RamList

/-- An address space over memory regions of some kind: `address_space_translate`,
`memory_access_is_direct` and the block of a region. -/
structure Space (Mr : Type) where
  translate : BitVec 64 → BitVec 64 → Bool → Translation Mr
  isDirect : Mr → Bool → Bool
  ramBlock : Mr → Option RAMBlock
  targetPageSize : BitVec 64

/-- `RAM_ADDR_INVALID`. -/
def ramAddrInvalid : BitVec 64 := BitVec.allOnes 64

/-- `memory_region_get_ram_addr`. -/
def memoryRegionGetRamAddr {Mr : Type} (space : Space Mr) (mr : Mr) : BitVec 64 :=
  match space.ramBlock mr with
  | some block => block.offset
  | none => ramAddrInvalid

/-- The address is inside the block, or behind it by less than its length after wrapping around. -/
def RAMBlock.has (block : RAMBlock) (addr : BitVec 64) : Bool :=
  addr - block.offset < block.maxLength

/-- `qemu_get_ram_block`, which aborts if no block has the address. A block that was found in the
list is the first to be tried the next time. -/
def qemuGetRamBlock (ramList : RamList) (addr : BitVec 64) : Option (RamList × RAMBlock) :=
  match ramList.mruBlock.filter (·.has addr) with
  | some block => some (ramList, block)
  | none => (ramList.blocks.find? (·.has addr)).map fun block =>
      ({ ramList with mruBlock := some block }, block)

/-- `ramblock_ptr`. -/
def ramblockPtr (block : RAMBlock) (offset : BitVec 64) : BitVec 64 := block.host + offset

/-- `MIN`. -/
def minLen (a b : BitVec 64) : BitVec 64 := if a < b then a else b

/-- What the caller of a mapping gets: nothing, the bounce buffer, or a pointer into memory, the
last two with a length. -/
inductive Mapping where
  | null
  | bounce (len : BitVec 64)
  | host (ptr len : BitVec 64)

/-- The block that `qemu_ram_ptr_length` uses. -/
def blockOf (ramList : RamList) (ramBlock : Option RAMBlock) (addr : BitVec 64) :
    Option (RamList × RAMBlock) :=
  match ramBlock with
  | some block => some (ramList, block)
  | none => qemuGetRamBlock ramList addr

/-- `qemu_ram_ptr_length`. -/
def qemuRamPtrLength (ramList : RamList) (ramBlock : Option RAMBlock) (addr size : BitVec 64) :
    Option (RamList × Mapping) :=
  if size = 0 then some (ramList, .null)
  else (blockOf ramList ramBlock addr).map fun found =>
    (found.1, .host (ramblockPtr found.2 (addr - found.2.offset))
      (minLen size (found.2.maxLength - (addr - found.2.offset))))

/-- Where the loop is: the address, the rest of the length, what is done, and the length of the
last translation. -/
structure Progress where
  addr : BitVec 64
  len : BitVec 64
  done : BitVec 64
  l : BitVec 64

variable {Mr : Type}

/-- A turn of the loop of `address_space_map`. -/
def mapTurn [DecidableEq Mr] (space : Space Mr) (isWrite : Bool) (mr : Mr) (base : BitVec 64)
    (p : Progress) : Turn Progress (BitVec 64) :=
  let len := p.len - p.l
  let addr := p.addr + p.l
  let done := p.done + p.l
  if len = 0 then .done done
  else
    let next := space.translate addr len isWrite
    if next.mr ≠ mr ∨ next.xlat ≠ base + done then .done done
    else .again ⟨addr, len, done, next.len⟩

/-- `address_space_map`. It has no result if the fuel ends first or no block is found. -/
def addressSpaceMap [DecidableEq Mr] (space : Space Mr) (fuel : Nat) (globals : Globals Mr)
    (addr len : BitVec 64) (isWrite : Bool) : Option (Globals Mr × Mapping) :=
  if len = 0 then some (globals, .null)
  else
    let first := space.translate addr len isWrite
    if space.isDirect first.mr isWrite = false then
      if globals.bounce.inUse then some (globals, .null)
      else
        let l := minLen first.len space.targetPageSize
        some ({ globals with bounce := ⟨true, addr, l, some first.mr⟩ }, .bounce l)
    else
      (loop (fun p => some (mapTurn space isWrite first.mr first.xlat p)) fuel
        ⟨addr, len, 0, first.len⟩).bind fun done =>
          (qemuRamPtrLength globals.ramList (space.ramBlock first.mr)
            (memoryRegionGetRamAddr space first.mr + first.xlat) done).map
              fun found => ({ globals with ramList := found.1 }, found.2)

/-! ### Layouts -/

/-- The region and the offset of every guest address. -/
abbrev Layout (Mr : Type) := BitVec 64 → Mr × BitVec 64

/-- A translation is at least one byte and at most what was asked for, and all its bytes are in one
piece of a region. -/
def Contiguous (space : Space Mr) (isWrite : Bool) (layout : Layout Mr) : Prop :=
  ∀ addr len, len ≠ 0 →
    1 ≤ (space.translate addr len isWrite).len.toNat ∧
    (space.translate addr len isWrite).len.toNat ≤ len.toNat ∧
    ∀ k < (space.translate addr len isWrite).len.toNat, layout (addr + BitVec.ofNat 64 k) =
      ((space.translate addr len isWrite).mr,
        (space.translate addr len isWrite).xlat + BitVec.ofNat 64 k)

/-- A region that is accessed directly has a block, and its addresses are inside of it. -/
def InBlocks (space : Space Mr) (isWrite : Bool) (layout : Layout Mr) : Prop :=
  ∀ addr, space.isDirect (layout addr).1 isWrite = true →
    ∃ block, space.ramBlock (layout addr).1 = some block ∧
      (layout addr).2.toNat < block.maxLength.toNat

/-- The host address of a guest address. -/
def hostAddr (space : Space Mr) (layout : Layout Mr) (addr : BitVec 64) : Option (BitVec 64) :=
  (space.ramBlock (layout addr).1).map fun block => ramblockPtr block (layout addr).2

/-! ### The loop -/

section Loop

variable {space : Space Mr} {isWrite : Bool} {layout : Layout Mr} {start total : BitVec 64}
  {mr : Mr} {base : BitVec 64}

/-- Some bytes from the start on are translated as by one translation. -/
def OnePiece (layout : Layout Mr) (start : BitVec 64) (mr : Mr) (base : BitVec 64) (count : Nat) :
    Prop :=
  ∀ k < count, layout (start + BitVec.ofNat 64 k) = (mr, base + BitVec.ofNat 64 k)

/-- The next bytes go on where the first ones would. -/
theorem OnePiece.append {done : BitVec 64} {more : Nat}
    (onePiece : OnePiece layout start mr base done.toNat)
    (next : OnePiece layout (start + done) mr (base + done) more) :
    OnePiece layout start mr base (done.toNat + more) := by
  intro k isLess
  by_cases isFirst : k < done.toNat
  · exact onePiece k isFirst
  · have shift : BitVec.ofNat 64 k = done + BitVec.ofNat 64 (k - done.toNat) := by
      rw [← Nat.add_sub_cancel' (Nat.le_of_not_lt isFirst), BitVec.ofNat_add, BitVec.ofNat_toNat,
        BitVec.setWidth_eq, Nat.add_sub_cancel_left]
    rw [shift, ← BitVec.add_assoc, ← BitVec.add_assoc]
    exact next _ (by omega)

/-- What holds in front of a turn. -/
structure InProgress (layout : Layout Mr) (start total : BitVec 64) (mr : Mr) (base : BitVec 64)
    (p : Progress) : Prop where
  addr : p.addr = start + p.done
  sum : p.done.toNat + p.len.toNat = total.toNat
  positive : 1 ≤ p.l.toNat
  fits : p.l.toNat ≤ p.len.toNat
  onePiece : OnePiece layout start mr base (p.done.toNat + p.l.toNat)

/-- What the loop returns. -/
structure IsDone (layout : Layout Mr) (start total : BitVec 64) (mr : Mr) (base : BitVec 64)
    (done : BitVec 64) : Prop where
  positive : 1 ≤ done.toNat
  fits : done.toNat ≤ total.toNat
  onePiece : OnePiece layout start mr base done.toNat

variable [DecidableEq Mr] {p : Progress}

theorem mapTurn_cases (contiguous : Contiguous space isWrite layout)
    (inProgress : InProgress layout start total mr base p) :
    (∃ next, some (mapTurn space isWrite mr base p) = some (.again next) ∧
      InProgress layout start total mr base next ∧ next.len.toNat < p.len.toNat) ∨
    ∃ done, some (mapTurn space isWrite mr base p) = some (.done done) ∧
      IsDone layout start total mr base done := by
  obtain ⟨isAddr, sum, positive, fits, onePiece⟩ := inProgress
  have isDone : (p.done + p.l).toNat = p.done.toNat + p.l.toNat := by
    rw [BitVec.toNat_add]
    exact Nat.mod_eq_of_lt (by have := total.isLt; omega)
  have isRest : (p.len - p.l).toNat = p.len.toNat - p.l.toNat := BitVec.toNat_sub_of_le fits
  have ends : IsDone layout start total mr base (p.done + p.l) :=
    ⟨by omega, by omega, isDone ▸ onePiece⟩
  rw [mapTurn]
  dsimp only
  split
  · exact .inr ⟨_, rfl, ends⟩
  · next isMore =>
    obtain ⟨atLeast, atMost, piece⟩ := contiguous (p.addr + p.l) _ isMore
    split
    · exact .inr ⟨_, rfl, ends⟩
    · next continues =>
      obtain ⟨sameMr, sameXlat⟩ := not_or.mp continues
      rw [Decidable.not_not.mp sameMr, Decidable.not_not.mp sameXlat] at piece
      have isNext : p.addr + p.l = start + (p.done + p.l) := by rw [isAddr, BitVec.add_assoc]
      refine .inl ⟨_, rfl, ⟨isNext, ?_, atLeast, atMost, ?_⟩, ?_⟩
      · dsimp only
        omega
      · refine ends.onePiece.append ?_
        rw [← isNext]
        exact piece
      · dsimp only
        omega

theorem mapLoop_returns (contiguous : Contiguous space isWrite layout)
    (inProgress : InProgress layout start total mr base p) {fuel : Nat}
    (enough : p.len.toNat < fuel) :
    ∃ done, loop (fun p => some (mapTurn space isWrite mr base p)) fuel p = some done ∧
      IsDone layout start total mr base done :=
  loop_returns (InProgress layout start total mr base) (IsDone layout start total mr base)
    (fun p => p.len.toNat) (fun _ holds => mapTurn_cases contiguous holds) inProgress enough

end Loop

/-! ### Mappings -/

/-- A request that is served from memory: the loop ends, the length is at least one and at most what
was asked for, and every byte is where its own address is translated to. -/
theorem addressSpaceMap_host [DecidableEq Mr] {space : Space Mr} {isWrite : Bool}
    {layout : Layout Mr} (contiguous : Contiguous space isWrite layout)
    (inBlocks : InBlocks space isWrite layout) (addr len : BitVec 64) (nonempty : len ≠ 0)
    (isDirect : space.isDirect (space.translate addr len isWrite).mr isWrite = true)
    (globals : Globals Mr) :
    ∃ ptr plen,
      (∀ fuel, len.toNat < fuel →
        addressSpaceMap space fuel globals addr len isWrite =
          some (globals, .host ptr plen)) ∧
      1 ≤ plen.toNat ∧ plen.toNat ≤ len.toNat ∧
      ∀ k < plen.toNat, hostAddr space layout (addr + BitVec.ofNat 64 k) =
        some (ptr + BitVec.ofNat 64 k) := by
  obtain ⟨atLeast, atMost, piece⟩ := contiguous addr len nonempty
  generalize isFirst : space.translate addr len isWrite = first at *
  -- the first byte is inside the block
  have atFirst : layout addr = (first.mr, first.xlat) := by
    simpa using piece 0 atLeast
  obtain ⟨block, isBlock, inside⟩ := inBlocks addr (by rw [atFirst]; exact isDirect)
  rw [atFirst] at isBlock inside
  dsimp only at isBlock inside
  have start : InProgress layout addr len first.mr first.xlat ⟨addr, len, 0, first.len⟩ :=
    ⟨(BitVec.add_zero addr).symm, by simp, atLeast, atMost, by simpa [OnePiece] using piece⟩
  obtain ⟨done, returned, isDone⟩ :=
    mapLoop_returns contiguous start (Nat.lt_succ_self len.toNat)
  have isOffset : memoryRegionGetRamAddr space first.mr + first.xlat - block.offset =
      first.xlat := by
    rw [memoryRegionGetRamAddr, isBlock, BitVec.add_comm]
    exact BitVec.add_sub_cancel _ _
  have notZero : done ≠ 0 := fun isZero => by
    have positive := isDone.positive
    rw [isZero] at positive
    exact absurd positive (by decide)
  have room : (block.maxLength - first.xlat).toNat = block.maxLength.toNat - first.xlat.toNat :=
    BitVec.toNat_sub_of_le (Nat.le_of_lt inside)
  have isLength : (minLen done (block.maxLength - first.xlat)).toNat =
      min done.toNat (block.maxLength.toNat - first.xlat.toNat) := by
    rw [minLen, ← room]
    split
    · next isLess => exact (Nat.min_eq_left (Nat.le_of_lt isLess)).symm
    · next isMore => exact (Nat.min_eq_right (Nat.le_of_not_lt isMore)).symm
  have positive := isDone.positive
  have fits := isDone.fits
  refine ⟨ramblockPtr block first.xlat, minLen done (block.maxLength - first.xlat),
    fun fuel enough => ?_, ?_, ?_, fun k isLess => ?_⟩
  · obtain ⟨other, again, -⟩ := mapLoop_returns contiguous start enough
    obtain rfl : other = done := loop_unique again returned
    rw [addressSpaceMap, if_neg nonempty]
    simp only [isFirst, isDirect, Bool.true_eq_false, if_false, again, Option.bind_some,
      qemuRamPtrLength, blockOf, notZero, isBlock, Option.map_some, isOffset]
  · omega
  · omega
  · have inPiece := isDone.onePiece k (by omega)
    rw [hostAddr, inPiece, isBlock, Option.map_some, ramblockPtr, ramblockPtr, BitVec.add_assoc]

/-- The regions of a small machine. -/
inductive PageRegion where
  | ram
  | mmio
deriving DecidableEq

/-- One page of memory and nothing but registers behind it. -/
def pageLayout : Layout PageRegion := fun addr => (if addr < 0x1000 then .ram else .mmio, addr)

/-- The page is translated byte by byte. -/
def pageSpace : Space PageRegion where
  translate addr _ _ := ⟨(pageLayout addr).1, (pageLayout addr).2, 1⟩
  isDirect mr _ := mr = .ram
  ramBlock mr := if mr = .ram then some ⟨0x7f0000000000, 0, 0x1000⟩ else none
  targetPageSize := 0x1000

/-- Nothing is mapped. -/
def unmapped : Globals PageRegion := ⟨⟨false, 0, 0, none⟩, ⟨none, []⟩⟩

theorem pageSpace_contiguous (isWrite : Bool) : Contiguous pageSpace isWrite pageLayout := by
  intro addr len nonempty
  have positive : len.toNat ≠ 0 := fun isZero => nonempty (BitVec.eq_of_toNat_eq isZero)
  refine ⟨Nat.le_refl 1, Nat.one_le_iff_ne_zero.mpr positive, fun k isLess => ?_⟩
  obtain rfl : k = 0 := Nat.lt_one_iff.mp isLess
  simp [pageSpace]

theorem pageSpace_inBlocks (isWrite : Bool) : InBlocks pageSpace isWrite pageLayout := by
  intro addr isDirect
  have isRam : (pageLayout addr).1 = .ram := of_decide_eq_true isDirect
  refine ⟨⟨0x7f0000000000, 0, 0x1000⟩, by rw [isRam]; rfl, ?_⟩
  by_cases inPage : addr < 0x1000
  · exact inPage
  · rw [pageLayout, if_neg inPage] at isRam
    cases isRam

/-- Three bytes from the last two of the page: two translations go together, the third is
elsewhere. -/
theorem addressSpaceMap_host_pageEnd :
    addressSpaceMap pageSpace 4 unmapped 0xffe 3 true =
      some (unmapped, .host 0x7f0000000ffe 2) ∧
    ∃ ptr plen,
      (∀ fuel, 3 < fuel →
        addressSpaceMap pageSpace fuel unmapped 0xffe 3 true = some (unmapped, .host ptr plen)) ∧
      1 ≤ plen.toNat ∧ plen.toNat ≤ 3 ∧
      ∀ k < plen.toNat, hostAddr pageSpace pageLayout (0xffe + BitVec.ofNat 64 k) =
        some (ptr + BitVec.ofNat 64 k) :=
  ⟨rfl, addressSpaceMap_host (pageSpace_contiguous true) (pageSpace_inBlocks true) 0xffe 3
    (by decide) rfl unmapped⟩

end StudyNotes.Memory
