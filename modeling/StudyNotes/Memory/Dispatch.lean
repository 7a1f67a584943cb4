/-
This file models how the sections of a flat view enter the dispatch table of an
address space: `mem_begin`, `mem_add` with its split of a section into pieces,
`register_subpage`, `subpage_init`, `subpage_register` and `phys_section_add`,
and the lookup of an address.

`register_multipage` and `phys_page_find` are outside the source. The first adds
the section and sets its whole pages, the second walks the radix tree and checks
that the section it finds covers the address. An assertion that fails ends the
run with a fault.
-/

import StudyNotes.Library.Word
import StudyNotes.Memory.FlatView
import StudyNotes.Memory.PhysMap

namespace StudyNotes.Memory

open Library

/-! ### Pages -/

variable (target : Target)

/-- `TARGET_PAGE_SIZE`. -/
def Target.pageSize : Nat := 2 ^ target.pageBits

/-- `addr & TARGET_PAGE_MASK`. -/
def Target.pageMask (addr : Nat) : Nat := Word.alignDown 64 addr target.pageSize

/-- `addr & ~TARGET_PAGE_MASK`. -/
def Target.pageOffset (addr : Nat) : Nat := addr &&& (target.pageSize - 1)

/-- `TARGET_PAGE_ALIGN(addr)`. -/
def Target.pageAlign (addr : Nat) : Nat :=
  target.pageMask (Word.add 64 addr (target.pageSize - 1))

def int128Neg (a : Int) : Int := wrap128 (-a)

def int128And (a b : Int) : Int := (BitVec.ofInt 128 a &&& BitVec.ofInt 128 b).toInt

/-! ### Sections -/

/-- The region of a section: one of the four fixed ones, a subpage, or a region of the guest. -/
inductive RegionRef
  | ioMemUnassigned
  | ioMemNotdirty
  | ioMemRom
  | ioMemWatch
  | subpage (index : Nat)
  | region (id : Nat)
  deriving DecidableEq, Repr

/-- `MemoryRegionSection`, in one address space. -/
structure MemoryRegionSection where
  mr : RegionRef
  offsetWithinRegion : Nat
  size : Int
  offsetWithinAddressSpace : Nat
  readonly : Bool
  deriving DecidableEq, Repr

/-- `subpage_t`: the page, and the section of each of its bytes. -/
structure Subpage where
  base : Nat
  subSection : Nat → Nat

/-- `AddressSpaceDispatch`, and the subpages it refers to. -/
structure AddressSpaceDispatch where
  map : PhysMap
  sections : List MemoryRegionSection
  subpages : List Subpage

variable (d : AddressSpaceDispatch)

/-- Add a section; its index is a 16-bit number. -/
def physSectionAdd (sect : MemoryRegionSection) : Except Fault (Nat × AddressSpaceDispatch) :=
  if d.sections.length < target.pageSize then
    .ok (d.sections.length % 2 ^ 16, { d with sections := d.sections ++ [sect] })
  else .error .sectionsFull

def dummySection (mr : RegionRef) : Except Fault (Nat × AddressSpaceDispatch) :=
  physSectionAdd target d
    { mr, offsetWithinRegion := 0, size := 2 ^ 64, offsetWithinAddressSpace := 0,
      readonly := false }

/-- A table without sections. -/
def emptyDispatch : AddressSpaceDispatch where
  map :=
    { root := { skip := 1, ptr := physMapNodeNil }
      nodes := fun _ _ => { skip := 0, ptr := 0 }
      nodesNb := 0
      nodesNbAlloc := 0 }
  sections := []
  subpages := []

/-- Start a new table with the four fixed sections. -/
def memBegin : Except Fault AddressSpaceDispatch := do
  let (n, d) ← dummySection target emptyDispatch .ioMemUnassigned
  if n ≠ physSectionUnassigned then throw .dummySection
  let (n, d) ← dummySection target d .ioMemNotdirty
  if n ≠ 1 then throw .dummySection
  let (n, d) ← dummySection target d .ioMemRom
  if n ≠ 2 then throw .dummySection
  let (n, d) ← dummySection target d .ioMemWatch
  if n ≠ 3 then throw .dummySection
  return d

/-! ### Looking up -/

/-- The address lies in the section. -/
def MemoryRegionSection.Contains (sect : MemoryRegionSection) (addr : Nat) : Prop :=
  (sect.offsetWithinAddressSpace : Int) ≤ addr ∧
    (addr : Int) < sect.offsetWithinAddressSpace + sect.size

instance (sect : MemoryRegionSection) (addr : Nat) : Decidable (sect.Contains addr) :=
  inferInstanceAs (Decidable (_ ∧ _))

/-- The section that the radix tree has for an address; the unassigned one when the address is
outside it. -/
def physPageFind (addr : Nat) :
    Option MemoryRegionSection := do
  let sect ← d.sections[physPageWalk d.map (addr / target.pageSize) target.levels d.map.root]?
  if 2 ^ 64 ≤ sect.size ∨ sect.Contains addr then some sect
  else d.sections[physSectionUnassigned]?

/-- The section that an access to an address goes to. -/
def dispatchLookup (addr : Nat) :
    Option MemoryRegionSection := do
  let sect ← physPageFind target d addr
  match sect.mr with
  | .subpage index =>
    let subpage ← d.subpages[index]?
    d.sections[subpage.subSection (target.pageOffset addr)]?
  | _ => some sect

/-! ### Registering -/

/-- The loop of `subpage_register`, for a number of bytes. -/
def registerBytes (sect : Nat) : Nat → Nat → (Nat → Nat) → Nat → Nat
  | 0, _, subSection => subSection
  | count + 1, idx, subSection =>
    registerBytes sect count (idx + 1) fun i => if i = idx then sect else subSection i

/-- Give the bytes from `start` to `stop` of a page to a section. -/
def subpageRegister (mmio : Subpage) (start stop sect : Nat) : Int × Subpage :=
  if target.pageSize ≤ start ∨ target.pageSize ≤ stop then (-1, mmio)
  else
    let idx := target.pageOffset start
    let eidx := target.pageOffset stop
    (0, { mmio with subSection := registerBytes sect (eidx + 1 - idx) idx mmio.subSection })

/-- A new subpage: all its bytes are unassigned. -/
def subpageInit (base : Nat) : Subpage :=
  (subpageRegister target { base, subSection := fun _ => 0 } 0 (target.pageSize - 1)
    physSectionUnassigned).2

/-- The subpage of a page: the one that the map has, or a new one. -/
def findSubpage (base : Nat)
    (existing : MemoryRegionSection) : Except Fault (Nat × AddressSpaceDispatch) :=
  match existing.mr with
  | .subpage index => .ok (index, d)
  | .ioMemUnassigned => do
    let index := d.subpages.length
    let d := { d with subpages := d.subpages ++ [subpageInit target base] }
    let subsection : MemoryRegionSection :=
      { mr := .subpage index, offsetWithinRegion := 0, size := target.pageSize,
        offsetWithinAddressSpace := base, readonly := false }
    let (leaf, d) ← physSectionAdd target d subsection
    let map ← physPageSet target d.map (base / target.pageSize) 1 leaf
    return (index, { d with map })
  | _ => .error .existingSection

/-- Register a section that lies in one page. -/
def registerSubpage (host : Host) (target : Target) (d : AddressSpaceDispatch)
    (sect : MemoryRegionSection) : Except Fault AddressSpaceDispatch := do
  let base := target.pageMask sect.offsetWithinAddressSpace
  match physPageFind target d base with
  | none => .error .dangling
  | some existing =>
    let (index, d) ← findSubpage target d base existing
    let start := target.pageOffset sect.offsetWithinAddressSpace
    let stop := Word.sub 64 (Word.add 64 start (host.int128Get64 sect.size).toNat) 1
    let (leaf, d) ← physSectionAdd target d sect
    match d.subpages[index]? with
    | none => .error .dangling
    | some subpage =>
      return { d with
        subpages := d.subpages.set index
          (subpageRegister target subpage (start % 2 ^ 32) (stop % 2 ^ 32) leaf).2 }

/-- Register a section of whole pages. -/
def registerMultipage (sect : MemoryRegionSection) :
    Except Fault AddressSpaceDispatch := do
  let (leaf, d) ← physSectionAdd target d sect
  let map ← physPageSet target d.map (sect.offsetWithinAddressSpace / target.pageSize)
    (sect.size.toNat / target.pageSize) leaf
  return { d with map }

/-- What is left of a section after a piece of it. -/
def MemoryRegionSection.after (host : Host) (now remain : MemoryRegionSection) :
    MemoryRegionSection :=
  { remain with
    size := int128Sub remain.size now.size
    offsetWithinAddressSpace :=
      Word.add 64 remain.offsetWithinAddressSpace (host.int128Get64 now.size).toNat
    offsetWithinRegion := Word.add 64 remain.offsetWithinRegion (host.int128Get64 now.size).toNat }

/-- The loop of `mem_add`. -/
def memAddLoop (host : Host) (target : Target) :
    Nat → AddressSpaceDispatch → MemoryRegionSection → MemoryRegionSection →
      Except Fault AddressSpaceDispatch
  | fuel, d, now, remain =>
    if remain.size = now.size then .ok d
    else
      match fuel with
      | 0 => .error .loopBound
      | fuel + 1 => do
        let remain := now.after host remain
        if remain.size < target.pageSize then
          let d ← registerSubpage host target d remain
          memAddLoop host target fuel d remain remain
        else if target.pageOffset remain.offsetWithinAddressSpace ≠ 0 then
          let now := { remain with size := (target.pageSize : Int) }
          let d ← registerSubpage host target d now
          memAddLoop host target fuel d now remain
        else
          let now := { remain with
            size := int128And remain.size (int128Neg target.pageSize) }
          let d ← registerMultipage target d now
          memAddLoop host target fuel d now remain

/-- The passes of the loop: a section has at most a ragged start, whole pages and a ragged
end. -/
def memAddPasses : Nat := 3

/-- Add a section to the table. -/
def memAdd (host : Host) (target : Target) (d : AddressSpaceDispatch)
    (sect : MemoryRegionSection) : Except Fault AddressSpaceDispatch := do
  if target.pageOffset sect.offsetWithinAddressSpace ≠ 0 then
    let left := Word.sub 64 (target.pageAlign sect.offsetWithinAddressSpace)
      sect.offsetWithinAddressSpace
    let now := { sect with size := min (left : Int) sect.size }
    let d ← registerSubpage host target d now
    memAddLoop host target memAddPasses d now sect
  else memAddLoop host target memAddPasses d { sect with size := 0 } sect

end StudyNotes.Memory
