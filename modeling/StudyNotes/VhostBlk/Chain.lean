/-
This file models how the vhost block device turns a chain of descriptors, which
a guest has written, into a vector of buffers in its own memory.

A descriptor is cut where the guest's memory is mapped to different places, and
a cut can only be at a boundary of two megabytes. The chain is followed for as
long as the descriptors say that there is a next one. Neither the number of
descriptors nor the number of buffers is limited here.
-/

import StudyNotes.Virtqueue.Ring

namespace StudyNotes.VhostBlk

open Library
open Virtqueue (VringDesc vringDescFNext vringDescFWrite vringDescFIndirect descSize)

/-! ### The guest's memory -/

/-- `struct rte_vhost_mem_region`. -/
structure MemRegion where
  guestPhysAddr : BitVec 64
  hostUserAddr : BitVec 64
  size : BitVec 64

/-- `rte_vhost_gpa_to_vva`. -/
def gpaToVva (regions : List MemRegion) (gpa : BitVec 64) : BitVec 64 :=
  match regions.find? fun reg =>
      gpa ≥ reg.guestPhysAddr ∧ gpa < reg.guestPhysAddr + reg.size with
  | some reg => gpa - reg.guestPhysAddr + reg.hostUserAddr
  | none => 0

/-! ### One descriptor -/

/-- `struct iovec`. -/
structure Iovec where
  base : BitVec 64
  len : Nat
  deriving DecidableEq

/-- Two megabytes. -/
def hugePage : Nat := 0x200000

/--
The number of bytes up to the next boundary of a huge page, with `_2MB_OFFSET`
(whose definition lacks its last bracket) as the offset in the page.
-/
def toBoundary (payload : BitVec 64) : Nat := hugePage - payload.toNat % hugePage

variable (mem : BitVec 64 → BitVec 64)

/-- One turn of the inner loop of `spdk_vhost_vring_desc_to_iov`, on its variable `len`. -/
def growTurn (payload : BitVec 64) (remaining len : Nat) : Option (Turn Nat Nat) :=
  if len < remaining then
    if mem payload + BitVec.ofNat 64 len ≠ mem (payload + BitVec.ofNat 64 len) then some (.done len)
    else some (.again (len + min (remaining - len) hugePage))
  else some (.done len)

/-- The length of the next buffer. Every turn of the loop grows it, up to the remaining bytes. -/
def pieceLen (payload : BitVec 64) (remaining : Nat) : Option Nat :=
  if remaining ≤ toBoundary payload then some remaining
  else loop (growTurn mem payload remaining) (remaining + 1) (toBoundary payload)

/-- One turn of the outer loop of `spdk_vhost_vring_desc_to_iov`. -/
def splitTurn :
    BitVec 64 × Nat × List Iovec → Option (Turn (BitVec 64 × Nat × List Iovec) (List Iovec))
  | (payload, remaining, iovs) =>
    if remaining = 0 then some (.done iovs)
    else (pieceLen mem payload remaining).map fun len =>
      .again (payload + BitVec.ofNat 64 len, remaining - len,
        iovs ++ [{ base := mem payload, len := len }])

/-- `spdk_vhost_vring_desc_to_iov`: the buffers of a descriptor. Each turn uses up bytes of it. -/
def descToIov (desc : VringDesc) : Option (List Iovec) :=
  loop (splitTurn mem) (desc.len.toNat + 1) (desc.addr, desc.len.toNat, [])

/-! ### A chain of descriptors -/

/-- `flags & VRING_DESC_F_INDIRECT` and the like. -/
def hasFlag (desc : VringDesc) (flag : BitVec 16) : Bool := desc.flags &&& flag != 0

/--
What a guest has in its memory: the table of the ring and the regions that are
mapped. `indirect` is the table that `spdk_vhost_gpa_to_vva` finds at an address,
if that many bytes are mapped there.
-/
structure GuestTables where
  desc : Nat → VringDesc
  size : BitVec 16
  regions : List MemRegion
  indirect : BitVec 64 → Nat → Option (Nat → VringDesc)

/-- A table of descriptors, missing if it is not mapped, its size, and where the walk starts. -/
structure Table where
  desc : Option (Nat → VringDesc)
  size : Nat
  start : Nat

/-- `spdk_vhost_vq_get_desc`. -/
def getDesc (guest : GuestTables) (reqIdx : Nat) : Table :=
  let desc := guest.desc reqIdx
  if hasFlag desc vringDescFIndirect then
    let size := desc.len.toNat / descSize
    { desc := guest.indirect desc.addr (descSize * size), size := size, start := 0 }
  else { desc := some guest.desc, size := guest.size.toNat, start := reqIdx }

/--
The variables of the loop of `blk_iovs_setup`. The list has the buffers in the
order in which they are written; the index `cnt` is a `uint16_t`, so the buffer
at position `k` of the list goes to the entry `k % 2 ^ 16` of the caller's array.
-/
structure Walk where
  desc : Nat
  cnt : BitVec 16
  outCnt : BitVec 16
  len : BitVec 32
  iovs : List Iovec

/-- The values that `blk_iovs_setup` returns when it succeeds. -/
structure Setup where
  iovs : List Iovec
  iovsCnt : BitVec 16
  length : BitVec 32

/-- The end of `blk_iovs_setup`, behind its loop. -/
def finishSetup (walk : Walk) : Option Setup :=
  if walk.outCnt = 0 ∨ walk.cnt < 2 then none
  else some { iovs := walk.iovs, iovsCnt := walk.cnt, length := walk.len }

/-- What one descriptor adds to the variables. -/
def addDesc (walk : Walk) (desc : VringDesc) (iovs : List Iovec) : Walk where
  desc := walk.desc
  cnt := walk.cnt + BitVec.ofNat 16 iovs.length
  outCnt := walk.outCnt + if hasFlag desc vringDescFWrite then 1 else 0
  len := walk.len + desc.len
  iovs := walk.iovs ++ iovs

/-- One turn of the loop of `blk_iovs_setup`, with `spdk_vhost_vring_desc_get_next`. -/
def setupTurn (table : Nat → VringDesc) (size : Nat) (walk : Walk) :
    Option (Turn Walk (Option Setup)) :=
  let desc := table walk.desc
  (descToIov mem desc).map fun iovs =>
    let added := addDesc walk desc iovs
    if !hasFlag desc vringDescFNext then .done (finishSetup added)
    else if desc.next.toNat ≥ size then .done none
    else .again { added with desc := desc.next.toNat }

def startWalk (start : Nat) : Walk :=
  { desc := start, cnt := 0, outCnt := 0, len := 0, iovs := [] }

/--
`blk_iovs_setup`, for as many turns as there is fuel for. The result of
`spdk_vhost_vq_get_desc` is not looked at, so a table that is not mapped is used
all the same: there is no result then.
-/
def blkIovsSetup (guest : GuestTables) (reqIdx fuel : Nat) : Option (Option Setup) :=
  let table := getDesc guest reqIdx
  match table.desc with
  | none => none
  | some desc =>
    loop (setupTurn (gpaToVva guest.regions) desc table.size) fuel (startWalk table.start)

end StudyNotes.VhostBlk
