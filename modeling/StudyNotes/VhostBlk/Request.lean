/-
This file models one request to the vhost block device, from its chain of
descriptors to its report in the used ring.

A vector that is not aligned is replaced by one of the device's own, which is
copied back when the request completes. Whether it was a read is decided twice:
at submission from the type without its barrier bit, and at completion from the
type as it stands in the guest's memory then.
-/

import StudyNotes.Library.Store
import StudyNotes.VhostBlk.Chain

namespace StudyNotes.VhostBlk

open Library

/-! ### Memory and vectors -/

/-- The device's address space, with the guest's memory mapped into it. -/
abbrev Memory := BitVec 64 → UInt8

/-- The addresses of a range of bytes. -/
def span (base : BitVec 64) (len : Nat) : List (BitVec 64) :=
  (List.range len).map fun i => base + BitVec.ofNat 64 i

/-- The addresses of the bytes of a vector. -/
def vectorBytes (iovs : List Iovec) : List (BitVec 64) :=
  iovs.flatMap fun iov => span iov.base iov.len

/-- `get_vector_size`. -/
def getVectorSize (iovs : List Iovec) : Nat := (iovs.map (·.len)).sum

/-- `copy_vector`. -/
def copyVector (memory : Memory) (dst src : List Iovec) (size : Nat) : Memory :=
  store memory (vectorBytes dst) (((vectorBytes src).take size).map memory)

/-- `struct aligned_vector`. -/
structure AlignedVector where
  iov : List Iovec
  size : Nat

/-- A number of `count` bytes, the least significant one at the lowest address. -/
def loadLe (memory : Memory) (base : BitVec 64) (count : Nat) : Nat :=
  (span base count).foldr (fun address high => (memory address).toNat + 256 * high) 0

/-- `struct virtio_blk_outhdr`, at its address. -/
def reqType (memory : Memory) (req : BitVec 64) : BitVec 32 := BitVec.ofNat 32 (loadLe memory req 4)

def reqSector (memory : Memory) (req : BitVec 64) : BitVec 64 :=
  BitVec.ofNat 64 (loadLe memory (req + 8) 8)

def reqSize : Nat := 16

/-! ### The request -/

def virtioBlkTIn : BitVec 32 := 0
def virtioBlkTOut : BitVec 32 := 1
def virtioBlkTGetId : BitVec 32 := 8
def virtioBlkTBarrier : BitVec 32 := 0x80000000
def virtioBlkIdBytes : Nat := 20

def virtioBlkSOk : UInt8 := 0
def virtioBlkSIoerr : UInt8 := 1
def virtioBlkSUnsupp : UInt8 := 2

/-- A read or a write, as it is handed to the block device layer. -/
structure BdevIo where
  isRead : Bool
  iov : List Iovec
  offset : BitVec 64
  nbytes : BitVec 32

/--
The parts of the device that a request depends on. `isVectorAligned` and
`mallocAlignedVector` are the functions of these names; `accepts` says whether
`spdk_bdev_readv` or `spdk_bdev_writev` takes a request.
-/
structure BlkDev where
  readonly : Bool
  productName : List UInt8
  isVectorAligned : List Iovec → Bool
  mallocAlignedVector : Nat → Option AlignedVector
  accepts : BdevIo → Bool

/-- The fields of `struct spdk_vhost_blk_task` that a request sets. -/
structure BlkTask where
  req : BitVec 64
  iovs : List Iovec
  status : BitVec 64
  usedLen : BitVec 32
  alignedVector : Option AlignedVector

/-- What has become of a request: it is in the used ring already, or with the block device. -/
inductive Outcome where
  | reported (memory : Memory) (usedLen : BitVec 32)
  | submitted (memory : Memory) (task : BlkTask) (io : BdevIo)

/-- `invalid_blk_request`, with the place of the status byte if it is known. -/
def invalidBlkRequest (memory : Memory) (status : Option (BitVec 64)) (usedLen : BitVec 32)
    (value : UInt8) : Outcome :=
  match status with
  | none => .reported memory usedLen
  | some address => .reported (Function.update memory address value) usedLen

/-- `blk_request_finish`. -/
def blkRequestFinish (success : Bool) (memory : Memory) (task : BlkTask) : Memory × BitVec 32 :=
  (Function.update memory task.status (if success then virtioBlkSOk else virtioBlkSIoerr),
    task.usedLen)

/--
The entry of the task's array that is at an index, where the entries have been
written in this order and the index is a `uint16_t`.
-/
def iovAt (iovs : List Iovec) (index : Nat) : Option Iovec :=
  iovs[index + 2 ^ 16 * ((iovs.length - 1 - index) / 2 ^ 16)]?

/-- The vector that the block device gets: the guest's own one, or an aligned one. -/
inductive DataIov where
  | own
  | aligned (vector : AlignedVector)
  | failed (status : UInt8)

def chooseDataIov (dev : BlkDev) (iovs : List Iovec) (payloadLen : BitVec 32) : DataIov :=
  if dev.isVectorAligned iovs then .own
  else if getVectorSize iovs ≠ payloadLen.toNat then .failed virtioBlkSIoerr
  else match dev.mallocAlignedVector payloadLen.toNat with
    | none => .failed virtioBlkSUnsupp
    | some vector => .aligned vector

variable (dev : BlkDev) (memory : Memory) (task : BlkTask)

/-- The end of the case of reads and writes: `spdk_bdev_readv`, `spdk_bdev_writev` or neither. -/
def submitIo (io : BdevIo) : Outcome :=
  if (io.isRead || !dev.readonly) && dev.accepts io then .submitted memory task io
  else invalidBlkRequest memory (some task.status) task.usedLen virtioBlkSIoerr

/-- `process_blk_request` for reads and writes. -/
def processReadWrite (isRead : Bool) (payloadLen : BitVec 32) : Outcome :=
  -- a write to a device that is read only leaves `used_len` as it was
  let usedLen := if isRead then payloadLen + 1 else if dev.readonly then 0 else 1
  match chooseDataIov dev task.iovs payloadLen with
  | .failed status => invalidBlkRequest memory (some task.status) 0 status
  | .own =>
    submitIo dev memory { task with usedLen := usedLen }
      { isRead := isRead, iov := task.iovs, offset := reqSector memory task.req * 512
        nbytes := payloadLen }
  | .aligned vector =>
    let copied :=
      if isRead then memory else copyVector memory vector.iov task.iovs payloadLen.toNat
    submitIo dev copied { task with usedLen := usedLen, alignedVector := some vector }
      { isRead := isRead, iov := vector.iov, offset := reqSector copied task.req * 512
        nbytes := payloadLen }

/-- `process_blk_request` for the name of the device, with `spdk_strcpy_pad`. -/
def processGetId (payloadLen : BitVec 32) : Outcome :=
  match task.iovs with
  | [] => invalidBlkRequest memory (some task.status) 0 virtioBlkSUnsupp
  | iov :: _ =>
    if payloadLen = 0 then invalidBlkRequest memory (some task.status) 0 virtioBlkSUnsupp
    else
      let usedLen := min virtioBlkIdBytes iov.len
      let padded := (dev.productName ++ List.replicate usedLen 32).take usedLen
      let finished := blkRequestFinish true (store memory (span iov.base usedLen) padded)
        { task with usedLen := BitVec.ofNat 32 usedLen }
      .reported finished.1 finished.2

/-- `process_blk_request` behind `blk_iovs_setup`. The array has an entry for every index. -/
def processSetup (dev : BlkDev) (memory : Memory) (setup : Setup) : Option Outcome := do
  let first ← iovAt setup.iovs 0
  let last ← iovAt setup.iovs (setup.iovsCnt.toNat - 1)
  if first.len ≠ reqSize then some (invalidBlkRequest memory none 0 virtioBlkSUnsupp)
  else if last.len ≠ 1 then some (invalidBlkRequest memory none 0 virtioBlkSUnsupp)
  else
    let task : BlkTask :=
      { req := first.base
        iovs := (List.range (setup.iovsCnt.toNat - 2)).filterMap fun i => iovAt setup.iovs (i + 1)
        status := last.base
        usedLen := 0
        alignedVector := none }
    let payloadLen := setup.length - BitVec.ofNat 32 (reqSize + 1)
    let type := reqType memory first.base &&& ~~~virtioBlkTBarrier
    if type = virtioBlkTIn then some (processReadWrite dev memory task true payloadLen)
    else if type = virtioBlkTOut then some (processReadWrite dev memory task false payloadLen)
    else if type = virtioBlkTGetId then some (processGetId dev memory task payloadLen)
    else some (invalidBlkRequest memory (some task.status) 0 virtioBlkSUnsupp)

/--
`process_blk_request`. The guest's tables are read by `blk_iovs_setup`; there is no
outcome if that does not return.
-/
def processBlkRequest (dev : BlkDev) (guest : GuestTables) (memory : Memory) (reqIdx fuel : Nat) :
    Option Outcome :=
  match blkIovsSetup guest reqIdx fuel with
  | none => none
  | some none => some (invalidBlkRequest memory none 0 virtioBlkSUnsupp)
  | some (some setup) => processSetup dev memory setup

/-- `blk_request_complete_cb`. -/
def blkRequestCompleteCb (success : Bool) (memory : Memory) (task : BlkTask) : Memory × BitVec 32 :=
  match task.alignedVector with
  | none => blkRequestFinish success memory task
  | some vector =>
    let copied :=
      if reqType memory task.req = virtioBlkTIn then
        copyVector memory task.iovs vector.iov vector.size
      else memory
    blkRequestFinish success copied task

/-! ### A read in flight -/

/-- What the guest writes to the header of its request, byte by byte. -/
abbrev HeaderWrites := List (Fin reqSize × UInt8)

def writeHeader (req : BitVec 64) (memory : Memory) (writes : HeaderWrites) : Memory :=
  store memory (writes.map fun write => req + BitVec.ofNat 64 write.1) (writes.map (·.2))

/--
A read between its submission and its report: the guest writes to its header before
and after the block device has put the bytes that it has read into the vector.
-/
def completeRead (memory : Memory) (task : BlkTask) (io : BdevIo) (bytes : List UInt8)
    (before after : HeaderWrites) : Memory :=
  let filled := store (writeHeader task.req memory before) (vectorBytes io.iov) bytes
  (blkRequestCompleteCb true (writeHeader task.req filled after) task).1

end StudyNotes.VhostBlk
