/-
This file proves when the bytes of a read are in the guest's buffers as the
request is reported.

They are there if the guest's vector was aligned, for the block device has then
written to it directly. Otherwise they are copied back only if the type in the
header is that of a read without its barrier bit at the time of the completion.
A read with the barrier bit, or one whose header the guest changes in flight, is
reported as done while the guest's buffers have kept their old bytes.
-/

import StudyNotes.VhostBlk.Request

namespace StudyNotes.VhostBlk

open Library Function
open Virtqueue (VringDesc vringDescFNext vringDescFWrite)

/-! ### What is read in memory -/

theorem length_span (base : BitVec 64) (len : Nat) : (span base len).length = len := by
  rw [span, List.length_map, List.length_range]

theorem length_vectorBytes (iovs : List Iovec) :
    (vectorBytes iovs).length = getVectorSize iovs := by
  simp only [vectorBytes, getVectorSize, List.length_flatMap, length_span]

/-- The type is read from the header and from nowhere else. -/
theorem reqType_congr {memory memory' : Memory} {req : BitVec 64}
    (same : ∀ address ∈ span req reqSize, memory address = memory' address) :
    reqType memory req = reqType memory' req := by
  have agree : ∀ address ∈ span req 4, memory address = memory' address := by
    intro address member
    obtain ⟨i, within, isAddress⟩ := List.mem_map.mp member
    have below := List.mem_range.mp within
    exact same address
      (List.mem_map.mpr ⟨i, List.mem_range.mpr (by unfold reqSize; omega), isAddress⟩)
  have sum : loadLe memory req 4 = loadLe memory' req 4 :=
    List.foldr_ext _ _ 0 fun address member high => by rw [agree address member]
  rw [reqType, reqType, sum]

/-- The guest's writes to the header change nothing else. -/
theorem writeHeader_outside (memory : Memory) {req address : BitVec 64} (writes : HeaderWrites)
    (outside : address ∉ span req reqSize) : writeHeader req memory writes address =
      memory address := by
  refine store_outside memory _ fun member => outside ?_
  obtain ⟨write, _, rfl⟩ := List.mem_map.mp member
  exact List.mem_map.mpr ⟨write.1, List.mem_range.mpr write.1.isLt, rfl⟩

/-! ### What a read is when it is submitted -/

/-- A read as it is with the block device: on the guest's own vector, or on an aligned one. -/
structure SubmittedRead (dev : BlkDev) (task : BlkTask) (io : BdevIo) : Prop where
  own : dev.isVectorAligned task.iovs = true → task.alignedVector = none ∧ io.iov = task.iovs
  aligned : dev.isVectorAligned task.iovs = false → ∃ vector,
    dev.mallocAlignedVector io.nbytes.toNat = some vector ∧
      getVectorSize task.iovs = io.nbytes.toNat ∧ task.alignedVector = some vector ∧
      io.iov = vector.iov

variable {dev : BlkDev} {memory left : Memory} {task : BlkTask} {io : BdevIo}
  {payloadLen : BitVec 32}

theorem invalidBlkRequest_ne_submitted {status : Option (BitVec 64)} {usedLen : BitVec 32}
    {value : UInt8} : invalidBlkRequest memory status usedLen value ≠ .submitted left task io := by
  cases status <;> exact nofun

theorem submitIo_submitted {sent : BlkTask} {taken : BdevIo}
    (submitted : submitIo dev memory task io = .submitted left sent taken) :
    left = memory ∧ sent = task ∧ taken = io := by
  rw [submitIo] at submitted
  split at submitted
  · cases submitted
    exact ⟨rfl, rfl, rfl⟩
  · exact absurd submitted invalidBlkRequest_ne_submitted

theorem processReadWrite_submitted {sent : BlkTask} {isRead : Bool}
    (fresh : task.alignedVector = none)
    (submitted : processReadWrite dev memory task isRead payloadLen = .submitted left sent io) :
    io.isRead = isRead ∧ (isRead = true → left = memory) ∧ SubmittedRead dev sent io := by
  simp only [processReadWrite] at submitted
  split at submitted
  · exact absurd submitted invalidBlkRequest_ne_submitted
  · next own =>
    obtain ⟨rfl, rfl, rfl⟩ := submitIo_submitted submitted
    rw [chooseDataIov] at own
    split at own
    · next isAligned =>
      refine ⟨rfl, fun _ => rfl, fun _ => ⟨fresh, rfl⟩, fun notAligned => ?_⟩
      exact absurd (isAligned.symm.trans notAligned) (by decide)
    · split at own
      · cases own
      · split at own <;> cases own
  · next vector aligned =>
    obtain ⟨rfl, rfl, rfl⟩ := submitIo_submitted submitted
    rw [chooseDataIov] at aligned
    split at aligned
    · cases aligned
    · next notAligned =>
      split at aligned
      · cases aligned
      · next sameSize =>
        split at aligned
        · cases aligned
        · next allocated =>
          cases aligned
          refine ⟨rfl, fun read => if_pos read, fun isAligned => absurd isAligned notAligned, ?_⟩
          exact fun _ => ⟨vector, allocated, Decidable.of_not_not sameSize, rfl, rfl⟩

theorem processGetId_ne_submitted {sent : BlkTask} :
    processGetId dev memory task payloadLen ≠ .submitted left sent io := by
  rw [processGetId]
  split
  · exact invalidBlkRequest_ne_submitted
  · split
    · exact invalidBlkRequest_ne_submitted
    · intro same
      cases same

/-- Only the two calls of `processReadWrite` submit something. -/
theorem processSetup_submitted {setup : Setup}
    (submitted : processSetup dev memory setup = some (.submitted left task io)) :
    ∃ fresh isRead payloadLen, fresh.alignedVector = none ∧
      processReadWrite dev memory fresh isRead payloadLen = .submitted left task io := by
  simp only [processSetup, Option.bind_eq_bind, Option.bind_eq_some_iff] at submitted
  obtain ⟨first, _, last, _, outcome⟩ := submitted
  split at outcome
  · exact absurd (Option.some.inj outcome) invalidBlkRequest_ne_submitted
  · split at outcome
    · exact absurd (Option.some.inj outcome) invalidBlkRequest_ne_submitted
    · split at outcome
      · exact ⟨_, true, _, rfl, Option.some.inj outcome⟩
      · split at outcome
        · exact ⟨_, false, _, rfl, Option.some.inj outcome⟩
        · split at outcome
          · exact absurd (Option.some.inj outcome) processGetId_ne_submitted
          · exact absurd (Option.some.inj outcome) invalidBlkRequest_ne_submitted

theorem processBlkRequest_submitted {guest : GuestTables} {reqIdx fuel : Nat}
    (submitted : processBlkRequest dev guest memory reqIdx fuel = some (.submitted left task io))
    (isRead : io.isRead = true) : left = memory ∧ SubmittedRead dev task io := by
  rw [processBlkRequest] at submitted
  split at submitted
  · cases submitted
  · exact absurd (Option.some.inj submitted) invalidBlkRequest_ne_submitted
  · obtain ⟨fresh, read, payloadLen, isFresh, outcome⟩ := processSetup_submitted submitted
    obtain ⟨sameRead, kept, sent⟩ := processReadWrite_submitted isFresh outcome
    exact ⟨kept (sameRead.symm.trans isRead), sent⟩

/-! ### What is in the guest's buffers -/

/--
The guest's data buffers hold these bytes, the last one where buffers overlap. A byte
that the guest has made a part of the header or of the status as well has no value
of its own.
-/
def HoldsBytes (memory : Memory) (task : BlkTask) (bytes : List UInt8) : Prop :=
  ∀ address ∈ (vectorBytes task.iovs).take bytes.length, address ∉ span task.req reqSize →
    address ≠ task.status → memory address = store memory (vectorBytes task.iovs) bytes address

/-- The buffers of a request overlap neither each other nor the header nor the status. -/
structure Separate (task : BlkTask) : Prop where
  nodup : (vectorBytes task.iovs).Nodup
  header : ∀ address ∈ vectorBytes task.iovs, address ∉ span task.req reqSize
  status : task.status ∉ vectorBytes task.iovs

/-- In buffers that do not overlap, the bytes are read back one after the other. -/
theorem holdsBytes_iff {memory : Memory} {bytes : List UInt8} (separate : Separate task)
    (fit : bytes.length ≤ (vectorBytes task.iovs).length) :
    HoldsBytes memory task bytes ↔
      ((vectorBytes task.iovs).take bytes.length).map memory = bytes := by
  have stored := map_take_store memory bytes separate.nodup (Nat.min_eq_left fit)
  rw [List.take_length] at stored
  constructor
  · intro holds
    refine Eq.trans (List.map_congr_left fun address member => ?_) stored
    have inside := List.mem_of_mem_take member
    exact holds address member (separate.header address inside)
      fun isStatus => separate.status (isStatus ▸ inside)
  · intro same address member _ _
    exact List.map_inj_left.mp (same.trans stored.symm) address member

/--
What `malloc_aligned_vector` promises: as many bytes as it was asked for, all of them
different, and none of them used by the request.
-/
def FreshVectors (dev : BlkDev) (task : BlkTask) : Prop :=
  ∀ size vector, dev.mallocAlignedVector size = some vector →
    vector.size = size ∧ getVectorSize vector.iov = size ∧ (vectorBytes vector.iov).Nodup ∧
      ∀ address ∈ vectorBytes vector.iov,
        address ∉ vectorBytes task.iovs ∧ address ∉ span task.req reqSize

section Completion

variable {dev : BlkDev} {task : BlkTask} {io : BdevIo} {memory : Memory} {bytes : List UInt8}
  {before after : HeaderWrites}

/-- Bytes that have been stored in the buffers stay there until the report. -/
theorem holdsBytes_of_stored (start final : Memory)
    (stored : ∀ address, address ∉ span task.req reqSize → address ≠ task.status →
      final address = store start (vectorBytes task.iovs) bytes address) :
    HoldsBytes final task bytes := by
  intro address member outside notStatus
  rw [stored address outside notStatus]
  exact store_inside start final member

theorem completeRead_own (none : task.alignedVector = none) (own : io.iov = task.iovs) :
    HoldsBytes (completeRead memory task io bytes before after) task bytes := by
  refine holdsBytes_of_stored (writeHeader task.req memory before) _
    fun address outside notStatus => ?_
  simp only [completeRead, blkRequestCompleteCb, none, blkRequestFinish]
  rw [update_of_ne notStatus, writeHeader_outside _ after outside, own]

/-- On a vector of the device's own the type is the one that the guest has left. -/
theorem reqType_inFlight {vector : List Iovec}
    (apart : ∀ address ∈ vectorBytes vector, address ∉ span task.req reqSize) :
    reqType (writeHeader task.req
        (store (writeHeader task.req memory before) (vectorBytes vector) bytes) after) task.req =
      reqType (writeHeader task.req (writeHeader task.req memory before) after) task.req := by
  refine reqType_congr fun address member => store_congr ?_ _ _
  exact store_outside _ bytes fun inside => apart address inside member

variable {vector : AlignedVector} (isVector : task.alignedVector = some vector)
  (sent : io.iov = vector.iov)
  (apart : ∀ address ∈ vectorBytes vector.iov,
    address ∉ vectorBytes task.iovs ∧ address ∉ span task.req reqSize)
include isVector sent apart

theorem completeRead_copied (isLength : bytes.length = getVectorSize vector.iov)
    (isSize : vector.size = getVectorSize vector.iov) (nodup : (vectorBytes vector.iov).Nodup)
    (isRead : reqType (writeHeader task.req (writeHeader task.req memory before) after) task.req =
      virtioBlkTIn) :
    HoldsBytes (completeRead memory task io bytes before after) task bytes := by
  have sameLength : bytes.length = (vectorBytes vector.iov).length := by
    rw [isLength, length_vectorBytes]
  -- the aligned vector still holds what was read, whatever happened to the header
  have readBack : (vectorBytes vector.iov).map (writeHeader task.req
      (store (writeHeader task.req memory before) (vectorBytes vector.iov) bytes) after) =
      bytes := by
    have stored := map_take_store (writeHeader task.req memory before) bytes nodup
      (Nat.min_eq_right (Nat.le_of_eq sameLength.symm))
    rw [List.take_length, ← sameLength, List.take_length] at stored
    refine Eq.trans (List.map_congr_left fun address member => ?_) stored
    exact writeHeader_outside _ after (apart address member).2
  refine holdsBytes_of_stored (writeHeader task.req
    (store (writeHeader task.req memory before) (vectorBytes vector.iov) bytes) after) _
    fun address _ notStatus => ?_
  simp only [completeRead, blkRequestCompleteCb, isVector, blkRequestFinish, sent,
    reqType_inFlight fun address inside => (apart address inside).2, isRead, if_true, copyVector]
  rw [update_of_ne notStatus, isSize, ← length_vectorBytes, List.take_length, readBack]

/-- Without the copy the guest's buffers are as they were at the submission. -/
theorem completeRead_kept
    (notRead : reqType (writeHeader task.req (writeHeader task.req memory before) after) task.req ≠
      virtioBlkTIn) :
    HoldsBytes (completeRead memory task io bytes before after) task bytes ↔
      HoldsBytes memory task bytes := by
  have kept : ∀ address ∈ (vectorBytes task.iovs).take bytes.length,
      address ∉ span task.req reqSize → address ≠ task.status →
        completeRead memory task io bytes before after address = memory address := by
    intro address member outside notStatus
    have notInVector : address ∉ vectorBytes vector.iov :=
      fun inside => (apart address inside).1 (List.mem_of_mem_take member)
    simp only [completeRead, blkRequestCompleteCb, isVector, blkRequestFinish, sent,
      reqType_inFlight fun address inside => (apart address inside).2, if_neg notRead]
    rw [update_of_ne notStatus, writeHeader_outside _ after outside,
      store_outside _ bytes notInVector, writeHeader_outside _ before outside]
  refine forall₂_congr fun address member => forall₂_congr fun outside notStatus => ?_
  rw [kept address member outside notStatus, store_inside _ memory member]

end Completion

/--
A read that has completed successfully has its bytes in the guest's buffers exactly
when the vector was aligned, or the type was a plain read at the completion, or the
buffers held those bytes before. Where the buffers do not overlap, this is about the
bytes one after the other.
-/
theorem completeRead_delivers_iff (dev : BlkDev) (guest : GuestTables) (memory left : Memory)
    (reqIdx fuel : Nat) (task : BlkTask) (io : BdevIo) (bytes : List UInt8)
    (before after : HeaderWrites)
    (submitted : processBlkRequest dev guest memory reqIdx fuel = some (.submitted left task io))
    (isRead : io.isRead = true) (vectors : FreshVectors dev task)
    (isLength : bytes.length = min io.nbytes.toNat (vectorBytes io.iov).length) :
    (HoldsBytes (completeRead left task io bytes before after) task bytes ↔
      dev.isVectorAligned task.iovs = true ∨
        reqType (writeHeader task.req (writeHeader task.req memory before) after) task.req =
          virtioBlkTIn ∨
        HoldsBytes memory task bytes) ∧
    (Separate task →
      (HoldsBytes (completeRead left task io bytes before after) task bytes ↔
        ((vectorBytes task.iovs).take bytes.length).map
          (completeRead left task io bytes before after) = bytes)) := by
  obtain ⟨rfl, sent⟩ := processBlkRequest_submitted submitted isRead
  cases aligned : dev.isVectorAligned task.iovs with
  | true =>
    obtain ⟨none, own⟩ := sent.own aligned
    refine ⟨iff_of_true (completeRead_own none own) (.inl rfl), fun separate => ?_⟩
    exact holdsBytes_iff separate (by rw [isLength, own]; exact Nat.min_le_right _ _)
  | false =>
    obtain ⟨vector, allocated, sameSize, isVector, onVector⟩ := sent.aligned aligned
    obtain ⟨isSize, isBytes, nodup, apart⟩ := vectors _ _ allocated
    have wholeLength : bytes.length = getVectorSize vector.iov := by
      rw [isLength, onVector, length_vectorBytes, isBytes, Nat.min_self]
    refine ⟨?_, fun separate => holdsBytes_iff separate ?_⟩
    · by_cases plain : reqType (writeHeader task.req (writeHeader task.req left before) after)
          task.req = virtioBlkTIn
      · refine iff_of_true (completeRead_copied isVector onVector apart wholeLength
          (isSize.trans isBytes.symm) nodup plain) (.inr (.inl plain))
      · rw [completeRead_kept isVector onVector apart plain]
        simp [plain]
    · exact Nat.le_of_eq (by rw [length_vectorBytes, sameSize, wholeLength, isBytes])

/-- A read of one byte: a header, a buffer and a status byte. -/
def oneByteRead : GuestTables where
  desc
    | 0 => { addr := 0x1000, len := 16, flags := vringDescFNext, next := 1 }
    | 1 => { addr := 0x2000, len := 1, flags := vringDescFNext ||| vringDescFWrite, next := 2 }
    | _ => { addr := 0x3000, len := 1, flags := vringDescFWrite, next := 0 }
  size := 4
  regions := [{ guestPhysAddr := 0, hostUserAddr := 0, size := 0x10000 }]
  indirect := fun _ _ => none

/-- A device that takes every request and calls no vector of the guest aligned. -/
def bouncingDev : BlkDev where
  readonly := false
  productName := []
  isVectorAligned := fun _ => false
  mallocAlignedVector := fun size =>
    if size = 1 then some { iov := [{ base := 0x20000, len := 1 }], size := 1 } else none
  accepts := fun _ => true

/-- A header with this most significant byte of its type, zeros, and a status not set yet. -/
def headerMemory (typeHigh : UInt8) : Memory := fun address =>
  if address = 0x1003 then typeHigh else if address = 0x3000 then 0xff else 0

/-- The task and the read that the request becomes. -/
def bouncedTask : BlkTask where
  req := 0x1000
  iovs := [{ base := 0x2000, len := 1 }]
  status := 0x3000
  usedLen := 2
  alignedVector := some { iov := [{ base := 0x20000, len := 1 }], size := 1 }

def bouncedIo : BdevIo where
  isRead := true
  iov := [{ base := 0x20000, len := 1 }]
  offset := 0
  nbytes := 1

theorem bouncingDev_freshVectors : FreshVectors bouncingDev bouncedTask := by
  intro size vector allocated
  simp only [bouncingDev, Option.ite_none_right_eq_some] at allocated
  obtain ⟨rfl, isVector⟩ := allocated
  cases isVector
  refine ⟨rfl, rfl, by decide, fun address member => ?_⟩
  obtain rfl : address = 0x20000 := List.mem_singleton.mp member
  exact ⟨by decide, by decide⟩

theorem completeRead_delivers_plainRead :
    processBlkRequest bouncingDev oneByteRead (headerMemory 0) 0 4 =
        some (.submitted (headerMemory 0) bouncedTask bouncedIo) ∧
      HoldsBytes (completeRead (headerMemory 0) bouncedTask bouncedIo [7] [] [])
        bouncedTask [7] := by
  have submitted : processBlkRequest bouncingDev oneByteRead (headerMemory 0) 0 4 =
      some (.submitted (headerMemory 0) bouncedTask bouncedIo) := rfl
  exact ⟨submitted, (completeRead_delivers_iff bouncingDev oneByteRead (headerMemory 0)
    (headerMemory 0) 0 4 bouncedTask bouncedIo [7] [] [] submitted rfl bouncingDev_freshVectors
    (by decide)).1.mpr (.inr (.inl (by decide)))⟩

/-- A read with the barrier bit is reported as done, and its buffer has kept its old byte. -/
theorem barrierRead_not_delivered :
    processBlkRequest bouncingDev oneByteRead (headerMemory 0x80) 0 4 =
        some (.submitted (headerMemory 0x80) bouncedTask bouncedIo) ∧
      completeRead (headerMemory 0x80) bouncedTask bouncedIo [7] [] [] bouncedTask.status =
        virtioBlkSOk ∧
      completeRead (headerMemory 0x80) bouncedTask bouncedIo [7] [] [] 0x2000 = 0 ∧
      ¬ HoldsBytes (completeRead (headerMemory 0x80) bouncedTask bouncedIo [7] [] [])
        bouncedTask [7] := by
  refine ⟨rfl, by decide, by decide, fun holds => ?_⟩
  exact absurd (holds 0x2000 (by decide) (by decide) (by decide)) (by decide)

end StudyNotes.VhostBlk
