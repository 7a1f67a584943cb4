/-
This file models the receive side of the virtio-net device: how a frame from
the backend gets into the buffers that the guest has made available.

The buffers of an element are pieces of the guest's memory, so an element is a
list of addresses, and copying writes bytes to them. A frame lies in a buffer
of the host, and the device writes there too: it fills in a missing checksum of
some packets and swaps fields of the header before it copies them.
-/

import StudyNotes.Library.Store
import Mathlib.Algebra.Order.Ring.Nat

namespace StudyNotes.VirtioNet

open Library Function

/-! ### Buffers -/

/-- `struct iovec`. -/
structure Iovec where
  base : Nat
  len : Nat

/-- The scatter list of an element, `in_sg`. -/
abbrev InSg := List Iovec

/-- The addresses of a scatter list, in order. -/
def addresses (sg : InSg) : List Nat := sg.flatMap fun iov => List.range' iov.base iov.len

/-- `iov_from_buf`: copy bytes behind the first `offset` bytes of a scatter list. -/
def iovFromBuf (memory : Nat → UInt8) (sg : List Nat) (offset : Nat) (bytes : List UInt8) :
    (Nat → UInt8) × Nat :=
  let room := sg.drop offset
  (store memory room bytes, min bytes.length room.length)

/-- `iov_copy`: the part of a scatter list from `offset` on, at most `count` bytes of it. -/
def iovCopy (sg : List Nat) (offset count : Nat) : List Nat := (sg.drop offset).take count

/-- The bytes of a host buffer from one offset up to another one. -/
def slice (buf : Nat → UInt8) (start stop : Nat) : List UInt8 :=
  (List.range' start (stop - start)).map buf

/-! ### The device -/

/-- `sizeof(struct virtio_net_hdr)`. -/
def hdrSize : Nat := 10

/-- `sizeof(struct virtio_net_hdr_mrg_rxbuf)`. -/
def mrgHdrSize : Nat := 12

/-- The length of the guest's header, as `virtio_net_set_mrg_rx_bufs` sets it. -/
def guestHdrLenOf (mergeableRxBufs version1 : Bool) : Nat :=
  if version1 then mrgHdrSize else if mergeableRxBufs then mrgHdrSize else hdrSize

/-- The configuration of a device. A backend with headers has at least the plain header. -/
structure RxConfig where
  mergeableRxBufs : Bool
  version1 : Bool
  hasVnetHdr : Bool
  needsVnetHdrSwap : Bool
  bigEndian : Bool
  hostHdrLen : Nat
  hostHdrLen_le : hostHdrLen ≤ guestHdrLenOf mergeableRxBufs version1
  hdrSize_le : hasVnetHdr = true → hdrSize ≤ hostHdrLen

variable (config : RxConfig)

def RxConfig.guestHdrLen : Nat :=
  guestHdrLenOf config.mergeableRxBufs config.version1

theorem RxConfig.hdrSize_le_guestHdrLen : hdrSize ≤ config.guestHdrLen := by
  simp only [RxConfig.guestHdrLen, guestHdrLenOf, hdrSize, mrgHdrSize]
  split <;> [omega; split <;> omega]

/-- The part of the state that `receive_filter` reads. -/
structure RxFilter where
  promisc : Bool
  allmulti : Bool
  alluni : Bool
  nomulti : Bool
  nouni : Bool
  nobcast : Bool
  vlans : Nat → BitVec 32
  mac : List UInt8
  macs : Nat → List UInt8
  inUse : Nat
  firstMulti : Nat
  multiOverflow : Bool
  uniOverflow : Bool

/-- `receive_filter`, on the packet behind the host's header. -/
def receiveFilter (filter : RxFilter) (packet : Nat → UInt8) : Bool :=
  let destination := slice packet 0 6
  let vid := ((packet 14).toNat * 256 + (packet 15).toNat) &&& 0xfff
  if filter.promisc then true
  else if packet 12 = 0x81 ∧ packet 13 = 0x00 ∧
      filter.vlans (vid >>> 5) &&& BitVec.ofNat 32 (1 <<< (vid &&& 0x1f)) = 0 then false
  else if (packet 0) &&& 1 ≠ 0 then
    if destination = [0xff, 0xff, 0xff, 0xff, 0xff, 0xff] then !filter.nobcast
    else if filter.nomulti then false
    else if filter.allmulti ∨ filter.multiOverflow then true
    else (List.range' filter.firstMulti (filter.inUse - filter.firstMulti)).any
      fun i => filter.macs i = destination
  else if filter.nouni then false
  else if filter.alluni ∨ filter.uniOverflow then true
  else if destination = filter.mac then true
  else (List.range filter.firstMulti).any fun i => filter.macs i = destination

/-- `VIRTQUEUE_MAX_SIZE`. -/
def virtqueueMaxSize : Nat := 1024

/-- The elements the guest has made available in the receive queue. -/
structure RxQueue where
  available : List InSg
  bounded : available.length ≤ virtqueueMaxSize

/-- The part of the state that decides whether the device receives at all. -/
structure RxStatus where
  vmRunning : Bool
  queueIndex : Nat
  currQueues : Nat
  queueReady : Bool
  driverOk : Bool

/-- `virtio_net_can_receive`. -/
def canReceive (status : RxStatus) : Bool :=
  if !status.vmRunning then false
  else if status.queueIndex ≥ status.currQueues then false
  else if !status.queueReady || !status.driverOk then false
  else true

/-- `virtio_net_has_buffers`. The second value is whether the guest is asked for notifications. -/
def hasBuffers (queue : RxQueue) (bufsize : Nat) : Bool × Bool :=
  let bytes := (queue.available.map fun sg => (addresses sg).length).sum
  if queue.available.isEmpty || (config.mergeableRxBufs && decide (bytes < bufsize)) then
    (false, true)
  else (true, false)

/-! ### The header -/

/-- `VIRTIO_NET_HDR_F_NEEDS_CSUM`. -/
def needsCsum : UInt8 := 1

/-- The packets for which `work_around_broken_dhclient` fills in the checksum. -/
def isBrokenDhclient (flags : UInt8) (packet : Nat → UInt8) (size : Nat) : Bool :=
  flags &&& needsCsum ≠ 0 ∧ (size > 27 ∧ size < 1500) ∧ (packet 12 = 0x08 ∧ packet 13 = 0x00) ∧
    packet 23 = 17 ∧ (packet 34 = 0 ∧ packet 35 = 67)

/-- The code that is not part of the device: `net_checksum_calculate` on a packet of a size. -/
abbrev Checksum := (Nat → UInt8) → Nat → Nat → UInt8

/-- The packet behind the header of the host. -/
def packetOf (buf : Nat → UInt8) (i : Nat) : UInt8 :=
  buf (config.hostHdrLen + i)

variable (checksum : Checksum)

/-- `work_around_broken_dhclient`. -/
def workAroundBrokenDhclient (config : RxConfig) (buf : Nat → UInt8) (size : Nat) : Nat → UInt8 :=
  let packet := packetOf config buf
  let packetSize := size - config.hostHdrLen
  if isBrokenDhclient (buf 0) packet packetSize then
    let summed := fun i =>
      if i < config.hostHdrLen then buf i else checksum packet packetSize (i - config.hostHdrLen)
    update summed 0 (buf 0 &&& ~~~needsCsum)
  else buf

/-- `virtio_tswap16s` on the two bytes of a field. -/
def tswap16s (buf : Nat → UInt8) (field : Nat) : Nat → UInt8 :=
  if config.bigEndian then
    update (update buf field (buf (field + 1))) (field + 1) (buf field)
  else buf

/-- `virtio_net_hdr_swap`, on `hdr_len`, `gso_size`, `csum_start` and `csum_offset`. -/
def hdrSwap (buf : Nat → UInt8) : Nat → UInt8 :=
  [2, 4, 6, 8].foldl (tswap16s config) buf

/-- What `receive_header` does to a buffer of a backend with headers. -/
def prepareHeader (config : RxConfig) (buf : Nat → UInt8) (size : Nat) : Nat → UInt8 :=
  let summed := workAroundBrokenDhclient checksum config buf size
  if config.needsVnetHdrSwap then hdrSwap config summed else summed

/-- `receive_header`: what is left in the host's buffer, and the guest's memory. -/
def receiveHeader (config : RxConfig) (memory : Nat → UInt8)
    (sg : List Nat) (buf : Nat → UInt8) (size : Nat) : (Nat → UInt8) × (Nat → UInt8) :=
  if config.hasVnetHdr then
    let prepared := prepareHeader checksum config buf size
    (prepared, (iovFromBuf memory sg 0 (slice prepared 0 hdrSize)).1)
  else (buf, (iovFromBuf memory sg 0 (List.replicate hdrSize 0)).1)

/-! ### The frame -/

/-- What is left of a call: its result, none when the device ends itself, and what it did. -/
structure Received where
  ret : Option Int
  memory : Nat → UInt8
  /-- The elements given back to the guest, with the lengths reported for them. -/
  published : List (InSg × BitVec 32)

/-- The variables of the loop of `virtio_net_receive`, without those of one turn. -/
structure Receiving where
  buf : Nat → UInt8
  memory : Nat → UInt8
  offset : Nat
  mhdrSg : List Nat
  /-- The elements passed to `virtqueue_fill`, so `i` is their number. -/
  filled : List (InSg × BitVec 32)

/-- The part of a turn for the first element: the header. -/
def startElement (config : RxConfig) (size : Nat) (state : Receiving)
    (sg : InSg) : Receiving × BitVec 32 × Nat :=
  if state.filled = [] then
    let mhdrSg := if config.mergeableRxBufs then iovCopy (addresses sg) 10 2 else state.mhdrSg
    let (buf, memory) :=
      receiveHeader checksum config state.memory (addresses sg) state.buf size
    ({ state with buf := buf, memory := memory, offset := config.hostHdrLen, mhdrSg := mhdrSg },
      BitVec.ofNat 32 config.guestHdrLen, config.guestHdrLen)
  else (state, 0#32, 0)

/-- The part of a turn that copies the packet, and the length to report. -/
def copyPacket (size : Nat) (sg : InSg) (state : Receiving) (total : BitVec 32)
    (guestOffset : Nat) : Receiving :=
  let (memory, count) :=
    iovFromBuf state.memory (addresses sg) guestOffset (slice state.buf state.offset size)
  let len := BitVec.ofNat 32 count
  { state with
    memory := memory
    offset := (BitVec.ofNat 64 state.offset + len.signExtend 64).toNat
    filled := state.filled ++ [(sg, total + len)] }

/-- What one turn does with its element. -/
def fillElement (config : RxConfig) (size : Nat) (state : Receiving) (sg : InSg) : Receiving :=
  let (started, total, guestOffset) := startElement checksum config size state sg
  copyPacket size sg started total guestOffset

/-- `virtio_stw_p`. -/
def stw (value : BitVec 16) : List UInt8 :=
  let low := UInt8.ofNat value.toNat
  let high := UInt8.ofNat (value.toNat / 256)
  if config.bigEndian then [high, low] else [low, high]

/-- The end of `virtio_net_receive`, behind its loop. -/
def finishReceive (size : Nat) (state : Receiving) : Received where
  ret := some size
  memory :=
    if state.mhdrSg = [] then state.memory
    else (iovFromBuf state.memory state.mhdrSg 0
      (stw config (BitVec.ofNat 16 state.filled.length))).1
  published := state.filled

/-- A call that gives nothing back to the guest. -/
def unpublished (ret : Option Int) (state : Receiving) : Received where
  ret := ret
  memory := state.memory
  published := []

/-- The loop of `virtio_net_receive`. -/
def receiveLoop (checksum : Checksum) (config : RxConfig) (size : Nat) :
    List InSg → Receiving → Received
  | [], state =>
    if state.offset < size then
      unpublished (if state.filled = [] then some (-1) else none) state
    else finishReceive config size state
  | sg :: rest, state =>
    if state.offset < size then
      if sg.length < 1 then unpublished none state
      else
        let next := fillElement checksum config size state sg
        if !config.mergeableRxBufs ∧ next.offset < size then unpublished (some size) next
        else receiveLoop checksum config size rest next
    else finishReceive config size state

/-- `virtio_net_receive`. -/
def receive (config : RxConfig) (status : RxStatus) (filter : RxFilter)
    (queue : RxQueue) (memory buf : Nat → UInt8) (size : Nat) : Received :=
  let start : Receiving :=
    { buf := buf, memory := memory, offset := 0, mhdrSg := [], filled := [] }
  let bufsize := (size + config.guestHdrLen - config.hostHdrLen) % 2 ^ 32
  if !canReceive status then unpublished (some (-1)) start
  else if !(hasBuffers config queue bufsize).1 then unpublished (some 0) start
  else if !receiveFilter filter (packetOf config buf) then unpublished (some size) start
  else receiveLoop checksum config size queue.available start

end StudyNotes.VirtioNet
