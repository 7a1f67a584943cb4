/-
This file models how a vhost-user device handles the messages of its master.

A handler is a program that logs every assignment to the device, and every call
that starts or stops the data plane. What the guest's memory holds and what a
call answers is part of the message. The handlers that are not part of the
source, and `virtio_is_ready`, are parameters.
-/

import StudyNotes.Library.Logged
import StudyNotes.VhostUser.MemTable

namespace StudyNotes.VhostUser

open Library Logged Function

/-! ### The device -/

/-- The three parts of a virtqueue that lie in the memory of the guest. -/
inductive Ring where
  | desc
  | avail
  | used
  deriving DecidableEq

/-- The bytes of a ring: entries of 16, 2 and 8 bytes, the last two behind a header. -/
def Ring.len (ring : Ring) (size : BitVec 32) : BitVec 64 :=
  match ring with
  | .desc => 16 * size.setWidth 64
  | .avail => 4 + 2 * size.setWidth 64
  | .used => 4 + 8 * size.setWidth 64

/-- `struct vhost_virtqueue`. -/
structure Virtqueue where
  ring : Ring → BitVec 64
  size : BitVec 32
  lastAvailIdx : BitVec 16
  lastUsedIdx : BitVec 16
  callfd : Int
  kickfd : Int
  logGuestAddr : BitVec 64

/-- `VIRTIO_INVALID_EVENTFD`. -/
def invalidEventfd : Int := -1

/-- `VIRTIO_UNINITIALIZED_EVENTFD`. -/
def uninitializedEventfd : Int := -2

/-- `init_vring_queue`. -/
def initVringQueue : Virtqueue where
  ring := fun _ => 0
  size := 0
  lastAvailIdx := 0
  lastUsedIdx := 0
  callfd := uninitializedEventfd
  kickfd := uninitializedEventfd
  logGuestAddr := 0

/--
`struct virtio_net`. The flags `VIRTIO_DEV_RUNNING` and `VIRTIO_DEV_DRAIN` have
their own fields. A master's table is kept with what the system will answer for
its files.
-/
structure VirtioNet where
  mem : Option (List Region)
  negotiatedFeatures : BitVec 64
  isNvme : Bool
  running : Bool
  drain : Bool
  virtqueue : Nat → Option Virtqueue
  hasNewMemTable : Bool
  memTable : List (MemoryRegion × Backing)

/-- A device that has just been connected. -/
def newVirtioNet : VirtioNet where
  mem := none
  negotiatedFeatures := 0
  isNvme := false
  running := false
  drain := false
  virtqueue := fun _ => none
  hasNewMemTable := false
  memTable := []

/-- What can be seen of a handler. -/
inductive Event where
  | newDevice (dev : VirtioNet) (started : Bool)
  | destroyDevice
  | wrote (before after : VirtioNet)

abbrev Handler := Logged VirtioNet Event

/-- An assignment to the device. -/
def write (change : VirtioNet → VirtioNet) : Handler :=
  fun dev => (change dev, [.wrote dev (change dev)])

variable (index : Nat)

def updateVq (change : Virtqueue → Virtqueue) (dev : VirtioNet) : VirtioNet :=
  { dev with
    virtqueue := update dev.virtqueue index ((dev.virtqueue index).map change) }

@[simp] theorem updateVq_self (change : Virtqueue → Virtqueue) (dev : VirtioNet) :
    (updateVq index change dev).virtqueue index = (dev.virtqueue index).map change :=
  update_self ..

theorem updateVq_of_ne {index other : Nat} (differs : other ≠ index)
    (change : Virtqueue → Virtqueue) (dev : VirtioNet) :
    (updateVq index change dev).virtqueue other = dev.virtqueue other :=
  update_of_ne differs _ _

/-! ### The data plane -/

/-- Remove the device from the data plane. -/
def stop : Handler :=
  choose (fun dev => dev.running && !dev.drain)
    (andThen (write fun dev => { dev with running := false }) (emit fun _ => .destroyDevice)) skip

/-- Call `new_device`. -/
def start (answer : Bool) : Handler :=
  andThen (emit fun dev => .newDevice dev answer)
    (if answer then write fun dev => { dev with running := true } else skip)

/-! ### The handlers -/

/-- `vhost_user_set_features`. The operations have no `features_changed`. -/
def setFeatures (features : BitVec 64) : Handler :=
  andThen (choose (fun dev => dev.negotiatedFeatures ≠ features) stop skip)
    (write fun dev => { dev with negotiatedFeatures := features })

/-- `vhost_setup_mem_table`. When it fails, no table is left. -/
def installMemTable : Handler :=
  andThen (choose (fun dev => dev.mem.isSome) (write fun dev => { dev with mem := none }) skip)
    (write fun dev => { dev with mem := setupMemTable dev.memTable })

/-- Install the table and take note of it. -/
def consumeMemTable : Handler :=
  andThen installMemTable (write fun dev => { dev with hasNewMemTable := false })

/-- `vhost_user_set_mem_table`. -/
def setMemTable (memory : List (MemoryRegion × Backing)) : Handler :=
  andThen (write fun dev => { dev with memTable := memory, hasNewMemTable := true })
    (choose (fun dev => dev.hasNewMemTable && dev.isNvme) consumeMemTable skip)

/-- `vhost_user_set_vring_num`. -/
def setVringNum (num : BitVec 32) : Handler :=
  write (updateVq index fun vq => { vq with size := num })

/-- The handlers that remove the device from the data plane and then change a virtqueue. -/
def changeStopped (change : Virtqueue → Virtqueue) : Handler :=
  andThen stop (write (updateVq index change))

/-- `vhost_user_set_vring_base`. -/
def setVringBase (num : BitVec 32) : Handler :=
  changeStopped index fun vq =>
    { vq with lastUsedIdx := num.setWidth 16, lastAvailIdx := num.setWidth 16 }

/-- `VHOST_USER_VRING_IDX_MASK`. -/
def fileIndex (u64 : BitVec 64) : Nat := (u64 &&& 0xff).toNat

/-- The file of a message, unless it has `VHOST_USER_VRING_NOFD_MASK`. -/
def fileFd (u64 : BitVec 64) (fd : Int) : Int :=
  if u64 &&& 0x100 ≠ 0 then invalidEventfd else fd

/-- `vhost_user_set_vring_kick`. -/
def setVringKick (u64 : BitVec 64) (fd : Int) : Handler :=
  changeStopped (fileIndex u64) fun vq => { vq with kickfd := fileFd u64 fd }

/-- `vhost_user_set_vring_call`. -/
def setVringCall (u64 : BitVec 64) (fd : Int) : Handler :=
  changeStopped (fileIndex u64) fun vq => { vq with callfd := fileFd u64 fd }

/-- `struct vhost_vring_addr`, with the index that the used ring holds. -/
structure VringAddr where
  userAddr : Ring → BitVec 64
  logGuestAddr : BitVec 64
  usedIdx : BitVec 16

/-- The size of a virtqueue. -/
def sizeOfVq (dev : VirtioNet) (index : Nat) : BitVec 32 :=
  ((dev.virtqueue index).map Virtqueue.size).getD 0

/-- The address of a ring, and how many of its bytes are in the region of the address. -/
def translate (dev : VirtioNet) (index : Nat) (addr : VringAddr) (ring : Ring) :
    BitVec 64 × BitVec 64 :=
  qvaToVva (dev.mem.getD []) (addr.userAddr ring) (ring.len (sizeOfVq dev index))

/-- Store the address of a ring, and go on if all of it is in one region. -/
def mapRing (addr : VringAddr) (ring : Ring) (next : Handler) : Handler := fun dev =>
  let vva := translate dev index addr ring
  andThen (write (updateVq index fun vq => { vq with ring := update vq.ring ring vva.1 }))
    (if vva.1 = 0 ∨ vva.2 ≠ ring.len (sizeOfVq dev index) then skip else next) dev

/-- The end of `vhost_user_set_vring_addr`. -/
def takeIndices (addr : VringAddr) : Handler :=
  write (updateVq index fun vq =>
    if vq.lastUsedIdx ≠ addr.usedIdx then
      { vq with
        lastUsedIdx := addr.usedIdx
        lastAvailIdx := addr.usedIdx
        logGuestAddr := addr.logGuestAddr }
    else { vq with logGuestAddr := addr.logGuestAddr })

/-- The three rings, one after another. -/
def mapRings (addr : VringAddr) : Handler :=
  mapRing index addr .desc (mapRing index addr .avail (mapRing index addr .used
    (takeIndices index addr)))

/-- `vhost_user_set_vring_addr`. Its result is not looked at. -/
def setVringAddr (addr : VringAddr) : Handler :=
  andThen (choose (fun dev => dev.hasNewMemTable) consumeMemTable skip)
    (choose (fun dev => dev.mem.isSome) (andThen stop (mapRings index addr)) skip)

/-! ### Messages -/

/-- The requests whose handlers are not part of the source. -/
inductive MissingRequest where
  | resetOwner
  | getVringBase (index : Nat)
  | setVringEnable (index : Nat) (num : BitVec 32)
  | setOwner
  | setProtocolFeatures (features : BitVec 64)
  | setLogBase
  | sendRarp
  | netSetMtu
  | nvmeIoCmd
  | getInflightFd
  | getInflightNum
  | getPendingNum
  | setIoDown
  | setIoCleanup
  | setIoFinal

/-- The requests after which `vhost_user_msg_handler` returns at once. -/
def MissingRequest.returnsEarly : MissingRequest → Bool
  | .getPendingNum | .setIoDown | .setIoCleanup | .setIoFinal => true
  | _ => false

/--
What is not part of the source. A handler may remove the device from the data
plane, as those above do, and then changes the device.
-/
structure Missing where
  isReady : VirtioNet → Bool
  stops : MissingRequest → Bool
  effect : MissingRequest → VirtioNet → VirtioNet

/--
The messages of a master. `plain` are the requests that only answer, that hand
something to the backend, or that set the inflight memory or a file descriptor
that is of no interest here.
-/
inductive Message where
  | setFeatures (features : BitVec 64)
  | setMemTable (memory : List (MemoryRegion × Backing))
  | setVringNum (index : Nat) (num : BitVec 32)
  | setVringAddr (index : Nat) (addr : VringAddr)
  | setVringBase (index : Nat) (num : BitVec 32)
  | setVringKick (u64 : BitVec 64) (fd : Int)
  | setVringCall (u64 : BitVec 64) (fd : Int)
  | setVringErr (u64 : BitVec 64)
  | nvmeAdmin
  | nvmeStartStop (enable : BitVec 64) (answer : Bool)
  | missing (request : MissingRequest)
  | plain

/-- The virtqueue that a message is about. -/
def Message.vringIdx : Message → Option Nat
  | .setVringKick u64 _ => some (fileIndex u64)
  | .setVringCall u64 _ => some (fileIndex u64)
  | .setVringErr u64 => some (fileIndex u64)
  | .setVringNum index _ => some index
  | .setVringBase index _ => some index
  | .setVringAddr index _ => some index
  | .missing (.getVringBase index) => some index
  | .missing (.setVringEnable index _) => some index
  | _ => none

/-- `vhost_user_check_and_alloc_queue_pair`. -/
def checkAndAllocQueuePair (message : Message) : Handler :=
  match message.vringIdx with
  | none => skip
  | some index =>
    choose (fun dev => (dev.virtqueue index).isSome) skip
      (write fun dev =>
        { dev with virtqueue := update dev.virtqueue index (some initVringQueue) })

/-- The cases of `vhost_user_msg_handler`. -/
def dispatch (missing : Missing) : Message → Handler
  | .setFeatures features => setFeatures features
  | .setMemTable memory => setMemTable memory
  | .setVringNum index num => setVringNum index num
  | .setVringAddr index addr => setVringAddr index addr
  | .setVringBase index num => setVringBase index num
  | .setVringKick u64 fd => setVringKick u64 fd
  | .setVringCall u64 fd => setVringCall u64 fd
  | .setVringErr _ => skip
  | .nvmeAdmin => write fun dev => { dev with isNvme := true }
  | .nvmeStartStop enable answer =>
    if enable ≠ 0 then choose (fun dev => !dev.running && !dev.drain) (start answer) skip else stop
  | .missing request =>
    andThen (if missing.stops request then stop else skip) (write (missing.effect request))
  | .plain => skip

/-- The end of `vhost_user_msg_handler`: start a device that is ready. -/
def startIfReady (missing : Missing) (answer : Bool) : Handler :=
  choose (fun dev => !dev.running && missing.isReady dev && !dev.drain) (start answer) skip

def Message.returnsEarly : Message → Bool
  | .missing request => request.returnsEarly
  | _ => false

/-- `vhost_user_msg_handler`; the flag is what `new_device` answers at its end. -/
def msgHandler (missing : Missing) (message : Message) (answer : Bool) : Handler :=
  andThen (checkAndAllocQueuePair message)
    (andThen (dispatch missing message)
      (if message.returnsEarly then skip else startIfReady missing answer))

/--
One message. There are `maxVrings` places for virtqueues; what happens for a
message about another one is not defined.
-/
def step (missing : Missing) (maxVrings : Nat) (dev : VirtioNet) (action : Message × Bool) :
    Option (VirtioNet × List Event) :=
  if ∀ index ∈ action.1.vringIdx, index < maxVrings then
    some (msgHandler missing action.1 action.2 dev)
  else none

/-! ### A device with one virtqueue -/

/-- The only virtqueue has its rings and its files. No other handler changes anything. -/
def oneQueue : Missing where
  isReady dev :=
    match dev.virtqueue 0 with
    | none => false
    | some vq =>
      vq.ring .desc ≠ 0 ∧ vq.ring .avail ≠ 0 ∧ vq.ring .used ≠ 0 ∧
        vq.kickfd ≠ uninitializedEventfd ∧ vq.callfd ≠ uninitializedEventfd
  stops _ := false
  effect _ dev := dev

/-- One megabyte of memory. -/
def oneRegion : List (MemoryRegion × Backing) :=
  [({ guestPhysAddr := 0
      memorySize := 0x100000
      userspaceAddr := 0x10000000
      mmapOffset := 0 }, { blkSize := 0x1000, mmapAddr := 0x7f0000000000 })]

/-- The rings are in the first pages of it. -/
def firstPages : VringAddr where
  userAddr
    | .desc => 0x10000000
    | .avail => 0x10001000
    | .used => 0x10002000
  logGuestAddr := 0
  usedIdx := 0

/-- The messages up to the start of the device. -/
def startup : List (Message × Bool) :=
  [(.setMemTable oneRegion, false), (.setVringNum 0 128, false),
    (.setVringAddr 0 firstPages, false), (.setVringKick 0 5, false), (.setVringCall 0 6, true)]

end StudyNotes.VhostUser
