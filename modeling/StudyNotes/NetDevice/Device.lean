/-
This file models the virtio-net device as a whole: how it is created and taken
down, how its queue pairs come and go when features are negotiated, and how its
handlers put off the transmit work of a queue.

Every transmit queue has a bottom half or a timer of its own. The device keeps
a pointer to it in the queue pair, and nothing clears that pointer, so the heap
they live in counts what is done with them after they are gone. What the device
only passes on to the backend or to the rings is not part of the state.
-/

import StudyNotes.Library.Heap
import StudyNotes.VirtioNet.Rx

namespace StudyNotes.NetDevice

open Library Function
open VirtioNet (hdrSize mrgHdrSize guestHdrLenOf virtqueueMaxSize)

/-! ### The data of the device -/

/-- A bottom half or timer, for the queue pair it was created with. -/
structure Deferred where
  timer : Bool
  queue : Nat
  pending : Bool
  deriving Inhabited

/-- The uses of a timer or bottom half. -/
inductive DeferredUse
  | timerMod
  | timerDel
  | timerFree
  | bhSchedule
  | bhCancel
  | bhDelete
  deriving DecidableEq

/-- The functions that are called when the guest kicks a queue. -/
inductive Handler
  | handleRx
  | handleTxTimer
  | handleTxBh
  | handleCtrl
  deriving DecidableEq

/-- `VirtQueue`: a slot is unused while `num` is zero. -/
structure VirtQueue where
  num : Nat
  handleOutput : Option Handler
  deriving DecidableEq

/-- `VirtIONetQueue`, with the numbers of its two virtqueues. -/
structure VirtIONetQueue where
  rxVq : Option Nat
  txVq : Option Nat
  txTimer : Option Nat
  txBh : Option Nat
  txWaiting : BitVec 32

/-- `mac_table`, of which `macs` is a buffer of six bytes for each entry. -/
structure MacTable where
  inUse : Nat
  firstMulti : Nat
  multiOverflow : UInt8
  uniOverflow : UInt8
  macs : Nat → UInt8

/-- What decides which frames the device receives. -/
structure RxModes where
  mac : Nat → UInt8
  promisc : UInt8
  allmulti : UInt8
  alluni : UInt8
  nomulti : UInt8
  nouni : UInt8
  nobcast : UInt8
  macTable : MacTable
  vlans : Nat → BitVec 32

/-- The properties that the device is created with. -/
structure NetConf where
  /-- `nic_conf.peers.queues`. -/
  queues : Nat
  rxQueueSize : Nat
  txQueueSize : Nat
  tx : Option String
  txburst : Int
  macaddr : Nat → UInt8
  hostFeatures : BitVec 32
  bigEndian : Bool
  vmRunning : Bool

/--
What the backend answers. It can change its mind about some questions, so those
answers are given by the number of the status change that asks.
-/
structure Backend where
  hasVnetHdr : Bool
  hasUfo : Bool
  hasVnetHdrLen : Nat → Nat → Bool
  vhostNet : Bool
  vhostFeatures : BitVec 64 → BitVec 64
  needsSwap : Nat → Bool
  linkDown : Nat → Bool
  vhostStarts : Nat → Bool

/-- `VirtIONet`, together with the `VirtIODevice` it is. -/
structure VirtIONet where
  conf : NetConf
  backend : Backend
  vdevStatus : BitVec 8
  vmRunning : Bool
  guestFeatures : BitVec 64
  vq : Nat → VirtQueue
  modes : RxModes
  status : BitVec 16
  vqs : Nat → VirtIONetQueue
  ctrlVq : Option Nat
  hasVnetHdr : Bool
  hasUfo : Bool
  hostHdrLen : Nat
  guestHdrLen : Nat
  mergeableRxBufs : BitVec 32
  vhostStarted : Bool
  needsVnetHdrSwap : Bool
  multiqueue : Bool
  maxQueues : Nat
  currQueues : Nat
  currGuestOffloads : BitVec 64
  announceCounter : Int
  /-- The announce timer is armed. -/
  announceTimer : Bool
  rxfilterNotifyEnabled : Bool
  /-- The events `NIC_RX_FILTER_CHANGED` that were sent. -/
  rxFilterEvents : Nat
  /-- How often `virtio_net_set_status` was called. -/
  statusChanges : Nat
  work : Heap Deferred DeferredUse

/-- `MAC_TABLE_ENTRIES`. -/
def macTableEntries : Nat := 64

/-- `VIRTIO_QUEUE_MAX`. -/
def virtioQueueMax : Nat := 1024

/-- `VIRTIO_NET_RX_QUEUE_MIN_SIZE`, and the same for the transmit queues. -/
def virtioNetQueueMinSize : Nat := 256

/-- `VIRTIO_CONFIG_S_DRIVER_OK`. -/
def driverOk (status : BitVec 8) : Bool := status.getLsbD 2

/-- `VIRTIO_NET_S_LINK_UP`. -/
def sLinkUp : BitVec 16 := 1

/-- `VIRTIO_NET_S_ANNOUNCE`. -/
def sAnnounce : BitVec 16 := 2

/-! ### Features -/

/-- `VIRTIO_NET_F_CSUM`. -/
def fCsum : Nat := 0

/-- `VIRTIO_NET_F_GUEST_CSUM`. -/
def fGuestCsum : Nat := 1

/-- `VIRTIO_NET_F_CTRL_GUEST_OFFLOADS`. -/
def fCtrlGuestOffloads : Nat := 2

/-- `VIRTIO_NET_F_MAC`. -/
def fMac : Nat := 5

/-- `VIRTIO_NET_F_GUEST_TSO4`. -/
def fGuestTso4 : Nat := 7

/-- `VIRTIO_NET_F_GUEST_TSO6`. -/
def fGuestTso6 : Nat := 8

/-- `VIRTIO_NET_F_GUEST_ECN`. -/
def fGuestEcn : Nat := 9

/-- `VIRTIO_NET_F_GUEST_UFO`. -/
def fGuestUfo : Nat := 10

/-- `VIRTIO_NET_F_HOST_TSO4`. -/
def fHostTso4 : Nat := 11

/-- `VIRTIO_NET_F_HOST_TSO6`. -/
def fHostTso6 : Nat := 12

/-- `VIRTIO_NET_F_HOST_ECN`. -/
def fHostEcn : Nat := 13

/-- `VIRTIO_NET_F_HOST_UFO`. -/
def fHostUfo : Nat := 14

/-- `VIRTIO_NET_F_MRG_RXBUF`. -/
def fMrgRxbuf : Nat := 15

/-- `VIRTIO_NET_F_CTRL_VQ`. -/
def fCtrlVq : Nat := 17

/-- `VIRTIO_NET_F_CTRL_VLAN`. -/
def fCtrlVlan : Nat := 19

/-- `VIRTIO_NET_F_GUEST_ANNOUNCE`. -/
def fGuestAnnounce : Nat := 21

/-- `VIRTIO_NET_F_MQ`. -/
def fMq : Nat := 22

/-- `VIRTIO_F_VERSION_1`. -/
def fVersion1 : Nat := 32

/-- `virtio_has_feature`. -/
def hasFeature (features : BitVec 64) (bit : Nat) : Bool := features.getLsbD bit

/-- `virtio_add_feature`. -/
def addFeature (features : BitVec 64) (bit : Nat) : BitVec 64 := features ||| (1#64 <<< bit)

/-- `virtio_clear_feature`. -/
def clearFeature (features : BitVec 64) (bit : Nat) : BitVec 64 := features &&& ~~~(1#64 <<< bit)

/-- `virtio_net_guest_offloads_by_features`, which takes the low half of the features. -/
def guestOffloadsByFeatures (features : BitVec 64) : BitVec 64 :=
  [fGuestCsum, fGuestTso4, fGuestTso6, fGuestEcn, fGuestUfo].foldl addFeature 0 &&&
    (features.truncate 32).zeroExtend 64

variable (n : VirtIONet)

/-- `peer_has_ufo`. -/
def peerHasUfo : VirtIONet × Bool :=
  if !n.hasVnetHdr then (n, false)
  else ({ n with hasUfo := n.backend.hasUfo }, n.backend.hasUfo)

/-- `virtio_net_get_features`. -/
def getFeatures (features : BitVec 64) : VirtIONet × BitVec 64 :=
  let offered := addFeature (features ||| n.conf.hostFeatures.zeroExtend 64) fMac
  let plain :=
    if !n.hasVnetHdr then
      [fCsum, fHostTso4, fHostTso6, fHostEcn, fGuestCsum, fGuestTso4, fGuestTso6,
        fGuestEcn].foldl clearFeature offered
    else offered
  let (n, ufo) := peerHasUfo n
  let allowed := if !n.hasVnetHdr || !ufo then [fGuestUfo, fHostUfo].foldl clearFeature plain
    else plain
  (n, if n.backend.vhostNet then n.backend.vhostFeatures allowed else allowed)

/-- Some peer can do headers of this length. -/
def peerHasVnetHdrLen (len : Nat) : Bool :=
  (List.range n.maxQueues).any fun i => n.hasVnetHdr && n.backend.hasVnetHdrLen i len

/-- `virtio_net_set_mrg_rx_bufs`. The host's header follows the guest's if some peer can do it. -/
def setMrgRxBufs (mergeableRxBufs : BitVec 32) (version1 : Bool) : VirtIONet :=
  let guestHdrLen := guestHdrLenOf (mergeableRxBufs != 0) version1
  { n with
    mergeableRxBufs := mergeableRxBufs
    guestHdrLen := guestHdrLen
    hostHdrLen := if peerHasVnetHdrLen n guestHdrLen then guestHdrLen else n.hostHdrLen }

/-! ### The status -/

/-- `virtio_net_started`. -/
def started (status : BitVec 8) : Bool :=
  driverOk status && n.status &&& sLinkUp != 0 && n.vmRunning

/-- `virtio_net_vnet_endian_status`. -/
def vnetEndianStatus (status : BitVec 8) : VirtIONet :=
  if started n status then { n with needsVnetHdrSwap := n.backend.needsSwap n.statusChanges }
  else n

/-- `virtio_net_vhost_status`. -/
def vhostStatus (status : BitVec 8) : VirtIONet :=
  if !n.backend.vhostNet then n
  else if (started n status && !n.backend.linkDown n.statusChanges) == n.vhostStarted then n
  else if !n.vhostStarted then
    if n.needsVnetHdrSwap then n
    else { n with vhostStarted := n.backend.vhostStarts n.statusChanges }
  else { n with vhostStarted := false }

/-- Schedule a bottom half or arm a timer, or cancel it. -/
def setPending (pending : Bool) (deferred : Deferred) : Deferred :=
  { deferred with pending := pending }

/-- Use a timer or bottom half. -/
def useDeferred (use : DeferredUse) (pending : Bool) (pointer : Option Nat) : VirtIONet :=
  { n with work := n.work.use use (setPending pending) pointer }

/-- Take up the transmit work of a queue pair again, or stop it. -/
def resumeWork (q : VirtIONetQueue) (queueStarted : Bool) : VirtIONet :=
  if queueStarted then
    if q.txTimer.isSome then useDeferred n .timerMod true q.txTimer
    else useDeferred n .bhSchedule true q.txBh
  else
    if q.txTimer.isSome then useDeferred n .timerDel false q.txTimer
    else useDeferred n .bhCancel false q.txBh

/-- One turn of the loop of `virtio_net_set_status`. -/
def setQueueStatus (status : BitVec 8) (n : VirtIONet) (i : Nat) : VirtIONet :=
  let q := n.vqs i
  let queueStatus := if (!n.multiqueue && i != 0) || i ≥ n.currQueues then 0 else status
  let queueStarted := started n queueStatus && !n.vhostStarted
  if q.txWaiting = 0 then n else resumeWork n q queueStarted

/-- `virtio_net_set_status`. -/
def setStatus (status : BitVec 8) : VirtIONet :=
  let prepared := vhostStatus (vnetEndianStatus n status) status
  (List.range n.maxQueues).foldl (setQueueStatus status)
    { prepared with statusChanges := n.statusChanges + 1 }

/-! ### The queue pairs -/

/-- The slot that the loop of `virtio_add_queue` stops at. -/
def firstUnused : Option Nat :=
  (List.range virtioQueueMax).find? fun i => (n.vq i).num = 0

/-- `virtio_add_queue`: take the first unused slot. There is no result when it aborts. -/
def virtioAddQueue (queueSize : Nat) (handleOutput : Handler) : Option (VirtIONet × Nat) :=
  match firstUnused n with
  | none => none
  | some i =>
    if queueSize > virtqueueMaxSize then none
    else
      some ({ n with
        vq := update n.vq i { num := queueSize, handleOutput := some handleOutput } }, i)

/-- `virtio_del_queue`. -/
def virtioDelQueue (slot : Nat) : VirtIONet :=
  { n with vq := update n.vq slot { num := 0, handleOutput := none } }

/-- `virtio_get_num_queues`. -/
def virtioGetNumQueues : Nat :=
  ((List.range virtioQueueMax).takeWhile fun i => (n.vq i).num ≠ 0).length

/-- Write `vqs[index]`. -/
def setQueue (index : Nat) (q : VirtIONetQueue) : VirtIONet :=
  { n with vqs := update n.vqs index q }

/-- The device was created with `tx=timer`. -/
def NetConf.usesTimer (conf : NetConf) : Bool := conf.tx == some "timer"

/-- `virtio_net_add_queue`. -/
def addQueue (index : Nat) : Option VirtIONet :=
  (virtioAddQueue n n.conf.rxQueueSize .handleRx).bind fun (n, rxVq) =>
  if n.conf.usesTimer then
    (virtioAddQueue n n.conf.txQueueSize .handleTxTimer).map fun (n, txVq) =>
      { setQueue n index { n.vqs index with
          rxVq := some rxVq
          txVq := some txVq
          txTimer := some n.work.next
          txWaiting := 0 } with
        work := n.work.alloc { timer := true, queue := index, pending := false } }
  else
    (virtioAddQueue n n.conf.txQueueSize .handleTxBh).map fun (n, txVq) =>
      { setQueue n index { n.vqs index with
          rxVq := some rxVq
          txVq := some txVq
          txBh := some n.work.next
          txWaiting := 0 } with
        work := n.work.alloc { timer := false, queue := index, pending := false } }

/-- What `virtio_net_del_queue` does with the timer or bottom half of a queue pair. -/
def delDeferred (q : VirtIONetQueue) : VirtIONet :=
  if q.txTimer.isSome then
    let stopped := useDeferred n .timerDel false q.txTimer
    { stopped with work := stopped.work.free .timerFree q.txTimer }
  else { n with work := n.work.free .bhDelete q.txBh }

/-- `virtio_net_del_queue`. The pointers and `tx_waiting` of the queue pair stay as they are. -/
def delQueue (index : Nat) : VirtIONet :=
  virtioDelQueue (delDeferred (virtioDelQueue n (index * 2)) (n.vqs index)) (index * 2 + 1)

/-- The values of a loop variable that goes up in steps of two. -/
def byTwo (start stop : Nat) : List Nat := List.range' start ((stop - start + 1) / 2) 2

/--
The rest of `virtio_net_change_num_queues` behind its checks: the control queue
is moved behind the queue pairs.
-/
def moveNumQueues (oldNumQueues newNumQueues : Nat) : Option VirtIONet :=
  let fewer := (byTwo (newNumQueues - 1) (oldNumQueues - 1)).foldl
    (fun n i => delQueue n (i / 2)) (virtioDelQueue n (oldNumQueues - 1))
  ((byTwo (oldNumQueues - 1) (newNumQueues - 1)).foldlM
    (fun n i => addQueue n (i / 2)) fewer).bind fun n =>
  (virtioAddQueue n 64 .handleCtrl).map fun (n, ctrlVq) => { n with ctrlVq := some ctrlVq }

/-- `virtio_net_change_num_queues`. There is no result when an assertion fails. -/
def changeNumQueues (newMaxQueues : Nat) : Option VirtIONet :=
  let oldNumQueues := virtioGetNumQueues n
  let newNumQueues := newMaxQueues * 2 + 1
  if oldNumQueues < 3 ∨ oldNumQueues % 2 ≠ 1 then none
  else if oldNumQueues = newNumQueues then some n
  else moveNumQueues n oldNumQueues newNumQueues

/-- `virtio_net_set_multiqueue`, where `virtio_net_set_queues` only talks to the peers. -/
def setMultiqueue (multiqueue : Bool) : Option VirtIONet :=
  changeNumQueues { n with multiqueue := multiqueue } (if multiqueue then n.maxQueues else 1)

/-- The VLAN table with every bit set or none. -/
def setVlans (word : BitVec 32) : VirtIONet :=
  { n with modes := { n.modes with vlans := fun _ => word } }

/-- The rest of `virtio_net_set_features`, behind the queues. The caller stores the features. -/
def adoptFeatures (features : BitVec 64) : VirtIONet :=
  let n := setMrgRxBufs n (if hasFeature features fMrgRxbuf then 1 else 0)
    (hasFeature features fVersion1)
  let n := setVlans n (if hasFeature features fCtrlVlan then 0 else 0xffffffff)
  { n with
    currGuestOffloads :=
      if n.hasVnetHdr then guestOffloadsByFeatures features else n.currGuestOffloads
    guestFeatures := features }

/-- `virtio_net_set_features`. -/
def setFeatures (features : BitVec 64) : Option VirtIONet :=
  (setMultiqueue n (hasFeature features fMq)).map fun n => adoptFeatures n features

/-! ### Creating, resetting and taking down the device -/

variable (conf : NetConf) (backend : Backend)

/-- The device before `virtio_net_device_realize` has done anything, behind `virtio_init`. -/
def zeroed : VirtIONet where
  conf := conf
  backend := backend
  vdevStatus := 0
  vmRunning := conf.vmRunning
  guestFeatures := 0
  vq := fun _ => { num := 0, handleOutput := none }
  modes :=
    { mac := fun _ => 0
      promisc := 0
      allmulti := 0
      alluni := 0
      nomulti := 0
      nouni := 0
      nobcast := 0
      macTable :=
        { inUse := 0, firstMulti := 0, multiOverflow := 0, uniOverflow := 0, macs := fun _ => 0 }
      vlans := fun _ => 0 }
  status := 0
  vqs := fun _ =>
    { rxVq := none, txVq := none, txTimer := none, txBh := none, txWaiting := 0 }
  ctrlVq := none
  hasVnetHdr := false
  hasUfo := false
  hostHdrLen := 0
  guestHdrLen := 0
  mergeableRxBufs := 0
  vhostStarted := false
  needsVnetHdrSwap := false
  multiqueue := false
  maxQueues := 0
  currQueues := 0
  currGuestOffloads := 0
  announceCounter := 0
  announceTimer := false
  rxfilterNotifyEnabled := false
  rxFilterEvents := 0
  statusChanges := 0
  work := Heap.empty

/-- A configuration for one queue pair, or for more of them. -/
def smallConf (queues : Nat) : NetConf where
  queues := queues
  rxQueueSize := 256
  txQueueSize := 256
  tx := none
  txburst := 256
  macaddr := fun i => if i = 0 then 0x52 else 0
  hostFeatures := 0
  bigEndian := false
  vmRunning := true

/-- A backend that has no headers and no vhost. -/
def plainBackend : Backend where
  hasVnetHdr := false
  hasUfo := false
  hasVnetHdrLen := fun _ _ => false
  vhostNet := false
  vhostFeatures := id
  needsSwap := fun _ => false
  linkDown := fun _ => false
  vhostStarts := fun _ => false

/-- How `virtio_net_device_realize` can end without a device. -/
inductive Failure
  | error (message : String)
  | abort

/-- The size of a queue is a power of two in the range that the device allows. -/
def queueSizeOk (size : Nat) : Bool :=
  virtioNetQueueMinSize ≤ size && size ≤ virtqueueMaxSize && size &&& (size - 1) == 0

/-- The error for a queue of a bad size. -/
def queueSizeError (name : String) (size : Nat) (ending : String) : Failure :=
  .error ("Invalid " ++ name ++ " (= " ++ toString size ++ "), must be a power of 2 between " ++
    toString virtioNetQueueMinSize ++ " and " ++ toString virtqueueMaxSize ++ ending)

/-- The error for too many queue pairs. -/
def queuesError (maxQueues : Nat) : Failure :=
  .error ("Invalid number of queues (= " ++ toString maxQueues ++
    "), must be a positive integer less than " ++ toString ((virtioQueueMax - 1) / 2) ++ ".")

/-- The queues that `virtio_net_device_realize` adds. -/
def addQueues : Option VirtIONet :=
  ((List.range n.maxQueues).foldlM addQueue n).bind fun n =>
  (virtioAddQueue n 64 .handleCtrl).map fun (n, ctrlVq) => { n with ctrlVq := some ctrlVq }

/-- The rest of `virtio_net_device_realize`, behind the queues. -/
def finishRealize : VirtIONet :=
  let n :=
    { n with
      modes := { n.modes with mac := n.conf.macaddr }
      status := sLinkUp
      hasVnetHdr := n.backend.hasVnetHdr
      hostHdrLen := if n.backend.hasVnetHdr then hdrSize else 0
      vqs := update n.vqs 0 { n.vqs 0 with txWaiting := 0 } }
  let n := setMrgRxBufs n 0 false
  { n with modes := { n.modes with promisc := 1 }, rxfilterNotifyEnabled := true }

/-- `virtio_net_device_realize`. -/
def realize : Except Failure VirtIONet :=
  if !queueSizeOk conf.rxQueueSize then
    .error (queueSizeError "rx_queue_size" conf.rxQueueSize ".")
  else if !queueSizeOk conf.txQueueSize then
    .error (queueSizeError "tx_queue_size" conf.txQueueSize "")
  else
    let maxQueues := max conf.queues 1 % 2 ^ 16
    if maxQueues * 2 + 1 > virtioQueueMax then .error (queuesError maxQueues)
    else
      match addQueues { zeroed conf backend with maxQueues := maxQueues, currQueues := 1 } with
      | none => .error .abort
      | some n => .ok (finishRealize n)

/-- The device could be created. -/
def isRealized : Bool :=
  match realize conf backend with
  | .ok _ => true
  | .error _ => false

/-- The device that `virtio_net_device_realize` leaves, if it can. -/
def created : VirtIONet :=
  match realize conf backend with
  | .ok n => n
  | .error _ => zeroed conf backend

theorem realize_created {conf : NetConf} {backend : Backend}
    (realized : isRealized conf backend = true) :
    realize conf backend = .ok (created conf backend) := by
  rw [isRealized] at realized
  split at realized
  · next n isOk => rw [created, isOk]
  · cases realized

/-- `virtio_net_device_unrealize`. -/
def unrealize : VirtIONet :=
  let n := setStatus n 0
  (List.range (if n.multiqueue then n.maxQueues else 1)).foldl delQueue n

/-- `virtio_net_reset`. -/
def netReset : VirtIONet :=
  { n with
    currQueues := 1
    announceTimer := false
    announceCounter := 0
    status := n.status &&& ~~~sAnnounce
    modes :=
      { mac := n.conf.macaddr
        promisc := 1
        allmulti := 0
        alluni := 0
        nomulti := 0
        nouni := 0
        nobcast := 0
        macTable :=
          { inUse := 0, firstMulti := 0, multiOverflow := 0, uniOverflow := 0,
            macs := fun _ => 0 }
        vlans := fun _ => 0 } }

/-! ### Transmit work that is put off -/

/-- Write `tx_waiting`. -/
def setTxWaiting (index : Nat) (waiting : BitVec 32) : VirtIONet :=
  setQueue n index { n.vqs index with txWaiting := waiting }

/-- `virtio_net_handle_tx_timer` for the queue in a slot. -/
def handleTxTimer (slot : Nat) : VirtIONet :=
  let index := slot / 2
  let q := n.vqs index
  if !n.vmRunning then setTxWaiting n index 1
  else if q.txWaiting ≠ 0 then setTxWaiting (useDeferred n .timerDel false q.txTimer) index 0
  else setTxWaiting (useDeferred n .timerMod true q.txTimer) index 1

/-- `virtio_net_handle_tx_bh` for the queue in a slot. -/
def handleTxBh (slot : Nat) : VirtIONet :=
  let index := slot / 2
  let q := n.vqs index
  if q.txWaiting ≠ 0 then n
  else if !n.vmRunning then setTxWaiting n index 1
  else useDeferred (setTxWaiting n index 1) .bhSchedule true q.txBh

/-- The start of `virtio_net_tx_timer` and `virtio_net_tx_bh`, which ends at an assertion. -/
def startDeferred (index : Nat) (rest : VirtIONet → VirtIONet) : Option VirtIONet :=
  if !n.vmRunning then if (n.vqs index).txWaiting ≠ 0 then some n else none
  else
    let n := setTxWaiting n index 0
    some (if driverOk n.vdevStatus then rest n else n)

/-- `virtio_net_tx_timer`. -/
def txTimer (index : Nat) : Option VirtIONet := startDeferred n index id

/-- `EBUSY`. -/
def eBusy : Int := 16

/-- `virtio_net_tx_bh`, where the two calls of `virtio_net_flush_tx` return the given values. -/
def txBh (index : Nat) (ret again : Int) : Option VirtIONet :=
  startDeferred n index fun n =>
    let rescheduled := setTxWaiting (useDeferred n .bhSchedule true (n.vqs index).txBh) index 1
    if ret = -eBusy then n
    else if ret ≥ n.conf.txburst then rescheduled
    else if again > 0 then rescheduled
    else n

/-- The event loop runs a bottom half or timer that is due. -/
def runDeferred (address : Nat) (ret again : Int) : Option VirtIONet :=
  let deferred := n.work.object address
  if n.work.Live address ∧ deferred.pending then
    let n := { n with
      work := { n.work with
        object := update n.work.object address (setPending false deferred) } }
    if deferred.timer then txTimer n deferred.queue else txBh n deferred.queue ret again
  else none

end StudyNotes.NetDevice
