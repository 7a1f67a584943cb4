/-
This file models the control queue of the virtio-net device: the handlers of
its commands, the loop that takes the commands from the queue, and what the
device tells about its receive filter.

The buffers of an element are taken as the list of their bytes. An element that
is too short for its headers ends the whole device, so the loop can stop there.
-/

import StudyNotes.Library.Bytes
import StudyNotes.Library.Machine
import StudyNotes.NetDevice.Device

namespace StudyNotes.NetDevice

open Library
open VirtioNet (RxFilter receiveFilter slice)

/-! ### The receive filter -/

/-- An entry of a table. -/
def entryOf (macs : Nat → UInt8) (i : Nat) : List UInt8 := slice macs (i * 6) (i * 6 + 6)

/-- The part of the state that `receive_filter` reads. -/
def RxModes.filter (modes : RxModes) : RxFilter where
  promisc := modes.promisc != 0
  allmulti := modes.allmulti != 0
  alluni := modes.alluni != 0
  nomulti := modes.nomulti != 0
  nouni := modes.nouni != 0
  nobcast := modes.nobcast != 0
  vlans := modes.vlans
  mac := slice modes.mac 0 6
  macs := entryOf modes.macTable.macs
  inUse := modes.macTable.inUse
  firstMulti := modes.macTable.firstMulti
  multiOverflow := modes.macTable.multiOverflow != 0
  uniOverflow := modes.macTable.uniOverflow != 0

variable (n : VirtIONet)

/-- The packet in a frame, behind the header of the host. -/
def packetIn (buf : Nat → UInt8) (i : Nat) : UInt8 := buf (n.hostHdrLen + i)

/-- `receive_filter`. -/
def accepts (buf : Nat → UInt8) : Bool :=
  receiveFilter n.modes.filter (packetIn n buf)

/-! ### Commands -/

/-- `virtio_net_ctrl_ack`. -/
inductive Ack
  | ok
  | err
  deriving DecidableEq

/-- `VIRTIO_NET_CTRL_RX`. -/
def ctrlRx : UInt8 := 0

/-- `VIRTIO_NET_CTRL_RX_PROMISC`. -/
def ctrlRxPromisc : UInt8 := 0

/-- `VIRTIO_NET_CTRL_RX_ALLMULTI`. -/
def ctrlRxAllmulti : UInt8 := 1

/-- `VIRTIO_NET_CTRL_RX_ALLUNI`. -/
def ctrlRxAlluni : UInt8 := 2

/-- `VIRTIO_NET_CTRL_RX_NOMULTI`. -/
def ctrlRxNomulti : UInt8 := 3

/-- `VIRTIO_NET_CTRL_RX_NOUNI`. -/
def ctrlRxNouni : UInt8 := 4

/-- `VIRTIO_NET_CTRL_RX_NOBCAST`. -/
def ctrlRxNobcast : UInt8 := 5

/-- `VIRTIO_NET_CTRL_MAC`. -/
def ctrlMac : UInt8 := 1

/-- `VIRTIO_NET_CTRL_MAC_TABLE_SET`. -/
def ctrlMacTableSet : UInt8 := 0

/-- `VIRTIO_NET_CTRL_MAC_ADDR_SET`. -/
def ctrlMacAddrSet : UInt8 := 1

/-- `VIRTIO_NET_CTRL_VLAN`. -/
def ctrlVlan : UInt8 := 2

/-- `VIRTIO_NET_CTRL_VLAN_ADD`. -/
def ctrlVlanAdd : UInt8 := 0

/-- `VIRTIO_NET_CTRL_VLAN_DEL`. -/
def ctrlVlanDel : UInt8 := 1

/-- `VIRTIO_NET_CTRL_ANNOUNCE`. -/
def ctrlAnnounce : UInt8 := 3

/-- `VIRTIO_NET_CTRL_ANNOUNCE_ACK`. -/
def ctrlAnnounceAck : UInt8 := 0

/-- `VIRTIO_NET_CTRL_MQ`. -/
def ctrlMq : UInt8 := 4

/-- `VIRTIO_NET_CTRL_MQ_VQ_PAIRS_SET`. -/
def ctrlMqVqPairsSet : UInt8 := 0

/-- `VIRTIO_NET_CTRL_MQ_VQ_PAIRS_MIN`. -/
def ctrlMqVqPairsMin : Nat := 1

/-- `VIRTIO_NET_CTRL_MQ_VQ_PAIRS_MAX`. -/
def ctrlMqVqPairsMax : Nat := 0x8000

/-- `VIRTIO_NET_CTRL_GUEST_OFFLOADS`. -/
def ctrlGuestOffloads : UInt8 := 5

/-- `VIRTIO_NET_CTRL_GUEST_OFFLOADS_SET`. -/
def ctrlGuestOffloadsSet : UInt8 := 0

/-- A number in the byte order of the device, as `virtio_ldl_p` and `virtio_lduw_p` read it. -/
def loadNumber (bigEndian : Bool) (bytes : List UInt8) : Nat :=
  if bigEndian then ofBigEndian bytes else ofLittleEndian bytes

/-- `rxfilter_notify`. -/
def rxfilterNotify : VirtIONet :=
  if n.rxfilterNotifyEnabled then
    { n with rxFilterEvents := n.rxFilterEvents + 1, rxfilterNotifyEnabled := false }
  else n

@[simp] theorem rxfilterNotify_modes : (rxfilterNotify n).modes = n.modes := by
  rw [rxfilterNotify]
  split <;> rfl

/-- What a command of the class `VIRTIO_NET_CTRL_RX` changes. -/
def setRxMode (modes : RxModes) (cmd on : UInt8) : Option RxModes :=
  if cmd = ctrlRxPromisc then some { modes with promisc := on }
  else if cmd = ctrlRxAllmulti then some { modes with allmulti := on }
  else if cmd = ctrlRxAlluni then some { modes with alluni := on }
  else if cmd = ctrlRxNomulti then some { modes with nomulti := on }
  else if cmd = ctrlRxNouni then some { modes with nouni := on }
  else if cmd = ctrlRxNobcast then some { modes with nobcast := on }
  else none

variable (cmd : UInt8) (iov : List UInt8)

/-- `virtio_net_handle_rx_mode`. -/
def handleRxMode : VirtIONet × Ack :=
  match iov with
  | [] => (n, .err)
  | on :: _ =>
    match setRxMode n.modes cmd on with
    | none => (n, .err)
    | some modes => (rxfilterNotify { n with modes := modes }, .ok)

/-- `virtio_net_handle_offloads`. -/
def handleOffloads : VirtIONet × Ack :=
  if !hasFeature n.guestFeatures fCtrlGuestOffloads then (n, .err)
  else if (iov.take 8).length ≠ 8 then (n, .err)
  else if cmd = ctrlGuestOffloadsSet then
    let offloads := BitVec.ofNat 64 (ofLittleEndian (iov.take 8))
    if !n.hasVnetHdr then (n, .err)
    else if offloads &&& ~~~guestOffloadsByFeatures n.guestFeatures ≠ 0 then (n, .err)
    else ({ n with currGuestOffloads := offloads }, .ok)
  else (n, .err)

/-! ### The MAC table -/

/-- `mac_data.entries * ETH_ALEN`, which is computed in 32 bits. -/
def macBytes (entries : BitVec 32) : Nat := (entries * 6).toNat

/-- A count of entries and what follows it. -/
def readEntries (bigEndian : Bool) (iov : List UInt8) : Option (BitVec 32 × List UInt8) :=
  if (iov.take 4).length ≠ 4 then none
  else some (BitVec.ofNat 32 (loadNumber bigEndian (iov.take 4)), iov.drop 4)

/-- The variables of `virtio_net_handle_mac`, without the flag of the list that is read. -/
structure MacReading where
  inUse : Nat
  macs : Nat → UInt8

/-- Copy a list of entries if there is room for them. The second value is the overflow flag. -/
def copyMacs (reading : MacReading) (entries : BitVec 32) (iov : List UInt8) :
    Option (MacReading × UInt8) :=
  if entries.toNat ≤ macTableEntries - reading.inUse then
    let bytes := iov.take (macBytes entries)
    if bytes.length ≠ macBytes entries then none
    else
      some ({ inUse := reading.inUse + entries.toNat
              macs := overwrite reading.macs (reading.inUse * 6) bytes }, 0)
  else some (reading, 1)

/-- The table that a command sets, if it is well formed. -/
def readMacTable (bigEndian : Bool) (iov : List UInt8) : Option MacTable :=
  (readEntries bigEndian iov).bind fun (entries, iov) =>
  if macBytes entries > iov.length then none
  else
    (copyMacs { inUse := 0, macs := fun _ => 0 } entries iov).bind fun (unicast, uniOverflow) =>
    (readEntries bigEndian (iov.drop (macBytes entries))).bind fun (entries, iov) =>
    if macBytes entries ≠ iov.length then none
    else
      (copyMacs unicast entries iov).map fun (both, multiOverflow) =>
        { inUse := both.inUse
          firstMulti := unicast.inUse
          multiOverflow := multiOverflow
          uniOverflow := uniOverflow
          macs := both.macs }

/-- `virtio_net_handle_mac`. -/
def handleMac : VirtIONet × Ack :=
  if cmd = ctrlMacAddrSet then
    if iov.length ≠ 6 then (n, .err)
    else
      (rxfilterNotify { n with modes := { n.modes with mac := overwrite n.modes.mac 0 iov } }, .ok)
  else if cmd ≠ ctrlMacTableSet then (n, .err)
  else
    match readMacTable n.conf.bigEndian iov with
    | none => (n, .err)
    | some table => (rxfilterNotify { n with modes := { n.modes with macTable := table } }, .ok)

/-! ### The other commands -/

/-- `MAX_VLAN`. -/
def maxVlan : Nat := 4096

/-- `virtio_net_handle_vlan_table`. -/
def handleVlanTable : VirtIONet × Ack :=
  if (iov.take 2).length ≠ 2 then (n, .err)
  else
    let vid := loadNumber n.conf.bigEndian (iov.take 2)
    let word := n.modes.vlans (vid >>> 5)
    let bit := BitVec.ofNat 32 (1 <<< (vid &&& 0x1f))
    let setWord (word : BitVec 32) : VirtIONet :=
      { n with modes := { n.modes with vlans := Function.update n.modes.vlans (vid >>> 5) word } }
    if vid ≥ maxVlan then (n, .err)
    else if cmd = ctrlVlanAdd then (rxfilterNotify (setWord (word ||| bit)), .ok)
    else if cmd = ctrlVlanDel then (rxfilterNotify (setWord (word &&& ~~~bit)), .ok)
    else (n, .err)

/-- `virtio_net_handle_announce`. -/
def handleAnnounce (cmd : UInt8) : VirtIONet × Ack :=
  if cmd = ctrlAnnounceAck ∧ n.status &&& sAnnounce ≠ 0 then
    ({ n with
      status := n.status &&& ~~~sAnnounce
      announceTimer := if n.announceCounter ≠ 0 then true else n.announceTimer }, .ok)
  else (n, .err)

/-- `virtio_net_handle_mq`. -/
def handleMq : VirtIONet × Ack :=
  if (iov.take 2).length ≠ 2 then (n, .err)
  else if cmd ≠ ctrlMqVqPairsSet then (n, .err)
  else
    let queues := loadNumber n.conf.bigEndian (iov.take 2)
    if queues < ctrlMqVqPairsMin ∨ queues > ctrlMqVqPairsMax ∨ queues > n.maxQueues ∨
        !n.multiqueue then (n, .err)
    else (setStatus { n with currQueues := queues } n.vdevStatus, .ok)

/-! ### The control queue -/

/-- An element of the control queue: the bytes to read, and how many bytes can be written. -/
structure CtrlElem where
  outSg : List UInt8
  inSize : Nat

/-- `iov_size` is at least as much as both headers need. -/
def CtrlElem.hasHeaders (elem : CtrlElem) : Bool :=
  !(elem.inSize < 1 || elem.outSg.length < 2)

/-- The handler of a command. There is no result for a class that has none. -/
def dispatch (cls cmd : UInt8) (iov : List UInt8) : Option (VirtIONet × Ack) :=
  if cls = ctrlRx then some (handleRxMode n cmd iov)
  else if cls = ctrlMac then some (handleMac n cmd iov)
  else if cls = ctrlVlan then some (handleVlanTable n cmd iov)
  else if cls = ctrlAnnounce then some (handleAnnounce n cmd)
  else if cls = ctrlMq then some (handleMq n cmd iov)
  else if cls = ctrlGuestOffloads then some (handleOffloads n cmd iov)
  else none

/-- One turn of the loop of `virtio_net_handle_ctrl`, on its variable `status`. -/
def ctrlCommand (status : Ack) (elem : CtrlElem) : VirtIONet × Ack :=
  match elem.outSg with
  | cls :: cmd :: iov => (dispatch n cls cmd iov).getD (n, status)
  | _ => (n, .err)

/-- What is left when the control queue was handled. -/
structure CtrlRun where
  device : VirtIONet
  /-- The status bytes that were written, in the order of the elements. -/
  acks : List Ack
  exited : Bool

/-- The loop of `virtio_net_handle_ctrl`. -/
def ctrlLoop : VirtIONet → Ack → List CtrlElem → CtrlRun
  | n, _, [] => { device := n, acks := [], exited := false }
  | n, status, elem :: rest =>
    if elem.hasHeaders then
      let (next, status) := ctrlCommand n status elem
      let run := ctrlLoop next status rest
      { run with acks := status :: run.acks }
    else { device := n, acks := [], exited := true }

/-- `virtio_net_handle_ctrl`. -/
def handleCtrl (elems : List CtrlElem) : CtrlRun := ctrlLoop n .err elems

/-! ### What the device tells about its filter -/

/-- `RxState`. -/
inductive RxState
  | normal
  | none
  | all
  deriving DecidableEq

/-- `RxFilterInfo`. An address is reported as a text. -/
structure RxFilterInfo (Text : Type) where
  promiscuous : Bool
  unicast : RxState
  multicast : RxState
  broadcastAllowed : Bool
  multicastOverflow : Bool
  unicastOverflow : Bool
  mainMac : Text
  unicastTable : List Text
  multicastTable : List Text
  vlanTable : List Nat
  vlan : RxState

/-- How a kind of frames is received. -/
def rxState (no all : UInt8) : RxState :=
  if no ≠ 0 then .none else if all ≠ 0 then .all else .normal

/-- The texts of the entries from one index up to another one, the last one first. -/
def macTexts {Text : Type} (macText : List UInt8 → Text) (macs : Nat → UInt8) (start stop : Nat) :
    List Text :=
  (List.range' start (stop - start)).foldl
    (fun list i => macText (entryOf macs i) :: list) []

/-- `get_vlan_table`. -/
def getVlanTable (vlans : Nat → BitVec 32) : List Nat :=
  (List.range (maxVlan >>> 5)).foldl (fun list i =>
    (List.range 32).foldl (fun list j =>
      if (vlans i).getLsbD j then ((i <<< 5) + j) :: list else list) list) []

/-- `virtio_net_query_rxfilter`. The texts are those of `qemu_mac_strdup_printf`. -/
def queryRxfilter {Text : Type} (macText : List UInt8 → Text) (n : VirtIONet) :
    VirtIONet × RxFilterInfo Text :=
  let modes := n.modes
  let table := modes.macTable
  let vlanTable := getVlanTable modes.vlans
  ({ n with rxfilterNotifyEnabled := true },
    { promiscuous := modes.promisc != 0
      unicast := rxState modes.nouni modes.alluni
      multicast := rxState modes.nomulti modes.allmulti
      broadcastAllowed := modes.nobcast != 0
      multicastOverflow := table.multiOverflow != 0
      unicastOverflow := table.uniOverflow != 0
      mainMac := macText (slice modes.mac 0 6)
      unicastTable := macTexts macText table.macs 0 table.firstMulti
      multicastTable := macTexts macText table.macs table.firstMulti table.inUse
      vlanTable := vlanTable
      vlan :=
        if !hasFeature n.guestFeatures fCtrlVlan then .all
        else if vlanTable = [] then .none
        else .normal })

/-! ### The device and its surroundings -/

/-- What can happen to a device. -/
inductive Action
  /-- The guest kicks the queue in a slot. If it is the control queue, the elements are in it. -/
  | kick (slot : Nat) (elems : List CtrlElem)
  | writeStatus (status : BitVec 8)
  | vmState (running : Bool)
  | linkStatus (down : Bool)
  | reset
  | negotiate (features : BitVec 64)
  /-- A bottom half or timer is run, and the calls of `virtio_net_flush_tx` return the values. -/
  | deferred (address : Nat) (ret again : Int)

/-- The handler of a queue. There is no result when the device ends itself. -/
def kick (slot : Nat) (elems : List CtrlElem) : Handler → Option (VirtIONet × List Ack)
  | .handleRx => some (n, [])
  | .handleTxTimer => some (handleTxTimer n slot, [])
  | .handleTxBh => some (handleTxBh n slot, [])
  | .handleCtrl =>
    let run := handleCtrl n elems
    if run.exited then none else some (run.device, run.acks)

/-- `virtio_set_status`. -/
def writeStatus (status : BitVec 8) : VirtIONet :=
  { setStatus n status with vdevStatus := status }

/-- `virtio_net_set_link_status`. -/
def setLinkStatus (down : Bool) : VirtIONet :=
  setStatus
    { n with status := if down then n.status &&& ~~~sLinkUp else n.status ||| sLinkUp }
    n.vdevStatus

/-- `virtio_reset`: the status is cleared first. -/
def reset : VirtIONet :=
  { netReset (writeStatus n 0) with guestFeatures := 0 }

/-- What happens to the device. -/
def step : Action → Option (VirtIONet × List Ack)
  | .kick slot elems =>
    match (n.vq slot).handleOutput with
    | none => none
    | some handler => kick n slot elems handler
  | .writeStatus status => some (writeStatus n status, [])
  | .vmState running => some (setStatus { n with vmRunning := running } n.vdevStatus, [])
  | .linkStatus down => some (setLinkStatus n down, [])
  | .reset => some (reset n, [])
  | .negotiate features => (setFeatures n features).map fun next => (next, [])
  | .deferred address ret again => (runDeferred n address ret again).map fun next => (next, [])

/-! ### A small device -/

/-- A device with one queue pair that was just created. -/
def booted : VirtIONet := created (smallConf 1) plainBackend

theorem isRealized_small : isRealized (smallConf 1) plainBackend = true := by decide +kernel

theorem realize_booted : realize (smallConf 1) plainBackend = .ok booted := by
  exact realize_created isRealized_small

/-- The command that switches promiscuous mode off. -/
def promiscOff : CtrlElem where
  outSg := [ctrlRx, ctrlRxPromisc, 0]
  inSize := 1

/-- The device behind that command. -/
def quietDevice : VirtIONet := (handleCtrl booted [promiscOff]).device

end StudyNotes.NetDevice
