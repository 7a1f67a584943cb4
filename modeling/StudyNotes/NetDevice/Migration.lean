/-
This file models how the virtio-net device is written to a migration stream and
read from one. The format has grown from version to version, so most parts are
only read if the version is late enough for them.

The VLAN table is written as it lies in memory; its words have their least
significant byte first. What the device only tells its backend when it has been
loaded is not part of the state.
-/

import StudyNotes.NetDevice.Control

namespace StudyNotes.NetDevice

open Library
open VirtioNet (slice)

/-- `SELF_ANNOUNCE_ROUNDS`. -/
def selfAnnounceRounds : Int := 5

/-! ### The VLAN table in memory -/

/-- The VLAN table as bytes. -/
def vlanBytes (vlans : Nat → BitVec 32) (i : Nat) : UInt8 :=
  (toLittleEndian 4 (vlans (i / 4)).toNat).getD (i % 4) 0

/-- The VLAN table that bytes stand for. -/
def vlanWords (bytes : Nat → UInt8) (w : Nat) : BitVec 32 :=
  BitVec.ofNat 32 (ofLittleEndian (slice bytes (4 * w) (4 * w + 4)))

/-! ### Saving -/

variable (n : VirtIONet)

/-- `qemu_get_byte`. -/
def nextByte (stream : List UInt8) : UInt8 := stream.getD 0 0

/-- The device so far, and the stream behind what it was read from. -/
structure Loading where
  device : VirtIONet
  stream : List UInt8

/-- Write `mac`. -/
def setMac (mac : Nat → UInt8) : VirtIONet :=
  { n with modes := { n.modes with mac := mac } }

/-- Load `mac`. -/
def loadMac (loading : Loading) : Loading where
  device := setMac loading.device
    (overwrite loading.device.modes.mac 0 (nextBytes 6 loading.stream))
  stream := loading.stream.drop 6

/-- Load `tx_waiting`. -/
def loadTxWaiting (i : Nat) (loading : Loading) : Loading where
  device := setTxWaiting loading.device i (BitVec.ofNat 32 (nextNumber 4 loading.stream))
  stream := loading.stream.drop 4

/-- Load `mergeable_rx_bufs`. -/
def loadMrgRxBufs (loading : Loading) : Loading where
  device := setMrgRxBufs loading.device (BitVec.ofNat 32 (nextNumber 4 loading.stream))
    (hasFeature loading.device.guestFeatures fVersion1)
  stream := loading.stream.drop 4

/-- Write `status`. -/
def setStatusBits (status : BitVec 16) : VirtIONet := { n with status := status }

variable (version : Nat) (loading : Loading)

/-- Load `status`. -/
def loadStatus : Loading :=
  if version ≥ 3 then
    { device := setStatusBits loading.device (BitVec.ofNat 16 (nextNumber 2 loading.stream))
      stream := loading.stream.drop 2 }
  else loading

/-- Write `promisc` and `allmulti`. -/
def setPromisc (promisc allmulti : UInt8) : VirtIONet :=
  { n with modes := { n.modes with promisc := promisc, allmulti := allmulti } }

/-- Early versions have a word for each mode, of which the device keeps one byte. -/
def loadModes : Loading :=
  let n := loading.device
  let stream := loading.stream
  if version ≥ 4 then
    if version < 8 then
      { device := setPromisc n (UInt8.ofNat (nextNumber 4 stream))
          (UInt8.ofNat (nextNumber 4 (stream.drop 4)))
        stream := stream.drop 8 }
    else
      { device := setPromisc n (nextByte stream) (nextByte (stream.drop 1))
        stream := stream.drop 2 }
  else loading

/-- Write `mac_table`. -/
def setMacTable (table : MacTable) : VirtIONet :=
  { n with modes := { n.modes with macTable := table } }

/-- The addresses of a table that is too large are skipped. -/
def loadMacTable : Loading :=
  let n := loading.device
  let table := n.modes.macTable
  if version ≥ 5 then
    let inUse := nextNumber 4 loading.stream
    let behind := loading.stream.drop 4
    { device :=
        if inUse ≤ macTableEntries then
          setMacTable n { table with
            inUse := inUse
            macs := overwrite table.macs 0 (nextBytes (inUse * 6) behind) }
        else setMacTable n { table with inUse := 0, multiOverflow := 1, uniOverflow := 1 }
      stream := behind.drop (inUse * 6) }
  else loading

/-- Write `vlans`. -/
def setVlanTable (vlans : Nat → BitVec 32) : VirtIONet :=
  { n with modes := { n.modes with vlans := vlans } }

/-- Load `vlans`. -/
def loadVlans : Loading :=
  let n := loading.device
  if version ≥ 6 then
    { device := setVlanTable n (vlanWords
        (overwrite (vlanBytes n.modes.vlans) 0 (nextBytes (maxVlan >>> 3) loading.stream)))
      stream := loading.stream.drop (maxVlan >>> 3) }
  else loading

/-- The saved image may ask for headers that the backend does not have. -/
def checkVnetHdr : Option Loading :=
  if version ≥ 7 then
    if nextNumber 4 loading.stream ≠ 0 ∧ !loading.device.hasVnetHdr then none
    else some { loading with stream := loading.stream.drop 4 }
  else some loading

/-- Load the overflow flags. -/
def loadOverflows : Loading :=
  let n := loading.device
  if version ≥ 9 then
    { device := setMacTable n { n.modes.macTable with
        multiOverflow := nextByte loading.stream
        uniOverflow := nextByte (loading.stream.drop 1) }
      stream := loading.stream.drop 2 }
  else loading

/-- Write the modes by kind of address. -/
def setKinds (alluni nomulti nouni nobcast : UInt8) : VirtIONet :=
  { n with modes := { n.modes with
      alluni := alluni
      nomulti := nomulti
      nouni := nouni
      nobcast := nobcast } }

/-- Load the modes by kind of address. -/
def loadKinds : Loading :=
  let stream := loading.stream
  if version ≥ 10 then
    { device := setKinds loading.device (nextByte stream) (nextByte (stream.drop 1))
        (nextByte (stream.drop 2)) (nextByte (stream.drop 3))
      stream := stream.drop 4 }
  else loading

/-- The saved image may ask for an offload that the backend does not have. -/
def checkUfo : Option Loading :=
  let behind := loading.stream.drop 1
  if version ≥ 11 then
    if nextByte loading.stream ≠ 0 then
      let answer := peerHasUfo loading.device
      if !answer.2 then none else some { device := answer.1, stream := behind }
    else some { loading with stream := behind }
  else some loading

/-- Load the queue pairs. -/
def loadQueues (loading : Loading) : Option Loading :=
  let n := loading.device
  let stream := loading.stream
  if n.maxQueues > 1 then
    let currQueues := nextNumber 2 (stream.drop 2)
    if n.maxQueues ≠ nextNumber 2 stream then none
    else if currQueues > n.maxQueues then none
    else
      some ((List.range' 1 (currQueues - 1)).foldl (fun loading i => loadTxWaiting i loading)
        { device := { n with currQueues := currQueues }, stream := stream.drop 4 })
  else some loading

/-- The features of the host decide about the offloads if the guest could not. -/
def loadOffloads (loading : Loading) : VirtIONet :=
  let n := loading.device
  { n with
    currGuestOffloads :=
      if hasFeature n.guestFeatures fCtrlGuestOffloads then
        BitVec.ofNat 64 (nextNumber 8 loading.stream)
      else guestOffloadsByFeatures n.guestFeatures }

/-- The index of the first entry of a table that is a multicast address. -/
def firstMultiOf (table : MacTable) : Nat :=
  ((List.range table.inUse).takeWhile fun i => table.macs (i * 6) &&& 1 = 0).length

/-- The rest of `virtio_net_load_device`, behind what is read. -/
def finishLoad : VirtIONet :=
  let table := n.modes.macTable
  let announces := hasFeature n.guestFeatures fGuestAnnounce && hasFeature n.guestFeatures fCtrlVq
  { setMacTable n { table with firstMulti := firstMultiOf table } with
    announceCounter := if announces then selfAnnounceRounds else n.announceCounter
    announceTimer := announces || n.announceTimer }

/-- Everything before the MAC table. -/
def loadFront : Loading :=
  loadModes version (loadStatus version (loadMrgRxBufs (loadTxWaiting 0 (loadMac loading))))

/-- Everything behind the modes. -/
def loadTail : Option VirtIONet :=
  (checkUfo version loading).bind fun loading =>
  (loadQueues loading).map fun loading => finishLoad (loadOffloads loading)

/-- `virtio_net_load_device`. There is no result when it returns an error. -/
def loadDevice (version : Nat) (n : VirtIONet) (stream : List UInt8) : Option VirtIONet :=
  let loading := loadMacTable version (loadFront version { device := n, stream := stream })
  (checkVnetHdr version (loadVlans version loading)).bind fun loading =>
  loadTail version (loadKinds version (loadOverflows version loading))

end StudyNotes.NetDevice
