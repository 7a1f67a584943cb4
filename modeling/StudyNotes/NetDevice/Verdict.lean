/-
This file says what the receive filter of the virtio-net device decides, one
lemma for each kind of frame. Nothing else about the filter is used later on.
-/

import StudyNotes.NetDevice.Control

namespace StudyNotes.NetDevice

open Library
open VirtioNet (RxFilter receiveFilter slice)

/-! ### Frames -/

variable (packet : Nat → UInt8)

/-- The address a packet is sent to. -/
def destinationOf : List UInt8 := slice packet 0 6

/-- The frame goes to a multicast address. -/
def isMulticast : Bool := packet 0 &&& 1 ≠ 0

/-- The broadcast address. -/
def broadcast : List UInt8 := [0xff, 0xff, 0xff, 0xff, 0xff, 0xff]

/-- The frame has a VLAN tag. -/
def isTagged : Bool := packet 12 = 0x81 ∧ packet 13 = 0x00

/-- The number of the VLAN in the tag of a packet. -/
def vidOf : Nat := ((packet 14).toNat * 256 + (packet 15).toNat) &&& 0xfff

/-- The packet has no VLAN tag, or that of a VLAN in the table. -/
def passesVlan (vlans : Nat → BitVec 32) (packet : Nat → UInt8) : Bool :=
  !isTagged packet ||
    vlans (vidOf packet >>> 5) &&& BitVec.ofNat 32 (1 <<< (vidOf packet &&& 0x1f)) != 0

theorem vidOf_lt : vidOf packet >>> 5 < 128 := by
  have narrow : vidOf packet ≤ 0xfff := Nat.and_le_right
  rw [Nat.shiftRight_eq_div_pow]
  omega

variable {packet} {filter : RxFilter}

/-- A broadcast is a multicast. -/
theorem isMulticast_of_broadcast (toAll : destinationOf packet = broadcast) :
    isMulticast packet = true := by
  have first : packet 0 = 0xff := congrArg (fun list => list.getD 0 0) toAll
  rw [isMulticast, first]
  decide

/-! ### The filter -/

/-- The destination is one of the entries of the table from one index up to another one. -/
def isListed (filter : RxFilter) (packet : Nat → UInt8) (start stop : Nat) : Bool :=
  (List.range' start (stop - start)).any fun i => filter.macs i = destinationOf packet

theorem receiveFilter_promisc (packet : Nat → UInt8)
    (on : filter.promisc = true) : receiveFilter filter packet = true := by
  rw [receiveFilter, if_pos on]

theorem receiveFilter_of_not_passes
    (off : filter.promisc = false) (stopped : passesVlan filter.vlans packet = false) :
    receiveFilter filter packet = false := by
  rw [passesVlan, isTagged, vidOf] at stopped
  simp only [Bool.or_eq_false_iff, Bool.not_eq_false', decide_eq_true_eq, bne_eq_false_iff_eq]
    at stopped
  rw [receiveFilter, if_neg (by rw [off]; decide), if_pos ⟨stopped.1.1, stopped.1.2, stopped.2⟩]

/-- A packet that is tagged for a VLAN outside the table does not get to the other checks. -/
theorem receiveFilter_of_passes
    (off : filter.promisc = false) (passes : passesVlan filter.vlans packet = true) :
    receiveFilter filter packet =
      if isMulticast packet then
        if destinationOf packet = broadcast then !filter.nobcast
        else !filter.nomulti && (filter.allmulti || filter.multiOverflow ||
          isListed filter packet filter.firstMulti filter.inUse)
      else !filter.nouni && (filter.alluni || filter.uniOverflow ||
        decide (destinationOf packet = filter.mac) ||
          isListed filter packet 0 filter.firstMulti) := by
  have notStopped : ¬(packet 12 = 0x81 ∧ packet 13 = 0x00 ∧
      filter.vlans (vidOf packet >>> 5) &&&
        BitVec.ofNat 32 (1 <<< (vidOf packet &&& 0x1f)) = 0) := by
    rintro ⟨first, second, noBit⟩
    simp [passesVlan, isTagged, first, second, noBit] at passes
  rw [receiveFilter, if_neg (by rw [off]; decide), isMulticast, isListed, isListed,
    Nat.sub_zero, ← List.range_eq_range']
  refine (if_neg notStopped).trans ?_
  simp only [decide_eq_true_eq]
  by_cases multicast : packet 0 &&& 1 ≠ 0
  · rw [if_pos multicast, if_pos multicast]
    congr 1
    cases filter.nomulti <;> cases filter.allmulti <;> cases filter.multiOverflow <;> rfl
  · rw [if_neg multicast, if_neg multicast]
    by_cases own : destinationOf packet = filter.mac
    · rw [if_pos (show slice packet 0 6 = filter.mac from own)]
      cases filter.nouni <;> cases filter.alluni <;> cases filter.uniOverflow <;> simp [own]
    · rw [if_neg (show slice packet 0 6 ≠ filter.mac from own)]
      cases filter.nouni <;> cases filter.alluni <;> cases filter.uniOverflow <;>
        simp only [own, decide_false, Bool.false_or] <;> rfl

end StudyNotes.NetDevice
