/-
This file proves that a device that is saved and loaded again receives the same
frames, as long as the guest has kept the unicast and the multicast addresses of
its MAC table apart.

The loader finds the first multicast entry by looking at the addresses, so the
condition cannot be dropped. Everything else that the receive filter reads is in
the stream, or follows from the configuration and what is in the stream.
-/

import StudyNotes.NetDevice.Layout
import StudyNotes.NetDevice.Restore

namespace StudyNotes.NetDevice

open Library
open VirtioNet (hdrSize mrgHdrSize guestHdrLenOf receiveFilter slice)

/-! ### What the receive filter depends on -/

/-- The modes agree in all that the receive filter reads. -/
structure RxModes.Agrees (first second : RxModes) : Prop where
  promisc : first.promisc = second.promisc
  allmulti : first.allmulti = second.allmulti
  alluni : first.alluni = second.alluni
  nomulti : first.nomulti = second.nomulti
  nouni : first.nouni = second.nouni
  nobcast : first.nobcast = second.nobcast
  mac : slice first.mac 0 6 = slice second.mac 0 6
  vlans : ∀ w < maxVlan >>> 5, first.vlans w = second.vlans w
  inUse : first.macTable.inUse = second.macTable.inUse
  firstMulti : first.macTable.firstMulti = second.macTable.firstMulti
  flags : flagsOf first.macTable = flagsOf second.macTable
  entries : ∀ i < second.macTable.inUse,
    entryOf first.macTable.macs i = entryOf second.macTable.macs i

theorem RxModes.Agrees.isListed {first second : RxModes} (agrees : first.Agrees second)
    (packet : Nat → UInt8) {start stop : Nat} (inside : stop ≤ second.filter.inUse) :
    isListed first.filter packet start stop = isListed second.filter packet start stop := by
  rw [NetDevice.isListed, NetDevice.isListed, Bool.eq_iff_iff, List.any_eq_true, List.any_eq_true]
  refine exists_congr fun i => and_congr_right fun member => ?_
  obtain ⟨atLeast, below⟩ := List.mem_range'_1.mp member
  have same : first.filter.macs i = second.filter.macs i :=
    agrees.entries i (Nat.lt_of_lt_of_le (by omega) inside)
  rw [same]

theorem RxModes.Agrees.receiveFilter {first second : RxModes} (agrees : first.Agrees second)
    (sorted : second.filter.firstMulti ≤ second.filter.inUse) (packet : Nat → UInt8) :
    receiveFilter first.filter packet = receiveFilter second.filter packet := by
  obtain ⟨multi, uni⟩ := Prod.mk.inj agrees.flags
  have samePromisc : first.filter.promisc = second.filter.promisc := by
    rw [filter, filter, agrees.promisc]
  cases promisc : second.filter.promisc with
  | true =>
    rw [receiveFilter_promisc _ promisc, receiveFilter_promisc _ (samePromisc.trans promisc)]
  | false =>
    have samePasses :
        passesVlan first.filter.vlans packet = passesVlan second.filter.vlans packet := by
      have sameWord : first.filter.vlans (vidOf packet >>> 5) =
          second.filter.vlans (vidOf packet >>> 5) := agrees.vlans _ (vidOf_lt packet)
      rw [passesVlan, passesVlan, sameWord]
    cases passes : passesVlan second.filter.vlans packet with
    | false =>
      rw [receiveFilter_of_not_passes promisc passes,
        receiveFilter_of_not_passes (samePromisc.trans promisc) (samePasses.trans passes)]
    | true =>
      rw [receiveFilter_of_passes promisc passes,
        receiveFilter_of_passes (samePromisc.trans promisc) (samePasses.trans passes)]
      have sameFilter : first.filter =
          { second.filter with macs := first.filter.macs, vlans := first.filter.vlans } := by
        simp only [filter, agrees.promisc, agrees.allmulti, agrees.alluni, agrees.nomulti,
          agrees.nouni, agrees.nobcast, agrees.mac, agrees.inUse, agrees.firstMulti, multi, uni]
      have sameInUse : first.filter.inUse = second.filter.inUse := agrees.inUse
      have sameFirst : first.filter.firstMulti = second.filter.firstMulti := agrees.firstMulti
      rw [sameFirst, sameInUse, agrees.isListed packet (Nat.le_refl _),
        agrees.isListed packet sorted, sameFilter]

/-! ### Buffers that are read back -/

variable (d n : VirtIONet) (rest : List UInt8)

/-- Every entry of a table is in the part for its kind. -/
structure MacTable.Apart (table : MacTable) : Prop where
  unicast : ∀ i < table.firstMulti, table.macs (i * 6) &&& 1 = 0
  multicast : ∀ i, table.firstMulti ≤ i → i < table.inUse → table.macs (i * 6) &&& 1 ≠ 0

/-- A table that the loader finds the two parts of. -/
structure MacTable.Sorted (table : MacTable) : Prop where
  ordered : table.firstMulti ≤ table.inUse
  fits : table.inUse ≤ macTableEntries
  apart : table.Apart

/-- The length of the plain header, if there are headers. -/
def plainHdrLen (n : VirtIONet) : Nat := if n.hasVnetHdr then hdrSize else 0

/-- The length that a header of the guest leads to. -/
def hostHdrLenOf (n : VirtIONet) (guestHdrLen : Nat) : Nat :=
  if peerHasVnetHdrLen n guestHdrLen then guestHdrLen else plainHdrLen n

theorem guestHdrLenOf_cases (mergeable version1 : Bool) :
    guestHdrLenOf mergeable version1 = hdrSize ∨ guestHdrLenOf mergeable version1 = mrgHdrSize := by
  cases mergeable <;> cases version1 <;> decide

/-- A backend with headers has at least the plain one. -/
def Backend.HasPlainHdr (backend : Backend) : Prop :=
  backend.hasVnetHdr = true → ∀ queue, backend.hasVnetHdrLen queue hdrSize = true

section

variable {n : VirtIONet} (hasPlainHdr : n.backend.HasPlainHdr)
  (sameHdr : n.hasVnetHdr = n.backend.hasVnetHdr)
include hasPlainHdr sameHdr

/-- A peer with headers of any length also has the plain ones. -/
theorem peerHasVnetHdrLen_plain {len : Nat} (has : peerHasVnetHdrLen n len = true) :
    n.hasVnetHdr = true ∧ peerHasVnetHdrLen n hdrSize = true := by
  obtain ⟨i, member, answers⟩ := List.any_eq_true.mp has
  obtain ⟨hasHdr, -⟩ := Bool.and_eq_true_iff.mp answers
  refine ⟨hasHdr, List.any_eq_true.mpr ⟨i, member, ?_⟩⟩
  rw [hasHdr, Bool.true_and]
  exact hasPlainHdr (sameHdr.symm.trans hasHdr) i

/-- The length does not depend on what the guest has negotiated before. -/
theorem setMrgRxBufs_hostHdrLen {mergeable version1 : Bool}
    (before : n.hostHdrLen = hostHdrLenOf n (guestHdrLenOf mergeable version1))
    (mergeableRxBufs : BitVec 32) (newVersion1 : Bool) :
    (setMrgRxBufs n mergeableRxBufs newVersion1).hostHdrLen =
      hostHdrLenOf n (guestHdrLenOf (mergeableRxBufs != 0) newVersion1) := by
  rw [setMrgRxBufs, hostHdrLenOf]
  split
  · rfl
  · next hasNot =>
    rw [before, hostHdrLenOf]
    split
    · next has =>
      obtain ⟨hasHdr, hasPlain⟩ := peerHasVnetHdrLen_plain hasPlainHdr sameHdr has
      rcases guestHdrLenOf_cases mergeable version1 with isPlain | isLong
      · rw [isPlain, plainHdrLen, if_pos hasHdr]
      · rcases guestHdrLenOf_cases (mergeableRxBufs != 0) newVersion1 with newPlain | newLong
        · exact absurd (newPlain ▸ hasPlain) hasNot
        · exact absurd (newLong ▸ isLong ▸ has) hasNot
    · rfl

end

/-! ### Devices that commands lead to -/

/-- What holds of every device that commands lead to. -/
structure Restorable (start n : VirtIONet) : Prop where
  sameConf : n.conf = start.conf
  sameBackend : n.backend = start.backend
  sameMax : n.maxQueues = start.maxQueues
  hasPlainHdr : n.backend.HasPlainHdr
  sameHdr : n.hasVnetHdr = n.backend.hasVnetHdr
  few : n.maxQueues > 1 → n.currQueues ≤ n.maxQueues
  answers : n.hasUfo = true → n.hasVnetHdr = true ∧ n.backend.hasUfo = true
  hdrLen : n.hostHdrLen = hostHdrLenOf n
    (guestHdrLenOf (n.mergeableRxBufs != 0) (hasFeature n.guestFeatures fVersion1))
  sorted : n.modes.macTable.Sorted

variable {start n : VirtIONet}

theorem Restorable.offered (restorable : Restorable start n)
    (features : BitVec 64) : Restorable start (getFeatures n features).1 := by
  have isOffered : (getFeatures n features).1 = (peerHasUfo n).1 := rfl
  rw [isOffered, peerHasUfo]
  split
  · exact restorable
  · next hasHdr =>
    have hasHdr : n.hasVnetHdr = true := by simpa using hasHdr
    exact { restorable with answers := fun has => ⟨hasHdr, has⟩ }

theorem Restorable.negotiated {start n next : VirtIONet} (restorable : Restorable start n)
    {features : BitVec 64} (isNext : setFeatures n features = some next) :
    Restorable start next := by
  obtain ⟨m, isSet, rfl⟩ := Option.map_eq_some_iff.mp isNext
  obtain ⟨_, _, _, _, isRewired⟩ := changeNumQueues_rewires isSet
  rw [isRewired]
  exact { restorable with
    hdrLen := setMrgRxBufs_hostHdrLen restorable.hasPlainHdr restorable.sameHdr
      restorable.hdrLen _ _ }

/-- Only one command changes the table, and only if its payload has the right length. -/
theorem ctrlCommand_macTable (n : VirtIONet) (status : Ack) (elem : CtrlElem) :
    (ctrlCommand n status elem).1.modes.macTable = n.modes.macTable ∨
      ∃ iov, elem.outSg = ctrlMac :: ctrlMacTableSet :: iov ∧
        LengthFits n.conf.bigEndian iov ∧
        (ctrlCommand n status elem).1.modes.macTable = tableOf n.conf.bigEndian iov := by
  rcases ctrlCommand_cases n status elem with tunes | ⟨cmd, iov, isElem, isNext⟩ | changed
  · exact .inl tunes.2
  · rw [isNext]
    by_cases isTableSet : cmd = ctrlMacTableSet
    · subst isTableSet
      rw [handleMac_tableSet]
      split
      · next fits => exact .inr ⟨iov, isElem, fits, by rw [rxfilterNotify_modes]⟩
      · exact .inl rfl
    · refine .inl ?_
      rw [handleMac]
      split
      · split
        · rfl
        · rw [rxfilterNotify_modes]
      · rfl
  · obtain ⟨queues, -, isNext⟩ := changed
    obtain ⟨_, _, _, isSet⟩ := setStatus_follows { n with currQueues := queues } n.vdevStatus
    exact .inl (congrArg (fun m => m.modes.macTable) (isNext.trans isSet))

/-- A command that sets a table keeps the kinds of its addresses apart. -/
def CtrlElem.Apart (elem : CtrlElem) (bigEndian : Bool) : Prop :=
  ∀ iov, elem.outSg = ctrlMac :: ctrlMacTableSet :: iov → LengthFits bigEndian iov →
    (tableOf bigEndian iov).Apart

theorem Restorable.ctrlCommand (restorable : Restorable start n) (status : Ack) {elem : CtrlElem}
    (apart : elem.Apart start.conf.bigEndian) :
    Restorable start (ctrlCommand n status elem).1 := by
  have sorted : (NetDevice.ctrlCommand n status elem).1.modes.macTable.Sorted := by
    rcases ctrlCommand_macTable n status elem with same | ⟨iov, isElem, fits, isTable⟩
    · rw [same]
      exact restorable.sorted
    · rw [restorable.sameConf] at fits isTable
      obtain ⟨ordered, inRange⟩ := tableOf_bounds start.conf.bigEndian iov
      rw [isTable]
      exact ⟨ordered, inRange, apart iov isElem fits⟩
  rcases ctrlCommand_configures n status elem with
    ⟨_, _, _, _, _, _, isNext⟩ | ⟨queues, atMost, isNext⟩
  · rw [isNext] at sorted ⊢
    exact { restorable with sorted }
  · obtain ⟨_, _, _, isSet⟩ := setStatus_follows { n with currQueues := queues } n.vdevStatus
    rw [isNext, isSet] at sorted ⊢
    exact { restorable with few := fun _ => atMost, sorted }

/-- The devices that negotiations and commands lead to, if the commands keep the kinds apart. -/
inductive Reached (start : VirtIONet) : VirtIONet → Prop
  | created : Reached start start
  | offered {n : VirtIONet} (features : BitVec 64) (reached : Reached start n) :
      Reached start (getFeatures n features).1
  | negotiated {n next : VirtIONet} {features : BitVec 64} (reached : Reached start n)
      (isNext : setFeatures n features = some next) : Reached start next
  | commanded {n : VirtIONet} {elems : List CtrlElem} (reached : Reached start n)
      (apart : ∀ elem ∈ elems, elem.Apart start.conf.bigEndian) :
      Reached start (handleCtrl n elems).device

theorem Reached.restorable (fresh : Restorable start start)
    (reached : Reached start n) : Restorable start n := by
  induction reached with
  | created => exact fresh
  | offered features _ inductionHypothesis => exact inductionHypothesis.offered features
  | negotiated _ isNext inductionHypothesis => exact inductionHypothesis.negotiated isNext
  | commanded _ apart inductionHypothesis =>
    exact ctrlLoop_invariant (Restorable start)
      (fun elem member _ status restorable => restorable.ctrlCommand status (apart elem member))
      inductionHypothesis .err

end StudyNotes.NetDevice
