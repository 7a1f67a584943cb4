/-
This file proves that a received frame reaches the guest as a whole or not at
all.

The addresses that the device has written, in the order of the elements, hold
the guest's header and the part of the packet up to the offset of the loop.
Each turn appends addresses to this list and bytes to the packet. The number of
buffers is written last, into the header.
-/

import StudyNotes.VirtioNet.Rx
import Mathlib.Tactic.Linarith

namespace StudyNotes.VirtioNet

open Library Function

/-! ### What a frame becomes -/

/-- The packet as the guest gets it: with its checksum if it is one of the special ones. -/
def deliveredPacket (checksum : Checksum) (config : RxConfig) (buf : Nat → UInt8) (size : Nat) :
    List UInt8 :=
  let packet := packetOf config buf
  let packetSize := size - config.hostHdrLen
  if config.hasVnetHdr = true ∧ isBrokenDhclient (buf 0) packet packetSize = true then
    (List.range packetSize).map (checksum packet packetSize)
  else (List.range packetSize).map packet

/-- The first bytes of the guest's header: those of the host's header, or zeros. -/
def deliveredHeader (checksum : Checksum) (config : RxConfig) (buf : Nat → UInt8) (size : Nat) :
    List UInt8 :=
  if config.hasVnetHdr then slice (prepareHeader checksum config buf size) 0 hdrSize
  else List.replicate hdrSize 0

variable (checksum : Checksum)

section

variable (config : RxConfig)
include config

section

variable (buf : Nat → UInt8)
include buf

theorem length_deliveredPacket (size : Nat) :
    (deliveredPacket checksum config buf size).length = size - config.hostHdrLen := by
  simp only [deliveredPacket]
  split <;> simp

theorem length_deliveredHeader
    (size : Nat) : (deliveredHeader checksum config buf size).length = hdrSize := by
  rw [deliveredHeader]
  split <;> simp [slice]

theorem tswap16s_of_ge {field i : Nat}
    (behind : field + 2 ≤ i) : tswap16s config buf field i = buf i := by
  rw [tswap16s]
  split
  · rw [update_of_ne (by omega), update_of_ne (by omega)]
  · rfl

/-- Swapping fields of the header leaves the packet alone. -/
theorem hdrSwap_of_ge {i : Nat} (behind : hdrSize ≤ i) : hdrSwap config buf i = buf i := by
  rw [hdrSize] at behind
  simp only [hdrSwap, List.foldl_cons, List.foldl_nil]
  rw [tswap16s_of_ge _ _ (by omega), tswap16s_of_ge _ _ (by omega),
    tswap16s_of_ge _ _ (by omega), tswap16s_of_ge _ _ (by omega)]

theorem prepareHeader_packet (size i : Nat) (vnet : config.hasVnetHdr = true) :
    prepareHeader checksum config buf size (config.hostHdrLen + i) =
      if isBrokenDhclient (buf 0) (packetOf config buf) (size - config.hostHdrLen) then
        checksum (packetOf config buf) (size - config.hostHdrLen) i
      else packetOf config buf i := by
  have behind : hdrSize ≤ config.hostHdrLen + i :=
    Nat.le_trans (config.hdrSize_le vnet) (Nat.le_add_right _ _)
  have notFlags : config.hostHdrLen + i ≠ 0 := by
    rw [hdrSize] at behind
    omega
  have unswapped : prepareHeader checksum config buf size (config.hostHdrLen + i) =
      workAroundBrokenDhclient checksum config buf size (config.hostHdrLen + i) := by
    rw [prepareHeader]
    split
    · exact hdrSwap_of_ge config _ behind
    · rfl
  rw [unswapped, workAroundBrokenDhclient]
  split
  · rw [update_of_ne notFlags, if_neg (by omega), Nat.add_sub_cancel_left]
  · rfl

end

/-- The host's buffer behind the header holds the packet that is delivered. -/
theorem receiveHeader_packet (memory : Nat → UInt8)
    (sg : List Nat) (buf : Nat → UInt8) (size : Nat) :
    slice (receiveHeader checksum config memory sg buf size).1 config.hostHdrLen size =
      deliveredPacket checksum config buf size := by
  rw [slice, List.range'_eq_map_range, List.map_map]
  simp only [deliveredPacket]
  by_cases vnet : config.hasVnetHdr = true
  · simp only [receiveHeader, vnet, if_true, true_and]
    split
    · rename_i broken
      exact List.map_congr_left fun i _ => by
        rw [Function.comp_apply, prepareHeader_packet _ _ _ _ _ vnet, if_pos broken]
    · rename_i plain
      exact List.map_congr_left fun i _ => by
        rw [Function.comp_apply, prepareHeader_packet _ _ _ _ _ vnet, if_neg plain]
  · rw [receiveHeader, if_neg vnet, if_neg fun both => vnet both.1]
    rfl

/-- The guest's memory holds the header that is delivered. -/
theorem receiveHeader_header (memory : Nat → UInt8) {sg : List Nat} (buf : Nat → UInt8) (size : Nat)
    (nodup : sg.Nodup) (room : hdrSize ≤ sg.length) :
    (sg.take hdrSize).map (receiveHeader checksum config memory sg buf size).2 =
      deliveredHeader checksum config buf size := by
  have stored : (receiveHeader checksum config memory sg buf size).2 =
      store memory sg (deliveredHeader checksum config buf size) := by
    rw [receiveHeader, deliveredHeader]
    split <;> rfl
  have isCount : min (deliveredHeader checksum config buf size).length sg.length = hdrSize := by
    rw [length_deliveredHeader]
    exact Nat.min_eq_left room
  rw [stored, map_take_store memory _ nodup isCount]
  exact List.take_of_length_le (Nat.le_of_eq (length_deliveredHeader checksum config buf size))

end

/-! ### What the loop has written -/

/-- The addresses that were written for a list of elements. -/
def written (filled : List (InSg × BitVec 32)) : List Nat :=
  filled.flatMap fun elem => (addresses elem.1).take elem.2.toNat

/-- The bytes the guest finds in the elements that it gets back. -/
def contents (memory : Nat → UInt8) (published : List (InSg × BitVec 32)) : List UInt8 :=
  (written published).map memory

/-- What holds between two turns of the loop, once there is an element with the header. -/
structure Delivering (config : RxConfig) (header packet : List UInt8) (size : Nat) (first : InSg)
    (state : Receiving) : Prop where
  nonempty : state.filled ≠ []
  buffer : slice state.buf config.hostHdrLen size = packet
  offset_ge : config.hostHdrLen ≤ state.offset
  offset_le : state.offset ≤ size
  mhdrSg : state.mhdrSg = if config.mergeableRxBufs then iovCopy (addresses first) 10 2 else []
  within : ∀ elem ∈ state.filled, elem.2.toNat ≤ (addresses elem.1).length
  distinct : (written state.filled).Nodup
  starts : ∃ others, written state.filled = (addresses first).take config.guestHdrLen ++ others ∧
    others.map state.memory = packet.take (state.offset - config.hostHdrLen)
  header : ((addresses first).take hdrSize).map state.memory = header

theorem slice_eq_drop (buf : Nat → UInt8) {start middle stop : Nat} (above : start ≤ middle)
    (below : middle ≤ stop) :
    slice buf middle stop = (slice buf start stop).drop (middle - start) := by
  rw [slice, slice, ← List.map_drop, List.drop_range']
  congr 2 <;> omega

/-- The lengths of the loop are far below the limits of their types. -/
theorem offset_add {offset count : Nat} (small : count < 2 ^ 31) (fits : offset + count < 2 ^ 64) :
    (BitVec.ofNat 64 offset + (BitVec.ofNat 32 count).signExtend 64).toNat = offset + count := by
  have positive : (BitVec.ofNat 32 count).msb = false := by
    rw [BitVec.msb_eq_decide]
    simp
    omega
  rw [BitVec.signExtend_eq_setWidth_of_msb_false positive, BitVec.toNat_add, BitVec.toNat_ofNat,
    BitVec.toNat_setWidth, BitVec.toNat_ofNat]
  omega

/-- The number of bytes that one turn copies. -/
def copied (size : Nat) (sg : InSg) (state : Receiving) (guestOffset : Nat) : Nat :=
  min (size - state.offset) ((addresses sg).length - guestOffset)

variable {sg : InSg} {filled : List (InSg × BitVec 32)}

/-- One turn writes a part of the packet behind the guest's offset. -/
theorem copyPacket_spec {size : Nat} (state : Receiving) (base guestOffset : Nat)
    (below : state.offset ≤ size) (fits : size + base < 2 ^ 31) (nodup : (addresses sg).Nodup) :
    let count := copied size sg state guestOffset
    let next := copyPacket size sg state (BitVec.ofNat 32 base) guestOffset
    next.buf = state.buf ∧ next.mhdrSg = state.mhdrSg ∧ next.offset = state.offset + count ∧
      (∃ len, next.filled = state.filled ++ [(sg, len)] ∧ len.toNat = base + count) ∧
      (((addresses sg).drop guestOffset).take count).map next.memory =
        (slice state.buf state.offset size).take count ∧
      ∀ others : List Nat, (∀ address ∈ others, address ∉ (addresses sg).drop guestOffset) →
        others.map next.memory = others.map state.memory := by
  have isCount : min (slice state.buf state.offset size).length
      ((addresses sg).drop guestOffset).length = copied size sg state guestOffset := by
    simp [slice, copied]
  have small : copied size sg state guestOffset ≤ size - state.offset := Nat.min_le_left _ _
  refine ⟨rfl, rfl, ?_, ⟨_, rfl, ?_⟩, ?_, fun others apart => ?_⟩
  · simp only [copyPacket, iovFromBuf, isCount]
    exact offset_add (by omega) (by omega)
  · simp only [isCount, BitVec.toNat_add, BitVec.toNat_ofNat]
    omega
  · exact map_take_store state.memory _ (nodup.sublist (List.drop_sublist _ _)) isCount
  · exact map_store_outside _ _ apart

theorem written_append (filled : List (InSg × BitVec 32)) (sg : InSg) (len : BitVec 32) :
    written (filled ++ [(sg, len)]) = written filled ++ (addresses sg).take len.toNat := by
  simp [written]

theorem fillElement_filled (config : RxConfig) (size : Nat) (state : Receiving) (sg : InSg) :
    ∃ len, (fillElement checksum config size state sg).filled = state.filled ++ [(sg, len)] := by
  by_cases fresh : state.filled = []
  · rw [fillElement, startElement, if_pos fresh]
    exact ⟨_, rfl⟩
  · rw [fillElement, startElement, if_neg fresh]
    exact ⟨_, rfl⟩

theorem mem_written_fillElement {checksum : Checksum} {config : RxConfig} {size address : Nat}
    {state : Receiving}
    (member : address ∈ written (fillElement checksum config size state sg).filled) :
    address ∈ written state.filled ∨ address ∈ addresses sg := by
  obtain ⟨len, isFilled⟩ := fillElement_filled checksum config size state sg
  rw [isFilled, written_append, List.mem_append] at member
  exact member.imp_right List.mem_of_mem_take

theorem within_append {len : BitVec 32}
    (within : ∀ elem ∈ filled, elem.2.toNat ≤ (addresses elem.1).length)
    (lenWithin : len.toNat ≤ (addresses sg).length) :
    ∀ elem ∈ filled ++ [(sg, len)], elem.2.toNat ≤ (addresses elem.1).length :=
  List.forall_mem_append.mpr ⟨within, List.forall_mem_singleton.mpr lenWithin⟩

section

variable {config : RxConfig} {header packet : List UInt8} {size : Nat} {first : InSg}
  {state : Receiving}

/-- A turn for an element that is not the first one. -/
theorem Delivering.fillElement (checksum : Checksum)
    (delivering : Delivering config header packet size first state) (fits : size < 2 ^ 31)
    (nodup : (addresses sg).Nodup)
    (apart : ∀ address, address ∈ written state.filled ∨ address ∈ addresses first →
      address ∉ addresses sg) :
    Delivering config header packet size first (fillElement checksum config size state sg) := by
  rw [VirtioNet.fillElement, startElement, if_neg delivering.nonempty]
  obtain ⟨sameBuf, sameMhdr, isOffset, ⟨len, isFilled, isLen⟩, copiedBytes, outside⟩ :=
    copyPacket_spec state 0 0 delivering.offset_le fits nodup
  obtain ⟨others, isWritten, isPacket⟩ := delivering.starts
  have above := delivering.offset_ge
  have below := delivering.offset_le
  have count_le : copied size sg state 0 ≤ size - state.offset := Nat.min_le_left _ _
  rw [Nat.zero_add] at isLen
  rw [List.drop_zero] at copiedBytes outside
  refine ⟨?_, delivering.buffer, ?_, ?_, sameMhdr.trans delivering.mhdrSg, ?_, ?_,
    ⟨others ++ (addresses sg).take (copied size sg state 0), ?_, ?_⟩, ?_⟩
  · rw [isFilled]
    exact List.append_ne_nil_of_right_ne_nil _ (List.cons_ne_nil _ _)
  · exact Nat.le_trans above (isOffset ▸ Nat.le_add_right _ _)
  · exact isOffset ▸ (by omega)
  · rw [isFilled]
    exact within_append delivering.within (isLen ▸ Nat.min_le_right _ _)
  · rw [isFilled, written_append]
    refine List.nodup_append.mpr ⟨delivering.distinct, nodup.sublist (List.take_sublist _ _), ?_⟩
    rintro address old _ new rfl
    exact apart address (.inl old) (List.mem_of_mem_take new)
  · rw [isFilled, written_append, isLen, isWritten, List.append_assoc]
  · have othersApart : ∀ address ∈ others, address ∉ addresses sg := fun address member =>
      apart address (.inl (isWritten ▸ List.mem_append_right _ member))
    rw [List.map_append, outside others othersApart, isPacket, copiedBytes,
      slice_eq_drop state.buf above below, delivering.buffer, ← List.take_add, isOffset,
      Nat.sub_add_comm above]
  · rw [outside _ fun address member => apart address (.inr (List.mem_of_mem_take member))]
    exact delivering.header

/-- The first turn, behind the header. -/
theorem delivering_first (fits : size + config.guestHdrLen < 2 ^ 31)
    (longer : config.hostHdrLen < size) (nodup : (addresses first).Nodup)
    (room : config.guestHdrLen ≤ (addresses first).length) (fresh : state.filled = [])
    (atPacket : state.offset = config.hostHdrLen)
    (buffer : slice state.buf config.hostHdrLen size = packet)
    (mhdrSg : state.mhdrSg = if config.mergeableRxBufs then iovCopy (addresses first) 10 2 else [])
    (isHeader : ((addresses first).take hdrSize).map state.memory = header) :
    Delivering config header packet size first
      (copyPacket size first state (BitVec.ofNat 32 config.guestHdrLen) config.guestHdrLen) := by
  have below : state.offset ≤ size := by omega
  obtain ⟨sameBuf, sameMhdr, isOffset, ⟨len, isFilled, isLen⟩, copiedBytes, outside⟩ :=
    copyPacket_spec state config.guestHdrLen config.guestHdrLen below fits nodup
  have count_le : copied size first state config.guestHdrLen ≤ size - state.offset :=
    Nat.min_le_left _ _
  have count_le' : copied size first state config.guestHdrLen ≤
      (addresses first).length - config.guestHdrLen := Nat.min_le_right _ _
  have isWritten : written (state.filled ++ [(first, len)]) = (addresses first).take len.toNat := by
    rw [fresh, written_append]
    rfl
  refine ⟨?_, buffer, ?_, ?_, sameMhdr.trans mhdrSg, ?_, ?_,
    ⟨((addresses first).drop config.guestHdrLen).take (copied size first state config.guestHdrLen),
      ?_, ?_⟩, ?_⟩
  · rw [isFilled]
    exact List.append_ne_nil_of_right_ne_nil _ (List.cons_ne_nil _ _)
  · rw [isOffset]
    omega
  · rw [isOffset]
    omega
  · rw [isFilled]
    exact within_append (by simp [fresh]) (by omega)
  · rw [isFilled, isWritten]
    exact nodup.sublist (List.take_sublist _ _)
  · rw [isFilled, isWritten, ← List.take_add, ← isLen]
  · rw [copiedBytes, isOffset, atPacket, buffer, Nat.add_sub_cancel_left]
  · rw [outside _ fun address member => ?_]
    · exact isHeader
    · exact fun behind => List.disjoint_take_drop nodup config.hdrSize_le_guestHdrLen member behind

/-- The loop gives up or ends with the whole packet written. -/
theorem Delivering.receiveLoop (checksum : Checksum) (fits : size < 2 ^ 31)
    (available : List InSg) (nodup : (available.flatMap addresses).Nodup)
    (apart : ∀ address, address ∈ written state.filled ∨ address ∈ addresses first →
      address ∉ available.flatMap addresses)
    (delivering : Delivering config header packet size first state) :
    (receiveLoop checksum config size available state).published = [] ∨
      ∃ last, receiveLoop checksum config size available state = finishReceive config size last ∧
        Delivering config header packet size first last ∧ last.offset = size ∧
        last.filled.length ≤ state.filled.length + available.length := by
  have finished (state : Receiving)
      (delivering : Delivering config header packet size first state)
      (atEnd : ¬state.offset < size) : state.offset = size :=
    Nat.le_antisymm delivering.offset_le (Nat.le_of_not_lt atEnd)
  induction available generalizing state with
  | nil =>
    rw [VirtioNet.receiveLoop]
    split
    · exact .inl rfl
    · rename_i atEnd
      exact .inr ⟨state, rfl, delivering, finished state delivering atEnd, Nat.le_refl _⟩
  | cons sg rest inductionHypothesis =>
    rw [VirtioNet.receiveLoop]
    split
    · split
      · exact .inl rfl
      rw [List.flatMap_cons] at nodup apart
      obtain ⟨nodupSg, nodupRest, sgApart⟩ := List.nodup_append.mp nodup
      have filled := delivering.fillElement checksum fits nodupSg
        fun address member inside => apart address member (List.mem_append_left _ inside)
      dsimp only
      split
      · exact .inl rfl
      have apartRest : ∀ address,
          address ∈ written (VirtioNet.fillElement checksum config size state sg).filled ∨
            address ∈ addresses first → address ∉ rest.flatMap addresses := by
        intro address member inside
        rcases or_right_comm.mp (member.imp_left mem_written_fillElement) with before | new
        · exact apart address before (List.mem_append_right _ inside)
        · exact sgApart address new address inside rfl
      rcases inductionHypothesis nodupRest apartRest filled with
        none | ⟨last, isLast, whole, atEnd, length⟩
      · exact .inl none
      · obtain ⟨len, isFilled⟩ := fillElement_filled checksum config size state sg
        rw [isFilled, List.length_append, List.length_singleton] at length
        refine .inr ⟨last, isLast, whole, atEnd, ?_⟩
        rw [List.length_cons]
        omega
    · rename_i atEnd
      exact .inr ⟨state, rfl, delivering, finished state delivering atEnd, Nat.le_add_right _ _⟩

/-- The number of buffers that the guest reads in its header. -/
def numBuffers (config : RxConfig) (header : List UInt8) : Nat :=
  let first := (header.getD 10 0).toNat
  let second := (header.getD 11 0).toNat
  if config.bigEndian then first * 256 + second else first + second * 256

theorem length_stw (config : RxConfig) (value : BitVec 16) : (stw config value).length = 2 := by
  rw [stw]
  split <;> rfl

theorem numBuffers_stw (config : RxConfig) {front : List UInt8} (isFront : front.length = 10)
    {value : Nat} (small : value < 2 ^ 16) :
    numBuffers config (front ++ stw config (BitVec.ofNat 16 value)) = value := by
  have low : (UInt8.ofNat value).toNat = value % 256 := by simp
  have high : (UInt8.ofNat (value / 256)).toNat = value / 256 := by
    simp
    omega
  have atFront : ∀ a b : UInt8,
      (front ++ [a, b]).getD 10 0 = a ∧ (front ++ [a, b]).getD 11 0 = b := by
    intro a b
    simp [List.getD_eq_getElem?_getD, isFront]
  rw [numBuffers, stw, BitVec.toNat_ofNat, Nat.mod_eq_of_lt small]
  split
  · rw [(atFront _ _).1, (atFront _ _).2, low, high]
    omega
  · rw [(atFront _ _).1, (atFront _ _).2, low, high]
    omega

/-- The guest finds its header, with the number of buffers, and the packet. -/
theorem Delivering.finish (delivering : Delivering config header packet size first state)
    (isPacket : packet.length = size - config.hostHdrLen)
    (room : config.guestHdrLen ≤ (addresses first).length) (atEnd : state.offset = size)
    (few : state.filled.length < 2 ^ 16) :
    let result := finishReceive config size state
    ∃ whole : List UInt8, whole.length = config.guestHdrLen ∧ whole.take hdrSize = header ∧
      contents result.memory result.published = whole ++ packet ∧
      (config.mergeableRxBufs = true → numBuffers config whole = result.published.length) := by
  obtain ⟨others, isWritten, othersHold⟩ := delivering.starts
  have distinct := delivering.distinct
  rw [atEnd, ← isPacket, List.take_length] at othersHold
  rw [isWritten] at distinct
  simp only [finishReceive, contents, isWritten, delivering.mhdrSg]
  by_cases mergeable : config.mergeableRxBufs = true
  · have isTwelve : config.guestHdrLen = 10 + 2 := by
      simp [RxConfig.guestHdrLen, guestHdrLenOf, mergeable, mrgHdrSize]
    rw [isTwelve] at room
    have two : (iovCopy (addresses first) 10 2).length = 2 := by
      simp [iovCopy]
      omega
    have notEmpty : iovCopy (addresses first) 10 2 ≠ [] := by
      rw [← List.length_pos_iff, two]
      exact Nat.two_pos
    -- The number of buffers lies behind the plain header and before the packet.
    have split : (addresses first).take (10 + 2) =
        (addresses first).take 10 ++ iovCopy (addresses first) 10 2 := List.take_add
    have ten : ((addresses first).take 10).length = 10 := by
      rw [List.length_take]
      omega
    rw [isTwelve, split, List.append_assoc] at distinct ⊢
    rw [if_pos mergeable, if_neg notEmpty]
    simp only [iovFromBuf, List.drop_zero]
    rw [map_store_middle state.memory distinct (two.trans (length_stw config _).symm), othersHold]
    refine ⟨((addresses first).take 10).map state.memory ++
      stw config (BitVec.ofNat 16 state.filled.length), ?_, ?_, (List.append_assoc _ _ _).symm, ?_⟩
    · rw [List.length_append, List.length_map, ten, length_stw]
    · rw [List.take_append_of_le_length (by rw [List.length_map, ten, hdrSize]), ← List.map_take,
        List.take_take]
      exact delivering.header
    · exact fun _ => numBuffers_stw config (by rw [List.length_map, ten]) few
  · rw [if_neg mergeable, if_pos rfl, List.map_append, othersHold]
    refine ⟨((addresses first).take config.guestHdrLen).map state.memory, ?_, ?_, rfl,
      fun isMergeable => absurd isMergeable mergeable⟩
    · rw [List.length_map, List.length_take, Nat.min_eq_left room]
    · rw [← List.map_take, List.take_take, Nat.min_eq_left config.hdrSize_le_guestHdrLen]
      exact delivering.header

end

theorem length_written (within : ∀ elem ∈ filled, elem.2.toNat ≤ (addresses elem.1).length) :
    (written filled).length = (filled.map fun elem => elem.2.toNat).sum := by
  rw [written, List.length_flatMap]
  congr 1
  exact List.map_congr_left fun elem member => by
    rw [List.length_take, Nat.min_eq_left (within elem member)]

/-! ### The whole call -/

/-- The variables at the start of the loop. -/
def startReceiving (memory buf : Nat → UInt8) : Receiving :=
  { buf := buf, memory := memory, offset := 0, mhdrSg := [], filled := [] }

/--
A frame is delivered as a whole or not at all: the elements that the guest gets
back hold, up to their reported lengths, the guest's header and the packet. The
header starts with the prepared header of the host and, if buffers are merged,
holds their number.
-/
theorem receive_delivers (checksum : Checksum) (config : RxConfig) (status : RxStatus)
    (filter : RxFilter) (queue : RxQueue) (memory buf : Nat → UInt8) (size : Nat)
    (longer : config.hostHdrLen < size) (fits : size + config.guestHdrLen < 2 ^ 31)
    (nodup : (queue.available.flatMap addresses).Nodup)
    (room : ∀ first, queue.available.head? = some first →
      config.guestHdrLen ≤ (addresses first).length) :
    let result := receive checksum config status filter queue memory buf size
    result.published = [] ∨
      ((∀ elem ∈ result.published, elem.2.toNat ≤ (addresses elem.1).length) ∧
        (result.published.map fun elem => elem.2.toNat).sum =
          config.guestHdrLen + size - config.hostHdrLen ∧
        ∃ header : List UInt8, header.length = config.guestHdrLen ∧
          header.take hdrSize = deliveredHeader checksum config buf size ∧
          contents result.memory result.published =
            header ++ deliveredPacket checksum config buf size ∧
          (config.mergeableRxBufs = true →
            numBuffers config header = result.published.length)) := by
  simp only [receive]
  split
  · exact .inl rfl
  split
  · exact .inl rfl
  split
  · exact .inl rfl
  have bounded := queue.bounded
  cases isAvailable : queue.available with
  | nil =>
    rw [receiveLoop]
    split
    · exact .inl rfl
    · exact .inl rfl
  | cons first rest =>
    rw [isAvailable] at nodup room bounded
    rw [List.flatMap_cons] at nodup
    obtain ⟨nodupFirst, nodupRest, apart⟩ := List.nodup_append.mp nodup
    have firstRoom := room first rfl
    have filled : Delivering config (deliveredHeader checksum config buf size)
        (deliveredPacket checksum config buf size) size first
        (fillElement checksum config size (startReceiving memory buf) first) := by
      rw [fillElement, startElement,
        if_pos (show (startReceiving memory buf).filled = [] from rfl)]
      refine delivering_first fits longer nodupFirst firstRoom rfl rfl ?_ rfl ?_
      · exact receiveHeader_packet checksum config memory (addresses first) buf size
      · exact receiveHeader_header checksum config memory buf size nodupFirst
          (Nat.le_trans config.hdrSize_le_guestHdrLen firstRoom)
    obtain ⟨len, isFilled⟩ :=
      fillElement_filled checksum config size (startReceiving memory buf) first
    rw [receiveLoop, if_pos (Nat.lt_of_le_of_lt (Nat.zero_le _) longer)]
    split
    · exact .inl rfl
    dsimp only
    split
    · exact .inl rfl
    have apartRest : ∀ address, address ∈ written
        (fillElement checksum config size (startReceiving memory buf) first).filled ∨
        address ∈ addresses first → address ∉ rest.flatMap addresses := by
      intro address member inside
      rcases member.imp_left mem_written_fillElement with (old | new) | new
      · cases old
      · exact apart address new address inside rfl
      · exact apart address new address inside rfl
    rcases filled.receiveLoop checksum (by omega) rest nodupRest apartRest with
      none | ⟨last, isLast, delivering, atEnd, length⟩
    · exact .inl none
    · rw [isFilled] at length
      have isPacket := length_deliveredPacket checksum config buf size
      have few : last.filled.length < 2 ^ 16 := by
        simp only [startReceiving, List.length_append, List.length_nil, List.length_cons,
          virtqueueMaxSize] at length bounded
        omega
      obtain ⟨header, isLength, isHeader, isContents, isNumber⟩ :=
        delivering.finish isPacket firstRoom atEnd few
      rw [← isLast] at isContents isNumber
      have isPublished : (receiveLoop checksum config size rest
          (fillElement checksum config size (startReceiving memory buf) first)).published =
          last.filled := by
        rw [isLast]
        rfl
      refine .inr ⟨isPublished ▸ delivering.within, ?_, header, isLength, isHeader, isContents,
        isNumber⟩
      have sum := congrArg List.length isContents
      rw [contents, List.length_map, length_written (isPublished ▸ delivering.within),
        List.length_append, isLength, isPacket] at sum
      exact sum.trans (Nat.add_sub_assoc (Nat.le_of_lt longer) _).symm

/-! ### Two frames -/

def readyStatus : RxStatus :=
  { vmRunning := true, queueIndex := 0, currQueues := 1, queueReady := true, driverOk := true }

def acceptAll : RxFilter where
  promisc := true
  allmulti := false
  alluni := false
  nomulti := false
  nouni := false
  nobcast := false
  vlans := fun _ => 0
  mac := []
  macs := fun _ => []
  inUse := 0
  firstMulti := 0
  multiOverflow := false
  uniOverflow := false

/-- A device with merged buffers behind a backend without headers. -/
def mergingConfig : RxConfig where
  mergeableRxBufs := true
  version1 := false
  hasVnetHdr := false
  needsVnetHdrSwap := false
  bigEndian := false
  hostHdrLen := 0
  hostHdrLen_le := by decide
  hdrSize_le := by decide

/-- Room for the header and two bytes in one element, and for eight bytes in another one. -/
def twoBuffers : RxQueue where
  available := [[{ base := 100, len := 14 }], [{ base := 200, len := 8 }]]
  bounded := by decide

theorem receive_delivers_twoBuffers :
    let result := receive (fun packet _ => packet) mergingConfig readyStatus acceptAll twoBuffers
      (fun _ => 0) (fun i => UInt8.ofNat i) 5
    result.published.map (fun elem => elem.2.toNat) = [14, 3] ∧
      ∃ header : List UInt8, header.length = 12 ∧
        contents result.memory result.published = header ++ [0, 1, 2, 3, 4] ∧
        numBuffers mergingConfig header = 2 := by
  intro result
  have lengths : result.published.map (fun elem => elem.2.toNat) = [14, 3] := by decide +kernel
  have count : result.published.length = 2 := by
    rw [← List.length_map (f := fun elem : InSg × BitVec 32 => elem.2.toNat), lengths]
    rfl
  refine ⟨lengths, ?_⟩
  rcases receive_delivers (fun packet _ => packet) mergingConfig readyStatus acceptAll twoBuffers
    (fun _ => 0) (fun i => UInt8.ofNat i) 5 (by decide) (by decide) (by decide)
    (by rintro _ ⟨⟩; decide) with none | ⟨-, -, header, isLength, -, isContents, isNumber⟩
  · rw [show result.published = [] from none] at count
    cases count
  · have packet : deliveredPacket (fun packet _ => packet) mergingConfig
        (fun i => UInt8.ofNat i) 5 = [0, 1, 2, 3, 4] := by decide +kernel
    exact ⟨header, isLength, packet ▸ isContents, (isNumber rfl).trans count⟩

/-- The one's complement checksum of a sum of 16-bit words. -/
def finishSum (sum : Nat) : Nat :=
  let once := sum % 65536 + sum / 65536
  65535 - (once % 65536 + once / 65536)

/-- The sum of the 16-bit words of a part of a packet. -/
def addWords (packet : Nat → UInt8) (start length : Nat) : Nat :=
  ((List.range length).map fun i =>
    if i % 2 = 0 then (packet (start + i)).toNat * 256 else (packet (start + i)).toNat).sum

/-- The checksum of UDP over IPv4 with a header of twenty bytes. -/
def udpChecksum : Checksum := fun packet size =>
  let length := size - 34
  let cleared := update (update packet 40 0) 41 0
  let sum := finishSum (addWords cleared 34 length + addWords packet 26 8 + 17 + length)
  update (update packet 40 (UInt8.ofNat (sum / 256))) 41 (UInt8.ofNat sum)

/-- A device without merged buffers behind a backend with headers. -/
def plainRxConfig : RxConfig where
  mergeableRxBufs := false
  version1 := false
  hasVnetHdr := true
  needsVnetHdrSwap := false
  bigEndian := false
  hostHdrLen := 10
  hostHdrLen_le := by decide
  hdrSize_le := by decide

/-- A reply of a DHCP server without a checksum, behind the header of the host. -/
def dhcpReply : List UInt8 :=
  [1, 0, 0, 0, 0, 0, 0, 0, 0, 0] ++
    [2, 0, 0, 0, 0, 1, 2, 0, 0, 0, 0, 2, 8, 0] ++
    [0x45, 0, 0, 28, 0, 0, 0, 0, 64, 17, 0, 0, 10, 0, 0, 1, 10, 0, 0, 2] ++
    [0, 67, 0, 68, 0, 8, 0, 0]

/-- The guest gets a packet that differs from the one in the frame: it has its checksum. -/
theorem dhcpReply_changed :
    let result := receive udpChecksum plainRxConfig readyStatus acceptAll
      { available := [[{ base := 0, len := 64 }]], bounded := by decide } (fun _ => 0)
      (dhcpReply.getD · 0) 52
    result.published.map (fun elem => elem.2.toNat) = [52] ∧
      (contents result.memory result.published).drop plainRxConfig.guestHdrLen ≠
        dhcpReply.drop plainRxConfig.hostHdrLen := by
  decide +kernel

end StudyNotes.VirtioNet
