/-
This file models what one turn of the loop of `virtio_net_flush_tx` hands to the
backend: a vector of buffers, built from the chain of the guest.

The vector is built up to twice. If the fields of the header have to be swapped,
the header is replaced by a swapped copy of it. If the host wants less of the
header than the guest has sent, the rest of it is cut out. Both steps copy into
arrays of a fixed size, and a copy that does not fit ends early. The first step
looks for that and drops the packet, the second one does not look.
-/

import Mathlib.Algebra.Order.BigOperators.Group.List
import StudyNotes.Library.Vectors
import StudyNotes.VirtioNet.Rx

namespace StudyNotes.VirtioNet

open Library

/-! ### The vector -/

/-- The largest `size_t`, which is what `-1` means as a number of bytes. -/
def sizeMax : Nat := 2 ^ 64 - 1

/-- The part of the device that `virtio_net_flush_tx` reads when it builds a packet. -/
structure SendConfig where
  mergeableRxBufs : Bool
  version1 : Bool
  hasVnetHdr : Bool
  needsVnetHdrSwap : Bool
  bigEndian : Bool
  hostHdrLen : Nat
  hostHdrLen_le : hostHdrLen ≤ guestHdrLenOf mergeableRxBufs version1

variable (config : SendConfig)

def SendConfig.guestHdrLen : Nat :=
  guestHdrLenOf config.mergeableRxBufs config.version1

/-- The header is swapped. -/
def SendConfig.swaps : Bool :=
  config.hasVnetHdr && config.needsVnetHdrSwap

/-- The `out_sg` of an element: the bytes of each of its buffers. -/
structure OutSg where
  buffers : List (List UInt8)
  bounded : buffers.length ≤ virtqueueMaxSize
  short : ∀ buffer ∈ buffers, buffer.length < 2 ^ 32

/-- `virtio_tswap16s` on a field of a header. -/
def tswapField (bigEndian : Bool) (mhdr : List UInt8) (field : Nat) : List UInt8 :=
  if bigEndian then
    (mhdr.set field (mhdr.getD (field + 1) 0)).set (field + 1) (mhdr.getD field 0)
  else mhdr

/-- `virtio_net_hdr_swap`, on the copy of the header in `mhdr`. -/
def swapMhdr (mhdr : List UInt8) : List UInt8 :=
  [2, 4, 6, 8].foldl (tswapField config.bigEndian) mhdr

/-- What becomes of an element before the backend sees it. -/
inductive Packet
  | exited
  | dropped
  | handed (sg : List (List UInt8))

/-- Copy just the parts of the header that the host is interested in. -/
def cutHeader (outSg : List (List UInt8)) : List (List UInt8) :=
  if config.hostHdrLen ≠ config.guestHdrLen then
    let sg := copyPieces virtqueueMaxSize outSg 0 config.hostHdrLen
    sg ++ copyPieces (virtqueueMaxSize - sg.length) outSg config.guestHdrLen sizeMax
  else outSg

/-- Replace the header by a swapped copy of it. -/
def swapHeader (mhdr : List UInt8) (outSg : List (List UInt8)) : Packet :=
  let copied := copyPieces virtqueueMaxSize outSg config.guestHdrLen sizeMax
  if copied.length = virtqueueMaxSize then .dropped
  else .handed (cutHeader config (swapMhdr config mhdr :: copied))

/-- One turn of the loop of `virtio_net_flush_tx`, up to the call of the backend. -/
def flushPacket (outSg : List (List UInt8)) : Packet :=
  let mhdr := outSg.flatten.take config.guestHdrLen
  if outSg.length < 1 then .exited
  else if config.hasVnetHdr ∧ mhdr.length < config.guestHdrLen then .exited
  else if config.swaps then swapHeader config mhdr outSg
  else .handed (cutHeader config outSg)

/-! ### Lengths -/

theorem hdrSize_le_guestHdrLen : hdrSize ≤ config.guestHdrLen := by
  simp only [SendConfig.guestHdrLen, guestHdrLenOf, hdrSize, mrgHdrSize]
  split <;> [omega; split <;> omega]

theorem guestHdrLen_le_mrgHdrSize : config.guestHdrLen ≤ mrgHdrSize := by
  simp only [SendConfig.guestHdrLen, guestHdrLenOf, hdrSize, mrgHdrSize]
  split <;> [omega; split <;> omega]

theorem SendConfig.host_le_guest : config.hostHdrLen ≤ config.guestHdrLen :=
  config.hostHdrLen_le

theorem length_tswapField (bigEndian : Bool) (mhdr : List UInt8) (field : Nat) :
    (tswapField bigEndian mhdr field).length = mhdr.length := by
  unfold tswapField
  split
  · rw [List.length_set, List.length_set]
  · rfl

theorem length_swapMhdr (mhdr : List UInt8) : (swapMhdr config mhdr).length = mhdr.length := by
  simp only [swapMhdr, List.foldl_cons, List.foldl_nil, length_tswapField]

/-- A number of bytes that is not limited is never reached. -/
theorem OutSg.length_flatten_le (chain : OutSg) : chain.buffers.flatten.length ≤ sizeMax := by
  have bytes := List.sum_le_card_nsmul (chain.buffers.map List.length) (2 ^ 32)
    (List.forall_mem_map.mpr fun buffer member => (chain.short buffer member).le)
  have bounded := Nat.mul_le_mul_right (2 ^ 32) chain.bounded
  rw [← List.length_flatten, List.length_map, Nat.nsmul_eq_mul] at bytes
  unfold sizeMax
  unfold virtqueueMaxSize at bounded
  omega

/-! ### Cutting the header -/

/-- The pieces of the vector that the second step builds, if its array were large enough. -/
def piecesNeeded (outSg : List (List UInt8)) : Nat :=
  (pieces outSg 0 config.hostHdrLen).length + (pieces outSg config.guestHdrLen sizeMax).length

variable (outSg : List (List UInt8))

theorem copyPieces_host :
    copyPieces virtqueueMaxSize outSg 0 config.hostHdrLen =
      pieces outSg 0 config.hostHdrLen := by
  rw [copyPieces_eq]
  refine List.take_of_length_le ?_
  -- No piece is empty, so there are no more of them than bytes in a header.
  have few : (pieces outSg 0 config.hostHdrLen).length ≤ config.hostHdrLen := by
    refine (length_le_flatten fun piece member => pieces_ne_nil member).trans ?_
    rw [flatten_pieces, List.length_take]
    exact Nat.min_le_left _ _
  have host := config.host_le_guest
  have guest := guestHdrLen_le_mrgHdrSize config
  unfold mrgHdrSize at guest
  unfold virtqueueMaxSize
  omega

theorem length_pieces_host : (pieces outSg 0 config.hostHdrLen).length ≤ virtqueueMaxSize := by
  rw [← copyPieces_host, copyPieces_eq]
  exact List.length_take_le _ _

/-- The second step keeps all bytes exactly if its array has room for them. -/
theorem flatten_cutHeader_iff {outSg : List (List UInt8)} (short : outSg.flatten.length ≤ sizeMax) :
    (cutHeader config outSg).flatten =
        outSg.flatten.take config.hostHdrLen ++ outSg.flatten.drop config.guestHdrLen ↔
      config.hostHdrLen = config.guestHdrLen ∨ piecesNeeded config outSg ≤ virtqueueMaxSize := by
  by_cases same : config.hostHdrLen = config.guestHdrLen
  · rw [cutHeader, if_neg (not_not_intro same), same, List.take_append_drop]
    exact iff_of_true rfl (.inl rfl)
  · have everything : (outSg.flatten.drop config.guestHdrLen).length ≤ sizeMax := by
      rw [List.length_drop]
      omega
    simp only [cutHeader, if_pos same, copyPieces_host]
    rw [copyPieces_eq, List.flatten_append, flatten_pieces, List.drop_zero,
      List.append_cancel_left_eq, ← List.take_of_length_le everything, ← flatten_pieces,
      flatten_take_eq_iff fun piece member => pieces_ne_nil member, piecesNeeded]
    have head := length_pieces_host config outSg
    omega

/-! ### Swapping the header -/

/-- The swapped vector has room for what the second step makes of it. -/
theorem piecesNeeded_swapped {config : SendConfig} {mhdr : List UInt8} {copied : List (List UInt8)}
    (whole : mhdr.length = config.guestHdrLen) (notEmpty : ∀ piece ∈ copied, piece ≠ [])
    (short : copied.flatten.length ≤ sizeMax) (room : copied.length < virtqueueMaxSize) :
    piecesNeeded config (mhdr :: copied) ≤ virtqueueMaxSize := by
  have host : (pieces (mhdr :: copied) 0 config.hostHdrLen).length ≤ 1 := by
    rw [pieces]
    split
    · exact Nat.zero_le 1
    have hasHeader : ¬mhdr.length ≤ 0 := by
      have least := hdrSize_le_guestHdrLen config
      unfold hdrSize at least
      omega
    -- The header of the host ends in the first buffer.
    have nothing : config.hostHdrLen - (mhdr.length - 0) = 0 := by
      have less := config.host_le_guest
      omega
    rw [if_neg hasHeader, nothing, List.length_cons]
    cases copied with
    | nil => exact Nat.le_refl 1
    | cons piece rest =>
      rw [pieces, if_pos rfl]
      exact Nat.le_refl 1
  have guest : pieces (mhdr :: copied) config.guestHdrLen sizeMax = copied := by
    rw [pieces, if_neg (by decide), if_pos whole.le, whole, Nat.sub_self,
      pieces_all notEmpty short]
  rw [piecesNeeded, guest]
  omega

/-! ### The packet -/

/-- What the backend should see: the header of the host and the rest of the chain. -/
def wanted (chain : List UInt8) : List UInt8 :=
  let mhdr := chain.take config.guestHdrLen
  (if config.swaps then swapMhdr config mhdr else mhdr).take config.hostHdrLen ++
    chain.drop config.guestHdrLen

/-- The packet is dropped as a whole or handed over as a whole. -/
def Packet.Whole (chain : List UInt8) : Packet → Prop
  | .exited => False
  | .dropped => True
  | .handed sg => sg.flatten = wanted config chain

theorem swapHeader_whole {config : SendConfig} (swaps : config.swaps = true) {chain : OutSg}
    (long : config.guestHdrLen ≤ chain.buffers.flatten.length) :
    (swapHeader config (chain.buffers.flatten.take config.guestHdrLen) chain.buffers).Whole
      config chain.buffers.flatten := by
  simp only [swapHeader, copyPieces_eq]
  split
  · trivial
  · next room =>
    rw [List.length_take] at room
    have fits : (pieces chain.buffers config.guestHdrLen sizeMax).length < virtqueueMaxSize := by
      omega
    have short := chain.length_flatten_le
    have rest : (pieces chain.buffers config.guestHdrLen sizeMax).flatten =
        chain.buffers.flatten.drop config.guestHdrLen := by
      rw [flatten_pieces]
      refine List.take_of_length_le ?_
      rw [List.length_drop]
      omega
    have whole : (swapMhdr config (chain.buffers.flatten.take config.guestHdrLen)).length =
        config.guestHdrLen := by
      rw [length_swapMhdr, List.length_take]
      exact Nat.min_eq_left long
    have host := config.host_le_guest.trans_eq whole.symm
    rw [List.take_of_length_le fits.le, Packet.Whole,
      (flatten_cutHeader_iff config _).mpr (.inr (piecesNeeded_swapped whole
        (fun piece member => pieces_ne_nil member) _ fits)), wanted, if_pos swaps,
      List.flatten_cons, rest, List.take_append_of_le_length host,
      List.drop_left' whole]
    · rw [List.flatten_cons, rest, List.length_append, whole, List.length_drop]
      omega
    · rw [rest, List.length_drop]
      omega

theorem flushPacket_eq {config : SendConfig} (chain : OutSg)
    (long : config.guestHdrLen ≤ chain.buffers.flatten.length) :
    flushPacket config chain.buffers =
      if config.swaps then
        swapHeader config (chain.buffers.flatten.take config.guestHdrLen) chain.buffers
      else .handed (cutHeader config chain.buffers) := by
  have hasBuffer : ¬chain.buffers.length < 1 := by
    intro noBuffer
    have least := hdrSize_le_guestHdrLen config
    rw [List.length_eq_zero_iff.mp (by omega : chain.buffers.length = 0)] at long
    exact absurd (least.trans long) (by decide)
  unfold flushPacket
  rw [if_neg hasBuffer, if_neg]
  rintro ⟨-, cut⟩
  rw [List.length_take] at cut
  omega

/--
The backend gets the header it wants and all bytes behind the header of the
guest, unless the packet is dropped, exactly if the header is swapped, the
backend wants the whole header, or the vector without the rest of the header has
at most `VIRTQUEUE_MAX_SIZE` pieces.
-/
theorem flushPacket_whole_iff (config : SendConfig) (chain : OutSg)
    (long : config.guestHdrLen ≤ chain.buffers.flatten.length) :
    (flushPacket config chain.buffers).Whole config chain.buffers.flatten ↔
      config.swaps = true ∨ config.hostHdrLen = config.guestHdrLen ∨
        piecesNeeded config chain.buffers ≤ virtqueueMaxSize := by
  rw [flushPacket_eq chain long]
  by_cases swaps : config.swaps = true
  · rw [if_pos swaps]
    exact iff_of_true (swapHeader_whole swaps long) (.inl swaps)
  · have plain : wanted config chain.buffers.flatten =
        chain.buffers.flatten.take config.hostHdrLen ++
          chain.buffers.flatten.drop config.guestHdrLen := by
      rw [wanted, if_neg swaps, List.take_take, Nat.min_eq_left config.host_le_guest]
    rw [if_neg swaps, Packet.Whole, plain, flatten_cutHeader_iff config chain.length_flatten_le]
    simp [swaps]

/-- A host with plain headers, and a guest with the larger ones. -/
def plainHost : SendConfig where
  mergeableRxBufs := true
  version1 := false
  hasVnetHdr := true
  needsVnetHdrSwap := false
  bigEndian := false
  hostHdrLen := 10
  hostHdrLen_le := by decide

/-- A first buffer with the header and one more byte, and `count` buffers with a byte each. -/
def byteBuffers (count : Nat) : List (List UInt8) :=
  List.replicate 13 0 :: List.replicate count [0]

theorem length_byteBuffers {count : Nat} (few : count < virtqueueMaxSize) :
    (byteBuffers count).length ≤ virtqueueMaxSize := by
  rw [byteBuffers, List.length_cons, List.length_replicate]
  exact few

theorem byteBuffers_short (count : Nat) : ∀ buffer ∈ byteBuffers count, buffer.length < 2 ^ 32 := by
  refine List.forall_mem_cons.mpr ⟨by decide, fun buffer later => ?_⟩
  rw [List.eq_of_mem_replicate later]
  decide

/-- The longest chain. -/
def longest : OutSg :=
  ⟨byteBuffers 1023, length_byteBuffers (Nat.le_refl 1024), byteBuffers_short 1023⟩

/-- A chain with one buffer less. -/
def nearlyLongest : OutSg :=
  ⟨byteBuffers 1022, length_byteBuffers (Nat.le_succ 1023), byteBuffers_short 1022⟩

/-- One buffer fewer than the longest chain, and the packet is handed over as a whole. -/
theorem flushPacket_whole_nearlyLongest :
    plainHost.guestHdrLen ≤ nearlyLongest.buffers.flatten.length ∧
      (flushPacket plainHost nearlyLongest.buffers).Whole plainHost
        nearlyLongest.buffers.flatten := by
  have long : plainHost.guestHdrLen ≤ nearlyLongest.buffers.flatten.length := by
    decide +kernel
  have fits : piecesNeeded plainHost nearlyLongest.buffers ≤ virtqueueMaxSize := by
    decide +kernel
  refine ⟨long, ?_⟩
  rw [flushPacket_whole_iff plainHost nearlyLongest long]
  exact .inr (.inr fits)

/-- The longest chain loses its last byte on the way to the backend. -/
theorem flushPacket_longest :
    flushPacket plainHost longest.buffers = .handed (cutHeader plainHost longest.buffers) ∧
      (wanted plainHost longest.buffers.flatten).length = 1034 ∧
      (cutHeader plainHost longest.buffers).flatten.length = 1033 := by
  have long : plainHost.guestHdrLen ≤ longest.buffers.flatten.length := by
    decide +kernel
  refine ⟨?_, by decide +kernel, by decide +kernel⟩
  rw [flushPacket_eq longest long, if_neg (by decide)]

end StudyNotes.VirtioNet
