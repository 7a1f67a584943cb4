/-
This file compares what the device reports about its receive filter with what
the filter does. A reader of the report decides about an address by the reported
modes and tables. The report and the filter agree about every unicast and every
multicast address, but the report has the flag for broadcasts the wrong way round.
-/

import StudyNotes.NetDevice.Verdict

namespace StudyNotes.NetDevice

open Library
open VirtioNet (RxFilter receiveFilter slice)

variable {Text : Type} [DecidableEq Text]

/-- What a report says about the frames of one kind to an address. -/
def RxState.accepts (state : RxState) (overflow listed : Bool) : Bool :=
  match state with
  | .none => false
  | .all => true
  | .normal => overflow || listed

/-- What a report says about the frames without a VLAN tag to an address. -/
def RxFilterInfo.accepts (info : RxFilterInfo Text) (macText : List UInt8 → Text)
    (address : List UInt8) : Bool :=
  if info.promiscuous then true
  else if address = broadcast then info.broadcastAllowed
  else if address.headD 0 &&& 1 ≠ 0 then
    info.multicast.accepts info.multicastOverflow (macText address ∈ info.multicastTable)
  else
    info.unicast.accepts info.unicastOverflow
      (macText address = info.mainMac ∨ macText address ∈ info.unicastTable)

/-- Two addresses are printed as the same text only if they are the same. -/
def Distinguishes (macText : List UInt8 → Text) : Prop :=
  ∀ address other, address.length = 6 → other.length = 6 → macText address = macText other →
    address = other

theorem length_destinationOf (packet : Nat → UInt8) : (destinationOf packet).length = 6 := by
  simp [destinationOf, slice]

theorem length_entryOf (macs : Nat → UInt8) (i : Nat) : (entryOf macs i).length = 6 := by
  simp [entryOf, slice]

omit [DecidableEq Text] in
theorem mem_macTexts (macText : List UInt8 → Text) (macs : Nat → UInt8) (start stop : Nat)
    (text : Text) :
    text ∈ macTexts macText macs start stop ↔
      ∃ i ∈ List.range' start (stop - start), text = macText (entryOf macs i) := by
  have general : ∀ (indices : List Nat) (list : List Text),
      text ∈ indices.foldl (fun list i => macText (entryOf macs i) :: list) list ↔
        text ∈ list ∨ ∃ i ∈ indices, text = macText (entryOf macs i) := by
    intro indices
    induction indices with
    | nil => simp
    | cons i rest inductionHypothesis =>
      intro list
      rw [List.foldl_cons, inductionHypothesis]
      simp only [List.mem_cons, exists_eq_or_imp]
      exact or_assoc.trans or_left_comm
  rw [macTexts, general]
  simp

variable {macText : List UInt8 → Text}

/-- The reported table has the text of an address exactly if the table has the address. -/
theorem macText_mem_macTexts (distinguishes : Distinguishes macText) (modes : RxModes)
    (packet : Nat → UInt8) (start stop : Nat) :
    decide (macText (destinationOf packet) ∈ macTexts macText modes.macTable.macs start stop) =
      isListed modes.filter packet start stop := by
  rw [isListed, Bool.eq_iff_iff, decide_eq_true_iff, mem_macTexts, List.any_eq_true]
  constructor
  · rintro ⟨i, member, sameText⟩
    refine ⟨i, member, decide_eq_true ?_⟩
    exact (distinguishes _ _ (length_destinationOf packet) (length_entryOf _ i) sameText).symm
  · rintro ⟨i, member, isEntry⟩
    exact ⟨i, member, by rw [← of_decide_eq_true isEntry]; rfl⟩

theorem rxState_accepts (no all : UInt8) (overflow listed : Bool) :
    (rxState no all).accepts overflow listed =
      (!(no != 0) && (all != 0 || overflow || listed)) := by
  rw [rxState]
  by_cases isNo : no = 0
  · by_cases isAll : all = 0 <;> simp [RxState.accepts, isNo, isAll]
  · simp [RxState.accepts, isNo]

/-- For all addresses but the broadcast address the report says what the filter does. -/
theorem queryRxfilter_accepts (distinguishes : Distinguishes macText) {n : VirtIONet}
    {buf : Nat → UInt8} (untagged : isTagged (packetIn n buf) = false)
    (toOne : destinationOf (packetIn n buf) ≠ broadcast) :
    (queryRxfilter macText n).2.accepts macText (destinationOf (packetIn n buf)) =
      accepts n buf := by
  have passes : passesVlan n.modes.filter.vlans (packetIn n buf) = true := by
    simp [passesVlan, untagged]
  have sameText : decide (macText (destinationOf (packetIn n buf)) =
      macText (slice n.modes.mac 0 6)) =
      decide (destinationOf (packetIn n buf) = slice n.modes.mac 0 6) := by
    refine decide_eq_decide.mpr ⟨fun same => ?_, fun same => by rw [same]⟩
    exact distinguishes _ _ (length_destinationOf _) (by simp [slice]) same
  have first : (destinationOf (packetIn n buf)).headD 0 = packetIn n buf 0 := rfl
  rw [accepts, RxFilterInfo.accepts, first]
  by_cases off : n.modes.promisc = 0
  · rw [receiveFilter_of_passes (by simp [RxModes.filter, off]) passes, if_neg toOne]
    simp only [queryRxfilter, off, bne_self_eq_false, Bool.false_eq_true, if_false, toOne]
    by_cases multicast : packetIn n buf 0 &&& 1 ≠ 0
    · rw [if_pos multicast, if_pos (show isMulticast _ = true from decide_eq_true multicast),
        rxState_accepts, macText_mem_macTexts distinguishes]
      rfl
    · rw [if_neg multicast, if_neg (by simpa [isMulticast] using multicast), rxState_accepts,
        Bool.decide_or, sameText, macText_mem_macTexts distinguishes]
      simp only [Bool.or_assoc]
      rfl
  · rw [receiveFilter_promisc _ (by simp [RxModes.filter, off])]
    simp [queryRxfilter, off]

/--
The report agrees with the receive filter about an address exactly if the device
is in promiscuous mode or the address is not the broadcast address.
-/
theorem queryRxfilter_agrees_iff {macText : List UInt8 → Text}
    (distinguishes : Distinguishes macText) (n : VirtIONet) (buf : Nat → UInt8)
    (untagged : isTagged (packetIn n buf) = false) :
    (queryRxfilter macText n).2.accepts macText (destinationOf (packetIn n buf)) =
        accepts n buf ↔
      n.modes.promisc ≠ 0 ∨ destinationOf (packetIn n buf) ≠ broadcast := by
  by_cases off : n.modes.promisc = 0
  · by_cases toAll : destinationOf (packetIn n buf) = broadcast
    · rw [accepts, receiveFilter_of_passes (by simp [RxModes.filter, off])
        (by simp [passesVlan, untagged]), isMulticast_of_broadcast toAll, toAll]
      simp [RxFilterInfo.accepts, queryRxfilter, off, RxModes.filter]
    · exact iff_of_true (queryRxfilter_accepts distinguishes untagged toAll) (.inr toAll)
  · refine iff_of_true ?_ (.inl off)
    rw [accepts, receiveFilter_promisc _ (by simp [RxModes.filter, off])]
    simp [RxFilterInfo.accepts, queryRxfilter, off]

/-- The two hexadecimal digits of every byte, as `qemu_mac_strdup_printf` prints them. -/
def hexDigits (address : List UInt8) : List (Char × Char) :=
  address.map fun byte => (Nat.digitChar (byte.toNat / 16), Nat.digitChar (byte.toNat % 16))

theorem digitChar_injective : ∀ digit < 16, ∀ other < 16,
    Nat.digitChar digit = Nat.digitChar other → digit = other := by
  decide

theorem distinguishes_hexDigits : Distinguishes hexDigits := by
  intro address other _ _ same
  refine List.map_injective_iff.mpr (fun byte byte' samePair => ?_) same
  obtain ⟨sameHigh, sameLow⟩ := Prod.mk.inj samePair
  have narrow := byte.toNat_lt
  have narrow' := byte'.toNat_lt
  have high := digitChar_injective _ (by omega) _ (by omega) sameHigh
  have low := digitChar_injective _ (by omega) _ (by omega) sameLow
  exact UInt8.toNat_inj.mp (by omega)

/-- A frame to `52:00:00:00:00:00`. -/
def ownFrame (i : Nat) : UInt8 := if i = 0 then 0x52 else 0

theorem queryRxfilter_agrees_ownFrame :
    (queryRxfilter hexDigits quietDevice).2.accepts hexDigits
        (destinationOf (packetIn quietDevice ownFrame)) =
      accepts quietDevice ownFrame :=
  (queryRxfilter_agrees_iff distinguishes_hexDigits quietDevice ownFrame
    (by decide +kernel)).mpr (.inr (by decide +kernel))

/-- After a command that switches promiscuous mode off, the device takes broadcasts and
reports that it does not. -/
theorem queryRxfilter_broadcast :
    realize (smallConf 1) plainBackend = .ok booted ∧
      quietDevice = (handleCtrl booted [promiscOff]).device ∧
      accepts quietDevice (fun i => if i < 6 then 0xff else 0) = true ∧
      (queryRxfilter hexDigits quietDevice).2.accepts hexDigits broadcast = false :=
  ⟨realize_booted, rfl, by decide +kernel, by decide +kernel⟩

end StudyNotes.NetDevice
