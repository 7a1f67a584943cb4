/-
This file proves what the loader leaves of the receive filter, and when a MAC
table that was too large for the device is made up for by the overflow flags.

Most of the loader has nothing to do with the receive filter. So the parts of it
behind the tables are summed up first.
-/

import StudyNotes.NetDevice.MacTable
import StudyNotes.NetDevice.Migration

namespace StudyNotes.NetDevice

open Library
open VirtioNet (receiveFilter slice)

/-! ### The end of the loader -/

/-- What the filter reads of a device, but for the place of the first multicast entry. -/
def SameFilter (n next : VirtIONet) : Prop := next.modes = n.modes ∧ next.hostHdrLen = n.hostHdrLen

theorem peerHasUfo_sameFilter (n : VirtIONet) : SameFilter n (peerHasUfo n).1 := by
  rw [peerHasUfo]
  split <;> exact ⟨rfl, rfl⟩

variable {version : Nat} {loading next : Loading}

theorem checkUfo_sameFilter (checked : checkUfo version loading = some next) :
    SameFilter loading.device next.device := by
  rw [checkUfo] at checked
  split at checked
  · split at checked
    · obtain ⟨-, isNext⟩ := Option.ite_none_left_eq_some.mp checked
      cases isNext
      exact peerHasUfo_sameFilter loading.device
    · cases checked
      exact ⟨rfl, rfl⟩
  · cases checked
    exact ⟨rfl, rfl⟩

theorem loadQueues_sameFilter (loaded : loadQueues loading = some next) :
    SameFilter loading.device next.device := by
  rw [loadQueues] at loaded
  split at loaded
  · obtain ⟨-, loaded⟩ := Option.ite_none_left_eq_some.mp loaded
    obtain ⟨-, isNext⟩ := Option.ite_none_left_eq_some.mp loaded
    cases isNext
    exact List.foldlRecOn (motive := fun next : Loading => SameFilter loading.device next.device)
      _ _ ⟨rfl, rfl⟩ fun _ same _ _ => same
  · cases loaded
    exact ⟨rfl, rfl⟩

/-- The table with its first multicast entry found again. -/
def resorted (table : MacTable) : MacTable := { table with firstMulti := firstMultiOf table }

theorem loadTail_modes {m : VirtIONet} (loaded : loadTail version loading = some m) :
    m.modes = { loading.device.modes with macTable := resorted loading.device.modes.macTable } ∧
      m.hostHdrLen = loading.device.hostHdrLen := by
  obtain ⟨checked, isChecked, loaded⟩ := Option.bind_eq_some_iff.mp loaded
  obtain ⟨filled, isFilled, rfl⟩ := Option.map_eq_some_iff.mp loaded
  obtain ⟨sameModes, sameLen⟩ := checkUfo_sameFilter isChecked
  obtain ⟨sameModesBehind, sameLenBehind⟩ := loadQueues_sameFilter isFilled
  have modes : filled.device.modes = loading.device.modes := sameModesBehind.trans sameModes
  refine ⟨?_, sameLenBehind.trans sameLen⟩
  rw [← modes]
  rfl

/-! ### A table that was too large -/

/-- Where the MAC table begins in a stream. -/
def tableOffset (version : Nat) : Nat :=
  14 + (if version ≥ 3 then 2 else 0) +
    (if version ≥ 4 then if version < 8 then 8 else 2 else 0)

/-- The number of entries in the table of the sender. -/
def savedInUse (version : Nat) (stream : List UInt8) : Nat :=
  nextNumber 4 (stream.drop (tableOffset version))

/-- Where the overflow flags are, in a version that has them. -/
def overflowOffset (version : Nat) (stream : List UInt8) : Nat :=
  tableOffset version + 4 + savedInUse version stream * 6 + maxVlan >>> 3 + 4

/-- `multi_overflow` in a stream. -/
def savedMultiOverflow (version : Nat) (stream : List UInt8) : UInt8 :=
  stream.getD (overflowOffset version stream) 0

/-- `uni_overflow` in a stream. -/
def savedUniOverflow (version : Nat) (stream : List UInt8) : UInt8 :=
  stream.getD (overflowOffset version stream + 1) 0

theorem loadFront_stream (version : Nat) (n : VirtIONet) (stream : List UInt8) :
    (loadFront version { device := n, stream := stream }).stream =
      stream.drop (tableOffset version) := by
  have start : (loadMrgRxBufs (loadTxWaiting 0 (loadMac
      { device := n, stream := stream }))).stream = stream.drop 14 := by
    change ((stream.drop 6).drop 4).drop 4 = stream.drop 14
    rw [List.drop_drop, List.drop_drop]
  rw [loadFront, loadModes, loadStatus, tableOffset]
  by_cases third : version ≥ 3
  · rw [if_pos third, if_pos third]
    split
    · split
      · simp only [start, List.drop_drop]
      · simp only [start, List.drop_drop]
    · simp only [start, List.drop_drop]
  · rw [if_neg third, if_neg third, if_neg (by omega), if_neg (by omega), start]

/-- The two flags of a table. -/
def flagsOf (table : MacTable) : UInt8 × UInt8 := (table.multiOverflow, table.uniOverflow)

/-- In a version that has them, the flags are right behind the flag for the headers. -/
theorem checkVnetHdr_loadVlans {checked : Loading}
    (isChecked : checkVnetHdr version (loadVlans version loading) = some checked) :
    flagsOf checked.device.modes.macTable = flagsOf loading.device.modes.macTable ∧
      (version ≥ 9 → checked.stream = loading.stream.drop (maxVlan >>> 3 + 4)) := by
  have vlans : flagsOf (loadVlans version loading).device.modes.macTable =
      flagsOf loading.device.modes.macTable := by
    rw [loadVlans]
    split <;> rfl
  rw [checkVnetHdr] at isChecked
  split at isChecked
  · next seventh =>
    obtain ⟨-, isNext⟩ := Option.ite_none_left_eq_some.mp isChecked
    cases isNext
    refine ⟨vlans, fun _ => ?_⟩
    rw [loadVlans, if_pos (by omega)]
    exact List.drop_drop ..
  · cases isChecked
    exact ⟨vlans, fun late => by omega⟩

/-- The flags that the loader sets for itself last only up to the flags in the stream. -/
theorem loadDevice_flags {n m : VirtIONet} {stream : List UInt8} (hasTable : version ≥ 5)
    (tooMany : macTableEntries < savedInUse version stream)
    (loaded : loadDevice version n stream = some m) :
    flagsOf m.modes.macTable =
      if version < 9 then (1, 1)
      else (savedMultiOverflow version stream, savedUniOverflow version stream) := by
  have atTable := loadFront_stream version n stream
  have isCount : nextNumber 4 (loadFront version { device := n, stream := stream }).stream =
      savedInUse version stream := by rw [atTable, savedInUse]
  rw [loadDevice, loadMacTable, if_pos hasTable] at loaded
  dsimp only at loaded
  rw [if_neg (by omega), List.drop_drop, isCount, atTable] at loaded
  obtain ⟨checked, isChecked, loaded⟩ := Option.bind_eq_some_iff.mp loaded
  obtain ⟨isModes, -⟩ := loadTail_modes loaded
  obtain ⟨flags, behind⟩ := checkVnetHdr_loadVlans isChecked
  have sameFlags : flagsOf m.modes.macTable =
      flagsOf (loadOverflows version checked).device.modes.macTable := by
    rw [isModes, loadKinds]
    split <;> rfl
  rw [sameFlags, loadOverflows]
  by_cases early : version < 9
  · rw [if_neg (by omega), if_pos early]
    exact flags
  · rw [if_pos (by omega), if_neg early]
    have atFlags : checked.stream = stream.drop (overflowOffset version stream) := by
      have isSum : tableOffset version + (4 + savedInUse version stream * 6 + (maxVlan >>> 3 + 4)) =
          overflowOffset version stream := by
        rw [overflowOffset]
        omega
      rw [behind (by omega), List.drop_drop, List.drop_drop, isSum]
    simp [flagsOf, setMacTable, nextByte, atFlags, savedMultiOverflow, savedUniOverflow,
      List.getD_eq_getElem?_getD]

/-- With both flags set, no table makes the device receive more. -/
theorem accepts_of_overflows {m : VirtIONet} (multi : m.modes.macTable.multiOverflow ≠ 0)
    (uni : m.modes.macTable.uniOverflow ≠ 0) {table : MacTable} {buf : Nat → UInt8}
    (accepted : accepts (setMacTable m table) buf = true) : accepts m buf = true := by
  have multiOn : m.modes.filter.multiOverflow = true := bne_iff_ne.mpr multi
  have uniOn : m.modes.filter.uniOverflow = true := bne_iff_ne.mpr uni
  have sameFrame : accepts (setMacTable m table) buf =
    receiveFilter (setMacTable m table).modes.filter (packetIn m buf) := rfl
  rw [sameFrame] at accepted
  rw [accepts]
  cases promisc : m.modes.filter.promisc with
  | true => exact receiveFilter_promisc _ promisc
  | false =>
    have other : (setMacTable m table).modes.filter.promisc = false := promisc
    cases passes : passesVlan m.modes.filter.vlans (packetIn m buf) with
    | false =>
      rw [receiveFilter_of_not_passes other passes] at accepted
      cases accepted
    | true =>
      rw [receiveFilter_of_passes other passes] at accepted
      rw [receiveFilter_of_passes promisc passes, multiOn, uniOn]
      split
      · next multicast =>
        rw [if_pos multicast] at accepted
        split
        · next isBroadcast =>
          rw [if_pos isBroadcast] at accepted
          exact accepted
        · next notBroadcast =>
          rw [if_neg notBroadcast] at accepted
          rw [Bool.or_true, Bool.true_or, Bool.and_true]
          exact (Bool.and_eq_true_iff.mp accepted).1
      · next unicast =>
        rw [if_neg unicast] at accepted
        rw [Bool.or_true, Bool.true_or, Bool.true_or, Bool.and_true]
        exact (Bool.and_eq_true_iff.mp accepted).1

/--
A table that was too large for the device is made up for by the overflow flags
exactly if the stream has none, or if both are set in it.
-/
theorem loadDevice_overflow_iff {version : Nat} {n m : VirtIONet} {stream : List UInt8}
    (hasTable : version ≥ 5) (tooMany : macTableEntries < savedInUse version stream)
    (loaded : loadDevice version n stream = some m) :
    (m.modes.macTable.multiOverflow ≠ 0 ∧ m.modes.macTable.uniOverflow ≠ 0 ∧
        ∀ table buf, accepts (setMacTable m table) buf = true → accepts m buf = true) ↔
      version < 9 ∨
        savedMultiOverflow version stream ≠ 0 ∧ savedUniOverflow version stream ≠ 0 := by
  have flags := loadDevice_flags hasTable tooMany loaded
  have covers : (m.modes.macTable.multiOverflow ≠ 0 ∧ m.modes.macTable.uniOverflow ≠ 0 ∧
      ∀ table buf, accepts (setMacTable m table) buf = true → accepts m buf = true) ↔
      m.modes.macTable.multiOverflow ≠ 0 ∧ m.modes.macTable.uniOverflow ≠ 0 :=
    ⟨fun ⟨multi, uni, _⟩ => ⟨multi, uni⟩, fun ⟨multi, uni⟩ =>
      ⟨multi, uni, fun _ _ => accepts_of_overflows multi uni⟩⟩
  rw [covers]
  split at flags
  · next early =>
    obtain ⟨multi, uni⟩ := Prod.mk.inj flags
    rw [multi, uni]
    exact ⟨fun _ => .inl early, fun _ => by decide⟩
  · next late =>
    obtain ⟨multi, uni⟩ := Prod.mk.inj flags
    rw [multi, uni]
    exact ⟨.inr, fun either => either.resolve_left late⟩

/-- A stream with one address in every entry of a table of 65 entries, and no flag set. -/
def crowdedStream : List UInt8 :=
  List.replicate 18 0 ++ toBigEndian 4 65 ++ (List.replicate 65 [2, 0, 0, 0, 0, 0]).flatten ++
    List.replicate (512 + 4 + 2 + 4 + 1) 0

/-- The table that the stream was made from. -/
def crowdedTable : MacTable where
  inUse := 65
  firstMulti := 65
  multiOverflow := 0
  uniOverflow := 0
  macs := fun i => if i % 6 = 0 then 2 else 0

/-- A frame to that address. -/
def crowdedFrame (i : Nat) : UInt8 := if i = 0 then 2 else 0

theorem loads_crowded : (loadDevice 8 booted crowdedStream).isSome = true := by decide +kernel

theorem tooMany_crowded : macTableEntries < savedInUse 8 crowdedStream ∧
    macTableEntries < savedInUse 11 crowdedStream := by
  decide +kernel

/-- An early stream has no flags that could get lost. -/
theorem loadDevice_overflow_crowded :
    ∃ m, loadDevice 8 booted crowdedStream = some m ∧ m.modes.macTable.multiOverflow ≠ 0 ∧
      m.modes.macTable.uniOverflow ≠ 0 ∧
      ∀ table buf, accepts (setMacTable m table) buf = true → accepts m buf = true := by
  obtain ⟨m, loaded⟩ := Option.isSome_iff_exists.mp loads_crowded
  refine ⟨m, loaded, ?_⟩
  exact (loadDevice_overflow_iff (by decide) tooMany_crowded.1 loaded).mpr (.inl (by decide))

/-- The flags of a later stream are those of the sender, whose table was large enough. -/
theorem loadDevice_crowded :
    macTableEntries < savedInUse 11 crowdedStream ∧
      ∃ m, loadDevice 11 booted crowdedStream = some m ∧ flagsOf m.modes.macTable = (0, 0) ∧
        accepts (setMacTable m crowdedTable) crowdedFrame = true ∧
        accepts m crowdedFrame = false := by
  refine ⟨tooMany_crowded.2, ?_⟩
  show ∃ m ∈ loadDevice 11 booted crowdedStream, _
  decide +kernel

end StudyNotes.NetDevice
