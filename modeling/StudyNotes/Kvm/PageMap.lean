/-
This file proves what it means for the guest when slots are registered,
unregistered and taken apart.

Seen from the guest, the slots map addresses to host memory. Taking a slot apart
leaves all addresses outside of the section alone, and one slot less overlaps it.
A slot is used up only when it sticks out at both ends, and then no other slot
overlaps the section.
-/

import Mathlib.Data.Finset.Card
import StudyNotes.Kvm.PhysMem

namespace StudyNotes.Kvm

open Library Function

/-! ### What slots map -/

/-- The slot has memory at the address. -/
def KvmSlot.Covers (slot : KvmSlot) (address : Nat) : Prop :=
  slot.startAddr ≤ address ∧ address < slot.startAddr + slot.memorySize

/-- The host address of a guest address in a slot. -/
def KvmSlot.hostAddr (slot : KvmSlot) (address : Nat) : UInt64 :=
  slot.ram + UInt64.ofNat (address - slot.startAddr)

/-- Some slot maps the address to the host address. -/
def Holds (kml : MemoryListener) (address : Nat) (hostAddr : UInt64) : Prop :=
  ∃ index < kml.nrSlots, (kml.slots index).Covers address ∧
    hostAddr = (kml.slots index).hostAddr address

/-- The kernel maps the address to the host address. -/
def MapsTo (kml : MemoryListener) (address : Nat) (hostAddr : UInt64) : Prop :=
  ∃ index < kml.nrSlots, (kml.kernel index).guestPhysAddr ≤ address ∧
    address < (kml.kernel index).guestPhysAddr + (kml.kernel index).memorySize ∧
    hostAddr = (kml.kernel index).userspaceAddr +
      UInt64.ofNat (address - (kml.kernel index).guestPhysAddr)

/-- The slot is aligned to pages and ends before the addresses do. -/
structure Aligned (pageSize : Nat) (slot : KvmSlot) : Prop where
  startAddr : slot.startAddr % pageSize = 0
  memorySize : slot.memorySize % pageSize = 0
  below : slot.startAddr + slot.memorySize < 18446744073709551616

/-- The region of the kernel is the one of the slot. -/
structure Agrees (region : UserMemoryRegion) (slot : KvmSlot) : Prop where
  guestPhysAddr : region.guestPhysAddr = slot.startAddr
  memorySize : region.memorySize = slot.memorySize
  userspaceAddr : region.userspaceAddr = slot.ram

/-- The active slots are aligned and disjoint, and the kernel has the same ones. -/
structure WellFormed (pageSize : Nat) (kml : MemoryListener) : Prop where
  aligned : ∀ index < kml.nrSlots, (kml.slots index).memorySize ≠ 0 →
    Aligned pageSize (kml.slots index)
  disjoint : ∀ index < kml.nrSlots, ∀ other < kml.nrSlots, ∀ address,
    (kml.slots index).Covers address → (kml.slots other).Covers address → index = other
  agrees : ∀ index < kml.nrSlots, Agrees (kml.kernel index) (kml.slots index)

/-- Two slots with the same memory. -/
structure SameMemory (slot other : KvmSlot) : Prop where
  startAddr : slot.startAddr = other.startAddr
  memorySize : slot.memorySize = other.memorySize
  ram : slot.ram = other.ram

/-- The two listeners differ in flags at most. -/
structure FlagsOnly (kml next : MemoryListener) : Prop where
  nrSlots : next.nrSlots = kml.nrSlots
  memory : ∀ index, SameMemory (next.slots index) (kml.slots index)
  agrees : ∀ index, Agrees (kml.kernel index) (kml.slots index) →
    Agrees (next.kernel index) (next.slots index)

/-- What is known about the functions that are not in the sources. -/
structure Host.Sound (host : Host) : Prop where
  pageSize_pos : 0 < host.pageSize
  lookup_some : ∀ kml start finish index,
    host.lookupOverlappingSlot kml start finish = some index →
      index < kml.nrSlots ∧ (kml.slots index).memorySize ≠ 0 ∧
        (kml.slots index).startAddr < finish ∧
        start < (kml.slots index).startAddr + (kml.slots index).memorySize
  lookup_none : ∀ kml start finish,
    host.lookupOverlappingSlot kml start finish = none →
      ∀ index < kml.nrSlots, ∀ address, start ≤ address → address < finish →
        ¬ (kml.slots index).Covers address
  getFreeSlot : ∀ kml index, host.getFreeSlot kml = some index →
    index < kml.nrSlots ∧ (kml.slots index).memorySize = 0
  getFreeSlot_none : ∀ kml, host.getFreeSlot kml = none →
    ∀ index < kml.nrSlots, (kml.slots index).memorySize ≠ 0
  slotUpdateFlags : ∀ kml index flags, FlagsOnly kml (host.slotUpdateFlags kml index flags)

section Changes

variable {host : Host} {kml next : MemoryListener} {index : Nat} {address : Nat} {hostAddr : UInt64}
  {slot : KvmSlot}

theorem mapsTo_iff_holds (wellFormed : WellFormed host.pageSize kml) :
    MapsTo kml address hostAddr ↔ Holds kml address hostAddr := by
  refine exists_congr fun index => and_congr_right fun isSlot => ?_
  have agrees := wellFormed.agrees index isSlot
  rw [agrees.guestPhysAddr, agrees.memorySize, agrees.userspaceAddr, ← and_assoc]
  rfl

variable {slot other : KvmSlot}

section

variable (same : SameMemory slot other)
include same

theorem SameMemory.covers : slot.Covers address ↔ other.Covers address := by
  rw [KvmSlot.Covers, same.startAddr, same.memorySize, KvmSlot.Covers]

theorem SameMemory.hostAddr_eq : slot.hostAddr address = other.hostAddr address := by
  rw [KvmSlot.hostAddr, same.startAddr, same.ram, KvmSlot.hostAddr]

theorem SameMemory.aligned {pageSize : Nat}
    (aligned : Aligned pageSize other) : Aligned pageSize slot := by
  obtain ⟨startAddr, memorySize, below⟩ := aligned
  rw [← same.startAddr] at startAddr below
  rw [← same.memorySize] at memorySize below
  exact ⟨startAddr, memorySize, below⟩

end

/-- Only one slot is changed, together with its region. -/
structure Changed (kml next : MemoryListener) (index : Nat) (slot : KvmSlot) : Prop where
  nrSlots : next.nrSlots = kml.nrSlots
  isSlot : index < kml.nrSlots
  memory : SameMemory (next.slots index) slot
  agrees : Agrees (next.kernel index) (next.slots index)
  slots : ∀ other ≠ index, next.slots other = kml.slots other
  kernel : ∀ other ≠ index, next.kernel other = kml.kernel other

theorem setUserMemoryRegion_kernel_of_ne (kml : MemoryListener) (new : Bool) {other : Nat}
    (differs : other ≠ index) : (setUserMemoryRegion kml index new).kernel other =
      kml.kernel other := by
  simp only [setUserMemoryRegion]
  rw [update_of_ne differs]
  split
  · rw [update_of_ne differs]
  · rfl

theorem changed_setUserMemoryRegion (isSlot : index < kml.nrSlots) (slot : KvmSlot) (new : Bool) :
    Changed kml (setUserMemoryRegion
      { kml with slots := update kml.slots index slot } index new) index slot := by
  refine ⟨rfl, isSlot, ?_, ?_, fun other differs => ?_, fun other differs => ?_⟩
  · constructor <;> simp [setUserMemoryRegion]
  · constructor <;> simp [setUserMemoryRegion]
  · simp [setUserMemoryRegion, differs]
  · exact setUserMemoryRegion_kernel_of_ne _ new differs

/-- A slot that is not active has no memory. -/
theorem KvmSlot.not_covers (isEmpty : slot.memorySize = 0) (address : Nat) :
    ¬ slot.Covers address := by
  rw [KvmSlot.Covers, isEmpty]
  omega

section

variable (changed : Changed kml next index slot)
include changed

theorem Changed.wellFormed (wellFormed : WellFormed host.pageSize kml)
    (aligned : slot.memorySize ≠ 0 → Aligned host.pageSize slot)
    (apart : ∀ other < kml.nrSlots, other ≠ index → ∀ address, slot.Covers address →
      ¬ (kml.slots other).Covers address) : WellFormed host.pageSize next := by
  refine ⟨fun other isOther isActive => ?_,
    fun other isOther third isThird address covers covers' => ?_, fun other isOther => ?_⟩
  all_goals rw [changed.nrSlots] at isOther
  · by_cases same : other = index
    · subst same
      exact changed.memory.aligned (aligned (changed.memory.memorySize ▸ isActive))
    · rw [changed.slots other same] at isActive ⊢
      exact wellFormed.aligned other isOther isActive
  · rw [changed.nrSlots] at isThird
    by_cases same : other = index <;> by_cases same' : third = index
    · rw [same, same']
    · subst same
      rw [changed.slots third same'] at covers'
      exact absurd covers' (apart third isThird same' address (changed.memory.covers.mp covers))
    · subst same'
      rw [changed.slots other same] at covers
      exact absurd covers (apart other isOther same address (changed.memory.covers.mp covers'))
    · rw [changed.slots other same] at covers
      rw [changed.slots third same'] at covers'
      exact wellFormed.disjoint other isOther third isThird address covers covers'
  · by_cases same : other = index
    · subst same
      exact changed.agrees
    · rw [changed.slots other same, changed.kernel other same]
      exact wellFormed.agrees other isOther

/-- A free slot gets memory. -/
theorem Changed.holds_of_free (isFree : (kml.slots index).memorySize = 0) :
    Holds next address hostAddr ↔
      Holds kml address hostAddr ∨ slot.Covers address ∧ hostAddr = slot.hostAddr address := by
  constructor
  · rintro ⟨other, isOther, covers, isHost⟩
    rw [changed.nrSlots] at isOther
    by_cases same : other = index
    · subst same
      exact .inr ⟨changed.memory.covers.mp covers, isHost.trans changed.memory.hostAddr_eq⟩
    · rw [changed.slots other same] at covers isHost
      exact .inl ⟨other, isOther, covers, isHost⟩
  · rintro (⟨other, isOther, covers, isHost⟩ | ⟨covers, isHost⟩)
    · have differs : other ≠ index := by
        rintro rfl
        exact KvmSlot.not_covers isFree address covers
      rw [← changed.slots other differs] at covers isHost
      exact ⟨other, changed.nrSlots ▸ isOther, covers, isHost⟩
    · exact ⟨index, changed.nrSlots ▸ changed.isSlot, changed.memory.covers.mpr covers,
        isHost.trans changed.memory.hostAddr_eq.symm⟩

/-- A slot loses its memory. -/
theorem Changed.holds_of_empty
    (wellFormed : WellFormed host.pageSize kml) (isEmpty : slot.memorySize = 0) :
    Holds next address hostAddr ↔
      Holds kml address hostAddr ∧ ¬ (kml.slots index).Covers address := by
  constructor
  · rintro ⟨other, isOther, covers, isHost⟩
    rw [changed.nrSlots] at isOther
    have differs : other ≠ index := by
      rintro rfl
      exact KvmSlot.not_covers isEmpty address (changed.memory.covers.mp covers)
    rw [changed.slots other differs] at covers isHost
    exact ⟨⟨other, isOther, covers, isHost⟩, fun covers' =>
      differs (wellFormed.disjoint other isOther index changed.isSlot address covers covers')⟩
  · rintro ⟨⟨other, isOther, covers, isHost⟩, notCovered⟩
    have differs : other ≠ index := by
      rintro rfl
      exact notCovered covers
    rw [← changed.slots other differs] at covers isHost
    exact ⟨other, changed.nrSlots ▸ isOther, covers, isHost⟩

end

/-! ### Slots that overlap -/

/-- The slot has memory between two addresses. -/
def KvmSlot.Overlaps (slot : KvmSlot) (start finish : Nat) : Prop :=
  slot.memorySize ≠ 0 ∧ slot.startAddr < finish ∧ start < slot.startAddr + slot.memorySize

instance (slot : KvmSlot) (start finish : Nat) : Decidable (slot.Overlaps start finish) :=
  inferInstanceAs (Decidable (_ ∧ _))

theorem KvmSlot.Covers.overlaps (covers : slot.Covers address)
    {start finish : Nat} (isStart : start ≤ address) (isEnd : address < finish) :
    slot.Overlaps start finish := by
  obtain ⟨isLower, isUpper⟩ := covers
  exact ⟨by omega, by omega, by omega⟩

def overlapping (kml : MemoryListener) (start finish : Nat) : Finset Nat :=
  (Finset.range kml.nrSlots).filter fun index => (kml.slots index).Overlaps start finish

/-- A slot that is changed and does not overlap is none of those that do. -/
theorem Changed.overlapping_eq (changed : Changed kml next index slot)
    {start finish : Nat} (clear : ¬ slot.Overlaps start finish) :
    overlapping next start finish = (overlapping kml start finish).erase index := by
  ext other
  rw [overlapping, overlapping, Finset.mem_erase, Finset.mem_filter, Finset.mem_filter,
    changed.nrSlots]
  by_cases same : other = index
  · subst same
    have notOverlaps : ¬ (next.slots other).Overlaps start finish := by
      rw [KvmSlot.Overlaps, changed.memory.startAddr, changed.memory.memorySize]
      exact clear
    simp [notOverlaps]
  · rw [changed.slots other same]
    simp [same]

theorem FlagsOnly.holds_iff (flagsOnly : FlagsOnly kml next) :
    Holds next address hostAddr ↔ Holds kml address hostAddr := by
  rw [Holds, flagsOnly.nrSlots]
  refine exists_congr fun index => and_congr_right fun _ => ?_
  rw [(flagsOnly.memory index).covers, (flagsOnly.memory index).hostAddr_eq]

theorem FlagsOnly.wellFormed (flagsOnly : FlagsOnly kml next)
    (wellFormed : WellFormed host.pageSize kml) : WellFormed host.pageSize next := by
  refine ⟨fun index isSlot isActive => ?_,
    fun index isSlot other isOther address covers covers' => ?_, fun index isSlot => ?_⟩
  all_goals rw [flagsOnly.nrSlots] at isSlot
  · rw [(flagsOnly.memory index).memorySize] at isActive
    exact (flagsOnly.memory index).aligned (wellFormed.aligned index isSlot isActive)
  · rw [flagsOnly.nrSlots] at isOther
    rw [(flagsOnly.memory index).covers] at covers
    rw [(flagsOnly.memory other).covers] at covers'
    exact wellFormed.disjoint index isSlot other isOther address covers covers'
  · exact flagsOnly.agrees index (wellFormed.agrees index isSlot)

end Changes

/-! ### One turn -/

section Turn

variable {host : Host} {kml next : MemoryListener}
  {address start finish startAddr memorySize index : Nat} {hostAddr : UInt64} {flags : UInt32}
  {old : KvmSlot}

/-- What a function that makes or takes away memory does to the slots that overlap a section. -/
structure Keeps (host : Host) (kml next : MemoryListener) (start finish : Nat) : Prop where
  nrSlots : next.nrSlots = kml.nrSlots
  wellFormed : WellFormed host.pageSize next
  overlapping : overlapping next start finish ⊆ overlapping kml start finish

/-- The memory of a slot that is registered. -/
def memoryOf (startAddr memorySize : Nat) (ram : UInt64) : KvmSlot :=
  ⟨startAddr, memorySize, ram, 0, 0⟩

theorem wrap_of_lt (below : address < 18446744073709551616) : wrap address = address :=
  Nat.mod_eq_of_lt below

/-- A piece of an old slot, cut off outside of the section. -/
structure Piece (host : Host) (old : KvmSlot) (start finish lower upper : Nat) : Prop where
  lower_le : old.startAddr ≤ lower
  nonempty : lower < upper
  upper_le : upper ≤ old.startAddr + old.memorySize
  lower_aligned : lower % host.pageSize = 0
  upper_aligned : upper % host.pageSize = 0
  apart : upper ≤ start ∨ finish ≤ lower

section

variable (sound : host.Sound) (wellFormed : WellFormed host.pageSize kml)
include wellFormed

theorem Keeps.refl (start finish : Nat) : Keeps host kml kml start finish :=
  ⟨rfl, wellFormed, Finset.Subset.refl _⟩

/-- The addresses of a slot are those of no other slot. -/
theorem WellFormed.holds_iff_of_covers (isSlot : index < kml.nrSlots)
    (covers : (kml.slots index).Covers address) :
    Holds kml address hostAddr ↔ hostAddr = (kml.slots index).hostAddr address := by
  constructor
  · rintro ⟨other, isOther, covers', isHost⟩
    rw [wellFormed.disjoint other isOther index isSlot address covers' covers] at isHost
    exact isHost
  · intro isHost
    exact ⟨index, isSlot, covers, isHost⟩

theorem unregisterSlot_spec (isSlot : index < kml.nrSlots) (start finish : Nat) :
    (unregisterSlot kml index).nrSlots = kml.nrSlots ∧
    WellFormed host.pageSize (unregisterSlot kml index) ∧
    overlapping (unregisterSlot kml index) start finish =
      (overlapping kml start finish).erase index ∧
    ∀ address hostAddr, Holds (unregisterSlot kml index) address hostAddr ↔
      Holds kml address hostAddr ∧ ¬ (kml.slots index).Covers address := by
  have changed := changed_setUserMemoryRegion isSlot
    { kml.slots index with memorySize := 0, flags := 0 } false
  refine ⟨changed.nrSlots, ?_, changed.overlapping_eq ?_, fun address hostAddr =>
    changed.holds_of_empty wellFormed rfl⟩
  · refine changed.wellFormed wellFormed (fun isActive => absurd rfl isActive) ?_
    intro other _ _ address covers
    exact absurd covers (KvmSlot.not_covers rfl address)
  · rintro ⟨isActive, -⟩
    exact isActive rfl

include sound

theorem registerSlot_spec {ram : UInt64}
    (registered : registerSlot host kml startAddr memorySize ram flags = some next)
    (aligned : Aligned host.pageSize (memoryOf startAddr memorySize ram))
    (isFree : ∀ address, (memoryOf startAddr memorySize ram).Covers address →
      ∀ hostAddr, ¬ Holds kml address hostAddr)
    (start finish : Nat) (clear : ¬ (memoryOf startAddr memorySize ram).Overlaps start finish) :
    Keeps host kml next start finish ∧
      ∀ address hostAddr, Holds next address hostAddr ↔ Holds kml address hostAddr ∨
        (memoryOf startAddr memorySize ram).Covers address ∧
          hostAddr = (memoryOf startAddr memorySize ram).hostAddr address := by
  obtain ⟨index, isIndex, rfl⟩ := Option.map_eq_some_iff.mp registered
  obtain ⟨isSlot, isEmpty⟩ := sound.getFreeSlot kml index isIndex
  have changed := changed_setUserMemoryRegion isSlot { kml.slots index with
    startAddr := startAddr, memorySize := memorySize, ram := ram, flags := flags } true
  have apart : ∀ other < kml.nrSlots, other ≠ index → ∀ address,
      (memoryOf startAddr memorySize ram).Covers address → ¬ (kml.slots other).Covers address :=
    fun other isOther _ address covers covers' =>
      isFree address covers _ ⟨other, isOther, covers', rfl⟩
  refine ⟨⟨changed.nrSlots, ?_, ?_⟩, fun address hostAddr => changed.holds_of_free isEmpty⟩
  · exact changed.wellFormed wellFormed (fun _ => ⟨aligned.1, aligned.2, aligned.3⟩) apart
  · rw [changed.overlapping_eq clear]
    exact Finset.erase_subset _ _

/-- A piece keeps the host memory of the old slot. -/
theorem registerPiece_spec (aligned : Aligned host.pageSize old) {start finish lower upper : Nat}
    (piece : lower < upper → Piece host old start finish lower upper)
    (registered : (if lower < upper then registerSlot host kml lower (upper - lower)
      (old.ram + UInt64.ofNat (lower - old.startAddr)) flags else some kml) = some next)
    (isFree : ∀ address, old.Covers address → lower ≤ address → address < upper →
      ∀ hostAddr, ¬ Holds kml address hostAddr) :
    Keeps host kml next start finish ∧
      ∀ address hostAddr, Holds next address hostAddr ↔ Holds kml address hostAddr ∨
        old.Covers address ∧ (lower ≤ address ∧ address < upper) ∧
          hostAddr = old.hostAddr address := by
  by_cases nonempty : lower < upper
  case neg =>
    rw [if_neg nonempty] at registered
    cases registered
    refine ⟨.refl wellFormed start finish, fun address hostAddr => (or_iff_left ?_).symm⟩
    rintro ⟨-, inside, -⟩
    omega
  rw [if_pos nonempty] at registered
  obtain ⟨lower_le, -, upper_le, lowerAligned, upperAligned, apart⟩ := piece nonempty
  let memory := memoryOf lower (upper - lower) (old.ram + UInt64.ofNat (lower - old.startAddr))
  have covers_iff : ∀ address, memory.Covers address ↔ lower ≤ address ∧ address < upper := by
    intro address
    change lower ≤ address ∧ address < lower + (upper - lower) ↔ _
    omega
  have covered : ∀ address, lower ≤ address → address < upper → old.Covers address :=
    fun address isLower isUpper => ⟨by omega, by omega⟩
  have hostAddr_eq : ∀ address, lower ≤ address →
      memory.hostAddr address = old.hostAddr address := by
    intro address isLower
    have isSum : address - old.startAddr = (lower - old.startAddr) + (address - lower) := by omega
    rw [KvmSlot.hostAddr, KvmSlot.hostAddr, isSum, UInt64.ofNat_add, ← UInt64.add_assoc]
    rfl
  have sizeAligned : (upper - lower) % host.pageSize = 0 :=
    Nat.sub_mod_eq_zero_of_mod_eq (upperAligned.trans lowerAligned.symm)
  have memoryAligned : Aligned host.pageSize memory := by
    refine ⟨lowerAligned, sizeAligned, ?_⟩
    have below := aligned.below
    change lower + (upper - lower) < _
    omega
  have memoryFree : ∀ address, memory.Covers address →
      ∀ hostAddr, ¬ Holds kml address hostAddr := by
    intro address covers
    obtain ⟨isLower, isUpper⟩ := (covers_iff address).mp covers
    exact isFree address (covered address isLower isUpper) isLower isUpper
  have clear : ¬ memory.Overlaps start finish := by
    rintro ⟨-, before, behind⟩
    change lower < finish at before
    change start < lower + (upper - lower) at behind
    omega
  obtain ⟨keeps, holds_iff⟩ := registerSlot_spec sound wellFormed registered memoryAligned
    memoryFree start finish clear
  refine ⟨keeps, fun address hostAddr => (holds_iff address hostAddr).trans (or_congr_right ?_)⟩
  constructor
  · rintro ⟨covers, isHost⟩
    obtain ⟨isLower, isUpper⟩ := (covers_iff address).mp covers
    exact ⟨covered address isLower isUpper, ⟨isLower, isUpper⟩,
      isHost.trans (hostAddr_eq address isLower)⟩
  · rintro ⟨-, inside, isHost⟩
    exact ⟨(covers_iff address).mpr inside, isHost.trans (hostAddr_eq address inside.1).symm⟩

/-- A section and an old slot that overlaps it. -/
structure Cut (host : Host) (old : KvmSlot) (start finish : Nat) : Prop where
  start_aligned : start % host.pageSize = 0
  finish_aligned : finish % host.pageSize = 0
  aligned : Aligned host.pageSize old
  nonempty : start < finish
  start_lt : start < old.startAddr + old.memorySize
  lt_finish : old.startAddr < finish

theorem registerPrefixSlot_spec (cut : Cut host old start finish)
    (registered : registerPrefixSlot host kml start old flags = some next)
    (isFree : ∀ address, old.Covers address → ∀ hostAddr, ¬ Holds kml address hostAddr) :
    Keeps host kml next start finish ∧
      ∀ address hostAddr, Holds next address hostAddr ↔ Holds kml address hostAddr ∨
        old.Covers address ∧ address < start ∧ hostAddr = old.hostAddr address := by
  have isRam : old.ram = old.ram + UInt64.ofNat (old.startAddr - old.startAddr) := by
    rw [Nat.sub_self]
    exact (UInt64.add_zero _).symm
  rw [registerPrefixSlot, isRam] at registered
  have piece (before : old.startAddr < start) : Piece host old start finish old.startAddr start :=
    ⟨Nat.le_refl _, before, Nat.le_of_lt cut.start_lt, cut.aligned.startAddr,
      cut.start_aligned, .inl (Nat.le_refl start)⟩
  obtain ⟨keeps, holds_iff⟩ := registerPiece_spec sound wellFormed cut.aligned piece registered
    fun address covers _ _ => isFree address covers
  refine ⟨keeps, fun address hostAddr => (holds_iff address hostAddr).trans ?_⟩
  refine or_congr_right (and_congr_right fun covers => and_congr_left' ?_)
  exact and_iff_right covers.1

theorem registerSuffixSlot_spec (cut : Cut host old start finish)
    (registered : registerSuffixSlot host kml finish old flags = some next)
    (isFree : ∀ address, old.Covers address → finish ≤ address →
      ∀ hostAddr, ¬ Holds kml address hostAddr) :
    Keeps host kml next start finish ∧
      ∀ address hostAddr, Holds next address hostAddr ↔ Holds kml address hostAddr ∨
        old.Covers address ∧ finish ≤ address ∧ hostAddr = old.hostAddr address := by
  have isSize : old.memorySize - (finish - old.startAddr) =
      old.startAddr + old.memorySize - finish := by
    have := cut.lt_finish
    omega
  rw [registerSuffixSlot, wrap_of_lt cut.aligned.below] at registered
  dsimp only at registered
  rw [isSize] at registered
  have upperAligned : (old.startAddr + old.memorySize) % host.pageSize = 0 := by
    rw [Nat.add_mod, cut.aligned.startAddr, cut.aligned.memorySize, Nat.zero_mod]
  have piece (behind : finish < old.startAddr + old.memorySize) :
      Piece host old start finish finish (old.startAddr + old.memorySize) :=
    ⟨Nat.le_of_lt cut.lt_finish, behind, Nat.le_refl _, cut.finish_aligned, upperAligned,
      .inr (Nat.le_refl finish)⟩
  obtain ⟨keeps, holds_iff⟩ := registerPiece_spec sound wellFormed cut.aligned piece registered
    fun address covers later _ => isFree address covers later
  refine ⟨keeps, fun address hostAddr => (holds_iff address hostAddr).trans ?_⟩
  refine or_congr_right (and_congr_right fun covers => and_congr_left' ?_)
  exact and_iff_left covers.2

/-- Take a slot apart. -/
def cutSlot (host : Host) (kml : MemoryListener) (index start finish : Nat) (flags : UInt32) :
    Option MemoryListener :=
  (registerPrefixSlot host (unregisterSlot kml index) start (kml.slots index) flags).bind
    fun kml' => registerSuffixSlot host kml' finish (kml.slots index) flags

/-- A slot is taken apart: outside of the section nothing changes, and one slot less overlaps. -/
theorem cutSlot_spec (isSlot : index < kml.nrSlots) (cut : Cut host (kml.slots index) start finish)
    (isCut : cutSlot host kml index start finish flags = some next) :
    next.nrSlots = kml.nrSlots ∧ WellFormed host.pageSize next ∧
    overlapping next start finish ⊆ (overlapping kml start finish).erase index ∧
    ∀ address, ¬ (start ≤ address ∧ address < finish) →
      ∀ hostAddr, Holds next address hostAddr ↔ Holds kml address hostAddr := by
  obtain ⟨middle, withPrefix, withSuffix⟩ := Option.bind_eq_some_iff.mp isCut
  obtain ⟨nrSlots, wellFormed₁, overlapping₁, holds₁⟩ :=
    unregisterSlot_spec wellFormed isSlot start finish
  obtain ⟨keeps₂, holds₂⟩ := registerPrefixSlot_spec sound wellFormed₁ cut withPrefix
    fun address covers hostAddr holds => ((holds₁ address hostAddr).mp holds).2 covers
  have isFree : ∀ address, (kml.slots index).Covers address → finish ≤ address →
      ∀ hostAddr, ¬ Holds middle address hostAddr := by
    intro address covers behind hostAddr holds
    rcases (holds₂ address hostAddr).mp holds with old | ⟨-, before, -⟩
    · exact ((holds₁ address hostAddr).mp old).2 covers
    · have := cut.nonempty
      omega
  obtain ⟨keeps₃, holds₃⟩ :=
    registerSuffixSlot_spec sound keeps₂.wellFormed cut withSuffix isFree
  refine ⟨keeps₃.nrSlots.trans (keeps₂.nrSlots.trans nrSlots), keeps₃.wellFormed, ?_, ?_⟩
  · rw [← overlapping₁]
    exact keeps₃.overlapping.trans keeps₂.overlapping
  · intro address outside hostAddr
    rw [holds₃, holds₂, holds₁]
    by_cases covers : (kml.slots index).Covers address
    · rw [wellFormed.holds_iff_of_covers isSlot covers]
      simp only [covers, not_true_eq_false, and_false, true_and, false_or]
      have sides : address < start ∨ finish ≤ address := by omega
      rw [← or_and_right, and_iff_right sides]
    · simp [covers]

end

/-! ### Free slots -/

def freeSlots (kml : MemoryListener) : Finset Nat :=
  (Finset.range kml.nrSlots).filter fun index => (kml.slots index).memorySize = 0

theorem Changed.erase_freeSlots_subset {slot : KvmSlot}
    (changed : Changed kml next index slot) : (freeSlots kml).erase index ⊆ freeSlots next := by
  intro other isOther
  obtain ⟨differs, isFree⟩ := Finset.mem_erase.mp isOther
  rw [freeSlots, Finset.mem_filter, changed.nrSlots, changed.slots other differs]
  exact Finset.mem_filter.mp isFree

theorem registerSlot_of_free (sound : host.Sound) (isFree : 0 < (freeSlots kml).card)
    (startAddr memorySize : Nat) (ram : UInt64) (flags : UInt32) :
    ∃ next, registerSlot host kml startAddr memorySize ram flags = some next ∧
      (freeSlots kml).card ≤ (freeSlots next).card + 1 := by
  cases found : host.getFreeSlot kml with
  | none =>
    obtain ⟨index, isIndex⟩ := Finset.card_pos.mp isFree
    obtain ⟨isSlot, isEmpty⟩ := Finset.mem_filter.mp isIndex
    exact absurd isEmpty (sound.getFreeSlot_none kml found index (Finset.mem_range.mp isSlot))
  | some index =>
    refine ⟨_, Option.map_eq_some_iff.mpr ⟨index, found, rfl⟩, ?_⟩
    have changed := changed_setUserMemoryRegion (sound.getFreeSlot kml index found).1
      { kml.slots index with
        startAddr := startAddr, memorySize := memorySize, ram := ram, flags := flags } true
    have fewer := Finset.card_le_card changed.erase_freeSlots_subset
    exact Nat.sub_le_iff_le_add.mp (Finset.pred_card_le_card_erase.trans fewer)

/-- A slot that is registered only on a condition is used up only on that condition. -/
theorem registerSlot_if_of_free (sound : host.Sound) (isFree : 0 < (freeSlots kml).card)
    (condition : Prop) [Decidable condition] (startAddr memorySize : Nat) (ram : UInt64)
    (flags : UInt32) :
    ∃ next, (if condition then registerSlot host kml startAddr memorySize ram flags
        else some kml) = some next ∧
      (freeSlots kml).card ≤ (freeSlots next).card + if condition then 1 else 0 := by
  by_cases holds : condition
  · rw [if_pos holds, if_pos holds]
    exact registerSlot_of_free sound isFree startAddr memorySize ram flags
  · rw [if_neg holds, if_neg holds]
    exact ⟨kml, rfl, Nat.le_refl _⟩

theorem card_freeSlots_lt_unregisterSlot (isSlot : index < kml.nrSlots)
    (isActive : (kml.slots index).memorySize ≠ 0) :
    (freeSlots kml).card < (freeSlots (unregisterSlot kml index)).card := by
  have changed := changed_setUserMemoryRegion isSlot
    { kml.slots index with memorySize := 0, flags := 0 } false
  have notFree : index ∉ freeSlots kml := fun isFree => isActive (Finset.mem_filter.mp isFree).2
  have isFree : index ∈ freeSlots (unregisterSlot kml index) :=
    Finset.mem_filter.mpr ⟨Finset.mem_range.mpr isSlot, changed.memory.memorySize⟩
  have subset := changed.erase_freeSlots_subset
  rw [Finset.erase_eq_of_notMem notFree] at subset
  exact Finset.card_lt_card ⟨subset, fun isSubset => notFree (isSubset isFree)⟩

/-- There are free slots for what is left to do. -/
def Spare (kml : MemoryListener) (start finish : Nat) : Prop :=
  2 ≤ (freeSlots kml).card ∨ 1 ≤ (freeSlots kml).card ∧ overlapping kml start finish = ∅

/-- With two free slots a slot can be taken apart, and there are still enough of them. -/
theorem cutSlot_of_free (sound : host.Sound) (wellFormed : WellFormed host.pageSize kml)
    (isSlot : index < kml.nrSlots) (isActive : (kml.slots index).memorySize ≠ 0)
    (cut : Cut host (kml.slots index) start finish) (enough : 2 ≤ (freeSlots kml).card)
    (flags : UInt32) :
    ∃ next, cutSlot host kml index start finish flags = some next ∧ Spare next start finish := by
  have more := card_freeSlots_lt_unregisterSlot isSlot isActive
  have isFree : 0 < (freeSlots (unregisterSlot kml index)).card := by omega
  set old := kml.slots index
  obtain ⟨middle, withPrefix, left⟩ := registerSlot_if_of_free sound isFree
    (old.startAddr < start) old.startAddr (start - old.startAddr) old.ram flags
  have leftMiddle : 2 ≤ (freeSlots middle).card := by
    split at left <;> omega
  have isFree' : 0 < (freeSlots middle).card := by omega
  obtain ⟨next, withSuffix, left'⟩ := registerSlot_if_of_free sound isFree'
    (finish < wrap (old.startAddr + old.memorySize)) finish
    (old.memorySize - (finish - old.startAddr))
    (old.ram + UInt64.ofNat (finish - old.startAddr)) flags
  have isCut : cutSlot host kml index start finish flags = some next :=
    Option.bind_eq_some_iff.mpr ⟨middle, withPrefix, withSuffix⟩
  refine ⟨next, isCut, ?_⟩
  rw [wrap_of_lt cut.aligned.below] at left'
  obtain ⟨-, -, fewer, -⟩ := cutSlot_spec sound wellFormed isSlot cut isCut
  by_cases both : old.startAddr < start ∧ finish < old.startAddr + old.memorySize
  · refine .inr ⟨by split at left' <;> omega, ?_⟩
    -- A slot that has the whole section is the only one that overlaps it.
    have nonempty := cut.nonempty
    have only : overlapping kml start finish ⊆ {index} := by
      intro other isOther
      obtain ⟨isOther, isActive, other_lt, lt_other⟩ := Finset.mem_filter.mp isOther
      rw [Finset.mem_singleton]
      exact wellFormed.disjoint other (Finset.mem_range.mp isOther) index isSlot
        (max start (kml.slots other).startAddr) ⟨by omega, by omega⟩
        (show old.Covers _ from ⟨by omega, by omega⟩)
    exact Finset.subset_empty.mp (fewer.trans (Finset.subset_insert_iff.mp only))
  · refine .inl ?_
    split at left <;> split at left' <;> omega

end Turn

end StudyNotes.Kvm
