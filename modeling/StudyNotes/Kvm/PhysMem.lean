/-
This file models how sections of guest memory become memory slots of the kernel.

`kvm_set_phys_mem` makes room for a section: as long as a slot overlaps it, that
slot is unregistered, and what sticks out at its two ends is registered again as
slots of their own. Then the section itself is registered, unless it is removed.
The functions that look for slots are not part of the sources; what is assumed
about them is stated with them.
-/

import Mathlib.Logic.Function.Basic
import StudyNotes.Library.Loop

namespace StudyNotes.Kvm

open Library Function

/-! ### Slots -/

/-- `KVMSlot`. -/
structure KvmSlot where
  startAddr : Nat
  memorySize : Nat
  ram : UInt64
  flags : UInt32
  oldFlags : UInt32

/-- `struct kvm_userspace_memory_region`. -/
structure UserMemoryRegion where
  guestPhysAddr : Nat
  memorySize : Nat
  userspaceAddr : UInt64
  flags : UInt32

/-- `KVMMemoryListener`, with the regions that the kernel has for its slots. -/
structure MemoryListener where
  nrSlots : Nat
  slots : Nat → KvmSlot
  kernel : Nat → UserMemoryRegion

/-- Addresses have 64 bits. -/
def wrap (address : Nat) : Nat := address % 18446744073709551616

/-- `KVM_MEM_READONLY`. -/
def memReadonly : UInt32 := 2

/-- `kvm_set_user_memory_region`, when the kernel accepts what it is told. -/
def setUserMemoryRegion (kml : MemoryListener) (index : Nat) (new : Bool) : MemoryListener :=
  let slot := kml.slots index
  let mem : UserMemoryRegion := ⟨slot.startAddr, slot.memorySize, slot.ram, slot.flags⟩
  let kernel :=
    if slot.memorySize ≠ 0 ∧ new = false ∧ (slot.flags ^^^ slot.oldFlags) &&& memReadonly ≠ 0 then
      update kml.kernel index { mem with memorySize := 0 }
    else kml.kernel
  { kml with
    kernel := update kernel index mem
    slots := update kml.slots index { slot with oldFlags := slot.flags } }

/-! ### Sections -/

/-- The part of `MemoryRegion` that is used, with what `memory_region_get_ram_ptr` and
`kvm_mem_flags` say about it. -/
structure MemoryRegion where
  isRam : Bool
  readonly : Bool
  romDevice : Bool
  romdMode : Bool
  ramPtr : UInt64
  memFlags : UInt32

/-- `MemoryRegionSection`. -/
structure Section where
  mr : MemoryRegion
  offsetWithinAddressSpace : Nat
  offsetWithinRegion : UInt64
  size : Nat

/-- The host, the settings of the accelerator, and the functions that are not in the sources. -/
structure Host where
  pageSize : Nat
  readonlyMemAllowed : Bool
  brokenSetMemRegion : Bool
  /-- `kvm_lookup_overlapping_slot`. -/
  lookupOverlappingSlot : MemoryListener → Nat → Nat → Option Nat
  /-- `kvm_get_free_slot`. -/
  getFreeSlot : MemoryListener → Option Nat
  /-- `kvm_slot_update_flags`. -/
  slotUpdateFlags : MemoryListener → Nat → UInt32 → MemoryListener

variable (host : Host)

/-- What is left to do for a section, and what has been done. -/
structure Progress where
  kml : MemoryListener
  startAddr : Nat
  size : Nat
  ram : UInt64

inductive Outcome where
  /-- The section has been there, and its flags have been updated. -/
  | updated (kml : MemoryListener)
  /-- No slot overlaps the section any more. -/
  | cleared (progress : Progress)
  | outOfSlots

/-- Allocate a slot, fill it in and register it. -/
def registerSlot (kml : MemoryListener) (startAddr memorySize : Nat) (ram : UInt64)
    (flags : UInt32) : Option MemoryListener :=
  (host.getFreeSlot kml).map fun index =>
    let slot := { kml.slots index with
      startAddr := startAddr, memorySize := memorySize, ram := ram, flags := flags }
    setUserMemoryRegion { kml with slots := update kml.slots index slot } index true

def unregisterSlot (kml : MemoryListener) (index : Nat) : MemoryListener :=
  let slot := { kml.slots index with memorySize := 0, flags := 0 }
  setUserMemoryRegion { kml with slots := update kml.slots index slot } index false

/-- Register what an old slot has had in front of the section. -/
def registerPrefixSlot (kml : MemoryListener) (startAddr : Nat) (old : KvmSlot) (flags : UInt32) :
    Option MemoryListener :=
  if old.startAddr < startAddr then
    registerSlot host kml old.startAddr (startAddr - old.startAddr) old.ram flags
  else some kml

/-- Register what an old slot has had behind the section. -/
def registerSuffixSlot (kml : MemoryListener) (endAddr : Nat) (old : KvmSlot) (flags : UInt32) :
    Option MemoryListener :=
  if endAddr < wrap (old.startAddr + old.memorySize) then
    let sizeDelta := endAddr - old.startAddr
    registerSlot host kml endAddr (old.memorySize - sizeDelta) (old.ram + UInt64.ofNat sizeDelta)
      flags
  else some kml

/-- One turn of the loop of `kvm_set_phys_mem`. The dirty log of an old slot is read there, too,
which changes no slot. -/
def clearTurn (flags : UInt32) (add : Bool) (progress : Progress) : Turn Progress Outcome :=
  let startAddr := progress.startAddr
  let endAddr := wrap (startAddr + progress.size)
  match host.lookupOverlappingSlot progress.kml startAddr endAddr with
  | none => .done (.cleared progress)
  | some index =>
    let old := progress.kml.slots index
    if add ∧ old.startAddr ≤ startAddr ∧ endAddr ≤ wrap (old.startAddr + old.memorySize) ∧
        progress.ram - UInt64.ofNat startAddr = old.ram - UInt64.ofNat old.startAddr then
      .done (.updated (host.slotUpdateFlags progress.kml index flags))
    else
      let kml := unregisterSlot progress.kml index
      if host.brokenSetMemRegion ∧ old.startAddr = startAddr ∧ old.memorySize < progress.size ∧
          add then
        match registerSlot host kml old.startAddr old.memorySize old.ram flags with
        | none => .done .outOfSlots
        | some kml =>
          .again
            { kml := kml
              startAddr := wrap (startAddr + old.memorySize)
              size := progress.size - old.memorySize
              ram := progress.ram + UInt64.ofNat old.memorySize }
      else
        match (registerPrefixSlot host kml startAddr old flags).bind fun kml =>
            registerSuffixSlot host kml endAddr old flags with
        | none => .done .outOfSlots
        | some kml => .again { progress with kml := kml }

/-- The distance to the next page. -/
def toNextPage (startAddr : Nat) : Nat :=
  (host.pageSize - startAddr % host.pageSize) % host.pageSize

/-- What `kvm_set_phys_mem` does after its loop. There is no listener when the slots run out. -/
def finish (flags : UInt32) (add : Bool) : Outcome → Option MemoryListener
  | .updated kml => some kml
  | .cleared progress =>
    if progress.size = 0 ∨ add = false then some progress.kml
    else registerSlot host progress.kml progress.startAddr progress.size progress.ram flags
  | .outOfSlots => none

/-- `kvm_set_phys_mem`, with a bound on the turns of its loop. -/
def setPhysMem (fuel : Nat) (kml : MemoryListener) (sect : Section) (add : Bool) :
    Option (Option MemoryListener) :=
  let mr := sect.mr
  let writeable := !mr.readonly && !mr.romDevice
  let delta := toNextPage host sect.offsetWithinAddressSpace
  if sect.size < delta then some (some kml)
  else
    let startAddr := wrap (sect.offsetWithinAddressSpace + delta)
    let size := (sect.size - delta) - (sect.size - delta) % host.pageSize
    if size = 0 ∨ startAddr % host.pageSize ≠ 0 then some (some kml)
    else if mr.isRam = false ∧ (writeable ∨ host.readonlyMemAllowed = false) then some (some kml)
    else
      let add := if mr.isRam = false ∧ mr.romdMode = false then false else add
      let ram := mr.ramPtr + sect.offsetWithinRegion + UInt64.ofNat delta
      (loop (fun progress => some (clearTurn host mr.memFlags add progress)) fuel
        ⟨kml, startAddr, size, ram⟩).map (finish host mr.memFlags add)

end StudyNotes.Kvm
