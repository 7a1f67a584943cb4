/-
This file proves what `kvm_set_phys_mem` does to the memory of the guest.

A call gives the whole pages of its section their new meaning and leaves all
other addresses alone, however many slots it has to take apart for that. Two free
slots are enough for it.
-/

import StudyNotes.Kvm.PageMap
import StudyNotes.Library.Machine

namespace StudyNotes.Kvm

open Library

variable {add : Bool}

section Loop

variable {host : Host} {kml next : MemoryListener} {address : Nat} {hostAddr : UInt64}
  {flags : UInt32} {outcome : Outcome} {goal : Progress}

/-! ### The loop -/

/-- What has been done so far for a section. -/
structure Clearing (host : Host) (kml : MemoryListener) (goal progress : Progress) : Prop where
  startAddr : progress.startAddr = goal.startAddr
  size : progress.size = goal.size
  ram : progress.ram = goal.ram
  nrSlots : progress.kml.nrSlots = kml.nrSlots
  wellFormed : WellFormed host.pageSize progress.kml
  spare : 2 ≤ (freeSlots kml).card →
    Spare progress.kml goal.startAddr (goal.startAddr + goal.size)
  outside : ∀ address, ¬ (goal.startAddr ≤ address ∧ address < goal.startAddr + goal.size) →
    ∀ hostAddr, Holds progress.kml address hostAddr ↔ Holds kml address hostAddr

/-- A section is added or removed. -/
structure Performed (host : Host) (kml : MemoryListener) (goal : Progress) (add : Bool)
    (next : MemoryListener) : Prop where
  nrSlots : next.nrSlots = kml.nrSlots
  wellFormed : WellFormed host.pageSize next
  inside : ∀ address, goal.startAddr ≤ address → address < goal.startAddr + goal.size →
    ∀ hostAddr, Holds next address hostAddr ↔
      add = true ∧ hostAddr = goal.ram + UInt64.ofNat (address - goal.startAddr)
  outside : ∀ address, ¬ (goal.startAddr ≤ address ∧ address < goal.startAddr + goal.size) →
    ∀ hostAddr, Holds next address hostAddr ↔ Holds kml address hostAddr

/-- What the loop ends with. -/
def Ends (host : Host) (kml : MemoryListener) (goal : Progress) (add : Bool) : Outcome → Prop
  | .updated next => Performed host kml goal add next
  | .cleared progress => Clearing host kml goal progress ∧
    ∀ address, goal.startAddr ≤ address → address < goal.startAddr + goal.size →
      ∀ hostAddr, ¬ Holds progress.kml address hostAddr
  | .outOfSlots => (freeSlots kml).card < 2

/-- The pages of a section. -/
structure Pages (host : Host) (goal : Progress) : Prop where
  startAddr : goal.startAddr % host.pageSize = 0
  size : goal.size % host.pageSize = 0
  size_pos : 0 < goal.size
  below : goal.startAddr + goal.size < 18446744073709551616

variable {goal progress : Progress} {index : Nat}

/-- With two free slots at first there are two as long as a slot overlaps the section. -/
theorem Clearing.two_le_card_freeSlots (clearing : Clearing host kml goal progress)
    (isOverlapping : index ∈
      overlapping progress.kml goal.startAddr (goal.startAddr + goal.size))
    (enough : 2 ≤ (freeSlots kml).card) : 2 ≤ (freeSlots progress.kml).card := by
  refine (clearing.spare enough).resolve_right fun noneLeft => ?_
  rw [noneLeft.2] at isOverlapping
  exact Finset.notMem_empty index isOverlapping

/-- The workaround for older kernels applies to the slot. -/
def WorksAround (host : Host) (add : Bool) (progress : Progress) (old : KvmSlot) : Prop :=
  host.brokenSetMemRegion = true ∧ old.startAddr = progress.startAddr ∧
    old.memorySize < progress.size ∧ add = true

/-- The slots that overlap what is left of a section. -/
def Progress.overlapping (progress : Progress) : Finset Nat :=
  Kvm.overlapping progress.kml progress.startAddr (progress.startAddr + progress.size)

/-- The slot has what is left of the section, with the same memory. -/
structure Fits (progress : Progress) (slot : KvmSlot) : Prop where
  start_le : slot.startAddr ≤ progress.startAddr
  le_finish : progress.startAddr + progress.size ≤ slot.startAddr + slot.memorySize
  same : progress.ram - UInt64.ofNat progress.startAddr = slot.ram - UInt64.ofNat slot.startAddr

/-- A slot that has the section with the same memory maps it as the section does. -/
theorem performed_of_fits (sound : host.Sound) {now : MemoryListener}
    (clearing : Clearing host kml goal { goal with kml := now }) (isSlot : index < now.nrSlots)
    (fits : Fits { goal with kml := now } (now.slots index)) :
    Performed host kml goal true (host.slotUpdateFlags now index flags) := by
  obtain ⟨start_le, le_finish, same⟩ := fits
  have flagsOnly := sound.slotUpdateFlags now index flags
  refine ⟨flagsOnly.nrSlots.trans clearing.nrSlots, flagsOnly.wellFormed clearing.wellFormed,
    fun address isStart isEnd hostAddr => ?_, fun address outside hostAddr => ?_⟩
  · rw [flagsOnly.holds_iff, clearing.wellFormed.holds_iff_of_covers isSlot
      ⟨start_le.trans isStart, isEnd.trans_le le_finish⟩]
    have isSum {start : Nat} (isLe : start ≤ address) :
        UInt64.ofNat address = UInt64.ofNat start + UInt64.ofNat (address - start) := by
      rw [← UInt64.ofNat_add, Nat.add_sub_cancel' isLe]
    have here := isSum isStart
    have there := isSum (start_le.trans isStart)
    have equal : goal.ram + UInt64.ofNat (address - goal.startAddr) = (now.slots index).ram +
        UInt64.ofNat (address - (now.slots index).startAddr) := by grind
    rw [equal, and_iff_right rfl]
    rfl
  · rw [flagsOnly.holds_iff]
    exact clearing.outside address outside hostAddr

/-- What a turn of the loop can do. -/
inductive TurnCase (host : Host) (flags : UInt32) (add : Bool) (progress : Progress) :
    Turn Progress Outcome → Prop where
  | cleared (clear : progress.overlapping = ∅) :
      TurnCase host flags add progress (.done (.cleared progress))
  | updated {index : Nat} (isOverlapping : index ∈ progress.overlapping) (isAdd : add = true)
      (fits : Fits progress (progress.kml.slots index)) :
      TurnCase host flags add progress
        (.done (.updated (host.slotUpdateFlags progress.kml index flags)))
  | worksAround {index : Nat} {next : MemoryListener}
      (found : host.lookupOverlappingSlot progress.kml progress.startAddr
        (progress.startAddr + progress.size) = some index)
      (isOverlapping : index ∈ progress.overlapping)
      (applies : WorksAround host add progress (progress.kml.slots index))
      (registered : registerSlot host (unregisterSlot progress.kml index)
        (progress.kml.slots index).startAddr (progress.kml.slots index).memorySize
        (progress.kml.slots index).ram flags = some next) :
      TurnCase host flags add progress
        (.again
          { kml := next
            startAddr := progress.startAddr + (progress.kml.slots index).memorySize
            size := progress.size - (progress.kml.slots index).memorySize
            ram := progress.ram + UInt64.ofNat (progress.kml.slots index).memorySize })
  | cut {index : Nat} {next : MemoryListener}
      (found : host.lookupOverlappingSlot progress.kml progress.startAddr
        (progress.startAddr + progress.size) = some index)
      (isOverlapping : index ∈ progress.overlapping)
      (plain : ¬ WorksAround host add progress (progress.kml.slots index))
      (cut : Cut host (progress.kml.slots index) progress.startAddr
        (progress.startAddr + progress.size))
      (isCut : cutSlot host progress.kml index progress.startAddr
        (progress.startAddr + progress.size) flags = some next) :
      TurnCase host flags add progress (.again { progress with kml := next })
  | outOfSlots {index : Nat}
      (found : host.lookupOverlappingSlot progress.kml progress.startAddr
        (progress.startAddr + progress.size) = some index)
      (isOverlapping : index ∈ progress.overlapping)
      (plain : ¬ WorksAround host add progress (progress.kml.slots index))
      (cut : Cut host (progress.kml.slots index) progress.startAddr
        (progress.startAddr + progress.size))
      (notCut : cutSlot host progress.kml index progress.startAddr
        (progress.startAddr + progress.size) flags = none) :
      TurnCase host flags add progress (.done .outOfSlots)

theorem mem_progress_overlapping :
    index ∈ progress.overlapping ↔ index < progress.kml.nrSlots ∧
      (progress.kml.slots index).Overlaps progress.startAddr
        (progress.startAddr + progress.size) := by
  rw [Progress.overlapping, Kvm.overlapping, Finset.mem_filter, Finset.mem_range]

theorem clearTurn_cases (sound : host.Sound) (pages : Pages host progress)
    (wellFormed : WellFormed host.pageSize progress.kml) (flags : UInt32) (add : Bool) :
    TurnCase host flags add progress (clearTurn host flags add progress) := by
  rw [clearTurn]
  rw [wrap_of_lt pages.below]
  cases found : host.lookupOverlappingSlot progress.kml progress.startAddr
    (progress.startAddr + progress.size) with
  | none =>
    refine .cleared (Finset.eq_empty_of_forall_notMem fun index isOverlapping => ?_)
    obtain ⟨isSlot, isActive, before, behind⟩ := mem_progress_overlapping.mp isOverlapping
    have size_pos := pages.size_pos
    exact sound.lookup_none _ _ _ found index isSlot
      (max progress.startAddr (progress.kml.slots index).startAddr) (by omega) (by omega)
      ⟨by omega, by omega⟩
  | some index =>
    obtain ⟨isSlot, isActive, before, behind⟩ := sound.lookup_some _ _ _ _ found
    have isOverlapping : index ∈ progress.overlapping :=
      mem_progress_overlapping.mpr ⟨isSlot, isActive, before, behind⟩
    have aligned := wellFormed.aligned index isSlot isActive
    have finish_aligned : (progress.startAddr + progress.size) % host.pageSize = 0 := by
      rw [Nat.add_mod, pages.startAddr, pages.size, Nat.zero_mod]
    have cut : Cut host (progress.kml.slots index) progress.startAddr
        (progress.startAddr + progress.size) :=
      ⟨pages.startAddr, finish_aligned, aligned, Nat.lt_add_of_pos_right pages.size_pos, behind,
        before⟩
    dsimp only
    rw [wrap_of_lt aligned.below]
    split
    · next fits => exact .updated isOverlapping fits.1 ⟨fits.2.1, fits.2.2.1, fits.2.2.2⟩
    · split
      · next applies =>
        have more := card_freeSlots_lt_unregisterSlot isSlot isActive
        obtain ⟨next, registered, -⟩ := registerSlot_of_free sound (Nat.zero_lt_of_lt more)
          (progress.kml.slots index).startAddr (progress.kml.slots index).memorySize
          (progress.kml.slots index).ram flags
        have below := pages.below
        rw [registered, wrap_of_lt (by omega)]
        exact .worksAround found isOverlapping applies registered
      · next plain =>
        split
        · next notCut => exact .outOfSlots found isOverlapping plain cut notCut
        · next next isCut => exact .cut found isOverlapping plain cut isCut

/-- The workaround does not apply to any slot. -/
def Plain (host : Host) (add : Bool) (progress : Progress) : Prop :=
  ∀ index ∈ progress.overlapping, ¬ WorksAround host add progress (progress.kml.slots index)

theorem clearTurn_spec (sound : host.Sound) (pages : Pages host goal) (flags : UInt32) (add : Bool)
    (clearing : Clearing host kml goal progress) (plain : ∀ progress, Plain host add progress) :
    (∃ next, some (clearTurn host flags add progress) = some (.again next) ∧
      Clearing host kml goal next ∧
      (overlapping next.kml goal.startAddr (goal.startAddr + goal.size)).card <
        (overlapping progress.kml goal.startAddr (goal.startAddr + goal.size)).card) ∨
    ∃ outcome, some (clearTurn host flags add progress) = some (.done outcome) ∧
      Ends host kml goal add outcome := by
  obtain ⟨progressKml, rfl⟩ : ∃ progressKml, progress = { goal with kml := progressKml } := by
    obtain ⟨sameStart, sameSize, sameRam, -⟩ := clearing
    exact ⟨progress.kml, by rw [← sameStart, ← sameSize, ← sameRam]⟩
  have samePages : Pages host { goal with kml := progressKml } :=
    { pages with }
  have turn := clearTurn_cases sound samePages clearing.wellFormed flags add
  generalize clearTurn host flags add { goal with kml := progressKml } = result at turn
  cases turn with
  | cleared clear =>
    refine .inr ⟨_, rfl, clearing, ?_⟩
    rintro address isStart isEnd hostAddr ⟨index, isSlot, covers, -⟩
    have isOverlapping : index ∈ Progress.overlapping { goal with kml := progressKml } :=
      mem_progress_overlapping.mpr ⟨isSlot, covers.overlaps isStart isEnd⟩
    rw [clear] at isOverlapping
    exact Finset.notMem_empty index isOverlapping
  | updated isOverlapping isAdd fits =>
    subst isAdd
    exact .inr ⟨_, rfl, performed_of_fits sound clearing
      (mem_progress_overlapping.mp isOverlapping).1 fits⟩
  | worksAround found isOverlapping applies registered =>
    exact absurd applies (plain _ _ isOverlapping)
  | outOfSlots _ isOverlapping _ cut notCut =>
    refine .inr ⟨_, rfl, Nat.lt_of_not_le fun enough => ?_⟩
    obtain ⟨isSlot, isActive, -⟩ := mem_progress_overlapping.mp isOverlapping
    obtain ⟨next, isCut, -⟩ := cutSlot_of_free sound clearing.wellFormed isSlot isActive cut
      (clearing.two_le_card_freeSlots isOverlapping enough) flags
    exact Option.some_ne_none next (isCut.symm.trans notCut)
  | cut _ isOverlapping _ cut isCut =>
    obtain ⟨isSlot, isActive, -⟩ := mem_progress_overlapping.mp isOverlapping
    obtain ⟨nrSlots, wellFormed, subset, outside⟩ :=
      cutSlot_spec sound clearing.wellFormed isSlot cut isCut
    have fewer := (Finset.card_le_card subset).trans_lt
      (Finset.card_erase_lt_of_mem isOverlapping)
    refine .inl ⟨_, rfl, ⟨rfl, rfl, clearing.ram, nrSlots.trans clearing.nrSlots, wellFormed,
      fun enough => ?_, fun address isOutside hostAddr => ?_⟩, fewer⟩
    · obtain ⟨next', isCut', spare'⟩ := cutSlot_of_free sound clearing.wellFormed isSlot isActive
        cut (clearing.two_le_card_freeSlots isOverlapping enough) flags
      cases isCut'.symm.trans isCut
      exact spare'
    · rw [outside address isOutside]
      exact clearing.outside address isOutside hostAddr

/-- The loop ends, after at most one turn for each slot that overlaps and one more. -/
theorem clearLoop_returns (sound : host.Sound) (pages : Pages host goal)
    (wellFormed : WellFormed host.pageSize goal.kml) (flags : UInt32) (add : Bool)
    (plain : ∀ progress, Plain host add progress) {fuel : Nat}
    (enough : goal.overlapping.card < fuel) :
    ∃ outcome, loop (fun progress => some (clearTurn host flags add progress)) fuel goal =
        some outcome ∧ Ends host goal.kml goal add outcome :=
  loop_returns (Clearing host goal.kml goal) (Ends host goal.kml goal add)
    (fun progress =>
      (overlapping progress.kml goal.startAddr (goal.startAddr + goal.size)).card)
    (fun _ clearing => clearTurn_spec sound pages flags add clearing plain)
    ⟨rfl, rfl, rfl, rfl, wellFormed, .inl, fun _ _ _ => Iff.rfl⟩ enough

theorem card_overlapping_lt (progress : Progress) :
    progress.overlapping.card < progress.kml.nrSlots + 1 := by
  refine Nat.lt_succ_of_le ((Finset.card_filter_le _ _).trans ?_)
  rw [Finset.card_range]

theorem finish_spec (sound : host.Sound) (pages : Pages host goal)
    (ends : Ends host kml goal add outcome) (finished : finish host flags add outcome = some next) :
    Performed host kml goal add next := by
  cases outcome with
  | outOfSlots => cases finished
  | updated updated =>
    cases finished
    exact ends
  | cleared progress =>
    obtain ⟨clearing, isClear⟩ := ends
    rw [finish, clearing.size, clearing.startAddr, clearing.ram] at finished
    split at finished
    · next isRemoved =>
      cases finished
      have notAdd : add = false := isRemoved.resolve_left (Nat.pos_iff_ne_zero.mp pages.size_pos)
      refine ⟨clearing.nrSlots, clearing.wellFormed, fun address isStart isEnd hostAddr => ?_,
        clearing.outside⟩
      rw [notAdd]
      exact ⟨fun holds => absurd holds (isClear address isStart isEnd hostAddr),
        fun isAdd => absurd isAdd.1 Bool.false_ne_true⟩
    · next isAdded =>
      have isAdd : add = true := by simpa using (not_or.mp isAdded).2
      have isMemory : ∀ address, (memoryOf goal.startAddr goal.size goal.ram).Covers address ↔
          goal.startAddr ≤ address ∧ address < goal.startAddr + goal.size := fun _ => Iff.rfl
      obtain ⟨keeps, holds_iff⟩ := registerSlot_spec sound clearing.wellFormed finished
        ⟨pages.startAddr, pages.size, pages.below⟩
        (fun address covers => isClear address covers.1 covers.2) 0 0
        (fun overlaps => Nat.not_lt_zero _ overlaps.2.1)
      refine ⟨keeps.nrSlots.trans clearing.nrSlots, keeps.wellFormed,
        fun address isStart isEnd hostAddr => ?_, fun address outside hostAddr => ?_⟩
      · rw [holds_iff, isMemory, and_iff_right isAdd, and_iff_right ⟨isStart, isEnd⟩,
          or_iff_right (isClear address isStart isEnd hostAddr)]
        rfl
      · rw [holds_iff, isMemory, ← clearing.outside address outside]
        exact or_iff_left fun inside => outside inside.1

theorem finish_ne_none (sound : host.Sound) (ends : Ends host kml goal add outcome)
    (enough : 2 ≤ (freeSlots kml).card) : finish host flags add outcome ≠ none := by
  cases outcome with
  | outOfSlots => exact absurd enough (Nat.not_le_of_lt ends)
  | updated updated => exact Option.some_ne_none updated
  | cleared progress =>
    rw [finish]
    split
    · exact Option.some_ne_none progress.kml
    · have isFree : 0 < (freeSlots progress.kml).card := by
        rcases ends.1.spare enough with two | ⟨one, -⟩ <;> omega
      obtain ⟨next, registered, -⟩ := registerSlot_of_free sound isFree progress.startAddr
        progress.size progress.ram flags
      rw [registered]
      exact Option.some_ne_none next

end Loop

/-! ### Calls -/

section Calls

variable {host : Host} {kml : MemoryListener} {sect : Section}

/-- The page of the address lies inside of the section. -/
def InWholePage (pageSize : Nat) (sect : Section) (address : Nat) : Prop :=
  sect.offsetWithinAddressSpace ≤ address / pageSize * pageSize ∧
    (address / pageSize + 1) * pageSize ≤ sect.offsetWithinAddressSpace + sect.size

/-- The memory of the section at an address of the guest. -/
def Section.hostAddr (sect : Section) (address : Nat) : UInt64 :=
  sect.mr.ramPtr + sect.offsetWithinRegion +
    UInt64.ofNat (address - sect.offsetWithinAddressSpace)

/-- The section is memory, at addresses that do not overflow. -/
structure IsMemory (sect : Section) : Prop where
  isRam : sect.mr.isRam = true
  below : sect.offsetWithinAddressSpace + sect.size < 18446744073709551616

/-- The next page is the first multiple of the page size from an address on. -/
theorem exists_nextPage (pageSize_pos : 0 < host.pageSize) (start : Nat) :
    ∃ page, start + toNextPage host start = page * host.pageSize ∧
      ∀ other, start ≤ other * host.pageSize ↔ page ≤ other := by
  have isSum := Nat.div_add_mod start host.pageSize
  have inPage := Nat.mod_lt start pageSize_pos
  rw [Nat.mul_comm] at isSum
  by_cases isAligned : start % host.pageSize = 0
  · refine ⟨start / host.pageSize, ?_, fun other => ?_⟩
    · rw [toNextPage, isAligned, Nat.sub_zero, Nat.mod_self]
      omega
    · have isMultiple : start = start / host.pageSize * host.pageSize := by omega
      rw [isMultiple, Nat.mul_div_cancel _ pageSize_pos]
      exact Nat.mul_le_mul_right_iff pageSize_pos
  · refine ⟨start / host.pageSize + 1, ?_, fun other => ?_⟩
    · rw [toNextPage, Nat.mod_eq_of_lt (by omega), Nat.succ_mul]
      omega
    · rw [Nat.succ_le_iff, Nat.div_lt_iff_lt_mul pageSize_pos]
      constructor
      · intro isLe
        refine lt_of_le_of_ne isLe fun isEq => isAligned ?_
        rw [isEq, Nat.mul_mod_left]
      · exact Nat.le_of_lt

/-- The whole pages of a section are those from the next page on for the truncated size. -/
theorem inWholePage_iff (pageSize_pos : 0 < host.pageSize) {delta : Nat}
    (isDelta : toNextPage host sect.offsetWithinAddressSpace = delta) (address : Nat) :
    InWholePage host.pageSize sect address ↔ delta ≤ sect.size ∧
      sect.offsetWithinAddressSpace + delta ≤ address ∧
      address < sect.offsetWithinAddressSpace + delta +
        ((sect.size - delta) - (sect.size - delta) % host.pageSize) := by
  obtain ⟨page, isPage, first⟩ := exists_nextPage pageSize_pos sect.offsetWithinAddressSpace
  rw [isDelta] at isPage
  rw [InWholePage, first, isPage, ← Nat.div_mul_self_eq_mod_sub_self, ← Nat.add_mul,
    ← Nat.le_div_iff_mul_le pageSize_pos, ← Nat.le_div_iff_mul_le pageSize_pos,
    ← Nat.div_lt_iff_lt_mul pageSize_pos]
  by_cases fits : delta ≤ sect.size
  · have isQuotient : (sect.offsetWithinAddressSpace + sect.size) / host.pageSize =
        page + (sect.size - delta) / host.pageSize := by
      have isSum : sect.offsetWithinAddressSpace + sect.size =
          host.pageSize * page + (sect.size - delta) := by
        rw [Nat.mul_comm]
        omega
      rw [isSum, Nat.mul_add_div pageSize_pos]
    rw [isQuotient, and_iff_right fits]
    rfl
  · have before : (sect.offsetWithinAddressSpace + sect.size) / host.pageSize < page := by
      rw [Nat.div_lt_iff_lt_mul pageSize_pos]
      omega
    omega

/-- What a call does: in the whole pages of the section there is its memory, or none when it is
removed, and at all other addresses what there was before. -/
structure Mapped (host : Host) (kml : MemoryListener) (sect : Section) (add : Bool)
    (next : MemoryListener) : Prop where
  nrSlots : next.nrSlots = kml.nrSlots
  wellFormed : WellFormed host.pageSize next
  inside : ∀ address, InWholePage host.pageSize sect address →
    ∀ hostAddr, MapsTo next address hostAddr ↔ add = true ∧ hostAddr = sect.hostAddr address
  outside : ∀ address, ¬ InWholePage host.pageSize sect address →
    ∀ hostAddr, MapsTo next address hostAddr ↔ MapsTo kml address hostAddr

/-- What has been done for the pages of a section is done for the section. -/
theorem Performed.mapped {goal : Progress} {next : MemoryListener}
    (performed : Performed host kml goal add next) (wellFormed : WellFormed host.pageSize kml)
    (inPage : ∀ address, InWholePage host.pageSize sect address ↔
      goal.startAddr ≤ address ∧ address < goal.startAddr + goal.size)
    (sameMemory : ∀ address, goal.startAddr ≤ address →
      goal.ram + UInt64.ofNat (address - goal.startAddr) = sect.hostAddr address) :
    Mapped host kml sect add next := by
  refine ⟨performed.nrSlots, performed.wellFormed, fun address isIn hostAddr => ?_,
    fun address isOut hostAddr => ?_⟩
  · obtain ⟨isStart, isEnd⟩ := (inPage address).mp isIn
    rw [mapsTo_iff_holds performed.wellFormed, performed.inside address isStart isEnd,
      sameMemory address isStart]
  · rw [mapsTo_iff_holds performed.wellFormed, mapsTo_iff_holds wellFormed]
    exact performed.outside address (fun isIn => isOut ((inPage address).mpr isIn)) hostAddr

/-- The call leaves the section to the device behind it. -/
def Section.Ignored (host : Host) (sect : Section) : Prop :=
  sect.mr.isRam = false ∧
    ((!sect.mr.readonly && !sect.mr.romDevice) = true ∨ host.readonlyMemAllowed = false)

/-- A device that is not in ROM mode is removed instead. -/
def Section.adds (sect : Section) (add : Bool) : Bool :=
  if sect.mr.isRam = false ∧ sect.mr.romdMode = false then false else add

/-- The whole pages of a section are what the loop starts with. -/
structure IsGoal (host : Host) (kml : MemoryListener) (sect : Section) (goal : Progress) :
    Prop where
  kml : goal.kml = kml
  pages : Pages host goal
  inPage : ∀ address, InWholePage host.pageSize sect address ↔
    goal.startAddr ≤ address ∧ address < goal.startAddr + goal.size
  sameMemory : ∀ address, goal.startAddr ≤ address →
    goal.ram + UInt64.ofNat (address - goal.startAddr) = sect.hostAddr address

/-- A call does nothing, or its loop starts with the whole pages of the section. -/
theorem setPhysMem_cases (pageSize_pos : 0 < host.pageSize)
    (below : sect.offsetWithinAddressSpace + sect.size < 18446744073709551616)
    (kml : MemoryListener) (add : Bool) :
    ((sect.Ignored host ∨ ∀ address, ¬ InWholePage host.pageSize sect address) ∧
      ∀ fuel, setPhysMem host fuel kml sect add = some (some kml)) ∨
    ¬ sect.Ignored host ∧ ∃ goal, IsGoal host kml sect goal ∧
      ∀ fuel, setPhysMem host fuel kml sect add =
        (loop (fun progress => some (clearTurn host sect.mr.memFlags (sect.adds add) progress))
          fuel goal).map (finish host sect.mr.memFlags (sect.adds add)) := by
  obtain ⟨page, isPage, -⟩ := exists_nextPage pageSize_pos sect.offsetWithinAddressSpace
  simp only [setPhysMem]
  generalize isDelta : toNextPage host sect.offsetWithinAddressSpace = delta at *
  have inPage := inWholePage_iff pageSize_pos isDelta
  split
  · next tooSmall =>
    refine .inl ⟨.inr fun address isIn => ?_, fun _ => rfl⟩
    have := (inPage address).mp isIn
    omega
  · next fits =>
    rw [wrap_of_lt (by omega)]
    generalize isSize : sect.size - delta - (sect.size - delta) % host.pageSize = size at *
    have isAligned : (sect.offsetWithinAddressSpace + delta) % host.pageSize = 0 := by
      rw [isPage, Nat.mul_mod_left]
    split
    · next isEmpty =>
      refine .inl ⟨.inr fun address isIn => ?_, fun _ => rfl⟩
      have := (inPage address).mp isIn
      omega
    · next isPages =>
      split
      · next ignored => exact .inl ⟨.inl ignored, fun _ => rfl⟩
      · next notIgnored =>
        refine .inr ⟨notIgnored, _, ⟨rfl, ⟨isAligned, ?_, ?_, ?_⟩, fun address => ?_,
          fun address isStart => ?_⟩, fun _ => rfl⟩
        · rw [← isSize]
          exact Nat.sub_mod_eq_zero_of_mod_eq (Nat.mod_mod _ _).symm
        · exact Nat.pos_of_ne_zero (not_or.mp isPages).1
        · change sect.offsetWithinAddressSpace + delta + size < _
          omega
        · rw [inPage, and_iff_right (Nat.not_lt.mp fits)]
        · have isSum : address - sect.offsetWithinAddressSpace =
              delta + (address - (sect.offsetWithinAddressSpace + delta)) := by
            change sect.offsetWithinAddressSpace + delta ≤ address at isStart
            omega
          rw [Section.hostAddr, isSum, UInt64.ofNat_add, ← UInt64.add_assoc]

theorem IsMemory.not_ignored (isMemory : IsMemory sect) : ¬ sect.Ignored host := by
  rintro ⟨notRam, -⟩
  rw [isMemory.isRam] at notRam
  exact Bool.noConfusion notRam

theorem IsMemory.adds_eq (isMemory : IsMemory sect) (add : Bool) : sect.adds add = add := by
  rw [Section.adds, if_neg (by simp [isMemory.isRam])]

/-- The loop ends, two free slots are enough, and the call does what it is for. -/
theorem setPhysMem_spec (sound : host.Sound) (notBroken : host.brokenSetMemRegion = false)
    (wellFormed : WellFormed host.pageSize kml) (isMemory : IsMemory sect) (add : Bool) :
    ∃ result, setPhysMem host (kml.nrSlots + 1) kml sect add = some result ∧
      (2 ≤ (freeSlots kml).card → result ≠ none) ∧
      ∀ next, result = some next → Mapped host kml sect add next := by
  rcases setPhysMem_cases sound.pageSize_pos isMemory.below kml add with
    ⟨nothing, returned⟩ | ⟨-, goal, isGoal, isLoop⟩
  · have noPage := nothing.resolve_left isMemory.not_ignored
    refine ⟨_, returned _, fun _ => Option.some_ne_none kml, fun next isNext => ?_⟩
    cases isNext
    exact ⟨rfl, wellFormed, fun address inPage => absurd inPage (noPage address),
      fun _ _ _ => Iff.rfl⟩
  · rw [isMemory.adds_eq] at isLoop
    obtain rfl := isGoal.kml
    obtain ⟨outcome, returned, ends⟩ := clearLoop_returns sound isGoal.pages wellFormed
      sect.mr.memFlags add (fun _ _ _ broken => Bool.false_ne_true (notBroken.symm.trans broken.1))
      (card_overlapping_lt goal)
    refine ⟨_, (isLoop _).trans (Option.map_eq_some_iff.mpr ⟨outcome, returned, rfl⟩),
      finish_ne_none sound ends, fun next isNext => ?_⟩
    exact (finish_spec sound isGoal.pages ends isNext).mapped wellFormed isGoal.inPage
      isGoal.sameMemory

/-! ### Runs -/

/-- A call for memory: the section is added or removed. -/
structure Call where
  sect : Section
  add : Bool

/-- One call, when there are enough slots for it. -/
def setPhysMemStep (host : Host) (kml : MemoryListener) (call : Call) :
    Option (MemoryListener × List Empty) :=
  if call.sect.mr.isRam ∧
      call.sect.offsetWithinAddressSpace + call.sect.size < 18446744073709551616 then
    match setPhysMem host (kml.nrSlots + 1) kml call.sect call.add with
    | some (some next) => some (next, [])
    | _ => none
  else none

/-- A listener without memory. -/
def emptyListener (nrSlots : Nat) : MemoryListener where
  nrSlots := nrSlots
  slots _ := ⟨0, 0, 0, 0, 0⟩
  kernel _ := ⟨0, 0, 0, 0⟩

theorem emptyListener_wellFormed (nrSlots : Nat) :
    WellFormed host.pageSize (emptyListener nrSlots) :=
  ⟨fun _ _ isActive => absurd rfl isActive,
    fun _ _ _ _ address covers => absurd covers (KvmSlot.not_covers rfl address),
    fun _ _ => ⟨rfl, rfl, rfl⟩⟩

/--
After every sequence of calls the active slots are aligned and disjoint and the kernel
has the same ones. One more call ends, whatever slots it has to take apart, and two free
slots are enough for it. It maps the whole pages of its section and leaves all other
addresses as they were.
-/
theorem run_setPhysMem (sound : host.Sound) (notBroken : host.brokenSetMemRegion = false)
    {nrSlots : Nat} {calls : List Call} {last : MemoryListener} {events : List Empty}
    (ran : run (setPhysMemStep host) (emptyListener nrSlots) calls = some (last, events)) :
    WellFormed host.pageSize last ∧
      ∀ sect add, IsMemory sect →
        ∃ result, setPhysMem host (last.nrSlots + 1) last sect add = some result ∧
          (2 ≤ (freeSlots last).card → result ≠ none) ∧
          ∀ next, result = some next → Mapped host last sect add next := by
  have wellFormed : WellFormed host.pageSize last := by
    refine run_invariant (setPhysMemStep host) (fun kml _ => WellFormed host.pageSize kml)
      (fun _ _ call _ _ wellFormed taken => ?_) [] (emptyListener_wellFormed nrSlots) ran
    obtain ⟨⟨isRam, below⟩, taken⟩ := Option.ite_none_right_eq_some.mp taken
    obtain ⟨result, returned, -, mapped⟩ :=
      setPhysMem_spec sound notBroken wellFormed ⟨isRam, below⟩ call.add
    rw [returned] at taken
    cases result with
    | none => cases taken
    | some last =>
      cases taken
      exact (mapped _ rfl).wellFormed
  exact ⟨wellFormed, fun sect add isMemory =>
    setPhysMem_spec sound notBroken wellFormed isMemory add⟩

end Calls

/-! ### A host that looks at one slot after another -/

/-- A host with functions that look at one slot after another. -/
def scanningHost : Host where
  pageSize := 4096
  readonlyMemAllowed := true
  brokenSetMemRegion := false
  lookupOverlappingSlot kml start finish :=
    (List.range kml.nrSlots).find? fun index => (kml.slots index).Overlaps start finish
  getFreeSlot kml :=
    (List.range kml.nrSlots).find? fun index => (kml.slots index).memorySize = 0
  slotUpdateFlags kml index flags :=
    setUserMemoryRegion { kml with
      slots := Function.update kml.slots index { kml.slots index with flags := flags } } index false

theorem scanningHost_flagsOnly (kml : MemoryListener) (index : Nat) (flags : UInt32) :
    FlagsOnly kml (scanningHost.slotUpdateFlags kml index flags) := by
  refine ⟨rfl, fun other => ?_, fun other agrees => ?_⟩
  all_goals by_cases same : other = index
  · subst same
    constructor <;> simp [scanningHost, setUserMemoryRegion]
  · constructor <;> simp [scanningHost, setUserMemoryRegion, same]
  · subst same
    constructor <;> simp [scanningHost, setUserMemoryRegion]
  · rw [scanningHost, setUserMemoryRegion_kernel_of_ne _ false same]
    obtain ⟨guestPhysAddr, memorySize, userspaceAddr⟩ := agrees
    constructor <;> simpa [setUserMemoryRegion, same]

theorem scanningHost_sound : scanningHost.Sound := by
  refine ⟨by decide, ?_, ?_, ?_, ?_, scanningHost_flagsOnly⟩
  · intro kml start finish index found
    have overlaps : (kml.slots index).Overlaps start finish := by
      simpa using List.find?_some found
    exact ⟨List.mem_range.mp (List.mem_of_find?_eq_some found), overlaps⟩
  · rintro kml start finish notFound index isSlot address isStart isEnd ⟨isLower, isUpper⟩
    have notOverlaps := List.find?_eq_none.mp notFound index (List.mem_range.mpr isSlot)
    refine notOverlaps (decide_eq_true ⟨?_, ?_, ?_⟩) <;> omega
  · intro kml index found
    have isFree : (kml.slots index).memorySize = 0 := by
      simpa using List.find?_some found
    exact ⟨List.mem_range.mp (List.mem_of_find?_eq_some found), isFree⟩
  · intro kml notFound index isSlot
    have notFree := List.find?_eq_none.mp notFound index (List.mem_range.mpr isSlot)
    simpa using notFree

/-- Memory of the guest from an address on. -/
def guestRam (start size : Nat) (ramPtr : UInt64) : Section :=
  ⟨⟨true, false, false, false, ramPtr, 0⟩, start, 0, size⟩

/-- A page is put in the middle of other memory. -/
def splitCalls : List Call :=
  [⟨guestRam 4096 20480 1048576, true⟩, ⟨guestRam 8192 4096 2097152, true⟩]

/-- Three slots are there after the calls. A removal drops one of them and shortens another. -/
theorem run_setPhysMem_splitCalls :
    ∃ last events next,
      run (setPhysMemStep scanningHost) (emptyListener 5) splitCalls = some (last, events) ∧
      WellFormed 4096 last ∧ (freeSlots last).card = 2 ∧
      setPhysMem scanningHost 6 last (guestRam 8000 9000 0) false = some (some next) ∧
      Mapped scanningHost last (guestRam 8000 9000 0) false next := by
  obtain ⟨last, events, ran, nrSlots, isFree⟩ : ∃ last events,
      run (setPhysMemStep scanningHost) (emptyListener 5) splitCalls = some (last, events) ∧
      last.nrSlots = 5 ∧ (freeSlots last).card = 2 := ⟨_, _, rfl, rfl, by decide⟩
  obtain ⟨wellFormed, oneMore⟩ := run_setPhysMem scanningHost_sound rfl ran
  obtain ⟨result, returned, enough, mapped⟩ :=
    oneMore (guestRam 8000 9000 0) false ⟨rfl, by decide⟩
  obtain ⟨next, isNext⟩ := Option.ne_none_iff_exists'.mp (enough (by omega))
  rw [nrSlots, isNext] at returned
  exact ⟨last, events, next, ran, wellFormed, isFree, returned, mapped next isNext⟩

end StudyNotes.Kvm
