/-
This file proves when the memory table of a vhost-user device describes memory
that is mapped.

The master names files and says for each where a region starts in the file and
how long it is. The device maps the file from its start up to the end of the
region, rounded up to the block size of the file. The sums are taken with 64
bits, so a region whose end does not fit gets a mapping that is too short. In
every other case the translated addresses lie in the mappings.
-/

import StudyNotes.Library.Word
import StudyNotes.VhostBlk.Chain

namespace StudyNotes.VhostUser

open Library
open VhostBlk (MemRegion gpaToVva)

/-! ### The table -/

/-- `struct VhostUserMemoryRegion`. -/
structure MemoryRegion where
  guestPhysAddr : BitVec 64
  memorySize : BitVec 64
  userspaceAddr : BitVec 64
  mmapOffset : BitVec 64

/-- What the system answers for the file of a region: `get_blk_size` and `mmap`. -/
structure Backing where
  blkSize : BitVec 64
  mmapAddr : BitVec 64

/-- `struct rte_vhost_mem_region`. -/
structure Region where
  guestPhysAddr : BitVec 64
  guestUserAddr : BitVec 64
  hostUserAddr : BitVec 64
  size : BitVec 64
  mmapAddr : BitVec 64
  mmapSize : BitVec 64

/-- `RTE_ALIGN_CEIL`. -/
def alignCeil (val align : BitVec 64) : BitVec 64 := (val + (align - 1)) &&& ~~~(align - 1)

/-- One turn of the loop of `vhost_setup_mem_table`. -/
def setupRegion (memory : MemoryRegion) (backing : Backing) : Option Region :=
  if backing.blkSize = -1 then none
  else some
    { guestPhysAddr := memory.guestPhysAddr
      guestUserAddr := memory.userspaceAddr
      hostUserAddr := backing.mmapAddr + memory.mmapOffset
      size := memory.memorySize
      mmapAddr := backing.mmapAddr
      mmapSize := alignCeil (memory.memorySize + memory.mmapOffset) backing.blkSize }

/-- `vhost_setup_mem_table`: the regions of the new table, unless it fails. -/
def setupMemTable (memory : List (MemoryRegion × Backing)) : Option (List Region) :=
  memory.mapM fun entry => setupRegion entry.1 entry.2

/-! ### Translation -/

/-- `qva_to_vva`: the address, and the length cut at the end of its region. -/
def qvaToVva (regions : List Region) (qva len : BitVec 64) : BitVec 64 × BitVec 64 :=
  match regions.find? fun reg =>
      qva ≥ reg.guestUserAddr ∧ qva < reg.guestUserAddr + reg.size with
  | some reg =>
    (qva - reg.guestUserAddr + reg.hostUserAddr,
      if len > reg.guestUserAddr + reg.size - qva then reg.guestUserAddr + reg.size - qva else len)
  | none => (0, len)

/-- What `rte_vhost_gpa_to_vva` reads of a region. -/
def Region.toMemRegion (region : Region) : MemRegion where
  guestPhysAddr := region.guestPhysAddr
  hostUserAddr := region.hostUserAddr
  size := region.size

/-! ### Mapped memory -/

/-- An address is part of the mapping of a region. -/
def Region.Maps (region : Region) (address : Nat) : Prop :=
  region.mmapAddr.toNat ≤ address ∧ address < region.mmapAddr.toNat + region.mmapSize.toNat

/-- The host's range of a region is mapped. -/
def Region.Mapped (region : Region) : Prop :=
  ∀ address, region.hostUserAddr.toNat ≤ address →
    address < region.hostUserAddr.toNat + region.size.toNat → region.Maps address

/-- The regions are mapped, and so is everything that the translations return. -/
structure TableMapped (regions : List Region) : Prop where
  mapped : ∀ region ∈ regions, region.Mapped
  qva : ∀ qva len, (qvaToVva regions qva len).1 ≠ 0 →
    ∃ region ∈ regions, ∀ k < (qvaToVva regions qva len).2.toNat,
      region.Maps ((qvaToVva regions qva len).1.toNat + k)
  gpa : ∀ gpa, gpaToVva (regions.map Region.toMemRegion) gpa ≠ 0 →
    ∃ region ∈ regions, region.Maps (gpaToVva (regions.map Region.toMemRegion) gpa).toNat

/-- The end of the region, rounded up to a block, fits into 64 bits, or the region is empty. -/
def Fits (memory : MemoryRegion) (backing : Backing) : Prop :=
  memory.memorySize = 0 ∨
    memory.memorySize.toNat + memory.mmapOffset.toNat + backing.blkSize.toNat ≤ 2 ^ 64

/-! ### Rounding up -/

variable {regions : List Region} {val align : BitVec 64} {bits : Nat}

section

variable (power : align.toNat = 2 ^ bits)
include power

theorem toNat_alignCeil :
    (alignCeil val align).toNat = (val.toNat + (2 ^ bits - 1)) % 2 ^ 64 / 2 ^ bits * 2 ^ bits := by
  have narrow : bits < 64 := by
    refine (Nat.pow_lt_pow_iff_right (a := 2) (by decide)).mp ?_
    rw [← power]
    exact align.isLt
  have positive : 0 < 2 ^ bits := Nat.two_pow_pos bits
  have low : (align - 1).toNat = 2 ^ bits - 1 := by
    rw [BitVec.toNat_sub, power, show (1 : BitVec 64).toNat = 1 from rfl]
    omega
  rw [alignCeil, BitVec.toNat_and, BitVec.toNat_not, BitVec.toNat_add, low]
  exact Word.alignDown_two_pow bits (Nat.le_of_lt narrow) (Nat.mod_lt _ (Nat.two_pow_pos 64))

/-- What fits is rounded up. -/
theorem le_alignCeil
    (fits : val.toNat + align.toNat ≤ 2 ^ 64) : val.toNat ≤ (alignCeil val align).toNat := by
  have positive : 0 < 2 ^ bits := Nat.two_pow_pos bits
  have cut := Nat.div_add_mod (val.toNat + (2 ^ bits - 1)) (2 ^ bits)
  rw [toNat_alignCeil power, Nat.mod_eq_of_lt (by omega), Nat.mul_comm]
  omega

/-- What does not fit is rounded up to zero. -/
theorem alignCeil_eq_zero
    (wraps : 2 ^ 64 < val.toNat + align.toNat) : (alignCeil val align).toNat = 0 := by
  have rest : (val.toNat + (2 ^ bits - 1)) % 2 ^ 64 < 2 ^ bits := by
    rw [Nat.mod_eq_sub_mod (by omega), Nat.mod_eq_of_lt (by omega)]
    omega
  rw [toNat_alignCeil power, Nat.div_eq_of_lt rest, Nat.zero_mul]

end

/-! ### When a region is mapped -/

/-- A region is mapped exactly when its end fits. -/
theorem setupRegion_mapped_iff {memory : MemoryRegion} {backing : Backing} {region : Region}
    (made : setupRegion memory backing = some region) (power : backing.blkSize.toNat = 2 ^ bits)
    (mmaps : region.mmapAddr.toNat + region.mmapSize.toNat ≤ 2 ^ 64) :
    region.Mapped ↔ Fits memory backing := by
  rw [setupRegion] at made
  split at made
  · cases made
  cases made
  dsimp only at mmaps
  have positive : 0 < backing.blkSize.toNat := power ▸ Nat.two_pow_pos bits
  have sum := BitVec.toNat_add memory.memorySize memory.mmapOffset
  have host := BitVec.toNat_add backing.mmapAddr memory.mmapOffset
  constructor
  · intro mapped
    by_contra unfit
    rw [Fits, not_or, Nat.not_le, ← BitVec.toNat_inj] at unfit
    obtain ⟨nonempty, wraps⟩ := unfit
    rw [show (0 : BitVec 64).toNat = 0 from rfl] at nonempty
    -- the first and the last byte of the region are enough
    have first := mapped _ (Nat.le_refl _) (Nat.lt_add_of_pos_right (Nat.pos_of_ne_zero nonempty))
    have last := mapped ((backing.mmapAddr + memory.mmapOffset).toNat +
      (memory.memorySize.toNat - 1)) (Nat.le_add_right _ _) (by dsimp only; omega)
    simp only [Region.Maps] at first last
    rcases Nat.lt_or_ge (memory.memorySize.toNat + memory.mmapOffset.toNat) (2 ^ 64) with
      inRange | outOfRange
    · rw [Nat.mod_eq_of_lt inRange] at sum
      have noLength := alignCeil_eq_zero power (sum ▸ wraps)
      omega
    · omega
  · rintro (empty | fits) address low high
    · rw [empty] at high
      exact absurd high (Nat.not_lt.mpr low)
    · rw [Nat.mod_eq_of_lt (by omega)] at sum
      have enough := le_alignCeil power (sum ▸ fits)
      dsimp only at low high
      simp only [Region.Maps]
      omega

/-- Every region of the new table comes from the entry at its place. -/
theorem setupMemTable_forall₂ {memory : List (MemoryRegion × Backing)}
    (returned : setupMemTable memory = some regions) :
    List.Forall₂ (fun entry region => setupRegion entry.1 entry.2 = some region) memory
      regions := by
  induction memory generalizing regions with
  | nil =>
    cases returned
    exact .nil
  | cons entry rest inductionHypothesis =>
    rw [setupMemTable, List.mapM_cons] at returned
    obtain ⟨region, made, others⟩ := Option.bind_eq_some_iff.mp returned
    obtain ⟨later, madeLater, isList⟩ := Option.bind_eq_some_iff.mp others
    cases isList
    exact .cons made (inductionHypothesis madeLater)

/-! ### Translated addresses -/

/-- An address that a region translates is at an offset inside of it. -/
theorem offset_lt {start size address : BitVec 64} (low : start ≤ address)
    (high : address < start + size) :
    (address - start).toNat < size.toNat ∧
      (start + size - address).toNat = size.toNat - (address - start).toNat := by
  rw [BitVec.le_def] at low
  rw [BitVec.lt_def, BitVec.toNat_add] at high
  rw [BitVec.toNat_sub, BitVec.toNat_sub, BitVec.toNat_add]
  omega

/-- An address at an offset inside of a mapped region is mapped. -/
theorem Region.Mapped.maps_offset {region : Region} (mapped : region.Mapped)
    (mmaps : region.mmapAddr.toNat + region.mmapSize.toNat ≤ 2 ^ 64) {offset : BitVec 64} {k : Nat}
    (short : offset.toNat + k < region.size.toNat) :
    region.Maps ((offset + region.hostUserAddr).toNat + k) := by
  have start := mapped (region.hostUserAddr.toNat + offset.toNat) (Nat.le_add_right _ _) (by omega)
  rw [Region.Maps] at start
  rw [BitVec.toNat_add, Nat.add_comm offset.toNat, Nat.mod_eq_of_lt (by omega)]
  exact mapped _ (by omega) (by omega)

/-- An address that is found is at an offset in a region, and the length ends with the region. -/
theorem qvaToVva_found {qva len : BitVec 64} (found : (qvaToVva regions qva len).1 ≠ 0) :
    ∃ region ∈ regions, ∃ offset, (qvaToVva regions qva len).1 = offset + region.hostUserAddr ∧
      offset.toNat + (qvaToVva regions qva len).2.toNat ≤ region.size.toNat := by
  rw [qvaToVva] at found ⊢
  cases isRegion : regions.find? fun reg =>
      decide (qva ≥ reg.guestUserAddr ∧ qva < reg.guestUserAddr + reg.size) with
  | none =>
    rw [isRegion] at found
    exact absurd rfl found
  | some region =>
    have lies := List.find?_some isRegion
    obtain ⟨low, high⟩ : qva ≥ region.guestUserAddr ∧ qva < region.guestUserAddr + region.size :=
      of_decide_eq_true lies
    obtain ⟨inside, rest⟩ := offset_lt low high
    refine ⟨region, List.mem_of_find?_eq_some isRegion, qva - region.guestUserAddr, rfl, ?_⟩
    dsimp only
    split
    · omega
    · next notLonger =>
      rw [gt_iff_lt, BitVec.lt_def] at notLonger
      omega

theorem gpaToVva_maps (mapped : ∀ region ∈ regions, region.Mapped)
    (mmaps : ∀ region ∈ regions, region.mmapAddr.toNat + region.mmapSize.toNat ≤ 2 ^ 64)
    {gpa : BitVec 64} (found : gpaToVva (regions.map Region.toMemRegion) gpa ≠ 0) :
    ∃ region ∈ regions, region.Maps (gpaToVva (regions.map Region.toMemRegion) gpa).toNat := by
  rw [gpaToVva] at found ⊢
  cases isRegion : (regions.map Region.toMemRegion).find? fun reg =>
      decide (gpa ≥ reg.guestPhysAddr ∧ gpa < reg.guestPhysAddr + reg.size) with
  | none =>
    rw [isRegion] at found
    exact absurd rfl found
  | some part =>
    obtain ⟨region, member, rfl⟩ := List.mem_map.mp (List.mem_of_find?_eq_some isRegion)
    have lies := List.find?_some isRegion
    obtain ⟨low, high⟩ : gpa ≥ region.guestPhysAddr ∧ gpa < region.guestPhysAddr + region.size :=
      of_decide_eq_true lies
    obtain ⟨inside, -⟩ := offset_lt low high
    exact ⟨region, member,
      (mapped region member).maps_offset (mmaps region member) (k := 0) inside⟩

/-! ### The table of a master -/

/--
After a table has been set up, its regions and all translated addresses are in
mapped memory, exactly when no region that has bytes ends where 64 bits do not
reach.
-/
theorem setupMemTable_mapped_iff {memory : List (MemoryRegion × Backing)} {regions : List Region}
    (returned : setupMemTable memory = some regions)
    (powers : ∀ entry ∈ memory, ∃ bits, entry.2.blkSize.toNat = 2 ^ bits)
    (mmaps : ∀ region ∈ regions, region.mmapAddr.toNat + region.mmapSize.toNat ≤ 2 ^ 64) :
    TableMapped regions ↔ ∀ entry ∈ memory, Fits entry.1 entry.2 := by
  have entries := setupMemTable_forall₂ returned
  have mappedIff : (∀ region ∈ regions, region.Mapped) ↔
      ∀ entry ∈ memory, Fits entry.1 entry.2 := by
    clear returned
    induction entries with
    | nil => simp
    | @cons entry region rest others made _ inductionHypothesis =>
      obtain ⟨bits, power⟩ := powers entry List.mem_cons_self
      rw [List.forall_mem_cons, List.forall_mem_cons,
        setupRegion_mapped_iff made power (mmaps region List.mem_cons_self),
        inductionHypothesis (fun other member => powers other (List.mem_cons_of_mem _ member))
          (fun other member => mmaps other (List.mem_cons_of_mem _ member))]
  rw [← mappedIff]
  constructor
  · exact fun table => table.mapped
  · intro mapped
    refine ⟨mapped, fun _ _ found => ?_, fun _ found => gpaToVva_maps mapped mmaps found⟩
    obtain ⟨region, member, offset, isOffset, inside⟩ := qvaToVva_found found
    refine ⟨region, member, fun k short => ?_⟩
    rw [isOffset]
    exact (mapped region member).maps_offset (mmaps region member) (by omega)

/-- The table of the log in `vhost_setup_mem_table`. -/
def loggedTable : List (MemoryRegion × Backing) :=
  [({ guestPhysAddr := 0x100000000
      memorySize := 0x1f40000000
      userspaceAddr := 0x7f09c0000000
      mmapOffset := 0xc0000000 }, { blkSize := 0x40000000, mmapAddr := 0x2aab80000000 }),
    ({ guestPhysAddr := 0
       memorySize := 0xa0000
       userspaceAddr := 0x7f0900000000
       mmapOffset := 0 }, { blkSize := 0x40000000, mmapAddr := 0x2acb80000000 })]

theorem setupMemTable_mapped_loggedTable :
    ∃ regions, setupMemTable loggedTable = some regions ∧
      (regions.map fun region => (region.hostUserAddr, region.mmapSize)) =
        [(0x2aac40000000, 0x2000000000), (0x2acb80000000, 0x40000000)] ∧ TableMapped regions := by
  have returned : setupMemTable loggedTable = some _ := rfl
  refine ⟨_, returned, rfl, (setupMemTable_mapped_iff returned ?_ ?_).mpr ?_⟩
  · simp only [loggedTable, List.forall_mem_cons, List.not_mem_nil, false_implies, implies_true,
      and_true]
    exact ⟨⟨30, rfl⟩, ⟨30, rfl⟩⟩
  · decide
  · simp only [loggedTable, List.forall_mem_cons, List.not_mem_nil, false_implies, implies_true,
      and_true]
    exact ⟨.inr (by decide), .inr (by decide)⟩

/-- A region that ends behind the last address: its offset and size add up to one block. -/
def wrappingTable : List (MemoryRegion × Backing) :=
  [({ guestPhysAddr := 0
      memorySize := 0xfffffffffffff000
      userspaceAddr := 0
      mmapOffset := 0x2000 }, { blkSize := 0x1000, mmapAddr := 0x7f0000000000 })]

/-- One block of it is mapped, and the address of its first byte is behind that block. -/
theorem wrappingTable_not_mapped :
    ∃ regions, setupMemTable wrappingTable = some regions ∧
      (∀ region ∈ regions, region.mmapAddr.toNat + region.mmapSize.toNat ≤ 2 ^ 64) ∧
      (regions.map fun region => region.mmapSize) = [0x1000] ∧
      qvaToVva regions 0 1 = (0x7f0000002000, 1) ∧ ¬ TableMapped regions := by
  refine ⟨_, rfl, by decide, rfl, rfl, fun table => ?_⟩
  have first := table.mapped _ List.mem_cons_self 0x7f0000002000 (by decide) (by decide)
  exact absurd first.2 (by decide)

end StudyNotes.VhostUser
