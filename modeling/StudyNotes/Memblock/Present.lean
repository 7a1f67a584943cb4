/-
This file proves which sections of the sparse memory model `memory_present` marks for a region.
Bounds are in the supported physical range, so the page numbers do not wrap and
`mminit_validate_memmodel_limits` changes nothing.
-/

import StudyNotes.Memblock.Region

namespace StudyNotes.Memblock

def pageSize : Nat := 4096

def pagesPerSection : Nat := 262144

variable (rgn : MemblockRegion)

/-- `memblock_region_memory_base_pfn`. -/
def MemblockRegion.basePfn : Nat := (rgn.base + pageSize - 1) / pageSize

/-- `memblock_region_memory_end_pfn`. -/
def MemblockRegion.endPfn : Nat := rgn.rend / pageSize

/-- A turn of the loop of `memory_present`, on `section_mem_map` by section number. -/
def markSection (memMap : Nat → Nat) (nid number : Nat) : Nat → Nat :=
  if memMap number = 0 then Function.update memMap number (nid <<< 2 ||| 1) else memMap

/-- The loop of `memory_present`. -/
def markFrom (memMap : Nat → Nat) (nid pfn stop : Nat) : Nat → Nat :=
  if pfn < stop then
    markFrom (markSection memMap nid (pfn / pagesPerSection)) nid (pfn + pagesPerSection) stop
  else memMap
termination_by stop - pfn
decreasing_by grind [pagesPerSection]

/-- The first page of the section of a page. -/
def sectionStart (pfn : Nat) : Nat := pfn - pfn % pagesPerSection

def memoryPresent (nid start stop : Nat) (memMap : Nat → Nat) : Nat → Nat :=
  markFrom memMap nid (sectionStart start) stop

/-- The section is marked with `SECTION_MARKED_PRESENT`. -/
def Present (memMap : Nat → Nat) (number : Nat) : Prop := (memMap number).testBit 0 = true

/-- A whole page of the region lies in the section. -/
def MemblockRegion.HasPage (number : Nat) : Prop :=
  ∃ pfn, pfn / pagesPerSection = number ∧
    rgn.base ≤ pfn * pageSize ∧ (pfn + 1) * pageSize ≤ rgn.rend

/-- The call for a region marks the sections that hold a whole page of it, and no others. -/
def MarksExactly : Prop :=
  ∀ memMap : Nat → Nat, (∀ number, memMap number = 0 ∨ Present memMap number) → ∀ number,
    (Present (memoryPresent 0 rgn.basePfn rgn.endPfn memMap) number ↔
      Present memMap number ∨ rgn.HasPage number)

variable {rgn} {memMap : Nat → Nat} {nid pfn start stop number : Nat}

theorem markFrom_present (aligned : pfn % pagesPerSection = 0)
    (marked : memMap number = 0 ∨ Present memMap number) :
    Present (markFrom memMap nid pfn stop) number ↔ Present memMap number ∨
      pfn ≤ number * pagesPerSection ∧ number * pagesPerSection < stop := by
  fun_induction markFrom memMap nid pfn stop with
  | case1 memMap pfn less inductionHypothesis =>
    let next := markSection memMap nid (pfn / pagesPerSection)
    have turn : (Present next number ↔ Present memMap number ∨ number = pfn / pagesPerSection) ∧
        (next number = 0 ∨ Present next number) := by
      simp only [next, markSection, Present] at marked ⊢
      grind
    rw [inductionHypothesis (by simp [aligned]) turn.2, turn.1, or_assoc]
    refine or_congr_right ?_
    simp only [pagesPerSection] at *
    omega
  | case2 memMap pfn done => exact (or_iff_left (by omega)).symm

theorem memoryPresent_present (marked : memMap number = 0 ∨ Present memMap number) :
    Present (memoryPresent nid start stop memMap) number ↔ Present memMap number ∨
      sectionStart start ≤ number * pagesPerSection ∧ number * pagesPerSection < stop :=
  markFrom_present (by simp only [sectionStart, pagesPerSection]; omega) marked

theorem MemblockRegion.hasPage_iff : rgn.HasPage number ↔
    ∃ pfn, pfn / pagesPerSection = number ∧ rgn.basePfn ≤ pfn ∧ pfn < rgn.endPfn := by
  simp only [HasPage, basePfn, endPfn, pageSize]
  refine exists_congr fun pfn => ?_
  omega

theorem not_marksExactly (noPage : rgn.endPfn ≤ rgn.basePfn)
    (behind : sectionStart rgn.basePfn < rgn.endPfn) : ¬ MarksExactly rgn := by
  intro exact
  -- Without sections from other regions, the one of the first page is marked.
  have fresh := exact (fun _ => 0) (fun _ => .inl rfl) (rgn.basePfn / pagesPerSection)
  rw [memoryPresent_present (.inl rfl), MemblockRegion.hasPage_iff] at fresh
  have reached : sectionStart rgn.basePfn = rgn.basePfn / pagesPerSection * pagesPerSection := by
    simp only [sectionStart, pagesPerSection]
    omega
  obtain ⟨pfn, -, first, last⟩ := (fresh.mp (.inr (by omega))).resolve_left (by simp [Present])
  omega

/--
The call for a region marks the right sections, unless the region has no whole page and ends
behind the start of the section that its first page is rounded down to.
-/
theorem marksExactly_iff (rgn : MemblockRegion) : MarksExactly rgn ↔
    rgn.basePfn < rgn.endPfn ∨ rgn.endPfn ≤ sectionStart rgn.basePfn := by
  constructor
  · intro exact
    by_contra! none
    exact not_marksExactly none.1 none.2 exact
  · intro pages memMap marked number
    rw [memoryPresent_present (marked number), MemblockRegion.hasPage_iff]
    refine or_congr_right ⟨fun reached => ?_, fun ⟨pfn, isNumber, first, last⟩ => ?_⟩
    · refine ⟨max rgn.basePfn (number * pagesPerSection), ?_⟩
      simp only [sectionStart, pagesPerSection] at *
      omega
    · simp only [sectionStart, pagesPerSection] at *
      omega

/-- The bytes 0x1100 to 0x11ff hold no whole page, but section 0 is marked. -/
theorem not_marksExactly_small : ¬ MarksExactly ⟨0x1100, 0x100, 0, 0⟩ :=
  not_marksExactly (by decide) (by decide)

end StudyNotes.Memblock
