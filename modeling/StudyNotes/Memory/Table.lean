/-
This file states what a dispatch table holds after some pieces have been
registered, and proves that registering one more piece keeps it.

Every page is in one of three states. No piece touches it and it leads to the
unassigned section; one piece of whole pages covers it and it leads to that
piece; or it leads to a subpage, each byte of which leads to the piece that
covers it or to the unassigned section.
-/

import Mathlib.Data.List.Dedup
import Mathlib.Data.List.Perm.Subperm
import StudyNotes.Memory.PhysPageSet
import StudyNotes.Memory.Pieces

namespace StudyNotes.Memory

open Library

/-! ### Page numbers -/

variable {addr : Nat}

section Pages

variable (target : Target)

/-- The number of pages of the address space. -/
def Target.pageCount : Nat := 2 ^ (64 - target.pageBits)

theorem Target.pageSize_mul_pageCount : target.pageSize * target.pageCount = 2 ^ 64 := by
  have := target.pageBits_le
  rw [Target.pageSize, Target.pageCount, ← Nat.pow_add]
  congr 1
  omega

theorem Target.pageCount_le : target.pageCount ≤ levelStep target.levels := by
  have := target.levels_enough
  refine Nat.pow_le_pow_right (by decide) ?_
  unfold pL2Bits
  omega

theorem Target.levels_le : target.levels ≤ 8 := by
  have := target.levels_tight
  omega

theorem Target.page_lt (fits : addr < 2 ^ 64) : addr / target.pageSize < target.pageCount := by
  refine Nat.div_lt_of_lt_mul ?_
  rwa [target.pageSize_mul_pageCount]

end Pages

/-! ### The state of the table -/

/-- The section that stands for no section. -/
def unassignedSection : MemoryRegionSection :=
  { mr := .ioMemUnassigned, offsetWithinRegion := 0, size := 2 ^ 64,
    offsetWithinAddressSpace := 0, readonly := false }

/-- The section of a subpage. -/
def subpageSection (target : Target) (index page : Nat) : MemoryRegionSection :=
  { mr := .subpage index, offsetWithinRegion := 0, size := target.pageSize,
    offsetWithinAddressSpace := page * target.pageSize, readonly := false }

/-- The page in which a piece starts. -/
abbrev Piece.page (target : Target) (piece : Piece) : Nat :=
  piece.sect.offsetWithinAddressSpace / target.pageSize

/-- Where in that page a piece starts. -/
abbrev Piece.offset (target : Target) (piece : Piece) : Nat :=
  piece.sect.offsetWithinAddressSpace % target.pageSize

/-- The pages that some piece shares with others. -/
def sharedPages (target : Target) (done : List Piece) : List Nat :=
  ((done.filter fun piece => !piece.whole).map fun piece =>
    piece.sect.offsetWithinAddressSpace / target.pageSize).dedup

/-- A section index is right for an address: it names the piece there, or nothing. -/
inductive ByteOk (sections : List MemoryRegionSection) (done : List Piece) (addr : Nat) :
    Nat → Prop
  | free (none : ∀ piece ∈ done, ¬ piece.sect.Contains addr) :
    ByteOk sections done addr physSectionUnassigned
  | held (index : Nat) (piece : Piece) (member : piece ∈ done)
    (stored : sections[index]? = some piece.sect) (contains : piece.sect.Contains addr) :
    ByteOk sections done addr index

/-- A page that leads to a subpage with the right sections. -/
structure SharedPage (target : Target) (d : AddressSpaceDispatch) (done : List Piece)
    (page index : Nat) (subpage : Subpage) : Prop where
  stored : d.sections[pageSection target d.map page]? = some (subpageSection target index page)
  found : d.subpages[index]? = some subpage
  base : subpage.base = page * target.pageSize
  bytes : ∀ offset < target.pageSize,
    ByteOk d.sections done (page * target.pageSize + offset) (subpage.subSection offset)

/-- The three states of a page. -/
inductive PageOk (target : Target) (d : AddressSpaceDispatch) (done : List Piece) (page : Nat) :
    Prop
  | free (unassigned : pageSection target d.map page = physSectionUnassigned)
    (none : ∀ piece ∈ done, ∀ addr, addr / target.pageSize = page → ¬ piece.sect.Contains addr)
  | whole (piece : Piece) (member : piece ∈ done)
    (stored : d.sections[pageSection target d.map page]? = some piece.sect)
    (covers : ∀ addr, addr / target.pageSize = page → piece.sect.Contains addr)
  | shared (index : Nat) (subpage : Subpage) (shared : SharedPage target d done page index subpage)
    (touched : ∃ piece ∈ done, ∃ addr, addr / target.pageSize = page ∧ piece.sect.Contains addr)

/-- A table into which the pieces have been registered. -/
structure TableOk (target : Target) (d : AddressSpaceDispatch) (done : List Piece) : Prop where
  map : MapOk target d.map
  unassigned : d.sections[physSectionUnassigned]? = some unassignedSection
  length : d.sections.length = 4 + done.length + d.subpages.length
  nodes : d.map.nodesNb ≤ 2 * target.levels * d.sections.length
  distinct : (d.subpages.map fun subpage => subpage.base / target.pageSize).Nodup
  subpages : ∀ page, page ∈ d.subpages.map (fun subpage => subpage.base / target.pageSize) ↔
    page ∈ sharedPages target done
  sound : ∀ piece ∈ done, piece.Sound target
  pages : ∀ page < target.pageCount, PageOk target d done page

section Table

variable {target : Target} {d d' : AddressSpaceDispatch} {done done' : List Piece} {piece : Piece}
  {page index : Nat} {On : Nat → Prop} {extra sections : List MemoryRegionSection}

/-- There are as many subpages as shared pages. -/
theorem length_subpages
    (distinct : (d.subpages.map fun subpage => subpage.base / target.pageSize).Nodup)
    (subpages : ∀ page, page ∈ d.subpages.map (fun subpage => subpage.base / target.pageSize) ↔
      page ∈ sharedPages target done) :
    d.subpages.length = (sharedPages target done).length := by
  have same := (List.perm_ext_iff_of_nodup distinct (List.nodup_dedup _)).mpr subpages
  have := same.length_eq
  rwa [List.length_map] at this

theorem sound_append (ok : ∀ other ∈ done, other.Sound target) (sound : piece.Sound target) :
    ∀ other ∈ done ++ [piece], other.Sound target :=
  List.forall_mem_append.mpr ⟨ok, List.forall_mem_singleton.mpr sound⟩

/-- The node limit is far away. -/
theorem Target.room_of_nodes_le (target : Target) {map : PhysMap} {count : Nat}
    (nodes : map.nodesNb ≤ 2 * target.levels * count) (few : count ≤ target.pageSize) :
    map.nodesNb + 2 * target.levels ≤ physMapNodeNil := by
  have small := target.pageSize_le
  have levels := target.levels_le
  have bound : 2 * target.levels * count ≤ 2 * 8 * 2 ^ 16 :=
    Nat.mul_le_mul (Nat.mul_le_mul_left 2 levels) (Nat.le_trans few small)
  unfold physMapNodeNil
  omega

theorem TableOk.room (ok : TableOk target d done) (few : d.sections.length ≤ target.pageSize) :
    d.map.nodesNb + 2 * target.levels ≤ physMapNodeNil :=
  target.room_of_nodes_le ok.nodes few

/-- Each section may take two nodes of every level. -/
theorem nodes_append {nodes more : Nat} (enough : nodes ≤ 2 * target.levels * sections.length)
    (few : more ≤ nodes + 2 * target.levels) (sect : MemoryRegionSection) :
    more ≤ 2 * target.levels * (sections ++ [sect]).length := by
  rw [List.length_append, List.length_singleton, Nat.mul_add, Nat.mul_one]
  omega

/-- A stored section stays stored when sections are added. -/
theorem stored_append {sect : MemoryRegionSection} (stored : sections[index]? = some sect) :
    (sections ++ extra)[index]? = some sect := by
  have inside := (List.getElem?_eq_some_iff.mp stored).1
  rwa [List.getElem?_append_left inside]

/-- The pieces of the first list and, on some addresses, no others. -/
def Extends (done done' : List Piece) (On : Nat → Prop) : Prop :=
  (∀ piece ∈ done, piece ∈ done') ∧
    ∀ piece ∈ done', piece ∈ done ∨ ∀ addr, On addr → ¬ piece.sect.Contains addr

theorem Extends.refl (done : List Piece) (On : Nat → Prop) : Extends done done On :=
  ⟨fun _ member => member, fun _ member => Or.inl member⟩

theorem Extends.append (outside : ∀ addr, On addr → ¬ piece.sect.Contains addr) :
    Extends done (done ++ [piece]) On := by
  refine ⟨fun other member => List.mem_append_left _ member, ?_⟩
  exact List.forall_mem_append.mpr
    ⟨fun _ old => Or.inl old, List.forall_mem_singleton.mpr (Or.inr outside)⟩

theorem Extends.none (extends' : Extends done done' On) (on : On addr)
    (none : ∀ piece ∈ done, ¬ piece.sect.Contains addr) :
    ∀ piece ∈ done', ¬ piece.sect.Contains addr :=
  fun piece member => (extends'.2 piece member).elim (none piece) fun outside => outside addr on

/-- Further sections do not matter, and further pieces not for an address outside them. -/
theorem ByteOk.keep (ok : ByteOk sections done addr index) (extra : List MemoryRegionSection)
    (extends' : Extends done done' On) (on : On addr) :
    ByteOk (sections ++ extra) done' addr index := by
  cases ok with
  | free none => exact .free (extends'.none on none)
  | held _ other member stored contains =>
    exact .held index other (extends'.1 other member) (stored_append stored) contains

theorem offset_page (page : Nat) {offset : Nat} (inside : offset < target.pageSize) :
    (page * target.pageSize + offset) / target.pageSize = page := by
  rw [Nat.mul_comm, Nat.mul_add_div target.pageSize_pos, Nat.div_eq_of_lt inside, Nat.add_zero]

/-- A page that no further piece touches keeps its state, as long as the table still has the
same entries for it. -/
theorem PageOk.keep (ok : PageOk target d done page) (sections : d'.sections = d.sections ++ extra)
    (entry : pageSection target d'.map page = pageSection target d.map page)
    (subpages : ∀ (index : Nat) (subpage : Subpage), d.subpages[index]? = some subpage →
      subpage.base = page * target.pageSize → d'.subpages[index]? = some subpage)
    (extends' : Extends done done' fun addr => addr / target.pageSize = page) :
    PageOk target d' done' page := by
  cases ok with
  | free unassigned none =>
    exact .free (entry.trans unassigned) fun other member addr inPage =>
      extends'.none inPage (fun piece old => none piece old addr inPage) other member
  | whole other member stored covers =>
    refine .whole other (extends'.1 other member) ?_ covers
    rw [entry, sections]
    exact stored_append stored
  | shared index subpage shared touched =>
    refine .shared index subpage ⟨?_, subpages index subpage shared.found shared.base, shared.base,
      fun offset inside => ?_⟩ ?_
    · rw [entry, sections]
      exact stored_append shared.stored
    · rw [sections]
      exact (shared.bytes offset inside).keep extra extends' (offset_page page inside)
    · obtain ⟨other, member, rest⟩ := touched
      exact ⟨other, extends'.1 other member, rest⟩

theorem mem_sharedPages (page : Nat) :
    page ∈ sharedPages target done ↔
      ∃ piece ∈ done, piece.whole = false ∧ piece.page target = page := by
  simp [sharedPages, and_assoc]

theorem mem_sharedPages_append (page : Nat) :
    page ∈ sharedPages target (done ++ [piece]) ↔
      page ∈ sharedPages target done ∨ piece.whole = false ∧ piece.page target = page := by
  simp [mem_sharedPages, or_and_right, exists_or]

/-! ### Registering whole pages -/

theorem physSectionAdd_ok (d : AddressSpaceDispatch) (room : d.sections.length < target.pageSize)
    (sect : MemoryRegionSection) :
    physSectionAdd target d sect =
      .ok (d.sections.length, { d with sections := d.sections ++ [sect] }) := by
  have := target.pageSize_le
  rw [physSectionAdd, if_pos room, Nat.mod_eq_of_lt (by omega)]

section

variable (sound : piece.Sound target) (whole : piece.whole = true)
include sound whole

theorem Piece.Sound.whole_mul :
    piece.page target * target.pageSize = piece.sect.offsetWithinAddressSpace ∧
      piece.sect.size.toNat / target.pageSize * target.pageSize = piece.sect.size.toNat := by
  obtain ⟨aligned, pages⟩ := sound.whole whole
  exact ⟨Nat.div_mul_cancel (Nat.dvd_of_mod_eq_zero aligned), Nat.div_mul_cancel pages⟩

/-- The pages of a piece of whole pages. -/
theorem Piece.Sound.contains_whole (addr : Nat) :
    piece.sect.Contains addr ↔ piece.page target ≤ addr / target.pageSize ∧
      addr / target.pageSize < piece.page target + piece.sect.size.toNat / target.pageSize := by
  have positive := target.pageSize_pos
  obtain ⟨start, size⟩ := sound.whole_mul whole
  rw [Nat.le_div_iff_mul_le positive, Nat.div_lt_iff_lt_mul positive, Nat.add_mul, start, size,
    MemoryRegionSection.Contains]
  omega

/-- The pages of a piece lie in the address space. -/
theorem Piece.Sound.pages_le :
    0 < piece.sect.size.toNat / target.pageSize ∧
      piece.page target + piece.sect.size.toNat / target.pageSize ≤ target.pageCount := by
  have positive := target.pageSize_pos
  obtain ⟨start, size⟩ := sound.whole_mul whole
  have nonempty := sound.valid.nonempty
  have fits := sound.valid.fits
  have count := target.pageSize_mul_pageCount
  constructor
  · exact Nat.div_pos (Nat.le_of_dvd (by omega) (sound.whole whole).2) positive
  · refine Nat.le_of_mul_le_mul_right ?_ positive
    rw [Nat.add_mul, start, size, Nat.mul_comm target.pageCount, count]
    omega

end

/-- A page that a new piece covers whole is still free. -/
theorem PageOk.free_of_covered (ok : PageOk target d done page)
    (covered : ∀ addr, addr / target.pageSize = page → piece.sect.Contains addr)
    (disjoint : ∀ other ∈ done, other.sect.Disjoint piece.sect) :
    pageSection target d.map page = physSectionUnassigned := by
  cases ok with
  | free unassigned none => exact unassigned
  | whole other member stored covers =>
    have first : page * target.pageSize / target.pageSize = page :=
      Nat.mul_div_cancel _ target.pageSize_pos
    exact absurd ⟨covers _ first, covered _ first⟩ (disjoint other member _)
  | shared index subpage shared touched =>
    obtain ⟨other, member, addr, inPage, contains⟩ := touched
    exact absurd ⟨contains, covered addr inPage⟩ (disjoint other member addr)

theorem registerMultipage_ok (ok : TableOk target d done) (sound : piece.Sound target)
    (whole : piece.whole = true) (disjoint : ∀ other ∈ done, other.sect.Disjoint piece.sect)
    (room : d.sections.length < target.pageSize) :
    ∃ d', registerMultipage target d piece.sect = .ok d' ∧ TableOk target d' (done ++ [piece]) := by
  obtain ⟨some, pagesLe⟩ := sound.pages_le whole
  have count := target.pageCount_le
  have length := ok.length
  have small := target.pageSize_le
  have contains := sound.contains_whole whole
  obtain ⟨map, set, mapOk, nodes, walks⟩ := physPageSet_spec target ok.map
    (piece.page target) (piece.sect.size.toNat / target.pageSize) d.sections.length
    (by unfold physSectionUnassigned; omega) (by omega) some (by omega)
    (fun page lower upper => (ok.pages page (by omega)).free_of_covered
      (fun addr inPage => (contains addr).mpr (by omega)) disjoint) (ok.room (Nat.le_of_lt room))
  refine ⟨{ d with map, sections := d.sections ++ [piece.sect] }, ?_, ?_⟩
  · rw [registerMultipage, physSectionAdd_ok _ room, ok_bind]
    simp only [set, ok_bind]
    rfl
  · refine ⟨mapOk, stored_append ok.unassigned, ?_, ?_, ok.distinct, fun page => ?_,
      sound_append ok.sound sound, fun page inside => ?_⟩
    · simp only [List.length_append, List.length_singleton]
      omega
    · exact nodes_append ok.nodes nodes _
    · rw [ok.subpages page, mem_sharedPages_append, whole]
      simp
    · have entry := walks page (by omega)
      by_cases mine : piece.page target ≤ page ∧
          page < piece.page target + piece.sect.size.toNat / target.pageSize
      · rw [if_pos mine] at entry
        refine .whole piece (by simp) ?_ fun addr inPage => (contains addr).mpr (by omega)
        rw [entry]
        simp
      · rw [if_neg mine] at entry
        exact (ok.pages page inside).keep rfl entry (fun _ _ found _ => found)
          (.append fun addr inPage within => mine (inPage ▸ (contains addr).mp within))

/-! ### Registering a part of a page -/

theorem registerBytes_eq (sect count idx : Nat) (subSection : Nat → Nat) (i : Nat) :
    registerBytes sect count idx subSection i =
      if idx ≤ i ∧ i < idx + count then sect else subSection i := by
  induction count generalizing idx subSection with
  | zero => rw [registerBytes, if_neg (by omega)]
  | succ count inductionHypothesis =>
    rw [registerBytes, inductionHypothesis]
    by_cases first : i = idx
    · rw [if_neg (by omega), if_pos first, if_pos (by omega)]
    · rw [if_neg first]
      by_cases later : idx + 1 ≤ i ∧ i < idx + 1 + count
      · rw [if_pos later, if_pos (by omega)]
      · rw [if_neg later, if_neg (by omega)]

theorem subpageRegister_subSection (mmio : Subpage) {start stop : Nat}
    (order : start ≤ stop) (inside : stop < target.pageSize) (sect i : Nat) :
    (subpageRegister target mmio start stop sect).2.subSection i =
      if start ≤ i ∧ i ≤ stop then sect else mmio.subSection i := by
  rw [subpageRegister, if_neg (by omega)]
  simp only [registerBytes_eq, target.pageOffset_eq, Nat.mod_eq_of_lt inside,
    Nat.mod_eq_of_lt (Nat.lt_of_le_of_lt order inside)]
  congr 1
  simp only [eq_iff_iff]
  omega

theorem subpageRegister_base (target : Target) (mmio : Subpage) (start stop sect : Nat) :
    (subpageRegister target mmio start stop sect).2.base = mmio.base := by
  rw [subpageRegister]
  split
  · rfl
  · rfl

theorem subpageInit_subSection (base i : Nat) :
    (subpageInit target base).subSection i = physSectionUnassigned := by
  have positive := target.pageSize_pos
  rw [subpageInit, subpageRegister_subSection _ (Nat.zero_le _) (by omega)]
  split
  · rfl
  · rfl

/-- A table in which a page has its subpage, although no piece may touch the page yet. -/
structure TableReady (target : Target) (d : AddressSpaceDispatch) (done : List Piece)
    (page index : Nat) (subpage : Subpage) : Prop where
  map : MapOk target d.map
  unassigned : d.sections[physSectionUnassigned]? = some unassignedSection
  length : d.sections.length = 4 + done.length + d.subpages.length
  nodes : d.map.nodesNb ≤ 2 * target.levels * d.sections.length
  distinct : (d.subpages.map fun subpage => subpage.base / target.pageSize).Nodup
  subpages : ∀ other, other ∈ d.subpages.map (fun subpage => subpage.base / target.pageSize) ↔
    other ∈ sharedPages target done ∨ other = page
  shared : SharedPage target d done page index subpage
  pages : ∀ other < target.pageCount, other ≠ page → PageOk target d done other

section

variable (ok : TableOk target d done)
  (none : ∀ piece ∈ done, ∀ addr, addr / target.pageSize = page → ¬ piece.sect.Contains addr)
include ok none

/-- A page without a piece has no subpage. -/
theorem TableOk.not_mem_subpages :
    page ∉ d.subpages.map (fun subpage => subpage.base / target.pageSize) := by
  rw [ok.subpages page, mem_sharedPages]
  rintro ⟨piece, member, -, inPage⟩
  have nonempty := (ok.sound piece member).valid.nonempty
  refine none piece member _ inPage ⟨Int.le_refl _, ?_⟩
  omega

/-- A free page gets a subpage. -/
theorem findSubpage_free (inside : page < target.pageCount)
    (unassigned : pageSection target d.map page = physSectionUnassigned)
    (room : d.sections.length < target.pageSize) :
    ∃ d' index subpage, findSubpage target d (page * target.pageSize) unassignedSection =
      .ok (index, d') ∧ TableReady target d' done page index subpage := by
  have count := target.pageCount_le
  have length := ok.length
  have small := target.pageSize_le
  have positive := target.pageSize_pos
  have pageEq : page * target.pageSize / target.pageSize = page := Nat.mul_div_cancel _ positive
  have base : (subpageInit target (page * target.pageSize)).base = page * target.pageSize :=
    subpageRegister_base _ _ _ _ _
  obtain ⟨map, set, mapOk, nodes, walks⟩ := physPageSet_spec target ok.map page 1
    d.sections.length (by unfold physSectionUnassigned; omega) (by omega) Nat.one_pos (by omega)
    (fun other lower upper => by rwa [show other = page by omega]) (ok.room (Nat.le_of_lt room))
  refine ⟨{ map
            sections := d.sections ++ [subpageSection target d.subpages.length page]
            subpages := d.subpages ++ [subpageInit target (page * target.pageSize)] },
    d.subpages.length, subpageInit target (page * target.pageSize), ?_, ?_⟩
  · simp only [findSubpage, unassignedSection]
    rw [physSectionAdd_ok
      { d with subpages := d.subpages ++ [subpageInit target (page * target.pageSize)] } room,
      ok_bind]
    simp only [pageEq, set, ok_bind]
    rfl
  · refine ⟨mapOk, stored_append ok.unassigned, ?_, ?_, ?_, fun other => ?_, ⟨?_, ?_, base, ?_⟩,
      fun other within apart => ?_⟩
    · simp only [List.length_append, List.length_singleton]
      omega
    · exact nodes_append ok.nodes nodes _
    · rw [List.map_append, List.map_singleton, base, pageEq]
      exact List.nodup_append'.mpr ⟨ok.distinct, List.nodup_singleton _, by
        simpa using ok.not_mem_subpages none⟩
    · rw [List.map_append, List.map_singleton, base, pageEq, List.mem_append, ok.subpages other,
        List.mem_singleton]
    · rw [walks page (by omega), if_pos (by omega)]
      simp
    · simp
    · intro offset within
      rw [subpageInit_subSection]
      exact .free fun piece member => none piece member _ (offset_page page within)
    · refine (ok.pages other within).keep rfl ?_ (fun index subpage found _ => ?_) (.refl done _)
      · rw [walks other (by omega), if_neg (by omega)]
      · have bound := (List.getElem?_eq_some_iff.mp found).1
        rwa [List.getElem?_append_left bound]

end

section

variable (sound : piece.Sound target) (part : piece.whole = false)
include sound part

/-- The page of a piece inside one page. -/
theorem Piece.Sound.contains_part (addr : Nat) :
    piece.sect.Contains addr ↔ addr / target.pageSize = piece.page target ∧
      piece.offset target ≤ addr % target.pageSize ∧
      addr % target.pageSize < piece.offset target + piece.sect.size.toNat := by
  have positive := target.pageSize_pos
  have inPage : piece.offset target + _ ≤ target.pageSize := sound.inPage part
  have start : target.pageSize * piece.page target + piece.offset target = _ :=
    Nat.div_add_mod _ _
  have here := Nat.div_add_mod addr target.pageSize
  rw [MemoryRegionSection.Contains]
  constructor
  · rintro ⟨lower, upper⟩
    have same : addr / target.pageSize = piece.page target := by
      refine Nat.le_antisymm (Nat.le_of_lt_succ (Nat.div_lt_of_lt_mul ?_))
        (Nat.div_le_div_right (by omega))
      rw [Nat.succ_eq_add_one, Nat.mul_add, Nat.mul_one]
      omega
    rw [same] at here
    omega
  · rintro ⟨same, lower, upper⟩
    rw [same] at here
    omega

/-- The page of a piece inside it has a subpage, or gets one. -/
theorem findSubpage_ok (ok : TableOk target d done)
    (disjoint : ∀ other ∈ done, other.sect.Disjoint piece.sect)
    (room : 4 + done.length + (sharedPages target (done ++ [piece])).length ≤ target.pageSize) :
    ∃ existing d' index subpage,
      physPageFind target d (piece.page target * target.pageSize) = some existing ∧
      findSubpage target d (piece.page target * target.pageSize) existing = .ok (index, d') ∧
      TableReady target d' done (piece.page target) index subpage := by
  have positive := target.pageSize_pos
  have fits := sound.valid.fits
  have nonempty := sound.valid.nonempty
  have inside : piece.page target < target.pageCount := target.page_lt (by omega)
  have contains : piece.sect.Contains piece.sect.offsetWithinAddressSpace :=
    ⟨Int.le_refl _, by omega⟩
  generalize pageEq : piece.page target = page at *
  have back : page * target.pageSize / target.pageSize = page := Nat.mul_div_cancel _ positive
  cases ok.pages page inside with
  | free unassigned none =>
    have fewer : d.sections.length < target.pageSize := by
      have length := ok.length
      have grown : (page :: d.subpages.map fun subpage =>
          subpage.base / target.pageSize).length ≤
            (sharedPages target (done ++ [piece])).length := by
        refine (List.Nodup.subperm (List.nodup_cons.mpr
          ⟨ok.not_mem_subpages none, ok.distinct⟩) fun other member => ?_).length_le
        rw [mem_sharedPages_append]
        rcases List.mem_cons.mp member with rfl | old
        · exact Or.inr ⟨part, pageEq⟩
        · exact Or.inl ((ok.subpages other).mp old)
      rw [List.length_cons, List.length_map] at grown
      omega
    obtain ⟨d', index, subpage, result, ready⟩ := findSubpage_free ok none inside unassigned fewer
    refine ⟨unassignedSection, d', index, subpage, ?_, result, ready⟩
    rw [pageSection] at unassigned
    rw [physPageFind, back, unassigned, ok.unassigned]
    rfl
  | whole other member stored covers =>
    exact absurd ⟨covers _ pageEq, contains⟩ (disjoint other member _)
  | shared index subpage shared touched =>
    refine ⟨subpageSection target index page, d, index, subpage, ?_, rfl, ok.map, ok.unassigned,
      ok.length, ok.nodes, ok.distinct, fun other => ?_, shared,
      fun other within _ => ok.pages other within⟩
    · have stored := shared.stored
      rw [pageSection] at stored
      have covered : (subpageSection target index page).Contains (page * target.pageSize) := by
        refine ⟨Int.le_refl _, ?_⟩
        simp only [subpageSection]
        omega
      simp only [physPageFind, back, stored, Option.bind_eq_bind, Option.bind_some, covered,
        or_true, if_true]
    · rw [ok.subpages other, iff_self_or]
      rintro rfl
      rw [← ok.subpages, ← back, ← shared.base]
      exact List.mem_map.mpr ⟨subpage, List.mem_of_getElem? shared.found, rfl⟩

/-- A ready table after a piece has been given the bytes it covers. -/
theorem TableReady.register {subpage : Subpage}
    (ready : TableReady target d done page index subpage) (ok : ∀ other ∈ done, other.Sound target)
    (own : piece.page target = page) {subpage' : Subpage} (base : subpage'.base = subpage.base)
    (bytes : ∀ offset, subpage'.subSection offset =
      if piece.offset target ≤ offset ∧ offset < piece.offset target + piece.sect.size.toNat
      then d.sections.length else subpage.subSection offset) :
    TableOk target
      { d with
        sections := d.sections ++ [piece.sect]
        subpages := d.subpages.set index subpage' } (done ++ [piece]) := by
  have positive := target.pageSize_pos
  have nonempty := sound.valid.nonempty
  have contains := sound.contains_part part
  have shared := ready.shared
  have pagesSame : (d.subpages.set index subpage').map (fun subpage =>
      subpage.base / target.pageSize) =
        d.subpages.map fun subpage => subpage.base / target.pageSize := by
    obtain ⟨passed, rest, isItems, isIndex⟩ := exists_cursor shared.found
    rw [isItems, ← isIndex, set_cursor]
    simp [base]
  have bound := (List.getElem?_eq_some_iff.mp shared.found).1
  refine ⟨ready.map, stored_append ready.unassigned, ?_, ?_, ?_, fun other => ?_, ?_,
    fun other within => ?_⟩
  · have := ready.length
    simp only [List.length_append, List.length_singleton, List.length_set]
    omega
  · exact nodes_append ready.nodes (Nat.le_add_right _ _) _
  · simp only [pagesSame]
    exact ready.distinct
  · simp only [pagesSame]
    rw [ready.subpages other, mem_sharedPages_append, and_iff_right part, own, eq_comm]
  · exact sound_append ok sound
  · by_cases here : other = page
    · subst here
      refine .shared index subpage' ⟨stored_append shared.stored, ?_, base.trans shared.base,
        fun offset inside => ?_⟩ ⟨piece, by simp, piece.sect.offsetWithinAddressSpace, own,
          Int.le_refl _, by omega⟩
      · simp only [List.getElem?_set_self bound]
      · have remainder : (other * target.pageSize + offset) % target.pageSize = offset := by
          rw [Nat.mul_comm, Nat.mul_add_mod_self_left, Nat.mod_eq_of_lt inside]
        rw [bytes offset]
        split
        · next mine =>
          refine .held _ piece (by simp) (by simp) ((contains _).mpr ?_)
          rw [offset_page other inside, own, remainder]
          exact ⟨rfl, mine⟩
        · next others =>
          have outside : Extends done (done ++ [piece]) (· = other * target.pageSize + offset) := by
            refine .append fun addr same within => ?_
            rw [contains, same, remainder] at within
            exact others within.2
          exact (shared.bytes offset inside).keep _ outside rfl
    · refine (ready.pages other within here).keep rfl rfl (fun index' subpage'' found baseEq => ?_)
        (.append fun addr inPage covered => here ?_)
      · have apart : index ≠ index' := by
          rintro rfl
          rw [shared.found] at found
          cases found
          rw [shared.base] at baseEq
          exact here (Nat.eq_of_mul_eq_mul_right positive baseEq).symm
        simp only [List.getElem?_set_ne apart]
        exact found
      · rw [← inPage, ((contains addr).mp covered).1, own]

theorem registerSubpage_ok {host : Host} (gets : host.Gets64) (ok : TableOk target d done)
    (disjoint : ∀ other ∈ done, other.sect.Disjoint piece.sect)
    (room : 4 + done.length + (sharedPages target (done ++ [piece])).length < target.pageSize) :
    ∃ d', registerSubpage host target d piece.sect = .ok d' ∧
      TableOk target d' (done ++ [piece]) := by
  have positive := target.pageSize_pos
  have small := target.pageSize_le
  have fits := sound.valid.fits
  have nonempty := sound.valid.nonempty
  have inPage : piece.offset target + _ ≤ target.pageSize := sound.inPage part
  have base : target.pageMask piece.sect.offsetWithinAddressSpace =
      piece.page target * target.pageSize := target.pageMask_eq (by omega)
  obtain ⟨existing, d₁, index, subpage, found, result, ready⟩ :=
    findSubpage_ok sound part ok disjoint (Nat.le_of_lt room)
  have pagesLength := length_subpages ready.distinct fun page => by
    rw [ready.subpages page, mem_sharedPages_append, and_iff_right part, eq_comm]
  have fewer : d₁.sections.length < target.pageSize := by
    have := ready.length
    omega
  have word : (host.int128Get64 piece.sect.size).toNat = piece.sect.size.toNat := by
    rw [gets _ (by omega) (by omega), BitVec.toNat_ofInt]
    omega
  have stop : Word.sub 64 (Word.add 64 (piece.offset target) piece.sect.size.toNat) 1 =
      piece.offset target + piece.sect.size.toNat - 1 := by
    rw [Word.add_of_lt (by omega), Word.sub_of_le (by omega) (by omega)]
  have narrowStart : piece.offset target % 2 ^ 32 = piece.offset target :=
    Nat.mod_eq_of_lt (by omega)
  have narrowStop : (piece.offset target + piece.sect.size.toNat - 1) % 2 ^ 32 =
      piece.offset target + piece.sect.size.toNat - 1 := Nat.mod_eq_of_lt (by omega)
  refine ⟨_, ?_, ready.register sound part ok.sound rfl (subpageRegister_base target subpage
    (piece.offset target) (piece.offset target + piece.sect.size.toNat - 1) d₁.sections.length)
    fun offset => ?_⟩
  · simp only [registerSubpage, base, found, result, ok_bind, target.pageOffset_eq, word, stop]
    rw [physSectionAdd_ok d₁ fewer, ok_bind]
    simp only [ready.shared.found, narrowStart, narrowStop]
    rfl
  · have bounds : (piece.offset target ≤ offset ∧
        offset ≤ piece.offset target + piece.sect.size.toNat - 1) ↔
        (piece.offset target ≤ offset ∧ offset < piece.offset target + piece.sect.size.toNat) := by
      omega
    rw [subpageRegister_subSection subpage (by omega) (by omega)]
    simp only [bounds]

end

end Table

end StudyNotes.Memory
