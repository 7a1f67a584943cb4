/-
This file proves that the dispatch table is right. For disjoint sections that do
not exhaust the section numbers, `mem_begin` and a `mem_add` for each section
succeed: no assertion fails, no loop outlives its bound and the nodes reserved
for each range of pages are enough. Afterwards every address leads to the piece
of the section that contains it, and to the unassigned section when none does.
-/

import Mathlib.Data.List.Pairwise
import StudyNotes.Memory.Table

namespace StudyNotes.Memory

open Library

variable {host : Host}

section Table

variable {target : Target} {d : AddressSpaceDispatch} {done : List Piece}

/-! ### Looking up in a table -/

/-- What an address leads to: a piece that contains it, or the unassigned section. -/
theorem TableOk.lookup (ok : TableOk target d done) {addr : Nat} (fits : addr < 2 ^ 64) :
    (∃ piece ∈ done, piece.sect.Contains addr ∧
        dispatchLookup target d addr = some piece.sect) ∨
      ((∀ piece ∈ done, ¬ piece.sect.Contains addr) ∧
        dispatchLookup target d addr = some unassignedSection) := by
  have positive := target.pageSize_pos
  have split := Nat.div_add_mod' addr target.pageSize
  have below := Nat.mod_lt addr positive
  cases ok.pages (addr / target.pageSize) (target.page_lt fits) with
  | free unassigned none =>
    refine Or.inr ⟨fun piece member => none piece member addr rfl, ?_⟩
    rw [pageSection] at unassigned
    simp only [dispatchLookup, physPageFind, unassigned, ok.unassigned, Option.bind_eq_bind,
      Option.bind_some]
    rfl
  | whole piece member stored covers =>
    have contains := covers addr rfl
    obtain ⟨id, guest⟩ := (ok.sound piece member).valid.mr
    refine Or.inl ⟨piece, member, contains, ?_⟩
    rw [pageSection] at stored
    simp only [dispatchLookup, physPageFind, stored, Option.bind_eq_bind, Option.bind_some,
      contains, or_true, if_true, guest]
  | shared index subpage shared touched =>
    have stored := shared.stored
    rw [pageSection] at stored
    have covered : (subpageSection target index (addr / target.pageSize)).Contains addr := by
      simp only [MemoryRegionSection.Contains, subpageSection]
      omega
    have result : dispatchLookup target d addr =
        d.sections[subpage.subSection (addr % target.pageSize)]? := by
      simp only [dispatchLookup, physPageFind, stored, Option.bind_eq_bind, Option.bind_some,
        covered, or_true, if_true, target.pageOffset_eq]
      simp only [subpageSection, shared.found, Option.bind_some]
    have byte := shared.bytes (addr % target.pageSize) below
    rw [split] at byte
    generalize subpage.subSection (addr % target.pageSize) = sect at byte result
    cases byte with
    | free none => exact Or.inr ⟨none, result.trans ok.unassigned⟩
    | held _ piece member stored contains =>
      exact Or.inl ⟨piece, member, contains, result.trans stored⟩

/-! ### Registering all pieces -/

theorem registerPiece_ok (gets : host.Gets64) (ok : TableOk target d done) {piece : Piece}
    (sound : piece.Sound target) (disjoint : ∀ other ∈ done, other.sect.Disjoint piece.sect)
    (room : 4 + done.length + (sharedPages target (done ++ [piece])).length < target.pageSize) :
    ∃ d', registerPiece host target d piece = .ok d' ∧ TableOk target d' (done ++ [piece]) := by
  rw [registerPiece]
  cases whole : piece.whole with
  | true =>
    refine registerMultipage_ok ok sound whole disjoint ?_
    have length := ok.length
    have count := length_subpages ok.distinct ok.subpages
    have same : sharedPages target (done ++ [piece]) = sharedPages target done := by
      simp [sharedPages, whole]
    rw [same] at room
    omega
  | false => exact registerSubpage_ok sound whole gets ok disjoint room

/-- Fewer pieces share fewer pages. -/
theorem sharedPages_le (target : Target) (done rest : List Piece) :
    (sharedPages target done).length ≤ (sharedPages target (done ++ rest)).length := by
  refine (List.Nodup.subperm (List.nodup_dedup _) fun page member => ?_).length_le
  obtain ⟨piece, old, shares⟩ := (mem_sharedPages page).mp member
  exact (mem_sharedPages page).mpr ⟨piece, List.mem_append_left _ old, shares⟩

/-- Registering pieces one after the other keeps the table right. -/
theorem registerPieces_ok (gets : host.Gets64) (rest : List Piece) (ok : TableOk target d done)
    (sound : ∀ piece ∈ rest, piece.Sound target)
    (disjoint : (done ++ rest).Pairwise fun first second => first.sect.Disjoint second.sect)
    (room : 4 + (done ++ rest).length + (sharedPages target (done ++ rest)).length <
      target.pageSize) :
    ∃ d', registerPieces host target d rest = .ok d' ∧ TableOk target d' (done ++ rest) := by
  induction rest generalizing d done with
  | nil => exact ⟨d, rfl, by rwa [List.append_nil]⟩
  | cons piece rest inductionHypothesis =>
    have regroup : done ++ piece :: rest = done ++ [piece] ++ rest := by simp
    rw [regroup] at disjoint room ⊢
    have fewer := sharedPages_le target (done ++ [piece]) rest
    have apart := (List.pairwise_append.mp (List.pairwise_append.mp disjoint).1).2.2
    obtain ⟨d', result, next⟩ := registerPiece_ok gets ok (sound piece List.mem_cons_self)
      (fun other member => apart other member piece (List.mem_singleton.mpr rfl)) (by
        simp only [List.length_append, List.length_singleton] at room
        omega)
    obtain ⟨final, run, finished⟩ := inductionHypothesis next
      (fun other member => sound other (List.mem_cons_of_mem _ member)) disjoint room
    refine ⟨final, ?_, finished⟩
    rw [registerPieces, List.foldlM_cons, result, ok_bind]
    exact run

end Table

/-! ### The whole table -/

/-- The number of sections that `mem_begin` and the given sections register: the four fixed ones,
one for each piece and one for each shared page. -/
def registeredSections (target : Target) (sections : List MemoryRegionSection) : Nat :=
  4 + (sections.flatMap (pieces target)).length +
    (sharedPages target (sections.flatMap (pieces target))).length

/-- The table with the four fixed sections. -/
def fixedDispatch : AddressSpaceDispatch :=
  let fixed (mr : RegionRef) : MemoryRegionSection := { unassignedSection with mr }
  { emptyDispatch with
    sections := [fixed .ioMemUnassigned, fixed .ioMemNotdirty, fixed .ioMemRom,
      fixed .ioMemWatch] }

section

variable (target : Target)

theorem memBegin_eq (room : 4 ≤ target.pageSize) : memBegin target = .ok fixedDispatch := by
  have some (n : Nat) (few : n ≤ 3) : n < target.pageSize := by omega
  simp only [memBegin, dummySection, physSectionAdd, emptyDispatch, List.length_nil,
    List.length_cons, List.nil_append, List.cons_append, some 0 (by decide),
    some (0 + 1) (by decide),
    some (0 + 1 + 1) (by decide), some (0 + 1 + 1 + 1) (by decide), if_true, ok_bind]
  rfl

theorem mapOk_fixedDispatch : MapOk target fixedDispatch.map := by
  obtain ⟨level, levelEq⟩ := Nat.exists_eq_succ_of_ne_zero (Nat.ne_of_gt target.levels_pos)
  refine ⟨⟨fun _ => ⟨0, 0⟩, ?_, ?_, ?_⟩, ?_⟩
  · rw [levelEq]
    exact .missing level 0
  · intro node allocated
    exact absurd allocated (Nat.not_lt_zero node)
  · exact Nat.zero_le _
  · exact Nat.one_ne_zero

theorem pageSection_fixedDispatch (page : Nat) :
    pageSection target fixedDispatch.map page = physSectionUnassigned := by
  obtain ⟨level, levelEq⟩ := Nat.exists_eq_succ_of_ne_zero (Nat.ne_of_gt target.levels_pos)
  rw [pageSection, levelEq]
  exact physPageWalk_nil _ page level

theorem tableOk_fixedDispatch : TableOk target fixedDispatch [] := by
  refine ⟨mapOk_fixedDispatch target, rfl, rfl, Nat.zero_le _, List.nodup_nil, fun page => ?_,
    fun piece member => ?_, fun page inside => ?_⟩
  · simp [fixedDispatch, emptyDispatch, sharedPages]
  · cases member
  · exact .free (pageSection_fixedDispatch target page) (by simp)

end

/-- A run of `mem_add` registers the pieces of all sections. -/
theorem foldlM_memAdd (gets : host.Gets64) (target : Target) (sections : List MemoryRegionSection)
    (valid : ∀ sect ∈ sections, sect.Valid) (d : AddressSpaceDispatch) :
    sections.foldlM (memAdd host target) d =
      registerPieces host target d (sections.flatMap (pieces target)) := by
  induction sections generalizing d with
  | nil => rfl
  | cons sect rest inductionHypothesis =>
    rw [List.foldlM_cons, memAdd_eq gets target (valid sect List.mem_cons_self), List.flatMap_cons,
      registerPieces, registerPieces, List.foldlM_append]
    congr 1
    funext d'
    exact inductionHypothesis (fun other member => valid other (List.mem_cons_of_mem _ member)) d'

/-- The pieces of disjoint sections are disjoint. -/
theorem disjoint_flatMap_pieces (target : Target) {sections : List MemoryRegionSection}
    (valid : ∀ sect ∈ sections, sect.Valid)
    (disjoint : sections.Pairwise MemoryRegionSection.Disjoint) :
    (sections.flatMap (pieces target)).Pairwise fun first second =>
      first.sect.Disjoint second.sect := by
  rw [List.pairwise_flatMap]
  refine ⟨fun sect member => (pieces_partition target (valid sect member)).disjoint, ?_⟩
  refine disjoint.imp_of_mem
    fun {first second} inFirst inSecond apart piece left other right addr both => ?_
  exact apart addr
    ⟨((pieces_partition target (valid first inFirst)).covers addr).mpr ⟨piece, left, both.1⟩,
      ((pieces_partition target (valid second inSecond)).covers addr).mpr ⟨other, right, both.2⟩⟩

instance : Std.Symm MemoryRegionSection.Disjoint where
  symm _ _ apart addr both := apart addr both.symm

/-- The dispatch table is right. `mem_add` splits every section into pieces that partition it, and
for disjoint sections the table leads every address to the piece of the section that contains it,
or to the unassigned section. -/
theorem memAdd_dispatches (host : Host) (gets : host.Gets64) (target : Target)
    (sections : List MemoryRegionSection) (valid : ∀ sect ∈ sections, sect.Valid)
    (disjoint : sections.Pairwise MemoryRegionSection.Disjoint)
    (few : registeredSections target sections < target.pageSize) :
    (∀ sect ∈ sections, Partition sect (pieces target sect) ∧
        ∀ d, memAdd host target d sect = registerPieces host target d (pieces target sect)) ∧
      ∃ start d, memBegin target = .ok start ∧
        sections.foldlM (memAdd host target) start = .ok d ∧
        d.sections.length = registeredSections target sections ∧
        ∀ addr < 2 ^ 64,
          (∀ sect ∈ sections, sect.Contains addr → ∃ piece ∈ pieces target sect,
            piece.sect.Contains addr ∧ dispatchLookup target d addr = some piece.sect) ∧
          ((∀ sect ∈ sections, ¬ sect.Contains addr) →
            dispatchLookup target d addr = some unassignedSection) := by
  have partition (sect : MemoryRegionSection) (member : sect ∈ sections) :=
    pieces_partition target (valid sect member)
  refine ⟨fun sect member => ⟨partition sect member, memAdd_eq gets target (valid sect member)⟩, ?_⟩
  have begun := memBegin_eq target (by
    unfold registeredSections at few
    omega)
  obtain ⟨d, run, ok⟩ := registerPieces_ok gets (sections.flatMap (pieces target))
    (tableOk_fixedDispatch target)
    (fun piece member => by
      obtain ⟨sect, inSections, inPieces⟩ := List.mem_flatMap.mp member
      exact pieces_sound target (valid sect inSections) piece inPieces)
    (disjoint_flatMap_pieces target valid disjoint) few
  refine ⟨_, d, begun, (foldlM_memAdd gets target sections valid _).trans run, ?_,
    fun addr fits => ⟨fun sect member contains => ?_, fun none => ?_⟩⟩
  · rw [ok.length, length_subpages ok.distinct ok.subpages]
    rfl
  · obtain ⟨piece, inPieces, inPiece⟩ := ((partition sect member).covers addr).mp contains
    rcases ok.lookup fits with ⟨found, foundMember, foundContains, result⟩ | ⟨nothing, -⟩
    · -- The piece found can only belong to the same section.
      obtain ⟨other, otherMember, foundInOther⟩ := List.mem_flatMap.mp foundMember
      have otherContains := ((partition other otherMember).covers addr).mpr
        ⟨found, foundInOther, foundContains⟩
      have same : sect = other := by
        by_contra apart
        exact disjoint.forall member otherMember apart addr ⟨contains, otherContains⟩
      exact ⟨found, same ▸ foundInOther, foundContains, result⟩
    · exact absurd inPiece (nothing piece (List.mem_flatMap.mpr ⟨sect, member, inPieces⟩))
  · rcases ok.lookup fits with ⟨found, foundMember, foundContains, -⟩ | ⟨-, result⟩
    · obtain ⟨other, otherMember, foundInOther⟩ := List.mem_flatMap.mp foundMember
      exact absurd (((partition other otherMember).covers addr).mpr
        ⟨found, foundInOther, foundContains⟩) (none other otherMember)
    · exact result

/-- Pages of 4 KiB. -/
def smallPages : Target where
  pageBits := 12
  levels := 6
  pageBits_le := by decide
  levels_enough := by decide
  levels_tight := by decide

/-- A section with ragged ends, and one that shares its last page. -/
def neighbours : List MemoryRegionSection :=
  [⟨.region 1, 0, 0x2100, 0x1800, false⟩, ⟨.region 2, 0x40, 0x100, 0x3900, true⟩]

/-- Ten sections are registered, and the shared page leads to the second section. -/
theorem memAdd_dispatches_neighbours :
    registeredSections smallPages neighbours = 10 ∧
      ∃ start d, memBegin smallPages = .ok start ∧
        neighbours.foldlM (memAdd plainHost smallPages) start = .ok d ∧ d.sections.length = 10 ∧
        ∃ sect, dispatchLookup smallPages d 0x3950 = some sect ∧ sect.mr = .region 2 ∧
          sect.readonly = true := by
  have count : registeredSections smallPages neighbours = 10 := by decide +kernel
  have valid : ∀ sect ∈ neighbours, sect.Valid := by
    intro sect member
    simp only [neighbours, List.mem_cons, List.not_mem_nil, or_false] at member
    rcases member with rfl | rfl
    · exact ⟨⟨1, rfl⟩, by decide, by decide, by decide⟩
    · exact ⟨⟨2, rfl⟩, by decide, by decide, by decide⟩
  have disjoint : neighbours.Pairwise MemoryRegionSection.Disjoint := by
    simp only [neighbours, List.pairwise_cons, List.mem_singleton, forall_eq, List.not_mem_nil,
      false_implies, implies_true, List.Pairwise.nil, and_true]
    intro addr both
    simp only [MemoryRegionSection.Contains] at both
    omega
  obtain ⟨whole, start, d, begun, run, length, lookup⟩ := memAdd_dispatches plainHost
    plainHost_gets64 smallPages neighbours valid disjoint (by rw [count]; decide)
  obtain ⟨piece, member, -, result⟩ := (lookup 0x3950 (by decide)).1
    ⟨.region 2, 0x40, 0x100, 0x3900, true⟩ (by decide) (by decide)
  obtain ⟨mr, readonly, -⟩ := (whole _ (by decide)).1.same piece member
  exact ⟨count, start, d, begun, run, length.trans count, piece.sect, result, mr, readonly⟩

end StudyNotes.Memory
