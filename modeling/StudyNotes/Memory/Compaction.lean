/-
This file proves that compacting a dispatch table changes no lookup.

The table is filled by calls of `phys_page_set`, each for a section that lies in
the pages of the call. After compaction the walk of an address without a section
can end at a section all the same, but never at one that contains the address,
so the check of the range sends it to the unassigned section as before.
-/

import StudyNotes.Memory.MemAdd
import StudyNotes.Memory.PhysPageCompact

namespace StudyNotes.Memory

open Library

/-! ### Calls of `phys_page_set` -/

/-- A call of `phys_page_set` for a section that lies in the pages of the call. -/
structure PageCall (target : Target) where
  sect : MemoryRegionSection
  index : Nat
  nb : Nat
  fits : index + nb ≤ levelStep target.levels
  sect_le : sect.offsetWithinAddressSpace + sect.size ≤ 2 ^ 64
  inPages : ∀ addr, sect.Contains addr →
    index ≤ addr / target.pageSize ∧ addr / target.pageSize < index + nb

/-- The page is one of those that the call sets. -/
def PageCall.Sets {target : Target} (call : PageCall target) (page : Nat) : Prop :=
  call.index ≤ page ∧ page < call.index + call.nb

instance {target : Target} (call : PageCall target) (page : Nat) : Decidable (call.Sets page) :=
  inferInstanceAs (Decidable (_ ∧ _))

/-- No page is set by both calls. -/
def PageCall.Disjoint {target : Target} (first second : PageCall target) : Prop :=
  ∀ page, first.Sets page → ¬ second.Sets page

/-- Add a section and set the pages of the call to it. -/
def setPages (target : Target) (d : AddressSpaceDispatch) (call : PageCall target) :
    Except Fault AddressSpaceDispatch := do
  let (leaf, d) ← physSectionAdd target d call.sect
  let map ← physPageSet target d.map call.index call.nb leaf
  return { d with map }

/-- The call for a piece of whole pages. -/
def Piece.pageCall {target : Target} {piece : Piece} (sound : piece.Sound target)
    (whole : piece.whole = true) : PageCall target where
  sect := piece.sect
  index := piece.sect.offsetWithinAddressSpace / target.pageSize
  nb := piece.sect.size.toNat / target.pageSize
  fits := (sound.pages_le whole).2.trans target.pageCount_le
  sect_le := sound.valid.fits
  inPages addr := (sound.contains_whole whole addr).mp

/-- `register_multipage` is such a call. -/
theorem registerMultipage_eq_setPages {target : Target} {piece : Piece}
    (sound : piece.Sound target) (whole : piece.whole = true) (d : AddressSpaceDispatch) :
    registerMultipage target d piece.sect = setPages target d (piece.pageCall sound whole) :=
  rfl

variable {page addr : Nat}

theorem subpageSection_le (target : Target) (index : Nat) (inside : page < target.pageCount) :
    (subpageSection target index page).offsetWithinAddressSpace +
      (subpageSection target index page).size ≤ 2 ^ 64 := by
  have count : target.pageSize * (page + 1) ≤ 2 ^ 64 := by
    rw [← target.pageSize_mul_pageCount]
    exact Nat.mul_le_mul_left _ inside
  simp only [subpageSection]
  rw [Nat.mul_add, Nat.mul_one, Nat.mul_comm] at count
  omega

theorem page_of_subpageSection {target : Target} {index : Nat}
    (contains : (subpageSection target index page).Contains addr) :
    addr / target.pageSize = page := by
  obtain ⟨lower, upper⟩ := contains
  simp only [subpageSection] at lower upper
  exact Nat.div_eq_of_lt_le (by omega) (by rw [Nat.add_mul, Nat.one_mul]; omega)

/-- The call for a subpage. -/
def subpageCall (target : Target) (index page : Nat) (inside : page < target.pageCount) :
    PageCall target where
  sect := subpageSection target index page
  index := page
  nb := 1
  fits := Nat.le_trans inside target.pageCount_le
  sect_le := subpageSection_le target index inside
  inPages _ contains := page_of_subpageSection contains ▸ ⟨Nat.le_refl _, Nat.lt_succ_self _⟩

/-- `register_subpage` makes such a call for a page that has no section yet. -/
theorem findSubpage_eq_setPages (target : Target) (d : AddressSpaceDispatch)
    (inside : page < target.pageCount) {existing : MemoryRegionSection}
    (isFree : existing.mr = .ioMemUnassigned) :
    findSubpage target d (page * target.pageSize) existing = (do
      let next ← setPages target
        { d with subpages := d.subpages ++ [subpageInit target (page * target.pageSize)] }
        (subpageCall target d.subpages.length page inside)
      return (d.subpages.length, next)) := by
  have isPage : page * target.pageSize / target.pageSize = page :=
    Nat.mul_div_cancel page target.pageSize_pos
  rw [findSubpage, isFree]
  simp only [setPages, subpageCall, subpageSection, isPage, bind_assoc, pure_bind]

/-- A table into which calls have set pages: the sections of the calls follow the fixed ones, and
a page leads to the section of the call that has set it. -/
structure Built (target : Target) (d : AddressSpaceDispatch) (calls : List (PageCall target)) :
    Prop where
  map : MapOk target d.map
  unassigned : d.sections[physSectionUnassigned]? = some unassignedSection
  length : d.sections.length = 4 + calls.length
  few : d.sections.length ≤ target.pageSize
  nodes : d.map.nodesNb ≤ 2 * target.levels * d.sections.length
  stored : ∀ k call, calls[k]? = some call → d.sections[4 + k]? = some call.sect
  sets : ∀ k call, calls[k]? = some call → ∀ page, call.Sets page →
    pageSection target d.map page = 4 + k
  only : ∀ page < levelStep target.levels,
    pageSection target d.map page = physSectionUnassigned ∨
      ∃ k call, calls[k]? = some call ∧ call.Sets page ∧ pageSection target d.map page = 4 + k

section Built

variable {target : Target} {d start : AddressSpaceDispatch} {calls : List (PageCall target)}

section

variable (built : Built target d calls) (call : PageCall target)
  (apart : ∀ other ∈ calls, other.Disjoint call) (room : d.sections.length < target.pageSize)
include built call apart room

/-- `phys_page_set`, for any number of pages. -/
theorem Built.physPageSet :
    ∃ map', physPageSet target d.map call.index call.nb d.sections.length = .ok map' ∧
      MapOk target map' ∧ map'.nodesNb ≤ d.map.nodesNb + 2 * target.levels ∧
      ∀ page < levelStep target.levels, pageSection target map' page =
        if call.Sets page then d.sections.length else pageSection target d.map page := by
  have positive := target.levels_pos
  have nodesLeft := target.room_of_nodes_le built.nodes (Nat.le_of_lt room)
  rcases Nat.eq_zero_or_pos call.nb with none | some
  · obtain ⟨map', set, mapOk, nodes, walks⟩ := physPageSet_zero target built.map call.index
      d.sections.length (by omega)
    rw [none]
    refine ⟨map', set, mapOk, by omega, fun page _ => ?_⟩
    have notSet : ¬ call.Sets page := by
      rintro ⟨lower, upper⟩
      omega
    rw [walks, if_neg notSet]
  · have length := built.length
    have small := target.pageSize_le
    have fits := call.fits
    refine physPageSet_spec target built.map call.index call.nb d.sections.length
      (by unfold physSectionUnassigned; omega) (by omega) some fits (fun page lower upper => ?_)
      nodesLeft
    refine (built.only page (by omega)).resolve_right ?_
    rintro ⟨k, other, isOther, sets, -⟩
    exact apart other (List.mem_of_getElem? isOther) page sets ⟨lower, upper⟩

theorem setPages_ok :
    ∃ d', setPages target d call = .ok d' ∧ Built target d' (calls ++ [call]) := by
  obtain ⟨map, set, mapOk, nodes, walks⟩ := built.physPageSet call apart room
  refine ⟨{ d with map, sections := d.sections ++ [call.sect] }, ?_, ?_⟩
  · rw [setPages, physSectionAdd_ok _ room, ok_bind]
    simp only [set, ok_bind]
    rfl
  have length := built.length
  have added : (calls ++ [call])[calls.length]? = some call := List.getElem?_concat_length
  -- A call of the longer list is an old one or the new one.
  have cases (k : Nat) (other : PageCall target) (isOther : (calls ++ [call])[k]? = some other) :
      calls[k]? = some other ∨ k = calls.length ∧ other = call := by
    rcases Nat.lt_or_ge k calls.length with old | new
    · rw [List.getElem?_append_left old] at isOther
      exact .inl isOther
    · have isLast := (List.getElem?_eq_some_iff.mp isOther).1
      rw [List.length_append, List.length_singleton] at isLast
      obtain rfl : k = calls.length := by omega
      exact .inr ⟨rfl, Option.some.inj (isOther.symm.trans added)⟩
  refine ⟨mapOk, stored_append built.unassigned, ?_, ?_, ?_, fun k other isOther => ?_,
    fun k other isOther page sets => ?_, fun page inside => ?_⟩
  · simp only [List.length_append, List.length_singleton]
    omega
  · simp only [List.length_append, List.length_singleton]
    omega
  · exact nodes_append built.nodes nodes _
  · rcases cases k other isOther with old | ⟨rfl, rfl⟩
    · exact stored_append (built.stored k other old)
    · rw [← length]
      exact List.getElem?_concat_length
  · have inside : page < levelStep target.levels := Nat.lt_of_lt_of_le sets.2 other.fits
    rcases cases k other isOther with old | ⟨rfl, rfl⟩
    · rw [walks page inside, if_neg (apart other (List.mem_of_getElem? old) page sets)]
      exact built.sets k other old page sets
    · rw [walks page inside, if_pos sets, length]
  · rw [walks page inside]
    split
    · next sets => exact .inr ⟨calls.length, call, added, sets, length⟩
    · refine (built.only page inside).imp_right ?_
      rintro ⟨k, other, isOther, sets, leads⟩
      have old := (List.getElem?_eq_some_iff.mp isOther).1
      exact ⟨k, other, by rw [List.getElem?_append_left old, isOther], sets, leads⟩

end

/-- A run of calls that sets disjoint pages. -/
theorem Built.run (built : Built target d calls) {rest : List (PageCall target)}
    (disjoint : (calls ++ rest).Pairwise PageCall.Disjoint) {last : AddressSpaceDispatch}
    (ran : rest.foldlM (setPages target) d = .ok last) : Built target last (calls ++ rest) := by
  induction rest generalizing d calls with
  | nil =>
    cases ran
    rwa [List.append_nil]
  | cons call rest inductionHypothesis =>
    have regroup : calls ++ call :: rest = calls ++ [call] ++ rest := by simp
    rw [regroup] at disjoint ⊢
    have apart := (List.pairwise_append.mp (List.pairwise_append.mp disjoint).1).2.2
    rw [List.foldlM_cons] at ran
    cases set : setPages target d call with
    | error fault =>
      rw [set] at ran
      cases ran
    | ok next =>
      rw [set, ok_bind] at ran
      obtain ⟨next', set', builtNext⟩ := setPages_ok built call
        (fun other member => apart other member call (List.mem_singleton.mpr rfl))
        (by
          by_contra full
          rw [setPages, physSectionAdd, if_neg full] at set
          cases set)
      cases set.symm.trans set'
      exact inductionHypothesis builtNext disjoint ran

/-- `mem_begin` adds four sections, so there is room for them. -/
theorem room_of_memBegin (begun : memBegin target = .ok start) : 4 ≤ target.pageSize := by
  by_contra few
  simp only [memBegin, dummySection, physSectionAdd] at begun
  generalize target.pageSize = size at few begun
  obtain rfl | rfl | rfl | rfl : size = 0 ∨ size = 1 ∨ size = 2 ∨ size = 3 := by omega
  all_goals cases begun

theorem built_memBegin (begun : memBegin target = .ok start) : Built target start [] := by
  have room := room_of_memBegin begun
  cases begun.symm.trans (memBegin_eq target room)
  exact ⟨mapOk_fixedDispatch target, rfl, rfl, room, Nat.zero_le _, by simp, by simp,
    fun page _ => .inl (pageSection_fixedDispatch target page)⟩

/-! ### The compacted table -/

/-- The section of a call has no address that leads elsewhere. -/
theorem Built.not_contains (built : Built target d calls) {k : Nat} {call : PageCall target}
    (isCall : calls[k]? = some call) (fits : addr < 2 ^ 64)
    (nowhere : pageSection target d.map (addr / target.pageSize) = physSectionUnassigned) :
    ¬ (2 ^ 64 ≤ call.sect.size ∨ call.sect.Contains addr) := by
  have notContains : ¬ call.sect.Contains addr := by
    intro contains
    have leads := built.sets k call isCall _ (call.inPages addr contains)
    rw [nowhere] at leads
    unfold physSectionUnassigned at leads
    omega
  rintro (whole | contains)
  · -- A section of this size starts at zero and has every address.
    have := call.sect_le
    exact notContains ⟨by omega, by omega⟩
  · exact notContains contains

/-- A walk that ends at another section than before changes no lookup. -/
theorem Built.physPageFind_eq (built : Built target d calls) {map : PhysMap} (fits : addr < 2 ^ 64)
    (widened : pageSection target map (addr / target.pageSize) =
        pageSection target d.map (addr / target.pageSize) ∨
      pageSection target d.map (addr / target.pageSize) = physSectionUnassigned ∧
        ∃ other < levelStep target.levels,
          pageSection target map (addr / target.pageSize) = pageSection target d.map other) :
    physPageFind target { d with map } addr = physPageFind target d addr := by
  have found (map' : PhysMap) : physPageFind target { d with map := map' } addr =
      (d.sections[pageSection target map' (addr / target.pageSize)]?).bind fun sect =>
        if 2 ^ 64 ≤ sect.size ∨ sect.Contains addr then some sect
        else d.sections[physSectionUnassigned]? := rfl
  rw [found map, show physPageFind target d addr = _ from found d.map]
  rcases widened with same | ⟨nowhere, other, inside, leads⟩
  · rw [same]
  · rcases built.only other inside with unassigned | ⟨k, call, isCall, -, leads'⟩
    · rw [leads, unassigned, nowhere]
    · rw [leads, leads', built.stored k call isCall, Option.bind_some,
        if_neg (built.not_contains isCall fits nowhere), nowhere, built.unassigned,
        Option.bind_some, if_pos (.inl (Int.le_refl _))]

end Built

/--
Compacting changes no lookup: for every table that calls of `phys_page_set` on disjoint
ranges of pages have filled, compacting the map succeeds, and every address leads to
the same section as before.
-/
theorem physPageCompactAll_lookup (target : Target) {start d : AddressSpaceDispatch}
    {calls : List (PageCall target)} (disjoint : calls.Pairwise PageCall.Disjoint)
    (begun : memBegin target = .ok start) (built : calls.foldlM (setPages target) start = .ok d) :
    ∃ map, physPageCompactAll target.levels d.map = .ok map ∧
      ∀ addr < 2 ^ 64, physPageFind target { d with map } addr = physPageFind target d addr := by
  have filled : Built target d calls := (built_memBegin begun).run disjoint built
  have sections (page : Nat) : pageSection target d.map page ≠ physMapNodeNil := by
    have small := target.pageSize_le
    have few := filled.few
    have length := filled.length
    have inside := Nat.mod_lt page (levelStep_pos target.levels)
    have sameWalk : pageSection target d.map page =
        pageSection target d.map (page % levelStep target.levels) :=
      physPageWalk_congr_page d.map (Nat.mod_mod _ _).symm d.map.root
    rw [sameWalk]
    rcases filled.only _ inside with unassigned | ⟨k, call, isCall, -, leads⟩
    · rw [unassigned]
      decide
    · have isIndex := (List.getElem?_eq_some_iff.mp isCall).1
      rw [leads]
      unfold physMapNodeNil
      omega
  obtain ⟨map, compacted, widened⟩ := physPageCompactAll_spec target filled.map sections
  exact ⟨map, compacted, fun addr fits =>
    filled.physPageFind_eq fits (widened (addr / target.pageSize))⟩

/-- Two pages at the start. -/
def nearPages : PageCall smallPages where
  sect := ⟨.region 1, 0, 0x2000, 0x1000, false⟩
  index := 1
  nb := 2
  fits := by decide
  sect_le := by decide
  inPages addr contains := by
    obtain ⟨lower, upper⟩ := contains
    simp only at lower upper
    rw [show smallPages.pageSize = 4096 from rfl]
    omega

/-- A page far away, with a smaller section. -/
def farPage : PageCall smallPages where
  sect := ⟨.region 2, 0, 0x800, 0x10000000000, false⟩
  index := 0x10000000
  nb := 1
  fits := by decide
  sect_le := by decide
  inPages addr contains := by
    obtain ⟨lower, upper⟩ := contains
    simp only at lower upper
    rw [show smallPages.pageSize = 4096 from rfl]
    omega

/-- The address is on no page that is set, but has the lower digits of one. -/
theorem physPageCompactAll_lookup_stray :
    ∃ start d map, memBegin smallPages = .ok start ∧
      [nearPages, farPage].foldlM (setPages smallPages) start = .ok d ∧
      physPageCompactAll 6 d.map = .ok map ∧
      physPageFind smallPages { d with map } 0x1000000001800 =
        physPageFind smallPages d 0x1000000001800 := by
  have disjoint : [nearPages, farPage].Pairwise PageCall.Disjoint := by
    simp only [List.pairwise_cons, List.mem_singleton, forall_eq, List.not_mem_nil, false_implies,
      implies_true, List.Pairwise.nil, and_true]
    rintro page ⟨-, before⟩ ⟨after, -⟩
    simp only [nearPages, farPage] at before after
    omega
  have begun := memBegin_eq smallPages (by decide)
  obtain ⟨middle, setNear, builtMiddle⟩ := setPages_ok (built_memBegin begun) nearPages
    (by simp) (by decide)
  obtain ⟨d, setFar, -⟩ := setPages_ok builtMiddle farPage (by simpa using disjoint)
    (by rw [builtMiddle.length]; decide)
  have built : [nearPages, farPage].foldlM (setPages smallPages) fixedDispatch = .ok d := by
    rw [List.foldlM_cons, setNear, ok_bind, List.foldlM_cons, setFar, ok_bind]
    rfl
  obtain ⟨map, compacted, same⟩ := physPageCompactAll_lookup smallPages disjoint begun built
  exact ⟨_, d, map, begun, built, compacted, same _ (by decide)⟩

end StudyNotes.Memory
