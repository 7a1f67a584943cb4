/-
This file models allocation from the early boot allocator and proves it
correct: `memblock_find_in_range_node` returns the highest aligned place in the
free memory of a node, and along every run of `memblock_alloc_range_nid` and
`memblock_free` the live blocks are disjoint, lie in memory and are reserved.

The iterator `__next_mem_range_rev` behind `for_each_free_mem_range_reverse` is
outside the source. It is a parameter, and what the search relies on is that it
yields the maximal free pieces, highest first.
-/

import StudyNotes.Memblock.FreeRanges

namespace StudyNotes.Memblock

open Library

/-! ### Model -/

/-- The constants of the architecture, and the free-range iterator: the ranges it yields for
a node selector, in its order. -/
structure AllocPlatform (Env : Type) extends Platform Env where
  pageSize : Nat
  pageSize_pos : 0 < pageSize
  pageSize_le : pageSize ≤ ullongMax
  smpCacheBits : Nat
  smpCacheBits_lt : smpCacheBits < 64
  freeMemRangesReverse : Int → MemblockType → MemblockType → List (Nat × Nat)

variable {Env : Type} (platform : AllocPlatform Env)

/-- `MEMBLOCK_ALLOC_ACCESSIBLE`. -/
def memblockAllocAccessible : Nat := 0

/-- `clamp(value, low, high)`. -/
def clamp (value low high : Nat) : Nat := min (max value low) high

/-- The search from the top: the first range that fits. -/
def memblockFindRangeTopDown (start stop size align : Nat) : List (Nat × Nat) → Nat
  | [] => 0
  | (low, high) :: rest =>
    let thisStart := clamp low start stop
    let thisEnd := clamp high start stop
    if thisEnd < size then memblockFindRangeTopDown start stop size align rest
    else
      let cand := Word.alignDown 64 (Word.sub 64 thisEnd size) align
      if thisStart ≤ cand then cand
      else memblockFindRangeTopDown start stop size align rest

/-- Find a free area. The source's bottom-up branch is empty, so it always searches from the
top. -/
def memblockFindInRangeNode (mb : MemblockState) (size align start stop : Nat) (nid : Int) : Nat :=
  let stop := if stop = memblockAllocAccessible then mb.currentLimit.toNat else stop
  let start := max start platform.pageSize
  let stop := max start stop
  memblockFindRangeTopDown start stop size align
    (platform.freeMemRangesReverse nid mb.memory mb.reserved)

/-- Reserve a range: it is added to the reserved array without a node and without flags. -/
def memblockReserve (env : Env) (mb : MemblockState) (base size : Nat) :
    Except Bug (Env × Int × MemblockState) := do
  let (env, ret, reserved) ← memblockAddRange platform.toPlatform env mb.reserved base size
    (maxNumnodes platform.nodesShift) 0
  return (env, ret, { mb with reserved })

/-- Free a range: it is removed from the reserved array. -/
def memblockFree (env : Env) (mb : MemblockState) (base size : Nat) :
    Except Bug (Env × Int × MemblockState) := do
  let (env, ret, reserved) ← memblockRemoveRange platform.toPlatform env mb.reserved base size
  return (env, ret, { mb with reserved })

/-- Allocate a block: its address, or `0`. -/
def memblockAllocRangeNid (env : Env) (mb : MemblockState) (size align start stop : Nat)
    (nid : Int) : Except Bug (Env × Nat × MemblockState) := do
  let align := if align = 0 then 2 ^ platform.smpCacheBits else align
  let found := memblockFindInRangeNode platform mb size align start stop nid
  if found ≠ 0 then
    let (env, ret, mb) ← memblockReserve platform env mb found size
    if ret = 0 then return (env, found, mb) else return (env, 0, mb)
  else return (env, 0, mb)

/-! ### The search -/

/-- A place for `size` bytes inside one of the ranges, cut down to `[start, stop)`. -/
structure Fits (start stop size align : Nat) (ranges : List (Nat × Nat)) (place : Nat) : Prop where
  aligned : align ∣ place
  low : start ≤ place
  high : place + size ≤ stop
  inside : ∃ range ∈ ranges, range.1 ≤ place ∧ place + size ≤ range.2

/-- Cutting a range down to `[start, stop)` does not change which places fit in it. -/
theorem clamp_fits_iff {start stop size : Nat} (positive : 0 < size) (within : start ≤ stop)
    (low high place : Nat) :
    clamp low start stop ≤ place ∧ place + size ≤ clamp high start stop ↔
      start ≤ place ∧ place + size ≤ stop ∧ low ≤ place ∧ place + size ≤ high := by
  unfold clamp
  omega

/-- When no place fits in the first range, the others decide. -/
theorem fits_cons_iff {start stop size align low high : Nat} {rest : List (Nat × Nat)}
    {place : Nat} (positive : 0 < size) (within : start ≤ stop)
    (full : ¬ (align ∣ place ∧ clamp low start stop ≤ place ∧
      place + size ≤ clamp high start stop)) :
    Fits start stop size align ((low, high) :: rest) place ↔
      Fits start stop size align rest place := by
  constructor
  · rintro ⟨aligned, lower, upper, range, member, left, right⟩
    refine ⟨aligned, lower, upper, range, ?_, left, right⟩
    rcases List.mem_cons.mp member with rfl | inRest
    · exact absurd ⟨aligned, (clamp_fits_iff positive within low high place).mpr
        ⟨lower, upper, left, right⟩⟩ full
    · exact inRest
  · rintro ⟨aligned, lower, upper, range, member, left, right⟩
    exact ⟨aligned, lower, upper, range, List.mem_cons_of_mem _ member, left, right⟩

/-- The highest place, or `0` when there is none. -/
def Highest (IsPlace : Nat → Prop) (found : Nat) : Prop :=
  (found ≠ 0 → IsPlace found ∧ ∀ place, IsPlace place → place ≤ found) ∧
    (found = 0 ↔ ¬ ∃ place, IsPlace place)

theorem memblockFindRangeTopDown_spec (start stop size bits : Nat) (positive : 0 < size)
    (startPos : 0 < start) (within : start ≤ stop) (stopLe : stop ≤ ullongMax)
    (narrow : bits < 64) (ranges : List (Nat × Nat))
    (descending : ranges.Pairwise fun first second => second.2 ≤ first.1) :
    Highest (Fits start stop size (2 ^ bits) ranges)
      (memblockFindRangeTopDown start stop size (2 ^ bits) ranges) := by
  induction ranges with
  | nil =>
    refine ⟨fun found => absurd rfl found, fun _ => ?_, fun _ => rfl⟩
    rintro ⟨place, fits⟩
    obtain ⟨range, member, -⟩ := fits.inside
    cases member
  | cons head rest inductionHypothesis =>
    obtain ⟨low, high⟩ := head
    obtain ⟨below, restDescending⟩ := List.pairwise_cons.mp descending
    have tail := inductionHypothesis restDescending
    -- A range without a place leaves the search to the ranges below it.
    have skip (full : ∀ place, ¬ (2 ^ bits ∣ place ∧ clamp low start stop ≤ place ∧
        place + size ≤ clamp high start stop)) :
        Fits start stop size (2 ^ bits) ((low, high) :: rest) =
          Fits start stop size (2 ^ bits) rest :=
      funext fun place => propext (fits_cons_iff positive within (full place))
    simp only [memblockFindRangeTopDown]
    split
    · next short => rwa [skip fun place fits => by omega]
    · next long =>
      have upper : clamp high start stop ≤ ullongMax := le_trans (min_le_right _ _) stopLe
      have difference : Word.sub 64 (clamp high start stop) size = clamp high start stop - size :=
        Word.sub_of_le (not_lt.mp long) (by unfold ullongMax at upper; omega)
      have rounds := Word.alignDown_two_pow (x := clamp high start stop - size) bits
        (le_of_lt narrow) (by unfold ullongMax at upper; omega)
      rw [difference, rounds]
      generalize isCand : (clamp high start stop - size) / 2 ^ bits * 2 ^ bits = cand
      have candLe : cand ≤ clamp high start stop - size := isCand ▸ Nat.div_mul_le_self _ _
      have candMax (place : Nat) (aligned : 2 ^ bits ∣ place)
          (fits : place + size ≤ clamp high start stop) : place ≤ cand :=
        isCand ▸ Word.le_div_mul (by omega) aligned
      have candAligned : 2 ^ bits ∣ cand := isCand ▸ Nat.dvd_mul_left _ _
      split
      · next room =>
        obtain ⟨lower, upper, left, right⟩ :=
          (clamp_fits_iff positive within low high cand).mp ⟨room, by omega⟩
        have spot : Fits start stop size (2 ^ bits) ((low, high) :: rest) cand :=
          ⟨candAligned, lower, upper, (low, high), List.mem_cons_self, left, right⟩
        refine ⟨fun _ => ⟨spot, fun place fits => ?_⟩, fun none => by omega,
          fun none => absurd ⟨cand, spot⟩ none⟩
        obtain ⟨aligned, placeLower, placeUpper, range, member, placeLeft, placeRight⟩ := fits
        rcases List.mem_cons.mp member with rfl | inRest
        · exact candMax place aligned ((clamp_fits_iff positive within low high place).mpr
            ⟨placeLower, placeUpper, placeLeft, placeRight⟩).2
        · have far : range.2 ≤ low := below range inRest
          omega
      · next tight =>
        rw [skip]
        · exact tail
        · intro place fits
          have := candMax place fits.1 fits.2.2
          omega

/-- A place for a request in the free memory of the selected node: `[place, place + size)` lies
in one free piece and in `[max start PAGE_SIZE, stop)`, where a `stop` of
`MEMBLOCK_ALLOC_ACCESSIBLE` stands for the current limit. -/
structure Place (mb : MemblockState) (size align start stop : Nat) (nid : Int) (place : Nat) :
    Prop where
  aligned : align ∣ place
  low : max start platform.pageSize ≤ place
  high : place + size ≤ (if stop = memblockAllocAccessible then mb.currentLimit.toNat else stop)
  inside : ∃ rgn first last, FreePiece mb nid rgn first last ∧ first ≤ place ∧ place + size ≤ last

theorem memblockFindInRangeNode_spec (mb : MemblockState) (size bits start stop : Nat) (nid : Int)
    (yields : YieldsFreePieces mb nid
      (platform.freeMemRangesReverse nid mb.memory mb.reserved)) (positive : 0 < size)
    (narrow : bits < 64) (startLe : start ≤ ullongMax) (stopLe : stop ≤ ullongMax) :
    Highest (Place platform mb size (2 ^ bits) start stop nid)
      (memblockFindInRangeNode platform mb size (2 ^ bits) start stop nid) := by
  set limit := if stop = memblockAllocAccessible then mb.currentLimit.toNat else stop with limitEq
  have limitLe : limit ≤ ullongMax := by
    rw [limitEq]
    split
    · exact base_le_ullongMax _
    · exact stopLe
  have pagePos := platform.pageSize_pos
  have pageLe := platform.pageSize_le
  set ranges := platform.freeMemRangesReverse nid mb.memory mb.reserved
  have search := memblockFindRangeTopDown_spec (max start platform.pageSize)
    (max (max start platform.pageSize) limit) size bits positive (by omega) (le_max_left _ _)
    (by omega) narrow ranges yields.highestFirst
  -- The search cuts to `max start limit`; a place of positive size never reaches past the limit.
  have same : Fits (max start platform.pageSize) (max (max start platform.pageSize) limit) size
      (2 ^ bits) ranges = Place platform mb size (2 ^ bits) start stop nid := by
    funext place
    apply propext
    constructor
    · rintro ⟨aligned, low, high, ⟨first, last⟩, member, left, right⟩
      obtain ⟨rgn, piece⟩ := (yields.exact first last).mp member
      exact ⟨aligned, low, by rw [← limitEq]; omega, rgn, first, last, piece, left, right⟩
    · rintro ⟨aligned, low, high, rgn, first, last, piece, left, right⟩
      rw [← limitEq] at high
      exact ⟨aligned, low, le_trans high (le_max_right _ _), (first, last),
        (yields.exact first last).mpr ⟨rgn, piece⟩, left, right⟩
  rwa [same] at search

/-! ### Runs -/

/-- The arguments of an allocation: a positive size and an alignment that is a power of two,
or `0` for the default one. -/
structure AllocRequest where
  size : BitVec 64
  size_pos : 0 < size.toNat
  align : BitVec 64
  align_pow : align.toNat = 0 ∨ ∃ bits < 64, align.toNat = 2 ^ bits
  start : BitVec 64
  stop : BitVec 64
  nid : Int

/-- The allocator and the blocks it has handed out, as address and size. -/
structure AllocState (Env : Type) where
  env : Env
  mb : MemblockState
  live : List (Nat × Nat)

/-- What a caller does: ask for a block, or give a live one back. -/
inductive AllocAction
  | alloc (request : AllocRequest)
  | free (index : Nat)

/-- Answer a request. -/
def AllocRequest.answer (env : Env) (mb : MemblockState) (request : AllocRequest) :
    Except Bug (Env × Nat × MemblockState) :=
  memblockAllocRangeNid platform env mb request.size.toNat request.align.toNat
    request.start.toNat request.stop.toNat request.nid

/-- One action. A block whose freeing fails stays live. -/
def allocStep (state : AllocState Env) : AllocAction → Except Bug (AllocState Env)
  | .alloc request => do
    let (env, addr, mb) ← request.answer platform state.env state.mb
    let live := if addr ≠ 0 then (addr, request.size.toNat) :: state.live else state.live
    return { env, mb, live }
  | .free index =>
    match state.live[index]? with
    | none => return state
    | some (addr, size) => do
      let (env, ret, mb) ← memblockFree platform state.env state.mb addr size
      return { env, mb, live := if ret = 0 then state.live.eraseIdx index else state.live }

/-- Two blocks without a common address. -/
def Apart (first second : Nat × Nat) : Prop :=
  ∀ addr, ¬ ((first.1 ≤ addr ∧ addr < first.1 + first.2) ∧
    (second.1 ≤ addr ∧ addr < second.1 + second.2))

/-- A block inside one memory region. -/
def InMemory (mb : MemblockState) (block : Nat × Nat) : Prop :=
  ∃ rgn ∈ mb.memory.regions, rgn.base ≤ block.1 ∧ block.1 + block.2 ≤ rgn.base + rgn.size

/-- Sound arrays, and live blocks that are disjoint, in memory and reserved. -/
structure AllocInvariant (memory : MemblockType) (state : AllocState Env) : Prop where
  memory : state.mb.memory = memory
  reserved : Held state.mb.reserved
  apart : state.live.Pairwise Apart
  inMemory : ∀ block ∈ state.live, InMemory state.mb block
  held : ∀ block ∈ state.live, ∀ addr, block.1 ≤ addr → addr < block.1 + block.2 →
    Reserved state.mb addr

/-- What the search relies on: between calls the iterator yields the maximal free pieces. -/
def IteratorYields : Prop :=
  ∀ (mb : MemblockState) (nid : Int), Invariant mb.memory → Invariant mb.reserved →
    YieldsFreePieces mb nid (platform.freeMemRangesReverse nid mb.memory mb.reserved)

/-- The alignment of a request, with the default filled in. -/
theorem AllocRequest.align_bits (request : AllocRequest) :
    ∃ bits < 64, (if request.align.toNat = 0 then 2 ^ platform.smpCacheBits
      else request.align.toNat) = 2 ^ bits := by
  rcases request.align_pow with zero | ⟨bits, narrow, power⟩
  · exact ⟨platform.smpCacheBits, platform.smpCacheBits_lt, by rw [if_pos zero]⟩
  · refine ⟨bits, narrow, ?_⟩
    rw [if_neg (by rw [power]; exact (Nat.two_pow_pos bits).ne'), power]

/-- An answered request: a block inside a free piece is reserved exactly, or nothing changes. -/
theorem AllocRequest.answer_spec (request : AllocRequest) (env : Env) (mb : MemblockState)
    (memory : Held mb.memory) (reserved : Held mb.reserved) (yields : IteratorYields platform) :
    ∃ env' addr mb', request.answer platform env mb = .ok (env', addr, mb') ∧
      mb'.memory = mb.memory ∧ Held mb'.reserved ∧
      (addr ≠ 0 → InMemory mb (addr, request.size.toNat) ∧
        (∀ a, addr ≤ a → a < addr + request.size.toNat → ¬ Reserved mb a) ∧
        attrAt mb'.reserved.regions = (attrAt mb.reserved.regions).add addr
          (addr + request.size.toNat) (maxNumnodes platform.nodesShift, 0)) ∧
      (addr = 0 → mb'.reserved.regions = mb.reserved.regions) := by
  obtain ⟨bits, narrow, power⟩ := request.align_bits platform
  obtain ⟨search, -⟩ := memblockFindInRangeNode_spec platform mb request.size.toNat bits
    request.start.toNat request.stop.toNat request.nid
    (yields mb request.nid memory.invariant reserved.invariant) request.size_pos narrow
    (base_le_ullongMax _) (base_le_ullongMax _)
  simp only [AllocRequest.answer, memblockAllocRangeNid, power]
  generalize memblockFindInRangeNode platform mb request.size.toNat (2 ^ bits)
    request.start.toNat request.stop.toNat request.nid = found at search ⊢
  by_cases none : found = 0
  · rw [if_neg (by simpa using none)]
    exact ⟨env, 0, mb, rfl, rfl, reserved, by simp, fun _ => rfl⟩
  · rw [if_pos none]
    obtain ⟨-, -, -, rgn, first, last, piece, left, right⟩ := (search none).1
    have inside := memory.invariant.inside rgn piece.member
    have lower := piece.lower
    have upper := piece.upper
    obtain ⟨env', ret, type', result, outcome⟩ := memblockAddRange_held platform.toPlatform env
      reserved found request.size.toNat (maxNumnodes platform.nodesShift) 0 (by omega)
    have exactEnd : cappedEnd found request.size.toNat = found + request.size.toNat := by
      unfold cappedEnd
      omega
    have reserve : memblockReserve platform env mb found request.size.toNat =
        .ok (env', ret, { mb with reserved := type' }) := by
      simp only [memblockReserve, result]
      rfl
    rw [reserve, ok_bind]
    by_cases success : ret = 0
    · refine ⟨env', found, { mb with reserved := type' }, by simp only [if_pos success]; rfl, rfl,
        outcome.held, fun _ => ⟨⟨rgn, piece.member, by simp only; omega, by simp only; omega⟩,
          fun a low high => piece.free a (by omega) (by omega), ?_⟩, fun zero => absurd zero none⟩
      rw [← exactEnd]
      exact outcome.done success
    · exact ⟨env', 0, { mb with reserved := type' }, by simp only [if_neg success]; rfl, rfl,
        outcome.held, by simp, fun _ => outcome.failed success⟩

variable {state : AllocState Env} {memory : MemblockType}

/-- A new block keeps the invariant: what is free is in no live block. -/
theorem AllocInvariant.alloc (memoryHeld : Held memory) (invariant : AllocInvariant memory state)
    (yields : IteratorYields platform) (request : AllocRequest) :
    ∃ next, allocStep platform state (.alloc request) = .ok next ∧ AllocInvariant memory next := by
  obtain ⟨env', addr, mb', result, sameMemory, held, success, failure⟩ := request.answer_spec
    platform state.env state.mb (invariant.memory ▸ memoryHeld) invariant.reserved yields
  refine ⟨_, by simp only [allocStep, result, ok_bind]; rfl, ?_⟩
  have inMemory (block : Nat × Nat) : InMemory state.mb block → InMemory mb' block := by
    unfold InMemory
    rw [sameMemory]
    exact id
  by_cases none : addr = 0
  · simp only [none, ne_eq, not_true_eq_false, if_false]
    refine ⟨by rw [sameMemory]; exact invariant.memory, held, invariant.apart,
      fun block member => inMemory block (invariant.inMemory block member), ?_⟩
    simp only [Reserved, failure none]
    exact invariant.held
  · obtain ⟨inside, free, attrs⟩ := success none
    have grows (a : Nat) (old : Reserved state.mb a) : Reserved mb' a := by
      obtain ⟨attr, found⟩ := Option.isSome_iff_exists.mp old
      simp [Reserved, attrs, AddressMap.add, found]
    simp only [ne_eq, none, not_false_eq_true, if_true]
    refine ⟨by rw [sameMemory]; exact invariant.memory, held,
      List.pairwise_cons.mpr ⟨fun block member => ?_, invariant.apart⟩, fun block member => ?_,
      fun block member a low high => ?_⟩
    · -- A common address would be free and reserved at once.
      intro a both
      exact free a both.1.1 both.1.2 (invariant.held block member a both.2.1 both.2.2)
    · rcases List.mem_cons.mp member with rfl | old
      · exact inMemory _ inside
      · exact inMemory block (invariant.inMemory block old)
    · rcases List.mem_cons.mp member with rfl | old
      · simp [Reserved, attrs, AddressMap.add, show addr ≤ a ∧ a < addr + request.size.toNat from
          ⟨low, high⟩]
      · exact grows a (invariant.held block old a low high)

/-- Freeing a live block keeps the invariant: no other live block loses an address. -/
theorem AllocInvariant.free (memoryHeld : Held memory) (invariant : AllocInvariant memory state)
    (index : Nat) :
    ∃ next, allocStep platform state (.free index) = .ok next ∧ AllocInvariant memory next := by
  cases found : state.live[index]? with
  | none => exact ⟨state, by simp only [allocStep, found]; rfl, invariant⟩
  | some block =>
    obtain ⟨addr, size⟩ := block
    have member : (addr, size) ∈ state.live := List.mem_of_getElem? found
    obtain ⟨rgn, rgnMember, lower, upper⟩ := invariant.inMemory _ member
    have inside := (invariant.memory ▸ memoryHeld : Held state.mb.memory).invariant.inside rgn
      rgnMember
    obtain ⟨env', ret, type', result, outcome⟩ := memblockRemoveRange_held platform.toPlatform
      state.env invariant.reserved addr size (by simp only at lower upper; omega)
    have exactEnd : cappedEnd addr size = addr + size := by
      unfold cappedEnd
      omega
    refine ⟨{ env := env', mb := { state.mb with reserved := type' },
              live := if ret = 0 then state.live.eraseIdx index else state.live }, ?_, ?_⟩
    · simp only [allocStep, found, memblockFree, result, ok_bind]
      rfl
    · by_cases success : ret = 0
      · simp only [if_pos success]
        have kept : (state.live.eraseIdx index).Sublist state.live := List.eraseIdx_sublist _ _
        refine ⟨invariant.memory, outcome.held, invariant.apart.sublist kept,
          fun block old => invariant.inMemory block (kept.subset old),
          fun block old a low high => ?_⟩
        have reserved := invariant.held block (kept.subset old) a low high
        have outside : ¬ (addr ≤ a ∧ a < addr + size) := by
          intro inside
          obtain ⟨passed, rest, split, rfl⟩ := exists_cursor found
          have apart := invariant.apart
          rw [split, eraseIdx_cursor] at old
          rw [split, List.pairwise_append, List.pairwise_cons] at apart
          rcases List.mem_append.mp old with before | after
          · exact apart.2.2 block before _ List.mem_cons_self a ⟨⟨low, high⟩, inside⟩
          · exact apart.2.1.1 block after a ⟨inside, low, high⟩
        simp only [Reserved, outcome.done success, AddressMap.remove, exactEnd, if_neg outside]
        exact reserved
      · simp only [if_neg success]
        refine ⟨invariant.memory, outcome.held, invariant.apart, invariant.inMemory, ?_⟩
        simp only [Reserved, outcome.failed success]
        exact invariant.held

/-- The allocator is correct. From sound arrays, a search returns the highest aligned place in
the free memory of the selected node, and `0` exactly when there is none. Along every run the
live blocks are disjoint and in memory, and at every point a request that succeeds reserves
exactly its block while one that fails leaves the reserved regions alone. -/
theorem memblockAllocRangeNid_runs (mb : MemblockState) (memory : Invariant mb.memory)
    (reserved : Invariant mb.reserved) (yields : IteratorYields platform) :
    (∀ (size start stop : BitVec 64) (nid : Int) (bits : Nat), 0 < size.toNat → bits < 64 →
      let found := memblockFindInRangeNode platform mb size.toNat (2 ^ bits) start.toNat
        stop.toNat nid
      (found ≠ 0 →
        Place platform mb size.toNat (2 ^ bits) start.toNat stop.toNat nid found ∧
          ∀ place, Place platform mb size.toNat (2 ^ bits) start.toNat stop.toNat nid place →
            place ≤ found) ∧
        (found = 0 ↔
          ¬ ∃ place, Place platform mb size.toNat (2 ^ bits) start.toNat stop.toNat nid place)) ∧
      ∀ (env : Env) (actions : List AllocAction),
        ∃ final, actions.foldlM (allocStep platform) { env, mb, live := [] } = .ok final ∧
          final.live.Pairwise Apart ∧ (∀ block ∈ final.live, InMemory mb block) ∧
          ∀ request : AllocRequest, ∃ env' addr mb',
            request.answer platform final.env final.mb = .ok (env', addr, mb') ∧
            (addr ≠ 0 → attrAt mb'.reserved.regions = (attrAt final.mb.reserved.regions).add addr
              (addr + request.size.toNat) (maxNumnodes platform.nodesShift, 0)) ∧
            (addr = 0 → mb'.reserved.regions = final.mb.reserved.regions) := by
  constructor
  · intro size start stop nid bits positive narrow
    exact memblockFindInRangeNode_spec platform mb size.toNat bits start.toNat stop.toNat nid
      (yields mb nid memory reserved) positive narrow (base_le_ullongMax _) (base_le_ullongMax _)
  · intro env actions
    have step (state : AllocState Env) (action : AllocAction)
        (invariant : AllocInvariant mb.memory state) :
        ∃ next, allocStep platform state action = .ok next ∧ AllocInvariant mb.memory next := by
      cases action with
      | alloc request => exact invariant.alloc platform memory.held yields request
      | free index => exact invariant.free platform memory.held index
    obtain ⟨final, run, invariant⟩ := foldlM_invariant _ _ step actions { env, mb, live := [] }
      ⟨rfl, reserved.held, List.Pairwise.nil, by simp, by simp⟩
    refine ⟨final, run, invariant.apart, fun block member => ?_, fun request => ?_⟩
    · have inside := invariant.inMemory block member
      unfold InMemory at inside ⊢
      rwa [invariant.memory] at inside
    · obtain ⟨env', addr, mb', result, -, -, success, failure⟩ := request.answer_spec platform
        final.env final.mb (invariant.memory ▸ memory.held) invariant.reserved yields
      exact ⟨env', addr, mb', result, fun found => (success found).2.2, failure⟩

/-- A platform whose iterator computes the free pieces from the two arrays. -/
def plainPlatform : AllocPlatform Unit where
  memblockDoubleArray env _ _ _ := (env, .enlarged 127)
  nodesShift := 6
  pageSize := 4096
  pageSize_pos := by decide
  pageSize_le := by decide
  smpCacheBits := 6
  smpCacheBits_lt := by decide
  freeMemRangesReverse := freeRangesReverse

/-- Seven pages of memory, half a page of them reserved. -/
def sevenPages : MemblockState where
  currentLimit := 0x10000
  memory := ⟨128, 0x7000, [⟨0x1000, 0x7000, 0, 0⟩]⟩
  reserved := ⟨128, 0x800, [⟨0x7000, 0x800, 0, 64⟩]⟩

theorem sevenPages_invariant : Invariant sevenPages.memory ∧ Invariant sevenPages.reserved := by
  constructor
  · exact ⟨by simp [sevenPages], by simp [sevenPages], Or.inl (by simp [sevenPages]),
      by simp [sevenPages, ullongMax], by decide, rfl⟩
  · exact ⟨by simp [sevenPages], by simp [sevenPages], Or.inl (by simp [sevenPages]),
      by simp [sevenPages, ullongMax], by decide, rfl⟩

/-- The half page above the reserved one is too small, so the block ends where the reserved
region starts. -/
theorem memblockAllocRangeNid_runs_sevenPages :
    IteratorYields plainPlatform ∧
      memblockFindInRangeNode plainPlatform sevenPages 0x900 (2 ^ 4) 0 0 numaNoNode = 0x6700 ∧
      Place plainPlatform sevenPages 0x900 (2 ^ 4) 0 0 numaNoNode 0x6700 := by
  have yields : IteratorYields plainPlatform := fun mb nid memory reserved =>
    freeRangesReverse_yields mb nid memory reserved
  have found : memblockFindInRangeNode plainPlatform sevenPages 0x900 (2 ^ 4) 0 0 numaNoNode =
      0x6700 := by decide +kernel
  have runs := (memblockAllocRangeNid_runs plainPlatform sevenPages sevenPages_invariant.1
    sevenPages_invariant.2 yields).1 0x900 0 0 numaNoNode 4 (by decide) (by decide)
  have place := (runs.1 (by
    rw [show (0x900 : BitVec 64).toNat = 0x900 from rfl, show (0 : BitVec 64).toNat = 0 from rfl,
      found]
    decide)).1
  rw [show (0x900 : BitVec 64).toNat = 0x900 from rfl, show (0 : BitVec 64).toNat = 0 from rfl,
    found] at place
  exact ⟨yields, found, place⟩

end StudyNotes.Memblock
