/-
This file says what the free memory of a node is: the maximal pieces of its
memory regions that no reserved region touches. The kernel's iterator over
them is outside the source; `freeRangesReverse` computes the same pieces in the
same order, highest first, from the gaps of the reserved regions.
-/

import StudyNotes.Memblock.Runs

namespace StudyNotes.Memblock

open Library

/-- `struct memblock`: the allocation limit, the memory and what is reserved of it. -/
structure MemblockState where
  currentLimit : BitVec 64
  memory : MemblockType
  reserved : MemblockType

/-- `NUMA_NO_NODE`, the selector for every node. -/
def numaNoNode : Int := -1

/-! ### What the iterator yields -/

/-- The selector picks the node of a region. -/
def Selects (nid : Int) (rgn : MemblockRegion) : Prop := nid = numaNoNode ∨ nid = rgn.nid

/-- The address is reserved. -/
def Reserved (mb : MemblockState) (addr : Nat) : Prop := (attrAt mb.reserved.regions addr).isSome

/-- `[low, high)` is a maximal free piece of a memory region of the selected node. -/
structure FreePiece (mb : MemblockState) (nid : Int) (rgn : MemblockRegion) (low high : Nat) :
    Prop where
  member : rgn ∈ mb.memory.regions
  selected : Selects nid rgn
  nonempty : low < high
  lower : rgn.base ≤ low
  upper : high ≤ rgn.base + rgn.size
  free : ∀ addr, low ≤ addr → addr < high → ¬ Reserved mb addr
  maximalBelow : low = rgn.base ∨ Reserved mb (low - 1)
  maximalAbove : high = rgn.base + rgn.size ∨ Reserved mb high

/-- The ranges are the maximal free pieces, highest first. -/
structure YieldsFreePieces (mb : MemblockState) (nid : Int) (ranges : List (Nat × Nat)) : Prop where
  exact : ∀ low high, (low, high) ∈ ranges ↔ ∃ rgn, FreePiece mb nid rgn low high
  highestFirst : ranges.Pairwise fun first second => second.2 ≤ first.1

/-! ### The gaps of the reserved regions -/

/-- The gaps that the regions leave in `[start, stop)`, lowest first. -/
def gaps (stop : Nat) : Nat → List MemblockRegion → List (Nat × Nat)
  | start, [] => if start < stop then [(start, stop)] else []
  | start, rgn :: rest =>
    if stop ≤ rgn.base then (if start < stop then [(start, stop)] else [])
    else if rgn.base + rgn.size ≤ start then gaps stop start rest
    else (if start < rgn.base then [(start, rgn.base)] else []) ++
      gaps stop (rgn.base + rgn.size) rest

/-- Some region covers the address. -/
def Covered (regions : List MemblockRegion) (addr : Nat) : Prop :=
  ∃ rgn ∈ regions, Covers rgn addr

theorem covered_cons_iff (rgn : MemblockRegion) (rest : List MemblockRegion) (addr : Nat) :
    Covered (rgn :: rest) addr ↔ Covers rgn addr ∨ Covered rest addr := by
  simp [Covered]

/-- `[low, high)` is a maximal gap in `[start, stop)`. -/
structure Gap (start stop : Nat) (regions : List MemblockRegion) (low high : Nat) : Prop where
  lower : start ≤ low
  nonempty : low < high
  upper : high ≤ stop
  free : ∀ addr, low ≤ addr → addr < high → ¬ Covered regions addr
  maximalBelow : low = start ∨ Covered regions (low - 1)
  maximalAbove : high = stop ∨ Covered regions high

variable {regions rest : List MemblockRegion} {type : MemblockType} {rgn : MemblockRegion}
  {start stop : Nat}

/-- Regions that all lie past a point leave everything below it free. -/
theorem not_covered_of_lt {addr : Nat}
    (beyond : ∀ rgn ∈ regions, addr < rgn.base) : ¬ Covered regions addr := by
  rintro ⟨rgn, member, covered⟩
  exact absurd covered.1 (not_le.mpr (beyond rgn member))

/-- Regions past the window leave it one gap. -/
theorem gap_iff_of_beyond (beyond : ∀ rgn ∈ regions, stop ≤ rgn.base) (low high : Nat) :
    Gap start stop regions low high ↔ start < stop ∧ low = start ∧ high = stop := by
  have none (addr : Nat) (inside : addr < stop) : ¬ Covered regions addr :=
    not_covered_of_lt fun rgn member => lt_of_lt_of_le inside (beyond rgn member)
  constructor
  · rintro ⟨lower, nonempty, upper, -, below, above⟩
    have lowEq := below.resolve_right (none _ (by omega))
    have highEq : high = stop := by
      rcases above with same | covered
      · exact same
      · by_contra different
        exact none high (by omega) covered
    exact ⟨by omega, lowEq, highEq⟩
  · rintro ⟨nonempty, rfl, rfl⟩
    exact ⟨le_refl _, nonempty, le_refl _, fun addr _ inside => none addr inside, Or.inl rfl,
      Or.inl rfl⟩

theorem Gap.of_covered {others : List MemblockRegion} {low high : Nat}
    (gap : Gap start stop regions low high)
    (same : ∀ addr, start ≤ addr → (Covered regions addr ↔ Covered others addr)) :
    Gap start stop others low high := by
  obtain ⟨lower, nonempty, upper, free, below, above⟩ := gap
  refine ⟨lower, nonempty, upper, fun addr left right => ?_, ?_, ?_⟩
  · rw [← same addr (le_trans lower left)]
    exact free addr left right
  · rcases Nat.eq_or_lt_of_le lower with equal | later
    · exact Or.inl equal.symm
    · rwa [same (low - 1) (by omega)] at below
  · rwa [same high (by omega)] at above

/-- A region before the window does not matter. -/
theorem gap_cons_iff_of_le (before : rgn.base + rgn.size ≤ start) (low high : Nat) :
    Gap start stop (rgn :: rest) low high ↔ Gap start stop rest low high := by
  have same (addr : Nat) (inside : start ≤ addr) :
      Covered (rgn :: rest) addr ↔ Covered rest addr := by
    rw [covered_cons_iff, or_iff_right]
    rw [covers_region]
    omega
  exact ⟨fun gap => gap.of_covered same,
    fun gap => gap.of_covered fun addr inside => (same addr inside).symm⟩

/-- A region in the window ends one gap and starts the rest. -/
theorem gap_cons_iff (nonempty : 0 < rgn.size)
    (apart : ∀ other ∈ rest, rgn.base + rgn.size ≤ other.base) (inside : rgn.base < stop)
    (reaches : start < rgn.base + rgn.size) (low high : Nat) :
    Gap start stop (rgn :: rest) low high ↔
      (start < rgn.base ∧ low = start ∧ high = rgn.base) ∨
        Gap (rgn.base + rgn.size) stop rest low high := by
  have early (addr : Nat) (before : addr < rgn.base) : ¬ Covered (rgn :: rest) addr := by
    refine not_covered_of_lt fun other member => ?_
    rcases List.mem_cons.mp member with rfl | inRest
    · exact before
    · have := apart other inRest
      omega
  have held (addr : Nat) (left : rgn.base ≤ addr) (right : addr < rgn.base + rgn.size) :
      Covered (rgn :: rest) addr := ⟨rgn, List.mem_cons_self, left, right⟩
  rw [← gap_cons_iff_of_le (le_refl (rgn.base + rgn.size))]
  constructor
  · rintro ⟨lower, lowHigh, upper, free, below, above⟩
    rcases Nat.lt_or_ge low (rgn.base + rgn.size) with before | past
    · -- The gap is free, so it ends where the region starts.
      have lowBefore : low < rgn.base := by
        by_contra overlap
        exact free low (le_refl _) lowHigh (held low (not_lt.mp overlap) before)
      have highLe : high ≤ rgn.base := by
        by_contra overlap
        exact free rgn.base (le_of_lt lowBefore) (not_le.mp overlap)
          (held _ (le_refl _) (by omega))
      have lowEq := below.resolve_right (early _ (by omega))
      have highEq : high = rgn.base := by
        rcases above with same | covered
        · omega
        · by_contra different
          exact early high (by omega) covered
      exact Or.inl ⟨by omega, lowEq, highEq⟩
    · exact Or.inr ⟨past, lowHigh, upper, free, below.imp_left (by omega), above⟩
  · rintro (⟨gap, rfl, rfl⟩ | ⟨lower, lowHigh, upper, free, below, above⟩)
    · exact ⟨le_refl _, gap, le_of_lt inside, fun addr _ right => early addr right, Or.inl rfl,
        Or.inr (held _ (le_refl _) (by omega))⟩
    · refine ⟨by omega, lowHigh, upper, free, Or.inr ?_, above⟩
      rcases below with equal | covered
      · exact held _ (by omega) (by omega)
      · exact covered

theorem mem_gaps_iff (ordered : Ordered regions) (low high : Nat) :
    (low, high) ∈ gaps stop start regions ↔ Gap start stop regions low high := by
  have whole (start : Nat) : (low, high) ∈ (if start < stop then [(start, stop)] else []) ↔
      start < stop ∧ low = start ∧ high = stop := by
    split
    · next nonempty => simp [nonempty]
    · next empty => simp [empty]
  induction regions generalizing start with
  | nil => rw [gaps, gap_iff_of_beyond (by simp), whole]
  | cons rgn rest inductionHypothesis =>
    obtain ⟨rgnNonempty, apart, restOrdered⟩ := ordered_cons_iff.mp ordered
    simp only [lo_region, hi_region] at rgnNonempty apart
    have tail (from' : Nat) : _ ∈ gaps stop from' rest ↔ _ := inductionHypothesis restOrdered
    rw [gaps]
    split
    · next beyond =>
      rw [whole, gap_iff_of_beyond]
      intro other member
      rcases List.mem_cons.mp member with rfl | inRest
      · exact beyond
      · have := apart other inRest
        omega
    · next starts =>
      split
      · next before => rw [tail, gap_cons_iff_of_le before]
      · next reaches =>
        rw [List.mem_append, tail, gap_cons_iff (by omega) apart (not_le.mp starts)
          (not_le.mp reaches)]
        split
        · next gap => simp [gap]
        · next noGap => simp [noGap]

theorem pairwise_gaps (ordered : Ordered regions) :
    (gaps stop start regions).Pairwise fun first second => first.2 ≤ second.1 := by
  have atMostOne (condition : Prop) [Decidable condition] (gap : Nat × Nat) :
      (if condition then [gap] else []).Pairwise fun first second => first.2 ≤ second.1 := by
    split
    · exact List.pairwise_singleton _ _
    · exact List.Pairwise.nil
  induction regions generalizing start with
  | nil => exact atMostOne _ _
  | cons rgn rest inductionHypothesis =>
    obtain ⟨rgnNonempty, apart, restOrdered⟩ := ordered_cons_iff.mp ordered
    rw [gaps]
    split
    · exact atMostOne _ _
    · split
      · exact inductionHypothesis restOrdered
      · refine List.pairwise_append.mpr ⟨atMostOne _ _, inductionHypothesis restOrdered,
          fun first firstMember second secondMember => ?_⟩
        have later := ((mem_gaps_iff restOrdered second.1 second.2).mp secondMember).lower
        split at firstMember
        · rw [List.mem_singleton] at firstMember
          subst firstMember
          omega
        · cases firstMember

/-! ### The ranges of a node -/

/-- The free ranges of the selected node, highest first. The dummy entry of an empty array
covers nothing. -/
def freeRangesReverse (nid : Int) (memory reserved : MemblockType) : List (Nat × Nat) :=
  ((memory.regions.filter fun rgn => nid = numaNoNode ∨ nid = rgn.nid).flatMap fun rgn =>
    gaps (rgn.base + rgn.size) rgn.base
      (reserved.regions.filter fun rgn => 0 < rgn.size)).reverse

theorem Held.apart (held : Held type) :
    type.regions.Pairwise fun first second => first.base + first.size ≤ second.base := by
  obtain ⟨-, -, ⟨nid, dummy⟩ | ⟨layout, -⟩⟩ := held
  · rw [dummy]
    exact List.pairwise_singleton _ _
  · exact layout.ordered.apart

theorem Held.ordered_filter (held : Held type) :
    Ordered (type.regions.filter fun rgn => 0 < rgn.size) := by
  refine ⟨fun rgn member => ?_, held.apart.sublist List.filter_sublist⟩
  have positive := (List.mem_filter.mp member).2
  simp only [decide_eq_true_eq] at positive
  simp only [lo_region, hi_region]
  omega

/-- An address is reserved when a non-empty reserved region covers it. -/
theorem reserved_iff (mb : MemblockState) (addr : Nat) :
    Reserved mb addr ↔ Covered (mb.reserved.regions.filter fun rgn => 0 < rgn.size) addr := by
  unfold Reserved attrAt
  rw [Option.isSome_map, Option.isSome_iff_exists]
  constructor
  · rintro ⟨rgn, found⟩
    have covered := covers_of_itemAt found
    refine ⟨rgn, List.mem_filter.mpr ⟨mem_of_itemAt found, ?_⟩, covered⟩
    rw [covers_region] at covered
    simp only [decide_eq_true_eq]
    omega
  · rintro ⟨rgn, member, covered⟩
    refine Option.ne_none_iff_exists'.mp fun missing => ?_
    exact (itemAt_eq_none_iff _ addr).mp missing rgn (List.mem_filter.mp member).1 covered

theorem freeRangesReverse_yields (mb : MemblockState) (nid : Int) (memory : Invariant mb.memory)
    (reserved : Invariant mb.reserved) :
    YieldsFreePieces mb nid (freeRangesReverse nid mb.memory mb.reserved) := by
  have ordered := reserved.held.ordered_filter
  refine ⟨fun low high => ?_, ?_⟩
  · simp only [freeRangesReverse, List.mem_reverse, List.mem_flatMap, List.mem_filter,
      decide_eq_true_eq, mem_gaps_iff ordered]
    constructor
    · rintro ⟨rgn, ⟨member, selected⟩, lower, nonempty, upper, free, below, above⟩
      simp only [← reserved_iff mb] at free below above
      exact ⟨rgn, member, selected, nonempty, lower, upper, free, below, above⟩
    · rintro ⟨rgn, member, selected, nonempty, lower, upper, free, below, above⟩
      simp only [reserved_iff mb] at free below above
      exact ⟨rgn, ⟨member, selected⟩, lower, nonempty, upper, free, below, above⟩
  · rw [freeRangesReverse, List.pairwise_reverse, List.pairwise_flatMap]
    refine ⟨fun rgn _ => pairwise_gaps ordered, ?_⟩
    refine (memory.held.apart.sublist List.filter_sublist).imp
      fun {first second} apart lower lowerMember upper upperMember => ?_
    have left := ((mem_gaps_iff ordered lower.1 lower.2).mp lowerMember).upper
    have right := ((mem_gaps_iff ordered upper.1 upper.2).mp upperMember).lower
    omega

end StudyNotes.Memblock
