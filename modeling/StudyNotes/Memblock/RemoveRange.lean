/-
This file proves what `memblock_remove_range` does to an array. The isolating
loop cuts the regions at both ends of the range and records the window of
regions in between; the removing loop then deletes that window from its far end
down. What is left is the part of the array below the range and the part above
it.
-/

import Mathlib.Data.List.Induction
import StudyNotes.Memblock.AddRange

namespace StudyNotes.Memblock

open Library

/-! ### The isolating loop -/

/-- A region cut down to `[a, b)`. -/
def trimRegion (rgn : MemblockRegion) (a b : Nat) : MemblockRegion :=
  { rgn with base := a, size := b - a }

theorem lo_trimRegion (rgn : MemblockRegion) (a b : Nat) : lo (trimRegion rgn a b) = a := rfl

theorem hi_trimRegion (rgn : MemblockRegion) (a b : Nat) (nonempty : a < b) :
    hi (trimRegion rgn a b) = b := by
  simp only [trimRegion, hi_region]
  omega

/-- The window that the loop has recorded: nothing yet, or exactly the regions `middle`. -/
def Window (lower middle : List MemblockRegion) (startRgn endRgn : Nat) : Prop :=
  (middle = [] ∧ startRgn = 0 ∧ endRgn = 0) ∨
    (middle ≠ [] ∧ startRgn = lower.length ∧ endRgn = lower.length + middle.length)

/-- Recording the region at the index extends the window by it. -/
theorem Window.record {lower middle : List MemblockRegion} {startRgn endRgn : Nat}
    (window : Window lower middle startRgn endRgn) (rgn : MemblockRegion) :
    Window lower (middle ++ [rgn])
      (if endRgn = 0 then (lower ++ middle).length else startRgn)
      ((lower ++ middle).length + 1) := by
  refine Or.inr ⟨by simp, ?_, by simp only [List.length_append, List.length_singleton]; omega⟩
  rcases window with ⟨rfl, -, rfl⟩ | ⟨some, rfl, rfl⟩
  · simp
  · have := List.length_pos_iff.mpr some
    rw [if_neg (by omega)]

section Isolate

variable (base endAddr : Nat) {rgn : MemblockRegion} {rest : List MemblockRegion} {cut : Nat}

theorem below_cons_of_le (ends : rgn.base + rgn.size ≤ cut) :
    below trimRegion cut (rgn :: rest) = rgn :: below trimRegion cut rest := by
  rw [below, List.filterMap_cons, if_pos (by simpa using ends)]
  rfl

theorem above_cons_of_le (nonempty : 0 < rgn.size) (ends : rgn.base + rgn.size ≤ cut) :
    above trimRegion cut (rgn :: rest) = above trimRegion cut rest := by
  rw [above, List.filterMap_cons, if_neg (by simp only [lo_region]; omega),
    if_neg (by simp only [hi_region]; omega)]
  rfl

/-- Cutting a region in the middle of an array that is sorted. -/
theorem cut_cons (layout : Layout (rgn :: rest)) (starts : rgn.base < cut)
    (sticks : cut < rgn.base + rgn.size) :
    below trimRegion cut (rgn :: rest) = [{ rgn with size := cut - rgn.base }] ∧
      above trimRegion cut (rgn :: rest) =
        { rgn with base := cut, size := rgn.size - (cut - rgn.base) } :: rest := by
  obtain ⟨nonempty, fits, apart, restLayout⟩ := layout_cons_iff.mp layout
  have beyond : ∀ other ∈ rest, cut ≤ lo other := fun other member => by
    have far := apart other member
    simp only [lo_region]
    omega
  constructor
  · rw [below, List.filterMap_cons, if_neg (by simp only [hi_region]; omega),
      if_pos (by simpa using starts)]
    exact congrArg (_ :: ·) (below_of_le beyond restLayout.ordered.nonempty)
  · rw [above, List.filterMap_cons, if_neg (by simp only [lo_region]; omega),
      if_pos (by simpa using sticks)]
    refine congrArg₂ List.cons ?_ (above_of_le beyond)
    simp only [trimRegion, hi_region, MemblockRegion.mk.injEq, and_true, true_and]
    omega

/-- All regions lie from an address on when the first one does. -/
theorem Layout.le_lo (layout : Layout (rgn :: rest)) (starts : cut ≤ rgn.base) :
    ∀ other ∈ rgn :: rest, cut ≤ lo other := by
  intro other member
  rcases List.mem_cons.mp member with rfl | inRest
  · exact starts
  · have far := (layout_cons_iff.mp layout).2.2.1 other inRest
    simp only [lo_region]
    omega

/-- One visit to a region inside the range records it. -/
theorem isolateLoop_record (passed rest : List MemblockRegion) (rgn : MemblockRegion)
    (max startRgn endRgn fuel : Nat) (rgnNonempty : 0 < rgn.size) (first : base ≤ rgn.base)
    (ends : rgn.base + rgn.size ≤ endAddr) (top : endAddr ≤ ullongMax) :
    isolateLoop base endAddr (fuel + 1)
        { i := passed.length, startRgn, endRgn, type := arrayOf max (passed ++ rgn :: rest) } =
      isolateLoop base endAddr fuel
        { i := passed.length + 1
          startRgn := if endRgn = 0 then passed.length else startRgn
          endRgn := passed.length + 1
          type := arrayOf max (passed ++ rgn :: rest) } := by
  rw [isolateLoop]
  simp only [arrayOf_regions, getElem?_cursor, MemblockRegion.rend_eq (le_trans ends top)]
  rw [if_neg (by omega), if_neg (by omega), if_neg (by omega), if_neg (by omega)]

/-- A visit to a region past the range ends the loop. -/
theorem isolateLoop_stop (passed rest : List MemblockRegion) (rgn : MemblockRegion)
    (max startRgn endRgn fuel : Nat) (beyond : endAddr ≤ rgn.base) :
    isolateLoop base endAddr (fuel + 1)
        { i := passed.length, startRgn, endRgn, type := arrayOf max (passed ++ rgn :: rest) } =
      .ok
        { i := passed.length, startRgn, endRgn, type := arrayOf max (passed ++ rgn :: rest) } := by
  rw [isolateLoop]
  simp only [arrayOf_regions, getElem?_cursor, if_pos beyond]

/-- From the start of the range on, the loop records the part of each region below the end and
stops. -/
theorem isolateLoop_inside (top : endAddr ≤ ullongMax) (max : Nat)
    (rest lower middle : List MemblockRegion) (layout : Layout rest)
    (start : ∀ rgn ∈ rest, base ≤ rgn.base) (startRgn endRgn fuel : Nat)
    (window : Window lower middle startRgn endRgn) (enough : rest.length + 2 ≤ fuel)
    (room : (lower ++ middle).length + rest.length + 1 ≤ max) :
    ∃ final, isolateLoop base endAddr fuel
          { i := (lower ++ middle).length, startRgn, endRgn,
            type := arrayOf max (lower ++ middle ++ rest) } = .ok final ∧
      final.type = arrayOf max
        (lower ++ (middle ++ below trimRegion endAddr rest) ++ above trimRegion endAddr rest) ∧
      Window lower (middle ++ below trimRegion endAddr rest) final.startRgn final.endRgn := by
  induction rest generalizing middle startRgn endRgn fuel with
  | nil =>
    rw [isolateLoop]
    simp only [arrayOf_regions, getElem?_cursor_nil]
    exact ⟨_, rfl, by simp [below, above], by simpa [below] using window⟩
  | cons rgn rest inductionHypothesis =>
    obtain ⟨rgnNonempty, fits, apart, restLayout⟩ := layout_cons_iff.mp layout
    have first := start rgn List.mem_cons_self
    obtain ⟨fuel, rfl⟩ : ∃ n, fuel = n + 1 := ⟨fuel - 1, by omega⟩
    rw [List.length_cons] at enough room
    rcases le_or_gt endAddr rgn.base with beyond | starts
    · have allBeyond := layout.le_lo beyond
      rw [below_of_le allBeyond layout.ordered.nonempty, above_of_le allBeyond, List.append_nil]
      exact ⟨_, isolateLoop_stop base endAddr _ _ _ _ _ _ _ beyond, rfl, window⟩
    · rcases le_or_gt (rgn.base + rgn.size) endAddr with ends | sticks
      · rw [isolateLoop_record base endAddr _ _ _ _ _ _ _ rgnNonempty first ends top,
          below_cons_of_le ends, above_cons_of_le rgnNonempty ends]
        have recorded := inductionHypothesis (middle ++ [rgn]) restLayout
          (fun other member => start other (List.mem_cons_of_mem _ member)) _ _ fuel
          (window.record rgn) (by omega)
          (by simp only [List.length_append, List.length_cons, List.length_nil] at room ⊢; omega)
        simpa [Nat.add_assoc] using recorded
      · -- The cut steps the index back: the bottom half is visited again, and the top half
        -- ends the loop.
        obtain ⟨fuel, rfl⟩ : ∃ n, fuel = n + 2 := ⟨fuel - 2, by omega⟩
        obtain ⟨belowEq, aboveEq⟩ := cut_cons layout starts sticks
        have cutEq : Word.sub 64 endAddr rgn.base = endAddr - rgn.base :=
          Word.sub_of_le (le_of_lt starts) (by unfold ullongMax at top; omega)
        rw [isolateLoop]
        simp only [arrayOf_regions, getElem?_cursor, MemblockRegion.rend_eq fits]
        rw [if_neg (by omega), if_neg (by omega), if_neg (by omega), if_pos sticks, cutEq,
          splitRegion_arrayOf _ _ _ _ _ (by omega) (by unfold ullongMax at fits; omega)
            (by omega), ok_bind,
          isolateLoop_record base endAddr (lower ++ middle) _
            { rgn with size := endAddr - rgn.base } _ _ _ _
            (by simp only; omega) first (by simp only; omega) top]
        have stop := isolateLoop_stop base endAddr
          (lower ++ middle ++ [{ rgn with size := endAddr - rgn.base }]) rest
          { rgn with base := endAddr, size := rgn.size - (endAddr - rgn.base) } max
          (if endRgn = 0 then (lower ++ middle).length else startRgn)
          ((lower ++ middle).length + 1) fuel (le_refl _)
        rw [List.append_assoc _ [_], List.singleton_append, List.length_append] at stop
        rw [belowEq, aboveEq]
        exact ⟨_, stop, by simp, window.record _⟩

/-- Up to the start of the range the loop passes regions by, and cuts the one that reaches
into it. -/
theorem isolateLoop_before (nonempty : base < endAddr) (top : endAddr ≤ ullongMax) (max : Nat)
    (rest lower : List MemblockRegion) (layout : Layout rest) (fuel : Nat)
    (enough : rest.length + 3 ≤ fuel) (room : lower.length + rest.length + 2 ≤ max) :
    ∃ final, isolateLoop base endAddr fuel
          { i := lower.length, startRgn := 0, endRgn := 0,
            type := arrayOf max (lower ++ rest) } = .ok final ∧
      final.type = arrayOf max (lower ++ below trimRegion base rest ++
        below trimRegion endAddr (above trimRegion base rest) ++
        above trimRegion endAddr (above trimRegion base rest)) ∧
      Window (lower ++ below trimRegion base rest)
        (below trimRegion endAddr (above trimRegion base rest)) final.startRgn final.endRgn := by
  induction rest generalizing lower fuel with
  | nil =>
    rw [isolateLoop]
    simp only [arrayOf_regions, getElem?_cursor_nil]
    exact ⟨_, rfl, by simp [below, above], Or.inl ⟨by simp [below, above], rfl, rfl⟩⟩
  | cons rgn rest inductionHypothesis =>
    obtain ⟨rgnNonempty, fits, apart, restLayout⟩ := layout_cons_iff.mp layout
    rw [List.length_cons] at enough room
    rcases le_or_gt base rgn.base with inside | before
    · have allInside := layout.le_lo inside
      have fromStart := isolateLoop_inside base endAddr top max (rgn :: rest) lower [] layout
        allInside 0 0 fuel (Or.inl ⟨rfl, rfl, rfl⟩) (by rw [List.length_cons]; omega)
        (by simp only [List.append_nil, List.length_cons]; omega)
      rw [below_of_le allInside layout.ordered.nonempty, above_of_le allInside]
      simpa using fromStart
    · obtain ⟨fuel, rfl⟩ : ∃ n, fuel = n + 1 := ⟨fuel - 1, by omega⟩
      rw [isolateLoop]
      simp only [arrayOf_regions, getElem?_cursor, MemblockRegion.rend_eq fits]
      rw [if_neg (show ¬ endAddr ≤ rgn.base by omega)]
      rcases le_or_gt (rgn.base + rgn.size) base with ends | sticks
      · rw [if_pos ends, below_cons_of_le ends, above_cons_of_le rgnNonempty ends]
        have passed := inductionHypothesis (lower ++ [rgn]) restLayout fuel (by omega)
          (by simp only [List.length_append, List.length_cons, List.length_nil]; omega)
        simpa using passed
      · obtain ⟨belowEq, aboveEq⟩ := cut_cons layout before sticks
        have cutEq : Word.sub 64 base rgn.base = base - rgn.base :=
          Word.sub_of_le (le_of_lt before) (by unfold ullongMax at top; omega)
        rw [if_neg (by omega), if_pos before, cutEq,
          splitRegion_arrayOf _ _ _ _ _ (by omega) (by unfold ullongMax at fits; omega)
            (by omega), ok_bind, belowEq, aboveEq]
        have topLayout : Layout
            ({ rgn with base := base, size := rgn.size - (base - rgn.base) } :: rest) := by
          refine layout_cons_iff.mpr
            ⟨by simp only; omega, by simp only; omega, fun other member => ?_, restLayout⟩
          have far := apart other member
          simp only
          omega
        have fromStart := isolateLoop_inside base endAddr top max
          ({ rgn with base := base, size := rgn.size - (base - rgn.base) } :: rest)
          (lower ++ [{ rgn with size := base - rgn.base }]) [] topLayout
          (topLayout.le_lo (le_refl _)) 0 0 fuel (Or.inl ⟨rfl, rfl, rfl⟩)
          (by rw [List.length_cons]; omega)
          (by simp only [List.append_nil, List.length_append, List.length_cons, List.length_nil]
              omega)
        simpa using fromStart

end Isolate

/-! ### The removing loop -/

/-- The entry that an emptied array keeps. -/
def dummyRegion (nid : Int) : MemblockRegion := { base := 0, size := 0, flags := 0, nid }

/-- An array without regions keeps a dummy entry. -/
def orDummy (nodesShift : Nat) (regions : List MemblockRegion) : List MemblockRegion :=
  if regions = [] then [dummyRegion (maxNumnodes nodesShift)] else regions

theorem memblockRemoveRegion_arrayOf (nodesShift max : Nat) (passed rest : List MemblockRegion)
    (rgn : MemblockRegion) (fits : rgn.size < 2 ^ 64) :
    memblockRemoveRegion nodesShift (arrayOf max (passed ++ rgn :: rest)) passed.length =
      arrayOf max (orDummy nodesShift (passed ++ rest)) := by
  simp only [memblockRemoveRegion, arrayOf_regions, getElem?_cursor, Option.map_some,
    Option.getD_some, eraseIdx_cursor, List.length_eq_zero_iff]
  have total : sizeSum (orDummy nodesShift (passed ++ rest)) = sizeSum (passed ++ rest) := by
    unfold orDummy
    split
    · next empty => rw [empty]; rfl
    · rfl
  have less : Word.sub 64 (arrayOf max (passed ++ rgn :: rest)).totalSize rgn.size =
      sizeSum (passed ++ rest) % 2 ^ 64 := by
    simp only [arrayOf, Word.sub, sizeSum_append, sizeSum_cons]
    omega
  rw [less, ← total]
  rfl

/-- Removing the recorded window, from its far end down. -/
theorem removeWindow (nodesShift max : Nat) (lower middle upper : List MemblockRegion)
    (fits : ∀ rgn ∈ middle, rgn.size < 2 ^ 64) (some : middle ≠ []) :
    (List.range' lower.length middle.length).reverse.foldl (memblockRemoveRegion nodesShift)
        (arrayOf max (lower ++ middle ++ upper)) =
      arrayOf max (orDummy nodesShift (lower ++ upper)) := by
  induction middle using List.reverseRecOn generalizing upper with
  | nil => exact absurd rfl some
  | append_singleton middle last inductionHypothesis =>
    rw [List.length_append, List.length_singleton, List.range'_1_concat, List.reverse_append,
      List.reverse_singleton, List.singleton_append, List.foldl_cons]
    have removed := memblockRemoveRegion_arrayOf nodesShift max (lower ++ middle) upper last
      (fits last (by simp))
    rw [List.length_append] at removed
    rw [show lower ++ (middle ++ [last]) ++ upper = lower ++ middle ++ last :: upper by simp,
      removed]
    by_cases alone : middle = []
    · subst alone
      simp
    · have kept : orDummy nodesShift (lower ++ middle ++ upper) = lower ++ middle ++ upper := by
        unfold orDummy
        rw [if_neg (by simp [alone])]
      rw [kept]
      exact inductionHypothesis upper
        (fun rgn member => fits rgn (List.mem_append_left _ member)) alone

/-! ### What is left -/

/-- The regions left when a range is removed. -/
def remaining (base stop : Nat) (regions : List MemblockRegion) : List MemblockRegion :=
  below trimRegion base regions ++ above trimRegion stop (above trimRegion base regions)

theorem attrAt_below (cut : Nat) (regions : List MemblockRegion) (addr : Nat) :
    attrAt (below trimRegion cut regions) addr =
      if addr < cut then attrAt regions addr else none :=
  itemAt_below lo_trimRegion hi_trimRegion _ (fun _ _ _ => rfl) cut regions addr

theorem attrAt_above (cut : Nat) (regions : List MemblockRegion) (addr : Nat) :
    attrAt (above trimRegion cut regions) addr =
      if cut ≤ addr then attrAt regions addr else none :=
  itemAt_above lo_trimRegion hi_trimRegion _ (fun _ _ _ => rfl) cut regions addr

/-- Removing a range removes it from the address map. -/
theorem attrAt_remaining (base stop : Nat) (within : base ≤ stop) (regions : List MemblockRegion) :
    attrAt (remaining base stop regions) = (attrAt regions).remove base stop := by
  funext addr
  have parts : attrAt (remaining base stop regions) addr =
      (attrAt (below trimRegion base regions) addr).or
        (attrAt (above trimRegion stop (above trimRegion base regions)) addr) := by
    rw [attrAt, remaining, itemAt, List.find?_append, Option.map_or]
    rfl
  rw [parts, attrAt_below, attrAt_above, attrAt_above, AddressMap.remove]
  by_cases low : addr < base
  · rw [if_pos low, if_neg (by omega), if_neg (by omega)]
    simp
  · rw [if_neg low]
    by_cases high : stop ≤ addr
    · rw [if_pos high, if_pos (by omega), if_neg (by omega)]
      simp
    · rw [if_neg high, if_pos (by omega)]
      simp

variable {regions : List MemblockRegion} {base stop : Nat}

/-- A region that is left keeps its node and flags, lies off the range, and each of its ends is
an old end or an end of the range. -/
theorem mem_remaining (within : base < stop) {rgn : MemblockRegion}
    (member : rgn ∈ remaining base stop regions) :
    ∃ old ∈ regions, rgn.nid = old.nid ∧ rgn.flags = old.flags ∧
      (hi rgn = hi old ∨ hi rgn = base ∧ base ≤ hi old) ∧ (lo rgn = lo old ∨ lo rgn = stop) ∧
      (hi rgn ≤ base ∨ stop ≤ lo rgn) := by
  rcases List.mem_append.mp member with low | high
  · have ends := hi_le_of_mem_below hi_trimRegion low
    obtain ⟨old, oldMember, ⟨-, rfl⟩ | ⟨sticks, starts, rfl⟩⟩ := mem_below low
    · exact ⟨rgn, oldMember, rfl, rfl, Or.inl rfl, Or.inl rfl, Or.inl ends⟩
    · exact ⟨old, oldMember, rfl, rfl,
        Or.inr ⟨hi_trimRegion _ _ _ starts, le_of_lt sticks⟩, Or.inl rfl, Or.inl ends⟩
  · have starts := le_lo_of_mem_above lo_trimRegion high
    obtain ⟨mid, midMember, ⟨beyond, rfl⟩ | ⟨-, reaches, rfl⟩⟩ := mem_above high
    · obtain ⟨old, oldMember, ⟨-, rfl⟩ | ⟨-, inside, rfl⟩⟩ := mem_above midMember
      · exact ⟨rgn, oldMember, rfl, rfl, Or.inl rfl, Or.inl rfl, Or.inr starts⟩
      · rw [lo_trimRegion] at beyond
        omega
    · obtain ⟨old, oldMember, ⟨-, rfl⟩ | ⟨-, inside, rfl⟩⟩ := mem_above midMember
      · exact ⟨mid, oldMember, rfl, rfl, Or.inl (hi_trimRegion _ _ _ reaches), Or.inr rfl,
          Or.inr starts⟩
      · rw [hi_trimRegion _ _ _ inside] at reaches ⊢
        exact ⟨old, oldMember, rfl, rfl, Or.inl (hi_trimRegion _ _ _ reaches), Or.inr rfl,
          Or.inr starts⟩

theorem Layout.remaining (layout : Layout regions)
    (within : base < stop) : Layout (remaining base stop regions) := by
  have lowOrdered := layout.ordered.below lo_trimRegion hi_trimRegion base
  have midOrdered := layout.ordered.above lo_trimRegion hi_trimRegion base
  have highOrdered := midOrdered.above lo_trimRegion hi_trimRegion stop
  refine ⟨(ordered_append_iff _ _).mpr
    ⟨lowOrdered, highOrdered, fun low lowMember high highMember => ?_⟩, fun rgn member => ?_⟩
  · exact le_trans (hi_le_of_mem_below hi_trimRegion lowMember)
      (le_trans (le_of_lt within) (le_lo_of_mem_above lo_trimRegion highMember))
  · obtain ⟨old, oldMember, -, -, ends, -⟩ := mem_remaining within member
    have fits := layout.bounded old oldMember
    simp only [hi_region] at ends
    omega

/-- Cutting a range out of an array leaves no two regions that could be merged. -/
theorem Unmerged.remaining (unmerged : Unmerged regions) (layout : Layout regions)
    (within : base < stop) :
    Unmerged (remaining base stop regions) := by
  intro first firstMember second secondMember mergeable
  have left := (layout.remaining within).ordered.nonempty first firstMember
  have right := (layout.remaining within).ordered.nonempty second secondMember
  obtain ⟨firstOld, firstIn, firstNid, firstFlags, firstHi, -, firstOff⟩ :=
    mem_remaining within firstMember
  obtain ⟨secondOld, secondIn, secondNid, secondFlags, -, secondLo, secondOff⟩ :=
    mem_remaining within secondMember
  obtain ⟨touch, nid, flags⟩ := mergeable
  refine unmerged firstOld firstIn secondOld secondIn
    ⟨?_, by rw [← firstNid, ← secondNid, nid], by rw [← firstFlags, ← secondFlags, flags]⟩
  simp only [lo_region, hi_region] at *
  omega

theorem Layout.length_remaining (layout : Layout regions)
    (base stop : Nat) : (Memblock.remaining base stop regions).length ≤ regions.length + 1 := by
  have halves := layout.ordered.length_below_add_above trimRegion base
  have fewer : (above trimRegion stop (above trimRegion base regions)).length ≤
      (above trimRegion base regions).length := List.length_filterMap_le _ _
  rw [Memblock.remaining, List.length_append]
  omega

/-- An array with nothing inside the range keeps something. -/
theorem remaining_ne_nil (layout : Layout regions) (some : regions ≠ []) (base stop : Nat)
    (empty : below trimRegion stop (above trimRegion base regions) = []) :
    remaining base stop regions ≠ [] := by
  intro gone
  obtain ⟨lowEmpty, highEmpty⟩ := List.append_eq_nil_iff.mp gone
  obtain ⟨rgn, rest, rfl⟩ := List.exists_cons_of_ne_nil some
  have nonempty := layout.ordered.nonempty rgn List.mem_cons_self
  have covered : attrAt (rgn :: rest) rgn.base = _ := congrArg (Option.map _)
    ((layout.ordered.itemAt_eq_some_iff rgn.base rgn).mpr
      ⟨List.mem_cons_self, le_refl _, nonempty⟩)
  have lowPart := attrAt_below base (rgn :: rest) rgn.base
  have insidePart := attrAt_below stop (above trimRegion base (rgn :: rest)) rgn.base
  have highPart := attrAt_above stop (above trimRegion base (rgn :: rest)) rgn.base
  rw [lowEmpty, covered] at lowPart
  rw [empty, attrAt_above, covered] at insidePart
  rw [highEmpty, attrAt_above, covered] at highPart
  simp only [attrAt, itemAt_nil, Option.map_none, Option.map_some] at lowPart insidePart highPart
  split at lowPart
  · cases lowPart
  · next notLow =>
    have from' : base ≤ rgn.base := not_lt.mp notLow
    rcases lt_or_ge rgn.base stop with inside | beyond
    · simp [inside, from'] at insidePart
    · simp [beyond, from'] at highPart

/-! ### The whole call -/

/-- Removing a range from an array that holds regions: the array loses the range, or the call
fails and it keeps its regions. -/
theorem memblockRemoveRange_layout {Env : Type} (platform : Platform Env) (env : Env) (max : Nat)
    (regions : List MemblockRegion) (layout : Layout regions) (some : regions ≠ [])
    (base size : Nat) (within : base ≤ ullongMax) (nonempty : memblockCapSize base size ≠ 0) :
    ∃ env' max', max ≤ max' ∧
      (memblockRemoveRange platform env (arrayOf max regions) base size =
          .ok (env', -enomem, arrayOf max' regions) ∨
        memblockRemoveRange platform env (arrayOf max regions) base size =
            .ok (env', 0, arrayOf max' (orDummy platform.nodesShift
              (remaining base (base + memblockCapSize base size) regions))) ∧
          regions.length + 2 ≤ max') := by
  have top := add_memblockCapSize_le size within
  have endAddr := wordAdd_memblockCapSize size within
  generalize cappedEq : memblockCapSize base size = capped at *
  obtain ⟨env', room, max', grown, wider, enough⟩ := growArray_cases platform
    (regions.length + 2) base capped (regions.length + 2 - max) env max regions (le_refl _)
  refine ⟨env', max', wider, ?_⟩
  have isolate : memblockIsolateRange platform env (arrayOf max regions) base size =
      if room then do
        let isolated ← isolateLoop base (base + capped) (regions.length + 3)
          { i := 0, startRgn := 0, endRgn := 0, type := arrayOf max' regions }
        return (env', 0, isolated)
      else return (env', -enomem,
        { i := 0, startRgn := 0, endRgn := 0, type := arrayOf max' regions }) := by
    simp only [memblockIsolateRange, cappedEq, endAddr, if_neg nonempty, arrayOf_cnt, arrayOf_max,
      grown, ok_bind]
    cases room <;> rfl
  cases room with
  | false =>
    refine Or.inl ?_
    rw [memblockRemoveRange, isolate]
    rfl
  | true =>
    refine Or.inr ⟨?_, enough rfl⟩
    have fits := enough rfl
    obtain ⟨final, loop, type, window⟩ := isolateLoop_before base (base + capped) (by omega) top
      max' regions [] layout (regions.length + 3) (le_refl _) (by rw [List.length_nil]; omega)
    rw [List.nil_append, List.length_nil] at loop
    rw [List.nil_append] at type window
    set middle := below trimRegion (base + capped) (above trimRegion base regions) with middleEq
    have removed : (List.range' final.startRgn (final.endRgn - final.startRgn)).reverse.foldl
        (memblockRemoveRegion platform.nodesShift) final.type =
        arrayOf max' (orDummy platform.nodesShift
          (remaining base (base + capped) regions)) := by
      rw [type]
      rcases window with ⟨empty, startEq, endEq⟩ | ⟨some', startEq, endEq⟩
      · rw [startEq, endEq, empty, List.append_nil, orDummy,
          if_neg (remaining_ne_nil layout some base (base + capped) empty)]
        rfl
      · have small : ∀ rgn ∈ middle, rgn.size < 2 ^ 64 := fun rgn member => by
          have ends := hi_le_of_mem_below hi_trimRegion member
          unfold ullongMax at top
          simp only [hi_region] at ends
          omega
        rw [startEq, endEq, Nat.add_sub_cancel_left, removeWindow _ _ _ _ _ small some']
        rfl
    rw [memblockRemoveRange, isolate, if_pos rfl, loop]
    rw [← removed]
    rfl

end StudyNotes.Memblock
