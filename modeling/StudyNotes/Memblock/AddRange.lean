/-
This file proves what `memblock_add_range` does to an array. The counting pass
counts the regions that the inserting pass will insert; the inserting pass fills
the gaps that the regions leave in the new range; the merging loop joins
neighbours that touch and agree on node and flags.
-/

import StudyNotes.Memblock.Layout

namespace StudyNotes.Memblock

open Library

/-! ### The two passes -/

/-- The region inserted for a gap of the new range. -/
def newRegion (nid : Int) (flags : Nat) (a b : Nat) : MemblockRegion :=
  { base := a, size := b - a, flags, nid }

variable (nid : Int)

theorem lo_newRegion (flags a b : Nat) : lo (newRegion nid flags a b) = a := rfl

theorem hi_newRegion (flags a b : Nat) (nonempty : a < b) : hi (newRegion nid flags a b) = b := by
  simp only [newRegion, hi_region]
  omega

theorem addPiece_insert (passed rest : List MemblockRegion) (max base size nrNew : Nat)
    (nid : Int) (flags from' : Nat) (room : passed.length + rest.length < max) :
    addPiece true base size nid flags
        { i := passed.length, base := from', nrNew, type := arrayOf max (passed ++ rest) } =
      .ok { i := passed.length + 1, base := from', nrNew := nrNew + 1,
            type := arrayOf max (passed ++ { base, size, flags, nid } :: rest) } := by
  simp only [addPiece, if_true,
    memblockInsertRegion_arrayOf passed rest max base size nid flags room]
  rfl

/-- What the last step of the inserting pass adds when the walk stops at `rest`. -/
theorem addRemaining_insert (flags endAddr : Nat) (top : endAddr ≤ ullongMax)
    (passed rest : List MemblockRegion) (base nrNew max : Nat)
    (room : passed.length + (if base < endAddr then 1 else 0) + rest.length ≤ max) :
    ∃ state, addRemaining true endAddr nid flags
        { i := passed.length, base, nrNew, type := arrayOf max (passed ++ rest) } = .ok state ∧
      state.type = arrayOf max (passed ++
        ((if base < endAddr then [newRegion nid flags base endAddr] else []) ++ rest)) := by
  unfold addRemaining
  by_cases remains : base < endAddr
  · simp only [if_pos remains] at room ⊢
    rw [addPiece_insert _ _ _ _ _ _ _ _ _ (by omega),
      Word.sub_of_le (le_of_lt remains) (by unfold ullongMax at top; omega)]
    exact ⟨_, rfl, rfl⟩
  · simp only [if_neg remains]
    exact ⟨_, rfl, rfl⟩

/-- The inserting pass fills the gaps of the regions it has not passed. -/
theorem addLoop_insert (flags endAddr : Nat) (top : endAddr ≤ ullongMax)
    (rest passed : List MemblockRegion) (layout : Layout rest) (base nrNew max : Nat)
    (room : passed.length +
      (fillGaps (newRegion nid flags) endAddr base rest).length ≤ max) :
    ∃ state, (addLoop true endAddr nid flags rest.length
          { i := passed.length, base, nrNew, type := arrayOf max (passed ++ rest) } >>=
        addRemaining true endAddr nid flags) = .ok state ∧
      state.type =
        arrayOf max (passed ++ fillGaps (newRegion nid flags) endAddr base rest) := by
  induction rest generalizing passed base nrNew with
  | nil =>
    rw [addLoop]
    simp only [arrayOf_regions, getElem?_cursor_nil]
    obtain ⟨state, result, type⟩ := addRemaining_insert nid flags endAddr top passed [] base
      nrNew max (by simp only [fillGaps] at room; split <;> simp_all)
    refine ⟨state, result, ?_⟩
    rw [type, List.append_nil, fillGaps]
  | cons rgn rest inductionHypothesis =>
    obtain ⟨nonempty, fits, -, restLayout⟩ := layout_cons_iff.mp layout
    rw [List.length_cons, addLoop]
    simp only [arrayOf_regions, getElem?_cursor, MemblockRegion.rend_eq fits]
    have recurse (front : List MemblockRegion) (bound count : Nat)
        (fewer : passed.length + front.length +
          (fillGaps (newRegion nid flags) endAddr bound rest).length ≤ max) :=
      inductionHypothesis (passed ++ front) restLayout bound count
        (by rw [List.length_append]; exact fewer)
    simp only [fillGaps, lo_region, hi_region] at room ⊢
    split
    · next beyond =>
      rw [if_pos beyond] at room
      obtain ⟨state, result, type⟩ := addRemaining_insert nid flags endAddr top passed
        (rgn :: rest) base nrNew max
        (by rw [List.length_append] at room; split <;> simp_all; omega)
      exact ⟨state, result, type⟩
    · next reaches =>
      rw [if_neg reaches] at room
      split
      · next below =>
        rw [if_pos below] at room
        have inserted := recurse [rgn] base nrNew
          (by simp only [List.length_cons, List.length_nil] at room ⊢; omega)
        simpa using inserted
      · next overlaps =>
        rw [if_neg overlaps] at room
        split
        · next gap =>
          rw [if_pos gap] at room
          have longer := (sublist_fillGaps (newRegion nid flags) endAddr
            (min (rgn.base + rgn.size) endAddr) rest).length_le
          rw [addPiece_insert _ _ _ _ _ _ _ _ _
              (by simp only [List.length_cons] at room ⊢; omega),
            Word.sub_of_le (le_of_lt gap) (by unfold ullongMax at fits; omega)]
          have inserted := recurse
            [newRegion nid flags base rgn.base, rgn] (min (rgn.base + rgn.size) endAddr)
            (nrNew + 1) (by simp only [List.length_cons, List.length_nil] at room ⊢; omega)
          rw [ok_bind]
          simpa [newRegion] using inserted
        · next noGap =>
          rw [if_neg noGap] at room
          have inserted := recurse [rgn] (min (rgn.base + rgn.size) endAddr) nrNew
            (by simp only [List.length_cons, List.length_nil] at room ⊢; omega)
          simpa using inserted

/-- The counting pass counts the regions that the inserting pass will insert and leaves the
array alone. -/
theorem addLoop_count (flags endAddr : Nat) (rest passed : List MemblockRegion)
    (layout : Layout rest) (base nrNew max : Nat) :
    ∃ state, (addLoop false endAddr nid flags rest.length
          { i := passed.length, base, nrNew, type := arrayOf max (passed ++ rest) } >>=
        addRemaining false endAddr nid flags) = .ok state ∧
      state.nrNew + rest.length =
        nrNew + (fillGaps (newRegion nid flags) endAddr base rest).length := by
  induction rest generalizing passed base nrNew with
  | nil =>
    rw [addLoop]
    simp only [arrayOf_regions, getElem?_cursor_nil, ok_bind, addRemaining, fillGaps]
    split
    · exact ⟨_, rfl, rfl⟩
    · exact ⟨_, rfl, rfl⟩
  | cons rgn rest inductionHypothesis =>
    obtain ⟨nonempty, fits, -, restLayout⟩ := layout_cons_iff.mp layout
    have recurse (bound count : Nat) :=
      inductionHypothesis (passed ++ [rgn]) restLayout bound count
    simp only [List.length_append, List.length_singleton, List.append_assoc,
      List.singleton_append] at recurse
    rw [List.length_cons, addLoop]
    simp only [arrayOf_regions, getElem?_cursor, MemblockRegion.rend_eq fits, fillGaps, lo_region,
      hi_region]
    split
    · simp only [ok_bind, addRemaining]
      split
      · exact ⟨_, rfl, by simp only [List.length_append, List.length_cons, List.length_nil]; omega⟩
      · exact ⟨_, rfl, by simp⟩
    · split
      · obtain ⟨state, result, count⟩ := recurse base nrNew
        exact ⟨state, result, by rw [List.length_cons]; omega⟩
      · split
        · obtain ⟨state, result, count⟩ :=
            recurse (min (rgn.base + rgn.size) endAddr) (nrNew + 1)
          exact ⟨state, result, by simp only [List.length_cons]; omega⟩
        · obtain ⟨state, result, count⟩ := recurse (min (rgn.base + rgn.size) endAddr) nrNew
          exact ⟨state, result, by rw [List.length_cons]; omega⟩

/-! ### Merging -/

/-- Two regions that touch and agree on node and flags. -/
def Mergeable (this next : MemblockRegion) : Prop :=
  this.base + this.size = next.base ∧ this.nid = next.nid ∧ this.flags = next.flags

instance (this next : MemblockRegion) : Decidable (Mergeable this next) :=
  inferInstanceAs (Decidable (_ ∧ _))

/-- The regions that the merging loop leaves, from a region on. -/
def mergeFrom : MemblockRegion → List MemblockRegion → List MemblockRegion
  | this, [] => [this]
  | this, next :: rest =>
    if Mergeable this next then mergeFrom { this with size := this.size + next.size } rest
    else this :: mergeFrom next rest

variable {rest regions : List MemblockRegion} {this : MemblockRegion}

/-- A region grown over the next one still leaves the rest of the array apart. -/
theorem layout_merged {this next : MemblockRegion}
    (layout : Layout (this :: next :: rest)) (mergeable : Mergeable this next) :
    Layout ({ this with size := this.size + next.size } :: rest) := by
  obtain ⟨nonempty, fits, apart, restLayout⟩ := layout_cons_iff.mp layout
  obtain ⟨nextNonempty, nextFits, nextApart, tailLayout⟩ := layout_cons_iff.mp restLayout
  have touch := mergeable.1
  refine layout_cons_iff.mpr ⟨?_, ?_, fun other member => ?_, tailLayout⟩
  · show 0 < this.size + next.size
    omega
  · show this.base + (this.size + next.size) ≤ ullongMax
    omega
  · have far := nextApart other member
    show this.base + (this.size + next.size) ≤ other.base
    omega

theorem mergeLoop_arrayOf (max : Nat) (rest passed : List MemblockRegion) (this : MemblockRegion)
    (layout : Layout (this :: rest)) (fuel : Nat) (enough : rest.length ≤ fuel) :
    mergeLoop fuel passed.length (arrayOf max (passed ++ this :: rest)) =
      .ok (arrayOf max (passed ++ mergeFrom this rest)) := by
  induction rest generalizing passed this fuel with
  | nil =>
    rw [mergeLoop]
    simp [mergeFrom]
  | cons next rest inductionHypothesis =>
    obtain ⟨fuel, rfl⟩ : ∃ n, fuel = n + 1 := ⟨fuel - 1, by rw [List.length_cons] at enough; omega⟩
    obtain ⟨nonempty, fits, apart, restLayout⟩ := layout_cons_iff.mp layout
    have touch := apart next List.mem_cons_self
    rw [List.length_cons] at enough
    rw [mergeLoop]
    simp only [arrayOf_regions, getElem?_cursor, getElem?_cursor_succ, List.getElem?_cons_zero,
      MemblockRegion.rend_eq fits]
    by_cases mergeable : Mergeable this next
    · have sizes : this.size + next.size < 2 ^ 64 := by
        have := (layout_cons_iff.mp (layout_merged layout mergeable)).2.1
        unfold ullongMax at this
        simp only at this
        omega
      rw [if_neg (by simp [mergeable.1, mergeable.2.1, mergeable.2.2]), mergeFrom,
        if_pos mergeable, ← inductionHypothesis passed _ (layout_merged layout mergeable) fuel
          (by omega), Word.add_of_lt sizes]
      simp only [set_cursor, eraseIdx_cursor_succ, arrayOf]
      congr 2
      simp only [sizeSum_append, sizeSum_cons]
      omega
    · rw [if_pos (by simp only [Mergeable] at mergeable; tauto),
        if_neg (by omega), mergeFrom, if_neg mergeable]
      have step := inductionHypothesis (passed ++ [this]) next restLayout fuel (by omega)
      simpa using step

/-- No region of the array can be merged with another. -/
def Unmerged (regions : List MemblockRegion) : Prop :=
  ∀ first ∈ regions, ∀ second ∈ regions, ¬ Mergeable first second

/-- The merged regions start where the old ones do, and the first one keeps its node and its
flags. -/
theorem mergeFrom_head (this : MemblockRegion) (rest : List MemblockRegion) :
    ∃ head tail, mergeFrom this rest = head :: tail ∧ head.base = this.base ∧
      head.nid = this.nid ∧ head.flags = this.flags := by
  induction rest generalizing this with
  | nil => exact ⟨this, [], rfl, rfl, rfl, rfl⟩
  | cons next rest inductionHypothesis =>
    rw [mergeFrom]
    split
    · exact inductionHypothesis { this with size := this.size + next.size }
    · exact ⟨this, _, rfl, rfl, rfl, rfl⟩

theorem length_mergeFrom (this : MemblockRegion) (rest : List MemblockRegion) :
    (mergeFrom this rest).length ≤ rest.length + 1 := by
  induction rest generalizing this with
  | nil => simp [mergeFrom]
  | cons next rest inductionHypothesis =>
    rw [mergeFrom]
    split
    · exact le_trans (inductionHypothesis _) (by simp)
    · have tail := inductionHypothesis next
      simp only [List.length_cons]
      omega

section

variable (layout : Layout (this :: rest))
include layout

theorem Layout.mergeFrom : Layout (mergeFrom this rest) := by
  induction rest generalizing this with
  | nil => exact layout
  | cons next rest inductionHypothesis =>
    obtain ⟨nonempty, fits, apart, restLayout⟩ := layout_cons_iff.mp layout
    rw [Memblock.mergeFrom]
    split
    · next mergeable => exact inductionHypothesis (layout_merged layout mergeable)
    · obtain ⟨head, tail, result, base, -⟩ := mergeFrom_head next rest
      have merged := inductionHypothesis restLayout
      have touch := apart next List.mem_cons_self
      rw [result] at merged ⊢
      obtain ⟨headNonempty, -, headApart, -⟩ := layout_cons_iff.mp merged
      refine layout_cons_iff.mpr ⟨nonempty, fits, List.forall_mem_cons.mpr ⟨by omega, ?_⟩, merged⟩
      intro other member
      have far := headApart other member
      omega

theorem Layout.unmerged_mergeFrom : Unmerged (Memblock.mergeFrom this rest) := by
  induction rest generalizing this with
  | nil =>
    intro first firstMember second secondMember mergeable
    obtain ⟨nonempty, -⟩ := layout_cons_iff.mp layout
    simp only [Memblock.mergeFrom, List.mem_singleton] at firstMember secondMember
    subst firstMember secondMember
    have touch := mergeable.1
    omega
  | cons next rest inductionHypothesis =>
    obtain ⟨nonempty, fits, apart, restLayout⟩ := layout_cons_iff.mp layout
    rw [Memblock.mergeFrom]
    split
    · next mergeable => exact inductionHypothesis (layout_merged layout mergeable)
    · next separate =>
      obtain ⟨head, tail, result, base, nid, flags⟩ := mergeFrom_head next rest
      have unmerged := inductionHypothesis restLayout
      have merged := layout.mergeFrom
      rw [Memblock.mergeFrom, if_neg separate, result] at merged
      rw [result] at unmerged ⊢
      obtain ⟨-, -, behind, tailLayout⟩ := layout_cons_iff.mp merged
      obtain ⟨headNonempty, -, headApart, -⟩ := layout_cons_iff.mp tailLayout
      intro first firstMember second secondMember mergeable
      have touch := mergeable.1
      rcases List.mem_cons.mp firstMember with rfl | firstInside
      · rcases List.mem_cons.mp secondMember with rfl | secondInside
        · omega
        · rcases List.mem_cons.mp secondInside with rfl | secondTail
          · exact separate ⟨by rw [← base]; exact touch, mergeable.2.1.trans nid,
              mergeable.2.2.trans flags⟩
          · have far := headApart second secondTail
            have near := behind head List.mem_cons_self
            omega
      · rcases List.mem_cons.mp secondMember with rfl | secondInside
        · have far := behind first firstInside
          omega
        · exact unmerged first firstInside second secondInside mergeable

/-- Merging does not change what an address reads. -/
theorem attrAt_mergeFrom (addr : Nat) :
    attrAt (Memblock.mergeFrom this rest) addr = attrAt (this :: rest) addr := by
  induction rest generalizing this with
  | nil => rfl
  | cons next rest inductionHypothesis =>
    obtain ⟨nonempty, fits, apart, restLayout⟩ := layout_cons_iff.mp layout
    rw [Memblock.mergeFrom]
    split
    · next mergeable =>
      rw [inductionHypothesis (layout_merged layout mergeable)]
      obtain ⟨touch, nid, flags⟩ := mergeable
      have grown : Covers { this with size := this.size + next.size } addr ↔
          Covers this addr ∨ Covers next addr := by
        simp only [covers_region]
        omega
      simp only [attrAt, itemAt_cons]
      by_cases inThis : Covers this addr
      · simp [grown, inThis]
      · by_cases inNext : Covers next addr
        · rw [if_pos (grown.mpr (Or.inr inNext)), if_neg inThis, if_pos inNext]
          simp [nid, flags]
        · simp [grown, inThis, inNext]
    · have tail := inductionHypothesis restLayout
      simp only [attrAt] at tail ⊢
      rw [itemAt_cons, itemAt_cons]
      split
      · rfl
      · exact tail

end

/-! ### The whole call -/

theorem Layout.fillGaps (layout : Layout regions) (nid : Int) (flags base stop : Nat)
    (within : base ≤ stop) (top : stop ≤ ullongMax) :
    Layout (fillGaps (newRegion nid flags) stop base regions) := by
  refine ⟨layout.ordered.fillGaps (lo_newRegion nid flags) (hi_newRegion nid flags) within,
    fun rgn member => ?_⟩
  rcases mem_fillGaps within layout.ordered member with old | ⟨a, b, rfl, -, nonempty, upper⟩
  · exact layout.bounded rgn old
  · have ends := hi_newRegion nid flags a b nonempty
    rw [hi_region] at ends
    omega

/-- Filling the gaps adds the range to the address map. -/
theorem attrAt_fillGaps (layout : Layout regions) (nid : Int) (flags base stop : Nat)
    (within : base ≤ stop) :
    attrAt (Library.fillGaps (newRegion nid flags) stop base regions) =
      (attrAt regions).add base stop (nid, flags) := by
  funext addr
  exact map_itemAt_fillGaps (lo_newRegion nid flags) (hi_newRegion nid flags) within layout.ordered
    fun _ _ _ _ _ _ => rfl

/-- Adding a range to an array that holds regions: the array takes the range and is merged, or
it fails and keeps its regions. -/
theorem memblockAddRange_layout {Env : Type} (platform : Platform Env) (env : Env) (max : Nat)
    (regions : List MemblockRegion) (layout : Layout regions) (some : regions ≠ [])
    (fits : regions.length ≤ max) (base size : Nat) (nid : Int) (flags : Nat)
    (within : base ≤ ullongMax) (nonempty : memblockCapSize base size ≠ 0) :
    ∃ env' max', max ≤ max' ∧
      (memblockAddRange platform env (arrayOf max regions) base size nid flags =
          .ok (env', -enomem, arrayOf max' regions) ∨
        ∃ merged, memblockAddRange platform env (arrayOf max regions) base size nid flags =
            .ok (env', 0, arrayOf max' merged) ∧
          Layout merged ∧ merged ≠ [] ∧ merged.length ≤ max' ∧ Unmerged merged ∧
          attrAt merged =
            (attrAt regions).add base (base + memblockCapSize base size) (nid, flags)) := by
  have top := add_memblockCapSize_le size within
  have endAddr := wordAdd_memblockCapSize size within
  obtain ⟨first, rest, rfl⟩ := List.exists_cons_of_ne_nil some
  have firstSize := (layout_cons_iff.mp layout).1
  generalize cappedEq : memblockCapSize base size = capped at *
  -- The two passes agree on the filled list, so the array grows enough for the second one.
  obtain ⟨counted, countPass, count⟩ := addLoop_count nid flags (base + capped) (first :: rest) []
    layout base 0 max
  set filled := Library.fillGaps (newRegion nid flags) (base + capped) base (first :: rest)
    with filledEq
  obtain ⟨env', room, max', grown, wider, enough⟩ := growArray_cases platform
    ((first :: rest).length + counted.nrNew) base capped
    ((first :: rest).length + counted.nrNew - max) env max (first :: rest) (le_refl _)
  refine ⟨env', max', wider, ?_⟩
  have start : memblockAddRange platform env (arrayOf max (first :: rest)) base size nid flags =
      if room then do
        let inserted ← addPass true base (base + capped) nid flags (arrayOf max' (first :: rest))
        let merged ← memblockMergeRegions inserted.type
        return (env', 0, merged)
      else return (env', -enomem, arrayOf max' (first :: rest)) := by
    have countPass' : addPass false base (base + capped) nid flags (arrayOf max (first :: rest)) =
        .ok counted := countPass
    simp only [memblockAddRange, cappedEq, endAddr, if_neg nonempty, arrayOf_regions,
      List.head?_cons, Option.any_some, firstSize.ne', decide_false, countPass', ok_bind,
      arrayOf_cnt, arrayOf_max, grown]
    cases room <;> rfl
  cases room with
  | false => exact Or.inl start
  | true =>
    refine Or.inr ?_
    have filledLayout : Layout filled := layout.fillGaps nid flags base _ (by omega) top
    have length := enough rfl
    obtain ⟨inserted, insertPass, type⟩ := addLoop_insert nid flags (base + capped) top
      (first :: rest) [] layout base 0 max' (by rw [← filledEq, List.length_nil]; omega)
    have insertPass' : addPass true base (base + capped) nid flags (arrayOf max' (first :: rest)) =
        .ok inserted := insertPass
    rw [← filledEq, List.nil_append] at type
    obtain ⟨head, tail, shape⟩ : ∃ head tail, filled = head :: tail :=
      List.exists_cons_of_ne_nil fun empty => by
        have longer := (sublist_fillGaps (newRegion nid flags) (base + capped) base
          (first :: rest)).length_le
        rw [← filledEq, empty] at longer
        simp at longer
    have merging : memblockMergeRegions inserted.type =
        .ok (arrayOf max' (mergeFrom head tail)) := by
      rw [type, shape]
      exact mergeLoop_arrayOf max' tail [] head (shape ▸ filledLayout) _ (by simp)
    have shorter := length_mergeFrom head tail
    have filledLength : filled.length = tail.length + 1 := by rw [shape, List.length_cons]
    refine ⟨mergeFrom head tail, ?_, (shape ▸ filledLayout).mergeFrom, ?_, by omega,
      (shape ▸ filledLayout).unmerged_mergeFrom, ?_⟩
    · rw [start, if_pos rfl, insertPass', ok_bind, merging]
      rfl
    · obtain ⟨_, _, result, -⟩ := mergeFrom_head head tail
      rw [result]
      exact List.cons_ne_nil _ _
    · funext addr
      rw [attrAt_mergeFrom (shape ▸ filledLayout), ← shape, filledEq,
        attrAt_fillGaps layout nid flags base _ (by omega)]

end StudyNotes.Memblock
