/-
This file proves what holds of a region array over whole runs. Starting from
the static initial state, every sequence of added and removed ranges runs
through without a `BUG_ON`, keeps the regions sorted, disjoint and non-empty,
and keeps the totals right; each call acts on the address map as the abstract
operation it stands for.
-/

import StudyNotes.Memblock.RemoveRange

namespace StudyNotes.Memblock

open Library

/-! ### Calls and runs -/

/-- The arrays the kernel defines. -/
inductive MemblockName
  | memory
  | reserved
  | physmem
  deriving DecidableEq, Repr

/-- The static sizes `INIT_MEMBLOCK_REGIONS` and `INIT_PHYSMEM_REGIONS`. -/
def initRegions : MemblockName → Nat
  | .memory | .reserved => 128
  | .physmem => 4

/-- The static initial state: one zeroed entry. -/
def memblockInitial (name : MemblockName) : MemblockType :=
  { max := initRegions name, totalSize := 0, regions := [dummyRegion 0] }

/-- A call on one array. -/
inductive MemblockCall
  | addRange (base size : BitVec 64) (nid : Int) (flags : Nat)
  | removeRange (base size : BitVec 64)
  deriving DecidableEq, Repr

/-- The return code of a call and the array after it. -/
def runCall {Env : Type} (platform : Platform Env) (env : Env) (type : MemblockType) :
    MemblockCall → Except Bug (Env × Int × MemblockType)
  | .addRange base size nid flags =>
    memblockAddRange platform env type base.toNat size.toNat nid flags
  | .removeRange base size => memblockRemoveRange platform env type base.toNat size.toNat

/-- A run drops the return codes: a failed call is followed by the next one. -/
def runCalls {Env : Type} (platform : Platform Env) (state : Env × MemblockType)
    (calls : List MemblockCall) : Except Bug (Env × MemblockType) :=
  calls.foldlM (fun state call => do
    let (env, _, type) ← runCall platform state.1 state.2 call
    return (env, type)) state

/-! ### The invariant -/

/-- What the array looks like between calls. -/
structure Invariant (type : MemblockType) : Prop where
  sorted : type.regions.Pairwise fun first second => first.base ≤ second.base
  disjoint : type.regions.Pairwise fun first second =>
    ∀ addr, ¬ (Covers first addr ∧ Covers second addr)
  nonempty : (∀ rgn ∈ type.regions, 0 < rgn.size) ∨
    ∃ nid, type.regions = [dummyRegion nid] ∧ type.cnt = 1 ∧ type.totalSize = 0
  inside : ∀ rgn ∈ type.regions, rgn.base + rgn.size ≤ ullongMax
  cnt : 1 ≤ type.cnt ∧ type.cnt ≤ type.max
  total : type.totalSize = sizeSum type.regions

/-- The form in which the proofs carry it: an empty array, or a layout. -/
def Held (type : MemblockType) : Prop :=
  type = arrayOf type.max type.regions ∧ type.cnt ≤ type.max ∧
    ((∃ nid, type.regions = [dummyRegion nid]) ∨ (Layout type.regions ∧ type.regions ≠ []))

/-- An array that has been merged: it is empty, or no two of its regions can be merged. -/
def Tidy (type : MemblockType) : Prop :=
  (∃ nid, type.regions = [dummyRegion nid]) ∨ Unmerged type.regions

variable {type : MemblockType} {Env : Type}

theorem Held.invariant (held : Held type) : Invariant type := by
  obtain ⟨array, fits, ⟨nid, dummy⟩ | ⟨layout, some⟩⟩ := held
  · have total : type.totalSize = 0 := by
      rw [array, dummy]
      rfl
    have one : type.cnt = 1 := by rw [MemblockType.cnt, dummy]; rfl
    exact
      { sorted := by rw [dummy]; exact List.pairwise_singleton _ _
        disjoint := by rw [dummy]; exact List.pairwise_singleton _ _
        nonempty := Or.inr ⟨nid, dummy, one, total⟩
        inside := by rw [dummy]; simp [dummyRegion]
        cnt := ⟨by omega, fits⟩
        total := by rw [total, dummy]; rfl }
  · have total := layout.totalSize_eq type.max
    rw [← array] at total
    have positive : ∀ rgn ∈ type.regions, 0 < rgn.size := fun rgn member => by
      have := layout.ordered.nonempty rgn member
      simp only [lo_region, hi_region] at this
      omega
    exact
      { sorted := layout.ordered.apart.imp fun apart => by
          simp only [lo_region, hi_region] at apart
          omega
        disjoint := layout.ordered.apart.imp fun apart addr both => by
          simp only [lo_region, hi_region] at apart
          simp only [covers_region] at both
          omega
        nonempty := Or.inl positive
        inside := layout.bounded
        cnt := ⟨List.length_pos_iff.mpr some, fits⟩
        total := total }

theorem Invariant.held (invariant : Invariant type) : Held type := by
  have array (total : sizeSum type.regions < 2 ^ 64) : type = arrayOf type.max type.regions := by
    rw [arrayOf, Nat.mod_eq_of_lt total, ← invariant.total]
  rcases invariant.nonempty with positive | ⟨nid, dummy, -⟩
  · have layout : Layout type.regions := by
      refine ⟨⟨fun rgn member => ?_, ?_⟩, invariant.inside⟩
      · have := positive rgn member
        simp only [lo_region, hi_region]
        omega
      · refine (invariant.sorted.and invariant.disjoint).imp_of_mem
          fun {first second} _ secondMember both => ?_
        -- A second region that starts inside the first one would share its base with it.
        by_contra overlap
        refine both.2 second.base ⟨⟨both.1, not_le.mp overlap⟩, le_refl _, ?_⟩
        have := positive second secondMember
        simp only [hi_region]
        omega
    have room := layout.sizeSum_le 0 (by decide) (fun _ _ => Nat.zero_le _)
    exact ⟨array (by unfold ullongMax at room; omega), invariant.cnt.2,
      Or.inr ⟨layout, List.length_pos_iff.mp invariant.cnt.1⟩⟩
  · exact ⟨array (by rw [dummy]; simp [dummyRegion]), invariant.cnt.2, Or.inl ⟨nid, dummy⟩⟩

theorem held_memblockInitial (name : MemblockName) : Held (memblockInitial name) :=
  ⟨rfl, by cases name <;> decide, Or.inl ⟨0, rfl⟩⟩

theorem attrAt_dummy (nid : Int) : attrAt [dummyRegion nid] = fun _ => none := by
  funext addr
  simp [attrAt, itemAt_cons, covers_region, dummyRegion]

/-- Neighbours of a merged array differ or do not touch. -/
theorem Tidy.neighbours (tidy : Tidy type) :
    type.regions.IsChain fun this next => ¬ Mergeable this next := by
  obtain ⟨nid, dummy⟩ | unmerged := tidy
  · rw [dummy]
    exact .singleton _
  · refine List.Pairwise.isChain (List.pairwise_of_forall_mem_list fun first firstMember second
      secondMember => unmerged first firstMember second secondMember)

/-! ### One call -/

theorem held_arrayOf {max : Nat} {regions : List MemblockRegion} (layout : Layout regions)
    (some : regions ≠ []) (fits : regions.length ≤ max) : Held (arrayOf max regions) :=
  ⟨rfl, fits, Or.inr ⟨layout, some⟩⟩

/-- Room grown for a call that then fails changes nothing else. -/
theorem Held.enlarge (held : Held type) {max : Nat} (wider : type.max ≤ max) :
    Held (arrayOf max type.regions) :=
  ⟨rfl, le_trans held.2.1 wider, held.2.2⟩

/-- The end of the range that a call is about. -/
def cappedEnd (base size : Nat) : Nat := base + min size (ullongMax - base)

theorem cappedEnd_eq (base size : Nat) : cappedEnd base size = base + memblockCapSize base size :=
  rfl

section

variable (platform : Platform Env) (env : Env)

/-- Adding a range to an empty array replaces its dummy entry. -/
theorem memblockAddRange_dummy (max : Nat) (old : Int) (base size : Nat) (nid : Int) (flags : Nat)
    (nonempty : memblockCapSize base size ≠ 0) :
    memblockAddRange platform env (arrayOf max [dummyRegion old]) base size nid flags =
      .ok (env, 0, arrayOf max [newRegion nid flags base (cappedEnd base size)]) := by
  have small : memblockCapSize base size < 2 ^ 64 := by
    unfold memblockCapSize ullongMax
    omega
  simp only [memblockAddRange, if_neg nonempty, arrayOf_regions, List.head?_cons, Option.any_some,
    dummyRegion, decide_true, if_true, List.tail_cons]
  simp only [arrayOf, newRegion, cappedEnd_eq, Nat.add_sub_cancel_left, sizeSum_cons, sizeSum_nil,
    Nat.add_zero, Nat.mod_eq_of_lt small]
  rfl

/-- Removing a range from an empty array changes nothing. -/
theorem memblockRemoveRange_dummy (max : Nat) (old : Int) (base size : Nat)
    (within : base ≤ ullongMax) (nonempty : memblockCapSize base size ≠ 0) :
    ∃ env' ret max', max ≤ max' ∧
      memblockRemoveRange platform env (arrayOf max [dummyRegion old]) base size =
        .ok (env', ret, arrayOf max' [dummyRegion old]) := by
  have endAddr : Word.add 64 base (memblockCapSize base size) =
      base + memblockCapSize base size :=
    Word.add_of_lt (by unfold memblockCapSize ullongMax at *; omega)
  obtain ⟨env', room, max', grown, wider, -⟩ := growArray_cases platform (1 + 2) base
    (memblockCapSize base size) (1 + 2 - max) env max [dummyRegion old] (le_refl _)
  have passed : isolateLoop base (base + memblockCapSize base size) 4
      { i := 0, startRgn := 0, endRgn := 0, type := arrayOf max' [dummyRegion old] } =
      .ok { i := 1, startRgn := 0, endRgn := 0, type := arrayOf max' [dummyRegion old] } := by
    have before : ¬ base + memblockCapSize base size ≤ (dummyRegion old).base := by
      simp only [dummyRegion]
      omega
    rw [isolateLoop]
    simp only [arrayOf_regions, List.getElem?_cons_zero, if_neg before]
    have skipped : (dummyRegion old).rend ≤ base := Nat.zero_le base
    rw [if_pos skipped, isolateLoop]
    simp
  have isolate : memblockIsolateRange platform env (arrayOf max [dummyRegion old]) base size =
      .ok (env', if room then 0 else -enomem,
        { i := if room then 1 else 0
          startRgn := 0
          endRgn := 0
          type := arrayOf max' [dummyRegion old] }) := by
    simp only [memblockIsolateRange, if_neg nonempty, endAddr, arrayOf_cnt, arrayOf_max,
      List.length_singleton, grown, ok_bind]
    cases room with
    | false => rfl
    | true =>
      simp only [Bool.not_true, Bool.false_eq_true, if_false, if_true, passed]
      rfl
  refine ⟨env', if room then 0 else -enomem, max', wider, ?_⟩
  rw [memblockRemoveRange, isolate]
  cases room <;> rfl

/-- What a call leaves behind: a sound array, tidy if it was, and on failure the same regions. -/
structure Outcome (before : MemblockType) (ret : Int) (after : MemblockType)
    (map : AddressMap) : Prop where
  held : Held after
  tidy : Tidy before → Tidy after
  done : ret = 0 → attrAt after.regions = map
  failed : ret ≠ 0 → after.regions = before.regions

/-- Adding a range to an array between calls. -/
theorem memblockAddRange_held (held : Held type) (base size : Nat) (nid : Int) (flags : Nat)
    (within : base ≤ ullongMax) :
    ∃ env' ret type', memblockAddRange platform env type base size nid flags =
        .ok (env', ret, type') ∧
      Outcome type ret type'
        ((attrAt type.regions).add base (cappedEnd base size) (nid, flags)) := by
  obtain ⟨array, fits, shape⟩ := id held
  by_cases empty : memblockCapSize base size = 0
  · refine ⟨env, 0, type, ?_, held, id, fun _ => ?_, by simp⟩
    · simp only [memblockAddRange, empty, if_true]
      rfl
    · funext addr
      rw [cappedEnd_eq, empty, AddressMap.add, if_neg (by omega), Option.or_none]
  · rcases shape with ⟨old, dummy⟩ | ⟨layout, some⟩
    · rw [array, dummy]
      have top : cappedEnd base size ≤ ullongMax := by
        unfold cappedEnd
        omega
      have nonempty : base < cappedEnd base size := by
        rw [cappedEnd_eq]
        omega
      have filled : fillGaps (newRegion nid flags) (cappedEnd base size) base [] =
          [newRegion nid flags base (cappedEnd base size)] := if_pos nonempty
      have single : Layout [newRegion nid flags base (cappedEnd base size)] :=
        filled ▸ layout_nil.fillGaps nid flags base _ (le_of_lt nonempty) top
      refine ⟨env, 0, _, memblockAddRange_dummy platform env type.max old base size nid flags empty,
        held_arrayOf single (by simp) ?_, fun _ => Or.inr single.unmerged_mergeFrom,
        fun _ => ?_, by simp⟩
      · rw [MemblockType.cnt, dummy] at fits
        exact fits
      · rw [arrayOf_regions, arrayOf_regions, ← filled,
          attrAt_fillGaps layout_nil nid flags base _ (le_of_lt nonempty), attrAt_dummy]
        rfl
    · rw [array]
      obtain ⟨env', max', wider, failed | ⟨merged, result, mergedLayout, some', fits', unmerged,
        attrs⟩⟩ := memblockAddRange_layout platform env type.max type.regions layout some fits
        base size nid flags within empty
      · exact ⟨env', -enomem, _, failed, held.enlarge wider, id, by simp [enomem], fun _ => rfl⟩
      · exact ⟨env', 0, _, result, held_arrayOf mergedLayout some' fits',
          fun _ => Or.inr unmerged, fun _ => attrs, by simp⟩

/-- Removing a range from an array between calls. -/
theorem memblockRemoveRange_held (held : Held type) (base size : Nat) (within : base ≤ ullongMax) :
    ∃ env' ret type', memblockRemoveRange platform env type base size =
        .ok (env', ret, type') ∧
      Outcome type ret type' ((attrAt type.regions).remove base (cappedEnd base size)) := by
  obtain ⟨array, fits, shape⟩ := id held
  by_cases empty : memblockCapSize base size = 0
  · refine ⟨env, 0, type, ?_, held, id, fun _ => ?_, by simp⟩
    · simp only [memblockRemoveRange, memblockIsolateRange, empty, if_true]
      rfl
    · funext addr
      rw [cappedEnd_eq, empty, AddressMap.remove, if_neg (by omega)]
  · rcases shape with ⟨old, dummy⟩ | ⟨layout, some⟩
    · obtain ⟨env', ret, max', wider, result⟩ := memblockRemoveRange_dummy platform env type.max old
        base size within empty
      have kept := held.enlarge wider
      rw [array, dummy]
      rw [dummy] at kept
      refine ⟨env', ret, _, result, kept, id, fun _ => ?_, fun _ => rfl⟩
      simp only [arrayOf_regions, attrAt_dummy]
      funext addr
      simp [AddressMap.remove]
    · rw [array]
      obtain ⟨env', max', wider, failed | ⟨result, room⟩⟩ := memblockRemoveRange_layout platform env
        type.max type.regions layout some base size within empty
      · exact ⟨env', -enomem, _, failed, held.enlarge wider, id, by simp [enomem], fun _ => rfl⟩
      · have nonempty : base < cappedEnd base size := by
          rw [cappedEnd_eq]
          omega
        have attrs := attrAt_remaining base (cappedEnd base size) (le_of_lt nonempty) type.regions
        have shorter := layout.length_remaining base (cappedEnd base size)
        refine ⟨env', 0, _, result, ?_, fun tidy => ?_, fun _ => ?_, by simp⟩
        · rw [← cappedEnd_eq, orDummy]
          split
          · exact ⟨rfl, by simp only [arrayOf_cnt, arrayOf_max, List.length_singleton]; omega,
              Or.inl ⟨_, rfl⟩⟩
          · next some' =>
            exact held_arrayOf (layout.remaining nonempty) some' (by omega)
        · rw [← cappedEnd_eq, orDummy]
          split
          · exact Or.inl ⟨_, rfl⟩
          · rcases tidy with ⟨nid, dummy⟩ | unmerged
            · have positive := (layout_cons_iff.mp (dummy ▸ layout)).1
              exact absurd positive (lt_irrefl 0)
            · exact Or.inr (unmerged.remaining layout nonempty)
        · simp only [arrayOf_regions]
          rw [← attrs, ← cappedEnd_eq, orDummy]
          split
          · next gone => rw [gone, attrAt_dummy]; rfl
          · rfl

end

/-! ### Whole runs -/

theorem base_le_ullongMax (base : BitVec 64) : base.toNat ≤ ullongMax := by
  unfold ullongMax
  omega

theorem runCalls_held (platform : Platform Env) (name : MemblockName) (env : Env)
    (calls : List MemblockCall) :
    ∃ env' type, runCalls platform (env, memblockInitial name) calls = .ok (env', type) ∧
      Held type ∧ Tidy type := by
  have step (state : Env × MemblockType) (call : MemblockCall)
      (kept : Held state.2 ∧ Tidy state.2) : ∃ next, (do
        let (env, _, type) ← runCall platform state.1 state.2 call
        return (env, type) : Except Bug (Env × MemblockType)) = .ok next ∧
        (Held next.2 ∧ Tidy next.2) := by
    cases call with
    | addRange base size nid flags =>
      obtain ⟨env', ret, type', result, outcome⟩ := memblockAddRange_held platform state.1 kept.1
        base.toNat size.toNat nid flags (base_le_ullongMax base)
      exact ⟨(env', type'), by simp only [runCall, result]; rfl, outcome.held,
        outcome.tidy kept.2⟩
    | removeRange base size =>
      obtain ⟨env', ret, type', result, outcome⟩ := memblockRemoveRange_held platform state.1
        kept.1 base.toNat size.toNat (base_le_ullongMax base)
      exact ⟨(env', type'), by simp only [runCall, result]; rfl, outcome.held,
        outcome.tidy kept.2⟩
  obtain ⟨⟨env', type⟩, run, kept⟩ := foldlM_invariant _ _ step calls (env, memblockInitial name)
    ⟨held_memblockInitial name, Or.inl ⟨0, rfl⟩⟩
  exact ⟨env', type, run, kept⟩

/-- Every sequence of calls from the static initial state runs through, without a `BUG_ON`, and
leaves the array sorted, disjoint and in step with its counts. -/
theorem runCalls_invariant {Env : Type} (platform : Platform Env) (name : MemblockName)
    (env : Env) (calls : List MemblockCall) :
    ∃ env' type, runCalls platform (env, memblockInitial name) calls = .ok (env', type) ∧
      Invariant type := by
  obtain ⟨env', type, run, held, -⟩ := runCalls_held platform name env calls
  exact ⟨env', type, run, held.invariant⟩

/-- In no array that a sequence of calls can lead to, also one with removals and failed calls, two
neighbouring regions can be merged. -/
theorem runCalls_merged (platform : Platform Env) (name : MemblockName) (env : Env)
    (calls : List MemblockCall) :
    ∃ env' type, runCalls platform (env, memblockInitial name) calls = .ok (env', type) ∧
      type.regions.IsChain fun this next => ¬ Mergeable this next := by
  obtain ⟨env', type, run, -, tidy⟩ := runCalls_held platform name env calls
  exact ⟨env', type, run, tidy.neighbours⟩

/-- On every reachable array a call that returns `0` acts as the abstract operation on the
address map, adding leaves no two mergeable neighbours, and a call that fails leaves the map
alone. -/
theorem runCall_addressMap {Env : Type} (platform : Platform Env) (name : MemblockName)
    (env : Env) (calls : List MemblockCall) :
    ∃ env' type, runCalls platform (env, memblockInitial name) calls = .ok (env', type) ∧
      ∀ (base size : BitVec 64) (nid : Int) (flags : Nat),
        (∃ env'' ret type',
          memblockAddRange platform env' type base.toNat size.toNat nid flags =
            .ok (env'', ret, type') ∧
          (ret = 0 →
            (∀ addr, attrAt type'.regions addr =
              (attrAt type.regions).add base.toNat
                (base.toNat + min size.toNat (ullongMax - base.toNat)) (nid, flags) addr) ∧
            type'.regions.IsChain fun this next => ¬ Mergeable this next) ∧
          (ret ≠ 0 → ∀ addr, attrAt type'.regions addr = attrAt type.regions addr)) ∧
        (∃ env'' ret type',
          memblockRemoveRange platform env' type base.toNat size.toNat =
            .ok (env'', ret, type') ∧
          (ret = 0 → ∀ addr, attrAt type'.regions addr =
            (attrAt type.regions).remove base.toNat
              (base.toNat + min size.toNat (ullongMax - base.toNat)) addr) ∧
          (ret ≠ 0 → ∀ addr, attrAt type'.regions addr = attrAt type.regions addr)) := by
  obtain ⟨env', type, run, held, tidy⟩ := runCalls_held platform name env calls
  refine ⟨env', type, run, fun base size nid flags => ⟨?_, ?_⟩⟩
  · obtain ⟨env'', ret, type', result, outcome⟩ := memblockAddRange_held platform env'
      held base.toNat size.toNat nid flags (base_le_ullongMax base)
    exact ⟨env'', ret, type', result,
      fun zero => ⟨fun addr => congrFun (outcome.done zero) addr, (outcome.tidy tidy).neighbours⟩,
      fun nonzero addr => by rw [outcome.failed nonzero]⟩
  · obtain ⟨env'', ret, type', result, outcome⟩ := memblockRemoveRange_held platform
      env' held base.toNat size.toNat (base_le_ullongMax base)
    exact ⟨env'', ret, type', result, fun zero addr => congrFun (outcome.done zero) addr,
      fun nonzero addr => by rw [outcome.failed nonzero]⟩

end StudyNotes.Memblock
