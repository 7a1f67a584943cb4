/-
This file states what a region array looks like between calls: its regions are
sorted, disjoint and inside the address space, and its total is their sum
modulo the word size. It also reads an array as a map from addresses to node
ids and flags, and shows what a cut or a merge does to both.
-/

import StudyNotes.Library.Cursor
import StudyNotes.Library.Ranges
import StudyNotes.Library.Runs
import StudyNotes.Memblock.Region

namespace StudyNotes.Memblock

open Library

/-! ### Regions as ranges -/

instance : Ranged MemblockRegion Nat where
  lo rgn := rgn.base
  hi rgn := rgn.base + rgn.size

variable (rgn : MemblockRegion)

@[simp] theorem lo_region : lo rgn = rgn.base := rfl

@[simp] theorem hi_region : hi rgn = rgn.base + rgn.size := rfl

theorem covers_region (addr : Nat) :
    Covers rgn addr ↔ rgn.base ≤ addr ∧ addr < rgn.base + rgn.size := Iff.rfl

/-- Sorted, disjoint, non-empty regions that end inside the address space. -/
structure Layout (regions : List MemblockRegion) : Prop where
  ordered : Ordered regions
  bounded : ∀ rgn ∈ regions, rgn.base + rgn.size ≤ ullongMax

theorem MemblockRegion.rend_eq {rgn : MemblockRegion} (fits : rgn.base + rgn.size ≤ ullongMax) :
    rgn.rend = rgn.base + rgn.size :=
  Word.add_of_lt (by unfold ullongMax at fits; omega)

theorem layout_nil : Layout [] := ⟨ordered_nil, by simp⟩

theorem layout_cons_iff {rgn : MemblockRegion} {rest : List MemblockRegion} :
    Layout (rgn :: rest) ↔ 0 < rgn.size ∧ rgn.base + rgn.size ≤ ullongMax ∧
      (∀ other ∈ rest, rgn.base + rgn.size ≤ other.base) ∧ Layout rest := by
  constructor
  · rintro ⟨ordered, bounded⟩
    obtain ⟨nonempty, apart, restOrdered⟩ := ordered_cons_iff.mp ordered
    simp only [lo_region, hi_region] at nonempty apart
    exact ⟨by omega, bounded rgn List.mem_cons_self, apart, restOrdered,
      fun other member => bounded other (List.mem_cons_of_mem _ member)⟩
  · rintro ⟨nonempty, fits, apart, restOrdered, restBounded⟩
    refine ⟨ordered_cons_iff.mpr ⟨?_, apart, restOrdered⟩,
      List.forall_mem_cons.mpr ⟨fits, restBounded⟩⟩
    simp only [lo_region, hi_region]
    omega

/-! ### The total size -/

/-- The sum of the region sizes. -/
def sizeSum (regions : List MemblockRegion) : Nat := (regions.map MemblockRegion.size).sum

@[simp] theorem sizeSum_nil : sizeSum [] = 0 := rfl

@[simp] theorem sizeSum_cons (rest : List MemblockRegion) :
    sizeSum (rgn :: rest) = rgn.size + sizeSum rest := by
  simp [sizeSum]

@[simp] theorem sizeSum_append (first second : List MemblockRegion) :
    sizeSum (first ++ second) = sizeSum first + sizeSum second := by
  simp [sizeSum]

variable {regions : List MemblockRegion}

/-- Disjoint regions from `low` on have room for their sizes. -/
theorem Layout.sizeSum_le (layout : Layout regions) (low : Nat) (within : low ≤ ullongMax)
    (lowest : ∀ rgn ∈ regions, low ≤ rgn.base) : low + sizeSum regions ≤ ullongMax := by
  induction regions generalizing low with
  | nil => simpa using within
  | cons rgn rest inductionHypothesis =>
    obtain ⟨-, fits, apart, restLayout⟩ := layout_cons_iff.mp layout
    have head := lowest rgn List.mem_cons_self
    have tail := inductionHypothesis restLayout (rgn.base + rgn.size) fits apart
    rw [sizeSum_cons]
    omega

/-- A capped range ends within the address space. -/
theorem add_memblockCapSize_le {base : Nat} (size : Nat) (within : base ≤ ullongMax) :
    base + memblockCapSize base size ≤ ullongMax := by
  unfold memblockCapSize
  omega

theorem wordAdd_memblockCapSize {base : Nat} (size : Nat) (within : base ≤ ullongMax) :
    Word.add 64 base (memblockCapSize base size) = base + memblockCapSize base size := by
  have top := add_memblockCapSize_le size within
  unfold ullongMax at top
  exact Word.add_of_lt (by omega)

/-- An array whose total is in step with its regions. -/
def arrayOf (max : Nat) (regions : List MemblockRegion) : MemblockType :=
  { max, totalSize := sizeSum regions % 2 ^ 64, regions }

@[simp] theorem arrayOf_regions (max : Nat) (regions : List MemblockRegion) :
    (arrayOf max regions).regions = regions := rfl

@[simp] theorem arrayOf_max (max : Nat) (regions : List MemblockRegion) :
    (arrayOf max regions).max = max := rfl

@[simp] theorem arrayOf_cnt (max : Nat) (regions : List MemblockRegion) :
    (arrayOf max regions).cnt = regions.length := rfl

theorem Layout.totalSize_eq (layout : Layout regions) (max : Nat) :
    (arrayOf max regions).totalSize = sizeSum regions := by
  have room := layout.sizeSum_le 0 (by decide) (fun _ _ => Nat.zero_le _)
  refine Nat.mod_eq_of_lt ?_
  unfold ullongMax at room
  omega

/-! ### Single edits -/

theorem memblockInsertRegion_arrayOf (passed rest : List MemblockRegion) (max base size : Nat)
    (nid : Int) (flags : Nat) (room : passed.length + rest.length < max) :
    memblockInsertRegion (arrayOf max (passed ++ rest)) passed.length base size nid flags =
      .ok (arrayOf max (passed ++ { base, size, flags, nid } :: rest)) := by
  unfold memblockInsertRegion
  rw [if_neg (by simp only [arrayOf_max, arrayOf_cnt, List.length_append]; omega)]
  simp only [arrayOf, insertIdx_cursor, sizeSum_append, sizeSum_cons, Word.add]
  rw [show sizeSum passed + (size + sizeSum rest) = sizeSum passed + sizeSum rest + size by ring,
    Nat.mod_add_mod]

theorem splitRegion_arrayOf (passed rest : List MemblockRegion) (max : Nat) (rgn : MemblockRegion)
    (cut : Nat) (room : passed.length + rest.length + 1 < max) (fits : rgn.size < 2 ^ 64)
    (short : cut ≤ rgn.size) (base : Nat) :
    splitRegion (arrayOf max (passed ++ rgn :: rest)) passed.length rgn base cut =
      .ok (arrayOf max (passed ++ { rgn with size := cut } ::
        { rgn with base, size := rgn.size - cut } :: rest)) := by
  have top : { (arrayOf max (passed ++ rgn :: rest)) with
      regions := (arrayOf max (passed ++ rgn :: rest)).regions.set passed.length
        { rgn with base, size := Word.sub 64 rgn.size cut }
      totalSize := Word.sub 64 (arrayOf max (passed ++ rgn :: rest)).totalSize cut } =
      arrayOf max (passed ++ { rgn with base, size := rgn.size - cut } :: rest) := by
    simp only [arrayOf, set_cursor, Word.sub_of_le short fits, sizeSum_append, sizeSum_cons]
    congr 1
    unfold Word.sub
    omega
  unfold splitRegion
  rw [top, memblockInsertRegion_arrayOf _ _ _ _ _ _ _
    (by rw [List.length_cons]; omega)]

/-! ### Growing the array -/

theorem growArray_cases {Env : Type} (platform : Platform Env) (needed base size fuel : Nat)
    (env : Env) (max : Nat) (regions : List MemblockRegion) (enough : needed - max ≤ fuel) :
    ∃ env' room max', growArray platform needed base size fuel env (arrayOf max regions) =
        .ok (env', room, arrayOf max' regions) ∧ max ≤ max' ∧ (room = true → needed ≤ max') := by
  induction fuel generalizing env max with
  | zero =>
    refine ⟨env, true, max, ?_, le_refl _, fun _ => by omega⟩
    rw [growArray, if_neg (by simp only [arrayOf_max]; omega)]
  | succ fuel inductionHypothesis =>
    rw [growArray]
    split
    · cases outcome : platform.memblockDoubleArray env (arrayOf max regions) base size with
      | mk env' result =>
        cases result with
        | failed => exact ⟨env', false, max, rfl, le_refl _, by simp⟩
        | enlarged extra =>
          obtain ⟨env'', room, max', grown, wider, fits⟩ :=
            inductionHypothesis env' (max + extra + 1) (by omega)
          exact ⟨env'', room, max', grown, by omega, fits⟩
    · next enough =>
      exact ⟨env, true, max, rfl, le_refl _, fun _ => by simpa using enough⟩

/-! ### The address map -/

/-- What the array is for: the node id and the flags of each address it holds. -/
abbrev AddressMap := Nat → Option (Int × Nat)

/-- Give the attributes to the addresses of `[base, stop)` that have none. -/
def AddressMap.add (map : AddressMap) (base stop : Nat) (attr : Int × Nat) : AddressMap :=
  fun addr => (map addr).or (if base ≤ addr ∧ addr < stop then some attr else none)

/-- Drop the addresses of `[base, stop)`. -/
def AddressMap.remove (map : AddressMap) (base stop : Nat) : AddressMap :=
  fun addr => if base ≤ addr ∧ addr < stop then none else map addr

/-- The map an array stands for. -/
def attrAt (regions : List MemblockRegion) : AddressMap :=
  fun addr => (itemAt regions addr).map fun rgn => (rgn.nid, rgn.flags)

end StudyNotes.Memblock
