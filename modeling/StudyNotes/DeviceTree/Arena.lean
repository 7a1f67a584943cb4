/-
This file proves what the passes do to the arena apart from the memory they
fill: where allocations lie, and that both passes make the same ones.

A pass does nothing to the arena but allocate and fill. So one rule says that a
relation between two arenas that both operations keep is kept by the whole walk
over a tree, and every fact about the allocations is an instance of it.
-/

import StudyNotes.DeviceTree.Refine

namespace StudyNotes.DeviceTree

/-! ### Alignment -/

theorem le_alignUp {align : Nat} (pos : 0 < align) (value : Nat) : value ≤ alignUp value align := by
  have divided := Nat.div_add_mod (value + (align - 1)) align
  have remainder := Nat.mod_lt (value + (align - 1)) pos
  rw [Nat.mul_comm] at divided
  unfold alignUp
  omega

/-- Alignment does not see an aligned start. -/
theorem alignUp_add {base align : Nat} (pos : 0 < align) (aligned : align ∣ base) (value : Nat) :
    alignUp (base + value) align = base + alignUp value align := by
  obtain ⟨count, rfl⟩ := aligned
  unfold alignUp
  rw [Nat.add_assoc, Nat.mul_add_div pos, Nat.add_mul, Nat.mul_comm count align]

theorem Abi.alignofProperty_pos (abi : Abi) : 0 < abi.alignofProperty :=
  Nat.pos_of_dvd_of_pos abi.alignofProperty_dvd abi.alignofDeviceNode_pos

/-- An alignment that the walk asks for. -/
def Abi.Asks (abi : Abi) (align : Nat) : Prop :=
  0 < align ∧ align ∣ abi.alignofDeviceNode

theorem Abi.asks_deviceNode (abi : Abi) : abi.Asks abi.alignofDeviceNode :=
  ⟨abi.alignofDeviceNode_pos, Nat.dvd_refl _⟩

theorem Abi.asks_property (abi : Abi) : abi.Asks abi.alignofProperty :=
  ⟨abi.alignofProperty_pos, abi.alignofProperty_dvd⟩

/-! ### The rule -/

/-- A relation between two arenas that allocating and filling keep. -/
structure ArenaRelation (abi : Abi) (Related : Arena → Arena → Prop) : Prop where
  alloc : ∀ {one other : Arena} (size align : Nat), abi.Asks align → Related one other →
    Related (one.alloc size align).2 (other.alloc size align).2
  fill : ∀ {one other : Arena} (filling filling' : Bool) (step step' : Heap → Except Fault Heap),
    Related one other → Related (one.fill filling step) (other.fill filling' step')

section Rule

variable (blob : Blob) {abi : Abi} (filling filling' : Bool) {Related : Arena → Arena → Prop}

section

variable (rule : ArenaRelation abi Related)
include rule

theorem ArenaRelation.addNode {one other : Arena}
    (related : Related one other) (dad dad' : Option Nat) (size : PathSize) :
    Related (addNode abi filling one dad size).2 (addNode abi filling' other dad' size).2 :=
  rule.fill _ _ _ _ (rule.alloc _ _ abi.asks_deviceNode related)

theorem ArenaRelation.addProperties
    (properties : List FdtProperty) {np np' : Nat} {one other : PropertyWalk}
    (related : Related one.arena other.arena) (hasName : one.hasName = other.hasName) :
    Related (properties.foldl (addProperty blob abi filling np) one).arena
        (properties.foldl (addProperty blob abi filling' np') other).arena ∧
      (properties.foldl (addProperty blob abi filling np) one).hasName =
        (properties.foldl (addProperty blob abi filling' np') other).hasName := by
  induction properties generalizing one other with
  | nil => exact ⟨related, hasName⟩
  | cons property properties inductionHypothesis =>
    refine inductionHypothesis ?_ ?_
    · exact rule.fill _ _ _ _ (rule.alloc _ _ abi.asks_property related)
    · simp only [addProperty, hasName]

theorem ArenaRelation.fixUpName {one other : PropertyWalk} (related : Related one.arena other.arena)
    (hasName : one.hasName = other.hasName) (pathp : List (BitVec 8)) :
    Related (fixUpName abi filling pathp one) (fixUpName abi filling' pathp other) := by
  unfold DeviceTree.fixUpName
  rw [hasName]
  split
  · exact rule.fill _ _ _ _ related
  · exact rule.fill _ _ _ _ (rule.fill _ _ _ _ (rule.alloc _ _ abi.asks_property related))

/-- What comes after the record of a node: its properties and its name. -/
theorem ArenaRelation.finishRecord (properties : List FdtProperty) (pathp : List (BitVec 8))
    (np np' : Nat) (one other : Arena) (related : Related one other) :
    Related
      (DeviceTree.fixUpName abi filling pathp
        (properties.foldl (addProperty blob abi filling np)
          { hasName := false, prevPp := .ofNode np, arena := one }))
      (DeviceTree.fixUpName abi filling' pathp
        (properties.foldl (addProperty blob abi filling' np')
          { hasName := false, prevPp := .ofNode np', arena := other })) := by
  refine rule.fixUpName filling filling' ?_ ?_ _
  · exact And.left (rule.addProperties blob filling filling' properties related rfl)
  · exact And.right (rule.addProperties blob filling filling' properties related rfl)

theorem ArenaRelation.buildRecord (name : List (BitVec 8)) (properties : List FdtProperty)
    (dad dad' : Option Nat) (fpsize : Nat) (one other : Arena) (related : Related one other) :
    Related (buildRecord blob abi filling name properties dad fpsize one).2
      (buildRecord blob abi filling' name properties dad' fpsize other).2 :=
  rule.finishRecord blob filling filling' properties _ _ _ _ _
    (rule.addNode filling filling' related dad dad' (pathSize name fpsize))

end

/-- What allocating and filling keep, the walk over nodes keeps. -/
theorem ArenaRelation.buildForest (rule : ArenaRelation abi Related)
    (forest : List (Node FdtProperty)) (dad dad' : Option Nat) (fpsize : Nat)
    (one other : Arena) (related : Related one other) :
    Related (buildForest blob abi filling forest dad fpsize one)
      (buildForest blob abi filling' forest dad' fpsize other) := by
  match forest with
  | [] => exact related
  | .mk name properties children :: rest =>
    have record := rule.buildRecord blob filling filling' name properties dad dad' fpsize one other
      related
    exact ArenaRelation.buildForest rule rest _ _ _ _ _
      (ArenaRelation.buildForest rule children _ _ _ _ _ record)

end Rule

/-! ### Where allocations lie -/

variable (arena : Arena)

@[simp] theorem Arena.fill_mem (filling : Bool) (step : Heap → Except Fault Heap) :
    (arena.fill filling step).mem = arena.mem := by
  unfold Arena.fill
  split <;> rfl

@[simp] theorem Arena.fill_allocations (filling : Bool) (step : Heap → Except Fault Heap) :
    (arena.fill filling step).allocations = arena.allocations := by
  unfold Arena.fill
  split <;> rfl

theorem Arena.alloc_mem (size align : Nat) :
    (arena.alloc size align).2.mem = alignUp arena.mem align + size := rfl

theorem Arena.alloc_allocations (size align : Nat) :
    (arena.alloc size align).2.allocations =
      arena.allocations ++ [⟨alignUp arena.mem align, size, align⟩] := rfl

theorem mem_relation (abi : Abi) (base : Nat) :
    ArenaRelation abi fun _ arena => base ≤ arena.mem where
  alloc {one other} size align asks le := by
    have up := le_alignUp asks.1 other.mem
    rw [Arena.alloc_mem]
    omega
  fill filling filling' step step' le := by simpa using le

theorem mem_le_buildForest (blob : Blob) (abi : Abi) (filling : Bool)
    (forest : List (Node FdtProperty)) (dad : Option Nat) (fpsize : Nat) (arena : Arena) :
    arena.mem ≤ (buildForest blob abi filling forest dad fpsize arena).mem :=
  (mem_relation abi arena.mem).buildForest blob filling filling forest dad dad fpsize arena arena
    (Nat.le_refl _)

/-- An allocation ends before another one begins. -/
def Allocation.Before (one other : Allocation) : Prop := one.address + one.size ≤ other.address

/-- The allocations since `base` lie one after the other below `mem`. -/
structure Arena.Ordered (base : Nat) (arena : Arena) : Prop where
  le : base ≤ arena.mem
  before : arena.allocations.Pairwise Allocation.Before
  inside : ∀ allocation ∈ arena.allocations, base ≤ allocation.address ∧
    allocation.address + allocation.size ≤ arena.mem

theorem ordered_relation (abi : Abi) (base : Nat) :
    ArenaRelation abi fun _ arena => arena.Ordered base where
  alloc {one other} size align asks ordered := by
    have up := le_alignUp asks.1 other.mem
    have le := ordered.le
    refine ⟨?_, ?_, ?_⟩
    · rw [Arena.alloc_mem]
      omega
    · rw [Arena.alloc_allocations, List.pairwise_append]
      refine ⟨ordered.before, List.pairwise_singleton _ _, fun old isOld new isNew => ?_⟩
      rw [List.mem_singleton.mp isNew]
      exact Nat.le_trans (ordered.inside old isOld).2 up
    · intro allocation member
      rw [Arena.alloc_mem]
      rcases List.mem_append.mp member with old | new
      · have := ordered.inside allocation old
        omega
      · rw [List.mem_singleton.mp new]
        exact ⟨Nat.le_trans le up, Nat.le_refl _⟩
  fill filling filling' step step' ordered := by
    obtain ⟨le, before, inside⟩ := ordered
    exact ⟨by simpa using le, by simpa using before, by simpa using inside⟩

/-- One arena is the other one moved by `base`. -/
structure Arena.Shifted (base : Nat) (arena moved : Arena) : Prop where
  mem : moved.mem = base + arena.mem
  allocations : moved.allocations =
    arena.allocations.map fun allocation => { allocation with address := base + allocation.address }

/-- Both passes allocate the same, from starts that are aligned alike. -/
theorem shifted_relation (abi : Abi) {base : Nat} (aligned : abi.alignofDeviceNode ∣ base) :
    ArenaRelation abi (Arena.Shifted base) where
  alloc {one other} size align asks shifted := by
    have up : alignUp other.mem align = base + alignUp one.mem align := by
      rw [shifted.mem, alignUp_add asks.1 (Nat.dvd_trans asks.2 aligned)]
    refine ⟨?_, ?_⟩
    · rw [Arena.alloc_mem, Arena.alloc_mem, up, Nat.add_assoc]
    · rw [Arena.alloc_allocations, Arena.alloc_allocations, up, shifted.allocations]
      simp
  fill filling filling' step step' shifted :=
    ⟨by simpa using shifted.mem, by simpa using shifted.allocations⟩

/-! ### Faults stay -/

/-- What the memory holds is no longer known. -/
def Arena.Faulty : Prop := ∃ fault, arena.heap = .error fault

theorem faulty_relation (abi : Abi) : ArenaRelation abi fun _ arena => arena.Faulty where
  alloc _ _ _ faulty := faulty
  fill filling filling' step step' faulty := by
    obtain ⟨fault, isFault⟩ := faulty
    refine ⟨fault, ?_⟩
    unfold Arena.fill
    split
    · exact congrArg (· >>= step') isFault
    · exact isFault

end StudyNotes.DeviceTree
