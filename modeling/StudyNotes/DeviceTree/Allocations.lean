/-
This file proves when the memory of the tree is sound: both passes make the
same allocations, every byte is written inside the allocation it is written
for, full names are terminated, and the end marker stays.

A name in the old format, a full path with a leading slash, breaks this: its
bytes are counted without the terminator and copied with it.
-/

import StudyNotes.DeviceTree.Built

namespace StudyNotes.DeviceTree

open Library

/-! ### Sound memory -/

/-- The end marker behind the memory. -/
def Heap.Marked (heap : Heap) (address : Nat) : Prop :=
  BytesAt heap.bytes address [0xde, 0xad, 0xbe, 0xef]

/-- The full name of every node is terminated inside the allocation of the node. -/
def Heap.NamesEnd (heap : Heap) (allocations : List Allocation) : Prop :=
  ∀ np record, heap.nodes np = some record → ∃ allocation ∈ allocations, ∃ text,
    allocation.address = np ∧ BytesAt heap.bytes record.fullName (text ++ [0]) ∧ 0 ∉ text ∧
    record.fullName + (text.length + 1) ≤ allocation.address + allocation.size

/-- What the two passes leave is sound. A write outside the allocation it is made for would
leave a fault in the place of the memory. -/
structure Sound (result : Unflattened) : Prop where
  same : result.sizing.allocations.map (fun allocation => (allocation.size, allocation.align)) =
    result.filling.allocations.map fun allocation => (allocation.size, allocation.align)
  disjoint : result.filling.allocations.Pairwise Allocation.Before
  inside : ∀ allocation ∈ result.filling.allocations, result.mem ≤ allocation.address ∧
    allocation.address + allocation.size ≤ result.mem + result.size
  written : ∃ heap, result.filling.heap = .ok heap ∧
    heap.NamesEnd result.filling.allocations ∧ heap.Marked (result.mem + result.size)

section Sound

variable {blob : Blob} {abi : Abi} {dtAlloc : Nat → Nat → Nat} {fuel : Nat} {tokens : List Token}
  {root : Node FdtProperty} {name : List (BitVec 8)}

theorem freshHeap_marked (mem size : Nat) : (freshHeap mem size).Marked (mem + size) := by
  intro i inside
  simp only [freshHeap]
  match i with
  | 0 | 1 | 2 | 3 => simp
  | i + 4 => exact absurd inside (by simp)

/-! ### Names in the new format -/

theorem Node.unflattened_ordered (root : Node FdtProperty) (blob : Blob) (abi : Abi)
    (dtAlloc : Nat → Nat → Nat) :
    (root.unflattened blob abi dtAlloc).filling.Ordered
      (root.unflattened blob abi dtAlloc).mem := by
  set passes := root.unflattened blob abi dtAlloc with isPasses
  have built := (ordered_relation abi passes.mem).buildForest blob true true [root] none none 0
    (sizingStart 0).arena (fillingStart passes.mem passes.size 0).arena
    ⟨Nat.le_refl _, .nil, fun _ member => by cases member⟩
  rw [isPasses] at built ⊢
  exact ⟨built.le, built.before, built.inside⟩

theorem WellFormed.sound_of_new (wellFormed : WellFormed blob tokens root)
    (aligned : ∀ size, abi.alignofDeviceNode ∣ dtAlloc size abi.alignofDeviceNode)
    (newFormat : ∀ name ∈ root.names, name.head? ≠ some slash) :
    Sound (root.unflattened blob abi dtAlloc) := by
  obtain ⟨built, -, holding⟩ := wellFormed.unflattened_holding aligned newFormat
  have shifted := root.unflattened_shifted aligned blob
  have fits := root.unflattened_mem_le aligned blob
  have ordered := root.unflattened_ordered blob abi dtAlloc
  obtain ⟨heap, isHeap, holds⟩ := holding.heap
  refine ⟨?_, ordered.before, ?_, heap, isHeap, ?_, ?_⟩
  · rw [shifted.allocations, List.map_map]
    rfl
  · intro allocation member
    have within := ordered.inside allocation member
    exact ⟨within.1, Nat.le_trans within.2 fits⟩
  · intro np record isNode
    obtain ⟨place, inPlaces, rfl⟩ := List.mem_map.mp (holds.only np (by simp [isNode]))
    obtain ⟨entry, member, rfl⟩ := List.mem_map.mp inPlaces
    have held := holds.held entry member
    have isRecord : record = entry.record abi (places built.entries) :=
      Option.some.inj (isNode.symm.trans held.node)
    refine ⟨_, holding.reserved entry member, entry.path, rfl, ?_, held.clean, ?_⟩
    · rw [isRecord]
      exact held.text
    · rw [isRecord]
      exact Nat.le_of_eq (Nat.add_assoc _ _ _)
  · refine (freshHeap_marked _ _).congr fun a low _ => holds.above a (Nat.le_trans fits low)

/-! ### Names in the old format -/

/-- The terminator of a name in the old format is written behind the allocation. -/
theorem Heap.addNode_old {heap : Heap} (old : name.head? = some slash) (np : Nat) (dad : Option Nat)
    (fpsize : Nat) :
    heap.addNode abi np dad (pathSize name fpsize) = .error .overrun := by
  have size : pathSize name fpsize =
      { newFormat := false, pathp := name, allocl := name.length, fpsize } := by
    rw [pathSize, if_pos old]
  have fails : ∀ (heap : Heap) (fn : Nat),
      heap.write np (fn + name.length) fn (name ++ [0]) = .error .overrun := by
    intro heap fn
    refine if_neg fun within => ?_
    simp only [List.length_append, List.length_singleton] at within
    omega
  rw [size, Heap.addNode]
  simp only [Heap.writeFullName, Bool.false_eq_true, if_false, fails, error_bind]

theorem buildRecord_faulty (old : name.head? = some slash) (properties : List FdtProperty)
    (dad : Option Nat) (fpsize : Nat) (arena : Arena) :
    (buildRecord blob abi true name properties dad fpsize arena).2.Faulty := by
  have added : (addNode abi true arena dad (pathSize name fpsize)).2.Faulty := by
    cases before : arena.heap with
    | error fault => exact ⟨fault, congrArg (· >>= _) before⟩
    | ok heap =>
      refine ⟨.overrun, (congrArg (· >>= _) before).trans ?_⟩
      exact Heap.addNode_old old _ dad fpsize
  exact (faulty_relation abi).finishRecord blob true true properties _ 0 _ arena _ added

/-- A name in the old format anywhere in the trees leaves a fault. -/
theorem buildForest_faulty (forest : List (Node FdtProperty)) (member : name ∈ forestNames forest)
    (old : name.head? = some slash) (dad : Option Nat) (fpsize : Nat) (arena : Arena) :
    (buildForest blob abi true forest dad fpsize arena).Faulty := by
  match forest with
  | [] => cases member
  | .mk own properties children :: rest =>
    rw [buildForest, Node.build]
    rcases List.mem_append.mp member with here | later
    · refine (faulty_relation abi).buildForest blob true true rest dad dad fpsize arena _ ?_
      rcases List.mem_cons.mp here with rfl | inside
      · exact (faulty_relation abi).buildForest blob true true children dad _ _ arena _
          (buildRecord_faulty old properties dad fpsize arena)
      · exact buildForest_faulty children inside old _ _ _
    · exact buildForest_faulty rest later old dad fpsize _

theorem Node.unflattened_faulty (root : Node FdtProperty) (blob : Blob) (abi : Abi)
    (dtAlloc : Nat → Nat → Nat) (member : name ∈ root.names) (old : name.head? = some slash) :
    (root.unflattened blob abi dtAlloc).filling.Faulty := by
  obtain ⟨fault, isFault⟩ := buildForest_faulty [root] (List.mem_append_left _ member) old none 0
    (fillingStart (root.unflattened blob abi dtAlloc).mem
      (root.unflattened blob abi dtAlloc).size 0).arena
  exact ⟨fault, congrArg (· >>= Heap.endAllnext) isFault⟩

theorem Sound.not_faulty {result : Unflattened} (sound : Sound result) :
    ¬ result.filling.Faulty := by
  rintro ⟨fault, isFault⟩
  obtain ⟨heap, isHeap, -⟩ := sound.written
  cases isFault.symm.trans isHeap

/-! ### When the memory is sound -/

/-- Behind a NOP there is no root to build, and nothing is written. -/
theorem sound_hidden (mem : Nat) : Sound {
    sizing := (sizingStart 0).arena
    filling := (fillingStart mem 0 0).arena.fill true Heap.endAllnext
    mem
    size := 0 } where
  same := rfl
  disjoint := .nil
  inside _ member := by cases member
  written := ⟨freshHeap mem 0, rfl, fun _ _ isNode => (nomatch isNode), freshHeap_marked mem 0⟩

/-- The memory of a well-formed blob is sound exactly when no node is visited or no name is in
the old format. -/
theorem unflattenDeviceTree_sound_iff (wellFormed : WellFormed blob tokens root)
    (aligned : ∀ size, abi.alignofDeviceNode ∣ dtAlloc size abi.alignofDeviceNode)
    (enough : 2 ^ 31 ≤ fuel) :
    (∃ result, unflattenDeviceTree blob abi dtAlloc fuel 0 = some (some result) ∧ Sound result) ↔
      (tokens.head? = some .nop ∨ ∀ name ∈ root.names, name.head? ≠ some slash) := by
  by_cases hidden : tokens.head? = some .nop
  · have built := unflattenDeviceTree_hidden abi dtAlloc wellFormed hidden (show 0 < fuel by omega)
    exact ⟨fun _ => .inl hidden, fun _ => ⟨_, built, sound_hidden _⟩⟩
  have built := unflattenDeviceTree_build abi dtAlloc wellFormed hidden enough
  constructor
  · rintro ⟨result, isResult, sound⟩
    refine .inr fun name member old => ?_
    obtain rfl : root.unflattened blob abi dtAlloc = result :=
      Option.some.inj (Option.some.inj (built.symm.trans isResult))
    exact sound.not_faulty (root.unflattened_faulty blob abi dtAlloc member old)
  · rintro (isHidden | newFormat)
    · exact absurd isHidden hidden
    · exact ⟨_, built, wellFormed.sound_of_new aligned newFormat⟩

end Sound

/-! ### A root by itself -/

/-- The sizes of the two records where pointers have eight bytes. -/
def abi64 : Abi where
  sizeofDeviceNode := 104
  sizeofProperty := 32
  alignofDeviceNode := 8
  alignofProperty := 8
  sizeofDeviceNode_pos := by decide
  sizeofProperty_pos := by decide
  alignofDeviceNode_pos := by decide
  alignofProperty_dvd := by decide

/-- A root without properties and children, whose name has at most one byte. -/
def singleRoot (first : BitVec 8) : Blob where
  magic := 0xd00dfeed
  offDtStruct := 40
  offDtStrings := 56
  version := 0x11
  lastCompVersion := 0x10
  sizeDtStruct := 16
  byte p := [0, 0, 0, 1, first, 0, 0, 0, 0, 0, 0, 2, 0, 0, 0, 9].getD (p - 40).toNat 0

theorem singleRoot_wellFormed (name : List (BitVec 8)) (short : name = [] ∨ name = [slash]) :
    WellFormed (singleRoot (name.headD 0)) [.beginNode name, .endNode, .fin] (.mk name [] []) := by
  rcases short with rfl | rfl
  · exact ⟨by decide, by decide, rfl⟩
  · exact ⟨by decide, by decide, rfl⟩

theorem unflattenDeviceTree_sound_singleRoot :
    ∃ result, unflattenDeviceTree (singleRoot 0) abi64 (fun _ _ => 0x1000) (2 ^ 31) 0 =
      some (some result) ∧ Sound result :=
  (unflattenDeviceTree_sound_iff (singleRoot_wellFormed [] (.inl rfl)) (fun _ => by decide)
    (Nat.le_refl _)).mpr (.inr (by decide))

/-- The root of the old format is called `/`. One byte is reserved for the name, two are
copied. -/
theorem singleRoot_overrun :
    WellFormed (singleRoot slash) [.beginNode [slash], .endNode, .fin] (.mk [slash] [] []) ∧
      ∃ result, unflattenDeviceTree (singleRoot slash) abi64 (fun _ _ => 0x1000) (2 ^ 31) 0 =
          some (some result) ∧
        result.filling.allocations.head? = some ⟨0x1000, 104 + 1, 8⟩ ∧
        result.filling.heap = .error .overrun ∧ ¬ Sound result := by
  have wellFormed := singleRoot_wellFormed [slash] (.inr rfl)
  refine ⟨wellFormed, _, unflattenDeviceTree_build abi64 (fun _ _ => 0x1000) wellFormed (by decide)
    (Nat.le_refl _), by decide, rfl, fun sound => ?_⟩
  exact sound.not_faulty (Node.unflattened_faulty _ _ _ _ (List.mem_singleton_self _) rfl)

end StudyNotes.DeviceTree
