/-
This file proves that the second pass builds the tree: after the walk over a
node the memory holds, after the entries it held before, those of the node and
of everything below it, in the order of the walk.

Names are in the new format here. The induction is over the tree; each record
is one use of the step lemmas for entries.
-/

import StudyNotes.DeviceTree.Arena
import StudyNotes.DeviceTree.Entries

namespace StudyNotes.DeviceTree

open Library

/-! ### The arena holds entries -/

/-- The memory of the arena holds the entries, and each full name fills what was reserved for
it. -/
structure Arena.Holding (abi : Abi) (start : Heap) (entries : List Entry) (arena : Arena) :
    Prop where
  heap : ∃ heap, arena.heap = .ok heap ∧ Holds abi start heap entries arena.mem
  reserved : ∀ entry ∈ entries,
    (⟨entry.np, abi.sizeofDeviceNode + (entry.path.length + 1), abi.alignofDeviceNode⟩ :
      Allocation) ∈ arena.allocations

section Records

variable {abi : Abi} {start : Heap} {arena : Arena} {entries done : List Entry} {current : Entry}

theorem Arena.fill_true {heap heap' : Heap} {step : Heap → Except Fault Heap}
    (isHeap : arena.heap = .ok heap) (stepped : step heap = .ok heap') :
    (arena.fill true step).heap = .ok heap' := by
  simp only [Arena.fill, if_true, isHeap, ok_bind, stepped]

/-- The record of a child. -/
theorem Arena.Holding.addChild (holding : arena.Holding abi start entries) {dad : Entry}
    (member : dad ∈ entries) (size : PathSize) (newFormat : size.newFormat = true)
    (allocl : size.allocl = (dad.stem ++ slash :: size.pathp).length + 1)
    (clean : 0 ∉ size.pathp) (room : arena.mem ≤ start.limit) :
    (addNode abi true arena (some dad.np) size).2.Holding abi start
      (entries ++ [dad.child (addNode abi true arena (some dad.np) size).1 size.pathp]) := by
  obtain ⟨heap, isHeap, holds⟩ := holding.heap
  obtain ⟨heap', added, holds'⟩ := holds.addChild member
    (le_alignUp abi.alignofDeviceNode_pos arena.mem) newFormat allocl clean room
  refine ⟨⟨heap', Arena.fill_true isHeap added, ?_⟩, ?_⟩
  · rw [Nat.add_assoc] at holds'
    exact holds'
  · intro entry inside
    rcases List.mem_append.mp inside with old | new
    · exact List.mem_append_left _ (holding.reserved entry old)
    · rw [List.mem_singleton.mp new]
      refine List.mem_append_right _ (List.mem_singleton.mpr ?_)
      rw [allocl]
      rfl

/-- The record of the root. -/
theorem Arena.Holding.addRoot (holding : arena.Holding abi start []) (size : PathSize)
    (newFormat : size.newFormat = true) (allocl : size.allocl = (slash :: size.pathp).length + 1)
    (clean : 0 ∉ size.pathp) :
    (addNode abi true arena none size).2.Holding abi start
      [Entry.root (addNode abi true arena none size).1 size.pathp] := by
  obtain ⟨heap, isHeap, holds⟩ := holding.heap
  obtain ⟨heap', added, holds'⟩ := holds.addRoot
    (le_alignUp abi.alignofDeviceNode_pos arena.mem) newFormat allocl clean
  refine ⟨⟨heap', Arena.fill_true isHeap added, ?_⟩, ?_⟩
  · rw [Nat.add_assoc] at holds'
    exact holds'
  · intro entry inside
    rw [List.mem_singleton.mp inside]
    refine List.mem_append_right _ (List.mem_singleton.mpr ?_)
    rw [allocl]
    rfl

/-- The last entry is replaced by one with the same place and the same path. -/
theorem Arena.Holding.replace {arena' : Arena} {current' : Entry}
    (holding : arena.Holding abi start (done ++ [current]))
    (place : current'.toPlace = current.toPlace) (path : current'.path = current.path)
    (allocations : ∀ allocation ∈ arena.allocations, allocation ∈ arena'.allocations)
    (heap : ∃ heap, arena'.heap = .ok heap ∧
      Holds abi start heap (done ++ [current']) arena'.mem) :
    arena'.Holding abi start (done ++ [current']) := by
  refine ⟨heap, fun entry inside => allocations _ ?_⟩
  rcases List.mem_append.mp inside with old | new
  · exact holding.reserved entry (List.mem_append_left _ old)
  · rw [List.mem_singleton.mp new, place, path]
    exact holding.reserved current (by simp)

/-! ### Properties -/

theorem Entry.hang_contents (entry : Entry) (p : PropertyEntry) :
    (entry.hang p).properties.map PropertyEntry.content =
      entry.properties.map PropertyEntry.content ++ [p.content] := by
  simp [Entry.hang]

theorem Entry.hang_slot (entry : Entry) (p : PropertyEntry) :
    (entry.hang p).slot = .ofProperty p.pp := by
  simp [Entry.slot, Entry.hang, Entry.pps]

/-- The loop over the properties hangs each of them on the last entry. -/
theorem addProperties_holding (blob : Blob) (properties : List FdtProperty) (state : PropertyWalk)
    (slot : state.prevPp = current.slot)
    (holding : state.arena.Holding abi start (done ++ [current])) :
    ∃ current' : Entry, current'.toPlace = current.toPlace ∧ current'.path = current.path ∧
      current'.phandle = properties.foldl (fun phandle property =>
        phandleAfter blob property phandle) current.phandle ∧
      current'.properties.map PropertyEntry.content =
        current.properties.map PropertyEntry.content ++ properties.map .encoded ∧
      (properties.foldl (addProperty blob abi true current.np) state).prevPp = current'.slot ∧
      (properties.foldl (addProperty blob abi true current.np) state).arena.Holding abi start
        (done ++ [current']) ∧
      (properties.foldl (addProperty blob abi true current.np) state).hasName =
        (state.hasName || properties.any fun property => stringIs blob property.name textName) := by
  induction properties generalizing state current with
  | nil => exact ⟨current, rfl, rfl, rfl, by simp, slot, holding, by simp⟩
  | cons property properties inductionHypothesis =>
    obtain ⟨heap, isHeap, holds⟩ := holding.heap
    obtain ⟨heap', added, holds'⟩ := holds.addProperty blob
      (le_alignUp abi.alignofProperty_pos state.arena.mem) property
    rw [← slot] at added
    have next : (addProperty blob abi true current.np state property).arena.Holding abi start
        (done ++ [current.addProperty blob (alignUp state.arena.mem abi.alignofProperty)
          property]) := by
      refine holding.replace rfl rfl (fun allocation old => ?_)
        ⟨heap', Arena.fill_true isHeap added, holds'⟩
      exact List.mem_append_left _ old
    have slotNext : (addProperty blob abi true current.np state property).prevPp =
        (current.addProperty blob (alignUp state.arena.mem abi.alignofProperty) property).slot := by
      rw [Entry.addProperty, Entry.hang_slot]
      rfl
    obtain ⟨last, place, path, phandle, content, slot', holding', hasName⟩ :=
      inductionHypothesis _ slotNext next
    refine ⟨last, place, path, phandle, ?_, slot', holding', ?_⟩
    · rw [content, Entry.addProperty, Entry.hang_contents]
      simp
    · rw [List.foldl_cons, List.any_cons, ← Bool.or_assoc]
      exact hasName

/-- The properties of a node in the tree: the blob's, and a name that is made up where they have
none. -/
def contents (blob : Blob) (unit : List (BitVec 8)) (properties : List FdtProperty) :
    List PropertyContent :=
  properties.map .encoded ++
    if properties.any fun property => stringIs blob property.name textName then []
    else [.fixedUp (fixedUpName unit)]

/-- The name that is made up is hung on the last entry like a property. -/
theorem fixUpName_holding {state : PropertyWalk} (slot : state.prevPp = current.slot)
    (holding : state.arena.Holding abi start (done ++ [current])) (pathp : List (BitVec 8)) :
    ∃ current' : Entry, current'.toPlace = current.toPlace ∧ current'.path = current.path ∧
      current'.phandle = current.phandle ∧
      current'.properties.map PropertyEntry.content =
        current.properties.map PropertyEntry.content ++
          (if state.hasName then [] else [.fixedUp (fixedUpName pathp)]) ∧
      (fixUpName abi true pathp state).Holding abi start (done ++ [current']) := by
  obtain ⟨heap, isHeap, holds⟩ := holding.heap
  unfold fixUpName
  split
  next named =>
    refine ⟨current, rfl, rfl, rfl, by simp, ?_⟩
    refine holding.replace rfl rfl (by simp) ⟨heap, ?_, by simpa using holds⟩
    exact Arena.fill_true isHeap (slot ▸ holds.setProperty_none)
  next unnamed =>
    obtain ⟨heap', added, holds'⟩ := holds.addFixedUpName
      (le_alignUp abi.alignofProperty_pos state.arena.mem) (fixedUpName pathp)
    rw [← slot] at added
    have ended := holds'.setProperty_none
    rw [Entry.addFixedUpName, Entry.hang_slot] at ended
    refine ⟨current.addFixedUpName (alignUp state.arena.mem abi.alignofProperty)
      (fixedUpName pathp), rfl, rfl, rfl, Entry.hang_contents current _, ?_⟩
    refine holding.replace rfl rfl (fun allocation old => ?_) ⟨heap', ?_, ?_⟩
    · exact List.mem_append_left _ old
    · exact Arena.fill_true (Arena.fill_true isHeap added) ended
    · exact holds'

/-! ### One record -/

/-- The entry shows a node: its parent, its full name, its phandle and its properties. -/
structure Entry.Shows (blob : Blob) (dad : Option Nat) (path unit : List (BitVec 8))
    (properties : List FdtProperty) (entry : Entry) : Prop where
  dad : entry.dad = dad
  path : entry.path = path
  phandle : entry.phandle = properties.foldl (fun phandle property =>
    phandleAfter blob property phandle) 0
  contents : entry.properties.map PropertyEntry.content = contents blob unit properties

/-- After the record of a node come its properties and its name. -/
theorem finishRecord_holding (blob : Blob) (properties : List FdtProperty) (pathp : List (BitVec 8))
    (slot : current.slot = .ofNode current.np) (phandle : current.phandle = 0)
    (empty : current.properties = []) (holding : arena.Holding abi start (done ++ [current])) :
    ∃ entry : Entry, entry.np = current.np ∧
      entry.Shows blob current.dad current.path pathp properties ∧
      (fixUpName abi true pathp (properties.foldl (addProperty blob abi true current.np)
        { hasName := false, prevPp := .ofNode current.np, arena })).Holding abi start
        (done ++ [entry]) := by
  obtain ⟨middle, place, path, phandle', content, slot', holding', hasName⟩ :=
    addProperties_holding blob properties ⟨false, .ofNode current.np, arena⟩ slot.symm holding
  obtain ⟨entry, place', path', phandle'', content', last⟩ := fixUpName_holding slot' holding' pathp
  refine ⟨entry, ?_, ⟨?_, ?_, ?_, ?_⟩, last⟩
  · rw [place', place]
  · rw [place', place]
  · rw [path', path]
  · rw [phandle'', phandle', phandle]
  · rw [content', content, hasName, empty, contents]
    simp

/-! ### Names in the new format -/

variable {name : List (BitVec 8)} (newFormat : name.head? ≠ some slash)
include newFormat

theorem pathSize_child {stem : List (BitVec 8)} (small : stem.length + (name.length + 2) < 2 ^ 32) :
    pathSize name (stem.length + 1) = {
      newFormat := true
      pathp := name
      allocl := (stem ++ slash :: name).length + 1
      fpsize := (stem ++ slash :: name).length + 1 } := by
  have size : stem.length + 1 + (name.length + 1) = (stem ++ slash :: name).length + 1 := by
    simp only [List.length_append, List.length_cons]
    omega
  have noWrap : ((stem ++ slash :: name).length + 1) % 2 ^ 32 =
      (stem ++ slash :: name).length + 1 := Nat.mod_eq_of_lt (by omega)
  rw [pathSize, if_neg newFormat, if_neg (Nat.succ_ne_zero _), size]
  simp only [noWrap]

theorem pathSize_root :
    pathSize name 0 = { newFormat := true, pathp := [], allocl := 2, fpsize := 1 } := by
  rw [pathSize, if_neg newFormat, if_pos rfl]

theorem buildRecord_child (blob : Blob) (properties : List FdtProperty) {dad : Entry}
    (holding : arena.Holding abi start entries) (member : dad ∈ entries) (clean : 0 ∉ name)
    (small : dad.stem.length + (name.length + 2) < 2 ^ 32) (room : arena.mem ≤ start.limit) :
    ∃ entry : Entry,
      entry.np = (buildRecord blob abi true name properties (some dad.np) (dad.stem.length + 1)
        arena).1 ∧
      entry.Shows blob (some dad.np) (dad.stem ++ slash :: name) name properties ∧
      (buildRecord blob abi true name properties (some dad.np) (dad.stem.length + 1)
        arena).2.Holding abi start (entries ++ [entry]) := by
  simp only [buildRecord]
  rw [pathSize_child newFormat small]
  have added := holding.addChild member {
      newFormat := true
      pathp := name
      allocl := (dad.stem ++ slash :: name).length + 1
      fpsize := (dad.stem ++ slash :: name).length + 1 }
    rfl rfl clean room
  exact finishRecord_holding blob properties _ rfl rfl rfl added

theorem buildRecord_root (blob : Blob) (properties : List FdtProperty)
    (holding : arena.Holding abi start []) :
    ∃ entry : Entry,
      entry.np = (buildRecord blob abi true name properties none 0 arena).1 ∧
      entry.Shows blob none [slash] [] properties ∧
      (buildRecord blob abi true name properties none 0 arena).2.Holding abi start [entry] := by
  simp only [buildRecord]
  rw [pathSize_root newFormat]
  have added := holding.addRoot { newFormat := true, pathp := [], allocl := 2, fpsize := 1 }
    rfl rfl List.not_mem_nil
  rw [← List.nil_append [Entry.root _ _]] at added
  exact finishRecord_holding blob properties _ rfl rfl rfl added

end Records

/-! ### The tree -/

/-- The built tree: the entry of a node, and its children. -/
inductive Built where
  | mk (entry : Entry) (children : List Built)

/-- The address of the node. -/
def Built.np : Built → Nat
  | .mk entry _ => entry.np

mutual

/-- The entries of a tree in the order of the walk. -/
def Built.entries : Built → List Entry
  | .mk entry children => entry :: builtEntries children

/-- The entries of several trees, in order. -/
def builtEntries : List Built → List Entry
  | [] => []
  | built :: rest => built.entries ++ builtEntries rest

end

mutual

/-- The built tree is that of a node with the given parent, full name and unit name. -/
def Node.Matches (blob : Blob) (dad : Option Nat) (path unit : List (BitVec 8)) :
    Node FdtProperty → Built → Prop
  | .mk _ properties children, .mk entry kids =>
    entry.Shows blob dad path unit properties ∧
      forestMatches blob (some entry.np) entry.stem children kids

/-- The built trees are those of the children of a node. -/
def forestMatches (blob : Blob) (dad : Option Nat) (stem : List (BitVec 8)) :
    List (Node FdtProperty) → List Built → Prop
  | [], [] => True
  | node :: rest, built :: others =>
    node.Matches blob dad (stem ++ slash :: node.name) node.name built ∧
      forestMatches blob dad stem rest others
  | _, _ => False

end

section Tree

variable {blob : Blob} {abi : Abi} {start : Heap} {tokens : List Token} {dtAlloc : Nat → Nat → Nat}
  {root : Node FdtProperty}

/-- The walk over the children of an entry appends the entries of their trees. -/
theorem buildForest_holding (forest : List (Node FdtProperty)) {arena : Arena}
    {entries : List Entry} {dad : Entry} (holding : arena.Holding abi start entries)
    (member : dad ∈ entries) (newFormat : ∀ name ∈ forestNames forest, name.head? ≠ some slash)
    (clean : ∀ name ∈ forestNames forest, 0 ∉ name)
    (small : dad.stem.length + forestNameBytes forest + 1 < 2 ^ 32)
    (room : (buildForest blob abi true forest (some dad.np) (dad.stem.length + 1) arena).mem ≤
      start.limit) :
    ∃ kids, forestMatches blob (some dad.np) dad.stem forest kids ∧
      (buildForest blob abi true forest (some dad.np) (dad.stem.length + 1) arena).Holding abi
        start (entries ++ builtEntries kids) := by
  match forest with
  | [] =>
    refine ⟨[], trivial, ?_⟩
    rw [builtEntries, List.append_nil]
    exact holding
  | .mk name properties children :: rest =>
    simp only [forestNames, Node.names, List.cons_append, List.forall_mem_cons,
      List.forall_mem_append] at newFormat clean
    rw [forestNameBytes, Node.nameBytes] at small
    simp only [buildForest, Node.build] at room ⊢
    have grows := (mem_relation abi arena.mem).buildRecord blob true true name properties
      (some dad.np) (some dad.np) (dad.stem.length + 1) arena arena (Nat.le_refl _)
    -- No address is given back, so there is room for every record before the last.
    have roomBelow := Nat.le_trans (mem_le_buildForest blob abi true rest ..) room
    have roomFirst := Nat.le_trans (mem_le_buildForest blob abi true children ..) roomBelow
    obtain ⟨entry, isNp, shows_, holding'⟩ := buildRecord_child newFormat.1 blob properties
      holding member clean.1 (by omega) (Nat.le_trans grows roomFirst)
    have stem : entry.stem = dad.stem ++ slash :: name := by
      rw [Entry.stem, shows_.dad, if_neg (by simp), shows_.path]
    have fpsize : (pathSize name (dad.stem.length + 1)).fpsize = entry.stem.length + 1 := by
      rw [pathSize_child newFormat.1 (by omega), stem]
    rw [← isNp, fpsize] at roomBelow room ⊢
    obtain ⟨kids, matches_, holdingBelow⟩ := buildForest_holding children holding' (by simp)
      newFormat.2.1 clean.2.1
      (by
        rw [stem]
        simp only [List.length_append, List.length_cons]
        omega)
      roomBelow
    obtain ⟨others, matchesRest, holdingAll⟩ := buildForest_holding rest holdingBelow
      (by simp [member]) newFormat.2.2 clean.2.2 (by omega) room
    refine ⟨.mk entry kids :: others, ⟨⟨shows_, matches_⟩, matchesRest⟩, ?_⟩
    rw [builtEntries, Built.entries, List.cons_append, List.append_cons, ← List.append_assoc]
    exact holdingAll

/-- The walk over the root leaves the entries of the whole tree. -/
theorem Node.build_root_holding (root : Node FdtProperty) (blob : Blob) {arena : Arena}
    (holding : arena.Holding abi start [])
    (newFormat : ∀ name ∈ root.names, name.head? ≠ some slash)
    (clean : ∀ name ∈ root.names, 0 ∉ name) (small : root.nameBytes + 1 < 2 ^ 32)
    (room : (root.build blob abi true none 0 arena).mem ≤ start.limit) :
    ∃ built, root.Matches blob none [slash] [] built ∧
      (root.build blob abi true none 0 arena).Holding abi start built.entries := by
  match root with
  | .mk name properties children =>
    simp only [Node.names, List.mem_cons, forall_eq_or_imp] at newFormat clean
    rw [Node.nameBytes] at small
    simp only [Node.build] at room ⊢
    obtain ⟨entry, isNp, shows_, holding'⟩ := buildRecord_root newFormat.1 blob properties holding
    have stem : entry.stem = [] := by rw [Entry.stem, shows_.dad, if_pos rfl]
    have fpsize : (pathSize name 0).fpsize = entry.stem.length + 1 := by
      rw [pathSize_root newFormat.1, stem]
      rfl
    rw [← isNp, fpsize] at room ⊢
    obtain ⟨kids, matches_, holdingAll⟩ := buildForest_holding children holding'
      (List.mem_singleton_self entry) newFormat.2 clean.2
      (by
        rw [stem, List.length_nil]
        omega)
      room
    exact ⟨.mk entry kids, ⟨shows_, matches_⟩, holdingAll⟩

/-! ### Both passes -/

theorem TextAt.clean {p : Int} {text : List (BitVec 8)} (at_ : TextAt blob p text) : 0 ∉ text := by
  induction text generalizing p with
  | nil => exact List.not_mem_nil
  | cons byte rest inductionHypothesis =>
    rw [List.mem_cons, not_or]
    exact ⟨fun zero => at_.2.1 zero.symm, inductionHypothesis at_.2.2⟩

theorem WellFormed.clean (wellFormed : WellFormed blob tokens root) :
    ∀ name ∈ root.names, 0 ∉ name := by
  intro name member
  obtain ⟨v, rest, -, at_⟩ := wellFormed.exists_at (root.beginNode_mem member)
  exact at_.1.2.clean

/-- The end of the list of all nodes is there already. -/
theorem Holds.endAllnext {heap : Heap} {entries : List Entry} {mem : Nat}
    (holds : Holds abi start heap entries mem) : heap.endAllnext = .ok heap := by
  unfold Heap.endAllnext
  split
  next isEmpty =>
    have empty : (places entries).map Place.np = [] :=
      List.getLast?_eq_none_iff.mp (holds.allnextpp.symm.trans isEmpty)
    have noNodes : heap.mynodes = none := by rw [holds.mynodes, empty, List.head?_nil]
    rw [← noNodes]
  next np isLast =>
    have last := holds.allnextpp.symm.trans isLast
    obtain ⟨place, inPlaces, rfl⟩ := List.mem_map.mp (List.mem_of_getLast? last)
    obtain ⟨entry, inside, rfl⟩ := List.mem_map.mp inPlaces
    have node := (holds.held entry inside).node
    have noNext : (entry.record abi (places entries)).allnext = none :=
      successor_of_getLast holds.nodup last
    have same : { entry.record abi (places entries) with allnext := none } =
        entry.record abi (places entries) := by rw [← noNext]
    rw [Heap.modifyNode_eq node, same, ← node, Function.update_eq_self]

section

variable (aligned : ∀ size, abi.alignofDeviceNode ∣ dtAlloc size abi.alignofDeviceNode)
include aligned

/-- Both passes over a tree make the same allocations, from a start that is aligned. -/
theorem Node.unflattened_shifted (root : Node FdtProperty) (blob : Blob) :
    Arena.Shifted (root.unflattened blob abi dtAlloc).mem
      (root.unflattened blob abi dtAlloc).sizing (root.unflattened blob abi dtAlloc).filling := by
  set passes := root.unflattened blob abi dtAlloc
  have built := (shifted_relation abi (aligned (passes.size + 4))).buildForest blob false true
    [root] none none 0 (sizingStart 0).arena (fillingStart passes.mem passes.size 0).arena
    ⟨rfl, rfl⟩
  simp only [buildForest] at built
  exact ⟨by simpa [passes, Node.unflattened] using built.mem,
    by simpa [passes, Node.unflattened] using built.allocations⟩

theorem Node.unflattened_mem_le (root : Node FdtProperty) (blob : Blob) :
    (root.unflattened blob abi dtAlloc).filling.mem ≤
      (root.unflattened blob abi dtAlloc).mem + (root.unflattened blob abi dtAlloc).size := by
  rw [(root.unflattened_shifted aligned blob).mem]
  exact Nat.add_le_add_left (le_alignUp (by decide) _) _

/-- With names in the new format the second pass leaves the tree. -/
theorem WellFormed.unflattened_holding (wellFormed : WellFormed blob tokens root)
    (newFormat : ∀ name ∈ root.names, name.head? ≠ some slash) :
    ∃ built, root.Matches blob none [slash] [] built ∧
      (root.unflattened blob abi dtAlloc).filling.Holding abi
        (freshHeap (root.unflattened blob abi dtAlloc).mem
          (root.unflattened blob abi dtAlloc).size) built.entries := by
  have fits := root.unflattened_mem_le aligned blob
  have small := wellFormed.room
  set passes := root.unflattened blob abi dtAlloc
  have start : (fillingStart passes.mem passes.size 0).arena.Holding abi
      (freshHeap passes.mem passes.size) [] :=
    ⟨⟨_, rfl, freshHeap_holds abi _ _⟩, fun _ member => by cases member⟩
  have filled : passes.filling = (root.build blob abi true none 0
      (fillingStart passes.mem passes.size 0).arena).fill true Heap.endAllnext := rfl
  obtain ⟨built, matches_, holding⟩ := root.build_root_holding blob start newFormat
    wellFormed.clean (by omega) (by
      rw [filled, Arena.fill_mem] at fits
      exact Nat.le_trans fits (Nat.le_add_right _ 4))
  refine ⟨built, matches_, ?_⟩
  obtain ⟨heap, isHeap, holds⟩ := holding.heap
  rw [filled]
  refine ⟨⟨heap, Arena.fill_true isHeap holds.endAllnext, ?_⟩, ?_⟩
  · rw [Arena.fill_mem]
    exact holds
  · rw [Arena.fill_allocations]
    exact holding.reserved

end

end Tree

end StudyNotes.DeviceTree
