/-
This file models the radix tree that maps guest pages to sections:
`phys_map_node_alloc`, `phys_map_node_reserve`, `phys_page_set_level`,
`phys_page_set` and the walk of `phys_page_find`.

An entry is reached through a reference, to the root or to a slot of a node, as
the source reaches it through a pointer. Page numbers have fewer than 64 bits,
so none of their sums wraps. The walk is outside the source; it descends as many
levels as an entry says and stops at a leaf or at a missing node.
-/

import StudyNotes.Library.Runs
import Mathlib.Algebra.Order.Ring.Nat

namespace StudyNotes.Memory

open Library

/-! ### Configuration -/

/-- The page size of the target, and the number of levels that its addresses need. -/
structure Target where
  pageBits : Nat
  levels : Nat
  pageBits_le : pageBits ≤ 16
  levels_enough : 64 ≤ pageBits + 9 * levels
  levels_tight : pageBits + 9 * (levels - 1) < 64

/-- `P_L2_BITS`. -/
def pL2Bits : Nat := 9

/-- `P_L2_SIZE`. -/
def pL2Size : Nat := 2 ^ pL2Bits

/-- The number of pages below an entry: `1 << (level * P_L2_BITS)`. -/
def levelStep (level : Nat) : Nat := 2 ^ (level * pL2Bits)

/-- The slot of a page in its node: `(index >> (level * P_L2_BITS)) & (P_L2_SIZE - 1)`. -/
def levelSlot (index level : Nat) : Nat := index / levelStep level % pL2Size

/-- `PHYS_MAP_NODE_NIL`, the largest value of the 26-bit field. -/
def physMapNodeNil : Nat := 2 ^ 26 - 1

/-- `PHYS_SECTION_UNASSIGNED`. -/
def physSectionUnassigned : Nat := 0

/-- The assertions of the dispatch code, the end of a loop bound, and a dangling index. -/
inductive Fault
  | sectionsFull
  | dummySection
  | existingSection
  | nodeNil
  | nodesFull
  | levelUnderflow
  | loopBound
  | dangling
  deriving DecidableEq, Repr

/-! ### Entries and nodes -/

/-- `PhysPageEntry`: how many levels to skip, and the index of a node or, at a leaf, of a
section. -/
structure PhysPageEntry where
  skip : Nat
  ptr : Nat
  deriving DecidableEq, Repr

/-- What the 26-bit field keeps of an index. -/
def ptrField (index : Nat) : Nat := index % 2 ^ 26

/-- A pointer to an entry. -/
inductive EntryRef
  | root
  | slot (node index : Nat)
  deriving DecidableEq, Repr

/-- `phys_map`, and the nodes of the `PhysPageMap`. -/
structure PhysMap where
  root : PhysPageEntry
  nodes : Nat → Nat → PhysPageEntry
  nodesNb : Nat
  nodesNbAlloc : Nat

def PhysMap.read (map : PhysMap) : EntryRef → PhysPageEntry
  | .root => map.root
  | .slot node index => map.nodes node index

def PhysMap.write (map : PhysMap) (entry : PhysPageEntry) : EntryRef → PhysMap
  | .root => { map with root := entry }
  | .slot node index =>
    { map with
      nodes := fun p i => if p = node ∧ i = index then entry else map.nodes p i }

/-- The contents of a fresh node. -/
def freshEntry (leaf : Bool) : PhysPageEntry :=
  { skip := if leaf then 0 else 1
    ptr := if leaf then physSectionUnassigned else physMapNodeNil }

/-- Take the next node and fill it. -/
def physMapNodeAlloc (map : PhysMap) (leaf : Bool) : Except Fault (Nat × PhysMap) :=
  let ret := map.nodesNb
  if ret = physMapNodeNil then .error .nodeNil
  else if ret = map.nodesNbAlloc then .error .nodesFull
  else .ok (ret, { map with
    nodesNb := map.nodesNb + 1
    nodes := fun p i => if p = ret ∧ i < pL2Size then freshEntry leaf else map.nodes p i })

/-- Make room for a number of further nodes. -/
def physMapNodeReserve (map : PhysMap) (nodes : Nat) : PhysMap :=
  if map.nodesNbAlloc < map.nodesNb + nodes then
    { map with
      nodesNbAlloc := max (max (map.nodesNbAlloc * 2) 16) (map.nodesNb + nodes) }
  else map

/-! ### Setting pages -/

/-- Where a call stands: the map, and the `*index` and `*nb` that its caller shares with it. -/
structure SetState where
  map : PhysMap
  index : Nat
  nb : Nat

/-- One slot: a leaf when the slot is covered whole, the level below otherwise. -/
def setSlot (leaf step : Nat) (below : SetState → EntryRef → Except Fault SetState)
    (lp : EntryRef) (state : SetState) : Except Fault SetState :=
  if state.index % step = 0 ∧ step ≤ state.nb then
    .ok { map := state.map.write { skip := 0, ptr := ptrField leaf } lp
          index := state.index + step
          nb := state.nb - step }
  else below state lp

/-- The loop over the slots of a node, with the number of slots up to its end. -/
def setSlots (leaf step p : Nat) (below : SetState → EntryRef → Except Fault SetState) :
    Nat → Nat → SetState → Except Fault SetState
  | 0, _, state => .ok state
  | left + 1, slot, state =>
    if state.nb = 0 then .ok state
    else do
      let state ← setSlot leaf step below (.slot p slot) state
      setSlots leaf step p below left (slot + 1) state

/-- The node of an entry, allocated if it is missing. -/
def entryNode (map : PhysMap) (lp : EntryRef) (leaf : Bool) : Except Fault PhysMap :=
  let entry := map.read lp
  if entry.skip ≠ 0 ∧ entry.ptr = physMapNodeNil then do
    let (ptr, map) ← physMapNodeAlloc map leaf
    return map.write { entry with ptr := ptrField ptr } lp
  else return map

/-- The body of `phys_page_set_level`, given the call for the level below. -/
def setNode (leaf level : Nat) (below : SetState → EntryRef → Except Fault SetState)
    (state : SetState) (lp : EntryRef) : Except Fault SetState := do
  let map ← entryNode state.map lp (level = 0)
  let slot := levelSlot state.index level
  setSlots leaf (levelStep level) (map.read lp).ptr below (pL2Size - slot) slot { state with map }

/-- Set pages below an entry. Level `0` never descends further. -/
def physPageSetLevel (leaf : Nat) : Nat → SetState → EntryRef → Except Fault SetState
  | 0 => setNode leaf 0 fun _ _ => .error .levelUnderflow
  | level + 1 => setNode leaf (level + 1) (physPageSetLevel leaf level)

/-- Map `nb` pages from `index` on to a section. -/
def physPageSet (target : Target) (map : PhysMap) (index nb leaf : Nat) : Except Fault PhysMap := do
  let map := physMapNodeReserve map (3 * target.levels)
  let state ← physPageSetLevel leaf (target.levels - 1) { map, index, nb } .root
  return state.map

/-! ### Walking -/

/-- The section index that the walk from an entry, `i` levels above the pages, ends with. -/
def physPageWalk (map : PhysMap) (index : Nat) (i : Nat) (lp : PhysPageEntry) : Nat :=
  if lp.skip = 0 ∨ i < lp.skip then lp.ptr
  else if lp.ptr = physMapNodeNil then physSectionUnassigned
  else
    physPageWalk map index (i - lp.skip)
      (map.nodes lp.ptr (levelSlot index (i - lp.skip)))
termination_by i
decreasing_by omega

end StudyNotes.Memory
