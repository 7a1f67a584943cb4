/-
This file models how a flattened device tree becomes a tree of `device_node`s:
the memory the tree is built in, `unflatten_dt_node` with its two passes, and
`__unflatten_device_tree`.

The walk over the blob does not depend on the memory it fills. So the memory is
a component of the walk of its own, and a write outside the allocation it is
made for is a fault of that component. The log of the allocations is not in the
source. `name` and `type` of a node are left out: they only point at values of
its properties.
-/

import StudyNotes.DeviceTree.Blob
import StudyNotes.Library.Runs

namespace StudyNotes.DeviceTree

open Library Function

/-! ### The memory of the tree -/

/-- What the compiler fixes about the two records. -/
structure Abi where
  sizeofDeviceNode : Nat
  sizeofProperty : Nat
  alignofDeviceNode : Nat
  alignofProperty : Nat
  sizeofDeviceNode_pos : 0 < sizeofDeviceNode
  sizeofProperty_pos : 0 < sizeofProperty
  alignofDeviceNode_pos : 0 < alignofDeviceNode
  alignofProperty_dvd : alignofProperty ∣ alignofDeviceNode

/-- What a `char *` or a `void *` of a property points at. -/
inductive Ref where
  | blob (address : Int)
  | arena (address : Nat)
  | literal (text : List (BitVec 8))
  deriving DecidableEq, Repr

/-- `struct property`. -/
structure Property where
  name : Ref
  length : Int
  value : Ref
  next : Option Nat
  deriving DecidableEq, Repr

/-- `struct device_node`, as memory full of zeros shows it. -/
structure DeviceNode where
  phandle : Int := 0
  fullName : Nat := 0
  properties : Option Nat := none
  parent : Option Nat := none
  child : Option Nat := none
  sibling : Option Nat := none
  next : Option Nat := none
  allnext : Option Nat := none
  deriving DecidableEq, Repr

/-- Where a `struct property **` points. -/
inductive PropertySlot where
  | ofNode (np : Nat)
  | ofProperty (pp : Nat)
  deriving DecidableEq, Repr

/-- A use of memory that the allocations do not cover. -/
inductive Fault where
  /-- A byte is written outside the allocation that the write is made for. -/
  | overrun
  /-- A string runs past the end of the memory. -/
  | unterminated
  /-- A record is used where none was allocated. -/
  | wild
  deriving DecidableEq, Repr

/-- The memory of the second pass up to `limit`. `allnextpp` is the node whose `allnext` it
points at, or none for the list head `mynodes`. -/
structure Heap where
  nodes : Nat → Option DeviceNode
  properties : Nat → Option Property
  bytes : Nat → BitVec 8
  limit : Nat
  mynodes : Option Nat
  allnextpp : Option Nat

/-- Read a node. -/
def Heap.node (heap : Heap) (np : Nat) : Except Fault DeviceNode :=
  match heap.nodes np with
  | some node => .ok node
  | none => .error .wild

variable (heap : Heap)

/-- Write to a node. -/
def Heap.modifyNode (np : Nat) (change : DeviceNode → DeviceNode) :
    Except Fault Heap := do
  let node ← heap.node np
  .ok { heap with nodes := update heap.nodes np (some (change node)) }

/-- Write the pointer to the next property. -/
def Heap.setProperty (slot : PropertySlot) (pp : Option Nat) : Except Fault Heap :=
  match slot with
  | .ofNode np => heap.modifyNode np fun node => { node with properties := pp }
  | .ofProperty last =>
    match heap.properties last with
    | none => .error .wild
    | some property =>
      .ok { heap with
        properties := update heap.properties last (some { property with next := pp }) }

/-- Write bytes on behalf of the allocation `[start, stop)`. -/
def Heap.write (start stop address : Nat) (data : List (BitVec 8)) : Except Fault Heap :=
  if start ≤ address ∧ address + data.length ≤ stop then
    .ok { heap with
      bytes := fun a =>
        if address ≤ a ∧ a < address + data.length then data.getD (a - address) 0
        else heap.bytes a }
  else .error .overrun

/-- The string at an address, of at most `count` bytes with its terminator. -/
def stringAt (bytes : Nat → BitVec 8) : Nat → Nat → Option (List (BitVec 8))
  | 0, _ => none
  | count + 1, address =>
    if bytes address = 0 then some []
    else (stringAt bytes count (address + 1)).map (bytes address :: ·)

/-- Read a string. -/
def Heap.string (address : Nat) : Except Fault (List (BitVec 8)) :=
  match stringAt heap.bytes (heap.limit - address) address with
  | some text => .ok text
  | none => .error .unterminated

/-! ### Names -/

/-- The character `/`. -/
def slash : BitVec 8 := 0x2f

/-- The character `@`. -/
def atSign : BitVec 8 := 0x40

/-- What `unflatten_dt_node` works out about a name: the name it goes on with, the bytes to
reserve, and the size of the path so far. -/
structure PathSize where
  newFormat : Bool
  pathp : List (BitVec 8)
  allocl : Nat
  fpsize : Nat
  deriving DecidableEq, Repr

/-- `unflatten_dt_node` computes how long the full name will be. -/
def pathSize (pathp : List (BitVec 8)) (fpsize : Nat) : PathSize :=
  if pathp.head? = some slash then
    { newFormat := false, pathp, allocl := pathp.length, fpsize }
  else if fpsize = 0 then
    { newFormat := true, pathp := [], allocl := 2, fpsize := 1 }
  else
    let fpsize := fpsize + (pathp.length + 1)
    { newFormat := true, pathp, allocl := fpsize % 2 ^ 32, fpsize }

/-- Where the loop over a path finds the unit name: the index after the last slash, and the
index of the last at sign. -/
def scanPath (pathp : List (BitVec 8)) : Nat × Option Nat :=
  let scan := pathp.foldl (fun (p1, ps, pa) c =>
    (p1 + 1, if c = slash then p1 + 1 else ps, if c = atSign then some p1 else pa))
    ((0, 0, none) : Nat × Nat × Option Nat)
  scan.2

/-- The name that is made up for a node without one. -/
def fixedUpName (pathp : List (BitVec 8)) : List (BitVec 8) :=
  let (ps, pa) := scanPath pathp
  let pa := match pa with
    | none => pathp.length
    | some pa => if pa < ps then pathp.length else pa
  (pathp.drop ps).take (pa - ps)

/-- `strcmp` finds the text at an address. -/
def stringIs (blob : Blob) (address : Int) : List (BitVec 8) → Bool
  | [] => blob.byte address = 0
  | byte :: rest => blob.byte address = byte && stringIs blob (address + 1) rest

/-- The bytes of a text. -/
def ascii (text : List Char) : List (BitVec 8) := text.map fun c => BitVec.ofNat 8 c.toNat

/-- `"name"`. -/
def textName : List (BitVec 8) := ascii ['n', 'a', 'm', 'e']

/-- `"phandle"`. -/
def textPhandle : List (BitVec 8) := ascii ['p', 'h', 'a', 'n', 'd', 'l', 'e']

/-- `"linux,phandle"`. -/
def textLinuxPhandle : List (BitVec 8) := ascii ['l', 'i', 'n', 'u', 'x', ','] ++ textPhandle

/-- `"ibm,phandle"`. -/
def textIbmPhandle : List (BitVec 8) := ascii ['i', 'b', 'm', ','] ++ textPhandle

/-! ### Filling the memory -/

/-- Copy the path of the parent, where it has one to show, in front of a name; the address
where the name goes on. -/
def Heap.copyParentPath (start stop fn : Nat) (dad : Option Nat) : Except Fault (Heap × Nat) :=
  match dad with
  | none => .ok (heap, fn)
  | some dad => do
    let dadNode ← heap.node dad
    if dadNode.parent.isNone then .ok (heap, fn)
    else
      let path ← heap.string dadNode.fullName
      let heap ← heap.write start stop fn (path ++ [0])
      .ok (heap, fn + path.length)

/-- Write the full name of a node into the bytes reserved after it. -/
def Heap.writeFullName (start stop fn : Nat) (dad : Option Nat)
    (size : PathSize) : Except Fault Heap :=
  if size.newFormat then do
    let (heap, fn) ← heap.copyParentPath start stop fn dad
    let heap ← heap.write start stop fn [slash]
    heap.write start stop (fn + 1) (size.pathp ++ [0])
  else heap.write start stop fn (size.pathp ++ [0])

/-- Hang a node on the list of all nodes. -/
def Heap.linkAllnext (np : Nat) : Except Fault Heap := do
  let heap ← match heap.allnextpp with
    | none => .ok { heap with mynodes := some np }
    | some last => heap.modifyNode last fun node => { node with allnext := some np }
  .ok { heap with allnextpp := some np }

/-- Hang a node on its parent, whose `next` is the last child so far. -/
def Heap.linkParent (np : Nat) (dad : Option Nat) : Except Fault Heap :=
  match dad with
  | none => .ok heap
  | some dad => do
    let heap ← heap.modifyNode np fun node => { node with parent := some dad }
    let dadNode ← heap.node dad
    let heap ← match dadNode.next with
      | none => heap.modifyNode dad fun node => { node with child := some np }
      | some last => heap.modifyNode last fun node => { node with sibling := some np }
    heap.modifyNode dad fun node => { node with next := some np }

/-- What the second pass does for a node before it looks at the properties. -/
def Heap.addNode (abi : Abi) (np : Nat) (dad : Option Nat) (size : PathSize) (heap : Heap) :
    Except Fault Heap := do
  let fn := np + abi.sizeofDeviceNode
  let heap := { heap with
    nodes := update heap.nodes np (some { fullName := fn }) }
  let heap ← heap.writeFullName np (fn + size.allocl) fn dad size
  let heap ← heap.linkAllnext np
  heap.linkParent np dad

/-- The phandle after a property has been seen. -/
def phandleAfter (blob : Blob) (property : FdtProperty) (phandle : Int) : Int :=
  let phandle :=
    if stringIs blob property.name textPhandle || stringIs blob property.name textLinuxPhandle
    then if phandle = 0 then fdt32 blob property.data else phandle
    else phandle
  if stringIs blob property.name textIbmPhandle then fdt32 blob property.data else phandle

/-- What the second pass does for a property. -/
def Heap.addProperty (blob : Blob) (np pp : Nat) (prevPp : PropertySlot)
    (property : FdtProperty) (heap : Heap) : Except Fault Heap := do
  let heap ← heap.modifyNode np fun node =>
    { node with phandle := phandleAfter blob property node.phandle }
  let heap := { heap with
    properties := update heap.properties pp (some {
      name := .blob property.name
      length := int32 property.len
      value := .blob property.data
      next := none }) }
  heap.setProperty prevPp (some pp)

/-- What the second pass does for a name that is made up. -/
def Heap.addFixedUpName (abi : Abi) (pp : Nat) (prevPp : PropertySlot)
    (text : List (BitVec 8)) (heap : Heap) : Except Fault Heap := do
  let value := pp + abi.sizeofProperty
  let stop := value + (text.length + 1)
  let heap := { heap with
    properties := update heap.properties pp (some {
      name := .literal textName
      length := text.length + 1
      value := .arena value
      next := none }) }
  let heap ← heap.setProperty prevPp (some pp)
  let heap ← heap.write pp stop value text
  heap.write pp stop (value + text.length) [0]

/-! ### The walk -/

/-- What `unflatten_dt_alloc` has handed out. -/
structure Allocation where
  address : Nat
  size : Nat
  align : Nat
  deriving DecidableEq, Repr

/-- What a pass does to the memory of the tree: `mem`, the allocations so far, and the memory
itself. -/
structure Arena where
  mem : Nat
  allocations : List Allocation
  heap : Except Fault Heap

/-- `ALIGN`, for the powers of two that alignments are. -/
def alignUp (value align : Nat) : Nat := (value + (align - 1)) / align * align

/-- `unflatten_dt_alloc`. -/
def Arena.alloc (arena : Arena) (size align : Nat) : Nat × Arena :=
  let res := alignUp arena.mem align
  (res, { arena with
    mem := res + size
    allocations := arena.allocations ++ [⟨res, size, align⟩] })

/-- A step under `if (allnextpp)`. -/
def Arena.fill (filling : Bool) (step : Heap → Except Fault Heap) (arena : Arena) : Arena :=
  if filling then { arena with heap := arena.heap >>= step } else arena

/-- The variables of the loop over the properties. -/
structure PropertyWalk where
  hasName : Bool
  prevPp : PropertySlot
  arena : Arena

/-- The body of the loop over the properties. -/
def addProperty (blob : Blob) (abi : Abi) (filling : Bool) (np : Nat) (state : PropertyWalk)
    (property : FdtProperty) : PropertyWalk :=
  let (pp, arena) := state.arena.alloc abi.sizeofProperty abi.alignofProperty
  { hasName := state.hasName || stringIs blob property.name textName
    prevPp := .ofProperty pp
    arena := arena.fill filling (Heap.addProperty blob np pp state.prevPp property) }

/-- One turn of the loop over the properties, on the offset and the variables. -/
def propertyTurn (blob : Blob) (abi : Abi) (filling : Bool) (fuel np : Nat)
    (state : Int × PropertyWalk) : Option (Turn (Int × PropertyWalk) PropertyWalk) :=
  if state.1 < 0 then some (.done state.2)
  else do
    match ← fdtGetpropByOffset blob state.1 with
    | none => some (.done state.2)
    | some property =>
      let offset ← fdtNextPropertyOffset blob fuel state.1
      some (.again (offset, addProperty blob abi filling np state.2 property))

/-- The name that the walk makes up, and the end of the property list. -/
def fixUpName (abi : Abi) (filling : Bool) (pathp : List (BitVec 8)) (state : PropertyWalk) :
    Arena :=
  if state.hasName then state.arena.fill filling (·.setProperty state.prevPp none)
  else
    let text := fixedUpName pathp
    let (pp, arena) :=
      state.arena.alloc (abi.sizeofProperty + (text.length + 1)) abi.alignofProperty
    let arena := arena.fill filling (Heap.addFixedUpName abi pp state.prevPp text)
    arena.fill filling (·.setProperty (.ofProperty pp) none)

/-- The record of a node, before its properties. -/
def addNode (abi : Abi) (filling : Bool) (arena : Arena) (dad : Option Nat) (size : PathSize) :
    Nat × Arena :=
  let (np, arena) := arena.alloc (abi.sizeofDeviceNode + size.allocl) abi.alignofDeviceNode
  (np, arena.fill filling (Heap.addNode abi np dad size))

/-- The part of `unflatten_dt_node` about the node itself: its record, its properties and its
name. -/
def enterNode (blob : Blob) (abi : Abi) (filling : Bool) (fuel : Nat) (poffset : Int)
    (arena : Arena) (dad : Option Nat) (size : PathSize) : Option (Nat × Arena) := do
  let (np, arena) := addNode abi filling arena dad size
  let offset ← fdtFirstPropertyOffset blob fuel poffset
  let state ← loop (propertyTurn blob abi filling fuel np) fuel
    (offset, { hasName := false, prevPp := .ofNode np, arena })
  some (np, fixUpName abi filling size.pathp state)

/-- What a call of `unflatten_dt_node` finds and leaves: the memory, `*poffset`, and the static
`depth`. -/
structure Walk where
  arena : Arena
  poffset : Int
  depth : Int

/-- One turn of the loop over the children. -/
def childTurn (call : Walk → Option Walk) (oldDepth : Int) (walk : Walk) :
    Option (Turn Walk Walk) :=
  if walk.poffset > 0 ∧ walk.depth > oldDepth then (call walk).map .again
  else some (.done walk)

/-- `unflatten_dt_node`. Loops run on `fuel`, and calls nest at most `level` deep. -/
def unflattenDtNode (blob : Blob) (abi : Abi) (filling : Bool) (fuel : Nat) :
    Nat → Walk → Option Nat → Nat → Option Walk
  | 0, _, _, _ => none
  | level + 1, walk, dad, fpsize => do
    match ← fdtGetName blob fuel walk.poffset with
    | none => some walk
    | some pathp =>
      let size := pathSize pathp fpsize
      let (np, arena) ← enterNode blob abi filling fuel walk.poffset walk.arena dad size
      let (poffset, depth) ← fdtNextNode blob fuel walk.poffset walk.depth
      loop
        (childTurn
          (fun walk => unflattenDtNode blob abi filling fuel level walk (some np) size.fpsize)
          walk.depth)
        fuel { arena, poffset, depth := if depth < 0 then 0 else depth }

/-- The memory before the second pass: zeros, and the end marker behind them. -/
def freshHeap (mem size : Nat) : Heap where
  nodes _ := none
  properties _ := none
  bytes a :=
    if a = mem + size then 0xde
    else if a = mem + size + 1 then 0xad
    else if a = mem + size + 2 then 0xbe
    else if a = mem + size + 3 then 0xef
    else 0
  limit := mem + size + 4
  mynodes := none
  allnextpp := none

/-- The first pass starts at address 0 and fills no memory. -/
def sizingStart (depth : Int) : Walk where
  arena := { mem := 0, allocations := [], heap := .error .wild }
  poffset := 0
  depth

/-- The start of the second pass, with the memory that the first one asked for. -/
def fillingStart (mem size : Nat) (depth : Int) : Walk where
  arena := { mem, allocations := [], heap := .ok (freshHeap mem size) }
  poffset := 0
  depth

/-- What `__unflatten_device_tree` leaves: what the passes did, and the memory it allocated. -/
structure Unflattened where
  sizing : Arena
  filling : Arena
  mem : Nat
  size : Nat

/-- The end of the list of all nodes. -/
def Heap.endAllnext : Except Fault Heap :=
  match heap.allnextpp with
  | none => .ok { heap with mynodes := none }
  | some last => heap.modifyNode last fun node => { node with allnext := none }

/-- `__unflatten_device_tree` from a value of the static `depth`; the inner option is for a
header that does not pass. -/
def unflattenDeviceTree (blob : Blob) (abi : Abi) (dtAlloc : Nat → Nat → Nat) (fuel : Nat)
    (depth : Int) : Option (Option Unflattened) :=
  if fdtCheckHeader blob ≠ 0 then some none
  else do
    let sizing ← unflattenDtNode blob abi false fuel fuel (sizingStart depth) none 0
    let size := alignUp sizing.arena.mem 4
    let mem := dtAlloc (size + 4) abi.alignofDeviceNode
    let filling ← unflattenDtNode blob abi true fuel fuel
      (fillingStart mem size sizing.depth) none 0
    some (some {
      sizing := sizing.arena
      filling := filling.arena.fill true Heap.endAllnext
      mem
      size })

end StudyNotes.DeviceTree
