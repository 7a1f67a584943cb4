/-
This file models the region arrays of the early boot allocator and the
functions that edit them: `memblock_insert_region`, `memblock_remove_region`,
`memblock_merge_regions`, `memblock_add_range`, `memblock_isolate_range` and
`memblock_remove_range`.

A `memblock_type` holds its `cnt` live regions as a list. Addresses and sizes
are 64-bit words. A `BUG_ON` that fires ends the run with an error, and so does
a loop that outlives the bound its model carries; neither ever happens, which is
proved in `StudyNotes.Memblock.Runs`. `memblock_double_array` is outside the
source: it is a parameter that either fails and changes nothing or enlarges the
array.
-/

import StudyNotes.Library.Word

namespace StudyNotes.Memblock

open Library

/-! ### Data -/

/-- `struct memblock_region`. -/
structure MemblockRegion where
  base : Nat
  size : Nat
  flags : Nat
  nid : Int
  deriving DecidableEq, Repr

/-- `struct memblock_type`. The list holds the first `cnt` entries of the array. -/
structure MemblockType where
  max : Nat
  totalSize : Nat
  regions : List MemblockRegion
  deriving DecidableEq, Repr

/-- The number of regions. -/
def MemblockType.cnt (type : MemblockType) : Nat := type.regions.length

/-- The end of a region, as the code computes it. -/
def MemblockRegion.rend (rgn : MemblockRegion) : Nat := Word.add 64 rgn.base rgn.size

/-- The largest physical address. -/
def ullongMax : Nat := 2 ^ 64 - 1

/-- The node id of regions without a node, `1 << NODES_SHIFT`. -/
def maxNumnodes (nodesShift : Nat) : Int := 2 ^ nodesShift

/-- How a call can go wrong inside the kernel, other than by an error code. -/
inductive Bug
  | insertRegion
  | mergeRegions
  | loopBound
  deriving DecidableEq, Repr

/-- The error code of a failed array growth. -/
def enomem : Int := 12

/-- What `memblock_double_array` does: it fails and leaves the array alone, or it adds
`extra + 1` slots. -/
inductive DoubleOutcome
  | failed
  | enlarged (extra : Nat)
  deriving DecidableEq, Repr

/-- `memblock_double_array`, together with whatever state its answers depend on, and the
node count of the configuration. -/
structure Platform (Env : Type) where
  memblockDoubleArray : Env → MemblockType → Nat → Nat → Env × DoubleOutcome
  nodesShift : Nat

/-! ### Editing the array -/

/-- Adjust the size so that `base + size` does not overflow. -/
def memblockCapSize (base size : Nat) : Nat := min size (ullongMax - base)

/-- Insert a region at an index; there must be room for it. -/
def memblockInsertRegion (type : MemblockType) (idx base size : Nat) (nid : Int) (flags : Nat) :
    Except Bug MemblockType :=
  if type.max ≤ type.cnt then
    .error .insertRegion
  else
    .ok { type with
      regions := type.regions.insertIdx idx { base, size, flags, nid }
      totalSize := Word.add 64 type.totalSize size }

/-- Remove the region at an index; an array that would become empty keeps a dummy entry. -/
def memblockRemoveRegion (nodesShift : Nat) (type : MemblockType) (r : Nat) : MemblockType :=
  let size := ((type.regions[r]?).map MemblockRegion.size).getD 0
  let regions := type.regions.eraseIdx r
  { type with
    totalSize := Word.sub 64 type.totalSize size
    regions :=
      if regions.length = 0 then
        [{ base := 0, size := 0, flags := 0, nid := maxNumnodes nodesShift }]
      else regions }

/-- The loop of `memblock_merge_regions`. -/
def mergeLoop : Nat → Nat → MemblockType → Except Bug MemblockType
  | fuel, i, type =>
    match type.regions[i]?, type.regions[i + 1]? with
    | some this, some next =>
      match fuel with
      | 0 => .error .loopBound
      | fuel + 1 =>
        if this.rend ≠ next.base ∨ this.nid ≠ next.nid ∨ this.flags ≠ next.flags then
          if next.base < this.rend then .error .mergeRegions
          else mergeLoop fuel (i + 1) type
        else
          mergeLoop fuel i { type with
            regions := (type.regions.set i
              { this with size := Word.add 64 this.size next.size }).eraseIdx (i + 1) }
    | _, _ => .ok type

/-- Merge neighbouring compatible regions. -/
def memblockMergeRegions (type : MemblockType) : Except Bug MemblockType :=
  mergeLoop type.cnt 0 type

/-- Grow the array until `needed` regions fit; `false` leads to the `-ENOMEM` return. -/
def growArray {Env : Type} (platform : Platform Env) (needed base size : Nat) :
    Nat → Env → MemblockType → Except Bug (Env × Bool × MemblockType)
  | fuel, env, type =>
    if type.max < needed then
      match fuel with
      | 0 => .error .loopBound
      | fuel + 1 =>
        match platform.memblockDoubleArray env type base size with
        | (env, .failed) => .ok (env, false, type)
        | (env, .enlarged extra) =>
          growArray platform needed base size fuel env { type with max := type.max + extra + 1 }
    else .ok (env, true, type)

/-! ### Adding a range -/

/-- Where a pass over the array stands: the index, the part of the new range still to be
dealt with, the number of new regions, and the array. -/
structure AddState where
  i : Nat
  base : Nat
  nrNew : Nat
  type : MemblockType
  deriving DecidableEq, Repr

/-- Insert a piece when this is the inserting pass; the index then moves past it. -/
def addPiece (insert : Bool) (base size : Nat) (nid : Int) (flags : Nat) (state : AddState) :
    Except Bug AddState :=
  if insert then do
    let type ← memblockInsertRegion state.type state.i base size nid flags
    return { state with i := state.i + 1, nrNew := state.nrNew + 1, type := type }
  else
    return { state with nrNew := state.nrNew + 1 }

/-- The loop over the regions, run once to count and once to insert. -/
def addLoop (insert : Bool) (endAddr : Nat) (nid : Int) (flags : Nat) :
    Nat → AddState → Except Bug AddState
  | fuel, state =>
    match state.type.regions[state.i]? with
    | none => .ok state
    | some rgn =>
      match fuel with
      | 0 => .error .loopBound
      | fuel + 1 =>
        if endAddr ≤ rgn.base then .ok state
        else if rgn.rend ≤ state.base then
          addLoop insert endAddr nid flags fuel { state with i := state.i + 1 }
        else do
          let state ←
            if state.base < rgn.base then
              addPiece insert state.base (Word.sub 64 rgn.base state.base) nid flags state
            else pure state
          addLoop insert endAddr nid flags fuel
            { state with i := state.i + 1, base := min rgn.rend endAddr }

/-- Insert the remaining portion. -/
def addRemaining (insert : Bool) (endAddr : Nat) (nid : Int) (flags : Nat) (state : AddState) :
    Except Bug AddState :=
  if state.base < endAddr then
    addPiece insert state.base (Word.sub 64 endAddr state.base) nid flags state
  else return state

/-- One pass: the loop, and then the remaining portion. -/
def addPass (insert : Bool) (obase endAddr : Nat) (nid : Int) (flags : Nat)
    (type : MemblockType) : Except Bug AddState := do
  let state ← addLoop insert endAddr nid flags type.cnt { i := 0, base := obase, nrNew := 0, type }
  addRemaining insert endAddr nid flags state

variable {Env : Type} (platform : Platform Env) (env : Env) (type : MemblockType)

/-- Add a range: the return code and the array. -/
def memblockAddRange
    (base size : Nat) (nid : Int) (flags : Nat) : Except Bug (Env × Int × MemblockType) := do
  let size := memblockCapSize base size
  let endAddr := Word.add 64 base size
  if size = 0 then return (env, 0, type)
  -- the special case for the empty array
  if type.regions.head?.any (·.size = 0) then
    return (env, 0, { type with
      regions := { base, size, flags, nid } :: type.regions.tail
      totalSize := size })
  let counted ← addPass false base endAddr nid flags type
  let needed := type.cnt + counted.nrNew
  let (env, room, type) ← growArray platform needed base size (needed - type.max) env type
  if !room then return (env, -enomem, type)
  let inserted ← addPass true base endAddr nid flags type
  let merged ← memblockMergeRegions inserted.type
  return (env, 0, merged)

/-! ### Removing a range -/

/-- Where the isolating loop stands: the index, the recorded window of regions and the
array. -/
structure IsolateState where
  i : Nat
  startRgn : Nat
  endRgn : Nat
  type : MemblockType
  deriving DecidableEq, Repr

/-- Cut the region at the index in two: `cut` bytes move to a new region below. -/
def splitRegion (type : MemblockType) (i : Nat) (rgn : MemblockRegion) (base cut : Nat) :
    Except Bug MemblockType :=
  memblockInsertRegion { type with
      regions := type.regions.set i { rgn with base, size := Word.sub 64 rgn.size cut }
      totalSize := Word.sub 64 type.totalSize cut }
    i rgn.base cut rgn.nid rgn.flags

/-- The loop of `memblock_isolate_range`. The second cut steps the index back, so the new
bottom half is visited again. -/
def isolateLoop (base endAddr : Nat) : Nat → IsolateState → Except Bug IsolateState
  | fuel, state =>
    match state.type.regions[state.i]? with
    | none => .ok state
    | some rgn =>
      match fuel with
      | 0 => .error .loopBound
      | fuel + 1 =>
        if endAddr ≤ rgn.base then .ok state
        else if rgn.rend ≤ base then isolateLoop base endAddr fuel { state with i := state.i + 1 }
        else if rgn.base < base then do
          let type ← splitRegion state.type state.i rgn base (Word.sub 64 base rgn.base)
          isolateLoop base endAddr fuel { state with i := state.i + 1, type := type }
        else if endAddr < rgn.rend then do
          let type ← splitRegion state.type state.i rgn endAddr (Word.sub 64 endAddr rgn.base)
          isolateLoop base endAddr fuel { state with type := type }
        else
          isolateLoop base endAddr fuel { state with
            startRgn := if state.endRgn = 0 then state.i else state.startRgn
            endRgn := state.i + 1
            i := state.i + 1 }

/-- Split the regions at both ends of a range and record the ones inside: the return code,
and the array with the recorded window. -/
def memblockIsolateRange (base size : Nat) : Except Bug (Env × Int × IsolateState) := do
  let size := memblockCapSize base size
  let endAddr := Word.add 64 base size
  let nothing : IsolateState := { i := 0, startRgn := 0, endRgn := 0, type }
  if size = 0 then return (env, 0, nothing)
  let needed := type.cnt + 2
  let (env, room, type) ← growArray platform needed base size (needed - type.max) env type
  if !room then return (env, -enomem, { nothing with type := type })
  let isolated ← isolateLoop base endAddr (type.cnt + 3) { nothing with type := type }
  return (env, 0, isolated)

/-- Remove a range: the return code and the array. -/
def memblockRemoveRange (base size : Nat) : Except Bug (Env × Int × MemblockType) := do
  let (env, ret, isolated) ← memblockIsolateRange platform env type base size
  if ret ≠ 0 then return (env, ret, isolated.type)
  let window := (List.range' isolated.startRgn (isolated.endRgn - isolated.startRgn)).reverse
  return (env, 0, window.foldl (memblockRemoveRegion platform.nodesShift) isolated.type)

end StudyNotes.Memblock
