/-
This file models how a tree of memory regions is flattened: the address ranges,
`render_memory_region` with its loop over the gaps of the view, and
`generate_memory_topology` up to the simplification of its result.

Sizes and bases are 128-bit integers and may be negative. They are modelled as
integers whose sums and differences wrap at 128 bits; the sum of the source,
which works on two 64-bit words, computes exactly that.
-/

import StudyNotes.Library.Cursor
import StudyNotes.Library.Ranges
import Mathlib.Tactic.Ring

namespace StudyNotes.Memory

open Library

/-! ### 128-bit integers -/

/-- `Int128` as the source stores it. -/
structure Int128 where
  lo : BitVec 64
  hi : BitVec 64
  deriving DecidableEq, Repr

/-- The value of the two words. -/
def Int128.toInt (a : Int128) : Int := (a.hi ++ a.lo).toInt

/-- `int128_add` on the two words: the carry is `lo < a.lo`. -/
def Int128.add (a b : Int128) : Int128 :=
  let lo := a.lo + b.lo
  { lo, hi := a.hi + b.hi + if lo < a.lo then 1 else 0 }

/-- The value a 128-bit word keeps of an integer. -/
def wrap128 (value : Int) : Int := value.bmod (2 ^ 128)

def int128Add (a b : Int) : Int := wrap128 (a + b)

def int128Sub (a b : Int) : Int := wrap128 (a - b)

theorem toNat_words (hi lo : BitVec 64) : (hi ++ lo).toNat = 2 ^ 64 * hi.toNat + lo.toNat := by
  rw [BitVec.toNat_append, Nat.shiftLeft_eq, Nat.mul_comm, Nat.two_pow_add_eq_or_of_lt lo.isLt]

/-- The carry of the low words makes the sum of the source the 128-bit sum. -/
theorem Int128.toInt_add (a b : Int128) : (a.add b).toInt = int128Add a.toInt b.toInt := by
  have words : (a.add b).hi ++ (a.add b).lo = (a.hi ++ a.lo) + (b.hi ++ b.lo) := by
    apply BitVec.eq_of_toNat_eq
    simp only [Int128.add, toNat_words, BitVec.toNat_add, BitVec.lt_def]
    split
    · rw [show (1 : BitVec 64).toNat = 1 from rfl]
      omega
    · rw [show (0 : BitVec 64).toNat = 0 from rfl]
      omega
  rw [Int128.toInt, words, BitVec.toInt_add]
  rfl

/-- Far from the ends nothing wraps. -/
theorem wrap128_of_bounds {value : Int} (low : -2 ^ 120 ≤ value) (high : value ≤ 2 ^ 120) :
    wrap128 value = value :=
  Int.bmod_eq_of_le (by omega) (by omega)

/-! ### Ranges of addresses -/

/-- `AddrRange`. -/
structure AddrRange where
  start : Int
  size : Int
  deriving DecidableEq, Repr

def addrrangeEnd (range : AddrRange) : Int := int128Add range.start range.size

def addrrangeContains (range : AddrRange) (addr : Int) : Bool :=
  range.start ≤ addr ∧ addr < addrrangeEnd range

def addrrangeIntersects (r1 r2 : AddrRange) : Bool :=
  addrrangeContains r1 r2.start || addrrangeContains r2 r1.start

def addrrangeIntersection (r1 r2 : AddrRange) : AddrRange :=
  let start := max r1.start r2.start
  let stop := min (addrrangeEnd r1) (addrrangeEnd r2)
  { start, size := int128Sub stop start }

/-! ### Regions and views -/

/-- The fields of a `MemoryRegion` that rendering reads, other than its links. `id` stands for
the address of the record. -/
structure RegionAttrs where
  id : Nat
  addr : BitVec 64
  size : Nat
  size_le : size ≤ 2 ^ 64
  enabled : Bool
  terminates : Bool
  readonly : Bool
  romdMode : Bool
  aliasOffset : BitVec 64
  deriving DecidableEq, Repr

/-- A `MemoryRegion`: its fields, the region it is an alias of, and its subregions in the order
of the list, highest priority first. -/
inductive MemoryRegion where
  | mk (attrs : RegionAttrs) (aliasOf : Option MemoryRegion) (subregions : List MemoryRegion)

def MemoryRegion.attrs : MemoryRegion → RegionAttrs
  | .mk attrs _ _ => attrs

/-- `FlatRange`. -/
structure FlatRange where
  mr : Nat
  offsetInRegion : BitVec 64
  addr : AddrRange
  dirtyLogMask : BitVec 8
  romdMode : Bool
  readonly : Bool
  deriving DecidableEq, Repr

/-- The functions of the emulator that rendering calls and the source does not show. -/
structure Host where
  int128Get64 : Int → BitVec 64
  memoryRegionGetDirtyLogMask : Nat → BitVec 8

variable (host : Host)

/-- What rendering needs to know of `int128_get64`: it returns the values that fit. -/
def Host.Gets64 : Prop :=
  ∀ value : Int, 0 ≤ value → value < 2 ^ 64 → host.int128Get64 value = BitVec.ofInt 64 value

/-- A host whose `int128_get64` keeps the low word. -/
def plainHost : Host where
  int128Get64 value := BitVec.ofInt 64 value
  memoryRegionGetDirtyLogMask _ := 0

theorem plainHost_gets64 : plainHost.Gets64 := fun _ _ _ => rfl

/-- Insert a range at a position; the array grows as needed. -/
def flatviewInsert (view : List FlatRange) (pos : Nat) (range : FlatRange) : List FlatRange :=
  view.insertIdx pos range

/-! ### Rendering -/

/-- Where the loop over the gaps stands. -/
structure GapState where
  i : Nat
  base : Int
  remain : Int
  offsetInRegion : BitVec 64
  view : List FlatRange

/-- `base`, `offset_in_region` and `remain` move on by `now`. -/
def GapState.advance (now : Int) (state : GapState) : GapState :=
  { state with
    base := int128Add state.base now
    remain := int128Sub state.remain now
    offsetInRegion := state.offsetInRegion + host.int128Get64 now }

/-- The range rendered at the current place. -/
def GapState.piece (fr : FlatRange) (size : Int) (state : GapState) : FlatRange :=
  { fr with offsetInRegion := state.offsetInRegion, addr := { start := state.base, size } }

/-- Render into the gap before a range of the view. -/
def GapState.before (fr : FlatRange) (range : FlatRange) (state : GapState) : GapState :=
  if state.base < range.addr.start then
    let now := min state.remain (int128Sub range.addr.start state.base)
    { state.advance host now with
      i := state.i + 1
      view := flatviewInsert state.view state.i (state.piece fr now) }
  else state

/-- Skip what a range of the view already covers. -/
def GapState.over (range : FlatRange) (state : GapState) : GapState :=
  let now := int128Sub (min (int128Add state.base state.remain) (addrrangeEnd range.addr))
    state.base
  { state.advance host now with i := state.i + 1 }

/-- The loop over the gaps of the view. -/
def renderGaps (host : Host) (fr : FlatRange) (state : GapState) : GapState :=
  match _found : state.view[state.i]? with
  | none => state
  | some range =>
    if state.remain = 0 then state
    else if addrrangeEnd range.addr ≤ state.base then
      renderGaps host fr { state with i := state.i + 1 }
    else renderGaps host fr ((state.before host fr range).over host range)
termination_by state.view.length - state.i
decreasing_by
  all_goals
    have inside := (List.getElem?_eq_some_iff.mp _found).1
  · omega
  · simp only [GapState.over, GapState.before, GapState.advance]
    split
    · simp only [flatviewInsert]
      rw [List.length_insertIdx_of_le_length (Nat.le_of_lt inside)]
      omega
    · omega

/-- What is left after the last range of the view. -/
def renderRest (fr : FlatRange) (state : GapState) : List FlatRange :=
  if state.remain ≠ 0 then flatviewInsert state.view state.i (state.piece fr state.remain)
  else state.view

/-- Render a region itself into the gaps left by the view. -/
def renderSelf (view : List FlatRange) (attrs : RegionAttrs) (base : Int)
    (clip : AddrRange) (readonly : Bool) : List FlatRange :=
  let fr : FlatRange :=
    { mr := attrs.id
      offsetInRegion := 0
      addr := clip
      dirtyLogMask := host.memoryRegionGetDirtyLogMask attrs.id
      romdMode := attrs.romdMode
      readonly }
  renderRest fr (renderGaps host fr
    { i := 0
      base := clip.start
      remain := clip.size
      offsetInRegion := host.int128Get64 (int128Sub clip.start base)
      view })

mutual

/-- Render a region, its alias or its subregions into the view. -/
def renderMemoryRegion (host : Host) :
    List FlatRange → MemoryRegion → Int → AddrRange → Bool → List FlatRange
  | view, .mk attrs aliasOf subregions, base, clip, readonly =>
    if attrs.enabled then
      let base := int128Add base attrs.addr.toNat
      let readonly := readonly || attrs.readonly
      let tmp : AddrRange := { start := base, size := attrs.size }
      if addrrangeIntersects tmp clip then
        let clip := addrrangeIntersection tmp clip
        match aliasOf with
        | some target =>
          let base := int128Sub base target.attrs.addr.toNat
          let base := int128Sub base attrs.aliasOffset.toNat
          renderMemoryRegion host view target base clip readonly
        | none =>
          let view := renderSubregions host view subregions base clip readonly
          if attrs.terminates then renderSelf host view attrs base clip readonly else view
      else view
    else view
termination_by structural _ region => region

/-- Render the subregions in priority order. -/
def renderSubregions (host : Host) :
    List FlatRange → List MemoryRegion → Int → AddrRange → Bool → List FlatRange
  | view, [], _, _, _ => view
  | view, subregion :: rest, base, clip, readonly =>
    renderSubregions host (renderMemoryRegion host view subregion base clip readonly) rest base
      clip readonly
termination_by structural _ subregions => subregions

end

/-- `generate_memory_topology` before `flatview_simplify`: the whole address space. -/
def renderTopology (root : Option MemoryRegion) : List FlatRange :=
  match root with
  | none => []
  | some mr => renderMemoryRegion host [] mr 0 { start := 0, size := 2 ^ 64 } false

end StudyNotes.Memory
