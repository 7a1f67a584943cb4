/-
This file proves when the unflattening of a blob ends, whatever the blob holds.

Every call of `unflatten_dt_node` moves on to a later node or to none, as long
as the tags advance. Blocks of 2 GiB and more have one more way to run for
ever: a node whose name ends where offsets turn negative has no name for the
walk, so the call for it returns at once and the loop calls it again.
-/

import StudyNotes.DeviceTree.Progress
import StudyNotes.DeviceTree.Unflatten

namespace StudyNotes.DeviceTree

open Library

section Recursion

variable {blob : Blob} {e offset depth u rootDepth rootEnd : Int} {fuel opened : Nat}
  {state last first middle : Int × Int}

/-! ### Tags that advance -/

/-- Below 2 GiB no property stalls, and no tag ends where the next offset is 0. -/
structure TagsAdvance (blob : Blob) : Prop where
  noStall : ∀ s, 0 ≤ s → s < 2 ^ 31 → s % 4 = 0 → ¬ Stalls blob s
  noWrap : ∀ s tag e, 0 ≤ s → s < 2 ^ 31 → s % 4 = 0 → Ends blob s tag e → e ≤ lastEnd

/-- Every tag leads to a later offset, at most the size of the block rounded up. -/
def Progresses (blob : Blob) : Prop :=
  ∀ s tag n, 0 ≤ s → s < 2 ^ 31 → s < fdtSizeDtStruct blob → s % 4 = 0 →
    fdtNextTag blob s = some (tag, n) → 0 ≤ n →
    s < n ∧ n ≤ (fdtSizeDtStruct blob + 3) / 4 * 4

theorem TagsAdvance.lt_alignPosition (advance : TagsAdvance blob) {s : Int} {tag : Tag}
    (low : 0 ≤ s) (high : s < 2 ^ 31) (aligned : s % 4 = 0) (ends : Ends blob s tag e) :
    s < alignPosition e ∧ alignPosition e = (e + 3) / 4 * 4 := by
  have position := isPosition_of_offset low high
  have below := advance.noWrap s tag e low high aligned ends
  rcases ends.alignPosition_cases position (advance.noStall s low high aligned) with
    later | ⟨top, -⟩
  · exact ⟨later, alignPosition_of_le (Int.le_trans low ends.ordered) below⟩
  · exact absurd below (Int.not_le.mpr top)

/-! ### The fuel that is enough -/

/-- More turns than there are positions. -/
def enoughFuel : Nat := 2 ^ 32 + 2

theorem lt_fuel (enough : enoughFuel ≤ fuel) : 2 ^ 32 < fuel :=
  Nat.lt_of_lt_of_le (by decide) enough

/-- One more than the offsets from here to the end of the type `int`. -/
def offsetsLeft (offset : Int) : Nat := if offset < 0 then 0 else (2 ^ 31 - offset).toNat

theorem offsetsLeft_le (offset : Int) : offsetsLeft offset ≤ 2 ^ 31 := by
  unfold offsetsLeft
  split
  · omega
  · omega

theorem offsetsLeft_lt {next : Int} (low : 0 ≤ offset) (high : offset < 2 ^ 31)
    (later : next < 0 ∨ offset < next) : offsetsLeft next < offsetsLeft offset := by
  unfold offsetsLeft
  rw [if_neg (show ¬ offset < 0 by omega)]
  split
  · omega
  · omega

/-- A string with a terminator is read to its end. -/
theorem cString_returns (fuel : Nat) (p : Int) {terminator : Nat}
    (zero : blob.byte (p + terminator) = 0) (enough : terminator < fuel) :
    ∃ text, cString blob fuel p = some text := by
  induction fuel generalizing p terminator with
  | zero => exact absurd enough (Nat.not_lt_zero _)
  | succ fuel inductionHypothesis =>
    by_cases here : blob.byte p = 0
    · exact ⟨[], by rw [cString, if_pos here]⟩
    · cases terminator with
      | zero => exact absurd (by simpa using zero) here
      | succ terminator =>
        have later : blob.byte (p + 1 + terminator) = 0 := by
          rw [← zero]
          congr 1
          omega
        obtain ⟨text, result⟩ := inductionHypothesis (p + 1) later (by omega)
        exact ⟨blob.byte p :: text, by rw [cString, if_neg here, result]; rfl⟩

/-! ### The nodes that are visited -/

/-- The positions inside the root, with the number of open nodes below it. -/
inductive Inside (blob : Blob) : Int → Nat → Prop where
  | root {e : Int} (node : NamedNode blob 0 e) : Inside blob (alignPosition e) 0
  | quiet {u v : Int} {opened : Nat} (before : Inside blob u opened)
      (steps : StepsTo blob Quiet u v) : Inside blob v opened
  | enter {u e : Int} {opened : Nat} (before : Inside blob u opened) (later : 0 < u)
      (node : NamedNode blob u e) : Inside blob (alignPosition e) (opened + 1)
  | leave {u v : Int} {opened : Nat} (before : Inside blob u (opened + 1))
      (steps : StepsTo blob (· = .endNode) u v) : Inside blob v opened

/-- Every node inside the root has a name that ends below 2 GiB. -/
def NodesNamed (blob : Blob) : Prop :=
  ∀ u opened e, Inside blob u opened → 0 < u → u < 2 ^ 31 → Ends blob u .beginNode e →
    alignPosition e < 2 ^ 31

/-- Where a call leaves the walk when the root has depth `rootDepth`: a node below the root is
one inside it. -/
def AtNode (blob : Blob) (rootDepth offset depth : Int) : Prop :=
  0 < offset → rootDepth < depth →
    ∃ (opened : Nat) (e : Int), depth = rootDepth + opened + 1 ∧ Inside blob offset opened ∧
      offset % 4 = 0 ∧ Ends blob offset .beginNode e

/-- A state of the walk from a node at `offset`: further on, or back at 0; inside the root with
a depth that counts the open nodes, or outside it. -/
def OnWalk (blob : Blob) (start offset rootDepth : Int) (state : Int × Int) : Prop :=
  ∃ u, state.1 = int32 u ∧ IsPosition u ∧ u % 4 = 0 ∧ LeadsTo blob Skipped start u ∧
    (offset < u ∨ u = 0) ∧
    ((∃ opened : Nat, Inside blob u opened ∧ state.2 = rootDepth + opened) ∨
      state.2 < rootDepth)

/-- The positions that the walk to the next node can still come to. -/
def positionsLeft (state : Int × Int) : Nat :=
  if state.1 = 0 then 0 else (2 ^ 32 - uint32 state.1).toNat

theorem positionsLeft_lt {v depth' : Int} (position : IsPosition u) (position' : IsPosition v)
    (start : 0 < u) (later : u < v ∨ v = 0) :
    positionsLeft (int32 v, depth) < positionsLeft (int32 u, depth') := by
  have nonzero : int32 u ≠ 0 := by
    unfold IsPosition at position
    unfold int32
    omega
  unfold positionsLeft
  simp only [if_neg nonzero, uint32_int32 position, uint32_int32 position']
  have := position.2
  split
  · omega
  · rcases later with after | rfl
    · omega
    · contradiction

theorem offset_cases (position : IsPosition u) (further : offset < u ∨ u = 0) :
    int32 u ≤ 0 ∨ offset < int32 u := by
  by_cases lower : u < 2 ^ 31
  · rw [int32_of_lt position.1 lower]
    omega
  · have := (int32_nonneg_iff position).not.mpr lower
    omega

/-- Where the walk from a node at `offset` may end. -/
def WalkAnswer (blob : Blob) (offset rootDepth : Int) (result : Int × Int) : Prop :=
  IsInt result.1 ∧ (result.1 ≤ 0 ∨ offset < result.1) ∧
    AtNode blob rootDepth result.1 (if result.2 < 0 then 0 else result.2)

theorem Inside.isPosition (inside : Inside blob u opened) : IsPosition u := by
  cases inside with
  | root | enter => exact (alignPosition_spec _).1
  | quiet _ steps | leave _ steps => exact steps.isPosition.1

/-- What a call does to offset and depth before the calls for children: nothing for an offset
without a name, else it goes to the next node. -/
inductive Control (blob : Blob) (state : Int × Int) : Int × Int → Prop where
  | unnamed (unnamed : ∀ e, ¬ NamedNode blob state.1 e) : Control blob state state
  | node {e next depth : Int} {fuel : Nat} (node : NamedNode blob state.1 e)
      (returned : fdtNextNode blob fuel state.1 state.2 = some (next, depth)) :
      Control blob state (next, if depth < 0 then 0 else depth)

/-- The calls one after the other, while a node is found deeper than `floor`. -/
inductive Drains (blob : Blob) (floor : Int) : Int × Int → Int × Int → Prop where
  | stop {state : Int × Int} (ended : ¬ (0 < state.1 ∧ floor < state.2)) :
      Drains blob floor state state
  | go {state next last : Int × Int} (found : 0 < state.1 ∧ floor < state.2)
      (control : Control blob state next) (rest : Drains blob floor next last) :
      Drains blob floor state last

theorem Drains.trans {floor floor' : Int} (inner : Drains blob floor' first middle)
    (higher : floor ≤ floor') (outer : Drains blob floor middle last) :
    Drains blob floor first last := by
  induction inner with
  | stop => exact outer
  | go found control _ inductionHypothesis =>
    exact .go ⟨found.1, Int.lt_of_le_of_lt higher found.2⟩ control (inductionHypothesis outer)

section

variable (recent : 0x11 ≤ fdtVersion blob)
include recent

/-- The tags below 2 GiB progress exactly when none stalls and none wraps around. -/
theorem progresses_iff : Progresses blob ↔ TagsAdvance blob := by
  constructor
  · intro progresses
    have next : ∀ s tag e, 0 ≤ s → s < 2 ^ 31 → s % 4 = 0 → Ends blob s tag e →
        0 ≤ int32 (alignPosition e) → s < int32 (alignPosition e) := by
      intro s tag e low high aligned ends nonneg
      have result := fdtNextTag_of_ends recent (isPosition_of_offset low high) ends
      rw [int32_of_lt low high] at result
      have := ends.readable
      exact (progresses s tag _ low high (by omega) aligned result nonneg).1
    constructor
    · intro s low high aligned stalls
      have same : int32 (alignPosition s) = s := by
        unfold alignPosition int32
        omega
      have advanced := next s .prop s low high aligned
        (stalls.ends (isPosition_of_offset low high))
      omega
    · intro s tag e low high aligned ends
      by_contra top
      have wrapped := alignPosition_of_gt (Int.not_le.mp top) ends.lt_two_pow
      have advanced := next s tag e low high aligned ends
      rw [wrapped, show int32 0 = 0 from rfl] at advanced
      omega
  · intro advance s tag n low high inside aligned result nonneg
    have spec := fdtNextTag_spec recent (isPosition_of_offset low high)
    rw [int32_of_lt low high, result] at spec
    rcases spec with ⟨tag', e, ends, same⟩ | ⟨-, error, ⟨negative, -⟩, same⟩
    · cases same
      have later := advance.lt_alignPosition low high aligned ends
      have position := (alignPosition_spec e).1
      have next := (int32_nonneg_iff position).mp nonneg
      rw [int32_of_lt position.1 next]
      have := ends.inside
      omega
    · obtain ⟨-, rfl⟩ := Prod.mk.inj (Option.some.inj same)
      omega

/-! ### The loop over the properties -/

/-- The loop over the properties moves on at every turn, so it returns. -/
theorem propertyLoop_returns (advance : TagsAdvance blob) (abi : Abi) (filling : Bool) (np : Nat)
    (enough : enoughFuel ≤ fuel) (isInt : IsInt offset) (state : PropertyWalk) :
    ∃ result, loop (propertyTurn blob abi filling fuel np) fuel (offset, state) = some result := by
  have turns : ∀ now : Int × PropertyWalk, IsInt now.1 →
      (∃ next, propertyTurn blob abi filling fuel np now = some (.again next) ∧ IsInt next.1 ∧
        offsetsLeft next.1 < offsetsLeft now.1) ∨
      ∃ result, propertyTurn blob abi filling fuel np now = some (.done result) ∧ True := by
    rintro ⟨now, state⟩ nowInt
    unfold propertyTurn
    by_cases negative : now < 0
    · exact .inr ⟨state, if_pos negative, trivial⟩
    · rw [if_neg negative]
      unfold fdtGetpropByOffset
      rcases checkTagOffset_spec recent .prop (by decide) nowInt with
        ⟨error, isError, result⟩ | ⟨e, low, aligned, ends, next, result⟩
      · refine .inr ⟨state, ?_, trivial⟩
        simp [fdtCheckPropOffset, result, isError.1]
      · obtain ⟨following, returned, followingInt, later⟩ :=
          nextprop_of_next recent next (lt_fuel enough)
        have nextResult : fdtNextPropertyOffset blob fuel now = some following := by
          simp [fdtNextPropertyOffset, fdtCheckPropOffset, result, returned]
        have advances := (advance.lt_alignPosition low nowInt.2 aligned ends).1
        refine .inl ⟨_, by simp [fdtCheckPropOffset, result, nextResult]; rfl, followingInt, ?_⟩
        refine offsetsLeft_lt low nowInt.2 ?_
        omega
  have fewTurns : offsetsLeft (offset, state).1 < fuel :=
    (offsetsLeft_le offset).trans_lt (Nat.lt_trans (by decide) (lt_fuel enough))
  obtain ⟨result, returned, -⟩ := loop_returns (fun now : Int × PropertyWalk => IsInt now.1) _
    (fun now => offsetsLeft now.1) turns isInt fewTurns
  exact ⟨result, returned⟩

/-! ### The name of a node -/

/-- A node whose name ends below 2 GiB has a name for the walk. -/
theorem NamedNode.getName (header : fdtCheckHeader blob = 0)
    (advance : TagsAdvance blob) (node : NamedNode blob offset e)
    (enough : enoughFuel ≤ fuel) : ∃ name, fdtGetName blob fuel offset = some (some name) := by
  obtain ⟨after, terminator, -⟩ : offset + 4 < e ∧ byteAt blob (e - 1) = 0 ∧ _ :=
    node.ends.payload
  have rounded := (advance.lt_alignPosition node.low node.high node.aligned node.ends).2
  have low := node.low
  have next := node.next
  have below : e - 1 < 2 ^ 31 := by omega
  have nul : blob.byte (fdtOffsetPtrUnchecked blob offset + 4 + (e - offset - 5).toNat) = 0 := by
    rw [← terminator, byteAt, int32_of_lt (by omega) below, fdtOffsetPtrUnchecked]
    congr 1
    omega
  have large := lt_fuel enough
  obtain ⟨name, read⟩ := cString_returns fuel _ nul (by omega)
  refine ⟨name, ?_⟩
  unfold fdtGetName
  simp [header, node.checked recent, read]

/-- Any other offset has none. -/
theorem fdtGetName_of_unnamed (header : fdtCheckHeader blob = 0) (isInt : IsInt offset)
    (unnamed : ∀ e, ¬ NamedNode blob offset e) (fuel : Nat) :
    fdtGetName blob fuel offset = some none := by
  rcases checkTagOffset_spec recent .beginNode (by decide) isInt with
    ⟨error, isError, result⟩ | ⟨e, low, aligned, ends, next, result⟩
  · unfold fdtGetName fdtCheckNodeOffset
    simp [header, result, isError.1]
  · exact absurd ⟨low, isInt.2, aligned, ends, next⟩ (unnamed e)

section NextNode

variable (walksEnd : NodeWalksEnd blob)
include walksEnd

theorem OnWalk.turn (root : Ends blob 0 .beginNode rootEnd) {start : Int}
    (isStart : Start blob start) (low : 0 ≤ offset) (nonneg : 0 ≤ rootDepth)
    (onWalk : OnWalk blob start offset rootDepth state) :
    (∃ next, nextNodeTurn blob state = some (.again next) ∧
      OnWalk blob start offset rootDepth next ∧ positionsLeft next < positionsLeft state) ∨
    ∃ result, nextNodeTurn blob state = some (.done result) ∧
      WalkAnswer blob offset rootDepth result := by
  obtain ⟨u, here, position, aligned, leads, further, nesting⟩ := onWalk
  obtain ⟨p, depth⟩ := state
  subst here
  have atRoot {tag : Tag} {e : Int} (ends : Ends blob u tag e) (other : tag ≠ .beginNode) :
      offset < u := by
    rcases further with after | rfl
    · exact after
    · exact absurd (root.unique ends).1.symm other
  have moves {v depth' : Int} (steps : StepsTo blob Skipped u v)
      (nesting' : (∃ opened : Nat, Inside blob v opened ∧ depth' = rootDepth + opened) ∨
        depth' < rootDepth) :
      OnWalk blob start offset rootDepth (int32 v, depth') ∧
        positionsLeft (int32 v, depth') < positionsLeft (int32 u, depth) := by
    have leads' := Relation.ReflTransGen.tail leads steps
    have nextPosition := steps.isPosition
    obtain ⟨tag, e, skipped, ends, rfl⟩ := steps
    have after := atRoot ends (by rintro rfl; rcases skipped with ⟨⟨⟩⟩)
    have later := ends.alignPosition_cases position (walksEnd.noStall start u isStart leads)
    refine ⟨⟨_, rfl, nextPosition.1, nextPosition.2, leads', ?_, nesting'⟩, ?_⟩
    · omega
    · exact positionsLeft_lt position nextPosition.1 (by omega) (by omega)
  have spec := nextNodeTurn_spec recent position depth
  generalize turn : nextNodeTurn blob (int32 u, depth) = answer at spec
  cases spec with
  | node ends =>
    refine .inr ⟨_, rfl, isInt_int32 u, offset_cases position further, ?_⟩
    intro positive deeper
    have lower := (int32_nonneg_iff position).mp (by omega)
    rw [int32_of_lt position.1 lower] at positive ⊢
    rcases nesting with ⟨opened, inside, rfl⟩ | outside
    · refine ⟨opened, _, ?_, inside, aligned, ends⟩
      rw [if_neg (by omega)]
    · split at deeper
      · omega
      · omega
  | @quiet v steps =>
    have nesting' : (∃ opened : Nat, Inside blob v opened ∧ depth = rootDepth + opened) ∨
        depth < rootDepth := by
      rcases nesting with ⟨opened, inside, depthEq⟩ | outside
      · exact .inl ⟨opened, inside.quiet steps, depthEq⟩
      · exact .inr outside
    exact .inl ⟨_, rfl, moves (steps.mono skipped_of_quiet) nesting'⟩
  | @leave v steps inside =>
    have nesting' : (∃ opened : Nat, Inside blob v opened ∧ depth - 1 = rootDepth + opened) ∨
        depth - 1 < rootDepth := by
      rcases nesting with ⟨opened, inside, depthEq⟩ | outside
      · cases opened with
        | zero => exact .inr (by omega)
        | succ opened => exact .inl ⟨opened, inside.leave steps, by push_cast at depthEq; omega⟩
      · exact .inr (by omega)
    exact .inl ⟨_, rfl, moves (steps.mono skipped_of_endNode) nesting'⟩
  | close steps closed =>
    have nextPosition := steps.isPosition
    obtain ⟨tag, e, rfl, ends, rfl⟩ := steps
    have after := atRoot ends (by decide)
    have next := ends.alignPosition_plain position aligned ends.payload
    refine .inr ⟨_, rfl, isInt_int32 _, offset_cases nextPosition.1 (by omega), ?_⟩
    intro _ deeper
    omega
  | stop negative isInt =>
    refine .inr ⟨_, rfl, isInt, .inl (by omega), ?_⟩
    intro positive
    omega

/-- From a node inside the root the walk goes to a later node, or to none. -/
theorem fdtNextNode_inside (root : Ends blob 0 .beginNode rootEnd) (node : NamedNode blob offset e)
    (nonneg : 0 ≤ rootDepth) (inside : Inside blob (alignPosition e) opened)
    (later : offset < alignPosition e) (enough : enoughFuel ≤ fuel) :
    ∃ next depth, fdtNextNode blob fuel offset (rootDepth + opened) = some (next, depth) ∧
      WalkAnswer blob offset rootDepth (next, depth) := by
  have position := alignPosition_spec e
  have isStart : Start blob (alignPosition e) :=
    .node node.low node.high node.aligned node.ends node.next
  obtain ⟨⟨next, depth⟩, returned, answer⟩ := loop_returns
    (OnWalk blob (alignPosition e) offset rootDepth) (WalkAnswer blob offset rootDepth)
    positionsLeft
    (fun state => OnWalk.turn recent walksEnd root isStart node.low nonneg)
    (show OnWalk blob (alignPosition e) offset rootDepth (int32 (alignPosition e), _) from
      ⟨_, rfl, position.1, position.2, .refl, .inl later, .inl ⟨opened, inside, rfl⟩⟩)
    (show positionsLeft _ < fuel by
      have low := position.1.1
      have large := lt_fuel enough
      unfold positionsLeft
      simp only [uint32_int32 position.1]
      split
      · omega
      · omega)
  refine ⟨next, depth, ?_, answer⟩
  rw [node.fdtNextNode_eq recent]
  exact returned

end NextNode

/-! ### The recursion -/

theorem fdtFirstPropertyOffset_of_node
    (node : NamedNode blob offset e) (enough : enoughFuel ≤ fuel) :
    ∃ result, fdtFirstPropertyOffset blob fuel offset = some result ∧ IsInt result := by
  obtain ⟨result, returned, isInt, -⟩ := nextprop_of_next recent node.next (lt_fuel enough)
  refine ⟨result, ?_, isInt⟩
  unfold fdtFirstPropertyOffset
  simp [node.checked recent, returned]

theorem enterNode_returns (advance : TagsAdvance blob) (abi : Abi)
    (filling : Bool) (enough : enoughFuel ≤ fuel) {poffset : Int} (node : NamedNode blob poffset e)
    (arena : Arena) (dad : Option Nat) (size : PathSize) :
    ∃ entered, enterNode blob abi filling fuel poffset arena dad size = some entered := by
  obtain ⟨first, firstResult, firstInt⟩ := fdtFirstPropertyOffset_of_node recent node enough
  obtain ⟨state, returned⟩ := propertyLoop_returns recent advance abi filling
    (addNode abi filling arena dad size).1 enough firstInt
    ⟨false, .ofNode (addNode abi filling arena dad size).1, (addNode abi filling arena dad size).2⟩
  simp only [enterNode, firstResult, returned, Option.bind_eq_bind, Option.bind_some]
  exact ⟨_, rfl⟩

/-- Where a call for the node at `offset` leaves the walk. -/
structure CallAnswer (blob : Blob) (rootDepth offset : Int) (walk : Walk) : Prop where
  isInt : IsInt walk.poffset
  later : walk.poffset ≤ 0 ∨ offset < walk.poffset
  atNode : AtNode blob rootDepth walk.poffset walk.depth
  nonneg : 0 ≤ walk.depth

/-- The nodes from here to the end of the type `int`. -/
def nodesLeft (offset : Int) : Nat := if offset ≤ 0 then 0 else (2 ^ 31 - offset).toNat

/-- Every blob on which the walks over tags end. -/
structure BlobEnds (blob : Blob) : Prop where
  advance : TagsAdvance blob
  walksEnd : NodeWalksEnd blob
  named : NodesNamed blob

section Calls

variable (header : fdtCheckHeader blob = 0) (ends : BlobEnds blob) (abi : Abi) (filling : Bool)
  {fuel : Nat} (enough : enoughFuel ≤ fuel)

include header ends enough

/-- A call for a node inside the root returns, and moves on to a later node or to none. -/
theorem unflattenDtNode_inside (root : Ends blob 0 .beginNode rootEnd) (nonneg : 0 ≤ rootDepth)
    (left : Nat) {level : Nat} {walk : Walk} (node : NamedNode blob walk.poffset e)
    (inside : Inside blob (alignPosition e) opened) (depthEq : walk.depth = rootDepth + opened)
    (measure : offsetsLeft walk.poffset ≤ left) (deep : left < level) (dad : Option Nat)
    (fpsize : Nat) :
    ∃ result, unflattenDtNode blob abi filling fuel level walk dad fpsize = some result ∧
      CallAnswer blob rootDepth walk.poffset result := by
  induction left generalizing level walk e opened dad fpsize with
  | zero =>
    have := offsetsLeft_lt node.low node.high (.inl (show (-1 : Int) < 0 by decide))
    omega
  | succ left inductionHypothesis =>
    cases level with
    | zero => exact absurd deep (Nat.not_lt_zero _)
    | succ level =>
      have later := (ends.advance.lt_alignPosition node.low node.high node.aligned node.ends).1
      obtain ⟨name, nameResult⟩ := node.getName recent header ends.advance enough
      obtain ⟨⟨np, arena⟩, enterResult⟩ := enterNode_returns recent ends.advance abi filling
        enough node walk.arena dad (pathSize name fpsize)
      obtain ⟨next, depth, nextResult, nextInt, nextLater, atNode⟩ :=
        fdtNextNode_inside recent ends.walksEnd root node nonneg inside later enough
      rw [← depthEq] at nextResult
      simp only [unflattenDtNode, nameResult, Option.bind_eq_bind, Option.bind_some, enterResult,
        nextResult]
      refine loop_returns (CallAnswer blob rootDepth walk.poffset) _
        (fun now => nodesLeft now.poffset) ?_ ⟨nextInt, nextLater, atNode, ?_⟩ ?_
      · intro now answer
        unfold childTurn
        by_cases below : now.poffset > 0 ∧ now.depth > walk.depth
        · rw [if_pos below]
          obtain ⟨inner, innerEnd, innerDepth, innerInside, innerAligned, innerEnds⟩ :=
            answer.atNode below.1 (by omega)
          have innerNode : NamedNode blob now.poffset innerEnd :=
            ⟨by omega, answer.isInt.2, innerAligned, innerEnds,
              ends.named _ _ _ innerInside below.1 answer.isInt.2 innerEnds⟩
          have further : walk.poffset < now.poffset := by
            have := answer.later
            omega
          have fewer := offsetsLeft_lt node.low node.high (.inr further)
          obtain ⟨result, returned, resultAnswer⟩ := inductionHypothesis innerNode
            (innerInside.enter below.1 innerNode) (by push_cast; omega)
            (show offsetsLeft now.poffset ≤ left by omega) (show left < level by omega)
            (some np) (pathSize name fpsize).fpsize
          refine .inl ⟨result, congrArg (Option.map Turn.again) returned,
            ⟨resultAnswer.isInt, ?_, resultAnswer.atNode, resultAnswer.nonneg⟩, ?_⟩
          · have := resultAnswer.later
            omega
          · have := resultAnswer.later
            have := answer.isInt.2
            unfold nodesLeft
            rw [if_neg (show ¬ now.poffset ≤ 0 by omega)]
            split
            · omega
            · omega
        · rw [if_neg below]
          exact .inr ⟨now, rfl, answer⟩
      · show 0 ≤ if depth < 0 then 0 else depth
        split
        · omega
        · omega
      · show nodesLeft next < fuel
        have large := lt_fuel enough
        unfold nodesLeft
        split
        · omega
        · omega

/-- A pass from the start of the blob returns. -/
theorem unflattenDtNode_pass {walk : Walk} (start : walk.poffset = 0) (nonneg : 0 ≤ walk.depth) :
    ∃ result, unflattenDtNode blob abi filling fuel fuel walk none 0 = some result ∧
      0 ≤ result.depth := by
  have deep : 2 ^ 31 < fuel := Nat.lt_trans (by decide) (lt_fuel enough)
  by_cases named : ∃ e, NamedNode blob 0 e
  · obtain ⟨e, root⟩ := named
    have node : NamedNode blob walk.poffset e := start ▸ root
    obtain ⟨result, returned, answer⟩ := unflattenDtNode_inside recent header ends abi filling
      enough root.ends nonneg (2 ^ 31) node (.root root) (by simp) (offsetsLeft_le _) deep none 0
    exact ⟨result, returned, answer.nonneg⟩
  · refine ⟨walk, ?_, nonneg⟩
    obtain ⟨level, rfl⟩ : ∃ level, fuel = level + 1 := ⟨fuel - 1, by omega⟩
    have unnamed : fdtGetName blob (level + 1) walk.poffset = some none := by
      rw [start]
      refine fdtGetName_of_unnamed recent header (by unfold IsInt; decide) ?_ _
      exact fun e node => named ⟨e, node⟩
    simp [unflattenDtNode, unnamed]

/-- Both passes of `__unflatten_device_tree` return. -/
theorem unflattenDeviceTree_returns (dtAlloc : Nat → Nat → Nat) (start : 0 ≤ depth) :
    ∃ result, unflattenDeviceTree blob abi dtAlloc fuel depth = some result := by
  obtain ⟨sizing, sizingResult, nonneg⟩ := unflattenDtNode_pass recent header ends abi false
    enough (show (sizingStart depth).poffset = 0 from rfl) start
  obtain ⟨filled, fillingResult, -⟩ := unflattenDtNode_pass recent header ends abi true enough
    (show (fillingStart (dtAlloc (alignUp sizing.arena.mem 4 + 4) abi.alignofDeviceNode)
      (alignUp sizing.arena.mem 4) sizing.depth).poffset = 0 from rfl) nonneg
  simp only [unflattenDeviceTree, header, ne_eq, not_true_eq_false, if_false, sizingResult,
    fillingResult, Option.bind_eq_bind, Option.bind_some]
  exact ⟨_, rfl⟩

end Calls

/-! ### Calls that return -/

theorem NamedNode.fdtNextNode_isInt (node : NamedNode blob offset e) {result : Int × Int}
    (returned : fdtNextNode blob fuel offset depth = some result) : IsInt result.1 := by
  rw [node.fdtNextNode_eq recent] at returned
  refine loop_invariant (fun state => ∃ u, state.1 = int32 u ∧ IsPosition u)
    (fun result => IsInt result.1) ?_ ?_ ⟨_, rfl, (alignPosition_spec e).1⟩ returned
  · rintro ⟨p, depth⟩ next ⟨u, here, position⟩ turn
    subst here
    have spec := nextNodeTurn_spec recent position depth
    rw [turn] at spec
    cases spec with
    | quiet steps | leave steps inside => exact ⟨_, rfl, steps.isPosition.1⟩
  · rintro ⟨p, depth⟩ result ⟨u, here, position⟩ turn
    subst here
    have spec := nextNodeTurn_spec recent position depth
    rw [turn] at spec
    cases spec with
    | node ends => exact isInt_int32 u
    | close steps closed => exact isInt_int32 _
    | stop negative isInt => exact isInt

section

variable (header : fdtCheckHeader blob = 0)
include header

/-- A call that returns has made one call after the other until no deeper node was left. -/
theorem unflattenDtNode_drains {abi : Abi} {filling : Bool} (level : Nat) {walk result : Walk}
    {dad : Option Nat} {fpsize : Nat} (isInt : IsInt walk.poffset)
    (returned : unflattenDtNode blob abi filling fuel level walk dad fpsize = some result) :
    IsInt result.poffset ∧ ∃ next, Control blob (walk.poffset, walk.depth) next ∧
      Drains blob walk.depth next (result.poffset, result.depth) := by
  induction level generalizing walk result dad fpsize with
  | zero => cases returned
  | succ level inductionHypothesis =>
    simp only [unflattenDtNode, Option.bind_eq_bind, Option.bind_eq_some_iff] at returned
    obtain ⟨name, nameResult, returned⟩ := returned
    cases name with
    | none =>
      cases returned
      refine ⟨isInt, _, .unnamed fun e node => ?_, .stop fun found => ?_⟩
      · unfold fdtGetName at nameResult
        simp [header, node.checked recent, Option.bind_eq_some_iff] at nameResult
      · exact absurd found.2 (Int.lt_irrefl _)
    | some name =>
      obtain ⟨e, node⟩ : ∃ e, NamedNode blob walk.poffset e := by
        by_contra unnamed
        cases nameResult.symm.trans (fdtGetName_of_unnamed recent header isInt
          (fun e node => unnamed ⟨e, node⟩) fuel)
      simp only [Option.bind_eq_some_iff] at returned
      obtain ⟨⟨np, arena⟩, -, ⟨poffset, depth⟩, nextResult, returned⟩ := returned
      have control : Control blob (walk.poffset, walk.depth)
          (poffset, if depth < 0 then 0 else depth) := .node node nextResult
      suffices IsInt result.poffset ∧ Drains blob walk.depth
          (poffset, if depth < 0 then 0 else depth) (result.poffset, result.depth) from
        ⟨this.1, _, control, this.2⟩
      -- Whatever drains from the present state drains from the first one.
      refine loop_invariant
        (fun now => IsInt now.poffset ∧ ∀ last,
          Drains blob walk.depth (now.poffset, now.depth) last →
          Drains blob walk.depth (poffset, if depth < 0 then 0 else depth) last)
        (fun last => IsInt last.poffset ∧ Drains blob walk.depth
          (poffset, if depth < 0 then 0 else depth) (last.poffset, last.depth))
        ?_ ?_ ⟨node.fdtNextNode_isInt recent nextResult, fun _ drains => drains⟩ returned
      · rintro now next ⟨nowInt, before⟩ turn
        unfold childTurn at turn
        split at turn
        · next found =>
          obtain ⟨called, callResult, same⟩ := Option.map_eq_some_iff.mp turn
          cases same
          obtain ⟨nextInt, middle, nowControl, inner⟩ := inductionHypothesis nowInt callResult
          refine ⟨nextInt, fun last drains => before last (.go found nowControl ?_)⟩
          exact inner.trans (Int.le_of_lt found.2) drains
        · cases turn
      · rintro now last ⟨nowInt, before⟩ turn
        unfold childTurn at turn
        split at turn
        · obtain ⟨called, -, same⟩ := Option.map_eq_some_iff.mp turn
          cases same
        · next ended =>
          cases turn
          exact ⟨nowInt, before _ (.stop ended)⟩

end

/-! ### Nodes without a name -/

theorem Control.unique {next next' : Int × Int}
    (control : Control blob state next) (control' : Control blob state next') : next = next' := by
  cases control with
  | unnamed unnamed =>
    cases control' with
    | unnamed => rfl
    | node node => exact absurd node (unnamed _)
  | node node returned =>
    cases control' with
    | unnamed unnamed => exact absurd node (unnamed _)
    | node node' returned' =>
      rw [node.fdtNextNode_eq recent] at returned returned'
      cases loop_unique returned returned'
      rfl

/-- Without a name for the node found, the calls never come to an end. -/
theorem not_drains_of_unnamed {floor : Int}
    (found : 0 < state.1 ∧ floor < state.2) (unnamed : ∀ e, ¬ NamedNode blob state.1 e) :
    ¬ Drains blob floor state last := by
  intro drains
  induction drains with
  | stop ended => exact ended found
  | go _ control _ inductionHypothesis =>
    cases control.unique recent (.unnamed unnamed)
    exact inductionHypothesis found unnamed

/-- The walk of a visited node leads to the position with the given depth. -/
def Visited (blob : Blob) (last : Int × Int) (u : Int) (depth : Int) : Prop :=
  ∃ offset start e, NamedNode blob offset e ∧
    (∃ next, Control blob (offset, start) next ∧ Drains blob 0 next last) ∧
    Relation.ReflTransGen (GoesTo (nextNodeTurn blob))
      (int32 (alignPosition e), start) (int32 u, depth)

/-- When the walk of a visited node finds a node, the calls go on from there. -/
theorem Visited.drains (visited : Visited blob last u depth) (position : IsPosition u)
    (high : u < 2 ^ 31) (nonneg : 0 ≤ depth) (ends : Ends blob u .beginNode e) :
    Drains blob 0 (u, depth + 1) last := by
  obtain ⟨offset, start, e', node, ⟨next, control, drains⟩, steps⟩ := visited
  have turn : nextNodeTurn blob (int32 u, depth) = some (.done (u, depth + 1)) := by
    unfold nextNodeTurn
    simp only [fdtNextTag_of_ends recent position ends]
    rw [int32_of_lt position.1 high]
  obtain ⟨fuel, returned⟩ := loop_of_done steps turn
  rw [← node.fdtNextNode_eq recent] at returned
  have control' : Control blob (offset, start) (u, if depth + 1 < 0 then 0 else depth + 1) :=
    .node node returned
  rw [if_neg (by omega)] at control'
  rwa [control.unique recent control'] at drains

/-- Every position inside the root is met by the walk of a visited node. -/
theorem Inside.visited (control : Control blob (0, 0) first) (drains : Drains blob 0 first last)
    (inside : Inside blob u opened) : Visited blob last u opened := by
  induction inside with
  | root node => exact ⟨0, 0, _, node, ⟨first, control, drains⟩, .refl⟩
  | quiet before steps inductionHypothesis =>
    obtain ⟨offset, start, e, node, calls, walk⟩ := inductionHypothesis
    exact ⟨offset, start, e, node, calls, walk.tail (steps.goesTo recent before.isPosition _)⟩
  | leave before steps inductionHypothesis =>
    obtain ⟨offset, start, e, node, calls, walk⟩ := inductionHypothesis
    refine ⟨offset, start, e, node, calls, walk.tail ?_⟩
    exact steps.goesTo_leave recent before.isPosition (Int.natCast_nonneg _)
  | enter before later node inductionHypothesis =>
    have rest := inductionHypothesis.drains recent before.isPosition node.high
      (Int.natCast_nonneg _) node.ends
    cases rest with
    | stop ended => exact absurd ⟨later, by push_cast; omega⟩ ended
    | go _ nextControl rest =>
      refine ⟨_, _, _, node, ⟨_, nextControl, rest⟩, ?_⟩
      exact .refl

/-- A pass that returns has met no node without a name. -/
theorem nodesNamed_of_returns (header : fdtCheckHeader blob = 0) {abi : Abi}
    {dtAlloc : Nat → Nat → Nat} {result : Option Unflattened}
    (returned : unflattenDeviceTree blob abi dtAlloc fuel 0 = some result) : NodesNamed blob := by
  simp only [unflattenDeviceTree, header, ne_eq, not_true_eq_false, if_false,
    Option.bind_eq_bind, Option.bind_eq_some_iff] at returned
  obtain ⟨sizing, sizingResult, -⟩ := returned
  obtain ⟨-, first, control, drains⟩ := unflattenDtNode_drains recent header fuel
    (show IsInt (sizingStart 0).poffset by unfold IsInt; decide) sizingResult
  intro u opened e inside positive high ends
  by_contra long
  have rest := (inside.visited recent control drains).drains recent inside.isPosition high
    (Int.natCast_nonneg _) ends
  refine not_drains_of_unnamed recent ⟨positive, ?_⟩ (fun e' node => ?_) rest
  · omega
  · rw [(ends.unique node.ends).2] at long
    exact long node.next

end

/-! ### Every walk over a blob -/

/-- Every tag leads further on, and every loop and recursion over the blob ends. -/
structure WalksTerminate (blob : Blob) : Prop where
  progresses : Progresses blob
  nextNode : ∀ offset depth, IsInt offset → NextNodeReturns blob offset depth
  nextprop : ∀ offset, IsInt offset → ∃ fuel result, nextprop blob fuel offset = some result
  properties : ∀ abi filling np offset state, IsInt offset → ∃ fuel result,
    loop (propertyTurn blob abi filling fuel np) fuel (offset, state) = some result
  recursion : ∀ abi dtAlloc depth, 0 ≤ depth → ∃ fuel result,
    unflattenDeviceTree blob abi dtAlloc fuel depth = some result

/-- Below 2 GiB there is nothing to ask for but properties that do not stall. -/
theorem blobEnds_of_small (small : fdtSizeDtStruct blob ≤ 2 ^ 31 - 4)
    (noStall : ∀ s, 0 ≤ s → s < 2 ^ 31 → s % 4 = 0 → ¬ Stalls blob s) : BlobEnds blob := by
  have below {u e : Int} {tag : Tag} (ends : Ends blob u tag e) : e ≤ lastEnd := by
    have := ends.inside
    unfold lastEnd
    omega
  refine ⟨⟨noStall, fun _ _ _ _ _ _ ends => below ends⟩, ⟨?_, fun _ _ _ ends => below ends⟩, ?_⟩
  · intro start u isStart leads stalls
    have position := leads.isPosition isStart
    have := stalls.2.1
    exact noStall u position.1.1 (by omega) position.2 stalls
  · intro u opened e inside positive high ends
    have := ends.inside
    have := ends.ordered
    rw [alignPosition_of_le (by omega) (below ends)]
    omega

/-- The walks over a blob with a valid header end exactly when below 2 GiB no property stalls
and no tag ends in the last three bytes of 4 GiB, and when above, where offsets are negative,
no walk meets such a property and no node below the root has its name end. -/
theorem walksTerminate_iff (blob : Blob) (recent : 0x11 ≤ fdtVersion blob)
    (header : fdtCheckHeader blob = 0) : WalksTerminate blob ↔ BlobEnds blob := by
  constructor
  · intro terminate
    obtain ⟨fuel, result, returned⟩ := terminate.recursion
      ⟨8, 8, 8, 8, by decide, by decide, by decide, by decide⟩ (fun _ _ => 0) 0 (Int.le_refl 0)
    exact ⟨(progresses_iff recent).mp terminate.progresses,
      nodeWalksEnd_of_returns recent terminate.nextNode,
      nodesNamed_of_returns recent header returned⟩
  · intro ends
    refine ⟨(progresses_iff recent).mpr ends.advance, ?_, ?_, ?_, ?_⟩
    · exact fun offset depth isInt => ends.walksEnd.returns recent isInt depth
    · exact fun offset isInt => nextprop_returns recent isInt
    · exact fun abi filling np offset state isInt => ⟨_, propertyLoop_returns recent ends.advance
        abi filling np (Nat.le_refl enoughFuel) isInt state⟩
    · intro abi dtAlloc depth nonneg
      exact ⟨_, unflattenDeviceTree_returns recent header ends abi (Nat.le_refl enoughFuel)
        dtAlloc nonneg⟩

end Recursion

/-- A root without properties and children. -/
def emptyRoot : Blob where
  magic := 0xd00dfeed
  offDtStruct := 40
  offDtStrings := 56
  version := 0x11
  lastCompVersion := 0x10
  sizeDtStruct := 16
  byte p := [0, 0, 0, 1, 0, 0, 0, 0, 0, 0, 0, 2, 0, 0, 0, 9].getD (p - 40).toNat 0

theorem walksTerminate_emptyRoot :
    0x11 ≤ fdtVersion emptyRoot ∧ fdtCheckHeader emptyRoot = 0 ∧ WalksTerminate emptyRoot := by
  refine ⟨by decide, by decide, (walksTerminate_iff emptyRoot (by decide) (by decide)).mpr ?_⟩
  refine blobEnds_of_small (by decide) fun s low high aligned stalls => ?_
  have size : fdtSizeDtStruct emptyRoot = 16 := by decide
  have inside := stalls.2.1
  obtain rfl | rfl | rfl : s = 0 ∨ s = 4 ∨ s = 8 := by omega
  all_goals
    revert stalls
    unfold Stalls
    decide

/-- A root whose only property states the length `0xfffffff4`. -/
def stallingBlob : Blob where
  magic := 0xd00dfeed
  offDtStruct := 40
  offDtStrings := 60
  version := 0x11
  lastCompVersion := 0x10
  sizeDtStruct := 20
  byte p := [0, 0, 0, 1, 0, 0, 0, 0, 0, 0, 0, 3, 0xff, 0xff, 0xff, 0xf4, 0, 0, 0, 0].getD
    (p - 40).toNat 0

/-- The property of `stallingBlob` is followed by itself, and `fdt_next_node` never returns. -/
theorem stallingBlob_stalls :
    fdtVersion stallingBlob = 0x11 ∧ fdtCheckHeader stallingBlob = 0 ∧
      fdtNextTag stallingBlob 8 = some (.prop, 8) ∧
      (∀ fuel, fdtNextNode stallingBlob fuel 0 0 = none) ∧ ¬ WalksTerminate stallingBlob := by
  have recent : 0x11 ≤ fdtVersion stallingBlob := by decide
  have stalls : Stalls stallingBlob 8 := by unfold Stalls; decide
  have root : NamedNode stallingBlob 0 5 := by
    refine ⟨by decide, by decide, by decide, ⟨by decide, by decide, ?_, by decide, by decide⟩,
      by decide⟩
    exact ⟨by decide, by decide, fun p low high => by omega⟩
  have afterRoot : int32 (alignPosition 5) = 8 := by decide
  have tag : fdtNextTag stallingBlob 8 = some (.prop, 8) := by decide
  have goes : GoesTo (nextNodeTurn stallingBlob) (8, 0) (8, 0) := by
    unfold GoesTo nextNodeTurn
    simp only [tag]
  refine ⟨by decide, by decide, tag, fun fuel => ?_, fun terminate => ?_⟩
  · cases returned : fdtNextNode stallingBlob fuel 0 0 with
    | none => rfl
    | some result =>
      rw [root.fdtNextNode_eq recent, afterRoot] at returned
      exact absurd ⟨fuel, result, returned⟩ (not_returns_of_cycle (.single goes))
  · have advance := (progresses_iff recent).mp terminate.progresses
    exact advance.noStall 8 (by decide) (by decide) (by decide) stalls

end StudyNotes.DeviceTree
