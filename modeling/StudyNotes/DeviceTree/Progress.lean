/-
This file proves when the walks over the tags of a blob end.

A tag ends after it starts, with one exception: a property whose length makes
its end wrap around to its own start. And the offset after a tag is larger than
the offset of the tag unless the tag ends in the last three bytes that 32 bits
can count, from where the next offset is 0. So `_nextprop` always ends, and
`fdt_next_node` ends unless it meets a property of one of these kinds.
-/

import StudyNotes.DeviceTree.NextTag

namespace StudyNotes.DeviceTree

open Library

/-! ### Tags that do not advance -/

/-- A property whose end is its own start. -/
def Stalls (blob : Blob) (u : Int) : Prop :=
  Tag.ofWord (wordAt blob u) = some .prop ∧ u + 8 ≤ fdtSizeDtStruct blob ∧
    wordAt blob (u + 4) = 0xfffffff4

/-- The last end from where the next offset does not wrap around to 0. -/
def lastEnd : Int := 2 ^ 32 - 4

/-- Tags that `fdt_next_node` skips without a change of depth. -/
inductive Quiet : Tag → Prop where
  | prop : Quiet .prop
  | nop : Quiet .nop

/-- Tags that `fdt_next_node` skips. -/
inductive Skipped : Tag → Prop where
  | quiet {tag : Tag} (quiet : Quiet tag) : Skipped tag
  | endNode : Skipped .endNode

/-- A tag of the given kind leads from one position to the next. -/
def StepsTo (blob : Blob) (kind : Tag → Prop) (u v : Int) : Prop :=
  ∃ tag e, kind tag ∧ Ends blob u tag e ∧ v = alignPosition e

section Progress

variable {blob : Blob} {e u offset v start depth : Int} {tag : Tag} {kind kind' : Tag → Prop}

theorem alignPosition_of_le (low : 0 ≤ e) (high : e ≤ lastEnd) :
    alignPosition e = (e + 3) / 4 * 4 := by
  unfold lastEnd at high
  unfold alignPosition
  omega

theorem alignPosition_of_gt (low : lastEnd < e) (high : e < 2 ^ 32) : alignPosition e = 0 := by
  unfold lastEnd at low
  unfold alignPosition
  omega

theorem Ends.lt_two_pow (ends : Ends blob u tag e) : e < 2 ^ 32 :=
  Int.lt_of_le_of_lt ends.inside (fdtSizeDtStruct_lt blob)

theorem Stalls.ends (stalls : Stalls blob u) (position : IsPosition u) : Ends blob u .prop u := by
  obtain ⟨word, readable, length⟩ := stalls
  obtain ⟨low, high⟩ := position
  refine ⟨by omega, word, ⟨readable, ?_⟩, Int.le_refl u, by omega⟩
  omega

section

variable (ends : Ends blob u tag e)
include ends

/-- Only a stalling property ends where it starts. -/
theorem Ends.lt_of_not_stalls (position : IsPosition u) (advances : ¬ Stalls blob u) : u < e := by
  obtain ⟨readable, word, payload, ordered, inside⟩ := ends
  cases tag with
  | beginNode =>
    have := payload.1
    omega
  | prop =>
    obtain ⟨complete, stated⟩ := payload
    have length := fdt32_bounds blob (fdtOffDtStruct blob + int32 (u + 4))
    have other : wordAt blob (u + 4) ≠ 0xfffffff4 := fun same => advances ⟨word, complete, same⟩
    unfold wordAt at other stated
    obtain ⟨low, high⟩ := position
    omega
  | endNode | nop | fin => have : e = u + 4 := payload; omega

/-- The next position is a later one, or 0 after the last end. -/
theorem Ends.alignPosition_cases (position : IsPosition u) (advances : ¬ Stalls blob u) :
    u < alignPosition e ∨ (lastEnd < e ∧ alignPosition e = 0) := by
  have later := ends.lt_of_not_stalls position advances
  rcases Int.lt_or_le lastEnd e with top | below
  · exact .inr ⟨top, alignPosition_of_gt top ends.lt_two_pow⟩
  · have := alignPosition_of_le (by have := position.1; omega) below
    omega

/-- A tag without a payload at an aligned position never wraps around. -/
theorem Ends.alignPosition_plain (position : IsPosition u)
    (aligned : u % 4 = 0) (plain : e = u + 4) :
    alignPosition e = u + 4 := by
  have high := ends.lt_two_pow
  have low := position.1
  unfold alignPosition
  omega

end

/-! ### Where the walks come -/

theorem StepsTo.isPosition (steps : StepsTo blob kind u v) : IsPosition v ∧ v % 4 = 0 := by
  obtain ⟨tag, e, -, -, rfl⟩ := steps
  exact alignPosition_spec e

/-- Where the loop of `fdt_next_node` can start: at 0, or after the header of a node. -/
inductive Start (blob : Blob) : Int → Prop where
  | zero : Start blob 0
  | node {s e : Int} (low : 0 ≤ s) (high : s < 2 ^ 31) (aligned : s % 4 = 0)
      (ends : Ends blob s .beginNode e) (next : alignPosition e < 2 ^ 31) :
      Start blob (alignPosition e)

/-- The positions that tags of the given kind lead to from a position. -/
def LeadsTo (blob : Blob) (kind : Tag → Prop) : Int → Int → Prop :=
  Relation.ReflTransGen (StepsTo blob kind)

theorem Start.isPosition (isStart : Start blob start) : IsPosition start ∧ start % 4 = 0 := by
  cases isStart with
  | zero => exact ⟨⟨by decide, by decide⟩, by decide⟩
  | node => exact alignPosition_spec _

theorem LeadsTo.isPosition (leads : LeadsTo blob kind start u) (isStart : Start blob start) :
    IsPosition u ∧ u % 4 = 0 := by
  induction leads with
  | refl => exact isStart.isPosition
  | tail _ steps => exact steps.isPosition

theorem StepsTo.mono (weaker : ∀ tag, kind tag → kind' tag) (steps : StepsTo blob kind u v) :
    StepsTo blob kind' u v := by
  obtain ⟨tag, e, isKind, ends, next⟩ := steps
  exact ⟨tag, e, weaker tag isKind, ends, next⟩

theorem LeadsTo.mono (weaker : ∀ tag, kind tag → kind' tag) (leads : LeadsTo blob kind u v) :
    LeadsTo blob kind' u v := by
  induction leads with
  | refl => exact .refl
  | tail _ steps inductionHypothesis => exact inductionHypothesis.tail (steps.mono weaker)

theorem skipped_of_endNode (tag : Tag) (isEnd : tag = .endNode) : Skipped tag := by
  subst isEnd
  exact .endNode

theorem skipped_of_quiet (tag : Tag) (quiet : Quiet tag) : Skipped tag := .quiet quiet

/-- At the end of the tree there is an error, if only that of the end itself. -/
theorem end_isError {code : Int} (isError : IsError (-code)) (v : Int) :
    IsError (if int32 v ≥ 0 then -code else int32 v) := by
  split
  · exact isError
  · exact ⟨by omega, isInt_int32 v⟩

theorem int32_nonneg_iff (position : IsPosition u) : 0 ≤ int32 u ↔ u < 2 ^ 31 := by
  unfold IsPosition at position
  unfold int32
  omega

theorem isPosition_of_offset (low : 0 ≤ offset) (high : offset < 2 ^ 31) :
    IsPosition offset := ⟨low, by omega⟩

theorem uint32_int32 (position : IsPosition u) : uint32 (int32 u) = u := by
  unfold IsPosition at position
  unfold uint32 int32
  omega

/-! ### The walk to the next node -/

/-- What one turn of `fdt_next_node` can do at a position. -/
inductive NodeTurn (blob : Blob) (u depth : Int) :
    Option (Turn (Int × Int) (Int × Int)) → Prop where
  | node {e : Int} (ends : Ends blob u .beginNode e) :
      NodeTurn blob u depth (some (.done (int32 u, depth + 1)))
  | quiet {v : Int} (steps : StepsTo blob Quiet u v) :
      NodeTurn blob u depth (some (.again (int32 v, depth)))
  | leave {v : Int} (steps : StepsTo blob (· = .endNode) u v) (open_ : 0 ≤ depth - 1) :
      NodeTurn blob u depth (some (.again (int32 v, depth - 1)))
  | close {v : Int} (steps : StepsTo blob (· = .endNode) u v) (closed : depth - 1 < 0) :
      NodeTurn blob u depth (some (.done (int32 v, depth - 1)))
  | stop {error : Int} (negative : error < 0) (isInt : IsInt error) :
      NodeTurn blob u depth (some (.done (error, depth)))

/-- The walk of `fdt_next_node` returns from a position. -/
def NodeWalkReturns (blob : Blob) (u depth : Int) : Prop :=
  Returns (nextNodeTurn blob) (int32 u, depth)

/-- The properties that keep `fdt_next_node` from returning. -/
structure NodeWalksEnd (blob : Blob) : Prop where
  noStall : ∀ start u, Start blob start → LeadsTo blob Skipped start u → ¬ Stalls blob u
  noCycle : ∀ u e, LeadsTo blob Quiet 0 u → Ends blob u .prop e → e ≤ lastEnd

/-- A call of `fdt_next_node` returns. -/
def NextNodeReturns (blob : Blob) (offset depth : Int) : Prop :=
  ∃ fuel result, fdtNextNode blob fuel offset depth = some result

theorem nextNodeReturns_of_negative (negative : offset < 0) (depth : Int) :
    NextNodeReturns blob offset depth ↔ NodeWalkReturns blob 0 depth := by
  unfold NextNodeReturns fdtNextNode NodeWalkReturns Returns
  simp [show ¬ 0 ≤ offset by omega]
  rfl

variable (recent : 0x11 ≤ fdtVersion blob)
include recent

theorem nextNodeTurn_spec (position : IsPosition u)
    (depth : Int) : NodeTurn blob u depth (nextNodeTurn blob (int32 u, depth)) := by
  unfold nextNodeTurn
  rcases fdtNextTag_spec recent position with
    ⟨tag, e, ends, result⟩ | ⟨-, error, ⟨negative, isInt⟩, result⟩
  · simp only [result]
    cases tag with
    | beginNode => exact .node ends
    | prop => exact .quiet ⟨.prop, e, .prop, ends, rfl⟩
    | nop => exact .quiet ⟨.nop, e, .nop, ends, rfl⟩
    | endNode =>
      by_cases closed : depth - 1 < 0
      · simp only [if_pos closed]
        exact .close ⟨.endNode, e, rfl, ends, rfl⟩ closed
      · simp only [if_neg closed]
        exact .leave ⟨.endNode, e, rfl, ends, rfl⟩ (by omega)
    | fin =>
      obtain ⟨negative, isInt⟩ := end_isError (show IsError (-fdtErrNotfound) by decide) _
      exact .stop negative isInt
  · simp only [result, if_neg (show ¬ error ≥ 0 by omega)]
    exact .stop negative isInt

theorem fdtNextTag_of_ends (position : IsPosition u) (ends : Ends blob u tag e) :
    fdtNextTag blob (int32 u) = some (tag, int32 (alignPosition e)) := by
  rcases fdtNextTag_spec recent position with ⟨tag', e', ends', result⟩ | ⟨missing, -⟩
  · obtain ⟨rfl, rfl⟩ := ends.unique ends'
    exact result
  · exact absurd ends (missing tag e)

theorem StepsTo.goesTo (position : IsPosition u) (steps : StepsTo blob Quiet u v) (depth : Int) :
    GoesTo (nextNodeTurn blob) (int32 u, depth) (int32 v, depth) := by
  obtain ⟨tag, e, quiet, ends, rfl⟩ := steps
  unfold GoesTo nextNodeTurn
  simp only [fdtNextTag_of_ends recent position ends]
  cases quiet with
  | prop | nop => rfl

theorem StepsTo.goesTo_leave (position : IsPosition u) (steps : StepsTo blob (· = .endNode) u v)
    (inside : 0 ≤ depth) : GoesTo (nextNodeTurn blob) (int32 u, depth + 1) (int32 v, depth) := by
  obtain ⟨tag, e, rfl, ends, rfl⟩ := steps
  unfold GoesTo nextNodeTurn
  simp only [fdtNextTag_of_ends recent position ends]
  rw [if_neg (by omega), Int.add_sub_cancel]

theorem nodeWalkReturns_step (position : IsPosition u)
    (quiet : ∀ v, StepsTo blob Quiet u v → NodeWalkReturns blob v depth)
    (leave : ∀ v, StepsTo blob (· = .endNode) u v → 0 ≤ depth - 1 →
      NodeWalkReturns blob v (depth - 1)) : NodeWalkReturns blob u depth := by
  have spec := nextNodeTurn_spec recent position depth
  generalize turn : nextNodeTurn blob (int32 u, depth) = answer at spec
  cases spec with
  | node | close | stop => exact returns_of_done turn
  | quiet steps => exact (GoesTo.returns_iff turn).mpr (quiet _ steps)
  | leave steps inside => exact (GoesTo.returns_iff turn).mpr (leave _ steps inside)

section Sufficient

variable (walksEnd : NodeWalksEnd blob)
include walksEnd

section

variable (shallower : ∀ start u, Start blob start → LeadsTo blob Skipped start u →
  0 ≤ depth - 1 → NodeWalkReturns blob u (depth - 1))
include shallower

/-- From 0 over properties and NOPs no walk comes back to 0, so it ends or leaves a node. -/
theorem nodeWalkReturns_quiet (left : Nat) (leads : LeadsTo blob Quiet 0 u)
    (measure : 2 ^ 32 - u ≤ left) : NodeWalkReturns blob u depth := by
  induction left generalizing u with
  | zero =>
    have position := leads.isPosition .zero
    have := position.1.2
    omega
  | succ left inductionHypothesis =>
    have position := leads.isPosition .zero
    have reached := leads.mono skipped_of_quiet
    refine nodeWalkReturns_step recent position.1 (fun v steps => ?_) (fun v steps inside => ?_)
    · refine inductionHypothesis (Relation.ReflTransGen.tail leads steps) ?_
      obtain ⟨tag, e, quiet, ends, rfl⟩ := steps
      rcases ends.alignPosition_cases position.1
        (walksEnd.noStall 0 u .zero reached) with later | ⟨top, -⟩
      · omega
      · cases quiet with
        | prop => exact absurd (walksEnd.noCycle u e leads ends) (Int.not_le.mpr top)
        | nop =>
          have := ends.alignPosition_plain position.1 position.2 ends.payload
          omega
    · exact shallower 0 v .zero (reached.tail (steps.mono skipped_of_endNode)) inside

/-- Every walk goes up until it ends, leaves a node, or starts over from 0. -/
theorem nodeWalkReturns_level (left : Nat) (isStart : Start blob start)
    (leads : LeadsTo blob Skipped start u) (measure : 2 ^ 32 - u ≤ left) :
    NodeWalkReturns blob u depth := by
  induction left generalizing u with
  | zero =>
    have position := leads.isPosition isStart
    have := position.1.2
    omega
  | succ left inductionHypothesis =>
    have position := leads.isPosition isStart
    refine nodeWalkReturns_step recent position.1 (fun v steps => ?_) (fun v steps inside => ?_)
    · have further := Relation.ReflTransGen.tail leads (steps.mono skipped_of_quiet)
      obtain ⟨tag, e, quiet, ends, rfl⟩ := steps
      rcases ends.alignPosition_cases position.1
        (walksEnd.noStall start u isStart leads) with later | ⟨-, wrapped⟩
      · exact inductionHypothesis further (by push_cast at measure; omega)
      · rw [wrapped]
        exact nodeWalkReturns_quiet recent walksEnd shallower (2 ^ 32) .refl (by decide)
    · exact shallower start v isStart (leads.tail (steps.mono skipped_of_endNode)) inside

end

/-- Every walk of `fdt_next_node` returns. -/
theorem nodeWalkReturns_of_start (depthBound : Nat) (bound : depth ≤ depthBound)
    (isStart : Start blob start) (leads : LeadsTo blob Skipped start u) :
    NodeWalkReturns blob u depth := by
  induction depthBound generalizing depth start u with
  | zero =>
    exact nodeWalkReturns_level recent walksEnd (fun _ _ _ _ inside => by omega) _ isStart leads
      (Int.self_le_toNat _)
  | succ depthBound inductionHypothesis =>
    refine nodeWalkReturns_level recent walksEnd (fun start' u' isStart' leads' inside => ?_) _
      isStart leads (Int.self_le_toNat _)
    exact inductionHypothesis (by push_cast at bound; omega) isStart' leads'

end Sufficient

/-! ### Calls of the walks -/

/-- A node whose name ends below 2 GiB. -/
structure NamedNode (blob : Blob) (offset e : Int) : Prop where
  low : 0 ≤ offset
  high : offset < 2 ^ 31
  aligned : offset % 4 = 0
  ends : Ends blob offset .beginNode e
  next : alignPosition e < 2 ^ 31

/-- A node is checked by its end, when the next tag has an offset. -/
theorem NamedNode.checked (node : NamedNode blob offset e) :
    fdtCheckNodeOffset blob offset = some (alignPosition e) := by
  obtain ⟨low, high, aligned, ends, next⟩ := node
  have result := fdtNextTag_of_ends recent (isPosition_of_offset low high) ends
  rw [int32_of_lt low high, int32_of_lt (alignPosition_spec e).1.1 next] at result
  rw [fdtCheckNodeOffset, checkTagOffset, if_neg (by omega), result]
  simp

theorem checkTagOffset_spec (expected : Tag) (isNotFin : expected ≠ .fin) (isInt : IsInt offset) :
    (∃ error, IsError error ∧ checkTagOffset blob expected offset = some error) ∨
    ∃ e, 0 ≤ offset ∧ offset % 4 = 0 ∧ Ends blob offset expected e ∧ alignPosition e < 2 ^ 31 ∧
      checkTagOffset blob expected offset = some (alignPosition e) := by
  rw [checkTagOffset]
  by_cases bad : offset < 0 ∨ offset % 4 ≠ 0
  · rw [if_pos bad]
    exact .inl ⟨_, by decide, rfl⟩
  · rw [if_neg bad]
    have low : 0 ≤ offset := by omega
    have spec := fdtNextTag_spec recent (isPosition_of_offset low isInt.2)
    rw [int32_of_lt low isInt.2] at spec
    rcases spec with ⟨tag, e, ends, result⟩ | ⟨-, error, -, result⟩
    · simp only [result]
      by_cases same : tag = expected
      · subst same
        have position := (alignPosition_spec e).1
        rw [if_pos rfl]
        by_cases next : alignPosition e < 2 ^ 31
        · exact .inr ⟨e, low, by omega, ends, next, by rw [int32_of_lt position.1 next]⟩
        · refine .inl ⟨_, ⟨?_, isInt_int32 _⟩, rfl⟩
          by_contra nonneg
          exact next ((int32_nonneg_iff position).mp (Int.not_lt.mp nonneg))
      · rw [if_neg same]
        exact .inl ⟨_, by decide, rfl⟩
    · simp only [result]
      rw [if_neg (Ne.symm isNotFin)]
      exact .inl ⟨_, by decide, rfl⟩

/-- The loop of `fdt_next_node` is what a call for a node runs. -/
theorem NamedNode.fdtNextNode_eq (node : NamedNode blob offset e) (fuel : Nat) (depth : Int) :
    fdtNextNode blob fuel offset depth =
      loop (nextNodeTurn blob) fuel (int32 (alignPosition e), depth) := by
  unfold fdtNextNode
  simp [node.low, node.checked recent, int32_of_lt (alignPosition_spec e).1.1 node.next]

/-- From 0 the turns follow the properties and NOPs. -/
theorem LeadsTo.goesTo (leads : LeadsTo blob Quiet 0 u) (depth : Int) :
    Relation.ReflTransGen (GoesTo (nextNodeTurn blob)) (int32 0, depth) (int32 u, depth) := by
  induction leads with
  | refl => exact .refl
  | tail before steps inductionHypothesis =>
    have position := LeadsTo.isPosition before .zero
    exact inductionHypothesis.tail (steps.goesTo recent position.1 depth)

/-- Calls that all return meet none of the properties that keep them from returning. -/
theorem nodeWalksEnd_of_returns
    (returns : ∀ offset depth, IsInt offset → NextNodeReturns blob offset depth) :
    NodeWalksEnd blob := by
  have fromStart : ∀ start, Start blob start → ∀ depth, 0 ≤ depth →
      NodeWalkReturns blob start depth := by
    intro start isStart depth _
    cases isStart with
    | zero =>
      exact (nextNodeReturns_of_negative (by decide) depth).mp
        (returns (-1) depth (by unfold IsInt; decide))
    | node low high aligned ends next =>
      have returned := returns _ depth ⟨by omega, high⟩
      have node : NamedNode blob _ _ := ⟨low, high, aligned, ends, next⟩
      simp only [NextNodeReturns, node.fdtNextNode_eq recent] at returned
      exact returned
  have fromLater : ∀ start u, Start blob start → LeadsTo blob Skipped start u →
      ∀ depth, 0 ≤ depth → NodeWalkReturns blob u depth := by
    intro start u isStart leads
    induction leads with
    | refl => exact fromStart start isStart
    | tail before steps inductionHypothesis =>
      have position := (LeadsTo.isPosition before isStart).1
      intro depth inside
      obtain ⟨tag, e, skipped, ends, rfl⟩ := steps
      cases skipped with
      | quiet quiet =>
        have goes := StepsTo.goesTo recent position ⟨tag, e, quiet, ends, rfl⟩ depth
        exact goes.returns_iff.mp (inductionHypothesis depth inside)
      | endNode =>
        have goes := StepsTo.goesTo_leave recent position ⟨_, e, rfl, ends, rfl⟩ inside
        exact goes.returns_iff.mp (inductionHypothesis (depth + 1) (by omega))
  constructor
  · intro start u isStart leads stalls
    have position := leads.isPosition isStart
    have same : alignPosition u = u := by
      obtain ⟨⟨low, high⟩, aligned⟩ := position
      unfold alignPosition
      omega
    have goes := StepsTo.goesTo recent position.1
      ⟨.prop, u, .prop, stalls.ends position.1, same.symm⟩ 0
    exact not_returns_of_cycle (.single goes) (fromLater start u isStart leads 0 (by decide))
  · intro u e leads ends
    rcases Int.lt_or_le lastEnd e with top | below
    · have wrapped := alignPosition_of_gt top ends.lt_two_pow
      have position := leads.isPosition .zero
      have goes := StepsTo.goesTo recent position.1 ⟨.prop, e, .prop, ends, wrapped.symm⟩ 0
      exact absurd (fromStart 0 .zero 0 (by decide))
        (not_returns_of_cycle (Relation.TransGen.tail' (leads.goesTo recent 0) goes))
    · exact below

/-- Without such properties every call of `fdt_next_node` returns. -/
theorem NodeWalksEnd.returns (walksEnd : NodeWalksEnd blob)
    (isInt : IsInt offset) (depth : Int) : NextNodeReturns blob offset depth := by
  by_cases negative : offset < 0
  · rw [nextNodeReturns_of_negative negative]
    exact nodeWalkReturns_of_start recent walksEnd _ (Int.self_le_toNat depth) .zero .refl
  · rcases checkTagOffset_spec recent .beginNode (by decide) isInt with
      ⟨error, isError, result⟩ | ⟨e, low, aligned, ends, next, -⟩
    · refine ⟨0, (error, depth), ?_⟩
      unfold fdtNextNode fdtCheckNodeOffset
      simp [show 0 ≤ offset by omega, result, isError.1]
    · have node : NamedNode blob _ _ := ⟨low, isInt.2, aligned, ends, next⟩
      simp only [NextNodeReturns, node.fdtNextNode_eq recent]
      exact nodeWalkReturns_of_start recent walksEnd _ (Int.self_le_toNat depth)
        (.node low isInt.2 aligned ends next) .refl

/-! ### The walk to the next property -/

/-- What one turn of `_nextprop` can do at a position: skip a NOP, find the property there, or
stop with an error. -/
theorem nextpropTurn_spec (position : IsPosition u) :
    (∃ e, Ends blob u .nop e ∧
      nextpropTurn blob (int32 u) = some (.again (int32 (alignPosition e)))) ∨
    nextpropTurn blob (int32 u) = some (.done (int32 u)) ∨
    ∃ error, IsError error ∧ nextpropTurn blob (int32 u) = some (.done error) := by
  unfold nextpropTurn
  rcases fdtNextTag_spec recent position with
    ⟨tag, e, ends, result⟩ | ⟨-, error, ⟨negative, isInt⟩, result⟩
  · simp only [result]
    cases tag with
    | nop => exact .inl ⟨e, ends, rfl⟩
    | prop => exact .inr (.inl rfl)
    | beginNode | endNode => exact .inr (.inr ⟨_, by decide, rfl⟩)
    | fin => exact .inr (.inr ⟨_, end_isError (by decide) (alignPosition e), rfl⟩)
  · simp only [result, if_neg (show ¬ error ≥ 0 by omega)]
    exact .inr (.inr ⟨error, ⟨negative, isInt⟩, rfl⟩)

/-- From an aligned position `_nextprop` returns an error or a position further on. -/
theorem nextprop_aligned (position : IsPosition start)
    (aligned : start % 4 = 0) {fuel : Nat} (enough : 2 ^ 32 < fuel) :
    ∃ result, nextprop blob fuel (int32 start) = some result ∧
      IsInt result ∧ (result < 0 ∨ start ≤ result) := by
  refine loop_returns
    (fun offset => ∃ u, offset = int32 u ∧ IsPosition u ∧ u % 4 = 0 ∧ start ≤ u) _
    (fun offset => (2 ^ 32 - uint32 offset).toNat) ?_
    ⟨start, rfl, position, aligned, Int.le_refl start⟩ ?_
  · rintro _ ⟨u, rfl, isPosition, isAligned, later⟩
    rcases nextpropTurn_spec recent isPosition with
      ⟨e, ends, turn⟩ | turn | ⟨error, ⟨negative, isInt⟩, turn⟩
    · have next := ends.alignPosition_plain isPosition isAligned ends.payload
      have nextPosition := alignPosition_spec e
      refine .inl ⟨_, turn, ⟨_, rfl, nextPosition.1, nextPosition.2, by omega⟩, ?_⟩
      simp only [uint32_int32 isPosition, uint32_int32 nextPosition.1]
      have := isPosition.2
      omega
    · refine .inr ⟨_, turn, isInt_int32 u, ?_⟩
      by_cases lower : u < 2 ^ 31
      · rw [int32_of_lt isPosition.1 lower]
        exact .inr later
      · have := (int32_nonneg_iff isPosition).not.mpr lower
        exact .inl (by omega)
    · exact .inr ⟨error, turn, isInt, .inl negative⟩
  · rw [uint32_int32 position]
    have := position.1
    omega

/-- `_nextprop` always returns. -/
theorem nextprop_returns (isInt : IsInt offset) :
    ∃ fuel result, nextprop blob fuel offset = some result := by
  have position := isPosition_uint32 offset
  have turns := nextpropTurn_spec recent position
  rw [int32_uint32 isInt] at turns
  rcases turns with ⟨e, ends, turn⟩ | turn | ⟨error, -, turn⟩
  · have nextPosition := alignPosition_spec e
    obtain ⟨result, returned, -⟩ :=
      nextprop_aligned recent nextPosition.1 nextPosition.2 (Nat.lt_succ_self (2 ^ 32))
    exact ⟨_, result, (loop_again turn _).trans returned⟩
  · exact ⟨1, _, loop_done turn 0⟩
  · exact ⟨1, _, loop_done turn 0⟩

/-- The walk to the next property from the end of a tag. -/
theorem nextprop_of_next (next : alignPosition e < 2 ^ 31) {fuel : Nat} (enough : 2 ^ 32 < fuel) :
    ∃ result, nextprop blob fuel (alignPosition e) = some result ∧
      IsInt result ∧ (result < 0 ∨ alignPosition e ≤ result) := by
  obtain ⟨position, aligned⟩ := alignPosition_spec e
  have returned := nextprop_aligned recent position aligned enough
  rwa [int32_of_lt position.1 next] at returned

end Progress

end StudyNotes.DeviceTree
