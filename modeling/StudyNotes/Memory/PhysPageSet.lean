/-
This file proves what `phys_page_set` does: the pages it is given afterwards
lead to the new section, every other page leads where it led before, and the
nodes reserved for the call are enough.

The nodes form a forest because every node has one owner: the place in the
tree, as a level and a position, whose entry points to it. A call for an entry
changes only entries inside it. The walk of a page reads only entries that the
page lies in, so a change inside one entry is invisible to the pages of all
others.
-/

import StudyNotes.Memory.PhysMap
import Mathlib.Tactic.Ring

namespace StudyNotes.Memory

open Library

/-! ### Levels -/

theorem levelStep_pos (level : Nat) : 0 < levelStep level := Nat.two_pow_pos _

@[simp] theorem levelStep_zero : levelStep 0 = 1 := by simp [levelStep]

theorem levelStep_add (low high : Nat) :
    levelStep (low + high) = levelStep low * levelStep high := by
  rw [levelStep, levelStep, levelStep, Nat.add_mul, Nat.pow_add]

theorem levelStep_succ (level : Nat) : levelStep (level + 1) = levelStep level * pL2Size := by
  rw [levelStep_add]
  rfl

theorem levelStep_dvd {low high : Nat} (le : low ≤ high) : levelStep low ∣ levelStep high := by
  obtain ⟨rest, rfl⟩ := Nat.exists_eq_add_of_le le
  exact ⟨levelStep rest, levelStep_add low rest⟩

/-- A page's position is its node's position and its slot. -/
theorem div_levelStep_eq (page level : Nat) :
    page / levelStep level = page / levelStep (level + 1) * pL2Size + levelSlot page level := by
  rw [levelSlot, levelStep_succ, ← Nat.div_div_eq_div_mul]
  exact (Nat.div_add_mod' _ _).symm

theorem levelSlot_lt (page level : Nat) : levelSlot page level < pL2Size :=
  Nat.mod_lt _ (by decide)

/-! ### Walks -/

variable {node pos level page nodesNb nodesNb' levels index : Nat} {owner' owner : Nat → Place}
  {map : PhysMap} {place : Place} {ref : EntryRef}

section Walk

variable (map : PhysMap) (page : Nat)

@[simp] theorem physPageWalk_leaf (level ptr : Nat) :
    physPageWalk map page level ⟨0, ptr⟩ = ptr := by
  rw [physPageWalk, if_pos (Or.inl rfl)]

@[simp] theorem physPageWalk_nil (level : Nat) :
    physPageWalk map page (level + 1) ⟨1, physMapNodeNil⟩ = physSectionUnassigned := by
  rw [physPageWalk, if_neg (by simp), if_pos rfl]

theorem physPageWalk_node (level : Nat) (node_ne : node ≠ physMapNodeNil) :
    physPageWalk map page (level + 1) ⟨1, node⟩ =
      physPageWalk map page level (map.nodes node (levelSlot page level)) := by
  rw [physPageWalk, if_neg (by simp), if_neg node_ne]
  rfl

end Walk

/-! ### The forest -/

/-- A place in the tree: a level, and the position of an entry at that level. -/
structure Place where
  level : Nat
  pos : Nat
  deriving DecidableEq, Repr

/-- The entry of a node at a place, by the place that owns the node. -/
def Place.slot (place : Place) (index : Nat) : Place :=
  ⟨place.level, place.pos * pL2Size + index⟩

/-- The place of a page at a level. -/
def pagePlace (page level : Nat) : Place := ⟨level, page / levelStep level⟩

/-- The second place lies inside the first. -/
def Inside (outer inner : Place) : Prop :=
  inner.level ≤ outer.level ∧ inner.pos / levelStep (outer.level - inner.level) = outer.pos

/-- An entry at a place. A leaf above the pages always leads to a real section. A node of the
entry is owned by the place below it. -/
inductive EntryOk (nodesNb : Nat) (owner : Nat → Place) : Place → PhysPageEntry → Prop
  | page (pos ptr : Nat) : EntryOk nodesNb owner ⟨0, pos⟩ ⟨0, ptr⟩
  | large (level pos ptr : Nat) (assigned : ptr ≠ physSectionUnassigned) :
    EntryOk nodesNb owner ⟨level + 1, pos⟩ ⟨0, ptr⟩
  | missing (level pos : Nat) : EntryOk nodesNb owner ⟨level + 1, pos⟩ ⟨1, physMapNodeNil⟩
  | node (level pos node : Nat) (allocated : node < nodesNb) (owned : owner node = ⟨level, pos⟩) :
    EntryOk nodesNb owner ⟨level + 1, pos⟩ ⟨1, node⟩

/-- Every node holds the entries of its owner. -/
structure Forest (levels : Nat) (map : PhysMap) (owner : Nat → Place) : Prop where
  root : EntryOk map.nodesNb owner ⟨levels, 0⟩ map.root
  nodes : ∀ node < map.nodesNb, ∀ index < pL2Size,
    EntryOk map.nodesNb owner ((owner node).slot index) (map.nodes node index)
  bound : map.nodesNb ≤ physMapNodeNil

/-- The place of a reference. -/
inductive RefAt (levels nodesNb : Nat) (owner : Nat → Place) : EntryRef → Place → Prop
  | root : RefAt levels nodesNb owner .root ⟨levels, 0⟩
  | slot (node index : Nat) (allocated : node < nodesNb) (inside : index < pL2Size) :
    RefAt levels nodesNb owner (.slot node index) ((owner node).slot index)

section

variable (forest : Forest levels map owner)
include forest

theorem Forest.read (at' : RefAt levels map.nodesNb owner ref place) :
    EntryOk map.nodesNb owner place (map.read ref) := by
  cases at' with
  | root => exact forest.root
  | slot node index allocated inside => exact forest.nodes node allocated index inside

theorem Forest.ne_nil (allocated : node < map.nodesNb) : node ≠ physMapNodeNil :=
  Nat.ne_of_lt (Nat.lt_of_lt_of_le allocated forest.bound)

theorem Forest.slot (allocated : node < map.nodesNb) (owned : owner node = place)
    (inside : index < pL2Size) :
    EntryOk map.nodesNb owner (place.slot index) (map.nodes node index) :=
  owned ▸ forest.nodes node allocated index inside

end

theorem EntryOk.mono {entry : PhysPageEntry} (ok : EntryOk nodesNb owner place entry)
    (grows : nodesNb ≤ nodesNb') (owners : ∀ node < nodesNb, owner' node = owner node) :
    EntryOk nodesNb' owner' place entry := by
  cases ok with
  | page pos ptr => exact .page pos ptr
  | large level pos ptr assigned => exact .large level pos ptr assigned
  | missing level pos => exact .missing level pos
  | node level pos node allocated owned =>
    exact .node level pos node (Nat.lt_of_lt_of_le allocated grows)
      ((owners node allocated).trans owned)

theorem RefAt.mono (at' : RefAt levels nodesNb owner ref place) (grows : nodesNb ≤ nodesNb')
    (owners : ∀ node < nodesNb, owner' node = owner node) :
    RefAt levels nodesNb' owner' ref place := by
  cases at' with
  | root => exact .root
  | slot node index allocated inside =>
    rw [← owners node allocated]
    exact .slot node index (Nat.lt_of_lt_of_le allocated grows) inside

/-! ### Changes inside an entry -/

theorem Inside.refl (place : Place) : Inside place place :=
  ⟨Nat.le_refl _, by rw [Nat.sub_self, levelStep_zero, Nat.div_one]⟩

theorem Inside.trans {outer middle inner : Place} (first : Inside outer middle)
    (second : Inside middle inner) : Inside outer inner := by
  refine ⟨Nat.le_trans second.1 first.1, ?_⟩
  have steps : outer.level - inner.level =
      (middle.level - inner.level) + (outer.level - middle.level) := by
    have := first.1
    have := second.1
    omega
  rw [steps, levelStep_add, ← Nat.div_div_eq_div_mul, second.2, first.2]

/-- The slots of a node lie inside the entry that points to it. -/
theorem inside_slot (level pos : Nat) (inside : index < pL2Size) :
    Inside ⟨level + 1, pos⟩ (Place.slot ⟨level, pos⟩ index) := by
  refine ⟨Nat.le_succ _, ?_⟩
  have one : levelStep (level + 1 - level) = pL2Size := by
    rw [Nat.add_sub_cancel_left]
    rfl
  simp only [Place.slot, one]
  rw [Nat.mul_comm, Nat.mul_add_div (by decide), Nat.div_eq_of_lt inside, Nat.add_zero]

/-- A page lies in a place exactly when its own places do. -/
theorem pos_eq_of_inside (inside : Inside place (pagePlace page level)) :
    page / levelStep place.level = place.pos := by
  have below : level ≤ place.level := inside.1
  rw [← inside.2]
  dsimp only [pagePlace]
  rw [Nat.div_div_eq_div_mul, ← levelStep_add, Nat.add_sub_cancel' below]

/-- A map that differs only inside one entry. Old nodes keep their owners. -/
structure Changed (levels : Nat) (map : PhysMap) (owner : Nat → Place) (place : Place)
    (map' : PhysMap) (owner' : Nat → Place) : Prop where
  forest : Forest levels map' owner'
  grows : map.nodesNb ≤ map'.nodesNb
  alloc : map'.nodesNbAlloc = map.nodesNbAlloc
  owners : ∀ node < map.nodesNb, owner' node = owner node
  root : place.level < levels → map'.root = map.root
  frame : ∀ node < map.nodesNb, ∀ index < pL2Size, ¬ Inside place ((owner node).slot index) →
    map'.nodes node index = map.nodes node index

section Changed

variable {levels : Nat} {map map' map'' : PhysMap} {owner owner' owner'' : Nat → Place}
  {ref : EntryRef} {place : Place} {entry : PhysPageEntry}

theorem Changed.refl (forest : Forest levels map owner) (place : Place) :
    Changed levels map owner place map owner :=
  ⟨forest, Nat.le_refl _, rfl, fun _ _ => rfl, fun _ => rfl, fun _ _ _ _ _ => rfl⟩

theorem Changed.trans (first : Changed levels map owner place map' owner')
    (second : Changed levels map' owner' place map'' owner'') :
    Changed levels map owner place map'' owner'' := by
  refine ⟨second.forest, Nat.le_trans first.grows second.grows, second.alloc.trans first.alloc,
    fun node allocated => ?_, fun below => (second.root below).trans (first.root below),
    fun node allocated index inside outside => ?_⟩
  · rw [second.owners node (Nat.lt_of_lt_of_le allocated first.grows), first.owners node allocated]
  · rw [second.frame node (Nat.lt_of_lt_of_le allocated first.grows) index inside
      (by rwa [first.owners node allocated]), first.frame node allocated index inside outside]

theorem Changed.widen {outer inner : Place} (inside : Inside outer inner)
    (changed : Changed levels map owner inner map' owner') :
    Changed levels map owner outer map' owner' :=
  { changed with
    root := fun below => changed.root (Nat.lt_of_le_of_lt inside.1 below)
    frame := fun node allocated index slot outside => changed.frame node allocated index slot
      fun within => outside (inside.trans within) }

/-- A change inside an entry does not affect the walks of pages elsewhere. -/
theorem Changed.walk_outside (forest : Forest levels map owner)
    (changed : Changed levels map owner place map' owner')
    (outside : page / levelStep place.level ≠ place.pos)
    (ok : EntryOk map.nodesNb owner (pagePlace page level) entry) :
    physPageWalk map' page level entry = physPageWalk map page level entry := by
  induction level generalizing entry with
  | zero =>
    cases ok
    simp
  | succ level inductionHypothesis =>
    generalize pagePlaceEq : pagePlace page (level + 1) = own at ok
    cases ok with
    | page pos ptr => cases pagePlaceEq
    | large level' pos ptr assigned => simp
    | missing level' pos =>
      cases pagePlaceEq
      simp
    | node level' pos node allocated owned =>
      cases pagePlaceEq
      have real := forest.ne_nil allocated
      have own : (owner node).slot (levelSlot page level) = pagePlace page level := by
        rw [owned, Place.slot, pagePlace, div_levelStep_eq page level]
      have slotOk := forest.nodes node allocated _ (levelSlot_lt page level)
      rw [own] at slotOk
      rw [physPageWalk_node map' page level real, physPageWalk_node map page level real,
        changed.frame node allocated _ (levelSlot_lt page level) fun inside =>
          outside (pos_eq_of_inside (own ▸ inside)), inductionHypothesis slotOk]

/-- A change inside an entry does not affect entries further up. -/
theorem Changed.read_above {inner outer : Place}
    (changed : Changed levels map owner inner map' owner')
    (at' : RefAt levels map.nodesNb owner ref outer) (above : inner.level < outer.level) :
    map'.read ref = map.read ref := by
  cases at' with
  | root => exact changed.root above
  | slot node index allocated inside =>
    exact changed.frame node allocated index inside fun within =>
      absurd within.1 (Nat.not_le_of_lt above)

/-- Writing a sound entry. -/
theorem Forest.write (forest : Forest levels map owner)
    (at' : RefAt levels map.nodesNb owner ref place) (ok : EntryOk map.nodesNb owner place entry) :
    Changed levels map owner place (map.write entry ref) owner := by
  cases at' with
  | root =>
    exact ⟨⟨ok, forest.nodes, forest.bound⟩, Nat.le_refl _, rfl, fun _ _ => rfl,
      fun below => absurd below (Nat.lt_irrefl _), fun _ _ _ _ _ => rfl⟩
  | slot node index allocated inside =>
    refine ⟨⟨forest.root, fun other otherAllocated i inner => ?_, forest.bound⟩, Nat.le_refl _, rfl,
      fun _ _ => rfl, fun _ => rfl, fun other otherAllocated i inner outside => ?_⟩
    · simp only [PhysMap.write]
      split
      · next same =>
        rw [same.1, same.2]
        exact ok
      · exact forest.nodes other otherAllocated i inner
    · simp only [PhysMap.write]
      rw [if_neg]
      rintro ⟨rfl, rfl⟩
      exact outside (Inside.refl _)

@[simp] theorem PhysMap.read_write (map : PhysMap) (entry : PhysPageEntry) (ref : EntryRef) :
    (map.write entry ref).read ref = entry := by
  cases ref with
  | root => rfl
  | slot node index => simp [PhysMap.write, PhysMap.read]

@[simp] theorem PhysMap.nodesNb_write (map : PhysMap) (entry : PhysPageEntry) (ref : EntryRef) :
    (map.write entry ref).nodesNb = map.nodesNb := by
  cases ref with
  | root => rfl
  | slot node index => rfl

theorem PhysMap.nodes_write_of_ne (other : ref ≠ .slot node index) :
    (map.write entry ref).nodes node index = map.nodes node index := by
  cases ref with
  | root => rfl
  | slot node' index' =>
    refine if_neg ?_
    rintro ⟨rfl, rfl⟩
    exact other rfl

theorem RefAt.ne_fresh (at' : RefAt levels nodesNb owner ref place) :
    ref ≠ .slot nodesNb index := by
  cases at' with
  | root => exact EntryRef.noConfusion
  | slot node index' allocated inside =>
    intro same
    cases same
    exact absurd allocated (Nat.lt_irrefl _)

/-- The map after a node has been taken. -/
def PhysMap.withNode (map : PhysMap) (leaf : Bool) : PhysMap :=
  { map with
    nodesNb := map.nodesNb + 1
    nodes := fun p i =>
      if p = map.nodesNb ∧ i < pL2Size then freshEntry leaf else map.nodes p i }

theorem physMapNodeAlloc_ok {leaf : Bool} (room : map.nodesNb < map.nodesNbAlloc)
    (real : map.nodesNb < physMapNodeNil) :
    physMapNodeAlloc map leaf = .ok (map.nodesNb, map.withNode leaf) := by
  rw [physMapNodeAlloc, if_neg (by omega), if_neg (by omega)]
  rfl

/-- The owners after a node has been taken for a place. -/
def ownNode (owner : Nat → Place) (node : Nat) (place : Place) : Nat → Place :=
  fun other => if other = node then place else owner other

@[simp] theorem ownNode_self (owner : Nat → Place) (node : Nat) (place : Place) :
    ownNode owner node place node = place := if_pos rfl

/-- Taking a node changes no old entry. -/
theorem Forest.withNode (forest : Forest levels map owner) (real : map.nodesNb < physMapNodeNil)
    (level pos : Nat) (place : Place) :
    Changed levels map owner place (map.withNode (level = 0))
      (ownNode owner map.nodesNb ⟨level, pos⟩) := by
  have grows : map.nodesNb ≤ map.nodesNb + 1 := Nat.le_succ _
  have owners : ∀ node < map.nodesNb, ownNode owner map.nodesNb ⟨level, pos⟩ node = owner node :=
    fun node allocated => if_neg (Nat.ne_of_lt allocated)
  refine ⟨⟨forest.root.mono grows owners, fun node allocated index inside => ?_, real⟩, grows, rfl,
    owners, fun _ => rfl, fun node allocated index inside _ => ?_⟩
  · simp only [PhysMap.withNode] at allocated ⊢
    rcases Nat.lt_or_ge node map.nodesNb with old | new
    · rw [if_neg (by omega), owners node old]
      exact (forest.nodes node old index inside).mono grows owners
    · obtain rfl : node = map.nodesNb := by omega
      rw [if_pos ⟨rfl, inside⟩, ownNode_self]
      cases level with
      | zero => exact .page _ _
      | succ level => exact .missing level _
  · simp only [PhysMap.withNode]
    rw [if_neg (by omega)]

/-- After `entryNode` an entry that is not a leaf has a node, and no walk has changed. -/
theorem entryNode_spec (forest : Forest levels map owner)
    (at' : RefAt levels map.nodesNb owner ref ⟨level + 1, pos⟩) (inner : (map.read ref).skip ≠ 0)
    (room : map.nodesNb < map.nodesNbAlloc) (real : map.nodesNb < physMapNodeNil) :
    ∃ map' owner' node, entryNode map ref (level = 0) = .ok map' ∧
      Changed levels map owner ⟨level + 1, pos⟩ map' owner' ∧
      map'.nodesNb ≤ map.nodesNb + 1 ∧
      map'.read ref = ⟨1, node⟩ ∧ node < map'.nodesNb ∧ owner' node = ⟨level, pos⟩ ∧
      ∀ page, physPageWalk map' page (level + 1) (map'.read ref) =
        physPageWalk map page (level + 1) (map.read ref) := by
  have ok := forest.read at'
  generalize entryEq : map.read ref = entry at ok inner
  cases ok with
  | large _ _ ptr assigned => exact absurd rfl inner
  | missing =>
    have taken := forest.withNode real level pos ⟨level + 1, pos⟩
    have newAt := at'.mono taken.grows taken.owners
    have written := taken.forest.write newAt (.node level pos map.nodesNb
      (show map.nodesNb < map.nodesNb + 1 by omega) (ownNode_self _ _ _))
    have field : ptrField map.nodesNb = map.nodesNb :=
      Nat.mod_eq_of_lt (by unfold physMapNodeNil at real; omega)
    have count : ((map.withNode (level = 0)).write ⟨1, map.nodesNb⟩ ref).nodesNb =
        map.nodesNb + 1 := PhysMap.nodesNb_write _ _ _
    refine ⟨_, _, map.nodesNb, ?_, taken.trans written, by rw [count], PhysMap.read_write _ _ _,
      by rw [count]; omega, ownNode_self _ _ _, fun page => ?_⟩
    · simp only [entryNode, entryEq, physMapNodeAlloc_ok room real, ok_bind, field]
      rfl
    · rw [PhysMap.read_write, physPageWalk_node _ _ _ (by omega), physPageWalk_nil]
      have fresh : (map.withNode (level = 0)).nodes map.nodesNb (levelSlot page level) =
          freshEntry (level = 0) := if_pos ⟨rfl, levelSlot_lt page level⟩
      rw [PhysMap.nodes_write_of_ne at'.ne_fresh, fresh]
      cases level with
      | zero => exact physPageWalk_leaf _ page 0 _
      | succ level => exact physPageWalk_nil _ page level
  | node _ _ node allocated owned =>
    have present := forest.ne_nil allocated
    refine ⟨map, owner, node, ?_, Changed.refl forest _, Nat.le_succ _, entryEq, allocated, owned,
      fun page => by rw [entryEq]⟩
    simp only [entryNode, entryEq, present, and_false, if_false]
    rfl

end Changed

/-! ### The number of nodes -/

/-- On how many of the levels up to the given one a page is not the first of its entry. -/
def ragged : Nat → Nat → Nat
  | 0, _ => 0
  | level + 1, page => ragged level page + if levelStep (level + 1) ∣ page then 0 else 1

theorem ragged_le (level page : Nat) : ragged level page ≤ level := by
  induction level with
  | zero => exact Nat.le_refl _
  | succ level inductionHypothesis =>
    rw [ragged]
    split
    · omega
    · omega

theorem ragged_of_dvd (aligned : levelStep level ∣ page) : ragged level page = 0 := by
  induction level with
  | zero => rfl
  | succ level inductionHypothesis =>
    rw [ragged, if_pos aligned,
      inductionHypothesis ((levelStep_dvd (Nat.le_succ level)).trans aligned)]

/-- The nodes that a call for an entry takes at most: one for the entry, and one on each level
for each ragged end. -/
def callCost (level index count : Nat) : Nat :=
  1 + ragged level index + ragged level (index + count)

/-- The nodes taken below one slot: none when it becomes a leaf. -/
def slotCost (level index count : Nat) : Nat :=
  match level with
  | 0 => 0
  | below + 1 =>
    if levelStep (below + 1) ∣ index ∧ count = levelStep (below + 1) then 0
    else callCost below index count

/-- A slot pays for the ragged ends of its part of the range. -/
theorem slotCost_le {count : Nat} (starts : index / levelStep level = pos) (some : 0 < count)
    (stops : index + count ≤ (pos + 1) * levelStep level) :
    slotCost level index count ≤ ragged level index + ragged level (index + count) := by
  cases level with
  | zero => exact Nat.zero_le _
  | succ below =>
    rw [slotCost]
    split
    · exact Nat.zero_le _
    · next partly =>
      have ends : ¬ (levelStep (below + 1) ∣ index ∧ levelStep (below + 1) ∣ index + count) := by
        rintro ⟨first, last⟩
        refine partly ⟨first, ?_⟩
        have whole := Nat.le_of_dvd some ((Nat.dvd_add_right first).mp last)
        have exact := Nat.div_mul_cancel first
        rw [starts] at exact
        rw [Nat.add_mul, Nat.one_mul] at stops
        omega
      rw [callCost, ragged, ragged]
      by_cases first : levelStep (below + 1) ∣ index
      · rw [if_pos first, if_neg fun last => ends ⟨first, last⟩]
        omega
      · rw [if_neg first]
        split
        · omega
        · omega

/-! ### Setting below an entry -/

/-- The end of a place, as a page. -/
def Place.stop (place : Place) : Nat := (place.pos + 1) * levelStep place.level

/-- How many pages a call for a place deals with. -/
def SetState.takes (state : SetState) (place : Place) : Nat :=
  min state.nb (place.stop - state.index)

/-- There are this many nodes to take. -/
def PhysMap.Room (map : PhysMap) (cost : Nat) : Prop :=
  map.nodesNb + cost ≤ map.nodesNbAlloc ∧ map.nodesNb + cost ≤ physMapNodeNil

/-- The page range of a place. -/
theorem div_levelStep_eq_iff (page level pos : Nat) :
    page / levelStep level = pos ↔
      pos * levelStep level ≤ page ∧ page < Place.stop ⟨level, pos⟩ := by
  rw [Place.stop, Nat.div_eq_iff (levelStep_pos level)]
  have positive := levelStep_pos level
  simp only [Nat.add_mul, Nat.one_mul]
  omega

theorem stop_eq (level pos : Nat) :
    Place.stop ⟨level, pos⟩ = pos * levelStep level + levelStep level := by
  rw [Place.stop, Nat.add_mul, Nat.one_mul]

section Calls

variable (levels leaf : Nat)

/-- What a call for an entry starts from: a range that begins inside the entry and whose pages
there lead nowhere yet. -/
structure CallStart (state : SetState) (owner : Nat → Place) (ref : EntryRef) (place : Place) :
    Prop where
  forest : Forest levels state.map owner
  at' : RefAt levels state.map.nodesNb owner ref place
  some : 0 < state.nb
  starts : state.index / levelStep place.level = place.pos
  free : ∀ page, state.index ≤ page → page < state.index + state.nb →
    page / levelStep place.level = place.pos →
    physPageWalk state.map page place.level (state.map.read ref) = physSectionUnassigned

/-- What a call for an entry does: it sets the part of the range inside the entry. -/
structure CallDone (state : SetState) (owner : Nat → Place) (ref : EntryRef) (place : Place)
    (cost : Nat) (state' : SetState) (owner' : Nat → Place) : Prop where
  changed : Changed levels state.map owner place state'.map owner'
  cost : state'.map.nodesNb ≤ state.map.nodesNb + cost
  index : state'.index = state.index + state.takes place
  nb : state'.nb = state.nb - state.takes place
  walk : ∀ page, page / levelStep place.level = place.pos →
    physPageWalk state'.map page place.level (state'.map.read ref) =
      if state.index ≤ page ∧ page < state.index + state.nb then leaf
      else physPageWalk state.map page place.level (state.map.read ref)

/-- The call for the level below, for entries of a level. -/
def Sets (level : Nat) (below : SetState → EntryRef → Except Fault SetState) : Prop :=
  ∀ (state : SetState) (owner : Nat → Place) (ref : EntryRef) (pos : Nat),
    CallStart levels state owner ref ⟨level + 1, pos⟩ → (state.map.read ref).skip ≠ 0 →
    state.map.Room (callCost level state.index (state.takes ⟨level + 1, pos⟩)) →
    ∃ state' owner', below state ref = .ok state' ∧ (state'.map.read ref).skip ≠ 0 ∧
      CallDone levels leaf state owner ref ⟨level + 1, pos⟩
        (callCost level state.index (state.takes ⟨level + 1, pos⟩)) state' owner'

variable {levels leaf} {below : SetState → EntryRef → Except Fault SetState}
  {owner : Nat → Place} {state : SetState}

variable {level : Nat} (sets : ∀ lower, level = lower + 1 → Sets levels leaf lower below)
  (assigned : leaf ≠ physSectionUnassigned) (small : leaf < 2 ^ 26)

include sets assigned small in
/-- One slot. The level below is only called for entries that are not leaves. -/
theorem setSlot_spec (start : CallStart levels state owner ref ⟨level, pos⟩)
    (room : state.map.Room (slotCost level state.index (state.takes ⟨level, pos⟩))) :
    ∃ state' owner', setSlot leaf (levelStep level) below ref state = .ok state' ∧
      CallDone levels leaf state owner ref ⟨level, pos⟩
        (slotCost level state.index (state.takes ⟨level, pos⟩)) state' owner' := by
  have some := start.some
  have starts := start.starts
  simp only at starts
  rw [setSlot]
  split
  · next whole =>
    obtain ⟨aligned, fits⟩ := whole
    have first : state.index = pos * levelStep level := by
      rw [← starts, Nat.div_mul_cancel (Nat.dvd_of_mod_eq_zero aligned)]
    have all : state.takes ⟨level, pos⟩ = levelStep level := by
      rw [SetState.takes, stop_eq, first]
      omega
    have field : ptrField leaf = leaf := Nat.mod_eq_of_lt small
    have entryOk : EntryOk state.map.nodesNb owner ⟨level, pos⟩ ⟨0, leaf⟩ := by
      cases level with
      | zero => exact .page pos leaf
      | succ level => exact .large level pos leaf assigned
    refine ⟨_, owner, rfl, ⟨?_, ?_, ?_, ?_, fun page inside => ?_⟩⟩
    · rw [field]
      exact start.forest.write start.at' entryOk
    · rw [PhysMap.nodesNb_write]
      omega
    · rw [all]
    · rw [all]
    · obtain ⟨lower, upper⟩ := (div_levelStep_eq_iff page level pos).mp inside
      rw [stop_eq] at upper
      rw [PhysMap.read_write, physPageWalk_leaf, field, if_pos ⟨by omega, by omega⟩]
  · next partly =>
    cases level with
    | zero => exact absurd ⟨Nat.mod_one _, some⟩ partly
    | succ lower =>
      have inner : (state.map.read ref).skip ≠ 0 := by
        have ok := start.forest.read start.at'
        have unassigned := start.free state.index (Nat.le_refl _) (by omega) starts
        generalize state.map.read ref = entry at ok unassigned
        cases ok with
        | large _ _ ptr assigned =>
          rw [physPageWalk_leaf] at unassigned
          exact absurd unassigned assigned
        | missing | node _ _ node allocated owned => exact Nat.one_ne_zero
      have costEq : slotCost (lower + 1) state.index (state.takes ⟨lower + 1, pos⟩) =
          callCost lower state.index (state.takes ⟨lower + 1, pos⟩) := by
        rw [slotCost, if_neg]
        rintro ⟨aligned, count⟩
        refine partly ⟨Nat.mod_eq_zero_of_dvd aligned, ?_⟩
        rw [← count]
        exact Nat.min_le_left _ _
      rw [costEq] at room ⊢
      obtain ⟨state', owner', result, -, done⟩ :=
        sets lower rfl state owner ref pos start inner room
      exact ⟨state', owner', result, done⟩

/-- The walk of a page from a node. -/
def nodeWalk (map : PhysMap) (node level page : Nat) : Nat :=
  physPageWalk map page level (map.nodes node (levelSlot page level))

/-- A page of a node is in one of its slots. -/
theorem div_levelStep_of_node (inside : page / levelStep (level + 1) = pos) :
    page / levelStep level = pos * pL2Size + levelSlot page level := by
  rw [← inside]
  exact div_levelStep_eq page level

variable {slot : Nat}

theorem node_of_div_levelStep (within : slot < pL2Size)
    (inside : page / levelStep level = pos * pL2Size + slot) :
    page / levelStep (level + 1) = pos ∧ levelSlot page level = slot := by
  constructor
  · rw [levelStep_succ, ← Nat.div_div_eq_div_mul, inside, Nat.mul_comm,
      Nat.mul_add_div (by decide), Nat.div_eq_of_lt within, Nat.add_zero]
  · rw [levelSlot, inside, Nat.mul_comm, Nat.mul_add_mod_self_left, Nat.mod_eq_of_lt within]

/-- What a call for one slot means for the pages of the whole node. -/
theorem CallDone.nodeWalk_eq {state state' : SetState} {cost : Nat}
    (forest : Forest levels state.map owner) (allocated : node < state.map.nodesNb)
    (owned : owner node = ⟨level, pos⟩)
    (starts : state.index / levelStep level = pos * pL2Size + slot)
    (done : CallDone levels leaf state owner (.slot node slot) ⟨level, pos * pL2Size + slot⟩ cost
      state' owner') (inside : page / levelStep (level + 1) = pos) :
    nodeWalk state'.map node level page =
      if state.index ≤ page ∧
          page < state.index + state.takes ⟨level, pos * pL2Size + slot⟩ then leaf
      else nodeWalk state.map node level page := by
  have own := div_levelStep_of_node inside
  have range := (div_levelStep_eq_iff state.index level (pos * pL2Size + slot)).mp starts
  by_cases same : levelSlot page level = slot
  · have here : page / levelStep level = pos * pL2Size + slot := by rw [own, same]
    have upper := ((div_levelStep_eq_iff page level (pos * pL2Size + slot)).mp here).2
    have shown := done.walk page here
    simp only [PhysMap.read] at shown
    rw [nodeWalk, nodeWalk, same, shown]
    have bounds : (state.index ≤ page ∧ page < state.index + state.nb) ↔ (state.index ≤ page ∧
        page < state.index + state.takes ⟨level, pos * pL2Size + slot⟩) := by
      unfold SetState.takes
      omega
    simp only [bounds]
  · have elsewhere : page / levelStep level ≠ pos * pL2Size + slot := by
      rw [own]
      omega
    have kept : state'.map.nodes node (levelSlot page level) =
        state.map.nodes node (levelSlot page level) := by
      refine done.changed.frame node allocated _ (levelSlot_lt page level) fun within' => ?_
      have position := within'.2
      rw [owned] at position
      simp only [Place.slot, Nat.sub_self, levelStep_zero, Nat.div_one] at position
      omega
    have ok := forest.nodes node allocated _ (levelSlot_lt page level)
    rw [owned, Place.slot, ← own] at ok
    rw [nodeWalk, nodeWalk, kept, done.changed.walk_outside forest elsewhere ok, if_neg]
    rintro ⟨lower, upper⟩
    refine elsewhere ((div_levelStep_eq_iff page level (pos * pL2Size + slot)).mpr ?_)
    unfold SetState.takes at upper
    omega

/-- What the loop over a node starts from. -/
structure NodeStart (levels : Nat) (state : SetState) (owner : Nat → Place)
    (node level pos slot : Nat) : Prop where
  forest : Forest levels state.map owner
  allocated : node < state.map.nodesNb
  owned : owner node = ⟨level, pos⟩
  some : 0 < state.nb
  starts : state.index / levelStep level = pos * pL2Size + slot
  free : ∀ page, state.index ≤ page → page < state.index + state.nb →
    page / levelStep (level + 1) = pos →
    nodeWalk state.map node level page = physSectionUnassigned

/-- What the loop over a node does. -/
structure NodeDone (levels leaf : Nat) (state : SetState) (owner : Nat → Place)
    (node level pos cost : Nat) (state' : SetState) (owner' : Nat → Place) : Prop where
  changed : Changed levels state.map owner ⟨level + 1, pos⟩ state'.map owner'
  cost : state'.map.nodesNb ≤ state.map.nodesNb + cost
  index : state'.index = state.index + state.takes ⟨level + 1, pos⟩
  nb : state'.nb = state.nb - state.takes ⟨level + 1, pos⟩
  above : ∀ ref place, RefAt levels state.map.nodesNb owner ref place → level < place.level →
    state'.map.read ref = state.map.read ref
  walk : ∀ page, page / levelStep (level + 1) = pos →
    nodeWalk state'.map node level page =
      if state.index ≤ page ∧ page < state.index + state.nb then leaf
      else nodeWalk state.map node level page

/-- The call for a slot of a node. -/
theorem NodeStart.call (start : NodeStart levels state owner node level pos slot)
    (within : slot < pL2Size) :
    CallStart levels state owner (.slot node slot) ⟨level, pos * pL2Size + slot⟩ := by
  have place : (owner node).slot slot = ⟨level, pos * pL2Size + slot⟩ := by
    rw [start.owned]
    rfl
  refine ⟨start.forest, place ▸ .slot node slot start.allocated within, start.some, start.starts,
    fun page lower upper inside => ?_⟩
  obtain ⟨nodeInside, slotEq⟩ := node_of_div_levelStep within inside
  have free := start.free page lower upper nodeInside
  rwa [nodeWalk, slotEq] at free

theorem stop_node (level pos : Nat) :
    Place.stop ⟨level + 1, pos⟩ = (pos * pL2Size + pL2Size) * levelStep level := by
  rw [Place.stop, levelStep_succ]
  ring

include sets assigned small in
theorem setSlots_spec (left : Nat) (whole : slot + left = pL2Size)
    (start : NodeStart levels state owner node level pos slot)
    (room : state.map.Room (ragged level state.index +
      ragged level (state.index + state.takes ⟨level + 1, pos⟩))) :
    ∃ state' owner', setSlots leaf (levelStep level) node below left slot state = .ok state' ∧
      NodeDone levels leaf state owner node level pos (ragged level state.index +
        ragged level (state.index + state.takes ⟨level + 1, pos⟩)) state' owner' := by
  induction left generalizing slot state owner with
  | zero =>
    -- Past the last slot the range has left the node.
    obtain rfl : slot = pL2Size := by omega
    have past := ((div_levelStep_eq_iff _ _ _).mp start.starts).1
    rw [← stop_node] at past
    have outside : state.takes ⟨level + 1, pos⟩ = 0 := by
      unfold SetState.takes
      omega
    refine ⟨state, owner, rfl, Changed.refl start.forest _, Nat.le_add_right _ _,
      by rw [outside]; rfl,
      by rw [outside]; rfl, fun _ _ _ _ => rfl, fun page inside => ?_⟩
    rw [if_neg]
    rintro ⟨lower, upper⟩
    have := ((div_levelStep_eq_iff _ _ _).mp inside).2
    omega
  | succ left inductionHypothesis =>
    have within : slot < pL2Size := by omega
    have some := start.some
    have starts := start.starts
    have slotRange := (div_levelStep_eq_iff _ _ _).mp starts
    have nested : Place.stop ⟨level, pos * pL2Size + slot⟩ ≤ Place.stop ⟨level + 1, pos⟩ := by
      rw [stop_node, Place.stop]
      exact Nat.mul_le_mul_right _ (by simp only; omega)
    have count : 0 < state.takes ⟨level, pos * pL2Size + slot⟩ := by
      unfold SetState.takes
      omega
    have slotStop : state.index + state.takes ⟨level, pos * pL2Size + slot⟩ ≤
        Place.stop ⟨level, pos * pL2Size + slot⟩ := by
      unfold SetState.takes
      omega
    have cheap := slotCost_le starts count slotStop
    have inNode := inside_slot level pos within
    rw [setSlots, if_neg (by omega)]
    by_cases last : state.takes ⟨level, pos * pL2Size + slot⟩ = state.nb
    · -- The range ends in this slot.
      have same : state.takes ⟨level + 1, pos⟩ = state.nb := by
        unfold SetState.takes at last ⊢
        omega
      obtain ⟨state', owner', result, done⟩ := setSlot_spec sets assigned small
        (start.call within) (by
          rw [same] at room
          rw [last] at cheap ⊢
          unfold PhysMap.Room at room ⊢
          omega)
      rw [result, ok_bind]
      have finished : setSlots leaf (levelStep level) node below left (slot + 1) state' =
          .ok state' := by
        have none : state'.nb = 0 := by rw [done.nb, last, Nat.sub_self]
        cases left with
        | zero => rfl
        | succ left => rw [setSlots, if_pos none]
      refine ⟨state', owner', finished, done.changed.widen inNode, ?_, ?_, ?_,
        fun ref place at' above => done.changed.read_above at' above, fun page inside => ?_⟩
      · have := done.cost
        rw [last] at this cheap
        rw [same]
        omega
      · rw [done.index, last, same]
      · rw [done.nb, last, same]
      · rw [done.nodeWalk_eq start.forest start.allocated start.owned starts inside, last]
    · -- The range goes on past this slot.
      have stops : state.index + state.takes ⟨level, pos * pL2Size + slot⟩ =
          Place.stop ⟨level, pos * pL2Size + slot⟩ := by
        unfold SetState.takes at last ⊢
        omega
      rw [stops, Place.stop, ragged_of_dvd (Nat.dvd_mul_left _ _)] at cheap
      obtain ⟨state', owner', result, done⟩ := setSlot_spec sets assigned small
        (start.call within) (by
          unfold PhysMap.Room at room ⊢
          omega)
      rw [result, ok_bind]
      have index := done.index
      have nb := done.nb
      have nodes := done.cost
      rw [stops] at index
      have smaller : state.takes ⟨level, pos * pL2Size + slot⟩ ≤ state.takes ⟨level + 1, pos⟩ := by
        unfold SetState.takes
        omega
      have rest : state'.takes ⟨level + 1, pos⟩ =
          state.takes ⟨level + 1, pos⟩ - state.takes ⟨level, pos * pL2Size + slot⟩ := by
        unfold SetState.takes at *
        omega
      have aligned : levelStep level ∣ state'.index := by
        rw [index]
        exact Nat.dvd_mul_left _ _
      have next : state'.index / levelStep level = pos * pL2Size + (slot + 1) := by
        rw [index, Place.stop, Nat.mul_div_cancel _ (levelStep_pos level)]
        exact Nat.add_assoc _ _ _
      have restStart : NodeStart levels state' owner' node level pos (slot + 1) := by
        refine ⟨done.changed.forest, Nat.lt_of_lt_of_le start.allocated done.changed.grows,
          (done.changed.owners node start.allocated).trans start.owned, ?_, next,
          fun page lower upper inside => ?_⟩
        · unfold SetState.takes at *
          omega
        · rw [done.nodeWalk_eq start.forest start.allocated start.owned starts inside,
            if_neg (by omega)]
          exact start.free page (by omega) (by unfold SetState.takes at *; omega) inside
      have restEnd : state'.index + state'.takes ⟨level + 1, pos⟩ =
          state.index + state.takes ⟨level + 1, pos⟩ := by
        omega
      obtain ⟨final, finalOwner, finalResult, finished⟩ := inductionHypothesis (by omega) restStart
        (by
          rw [ragged_of_dvd aligned, restEnd]
          have alloc := done.changed.alloc
          unfold PhysMap.Room at room ⊢
          omega)
      have finalCost := finished.cost
      rw [ragged_of_dvd aligned, restEnd] at finalCost
      refine ⟨final, finalOwner, finalResult, (done.changed.widen inNode).trans finished.changed,
        by omega, by rw [finished.index, restEnd], ?_, fun ref place at' above => ?_,
        fun page inside => ?_⟩
      · rw [finished.nb, rest, nb, Nat.sub_sub, Nat.add_sub_cancel' smaller]
      · rw [finished.above ref place (at'.mono done.changed.grows done.changed.owners) above,
          done.changed.read_above at' above]
      · rw [finished.walk page inside,
          done.nodeWalk_eq start.forest start.allocated start.owned starts inside]
        have fits : state.takes ⟨level, pos * pL2Size + slot⟩ ≤ state.nb := Nat.min_le_left _ _
        rw [stops, index]
        split
        · rw [if_pos (by omega)]
        · split
          · rw [if_pos (by omega)]
          · rw [if_neg (by omega)]

include sets assigned small in
/-- A call for an entry, given the call for the level below. -/
theorem setNode_sets : Sets levels leaf level (setNode leaf level below) := by
  intro state owner ref pos start inner room
  have starts := div_levelStep_of_node start.starts
  unfold callCost at room ⊢
  obtain ⟨map, owner', node, found, changed, nodes, entry, allocated, owned, walks⟩ :=
    entryNode_spec start.forest start.at' inner (by unfold PhysMap.Room at room; omega)
      (by unfold PhysMap.Room at room; omega)
  have real := changed.forest.ne_nil allocated
  have step (map' : PhysMap) (page : Nat) (same : map'.read ref = ⟨1, node⟩) :
      physPageWalk map' page (level + 1) (map'.read ref) = nodeWalk map' node level page := by
    rw [same, physPageWalk_node map' page level real]
    rfl
  have nodeStart : NodeStart levels { state with map } owner' node level pos
      (levelSlot state.index level) := by
    refine ⟨changed.forest, allocated, owned, start.some, starts,
      fun page lower upper inside => ?_⟩
    rw [← step map page entry, walks page]
    exact start.free page lower upper inside
  have slots : levelSlot state.index level + (pL2Size - levelSlot state.index level) = pL2Size :=
    Nat.add_sub_cancel' (Nat.le_of_lt (levelSlot_lt _ _))
  obtain ⟨state', owner'', result, done⟩ := setSlots_spec sets assigned small _ slots nodeStart (by
    have alloc := changed.alloc
    unfold PhysMap.Room at room ⊢
    simp only [SetState.takes] at room ⊢
    omega)
  have entry' : state'.map.read ref = ⟨1, node⟩ :=
    (done.above ref _ (start.at'.mono changed.grows changed.owners)
      (Nat.lt_succ_self _)).trans entry
  refine ⟨state', owner'', ?_, by rw [entry']; exact Nat.one_ne_zero,
    changed.trans done.changed, ?_, done.index, done.nb, fun page inside => ?_⟩
  · rw [setNode, found, ok_bind, entry]
    exact result
  · have := done.cost
    simp only [SetState.takes] at this ⊢
    omega
  · rw [step _ page entry', done.walk page inside, ← step map page entry, walks page]

theorem physPageSetLevel_sets (assigned : leaf ≠ physSectionUnassigned) (small : leaf < 2 ^ 26)
    (level : Nat) : Sets levels leaf level (physPageSetLevel leaf level) := by
  induction level with
  | zero => exact setNode_sets (fun lower zero => absurd zero (by omega)) assigned small
  | succ level inductionHypothesis =>
    refine setNode_sets (fun lower succ => ?_) assigned small
    obtain rfl : level = lower := by omega
    exact inductionHypothesis

end Calls

/-! ### The whole map -/

/-- The section index of a page. -/
def pageSection (target : Target) (map : PhysMap) (page : Nat) : Nat :=
  physPageWalk map page target.levels map.root

/-- A map whose nodes form a forest below an inner root. -/
structure MapOk (target : Target) (map : PhysMap) : Prop where
  forest : ∃ owner, Forest target.levels map owner
  root : map.root.skip ≠ 0

/-- The walk only reads the nodes. -/
theorem physPageWalk_congr {map' : PhysMap} (same : map'.nodes = map.nodes) (page level : Nat)
    (entry : PhysPageEntry) :
    physPageWalk map' page level entry = physPageWalk map page level entry := by
  induction level using Nat.strongRecOn generalizing entry with
  | ind level inductionHypothesis =>
    conv_lhs => rw [physPageWalk, same]
    conv_rhs => rw [physPageWalk]
    split
    · rfl
    · next inner =>
      split
      · rfl
      · exact inductionHypothesis (level - entry.skip) (by omega) _

variable (target : Target)

theorem Target.levels_pos : 0 < target.levels := by
  have := target.levels_enough
  have := target.pageBits_le
  omega

theorem physMapNodeReserve_spec (map : PhysMap) (nodes : Nat) :
    (physMapNodeReserve map nodes).nodes = map.nodes ∧
      (physMapNodeReserve map nodes).root = map.root ∧
      (physMapNodeReserve map nodes).nodesNb = map.nodesNb ∧
      map.nodesNb + nodes ≤ (physMapNodeReserve map nodes).nodesNbAlloc := by
  rw [physMapNodeReserve]
  split
  · exact ⟨rfl, rfl, rfl, Nat.le_max_right _ _⟩
  · exact ⟨rfl, rfl, rfl, by omega⟩

theorem MapOk.reserve (ok : MapOk target map) (nodes : Nat) :
    MapOk target (physMapNodeReserve map nodes) ∧
      ∀ page, pageSection target (physMapNodeReserve map nodes) page =
        pageSection target map page := by
  obtain ⟨sameNodes, sameRoot, sameCount, -⟩ := physMapNodeReserve_spec map nodes
  obtain ⟨⟨owner, forest⟩, inner⟩ := ok
  refine ⟨⟨⟨owner, ?_, ?_, ?_⟩, sameRoot ▸ inner⟩, fun page => ?_⟩
  · rw [sameRoot, sameCount]
    exact forest.root
  · rw [sameNodes, sameCount]
    exact forest.nodes
  · rw [sameCount]
    exact forest.bound
  · rw [pageSection, sameRoot, physPageWalk_congr sameNodes]
    rfl

/-- `phys_page_set` maps the given pages to the section and leaves the others alone, and the
nodes it has reserved are enough. -/
theorem physPageSet_spec (ok : MapOk target map)
    (index nb leaf : Nat) (assigned : leaf ≠ physSectionUnassigned) (small : leaf < 2 ^ 26)
    (some : 0 < nb) (fits : index + nb ≤ levelStep target.levels)
    (free : ∀ page, index ≤ page → page < index + nb →
      pageSection target map page = physSectionUnassigned)
    (room : map.nodesNb + 2 * target.levels ≤ physMapNodeNil) :
    ∃ map', physPageSet target map index nb leaf = .ok map' ∧ MapOk target map' ∧
      map'.nodesNb ≤ map.nodesNb + 2 * target.levels ∧
      ∀ page < levelStep target.levels, pageSection target map' page =
        if index ≤ page ∧ page < index + nb then leaf else pageSection target map page := by
  obtain ⟨level, levelEq⟩ := Nat.exists_eq_succ_of_ne_zero (Nat.ne_of_gt target.levels_pos)
  obtain ⟨-, -, sameCount, enough⟩ := physMapNodeReserve_spec map (3 * target.levels)
  obtain ⟨⟨⟨owner, forest⟩, inner⟩, walks⟩ := ok.reserve target (3 * target.levels)
  rw [physPageSet]
  generalize physMapNodeReserve map (3 * target.levels) = reserved at *
  have inRoot (page : Nat) (inside : page < levelStep target.levels) :
      page / levelStep (level + 1) = 0 := by
    rw [← Nat.succ_eq_add_one, ← levelEq]
    exact Nat.div_eq_of_lt inside
  have start : CallStart target.levels { map := reserved, index, nb } owner .root
      ⟨level + 1, 0⟩ := by
    refine ⟨forest, by rw [← Nat.succ_eq_add_one, ← levelEq]; exact .root, some,
      inRoot index (by omega), fun page lower upper _ => ?_⟩
    have := free page lower upper
    rwa [← walks, pageSection, levelEq] at this
  have cheap (count : Nat) : callCost level index count ≤ 2 * target.levels := by
    have first := ragged_le level index
    have last := ragged_le level (index + count)
    rw [callCost]
    omega
  obtain ⟨state', owner', result, root, done⟩ := physPageSetLevel_sets assigned small level _ owner
    .root 0 start inner (by
      have cost := cheap (SetState.takes ⟨reserved, index, nb⟩ ⟨level + 1, 0⟩)
      unfold PhysMap.Room
      simp only
      omega)
  refine ⟨state'.map, ?_, ⟨⟨owner', done.changed.forest⟩, root⟩, ?_, fun page inside => ?_⟩
  · rw [levelEq, Nat.succ_sub_one, result, ok_bind]
    rfl
  · exact sameCount ▸ done.cost.trans (Nat.add_le_add_left (cheap _) _)
  · rw [pageSection, levelEq]
    refine (done.walk page (inRoot page inside)).trans ?_
    rw [← walks, pageSection, levelEq]
    rfl

/-- Without pages `phys_page_set` takes a node for the root at most. -/
theorem physPageSet_zero (ok : MapOk target map) (index leaf : Nat)
    (room : map.nodesNb + 1 ≤ physMapNodeNil) :
    ∃ map', physPageSet target map index 0 leaf = .ok map' ∧ MapOk target map' ∧
      map'.nodesNb ≤ map.nodesNb + 1 ∧
      ∀ page, pageSection target map' page = pageSection target map page := by
  obtain ⟨level, levelEq⟩ := Nat.exists_eq_succ_of_ne_zero (Nat.ne_of_gt target.levels_pos)
  obtain ⟨-, -, sameCount, enough⟩ := physMapNodeReserve_spec map (3 * target.levels)
  obtain ⟨⟨⟨owner, forest⟩, inner⟩, walks⟩ := ok.reserve target (3 * target.levels)
  rw [physPageSet]
  generalize physMapNodeReserve map (3 * target.levels) = reserved at *
  have rootAt : RefAt target.levels reserved.nodesNb owner .root ⟨level + 1, 0⟩ :=
    levelEq ▸ .root
  obtain ⟨map', owner', node, found, changed, nodes, entry, -, -, sameWalks⟩ :=
    entryNode_spec forest rootAt inner (by omega) (by omega)
  have unchanged (below : SetState → EntryRef → Except Fault SetState) :
      setNode leaf level below ⟨reserved, index, 0⟩ .root = .ok ⟨map', index, 0⟩ := by
    rw [setNode, found, ok_bind]
    dsimp only
    cases pL2Size - levelSlot index level with
    | zero => rfl
    | succ left => rw [setSlots, if_pos rfl]
  refine ⟨map', ?_, ⟨⟨owner', changed.forest⟩, ?_⟩, by omega, fun page => ?_⟩
  · rw [levelEq, Nat.succ_sub_one]
    cases level with
    | zero | succ level => rw [physPageSetLevel, unchanged, ok_bind]; rfl
  · change (map'.read .root).skip ≠ 0
    rw [entry]
    exact Nat.one_ne_zero
  · rw [← walks, pageSection, pageSection, levelEq]
    exact sameWalks page

end StudyNotes.Memory
