/-
This file models how the radix tree of a dispatch table is compacted, and proves
what that does to its walks: `phys_page_compact` and `phys_page_compact_all`.

An entry whose node has an only child is made to skip that node. The walk of a
page below the child then takes fewer steps, and the walk of a page that met a
missing node before goes on to some leaf of the tree, which need not be its own.
A call only changes the entry it is for and nodes below it, so the children of a
node are compacted independently.
-/

import StudyNotes.Memory.PhysPageSet

namespace StudyNotes.Memory

open Library

/-! ### Compacting -/

/-- The assertion on the only child, and a tree deeper than the calls may go. -/
inductive CompactFault
  | validPtr
  | depth
  deriving DecidableEq, Repr

/-- The map, and the variables of the loop over the entries of a node. -/
structure CompactState where
  map : PhysMap
  validPtr : Nat
  valid : Nat

/-- The loop over the entries of a node, with the number of entries up to its end. -/
def compactSlots (below : PhysMap → EntryRef → Except CompactFault PhysMap) (p : Nat) :
    Nat → Nat → CompactState → Except CompactFault CompactState
  | 0, _, state => .ok state
  | left + 1, i, state =>
    if (state.map.nodes p i).ptr = physMapNodeNil then compactSlots below p left (i + 1) state
    else do
      let map ← if (state.map.nodes p i).skip ≠ 0 then below state.map (.slot p i)
        else .ok state.map
      compactSlots below p left (i + 1) { map, validPtr := i, valid := state.valid + 1 }

/-- The entry that skips the node of an only child. -/
def mergeChild (lp child : PhysPageEntry) : PhysPageEntry :=
  { skip := if child.skip = 0 then 0 else lp.skip + child.skip
    ptr := child.ptr }

/-- Skip the node `p` of an entry if it has one child and the levels fit in three bits. -/
def skipOnlyChild (lp : EntryRef) (p : Nat) (state : CompactState) : Except CompactFault PhysMap :=
  if state.valid ≠ 1 then .ok state.map
  else if pL2Size ≤ state.validPtr then .error .validPtr
  else
    let child := state.map.nodes p state.validPtr
    if 8 ≤ (state.map.read lp).skip + child.skip then .ok state.map
    else .ok (state.map.write (mergeChild (state.map.read lp) child) lp)

/-- Compact an entry that is not a leaf, with a bound on the depth of the calls. -/
def physPageCompact : Nat → PhysMap → EntryRef → Except CompactFault PhysMap
  | 0, _, _ => .error .depth
  | depth + 1, map, lp =>
    if (map.read lp).ptr = physMapNodeNil then .ok map
    else do
      let p := (map.read lp).ptr
      let state ← compactSlots (physPageCompact depth) p pL2Size 0
        { map, validPtr := pL2Size, valid := 0 }
      skipOnlyChild lp p state

/-- Compact the whole map. -/
def physPageCompactAll (depth : Nat) (map : PhysMap) : Except CompactFault PhysMap :=
  if map.root.skip ≠ 0 then physPageCompact depth map .root else .ok map

/-! ### Walks and the digits of a page -/

/-- The slot on a lower level depends on the lower digits of a page only. -/
theorem levelSlot_congr {page other low high : Nat} (below : low < high)
    (same : page % levelStep high = other % levelStep high) :
    levelSlot page low = levelSlot other low := by
  have digits (page : Nat) :
      levelSlot page low = page % levelStep high % levelStep (low + 1) / levelStep low := by
    rw [Nat.mod_mod_of_dvd _ (levelStep_dvd below), levelStep_succ, Nat.mod_mul_right_div_self]
    rfl
  rw [digits, digits, same]

theorem physPageWalk_congr_page (map : PhysMap) {page other level : Nat}
    (same : page % levelStep level = other % levelStep level) (entry : PhysPageEntry) :
    physPageWalk map page level entry = physPageWalk map other level entry := by
  induction level using Nat.strongRecOn generalizing entry with
  | ind level inductionHypothesis =>
    conv_lhs => rw [physPageWalk]
    conv_rhs => rw [physPageWalk]
    split
    · rfl
    · next inner =>
      split
      · rfl
      · have lower : level - entry.skip < level := by omega
        have sameLower : page % levelStep (level - entry.skip) =
            other % levelStep (level - entry.skip) := by
          have divides := levelStep_dvd (Nat.le_of_lt lower)
          rw [← Nat.mod_mod_of_dvd page divides, same, Nat.mod_mod_of_dvd other divides]
        rw [levelSlot_congr lower same]
        exact inductionHypothesis _ lower sameLower _

/-- Some page has a given slot and otherwise the digits of another page. -/
theorem exists_page_of_slot (page level : Nat) {slot : Nat} (within : slot < pL2Size) :
    ∃ other, levelSlot other level = slot ∧ ∀ (map : PhysMap) (entry : PhysPageEntry),
      physPageWalk map other level entry = physPageWalk map page level entry := by
  refine ⟨levelStep level * slot + page % levelStep level, ?_, fun map entry => ?_⟩
  · have small := Nat.mod_lt page (levelStep_pos level)
    rw [levelSlot, Nat.mul_add_div (levelStep_pos level), Nat.div_eq_of_lt small, Nat.add_zero,
      Nat.mod_eq_of_lt within]
  · refine physPageWalk_congr_page map ?_ entry
    rw [Nat.mul_add_mod, Nat.mod_mod]

/-- An entry that skips the node of an only child leads where the child leads. -/
theorem physPageWalk_mergeChild (map : PhysMap) (page : Nat) {level : Nat} {child : PhysPageEntry}
    (skip_le : child.skip ≤ level) (real : child.ptr ≠ physMapNodeNil) (node : Nat) :
    physPageWalk map page (level + 1) (mergeChild ⟨1, node⟩ child) =
      physPageWalk map page level child := by
  rw [mergeChild]
  split
  · next leaf =>
    rw [physPageWalk_leaf, physPageWalk, if_pos (.inl leaf)]
  · next inner =>
    have less : level + 1 - (1 + child.skip) = level - child.skip := by omega
    conv_lhs => rw [physPageWalk, if_neg (by simp only; omega), if_neg real]
    conv_rhs => rw [physPageWalk, if_neg (by omega), if_neg real]
    simp only [less]

/-! ### Nodes below a place -/

/-- The node hangs below the place: the entry that points to it lies inside. -/
def Below (owner : Nat → Place) (place : Place) (node : Nat) : Prop :=
  Inside place ⟨(owner node).level + 1, (owner node).pos⟩

variable {place : Place} {index nodesNb : Nat}

section Below

variable {owner : Nat → Place} {level pos node : Nat}

theorem below_of_owner (owned : owner node = ⟨level, pos⟩) : Below owner ⟨level + 1, pos⟩ node := by
  rw [Below, owned]
  exact Inside.refl _

theorem Below.of_slot (inside : index < pL2Size)
    (below : Below owner (Place.slot ⟨level, pos⟩ index) node) :
    Below owner ⟨level + 1, pos⟩ node :=
  (inside_slot level pos inside).trans below

/-- No node hangs below two entries of one node. -/
theorem Below.slot_eq {first second : Nat}
    (below : Below owner (Place.slot ⟨level, pos⟩ first) node)
    (below' : Below owner (Place.slot ⟨level, pos⟩ second) node) : first = second := by
  have same := below.2.symm.trans below'.2
  simp only [Place.slot] at same
  omega

/-- A node is not below a place of its own level. -/
theorem not_below_of_level_le (le : place.level ≤ (owner node).level) :
    ¬ Below owner place node := by
  intro below
  have := below.1
  simp only at this
  omega

/-- The node that holds an entry is not below the entry. -/
theorem RefAt.not_below {levels : Nat} (at' : RefAt levels nodesNb owner (.slot node index) place) :
    ¬ Below owner place node := by
  cases at'
  exact not_below_of_level_le (Nat.le_refl _)

end Below

/-! ### What compacting an entry does -/

/-- The maps agree on the nodes below a place. -/
def Agree (owner : Nat → Place) (place : Place) (map map' : PhysMap) : Prop :=
  ∀ node, Below owner place node → ∀ index, map'.nodes node index = map.nodes node index

/-- The maps differ at most in one entry and in the nodes below its place. -/
structure Within (owner : Nat → Place) (place : Place) (lp : EntryRef) (map map' : PhysMap) :
    Prop where
  root : lp ≠ .root → map'.root = map.root
  nodes : ∀ node index, ¬ Below owner place node → lp ≠ .slot node index →
    map'.nodes node index = map.nodes node index

/-- The walk from the entry reads nodes below the place only. -/
def ReadsBelow (owner : Nat → Place) (place : Place) (map : PhysMap) (entry : PhysPageEntry) :
    Prop :=
  ∀ map', Agree owner place map map' → ∀ page,
    physPageWalk map' page place.level entry = physPageWalk map page place.level entry

/-- The new entry leads every page where the old one did, except that a page that led nowhere may
lead where another one does. -/
def Widens (base : PhysMap) (level : Nat) (old : PhysPageEntry) (map : PhysMap)
    (new : PhysPageEntry) : Prop :=
  ∀ page, physPageWalk map page level new = physPageWalk base page level old ∨
    physPageWalk base page level old = physSectionUnassigned ∧
      ∃ other, physPageWalk map page level new = physPageWalk base other level old

/-- An entry at a place that has been compacted. -/
structure Compacted (base : PhysMap) (owner : Nat → Place) (place : Place) (old : PhysPageEntry)
    (map : PhysMap) (new : PhysPageEntry) : Prop where
  widens : Widens base place.level old map new
  reads : ReadsBelow owner place map new
  skip_le : new.skip ≤ place.level
  nil_iff : new.ptr = physMapNodeNil ↔ old.ptr = physMapNodeNil

section Compacted

variable {levels level pos node : Nat} {base map map' : PhysMap} {owner : Nat → Place}
  {place : Place} {old new : PhysPageEntry}

theorem Agree.trans {map'' : PhysMap} (first : Agree owner place map map')
    (second : Agree owner place map' map'') : Agree owner place map map'' :=
  fun node below index => (second node below index).trans (first node below index)

/-- A compacted entry stays compacted when nodes elsewhere change. -/
theorem Compacted.of_agree (compacted : Compacted base owner place old map new)
    (agree : Agree owner place map map') : Compacted base owner place old map' new := by
  refine ⟨fun page => ?_, fun map'' agree' page => ?_, compacted.skip_le, compacted.nil_iff⟩
  · rw [compacted.reads map' agree page]
    exact compacted.widens page
  · rw [compacted.reads map'' (agree.trans agree') page, compacted.reads map' agree page]

/-- The walk from an entry of a forest reads the nodes below it. -/
theorem EntryOk.readsBelow (forest : Forest levels base owner)
    (ok : EntryOk base.nodesNb owner place old) : ReadsBelow owner place base old := by
  intro map agree page
  obtain ⟨level, pos⟩ := place
  induction level generalizing pos old with
  | zero =>
    cases ok
    simp
  | succ level inductionHypothesis =>
    cases ok with
    | large _ _ ptr assigned | missing => simp
    | node _ _ node allocated owned =>
      have real := forest.ne_nil allocated
      rw [physPageWalk_node map page level real, physPageWalk_node base page level real,
        agree node (below_of_owner owned)]
      exact inductionHypothesis _ (forest.slot allocated owned (levelSlot_lt page level))
        fun other below => agree other (Below.of_slot (levelSlot_lt page level) below)

theorem EntryOk.skip_le (ok : EntryOk nodesNb owner place old) : old.skip ≤ place.level := by
  cases ok with
  | page => exact Nat.le_refl _
  | large => exact Nat.zero_le _
  | missing | node => exact Nat.le_add_left 1 _

/-- An entry that is left alone. -/
theorem EntryOk.compacted (forest : Forest levels base owner)
    (ok : EntryOk base.nodesNb owner place old) (agree : Agree owner place base map) :
    Compacted base owner place old map old := by
  have unchanged : Compacted base owner place old base old :=
    ⟨fun _ => .inl rfl, ok.readsBelow forest, ok.skip_le, Iff.rfl⟩
  exact unchanged.of_agree agree

/-- The entry leads every page to the number of a section. -/
def LeadsToSections (base : PhysMap) (level : Nat) (old : PhysPageEntry) : Prop :=
  ∀ page, physPageWalk base page level old ≠ physMapNodeNil

/-- An entry without a node leads nowhere. -/
theorem EntryOk.walk_of_nil (forest : Forest levels base owner)
    (ok : EntryOk base.nodesNb owner place old)
    (leads : LeadsToSections base place.level old) (nil : old.ptr = physMapNodeNil) (page : Nat) :
    physPageWalk base page place.level old = physSectionUnassigned := by
  cases ok with
  | page pos ptr =>
    cases nil
    exact absurd (physPageWalk_leaf base page 0 _) (leads page)
  | large level pos ptr assigned =>
    cases nil
    exact absurd (physPageWalk_leaf base page _ _) (leads page)
  | missing level pos => exact physPageWalk_nil base page level
  | node level pos node allocated owned => exact absurd nil (forest.ne_nil allocated)

/-! ### A node with compacted entries -/

/-- The entries of a node lead to sections when the entry that points to it does. -/
theorem LeadsToSections.slot (leads : LeadsToSections base (level + 1) ⟨1, node⟩)
    (real : node ≠ physMapNodeNil) (within : index < pL2Size) :
    LeadsToSections base level (base.nodes node index) := by
  intro page
  obtain ⟨other, isSlot, sameWalk⟩ := exists_page_of_slot page level within
  have leadsOther := leads other
  rwa [physPageWalk_node base other level real, isSlot, sameWalk] at leadsOther

/-- The entry of a node is compacted when the entries of the node are. -/
theorem Compacted.of_slots (real : node ≠ physMapNodeNil) (owned : owner node = ⟨level, pos⟩)
    (slots : ∀ index < pL2Size, Compacted base owner (Place.slot ⟨level, pos⟩ index)
      (base.nodes node index) map (map.nodes node index)) :
    Compacted base owner ⟨level + 1, pos⟩ ⟨1, node⟩ map ⟨1, node⟩ := by
  refine ⟨fun page => ?_, fun map' agree page => ?_, Nat.le_add_left 1 level, Iff.rfl⟩
  · simp only [physPageWalk_node _ _ level real]
    refine ((slots _ (levelSlot_lt page level)).widens page).imp_right fun widened => ?_
    obtain ⟨nowhere, other, leadsTo⟩ := widened
    obtain ⟨other', isSlot, sameWalk⟩ :=
      exists_page_of_slot other level (levelSlot_lt page level)
    refine ⟨nowhere, other', ?_⟩
    rw [isSlot, sameWalk]
    exact leadsTo
  · rw [physPageWalk_node map' page level real, physPageWalk_node map page level real,
      agree node (below_of_owner owned)]
    exact (slots _ (levelSlot_lt page level)).reads map' (fun other below =>
      agree other (Below.of_slot (levelSlot_lt page level) below)) page

/-- The entry of a node with an only child is compacted when it skips the node. -/
theorem Compacted.of_onlyChild (real : node ≠ physMapNodeNil) {child : Nat}
    (within : child < pL2Size)
    (compacted : Compacted base owner (Place.slot ⟨level, pos⟩ child) (base.nodes node child) map
      (map.nodes node child)) (valid : (map.nodes node child).ptr ≠ physMapNodeNil)
    (nowhere : ∀ index < pL2Size, index ≠ child → ∀ page,
      physPageWalk base page level (base.nodes node index) = physSectionUnassigned) :
    Compacted base owner ⟨level + 1, pos⟩ ⟨1, node⟩ map
      (mergeChild ⟨1, node⟩ (map.nodes node child)) := by
  have walks (map' : PhysMap) (page : Nat) := physPageWalk_mergeChild map' page
    (show (map.nodes node child).skip ≤ level from compacted.skip_le) valid node
  refine ⟨fun page => ?_, fun map' agree page => ?_, ?_, iff_of_false valid real⟩
  · simp only [walks, physPageWalk_node base _ level real]
    obtain ⟨other, same⟩ : ∃ other, physPageWalk map page level (map.nodes node child) =
        physPageWalk base other level (base.nodes node child) :=
      (compacted.widens page).elim (⟨page, ·⟩) And.right
    obtain ⟨other', isSlot, sameWalk⟩ := exists_page_of_slot other level within
    have leads : ∃ other, physPageWalk map page level (map.nodes node child) =
        physPageWalk base other level (base.nodes node (levelSlot other level)) :=
      ⟨other', by rw [isSlot, sameWalk, same]⟩
    by_cases isChild : levelSlot page level = child
    · rw [isChild]
      exact (compacted.widens page).imp_right fun widened => ⟨widened.1, leads⟩
    · exact .inr ⟨nowhere _ (levelSlot_lt page level) isChild page, leads⟩
  · simp only [walks]
    exact compacted.reads map' (fun other below =>
      agree other (Below.of_slot within below)) page
  · have skip_le : (map.nodes node child).skip ≤ level := compacted.skip_le
    simp only [mergeChild]
    split <;> omega

end Compacted

/-! ### The loop over a node -/

section Loop

variable {levels node level pos slot : Nat} {base start map : PhysMap} {owner : Nat → Place}
  {lp : EntryRef} {state : CompactState}

/-- The function compacts the entries of a level. -/
def Compacts (levels : Nat) (base : PhysMap) (owner : Nat → Place) (level : Nat)
    (below : PhysMap → EntryRef → Except CompactFault PhysMap) : Prop :=
  ∀ map lp pos, RefAt levels base.nodesNb owner lp ⟨level, pos⟩ →
    map.read lp = base.read lp → Agree owner ⟨level, pos⟩ base map →
    (base.read lp).skip ≠ 0 → LeadsToSections base level (base.read lp) →
    ∃ map', below map lp = .ok map' ∧ Within owner ⟨level, pos⟩ lp map map' ∧
      Compacted base owner ⟨level, pos⟩ (base.read lp) map' (map'.read lp)

/-- Where the loop over a node stands: the entries before a slot are compacted, and the others
are as they were. -/
structure LoopAt (base : PhysMap) (owner : Nat → Place) (start : PhysMap)
    (node level pos slot : Nat) (state : CompactState) : Prop where
  done : ∀ index < slot, Compacted base owner (Place.slot ⟨level, pos⟩ index)
    (base.nodes node index) state.map (state.map.nodes node index)
  rest : ∀ index, slot ≤ index → index < pL2Size →
    state.map.nodes node index = base.nodes node index ∧
      Agree owner (Place.slot ⟨level, pos⟩ index) base state.map
  root : state.map.root = start.root
  frame : ∀ other index, ¬ Below owner ⟨level + 1, pos⟩ other →
    state.map.nodes other index = start.nodes other index
  zero : state.valid = 0 → ∀ index < slot, (state.map.nodes node index).ptr = physMapNodeNil
  one : state.valid = 1 → state.validPtr < slot ∧
    (state.map.nodes node state.validPtr).ptr ≠ physMapNodeNil ∧
    ∀ index < slot, index ≠ state.validPtr →
      (state.map.nodes node index).ptr = physMapNodeNil

section

variable (loop : LoopAt base owner start node level pos slot state)
  (owned : owner node = ⟨level, pos⟩) (within : slot < pL2Size)
include loop owned within

/-- The entry at the slot has nothing to compact. -/
theorem LoopAt.skip (forest : Forest levels base owner) (allocated : node < base.nodesNb)
    (nil : (state.map.nodes node slot).ptr = physMapNodeNil) :
    LoopAt base owner start node level pos (slot + 1) state := by
  obtain ⟨unchanged, agree⟩ := loop.rest slot (Nat.le_refl _) within
  refine ⟨Nat.forall_lt_succ_right.mpr ⟨loop.done, ?_⟩,
    fun index after => loop.rest index (Nat.le_of_succ_le after), loop.root, loop.frame,
    fun zero => Nat.forall_lt_succ_right.mpr ⟨loop.zero zero, nil⟩, fun one => ?_⟩
  · rw [unchanged]
    exact (forest.slot allocated owned within).compacted forest agree
  · obtain ⟨inside, valid, others⟩ := loop.one one
    exact ⟨Nat.lt_succ_of_lt inside, valid, Nat.forall_lt_succ_right.mpr ⟨others, fun _ => nil⟩⟩

/-- The entry at the slot has been compacted. -/
theorem LoopAt.step
    (changed : Within owner (Place.slot ⟨level, pos⟩ slot) (.slot node slot) state.map map)
    (compacted : Compacted base owner (Place.slot ⟨level, pos⟩ slot) (base.nodes node slot) map
      (map.nodes node slot)) (valid : (map.nodes node slot).ptr ≠ physMapNodeNil) :
    LoopAt base owner start node level pos (slot + 1) ⟨map, slot, state.valid + 1⟩ := by
  have notBelow (index : Nat) : ¬ Below owner (Place.slot ⟨level, pos⟩ index) node :=
    not_below_of_level_le (by rw [owned]; exact Nat.le_refl _)
  -- What belongs to the other entries of the node has not changed.
  have same (index : Nat) (differs : index ≠ slot) :
      map.nodes node index = state.map.nodes node index := by
    refine changed.nodes node index (notBelow slot) fun same => differs ?_
    cases same
    rfl
  have agree (index : Nat) (differs : index ≠ slot) :
      Agree owner (Place.slot ⟨level, pos⟩ index) state.map map := by
    intro other below index'
    refine changed.nodes other index' (fun below' => differs (below.slot_eq below')) fun same => ?_
    cases same
    exact notBelow index below
  refine ⟨Nat.forall_lt_succ_right.mpr ⟨fun index before => ?_, compacted⟩,
    fun index after inside => ?_, ?_, fun other index outside => ?_,
    fun zero => absurd zero (Nat.succ_ne_zero _), fun one => ?_⟩
  · have differs := Nat.ne_of_lt before
    rw [same index differs]
    exact (loop.done index before).of_agree (agree index differs)
  · have differs : index ≠ slot := by omega
    obtain ⟨unchanged, agree'⟩ := loop.rest index (Nat.le_of_succ_le after) inside
    exact ⟨(same index differs).trans unchanged, agree'.trans (agree index differs)⟩
  · exact (changed.root EntryRef.noConfusion).trans loop.root
  · refine (changed.nodes other index (fun below => outside (below.of_slot within))
      fun same => ?_).trans (loop.frame other index outside)
    cases same
    exact outside (below_of_owner owned)
  · refine ⟨Nat.lt_succ_self slot, valid, fun index before differs => ?_⟩
    have before : index < slot := by
      simp only at differs
      omega
    rw [same index differs]
    exact loop.zero (Nat.succ.inj one) index before

end

/-- The loop compacts all entries of a node. -/
theorem compactSlots_spec {below : PhysMap → EntryRef → Except CompactFault PhysMap}
    (compacts : Compacts levels base owner level below) (forest : Forest levels base owner)
    (allocated : node < base.nodesNb) (owned : owner node = ⟨level, pos⟩)
    (leads : LeadsToSections base (level + 1) ⟨1, node⟩) (left : Nat)
    (ends : slot + left = pL2Size) (loop : LoopAt base owner start node level pos slot state) :
    ∃ last, compactSlots below node left slot state = .ok last ∧
      LoopAt base owner start node level pos pL2Size last := by
  induction left generalizing slot state with
  | zero =>
    rw [Nat.add_zero] at ends
    exact ⟨state, rfl, ends ▸ loop⟩
  | succ left inductionHypothesis =>
    have within : slot < pL2Size := by omega
    have ends' : slot + 1 + left = pL2Size := by omega
    have real := forest.ne_nil allocated
    obtain ⟨unchanged, agree⟩ := loop.rest slot (Nat.le_refl _) within
    have slotAt : RefAt levels base.nodesNb owner (.slot node slot)
        (Place.slot ⟨level, pos⟩ slot) :=
      owned ▸ .slot node slot allocated within
    rw [compactSlots]
    split
    · next nil =>
      exact inductionHypothesis ends' (loop.skip owned within forest allocated nil)
    · next valid =>
      split
      · next inner =>
        rw [unchanged] at inner valid
        obtain ⟨map, result, changed, compacted⟩ := compacts state.map _ _ slotAt unchanged agree
          inner (leads.slot real within)
        rw [result, ok_bind]
        exact inductionHypothesis ends'
          (loop.step owned within changed compacted (mt compacted.nil_iff.mp valid))
      · rw [ok_bind]
        have compacted := (forest.read slotAt).compacted forest agree
        refine inductionHypothesis ends' (loop.step owned within ⟨fun _ => rfl, fun _ _ _ _ => rfl⟩
          ?_ valid)
        rw [unchanged]
        exact compacted

/-! ### One call -/

theorem Within.write {map' : PhysMap} (within : Within owner place lp map map')
    (entry : PhysPageEntry) : Within owner place lp map (map'.write entry lp) := by
  refine ⟨fun notRoot => ?_, fun node index outside differs => ?_⟩
  · rw [← within.root notRoot]
    cases lp with
    | root => exact absurd rfl notRoot
    | slot node index => rfl
  · rw [PhysMap.nodes_write_of_ne differs]
    exact within.nodes node index outside differs

/-- After the loop the entry is compacted, whether it skips its node or not. -/
theorem skipOnlyChild_spec (forest : Forest levels base owner) (allocated : node < base.nodesNb)
    (owned : owner node = ⟨level, pos⟩) (leads : LeadsToSections base (level + 1) ⟨1, node⟩)
    (at' : RefAt levels base.nodesNb owner lp ⟨level + 1, pos⟩)
    (entry : state.map.read lp = ⟨1, node⟩)
    (loop : LoopAt base owner start node level pos pL2Size state) :
    ∃ map, skipOnlyChild lp node state = .ok map ∧
      Within owner ⟨level + 1, pos⟩ lp start map ∧
      Compacted base owner ⟨level + 1, pos⟩ ⟨1, node⟩ map (map.read lp) := by
  have real := forest.ne_nil allocated
  have within : Within owner ⟨level + 1, pos⟩ lp start state.map :=
    ⟨fun _ => loop.root, fun other index outside _ => loop.frame other index outside⟩
  have unmerged : Compacted base owner ⟨level + 1, pos⟩ ⟨1, node⟩ state.map
      (state.map.read lp) := by
    rw [entry]
    exact Compacted.of_slots real owned loop.done
  rw [skipOnlyChild]
  split
  · exact ⟨_, rfl, within, unmerged⟩
  · next one =>
    obtain ⟨inside, valid, others⟩ := loop.one (not_not.mp one)
    rw [if_neg (Nat.not_le_of_lt inside)]
    dsimp only
    split
    · exact ⟨_, rfl, within, unmerged⟩
    · refine ⟨_, rfl, within.write _, ?_⟩
      rw [PhysMap.read_write, entry]
      refine (Compacted.of_onlyChild real inside (loop.done _ inside) valid
        fun index isIndex differs page => ?_).of_agree fun node below index =>
          PhysMap.nodes_write_of_ne fun same => (same ▸ at').not_below below
      exact (forest.slot allocated owned isIndex).walk_of_nil forest (leads.slot real isIndex)
        ((loop.done index isIndex).nil_iff.mp (others index isIndex differs)) page

/-- A call compacts the entry it is for, and its depth is at most the level of the entry. -/
theorem physPageCompact_compacts (forest : Forest levels base owner) (level : Nat) :
    Compacts levels base owner level (physPageCompact level) := by
  induction level with
  | zero =>
    intro map lp pos at' _ _ inner
    have ok := forest.read at'
    generalize base.read lp = entry at ok inner
    cases ok
    exact absurd rfl inner
  | succ level inductionHypothesis =>
    intro map lp pos at' same agree inner leads
    have ok := forest.read at'
    generalize base.read lp = entry at ok same inner leads
    rw [physPageCompact, same]
    cases ok with
    | large _ _ ptr assigned => exact absurd rfl inner
    | missing =>
      rw [if_pos rfl]
      refine ⟨map, rfl, ⟨fun _ => rfl, fun _ _ _ _ => rfl⟩, ?_⟩
      rw [same]
      exact (EntryOk.missing level pos).compacted forest agree
    | node _ _ node allocated owned =>
      rw [if_neg (forest.ne_nil allocated)]
      have loop : LoopAt base owner map node level pos 0 ⟨map, pL2Size, 0⟩ := by
        refine ⟨fun _ before => absurd before (Nat.not_lt_zero _), fun index _ inside => ?_, rfl,
          fun _ _ _ => rfl, fun _ _ before => absurd before (Nat.not_lt_zero _),
          fun one => absurd one Nat.zero_ne_one⟩
        exact ⟨agree node (below_of_owner owned) index,
          fun other below => agree other (Below.of_slot inside below)⟩
      obtain ⟨last, result, finished⟩ := compactSlots_spec inductionHypothesis forest allocated
        owned leads pL2Size (Nat.zero_add _) loop
      dsimp only
      rw [result, ok_bind]
      refine skipOnlyChild_spec forest allocated owned leads at' ?_ finished
      rw [← same]
      cases lp with
      | root => exact finished.root
      | slot other index => exact finished.frame other index at'.not_below

end Loop

/-! ### The whole map -/

/-- Compacting a map succeeds. Every page leads where it led before, except that a page that led
nowhere may lead where another one does. -/
theorem physPageCompactAll_spec (target : Target) {map : PhysMap} (ok : MapOk target map)
    (sections : ∀ page, pageSection target map page ≠ physMapNodeNil) :
    ∃ map', physPageCompactAll target.levels map = .ok map' ∧
      ∀ page, pageSection target map' page = pageSection target map page ∨
        pageSection target map page = physSectionUnassigned ∧
          ∃ other < levelStep target.levels,
            pageSection target map' page = pageSection target map other := by
  obtain ⟨owner, forest⟩ := ok.forest
  obtain ⟨map', result, -, compacted⟩ := physPageCompact_compacts forest target.levels map .root 0
    .root rfl (fun _ _ _ => rfl) ok.root sections
  refine ⟨map', ?_, fun page => (compacted.widens page).imp_right ?_⟩
  · rw [physPageCompactAll, if_pos ok.root, result]
  · rintro ⟨nowhere, other, leadsTo⟩
    refine ⟨nowhere, other % levelStep target.levels, Nat.mod_lt _ (levelStep_pos _),
      leadsTo.trans ?_⟩
    exact physPageWalk_congr_page map (Nat.mod_mod _ _).symm map.root

end StudyNotes.Memory
