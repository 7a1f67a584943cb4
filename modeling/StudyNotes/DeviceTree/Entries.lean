/-
This file says what the memory holds while the tree is built.

The second pass is a sequence of steps that each append one record: a node
after the nodes so far, or a property after the properties of the last node.
So the memory is described by a list of entries, one for each node in the order
of the walk. All links are functions of that list: the children of a node are
the entries that name it as their parent, and a record on any of the three
lists names its successor there. One lemma for each step says that the memory
goes on holding the entries.
-/

import StudyNotes.DeviceTree.Refine
import StudyNotes.Library.Threads
import Mathlib.Data.List.GetD

namespace StudyNotes.DeviceTree

open Library Function

/-! ### Entries -/

/-- A property of the built tree: one of the blob's, or a name that was made up. -/
inductive PropertyContent where
  | encoded (property : FdtProperty)
  | fixedUp (text : List (BitVec 8))
  deriving DecidableEq, Repr

/-- A property and its address. -/
structure PropertyEntry where
  pp : Nat
  content : PropertyContent
  deriving DecidableEq, Repr

/-- A node and its parent. -/
structure Place where
  np : Nat
  dad : Option Nat
  deriving DecidableEq, Repr

/-- A node of the built tree, with its own address and those of its properties. -/
structure Entry extends Place where
  path : List (BitVec 8)
  phandle : Int
  properties : List PropertyEntry
  deriving DecidableEq, Repr

/-- The bytes that are allocated for a property. -/
def PropertyContent.size (abi : Abi) : PropertyContent → Nat
  | .encoded _ => abi.sizeofProperty
  | .fixedUp text => abi.sizeofProperty + (text.length + 1)

/-- The record of a property. -/
def PropertyEntry.record (abi : Abi) (next : Option Nat) (entry : PropertyEntry) : Property :=
  match entry.content with
  | .encoded property => {
      name := .blob property.name
      length := int32 property.len
      value := .blob property.data
      next }
  | .fixedUp text => {
      name := .literal textName
      length := text.length + 1
      value := .arena (entry.pp + abi.sizeofProperty)
      next }

/-- The addresses of the properties of a node. -/
def Entry.pps (entry : Entry) : List Nat := entry.properties.map PropertyEntry.pp

/-- The slot that the next property is hung on. -/
def Entry.slot (entry : Entry) : PropertySlot :=
  match entry.pps.getLast? with
  | none => .ofNode entry.np
  | some pp => .ofProperty pp

/-- The children of a node, in order. -/
def kids (places : List Place) (np : Nat) : List Nat :=
  (places.filter fun place => place.dad = some np).map Place.np

/-- The children of a node's parent, in order. -/
def brothers (places : List Place) : Option Nat → List Nat
  | none => []
  | some dad => kids places dad

/-- The record of a node. -/
def Entry.record (abi : Abi) (places : List Place) (entry : Entry) : DeviceNode where
  phandle := entry.phandle
  fullName := entry.np + abi.sizeofDeviceNode
  properties := entry.pps.head?
  parent := entry.dad
  child := (kids places entry.np).head?
  sibling := successor entry.np (brothers places entry.dad)
  next := (kids places entry.np).getLast?
  allnext := successor entry.np (places.map Place.np)

/-! ### What the memory holds -/

/-- Bytes lie at an address. -/
def BytesAt (bytes : Nat → BitVec 8) (address : Nat) (data : List (BitVec 8)) : Prop :=
  ∀ i, i < data.length → bytes (address + i) = data.getD i 0

/-- The bytes of a name that was made up. -/
def PropertyEntry.Made (abi : Abi) (bytes : Nat → BitVec 8) (entry : PropertyEntry) : Prop :=
  match entry.content with
  | .encoded _ => True
  | .fixedUp text => BytesAt bytes (entry.pp + abi.sizeofProperty) (text ++ [0])

/-- The memory holds the records of a node and of its properties, all of them below `mem`. -/
structure Entry.Held (abi : Abi) (heap : Heap) (places : List Place) (mem : Nat)
    (entry : Entry) : Prop where
  node : heap.nodes entry.np = some (entry.record abi places)
  property : ∀ p ∈ entry.properties,
    heap.properties p.pp = some (p.record abi (successor p.pp entry.pps))
  text : BytesAt heap.bytes (entry.np + abi.sizeofDeviceNode) (entry.path ++ [0])
  made : ∀ p ∈ entry.properties, p.Made abi heap.bytes
  clean : 0 ∉ entry.path
  within : entry.np + abi.sizeofDeviceNode + (entry.path.length + 1) ≤ mem
  propertyWithin : ∀ p ∈ entry.properties, p.pp + p.content.size abi ≤ mem

/-- The places of the nodes. -/
def places (entries : List Entry) : List Place := entries.map Entry.toPlace

/-- The memory holds the entries and nothing else: from `mem` on it is as it was at the
start. -/
structure Holds (abi : Abi) (start heap : Heap) (entries : List Entry) (mem : Nat) : Prop where
  held : ∀ entry ∈ entries, entry.Held abi heap (places entries) mem
  only : ∀ np, heap.nodes np ≠ none → np ∈ (places entries).map Place.np
  nodup : ((places entries).map Place.np).Nodup
  rooted : ∀ place ∈ places entries, ∀ dad, place.dad = some dad →
    dad ∈ (places entries).map Place.np
  nodupProperties : (entries.flatMap Entry.pps).Nodup
  mynodes : heap.mynodes = ((places entries).map Place.np).head?
  allnextpp : heap.allnextpp = ((places entries).map Place.np).getLast?
  above : ∀ a, mem ≤ a → heap.bytes a = start.bytes a
  limit : heap.limit = start.limit

section Steps

variable {abi : Abi} {start heap heap' : Heap} {mem pp mem' address first stop np : Nat}
  {entries done : List Entry} {size : PathSize} {text : List (BitVec 8)} {current entry : Entry}
  {rows : List Place} {node : DeviceNode}

/-! ### Small steps -/

theorem Heap.modifyNode_eq (found : heap.nodes np = some node) (change : DeviceNode → DeviceNode) :
    heap.modifyNode np change =
      .ok { heap with nodes := update heap.nodes np (some (change node)) } := by
  simp [Heap.modifyNode, Heap.node, found]

theorem Heap.write_eq (heap : Heap) (data : List (BitVec 8)) (low : first ≤ address)
    (high : address + data.length ≤ stop) :
    ∃ bytes, heap.write first stop address data = .ok { heap with bytes } ∧
      BytesAt bytes address data ∧
      ∀ a, ¬ (address ≤ a ∧ a < address + data.length) → bytes a = heap.bytes a := by
  refine ⟨_, if_pos ⟨low, high⟩, fun i inside => ?_, fun a outside => if_neg outside⟩
  exact (if_pos ⟨Nat.le_add_right _ _, Nat.add_lt_add_left inside _⟩).trans
    (by rw [Nat.add_sub_cancel_left])

theorem BytesAt.congr {bytes bytes' : Nat → BitVec 8} {data : List (BitVec 8)}
    (at_ : BytesAt bytes address data)
    (same : ∀ a, address ≤ a → a < address + data.length → bytes' a = bytes a) :
    BytesAt bytes' address data := fun i inside => by
  rw [same _ (Nat.le_add_right _ _) (Nat.add_lt_add_left inside _), at_ i inside]

theorem BytesAt.append {bytes : Nat → BitVec 8} {first second : List (BitVec 8)}
    (atFirst : BytesAt bytes address first)
    (atSecond : BytesAt bytes (address + first.length) second) :
    BytesAt bytes address (first ++ second) := by
  intro i inside
  rw [List.length_append] at inside
  by_cases early : i < first.length
  · rw [atFirst i early, List.getD_append _ _ _ _ early]
  · have late := atSecond (i - first.length) (by omega)
    rw [List.getD_append_right _ _ _ _ (by omega), ← late]
    congr 1
    omega

theorem PropertyEntry.Made.congr {bytes bytes' : Nat → BitVec 8} {entry : PropertyEntry}
    (made : entry.Made abi bytes)
    (same : ∀ a, a < entry.pp + entry.content.size abi → bytes' a = bytes a) :
    entry.Made abi bytes' := by
  obtain ⟨pp, content⟩ := entry
  cases content with
  | encoded property => trivial
  | fixedUp text =>
    have at_ : BytesAt bytes (pp + abi.sizeofProperty) (text ++ [0]) := made
    refine at_.congr fun a _ high => same a ?_
    simpa [PropertyContent.size, Nat.add_assoc] using high

/-- An entry is held on where its records and the bytes below `mem` stay as they are. -/
theorem Entry.Held.frame {rows rows' : List Place} (held : entry.Held abi heap rows mem)
    (node : heap'.nodes entry.np = some (entry.record abi rows'))
    (property : ∀ pp ∈ entry.pps, heap'.properties pp = heap.properties pp)
    (bytes : ∀ a, a < mem → heap'.bytes a = heap.bytes a) (le : mem ≤ mem') :
    entry.Held abi heap' rows' mem' where
  node := node
  property p member := by
    rw [property p.pp (List.mem_map_of_mem member), held.property p member]
  text := held.text.congr fun a _ high => bytes a (by
    have := held.within
    simp only [List.length_append, List.length_singleton] at high
    omega)
  made p member := (held.made p member).congr fun a high => bytes a (by
    have := held.propertyWithin p member
    omega)
  clean := held.clean
  within := Nat.le_trans held.within le
  propertyWithin p member := Nat.le_trans (held.propertyWithin p member) le

/-! ### Changing the last entry -/

section

variable (holds : Holds abi start heap (done ++ [current]) mem)
include holds

theorem Holds.heldLast : current.Held abi heap (places (done ++ [current])) mem :=
  holds.held current (by simp)

/-- No other entry has the address of the last one. -/
theorem Holds.np_ne (member : entry ∈ done) : entry.np ≠ current.np := by
  have nodup := holds.nodup
  simp only [places, List.map_append, List.map_map, List.nodup_append] at nodup
  exact nodup.2.2 entry.np (List.mem_map_of_mem member) current.np (by simp)

theorem Holds.nodup_pps : current.pps.Nodup := by
  have nodup := holds.nodupProperties
  rw [List.flatMap_append, List.nodup_append] at nodup
  simpa using nodup.2.1

theorem Holds.pps_fresh : ∀ pp ∈ current.pps, pp ∉ done.flatMap Entry.pps := by
  intro pp inside inDone
  have nodup := holds.nodupProperties
  rw [List.flatMap_append, List.nodup_append] at nodup
  exact nodup.2.2 pp inDone pp (by simpa using inside) rfl

/-- Addresses from `mem` on are those of no property. -/
theorem Holds.pp_lt (member : pp ∈ (done ++ [current]).flatMap Entry.pps) : pp < mem := by
  obtain ⟨entry, inside, inPps⟩ := List.mem_flatMap.mp member
  obtain ⟨p, inProperties, rfl⟩ := List.mem_map.mp inPps
  have within := (holds.held entry inside).propertyWithin p inProperties
  have pos : 0 < p.content.size abi := by
    have := abi.sizeofProperty_pos
    cases p.content <;> simp only [PropertyContent.size] <;> omega
  omega

/-- The memory holds a new last entry in the place of the old one where the other records stay
as they are. -/
theorem Holds.replace {current' : Entry} (samePlace : current'.toPlace = current.toPlace)
    (held : current'.Held abi heap' (places (done ++ [current])) mem')
    (nodes : ∀ np, np ≠ current.np → heap'.nodes np = heap.nodes np)
    (properties : ∀ pp, pp ∉ current'.pps → heap'.properties pp = heap.properties pp)
    (fresh : ∀ pp ∈ current'.pps, pp ∉ done.flatMap Entry.pps) (nodup : current'.pps.Nodup)
    (bytes : ∀ a, a < mem → heap'.bytes a = heap.bytes a)
    (above : ∀ a, mem' ≤ a → heap'.bytes a = start.bytes a)
    (ends : heap'.mynodes = heap.mynodes ∧ heap'.allnextpp = heap.allnextpp ∧
      heap'.limit = heap.limit) (le : mem ≤ mem') :
    Holds abi start heap' (done ++ [current']) mem' := by
  have same : places (done ++ [current']) = places (done ++ [current]) := by
    simp [places, samePlace]
  obtain ⟨mynodes, allnextpp, limit⟩ := ends
  refine ⟨?_, ?_, ?_, ?_, ?_, ?_, ?_, above, limit.trans holds.limit⟩
  · intro entry member
    rw [same]
    rcases List.mem_append.mp member with earlier | last
    · have held := holds.held entry (List.mem_append_left _ earlier)
      refine held.frame ?_ (fun pp inside => properties pp fun also => ?_) bytes le
      · rw [nodes _ (holds.np_ne earlier), held.node]
      · exact fresh pp also (List.mem_flatMap_of_mem earlier inside)
    · rw [List.mem_singleton.mp last]
      exact held
  · intro np found
    rw [same]
    by_cases isCurrent : np = current.np
    · rw [isCurrent]
      simp [places]
    · rw [nodes np isCurrent] at found
      exact holds.only np found
  · rw [same]
    exact holds.nodup
  · rw [same]
    exact holds.rooted
  · have nodupDone := holds.nodupProperties
    rw [List.flatMap_append, List.nodup_append] at nodupDone ⊢
    refine ⟨nodupDone.1, by simpa using nodup, fun pp inDone pp' inLast => ?_⟩
    rintro rfl
    exact fresh pp (by simpa using inLast) inDone
  · rw [mynodes, holds.mynodes, same]
  · rw [allnextpp, holds.allnextpp, same]

/-- The last entry gets another phandle. -/
theorem Holds.setPhandle (change : Int → Int) :
    ∃ heap', heap.modifyNode current.np
        (fun node => { node with phandle := change node.phandle }) = .ok heap' ∧
      Holds abi start heap' (done ++ [{ current with phandle := change current.phandle }]) mem := by
  have held := holds.heldLast
  refine ⟨_, Heap.modifyNode_eq held.node _, ?_⟩
  exact holds.replace rfl { held with node := update_self _ _ _ }
    (fun np differs => update_of_ne differs _ _) (fun _ _ => rfl) holds.pps_fresh
    holds.nodup_pps (fun _ _ => rfl) holds.above ⟨rfl, rfl, rfl⟩ (Nat.le_refl mem)

end

/-- The last entry with one more property. -/
def Entry.hang (entry : Entry) (p : PropertyEntry) : Entry :=
  { entry with properties := entry.properties ++ [p] }

/-- The heap with a property hung on the last entry. -/
def Heap.hang (heap : Heap) (entry : Entry) (pp : Nat) (record : Property) : Except Fault Heap :=
  Heap.setProperty { heap with properties := update heap.properties pp (some record) }
    entry.slot (some pp)

theorem PropertyEntry.record_next (p : PropertyEntry) (next next' : Option Nat) :
    { p.record abi next with next := next' } = p.record abi next' := by
  obtain ⟨pp, content⟩ := p
  cases content <;> rfl

/-- What hanging a property changes: the slot it is hung on, and its own record. -/
theorem Entry.Held.hang {p : PropertyEntry}
    (held : entry.Held abi heap rows mem) (nodup : entry.pps.Nodup) (fresh : p.pp ∉ entry.pps) :
    ∃ nodes properties,
      heap.hang entry p.pp (p.record abi none) = .ok { heap with nodes, properties } ∧
      nodes entry.np = some ((entry.hang p).record abi rows) ∧
      (∀ np, np ≠ entry.np → nodes np = heap.nodes np) ∧
      (∀ q ∈ (entry.hang p).properties,
        properties q.pp = some (q.record abi (successor q.pp (entry.hang p).pps))) ∧
      ∀ pp, pp ∉ (entry.hang p).pps → properties pp = heap.properties pp := by
  have row : (entry.hang p).pps = entry.pps ++ [p.pp] := by simp [Entry.hang, Entry.pps]
  rw [row]
  cases last : entry.pps.getLast? with
  | none =>
    have empty : entry.pps = [] := List.getLast?_eq_none_iff.mp last
    have emptyProperties : entry.properties = [] := List.map_eq_nil_iff.mp empty
    have hung : heap.hang entry p.pp (p.record abi none) = .ok { heap with
        nodes := update heap.nodes entry.np
          (some { entry.record abi rows with properties := some p.pp })
        properties := update heap.properties p.pp (some (p.record abi none)) } := by
      rw [Heap.hang, Entry.slot, last]
      refine Heap.modifyNode_eq ?_ _
      exact held.node
    refine ⟨_, _, hung, ?_, fun np differs => update_of_ne differs _ _, ?_, ?_⟩
    · rw [update_self]
      simp only [Entry.record, row, empty]
      rfl
    · intro q member
      simp only [Entry.hang, emptyProperties, List.nil_append, List.mem_singleton] at member
      subst member
      rw [update_self, empty, List.nil_append, successor, if_pos rfl]
      rfl
    · intro pp outside
      exact update_of_ne (fun same => outside (by simp [same])) _ _
  | some pp =>
    obtain ⟨e, inside, rfl⟩ := List.mem_map.mp (List.mem_of_getLast? last)
    have differs : e.pp ≠ p.pp := fun same => fresh (same ▸ List.mem_map_of_mem inside)
    have hung : heap.hang entry p.pp (p.record abi none) = .ok { heap with
        properties := update
          (update heap.properties p.pp (some (p.record abi none))) e.pp
          (some (e.record abi (some p.pp))) } := by
      rw [Heap.hang, Entry.slot, last]
      simp only [Heap.setProperty, update_of_ne differs, held.property e inside, e.record_next]
    refine ⟨_, _, hung, ?_, fun _ _ => rfl, ?_, ?_⟩
    · rw [held.node]
      have head : (entry.pps ++ [p.pp]).head? = entry.pps.head? := by
        rw [List.head?_append_of_ne_nil]
        intro empty
        simp [empty] at last
      simp only [Entry.record, row, head]
      rfl
    · intro q member
      simp only [Entry.hang, List.mem_append, List.mem_singleton] at member
      rcases member with earlier | rfl
      · have inPps : q.pp ∈ entry.pps := List.mem_map_of_mem earlier
        have notNew : q.pp ≠ p.pp := fun same => fresh (same ▸ inPps)
        rw [successor_append nodup inPps, last]
        by_cases isLast : q.pp = e.pp
        · have same : q = e := List.inj_on_of_nodup_map nodup earlier inside isLast
          rw [same, update_self, if_pos rfl]
        · rw [update_of_ne isLast, update_of_ne notNew, held.property q earlier,
            if_neg fun same => isLast (Option.some.inj same).symm]
      · rw [update_of_ne (Ne.symm differs), update_self, successor_append_self fresh]
    · intro pp outside
      rw [update_of_ne, update_of_ne]
      · exact fun same => outside (by simp [same])
      · exact fun same => outside (by rw [same]; simp [Entry.pps, List.mem_map_of_mem inside])

/-- A property is hung on the last entry; its bytes may be written later. -/
theorem Holds.hang (holds : Holds abi start heap (done ++ [current]) mem) (p : PropertyEntry)
    (fresh : mem ≤ p.pp) :
    ∃ heap', heap.hang current p.pp (p.record abi none) = .ok heap' ∧
      heap'.bytes = heap.bytes ∧
      ∀ bytes, (∀ a, a < mem → bytes a = heap.bytes a) → p.Made abi bytes →
        (∀ a, p.pp + p.content.size abi ≤ a → bytes a = start.bytes a) →
        Holds abi start { heap' with bytes } (done ++ [current.hang p])
          (p.pp + p.content.size abi) := by
  have held := holds.heldLast
  have outside : p.pp ∉ (done ++ [current]).flatMap Entry.pps := fun member =>
    Nat.not_lt_of_le fresh (holds.pp_lt member)
  rw [List.flatMap_append, List.mem_append, not_or] at outside
  have notOwn : p.pp ∉ current.pps := by simpa using outside.2
  have row : (current.hang p).pps = current.pps ++ [p.pp] := by simp [Entry.hang, Entry.pps]
  obtain ⟨nodes, properties, hung, node, otherNodes, own, otherProperties⟩ :=
    held.hang holds.nodup_pps notOwn
  refine ⟨_, hung, rfl, fun bytes below made above => ?_⟩
  have framed : current.Held abi { heap with bytes } (places (done ++ [current]))
      (p.pp + p.content.size abi) :=
    held.frame held.node (fun _ _ => rfl) below
      (Nat.le_trans fresh (Nat.le_add_right _ (p.content.size abi)))
  refine holds.replace rfl ⟨node, own, framed.text, ?_, held.clean, framed.within, ?_⟩ otherNodes
    otherProperties ?_ ?_ below above ⟨rfl, rfl, rfl⟩ (by omega)
  · exact List.forall_mem_append.mpr ⟨framed.made, List.forall_mem_singleton.mpr made⟩
  · exact List.forall_mem_append.mpr
      ⟨framed.propertyWithin, List.forall_mem_singleton.mpr (Nat.le_refl _)⟩
  · rw [row]
    exact List.forall_mem_append.mpr ⟨holds.pps_fresh, List.forall_mem_singleton.mpr outside.1⟩
  · rw [row]
    exact List.concat_eq_append ▸ holds.nodup_pps.concat notOwn

/-! ### The steps for properties -/

/-- The last entry after a property of the blob. -/
def Entry.addProperty (blob : Blob) (pp : Nat) (property : FdtProperty) (entry : Entry) : Entry :=
  { entry with phandle := phandleAfter blob property entry.phandle }.hang ⟨pp, .encoded property⟩

theorem Holds.addProperty (holds : Holds abi start heap (done ++ [current]) mem) (blob : Blob)
    (fresh : mem ≤ pp) (property : FdtProperty) :
    ∃ heap', heap.addProperty blob current.np pp current.slot property = .ok heap' ∧
      Holds abi start heap' (done ++ [current.addProperty blob pp property])
        (pp + abi.sizeofProperty) := by
  obtain ⟨middle, changed, holdsMiddle⟩ := holds.setPhandle (phandleAfter blob property)
  obtain ⟨heap', hung, sameBytes, holds'⟩ := holdsMiddle.hang ⟨pp, .encoded property⟩ fresh
  refine ⟨heap', ?_, ?_⟩
  · rw [Heap.addProperty, changed]
    exact hung
  · exact holds' heap'.bytes (fun _ _ => by rw [sameBytes]) trivial fun a high =>
      sameBytes ▸ holdsMiddle.above a (Nat.le_trans fresh (Nat.le_of_add_right_le high))

/-- The last entry after a name that was made up. -/
def Entry.addFixedUpName (pp : Nat) (text : List (BitVec 8)) (entry : Entry) : Entry :=
  entry.hang ⟨pp, .fixedUp text⟩

theorem Heap.write_string (heap : Heap) (low : first ≤ address)
    (high : address + (text.length + 1) ≤ stop) :
    ∃ bytes, (heap.write first stop address text >>= fun heap =>
        heap.write first stop (address + text.length) [0]) = .ok { heap with bytes } ∧
      BytesAt bytes address (text ++ [0]) ∧
      ∀ a, ¬ (address ≤ a ∧ a < address + (text.length + 1)) → bytes a = heap.bytes a := by
  obtain ⟨middle, written, at_, outside⟩ := heap.write_eq text low
    (show address + text.length ≤ stop by omega)
  obtain ⟨bytes, ended, atEnd, outsideEnd⟩ := Heap.write_eq { heap with bytes := middle } [0]
    (show first ≤ address + text.length by omega)
    (show address + text.length + 1 ≤ stop by omega)
  simp only [List.length_singleton] at outsideEnd
  refine ⟨bytes, ?_, (at_.congr fun a _ high => outsideEnd a (by omega)).append atEnd, ?_⟩
  · rw [written]
    exact ended
  · intro a out
    rw [outsideEnd a (by omega), outside a (by omega)]

theorem Holds.addFixedUpName (holds : Holds abi start heap (done ++ [current]) mem)
    (fresh : mem ≤ pp) (text : List (BitVec 8)) :
    ∃ heap', heap.addFixedUpName abi pp current.slot text = .ok heap' ∧
      Holds abi start heap' (done ++ [current.addFixedUpName pp text])
        (pp + (abi.sizeofProperty + (text.length + 1))) := by
  obtain ⟨middle, hung, sameBytes, holds'⟩ := holds.hang ⟨pp, .fixedUp text⟩ fresh
  obtain ⟨bytes, written, at_, outside⟩ :=
    middle.write_string (Nat.le_add_right pp abi.sizeofProperty)
      (Nat.le_refl (pp + abi.sizeofProperty + (text.length + 1)))
  refine ⟨{ middle with bytes }, ?_, holds' bytes ?_ at_ ?_⟩
  · have hung' : Heap.setProperty { heap with
        properties := update heap.properties pp (some {
          name := .literal textName
          length := text.length + 1
          value := .arena (pp + abi.sizeofProperty)
          next := none }) } current.slot (some pp) = .ok middle := hung
    rw [Heap.addFixedUpName]
    simp only [hung']
    exact written
  · intro a low
    rw [outside a (by omega), sameBytes]
  · intro a high
    simp only [PropertyContent.size] at high
    rw [outside a (by omega), sameBytes]
    exact holds.above a (by omega)

/-- Nothing comes after the last property already. -/
theorem Holds.setProperty_none (holds : Holds abi start heap (done ++ [current]) mem) :
    heap.setProperty current.slot none = .ok heap := by
  have held := holds.heldLast
  cases last : current.pps.getLast? with
  | none =>
    have empty : current.pps = [] := List.getLast?_eq_none_iff.mp last
    have same : { current.record abi (places (done ++ [current])) with properties := none } =
        current.record abi (places (done ++ [current])) := by simp [Entry.record, empty]
    rw [Entry.slot, last]
    simp only [Heap.setProperty]
    rw [Heap.modifyNode_eq held.node, same, ← held.node, update_eq_self]
  | some pp =>
    obtain ⟨e, inside, rfl⟩ := List.mem_map.mp (List.mem_of_getLast? last)
    have record := held.property e inside
    rw [successor_of_getLast holds.nodup_pps last] at record
    rw [Entry.slot, last]
    simp only [Heap.setProperty, record, e.record_next]
    rw [← record, update_eq_self]

/-! ### Full names -/

/-- A string that lies in the memory with its terminator is read. -/
theorem Heap.string_eq (at_ : BytesAt heap.bytes address (text ++ [0])) (clean : 0 ∉ text)
    (within : address + (text.length + 1) ≤ heap.limit) : heap.string address = .ok text := by
  have read : ∀ (text : List (BitVec 8)) (address count : Nat),
      BytesAt heap.bytes address (text ++ [0]) → 0 ∉ text → text.length < count →
      stringAt heap.bytes count address = some text := by
    intro text
    induction text with
    | nil =>
      intro address count at_ _ enough
      obtain ⟨more, rfl⟩ := Nat.exists_eq_add_of_lt enough
      exact if_pos (at_ 0 (by simp))
    | cons byte rest inductionHypothesis =>
      intro address count at_ clean enough
      obtain ⟨more, rfl⟩ := Nat.exists_eq_add_of_lt enough
      have first : heap.bytes address = byte := at_ 0 (by simp)
      have nonzero : heap.bytes address ≠ 0 := by
        rw [first]
        exact fun zero => clean (by simp [zero])
      have later := inductionHypothesis (address + 1) (rest.length + 1 + more)
        (fun i inside => by
          have here := at_ (i + 1) (by simpa using inside)
          rw [Nat.add_assoc, Nat.add_comm 1 i]
          simpa using here)
        (fun zero => clean (List.mem_cons_of_mem _ zero)) (by omega)
      rw [stringAt, if_neg nonzero, List.length_cons, later, first]
      rfl
  rw [Heap.string, read text address _ at_ clean (by omega)]

/-- What a node's full name begins with: the path of its parent, unless that is the root. -/
def Entry.stem (entry : Entry) : List (BitVec 8) := if entry.dad = none then [] else entry.path

/-- The memory shows the path that the children of `dad` begin with. -/
def Heap.ShowsStem (heap : Heap) (dad : Option Nat) (stem : List (BitVec 8)) : Prop :=
  match dad with
  | none => stem = []
  | some dad => ∃ record, heap.nodes dad = some record ∧
      if record.parent = none then stem = [] else heap.string record.fullName = .ok stem

variable {stem : List (BitVec 8)} {dad : Option Nat} {fn : Nat}

theorem Heap.copyParentPath_eq (heap : Heap) (shows_ : heap.ShowsStem dad stem) (low : first ≤ fn)
    (high : fn + (stem.length + 1) ≤ stop) :
    ∃ bytes, heap.copyParentPath first stop fn dad =
        .ok ({ heap with bytes }, fn + stem.length) ∧ BytesAt bytes fn stem ∧
      ∀ a, ¬ (fn ≤ a ∧ a < fn + (stem.length + 1)) → bytes a = heap.bytes a := by
  have nothing : stem = [] → BytesAt heap.bytes fn stem := by
    rintro rfl i inside
    cases inside
  match dad with
  | none =>
    have empty : stem = [] := shows_
    exact ⟨heap.bytes, by simp [Heap.copyParentPath, empty], nothing empty, fun _ _ => rfl⟩
  | some dad =>
    obtain ⟨record, found, shown⟩ := shows_
    split at shown
    next top =>
      refine ⟨heap.bytes, ?_, nothing shown, fun _ _ => rfl⟩
      simp [Heap.copyParentPath, Heap.node, found, top, shown]
    next inner =>
      obtain ⟨bytes, written, at_, outside⟩ := heap.write_eq (stem ++ [0]) low
        (show fn + (stem ++ [0]).length ≤ stop by simpa using high)
      refine ⟨bytes, ?_, fun i inside => ?_, fun a out => outside a (by simpa using out)⟩
      · have isInner : ¬ record.parent.isNone = true := by simpa using inner
        simp only [Heap.copyParentPath, Heap.node, found, ok_bind, if_neg isInner, shown, written]
      · rw [at_ i (by simp; omega), List.getD_append _ _ _ _ inside]

/-- The full name of a node in the new format fills the bytes reserved for it. -/
theorem Heap.writeFullName_eq (heap : Heap) (newFormat : size.newFormat = true)
    (shows_ : heap.ShowsStem dad stem) (low : first ≤ fn)
    (high : fn + ((stem ++ slash :: size.pathp).length + 1) = stop) :
    ∃ bytes, heap.writeFullName first stop fn dad size = .ok { heap with bytes } ∧
      BytesAt bytes fn (stem ++ slash :: size.pathp ++ [0]) ∧
      ∀ a, ¬ (fn ≤ a ∧ a < stop) → bytes a = heap.bytes a := by
  simp only [List.length_append, List.length_cons] at high
  obtain ⟨bytes1, copied, atStem, outside1⟩ := heap.copyParentPath_eq shows_ low
    (show fn + (stem.length + 1) ≤ stop by omega)
  obtain ⟨bytes2, slashed, atSlash, outside2⟩ := Heap.write_eq { heap with bytes := bytes1 } [slash]
    (show first ≤ fn + stem.length by omega) (show fn + stem.length + 1 ≤ stop by omega)
  obtain ⟨bytes3, named, atName, outside3⟩ := Heap.write_eq { heap with bytes := bytes2 }
    (size.pathp ++ [0]) (show first ≤ fn + stem.length + 1 by omega)
    (show fn + stem.length + 1 + (size.pathp ++ [0]).length ≤ stop by simp; omega)
  simp only [List.length_singleton, List.length_append] at outside2 outside3
  refine ⟨bytes3, ?_, ?_, ?_⟩
  · simp only [Heap.writeFullName, newFormat, if_true, copied, ok_bind, slashed, named]
  · rw [List.append_assoc, List.cons_append]
    have slashKept : BytesAt bytes3 (fn + stem.length) [slash] := atSlash.congr fun a _ high =>
      outside3 a (by
        simp only [List.length_singleton] at high
        omega)
    refine (atStem.congr fun a _ high => ?_).append (slashKept.append atName)
    rw [outside3 a (by omega), outside2 a (by omega)]
  · intro a out
    rw [outside3 a (by omega), outside2 a (by omega), outside1 a (by omega)]

/-! ### Links -/

/-- The heap with every node changed. -/
def Heap.mapNodes (heap : Heap) (change : Nat → DeviceNode → DeviceNode) : Heap :=
  { heap with nodes := fun np => (heap.nodes np).map (change np) }

theorem Heap.mapNodes_found (found : heap.nodes np = some node)
    (change : Nat → DeviceNode → DeviceNode) :
    (heap.mapNodes change).nodes np = some (change np node) :=
  congrArg (Option.map (change np)) found

/-- A change of one node, after a change of all. -/
theorem Heap.mapNodes_modifyNode {change : DeviceNode → DeviceNode}
    {before changeAll : Nat → DeviceNode → DeviceNode} (found : heap.nodes np ≠ none)
    (here : ∀ node, changeAll np node = change (before np node))
    (elsewhere : ∀ a node, a ≠ np → changeAll a node = before a node) :
    (heap.mapNodes before).modifyNode np change = .ok (heap.mapNodes changeAll) := by
  obtain ⟨node, isNode⟩ := Option.ne_none_iff_exists'.mp found
  rw [Heap.modifyNode_eq (Heap.mapNodes_found isNode before)]
  simp only [Heap.mapNodes]
  congr 2
  funext a
  by_cases same : a = np
  · subst same
    simp [isNode, here]
  · cases other : heap.nodes a <;> simp [same, other, elsewhere]

theorem Heap.mapNodes_id : heap.mapNodes (fun _ node => node) = heap := by simp [Heap.mapNodes]

/-- The heap with a node hung on the list of all nodes. -/
def Heap.allnextLinked (heap : Heap) (np : Nat) : Heap where
  nodes a := (heap.nodes a).map fun node =>
    { node with allnext := if heap.allnextpp = some a then some np else node.allnext }
  properties := heap.properties
  bytes := heap.bytes
  limit := heap.limit
  mynodes := if heap.allnextpp = none then some np else heap.mynodes
  allnextpp := some np

/-- Hanging a node on the list of all nodes changes the end of that list. -/
theorem Heap.linkAllnext_eq (heap : Heap) (np : Nat)
    (found : ∀ last, heap.allnextpp = some last → heap.nodes last ≠ none) :
    heap.linkAllnext np = .ok (heap.allnextLinked np) := by
  cases end_ : heap.allnextpp with
  | none =>
    simp only [Heap.linkAllnext, end_, ok_bind]
    simp [Heap.allnextLinked, end_]
  | some last =>
    have step : heap.modifyNode last (fun node => { node with allnext := some np }) =
        .ok (heap.mapNodes fun a node =>
          { node with allnext := if some last = some a then some np else node.allnext }) := by
      nth_rewrite 1 [← heap.mapNodes_id]
      exact Heap.mapNodes_modifyNode (found last end_) (by simp) fun a node differs => by
        simp [Ne.symm differs]
    simp only [Heap.linkAllnext, Heap.allnextLinked, end_, step, ok_bind]
    rfl

/-- Hanging a node on its parent changes the parent, the child before it and itself. -/
theorem Heap.linkParent_eq {dad : Nat} {own dadNode : DeviceNode} (differs : dad ≠ np)
    (isOwn : heap.nodes np = some own) (isDad : heap.nodes dad = some dadNode)
    (found : ∀ last, dadNode.next = some last → heap.nodes last ≠ none) :
    heap.linkParent np (some dad) = .ok (heap.mapNodes fun a node => { node with
      parent := if a = np then some dad else node.parent
      child := if dadNode.next = none ∧ a = dad then some np else node.child
      sibling := if dadNode.next = some a then some np else node.sibling
      next := if a = dad then some np else node.next }) := by
  have step1 : heap.modifyNode np (fun node => { node with parent := some dad }) =
      .ok (heap.mapNodes fun a node =>
        { node with parent := if a = np then some dad else node.parent }) := by
    nth_rewrite 1 [← heap.mapNodes_id]
    exact Heap.mapNodes_modifyNode (by simp [isOwn]) (by simp) fun a node other => by simp [other]
  have read : Heap.node (heap.mapNodes fun a node =>
      { node with parent := if a = np then some dad else node.parent }) dad = .ok dadNode := by
    simp [Heap.node, Heap.mapNodes_found isDad, differs]
  have dadFound : heap.nodes dad ≠ none := by simp [isDad]
  simp only [Heap.linkParent, step1, ok_bind, read]
  cases last : dadNode.next with
  | none =>
    have step2 : Heap.modifyNode (heap.mapNodes fun a node =>
        { node with parent := if a = np then some dad else node.parent }) dad
        (fun node => { node with child := some np }) =
        .ok (heap.mapNodes fun a node => { node with
          parent := if a = np then some dad else node.parent
          child := if a = dad then some np else node.child }) :=
      Heap.mapNodes_modifyNode dadFound (by simp) fun a node other => by simp [other]
    simp only [step2, ok_bind]
    exact Heap.mapNodes_modifyNode dadFound (by simp) fun a node other => by simp [other]
  | some l =>
    have step2 : Heap.modifyNode (heap.mapNodes fun a node =>
        { node with parent := if a = np then some dad else node.parent }) l
        (fun node => { node with sibling := some np }) =
        .ok (heap.mapNodes fun a node => { node with
          parent := if a = np then some dad else node.parent
          sibling := if some l = some a then some np else node.sibling }) :=
      Heap.mapNodes_modifyNode (found l last) (by simp) fun a node other => by
        simp [Ne.symm other]
    simp only [step2, ok_bind]
    exact Heap.mapNodes_modifyNode dadFound (by simp) fun a node other => by simp [other]

/-! ### Appending an entry -/

theorem kids_append (front back : List Place) (np : Nat) :
    kids (front ++ back) np = kids front np ++ kids back np := by
  simp [kids]

theorem kids_singleton (place : Place) (np : Nat) :
    kids [place] np = if place.dad = some np then [place.np] else [] := by
  by_cases child : place.dad = some np
  · simp [kids, child]
  · simp [kids, child]

theorem mem_kids {dad : Nat} : np ∈ kids rows dad ↔ ⟨np, some dad⟩ ∈ rows := by
  simp only [kids, List.mem_map, List.mem_filter, decide_eq_true_eq]
  constructor
  · rintro ⟨⟨_, _⟩, ⟨member, rfl⟩, rfl⟩
    exact member
  · exact fun member => ⟨_, ⟨member, rfl⟩, rfl⟩

theorem kids_nodup (nodup : (rows.map Place.np).Nodup) (np : Nat) : (kids rows np).Nodup :=
  nodup.sublist (List.filter_sublist.map Place.np)

/-- What a new child changes in the other records. -/
theorem Entry.record_append {dad : Nat} (member : entry.toPlace ∈ rows)
    (nodup : (rows.map Place.np).Nodup) :
    entry.record abi (rows ++ [⟨np, some dad⟩]) = { entry.record abi rows with
      child := if (kids rows dad).getLast? = none ∧ entry.np = dad then some np
        else (entry.record abi rows).child
      sibling := if (kids rows dad).getLast? = some entry.np then some np
        else (entry.record abi rows).sibling
      next := if entry.np = dad then some np else (entry.record abi rows).next
      allnext := if (rows.map Place.np).getLast? = some entry.np then some np
        else (entry.record abi rows).allnext } := by
  have child : (kids (rows ++ [⟨np, some dad⟩]) entry.np).head? =
      if (kids rows dad).getLast? = none ∧ entry.np = dad then some np
      else (kids rows entry.np).head? := by
    rw [kids_append, kids_singleton]
    by_cases isDad : entry.np = dad
    · cases empty : kids rows entry.np with
      | nil | cons first rest =>
        rw [isDad] at empty
        simp [isDad, empty]
    · simp [isDad, Ne.symm isDad]
  have next : (kids (rows ++ [⟨np, some dad⟩]) entry.np).getLast? =
      if entry.np = dad then some np else (kids rows entry.np).getLast? := by
    rw [kids_append, kids_singleton]
    by_cases isDad : entry.np = dad
    · simp [isDad]
    · simp [isDad, Ne.symm isDad]
  have sibling : successor entry.np (brothers (rows ++ [⟨np, some dad⟩]) entry.dad) =
      if (kids rows dad).getLast? = some entry.np then some np
      else successor entry.np (brothers rows entry.dad) := by
    have dadOf : entry.np ∈ kids rows dad → entry.dad = some dad := fun isKid =>
      congrArg Place.dad (List.inj_on_of_nodup_map nodup member (mem_kids.mp isKid) rfl)
    by_cases isKid : entry.dad = some dad
    · have inKids : entry.np ∈ kids rows dad := mem_kids.mpr (isKid ▸ member)
      simp only [isKid, brothers, kids_append, kids_singleton, if_true]
      exact successor_append (kids_nodup nodup dad) inKids
    · have notLast : (kids rows dad).getLast? ≠ some entry.np := fun last =>
        isKid (dadOf (List.mem_of_getLast? last))
      rw [if_neg notLast]
      cases other : entry.dad with
      | none => rfl
      | some dad' =>
        have differs : ¬ some dad = some dad' := fun same => isKid (other.trans same.symm)
        simp only [brothers, kids_append, kids_singleton, if_neg differs, List.append_nil]
  have allnext := successor_append (y := np) nodup (List.mem_map_of_mem member)
  simp only [Entry.record, child, next, sibling, List.map_append, List.map_cons, List.map_nil,
    allnext]

theorem mem_nps : np ∈ (places entries).map Place.np ↔ ∃ entry ∈ entries, entry.np = np := by
  simp [places]

/-- Addresses from `mem` on are those of no node. -/
theorem Holds.not_mem_nps (holds : Holds abi start heap entries mem) (fresh : mem ≤ np) :
    np ∉ (places entries).map Place.np := by
  intro member
  obtain ⟨entry, inside, rfl⟩ := mem_nps.mp member
  have := (holds.held entry inside).within
  omega

/-- The memory holds one more entry where the records so far got their new links. -/
theorem Holds.append (holds : Holds abi start heap entries mem) {new : Entry} (fresh : mem ≤ new.np)
    (rooted : ∀ dad, new.dad = some dad → dad ∈ (places entries).map Place.np)
    (earlier : ∀ entry ∈ entries,
      heap'.nodes entry.np = some (entry.record abi (places (entries ++ [new]))))
    (own : heap'.nodes new.np = some (new.record abi (places (entries ++ [new]))))
    (only : ∀ np, heap'.nodes np ≠ none → np = new.np ∨ heap.nodes np ≠ none)
    (properties : heap'.properties = heap.properties) (none : new.properties = [])
    (text : BytesAt heap'.bytes (new.np + abi.sizeofDeviceNode) (new.path ++ [0]))
    (outside : ∀ a, ¬ (new.np + abi.sizeofDeviceNode ≤ a ∧
      a < new.np + abi.sizeofDeviceNode + (new.path.length + 1)) → heap'.bytes a = heap.bytes a)
    (clean : 0 ∉ new.path)
    (mynodes : heap'.mynodes = ((places entries).map Place.np ++ [new.np]).head?)
    (allnextpp : heap'.allnextpp = some new.np) (limit : heap'.limit = heap.limit) :
    Holds abi start heap' (entries ++ [new])
      (new.np + abi.sizeofDeviceNode + (new.path.length + 1)) := by
  have rows : (places (entries ++ [new])).map Place.np =
      (places entries).map Place.np ++ [new.np] := by simp [places]
  have noPps : new.pps = [] := by simp [Entry.pps, none]
  refine ⟨?_, ?_, ?_, ?_, ?_, ?_, ?_, fun a high => (outside a (by omega)).trans
    (holds.above a (by omega)), limit.trans holds.limit⟩
  · intro entry member
    rcases List.mem_append.mp member with old | last
    · exact (holds.held entry old).frame (earlier entry old) (fun _ _ => by rw [properties])
        (fun a low => outside a (by omega)) (by omega)
    · rw [List.mem_singleton.mp last]
      refine ⟨own, ?_, text, ?_, clean, Nat.le_refl _, ?_⟩ <;> simp [none]
  · intro np found
    rw [rows]
    rcases only np found with rfl | old
    · simp
    · exact List.mem_append_left _ (holds.only np old)
  · rw [rows]
    exact List.concat_eq_append ▸ holds.nodup.concat (holds.not_mem_nps fresh)
  · intro place inside dad isDad
    rw [rows]
    refine List.mem_append_left _ ?_
    rw [places, List.map_append] at inside
    rcases List.mem_append.mp inside with old | last
    · exact holds.rooted place old dad isDad
    · exact rooted dad ((List.mem_singleton.mp last) ▸ isDad)
  · simpa [noPps] using holds.nodupProperties
  · rw [rows, mynodes]
  · rw [rows, allnextpp]
    simp

/-! ### The steps for nodes -/

theorem Holds.showsStem (holds : Holds abi start heap entries mem) {dad : Entry}
    (member : dad ∈ entries) (room : mem ≤ start.limit)
    (node : heap'.nodes dad.np = heap.nodes dad.np) (bytes : heap'.bytes = heap.bytes)
    (limit : heap'.limit = heap.limit) : heap'.ShowsStem (some dad.np) dad.stem := by
  have held := holds.held dad member
  refine ⟨_, node.trans held.node, ?_⟩
  split
  next top => exact if_pos top
  next inner =>
    have isPath : dad.stem = dad.path := if_neg inner
    have within := held.within
    rw [isPath]
    refine Heap.string_eq (bytes ▸ held.text) held.clean ?_
    rw [limit, holds.limit]
    exact Nat.le_trans within room

theorem Entry.stem_clean (clean : 0 ∉ entry.path) : 0 ∉ entry.stem := by
  unfold Entry.stem
  split
  · simp
  · exact clean

theorem clean_append {name : List (BitVec 8)} (cleanStem : 0 ∉ stem) (cleanName : 0 ∉ name) :
    0 ∉ stem ++ slash :: name := by
  simp only [List.mem_append, List.mem_cons, not_or]
  exact ⟨cleanStem, by decide, cleanName⟩

theorem mem_places (member : entry ∈ entries) : entry.toPlace ∈ places entries :=
  List.mem_map_of_mem member

/-- The two links of a new child: the records so far get what the new place changes in them. -/
theorem Heap.link_child {dad : Entry} (member : dad ∈ entries)
    (nodup : ((places entries).map Place.np).Nodup) (notOld : np ∉ (places entries).map Place.np)
    (nodes : ∀ entry ∈ entries, heap.nodes entry.np = some (entry.record abi (places entries)))
    (own : heap.nodes np = some { fullName := fn })
    (end_ : heap.allnextpp = ((places entries).map Place.np).getLast?) :
    ∃ linked : Heap,
      (heap.linkAllnext np >>= fun heap => heap.linkParent np (some dad.np)) = .ok linked ∧
      (∀ entry ∈ entries, linked.nodes entry.np =
        some (entry.record abi (places entries ++ [⟨np, some dad.np⟩]))) ∧
      linked.nodes np = some { fullName := fn, parent := some dad.np } ∧
      (∀ a, linked.nodes a ≠ none → heap.nodes a ≠ none) ∧
      linked.properties = heap.properties ∧ linked.bytes = heap.bytes ∧
      linked.limit = heap.limit ∧ linked.mynodes = heap.mynodes ∧
      linked.allnextpp = some np := by
  have found : ∀ last ∈ (places entries).map Place.np, ∃ node, heap.nodes last = some node := by
    intro last inside
    obtain ⟨entry, inEntries, rfl⟩ := mem_nps.mp inside
    exact ⟨_, nodes entry inEntries⟩
  have differs : ∀ entry ∈ entries, entry.np ≠ np := fun entry inside same =>
    notOld (mem_nps.mpr ⟨entry, inside, same⟩)
  have linked := heap.linkAllnext_eq np fun last isLast => by
    obtain ⟨node, isNode⟩ := found last (List.mem_of_getLast? (end_ ▸ isLast))
    simp [isNode]
  have notFirst : heap.allnextpp ≠ none := by
    rw [end_, Ne, List.getLast?_eq_none_iff]
    exact List.ne_nil_of_mem (List.mem_map_of_mem (mem_places member))
  have middle : ∀ {a node}, heap.nodes a = some node → (heap.allnextLinked np).nodes a =
      some { node with allnext := if heap.allnextpp = some a then some np else node.allnext } :=
    fun found => congrArg (Option.map _) found
  have parented := Heap.linkParent_eq (differs dad member) (middle own) (middle (nodes dad member))
    fun last isLast => by
      have isKid := mem_kids.mp (List.mem_of_getLast? isLast)
      obtain ⟨node, isNode⟩ := found last (List.mem_map_of_mem isKid)
      simp [middle isNode]
  have notLast : heap.allnextpp ≠ some np := fun isLast =>
    notOld (List.mem_of_getLast? (end_ ▸ isLast))
  have notKid : (kids (places entries) dad.np).getLast? ≠ some np := fun isLast =>
    notOld (List.mem_map_of_mem (mem_kids.mp (List.mem_of_getLast? isLast)))
  rw [linked, ok_bind]
  refine ⟨_, parented, ?_, ?_, ?_, rfl, rfl, rfl, if_neg notFirst, rfl⟩
  · intro entry inside
    rw [Heap.mapNodes_found (middle (nodes entry inside)),
      Entry.record_append (mem_places inside) nodup]
    simp only [end_, differs entry inside, if_false]
    rfl
  · rw [Heap.mapNodes_found (middle own)]
    simp [notLast, Ne.symm (differs dad member), Entry.record, notKid]
  · intro a isNode
    simpa [Heap.mapNodes, Heap.allnextLinked] using isNode

/-- The entry of a new child, before its properties. -/
def Entry.child (dad : Entry) (np : Nat) (name : List (BitVec 8)) : Entry where
  np
  dad := some dad.np
  path := dad.stem ++ slash :: name
  phandle := 0
  properties := []

/-- The record of a child is appended, and its full name fills the bytes reserved for it. -/
theorem Holds.addChild (holds : Holds abi start heap entries mem) {dad : Entry}
    (member : dad ∈ entries) (fresh : mem ≤ np) (newFormat : size.newFormat = true)
    (allocl : size.allocl = (dad.stem ++ slash :: size.pathp).length + 1) (clean : 0 ∉ size.pathp)
    (room : mem ≤ start.limit) :
    ∃ heap', heap.addNode abi np (some dad.np) size = .ok heap' ∧
      Holds abi start heap' (entries ++ [dad.child np size.pathp])
        (np + abi.sizeofDeviceNode + size.allocl) := by
  have notOld := holds.not_mem_nps fresh
  have differs : ∀ entry ∈ entries, entry.np ≠ np := fun entry inside same =>
    notOld (mem_nps.mpr ⟨entry, inside, same⟩)
  obtain ⟨bytes, written, text, outside⟩ := Heap.writeFullName_eq
    { heap with
      nodes := update heap.nodes np (some { fullName := np + abi.sizeofDeviceNode }) }
    newFormat
    (holds.showsStem member room (update_of_ne (differs dad member) _ _) rfl rfl)
    (Nat.le_add_right np abi.sizeofDeviceNode)
    (show _ = np + abi.sizeofDeviceNode + size.allocl by rw [allocl])
  have own : Heap.nodes { heap with
      nodes := update heap.nodes np (some { fullName := np + abi.sizeofDeviceNode })
      bytes } np = some { fullName := np + abi.sizeofDeviceNode } := update_self _ _ _
  obtain ⟨linked, both, earlier, ownLinked, only, properties, sameBytes, limit, mynodes, end_⟩ :=
    Heap.link_child member holds.nodup notOld
      (fun entry inside => (update_of_ne (differs entry inside) _ _).trans
        (holds.held entry inside).node) own holds.allnextpp
  have rows : places (entries ++ [dad.child np size.pathp]) =
      places entries ++ [⟨np, some dad.np⟩] := by simp [places, Entry.child]
  refine ⟨linked, ?_, ?_⟩
  · rw [Heap.addNode]
    simp only [written, ok_bind]
    exact both
  rw [allocl] at outside ⊢
  refine Holds.append holds fresh ?_ (rows ▸ earlier) ?_ ?_ properties rfl (sameBytes ▸ text)
    (sameBytes ▸ outside) ?_ ?_ end_ limit
  · intro dad' same
    cases same
    exact List.mem_map_of_mem (mem_places member)
  · -- A new child has no children, and is the last of its brothers and of all nodes.
    have noKids : kids (places entries) np = [] := by
      refine List.eq_nil_iff_forall_not_mem.mpr fun kid isKid => ?_
      exact notOld (holds.rooted _ (mem_kids.mp isKid) np rfl)
    have notKid : np ∉ kids (places entries) dad.np := fun isKid =>
      notOld (List.mem_map_of_mem (mem_kids.mp isKid))
    have notDad : dad.np ≠ np := differs dad member
    rw [rows, show (dad.child np size.pathp).np = np from rfl, ownLinked]
    simp [Entry.record, Entry.child, Entry.pps, brothers, kids_append, kids_singleton, noKids,
      notDad, successor_append_self notOld, successor_append_self notKid]
  · intro a isNode
    by_cases isNew : a = np
    · exact .inl isNew
    · exact .inr (update_of_ne isNew _ heap.nodes ▸ only a isNode)
  · exact clean_append (Entry.stem_clean (holds.held dad member).clean) clean
  · rw [mynodes, List.head?_append_of_ne_nil]
    · exact holds.mynodes
    · exact List.ne_nil_of_mem (List.mem_map_of_mem (mem_places member))

/-- The memory before the second pass holds nothing. -/
theorem freshHeap_holds (abi : Abi) (mem size : Nat) :
    Holds abi (freshHeap mem size) (freshHeap mem size) [] mem where
  held _ member := by cases member
  only _ found := absurd rfl found
  nodup := List.nodup_nil
  rooted _ member := by cases member
  nodupProperties := List.nodup_nil
  mynodes := rfl
  allnextpp := rfl
  above _ _ := rfl
  limit := rfl

/-- The entry of the root, before its properties. -/
def Entry.root (np : Nat) (name : List (BitVec 8)) : Entry where
  np
  dad := none
  path := slash :: name
  phandle := 0
  properties := []

/-- The record of the root comes first. -/
theorem Holds.addRoot (holds : Holds abi start heap [] mem) (fresh : mem ≤ np)
    (newFormat : size.newFormat = true) (allocl : size.allocl = (slash :: size.pathp).length + 1)
    (clean : 0 ∉ size.pathp) :
    ∃ heap', heap.addNode abi np none size = .ok heap' ∧
      Holds abi start heap' [Entry.root np size.pathp]
        (np + abi.sizeofDeviceNode + size.allocl) := by
  obtain ⟨bytes, written, text, outside⟩ := Heap.writeFullName_eq
    { heap with
      nodes := update heap.nodes np (some { fullName := np + abi.sizeofDeviceNode }) }
    newFormat (show Heap.ShowsStem _ none [] from rfl)
    (Nat.le_add_right np abi.sizeofDeviceNode)
    (show _ = np + abi.sizeofDeviceNode + size.allocl by rw [allocl]; rfl)
  have isFirst : heap.allnextpp = none := holds.allnextpp
  refine ⟨{ heap with
    nodes := update heap.nodes np (some { fullName := np + abi.sizeofDeviceNode })
    bytes
    mynodes := some np
    allnextpp := some np }, ?_, ?_⟩
  · rw [Heap.addNode]
    simp only [written, ok_bind]
    simp only [Heap.linkAllnext, isFirst, ok_bind, Heap.linkParent]
  rw [allocl] at outside ⊢
  refine Holds.append holds fresh (by simp [Entry.root]) (by simp) ?_ ?_ rfl rfl text outside ?_ rfl
    rfl rfl
  · exact (update_self _ _ _).trans (by
      simp [Entry.record, Entry.root, Entry.pps, places, kids, brothers, successor])
  · intro a isNode
    by_cases isNew : a = np
    · exact .inl isNew
    · refine .inr fun nothing => isNode ?_
      exact (update_of_ne isNew _ _).trans nothing
  · have cleanPath := clean_append (show 0 ∉ ([] : List (BitVec 8)) by simp) clean
    exact cleanPath

end Steps

end StudyNotes.DeviceTree
