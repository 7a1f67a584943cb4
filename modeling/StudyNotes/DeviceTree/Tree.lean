/-
This file proves that `__unflatten_device_tree` builds the tree that the blob
encodes.

The tree is described by what a reader of the memory finds: the children of a
node and the properties of a node are threaded lists, and so is the list of all
nodes. The proof reads the memory off the entries that the walk leaves, and
translates what they say about the blob into what the tree says.
-/

import StudyNotes.DeviceTree.Allocations
import Mathlib.Data.List.Induction

namespace StudyNotes.DeviceTree

open Library

/-! ### Device trees -/

/-- A property of a device tree. -/
structure DtProperty where
  name : List (BitVec 8)
  value : List (BitVec 8)
  deriving DecidableEq, Repr

/-- A property of the blob encodes a property of the tree. -/
structure FdtProperty.Encodes (blob : Blob) (property : FdtProperty) (encoded : DtProperty) :
    Prop where
  name : TextAt blob property.name encoded.name
  len : property.len = encoded.value.length
  value : ∀ i : Nat, i < encoded.value.length →
    blob.byte (property.data + i) = encoded.value.getD i 0

mutual

/-- The properties of all nodes of a tree. -/
def Node.allProperties {α : Type} : Node α → List α
  | .mk _ properties children => properties ++ forestProperties children

/-- The properties in several trees, in order. -/
def forestProperties {α : Type} : List (Node α) → List α
  | [] => []
  | node :: rest => node.allProperties ++ forestProperties rest

end

mutual

/-- A node of the blob encodes a node of the tree. -/
def Node.Encodes (blob : Blob) : Node FdtProperty → Node DtProperty → Prop
  | .mk name properties children, .mk name' properties' children' =>
    name = name' ∧ List.Forall₂ (FdtProperty.Encodes blob) properties properties' ∧
      forestEncodes blob children children'

/-- The same for several trees. -/
def forestEncodes (blob : Blob) : List (Node FdtProperty) → List (Node DtProperty) → Prop
  | [], [] => True
  | node :: rest, node' :: rest' => node.Encodes blob node' ∧ forestEncodes blob rest rest'
  | _, _ => False

end

/-- The blob encodes a tree: the header passes its check, the structure block starts with the
root and may have NOPs after that, and the nodes encode those of the tree. -/
def Blob.Encodes (blob : Blob) (tree : Node DtProperty) : Prop :=
  ∃ tokens root, WellFormed blob tokens root ∧ tokens.head? ≠ some .nop ∧ root.Encodes blob tree

/-! ### What the tree says about a node -/

/-- The big-endian word of four bytes. -/
def be32 (value : List (BitVec 8)) : Int :=
  (((value.getD 0 0).toNat * 256 + (value.getD 1 0).toNat) * 256 +
    (value.getD 2 0).toNat) * 256 + (value.getD 3 0).toNat

/-- The property is `ibm,phandle`. -/
def DtProperty.isIbmPhandle (property : DtProperty) : Bool := property.name = textIbmPhandle

/-- A `phandle` or `linux,phandle` property. -/
def DtProperty.isPhandle (property : DtProperty) : Bool :=
  property.name = textPhandle || property.name = textLinuxPhandle

/-- The phandle of a node: the last `ibm,phandle` if there is one, or else the first of the
others that is not zero. -/
def nodePhandle (properties : List DtProperty) : Int :=
  match (properties.filter DtProperty.isIbmPhandle).getLast? with
  | some property => be32 property.value
  | none =>
    ((properties.filter DtProperty.isPhandle).map fun property => be32 property.value).find?
      (· ≠ 0) |>.getD 0

/-- A unit name up to its last at sign. -/
def upToLastAt (unit : List (BitVec 8)) : List (BitVec 8) :=
  match unit.reverse.dropWhile (· ≠ atSign) with
  | [] => unit
  | _ :: before => before.reverse

/-- The properties of a node in memory: those of the tree, and a name where they have none. -/
def namedProperties (unit : List (BitVec 8)) (properties : List DtProperty) : List DtProperty :=
  properties ++
    if properties.any (·.name = textName) then []
    else [{ name := textName, value := upToLastAt unit ++ [0] }]

/-- Phandles are four bytes long, and no `ibm,phandle` is zero. -/
def PhandlesGood (properties : List DtProperty) : Prop :=
  ∀ property ∈ properties,
    (property.isPhandle ∨ property.isIbmPhandle → property.value.length = 4) ∧
    (property.isIbmPhandle → be32 property.value ≠ 0)

instance PhandlesGood.decidable (properties : List DtProperty) :
    Decidable (PhandlesGood properties) :=
  inferInstanceAs (Decidable (∀ property ∈ properties,
    (property.isPhandle ∨ property.isIbmPhandle → property.value.length = 4) ∧
    (property.isIbmPhandle → be32 property.value ≠ 0)))

/-! ### What a reader of the memory finds -/

/-- The addresses of a tree in memory: a node, its properties and its children. -/
inductive Placed where
  | mk (np : Nat) (pps : List Nat) (children : List Placed)

/-- The address of the node. -/
def Placed.np : Placed → Nat
  | .mk np _ _ => np

mutual

/-- The nodes of a tree in preorder. -/
def Placed.preorder : Placed → List Nat
  | .mk np _ children => np :: placedPreorder children

/-- The addresses in several trees, in order. -/
def placedPreorder : List Placed → List Nat
  | [] => []
  | placed :: rest => placed.preorder ++ placedPreorder rest

end

/-- `np->sibling`. -/
def Heap.sibling (heap : Heap) (np : Nat) : Option Nat := (heap.nodes np).bind (·.sibling)

/-- `np->allnext`. -/
def Heap.allnext (heap : Heap) (np : Nat) : Option Nat := (heap.nodes np).bind (·.allnext)

/-- `pp->next`. -/
def Heap.nextProperty (heap : Heap) (pp : Nat) : Option Nat := (heap.properties pp).bind (·.next)

/-- The bytes that a pointer points at. -/
def Heap.ShowsBytes (blob : Blob) (heap : Heap) (data : List (BitVec 8)) : Ref → Prop
  | .blob address => ∀ i : Nat, i < data.length → blob.byte (address + i) = data.getD i 0
  | .arena address => BytesAt heap.bytes address data
  | .literal text => text = data

/-- A record shows a property of the tree. -/
def Heap.ShowsProperty (blob : Blob) (heap : Heap) (pp : Nat) (property : DtProperty) : Prop :=
  ∃ record, heap.properties pp = some record ∧
    (record.name = .literal property.name ∨
      ∃ address, record.name = .blob address ∧ TextAt blob address property.name) ∧
    record.length = property.value.length ∧ heap.ShowsBytes blob property.value record.value

/-- A record shows a node: its parent, its children in order, its properties in order, its full
name, which fills what was reserved for it, and its phandle. -/
structure Heap.ShowsNode (blob : Blob) (abi : Abi) (heap : Heap) (allocations : List Allocation)
    (dad : Option Nat) (path : List (BitVec 8)) (phandle : Int) (properties : List DtProperty)
    (np : Nat) (pps children : List Nat) (record : DeviceNode) : Prop where
  node : heap.nodes np = some record
  parent : record.parent = dad
  child : Threaded heap.sibling record.child children
  propertyChain : Threaded heap.nextProperty record.properties pps
  propertyList : List.Forall₂ (heap.ShowsProperty blob) pps properties
  phandle : record.phandle = phandle
  fullName : heap.string record.fullName = .ok path
  start : record.fullName = np + abi.sizeofDeviceNode
  reserved : ⟨np, abi.sizeofDeviceNode + (path.length + 1), abi.alignofDeviceNode⟩ ∈ allocations

mutual

/-- The memory shows a node of the tree and everything below it. A node that is not the root has
its name as its unit name. -/
def Heap.ShowsTree (blob : Blob) (abi : Abi) (heap : Heap) (allocations : List Allocation)
    (dad : Option Nat) (path unit : List (BitVec 8)) : Node DtProperty → Placed → Prop
  | .mk _ properties children, .mk np pps kids =>
    (∃ record, heap.ShowsNode blob abi allocations dad path (nodePhandle properties)
      (namedProperties unit properties) np pps (kids.map Placed.np) record) ∧
    heap.ShowsForest blob abi allocations np (if dad = none then [] else path) children kids

/-- The memory shows the children of a node, whose paths begin with `stem`. -/
def Heap.ShowsForest (blob : Blob) (abi : Abi) (heap : Heap) (allocations : List Allocation)
    (dad : Nat) (stem : List (BitVec 8)) : List (Node DtProperty) → List Placed → Prop
  | [], [] => True
  | node :: rest, placed :: others =>
    heap.ShowsTree blob abi allocations (some dad) (stem ++ slash :: node.name) node.name node
      placed ∧ heap.ShowsForest blob abi allocations dad stem rest others
  | _, _ => False

end

/-! ### Names of properties -/

variable {properties : List FdtProperty} {encoded : List DtProperty} {property : FdtProperty}

section Names

variable {blob : Blob} {unit : List (BitVec 8)}

/-- `strcmp` decides which text lies at an address. -/
theorem stringIs_eq {p : Int} {name : List (BitVec 8)} (at_ : TextAt blob p name)
    {text : List (BitVec 8)} (clean : 0 ∉ text) : stringIs blob p text = decide (name = text) := by
  induction text generalizing p name with
  | nil =>
    cases name with
    | nil =>
      have zero : blob.byte p = 0 := at_
      simp [stringIs, zero]
    | cons byte rest =>
      have nonzero : blob.byte p ≠ 0 := at_.1 ▸ at_.2.1
      simpa [stringIs] using nonzero
  | cons wanted text inductionHypothesis =>
    rw [List.mem_cons, not_or] at clean
    cases name with
    | nil =>
      have zero : blob.byte p = 0 := at_
      simpa [stringIs, zero] using fun same => absurd same clean.1
    | cons byte rest =>
      obtain ⟨here, -, later⟩ := at_
      rw [stringIs, inductionHypothesis later clean.2, here]
      simp

theorem FdtProperty.Encodes.fdt32 {encoded : DtProperty} (encodes : property.Encodes blob encoded)
    (word : encoded.value.length = 4) : fdt32 blob property.data = be32 encoded.value := by
  have bytes := fun i (inside : i < 4) => encodes.value i (word ▸ inside)
  have byte0 : blob.byte property.data = encoded.value.getD 0 0 := by
    simpa using bytes 0 (by decide)
  have byte1 : blob.byte (property.data + 1) = encoded.value.getD 1 0 := bytes 1 (by decide)
  have byte2 : blob.byte (property.data + 2) = encoded.value.getD 2 0 := bytes 2 (by decide)
  have byte3 : blob.byte (property.data + 3) = encoded.value.getD 3 0 := bytes 3 (by decide)
  rw [DeviceTree.fdt32, be32, byte0, byte1, byte2, byte3]

/-! ### Phandles -/

/-- What one property does to the phandle, as the tree says it. -/
def DtProperty.phandleAfter (property : DtProperty) (phandle : Int) : Int :=
  if property.isIbmPhandle then be32 property.value
  else if property.isPhandle ∧ phandle = 0 then be32 property.value
  else phandle

theorem FdtProperty.Encodes.phandleAfter {encoded : DtProperty}
    (encodes : property.Encodes blob encoded)
    (word : encoded.isPhandle ∨ encoded.isIbmPhandle → encoded.value.length = 4) (phandle : Int) :
    phandleAfter blob property phandle = encoded.phandleAfter phandle := by
  have isPhandle : (stringIs blob property.name textPhandle ||
      stringIs blob property.name textLinuxPhandle) = encoded.isPhandle := by
    rw [stringIs_eq encodes.name (by decide), stringIs_eq encodes.name (by decide)]
    rfl
  have isIbm : stringIs blob property.name textIbmPhandle = encoded.isIbmPhandle :=
    stringIs_eq encodes.name (by decide)
  unfold DeviceTree.phandleAfter DtProperty.phandleAfter
  simp only [isPhandle, isIbm]
  by_cases ibm : encoded.isIbmPhandle = true
  · rw [if_pos ibm, if_pos ibm, encodes.fdt32 (word (.inr ibm))]
  · rw [if_neg ibm, if_neg ibm]
    by_cases plain : encoded.isPhandle = true
    · by_cases zero : phandle = 0
      · rw [if_pos plain, if_pos zero, if_pos ⟨plain, zero⟩, encodes.fdt32 (word (.inl plain))]
      · rw [if_pos plain, if_neg zero, if_neg fun both => zero both.2]
    · rw [if_neg plain, if_neg fun both => plain both.1]

theorem foldl_phandleAfter (encodes : List.Forall₂ (FdtProperty.Encodes blob) properties encoded)
    (good : PhandlesGood encoded) (phandle : Int) :
    properties.foldl (fun phandle property => DeviceTree.phandleAfter blob property phandle)
        phandle = encoded.foldl (fun phandle property => property.phandleAfter phandle)
          phandle := by
  induction encodes generalizing phandle with
  | nil => rfl
  | cons first rest inductionHypothesis =>
    rw [List.foldl_cons, List.foldl_cons, first.phandleAfter (good _ List.mem_cons_self).1 phandle]
    exact inductionHypothesis (fun property member => good property (List.mem_cons_of_mem _ member))
      _

/-- The loop over the properties finds the phandle of the node. -/
theorem foldl_nodePhandle {properties : List DtProperty} (good : PhandlesGood properties) :
    properties.foldl (fun phandle property => property.phandleAfter phandle) 0 =
      nodePhandle properties := by
  induction properties using List.reverseRecOn with
  | nil => rfl
  | append_singleton properties property inductionHypothesis =>
    have goodFront : PhandlesGood properties := fun other member =>
      good other (List.mem_append_left _ member)
    rw [List.foldl_append, List.foldl_cons, List.foldl_nil, inductionHypothesis goodFront,
      DtProperty.phandleAfter]
    by_cases ibm : property.isIbmPhandle = true
    · simp [nodePhandle, ibm]
    have sameIbm : (properties ++ [property]).filter DtProperty.isIbmPhandle =
        properties.filter DtProperty.isIbmPhandle := by simp [ibm]
    rw [if_neg ibm]
    unfold nodePhandle
    rw [sameIbm]
    cases last : (properties.filter DtProperty.isIbmPhandle).getLast? with
    | some other =>
      obtain ⟨member, isIbm⟩ := List.mem_filter.mp (List.mem_of_getLast? last)
      have nonzero := (goodFront other member).2 isIbm
      exact if_neg fun both => nonzero both.2
    | none =>
      by_cases plain : property.isPhandle = true
      · simp only [plain, List.filter_append, List.filter_cons_of_pos plain, List.filter_nil,
          List.map_append, List.map_cons, List.map_nil, List.find?_append, true_and]
        cases found : ((properties.filter DtProperty.isPhandle).map fun property =>
            be32 property.value).find? (· ≠ 0) with
        | some phandle =>
          have nonzero : phandle ≠ 0 := by simpa using List.find?_some found
          simp [nonzero]
        | none =>
          by_cases zero : be32 property.value = 0 <;> simp [zero]
      · simp [plain]

/-! ### Unit names -/

/-- The index is that of the last at sign. -/
def LastAt (unit : List (BitVec 8)) : Option Nat → Prop
  | none => unit.reverse.dropWhile (· ≠ atSign) = []
  | some index => index < unit.length ∧
    unit.reverse.dropWhile (· ≠ atSign) = atSign :: (unit.take index).reverse

/-- One turn of the loop of `scanPath`: where it is, the index after the last slash, and the
index of the last at sign. -/
def scanTurn (scan : Nat × Nat × Option Nat) (c : BitVec 8) : Nat × Nat × Option Nat :=
  (scan.1 + 1, if c = slash then scan.1 + 1 else scan.2.1,
    if c = atSign then some scan.1 else scan.2.2)

theorem scanPath_eq_foldl (pathp : List (BitVec 8)) :
    scanPath pathp = (pathp.foldl scanTurn (0, 0, none)).2 := rfl

theorem foldl_scanTurn_unit (flat : slash ∉ unit) :
    ∃ index, unit.foldl scanTurn (0, 0, none) = (unit.length, 0, index) ∧ LastAt unit index := by
  induction unit using List.reverseRecOn with
  | nil => exact ⟨none, rfl, rfl⟩
  | append_singleton unit byte inductionHypothesis =>
    rw [List.mem_append, not_or] at flat
    have notSlash : byte ≠ slash := fun same => flat.2 (by simp [same])
    obtain ⟨index, isScan, last⟩ := inductionHypothesis flat.1
    rw [List.foldl_append, isScan]
    by_cases isAt : byte = atSign
    · refine ⟨some unit.length, ?_, ?_⟩
      · simp [scanTurn, isAt]
        decide
      · simp [LastAt, isAt]
    · refine ⟨index, by simp [scanTurn, notSlash, isAt], ?_⟩
      cases index with
      | none => simpa [LastAt, isAt] using last
      | some index =>
        obtain ⟨inside, dropped⟩ := last
        refine ⟨by simp; omega, ?_⟩
        rw [List.reverse_append, List.reverse_singleton, List.singleton_append,
          List.dropWhile_cons_of_pos (by simp [isAt]), dropped,
          List.take_append_of_le_length (Nat.le_of_lt inside)]

/-- The name that is made up is the unit name up to its last at sign. -/
theorem fixedUpName_unit (flat : slash ∉ unit) : fixedUpName unit = upToLastAt unit := by
  obtain ⟨index, isScan, last⟩ := foldl_scanTurn_unit flat
  rw [fixedUpName, scanPath_eq_foldl, isScan, upToLastAt]
  cases index with
  | none =>
    rw [show unit.reverse.dropWhile (· ≠ atSign) = [] from last]
    simp
  | some index =>
    rw [last.2]
    simp

/-! ### Properties -/

/-- What a record is made from says what the tree says. -/
def PropertyContent.Says (blob : Blob) (content : PropertyContent) (property : DtProperty) : Prop :=
  match content with
  | .encoded encoding => encoding.Encodes blob property ∧ encoding.len < 2 ^ 31
  | .fixedUp text => property = { name := textName, value := text ++ [0] }

/-- The properties of a record say what the tree says, with a name where there is none. -/
theorem contents_says (flat : slash ∉ unit)
    (encodes : List.Forall₂ (FdtProperty.Encodes blob) properties encoded)
    (short : ∀ property ∈ properties, property.len < 2 ^ 31) :
    List.Forall₂ (PropertyContent.Says blob) (contents blob unit properties)
      (namedProperties unit encoded) := by
  have front : List.Forall₂ (PropertyContent.Says blob) (properties.map .encoded) encoded := by
    rw [List.forall₂_map_left_iff]
    exact ((List.forall₂_and_left _ _).mpr ⟨short, encodes⟩).imp fun _ _ both => both.symm
  have sameName : (properties.any fun property => stringIs blob property.name textName) =
      encoded.any (·.name = textName) := by
    induction encodes with
    | nil => rfl
    | cons first rest inductionHypothesis =>
      rw [List.any_cons, List.any_cons, stringIs_eq first.name (by decide),
        inductionHypothesis (fun property member => short property (List.mem_cons_of_mem _ member))
          (List.forall₂_cons.mp front).2]
  rw [contents, namedProperties, sameName]
  refine List.rel_append front ?_
  split
  · exact .nil
  · exact .cons (by rw [PropertyContent.Says, fixedUpName_unit flat]) .nil

/-- A record that is held shows the property that it is made from. -/
theorem PropertyEntry.shows {abi : Abi} {heap : Heap} {p : PropertyEntry} {next : Option Nat}
    {property : DtProperty} (held : heap.properties p.pp = some (p.record abi next))
    (made : p.Made abi heap.bytes) (told : p.content.Says blob property) :
    heap.ShowsProperty blob p.pp property := by
  obtain ⟨pp, content⟩ := p
  refine ⟨_, held, ?_⟩
  cases content with
  | encoded encoding =>
    obtain ⟨encodes, short⟩ := told
    refine ⟨.inr ⟨_, rfl, encodes.name⟩, ?_, encodes.value⟩
    have nonneg : 0 ≤ encoding.len := by simp [encodes.len]
    exact (int32_of_lt nonneg short).trans encodes.len
  | fixedUp text =>
    obtain rfl : property = ⟨textName, text ++ [0]⟩ := told
    exact ⟨.inl rfl, by simp [PropertyEntry.record], made⟩

end Names

/-! ### The links of the built tree -/

theorem places_append (front back : List Entry) :
    places (front ++ back) = places front ++ places back := List.map_append

/-- The addresses of the nodes of entries. -/
def addresses (entries : List Entry) : List Nat := (places entries).map Place.np

theorem addresses_append (front back : List Entry) :
    addresses (front ++ back) = addresses front ++ addresses back := by
  simp [addresses, places_append]

section Links

variable {blob : Blob}

mutual

/-- From outside a tree only its root can be seen as a child. -/
theorem Node.Matches.kids_outside (node : Node FdtProperty) {built : Built} {dad : Option Nat}
    {path unit : List (BitVec 8)} (matches_ : node.Matches blob dad path unit built) {np : Nat}
    (outside : np ∉ addresses built.entries) :
    kids (places built.entries) np = if dad = some np then [built.np] else [] := by
  match node, built with
  | .mk _ properties children, .mk entry below =>
    obtain ⟨shows_, inside⟩ := matches_
    have differs : entry.np ≠ np := fun same => outside (same ▸ List.mem_cons_self)
    have none_ := forestMatches.kids_outside children inside
      (List.not_mem_of_not_mem_cons outside)
    rw [if_neg fun same => differs (Option.some.inj same)] at none_
    rw [Built.entries, places, List.map_cons, ← List.singleton_append, kids_append,
      kids_singleton, shows_.dad]
    exact (congrArg (_ ++ ·) none_).trans (List.append_nil _)

theorem forestMatches.kids_outside (forest : List (Node FdtProperty)) {below : List Built}
    {dad : Option Nat} {stem : List (BitVec 8)}
    (matches_ : forestMatches blob dad stem forest below)
    {np : Nat} (outside : np ∉ addresses (builtEntries below)) :
    kids (places (builtEntries below)) np =
      if dad = some np then below.map Built.np else [] := by
  match forest, below with
  | [], [] => simp [builtEntries, places, kids]
  | node :: rest, built :: others =>
    rw [builtEntries, addresses_append, List.mem_append, not_or] at outside
    rw [builtEntries, places_append, kids_append,
      Node.Matches.kids_outside node matches_.1 outside.1,
      forestMatches.kids_outside rest matches_.2 outside.2]
    split
    · rfl
    · rfl

end

mutual

/-- The children of each node are those that the tree has below it. -/
def Built.Wired (rows : List Place) : Built → Prop
  | .mk entry below => kids rows entry.np = below.map Built.np ∧ forestWired rows below

/-- The same for several trees. -/
def forestWired (rows : List Place) : List Built → Prop
  | [] => True
  | built :: rest => built.Wired rows ∧ forestWired rows rest

end

mutual

/-- A tree is wired in its place where no other entry has a parent in the tree. -/
theorem Node.Matches.wired (node : Node FdtProperty) {built : Built} {dad : Option Nat}
    {path unit : List (BitVec 8)} {rows : List Place}
    (matches_ : node.Matches blob dad path unit built)
    (own : ∀ np ∈ addresses built.entries, kids rows np = kids (places built.entries) np)
    (nodup : (addresses built.entries).Nodup)
    (outside : ∀ np ∈ addresses built.entries, dad ≠ some np) : built.Wired rows := by
  match node, built with
  | .mk _ properties children, .mk entry below =>
    obtain ⟨shows_, inside⟩ := matches_
    obtain ⟨fresh, nodupBelow⟩ := List.nodup_cons.mp nodup
    have split : ∀ np ∈ addresses (Built.mk entry below).entries,
        kids rows np = kids (places (builtEntries below)) np := by
      intro np member
      rw [own np member, Built.entries, places, List.map_cons, ← List.singleton_append,
        kids_append, kids_singleton, shows_.dad, if_neg (outside np member)]
      rfl
    refine ⟨?_, ?_⟩
    · rw [split entry.np List.mem_cons_self, forestMatches.kids_outside children inside fresh,
        if_pos rfl]
    · refine forestMatches.wired children inside
        (fun np member => split np (List.mem_cons_of_mem _ member)) nodupBelow fun np member same =>
          ?_
      exact fresh (Option.some.inj same ▸ member)

theorem forestMatches.wired (forest : List (Node FdtProperty)) {below : List Built}
    {dad : Option Nat} {stem : List (BitVec 8)} {rows : List Place}
    (matches_ : forestMatches blob dad stem forest below)
    (own : ∀ np ∈ addresses (builtEntries below),
      kids rows np = kids (places (builtEntries below)) np)
    (nodup : (addresses (builtEntries below)).Nodup)
    (outside : ∀ np ∈ addresses (builtEntries below), dad ≠ some np) : forestWired rows below := by
  match forest, below with
  | [], [] => trivial
  | node :: rest, built :: others =>
    rw [builtEntries, addresses_append] at nodup outside own
    obtain ⟨nodupFirst, nodupRest, disjoint⟩ := List.nodup_append.mp nodup
    obtain ⟨outsideFirst, outsideRest⟩ := List.forall_mem_append.mp outside
    refine ⟨Node.Matches.wired node matches_.1 (fun np member => ?_) nodupFirst outsideFirst,
      forestMatches.wired rest matches_.2 (fun np member => ?_) nodupRest outsideRest⟩
    · rw [own np (List.mem_append_left _ member), places_append, kids_append,
        forestMatches.kids_outside rest matches_.2 fun also => disjoint np member np also rfl,
        if_neg (outsideFirst np member), List.append_nil]
    · rw [own np (List.mem_append_right _ member), places_append, kids_append,
        Node.Matches.kids_outside node matches_.1 fun also => disjoint np also np member rfl,
        if_neg (outsideRest np member), List.nil_append]

end

end Links

/-! ### Reading the memory -/

section Reading

variable {blob : Blob} {abi : Abi} {start heap : Heap} {entries : List Entry} {mem : Nat}
  {allocations : List Allocation}

section

variable (holds : Holds abi start heap entries mem)
include holds

/-- The children of a node are on the list of its siblings. -/
theorem Holds.threaded_kids (np : Nat) :
    Threaded heap.sibling (kids (places entries) np).head? (kids (places entries) np) := by
  refine threaded_of_successor (kids_nodup holds.nodup np) fun child member => ?_
  obtain ⟨entry, inside, isPlace⟩ := List.mem_map.mp (mem_kids.mp member)
  obtain ⟨rfl, isDad⟩ : entry.np = child ∧ entry.dad = some np := by
    rw [isPlace]
    exact ⟨rfl, rfl⟩
  rw [Heap.sibling, (holds.held entry inside).node, Option.bind_some, Entry.record, isDad, brothers]

/-- All nodes are on the list of all nodes. -/
theorem Holds.threaded_all : Threaded heap.allnext heap.mynodes (addresses entries) := by
  rw [holds.mynodes]
  refine threaded_of_successor holds.nodup fun np member => ?_
  obtain ⟨place, inPlaces, rfl⟩ := List.mem_map.mp member
  obtain ⟨entry, inside, rfl⟩ := List.mem_map.mp inPlaces
  rw [Heap.allnext, (holds.held entry inside).node, Option.bind_some, Entry.record]

/-- The properties of a node are on its list. -/
theorem Holds.threaded_properties {entry : Entry}
    (member : entry ∈ entries) : Threaded heap.nextProperty entry.pps.head? entry.pps := by
  have nodup := (List.nodup_flatMap.mp holds.nodupProperties).1 entry member
  refine threaded_of_successor nodup fun pp inside => ?_
  obtain ⟨p, inProperties, rfl⟩ := List.mem_map.mp inside
  rw [Heap.nextProperty, (holds.held entry member).property p inProperties, Option.bind_some]
  obtain ⟨pp, content⟩ := p
  cases content <;> rfl

/-- An entry that is held shows its node. -/
theorem Holds.showsNode (room : mem ≤ start.limit) {entry : Entry} (member : entry ∈ entries)
    (reserved : ⟨entry.np, abi.sizeofDeviceNode + (entry.path.length + 1), abi.alignofDeviceNode⟩ ∈
      allocations) {dad : Option Nat} {path unit : List (BitVec 8)}
    (shows_ : entry.Shows blob dad path unit properties) (flat : slash ∉ unit)
    (encodes : List.Forall₂ (FdtProperty.Encodes blob) properties encoded)
    (short : ∀ property ∈ properties, property.len < 2 ^ 31) (good : PhandlesGood encoded) :
    heap.ShowsNode blob abi allocations dad path (nodePhandle encoded)
      (namedProperties unit encoded) entry.np entry.pps (kids (places entries) entry.np)
      (entry.record abi (places entries)) := by
  have held := holds.held entry member
  refine {
    node := held.node
    parent := shows_.dad
    child := holds.threaded_kids entry.np
    propertyChain := holds.threaded_properties member
    propertyList := ?_
    phandle := ?_
    fullName := ?_
    start := rfl
    reserved := shows_.path ▸ reserved }
  · have told := contents_says flat encodes short
    rw [← shows_.contents, List.forall₂_map_left_iff] at told
    rw [Entry.pps, List.forall₂_map_left_iff]
    exact ((List.forall₂_and_left _ _).mpr ⟨fun p inside => inside, told⟩).imp
      fun p property both =>
        PropertyEntry.shows (held.property p both.1) (held.made p both.1) both.2
  · rw [← foldl_nodePhandle good, ← foldl_phandleAfter encodes good 0]
    exact shows_.phandle
  · rw [← shows_.path]
    refine heap.string_eq held.text held.clean ?_
    rw [holds.limit]
    exact Nat.le_trans held.within room

end

mutual

/-- The addresses of a built tree. -/
def Built.placed : Built → Placed
  | .mk entry below => .mk entry.np entry.pps (builtPlaced below)

/-- Where several trees are. -/
def builtPlaced : List Built → List Placed
  | [] => []
  | built :: rest => built.placed :: builtPlaced rest

end

theorem builtPlaced_np (below : List Built) :
    (builtPlaced below).map Placed.np = below.map Built.np := by
  induction below with
  | nil => rfl
  | cons built rest inductionHypothesis =>
    obtain ⟨entry, children⟩ := built
    simp [builtPlaced, Built.placed, Placed.np, Built.np, inductionHypothesis]

theorem builtPlaced_preorder (below : List Built) :
    placedPreorder (builtPlaced below) = addresses (builtEntries below) := by
  match below with
  | [] => rfl
  | .mk entry children :: rest =>
    rw [builtPlaced, placedPreorder, builtPlaced_preorder rest, builtEntries, addresses_append,
      Built.placed, Placed.preorder, builtPlaced_preorder children]
    rfl

mutual

/-- The memory that holds the entries of a tree shows the tree. -/
theorem Holds.showsTree (holds : Holds abi start heap entries mem) (room : mem ≤ start.limit)
    (reserved : ∀ entry ∈ entries,
      ⟨entry.np, abi.sizeofDeviceNode + (entry.path.length + 1), abi.alignofDeviceNode⟩ ∈
        allocations) (node : Node FdtProperty) {tree : Node DtProperty} {built : Built}
    {dad : Option Nat} {path unit : List (BitVec 8)}
    (matches_ : node.Matches blob dad path unit built) (wired : built.Wired (places entries))
    (within : ∀ entry ∈ built.entries, entry ∈ entries) (encodes : node.Encodes blob tree)
    (flat : slash ∉ unit) (flatBelow : ∀ name ∈ forestNames tree.children, slash ∉ name)
    (short : ∀ property ∈ node.allProperties, property.len < 2 ^ 31)
    (good : PhandlesGood tree.allProperties) :
    heap.ShowsTree blob abi allocations dad path unit tree built.placed := by
  match node, tree, built with
  | .mk _ properties children, .mk _ encoded children', .mk entry below =>
    obtain ⟨shows_, inside⟩ := matches_
    obtain ⟨-, encodesHere, encodesBelow⟩ := encodes
    obtain ⟨member, withinBelow⟩ := List.forall_mem_cons.mp within
    obtain ⟨shortHere, shortBelow⟩ := List.forall_mem_append.mp short
    obtain ⟨goodHere, goodBelow⟩ := List.forall_mem_append.mp good
    have shown := holds.showsNode room member (reserved entry member) shows_ flat encodesHere
      shortHere goodHere
    have stem : entry.stem = if dad = none then [] else path := by
      rw [Entry.stem, shows_.dad, shows_.path]
    refine ⟨⟨entry.record abi (places entries), ?_⟩, ?_⟩
    · rw [builtPlaced_np, ← wired.1]
      exact shown
    · rw [stem] at inside
      exact holds.showsForest room reserved children inside wired.2 withinBelow encodesBelow
        flatBelow shortBelow goodBelow

theorem Holds.showsForest (holds : Holds abi start heap entries mem) (room : mem ≤ start.limit)
    (reserved : ∀ entry ∈ entries,
      ⟨entry.np, abi.sizeofDeviceNode + (entry.path.length + 1), abi.alignofDeviceNode⟩ ∈
        allocations) (forest : List (Node FdtProperty)) {trees : List (Node DtProperty)}
    {below : List Built} {dad : Nat} {stem : List (BitVec 8)}
    (matches_ : forestMatches blob (some dad) stem forest below)
    (wired : forestWired (places entries) below)
    (within : ∀ entry ∈ builtEntries below, entry ∈ entries)
    (encodes : forestEncodes blob forest trees) (flat : ∀ name ∈ forestNames trees, slash ∉ name)
    (short : ∀ property ∈ forestProperties forest, property.len < 2 ^ 31)
    (good : PhandlesGood (forestProperties trees)) :
    heap.ShowsForest blob abi allocations dad stem trees (builtPlaced below) := by
  match forest, trees, below with
  | [], [], [] => trivial
  | .mk name properties children :: rest, .mk name' encoded children' :: rest',
      built :: others =>
    obtain ⟨encodesFirst, encodesRest⟩ := encodes
    obtain ⟨matchesFirst, matchesRest⟩ := matches_
    obtain ⟨withinFirst, withinRest⟩ := List.forall_mem_append.mp within
    obtain ⟨flatFirst, flatRest⟩ := List.forall_mem_append.mp flat
    obtain ⟨flatName, flatBelow⟩ := List.forall_mem_cons.mp flatFirst
    obtain ⟨shortFirst, shortRest⟩ := List.forall_mem_append.mp short
    obtain ⟨goodFirst, goodRest⟩ := List.forall_mem_append.mp good
    obtain rfl : name = name' := encodesFirst.1
    exact ⟨holds.showsTree room reserved (.mk name properties children) matchesFirst wired.1
        withinFirst encodesFirst flatName flatBelow shortFirst goodFirst,
      holds.showsForest room reserved rest matchesRest wired.2 withinRest encodesRest flatRest
        shortRest goodRest⟩

end

end Reading

/-! ### The whole tree -/

section Whole

variable {blob : Blob}

theorem forest_prop_mem (forest : List (Node FdtProperty))
    (member : property ∈ forestProperties forest) : Token.prop property ∈ forestTokens forest := by
  match forest with
  | [] => cases member
  | .mk name properties children :: rest =>
    rw [forestTokens, Node.tokens]
    rcases List.mem_append.mp member with inFirst | later
    · rcases List.mem_append.mp inFirst with here | below
      · simp [here]
      · simp [forest_prop_mem children below]
    · exact List.mem_append_right _ (forest_prop_mem rest later)

/-- A property in a block of less than `2 ^ 31` bytes is shorter than that. -/
theorem WellFormed.prop_len {tokens : List Token} {root : Node FdtProperty}
    (wellFormed : WellFormed blob tokens root) :
    ∀ property ∈ root.allProperties, property.len < 2 ^ 31 := by
  intro property member
  have inTokens := forest_prop_mem [root] (List.mem_append_left _ member)
  rw [forestTokens, forestTokens, List.append_nil] at inTokens
  obtain ⟨v, rest, nonneg, at_⟩ := wellFormed.exists_at inTokens
  have fits := at_.2.fits.1
  simp only [Token.size, Token.extent] at fits
  omega

theorem forestEncodes.names_eq (forest : List (Node FdtProperty)) {trees : List (Node DtProperty)}
    (encodes : forestEncodes blob forest trees) : forestNames forest = forestNames trees := by
  match forest, trees with
  | [], [] => rfl
  | .mk name properties children :: rest, .mk name' properties' children' :: others =>
    obtain ⟨⟨rfl, -, below⟩, later⟩ := encodes
    rw [forestNames, forestNames, Node.names, Node.names, names_eq children below,
      names_eq rest later]

/-- `__unflatten_device_tree` builds the tree that the blob encodes: the memory shows it from the
root, called `/`, on, the list of all nodes has them in preorder, and there are no others. -/
theorem unflattenDeviceTree_encoded {tree : Node DtProperty} (encodes : blob.Encodes tree)
    (flat : ∀ name ∈ tree.names, slash ∉ name) (good : PhandlesGood tree.allProperties) (abi : Abi)
    {dtAlloc : Nat → Nat → Nat}
    (aligned : ∀ size, abi.alignofDeviceNode ∣ dtAlloc size abi.alignofDeviceNode)
    {fuel : Nat} (enough : 2 ^ 31 ≤ fuel) :
    ∃ result heap placed,
      unflattenDeviceTree blob abi dtAlloc fuel 0 = some (some result) ∧
      result.filling.heap = .ok heap ∧
      heap.ShowsTree blob abi result.filling.allocations none [slash] [] tree placed ∧
      Threaded heap.allnext heap.mynodes placed.preorder ∧ placed.preorder.Nodup ∧
      ∀ np, heap.nodes np ≠ none → np ∈ placed.preorder := by
  obtain ⟨tokens, root, wellFormed, first, rootEncodes⟩ := encodes
  have newFormat : ∀ name ∈ root.names, name.head? ≠ some slash := by
    intro name member old
    have sameNames : forestNames [root] = forestNames [tree] :=
      forestEncodes.names_eq _ ⟨rootEncodes, trivial⟩
    simp only [forestNames, List.append_nil] at sameNames
    exact flat name (sameNames ▸ member) (List.mem_of_head? old)
  obtain ⟨built, matches_, holding⟩ := wellFormed.unflattened_holding aligned newFormat
  obtain ⟨heap, isHeap, holds⟩ := holding.heap
  have wired := Node.Matches.wired root matches_ (fun _ _ => rfl) holds.nodup (by simp)
  have room := root.unflattened_mem_le aligned blob
  have flatBelow : ∀ name ∈ forestNames tree.children, slash ∉ name := by
    obtain ⟨name, properties, children⟩ := tree
    exact fun name member => flat name (List.mem_cons_of_mem _ member)
  refine ⟨_, heap, built.placed, unflattenDeviceTree_build abi dtAlloc wellFormed first enough,
    isHeap, ?_, ?_⟩
  · exact holds.showsTree (Nat.le_trans room (Nat.le_add_right _ 4)) holding.reserved root matches_
      wired (fun _ member => member) rootEncodes List.not_mem_nil flatBelow wellFormed.prop_len good
  · have isPreorder : built.placed.preorder = addresses built.entries := by
      simpa [builtPlaced, placedPreorder, builtEntries] using builtPlaced_preorder [built]
    rw [isPreorder]
    exact ⟨holds.threaded_all, holds.nodup, holds.only⟩

end Whole

/-- A root with a phandle, and a child `a@1` below it. -/
def phandleTree : Node DtProperty :=
  .mk [] [{ name := textPhandle, value := [0, 0, 0, 7] }] [.mk [0x61, 0x40, 0x31] [] []]

/-- The tree with a NOP after the name of the root. -/
def phandleBlob : Blob where
  magic := 0xd00dfeed
  offDtStruct := 40
  offDtStrings := 88
  version := 0x11
  lastCompVersion := 0x10
  sizeDtStruct := 48
  byte p := [0, 0, 0, 1, 0, 0, 0, 0, 0, 0, 0, 4, 0, 0, 0, 3, 0, 0, 0, 4, 0, 0, 0, 0, 0, 0, 0, 7,
    0, 0, 0, 1, 0x61, 0x40, 0x31, 0, 0, 0, 0, 2, 0, 0, 0, 2, 0, 0, 0, 9,
    0x70, 0x68, 0x61, 0x6e, 0x64, 0x6c, 0x65, 0].getD (p - 40).toNat 0

theorem phandleBlob_encodes : phandleBlob.Encodes phandleTree :=
  ⟨[.beginNode [], .nop, .prop ⟨64, 88, 4⟩, .beginNode [0x61, 0x40, 0x31], .endNode, .endNode,
      .fin],
    .mk [] [⟨64, 88, 4⟩] [.mk [0x61, 0x40, 0x31] [] []],
    ⟨by decide, by decide, rfl⟩, by decide,
    rfl, .cons ⟨by decide, rfl, by decide⟩ .nil, ⟨rfl, .nil, trivial⟩, trivial⟩

theorem unflattenDeviceTree_phandleBlob :
    ∃ result heap placed,
      unflattenDeviceTree phandleBlob abi64 (fun _ _ => 0x1000) (2 ^ 31) 0 = some (some result) ∧
      result.filling.heap = .ok heap ∧
      heap.ShowsTree phandleBlob abi64 result.filling.allocations none [slash] [] phandleTree
        placed ∧
      Threaded heap.allnext heap.mynodes placed.preorder ∧ placed.preorder.Nodup ∧
      ∀ np, heap.nodes np ≠ none → np ∈ placed.preorder :=
  unflattenDeviceTree_encoded phandleBlob_encodes (by decide) (by decide) abi64 (fun _ => by decide)
    (Nat.le_refl _)

end StudyNotes.DeviceTree
