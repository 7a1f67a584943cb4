/-
This file proves when `_of_phy_get` gives back every reference that it takes on device tree
nodes and modules.
-/

import Mathlib.Algebra.Group.Pi.Basic
import Mathlib.Algebra.Ring.Int.Defs

namespace StudyNotes.Phy

inductive Errno
  | enodev
  | eprobeDefer

/-- What of `struct phy_provider` the lookup reads. Without `children` the list is empty. -/
structure PhyProvider (Node Module : Type) where
  ofNode : Option Node
  children : List Node
  owner : Option Module

/-- The device tree, the modules and the callbacks, as `_of_phy_get` calls them. -/
structure Host (Node Module Phy : Type) where
  ofParsePhandleWithArgs : Node → Int → Option Node
  isUsbNopXceiv : Node → Bool
  ofDeviceIsAvailable : Node → Bool
  isLive : Module → Bool
  ofXlate : PhyProvider Node Module → Node → Except Errno Phy

variable {Node Module Phy : Type} [DecidableEq Node] [DecidableEq Module]

/-- The counts of references on nodes and modules, or what is added to them. -/
abbrev Refs (Node Module : Type) := Node ⊕ Module → Int

/-- A reference on a node, or none for a null pointer. -/
def nodeRef (node : Option Node) : Refs Node Module :=
  node.elim 0 fun node => Pi.single (.inl node) 1

/-- A reference on a module, or none for code that is built in. -/
def moduleRef (owner : Option Module) : Refs Node Module :=
  owner.elim 0 fun owner => Pi.single (.inr owner) 1

/-- `for_each_child_of_node`, left at the node: the next child is taken before the last is put. -/
def searchChildren (node : Node) :
    List Node → Option Node → Refs Node Module → Bool × Refs Node Module
  | [], child, refs => (false, refs - nodeRef child)
  | next :: rest, child, refs =>
    let refs := refs + nodeRef next - nodeRef child
    if next = node then (true, refs) else searchChildren node rest next refs

def ofPhyProviderLookup (node : Node) : List (PhyProvider Node Module) → Refs Node Module →
    Option (PhyProvider Node Module) × Refs Node Module
  | [], refs => (none, refs)
  | phyProvider :: rest, refs =>
    if phyProvider.ofNode = some node then (some phyProvider, refs) else
    match searchChildren node phyProvider.children none refs with
    | (true, refs) => (some phyProvider, refs)
    | (false, refs) => ofPhyProviderLookup node rest refs

/-- `_of_phy_get`. -/
def ofPhyGet (host : Host Node Module Phy) (providers : List (PhyProvider Node Module))
    (np : Node) (index : Int) (refs : Refs Node Module) : Except Errno Phy × Refs Node Module :=
  match host.ofParsePhandleWithArgs np index with
  | none => (.error .enodev, refs)
  | some node =>
    let refs := refs + nodeRef node
    if host.isUsbNopXceiv node then (.error .enodev, refs) else
    match ofPhyProviderLookup node providers refs with
    | (none, refs) => (.error .eprobeDefer, refs - nodeRef node)
    | (some phyProvider, refs) =>
      if ¬ phyProvider.owner.all host.isLive then (.error .eprobeDefer, refs - nodeRef node) else
      let refs := refs + moduleRef phyProvider.owner
      let phy := if ¬ host.ofDeviceIsAvailable node then .error .enodev
        else host.ofXlate phyProvider node
      (phy, refs - moduleRef phyProvider.owner - nodeRef node)

/-- The provider answers for the node, as its own or as one of its children. -/
def PhyProvider.Serves (node : Node) (phyProvider : PhyProvider Node Module) : Prop :=
  phyProvider.ofNode = some node ∨ node ∈ phyProvider.children

instance (node : Node) (phyProvider : PhyProvider Node Module) :
    Decidable (phyProvider.Serves node) := inferInstanceAs (Decidable (_ ∨ _))

variable (node : Node) (providers : List (PhyProvider Node Module)) (refs : Refs Node Module)

theorem searchChildren_eq (children : List Node) (child : Option Node) :
    searchChildren node children child refs =
      (decide (node ∈ children),
        refs - nodeRef child + if node ∈ children then nodeRef node else 0) := by
  induction children generalizing child refs with
  | nil => simp [searchChildren]
  | cons next rest inductionHypothesis =>
    rw [searchChildren]
    by_cases same : next = node
    · simp [same, add_sub_right_comm]
    · have : node ≠ next := Ne.symm same
      simp only [if_neg same, inductionHypothesis]
      simp [this, add_sub_right_comm]

/-- The lookup finds the first provider that serves the node, and keeps a reference on the node
if it found it among the children. -/
theorem ofPhyProviderLookup_eq : ofPhyProviderLookup node providers refs =
      let found := providers.find? fun phyProvider => phyProvider.Serves node
      (found, refs + if found.any (·.ofNode ≠ some node) then nodeRef node else 0) := by
  induction providers with
  | nil => simp [ofPhyProviderLookup]
  | cons phyProvider rest inductionHypothesis =>
    simp only [ofPhyProviderLookup, searchChildren_eq]
    by_cases own : phyProvider.ofNode = some node
    · simp [own, PhyProvider.Serves]
    · by_cases isChild : node ∈ phyProvider.children
      · simp [own, isChild, PhyProvider.Serves, nodeRef]
      · simp [own, isChild, PhyProvider.Serves, nodeRef, inductionHypothesis]

/--
All references are given back exactly if the node that the property names is not compatible with
`usb-nop-xceiv`, and the first provider that serves it does not do so as one of its children.
-/
theorem ofPhyGet_neutral_iff (host : Host Node Module Phy) (np : Node) (index : Int) :
    (ofPhyGet host providers np index refs).2 = refs ↔
      ∀ node, host.ofParsePhandleWithArgs np index = some node →
        host.isUsbNopXceiv node = false ∧ ∀ phyProvider,
          providers.find? (·.Serves node) = some phyProvider → phyProvider.ofNode = some node := by
  have taken (node : Node) : (nodeRef node : Refs Node Module) ≠ 0 := by simp [nodeRef]
  rw [ofPhyGet]
  cases host.ofParsePhandleWithArgs np index with
  | none => simp
  | some node =>
    cases nop : host.isUsbNopXceiv node with
    | true => simp [nop, taken]
    | false =>
      simp only [ofPhyProviderLookup_eq]
      cases found : providers.find? (·.Serves node) with
      | none => simp [found, nop]
      | some phyProvider =>
        by_cases own : phyProvider.ofNode = some node <;>
          simp [own, found, nop, taken, apply_ite Prod.snd]

/-- The property of every node names node 1. -/
def sampleHost (isUsbNopXceiv : Bool) : Host Nat Unit Unit where
  ofParsePhandleWithArgs _ _ := some 1
  isUsbNopXceiv _ := isUsbNopXceiv
  ofDeviceIsAvailable _ := true
  isLive _ := true
  ofXlate _ _ := .ok ()

/-- A reference on node 1 is left, as it is compatible with `usb-nop-xceiv` or a child. -/
theorem ofPhyGet_leaks :
    (ofPhyGet (sampleHost true) [] 0 0 0).2 (.inl 1) = 1 ∧
      (ofPhyGet (sampleHost false) [⟨some 2, [1], none⟩] 0 0 0).2 (.inl 1) = 1 := by
  decide

end StudyNotes.Phy
