/-
This file proves that on a well-formed block `unflatten_dt_node` is a recursion
over the tree.

The source walks by offsets: a static depth counter, shared by all levels, and
the offset that `fdt_next_node` leaves decide when a level is done. Here the
same arena operations are driven by the tree itself, and the walk is proved to
do exactly those, in both passes and from any memory.
-/

import StudyNotes.DeviceTree.Tokens
import StudyNotes.DeviceTree.Unflatten

namespace StudyNotes.DeviceTree

open Library

/-! ### Building from the tree -/

section Build

variable (blob : Blob) (abi : Abi) (filling : Bool)

/-- The record of a node with its properties and its name; its address comes first. -/
def buildRecord (name : List (BitVec 8)) (properties : List FdtProperty) (dad : Option Nat)
    (fpsize : Nat) (arena : Arena) : Nat × Arena :=
  let size := pathSize name fpsize
  let (np, arena) := addNode abi filling arena dad size
  (np, fixUpName abi filling size.pathp (properties.foldl (addProperty blob abi filling np)
    { hasName := false, prevPp := .ofNode np, arena }))

mutual

/-- What the walk over a node and everything below it does to the arena. -/
def Node.build : Node FdtProperty → Option Nat → Nat → Arena → Arena
  | .mk name properties children, dad, fpsize, arena =>
    let (np, arena) := buildRecord blob abi filling name properties dad fpsize arena
    buildForest children (some np) (pathSize name fpsize).fpsize arena

/-- Build several trees below one node. -/
def buildForest : List (Node FdtProperty) → Option Nat → Nat → Arena → Arena
  | [], _, _, arena => arena
  | node :: rest, dad, fpsize, arena =>
    buildForest rest dad fpsize (node.build dad fpsize arena)

end

end Build

/-! ### The record of a node -/

section Walk

variable {blob : Blob} (abi : Abi) (filling : Bool) {fuel : Nat} {properties : List FdtProperty}
  {token : Token} {u : Int}

section

variable {tokens rest : List Token}
  (spells : Spells tokens (properties.map .prop ++ token :: rest))
  (stops : token.tag = .beginNode ∨ token.tag = .endNode) (enough : tokens.length < fuel)
include spells stops enough

/-- The loop over the properties sees each property of the node once, in order. -/
theorem propertyLoop_foldl (np : Nat) {turns : Nat} (ahead : Ahead blob u tokens)
    (enoughTurns : tokens.length < turns) (state : PropertyWalk) :
    (do let offset ← nextprop blob fuel u
        loop (propertyTurn blob abi filling fuel np) turns (offset, state)) =
      some (properties.foldl (addProperty blob abi filling np) state) := by
  induction properties generalizing u tokens turns state with
  | nil =>
    obtain ⟨turns, rfl⟩ : ∃ less, turns = less + 1 := ⟨turns - 1, by omega⟩
    rw [ahead.nextprop_stop spells stops enough]
    have turn : propertyTurn blob abi filling fuel np (-fdtErrNotfound, state) =
        some (.done state) := by
      rw [propertyTurn, if_pos (show -fdtErrNotfound < 0 by decide)]
    exact loop_done turn turns
  | cons property properties inductionHypothesis =>
    obtain ⟨turns, rfl⟩ : ∃ less, turns = less + 1 := ⟨turns - 1, by omega⟩
    obtain ⟨v, later, aheadLater, spellsLater, shorter, found⟩ := ahead.nextprop_prop spells
    have check : fdtCheckPropOffset blob v = some (v + (Token.prop property).size) :=
      aheadLater.checkTagOffset
    have onward := inductionHypothesis spellsLater (by omega) (aheadLater.tail (by simp))
      (show later.length < turns by omega) (addProperty blob abi filling np state property)
    cases next : nextprop blob fuel (v + (Token.prop property).size) with
    | none => simp [next] at onward
    | some offset =>
      have turn : propertyTurn blob abi filling fuel np (v, state) =
          some (.again (offset, addProperty blob abi filling np state property)) := by
        have inside := aheadLater.nonneg
        have insideNext := aheadLater.next_nonneg.1
        rw [propertyTurn, if_neg (by simpa using inside)]
        simp only [aheadLater.fdtGetpropByOffset, fdtNextPropertyOffset, check,
          Option.bind_eq_bind, Option.bind_some]
        rw [if_neg (by omega), next]
        rfl
      rw [found fuel enough]
      rw [next] at onward
      exact (loop_again turn turns).trans onward

/-- What the walk does about a node before it goes to the children. -/
theorem enterNode_build {name : List (BitVec 8)} (ahead : Ahead blob u (.beginNode name :: tokens))
    (arena : Arena) (dad : Option Nat) (fpsize : Nat) :
    enterNode blob abi filling fuel u arena dad (pathSize name fpsize) =
      some (buildRecord blob abi filling name properties dad fpsize arena) := by
  have check : fdtCheckNodeOffset blob u = some (u + (Token.beginNode name).size) :=
    ahead.checkTagOffset
  have inside := ahead.next_nonneg.1
  have walked := propertyLoop_foldl abi filling spells stops enough
    (addNode abi filling arena dad (pathSize name fpsize)).1 (ahead.tail (by simp)) enough
    { hasName := false
      prevPp := .ofNode (addNode abi filling arena dad (pathSize name fpsize)).1
      arena := (addNode abi filling arena dad (pathSize name fpsize)).2 }
  simp only [enterNode, fdtFirstPropertyOffset, check, Option.bind_eq_bind, Option.bind_some]
    at walked ⊢
  rw [if_neg (by omega), ← Option.bind_assoc, walked]
  rfl

end

/-! ### The depth counter -/

theorem seek_depth_le (u depth : Int) (tokens : List Token) :
    (seek u depth tokens).2 ≤ depth + 1 := by
  induction tokens generalizing u depth with
  | nil => exact Int.le_add_one (Int.le_refl depth)
  | cons token rest inductionHypothesis =>
    cases token with
    | beginNode name => exact Int.le_refl _
    | fin => exact Int.le_add_one (Int.le_refl depth)
    | prop property | nop => exact inductionHypothesis _ _
    | endNode =>
      rw [seek]
      split
      · exact Int.le_trans (Int.sub_le_self depth (by decide)) (Int.le_add_one (Int.le_refl depth))
      · have := inductionHypothesis (u + 4) (depth - 1)
        omega

/-- Where `fdt_next_node` gets to from the end of a node. -/
def leave (u depth : Int) (tokens : List Token) : Int × Int :=
  if depth - 1 < 0 then (u, depth - 1) else seek u (depth - 1) tokens

theorem leave_depth_le (u depth : Int) (tokens : List Token) :
    (leave u depth tokens).2 ≤ depth := by
  unfold leave
  split
  · exact Int.sub_le_self depth (by decide)
  · have := seek_depth_le u (depth - 1) tokens
    omega

/-- The variables of the walk at a position. -/
def Walk.found (arena : Arena) (position : Int × Int) : Walk where
  arena
  poffset := position.1
  depth := if position.2 < 0 then 0 else position.2

theorem childTurn_child (call : Walk → Option Walk) {depth : Int} (pos : 0 < u) (nonneg : 0 ≤ depth)
    (arena : Arena) :
    childTurn call depth (.found arena (u, depth + 1)) =
      (call { arena, poffset := u, depth := depth + 1 }).map .again := by
  have same : Walk.found arena (u, depth + 1) = { arena, poffset := u, depth := depth + 1 } := by
    rw [Walk.found, if_neg (by omega)]
  rw [childTurn, same, if_pos ⟨pos, Int.lt_succ depth⟩]

/-! ### The walk -/

theorem Node.tokens_append (node : Node FdtProperty) (rest : List Token) :
    node.tokens ++ rest = .beginNode node.name ::
      (node.properties.map .prop ++ (forestTokens node.children ++ .endNode :: rest)) := by
  cases node
  simp [Node.tokens, Node.name, Node.properties, Node.children]

/-- After the properties of a node comes a child or the end. -/
theorem forestTokens_head (children : List (Node FdtProperty)) (rest : List Token) :
    ∃ token more, forestTokens children ++ .endNode :: rest = token :: more ∧
      (token.tag = .beginNode ∨ token.tag = .endNode) := by
  cases children with
  | nil => exact ⟨_, _, rfl, .inr rfl⟩
  | cons child others =>
    rw [forestTokens, List.append_assoc, Node.tokens_append]
    exact ⟨_, _, rfl, .inl rfl⟩

mutual

/-- On the tokens of a node the walk builds the node, and goes on where the node was left. -/
theorem Node.unflattenDtNode_build (node : Node FdtProperty)
    (header : fdtCheckHeader blob = 0) {u depth : Int} {level : Nat} {tokens rest : List Token}
    (ahead : Ahead blob u (.beginNode node.name :: tokens))
    (spells : Spells tokens
      (node.properties.map .prop ++ (forestTokens node.children ++ .endNode :: rest)))
    (named : ∀ name ∈ node.names, name.length < fuel) (enough : tokens.length < fuel)
    (deep : node.tokens.length ≤ level) (nonneg : 0 ≤ depth) (arena : Arena) (dad : Option Nat)
    (fpsize : Nat) :
    ∃ v later, Ahead blob v later ∧ Spells later rest ∧ later.length ≤ tokens.length ∧ u < v ∧
      unflattenDtNode blob abi filling fuel level { arena, poffset := u, depth } dad fpsize =
        some (.found (node.build blob abi filling dad fpsize arena) (leave v depth later)) := by
  match node with
  | .mk name properties children =>
    obtain ⟨level, rfl⟩ : ∃ less, level = less + 1 := ⟨level - 1, by
      simp only [Node.tokens, List.length_cons] at deep
      omega⟩
    simp only [Node.name, Node.properties, Node.children] at ahead spells
    have after := ahead.tail (by simp)
    obtain ⟨token, more, same, stops⟩ := forestTokens_head children rest
    have entered := enterNode_build abi filling (same ▸ spells) stops enough ahead arena dad fpsize
    obtain ⟨v, middle, aheadMiddle, spellsMiddle, le, shorter, seeks⟩ :=
      after.seek_properties spells
    have inside := ahead.nonneg
    have size := ahead.at_.1.size_ge
    obtain ⟨w, later, aheadLater, spellsLater, shorter', le', walked⟩ :=
      childLoop_build children header aheadMiddle spellsMiddle (by omega)
        (fun name member => named name (List.mem_cons_of_mem _ member)) (by omega)
        (show middle.length < fuel by omega)
        (show (forestTokens children).length ≤ level by
          simp only [Node.tokens, List.length_cons, List.length_append] at deep
          omega)
        nonneg (buildRecord blob abi filling name properties dad fpsize arena).2
        (buildRecord blob abi filling name properties dad fpsize arena).1
        (pathSize name fpsize).fpsize
    refine ⟨w, later, aheadLater, spellsLater, by omega, by omega, ?_⟩
    have next : fdtNextNode blob fuel u depth = some (seek v depth middle) := by
      have check : fdtCheckNodeOffset blob u = some (u + (Token.beginNode name).size) :=
        ahead.checkTagOffset
      rw [fdtNextNode, if_pos inside, check]
      simp only [Option.bind_eq_bind, Option.bind_some]
      rw [if_neg (by omega), after.nextNodeLoop enough, seeks depth]
    rw [unflattenDtNode, ahead.fdtGetName header (named name List.mem_cons_self)]
    simp only [Option.bind_eq_bind, Option.bind_some, entered, next]
    exact walked

theorem childLoop_build (children : List (Node FdtProperty)) (header : fdtCheckHeader blob = 0)
    {u depth : Int} {level turns : Nat} {tokens rest : List Token} (ahead : Ahead blob u tokens)
    (spells : Spells tokens (forestTokens children ++ .endNode :: rest)) (pos : 0 < u)
    (named : ∀ name ∈ forestNames children, name.length < fuel) (enough : tokens.length < fuel)
    (enoughTurns : tokens.length < turns) (deep : (forestTokens children).length ≤ level)
    (nonneg : 0 ≤ depth) (arena : Arena) (np fpsize : Nat) :
    ∃ v later, Ahead blob v later ∧ Spells later rest ∧ later.length < tokens.length ∧ u < v ∧
      loop
        (childTurn
          (fun walk => unflattenDtNode blob abi filling fuel level walk (some np) fpsize) depth)
        turns (.found arena (seek u depth tokens)) =
        some (.found (buildForest blob abi filling children (some np) fpsize arena)
          (leave v depth later)) := by
  obtain ⟨turns, rfl⟩ : ∃ less, turns = less + 1 := ⟨turns - 1, by omega⟩
  match children with
  | [] =>
    obtain ⟨v, later, aheadLater, spellsLater, le, shorter, seeks, -⟩ := ahead.next spells
    refine ⟨v + 4, later, aheadLater.tail (by simp), spellsLater, shorter, by omega, ?_⟩
    have left : seek u depth tokens = leave (v + 4) depth later := seeks depth
    rw [left]
    apply loop_done
    rw [childTurn, if_neg]
    · rfl
    have atMost := leave_depth_le (v + 4) depth later
    rintro ⟨-, deeper⟩
    simp only [Walk.found] at deeper
    split at deeper <;> omega
  | child :: others =>
    rw [forestTokens, List.append_assoc, Node.tokens_append] at spells
    obtain ⟨v, middle, aheadMiddle, spellsMiddle, le, shorter, seeks, -⟩ := ahead.next spells
    simp only [forestTokens, List.length_append, forestNames, List.mem_append] at deep named
    obtain ⟨w, later, aheadLater, spellsLater, shorter', le', called⟩ :=
      Node.unflattenDtNode_build child header aheadMiddle spellsMiddle
        (fun name member => named name (.inl member)) (by omega)
        (show child.tokens.length ≤ level by omega) (Int.le_add_one nonneg) arena (some np) fpsize
    rw [leave, Int.add_sub_cancel, if_neg (by omega)] at called
    obtain ⟨x, last, aheadLast, spellsLast, shorter'', le'', walked⟩ :=
      childLoop_build others header aheadLater spellsLater (by omega)
        (fun name member => named name (.inr member)) (by omega)
        (show later.length < turns by omega)
        (show (forestTokens others).length ≤ level by omega) nonneg
        (child.build blob abi filling (some np) fpsize arena) np fpsize
    refine ⟨x, last, aheadLast, spellsLast, by omega, by omega, ?_⟩
    have found : seek u depth tokens = (v, depth + 1) := seeks depth
    have turn := childTurn_child
      (fun walk => unflattenDtNode blob abi filling fuel level walk (some np) fpsize)
      (show 0 < v by omega) nonneg arena
    rw [called] at turn
    rw [found, loop_again turn]
    exact walked

end

/-! ### Both passes -/

variable (blob) (dtAlloc : Nat → Nat → Nat)

/-- What `__unflatten_device_tree` leaves for a tree. -/
def Node.unflattened (root : Node FdtProperty) : Unflattened :=
  let sizing := root.build blob abi false none 0 (sizingStart 0).arena
  let size := alignUp sizing.mem 4
  let mem := dtAlloc (size + 4) abi.alignofDeviceNode
  let filling := root.build blob abi true none 0 (fillingStart mem size 0).arena
  { sizing, filling := filling.fill true Heap.endAllnext, mem, size }

variable {blob} {tokens : List Token} {root : Node FdtProperty}

section

variable (wellFormed : WellFormed blob tokens root)
include wellFormed

section

variable (first : tokens.head? ≠ some .nop)
include first

/-- A block that does not start with a NOP starts with the root. -/
theorem WellFormed.root_first :
    ∃ rest, tokens = .beginNode root.name :: rest ∧ Spells rest
      (root.properties.map .prop ++ (forestTokens root.children ++ .endNode :: [.fin])) := by
  have spells := wellFormed.spells
  rw [Node.tokens_append] at spells
  match tokens with
  | [] => cases spells
  | token :: rest =>
    have counts : token.counts = true := by simpa [Token.counts] using first
    unfold Spells at spells
    rw [List.filter_cons_of_pos counts] at spells
    obtain ⟨rfl, later⟩ := List.cons.inj spells
    exact ⟨rest, rfl, later⟩

/-- A pass over a well-formed block that starts with the root. -/
theorem WellFormed.unflattenDtNode_root (enough : 2 ^ 31 ≤ fuel) (arena : Arena) :
    ∃ v, unflattenDtNode blob abi filling fuel fuel { arena, poffset := 0, depth := 0 } none 0 =
      some { arena := root.build blob abi filling none 0 arena, poffset := v, depth := 0 } := by
  obtain ⟨rest, rfl, spells⟩ := wellFormed.root_first first
  obtain ⟨short, shortRoot, shortNames⟩ := wellFormed.room
  rw [List.length_cons] at short
  obtain ⟨v, later, -, -, -, -, walked⟩ :=
    root.unflattenDtNode_build abi filling wellFormed.header wellFormed.ahead spells
      (fun name member => by
        have := root.length_lt_nameBytes member
        omega)
      (show rest.length < fuel by omega) (show root.tokens.length ≤ fuel by omega)
      (Int.le_refl 0) arena none 0
  exact ⟨v, walked⟩

/-- On a well-formed block that starts with the root, `__unflatten_device_tree` builds the
tree. -/
theorem unflattenDeviceTree_build (enough : 2 ^ 31 ≤ fuel) :
    unflattenDeviceTree blob abi dtAlloc fuel 0 =
      some (some (root.unflattened blob abi dtAlloc)) := by
  have pass := fun filling arena =>
    wellFormed.unflattenDtNode_root abi filling first enough arena
  obtain ⟨v, sizing⟩ := pass false (sizingStart 0).arena
  have sized : unflattenDtNode blob abi false fuel fuel (sizingStart 0) none 0 = _ := sizing
  rw [unflattenDeviceTree, if_neg (by simp [wellFormed.header]), sized]
  simp only [Option.bind_eq_bind, Option.bind_some, Node.unflattened]
  generalize root.build blob abi false none 0 (sizingStart 0).arena = sizing
  obtain ⟨w, filling⟩ := pass true
    (fillingStart (dtAlloc (alignUp sizing.mem 4 + 4) abi.alignofDeviceNode)
      (alignUp sizing.mem 4) 0).arena
  have filled : unflattenDtNode blob abi true fuel fuel
    (fillingStart (dtAlloc (alignUp sizing.mem 4 + 4) abi.alignofDeviceNode)
      (alignUp sizing.mem 4) 0) none 0 = _ := filling
  rw [filled]
  rfl

end

/-- A NOP in front of the root hides the tree: nothing is built. -/
theorem unflattenDeviceTree_hidden (hidden : tokens.head? = some .nop) (pos : 0 < fuel) :
    unflattenDeviceTree blob abi dtAlloc fuel 0 = some (some {
      sizing := (sizingStart 0).arena
      filling := (fillingStart (dtAlloc 4 abi.alignofDeviceNode) 0 0).arena.fill true
        Heap.endAllnext
      mem := dtAlloc 4 abi.alignofDeviceNode
      size := 0 }) := by
  obtain ⟨rest, rfl⟩ : ∃ rest, tokens = .nop :: rest := by
    cases tokens with
    | nil => cases hidden
    | cons token rest => exact ⟨rest, by rw [Option.some.inj hidden]⟩
  obtain ⟨fuel, rfl⟩ : ∃ less, fuel = less + 1 := ⟨fuel - 1, by omega⟩
  have check : fdtCheckNodeOffset blob 0 = some (-fdtErrBadoffset) := by
    rw [fdtCheckNodeOffset, checkTagOffset, if_neg (by simp), wellFormed.ahead.fdtNextTag]
    rfl
  have name : fdtGetName blob (fuel + 1) 0 = some none := by
    rw [fdtGetName, if_neg (by simp [wellFormed.header]), check]
    rfl
  have pass : ∀ filling (walk : Walk), walk.poffset = 0 →
      unflattenDtNode blob abi filling (fuel + 1) (fuel + 1) walk none 0 = some walk := by
    intro filling walk start
    rw [unflattenDtNode, start, name]
    rfl
  rw [unflattenDeviceTree, if_neg (by simp [wellFormed.header]), pass false _ rfl]
  simp only [Option.bind_eq_bind, Option.bind_some]
  rw [pass true _ rfl]
  rfl

end

end Walk

end StudyNotes.DeviceTree
