/-
This file says what a well-formed structure block is and how the walks go over
it. The block is a row of tokens; without the NOPs, the tokens are those of a
tree. On such a block `fdt_next_tag` steps from token to token, and the walks
to the next property and to the next node skip what the tokens say.
-/

import StudyNotes.DeviceTree.Blob

namespace StudyNotes.DeviceTree

open Library

/-! ### Tokens -/

/-- A tag with what belongs to it: the name of a node, or the place of a property. -/
inductive Token where
  | beginNode (name : List (BitVec 8))
  | endNode
  | prop (property : FdtProperty)
  | nop
  | fin
  deriving DecidableEq, Repr

/-- The tag that a token starts with. -/
def Token.tag : Token → Tag
  | .beginNode _ => .beginNode
  | .endNode => .endNode
  | .prop _ => .prop
  | .nop => .nop
  | .fin => .fin

/-- The bytes of a token before the padding. -/
def Token.extent : Token → Int
  | .beginNode name => 4 + name.length + 1
  | .prop property => 12 + property.len
  | _ => 4

/-- The bytes of a token with its padding. -/
def Token.size (token : Token) : Int := (token.extent + 3) / 4 * 4

/-- A string with its terminator. -/
def TextAt (blob : Blob) : Int → List (BitVec 8) → Prop
  | p, [] => blob.byte p = 0
  | p, byte :: rest => blob.byte p = byte ∧ byte ≠ 0 ∧ TextAt blob (p + 1) rest

/-- The property whose tag is at an offset. -/
def propertyAt (blob : Blob) (u : Int) : FdtProperty where
  data := fdtOffDtStruct blob + u + 12
  name := fdtString blob (fdt32 blob (fdtOffDtStruct blob + u + 8))
  len := fdt32 blob (fdtOffDtStruct blob + u + 4)

/-- A token lies at an offset. -/
def Token.At (blob : Blob) (u : Int) : Token → Prop
  | .beginNode name =>
    fdt32 blob (fdtOffDtStruct blob + u) = 1 ∧ TextAt blob (fdtOffDtStruct blob + u + 4) name
  | .endNode => fdt32 blob (fdtOffDtStruct blob + u) = 2
  | .prop property => fdt32 blob (fdtOffDtStruct blob + u) = 3 ∧ property = propertyAt blob u
  | .nop => fdt32 blob (fdtOffDtStruct blob + u) = 4
  | .fin => fdt32 blob (fdtOffDtStruct blob + u) = 9

/-- The block reaches up to an offset, and the offset is an `int`. -/
def Fits (blob : Blob) (u : Int) : Prop :=
  u < 2 ^ 31 ∧ (0x11 ≤ fdtVersion blob → u ≤ fdtSizeDtStruct blob)

/-- Tokens lie one after the other from an offset on. -/
def TokensAt (blob : Blob) : Int → List Token → Prop
  | u, [] => Fits blob u
  | u, token :: rest => token.At blob u ∧ TokensAt blob (u + token.size) rest

instance TextAt.decidable (blob : Blob) : ∀ p text, Decidable (TextAt blob p text)
  | p, [] => inferInstanceAs (Decidable (blob.byte p = 0))
  | p, byte :: rest =>
    have := TextAt.decidable blob (p + 1) rest
    inferInstanceAs (Decidable (blob.byte p = byte ∧ byte ≠ 0 ∧ TextAt blob (p + 1) rest))

instance Token.At.decidable (blob : Blob) (u : Int) : ∀ token, Decidable (Token.At blob u token)
  | .beginNode name => inferInstanceAs (Decidable (_ ∧ TextAt blob _ name))
  | .endNode => inferInstanceAs (Decidable (fdt32 blob (fdtOffDtStruct blob + u) = 2))
  | .prop property => inferInstanceAs (Decidable (_ ∧ property = propertyAt blob u))
  | .nop => inferInstanceAs (Decidable (fdt32 blob (fdtOffDtStruct blob + u) = 4))
  | .fin => inferInstanceAs (Decidable (fdt32 blob (fdtOffDtStruct blob + u) = 9))

instance Fits.decidable (blob : Blob) (u : Int) : Decidable (Fits blob u) :=
  inferInstanceAs (Decidable (_ ∧ (_ → _)))

instance TokensAt.decidable (blob : Blob) : ∀ u tokens, Decidable (TokensAt blob u tokens)
  | u, [] => inferInstanceAs (Decidable (Fits blob u))
  | u, token :: rest =>
    have := TokensAt.decidable blob (u + token.size) rest
    inferInstanceAs (Decidable (token.At blob u ∧ TokensAt blob (u + token.size) rest))

/-- The rest of a walk: an aligned offset, and the tokens from there to the end of the tree. -/
structure Ahead (blob : Blob) (u : Int) (tokens : List Token) : Prop where
  nonneg : 0 ≤ u
  aligned : u % 4 = 0
  at_ : TokensAt blob u tokens
  ended : Token.fin ∈ tokens

variable {tokens : List Token}

section Tokens

variable {blob : Blob} {token : Token} {u : Int} {rest : List Token} {fuel : Nat}
  {property : FdtProperty}

theorem Token.At.extent_ge (at_ : token.At blob u) : 4 ≤ token.extent := by
  cases token with
  | beginNode name => simp only [Token.extent]; omega
  | prop property =>
    obtain ⟨-, rfl⟩ := at_
    have := (fdt32_bounds blob (fdtOffDtStruct blob + u + 4)).1
    simp only [Token.extent, propertyAt]
    omega
  | endNode | nop | fin => exact Int.le_refl 4

theorem Token.At.size_ge (at_ : token.At blob u) : 4 ≤ token.size := by
  have := at_.extent_ge
  unfold Token.size
  omega

theorem Fits.mono {u v : Int} (fits : Fits blob v) (le : u ≤ v) : Fits blob u :=
  ⟨Int.lt_of_le_of_lt le fits.1, fun recent => Int.le_trans le (fits.2 recent)⟩

theorem TokensAt.fits (at_ : TokensAt blob u tokens) : Fits blob u := by
  induction tokens generalizing u with
  | nil => exact at_
  | cons token rest inductionHypothesis =>
    have := at_.1.size_ge
    exact (inductionHypothesis at_.2).mono (by omega)

theorem Ahead.tail (ahead : Ahead blob u (token :: rest)) (inside : token ≠ .fin) :
    Ahead blob (u + token.size) rest := by
  obtain ⟨nonneg, aligned, ⟨here, later⟩, ended⟩ := ahead
  have := here.size_ge
  refine ⟨by omega, ?_, later, ?_⟩
  · unfold Token.size
    omega
  · exact (List.mem_cons.mp ended).resolve_left (Ne.symm inside)

/-! ### One tag -/

theorem fdtOffsetPtr_fits {offset len e : Int} (fits : Fits blob e) (nonneg : 0 ≤ offset)
    (low : 0 ≤ len) (within : offset + len ≤ e) :
    fdtOffsetPtr blob offset len = some (fdtOffDtStruct blob + offset) := by
  obtain ⟨high, inside⟩ := fits
  have sum : uint32 (offset + len) = offset + len := by
    unfold uint32
    omega
  have start : uint32 offset = offset := by
    unfold uint32
    omega
  rw [fdtOffsetPtr, sum, start, if_neg]
  · rfl
  · rintro ⟨recent, before | beyond⟩
    · omega
    · omega

variable {text : List (BitVec 8)} {tokens rest : List Token}

/-- A name that lies in the block is skipped to its terminator. -/
theorem skipName_text {offset : Int} (at_ : TextAt blob (fdtOffDtStruct blob + offset) text)
    (nonneg : 0 ≤ offset) (fits : Fits blob (offset + text.length + 1))
    (enough : text.length < fuel) :
    loop (skipNameTurn blob) fuel offset = some (some (offset + text.length + 1)) := by
  induction text generalizing fuel offset with
  | nil =>
    obtain ⟨fuel, rfl⟩ : ∃ less, fuel = less + 1 := ⟨fuel - 1, by simp at enough; omega⟩
    simp only [List.length_nil, Int.natCast_zero, Int.add_zero] at fits ⊢
    refine loop_done ?_ fuel
    rw [skipNameTurn, fdtOffsetPtr_fits fits nonneg (by decide) (Int.le_refl _)]
    simp only [if_pos (show blob.byte (fdtOffDtStruct blob + offset) = 0 from at_)]
    rw [int32_of_lt (by omega) fits.1]
  | cons byte rest inductionHypothesis =>
    obtain ⟨fuel, rfl⟩ : ∃ less, fuel = less + 1 := ⟨fuel - 1, by simp at enough; omega⟩
    obtain ⟨here, nonzero, later⟩ := at_
    have length : (((byte :: rest).length : Nat) : Int) = rest.length + 1 := by simp
    rw [length] at fits ⊢
    have turn : skipNameTurn blob offset = some (.again (offset + 1)) := by
      rw [skipNameTurn, fdtOffsetPtr_fits fits nonneg (by decide) (by omega)]
      simp only [here, if_neg nonzero]
      rw [int32_of_lt (by omega) (by have := fits.1; omega)]
    have same : offset + (rest.length + 1) + 1 = offset + 1 + rest.length + 1 := by omega
    rw [same] at fits ⊢
    rw [Int.add_assoc] at later
    rw [loop_again turn]
    exact inductionHypothesis later (by omega) fits (by simpa using enough)

theorem Token.At.word (at_ : token.At blob u) :
    Tag.ofWord (fdt32 blob (fdtOffDtStruct blob + u)) = some token.tag := by
  cases token with
  | beginNode name | prop property => rw [at_.1]; rfl
  | endNode => rw [show fdt32 blob (fdtOffDtStruct blob + u) = 2 from at_]; rfl
  | nop => rw [show fdt32 blob (fdtOffDtStruct blob + u) = 4 from at_]; rfl
  | fin => rw [show fdt32 blob (fdtOffDtStruct blob + u) = 9 from at_]; rfl

/-- The `switch` of `fdt_next_tag` finds the end of a token. -/
theorem tagEnd_token (at_ : token.At blob u) (nonneg : 0 ≤ u)
    (fits : Fits blob (u + token.extent)) :
    tagEnd blob token.tag (u + 4) = some (some (u + token.extent)) := by
  have high := fits.1
  cases token with
  | beginNode name =>
    obtain ⟨-, text⟩ := at_
    simp only [Token.extent] at fits high ⊢
    rw [Token.tag, tagEnd, skipName]
    have same : u + (4 + name.length + 1) = u + 4 + name.length + 1 := by omega
    rw [same] at fits ⊢
    rw [Int.add_assoc] at text
    exact skipName_text text (by omega) fits (by omega)
  | prop property =>
    obtain ⟨-, rfl⟩ := at_
    have length := (fdt32_bounds blob (fdtOffDtStruct blob + u + 4)).1
    simp only [Token.extent, propertyAt] at fits high ⊢
    rw [Token.tag, tagEnd, fdtOffsetPtr_fits fits (by omega) (by decide) (by omega)]
    simp only
    rw [← Int.add_assoc (fdtOffDtStruct blob), int32_of_lt (by omega) (by omega)]
    congr 2
    omega
  | endNode | nop | fin => rfl

section

variable (ahead : Ahead blob u (token :: rest))
include ahead

/-- On a well-formed block `fdt_next_tag` steps from token to token. -/
theorem Ahead.fdtNextTag : fdtNextTag blob u = some (token.tag, u + token.size) := by
  obtain ⟨nonneg, aligned, ⟨here, later⟩, -⟩ := ahead
  have fits := later.fits
  have extent := here.extent_ge
  have fitsExtent : Fits blob (u + token.extent) := fits.mono (by unfold Token.size; omega)
  have high := fitsExtent.1
  rw [DeviceTree.fdtNextTag, fdtOffsetPtr_fits fitsExtent nonneg (by decide) (by omega),
    int32_of_lt (by omega) (by omega)]
  simp only [here.word, tagEnd_token here nonneg fitsExtent]
  have distance : uint32 (u + token.extent - u) = token.extent := by
    unfold uint32
    omega
  have next : fdtTagalign (u + token.extent) = u + token.size := by
    have := fits.1
    unfold fdtTagalign Token.size at *
    rw [int32_of_lt (by omega) (by omega)]
    omega
  rw [acceptTag, distance, fdtOffsetPtr_fits fitsExtent nonneg (by omega) (Int.le_refl _)]
  simp only [next]

theorem Ahead.next_nonneg : 0 ≤ u + token.size ∧ u + token.size < 2 ^ 31 := by
  have := ahead.nonneg
  have := ahead.at_.1.size_ge
  exact ⟨by omega, ahead.at_.2.fits.1⟩

theorem Ahead.checkTagOffset : checkTagOffset blob token.tag u = some (u + token.size) := by
  have bad : ¬ (u < 0 ∨ u % 4 ≠ 0) := by
    have := ahead.nonneg
    have := ahead.aligned
    omega
  rw [DeviceTree.checkTagOffset, if_neg bad, ahead.fdtNextTag]
  simp

end

/-! ### Skipping NOPs -/

/-- A token that is not a NOP. -/
def Token.counts (token : Token) : Bool := token ≠ .nop

/-- The tokens from here on without the NOPs. -/
def Spells (tokens rest : List Token) : Prop := tokens.filter Token.counts = rest

theorem Spells.eq (spells : Spells tokens rest) :
    tokens.filter Token.counts = rest := spells

/-- What a walk to the next node does with the tokens from an offset on. -/
def seek : Int → Int → List Token → Int × Int
  | u, depth, [] => (u, depth)
  | u, depth, .beginNode _ :: _ => (u, depth + 1)
  | u, depth, .endNode :: rest =>
    if depth - 1 < 0 then (u + 4, depth - 1) else seek (u + 4) (depth - 1) rest
  | _, depth, .fin :: _ => (-fdtErrNotfound, depth)
  | u, depth, .prop property :: rest => seek (u + (Token.prop property).size) depth rest
  | u, depth, .nop :: rest => seek (u + 4) depth rest

theorem size_endNode : Token.endNode.size = 4 := rfl

theorem size_nop : Token.nop.size = 4 := rfl

/-- The loop of `fdt_next_node` on a well-formed block. -/
theorem Ahead.nextNodeLoop {u depth : Int} (ahead : Ahead blob u tokens)
    (enough : tokens.length < fuel) :
    loop (nextNodeTurn blob) fuel (u, depth) = some (seek u depth tokens) := by
  induction tokens generalizing u depth fuel with
  | nil => exact absurd ahead.ended List.not_mem_nil
  | cons token rest inductionHypothesis =>
    obtain ⟨fuel, rfl⟩ : ∃ less, fuel = less + 1 := ⟨fuel - 1, by omega⟩
    have fewer : rest.length < fuel := by simpa using enough
    have tag := ahead.fdtNextTag
    have onward : ∀ depth', token ≠ .fin →
        nextNodeTurn blob (u, depth) = some (.again (u + token.size, depth')) →
        loop (nextNodeTurn blob) (fuel + 1) (u, depth) =
          some (seek (u + token.size) depth' rest) := by
      intro depth' inside turn
      rw [loop_again turn, inductionHypothesis (ahead.tail inside) fewer]
    cases token with
    | beginNode name => exact loop_done (by simp [nextNodeTurn, tag, Token.tag, seek]) fuel
    | fin =>
      have := ahead.next_nonneg.1
      exact loop_done (by simp [nextNodeTurn, tag, Token.tag, seek, this]) fuel
    | prop property | nop => exact onward depth (by simp) (by simp [nextNodeTurn, tag, Token.tag])
    | endNode =>
      rw [seek]
      split
      next closed =>
        exact loop_done (by simp [nextNodeTurn, tag, Token.tag, closed, size_endNode]) fuel
      next opened =>
        exact onward (depth - 1) (by simp) (by simp [nextNodeTurn, tag, Token.tag, opened])

section

variable (ahead : Ahead blob u tokens)
include ahead

/-- The next token that counts: where it lies, and how the walks get there. -/
theorem Ahead.next (spells : Spells tokens (token :: rest)) :
    ∃ v later, Ahead blob v (token :: later) ∧ Spells later rest ∧ u ≤ v ∧
      later.length < tokens.length ∧
      (∀ depth, seek u depth tokens = seek v depth (token :: later)) ∧
      ∀ fuel, tokens.length < fuel → ∃ less, later.length < less ∧
        nextprop blob fuel u = nextprop blob (less + 1) v := by
  induction tokens generalizing u with
  | nil => cases spells
  | cons head tail inductionHypothesis =>
    by_cases counts : head.counts = true
    · unfold Spells at spells
      rw [List.filter_cons_of_pos counts] at spells
      obtain ⟨rfl, same⟩ := List.cons.inj spells
      refine ⟨u, tail, ahead, same, Int.le_refl u, by simp, fun _ => rfl, fun fuel enough => ?_⟩
      obtain ⟨less, rfl⟩ : ∃ less, fuel = less + 1 := ⟨fuel - 1, by omega⟩
      exact ⟨less, by simpa using enough, rfl⟩
    · have isNop : head = .nop := by simpa [Token.counts] using counts
      subst isNop
      have later := ahead.tail (by simp)
      have spellsTail : Spells tail (token :: rest) := by
        unfold Spells at spells ⊢
        rwa [List.filter_cons_of_neg counts] at spells
      obtain ⟨v, after, aheadAfter, spellsAfter, le, shorter, seeks, nextprops⟩ :=
        inductionHypothesis later spellsTail
      rw [size_nop] at later le seeks nextprops
      refine ⟨v, after, aheadAfter, spellsAfter, by omega, by simp; omega,
        fun depth => seeks depth, fun fuel enough => ?_⟩
      obtain ⟨fuel, rfl⟩ : ∃ less, fuel = less + 1 := ⟨fuel - 1, by omega⟩
      obtain ⟨less, isMore, same⟩ := nextprops fuel (by simpa using enough)
      refine ⟨less, isMore, ?_⟩
      have turn : nextpropTurn blob u = some (.again (u + 4)) := by
        unfold nextpropTurn
        simp only [ahead.fdtNextTag]
        rfl
      exact (loop_again turn fuel).trans same

/-! ### Walks to the next property -/

/-- The walk to the next property finds the property that comes next. -/
theorem Ahead.nextprop_prop (spells : Spells tokens (.prop property :: rest)) :
    ∃ v later, Ahead blob v (.prop property :: later) ∧ Spells later rest ∧
      later.length < tokens.length ∧
      ∀ fuel, tokens.length < fuel → nextprop blob fuel u = some v := by
  obtain ⟨v, later, aheadLater, spellsLater, -, shorter, -, nextprops⟩ := ahead.next spells
  refine ⟨v, later, aheadLater, spellsLater, shorter, fun fuel enough => ?_⟩
  obtain ⟨less, -, same⟩ := nextprops fuel enough
  rw [same]
  exact loop_done (by simp [nextpropTurn, aheadLater.fdtNextTag, Token.tag]) less

/-- The walk to the next property stops at the begin or the end of a node. -/
theorem Ahead.nextprop_stop (spells : Spells tokens (token :: rest))
    (stops : token.tag = .beginNode ∨ token.tag = .endNode) (enough : tokens.length < fuel) :
    nextprop blob fuel u = some (-fdtErrNotfound) := by
  obtain ⟨v, later, aheadLater, -, -, -, -, nextprops⟩ := ahead.next spells
  obtain ⟨less, -, same⟩ := nextprops fuel enough
  rw [same]
  rcases stops with stops | stops <;>
    exact loop_done (by simp [nextpropTurn, aheadLater.fdtNextTag, stops]) less

/-- The properties of a node are no node to stop at. -/
theorem Ahead.seek_properties {properties : List FdtProperty}
    (spells : Spells tokens (properties.map .prop ++ rest)) :
    ∃ v later, Ahead blob v later ∧ Spells later rest ∧ u ≤ v ∧ later.length ≤ tokens.length ∧
      ∀ depth, seek u depth tokens = seek v depth later := by
  induction properties generalizing u tokens with
  | nil => exact ⟨u, tokens, ahead, spells, Int.le_refl u, Nat.le_refl _, fun _ => rfl⟩
  | cons property properties inductionHypothesis =>
    obtain ⟨v, later, aheadLater, spellsLater, le, shorter, seeks, -⟩ := ahead.next spells
    obtain ⟨w, last, aheadLast, spellsLast, le', shorter', seeks'⟩ :=
      inductionHypothesis (aheadLater.tail (by simp)) spellsLater
    have size := aheadLater.at_.1.size_ge
    refine ⟨w, last, aheadLast, spellsLast, by omega, by omega, fun depth => ?_⟩
    rw [seeks depth, seek, seeks' depth]

end

theorem Ahead.fdtGetpropByOffset (ahead : Ahead blob u (.prop property :: rest)) :
    fdtGetpropByOffset blob u = some (some property) := by
  have check : fdtCheckPropOffset blob u = some (u + (Token.prop property).size) :=
    ahead.checkTagOffset
  have nonneg := ahead.next_nonneg.1
  obtain ⟨-, rfl⟩ := ahead.at_.1
  rw [DeviceTree.fdtGetpropByOffset, check]
  simp only [Option.bind_eq_bind, Option.bind_some]
  rw [if_neg (by omega)]
  rfl

/-! ### Names -/

theorem cString_text {p : Int} (at_ : TextAt blob p text) (enough : text.length < fuel) :
    cString blob fuel p = some text := by
  induction text generalizing fuel p with
  | nil =>
    obtain ⟨fuel, rfl⟩ : ∃ less, fuel = less + 1 := ⟨fuel - 1, by simp at enough; omega⟩
    exact if_pos at_
  | cons byte rest inductionHypothesis =>
    obtain ⟨fuel, rfl⟩ : ∃ less, fuel = less + 1 := ⟨fuel - 1, by simp at enough; omega⟩
    obtain ⟨here, nonzero, later⟩ := at_
    rw [cString, here, if_neg nonzero, inductionHypothesis later (by simpa using enough)]
    rfl

theorem Ahead.fdtGetName {name : List (BitVec 8)}
    (ahead : Ahead blob u (.beginNode name :: rest)) (header : fdtCheckHeader blob = 0)
    (enough : name.length < fuel) : fdtGetName blob fuel u = some (some name) := by
  have check : fdtCheckNodeOffset blob u = some (u + (Token.beginNode name).size) :=
    ahead.checkTagOffset
  have nonneg := ahead.next_nonneg.1
  rw [DeviceTree.fdtGetName, if_neg (by simp [header]), check]
  simp only [Option.bind_eq_bind, Option.bind_some]
  rw [if_neg (by omega), fdtOffsetPtrUnchecked, cString_text ahead.at_.1.2 enough]
  rfl

end Tokens

/-! ### Trees -/

/-- A node of a tree: its name, its properties of any kind, and its children. -/
inductive Node (α : Type) where
  | mk (name : List (BitVec 8)) (properties : List α) (children : List (Node α))

/-- The name of a node. -/
def Node.name {α : Type} : Node α → List (BitVec 8)
  | .mk name _ _ => name

/-- The properties of a node itself. -/
def Node.properties {α : Type} : Node α → List α
  | .mk _ properties _ => properties

/-- The nodes right below a node. -/
def Node.children {α : Type} : Node α → List (Node α)
  | .mk _ _ children => children

mutual

/-- The tokens of a node. -/
def Node.tokens : Node FdtProperty → List Token
  | .mk name properties children =>
    .beginNode name :: (properties.map .prop ++ (forestTokens children ++ [.endNode]))

/-- The tokens of nodes one after the other. -/
def forestTokens : List (Node FdtProperty) → List Token
  | [] => []
  | node :: rest => node.tokens ++ forestTokens rest

end

mutual

/-- The names of the nodes of a tree. -/
def Node.names {α : Type} : Node α → List (List (BitVec 8))
  | .mk name _ children => name :: forestNames children

/-- The names in several trees, in order. -/
def forestNames {α : Type} : List (Node α) → List (List (BitVec 8))
  | [] => []
  | node :: rest => node.names ++ forestNames rest

end

/-! ### The room that names take -/

/-- The bytes of a token's name with its terminator. -/
def Token.nameBytes : Token → Nat
  | .beginNode name => name.length + 1
  | _ => 0

mutual

/-- The bytes of all names of a tree with their terminators. -/
def Node.nameBytes {α : Type} : Node α → Nat
  | .mk name _ children => name.length + 1 + forestNameBytes children

/-- The bytes of the names in several trees. -/
def forestNameBytes {α : Type} : List (Node α) → Nat
  | [] => 0
  | node :: rest => node.nameBytes + forestNameBytes rest

end

theorem forest_sum_nameBytes (forest : List (Node FdtProperty)) :
    ((forestTokens forest).map Token.nameBytes).sum = forestNameBytes forest := by
  match forest with
  | [] => rfl
  | .mk name properties children :: rest =>
    have none : (properties.map (Token.nameBytes ∘ Token.prop)).sum = 0 := by
      induction properties with
      | nil => rfl
      | cons property properties inductionHypothesis => simpa [Token.nameBytes]
    simp [forestTokens, forestNameBytes, Node.tokens, Node.nameBytes, Token.nameBytes,
      forest_sum_nameBytes children, forest_sum_nameBytes rest, none, Nat.add_assoc]

theorem Node.sum_nameBytes (node : Node FdtProperty) :
    (node.tokens.map Token.nameBytes).sum = node.nameBytes := by
  simpa [forestTokens, forestNameBytes] using forest_sum_nameBytes [node]

theorem forest_beginNode_mem (forest : List (Node FdtProperty)) {name : List (BitVec 8)}
    (member : name ∈ forestNames forest) : Token.beginNode name ∈ forestTokens forest := by
  match forest with
  | [] => cases member
  | .mk own properties children :: rest =>
    rw [forestTokens, Node.tokens]
    rcases List.mem_append.mp member with here | later
    · rcases List.mem_cons.mp here with rfl | inside
      · exact List.mem_cons_self
      · simp [forest_beginNode_mem children inside]
    · exact List.mem_append_right _ (forest_beginNode_mem rest later)

theorem Node.beginNode_mem (node : Node FdtProperty) {name : List (BitVec 8)}
    (member : name ∈ node.names) : Token.beginNode name ∈ node.tokens := by
  simpa [forestTokens] using forest_beginNode_mem [node] (List.mem_append_left _ member)

theorem Node.length_lt_nameBytes (node : Node FdtProperty) {name : List (BitVec 8)}
    (member : name ∈ node.names) : name.length < node.nameBytes := by
  obtain ⟨front, back, tokens⟩ := List.append_of_mem (node.beginNode_mem member)
  have total := node.sum_nameBytes
  simp only [tokens, List.map_append, List.map_cons, List.sum_append, List.sum_cons,
    Token.nameBytes] at total
  omega

/-- Tokens take four bytes each, and the room for their names. -/
theorem TokensAt.room {blob : Blob} {u : Int} (at_ : TokensAt blob u tokens) :
    u + 4 * tokens.length + (tokens.map Token.nameBytes).sum < 2 ^ 31 := by
  induction tokens generalizing u with
  | nil => simpa using at_.fits.1
  | cons token rest inductionHypothesis =>
    have later := inductionHypothesis at_.2
    have size : 4 + (token.nameBytes : Int) ≤ token.size := by
      cases token with
      | beginNode name => simp only [Token.size, Token.extent, Token.nameBytes]; omega
      | prop property => exact at_.1.size_ge
      | endNode | nop | fin => exact Int.le_refl 4
    simp only [List.length_cons, List.map_cons, List.sum_cons]
    omega

theorem sum_nameBytes_filter (tokens : List Token) :
    ((tokens.filter Token.counts).map Token.nameBytes).sum =
      (tokens.map Token.nameBytes).sum := by
  induction tokens with
  | nil => rfl
  | cons token rest inductionHypothesis =>
    by_cases counts : token.counts = true
    · simp [List.filter_cons_of_pos counts, inductionHypothesis]
    · have isNop : token = .nop := by simpa [Token.counts] using counts
      subst isNop
      simp [List.filter_cons_of_neg counts, inductionHypothesis, Token.nameBytes]

/-! ### Well-formed blocks -/

/-- The header passes its check, and the structure block holds the tokens of a tree with NOPs
between them. -/
structure WellFormed (blob : Blob) (tokens : List Token) (root : Node FdtProperty) : Prop where
  header : fdtCheckHeader blob = 0
  at_ : TokensAt blob 0 tokens
  spells : Spells tokens (root.tokens ++ [.fin])

section WellFormed

variable {blob : Blob} {tokens : List Token} {token : Token} {root : Node FdtProperty}

theorem WellFormed.ahead (wellFormed : WellFormed blob tokens root) : Ahead blob 0 tokens where
  nonneg := Int.le_refl 0
  aligned := rfl
  at_ := wellFormed.at_
  ended := by
    have kept : Token.fin ∈ tokens.filter Token.counts := by simp [wellFormed.spells.eq]
    exact (List.mem_filter.mp kept).1

/-- Each token of a block lies at an offset, with the tokens after it. -/
theorem TokensAt.exists_at {u : Int} (at_ : TokensAt blob u tokens) (nonneg : 0 ≤ u)
    (member : token ∈ tokens) : ∃ v rest, 0 ≤ v ∧ TokensAt blob v (token :: rest) := by
  induction tokens generalizing u with
  | nil => cases member
  | cons first rest inductionHypothesis =>
    have size := at_.1.size_ge
    rcases List.mem_cons.mp member with rfl | later
    · exact ⟨u, rest, nonneg, at_⟩
    · exact inductionHypothesis at_.2 (by omega) later

theorem WellFormed.exists_at (wellFormed : WellFormed blob tokens root)
    (member : token ∈ root.tokens) : ∃ v rest, 0 ≤ v ∧ TokensAt blob v (token :: rest) := by
  have kept : token ∈ tokens.filter Token.counts := by simp [wellFormed.spells.eq, member]
  exact wellFormed.at_.exists_at (Int.le_refl 0) (List.mem_filter.mp kept).1

theorem WellFormed.room (wellFormed : WellFormed blob tokens root) :
    tokens.length < 2 ^ 31 ∧ root.tokens.length < 2 ^ 31 ∧ root.nameBytes < 2 ^ 31 := by
  have room := wellFormed.at_.room
  have kept := List.length_filter_le Token.counts tokens
  rw [← sum_nameBytes_filter, wellFormed.spells.eq] at room
  rw [wellFormed.spells.eq] at kept
  simp [root.sum_nameBytes, Token.nameBytes] at room kept
  omega

end WellFormed

end StudyNotes.DeviceTree
