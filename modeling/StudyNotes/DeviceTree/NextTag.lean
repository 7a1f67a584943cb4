/-
This file says what `fdt_next_tag` does on the bytes of a blob of version 0x11:
which tags it accepts at a position of the structure block, where they end, and
which offset follows. Positions are unsigned; the offset of a position is the
`int` with the same 32 bits.
-/

import StudyNotes.DeviceTree.Blob

namespace StudyNotes.DeviceTree

open Library

/-! ### Positions and offsets -/

theorem int32_add (a b : Int) : int32 (int32 a + b) = int32 (a + b) := by
  unfold int32
  omega

theorem uint32_int32_add (a b : Int) : uint32 (int32 a + b) = uint32 (a + b) := by
  unfold uint32 int32
  omega

/-- A position of a structure block of any size. -/
def IsPosition (u : Int) : Prop := 0 ≤ u ∧ u < 2 ^ 32

/-- The values of the type `int`. -/
def IsInt (offset : Int) : Prop := -2 ^ 31 ≤ offset ∧ offset < 2 ^ 31

/-- The errors: negative values of the type `int`. -/
def IsError (error : Int) : Prop := error < 0 ∧ IsInt error

instance : DecidablePred IsError := fun _ => inferInstanceAs (Decidable (_ ∧ _ ∧ _))

theorem int32_uint32 {offset : Int} (isInt : IsInt offset) : int32 (uint32 offset) = offset := by
  unfold IsInt at isInt
  unfold int32 uint32
  omega

theorem isPosition_uint32 (offset : Int) : IsPosition (uint32 offset) := by
  unfold IsPosition uint32
  omega

theorem isInt_int32 (value : Int) : IsInt (int32 value) := by
  unfold IsInt int32
  omega

/-- The position of the tag that follows one with this end. -/
def alignPosition (e : Int) : Int := (e + 3) / 4 * 4 % 2 ^ 32

theorem fdtTagalign_int32 (e : Int) : fdtTagalign (int32 e) = int32 (alignPosition e) := by
  unfold fdtTagalign alignPosition int32
  omega

theorem alignPosition_spec (e : Int) : IsPosition (alignPosition e) ∧ alignPosition e % 4 = 0 := by
  unfold IsPosition alignPosition
  omega

@[simp] theorem not_alignPosition_neg (e : Int) : ¬ alignPosition e < 0 :=
  (alignPosition_spec e).1.1.not_gt

/-! ### The bytes of a tag -/

section Tags

variable {blob : Blob}

/-- The byte at a position of the structure block. -/
def byteAt (blob : Blob) (u : Int) : BitVec 8 := blob.byte (fdtOffDtStruct blob + int32 u)

/-- The word at a position of the structure block. -/
def wordAt (blob : Blob) (u : Int) : Int := fdt32 blob (fdtOffDtStruct blob + int32 u)

/-- Where a tag ends: a node with the zero byte of its name, a property with the length that it
states, any other tag at once. -/
def PayloadEnds (blob : Blob) (u : Int) (tag : Tag) (e : Int) : Prop :=
  match tag with
  | .beginNode => u + 4 < e ∧ byteAt blob (e - 1) = 0 ∧
      ∀ p, u + 4 ≤ p → p < e - 1 → byteAt blob p ≠ 0
  | .prop => u + 8 ≤ fdtSizeDtStruct blob ∧ e = (u + 12 + wordAt blob (u + 4)) % 2 ^ 32
  | _ => e = u + 4

/-- The tag at a position ends before `e`, in the block. -/
structure Ends (blob : Blob) (u : Int) (tag : Tag) (e : Int) : Prop where
  readable : u + 4 ≤ fdtSizeDtStruct blob
  word : Tag.ofWord (wordAt blob u) = some tag
  payload : PayloadEnds blob u tag e
  ordered : u ≤ e
  inside : e ≤ fdtSizeDtStruct blob

theorem PayloadEnds.unique {u e e' : Int} {tag : Tag} (ends : PayloadEnds blob u tag e)
    (ends' : PayloadEnds blob u tag e') : e = e' := by
  cases tag with
  | beginNode =>
    obtain ⟨after, terminator, before⟩ := ends
    obtain ⟨after', terminator', before'⟩ := ends'
    rcases Int.lt_trichotomy e e' with less | same | greater
    · exact absurd terminator (before' (e - 1) (by omega) (by omega))
    · exact same
    · exact absurd terminator' (before (e' - 1) (by omega) (by omega))
  | prop => exact ends.2.trans ends'.2.symm
  | endNode | nop | fin => exact Eq.trans ends (Eq.symm ends')

theorem Ends.unique {u e e' : Int} {tag tag' : Tag} (ends : Ends blob u tag e)
    (ends' : Ends blob u tag' e') : tag = tag' ∧ e = e' := by
  have same := Option.some.inj (ends.word.symm.trans ends'.word)
  subst same
  exact ⟨rfl, ends.payload.unique ends'.payload⟩

theorem fdtSizeDtStruct_lt (blob : Blob) : fdtSizeDtStruct blob < 2 ^ 32 := by
  unfold fdtSizeDtStruct
  omega

section

variable (recent : 0x11 ≤ fdtVersion blob)
include recent

/-- From version 0x11 on the pointer exists exactly when the bytes lie in the block. -/
theorem fdtOffsetPtr_eq {u len : Int} (position : IsPosition u)
    (low : 0 ≤ len) (high : len < 2 ^ 32) :
    fdtOffsetPtr blob (int32 u) len =
      if u + len ≤ fdtSizeDtStruct blob then some (fdtOffDtStruct blob + int32 u) else none := by
  have sizeLt := fdtSizeDtStruct_lt blob
  obtain ⟨uLow, uHigh⟩ := position
  have start : uint32 (int32 u) = u := by
    unfold uint32 int32
    omega
  rw [fdtOffsetPtr, uint32_int32_add, start]
  by_cases inside : u + len ≤ fdtSizeDtStruct blob
  · have sum : uint32 (u + len) = u + len := by
      unfold uint32
      omega
    rw [if_pos inside, sum, if_neg (by omega)]
    rfl
  · rw [if_neg inside, if_pos]
    refine ⟨recent, ?_⟩
    unfold uint32
    omega

/-- The end of `fdt_next_tag` accepts an end after the start and in the block. -/
theorem acceptTag_eq {u e : Int} (position : IsPosition u) (ends : IsPosition e) (tag : Tag) :
    acceptTag blob (int32 u) tag (int32 e) =
      if u ≤ e ∧ e ≤ fdtSizeDtStruct blob then (tag, int32 (alignPosition e))
      else (.fin, -fdtErrBadstructure) := by
  have sizeLt := fdtSizeDtStruct_lt blob
  have distance : uint32 (int32 e - int32 u) = (e - u) % 2 ^ 32 := by
    unfold uint32 int32
    omega
  have low : 0 ≤ (e - u) % 2 ^ 32 := by omega
  have high : (e - u) % 2 ^ 32 < 2 ^ 32 := by omega
  obtain ⟨uLow, uHigh⟩ := position
  obtain ⟨eLow, eHigh⟩ := ends
  rw [acceptTag, distance, fdtOffsetPtr_eq recent ⟨uLow, uHigh⟩ low high]
  by_cases accepted : u ≤ e ∧ e ≤ fdtSizeDtStruct blob
  · rw [if_pos (show u + (e - u) % 2 ^ 32 ≤ fdtSizeDtStruct blob by omega), if_pos accepted,
      fdtTagalign_int32]
  · rw [if_neg (show ¬ u + (e - u) % 2 ^ 32 ≤ fdtSizeDtStruct blob by omega), if_neg accepted]

theorem skipNameTurn_eq {u : Int} (position : IsPosition u) :
    skipNameTurn blob (int32 u) =
      if u + 1 ≤ fdtSizeDtStruct blob then
        if byteAt blob u = 0 then some (.done (some (int32 (u + 1))))
        else some (.again (int32 (u + 1)))
      else some (.done none) := by
  rw [skipNameTurn, fdtOffsetPtr_eq recent position (by decide) (by decide), int32_add]
  by_cases inside : u + 1 ≤ fdtSizeDtStruct blob
  · rw [if_pos inside, if_pos inside]
    rfl
  · rw [if_neg inside, if_neg inside]

/-- A name is skipped to the first zero byte of the block, if there is one. -/
theorem skipName_loop (fuel : Nat) {u : Int}
    (position : IsPosition u) (positive : 0 < fuel) (enough : fdtSizeDtStruct blob < u + fuel) :
    (∃ e, loop (skipNameTurn blob) fuel (int32 u) = some (some (int32 e)) ∧ u < e ∧
      e ≤ fdtSizeDtStruct blob ∧ byteAt blob (e - 1) = 0 ∧
      ∀ p, u ≤ p → p < e - 1 → byteAt blob p ≠ 0) ∨
    (loop (skipNameTurn blob) fuel (int32 u) = some none ∧
      ∀ p, u ≤ p → p < fdtSizeDtStruct blob → byteAt blob p ≠ 0) := by
  have sizeLt := fdtSizeDtStruct_lt blob
  induction fuel generalizing u with
  | zero => exact absurd positive (Nat.lt_irrefl 0)
  | succ fuel inductionHypothesis =>
    have turn := skipNameTurn_eq recent position
    by_cases inside : u + 1 ≤ fdtSizeDtStruct blob
    · rw [if_pos inside] at turn
      by_cases zero : byteAt blob u = 0
      · rw [if_pos zero] at turn
        refine .inl ⟨u + 1, loop_done turn fuel, by omega, inside, ?_, fun p low high => ?_⟩
        · rw [Int.add_sub_cancel]
          exact zero
        · omega
      · rw [if_neg zero] at turn
        have next : IsPosition (u + 1) := ⟨by have := position.1; omega, by omega⟩
        rw [loop_again turn]
        rcases inductionHypothesis next (by omega) (by omega) with
          ⟨e, found, after, within, terminator, before⟩ | ⟨missing, before⟩
        · refine .inl ⟨e, found, by omega, within, terminator, fun p low high => ?_⟩
          by_cases first : p = u
          · rwa [first]
          · exact before p (by omega) high
        · refine .inr ⟨missing, fun p low high => ?_⟩
          by_cases first : p = u
          · rwa [first]
          · exact before p (by omega) high
    · rw [if_neg inside] at turn
      exact .inr ⟨loop_done turn fuel, fun p low high => by omega⟩

/-- The `switch` of `fdt_next_tag` finds the end of the payload. -/
theorem tagEnd_spec {u : Int} (position : IsPosition u)
    (readable : u + 4 ≤ fdtSizeDtStruct blob) (tag : Tag) :
    (∃ e, tagEnd blob tag (int32 (u + 4)) = some (some (int32 e)) ∧ IsPosition e ∧
      PayloadEnds blob u tag e) ∨
    (tagEnd blob tag (int32 (u + 4)) = some none ∧
      ∀ e ≤ fdtSizeDtStruct blob, ¬ PayloadEnds blob u tag e) := by
  have sizeLt := fdtSizeDtStruct_lt blob
  have low := position.1
  have next : IsPosition (u + 4) := ⟨by omega, by omega⟩
  cases tag with
  | beginNode =>
    rcases skipName_loop recent (2 ^ 32) next (by decide) (by omega) with
      ⟨e, found, after, within, terminator, before⟩ | ⟨missing, before⟩
    · exact .inl ⟨e, found, ⟨by omega, by omega⟩, after, terminator, before⟩
    · refine .inr ⟨missing, fun e within ends => ?_⟩
      exact before (e - 1) (by have := ends.1; omega) (by omega) ends.2.1
  | prop =>
    rw [tagEnd, fdtOffsetPtr_eq recent next (by decide) (by decide)]
    by_cases complete : u + 4 + 4 ≤ fdtSizeDtStruct blob
    · rw [if_pos complete]
      refine .inl ⟨(u + 12 + wordAt blob (u + 4)) % 2 ^ 32, ?_, ?_, by omega, rfl⟩
      · have same : int32 (int32 (u + 4) + (8 + wordAt blob (u + 4))) =
            int32 ((u + 12 + wordAt blob (u + 4)) % 2 ^ 32) := by
          unfold int32
          omega
        exact congrArg (fun offset => some (some offset)) same
      · unfold IsPosition
        omega
    · rw [if_neg complete]
      exact .inr ⟨rfl, fun e _ ends => complete (by have := ends.1; omega)⟩
  | endNode | nop | fin => exact .inl ⟨u + 4, rfl, next, rfl⟩

/-- `fdt_next_tag` returns the complete tag at the position, or the end with an error when
there is none. -/
theorem fdtNextTag_spec {u : Int} (position : IsPosition u) :
    (∃ tag e, Ends blob u tag e ∧
      fdtNextTag blob (int32 u) = some (tag, int32 (alignPosition e))) ∨
    ((∀ tag e, ¬ Ends blob u tag e) ∧
      ∃ error, IsError error ∧ fdtNextTag blob (int32 u) = some (.fin, error)) := by
  rw [fdtNextTag, fdtOffsetPtr_eq recent position (by decide) (by decide), int32_add]
  by_cases readable : u + 4 ≤ fdtSizeDtStruct blob
  · rw [if_pos readable]
    cases word : Tag.ofWord (wordAt blob u) with
    | none =>
      unfold wordAt at word
      simp only [word]
      refine .inr ⟨fun tag e ends => ?_, _, by decide, rfl⟩
      cases word.symm.trans ends.word
    | some tag =>
      have word' := word
      unfold wordAt at word'
      simp only [word']
      have only {other : Tag} {e : Int} (ends : Ends blob u other e) : other = tag :=
        Option.some.inj (ends.word.symm.trans word)
      rcases tagEnd_spec recent position readable tag with
        ⟨e, result, isPosition, payload⟩ | ⟨result, missing⟩
      · rw [result]
        simp only [acceptTag_eq recent position isPosition]
        by_cases accepted : u ≤ e ∧ e ≤ fdtSizeDtStruct blob
        · rw [if_pos accepted]
          exact .inl ⟨tag, e, ⟨readable, word, payload, accepted.1, accepted.2⟩, rfl⟩
        · rw [if_neg accepted]
          refine .inr ⟨fun other e' ends => accepted ?_, _, by decide, rfl⟩
          obtain rfl := only ends
          rw [payload.unique ends.payload]
          exact ⟨ends.ordered, ends.inside⟩
      · rw [result]
        refine .inr ⟨fun other e ends => ?_, _, by decide, rfl⟩
        obtain rfl := only ends
        exact missing e ends.inside ends.payload
  · rw [if_neg readable]
    exact .inr ⟨fun tag e ends => readable ends.readable, _, by decide, rfl⟩

end

end Tags

end StudyNotes.DeviceTree
