/-
This file proves that the completions of an NVMe queue pair are processed once each
and in the order in which the device has posted them.

All that tells a new completion from one of an earlier pass is a bit in its slot.
The device inverts the bit at each pass over the queue, and so does the host with
the value that it waits for. Counting completions from the start, the bit of a slot
is the parity of the pass it was written in, and the slot at the host's head has
been written in the host's own pass exactly if there is a completion left.
-/

import StudyNotes.Library.Machine
import StudyNotes.Library.Ring

namespace StudyNotes.Nvme

open Library Function

/-! ### The queue and its two parties -/

/-- A slot of the completion queue, with the phase bit `status.p`. -/
structure CqSlot (Data : Type) where
  data : Data
  p : Bool

/-- A place in the queue, and the phase bit of the pass. -/
structure Cursor where
  index : Nat
  phase : Bool
  deriving DecidableEq

/-- `if (++index == num_entries) { index = 0; phase = !phase; }` -/
def Cursor.next (numEntries : Nat) (cursor : Cursor) : Cursor :=
  if cursor.index + 1 = numEntries then { index := 0, phase := !cursor.phase }
  else { cursor with index := cursor.index + 1 }

/-- A call of `nvme_pcie_qpair_process_completions`: its counter and its limit. -/
structure Call where
  numCompletions : Nat
  maxCompletions : Nat

/--
The queue with the host's place in it, `cq_head` and `phase`, and the device's. `room`
is the number of slots that the device may write.
-/
structure CompletionQueue (Data : Type) where
  numEntries : Nat
  maxCompletionsCap : Nat
  cpl : Nat → CqSlot Data
  host : Cursor
  call : Option Call
  device : Cursor
  room : Nat

inductive CqAction (Data : Type) where
  | post (data : Data)
  | call (maxCompletions : Nat)
  | turn

inductive CqEvent (Data : Type) where
  | posted (data : Data)
  | processed (data : Data)
  | empty

variable {Data : Type} {cpl : Nat → CqSlot Data} {posted : List Data} {numEntries count size : Nat}
  (cq : CompletionQueue Data)

/-- `nvme_pcie_qpair_reset`: the queue is cleared, and the first pass has the phase 1. -/
def resetQueue (numEntries maxCompletionsCap : Nat) (zero : Data) : CompletionQueue Data where
  numEntries := numEntries
  maxCompletionsCap := maxCompletionsCap
  cpl := fun _ => { data := zero, p := false }
  host := { index := 0, phase := true }
  call := none
  device := { index := 0, phase := true }
  room := numEntries

/-- The device posts a completion to its next slot. -/
def post (data : Data) : CompletionQueue Data :=
  { cq with
    cpl := update cq.cpl cq.device.index { data := data, p := cq.device.phase }
    device := cq.device.next cq.numEntries
    room := cq.room - 1 }

/-- The limit of a call: no more than the cap, which also stands for no limit. -/
def limit (maxCompletions : Nat) : Nat :=
  if maxCompletions = 0 ∨ maxCompletions > cq.maxCompletionsCap then cq.maxCompletionsCap
  else maxCompletions

/-- The completion at the host's place is taken, and the slot may be written again. -/
def consume : CompletionQueue Data :=
  { cq with host := cq.host.next cq.numEntries, room := cq.room + 1 }

/-- The call after one more completion. -/
def Call.next (call : Call) : Option Call :=
  if call.numCompletions + 1 = call.maxCompletions then none
  else some { call with numCompletions := call.numCompletions + 1 }

/-- One turn of the loop of `nvme_pcie_qpair_process_completions`. -/
def turn (call : Call) : CompletionQueue Data × List (CqEvent Data) :=
  let cpl := cq.cpl cq.host.index
  if cpl.p ≠ cq.host.phase then ({ cq with call := none }, [.empty])
  else ({ consume cq with call := call.next }, [.processed cpl.data])

/-- One step of the device or of the host. The host does not call while it is in a call. -/
def cqStep :
    CqAction Data → Option (CompletionQueue Data × List (CqEvent Data))
  | .post data => if 0 < cq.room then some (post cq data, [.posted data]) else none
  | .call maxCompletions =>
    if cq.call.isNone then
      some ({ cq with call := some ⟨0, limit cq maxCompletions⟩ }, [])
    else none
  | .turn => cq.call.map (turn cq)

/-! ### Passes over the queue -/

/-- The phase bit of the completion with this number: 1 in the first pass. -/
def phaseOf (numEntries count : Nat) : Bool := decide (count / numEntries % 2 = 0)

/-- The place of the completion with this number. -/
def cursorAt (numEntries count : Nat) : Cursor where
  index := count % numEntries
  phase := phaseOf numEntries count

theorem div_mod_succ_of_wrap (positive : 0 < size) (wraps : count % size + 1 = size) :
    (count + 1) / size = count / size + 1 ∧ (count + 1) % size = 0 := by
  have split : count + 1 = size * (count / size + 1) := by
    rw [Nat.mul_add, Nat.mul_one]
    have whole := Nat.div_add_mod count size
    omega
  rw [split, Nat.mul_div_cancel_left _ positive, Nat.mul_mod_right]
  exact ⟨rfl, rfl⟩

theorem div_mod_succ_of_lt (inside : count % size + 1 < size) :
    (count + 1) / size = count / size ∧ (count + 1) % size = count % size + 1 := by
  have split : count + 1 = size * (count / size) + (count % size + 1) := by
    have whole := Nat.div_add_mod count size
    omega
  constructor
  · rw [split, Nat.mul_add_div (by omega), Nat.div_eq_of_lt inside, Nat.add_zero]
  · rw [split, Nat.mul_add_mod, Nat.mod_eq_of_lt inside]

/-- Going on by one slot goes on by one number. -/
theorem cursorAt_next (positive : 0 < numEntries) (count : Nat) :
    (cursorAt numEntries count).next numEntries = cursorAt numEntries (count + 1) := by
  have below := Nat.mod_lt count positive
  by_cases wraps : count % numEntries + 1 = numEntries
  · obtain ⟨isPass, isIndex⟩ := div_mod_succ_of_wrap positive wraps
    have flips : (!decide (count / numEntries % 2 = 0)) =
        decide ((count / numEntries + 1) % 2 = 0) := by
      rw [← decide_not, decide_eq_decide]
      omega
    simp only [Cursor.next, cursorAt, phaseOf, if_pos wraps, isPass, isIndex, flips]
  · obtain ⟨isPass, isIndex⟩ := div_mod_succ_of_lt (by omega : count % numEntries + 1 < numEntries)
    simp only [Cursor.next, cursorAt, phaseOf, isPass, isIndex]
    exact if_neg wraps

/-- A pass later the phase is the other one. -/
theorem phaseOf_add (positive : 0 < numEntries) (count : Nat) :
    phaseOf numEntries (count + numEntries) = !phaseOf numEntries count := by
  rw [phaseOf, phaseOf, Nat.add_div_right count positive, ← decide_not, decide_eq_decide]
  omega

/-! ### What holds over every run -/

def postedOf (events : List (CqEvent Data)) : List Data :=
  events.filterMap fun
    | .posted data => some data
    | _ => none

def processedOf (events : List (CqEvent Data)) : List Data :=
  events.filterMap fun
    | .processed data => some data
    | _ => none

@[simp] theorem postedOf_append (events later : List (CqEvent Data)) :
    postedOf (events ++ later) = postedOf events ++ postedOf later := List.filterMap_append

@[simp] theorem processedOf_append (events later : List (CqEvent Data)) :
    processedOf (events ++ later) = processedOf events ++ processedOf later :=
  List.filterMap_append

/--
The queue after some completions: every slot that was written has the bit of the last
pass over it, and the slots that were not written yet are cleared.
-/
structure Filled (numEntries : Nat) (cpl : Nat → CqSlot Data) (posted : List Data) : Prop where
  written : InRing numEntries 0 (fun count data => { data := data, p := phaseOf numEntries count })
    cpl posted
  clear : ∀ slot, posted.length ≤ slot → slot < numEntries → (cpl slot).p = false

section

variable (filled : Filled numEntries cpl posted)
include filled

theorem Filled.slot (before : count < posted.length) (recent : posted.length ≤ count + numEntries) :
    cpl (count % numEntries) =
      { data := posted.get ⟨count, before⟩, p := phaseOf numEntries count } := by
  have written := filled.written count _ (List.getElem?_eq_getElem before) recent
  rw [Nat.zero_add] at written
  exact written

theorem Filled.post (data : Data) :
    Filled numEntries
      (update cpl (posted.length % numEntries)
        { data := data, p := phaseOf numEntries posted.length }) (posted ++ [data]) := by
  constructor
  · have pushed := filled.written.push data
    rw [Nat.zero_add] at pushed
    exact pushed
  · intro slot unwritten within
    rw [List.length_append, List.length_singleton] at unwritten
    have isSlot : posted.length % numEntries = posted.length := Nat.mod_eq_of_lt (by omega)
    rw [isSlot, update_of_ne (by omega)]
    exact filled.clear slot (by omega) within

/-- At the host's place the bit tells whether there is a completion left. -/
theorem Filled.bit_iff (positive : 0 < numEntries) (behind : count ≤ posted.length)
    (room : posted.length ≤ count + numEntries) :
    (cpl (count % numEntries)).p = phaseOf numEntries count ↔ count < posted.length := by
  constructor
  · intro sameBit
    refine Nat.lt_of_not_le fun none => ?_
    by_cases firstPass : count < numEntries
    · -- nothing was written here yet, and the first pass waits for the other bit
      have cleared := filled.clear count none firstPass
      rw [Nat.mod_eq_of_lt firstPass, cleared, phaseOf, Nat.div_eq_of_lt firstPass] at sameBit
      exact absurd sameBit (by decide)
    · -- the slot was written a pass ago
      obtain ⟨earlier, rfl⟩ : ∃ earlier, count = earlier + numEntries :=
        ⟨count - numEntries, by omega⟩
      have old := filled.slot (show earlier < posted.length by omega) (by omega)
      rw [Nat.add_mod_right, old, phaseOf_add positive] at sameBit
      exact absurd sameBit (by simp)
  · intro left
    rw [filled.slot left room]

end

/-- What a run has done, where `numEntries` is the size of the queue. -/
structure InStep (numEntries : Nat) (cq : CompletionQueue Data) (events : List (CqEvent Data)) :
    Prop where
  size : cq.numEntries = numEntries
  inOrder : processedOf events <+: postedOf events
  host : cq.host = cursorAt numEntries (processedOf events).length
  device : cq.device = cursorAt numEntries (postedOf events).length
  room : cq.room + (postedOf events).length = numEntries + (processedOf events).length
  filled : Filled numEntries cq.cpl (postedOf events)
  noneLeft : Preceded (fun before event => event = .empty → processedOf before = postedOf before)
    events

section Steps

variable {numEntries : Nat} {cq : CompletionQueue Data} {past : List (CqEvent Data)}

section

variable (held : InStep numEntries cq past) (positive : 0 < numEntries)
include held positive

theorem InStep.bit_iff :
    (cq.cpl cq.host.index).p = cq.host.phase ↔
      (processedOf past).length < (postedOf past).length := by
  have room := held.room
  rw [held.host]
  exact held.filled.bit_iff positive held.inOrder.length_le (by omega)

theorem InStep.post (data : Data)
    (free : 0 < cq.room) : InStep numEntries (post cq data) (past ++ [.posted data]) := by
  have isPosted : postedOf (past ++ [.posted data]) = postedOf past ++ [data] :=
    postedOf_append past [.posted data]
  have isProcessed : processedOf (past ++ [.posted data]) = processedOf past := by
    rw [processedOf_append]
    exact List.append_nil _
  have room := held.room
  refine ⟨held.size, ?_, ?_, ?_, ?_, ?_, held.noneLeft.concat _ nofun⟩
  · rw [isPosted, isProcessed]
    exact held.inOrder.trans (List.prefix_append _ _)
  · rw [isProcessed]
    exact held.host
  · rw [isPosted, List.length_append, List.length_singleton, ← cursorAt_next positive,
      ← held.device, ← held.size]
    rfl
  · rw [isPosted, isProcessed, List.length_append, List.length_singleton]
    simp only [Nvme.post]
    omega
  · rw [isPosted]
    have slots := held.filled.post data
    simp only [Nvme.post, held.device]
    exact slots

theorem InStep.turn_empty (differs : (cq.cpl cq.host.index).p ≠ cq.host.phase) :
    InStep numEntries { cq with call := none } (past ++ [.empty]) := by
  have isPosted : postedOf (past ++ [.empty]) = postedOf past := by
    rw [postedOf_append]
    exact List.append_nil _
  have isProcessed : processedOf (past ++ [.empty]) = processedOf past := by
    rw [processedOf_append]
    exact List.append_nil _
  refine ⟨held.size, ?_, ?_, ?_, ?_, ?_, held.noneLeft.concat _ fun _ => ?_⟩
  · rw [isPosted, isProcessed]
    exact held.inOrder
  · rw [isProcessed]
    exact held.host
  · rw [isPosted]
    exact held.device
  · rw [isPosted, isProcessed]
    exact held.room
  · rw [isPosted]
    exact held.filled
  · have none := fun left => differs ((held.bit_iff positive).mpr left)
    exact held.inOrder.eq_of_length (Nat.le_antisymm held.inOrder.length_le (Nat.le_of_not_lt none))

theorem InStep.turn_new (call : Option Call) (same : (cq.cpl cq.host.index).p = cq.host.phase) :
    InStep numEntries { consume cq with call := call }
      (past ++ [.processed (cq.cpl cq.host.index).data]) := by
  have left := (held.bit_iff positive).mp same
  have room := held.room
  -- the slot holds the very completion that comes next
  have isNext : (cq.cpl cq.host.index).data = (postedOf past).get ⟨_, left⟩ := by
    rw [held.host]
    exact congrArg CqSlot.data (held.filled.slot left (by omega))
  have isPosted : postedOf (past ++ [.processed (cq.cpl cq.host.index).data]) = postedOf past := by
    rw [postedOf_append]
    exact List.append_nil _
  have isProcessed : processedOf (past ++ [.processed (cq.cpl cq.host.index).data]) =
      processedOf past ++ [(cq.cpl cq.host.index).data] := processedOf_append past _
  refine ⟨held.size, ?_, ?_, ?_, ?_, ?_, held.noneLeft.concat _ nofun⟩
  · rw [isPosted, isProcessed, isNext]
    have taken := List.prefix_iff_eq_take.mp held.inOrder
    have longer := List.take_prefix ((processedOf past).length + 1) (postedOf past)
    rw [List.take_succ_eq_append_getElem left, ← taken] at longer
    exact longer
  · rw [isProcessed, List.length_append, List.length_singleton, ← cursorAt_next positive,
      ← held.host, ← held.size]
    rfl
  · rw [isPosted]
    exact held.device
  · rw [isPosted, isProcessed, List.length_append, List.length_singleton]
    simp only [consume]
    omega
  · rw [isPosted]
    exact held.filled

theorem InStep.step
    {action : CqAction Data} {next : CompletionQueue Data} {events : List (CqEvent Data)}
    (taken : cqStep cq action = some (next, events)) : InStep numEntries next (past ++ events) := by
  cases action with
  | post data =>
    simp only [cqStep, Option.ite_none_right_eq_some] at taken
    obtain ⟨free, isNext⟩ := taken
    cases isNext
    exact held.post positive data free
  | call maxCompletions =>
    simp only [cqStep, Option.ite_none_right_eq_some] at taken
    obtain ⟨_, isNext⟩ := taken
    cases isNext
    rw [List.append_nil]
    exact { held with }
  | turn =>
    obtain ⟨call, _, isNext⟩ := Option.map_eq_some_iff.mp taken
    simp only [turn] at isNext
    split at isNext
    · next differs =>
      cases isNext
      exact held.turn_empty positive differs
    · next same =>
      cases isNext
      exact held.turn_new positive call.next (Decidable.of_not_not same)

end

end Steps

theorem resetQueue_inStep (numEntries maxCompletionsCap : Nat) (zero : Data) :
    InStep numEntries (resetQueue numEntries maxCompletionsCap zero) [] := by
  have start : cursorAt numEntries 0 = { index := 0, phase := true } := by
    simp [cursorAt, phaseOf]
  refine ⟨rfl, List.prefix_refl _, start.symm, start.symm, rfl, ⟨?_, fun _ _ _ => rfl⟩,
    preceded_nil⟩
  intro count data isData
  simp [postedOf] at isData

/--
For every size of the queue and every run of posts and calls: what was processed is the
beginning of what was posted, the host's place is the number of completions processed,
and whenever the host finds nothing new, everything posted has been processed.
-/
theorem run_inStep (numEntries maxCompletionsCap : Nat) (zero : Data) (atLeast : 2 ≤ numEntries)
    (actions : List (CqAction Data)) (last : CompletionQueue Data) (events : List (CqEvent Data))
    (ran : run cqStep (resetQueue numEntries maxCompletionsCap zero) actions =
      some (last, events)) :
    processedOf events <+: postedOf events ∧
      last.host.index = (processedOf events).length % numEntries ∧
      (last.host.phase = true ↔ (processedOf events).length / numEntries % 2 = 0) ∧
      (∀ call, last.call = some call →
        ((turn last call).2 = [.empty] ↔ processedOf events = postedOf events)) ∧
      Preceded (fun before event => event = .empty → processedOf before = postedOf before)
        events := by
  have positive : 0 < numEntries := by omega
  have held : InStep numEntries last ([] ++ events) :=
    run_invariant cqStep (InStep numEntries)
      (fun _ _ _ _ _ held taken => held.step positive taken) []
      (resetQueue_inStep numEntries maxCompletionsCap zero) ran
  rw [List.nil_append] at held
  refine ⟨held.inOrder, ?_, ?_, fun call _ => ?_, held.noneLeft⟩
  · rw [held.host]
    rfl
  · rw [held.host]
    exact decide_eq_true_iff
  · have bit := held.bit_iff positive
    constructor
    · intro found
      refine held.inOrder.eq_of_length (Nat.le_antisymm held.inOrder.length_le ?_)
      refine Nat.le_of_not_lt fun left => ?_
      simp only [turn, bit.mpr left, ne_eq, not_true_eq_false, if_false] at found
      cases found
    · intro same
      have differs : (last.cpl last.host.index).p ≠ last.host.phase := by
        intro sameBit
        have left := bit.mp sameBit
        rw [same] at left
        exact Nat.lt_irrefl _ left
      simp only [turn, if_pos differs]

/-- Three completions on a queue of two slots, so that the last one is in the second pass. -/
def secondPass : List (CqAction Nat) :=
  [.post 7, .post 8, .call 1, .turn, .post 9, .call 0, .turn, .turn, .turn]

theorem run_inStep_secondPass :
    ∃ last events, run cqStep (resetQueue 2 128 0) secondPass = some (last, events) ∧
      postedOf events = [7, 8, 9] ∧ last.host = { index := 1, phase := false } ∧
      processedOf events <+: postedOf events :=
  ⟨_, _, rfl, rfl, rfl, (run_inStep 2 128 0 (by decide) secondPass _ _ rfl).1⟩

end StudyNotes.Nvme
