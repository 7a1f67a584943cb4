/-
This file proves that the elements of a transmit queue go back to the guest
once each and in the order in which they were popped.

Between two steps at most one popped element has not been pushed: the one that
waits for the backend, or the one on which the device has given up. The loop
that pops elements only runs when there is none.
-/

import StudyNotes.VirtioNet.Tx

namespace StudyNotes.VirtioNet

open Library

variable {Element : Type} {config : TxConfig} {action : TxAction Element}
  {events : List (TxEvent Element)} {state : TxState Element}

/-! ### What handlers do to the element that waits -/

/-- The elements that were popped and not pushed. -/
def inHand (state : TxState Element) : List Element :=
  match state.phase with
  | .exited elem => [elem]
  | _ => state.asyncElem.toList

/-- A handler has kept the element that waits, and loops only when there is none. -/
structure KeepsElem (state next : TxState Element) : Prop where
  asyncElem : next.asyncElem = state.asyncElem
  goesOn : ∀ elem, next.phase ≠ .exited elem
  free : ∀ caller numPackets, next.phase = .flushing caller numPackets → next.asyncElem = none

variable {state next : TxState Element}

theorem KeepsElem.inHand_eq (keeps : KeepsElem state next) :
    inHand next = state.asyncElem.toList := by
  rw [inHand, ← keeps.asyncElem]
  split
  · rename_i elem isExited
    exact absurd isExited (keeps.goesOn elem)
  · rfl

theorem KeepsElem.of_eq {state middle next : TxState Element} (keeps : KeepsElem middle next)
    (same : middle.asyncElem = state.asyncElem) : KeepsElem state next :=
  ⟨keeps.asyncElem.trans same, keeps.goesOn, keeps.free⟩

theorem keepsElem_of_idle
    (asyncElem : next.asyncElem = state.asyncElem) (idle : next.phase = .idle) :
    KeepsElem state next := by
  refine ⟨asyncElem, fun elem isExited => ?_, fun caller numPackets isFlushing => ?_⟩
  · rw [idle] at isExited
    cases isExited
  · rw [idle] at isFlushing
    cases isFlushing

theorem startFlush_keepsElem (caller : Caller) {finish : Int → TxState Element → TxState Element}
    (finishes : ∀ ret state, KeepsElem state (finish ret state)) (state : TxState Element) :
    KeepsElem state (startFlush caller finish state) := by
  rw [startFlush]
  split
  · exact finishes 0 state
  split
  · exact (finishes 0 { state with notification := false }).of_eq rfl
  · rename_i noElem
    refine ⟨rfl, by simp, fun _ _ _ => ?_⟩
    simpa using noElem

theorem finishAgain_keepsElem (ret : Int) (state : TxState Element) :
    KeepsElem state (finishAgain ret state) := by
  rw [finishAgain]
  split
  · exact keepsElem_of_idle rfl rfl
  · exact keepsElem_of_idle rfl rfl

theorem finish_keepsElem (config : TxConfig) (caller : Caller) (ret : Int)
    (state : TxState Element) : KeepsElem state (finish config caller ret state) := by
  cases caller with
  | handleTxTimer | txTimer | txComplete => exact keepsElem_of_idle rfl rfl
  | txBhAgain => exact finishAgain_keepsElem ret state
  | txBh =>
    rw [finish, finishBh]
    split
    · exact keepsElem_of_idle rfl rfl
    split
    · exact keepsElem_of_idle rfl rfl
    · exact (startFlush_keepsElem .txBhAgain finishAgain_keepsElem _).of_eq rfl

theorem flushTx_keepsElem (config : TxConfig) (caller : Caller) (state : TxState Element) :
    KeepsElem state (flushTx config caller state) :=
  startFlush_keepsElem caller (finish_keepsElem config caller) state

section

variable (config : TxConfig) (idle : state.phase = .idle)
include idle

theorem handleTxTimer_keepsElem : KeepsElem state (handleTxTimer config state) := by
  rw [handleTxTimer]
  split
  · exact keepsElem_of_idle rfl idle
  split
  · exact (flushTx_keepsElem config .handleTxTimer _).of_eq rfl
  · exact keepsElem_of_idle rfl idle

theorem handleTxBh_keepsElem : KeepsElem state (handleTxBh state) := by
  rw [handleTxBh]
  split
  · exact keepsElem_of_idle rfl idle
  split
  · exact keepsElem_of_idle rfl idle
  · exact keepsElem_of_idle rfl idle

theorem runDeferred_keepsElem {body : TxState Element → TxState Element}
    (keepsBody : ∀ state, KeepsElem state (body state)) :
    KeepsElem state (runDeferred body state) := by
  simp only [runDeferred]
  split
  · split
    · exact keepsElem_of_idle rfl idle
    · exact ⟨rfl, by simp, by simp⟩
  split
  · exact keepsElem_of_idle rfl idle
  · exact (keepsBody { state with txWaiting := false }).of_eq rfl

theorem txTimer_keepsElem : KeepsElem state (txTimer config state) := by
  refine runDeferred_keepsElem idle fun started => ?_
  exact KeepsElem.of_eq
    (flushTx_keepsElem config .txTimer { started with notification := true }) rfl

/-! ### What a step does -/

/-- The three ways in which a step treats elements. -/
inductive Moves (state next : TxState Element) : List (TxEvent Element) → Prop
  | none (kept : inHand next = inHand state) : Moves state next []
  | popped {elem : Element} (free : inHand state = []) (taken : inHand next = [elem]) :
      Moves state next [.popped elem]
  | passed {elem : Element} (free : inHand state = []) (free' : inHand next = []) :
      Moves state next [.popped elem, .pushed elem]
  | pushed {elem : Element} (held : inHand state = [elem]) (free : inHand next = []) :
      Moves state next [.pushed elem]

/-- The loop only runs when no element waits for the backend. -/
def LoopsFree (state : TxState Element) : Prop :=
  ∀ caller numPackets, state.phase = .flushing caller numPackets → state.asyncElem = none

theorem inHand_of_idle : inHand state = state.asyncElem.toList := by
  rw [inHand, idle]

/-- A handler that keeps the element that waits. -/
theorem KeepsElem.moves (keeps : KeepsElem state next) : LoopsFree next ∧ Moves state next [] :=
  ⟨keeps.free, .none (keeps.inHand_eq.trans (inHand_of_idle idle).symm)⟩

end

theorem handlerStep_moves (idle : state.phase = .idle)
    (taken : handlerStep config state action = some (next, events)) :
    LoopsFree next ∧ Moves state next events := by
  cases action with
  | publish elem | look | kick | proceed result => cases taken
  | handleKick =>
    obtain ⟨-, isNext⟩ := Option.ite_none_right_eq_some.mp taken
    cases isNext
    refine KeepsElem.moves idle ?_
    split
    · exact KeepsElem.of_eq (handleTxTimer_keepsElem config idle) rfl
    · exact KeepsElem.of_eq (handleTxBh_keepsElem idle) rfl
  | deferred =>
    obtain ⟨-, isNext⟩ := Option.ite_none_right_eq_some.mp taken
    cases isNext
    refine KeepsElem.moves idle ?_
    split
    · exact KeepsElem.of_eq (txTimer_keepsElem config idle) rfl
    · exact KeepsElem.of_eq
        (runDeferred_keepsElem (by exact idle) (flushTx_keepsElem config .txBh)) rfl
  | complete =>
    obtain ⟨elem, held, isNext⟩ := Option.map_eq_some_iff.mp taken
    cases isNext
    have keeps := flushTx_keepsElem config .txComplete
      { state with asyncElem := none, notification := true }
    refine ⟨keeps.free, .pushed ?_ keeps.inHand_eq⟩
    rw [inHand_of_idle idle, held]
    rfl
  | writeStatus driverOk | reset | setVm running | setLink up =>
    cases taken
    exact KeepsElem.moves idle (keepsElem_of_idle (by simp) (by simp [idle]))
  | setQueues queues =>
    obtain ⟨-, isNext⟩ := Option.ite_none_right_eq_some.mp taken
    cases isNext
    exact KeepsElem.moves idle (keepsElem_of_idle (by simp) (by simp [idle]))

theorem flushTurn_moves {caller : Caller} {numPackets : Int} {result : SendResult}
    (free : state.asyncElem = none) (flushing : state.phase = .flushing caller numPackets)
    (turn : flushTurn config state caller numPackets result = (next, events)) :
    LoopsFree next ∧ Moves state next events := by
  have empty : inHand state = [] := by
    rw [inHand, flushing, free]
    rfl
  rw [flushTurn] at turn
  split at turn
  · cases turn
    have keeps := finish_keepsElem config caller numPackets state
    exact ⟨keeps.free, .none (by rw [keeps.inHand_eq, free, empty]; rfl)⟩
  rename_i elem rest isAvail
  split at turn
  · cases turn
    exact ⟨by simp [LoopsFree], .popped empty rfl⟩
  · cases turn
    have keeps := finish_keepsElem config caller (-eBusy)
      { state with avail := rest, notification := false, asyncElem := some elem }
    exact ⟨keeps.free, .popped empty keeps.inHand_eq⟩
  all_goals
    split at turn
    · cases turn
      have keeps := finish_keepsElem config caller (numPackets + 1) { state with avail := rest }
      exact ⟨keeps.free, .passed empty (by rw [keeps.inHand_eq, free]; rfl)⟩
    · cases turn
      exact ⟨fun _ _ _ => free, .passed empty (by rw [inHand, free]; rfl)⟩

theorem step_moves (loopsFree : LoopsFree state)
    (taken : step config state action = some (next, events)) :
    LoopsFree next ∧ Moves state next events := by
  rcases step_cases taken with ⟨caller, numPackets, result, flushing, turn⟩ | ⟨moved, rfl⟩ |
    ⟨idle, handled⟩
  · exact flushTurn_moves (loopsFree caller numPackets flushing) flushing turn
  · cases action with
    | publish elem | look | kick =>
      cases moved
      exact ⟨loopsFree, .none rfl⟩
    | _ => cases moved
  · exact handlerStep_moves idle handled

/-! ### Whole runs -/

def poppedOf (events : List (TxEvent Element)) : List Element :=
  events.filterMap fun
    | .popped elem => some elem
    | .pushed _ => none

def pushedOf (events : List (TxEvent Element)) : List Element :=
  events.filterMap fun
    | .popped _ => none
    | .pushed elem => some elem

/-- Whenever an element is popped, all elements before it have been pushed. -/
def PopsWhenFree (events : List (TxEvent Element)) : Prop :=
  Preceded (fun before event => ∀ elem, event = .popped elem → poppedOf before = pushedOf before)
    events

/-- The popped elements are the pushed ones and the one in hand, in this order. -/
structure Ordered (state : TxState Element) (past : List (TxEvent Element)) : Prop where
  loopsFree : LoopsFree state
  inOrder : poppedOf past = pushedOf past ++ inHand state
  popsWhenFree : PopsWhenFree past

theorem Ordered.moves {past events : List (TxEvent Element)}
    (ordered : Ordered state past) (loopsFree : LoopsFree next)
    (moves : Moves state next events) : Ordered next (past ++ events) := by
  obtain ⟨-, inOrder, popsWhenFree⟩ := ordered
  have noPop : ∀ {past : List (TxEvent Element)} {elem : Element}, ∀ other,
      TxEvent.pushed elem = .popped other → poppedOf past = pushedOf past := by
    rintro past elem other ⟨⟩
  cases moves with
  | none kept =>
    rw [List.append_nil]
    exact ⟨loopsFree, kept ▸ inOrder, popsWhenFree⟩
  | popped free taken =>
    rw [free, List.append_nil] at inOrder
    refine ⟨loopsFree, ?_, popsWhenFree.concat _ fun _ _ => inOrder⟩
    simp [poppedOf, pushedOf, List.filterMap_append, taken] at inOrder ⊢
    exact inOrder
  | @passed elem free free' =>
    rw [free, List.append_nil] at inOrder
    refine ⟨loopsFree, ?_, ?_⟩
    · simp [poppedOf, pushedOf, List.filterMap_append, free'] at inOrder ⊢
      exact inOrder
    · have both := (popsWhenFree.concat (.popped elem) fun _ _ => inOrder).concat
        (.pushed elem) noPop
      rwa [List.append_assoc] at both
  | pushed held free =>
    refine ⟨loopsFree, ?_, popsWhenFree.concat _ noPop⟩
    simp [poppedOf, pushedOf, List.filterMap_append, held, free] at inOrder ⊢
    exact inOrder

theorem asyncElem_of_inHand (empty : inHand state = []) : state.asyncElem = none := by
  rw [inHand] at empty
  split at empty
  · cases empty
  · exact Option.toList_eq_nil_iff.mp empty

theorem length_inHand (state : TxState Element) : (inHand state).length ≤ 1 := by
  rw [inHand]
  split
  · exact Nat.le_refl 1
  · exact Option.length_toList_le

/--
In every run, elements are pushed in the order in which they were popped, and
all of them except for at most one: the element that waits for the backend, or
the malformed one on which the device has ended itself. No element is popped
while another one waits, and the completion of that one pushes it.
-/
theorem run_pushesInOrder {config : TxConfig} {vmRunning linkUp multiqueue : Bool}
    {actions : List (TxAction Element)} {state : TxState Element} {events : List (TxEvent Element)}
    (ran : run (step config) (newQueue vmRunning linkUp multiqueue) actions =
      some (state, events)) :
    poppedOf events = pushedOf events ++ inHand state ∧ (inHand state).length ≤ 1 ∧
      ((∀ elem, state.phase ≠ .exited elem) → inHand state = state.asyncElem.toList) ∧
      PopsWhenFree events ∧
      (∀ action next more elem, step config state action = some (next, more) →
        .popped elem ∈ more → state.asyncElem = none) ∧
      ∀ elem, state.phase = .idle → state.asyncElem = some elem →
        ∃ next, step config state .complete = some (next, [.pushed elem]) := by
  have start : Ordered (newQueue vmRunning linkUp multiqueue : TxState Element) [] :=
    ⟨by rintro caller numPackets ⟨⟩, rfl, preceded_nil⟩
  have ordered : Ordered state events := run_invariant (step config) Ordered
    (fun state past action next events ordered taken =>
      ordered.moves (step_moves ordered.loopsFree taken).1 (step_moves ordered.loopsFree taken).2)
    [] start ran
  refine ⟨ordered.inOrder, length_inHand state, fun goesOn => ?_, ordered.popsWhenFree, ?_, ?_⟩
  · exact KeepsElem.inHand_eq ⟨rfl, goesOn, ordered.loopsFree⟩
  · intro action next more elem taken member
    cases (step_moves ordered.loopsFree taken).2 with
    | none kept => cases member
    | popped free taken' | passed free free' => exact asyncElem_of_inHand free
    | pushed held free => simp at member
  · intro elem idle held
    refine ⟨(txComplete config elem state).1, ?_⟩
    simp only [step, idle, guestStep, handlerStep, held, Option.map_some, txComplete]

/-- A device with a bottom half that sends bursts of four. -/
def smallBurst : TxConfig := { timer := false, txBurst := 4, index := 0, maxQueues := 1 }

/-- One packet is put off by the backend, and another one follows it. -/
def twoPackets : List (TxAction Nat) :=
  [.writeStatus true, .publish 1, .publish 2, .look, .handleKick, .deferred, .proceed .queued,
    .complete, .proceed .sent, .proceed .sent]

theorem run_pushesInOrder_twoPackets :
    ∃ state events, run (step smallBurst) (newQueue true true false) twoPackets =
        some (state, events) ∧ pushedOf events = [1, 2] ∧
      poppedOf events = pushedOf events ++ inHand state := by
  obtain ⟨state, events, ran, pushed⟩ : ∃ state events, run (step smallBurst)
      (newQueue true true false) twoPackets = some (state, events) ∧
      pushedOf events = [1, 2] := ⟨_, _, rfl, rfl⟩
  exact ⟨state, events, ran, pushed, (run_pushesInOrder ran).1⟩

/-- The device ends itself when an element has no room for the header, and keeps that element. -/
theorem malformed_not_pushed :
    ∃ state events, run (step smallBurst) (newQueue true true false)
        [.writeStatus true, .publish 7, .look, .handleKick, .deferred, .proceed .malformed] =
          some (state, events) ∧
      poppedOf events = [7] ∧ pushedOf events = [] ∧ state.asyncElem = none ∧
      ∀ action, step smallBurst state action = none :=
  ⟨_, _, rfl, rfl, rfl, rfl, fun _ => rfl⟩

end StudyNotes.VirtioNet
