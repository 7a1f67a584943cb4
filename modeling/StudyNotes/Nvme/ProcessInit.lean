/-
This file proves that the initialization of a controller goes through its states
in order.

`nvme_ctrlr_process_init` is called again and again while the controller comes up,
by `nvme_init_controllers` until it returns something else than 0. The device may
answer every read of its registers with anything, or not at all. Still the
controller is enabled and started once at most, in this order and after the
ready bit has said so, and a state with a timeout does not outlast it.
-/

import StudyNotes.Library.Machine

namespace StudyNotes.Nvme

open Library

/-! ### The model -/

/-- `enum nvme_ctrlr_state`. -/
inductive InitState where
  | init
  | disableWaitForReady1
  | disableWaitForReady0
  | enable
  | enableWaitForReady1
  | ready
  deriving DecidableEq

/-- The states in the order in which they are declared. -/
def InitState.rank : InitState → Nat
  | .init => 0
  | .disableWaitForReady1 => 1
  | .disableWaitForReady0 => 2
  | .enable => 3
  | .enableWaitForReady1 => 4
  | .ready => 5

/-- `NVME_TIMEOUT_INFINITE`, the largest number of ticks. -/
def timeoutInfinite : UInt64 := 0xFFFFFFFFFFFFFFFF

/-- `union spdk_nvme_cc_register`: the enable bit and the rest. -/
structure CcRegister where
  en : Bool
  rest : BitVec 31
  deriving DecidableEq

/-- `union spdk_nvme_csts_register`, of which the ready bit is used. -/
structure CstsRegister where
  rdy : Bool
  deriving DecidableEq

/-- The part of `struct spdk_nvme_ctrlr` that the initialization uses. -/
structure Ctrlr where
  state : InitState
  stateTimeoutTsc : UInt64
  sleepTimeoutTsc : UInt64
  /-- `cap.bits.to`. -/
  capTo : UInt8
  /-- `NVME_QUIRK_DELAY_BEFORE_CHK_RDY`. -/
  quirkDelay : Bool

/-- What one call meets: the clock each time that it is read, and what the device and the
functions that are called answer. -/
structure Poll where
  /-- The clock when the call is made. -/
  ticks : UInt64
  cc : Option CcRegister
  csts : Option CstsRegister
  setCcRc : Int
  enableRc : Int
  startRc : Int
  setStateTicks : UInt64
  sleepTicks : UInt64
  timeoutTicks : UInt64
  /-- The clock does not go backwards. -/
  monotone : ticks ≤ timeoutTicks

inductive InitEvent where
  /-- The registers have been read. -/
  | read (state : InitState) (cc : CcRegister) (csts : CstsRegister)
  | setCc (cc : CcRegister) (rc : Int)
  | enter (state : InitState)
  | enable (rc : Int)
  | start (rc : Int)
  | fail
  deriving DecidableEq

/-- What a call has returned, and what it has left. -/
structure Polled where
  rc : Int
  ctrlr : Ctrlr

/-- `nvme_ctrlr_set_state`. -/
def setState (hz ticks : UInt64) (ctrlr : Ctrlr) (state : InitState) (timeoutInMs : UInt64) :
    Ctrlr :=
  { ctrlr with
    state := state
    stateTimeoutTsc :=
      if timeoutInMs = timeoutInfinite then timeoutInfinite else ticks + timeoutInMs * hz / 1000 }

/-- `nvme_ctrlr_construct`. -/
def constructCtrlr (hz ticks : UInt64) (ctrlr : Ctrlr) : Ctrlr :=
  setState hz ticks ctrlr .init timeoutInfinite

def readyTimeoutInMs (ctrlr : Ctrlr) : UInt64 := 500 * ctrlr.capTo.toUInt64

def eio : Int := 5

/-- Write 0 into the enable bit and wait until the controller is not ready any more. -/
def disable (hz : UInt64) (ctrlr : Ctrlr) (poll : Poll) (cc : CcRegister) (delay : Bool) :
    Polled × List InitEvent :=
  if poll.setCcRc ≠ 0 then (⟨-eio, ctrlr⟩, [.setCc { cc with en := false } poll.setCcRc, .fail])
  else
    let next := setState hz poll.setStateTicks ctrlr .disableWaitForReady0 (readyTimeoutInMs ctrlr)
    (⟨0, if delay then { next with sleepTimeoutTsc := poll.sleepTicks + 2 * hz } else next⟩,
      [.setCc { cc with en := false } 0, .enter .disableWaitForReady0])

/-- The label `init_timeout`. -/
def initTimeout (ctrlr : Ctrlr) (poll : Poll) : Polled × List InitEvent :=
  if ctrlr.stateTimeoutTsc ≠ timeoutInfinite ∧ ctrlr.stateTimeoutTsc < poll.timeoutTicks then
    (⟨-1, ctrlr⟩, [.fail])
  else (⟨0, ctrlr⟩, [])

/-- The `switch` of `nvme_ctrlr_process_init`. -/
def processState (hz : UInt64) (ctrlr : Ctrlr) (poll : Poll) (cc : CcRegister)
    (csts : CstsRegister) : Polled × List InitEvent :=
  let enter := fun state => setState hz poll.setStateTicks ctrlr state (readyTimeoutInMs ctrlr)
  match ctrlr.state with
  | .init =>
    if cc.en then
      if csts.rdy = false then
        (⟨0, enter .disableWaitForReady1⟩, [.enter .disableWaitForReady1])
      else disable hz ctrlr poll cc ctrlr.quirkDelay
    else (⟨0, enter .disableWaitForReady0⟩, [.enter .disableWaitForReady0])
  | .disableWaitForReady1 =>
    if csts.rdy then disable hz ctrlr poll cc false else initTimeout ctrlr poll
  | .disableWaitForReady0 =>
    if csts.rdy = false then (⟨0, enter .enable⟩, [.enter .enable]) else initTimeout ctrlr poll
  | .enable =>
    (⟨poll.enableRc, enter .enableWaitForReady1⟩,
      [.enable poll.enableRc, .enter .enableWaitForReady1])
  | .enableWaitForReady1 =>
    if csts.rdy then
      (⟨poll.startRc, setState hz poll.setStateTicks ctrlr .ready timeoutInfinite⟩,
        [.start poll.startRc, .enter .ready])
    else initTimeout ctrlr poll
  | .ready => (⟨0, ctrlr⟩, [])

/-- `nvme_ctrlr_process_init`. -/
def processInit (hz : UInt64) (ctrlr : Ctrlr) (poll : Poll) : Polled × List InitEvent :=
  if 0 < ctrlr.sleepTimeoutTsc ∧ poll.ticks ≤ ctrlr.sleepTimeoutTsc then (⟨0, ctrlr⟩, [])
  else
    let awake := { ctrlr with sleepTimeoutTsc := 0 }
    match poll.cc, poll.csts with
    | some cc, some csts =>
      let result := processState hz awake poll cc csts
      (result.1, .read ctrlr.state cc csts :: result.2)
    | _, _ =>
      if ctrlr.stateTimeoutTsc ≠ timeoutInfinite then initTimeout awake poll
      else (⟨-eio, awake⟩, [.fail])

/-- There is another call as long as the calls return 0. -/
def initStep (hz : UInt64) (polled : Polled) (poll : Poll) : Option (Polled × List InitEvent) :=
  if polled.rc ≠ 0 then none else some (processInit hz polled.ctrlr poll)

/-! ### What the history must be like -/

/-- The controller is known to be disabled: the enable bit has been read as 0, or written. -/
inductive Disabling : InitEvent → Prop where
  | read {cc : CcRegister} {csts : CstsRegister} (en : cc.en = false) :
      Disabling (.read .init cc csts)
  | written {cc : CcRegister} (en : cc.en = false) : Disabling (.setCc cc 0)

/--
The controller is enabled at most once, when it has been disabled and the ready bit
has been read as 0 in the state that waits for it. It is started at most once, after
it has been enabled and the ready bit has been read as 1. Every state that is
entered comes after the ones that were entered before.
-/
def Ordered (before : List InitEvent) : InitEvent → Prop
  | .enable _ =>
    (∀ rc, .enable rc ∉ before) ∧
      ∃ disabling cc, Disabling disabling ∧
        [disabling, .enter .disableWaitForReady0,
          .read .disableWaitForReady0 cc ⟨false⟩].Sublist before
  | .start _ =>
    (∀ rc, .start rc ∉ before) ∧
      ∃ cc, [.enable 0, .read .enableWaitForReady1 cc ⟨true⟩].Sublist before
  | .enter state => ∀ earlier, .enter earlier ∈ before → earlier.rank < state.rank
  | .read _ _ _ | .setCc _ _ | .fail => True

/-- What has happened when the controller is in a state. -/
def Reached (past : List InitEvent) : InitState → Prop
  | .init | .disableWaitForReady1 => True
  | .disableWaitForReady0 =>
    ∃ disabling, Disabling disabling ∧
      [disabling, .enter .disableWaitForReady0].Sublist past
  | .enable =>
    ∃ disabling cc, Disabling disabling ∧
      [disabling, .enter .disableWaitForReady0,
        .read .disableWaitForReady0 cc ⟨false⟩].Sublist past
  | .enableWaitForReady1 => .enable 0 ∈ past
  | .ready => True

/-- The history of a controller that is in a state and whose last call has returned a value. -/
structure History (past : List InitEvent) (rc : Int) (state : InitState) : Prop where
  ordered : Preceded Ordered past
  entered : ∀ earlier, .enter earlier ∈ past → earlier.rank ≤ state.rank
  enabled : ∀ rc, .enable rc ∈ past → InitState.enable.rank < state.rank
  started : ∀ rc, .start rc ∈ past → InitState.enableWaitForReady1.rank < state.rank
  reached : rc = 0 → Reached past state

theorem Reached.append {past : List InitEvent} {state : InitState} (reached : Reached past state)
    (later : List InitEvent) : Reached (past ++ later) state := by
  have longer : past.Sublist (past ++ later) := List.sublist_append_left past later
  cases state with
  | init | disableWaitForReady1 | ready => trivial
  | disableWaitForReady0 =>
    obtain ⟨disabling, isDisabling, sublist⟩ := reached
    exact ⟨disabling, isDisabling, sublist.trans longer⟩
  | enable =>
    obtain ⟨disabling, cc, isDisabling, sublist⟩ := reached
    exact ⟨disabling, cc, isDisabling, sublist.trans longer⟩
  | enableWaitForReady1 => exact List.mem_append_left later reached

/-! ### Steps -/

section Steps

variable {past before : List InitEvent} {state next : InitState} {rc rc' : Int} {hz : UInt64}
  {ctrlr : Ctrlr} {poll : Poll} {cc : CcRegister} {csts : CstsRegister}

/-- An event that is neither a call of one of the two functions nor a change of the state. -/
inductive Plain : InitEvent → Prop where
  | read {state : InitState} {cc : CcRegister} {csts : CstsRegister} :
      Plain (.read state cc csts)
  | setCc {cc : CcRegister} {rc : Int} : Plain (.setCc cc rc)
  | fail : Plain .fail

/-- What an event says about the state that the controller is in after it. -/
def InitEvent.UpTo (state : InitState) : InitEvent → Prop
  | .enter earlier => earlier.rank ≤ state.rank
  | .enable _ => InitState.enable.rank < state.rank
  | .start _ => InitState.enableWaitForReady1.rank < state.rank
  | .read _ _ _ | .setCc _ _ | .fail => True

theorem History.extend (history : History past rc state) {added : List InitEvent}
    (ordered : Preceded Ordered (past ++ added)) (notBack : state.rank ≤ next.rank)
    (upTo : ∀ event ∈ added, event.UpTo next) (reached : rc' = 0 → Reached (past ++ added) next) :
    History (past ++ added) rc' next := by
  refine ⟨ordered, ?_, ?_, ?_, reached⟩
  all_goals
    intro other member
    rcases List.mem_append.mp member with before | isAdded
  · exact Nat.le_trans (history.entered other before) notBack
  · exact upTo _ isAdded
  · exact Nat.lt_of_lt_of_le (history.enabled other before) notBack
  · exact upTo _ isAdded
  · exact Nat.lt_of_lt_of_le (history.started other before) notBack
  · exact upTo _ isAdded

theorem History.plain (history : History past 0 state) {event : InitEvent} (plain : Plain event) :
    History (past ++ [event]) rc state := by
  refine history.extend (history.ordered.concat event ?_) (Nat.le_refl _)
    (List.forall_mem_singleton.mpr ?_) fun _ => (history.reached rfl).append _
  all_goals cases plain <;> trivial

/-- A later state is entered. -/
theorem History.enter (history : History past rc state) (later : state.rank < next.rank)
    (reached : rc = 0 → Reached (past ++ [.enter next]) next) :
    History (past ++ [.enter next]) rc next := by
  refine history.extend (history.ordered.concat _ fun earlier member => ?_) (Nat.le_of_lt later)
    (List.forall_mem_singleton.mpr (Nat.le_refl _)) reached
  exact Nat.lt_of_le_of_lt (history.entered earlier member) later

/-- One of the two functions is called, and a later state is entered. -/
theorem History.callAndEnter (history : History past 0 state) {call : InitEvent}
    (ordered : Ordered past call) (later : state.rank < next.rank)
    (noEnter : ∀ state, call ≠ .enter state) (upTo : call.UpTo next)
    (reached : rc = 0 → Reached (past ++ [call, .enter next]) next) :
    History (past ++ [call, .enter next]) rc next := by
  refine history.extend ?_ (Nat.le_of_lt later)
    (List.forall_mem_cons.mpr ⟨upTo, List.forall_mem_singleton.mpr (Nat.le_refl _)⟩) reached
  rw [List.append_cons]
  refine (history.ordered.concat call ordered).concat _ fun earlier member => ?_
  rcases List.mem_append.mp member with before | isCall
  · exact Nat.lt_of_le_of_lt (history.entered earlier before) later
  · exact absurd (List.mem_singleton.mp isCall).symm (noEnter earlier)

/-- The events of a call lead from one history to another. -/
def Continues (past : List InitEvent) (result : Polled × List InitEvent) : Prop :=
  History (past ++ result.2) result.1.rc result.1.ctrlr.state

theorem initTimeout_continues (history : History past 0 ctrlr.state) :
    Continues past (initTimeout ctrlr poll) := by
  rw [initTimeout]
  split
  · exact history.plain .fail
  · rw [Continues, List.append_nil]
    exact history

theorem disable_continues (history : History past 0 ctrlr.state)
    (later : ctrlr.state.rank < InitState.disableWaitForReady0.rank) (delay : Bool) :
    Continues past (disable hz ctrlr poll cc delay) := by
  have written : ∀ rc, History (past ++ [.setCc { cc with en := false } rc]) 0 ctrlr.state :=
    fun _ => history.plain .setCc
  rw [disable]
  split
  · have failed : History (_ ++ [.fail]) (-eio) ctrlr.state := (written poll.setCcRc).plain .fail
    rw [List.append_assoc] at failed
    exact failed
  · have entered := (written 0).enter later fun _ => ⟨_, .written rfl,
      (List.sublist_append_right past [_]).append_right [.enter .disableWaitForReady0]⟩
    rw [List.append_assoc] at entered
    cases delay <;> exact entered

/-- The controller is enabled in the state for that. -/
theorem enable_continues (history : History past 0 .enable) (rc : Int) :
    History (past ++ [.enable rc, .enter .enableWaitForReady1]) rc .enableWaitForReady1 := by
  have ordered : Ordered past (.enable rc) :=
    ⟨fun rc member => absurd (history.enabled rc member) (by decide), history.reached rfl⟩
  refine history.callAndEnter ordered (by decide) (fun _ => InitEvent.noConfusion)
    (Nat.lt_add_one 3) ?_
  rintro rfl
  exact List.mem_append_right past List.mem_cons_self

/-- The controller is started when it has become ready. -/
theorem start_continues (history : History past 0 .enableWaitForReady1)
    (isRead : past = before ++ [.read .enableWaitForReady1 cc csts]) (isReady : csts.rdy = true)
    (reached : Reached before .enableWaitForReady1) (rc : Int) :
    History (past ++ [.start rc, .enter .ready]) rc .ready := by
  have inOrder : [.enable 0, .read .enableWaitForReady1 cc ⟨true⟩].Sublist past := by
    rw [isRead, ← isReady]
    exact (List.singleton_sublist.mpr reached).append_right [_]
  have ordered : Ordered past (.start rc) :=
    ⟨fun rc member => absurd (history.started rc member) (by decide), cc, inOrder⟩
  exact history.callAndEnter ordered (by decide) (fun _ => InitEvent.noConfusion)
    (Nat.lt_add_one 4) fun _ => trivial

/-- The registers have been read, and the call does what there is to do in the state. -/
theorem processState_continues (history : History past 0 ctrlr.state)
    (isRead : past = before ++ [.read ctrlr.state cc csts]) (reached : Reached before ctrlr.state) :
    Continues past (processState hz ctrlr poll cc csts) := by
  rw [processState]
  cases isState : ctrlr.state
  all_goals
    rw [isState] at isRead reached
    dsimp only
  case init =>
    split
    · split
      · exact history.enter (by rw [isState]; decide) fun _ => trivial
      · exact disable_continues history (by rw [isState]; decide) _
    · next isDisabled =>
      refine history.enter (by rw [isState]; decide) fun _ => ?_
      refine ⟨.read .init cc csts, .read (Bool.not_eq_true _ ▸ isDisabled), ?_⟩
      rw [isRead]
      exact (List.sublist_append_right before [_]).append_right [.enter .disableWaitForReady0]
  case disableWaitForReady1 =>
    split
    · exact disable_continues history (by rw [isState]; decide) _
    · exact initTimeout_continues history
  case disableWaitForReady0 =>
    split
    · next notReady =>
      obtain ⟨disabling, isDisabling, sublist⟩ := reached
      have inOrder : Reached past .enable := by
        refine ⟨disabling, cc, isDisabling, ?_⟩
        rw [isRead, ← notReady]
        exact sublist.append_right [_]
      exact history.enter (by rw [isState]; decide) fun _ => inOrder.append _
    · exact initTimeout_continues history
  case enable =>
    rw [isState] at history
    exact enable_continues history poll.enableRc
  case enableWaitForReady1 =>
    split
    · next isReady =>
      rw [isState] at history
      exact start_continues history isRead isReady reached poll.startRc
    · exact initTimeout_continues history
  case ready =>
    rw [Continues, List.append_nil]
    exact history

theorem processInit_continues (history : History past 0 ctrlr.state) :
    Continues past (processInit hz ctrlr poll) := by
  rw [processInit]
  split
  · rw [Continues, List.append_nil]
    exact history
  · split
    · next cc csts _ _ =>
      have continued : Continues (past ++ [.read ctrlr.state cc csts])
          (processState hz { ctrlr with sleepTimeoutTsc := 0 } poll cc csts) :=
        processState_continues (history.plain .read) rfl (history.reached rfl)
      rw [Continues, List.append_assoc] at continued
      exact continued
    · split
      · exact initTimeout_continues history
      · exact history.plain .fail

/-- What a call can do to the state: it moves it forward, it fails the controller, or it leaves
the state and its timeout as they were because there is still time. -/
inductive Turn (ctrlr : Ctrlr) (poll : Poll) (result : Polled × List InitEvent) : Prop where
  | forward (next : InitState) (isNext : result.1.ctrlr.state = next)
      (later : ctrlr.state.rank < next.rank)
      (infinite : next = .ready → result.1.ctrlr.stateTimeoutTsc = timeoutInfinite)
  | fails (state : result.1.ctrlr.state = ctrlr.state)
      (timeout : result.1.ctrlr.stateTimeoutTsc = ctrlr.stateTimeoutTsc)
      (failed : .fail ∈ result.2) (isError : result.1.rc ≠ 0)
  | waits (state : result.1.ctrlr.state = ctrlr.state)
      (timeout : result.1.ctrlr.stateTimeoutTsc = ctrlr.stateTimeoutTsc)
      (pending : ctrlr.state = .ready ∨ ¬ ctrlr.stateTimeoutTsc < poll.ticks ∨
        ¬ ctrlr.sleepTimeoutTsc < poll.ticks)

/-- No clock passes the infinite timeout. -/
theorem not_infinite_lt (ticks : UInt64) : ¬ timeoutInfinite < ticks := by
  intro passed
  have below := ticks.toNat_lt
  have isLargest : timeoutInfinite.toNat = 18446744073709551615 := rfl
  have passed := UInt64.lt_iff_toNat_lt.mp passed
  omega

theorem initTimeout_turn : Turn ctrlr poll (initTimeout ctrlr poll) := by
  rw [initTimeout]
  split
  · exact .fails rfl rfl (List.mem_singleton_self _) (Int.neg_ne_zero.mpr Int.one_ne_zero)
  · next inTime =>
    refine .waits rfl rfl (.inr (.inl fun passed => inTime ⟨fun isInfinite => ?_, ?_⟩))
    · exact not_infinite_lt poll.ticks (isInfinite ▸ passed)
    · exact UInt64.lt_of_lt_of_le passed poll.monotone

theorem eio_neg_ne_zero : -eio ≠ 0 := by
  decide

theorem disable_turn (later : ctrlr.state.rank < InitState.disableWaitForReady0.rank)
    (delay : Bool) : Turn ctrlr poll (disable hz ctrlr poll cc delay) := by
  rw [disable]
  split
  · exact .fails rfl rfl (List.mem_cons_of_mem _ (List.mem_singleton_self _)) eio_neg_ne_zero
  · cases delay <;> exact .forward .disableWaitForReady0 rfl later InitState.noConfusion

theorem processState_turn : Turn ctrlr poll (processState hz ctrlr poll cc csts) := by
  rw [processState]
  cases isState : ctrlr.state
  all_goals dsimp only
  case init =>
    split
    · split
      · exact .forward .disableWaitForReady1 rfl (by rw [isState]; decide) InitState.noConfusion
      · exact disable_turn (by rw [isState]; decide) _
    · exact .forward .disableWaitForReady0 rfl (by rw [isState]; decide) InitState.noConfusion
  case disableWaitForReady1 =>
    split
    · exact disable_turn (by rw [isState]; decide) _
    · exact initTimeout_turn
  case disableWaitForReady0 =>
    split
    · exact .forward .enable rfl (by rw [isState]; decide) InitState.noConfusion
    · exact initTimeout_turn
  case enable =>
    exact .forward .enableWaitForReady1 rfl (by rw [isState]; decide) InitState.noConfusion
  case enableWaitForReady1 =>
    split
    · exact .forward .ready rfl (by rw [isState]; decide) fun _ => rfl
    · exact initTimeout_turn
  case ready => exact .waits rfl rfl (.inl isState)

/-- A call that does not sleep is the same call without a sleep. -/
theorem Turn.awake {result : Polled × List InitEvent}
    (turn : Turn { ctrlr with sleepTimeoutTsc := 0 } poll result) {events : List InitEvent}
    (suffix : ∀ event ∈ result.2, event ∈ events) : Turn ctrlr poll (result.1, events) := by
  cases turn with
  | forward next isNext later infinite => exact .forward next isNext later infinite
  | fails state timeout failed isError => exact .fails state timeout (suffix _ failed) isError
  | waits state timeout pending =>
    refine .waits state timeout (pending.imp_right (Or.imp_right ?_))
    intro early passed
    exact early (UInt64.lt_of_le_of_lt UInt64.zero_le passed)

theorem processInit_turn : Turn ctrlr poll (processInit hz ctrlr poll) := by
  rw [processInit]
  split
  · next asleep =>
    exact .waits rfl rfl (.inr (.inr fun passed => UInt64.not_le.mpr passed asleep.2))
  · split
    · exact processState_turn.awake fun event member => List.mem_cons_of_mem _ member
    · split
      · exact initTimeout_turn.awake fun event member => member
      · exact .fails rfl rfl (List.mem_singleton_self _) eio_neg_ne_zero

end Steps

/-! ### Runs -/

section Runs

variable {hz ticks : UInt64} {ctrlr : Ctrlr} {polls : List Poll} {last : Polled}
  {events : List InitEvent}

theorem initStep_iff {polled next : Polled} {poll : Poll} :
    initStep hz polled poll = some (next, events) ↔
      polled.rc = 0 ∧ processInit hz polled.ctrlr poll = (next, events) := by
  rw [initStep, Option.ite_none_left_eq_some, not_not, Option.some.injEq]

theorem run_history
    (ran : run (initStep hz) ⟨0, constructCtrlr hz ticks ctrlr⟩ polls = some (last, events)) :
    History events last.rc last.ctrlr.state := by
  have start : History [] 0 InitState.init :=
    ⟨preceded_nil, fun _ member => absurd member List.not_mem_nil,
      fun _ member => absurd member List.not_mem_nil,
      fun _ member => absurd member List.not_mem_nil, fun _ => trivial⟩
  refine run_invariant (initStep hz) (fun polled past => History past polled.rc polled.ctrlr.state)
    ?_ [] start ran
  intro polled past poll next events history taken
  obtain ⟨isZero, result⟩ := initStep_iff.mp taken
  rw [isZero] at history
  have continued : Continues past (processInit hz polled.ctrlr poll) :=
    processInit_continues history
  rw [result] at continued
  exact continued

theorem initStep_turn {polled next : Polled} {poll : Poll}
    (taken : initStep hz polled poll = some (next, events)) :
    Turn polled.ctrlr poll (next, events) :=
  (initStep_iff.mp taken).2 ▸ processInit_turn

/-- The state never moves backwards. -/
theorem run_rank {first : Polled} (ran : run (initStep hz) first polls = some (last, events)) :
    first.ctrlr.state.rank ≤ last.ctrlr.state.rank := by
  refine run_invariant (initStep hz)
    (fun polled _ => first.ctrlr.state.rank ≤ polled.ctrlr.state.rank) ?_ [] (Nat.le_refl _) ran
  intro polled past poll next events before taken
  cases initStep_turn taken with
  | forward state isNext later => exact isNext ▸ Nat.le_of_lt (Nat.lt_of_le_of_lt before later)
  | fails state | waits state => exact state ▸ before

/-- A controller that is ready has no timeout. -/
theorem run_infinite
    (ran : run (initStep hz) ⟨0, constructCtrlr hz ticks ctrlr⟩ polls = some (last, events)) :
    last.ctrlr.state = .ready → last.ctrlr.stateTimeoutTsc = timeoutInfinite := by
  refine run_invariant (initStep hz)
    (fun polled _ => polled.ctrlr.state = .ready → polled.ctrlr.stateTimeoutTsc = timeoutInfinite)
    ?_ [] InitState.noConfusion ran
  intro polled past poll next events before taken
  cases initStep_turn taken with
  | forward state isNext _ infinite =>
    intro isReady
    exact infinite (isNext.symm.trans isReady)
  | fails state timeout | waits state timeout =>
    rw [state, timeout]
    exact before

/--
Whatever the device answers, and however often the function is called: what happens is
ordered, the state never moves backwards, its timeout stays what it was while the
controller is in it, and the first call after the timeout and after a pending sleep
leaves it.
-/
theorem run_inOrder
    (ran : run (initStep hz) ⟨0, constructCtrlr hz ticks ctrlr⟩ polls = some (last, events)) :
    Preceded Ordered events ∧
    (∀ more next later, run (initStep hz) last more = some (next, later) →
      last.ctrlr.state.rank ≤ next.ctrlr.state.rank) ∧
    (∀ poll next later, initStep hz last poll = some (next, later) →
      next.ctrlr.state = last.ctrlr.state →
        next.ctrlr.stateTimeoutTsc = last.ctrlr.stateTimeoutTsc) ∧
    (∀ poll next later, initStep hz last poll = some (next, later) →
      last.ctrlr.stateTimeoutTsc < poll.ticks → last.ctrlr.sleepTimeoutTsc < poll.ticks →
        last.ctrlr.state.rank < next.ctrlr.state.rank ∨ .fail ∈ later ∧ next.rc ≠ 0) := by
  refine ⟨(run_history ran).ordered, fun _ _ _ goesOn => run_rank goesOn, ?_, ?_⟩
  · intro poll next later taken isSame
    cases initStep_turn taken with
    | forward state isNext forward =>
      rw [← isNext, isSame] at forward
      exact absurd forward (Nat.lt_irrefl _)
    | fails _ timeout | waits _ timeout => exact timeout
  · intro poll next later taken timedOut awake
    cases initStep_turn taken with
    | forward state isNext forward => exact .inl (isNext ▸ forward)
    | fails _ _ failed isError => exact .inr ⟨failed, isError⟩
    | waits _ _ pending =>
      rcases pending with isReady | early | asleep
      · rw [run_infinite ran isReady] at timedOut
        exact absurd timedOut (not_infinite_lt poll.ticks)
      · exact absurd timedOut early
      · exact absurd awake asleep

end Runs

/-- A call at a time with given registers, where all functions that are called succeed. -/
def pollAt (ticks : UInt64) (en rdy : Bool) : Poll where
  ticks := ticks
  cc := some ⟨en, 0⟩
  csts := some ⟨rdy⟩
  setCcRc := 0
  enableRc := 0
  startRc := 0
  setStateTicks := ticks
  sleepTicks := ticks
  timeoutTicks := ticks
  monotone := UInt64.le_refl ticks

/-- The controller is found enabled and not yet ready. -/
def bringUp : List Poll :=
  [pollAt 1 true false, pollAt 2 true false, pollAt 3 true true, pollAt 4 false true,
    pollAt 5 false false, pollAt 6 false false, pollAt 7 true false, pollAt 8 true true]

def broughtUp : List InitEvent :=
  [.read .init ⟨true, 0⟩ ⟨false⟩, .enter .disableWaitForReady1,
    .read .disableWaitForReady1 ⟨true, 0⟩ ⟨false⟩,
    .read .disableWaitForReady1 ⟨true, 0⟩ ⟨true⟩, .setCc ⟨false, 0⟩ 0,
    .enter .disableWaitForReady0,
    .read .disableWaitForReady0 ⟨false, 0⟩ ⟨true⟩,
    .read .disableWaitForReady0 ⟨false, 0⟩ ⟨false⟩, .enter .enable,
    .read .enable ⟨false, 0⟩ ⟨false⟩, .enable 0, .enter .enableWaitForReady1,
    .read .enableWaitForReady1 ⟨true, 0⟩ ⟨false⟩,
    .read .enableWaitForReady1 ⟨true, 0⟩ ⟨true⟩, .start 0, .enter .ready]

def unused : Ctrlr where
  state := .ready
  stateTimeoutTsc := 0
  sleepTimeoutTsc := 0
  capTo := 2
  quirkDelay := false

theorem run_inOrder_bringUp :
    ∃ last, run (initStep 1000) ⟨0, constructCtrlr 1000 0 unused⟩ bringUp =
        some (last, broughtUp) ∧ last.ctrlr.state = .ready ∧ Preceded Ordered broughtUp := by
  have ran : ∃ last, run (initStep 1000) ⟨0, constructCtrlr 1000 0 unused⟩ bringUp =
      some (last, broughtUp) ∧ last.ctrlr.state = .ready := ⟨_, rfl, rfl⟩
  obtain ⟨last, ran, isReady⟩ := ran
  exact ⟨last, ran, isReady, (run_inOrder ran).1⟩

end StudyNotes.Nvme
