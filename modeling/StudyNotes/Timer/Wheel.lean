/-
This file models the timer wheel of one `tvec_base`.

Times are integers, and the source's `unsigned long` is their residue modulo
`2 ^ 64`: every comparison and every index below is computed from residues. A
list head is a slot of one of the five vectors or the local `work_list` of
`__run_timers`. That function gives up the lock around every callback, so it is
cut into the pieces between which other things can happen: the check of the
outer loop with what follows it up to the inner loop, one turn of the inner
loop up to the callback, and the return of the callback.
-/

import StudyNotes.Library.Machine
import Mathlib.Algebra.Order.Ring.Int
import Mathlib.Algebra.Order.Ring.Nat

namespace StudyNotes.Timer

open Library Function

/-- What does not change while the wheel runs. `apply_slack` is not part of the source; it may
look at the time and at the timer. -/
structure Config where
  baseSmall : Bool
  applySlack : Int → Nat → Int → Int
  deferrable : Nat → Bool

/-- `TVN_BITS`. -/
def Config.tvnBits (config : Config) : Nat := if config.baseSmall then 4 else 6

/-- `TVR_BITS`. -/
def Config.tvrBits (config : Config) : Nat := if config.baseSmall then 6 else 8

/-- `TVN_SIZE`. -/
def Config.tvnSize (config : Config) : Int := 2 ^ config.tvnBits

/-- `TVR_SIZE`. -/
def Config.tvrSize (config : Config) : Int := 2 ^ config.tvrBits

/-- `MAX_TVAL`. -/
def Config.maxTval (config : Config) : Int := 2 ^ (config.tvrBits + 4 * config.tvnBits) - 1

/-! ### Machine words -/

/-- Conversion to `unsigned long`. -/
def ulong (time : Int) : Int := time % 2 ^ 64

/-- Conversion to `long`. -/
def slong (time : Int) : Int := (time + 2 ^ 63) % 2 ^ 64 - 2 ^ 63

/-- `time_after_eq`. -/
def timeAfterEq (a b : Int) : Bool := 0 ≤ slong (a - b)

/-- `time_before`. -/
def timeBefore (a b : Int) : Bool := slong (a - b) < 0

/-! ### The base and the timers -/

/-- The head of a list: `tv1` to `tv5` with the index of a slot, or `work_list`. -/
inductive ListHead where
  | tv (n index : Nat)
  | workList
  deriving DecidableEq, Repr

/-- Where the softirq is: outside `__run_timers`, at the outer loop, at the inner loop for a
tick, or in the function of a timer. -/
inductive Phase where
  | idle
  | looping
  | working (tick : Int)
  | calling (tick : Int) (timer : Nat)
  deriving DecidableEq, Repr

/-- The `tvec_base` and the timers. A timer is pending when its `entry.next` is not `NULL`. -/
structure State where
  jiffies : Int
  timerJiffies : Int
  nextTimer : Int
  activeTimers : Nat
  allTimers : Nat
  runningTimer : Option Nat
  lists : ListHead → List Nat
  expires : Nat → Int
  pending : Nat → Bool
  phase : Phase

/-- `init_timers_cpu`. -/
def initTimersCpu (jiffies : Int) (expires : Nat → Int) : State where
  jiffies
  timerJiffies := jiffies
  nextTimer := jiffies
  activeTimers := 0
  allTimers := 0
  runningTimer := none
  lists _ := []
  expires
  pending _ := false
  phase := .idle

section Operations

variable (config : Config)

/-- `catchup_timer_jiffies`. -/
def catchupTimerJiffies (state : State) : Bool × State :=
  if state.allTimers = 0 then (true, { state with timerJiffies := state.jiffies })
  else (false, state)

/-! ### Arming -/

/-- The slot of the level above `TVR_BITS + N * TVN_BITS` bits. -/
def slotIndex (time : Int) (N : Nat) : Nat :=
  (ulong time / 2 ^ (config.tvrBits + N * config.tvnBits) % config.tvnSize).toNat

/-- The list of `tv1` for a time. -/
def rootIndex (time : Int) : Nat := (ulong time % config.tvrSize).toNat

/-- The list that `__internal_add_timer` chooses. -/
def vecFor (expires timerJiffies : Int) : ListHead :=
  let idx := ulong (expires - timerJiffies)
  if idx < config.tvrSize then .tv 1 (rootIndex config expires)
  else if idx < 2 ^ (config.tvrBits + config.tvnBits) then .tv 2 (slotIndex config expires 0)
  else if idx < 2 ^ (config.tvrBits + 2 * config.tvnBits) then .tv 3 (slotIndex config expires 1)
  else if idx < 2 ^ (config.tvrBits + 3 * config.tvnBits) then .tv 4 (slotIndex config expires 2)
  else if slong (expires - timerJiffies) < 0 then .tv 1 (rootIndex config timerJiffies)
  else if idx > config.maxTval then .tv 5 (slotIndex config (config.maxTval + timerJiffies) 3)
  else .tv 5 (slotIndex config expires 3)

variable (timer : Nat)

/-- `list_add_tail`. -/
def listAddTail (head : ListHead) (state : State) : State :=
  { state with
    lists := update state.lists head (state.lists head ++ [timer])
    pending := update state.pending timer true }

/-- `__internal_add_timer`. -/
def rawInternalAddTimer (state : State) : State :=
  listAddTail timer (vecFor config (state.expires timer) state.timerJiffies) state

/-- `internal_add_timer`. -/
def internalAddTimer (state : State) : State :=
  let state := (catchupTimerJiffies state).2
  let state := rawInternalAddTimer config timer state
  let state :=
    if config.deferrable timer then state
    else { state with
      activeTimers := state.activeTimers + 1
      nextTimer :=
        if state.activeTimers = 0 ∨ timeBefore (state.expires timer) state.nextTimer then
          state.expires timer
        else state.nextTimer }
  { state with allTimers := state.allTimers + 1 }

/-! ### Removing -/

/-- The entry is unlinked from the list it is on, whichever that is. -/
def detachTimer (clearPending : Bool) (state : State) : State :=
  { state with
    lists := fun head => (state.lists head).erase timer
    pending := if clearPending then update state.pending timer false else state.pending }

/-- `detach_if_pending`. -/
def detachIfPending (clearPending : Bool) (state : State) : Bool × State :=
  if state.pending timer then
    let state := detachTimer timer clearPending state
    let state :=
      if config.deferrable timer then state
      else { state with
        activeTimers := state.activeTimers - 1
        nextTimer :=
          if ulong (state.expires timer) = ulong state.nextTimer then state.timerJiffies
          else state.nextTimer }
    (true, (catchupTimerJiffies { state with allTimers := state.allTimers - 1 }).2)
  else (false, state)

/-- `detach_expired_timer`. -/
def detachExpiredTimer (state : State) : State :=
  let state := detachTimer timer true state
  let state :=
    if config.deferrable timer then state
    else { state with activeTimers := state.activeTimers - 1 }
  (catchupTimerJiffies { state with allTimers := state.allTimers - 1 }).2

/-- `__mod_timer` where the timer stays on its base. -/
def rawModTimer (expires : Int) (state : State) : State :=
  let state := (detachIfPending config timer false state).2
  internalAddTimer config timer
    { state with expires := update state.expires timer expires }

/-! ### Running -/

/-- Every timer of a slot is added again; the index is the result. -/
def cascade (n index : Nat) (state : State) : Nat × State :=
  let tvList := state.lists (.tv n index)
  let state := { state with lists := update state.lists (.tv n index) [] }
  (index, tvList.foldl (fun state timer => rawInternalAddTimer config timer state) state)

/-- The condition at the start of a turn of `__run_timers`, with what it does. -/
def cascadeTimers (state : State) : State :=
  if rootIndex config state.timerJiffies ≠ 0 then state
  else
    let (index, state) := cascade config 2 (slotIndex config state.timerJiffies 0) state
    if index ≠ 0 then state
    else
      let (index, state) := cascade config 3 (slotIndex config state.timerJiffies 1) state
      if index ≠ 0 then state
      else
        let (index, state) := cascade config 4 (slotIndex config state.timerJiffies 2) state
        if index ≠ 0 then state
        else (cascade config 5 (slotIndex config state.timerJiffies 3) state).2

/-- From the start of a turn of the outer loop to its inner loop. -/
def takeTick (state : State) : State :=
  let tick := state.timerJiffies
  let index := rootIndex config tick
  let state := cascadeTimers config state
  let state := { state with timerJiffies := state.timerJiffies + 1 }
  { state with
    lists := update
      (update state.lists .workList (state.lists (.tv 1 index))) (.tv 1 index) []
    phase := .working tick }

/-- The condition of the outer loop of `__run_timers`. -/
def outerLoop (state : State) : State :=
  if timeAfterEq state.jiffies state.timerJiffies then takeTick config state
  else { state with runningTimer := none, phase := .idle }

/-- The softirq up to the outer loop. -/
def runTimerSoftirq (state : State) : State :=
  if timeAfterEq state.jiffies state.timerJiffies then
    match catchupTimerJiffies state with
    | (true, state) => state
    | (false, state) => { state with phase := .looping }
  else state

/-! ### The machine -/

/-- What can happen next. -/
inductive Action where
  | tick (count : Nat)
  | modTimer (timer : Nat) (expires : Int)
  | addTimer (timer : Nat) (expires : Int)
  | delTimer (timer : Nat)
  | softirq
  | proceed
  deriving DecidableEq, Repr

/-- What can be seen: a timer is armed or removed, and its function is called at a tick. -/
inductive Event where
  | armed (timer : Nat)
  | removed (timer : Nat)
  | called (timer : Nat) (tick jiffies : Int)
  deriving DecidableEq, Repr

/-- The lock is free: the softirq is not running, or it is in a callback. -/
def Phase.unlocked : Phase → Bool
  | .idle => true
  | .calling _ _ => true
  | _ => false

/-- `mod_timer`. -/
def modTimer (expires : Int) (state : State) : State × List Event :=
  let expires := config.applySlack state.jiffies timer expires
  if state.pending timer ∧ ulong (state.expires timer) = ulong expires then (state, [])
  else (rawModTimer config timer expires state, [.armed timer])

/-- The owner sets `expires` and calls `add_timer`, which must not be pending. -/
def addTimer (expires : Int) (state : State) : Option (State × List Event) :=
  if state.pending timer then none
  else
    let state := { state with expires := update state.expires timer expires }
    some (modTimer config timer (state.expires timer) state)

/-- `del_timer`. -/
def delTimer (state : State) : State × List Event :=
  match detachIfPending config timer true state with
  | (true, state) => (state, [.removed timer])
  | (false, state) => (state, [])

/-- The next piece of `__run_timers`. -/
def proceed (state : State) : Option (State × List Event) :=
  match state.phase with
  | .idle => none
  | .looping => some (outerLoop config state, [])
  | .working tick =>
    match state.lists .workList with
    | [] => some ({ state with phase := .looping }, [])
    | timer :: _ =>
      let next := detachExpiredTimer config timer { state with runningTimer := some timer }
      some ({ next with phase := .calling tick timer }, [.called timer tick state.jiffies])
  | .calling tick _ => some ({ state with phase := .working tick }, [])

/-- Time passes at any moment, but never so much that `timer_jiffies` is half the range behind,
as the comparisons of times require. Timers are armed and removed while the lock is free. -/
def step (state : State) : Action → Option (State × List Event)
  | .tick count =>
    if state.jiffies + count - state.timerJiffies < 2 ^ 63 then
      some ({ state with jiffies := state.jiffies + count }, [])
    else none
  | .modTimer timer expires =>
    if state.phase.unlocked then some (modTimer config timer expires state) else none
  | .addTimer timer expires =>
    if state.phase.unlocked then addTimer config timer expires state else none
  | .delTimer timer => if state.phase.unlocked then some (delTimer config timer state) else none
  | .softirq =>
    if state.phase = .idle then some (runTimerSoftirq state, []) else none
  | .proceed => proceed config state

end Operations

end StudyNotes.Timer
