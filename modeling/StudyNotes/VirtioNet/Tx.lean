/-
This file models the transmit side of one queue pair of the virtio-net device.

The device runs one handler at a time: for a kick of the guest, for its bottom
half or timer, for the completion of a packet that the backend had put off, and
for changes of the device status. The guest runs beside it and can add elements
between any two turns of the loop that sends packets. It looks whether the
device wants to be notified only after it has added an element.

What the backend does with a packet, and whether the packet can be built at
all, is an input of the model.
-/

import StudyNotes.Library.Machine

namespace StudyNotes.VirtioNet

/-- The mode of the transmit queues, the length of a burst and the place of the queue pair. -/
structure TxConfig where
  timer : Bool
  txBurst : Int
  index : Nat
  maxQueues : Nat

/-- The functions that call `virtio_net_flush_tx`. The bottom half calls it twice. -/
inductive Caller
  | handleTxTimer
  | txTimer
  | txComplete
  | txBh
  | txBhAgain
  deriving DecidableEq

/-- Where the device is between two steps. -/
inductive Phase (Element : Type)
  | idle
  | flushing (caller : Caller) (numPackets : Int)
  /-- The device has ended itself because of a malformed element. -/
  | exited (elem : Element)
  /-- An assertion has failed. -/
  | aborted

/-- What becomes of an element that was popped. -/
inductive SendResult
  | sent
  | queued
  | dropped
  | malformed
  deriving DecidableEq

/-- A transmit queue and its handlers. -/
structure TxState (Element : Type) where
  /-- The elements the guest has added to `tx_vq` and the device has not popped. -/
  avail : List Element
  notification : Bool
  /-- The guest has added an element and not yet looked whether to kick. -/
  looking : Bool
  kicked : Bool
  txWaiting : Bool
  /-- The bottom half is scheduled or the timer armed. -/
  scheduled : Bool
  asyncElem : Option Element
  driverOk : Bool
  vmRunning : Bool
  linkUp : Bool
  multiqueue : Bool
  currQueues : Nat
  phase : Phase Element

inductive TxEvent (Element : Type)
  | popped (elem : Element)
  | pushed (elem : Element)

variable {Element : Type} (config : TxConfig) (state : TxState Element)

/-- A queue pair as it is created. -/
def newQueue (vmRunning linkUp multiqueue : Bool) : TxState Element where
  avail := []
  notification := true
  looking := false
  kicked := false
  txWaiting := false
  scheduled := false
  asyncElem := none
  driverOk := false
  vmRunning := vmRunning
  linkUp := linkUp
  multiqueue := multiqueue
  currQueues := 1
  phase := .idle

/-! ### Sending packets -/

def eBusy : Int := 16

/--
The start of `virtio_net_flush_tx`. What its caller does with a result of the
function is given by `finish`.
-/
def startFlush (caller : Caller) (finish : Int → TxState Element → TxState Element)
    (state : TxState Element) : TxState Element :=
  if !state.driverOk then finish 0 state
  else if state.asyncElem.isSome then finish 0 { state with notification := false }
  else { state with phase := .flushing caller 0 }

/-- Schedule the bottom half again. -/
def reschedule : TxState Element :=
  { state with scheduled := true, txWaiting := true, phase := .idle }

/-- The rest of `virtio_net_tx_bh` after the second flush. -/
def finishAgain (ret : Int) (state : TxState Element) : TxState Element :=
  if ret > 0 then reschedule { state with notification := false }
  else { state with phase := .idle }

/-- The rest of `virtio_net_tx_bh` after the first flush. -/
def finishBh (ret : Int) (state : TxState Element) : TxState Element :=
  if ret = -eBusy then { state with phase := .idle }
  else if ret ≥ config.txBurst then reschedule state
  else startFlush .txBhAgain finishAgain { state with notification := true }

/-- What is left to do for the caller of `virtio_net_flush_tx`. -/
def finish : Caller → Int → TxState Element → TxState Element
  | .txBh => finishBh config
  | .txBhAgain => finishAgain
  | .handleTxTimer => fun _ state => { state with phase := .idle }
  | .txTimer => fun _ state => { state with phase := .idle }
  | .txComplete => fun _ state => { state with phase := .idle }

/-- `virtio_net_flush_tx`, up to its loop. -/
def flushTx (caller : Caller) : TxState Element → TxState Element :=
  startFlush caller (finish config caller)

/-- One turn of the loop of `virtio_net_flush_tx`. -/
def flushTurn (caller : Caller) (numPackets : Int)
    (result : SendResult) : TxState Element × List (TxEvent Element) :=
  match state.avail with
  | [] => (finish config caller numPackets state, [])
  | elem :: rest =>
    let popped := { state with avail := rest }
    match result with
    | .malformed => ({ popped with phase := .exited elem }, [.popped elem])
    | .queued =>
      (finish config caller (-eBusy) { popped with notification := false, asyncElem := some elem },
        [.popped elem])
    | .sent | .dropped =>
      if numPackets + 1 ≥ config.txBurst then
        (finish config caller (numPackets + 1) popped, [.popped elem, .pushed elem])
      else
        ({ popped with phase := .flushing caller (numPackets + 1) }, [.popped elem, .pushed elem])

/-! ### The handlers -/

/-- `virtio_net_tx_complete`, for the element the backend had put off. -/
def txComplete (elem : Element) (state : TxState Element) :
    TxState Element × List (TxEvent Element) :=
  (flushTx config .txComplete { state with asyncElem := none, notification := true },
    [.pushed elem])

/-- `virtio_net_handle_tx_timer`. -/
def handleTxTimer : TxState Element :=
  if !state.vmRunning then { state with txWaiting := true }
  else if state.txWaiting then
    flushTx config .handleTxTimer
      { state with notification := true, scheduled := false, txWaiting := false }
  else { state with scheduled := true, txWaiting := true, notification := false }

/-- `virtio_net_handle_tx_bh`. -/
def handleTxBh : TxState Element :=
  if state.txWaiting then state
  else if !state.vmRunning then { state with txWaiting := true }
  else { state with txWaiting := true, notification := false, scheduled := true }

/-- The start that `virtio_net_tx_timer` and `virtio_net_tx_bh` share. -/
def runDeferred (body : TxState Element → TxState Element) (state : TxState Element) :
    TxState Element :=
  if !state.vmRunning then
    if state.txWaiting then state else { state with phase := .aborted }
  else
    let running := { state with txWaiting := false }
    if !running.driverOk then running else body running

/-- `virtio_net_tx_timer`. -/
def txTimer : TxState Element → TxState Element :=
  runDeferred fun state => flushTx config .txTimer { state with notification := true }

/-- `virtio_net_tx_bh`. -/
def txBh : TxState Element → TxState Element :=
  runDeferred (flushTx config .txBh)

/-- The queue pair is one that the guest uses. -/
def active : Bool :=
  !((!state.multiqueue && config.index != 0) || config.index ≥ state.currQueues)

/-- `virtio_net_set_status` for this queue pair and without vhost. -/
def setStatus (driverOk : Bool) (state : TxState Element) : TxState Element :=
  let queueStatus := active config state && driverOk
  let queueStarted := queueStatus && state.linkUp && state.vmRunning
  if state.txWaiting then { state with scheduled := queueStarted } else state

@[simp] theorem setStatus_asyncElem (driverOk : Bool) (state : TxState Element) :
    (setStatus config driverOk state).asyncElem = state.asyncElem := by
  simp only [setStatus]
  split <;> rfl

@[simp] theorem setStatus_phase (driverOk : Bool) (state : TxState Element) :
    (setStatus config driverOk state).phase = state.phase := by
  simp only [setStatus]
  split <;> rfl

/-! ### The device and its guest -/

inductive TxAction (Element : Type)
  /-- The guest adds an element. -/
  | publish (elem : Element)
  /-- The guest kicks if the device wants to be notified. -/
  | look
  /-- The guest kicks in any case. -/
  | kick
  | handleKick
  | deferred
  | proceed (result : SendResult)
  | complete
  | writeStatus (driverOk : Bool)
  | reset
  | setVm (running : Bool)
  | setLink (up : Bool)
  | setQueues (queues : Nat)

/-- The actions of the guest's processors, which do not wait for the device. -/
def guestStep : TxAction Element → Option (TxState Element)
  | .publish elem => some { state with avail := state.avail ++ [elem], looking := true }
  | .look =>
    let wanted := state.looking && state.notification
    some { state with looking := false, kicked := state.kicked || wanted }
  | .kick => some { state with kicked := true }
  | _ => none

/-- The handlers, which start when no other one is running. -/
def handlerStep :
    TxAction Element → Option (TxState Element × List (TxEvent Element))
  | .handleKick =>
    if state.kicked then
      let taken := { state with kicked := false }
      some (if config.timer then handleTxTimer config taken else handleTxBh taken, [])
    else none
  | .deferred =>
    if state.scheduled then
      let taken := { state with scheduled := false }
      some (if config.timer then txTimer config taken else txBh config taken, [])
    else none
  | .complete => state.asyncElem.map fun elem => txComplete config elem state
  | .writeStatus driverOk =>
    some ({ setStatus config driverOk state with driverOk := driverOk }, [])
  | .reset =>
    -- The ring is taken away from the device, and a new one asks for notifications.
    some ({ setStatus config false state with
      driverOk := false
      currQueues := 1
      avail := []
      notification := true
      looking := false
      kicked := false }, [])
  | .setVm running => some (setStatus config state.driverOk { state with vmRunning := running }, [])
  | .setLink up => some (setStatus config state.driverOk { state with linkUp := up }, [])
  | .setQueues queues =>
    if 1 ≤ queues ∧ queues ≤ config.maxQueues ∧ state.multiqueue then
      some (setStatus config state.driverOk { state with currQueues := queues }, [])
    else none
  | _ => none

def step (action : TxAction Element) : Option (TxState Element × List (TxEvent Element)) :=
  match state.phase, action with
  | .exited _, _ => none
  | .aborted, _ => none
  | .flushing caller numPackets, .proceed result =>
    some (flushTurn config state caller numPackets result)
  | .idle, action =>
    match guestStep state action with
    | some next => some (next, [])
    | none => handlerStep config state action
  | .flushing _ _, action => (guestStep state action).map fun next => (next, [])

/-- A step is a turn of the loop, something the guest does, or a handler that starts. -/
theorem step_cases {config : TxConfig} {state next : TxState Element} {action : TxAction Element}
    {events : List (TxEvent Element)} (taken : step config state action = some (next, events)) :
    (∃ caller numPackets result, state.phase = .flushing caller numPackets ∧
        flushTurn config state caller numPackets result = (next, events)) ∨
      (guestStep state action = some next ∧ events = []) ∨
      (state.phase = .idle ∧ handlerStep config state action = some (next, events)) := by
  unfold step at taken
  split at taken
  · cases taken
  · cases taken
  · rename_i caller numPackets result flushing
    exact .inl ⟨caller, numPackets, result, flushing, Option.some.inj taken⟩
  · rename_i idle
    split at taken
    · rename_i next' moved
      cases taken
      exact .inr (.inl ⟨moved, rfl⟩)
    · exact .inr (.inr ⟨idle, taken⟩)
  · obtain ⟨next', moved, isPair⟩ := Option.map_eq_some_iff.mp taken
    cases isPair
    exact .inr (.inl ⟨moved, rfl⟩)

end StudyNotes.VirtioNet
