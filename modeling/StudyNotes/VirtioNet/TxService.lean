/-
This file proves when the transmit queue of the virtio-net device is never left
alone with elements in it.

An element is looked after by the completion of an element that waits for the
backend, by the bottom half or timer, or by a kick. A flush that stops after a
full burst with elements left breaks this, unless it was started by the bottom half,
which then schedules itself again: the timer and the completion of a packet do not. Other
ways to leave elements behind are a link that is down and a guest that uses the
queue before the device is ready.
-/

import StudyNotes.VirtioNet.Tx

namespace StudyNotes.VirtioNet

open Library

variable {Element : Type} (config : TxConfig) (state : TxState Element)

/-! ### Orderly steps -/

/-- The callers that do nothing about elements that are left after a full burst. -/
def Caller.leaves : Caller → Bool
  | .handleTxTimer => true
  | .txTimer => true
  | .txComplete => true
  | .txBh => false
  | .txBhAgain => false

/--
A step of a guest that uses the queue only while the device is ready, where no
flush outside of the bottom half is offered more than a full burst, with what is in
the ring when it starts and what is added while it runs.
-/
def orderly : TxAction Element → Bool
  | .publish _ =>
    state.driverOk &&
      match state.phase with
      | .flushing caller numPackets =>
        !caller.leaves || decide (numPackets + state.avail.length + 1 ≤ config.txBurst)
      | _ => true
  | .kick => state.driverOk
  | .handleKick =>
    !(config.timer && state.txWaiting) || decide (state.avail.length ≤ config.txBurst)
  | .deferred => !config.timer || decide (state.avail.length ≤ config.txBurst)
  | .complete => decide (state.avail.length ≤ config.txBurst)
  | .writeStatus driverOk => driverOk
  | _ => true

def orderlyStep (action : TxAction Element) : Option (TxState Element × List (TxEvent Element)) :=
  if orderly config state action then step config state action else none

/-! ### Who looks after the elements -/

/-- The bottom half or timer runs exactly for a queue that waits and may run. -/
def Flags : Prop :=
  (state.scheduled = true → state.txWaiting = true ∧ state.driverOk = true) ∧
    (active config state = true → state.driverOk = true → state.linkUp = true →
      state.vmRunning = true → state.txWaiting = true → state.scheduled = true) ∧
    (state.kicked = true ∨ state.looking = true → state.driverOk = true) ∧
    (state.driverOk = false → state.avail = [])

/-- Between handlers, something will look after the elements; a flush knows what it must do. -/
def LookedAfter : Prop :=
  match state.phase with
  | .idle =>
    state.asyncElem.isSome = true ∨ state.txWaiting = true ∨
      (state.notification = true ∧
        (state.avail ≠ [] → state.kicked = true ∨ state.looking = true))
  | .flushing caller numPackets =>
    state.driverOk = true ∧ state.asyncElem = none ∧ 0 ≤ numPackets ∧
      (caller ≠ .txBh → state.notification = true) ∧
      (caller.leaves = true → numPackets + state.avail.length ≤ config.txBurst)
  | .exited _ => True
  | .aborted => True

def Service : Prop :=
  Flags config state ∧ LookedAfter config state

variable {config state} {next : TxState Element} {caller : Caller} {numPackets : Int}
  {events : List (TxEvent Element)} {action : TxAction Element}

section

variable (ret : Int) (flags : Flags config state)
include flags

/-- Nothing is left to do when an element waits for the backend or the ring is empty. -/
theorem service_of_idle
    (nothingLeft : state.asyncElem.isSome = true ∨ (state.notification = true ∧ state.avail = [])) :
    Service config { state with phase := .idle } := by
  refine ⟨flags, ?_⟩
  rcases nothingLeft with waits | ⟨notified, empty⟩
  · exact .inl waits
  · exact .inr (.inr ⟨notified, fun nonempty => absurd empty nonempty⟩)

variable (ready : state.driverOk = true)
include ready

theorem reschedule_service : Service config (reschedule state) :=
  ⟨⟨fun _ => ⟨rfl, ready⟩, fun _ _ _ _ _ => rfl, flags.2.2⟩, .inr (.inl rfl)⟩

/-! ### The three ways in which a flush ends -/

theorem finishAgain_service
    (nothingLeft : state.asyncElem.isSome = true ∨ (state.notification = true ∧ state.avail = [])) :
    Service config (finishAgain ret state) := by
  rw [finishAgain]
  split
  · exact reschedule_service flags ready
  · exact service_of_idle flags nothingLeft

/-- The bottom half flushes once more. -/
theorem startAgain_service (notified : state.notification = true) :
    Service config (startFlush .txBhAgain finishAgain state) := by
  rw [startFlush, if_neg (by simp [ready])]
  split
  · rename_i waits
    exact finishAgain_service 0 flags ready (.inl waits)
  · rename_i noElem
    refine ⟨flags, ready, by simpa using noElem, Int.le_refl 0, fun _ => notified, ?_⟩
    rintro ⟨⟩

/-- An element waits for the backend. -/
theorem finish_waits (waits : state.asyncElem.isSome = true) :
    Service config (finish config caller ret state) := by
  cases caller with
  | handleTxTimer | txTimer | txComplete => exact service_of_idle flags (.inl waits)
  | txBhAgain => exact finishAgain_service ret flags ready (.inl waits)
  | txBh =>
    rw [finish, finishBh]
    split
    · exact service_of_idle flags (.inl waits)
    split
    · exact reschedule_service flags ready
    · exact startAgain_service flags ready rfl

/-- The ring is empty. -/
theorem finish_empty (counted : 0 ≤ numPackets)
    (notified : caller ≠ .txBh → state.notification = true) (empty : state.avail = []) :
    Service config (finish config caller numPackets state) := by
  cases caller with
  | handleTxTimer | txTimer | txComplete =>
    exact service_of_idle flags (.inr ⟨notified (by decide), empty⟩)
  | txBhAgain =>
    exact finishAgain_service numPackets flags ready (.inr ⟨notified (by decide), empty⟩)
  | txBh =>
    have notBusy : numPackets ≠ -eBusy := by
      rw [eBusy]
      omega
    rw [finish, finishBh, if_neg notBusy]
    split
    · exact reschedule_service flags ready
    · exact startAgain_service flags ready rfl

/-- The bottom half has sent a full burst. -/
theorem finish_burst (again : caller.leaves = false) (counted : 0 < numPackets)
    (full : numPackets ≥ config.txBurst) :
    Service config (finish config caller numPackets state) := by
  cases caller with
  | handleTxTimer | txTimer | txComplete => cases again
  | txBhAgain =>
    rw [finish, finishAgain, if_pos counted]
    exact reschedule_service flags ready
  | txBh =>
    have notBusy : numPackets ≠ -eBusy := by
      rw [eBusy]
      omega
    rw [finish, finishBh, if_neg notBusy, if_pos full]
    exact reschedule_service flags ready

end

theorem flushTurn_service {result : SendResult} (service : Service config state)
    (flushing : state.phase = .flushing caller numPackets)
    (turn : flushTurn config state caller numPackets result = (next, events)) :
    Service config next := by
  obtain ⟨flags, lookedAfter⟩ := service
  rw [LookedAfter, flushing] at lookedAfter
  obtain ⟨ready, free, counted, notified, inBurst⟩ := lookedAfter
  rw [flushTurn] at turn
  split at turn
  · rename_i empty
    cases turn
    exact finish_empty flags ready counted notified empty
  rename_i elem rest isAvail
  have flagsRest : Flags config { state with avail := rest } :=
    ⟨flags.1, flags.2.1, flags.2.2.1, fun notReady => by cases ready.symm.trans notReady⟩
  split at turn
  · cases turn
    exact ⟨flagsRest, trivial⟩
  · cases turn
    exact finish_waits (-eBusy) flagsRest ready rfl
  all_goals
    rw [isAvail, List.length_cons] at inBurst
    split at turn
    · rename_i full
      cases turn
      cases leaves : caller.leaves with
      | false => exact finish_burst flagsRest ready leaves (by omega) full
      | true =>
        -- Outside of the bottom half a full burst has taken all elements.
        have short := inBurst leaves
        have isEmpty : rest = [] := List.eq_nil_of_length_eq_zero (by omega)
        exact finish_empty flagsRest ready (by omega) notified isEmpty
    · cases turn
      refine ⟨flagsRest, ready, free, by omega, notified, fun leaves => ?_⟩
      have short := inBurst leaves
      simp only
      omega

/-! ### Handlers -/

theorem flushTx_service (flags : Flags config state) (ready : state.driverOk = true)
    (notified : caller ≠ .txBh → state.notification = true)
    (inBurst : caller.leaves = true → (state.avail.length : Int) ≤ config.txBurst) :
    Service config (flushTx config caller state) := by
  rw [flushTx, startFlush, if_neg (by simp [ready])]
  split
  · rename_i waits
    exact finish_waits 0 flags ready waits
  · rename_i noElem
    refine ⟨flags, ready, by simpa using noElem, Int.le_refl 0, notified, fun leaves => ?_⟩
    rw [Int.zero_add]
    exact inBurst leaves

/-- `virtio_net_set_status` schedules the bottom half or timer of a queue that may run. -/
theorem setStatus_flags {driverOk : Bool}
    (waiting : state.scheduled = true → state.txWaiting = true)
    (asks : state.kicked = true ∨ state.looking = true → driverOk = true)
    (quiet : driverOk = false → state.avail = []) :
    Flags config { setStatus config driverOk state with driverOk := driverOk } := by
  simp only [setStatus]
  split
  · rename_i waits
    refine ⟨fun started => ⟨waits, ?_⟩, fun isActive ready up running _ => ?_, asks, quiet⟩
    · simp only [Bool.and_eq_true] at started
      exact started.1.1.2
    · simp only [Bool.and_eq_true]
      exact ⟨⟨⟨isActive, ready⟩, up⟩, running⟩
  · rename_i waits
    refine ⟨fun scheduled => absurd (waiting scheduled) waits, fun _ _ _ _ waits' => ?_, asks,
      quiet⟩
    exact absurd waits' waits

theorem setStatus_lookedAfter {driverOk : Bool}
    (idle : state.phase = .idle) (lookedAfter : LookedAfter config state) :
    LookedAfter config { setStatus config driverOk state with driverOk := driverOk } := by
  simp only [setStatus]
  rw [LookedAfter, idle] at lookedAfter
  split
  · rw [LookedAfter]
    simp only [idle]
    exact lookedAfter
  · rw [LookedAfter]
    simp only [idle]
    exact lookedAfter

/-- A device that is not ready has no work to do. -/
theorem setStatus_notReady (waiting : state.scheduled = true → state.txWaiting = true) :
    (setStatus config false state).scheduled = false := by
  simp only [setStatus]
  split
  · simp
  · rename_i waits
    simpa using fun scheduled => waits (waiting scheduled)

theorem setStatus_self (config : TxConfig) (state : TxState Element) :
    { setStatus config state.driverOk state with driverOk := state.driverOk } =
      setStatus config state.driverOk state := by
  simp only [setStatus]
  split <;> rfl

/-- A change of the machine that keeps the status of the device. -/
theorem setStatus_service (state : TxState Element) {changed : TxState Element}
    (idle : changed.phase = .idle) (service : Service config state)
    (sameReady : changed.driverOk = state.driverOk)
    (sameRing : changed.avail = state.avail ∧ changed.kicked = state.kicked ∧
      changed.looking = state.looking)
    (sameWork : changed.scheduled = state.scheduled ∧ changed.txWaiting = state.txWaiting)
    (lookedAfter : LookedAfter config changed) :
    Service config (setStatus config changed.driverOk changed) := by
  obtain ⟨flags, -⟩ := service
  rw [← setStatus_self]
  refine ⟨setStatus_flags ?_ ?_ ?_, setStatus_lookedAfter idle lookedAfter⟩
  · rw [sameWork.1, sameWork.2]
    exact fun scheduled => (flags.1 scheduled).1
  · rw [sameRing.2.1, sameRing.2.2, sameReady]
    exact flags.2.2.1
  · rw [sameReady, sameRing.1]
    exact flags.2.2.2

theorem lookedAfter_of_waiting
    (idle : state.phase = .idle) (waits : state.txWaiting = true) : LookedAfter config state := by
  rw [LookedAfter, idle]
  exact .inr (.inl waits)

section

variable (flags : Flags config state)
include flags

section

variable (idle : state.phase = .idle) (ready : state.driverOk = true)
include idle ready

/-- A kick while the VM is stopped is kept for when it runs. -/
theorem Flags.waits_service
    (stopped : state.vmRunning = false) : Service config { state with txWaiting := true } := by
  refine ⟨⟨fun _ => ⟨rfl, ready⟩, fun _ _ _ running => ?_, flags.2.2⟩,
    lookedAfter_of_waiting idle rfl⟩
  exact absurd running (by simp [stopped])

theorem Flags.schedules_service :
    Service config { state with txWaiting := true, notification := false, scheduled := true } :=
  ⟨⟨fun _ => ⟨rfl, ready⟩, fun _ _ _ _ _ => rfl, flags.2.2⟩, lookedAfter_of_waiting idle rfl⟩

theorem handleTxTimer_service
    (inBurst : state.txWaiting = true → (state.avail.length : Int) ≤ config.txBurst) :
    Service config (handleTxTimer config state) := by
  rw [handleTxTimer]
  split
  · rename_i stopped
    exact flags.waits_service idle ready (by simpa using stopped)
  split
  · rename_i waits
    refine flushTx_service ⟨fun scheduled => ?_, fun _ _ _ _ waiting => ?_, flags.2.2⟩ ready
      (fun _ => rfl) fun _ => inBurst waits
    · cases scheduled
    · cases waiting
  · exact flags.schedules_service idle ready

theorem handleTxBh_service : Service config (handleTxBh state) := by
  rw [handleTxBh]
  split
  · rename_i waits
    exact ⟨flags, lookedAfter_of_waiting idle waits⟩
  split
  · rename_i stopped
    exact flags.waits_service idle ready (by simpa using stopped)
  · exact flags.schedules_service idle ready

end

end

/-- The bottom half or timer has been taken off its list and starts. -/
theorem runDeferred_service {body : TxState Element → TxState Element} (flags : Flags config state)
    (idle : state.phase = .idle) (ready : state.driverOk = true)
    (serves : Flags config { state with scheduled := false, txWaiting := false } →
      Service config (body { state with scheduled := false, txWaiting := false })) :
    Service config (runDeferred body { state with scheduled := false }) := by
  simp only [runDeferred]
  split
  · rename_i stopped
    have flags' : Flags config { state with scheduled := false } := by
      refine ⟨fun scheduled => ?_, fun _ _ _ running => ?_, flags.2.2⟩
      · cases scheduled
      · exact absurd running (by simpa using stopped)
    split
    · rename_i waits
      exact ⟨flags', lookedAfter_of_waiting idle waits⟩
    · exact ⟨flags', trivial⟩
  rw [if_neg (by simp [ready])]
  refine serves ⟨fun scheduled => ?_, fun _ _ _ _ waits => ?_, flags.2.2⟩
  · cases scheduled
  · cases waits

/-! ### Steps and runs -/

/-- What the guest does beside a handler: it may add elements and ask for a kick. -/
theorem LookedAfter.beside
    (lookedAfter : LookedAfter config state) (samePhase : next.phase = state.phase)
    (sameElem : next.asyncElem = state.asyncElem) (sameWaiting : next.txWaiting = state.txWaiting)
    (sameNotification : next.notification = state.notification)
    (sameReady : next.driverOk = state.driverOk)
    (asks : state.notification = true →
      (state.avail ≠ [] → state.kicked = true ∨ state.looking = true) →
        next.avail ≠ [] → next.kicked = true ∨ next.looking = true)
    (inBurst : ∀ caller numPackets, state.phase = .flushing caller numPackets →
      caller.leaves = true → numPackets + state.avail.length ≤ config.txBurst →
        numPackets + next.avail.length ≤ config.txBurst) : LookedAfter config next := by
  rw [LookedAfter] at lookedAfter ⊢
  rw [samePhase, sameElem, sameWaiting, sameNotification, sameReady]
  cases isPhase : state.phase with
  | idle =>
    simp only [isPhase] at lookedAfter ⊢
    exact lookedAfter.imp_right (Or.imp_right fun ⟨notified, pending⟩ =>
      ⟨notified, asks notified pending⟩)
  | flushing caller numPackets =>
    simp only [isPhase] at lookedAfter ⊢
    obtain ⟨ready, free, counted, notified, short⟩ := lookedAfter
    exact ⟨ready, free, counted, notified, fun leaves =>
      inBurst caller numPackets isPhase leaves (short leaves)⟩
  | exited elem | aborted => trivial

theorem guestStep_service (service : Service config state)
    (isOrderly : orderly config state action = true) (taken : guestStep state action = some next) :
    Service config next := by
  obtain ⟨⟨waiting, rescheduled, asks, quiet⟩, lookedAfter⟩ := service
  cases action with
  | publish elem =>
    cases taken
    rw [orderly, Bool.and_eq_true] at isOrderly
    obtain ⟨ready, inBurst⟩ := isOrderly
    refine ⟨⟨waiting, rescheduled, fun _ => ready, fun notReady => ?_⟩,
      lookedAfter.beside rfl rfl rfl rfl rfl (fun _ _ _ => .inr rfl) ?_⟩
    · cases ready.symm.trans notReady
    · intro caller numPackets isPhase leaves _
      simp only [isPhase, leaves, Bool.not_true, Bool.false_or, decide_eq_true_eq] at inBurst
      rw [List.length_append, List.length_singleton]
      omega
  | look =>
    cases taken
    refine ⟨⟨waiting, rescheduled, fun pending => asks ?_, quiet⟩,
      lookedAfter.beside rfl rfl rfl rfl rfl (fun notified pending nonempty => .inl ?_)
        fun _ _ _ _ short => short⟩
    · simp only [Bool.or_eq_true, Bool.and_eq_true, Bool.false_eq_true, or_false] at pending
      exact pending.imp_right And.left
    · simpa [notified] using pending nonempty
  | kick =>
    cases taken
    exact ⟨⟨waiting, rescheduled, fun _ => isOrderly, quiet⟩,
      lookedAfter.beside rfl rfl rfl rfl rfl (fun _ _ _ => .inl rfl) fun _ _ _ _ short => short⟩
  | _ => cases taken

theorem handlerStep_service (idle : state.phase = .idle) (service : Service config state)
    (isOrderly : orderly config state action = true)
    (taken : handlerStep config state action = some (next, events)) : Service config next := by
  obtain ⟨flags, lookedAfter⟩ := service
  cases action with
  | publish elem | look | kick | proceed result => cases taken
  | handleKick =>
    obtain ⟨kicked, isNext⟩ := Option.ite_none_right_eq_some.mp taken
    cases isNext
    have ready := flags.2.2.1 (.inl kicked)
    have flags' : Flags config { state with kicked := false } :=
      ⟨flags.1, flags.2.1, fun _ => ready, flags.2.2.2⟩
    split
    · rename_i timer
      refine handleTxTimer_service flags' idle ready fun waits => ?_
      simpa [orderly, timer, show state.txWaiting = true from waits] using isOrderly
    · exact handleTxBh_service flags' idle ready
  | deferred =>
    obtain ⟨scheduled, isNext⟩ := Option.ite_none_right_eq_some.mp taken
    cases isNext
    have ready := (flags.1 scheduled).2
    split
    · rename_i timer
      refine runDeferred_service flags idle ready fun running => ?_
      refine flushTx_service running ready (fun _ => rfl) fun _ => ?_
      simpa [orderly, timer] using isOrderly
    · refine runDeferred_service flags idle ready fun running => ?_
      exact flushTx_service running ready (absurd rfl) (by rintro ⟨⟩)
  | complete =>
    obtain ⟨elem, held, isNext⟩ := Option.map_eq_some_iff.mp taken
    cases isNext
    by_cases isReady : state.driverOk = true
    · refine flushTx_service flags isReady (fun _ => rfl) fun _ => ?_
      simpa [orderly] using isOrderly
    · have notReady : state.driverOk = false := by simpa using isReady
      simp only [flushTx, startFlush, if_pos, notReady, Bool.not_false, finish]
      refine ⟨?_, .inr (.inr ⟨rfl, absurd (flags.2.2.2 notReady)⟩)⟩
      rw [Flags, notReady] at flags
      exact flags
  | writeStatus driverOk =>
    cases taken
    obtain rfl : driverOk = true := isOrderly
    exact ⟨setStatus_flags (fun scheduled => (flags.1 scheduled).1) (fun _ => rfl) (by rintro ⟨⟩),
      setStatus_lookedAfter idle lookedAfter⟩
  | reset =>
    cases taken
    have stopped : (setStatus config false state).scheduled = false :=
      setStatus_notReady fun scheduled => (flags.1 scheduled).1
    refine ⟨⟨fun scheduled => ?_, ?_, ?_, fun _ => rfl⟩, ?_⟩
    · cases stopped.symm.trans scheduled
    · rintro - ⟨⟩
    · rintro (⟨⟨⟩⟩ | ⟨⟨⟩⟩)
    · rw [LookedAfter]
      simp only [setStatus_phase, idle]
      exact .inr (.inr ⟨trivial, absurd rfl⟩)
  | setVm running | setLink up =>
    cases taken
    exact setStatus_service state idle ⟨flags, lookedAfter⟩ rfl ⟨rfl, rfl, rfl⟩ ⟨rfl, rfl⟩
      lookedAfter
  | setQueues queues =>
    obtain ⟨-, isNext⟩ := Option.ite_none_right_eq_some.mp taken
    cases isNext
    exact setStatus_service state idle ⟨flags, lookedAfter⟩ rfl ⟨rfl, rfl, rfl⟩ ⟨rfl, rfl⟩
      lookedAfter

theorem orderlyStep_service (service : Service config state)
    (taken : orderlyStep config state action = some (next, events)) : Service config next := by
  obtain ⟨isOrderly, taken⟩ := Option.ite_none_right_eq_some.mp taken
  rcases step_cases taken with ⟨caller, numPackets, result, flushing, turn⟩ | ⟨moved, -⟩ |
    ⟨idle, handled⟩
  · exact flushTurn_service service flushing turn
  · exact guestStep_service service isOrderly moved
  · exact handlerStep_service idle service isOrderly handled

/--
After any orderly steps, when no handler is running and the guest is not about
to kick: the elements of a queue that is in use, on a device that is ready and
runs with its link up, are looked after.
-/
theorem orderly_lookedAfter {config : TxConfig} {vmRunning linkUp multiqueue : Bool}
    {state : TxState Element}
    (reachable : Reachable (orderlyStep config) (newQueue vmRunning linkUp multiqueue) state)
    (idle : state.phase = .idle) (settled : state.looking = false)
    (running : state.vmRunning = true) (ready : state.driverOk = true)
    (isActive : active config state = true) (up : state.linkUp = true)
    (nonempty : state.avail ≠ []) :
    state.asyncElem.isSome = true ∨ state.scheduled = true ∨
      (state.notification = true ∧ state.kicked = true) := by
  have start : Service config (newQueue vmRunning linkUp multiqueue : TxState Element) := by
    refine ⟨⟨?_, ?_, ?_, fun _ => rfl⟩, .inr (.inr ⟨rfl, absurd rfl⟩)⟩
    · rintro ⟨⟩
    · rintro - ⟨⟩
    · rintro (⟨⟨⟩⟩ | ⟨⟨⟩⟩)
  obtain ⟨flags, lookedAfter⟩ : Service config state :=
    reachable.invariant (Service config)
      (fun _ _ _ _ service taken => orderlyStep_service service taken) start
  rw [LookedAfter, idle] at lookedAfter
  rcases lookedAfter with waits | waits | ⟨notified, pending⟩
  · exact .inl waits
  · exact .inr (.inl (flags.2.1 isActive ready up running waits))
  · rcases pending nonempty with kicked | looking
    · exact .inr (.inr ⟨notified, kicked⟩)
    · cases settled.symm.trans looking

/-! ### A full burst -/

/-- A device that sends bursts of one packet. -/
def burstOfOne (timer : Bool) : TxConfig :=
  { timer := timer, txBurst := 1, index := 0, maxQueues := 1 }

/-- The timer sends a full burst of two packets, and then the guest adds a third one. -/
def burstAndNext : List (TxAction Nat) :=
  [.writeStatus true, .publish 1, .look, .handleKick, .publish 2, .look, .deferred, .proceed .sent,
    .proceed .sent, .publish 3, .look]

/-- A kick is pending for the third packet. -/
theorem orderly_lookedAfter_nextPacket :
    let config := { burstOfOne true with txBurst := 2 }
    ∃ state events, run (orderlyStep config) (newQueue true true false) burstAndNext =
        some (state, events) ∧ state.avail = [3] ∧
      (state.asyncElem.isSome = true ∨ state.scheduled = true ∨
        (state.notification = true ∧ state.kicked = true)) := by
  intro config
  obtain ⟨events, ran⟩ : ∃ events, run (orderlyStep config) (newQueue true true false)
      burstAndNext = some ({ (newQueue true true false : TxState Nat) with
        driverOk := true, avail := [3], kicked := true }, events) := ⟨_, rfl⟩
  exact ⟨_, events, ran, rfl,
    orderly_lookedAfter ⟨_, _, ran⟩ rfl rfl rfl rfl (by decide) rfl (List.cons_ne_nil _ _)⟩

/--
An element is left alone: a queue in use, on a device that is ready and runs
with its link up, holds it while no handler runs, and there is no bottom half or
timer, no packet that waits and no kick.
-/
def LeftAlone (config : TxConfig) (state : TxState Element) (element : Element) : Prop :=
  (state.phase = .idle ∧ state.looking = false ∧ state.vmRunning = true ∧
      state.driverOk = true ∧ active config state = true ∧ state.linkUp = true ∧
      state.avail = [element]) ∧
    state.asyncElem = none ∧ state.scheduled = false ∧ state.kicked = false

/-- The timer, or the completion of a packet, sends one packet of two and leaves the other one. -/
theorem fullBurst_leavesElement :
    (∃ state : TxState Nat,
      Reachable (step (burstOfOne true)) (newQueue true true false) state ∧
        LeftAlone (burstOfOne true) state 3) ∧
    (∃ state : TxState Nat,
      Reachable (step (burstOfOne false)) (newQueue true true false) state ∧
        LeftAlone (burstOfOne false) state 3) := by
  constructor
  -- The timer fires once the guest has added a second packet, without a kick.
  · exact ⟨_, ⟨[.writeStatus true, .publish 2, .look, .handleKick, .publish 3, .look, .deferred,
      .proceed .sent], _, rfl⟩, ⟨rfl, rfl, rfl, rfl, rfl, rfl, rfl⟩, rfl, rfl, rfl⟩
  -- The backend puts packet 1 off, and its completion flushes.
  · exact ⟨_, ⟨[.writeStatus true, .publish 1, .look, .handleKick, .deferred, .proceed .queued,
      .publish 2, .look, .publish 3, .look, .complete, .proceed .sent], _, rfl⟩,
      ⟨rfl, rfl, rfl, rfl, rfl, rfl, rfl⟩, rfl, rfl, rfl⟩

end StudyNotes.VirtioNet
