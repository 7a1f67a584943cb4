/-
This file says which parts of the device the functions that work on its queues
can change. Each lemma gives the whole new state up to those parts, so that
everything else is seen to be unchanged.
-/

import StudyNotes.NetDevice.Control

namespace StudyNotes.NetDevice

open Library

/-! ### Waiting work -/

variable (n : VirtIONet)

/-- Only the mark of one queue pair changes. -/
theorem setTxWaiting_vqs (index : Nat) (waiting : BitVec 32) (i : Nat) :
    (setTxWaiting n index waiting).vqs i =
      { n.vqs i with txWaiting := if i = index then waiting else (n.vqs i).txWaiting } := by
  have isVqs : (setTxWaiting n index waiting).vqs =
      Function.update n.vqs index { n.vqs index with txWaiting := waiting } := rfl
  rw [isVqs]
  by_cases isIt : i = index
  · subst isIt
    rw [Function.update_self, if_pos rfl]
  · rw [Function.update_of_ne isIt, if_neg isIt]

/-! ### The status -/

variable (status : BitVec 8)

theorem vnetEndianStatus_eq :
    ∃ needsVnetHdrSwap, vnetEndianStatus n status =
      { n with needsVnetHdrSwap := needsVnetHdrSwap } := by
  rw [vnetEndianStatus]
  split
  · exact ⟨_, rfl⟩
  · exact ⟨_, rfl⟩

theorem vhostStatus_eq :
    ∃ vhostStarted, vhostStatus n status = { n with vhostStarted := vhostStarted } := by
  rw [vhostStatus]
  split
  · exact ⟨_, rfl⟩
  split
  · exact ⟨_, rfl⟩
  split
  · split
    · exact ⟨_, rfl⟩
    · exact ⟨_, rfl⟩
  · exact ⟨_, rfl⟩

/-- Only the loop touches the queues. -/
theorem setStatus_eq :
    ∃ needsVnetHdrSwap vhostStarted, setStatus n status =
      (List.range n.maxQueues).foldl (setQueueStatus status) { n with
        needsVnetHdrSwap := needsVnetHdrSwap
        vhostStarted := vhostStarted
        statusChanges := n.statusChanges + 1 } := by
  obtain ⟨needsVnetHdrSwap, isSwapped⟩ := vnetEndianStatus_eq n status
  obtain ⟨vhostStarted, isStarted⟩ := vhostStatus_eq (vnetEndianStatus n status) status
  rw [setStatus, isStarted, isSwapped]
  exact ⟨needsVnetHdrSwap, vhostStarted, rfl⟩

theorem resumeWork_work (q : VirtIONetQueue) (queueStarted : Bool) :
    ∃ work, resumeWork n q queueStarted = { n with work := work } := by
  rw [resumeWork]
  split
  · split <;> exact ⟨_, rfl⟩
  · split <;> exact ⟨_, rfl⟩

theorem setQueueStatus_work (n : VirtIONet) (i : Nat) :
    ∃ work, setQueueStatus status n i = { n with work := work } := by
  unfold setQueueStatus
  by_cases idle : (n.vqs i).txWaiting = 0
  · exact ⟨_, if_pos idle⟩
  · rw [if_neg idle]
    exact resumeWork_work ..

/-- Only the transmit work and the state of the backend follow the status. -/
theorem setStatus_follows :
    ∃ needsVnetHdrSwap vhostStarted work, setStatus n status = { n with
      needsVnetHdrSwap := needsVnetHdrSwap
      vhostStarted := vhostStarted
      statusChanges := n.statusChanges + 1
      work := work } := by
  obtain ⟨needsVnetHdrSwap, vhostStarted, isSet⟩ := setStatus_eq n status
  rw [isSet]
  refine ⟨needsVnetHdrSwap, vhostStarted, List.foldlRecOn (motive := fun m => ∃ work, m = { n with
    needsVnetHdrSwap := needsVnetHdrSwap
    vhostStarted := vhostStarted
    statusChanges := n.statusChanges + 1
    work := work }) _ _ ⟨_, rfl⟩ ?_⟩
  rintro _ ⟨work, rfl⟩ i _
  exact setQueueStatus_work ..

/-! ### The queues -/

/-- Only the queues and their transmit work change. -/
def Rewires (n next : VirtIONet) : Prop :=
  ∃ vq vqs ctrlVq work, next = { n with vq := vq, vqs := vqs, ctrlVq := ctrlVq, work := work }

theorem Rewires.refl : Rewires n n := ⟨_, _, _, _, rfl⟩

theorem Rewires.trans {n middle next : VirtIONet} (first : Rewires n middle)
    (second : Rewires middle next) : Rewires n next := by
  obtain ⟨_, _, _, _, rfl⟩ := first
  obtain ⟨_, _, _, _, rfl⟩ := second
  exact ⟨_, _, _, _, rfl⟩

theorem delQueue_rewires (index : Nat) : Rewires n (delQueue n index) := by
  rw [delQueue, delDeferred]
  split <;> exact ⟨_, _, _, _, rfl⟩

variable {n next : VirtIONet}

theorem virtioAddQueue_rewires {queueSize slot : Nat} {handler : Handler}
    (added : virtioAddQueue n queueSize handler = some (next, slot)) :
    ∃ vq, next = { n with vq := vq } := by
  unfold virtioAddQueue at added
  split at added
  · cases added
  · obtain ⟨-, isNext⟩ := Option.ite_none_left_eq_some.mp added
    cases isNext
    exact ⟨_, rfl⟩

theorem addQueue_rewires {index : Nat} (added : addQueue n index = some next) : Rewires n next := by
  obtain ⟨⟨middle, rxVq⟩, first, added⟩ := Option.bind_eq_some_iff.mp added
  obtain ⟨vq, rfl⟩ := virtioAddQueue_rewires first
  dsimp only at added
  split at added
  all_goals
    obtain ⟨⟨last, txVq⟩, second, rfl⟩ := Option.map_eq_some_iff.mp added
    obtain ⟨vq', rfl⟩ := virtioAddQueue_rewires second
    exact ⟨_, _, _, _, rfl⟩

theorem foldlM_addQueue_rewires (number : Nat → Nat) (indices : List Nat)
    (added : indices.foldlM (fun n i => addQueue n (number i)) n = some next) :
    Rewires n next := by
  induction indices generalizing n with
  | nil =>
    cases added
    exact .refl _
  | cons i rest inductionHypothesis =>
    rw [List.foldlM_cons] at added
    obtain ⟨middle, first, added⟩ := Option.bind_eq_some_iff.mp added
    exact (addQueue_rewires first).trans (inductionHypothesis added)

theorem moveNumQueues_rewires {oldNumQueues newNumQueues : Nat}
    (moved : moveNumQueues n oldNumQueues newNumQueues = some next) : Rewires n next := by
  obtain ⟨middle, grown, added⟩ := Option.bind_eq_some_iff.mp moved
  have deleted : Rewires n (virtioDelQueue n (oldNumQueues - 1)) := ⟨_, _, _, _, rfl⟩
  have fewer := List.foldlRecOn (motive := Rewires n) (byTwo (newNumQueues - 1) (oldNumQueues - 1))
    (fun n i => delQueue n (i / 2)) deleted
    fun m rewired i _ => rewired.trans (delQueue_rewires m (i / 2))
  -- The control queue is added last.
  obtain ⟨⟨last, slot⟩, first, rfl⟩ := Option.map_eq_some_iff.mp added
  obtain ⟨vq, rfl⟩ := virtioAddQueue_rewires first
  exact (fewer.trans (foldlM_addQueue_rewires (· / 2) _ grown)).trans ⟨_, _, _, _, rfl⟩

theorem changeNumQueues_rewires {newMaxQueues : Nat}
    (changed : changeNumQueues n newMaxQueues = some next) : Rewires n next := by
  unfold changeNumQueues at changed
  dsimp only at changed
  split at changed
  · cases changed
  · split at changed
    · cases changed
      exact .refl n
    · exact moveNumQueues_rewires changed

/-! ### The commands -/

/-- Only what the commands set up changes. -/
def Configures (n next : VirtIONet) : Prop :=
  ∃ modes status currGuestOffloads announceTimer rxfilterNotifyEnabled rxFilterEvents,
    next = { n with
      modes := modes
      status := status
      currGuestOffloads := currGuestOffloads
      announceTimer := announceTimer
      rxfilterNotifyEnabled := rxfilterNotifyEnabled
      rxFilterEvents := rxFilterEvents }

theorem rxfilterNotify_configures (n : VirtIONet) (modes : RxModes) :
    Configures n (rxfilterNotify { n with modes := modes }) := by
  rw [rxfilterNotify]
  split <;> exact ⟨_, _, _, _, _, _, rfl⟩

/-- The same, and the MAC table stays. -/
def Tunes (n next : VirtIONet) : Prop :=
  Configures n next ∧ next.modes.macTable = n.modes.macTable

theorem Tunes.refl (n : VirtIONet) : Tunes n n := ⟨⟨_, _, _, _, _, _, rfl⟩, rfl⟩

theorem rxfilterNotify_tunes {n : VirtIONet} {modes : RxModes}
    (same : modes.macTable = n.modes.macTable) :
    Tunes n (rxfilterNotify { n with modes := modes }) := by
  refine ⟨rxfilterNotify_configures n modes, ?_⟩
  rw [rxfilterNotify_modes]
  exact same

theorem setRxMode_macTable {modes next : RxModes} {cmd on : UInt8}
    (isNext : setRxMode modes cmd on = some next) : next.macTable = modes.macTable := by
  unfold setRxMode at isNext
  repeat' split at isNext
  all_goals cases isNext
  all_goals rfl

section

variable (n : VirtIONet) (cmd : UInt8)

variable (iov : List UInt8)

theorem handleRxMode_tunes : Tunes n (handleRxMode n cmd iov).1 := by
  unfold handleRxMode
  split
  · exact .refl n
  · split
    · exact .refl n
    · next isNext => exact rxfilterNotify_tunes (setRxMode_macTable isNext)

theorem handleMac_configures : Configures n (handleMac n cmd iov).1 := by
  rw [handleMac]
  split
  · split
    · exact (Tunes.refl n).1
    · exact rxfilterNotify_configures ..
  · split
    · exact (Tunes.refl n).1
    · split
      · exact (Tunes.refl n).1
      · exact rxfilterNotify_configures ..

theorem handleVlanTable_tunes : Tunes n (handleVlanTable n cmd iov).1 := by
  rw [handleVlanTable]
  split
  · exact .refl n
  · dsimp only
    split
    · exact .refl n
    · split
      · exact rxfilterNotify_tunes rfl
      · split
        · exact rxfilterNotify_tunes rfl
        · exact .refl n

theorem handleAnnounce_tunes : Tunes n (handleAnnounce n cmd).1 := by
  rw [handleAnnounce]
  split
  · exact ⟨⟨_, _, _, _, _, _, rfl⟩, rfl⟩
  · exact .refl n

theorem handleOffloads_tunes : Tunes n (handleOffloads n cmd iov).1 := by
  rw [handleOffloads]
  split
  · exact .refl n
  · split
    · exact .refl n
    · split
      · dsimp only
        split
        · exact .refl n
        · split
          · exact .refl n
          · exact ⟨⟨_, _, _, _, _, _, rfl⟩, rfl⟩
      · exact .refl n

/-- What a command can do. -/
theorem ctrlCommand_cases (status : Ack) (elem : CtrlElem) :
    Tunes n (ctrlCommand n status elem).1 ∨
      (∃ cmd iov, elem.outSg = ctrlMac :: cmd :: iov ∧
        (ctrlCommand n status elem).1 = (handleMac n cmd iov).1) ∨
      ∃ queues, queues ≤ n.maxQueues ∧
        (ctrlCommand n status elem).1 = setStatus { n with currQueues := queues } n.vdevStatus := by
  unfold ctrlCommand
  split
  · next cls cmd iov isElem =>
    rw [dispatch]
    split
    · exact .inl (handleRxMode_tunes ..)
    split
    · next isMac => exact .inr (.inl ⟨cmd, iov, isMac ▸ isElem, rfl⟩)
    split
    · exact .inl (handleVlanTable_tunes ..)
    split
    · exact .inl (handleAnnounce_tunes ..)
    split
    · rw [handleMq]
      split
      · exact .inl (.refl n)
      split
      · exact .inl (.refl n)
      dsimp only
      split
      · exact .inl (.refl n)
      · next accepted =>
        have few := Nat.not_lt.mp fun more => accepted (.inr (.inr (.inl more)))
        exact .inr (.inr ⟨_, few, rfl⟩)
    split
    · exact .inl (handleOffloads_tunes ..)
    · exact .inl (.refl n)
  · exact .inl (.refl n)

/-- A command sets up the device or the number of its queue pairs. -/
theorem ctrlCommand_configures (status : Ack) (elem : CtrlElem) :
    Configures n (ctrlCommand n status elem).1 ∨ ∃ queues, queues ≤ n.maxQueues ∧
      (ctrlCommand n status elem).1 = setStatus { n with currQueues := queues } n.vdevStatus := by
  rcases ctrlCommand_cases n status elem with tunes | ⟨cmd, iov, -, isNext⟩ | changed
  · exact .inl tunes.1
  · exact .inl (isNext ▸ handleMac_configures n cmd iov)
  · exact .inr changed

end

/-- What every command of a batch keeps is kept by the loop. -/
theorem ctrlLoop_invariant (Invariant : VirtIONet → Prop) {elems : List CtrlElem}
    (keeps : ∀ elem ∈ elems, ∀ n status, Invariant n → Invariant (ctrlCommand n status elem).1)
    {n : VirtIONet} (holds : Invariant n) (status : Ack) :
    Invariant (ctrlLoop n status elems).device := by
  induction elems generalizing n status with
  | nil => exact holds
  | cons elem rest inductionHypothesis =>
    rw [ctrlLoop]
    split
    · refine inductionHypothesis (fun other member => ?_) ?_ _
      · exact keeps other (List.mem_cons_of_mem elem member)
      · exact keeps elem List.mem_cons_self n status holds
    · exact holds

/-! ### Steps -/

/-- The queues and their transmit work are the same, and the status has not been set. -/
structure SameQueues (m n : VirtIONet) : Prop where
  conf : m.conf = n.conf
  vq : m.vq = n.vq
  vqs : m.vqs = n.vqs
  ctrlVq : m.ctrlVq = n.ctrlVq
  maxQueues : m.maxQueues = n.maxQueues
  statusChanges : m.statusChanges = n.statusChanges
  work : m.work = n.work

/-- What can happen to the queues in a step that does not set the status. -/
inductive Moves (n next : VirtIONet) : Prop where
  | kicksTimer {slot : Nat} (isHandler : (n.vq slot).handleOutput = some .handleTxTimer)
      (isNext : handleTxTimer n slot = next)
  | kicksBh {slot : Nat} (isHandler : (n.vq slot).handleOutput = some .handleTxBh)
      (isNext : handleTxBh n slot = next)
  | runs {address : Nat} {ret again : Int} (ran : runDeferred n address ret again = some next)
  | negotiates {features : BitVec 64} (isNext : setFeatures n features = some next)

/-- Any other step sets the status, up to what does not concern the queues. -/
theorem step_cases (Invariant : VirtIONet → Prop)
    (same : ∀ {n m}, Invariant n → SameQueues m n → Invariant m)
    (setsStatus : ∀ n status, Invariant n → Invariant (setStatus n status)) (holds : Invariant n)
    {action : Action} {acks : List Ack} (taken : step n action = some (next, acks)) :
    Moves n next ∨ Invariant next := by
  cases action with
  | kick slot elems =>
    rw [step] at taken
    split at taken
    · cases taken
    · next handler isHandler =>
      cases handler with
      | handleRx =>
        cases taken
        exact .inr holds
      | handleTxTimer =>
        cases taken
        exact .inl (.kicksTimer isHandler rfl)
      | handleTxBh =>
        cases taken
        exact .inl (.kicksBh isHandler rfl)
      | handleCtrl =>
        rw [kick] at taken
        split at taken
        · cases taken
        · cases taken
          refine .inr (ctrlLoop_invariant Invariant (fun elem _ n status holds => ?_) holds .err)
          rcases ctrlCommand_configures n status elem with
            ⟨_, _, _, _, _, _, isNext⟩ | ⟨queues, -, isNext⟩
          · rw [isNext]
            exact same holds ⟨rfl, rfl, rfl, rfl, rfl, rfl, rfl⟩
          · rw [isNext]
            exact setsStatus _ _ (same holds ⟨rfl, rfl, rfl, rfl, rfl, rfl, rfl⟩)
  | writeStatus status =>
    cases taken
    exact .inr (same (setsStatus n status holds) ⟨rfl, rfl, rfl, rfl, rfl, rfl, rfl⟩)
  | vmState running | linkStatus down =>
    cases taken
    exact .inr (setsStatus _ _ (same holds ⟨rfl, rfl, rfl, rfl, rfl, rfl, rfl⟩))
  | reset =>
    cases taken
    exact .inr (same (setsStatus n 0 holds) ⟨rfl, rfl, rfl, rfl, rfl, rfl, rfl⟩)
  | negotiate features =>
    rw [step] at taken
    obtain ⟨m, isNext, isPair⟩ := Option.map_eq_some_iff.mp taken
    cases isPair
    exact .inl (.negotiates isNext)
  | deferred address ret again =>
    rw [step] at taken
    obtain ⟨m, ran, isPair⟩ := Option.map_eq_some_iff.mp taken
    cases isPair
    exact .inl (.runs ran)

end StudyNotes.NetDevice
