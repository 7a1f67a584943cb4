/-
This file proves that the device touches no bottom half or timer that is gone,
in every run in which `virtio_net_set_status` is only called while no queue pair
that has been deleted has transmit work waiting.

Deleting a queue pair leaves its `tx_waiting` as it is, and the loop of
`virtio_net_set_status` goes over all the pairs there can be. Nothing else looks
at a pair that is not there.
-/

import StudyNotes.NetDevice.Lifetimes

namespace StudyNotes.NetDevice

open Library Function

/-- A device that has touched nothing that is gone. -/
structure Safe (n : VirtIONet) (q : Nat) : Prop where
  ready : Ready n q
  kept : Kept n (below q)
  clean : n.work.misuses = []

variable {n next : VirtIONet} {q i slot : Nat} {conf : NetConf}

/-! ### The handlers of the transmit queues -/

/-- The transmit handlers are in the slots of the pairs that are there. -/
theorem deviceSlots_tx {handler : Handler}
    (isHandler : (deviceSlots conf q slot).handleOutput = some handler)
    (notRx : handler ≠ .handleRx) (notCtrl : handler ≠ .handleCtrl) :
    handler = conf.txHandler ∧ below q (slot / 2) = true := by
  rw [deviceSlots] at isHandler
  by_cases isCtrl : slot = 2 * q
  · rw [isCtrl, update_self] at isHandler
    exact absurd (Option.some.inj isHandler).symm notCtrl
  · rw [update_of_ne isCtrl, pairSlots] at isHandler
    split at isHandler
    · next isPresent =>
      split at isHandler
      · exact absurd (Option.some.inj isHandler).symm notRx
      · exact ⟨(Option.some.inj isHandler).symm, isPresent⟩
    · cases isHandler

/-- Only a device with timers has the handler that uses them. -/
theorem Ready.usesTimer (ready : Ready n q)
    (isHandler : (n.vq slot).handleOutput = some .handleTxTimer) : n.conf.usesTimer = true := by
  rw [ready.wired.slots] at isHandler
  obtain ⟨isTx, -⟩ := deviceSlots_tx isHandler (by decide) (by decide)
  by_contra usesBh
  rw [NetConf.txHandler, if_neg usesBh] at isTx
  cases isTx

theorem deferredOf_setTxWaiting (n : VirtIONet) (i : Nat) (waiting : BitVec 32) (j : Nat) :
    deferredOf (setTxWaiting n i waiting) j = deferredOf n j := by
  rw [deferredOf, deferredOf, setTxWaiting_vqs]
  rfl

section

variable (safe : Safe n q)
include safe

/-- Only the queues and their objects matter. -/
theorem Safe.congr {m : VirtIONet} (same : SameQueues m n) : Safe m q where
  ready := safe.ready.congr same.conf same.vq (fun _ => by rw [same.vqs]; exact ⟨rfl, rfl⟩)
    same.ctrlVq same.maxQueues
  kept := safe.kept.congr same.conf same.work (fun _ => by rw [same.vqs])
    (fun _ => by rw [same.vqs])
  clean := same.work.symm ▸ safe.clean

/-! ### What happens to the objects -/

theorem Safe.useDeferred (use : DeferredUse) (pending : Bool) (isPresent : below q i = true) :
    Safe (useDeferred n use pending (deferredOf n i)) q where
  ready := safe.ready.congr rfl rfl (fun _ => ⟨rfl, rfl⟩) rfl rfl
  kept := safe.kept.useDeferred use pending _
  clean := (safe.kept.useDeferred_misuses use pending isPresent).trans safe.clean

theorem Safe.setTxWaiting (i : Nat) (waiting : BitVec 32) : Safe (setTxWaiting n i waiting) q where
  ready := safe.ready.congr rfl rfl (fun _ => by rw [setTxWaiting_vqs]; exact ⟨rfl, rfl⟩) rfl rfl
  kept := safe.kept.setTxWaiting i waiting
  clean := safe.clean

theorem Safe.setStatus (quiet : Quiet n (below q) (List.range n.maxQueues)) (status : BitVec 8) :
    Safe (setStatus n status) q := by
  have kept := safe.kept.setStatus status
  have misuses := safe.kept.setStatus_misuses quiet status
  obtain ⟨_, _, _, isSet⟩ := setStatus_follows n status
  rw [isSet] at kept misuses ⊢
  exact ⟨safe.ready.congr rfl rfl (fun _ => ⟨rfl, rfl⟩) rfl rfl, kept, misuses.trans safe.clean⟩

/-! ### Kicks -/

theorem Safe.handleTxTimer (isHandler : (n.vq slot).handleOutput = some .handleTxTimer) :
    Safe (handleTxTimer n slot) q := by
  have usesTimer := safe.ready.usesTimer isHandler
  rw [safe.ready.wired.slots] at isHandler
  obtain ⟨-, isPresent⟩ := deviceSlots_tx isHandler (by decide) (by decide)
  have isPointer : (n.vqs (slot / 2)).txTimer = deferredOf n (slot / 2) := by
    rw [deferredOf, if_pos usesTimer]
  unfold NetDevice.handleTxTimer
  dsimp only
  split
  · exact safe.setTxWaiting _ 1
  · split
    · rw [isPointer]
      exact (safe.useDeferred _ _ isPresent).setTxWaiting _ 0
    · rw [isPointer]
      exact (safe.useDeferred _ _ isPresent).setTxWaiting _ 1

theorem Safe.handleTxBh (isHandler : (n.vq slot).handleOutput = some .handleTxBh) :
    Safe (handleTxBh n slot) q := by
  rw [safe.ready.wired.slots] at isHandler
  obtain ⟨isTx, isPresent⟩ := deviceSlots_tx isHandler (by decide) (by decide)
  have usesBh : n.conf.usesTimer = false := by
    by_contra usesTimer
    rw [NetConf.txHandler, if_pos (Bool.eq_true_of_not_eq_false usesTimer)] at isTx
    cases isTx
  have waits := safe.setTxWaiting (slot / 2) 1
  have isPointer : (n.vqs (slot / 2)).txBh =
      deferredOf (NetDevice.setTxWaiting n (slot / 2) 1) (slot / 2) := by
    rw [deferredOf_setTxWaiting, deferredOf, usesBh, if_neg Bool.false_ne_true]
  unfold NetDevice.handleTxBh
  dsimp only
  split
  · exact safe
  · split
    · exact waits
    · rw [isPointer]
      exact waits.useDeferred _ _ isPresent

/-! ### Work that was put off -/

theorem Safe.startDeferred {rest : VirtIONet → VirtIONet}
    (keeps : ∀ m, Safe m q → m.conf = n.conf → Safe (rest m) q)
    (ran : startDeferred n i rest = some next) : Safe next q := by
  have done := safe.setTxWaiting i 0
  rw [NetDevice.startDeferred] at ran
  split at ran
  · split at ran
    · cases ran
      exact safe
    · cases ran
  · cases ran
    split
    · exact keeps _ done rfl
    · exact done

theorem Safe.txBh (usesBh : n.conf.usesTimer = false) (isPresent : below q i = true)
    {ret again : Int} (ran : txBh n i ret again = some next) : Safe next q := by
  refine safe.startDeferred (fun m safe sameConf => ?_) ran
  have isPointer : (m.vqs i).txBh = deferredOf m i := by
    rw [deferredOf, sameConf, usesBh, if_neg Bool.false_ne_true]
  have rescheduled : Safe (NetDevice.setTxWaiting
      (NetDevice.useDeferred m .bhSchedule true (m.vqs i).txBh) i 1) q := by
    rw [isPointer]
    exact (safe.useDeferred _ _ isPresent).setTxWaiting i 1
  split
  · exact safe
  · split
    · exact rescheduled
    · split
      · exact rescheduled
      · exact safe

/-- An object that is run was made for a queue pair that is there. -/
theorem Safe.runDeferred {address : Nat} {ret again : Int}
    (ran : runDeferred n address ret again = some next) : Safe next q := by
  rw [NetDevice.runDeferred] at ran
  split at ran
  · next due =>
    obtain ⟨live, -⟩ := due
    obtain ⟨i, isPresent, isPointer⟩ := safe.kept.held.covered address live
    obtain ⟨isTimer, isQueue⟩ := safe.kept.labelled i address isPresent isPointer
    -- Taking the object from the list of those that are due is a use of it.
    have taken : Safe { n with
        work := { n.work with
          object := update n.work.object address
            (setPending false (n.work.object address)) } } q := by
      have used := safe.useDeferred .bhCancel false isPresent
      rw [isPointer, NetDevice.useDeferred, Heap.use, if_pos live] at used
      exact used
    rw [isTimer, isQueue] at ran
    split at ran
    · exact taken.startDeferred (fun _ safe _ => safe) ran
    · next usesBh => exact taken.txBh (Bool.eq_false_of_not_eq_true usesBh) isPresent ran
  · cases ran

/-! ### Steps -/

theorem Safe.negotiate {features : BitVec 64} (isNext : setFeatures n features = some next) :
    ∃ q', Safe next q' := by
  rcases Nat.eq_zero_or_pos q with noPairs | notNone
  · rw [Ready.setFeatures_none (noPairs ▸ safe.ready)] at isNext
    cases isNext
  · rw [safe.ready.setFeatures_eq notNone] at isNext
    cases isNext
    obtain ⟨kept, misuses⟩ := safe.kept.negotiated features
    exact ⟨_, safe.ready.negotiated notNone features, kept, misuses.trans safe.clean⟩

theorem Safe.moves (moves : Moves n next) : ∃ q', Safe next q' := by
  cases moves with
  | kicksTimer isHandler isNext => exact ⟨q, isNext ▸ safe.handleTxTimer isHandler⟩
  | kicksBh isHandler isNext => exact ⟨q, isNext ▸ safe.handleTxBh isHandler⟩
  | runs ran => exact ⟨q, safe.runDeferred ran⟩
  | negotiates isNext => exact safe.negotiate isNext

end

/-- No queue pair whose transmit queue has been deleted has work waiting. -/
def isCalm (n : VirtIONet) : Bool :=
  (List.range n.maxQueues).all fun i => (n.vq (2 * i + 1)).num != 0 || (n.vqs i).txWaiting == 0

/-- A step that does not call `virtio_net_set_status`, or calls it while the device is calm. -/
def calmStep (n : VirtIONet) (action : Action) : Option (VirtIONet × List Ack) :=
  (step n action).filter fun (next, _) => next.statusChanges == n.statusChanges || isCalm n

theorem Ready.quiet (ready : Ready n q) (calm : isCalm n = true) :
    Quiet n (below q) (List.range n.maxQueues) := by
  intro i inside isAbsent
  rw [below, decide_eq_false_iff_not, Nat.not_lt] at isAbsent
  have noQueue : (n.vq (2 * i + 1)).num = 0 := by
    rw [ready.wired.slots, deviceSlots_num ready.sized]
    omega
  simpa [noQueue] using List.all_eq_true.mp calm i inside

/-- Where a step from `n` that only sets the status may be. -/
structure StatusSet (n m : VirtIONet) (q : Nat) : Prop where
  counted : n.statusChanges ≤ m.statusChanges
  vqs : m.vqs = n.vqs
  maxQueues : m.maxQueues = n.maxQueues
  safe : m.statusChanges = n.statusChanges ∨ Quiet n (below q) (List.range n.maxQueues) → Safe m q

theorem StatusSet.congr {m m' : VirtIONet} (isSet : StatusSet n m q) (same : SameQueues m' m) :
    StatusSet n m' q where
  counted := same.statusChanges.symm ▸ isSet.counted
  vqs := same.vqs.trans isSet.vqs
  maxQueues := same.maxQueues.trans isSet.maxQueues
  safe calm := (isSet.safe (same.statusChanges ▸ calm)).congr same

theorem StatusSet.setStatus {m : VirtIONet} (isSet : StatusSet n m q) (status : BitVec 8) :
    StatusSet n (setStatus m status) q := by
  have counted := isSet.counted
  obtain ⟨_, _, _, isNext⟩ := setStatus_follows m status
  have oneMore : (NetDevice.setStatus m status).statusChanges = m.statusChanges + 1 := by
    rw [isNext]
  refine ⟨by omega, ?_, ?_, ?_⟩
  · rw [isNext]
    exact isSet.vqs
  · rw [isNext]
    exact isSet.maxQueues
  · rintro (unchanged | quiet)
    · omega
    · refine (isSet.safe (.inr quiet)).setStatus ?_ status
      rw [Quiet, isSet.vqs, isSet.maxQueues]
      exact quiet

theorem Safe.calmStep (safe : Safe n q) {action : Action} {acks : List Ack}
    (taken : calmStep n action = some (next, acks)) : ∃ q', Safe next q' := by
  obtain ⟨taken, calm⟩ := Option.filter_eq_some_iff.mp taken
  rcases step_cases (StatusSet n · q) .congr (fun _ status isSet => isSet.setStatus status)
    ⟨Nat.le_refl _, rfl, rfl, fun _ => safe⟩ taken with moves | isSet
  · exact safe.moves moves
  · rw [Bool.or_eq_true, beq_iff_eq] at calm
    exact ⟨q, isSet.safe (calm.imp_right safe.ready.quiet)⟩

/-! ### Runs -/

theorem realize_safe {backend : Backend} {start : VirtIONet}
    (realized : realize conf backend = .ok start) : Safe start start.maxQueues := by
  obtain ⟨kept, misuses⟩ := realize_kept realized
  exact ⟨(realize_ready realized).1, kept, misuses⟩

/--
In every run of calm steps no bottom half or timer is scheduled, cancelled,
armed or deleted after it was deleted.
-/
theorem run_calmStep_misuses {conf : NetConf} {backend : Backend} {start : VirtIONet}
    (realized : realize conf backend = .ok start) {actions : List Action} {acks : List Ack}
    (ran : run calmStep start actions = some (n, acks)) : n.work.misuses = [] := by
  have invariant := run_invariant calmStep (fun n _ => ∃ q, Safe n q)
    (fun _ _ _ _ _ ⟨_, safe⟩ taken => safe.calmStep taken) [] ⟨_, realize_safe realized⟩ ran
  obtain ⟨q, safe⟩ := invariant
  exact safe.clean

/-- The guest kicks the second transmit queue, resets the device and gives up the second pair. -/
def renegotiation (again : List Action) : List Action :=
  [.negotiate (addFeature 0 fMq), .writeStatus 4, .kick 3 [], .reset, .negotiate 0] ++ again ++
    [.writeStatus 4]

theorem runs_renegotiation :
    (run calmStep (created (smallConf 2) plainBackend)
      (renegotiation [.negotiate (addFeature 0 fMq)])).isSome = true := by
  decide +kernel

/-- If the pair is negotiated again before the status is set, nothing is waiting in it any more. -/
theorem run_calmStep_misuses_renegotiation :
    ∃ result, run calmStep (created (smallConf 2) plainBackend)
        (renegotiation [.negotiate (addFeature 0 fMq)]) = some result ∧
      result.1.work.misuses = [] := by
  obtain ⟨⟨n, acks⟩, ran⟩ := Option.isSome_iff_exists.mp runs_renegotiation
  exact ⟨(n, acks), ran, run_calmStep_misuses (realize_created isRealized_two) ran⟩

/-- Otherwise the next status cancels the bottom half that the negotiation has deleted. -/
theorem run_step_renegotiation :
    realize (smallConf 2) plainBackend = .ok (created (smallConf 2) plainBackend) ∧
      ∃ result, run step (created (smallConf 2) plainBackend) (renegotiation []) = some result ∧
        result.1.work.misuses = [(.bhCancel, some 1)] := by
  refine ⟨realize_created isRealized_two, ?_⟩
  show ∃ result ∈ run step (created (smallConf 2) plainBackend) (renegotiation []), _
  decide +kernel

end StudyNotes.NetDevice
