/-
This file proves when a start of a vhost-user block device that fails leaves
nothing behind.

The start goes through its steps in order, and a step that fails jumps to a label
that undoes the steps before it. Starting the vhost device is one of them, but
there is no label that stops it. So when the last step fails, the channel from the
backend, the device counts as started although its notifiers are disabled, and
from then on a change of the status does not start it.
-/

import Mathlib.Order.Defs.LinearOrder

namespace StudyNotes.Vhost

/-! ### The device -/

/-- `VIRTIO_CONFIG_S_DRIVER_OK`. -/
def driverOk : BitVec 8 := 4

/-- `-ENOSYS`. -/
def negEnosys : Int := -38

/-- The part of `struct vhost_dev` that a start reads or sets. -/
structure VhostDev where
  started : Bool
  nvqs : Nat
  ackedFeatures : BitVec 64

/-- `VHostUserBlk`, with the notifiers of its virtqueues, the queues that are masked, and the
connection to the backend. -/
structure VHostUserBlk where
  dev : VhostDev
  hasInflight : Bool
  hostNotifiers : Bool
  guestNotifiers : Bool
  masked : Nat → Bool
  shouldStart : Bool
  connected : Bool

/-- What the functions return that a start calls, and the features of the guest. A function that
fails has undone what it did itself. -/
structure Outcomes where
  setsGuestNotifiers : Bool
  enableNotifiers : Int
  setGuestNotifiers : Int
  getInflight : Int
  setInflight : Int
  setupSlaveChannel : Int
  guestFeatures : BitVec 64

variable (outcomes : Outcomes) (s : VHostUserBlk)

/-- `vhost_dev_enable_notifiers` and `vhost_dev_disable_notifiers`. -/
def VHostUserBlk.setHost (enabled : Bool) : VHostUserBlk :=
  { s with hostNotifiers := enabled }

/-- `set_guest_notifiers` of the bus. -/
def VHostUserBlk.setGuest (enabled : Bool) : VHostUserBlk :=
  { s with guestNotifiers := enabled }

/-- `vhost_dev_start`. It looks at no result of the calls that it makes. -/
def vhostDevStart (dev : VhostDev) : Int × VhostDev := (0, { dev with started := true })

/-- `vhost_virtqueue_mask` for all queues, to unmask them. -/
def VHostUserBlk.unmaskAll : VHostUserBlk :=
  { s with masked := fun i => if i < s.dev.nvqs then false else s.masked i }

/-- The label `err_host_notifiers`. -/
def errHostNotifiers : VHostUserBlk := s.setHost false

/-- The label `err_guest_notifiers`. -/
def errGuestNotifiers : VHostUserBlk := errHostNotifiers (s.setGuest false)

/-- The steps of `vhost_user_blk_start` behind the inflight buffer. -/
def startDevice : Int × VHostUserBlk :=
  let started := vhostDevStart s.dev
  let s := { s with dev := started.2 }
  if started.1 < 0 then (started.1, errGuestNotifiers s)
  else if outcomes.setupSlaveChannel < 0 then (outcomes.setupSlaveChannel, errGuestNotifiers s)
  else (outcomes.setupSlaveChannel, s.unmaskAll)

/-- The steps of `vhost_user_blk_start` behind the notifiers. -/
def shareInflight : Int × VHostUserBlk :=
  let s := { s with dev := { s.dev with ackedFeatures := outcomes.guestFeatures } }
  if s.hasInflight = false ∧ outcomes.getInflight < 0 then
    (outcomes.getInflight, errGuestNotifiers s)
  else
    let s := { s with hasInflight := true }
    if outcomes.setInflight < 0 then (outcomes.setInflight, errGuestNotifiers s)
    else startDevice outcomes s

/-- `vhost_user_blk_start`. -/
def vhostUserBlkStart : Int × VHostUserBlk :=
  if outcomes.setsGuestNotifiers = false then (negEnosys, s)
  else if outcomes.enableNotifiers < 0 then (outcomes.enableNotifiers, s)
  else
    let s := s.setHost true
    if outcomes.setGuestNotifiers < 0 then (outcomes.setGuestNotifiers, errHostNotifiers s)
    else shareInflight outcomes (s.setGuest true)

/-- The branch of `vhost_user_blk_set_status` that starts the device. -/
def tryStart : VHostUserBlk :=
  let result := vhostUserBlkStart outcomes { s with shouldStart := true }
  if result.1 < 0 then { result.2 with connected := false } else result.2

/-- `vhost_user_blk_set_status`, where `vhost_user_blk_stop` is not part of the source. -/
def vhostUserBlkSetStatus (stop : VHostUserBlk → VHostUserBlk) (outcomes : Outcomes)
    (vmRunning : Bool) (status : BitVec 8) (s : VHostUserBlk) : VHostUserBlk :=
  let shouldStart := decide (status &&& driverOk ≠ 0) && vmRunning
  if s.dev.started = shouldStart then s
  else if shouldStart then tryStart outcomes s
  else { stop s with shouldStart := false }

/-! ### A start that fails -/

/-- The device is not started and has no notifiers enabled. -/
structure Stopped : Prop where
  started : s.dev.started = false
  hostNotifiers : s.hostNotifiers = false
  guestNotifiers : s.guestNotifiers = false

/-- A status with `DRIVER_OK` starts the device. -/
def CanStart : Prop :=
  ∀ stop outcomes status, status &&& driverOk ≠ 0 →
    vhostUserBlkSetStatus stop outcomes true status s = tryStart outcomes s

variable {outcomes s}

theorem Stopped.canStart (stopped : Stopped s) : CanStart s := by
  intro stop outcomes status isReady
  rw [vhostUserBlkSetStatus, decide_eq_true isReady, stopped.started]
  rfl

/-- All steps succeed but the last one. -/
structure FailsLate (outcomes : Outcomes) (s : VHostUserBlk) : Prop where
  setsGuestNotifiers : outcomes.setsGuestNotifiers = true
  enableNotifiers : 0 ≤ outcomes.enableNotifiers
  setGuestNotifiers : 0 ≤ outcomes.setGuestNotifiers
  getInflight : s.hasInflight = false → 0 ≤ outcomes.getInflight
  setInflight : 0 ≤ outcomes.setInflight
  setupSlaveChannel : outcomes.setupSlaveChannel < 0

/-- The label undoes both kinds of notifiers. -/
theorem stopped_errGuestNotifiers (notStarted : s.dev.started = false) :
    Stopped (errGuestNotifiers s) :=
  ⟨notStarted, rfl, rfl⟩

/-- The device is left as it was, unless only the last step fails. -/
theorem stopped_of_not_failsLate (stopped : Stopped s) (early : ¬ FailsLate outcomes s)
    (failed : (vhostUserBlkStart outcomes s).1 < 0) : Stopped (vhostUserBlkStart outcomes s).2 := by
  rw [vhostUserBlkStart] at failed ⊢
  split_ifs at failed ⊢ with noNotifiers noHost noGuest
  · exact stopped
  · exact stopped
  · exact ⟨stopped.started, rfl, stopped.guestNotifiers⟩
  · rw [shareInflight] at failed ⊢
    split_ifs at failed ⊢ with noInflight notSet
    · exact stopped_errGuestNotifiers stopped.started
    · exact stopped_errGuestNotifiers stopped.started
    · -- the vhost device has started, so it is the channel that fails
      have channel : outcomes.setupSlaveChannel < 0 := by
        by_contra succeeds
        simp [startDevice, vhostDevStart, succeeds] at failed
      refine absurd ⟨Bool.not_eq_false _ ▸ noNotifiers, Int.not_lt.mp noHost, Int.not_lt.mp noGuest,
        fun isMissing => ?_, Int.not_lt.mp notSet, channel⟩ early
      exact Int.not_lt.mp fun fails => noInflight ⟨isMissing, fails⟩

/-- The device counts as started when only the last step fails. -/
theorem FailsLate.start (late : FailsLate outcomes s) :
    (vhostUserBlkStart outcomes s).1 = outcomes.setupSlaveChannel ∧
      (vhostUserBlkStart outcomes s).2.dev.started = true := by
  have inflight : ¬ (s.hasInflight = false ∧ outcomes.getInflight < 0) := fun fails =>
    Int.not_lt.mpr (late.getInflight fails.1) fails.2
  simp [vhostUserBlkStart, shareInflight, startDevice, vhostDevStart, errGuestNotifiers,
    errHostNotifiers, VHostUserBlk.setHost, VHostUserBlk.setGuest, late.setsGuestNotifiers,
    Int.not_lt.mpr late.enableNotifiers, Int.not_lt.mpr late.setGuestNotifiers, inflight,
    Int.not_lt.mpr late.setInflight, late.setupSlaveChannel]

/--
For all results of the calls: a start that fails leaves the device as it was, so
that a later status starts it again, exactly when it is not the channel from the
backend alone that fails.
-/
theorem vhostUserBlkStart_undone_iff (outcomes : Outcomes) {s : VHostUserBlk}
    (stopped : Stopped s) :
    ((vhostUserBlkStart outcomes s).1 < 0 →
      Stopped (vhostUserBlkStart outcomes s).2 ∧ CanStart (vhostUserBlkStart outcomes s).2) ↔
    ¬ FailsLate outcomes s := by
  constructor
  · intro undone late
    have fails : (vhostUserBlkStart outcomes s).1 < 0 := late.start.1 ▸ late.setupSlaveChannel
    cases (undone fails).1.started.symm.trans late.start.2
  · intro early failed
    have left := stopped_of_not_failsLate stopped early failed
    exact ⟨left, left.canStart⟩

/-! ### The channel fails -/

/-- A device that was just created. -/
def newBlk : VHostUserBlk where
  dev := ⟨false, 1, 0⟩
  hasInflight := false
  hostNotifiers := false
  guestNotifiers := false
  masked _ := true
  shouldStart := false
  connected := true

/-- All calls succeed but two, which may fail. -/
def mostlyFine (setInflight setupSlaveChannel : Int) : Outcomes where
  setsGuestNotifiers := true
  enableNotifiers := 0
  setGuestNotifiers := 0
  getInflight := 0
  setInflight := setInflight
  setupSlaveChannel := setupSlaveChannel
  guestFeatures := 0

/-- The inflight buffer is not taken: the device is as it was. -/
theorem vhostUserBlkStart_undone_noInflight :
    (vhostUserBlkStart (mostlyFine (-1) 0) newBlk).1 < 0 ∧
      Stopped (vhostUserBlkStart (mostlyFine (-1) 0) newBlk).2 := by
  have failed : (vhostUserBlkStart (mostlyFine (-1) 0) newBlk).1 < 0 := by decide
  refine ⟨failed, ((vhostUserBlkStart_undone_iff (mostlyFine (-1) 0) ⟨rfl, rfl, rfl⟩).mpr ?_
    failed).1⟩
  exact fun late => absurd late.setInflight (by decide)

/-- The channel fails: the device counts as started without notifiers, and a second status with
`DRIVER_OK` does nothing although all calls would succeed. -/
theorem vhostUserBlkStart_noChannel :
    Stopped newBlk ∧ (vhostUserBlkStart (mostlyFine 0 (-1)) newBlk).1 = -1 ∧
      (vhostUserBlkStart (mostlyFine 0 (-1)) newBlk).2.dev.started = true ∧
      (vhostUserBlkStart (mostlyFine 0 (-1)) newBlk).2.hostNotifiers = false ∧
      (vhostUserBlkStart (mostlyFine 0 (-1)) newBlk).2.guestNotifiers = false ∧
      ∀ stop, vhostUserBlkSetStatus stop (mostlyFine 0 0) true driverOk
        (vhostUserBlkStart (mostlyFine 0 (-1)) newBlk).2 =
          (vhostUserBlkStart (mostlyFine 0 (-1)) newBlk).2 :=
  ⟨⟨rfl, rfl, rfl⟩, rfl, rfl, rfl, rfl, fun _ => rfl⟩

end StudyNotes.Vhost
