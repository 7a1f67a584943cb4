/-
This file proves when the callbacks of a vhost-user connection reach the controller of its
socket. They look the controller up by `vdev->vid`, one field that every new connection
of the socket overwrites.
-/

import Mathlib.Logic.Function.Basic

namespace StudyNotes.VhostUser

open Function

/-- The slots of `vhost_devices` with a connection, and the `vid` of the socket's controller. -/
structure Connections where
  vhostDevices : Nat → Bool
  vid : Int

/-- `vhost_new_device`: the first free slot. -/
def vhostNewDevice (maxVhostDevice : Nat) (vhostDevices : Nat → Bool) : Nat :=
  ((List.range maxVhostDevice).find? fun i => !vhostDevices i).getD maxVhostDevice

/-- A peer connects: `vhost_new_device`, then `new_connection`. -/
def newConnection (maxVhostDevice : Nat) (s : Connections) : Connections :=
  let vid := vhostNewDevice maxVhostDevice s.vhostDevices
  ⟨update s.vhostDevices vid true, vid⟩

/-- A peer leaves: `vhost_destroy_device`, then `destroy_connection`. -/
def closeConnection (destroyConnection : Nat → Int → Int) (vid : Nat) (s : Connections) :
    Connections :=
  ⟨update s.vhostDevices vid false, destroyConnection vid s.vid⟩

/-- `spdk_vhost_dev_find_by_vid` finds the controller of the socket. -/
def Finds (s : Connections) (vid : Nat) : Prop := s.vid = vid

/-- What is reached when peers connect only in states that are allowed. -/
inductive Connects (maxVhostDevice : Nat) (destroyConnection : Nat → Int → Int)
    (Allowed : Connections → Prop) : Connections → Prop where
  | start : Connects maxVhostDevice destroyConnection Allowed ⟨fun _ => false, -1⟩
  | connect {s : Connections} (reached : Connects maxVhostDevice destroyConnection Allowed s)
      (allowed : Allowed s) :
      Connects maxVhostDevice destroyConnection Allowed (newConnection maxVhostDevice s)
  | close {s : Connections} (reached : Connects maxVhostDevice destroyConnection Allowed s)
      {vid : Nat} (isOpen : s.vhostDevices vid = true) :
      Connects maxVhostDevice destroyConnection Allowed (closeConnection destroyConnection vid s)

/-- No connection is open. -/
def NoneOpen (s : Connections) : Prop := ∀ vid, s.vhostDevices vid = false

/-- When each peer finds the socket without a connection, every open one is resolved. -/
theorem finds_of_connects {maxVhostDevice : Nat} {destroyConnection : Nat → Int → Int}
    {s : Connections} (reached : Connects maxVhostDevice destroyConnection NoneOpen s) {vid : Nat}
    (isOpen : s.vhostDevices vid = true) : Finds s vid := by
  induction reached generalizing vid with
  | start => cases isOpen
  | @connect s reached noneOpen inductionHypothesis =>
    by_cases same : vid = vhostNewDevice maxVhostDevice s.vhostDevices
    · rw [same]
      rfl
    · dsimp only [newConnection] at isOpen
      rw [update_of_ne same, noneOpen] at isOpen
      cases isOpen
  | @close s reached closed wasOpen inductionHypothesis =>
    dsimp only [closeConnection] at isOpen
    by_cases same : vid = closed
    · rw [same, update_self] at isOpen
      cases isOpen
    · -- Two open connections would have the same `vid`.
      rw [update_of_ne same] at isOpen
      have both := (inductionHypothesis isOpen).symm.trans (inductionHypothesis wasOpen)
      exact absurd (Int.ofNat.inj both) same

/-- A second peer connects after the first one has left. -/
theorem finds_of_connects_again :
    Finds (newConnection 2 (closeConnection (fun _ vid => vid) 0
      (newConnection 2 ⟨fun _ => false, -1⟩))) 0 := by
  have noneOpen : NoneOpen (closeConnection (fun _ vid => vid) 0
      (newConnection 2 ⟨fun _ => false, -1⟩)) := fun vid => by
    cases vid <;> rfl
  exact finds_of_connects (.connect (.close (.connect .start fun _ => rfl) rfl) noneOpen) rfl

/-- With two peers the first one is not resolved. -/
theorem not_finds_of_connects_twice :
    ∃ s, Connects 2 (fun _ vid => vid) (fun _ => True) s ∧ s.vhostDevices 0 = true ∧
      ¬ Finds s 0 := by
  refine ⟨_, .connect (.connect .start trivial) trivial, rfl, ?_⟩
  intro finds
  cases finds

end StudyNotes.VhostUser
