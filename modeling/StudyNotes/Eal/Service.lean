/-
This file proves when the callback of a service runs on one core at a time.

A core takes the lock of a service only when it finds more than one core mapped
to it. It looks at the count before it starts the callback, so it runs without
the lock while the application maps the service to a second core, and the second
core finds the lock free. The callback is exclusive when no core finds that it
needs no lock while another core is past this test, and none finds that it needs
the lock while another core goes without it.
-/

import StudyNotes.Library.Machine

namespace StudyNotes.Eal

open Library Function

/-! ### The model -/

/-- Where a service core is in `rte_service_runner_func` and `service_run`. -/
inductive Place where
  /-- Between two passes over the services. -/
  | idle
  /-- The mask has been read; the flag is the bit of the service. -/
  | masked (bit : Bool)
  /-- The service is running and mapped to this core. -/
  | runnable
  /-- The lock is not needed. -/
  | skipping
  /-- The lock is needed. -/
  | acquiring
  /-- The callback is executing. -/
  | calling (locked : Bool)
  /-- The callback has returned, and the lock is still held. -/
  | releasing
  deriving DecidableEq

/-- A registered service, and the cores that may run it. -/
structure Service (cores : Nat) where
  mtSafe : Bool
  compRunstate : Bool
  appRunstate : Bool
  numMappedCores : BitVec 32
  executeLock : Bool
  serviceMask : Fin cores → Bool
  runstate : Fin cores → Bool
  place : Fin cores → Place

variable {cores : Nat}

/-- What can happen: a core takes its next step, the application maps the service to a core with two
assignments, or a state is set. -/
inductive Action (cores : Nat) where
  | advance (core : Fin cores)
  | setMask (core : Fin cores)
  | countCore
  | setCompRunstate (running : Bool)
  | setAppRunstate (running : Bool)
  | setRunstate (core : Fin cores) (running : Bool)

variable (s : Service cores)

/-- The core goes to another place. -/
def Service.moveTo (core : Fin cores) (place : Place) : Service cores :=
  { s with place := update s.place core place }

/-- `use_atomics` of `service_run`. -/
def Service.useAtomics : Bool :=
  !s.mtSafe && (1 : BitVec 32).slt s.numMappedCores

/-- The next step of a core. -/
def advance (core : Fin cores) : Option (Service cores) :=
  match s.place core with
  | .idle =>
    if s.runstate core then some (s.moveTo core (.masked (s.serviceMask core))) else none
  | .masked bit =>
    some (s.moveTo core
      (if s.compRunstate && s.appRunstate && bit then .runnable else .idle))
  | .runnable => some (s.moveTo core (if s.useAtomics then .acquiring else .skipping))
  | .skipping => some (s.moveTo core (.calling false))
  | .acquiring =>
    if s.executeLock then some (s.moveTo core .idle)
    else some ({ s with executeLock := true }.moveTo core (.calling true))
  | .calling locked => some (s.moveTo core (if locked then .releasing else .idle))
  | .releasing => some ({ s with executeLock := false }.moveTo core .idle)

/-- What an action does; a core that is not running takes no step. -/
def act : Action cores → Option (Service cores)
  | .advance core => advance s core
  | .setMask core => some { s with serviceMask := update s.serviceMask core true }
  | .countCore => some { s with numMappedCores := s.numMappedCores + 1 }
  | .setCompRunstate running => some { s with compRunstate := running }
  | .setAppRunstate running => some { s with appRunstate := running }
  | .setRunstate core running =>
    some { s with runstate := update s.runstate core running }

/-- An action as a step without events. -/
def step (action : Action cores) : Option (Service cores × List Unit) :=
  (act s action).map fun next => (next, [])

/-- A service that no core is mapped to. -/
def unmapped (cores : Nat) : Service cores where
  mtSafe := false
  compRunstate := true
  appRunstate := true
  numMappedCores := 0
  executeLock := false
  serviceMask := fun _ => false
  runstate := fun _ => true
  place := fun _ => .idle

/-! ### Parts of `service_run` -/

/-- The callback is executing. -/
def Place.executing : Place → Bool
  | .calling _ => true
  | _ => false

/-- The core has found whether it needs the lock, and the callback has not returned. -/
def Place.entered : Place → Bool
  | .skipping | .acquiring | .calling _ => true
  | _ => false

/-- The core runs the callback without the lock, or is about to. -/
def Place.unlocked : Place → Bool
  | .skipping => true
  | .calling locked => !locked
  | _ => false

/-- The core holds the lock. -/
def Place.holding : Place → Bool
  | .calling locked => locked
  | .releasing => true
  | _ => false

/-- The callback is executing on one core at most. -/
def Exclusive : Prop :=
  ∀ core other, (s.place core).executing = true → (s.place other).executing = true → core = other

/--
What a core finds about the lock stays true: it does not need the lock only while no other core
has got past this test, and it needs the lock only while no core goes without it.
-/
def orderly : Action cores → Prop
  | .advance core =>
    s.place core = .runnable → ∀ other, other ≠ core →
      (if s.useAtomics then (s.place other).unlocked else (s.place other).entered) = false
  | _ => True

instance (action : Action cores) : Decidable (orderly s action) :=
  match action with
  | .advance _ => inferInstanceAs (Decidable (_ → ∀ _, _))
  | .setMask _ | .countCore | .setCompRunstate _ | .setAppRunstate _ | .setRunstate _ _ =>
    .isTrue trivial

/-- A step of a core that finds the truth about the lock, or of the application. -/
def orderlyStep (action : Action cores) : Option (Service cores × List Unit) :=
  if orderly s action then step s action else none

/-! ### The invariant -/

/-- A core that goes without the lock is alone, and one core at most holds the lock. -/
structure Ruled (s : Service cores) : Prop where
  alone : ∀ core other, (s.place core).unlocked = true → other ≠ core →
    (s.place other).entered = false
  locked : ∀ core, (s.place core).holding = true → s.executeLock = true
  holder : ∀ core other, (s.place core).holding = true → (s.place other).holding = true →
    core = other

theorem Place.executing_cases {place : Place} (executing : place.executing = true) :
    place.entered = true ∧ (place.unlocked = true ∨ place.holding = true) := by
  cases place with
  | calling locked => cases locked <;> decide
  | _ => cases executing

theorem Place.entered_of_unlocked {place : Place} (unlocked : place.unlocked = true) :
    place.entered = true := by
  cases place with
  | skipping | calling => rfl
  | _ => cases unlocked

variable {s : Service cores} {core : Fin cores}

section

variable (ruled : Ruled s)
include ruled

/-- The cores that execute the callback all hold the lock, or one of them is alone. -/
theorem Ruled.exclusive : Exclusive s := by
  have onlyOne : ∀ core other, (s.place core).unlocked = true → (s.place other).entered = true →
      other = core := by
    intro core other unlocked entered
    by_contra differs
    cases (ruled.alone core other unlocked differs).symm.trans entered
  intro core other executing executing'
  obtain ⟨entered, unlocked | holding⟩ := Place.executing_cases executing
  · exact (onlyOne core other unlocked (Place.executing_cases executing').1).symm
  · obtain ⟨-, unlocked' | holding'⟩ := Place.executing_cases executing'
    · exact onlyOne other core unlocked' entered
    · exact ruled.holder core other holding holding'

variable {place : Place}

/-- A core moves, and may set the lock or clear it. -/
theorem Ruled.moveTo {lock : Bool}
    (alone : ∀ other, other ≠ core →
      (place.unlocked = true → (s.place other).entered = false) ∧
        ((s.place other).unlocked = true → place.entered = false))
    (others : ∀ other, other ≠ core → (s.place other).holding = true →
      lock = true ∧ place.holding = false) (locked : place.holding = true → lock = true) :
    Ruled ({ s with executeLock := lock }.moveTo core place) := by
  have places (other : Fin cores) : ({ s with executeLock := lock }.moveTo core place).place other =
      if other = core then place else s.place other := update_apply ..
  obtain ⟨wasAlone, wasLocked, wasHolder⟩ := ruled
  refine ⟨fun one other => ?_, fun one => ?_, fun one other => ?_⟩
  all_goals simp only [places]; grind [Service.moveTo]

/-- A core goes on and leaves the lock alone. -/
theorem Ruled.moveTo_same (entered : place.entered = true → (s.place core).entered = true)
    (unlocked : place.unlocked = true → (s.place core).unlocked = true)
    (holding : place.holding = (s.place core).holding) : Ruled (s.moveTo core place) := by
  obtain ⟨alone, locked, holder⟩ := ruled
  refine Ruled.moveTo ⟨alone, locked, holder⟩ (fun other differs => ?_) (fun other differs => ?_) ?_
  all_goals grind

end

/-! ### Steps -/

/-- A core goes to a place before the test or behind the callback. -/
theorem Ruled.moveTo_outside {place : Place} (ruled : Ruled s) (outside : place.entered = false)
    (holding : place.holding = (s.place core).holding) : Ruled (s.moveTo core place) := by
  refine ruled.moveTo_same (fun entered => ?_) (fun unlocked => ?_) holding
  · cases outside.symm.trans entered
  · cases outside.symm.trans (Place.entered_of_unlocked unlocked)

theorem advance_ruled {next : Service cores} (ruled : Ruled s)
    (isOrderly : orderly s (.advance core)) (taken : advance s core = some next) : Ruled next := by
  rw [advance] at taken
  split at taken
  · next isIdle =>
    obtain ⟨-, isNext⟩ := Option.ite_none_right_eq_some.mp taken
    cases isNext
    exact ruled.moveTo_outside rfl (by rw [isIdle]; rfl)
  · next bit isMasked =>
    cases taken
    split <;> exact ruled.moveTo_outside rfl (by rw [isMasked]; rfl)
  · next isRunnable =>
    cases taken
    have found := isOrderly isRunnable
    refine ruled.moveTo (fun other differs => ?_) (fun other _ held => ?_) ?_
    · have := found other differs
      have := @Place.entered_of_unlocked (s.place other)
      grind [Place.entered, Place.unlocked]
    · exact ⟨ruled.locked other held, by split <;> rfl⟩
    · split <;> exact fun holding => by cases holding
  · next isSkipping =>
    cases taken
    exact ruled.moveTo_same (fun _ => by rw [isSkipping]; rfl) (fun _ => by rw [isSkipping]; rfl)
      (by rw [isSkipping]; rfl)
  · next isAcquiring =>
    split at taken
    · cases taken
      exact ruled.moveTo_outside rfl (by rw [isAcquiring]; rfl)
    · next isFree =>
      cases taken
      refine ruled.moveTo (fun other differs => ?_) (fun other _ held => ?_) fun _ => rfl
      · refine ⟨fun unlocked => (by cases unlocked), fun unlocked => ?_⟩
        have outside := ruled.alone other core unlocked differs.symm
        rw [isAcquiring] at outside
        cases outside
      · exact absurd (ruled.locked other held) isFree
  · next locked isCalling =>
    cases taken
    split
    · next isLocked => exact ruled.moveTo_outside rfl (by rw [isCalling, isLocked]; rfl)
    · next notLocked =>
      rw [Bool.not_eq_true] at notLocked
      exact ruled.moveTo_outside rfl (by rw [isCalling, notLocked]; rfl)
  · next isReleasing =>
    cases taken
    refine ruled.moveTo (fun other _ => ?_) (fun other differs held => ?_) fun holding => by
      cases holding
    · exact ⟨fun unlocked => (by cases unlocked), fun _ => rfl⟩
    · have isHolding : (s.place core).holding = true := by
        rw [isReleasing]
        rfl
      exact absurd (ruled.holder other core held isHolding) differs

theorem orderlyStep_ruled {next : Service cores} (ruled : Ruled s) {action : Action cores}
    {events : List Unit} (taken : orderlyStep s action = some (next, events)) : Ruled next := by
  obtain ⟨isOrderly, taken⟩ := Option.ite_none_right_eq_some.mp taken
  obtain ⟨result, isResult, isNext⟩ := Option.map_eq_some_iff.mp taken
  obtain rfl : result = next := (Prod.mk.inj isNext).1
  cases action with
  | advance core => exact advance_ruled ruled isOrderly isResult
  | setMask | countCore | setCompRunstate | setAppRunstate | setRunstate =>
    cases isResult
    exact { ruled with }

theorem unmapped_ruled : Ruled (unmapped cores) where
  alone _ _ unlocked := by cases unlocked
  locked _ holding := by cases holding
  holder _ _ holding := by cases holding

/--
When what a core finds about the lock stays true, the callback is executing on one core at
most in every state that is reached.
-/
theorem orderly_exclusive {s : Service cores}
    (reachable : Reachable orderlyStep (unmapped cores) s) : Exclusive s := by
  have ruled : Ruled s := Reachable.invariant Ruled
    (fun _ _ _ _ ruled taken => orderlyStep_ruled ruled taken) unmapped_ruled reachable
  exact ruled.exclusive

/-- The steps of a mapping. -/
def map (core : Fin cores) : List (Action cores) := [.setMask core, .countCore]

/-- Two cores are mapped; one runs the callback under the lock, and the other finds it taken. -/
theorem orderly_exclusive_locked :
    ∃ s events, run orderlyStep (unmapped 2)
        (map 0 ++ map 1 ++ List.replicate 4 (.advance 0) ++ List.replicate 4 (.advance 1)) =
          some (s, events) ∧
      s.place 0 = .calling true ∧ s.place 1 = .idle ∧ Exclusive s := by
  refine exists_run_of_any
    (fun result => result.1.place 0 = .calling true ∧ result.1.place 1 = .idle)
    (by decide +kernel) fun s events ran found => ?_
  obtain ⟨calling, idle⟩ := of_decide_eq_true found
  exact ⟨calling, idle, orderly_exclusive ⟨_, events, ran⟩⟩

/-- A second core is mapped while the first one runs the callback without the lock. -/
theorem mapping_not_exclusive :
    ∃ s events, run step (unmapped 2)
        (map 0 ++ List.replicate 4 (.advance 0) ++ map 1 ++ List.replicate 4 (.advance 1)) =
          some (s, events) ∧ s.mtSafe = false ∧ ¬ Exclusive s := by
  refine exists_run_of_any (fun result => result.1.mtSafe = false ∧
      (result.1.place 0).executing = true ∧ (result.1.place 1).executing = true)
    (by decide +kernel) fun s events _ found => ?_
  obtain ⟨unsafely, first, second⟩ := of_decide_eq_true found
  exact ⟨unsafely, fun exclusive => absurd (exclusive 0 1 first second) (by decide)⟩

end StudyNotes.Eal
