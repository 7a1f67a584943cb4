/-
This file proves that launching functions on other cores and waiting for them
works as a hand-over of one job at a time.

The master writes the job into the configuration of the core, sends a byte
through one pipe and waits for a byte from the other; the slave takes the job
between the two, and says with a state variable when it is done. Whatever the
order of the steps of master and slaves, the calls of the master and the calls
of the slaves follow the specification of a core that has at most one job.
-/

import StudyNotes.Library.Conforms

namespace StudyNotes.Eal

open Library Function

/-! ### The model -/

/-- `enum rte_lcore_state_t`. -/
inductive LcoreState where
  | wait
  | running
  | finished
  deriving DecidableEq

/-- `struct lcore_config`, with the number of bytes that are in its pipes. -/
structure LcoreConfig (F Arg : Type) where
  state : LcoreState
  f : F
  arg : Arg
  ret : Int
  isService : Bool
  master2slave : Nat
  slave2master : Nat

/-- Where a slave is in `eal_thread_loop`. -/
inductive SlavePlace (Arg : Type) where
  /-- It waits for a command. -/
  | reading
  /-- It has a command, and is about to say that it is running. -/
  | commanded
  /-- It is about to send its answer. -/
  | answering
  /-- It is about to read the argument. -/
  | answered
  /-- It is about to call the function. -/
  | calling (fctArg : Arg)
  /-- The function is executing. -/
  | executing
  /-- The function has returned. -/
  | returned (ret : Int)
  /-- It is about to say that it has finished. -/
  | finishing

/-- Where the master is in `rte_eal_remote_launch` or `rte_eal_wait_lcore`. -/
inductive MasterPlace (Lcore F Arg : Type) where
  | idle
  | checkLaunch (lcore : Lcore) (f : F) (arg : Arg)
  | setF (lcore : Lcore) (f : F) (arg : Arg)
  | setArg (lcore : Lcore) (f : F) (arg : Arg)
  | sendCommand (lcore : Lcore) (f : F) (arg : Arg)
  | readAnswer (lcore : Lcore) (f : F) (arg : Arg)
  | checkWait (lcore : Lcore)
  /-- The first half of the loop's condition. -/
  | untilWait (lcore : Lcore)
  /-- The second half of the loop's condition. -/
  | untilFinished (lcore : Lcore)
  | setWait (lcore : Lcore)
  | readRet (lcore : Lcore)

/-- The configurations, and where everybody is. -/
structure Lcores (Lcore F Arg : Type) where
  config : Lcore → LcoreConfig F Arg
  slave : Lcore → SlavePlace Arg
  master : MasterPlace Lcore F Arg

/-- What can be seen: the calls of the master, and those of the slaves. -/
inductive Event (Lcore F Arg : Type) where
  /-- A launch finds its core waiting. -/
  | accepted (lcore : Lcore) (f : F) (arg : Arg)
  /-- A launch returns `-EBUSY`. -/
  | busy (lcore : Lcore)
  /-- A launch returns 0. -/
  | launched (lcore : Lcore) (f : F) (arg : Arg)
  /-- The core calls a function. -/
  | started (lcore : Lcore) (f : F) (arg : Arg)
  /-- The function returns. -/
  | ended (lcore : Lcore) (ret : Int)
  /-- A wait returns. -/
  | waited (lcore : Lcore) (value : Int)
  deriving DecidableEq

def Event.lcore {Lcore F Arg : Type} : Event Lcore F Arg → Lcore
  | .accepted lcore _ _ => lcore
  | .busy lcore => lcore
  | .launched lcore _ _ => lcore
  | .started lcore _ _ => lcore
  | .ended lcore _ => lcore
  | .waited lcore _ => lcore

/-- The core that the master deals with. -/
def MasterPlace.core {Lcore F Arg : Type} : MasterPlace Lcore F Arg → Option Lcore
  | .idle => none
  | .checkLaunch lcore _ _ | .setF lcore _ _ | .setArg lcore _ _ | .sendCommand lcore _ _
  | .readAnswer lcore _ _ | .checkWait lcore | .untilWait lcore | .untilFinished lcore
  | .setWait lcore | .readRet lcore => some lcore

/-- The master calls a function or takes its next step, or a slave takes its next step; what a
function returns is not known before. -/
inductive LaunchAction (Lcore F Arg : Type) where
  | remoteLaunch (lcore : Lcore) (f : F) (arg : Arg)
  | waitLcore (lcore : Lcore)
  | master
  | slave (lcore : Lcore) (result : Int)

variable {Lcore F Arg : Type} {lcore : Lcore} {place : MasterPlace Lcore F Arg}

section Steps

variable [DecidableEq Lcore] (s : Lcores Lcore F Arg)

def Lcores.setConfig (lcore : Lcore) (config : LcoreConfig F Arg) : Lcores Lcore F Arg :=
  { s with config := update s.config lcore config }

def Lcores.setSlave (lcore : Lcore) (place : SlavePlace Arg) : Lcores Lcore F Arg :=
  { s with slave := update s.slave lcore place }

def Lcores.setMaster (place : MasterPlace Lcore F Arg) : Lcores Lcore F Arg :=
  { s with master := place }

@[simp] theorem Lcores.setConfig_config_self (lcore : Lcore)
    (config : LcoreConfig F Arg) : (s.setConfig lcore config).config lcore = config :=
  update_self ..

theorem Lcores.setConfig_same (lcore : Lcore) : s.setConfig lcore (s.config lcore) = s := by
  rw [Lcores.setConfig, update_eq_self]

@[simp] theorem Lcores.setSlave_slave_self (lcore : Lcore)
    (place : SlavePlace Arg) : (s.setSlave lcore place).slave lcore = place :=
  update_self ..

/-- The next step of `rte_eal_remote_launch` or `rte_eal_wait_lcore`. -/
def masterStep : Option (Lcores Lcore F Arg × List (Event Lcore F Arg)) :=
  match s.master with
  | .idle => none
  | .checkLaunch lcore f arg =>
    if (s.config lcore).state ≠ .wait then some (s.setMaster .idle, [.busy lcore])
    else some (s.setMaster (.setF lcore f arg), [.accepted lcore f arg])
  | .setF lcore f arg =>
    some ((s.setConfig lcore { s.config lcore with f := f }).setMaster (.setArg lcore f arg), [])
  | .setArg lcore f arg =>
    some ((s.setConfig lcore { s.config lcore with arg := arg }).setMaster
      (.sendCommand lcore f arg), [])
  | .sendCommand lcore f arg =>
    some ((s.setConfig lcore
      { s.config lcore with master2slave := (s.config lcore).master2slave + 1 }).setMaster
        (.readAnswer lcore f arg), [])
  | .readAnswer lcore f arg =>
    if (s.config lcore).slave2master = 0 then none
    else some ((s.setConfig lcore
      { s.config lcore with slave2master := (s.config lcore).slave2master - 1 }).setMaster .idle,
        [.launched lcore f arg])
  | .checkWait lcore =>
    if (s.config lcore).state = .wait then some (s.setMaster .idle, [.waited lcore 0])
    else some (s.setMaster (.untilWait lcore), [])
  | .untilWait lcore =>
    if (s.config lcore).state = .wait then some (s.setMaster (.setWait lcore), [])
    else some (s.setMaster (.untilFinished lcore), [])
  | .untilFinished lcore =>
    if (s.config lcore).state = .finished then some (s.setMaster (.setWait lcore), [])
    else some (s.setMaster (.untilWait lcore), [])
  | .setWait lcore =>
    some ((s.setConfig lcore { s.config lcore with state := .wait }).setMaster (.readRet lcore), [])
  | .readRet lcore => some (s.setMaster .idle, [.waited lcore (s.config lcore).ret])

/-- The next step of `eal_thread_loop`. -/
def slaveStep (lcore : Lcore) (result : Int) :
    Option (Lcores Lcore F Arg × List (Event Lcore F Arg)) :=
  let config := s.config lcore
  match s.slave lcore with
  | .reading =>
    if config.master2slave = 0 then none
    else some ((s.setConfig lcore { config with master2slave := config.master2slave - 1 }).setSlave
      lcore .commanded, [])
  | .commanded =>
    some ((s.setConfig lcore { config with state := .running }).setSlave lcore .answering, [])
  | .answering =>
    some ((s.setConfig lcore { config with slave2master := config.slave2master + 1 }).setSlave
      lcore .answered, [])
  | .answered => some (s.setSlave lcore (.calling config.arg), [])
  | .calling fctArg => some (s.setSlave lcore .executing, [.started lcore config.f fctArg])
  | .executing => some (s.setSlave lcore (.returned result), [.ended lcore result])
  | .returned ret =>
    some ((s.setConfig lcore { config with ret := ret }).setSlave lcore .finishing, [])
  | .finishing =>
    some ((s.setConfig lcore
      { config with state := if config.isService then .wait else .finished }).setSlave
        lcore .reading, [])

def launchStep :
    LaunchAction Lcore F Arg → Option (Lcores Lcore F Arg × List (Event Lcore F Arg))
  | .remoteLaunch lcore f arg =>
    match s.master with
    | .idle => some (s.setMaster (.checkLaunch lcore f arg), [])
    | _ => none
  | .waitLcore lcore =>
    match s.master with
    | .idle => some (s.setMaster (.checkWait lcore), [])
    | _ => none
  | .master => masterStep s
  | .slave lcore result => slaveStep s lcore result

end Steps

/-! ### The specification -/

/-- What a core is for: it has at most one job, until its result has been collected. -/
inductive Job (F Arg : Type) where
  | none
  | launched (f : F) (arg : Arg)
  | running (f : F) (arg : Arg)
  | ended (f : F) (arg : Arg) (ret : Int)

/--
A launch is accepted when there is no job, and refused when there is one; the core
runs the function of the job with its argument, once; a wait returns when the
function has returned, with its result, or with 0 when there is no job.
-/
inductive Job.Allows : Job F Arg → Event Lcore F Arg → Job F Arg → Prop where
  | accepted {lcore : Lcore} {f : F} {arg : Arg} :
      Allows .none (.accepted lcore f arg) (.launched f arg)
  | busy {lcore : Lcore} {job : Job F Arg} (uncollected : job ≠ .none) :
      Allows job (.busy lcore) job
  | launched {lcore : Lcore} {f : F} {arg : Arg} {job : Job F Arg}
      (isJob : job = .launched f arg ∨ job = .running f arg ∨ ∃ ret, job = .ended f arg ret) :
      Allows job (.launched lcore f arg) job
  | started {lcore : Lcore} {f : F} {arg : Arg} :
      Allows (.launched f arg) (.started lcore f arg) (.running f arg)
  | ended {lcore : Lcore} {f : F} {arg : Arg} {ret : Int} :
      Allows (.running f arg) (.ended lcore ret) (.ended f arg ret)
  | nothing {lcore : Lcore} : Allows .none (.waited lcore 0) .none
  | collected {lcore : Lcore} {f : F} {arg : Arg} {ret : Int} :
      Allows (.ended f arg ret) (.waited lcore ret) .none

/-! ### How the model and the specification are linked -/

/-- The job of a slave that has answered. -/
inductive AtWork (config : LcoreConfig F Arg) : SlavePlace Arg → Job F Arg → Prop where
  | answered (state : config.state = .running) :
      AtWork config .answered (.launched config.f config.arg)
  | calling (state : config.state = .running) :
      AtWork config (.calling config.arg) (.launched config.f config.arg)
  | executing (state : config.state = .running) :
      AtWork config .executing (.running config.f config.arg)
  | returned (state : config.state = .running) (ret : Int) :
      AtWork config (.returned ret) (.ended config.f config.arg ret)
  | finishing (state : config.state = .running) :
      AtWork config .finishing (.ended config.f config.arg config.ret)
  | finished (state : config.state = .finished) :
      AtWork config .reading (.ended config.f config.arg config.ret)

/-- A core that has no command and no answer in its pipes. -/
structure Silent (config : LcoreConfig F Arg) : Prop where
  master2slave : config.master2slave = 0
  slave2master : config.slave2master = 0

/-- A slave that waits for a command and has none. -/
structure Reading (config : LcoreConfig F Arg) (slave : SlavePlace Arg) (state : LcoreState) :
    Prop where
  slave : slave = .reading
  state : config.state = state
  silent : Silent config

/-- The job of a slave that has got a command and not answered. -/
inductive Commanded (config : LcoreConfig F Arg) : SlavePlace Arg → Job F Arg → Prop where
  | sent (state : config.state = .wait) (master2slave : config.master2slave = 1)
      (slave2master : config.slave2master = 0) :
      Commanded config .reading (.launched config.f config.arg)
  | commanded (silent : Silent config) :
      Commanded config .commanded (.launched config.f config.arg)
  | answering (state : config.state = .running) (silent : Silent config) :
      Commanded config .answering (.launched config.f config.arg)

/-- The job of a core that the master does not deal with. -/
inductive Unattended (config : LcoreConfig F Arg) (slave : SlavePlace Arg) : Job F Arg → Prop where
  | rest (reading : Reading config slave .wait) : Unattended config slave .none
  | atWork {job : Job F Arg} (silent : Silent config) (work : AtWork config slave job) :
      Unattended config slave job

/-- The job of a core that the master deals with. -/
def Attended (config : LcoreConfig F Arg) (slave : SlavePlace Arg) (job : Job F Arg) :
    MasterPlace Lcore F Arg → Prop
  | .idle | .checkLaunch _ _ _ | .checkWait _ => Unattended config slave job
  | .setF _ f arg => Reading config slave .wait ∧ job = .launched f arg
  | .setArg _ f arg => Reading config slave .wait ∧ config.f = f ∧ job = .launched f arg
  | .sendCommand _ f arg =>
    Reading config slave .wait ∧ config.f = f ∧ config.arg = arg ∧ job = .launched f arg
  | .readAnswer _ f arg =>
    config.f = f ∧ config.arg = arg ∧
      (Commanded config slave job ∨
        config.master2slave = 0 ∧ config.slave2master = 1 ∧ AtWork config slave job)
  | .untilWait _ | .untilFinished _ => Silent config ∧ AtWork config slave job
  | .setWait _ =>
    Reading config slave .finished ∧ job = .ended config.f config.arg config.ret
  | .readRet _ => Reading config slave .wait ∧ job = .ended config.f config.arg config.ret

variable {s : Lcores Lcore F Arg} {config : LcoreConfig F Arg} {slave : SlavePlace Arg}
  {job : Job F Arg}

section

variable (work : AtWork config slave job)
include work

theorem AtWork.state_ne_wait : config.state ≠ .wait := by
  intro isWait
  cases work with
  | answered state | calling state | executing state | returned state | finishing state
  | finished state => cases isWait.symm.trans state

theorem AtWork.of_finished (isFinished : config.state = .finished) :
    slave = .reading ∧ job = .ended config.f config.arg config.ret := by
  cases work with
  | finished => exact ⟨rfl, rfl⟩
  | answered state | calling state | executing state | returned state | finishing state =>
    cases isFinished.symm.trans state

/-- A slave at work has a job, the one that its configuration says. -/
theorem AtWork.isJob :
    job = .launched config.f config.arg ∨ job = .running config.f config.arg ∨
      ∃ ret, job = .ended config.f config.arg ret := by
  cases work with
  | answered | calling => exact .inl rfl
  | executing => exact .inr (.inl rfl)
  | returned _ ret => exact .inr (.inr ⟨ret, rfl⟩)
  | finishing | finished => exact .inr (.inr ⟨config.ret, rfl⟩)

end

theorem Commanded.slave2master (commanded : Commanded config slave job) :
    config.slave2master = 0 := by
  cases commanded with
  | sent _ _ noAnswer => exact noAnswer
  | commanded silent | answering _ silent => exact silent.2

/-- The pipes do not matter for a slave at work. -/
theorem AtWork.pipes (work : AtWork config slave job) (master2slave slave2master : Nat) :
    AtWork { config with master2slave := master2slave, slave2master := slave2master }
      slave job := by
  cases work <;> constructor <;> assumption

theorem AtWork.job_ne_none (work : AtWork config slave job) : job ≠ .none := by
  rintro rfl
  cases work

/-! ### Steps -/

/-- The specification of a core is in the state that the model says. -/
structure Related (lcore : Lcore) (s : Lcores Lcore F Arg) (job : Job F Arg) : Prop where
  attended : s.master.core = some lcore →
    Attended (s.config lcore) (s.slave lcore) job s.master
  unattended : s.master.core ≠ some lcore → Unattended (s.config lcore) (s.slave lcore) job
  isService : (s.config lcore).isService = false

/-- The master goes to a place where it still deals with the core. -/
theorem related_setMaster (isCore : place.core = some lcore)
    (attended : Attended (s.config lcore) (s.slave lcore) job place)
    (isService : (s.config lcore).isService = false) : Related lcore (s.setMaster place) job :=
  ⟨fun _ => attended, fun differs => absurd isCore differs, isService⟩

/-- The master is done with the core. -/
theorem related_idle (unattended : Unattended (s.config lcore) (s.slave lcore) job)
    (isService : (s.config lcore).isService = false) : Related lcore (s.setMaster .idle) job :=
  ⟨fun _ => unattended, fun _ => unattended, isService⟩

section Matched

variable [DecidableEq Lcore] {lcore : Lcore} {s next : Lcores Lcore F Arg}
  {events : List (Event Lcore F Arg)}

/-- The events of a step are allowed, and the specification goes along. -/
def Matched (lcore : Lcore) (job : Job F Arg)
    (step : Lcores Lcore F Arg × List (Event Lcore F Arg)) : Prop :=
  ∃ job', Conforms Job.Allows job (step.2.filter fun event => event.lcore = lcore) job' ∧
    Related lcore step.1 job'

theorem matched_silent (related : Related lcore next job) : Matched lcore job (next, []) :=
  ⟨job, .nil, related⟩

variable {job' : Job F Arg} {result : Int} {slave' : SlavePlace Arg}

theorem matched_event {event : Event Lcore F Arg} (isOurs : event.lcore = lcore)
    (allows : Job.Allows job event job') (related : Related lcore next job') :
    Matched lcore job (next, [event]) := by
  refine ⟨job', ?_, related⟩
  rw [List.filter_cons_of_pos (by simpa using isOurs)]
  exact .single allows

/-- A step whose events belong to other cores. -/
theorem matched_elsewhere (related : Related lcore next job)
    (others : ∀ event ∈ events, event.lcore ≠ lcore) : Matched lcore job (next, events) := by
  refine ⟨job, ?_, related⟩
  rw [List.filter_eq_nil_iff.mpr fun event member => by simpa using others event member]
  exact .nil

/-- A step of the master that has to do with another core. -/
theorem masterStep_elsewhere (related : Related lcore s job)
    (differs : s.master.core ≠ some lcore) (taken : masterStep s = some (next, events)) :
    Matched lcore job (next, events) := by
  have stays : next.config lcore = s.config lcore ∧ next.slave lcore = s.slave lcore ∧
      next.master.core ≠ some lcore ∧ ∀ event ∈ events, event.lcore ≠ lcore := by
    rw [masterStep] at taken
    cases isPlace : s.master
    all_goals
      rw [isPlace] at differs taken
      dsimp only at taken
      try split at taken
      all_goals cases taken
    -- what is left are the places of the master with the core that it deals with
    all_goals
      have outside : _ ≠ lcore := fun same => differs (congrArg some same)
      simp [Lcores.setMaster, Lcores.setConfig, MasterPlace.core, Event.lcore, outside,
        outside.symm]
  obtain ⟨config, slave, differs', others⟩ := stays
  refine matched_elsewhere ⟨fun isCore => absurd isCore differs', fun _ => ?_, ?_⟩ others
  · rw [config, slave]
    exact related.unattended differs
  · rw [config]
    exact related.isService

/-- The master changes the configuration and still deals with the core. -/
theorem related_setConfig (isCore : place.core = some lcore)
    (attended : Attended config (s.slave lcore) job place) (isService : config.isService = false) :
    Related lcore ((s.setConfig lcore config).setMaster place) job := by
  refine related_setMaster isCore ?_ ?_ <;> rwa [Lcores.setConfig_config_self]

/-- A step of the master that has to do with this core. -/
theorem masterStep_here (related : Related lcore s job) (isCore : s.master.core = some lcore)
    (taken : masterStep s = some (next, events)) : Matched lcore job (next, events) := by
  have attended := related.attended isCore
  have isService := related.isService
  rw [masterStep] at taken
  cases isPlace : s.master
  all_goals rw [isPlace] at isCore attended taken
  case idle => cases isCore
  all_goals
    cases isCore
    dsimp only at taken
  case checkLaunch lcore f arg =>
    cases attended with
    | rest reading =>
      rw [if_neg (not_not.mpr reading.state)] at taken
      cases taken
      exact matched_event rfl .accepted (related_setMaster rfl ⟨reading, rfl⟩ isService)
    | atWork silent work =>
      rw [if_pos work.state_ne_wait] at taken
      cases taken
      exact matched_event rfl (.busy work.job_ne_none)
        (related_idle (.atWork silent work) isService)
  case setF lcore f arg =>
    obtain ⟨⟨isSlave, state, silent⟩, rfl⟩ := attended
    cases taken
    exact matched_silent (related_setConfig rfl
      ⟨⟨isSlave, state, silent.1, silent.2⟩, rfl, rfl⟩ isService)
  case setArg lcore f arg =>
    obtain ⟨⟨isSlave, state, silent⟩, isF, rfl⟩ := attended
    cases taken
    exact matched_silent (related_setConfig rfl
      ⟨⟨isSlave, state, silent.1, silent.2⟩, isF, rfl, rfl⟩ isService)
  case sendCommand lcore f arg =>
    obtain ⟨⟨isSlave, state, silent⟩, rfl, rfl, rfl⟩ := attended
    cases taken
    refine matched_silent (related_setConfig rfl ⟨rfl, rfl, ?_⟩ isService)
    rw [isSlave]
    exact .inl (.sent state (congrArg (· + 1) silent.1) silent.2)
  case readAnswer lcore f arg =>
    obtain ⟨rfl, rfl, commanded | ⟨noCommand, oneAnswer, work⟩⟩ := attended
    · rw [if_pos commanded.slave2master] at taken
      cases taken
    · rw [if_neg (by rw [oneAnswer]; decide)] at taken
      cases taken
      refine matched_event rfl (.launched work.isJob) (related_idle ?_ ?_)
      · rw [Lcores.setConfig_config_self]
        exact .atWork ⟨noCommand, congrArg (· - 1) oneAnswer⟩ (work.pipes _ _)
      · rw [Lcores.setConfig_config_self]
        exact isService
  case checkWait lcore =>
    cases attended with
    | rest reading =>
      rw [if_pos reading.state] at taken
      cases taken
      exact matched_event rfl .nothing (related_idle (.rest reading) isService)
    | atWork silent work =>
      rw [if_neg work.state_ne_wait] at taken
      cases taken
      exact matched_silent (related_setMaster rfl ⟨silent, work⟩ isService)
  case untilWait lcore =>
    obtain ⟨silent, work⟩ := attended
    rw [if_neg work.state_ne_wait] at taken
    cases taken
    exact matched_silent (related_setMaster rfl ⟨silent, work⟩ isService)
  case untilFinished lcore =>
    obtain ⟨silent, work⟩ := attended
    split at taken
    · next isFinished =>
      cases taken
      obtain ⟨isSlave, rfl⟩ := work.of_finished isFinished
      exact matched_silent (related_setMaster rfl ⟨⟨isSlave, isFinished, silent⟩, rfl⟩ isService)
    · cases taken
      exact matched_silent (related_setMaster rfl ⟨silent, work⟩ isService)
  case setWait lcore =>
    obtain ⟨⟨isSlave, state, silent⟩, rfl⟩ := attended
    cases taken
    exact matched_silent (related_setConfig rfl
      ⟨⟨isSlave, rfl, silent.1, silent.2⟩, rfl⟩ isService)
  case readRet lcore =>
    obtain ⟨reading, rfl⟩ := attended
    cases taken
    exact matched_event rfl .collected (related_idle (.rest reading) isService)

/-- The slave of the core goes on. -/
theorem related_setSlave
    (attended : s.master.core = some lcore → Attended config slave' job s.master)
    (unattended : s.master.core ≠ some lcore → Unattended config slave' job)
    (isService : config.isService = false) :
    Related lcore ((s.setConfig lcore config).setSlave lcore slave') job := by
  have isConfig : ((s.setConfig lcore config).setSlave lcore slave').config lcore = config :=
    s.setConfig_config_self lcore config
  constructor
  all_goals rw [isConfig]
  · rwa [Lcores.setSlave_slave_self]
  · rwa [Lcores.setSlave_slave_self]
  · exact isService

/-- Whatever a slave at work does next, the specification goes along. -/
def GoesOn (lcore : Lcore) (s : Lcores Lcore F Arg) : Prop :=
  ∀ state ret slave' job', AtWork { s.config lcore with state := state, ret := ret } slave' job' →
    Related lcore ((s.setConfig lcore { s.config lcore with state := state, ret := ret }).setSlave
      lcore slave') job'

theorem GoesOn.same (goesOn : GoesOn lcore s) (work : AtWork (s.config lcore) slave' job) :
    Related lcore (s.setSlave lcore slave') job := by
  have kept := goesOn _ _ slave' job work
  rw [Lcores.setConfig_same] at kept
  exact kept

/-- A slave has a command and not answered, or waits for a command, or is at work. -/
theorem Related.cases_slave (related : Related lcore s job) :
    (s.master = .readAnswer lcore (s.config lcore).f (s.config lcore).arg ∧
      Commanded (s.config lcore) (s.slave lcore) job) ∨
    ((s.config lcore).master2slave = 0 ∧ (s.slave lcore = .reading ∨
      AtWork (s.config lcore) (s.slave lcore) job ∧ GoesOn lcore s)) := by
  have isService := related.isService
  by_cases isCore : s.master.core = some lcore
  · have attended := related.attended isCore
    obtain ⟨config, slaves, master⟩ := s
    cases master
    case idle => cases isCore
    all_goals obtain rfl := Option.some.inj isCore
    case checkLaunch | checkWait =>
      rcases attended with reading | ⟨silent, work⟩
      · exact .inr ⟨reading.silent.1, .inl reading.slave⟩
      · refine .inr ⟨silent.1, .inr ⟨work, fun _ _ _ _ work' => ?_⟩⟩
        exact related_setSlave (fun _ => .atWork ⟨silent.1, silent.2⟩ work') (absurd rfl) isService
    case setF | setArg | sendCommand | setWait | readRet =>
      exact .inr ⟨attended.1.silent.1, .inl attended.1.slave⟩
    case untilWait | untilFinished =>
      obtain ⟨silent, work⟩ := attended
      refine .inr ⟨silent.1, .inr ⟨work, fun _ _ _ _ work' => ?_⟩⟩
      exact related_setSlave (fun _ => ⟨⟨silent.1, silent.2⟩, work'⟩) (absurd rfl) isService
    case readAnswer =>
      obtain ⟨isF, isArg, commanded | ⟨noCommand, oneAnswer, work⟩⟩ := attended
      · exact .inl ⟨by rw [isF, isArg], commanded⟩
      · refine .inr ⟨noCommand, .inr ⟨work, fun _ _ _ _ work' => ?_⟩⟩
        exact related_setSlave (fun _ => ⟨isF, isArg, .inr ⟨noCommand, oneAnswer, work'⟩⟩)
          (absurd rfl) isService
  · rcases related.unattended isCore with reading | ⟨silent, work⟩
    · exact .inr ⟨reading.silent.1, .inl reading.slave⟩
    · refine .inr ⟨silent.1, .inr ⟨work, fun _ _ _ _ work' => ?_⟩⟩
      exact related_setSlave (absurd · isCore) (fun _ => .atWork ⟨silent.1, silent.2⟩ work')
        isService

/-- The master waits for the answer, and the slave goes on. -/
theorem related_commanded {f : F} {arg : Arg} (isMaster : s.master = .readAnswer lcore f arg)
    (isF : config.f = f) (isArg : config.arg = arg)
    (commanded : Commanded config slave' job ∨
      config.master2slave = 0 ∧ config.slave2master = 1 ∧ AtWork config slave' job)
    (isService : config.isService = false) :
    Related lcore ((s.setConfig lcore config).setSlave lcore slave') job := by
  refine related_setSlave (fun _ => ?_)
    (fun differs => absurd (congrArg MasterPlace.core isMaster) differs) isService
  rw [isMaster]
  exact ⟨isF, isArg, commanded⟩

/-- A step of a slave that has a command and not answered. -/
theorem slaveStep_commanded
    (isMaster : s.master = .readAnswer lcore (s.config lcore).f (s.config lcore).arg)
    (commanded : Commanded (s.config lcore) (s.slave lcore) job)
    (isService : (s.config lcore).isService = false)
    (taken : slaveStep s lcore result = some (next, events)) :
    Matched lcore job (next, events) := by
  rw [slaveStep] at taken
  generalize s.slave lcore = slave at commanded taken
  cases commanded with
  | sent state oneCommand noAnswer =>
    obtain ⟨-, taken⟩ := Option.ite_none_left_eq_some.mp taken
    cases taken
    refine matched_silent (related_commanded isMaster rfl rfl (.inl ?_) isService)
    exact .commanded ⟨congrArg (· - 1) oneCommand, noAnswer⟩
  | commanded silent =>
    cases taken
    refine matched_silent (related_commanded isMaster rfl rfl (.inl ?_) isService)
    exact .answering rfl ⟨silent.1, silent.2⟩
  | answering state silent =>
    cases taken
    refine matched_silent (related_commanded isMaster rfl rfl (.inr ?_) isService)
    exact ⟨silent.1, congrArg (· + 1) silent.2, .answered state⟩

/-- A step of a slave at work. -/
theorem slaveStep_work (goesOn : GoesOn lcore s)
    (work : AtWork (s.config lcore) (s.slave lcore) job)
    (noCommand : (s.config lcore).master2slave = 0) (isService : (s.config lcore).isService = false)
    (taken : slaveStep s lcore result = some (next, events)) :
    Matched lcore job (next, events) := by
  rw [slaveStep] at taken
  generalize s.slave lcore = slave at work taken
  cases work with
  | answered state =>
    cases taken
    exact matched_silent (goesOn.same (.calling state))
  | calling state =>
    cases taken
    exact matched_event rfl .started (goesOn.same (.executing state))
  | executing state =>
    cases taken
    exact matched_event rfl .ended (goesOn.same (.returned state result))
  | returned state ret =>
    cases taken
    exact matched_silent (goesOn _ ret _ _ (.finishing state))
  | finishing state =>
    cases taken
    refine matched_silent (goesOn _ _ _ _ (.finished (if_neg ?_)))
    rw [isService]
    exact Bool.false_ne_true
  | finished state =>
    obtain ⟨command, -⟩ := Option.ite_none_left_eq_some.mp taken
    exact absurd noCommand command

section

variable (related : Related lcore s job)
include related

/-- A step of another slave. -/
theorem slaveStep_elsewhere {other : Lcore}
    (differs : other ≠ lcore) (taken : slaveStep s other result = some (next, events)) :
    Matched lcore job (next, events) := by
  have stays : next.config lcore = s.config lcore ∧ next.slave lcore = s.slave lcore ∧
      next.master = s.master ∧ ∀ event ∈ events, event.lcore ≠ lcore := by
    rw [slaveStep] at taken
    cases isPlace : s.slave other
    all_goals
      rw [isPlace] at taken
      dsimp only at taken
      try split at taken
      all_goals cases taken
    all_goals simp [Lcores.setSlave, Lcores.setConfig, Event.lcore, differs, differs.symm]
  obtain ⟨config, slave, master, others⟩ := stays
  refine matched_elsewhere ⟨?_, ?_, ?_⟩ others
  · rw [config, slave, master]
    exact related.attended
  · rw [config, slave, master]
    exact related.unattended
  · rw [config]
    exact related.isService

theorem slaveStep_matched {other : Lcore} (taken : slaveStep s other result = some (next, events)) :
    Matched lcore job (next, events) := by
  by_cases differs : other ≠ lcore
  · exact slaveStep_elsewhere related differs taken
  obtain rfl := not_not.mp differs
  rcases related.cases_slave with ⟨isMaster, commanded⟩ | ⟨noCommand, isReading | ⟨work, goesOn⟩⟩
  · exact slaveStep_commanded isMaster commanded related.isService taken
  · rw [slaveStep, isReading] at taken
    obtain ⟨command, -⟩ := Option.ite_none_left_eq_some.mp taken
    exact absurd noCommand command
  · exact slaveStep_work goesOn work noCommand related.isService taken

/-- Every step is matched by the specification of every core. -/
theorem launchStep_matched {action : LaunchAction Lcore F Arg}
    (taken : launchStep s action = some (next, events)) : Matched lcore job (next, events) := by
  cases action with
  | remoteLaunch other f arg | waitLcore other =>
    rw [launchStep] at taken
    split at taken
    · next isIdle =>
      cases taken
      have unattended : Unattended (s.config lcore) (s.slave lcore) job := by
        refine related.unattended ?_
        rw [isIdle]
        exact (Option.some_ne_none lcore).symm
      exact matched_silent ⟨fun _ => unattended, fun _ => unattended, related.isService⟩
    · cases taken
  | master =>
    by_cases isCore : s.master.core = some lcore
    · exact masterStep_here related isCore taken
    · exact masterStep_elsewhere related isCore taken
  | slave other result => exact slaveStep_matched related taken

end

/-! ### Runs -/

/-- All cores wait for commands, and none is a service core. -/
structure Booted (s : Lcores Lcore F Arg) : Prop where
  master : s.master = .idle
  reading : ∀ lcore, Reading (s.config lcore) (s.slave lcore) .wait
  isService : ∀ lcore, (s.config lcore).isService = false

/--
Whatever the master launches and waits for, and in whatever order the steps of the
master and the slaves come, what happens to a core follows the specification: it
gets a job only when it has none, runs it once with its argument, and hands its
result to the wait that collects it.
-/
theorem launch_conforms {start last : Lcores Lcore F Arg} (booted : Booted start)
    {actions : List (LaunchAction Lcore F Arg)}
    (ran : run launchStep start actions = some (last, events)) (lcore : Lcore) :
    ∃ job, Conforms Job.Allows .none (events.filter fun event => event.lcore = lcore) job := by
  have related : Related lcore start .none := by
    refine ⟨fun isCore => ?_, fun _ => .rest (booted.reading lcore), booted.isService lcore⟩
    rw [booted.master] at isCore
    cases isCore
  obtain ⟨job, conforms, -⟩ : Matched lcore .none (last, events) :=
    run_conforms _ (Related lcore)
      (fun _ _ _ _ _ related taken => launchStep_matched related taken) related ran
  exact ⟨job, conforms⟩

end Matched

/-- Two cores that wait for commands. -/
def waiting : Lcores Bool Nat Nat where
  config _ :=
    { state := .wait
      f := 0
      arg := 0
      ret := 0
      isService := false
      master2slave := 0
      slave2master := 0 }
  slave _ := .reading
  master := .idle

/-- The second launch comes while the job of the first one runs. -/
def launchTwice : List (LaunchAction Bool Nat Nat) :=
  .remoteLaunch true 7 3 :: List.replicate 4 .master ++ List.replicate 3 (.slave true 0) ++
    [.master, .remoteLaunch true 8 4, .master, .slave true 0, .slave true 0, .waitLcore true,
      .master, .master, .slave true 42, .slave true 0, .slave true 0] ++
    List.replicate 3 .master ++ [.waitLcore true, .master]

def launchedTwice : List (Event Bool Nat Nat) :=
  [.accepted true 7 3, .launched true 7 3, .busy true, .started true 7 3, .ended true 42,
    .waited true 42, .waited true 0]

theorem launch_conforms_launchTwice :
    ∃ last, run launchStep waiting launchTwice = some (last, launchedTwice) ∧
      ∃ job, Conforms Job.Allows .none
        (launchedTwice.filter fun event => event.lcore = true) job := by
  have booted : Booted waiting := ⟨rfl, fun _ => ⟨rfl, rfl, rfl, rfl⟩, fun _ => rfl⟩
  have ran : ∃ last, run launchStep waiting launchTwice = some (last, launchedTwice) := ⟨_, rfl⟩
  obtain ⟨last, ran⟩ := ran
  exact ⟨last, ran, launch_conforms booted ran true⟩

end StudyNotes.Eal
