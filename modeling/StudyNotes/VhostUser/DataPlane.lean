/-
This file proves when the rings and the memory of a vhost-user device stay as
they are while it is on the data plane.

Most handlers remove the device from the data plane before they change something.
The size of a virtqueue is set without that, and a new memory table is installed
before it: by the next message that sets ring addresses or, on an NVMe device, at
once. Without these three every change is made while the device is stopped.
-/

import StudyNotes.VhostUser.Device

namespace StudyNotes.VhostUser

open Library Logged Function

/-! ### What the data plane uses -/

/-- What the data plane uses of a virtqueue. -/
structure SameVq (before after : Virtqueue) : Prop where
  ring : after.ring = before.ring
  size : after.size = before.size
  lastAvailIdx : after.lastAvailIdx = before.lastAvailIdx
  lastUsedIdx : after.lastUsedIdx = before.lastUsedIdx
  callfd : after.callfd = before.callfd
  kickfd : after.kickfd = before.kickfd

/-- The memory table and the virtqueues that there are stay as they are. -/
def SamePlane (before after : VirtioNet) : Prop :=
  after.mem = before.mem ∧ ∀ index vq, before.virtqueue index = some vq →
    ∃ vq', after.virtqueue index = some vq' ∧ SameVq vq vq'

/-- There has been a successful call of `new_device`, and no call of `destroy_device` since. -/
def onDataPlane (past : List Event) : Bool :=
  past.foldl (fun active event =>
    match event with
    | .newDevice _ started => active || started
    | .destroyDevice => false
    | .wrote _ _ => active) false

/-- No assignment changes what a device on the data plane uses. -/
def Untouched (past : List Event) : Prop :=
  Preceded (fun before event => ∀ dev dev', event = .wrote dev dev' →
    dev.running = true ∨ onDataPlane before = true → SamePlane dev dev') past

theorem SamePlane.refl (dev : VirtioNet) : SamePlane dev dev :=
  ⟨rfl, fun _ vq isVq => ⟨vq, isVq, rfl, rfl, rfl, rfl, rfl, rfl⟩⟩

theorem onDataPlane_concat (past : List Event) (event : Event) :
    onDataPlane (past ++ [event]) =
      match event with
      | .newDevice _ started => onDataPlane past || started
      | .destroyDevice => false
      | .wrote _ _ => onDataPlane past := by
  rw [onDataPlane, List.foldl_append]
  rfl

variable {past : List Event} {missing : Missing} {dev : VirtioNet}

theorem Untouched.concat_call (untouched : Untouched past) (event : Event)
    (isCall : ∀ dev dev', event ≠ .wrote dev dev') : Untouched (past ++ [event]) :=
  Preceded.concat untouched event fun dev dev' isWrite => absurd isWrite (isCall dev dev')

theorem Untouched.concat_wrote (untouched : Untouched past) {dev dev' : VirtioNet}
    (same : dev.running = true ∨ onDataPlane past = true → SamePlane dev dev') :
    Untouched (past ++ [.wrote dev dev']) := by
  refine Preceded.concat untouched _ ?_
  rintro _ _ ⟨⟩
  exact same

/-! ### Handlers -/

/-- Between the handlers the flag says whether the device is on the data plane. -/
structure InStep (dev : VirtioNet) (past : List Event) : Prop where
  untouched : Untouched past
  flag : onDataPlane past = dev.running
  calm : dev.drain = false

/-- The device is not on the data plane. -/
def Stopped (dev : VirtioNet) (past : List Event) : Prop := InStep dev past ∧ dev.running = false

/-- An assignment that keeps the flags and, while the device runs, what it uses. -/
theorem InStep.write {dev dev' : VirtioNet} (inStep : InStep dev past)
    (same : dev.running = true → SamePlane dev dev') (running : dev'.running = dev.running)
    (drain : dev'.drain = false) : InStep dev' (past ++ [.wrote dev dev']) := by
  refine ⟨?_, ?_, drain⟩
  · refine inStep.untouched.concat_wrote fun active => same ?_
    rw [inStep.flag, or_self] at active
    exact active
  · rw [onDataPlane_concat, running]
    exact inStep.flag

/-- A device that is not on the data plane can be changed. -/
theorem write_stopped {change : VirtioNet → VirtioNet}
    (running : ∀ dev, (change dev).running = dev.running)
    (drain : ∀ dev, dev.drain = false → (change dev).drain = false) :
    Ensures Stopped (write change) Stopped := by
  rintro dev past ⟨inStep, stopped⟩
  refine ⟨inStep.write (fun isRunning => ?_) (running dev) (drain dev inStep.calm), ?_⟩
  · cases stopped.symm.trans isRunning
  · exact (running dev).trans stopped

/-- The flag is cleared, and `destroy_device` called, before anything else. -/
theorem stop_inStep : Ensures InStep stop Stopped := by
  have cleared : Ensures (fun dev past => InStep dev past ∧ (dev.running && !dev.drain) = true)
      (write fun dev => { dev with running := false })
      (fun dev past => Untouched past ∧ dev.running = false ∧ dev.drain = false) := by
    rintro dev past ⟨inStep, -⟩
    exact ⟨inStep.untouched.concat_wrote fun _ => ⟨rfl, (SamePlane.refl dev).2⟩, rfl, inStep.calm⟩
  refine Ensures.choose (cleared.andThen (Ensures.emit ?_)) (Ensures.skip ?_)
  · rintro dev past ⟨untouched, stopped, calm⟩
    have called := untouched.concat_call .destroyDevice fun _ _ isWrite => Event.noConfusion isWrite
    exact ⟨⟨called, (onDataPlane_concat past .destroyDevice).trans stopped.symm, calm⟩, stopped⟩
  · rintro dev past ⟨inStep, kept⟩
    rw [inStep.calm, Bool.not_false, Bool.and_true] at kept
    exact ⟨inStep, kept⟩

/-- A device that has been stopped can be changed. -/
theorem stop_then_inStep {rest : Handler} (kept : Ensures Stopped rest Stopped) :
    Ensures InStep (andThen stop rest) InStep :=
  (stop_inStep.andThen kept).mono (fun _ _ pre => pre) fun _ _ post => post.1

/-- A device that is not on the data plane can be started. -/
theorem start_inStep (answer : Bool) : Ensures Stopped (start answer) InStep := by
  have called : Ensures Stopped (emit fun dev => .newDevice dev answer)
      (fun dev past => Untouched past ∧ onDataPlane past = answer ∧ dev.running = false ∧
        dev.drain = false) := by
    refine Ensures.emit ?_
    rintro dev past ⟨inStep, stopped⟩
    refine ⟨inStep.untouched.concat_call _ fun _ _ isWrite => Event.noConfusion isWrite, ?_,
      stopped, inStep.calm⟩
    rw [onDataPlane_concat, inStep.flag, stopped]
    exact Bool.false_or answer
  refine called.andThen ?_
  cases answer with
  | false =>
    refine Ensures.skip ?_
    rintro dev past ⟨untouched, active, stopped, calm⟩
    exact ⟨untouched, active.trans stopped.symm, calm⟩
  | true =>
    rintro dev past ⟨untouched, active, -, calm⟩
    refine ⟨untouched.concat_wrote fun _ => ⟨rfl, (SamePlane.refl dev).2⟩, ?_, calm⟩
    exact (onDataPlane_concat past _).trans active

theorem updateVq_samePlane {index : Nat} {change : Virtqueue → Virtqueue}
    (same : ∀ vq, dev.virtqueue index = some vq → SameVq vq (change vq)) :
    SamePlane dev (updateVq index change dev) := by
  refine ⟨rfl, fun other vq isVq => ?_⟩
  by_cases isIndex : other = index
  · subst isIndex
    exact ⟨change vq, by rw [updateVq_self, isVq]; rfl, same vq isVq⟩
  · exact ⟨vq, (updateVq_of_ne isIndex change dev).trans isVq, rfl, rfl, rfl, rfl, rfl, rfl⟩

variable (index : Nat)

theorem changeStopped_inStep (change : Virtqueue → Virtqueue) :
    Ensures InStep (changeStopped index change) InStep :=
  stop_then_inStep (write_stopped (fun _ => rfl) fun _ calm => calm)

theorem setFeatures_inStep (features : BitVec 64) :
    Ensures InStep (setFeatures features) InStep := by
  refine Ensures.andThen (Ensures.choose (stop_inStep.mono (fun _ _ pre => pre.1)
    fun _ _ post => post.1) (Ensures.skip fun _ _ pre => pre.1)) ?_
  intro dev past inStep
  exact inStep.write (fun _ => ⟨rfl, (SamePlane.refl dev).2⟩) rfl inStep.calm

/-- A table can be installed while the device is stopped. -/
theorem consumeMemTable_stopped : Ensures Stopped consumeMemTable Stopped := by
  have removed : Ensures Stopped (write fun dev => { dev with mem := none }) Stopped :=
    write_stopped (fun _ => rfl) fun _ calm => calm
  have installed : Ensures Stopped
      (write fun dev => { dev with mem := setupMemTable dev.memTable }) Stopped :=
    write_stopped (fun _ => rfl) fun _ calm => calm
  have noted : Ensures Stopped (write fun dev => { dev with hasNewMemTable := false }) Stopped :=
    write_stopped (fun _ => rfl) fun _ calm => calm
  refine Ensures.andThen (Ensures.andThen (Ensures.choose ?_ ?_) installed) noted
  · exact removed.mono (fun _ _ pre => pre.1) fun _ _ post => post
  · exact Ensures.skip fun _ _ pre => pre.1

/-- The rings of a device that is stopped can be set. -/
theorem mapRing_stopped (addr : VringAddr) (ring : Ring) {next : Handler}
    (rest : Ensures Stopped next Stopped) :
    Ensures Stopped (mapRing index addr ring next) Stopped := by
  intro dev past stopped
  have stored : Ensures Stopped (write (updateVq index fun vq =>
      { vq with ring := update vq.ring ring (translate dev index addr ring).1 }))
      Stopped :=
    write_stopped (fun _ => rfl) fun _ calm => calm
  refine Ensures.andThen stored ?_ dev past stopped
  split
  · exact Ensures.skip fun _ _ pre => pre
  · exact rest

theorem mapRings_stopped (addr : VringAddr) : Ensures Stopped (mapRings index addr) Stopped :=
  mapRing_stopped index addr .desc (mapRing_stopped index addr .avail
    (mapRing_stopped index addr .used (write_stopped (fun _ => rfl) fun _ calm => calm)))

/-! ### Messages -/

/--
The message does not change what a running device uses: a size that is set is
the size already, no table waits for the ring addresses, and a table for an NVMe
device does not come while it runs.
-/
def spares (dev : VirtioNet) : Message → Bool
  | .setVringNum index num => !dev.running || sizeOfVq dev index == num
  | .setVringAddr _ _ => !dev.running || !dev.hasNewMemTable
  | .setMemTable _ => !dev.running || !dev.isNvme
  | _ => true

/-- What holds before a message that spares the data plane. -/
def Spared (message : Message) (dev : VirtioNet) (past : List Event) : Prop :=
  InStep dev past ∧ spares dev message = true

/-- What the handlers that are not part of the source do: they stop the device before they change
what it uses, leave its flag alone, and do not drain it. -/
structure StopsFirst (missing : Missing) : Prop where
  same : ∀ request dev, missing.stops request = false → SamePlane dev (missing.effect request dev)
  running : ∀ request dev, (missing.effect request dev).running = dev.running
  drain : ∀ request dev, dev.drain = false → (missing.effect request dev).drain = false

/-- A virtqueue that there was not before. -/
theorem allocate_samePlane {index : Nat} (isNew : dev.virtqueue index = none) (vq : Virtqueue) :
    SamePlane dev { dev with virtqueue := update dev.virtqueue index (some vq) } := by
  refine ⟨rfl, fun other old isOld => ?_⟩
  have differs : other ≠ index := by
    rintro rfl
    cases isNew.symm.trans isOld
  exact ⟨old, (update_of_ne differs _ _).trans isOld, rfl, rfl, rfl, rfl, rfl, rfl⟩

theorem sizeOfVq_allocate {index : Nat} (isNew : dev.virtqueue index = none) (other : Nat) :
    sizeOfVq { dev with
      virtqueue := update dev.virtqueue index (some initVringQueue) } other =
        sizeOfVq dev other := by
  rw [sizeOfVq, sizeOfVq]
  by_cases isIndex : other = index
  · subst isIndex
    rw [isNew]
    dsimp only
    rw [update_self]
    rfl
  · dsimp only
    rw [update_of_ne isIndex]

theorem checkAndAllocQueuePair_inStep (message : Message) :
    Ensures (Spared message) (checkAndAllocQueuePair message) (Spared message) := by
  rw [checkAndAllocQueuePair]
  split
  · exact Ensures.skip fun _ _ pre => pre
  · refine Ensures.choose (Ensures.skip fun _ _ pre => pre.1) ?_
    rintro dev past ⟨⟨inStep, isSpared⟩, isNew⟩
    rw [Option.isSome_eq_false_iff, Option.isNone_iff_eq_none] at isNew
    refine ⟨inStep.write (fun _ => allocate_samePlane isNew _) rfl inStep.calm, ?_⟩
    cases message with
    | setVringNum other num =>
      rw [← isSpared, spares, spares, write, sizeOfVq_allocate isNew]
    | _ => exact isSpared

theorem setVringNum_inStep (num : BitVec 32) :
    Ensures (Spared (.setVringNum index num)) (setVringNum index num) InStep := by
  rintro dev past ⟨inStep, isSpared⟩
  refine inStep.write (fun isRunning => updateVq_samePlane fun vq isVq => ?_) rfl inStep.calm
  rw [spares, isRunning, sizeOfVq, isVq] at isSpared
  have sameSize : vq.size = num := by simpa using isSpared
  exact ⟨rfl, sameSize.symm, rfl, rfl, rfl, rfl⟩

theorem setMemTable_inStep (memory : List (MemoryRegion × Backing)) :
    Ensures (Spared (.setMemTable memory)) (setMemTable memory) InStep := by
  have copied : Ensures (Spared (.setMemTable memory))
      (write fun dev => { dev with memTable := memory, hasNewMemTable := true })
      (fun dev past => InStep dev past ∧ (dev.isNvme = true → dev.running = false)) := by
    rintro dev past ⟨inStep, isSpared⟩
    refine ⟨inStep.write (fun _ => ⟨rfl, (SamePlane.refl dev).2⟩) rfl inStep.calm, fun isNvme => ?_⟩
    rw [spares, show dev.isNvme = true from isNvme, Bool.not_true, Bool.or_false,
      Bool.not_eq_true'] at isSpared
    exact isSpared
  refine copied.andThen (Ensures.choose ?_ (Ensures.skip fun _ _ pre => pre.1.1))
  refine consumeMemTable_stopped.mono ?_ fun _ _ post => post.1
  rintro dev past ⟨⟨inStep, unlessRunning⟩, isNew⟩
  exact ⟨inStep, unlessRunning (Bool.and_eq_true_iff.mp isNew).2⟩

theorem setVringAddr_inStep (addr : VringAddr) :
    Ensures (Spared (.setVringAddr index addr)) (setVringAddr index addr) InStep := by
  have installed : Ensures (Spared (.setVringAddr index addr))
      (choose (fun dev => dev.hasNewMemTable) consumeMemTable skip) InStep := by
    refine Ensures.choose ?_ (Ensures.skip fun _ _ pre => pre.1.1)
    refine consumeMemTable_stopped.mono ?_ fun _ _ post => post.1
    rintro dev past ⟨⟨inStep, isSpared⟩, isNew⟩
    rw [spares, isNew] at isSpared
    exact ⟨inStep, by simpa using isSpared⟩
  refine installed.andThen (Ensures.choose ?_ (Ensures.skip fun _ _ pre => pre.1))
  exact (stop_then_inStep (mapRings_stopped index addr)).mono (fun _ _ pre => pre.1)
    fun _ _ post => post

theorem missing_inStep (stopsFirst : StopsFirst missing) (request : MissingRequest) :
    Ensures InStep (dispatch missing (.missing request)) InStep := by
  cases stops : missing.stops request with
  | true =>
    rw [dispatch, stops]
    exact stop_then_inStep
      (write_stopped (stopsFirst.running request) (stopsFirst.drain request))
  | false =>
    rw [dispatch, stops]
    refine Ensures.andThen (Ensures.skip fun _ _ pre => pre) fun dev past inStep => ?_
    exact inStep.write (fun _ => stopsFirst.same request dev stops)
      (stopsFirst.running request dev) (stopsFirst.drain request dev inStep.calm)

theorem dispatch_inStep (stopsFirst : StopsFirst missing) (message : Message) :
    Ensures (Spared message) (dispatch missing message) InStep := by
  have whatever {handler : Handler} (kept : Ensures InStep handler InStep) :
      Ensures (Spared message) handler InStep :=
    kept.mono (fun _ _ pre => pre.1) fun _ _ post => post
  cases message with
  | setFeatures features => exact whatever (setFeatures_inStep features)
  | setMemTable memory => exact setMemTable_inStep memory
  | setVringNum index num => exact setVringNum_inStep index num
  | setVringAddr index addr => exact setVringAddr_inStep index addr
  | setVringBase index num => exact whatever (changeStopped_inStep index _)
  | setVringKick u64 fd | setVringCall u64 fd =>
    exact whatever (changeStopped_inStep (fileIndex u64) _)
  | setVringErr u64 | plain => exact whatever (Ensures.skip fun _ _ pre => pre)
  | nvmeAdmin =>
    refine whatever fun dev past inStep => ?_
    exact inStep.write (fun _ => ⟨rfl, (SamePlane.refl dev).2⟩) rfl inStep.calm
  | nvmeStartStop enable answer =>
    rw [dispatch]
    split
    · refine whatever (Ensures.choose ((start_inStep answer).mono ?_ fun _ _ post => post)
        (Ensures.skip fun _ _ pre => pre.1))
      rintro dev past ⟨inStep, isStopped⟩
      exact ⟨inStep, by simpa [inStep.calm] using isStopped⟩
    · exact whatever (stop_inStep.mono (fun _ _ pre => pre) fun _ _ post => post.1)
  | missing request => exact whatever (missing_inStep stopsFirst request)

theorem startIfReady_inStep (missing : Missing) (answer : Bool) :
    Ensures InStep (startIfReady missing answer) InStep := by
  refine Ensures.choose ((start_inStep answer).mono ?_ fun _ _ post => post)
    (Ensures.skip fun _ _ pre => pre.1)
  rintro dev past ⟨inStep, isReady⟩
  simp only [Bool.and_eq_true, Bool.not_eq_true'] at isReady
  exact ⟨inStep, isReady.1.1⟩

theorem msgHandler_inStep (stopsFirst : StopsFirst missing) (message : Message) (answer : Bool) :
    Ensures (Spared message) (msgHandler missing message answer) InStep := by
  refine (checkAndAllocQueuePair_inStep message).andThen
    ((dispatch_inStep stopsFirst message).andThen ?_)
  split
  · exact Ensures.skip fun _ _ pre => pre
  · exact startIfReady_inStep missing answer

/-! ### Runs -/

/-- A message that spares the data plane. -/
def sparingStep (missing : Missing) (maxVrings : Nat) (dev : VirtioNet) (action : Message × Bool) :
    Option (VirtioNet × List Event) :=
  if spares dev action.1 then step missing maxVrings dev action else none

/--
When every message spares what a running device uses, all assignments that
change it are made while the device is not running, behind a call of
`destroy_device`.
-/
theorem run_untouched {missing : Missing} (stopsFirst : StopsFirst missing) {maxVrings : Nat}
    {actions : List (Message × Bool)} {last : VirtioNet} {events : List Event}
    (ran : run (sparingStep missing maxVrings) newVirtioNet actions = some (last, events)) :
    Untouched events := by
  refine (run_invariant (sparingStep missing maxVrings) InStep ?_ []
    ⟨preceded_nil, rfl, rfl⟩ ran).untouched
  intro dev past action next events inStep taken
  obtain ⟨isSpared, taken⟩ := Option.ite_none_right_eq_some.mp taken
  obtain ⟨-, isNext⟩ := Option.ite_none_right_eq_some.mp taken
  have kept := msgHandler_inStep stopsFirst action.1 action.2 dev past ⟨inStep, isSpared⟩
  rw [Option.some.inj isNext] at kept
  exact kept

theorem oneQueue_stopsFirst : StopsFirst oneQueue :=
  ⟨fun _ dev _ => SamePlane.refl dev, fun _ _ => rfl, fun _ _ calm => calm⟩

/-- A new index for a running device, which is stopped for it and started again. -/
theorem run_untouched_setVringBase :
    ∃ last events, run (sparingStep oneQueue 256) newVirtioNet
        (startup ++ [(.setVringBase 0 5, true)]) = some (last, events) ∧
      last.running = true ∧ Untouched events := by
  exact exists_run_of_any (fun result => result.1.running) (by decide +kernel)
    fun last events ran running => ⟨running, run_untouched oneQueue_stopsFirst ran⟩

/-- A running device gets another size of its virtqueue. -/
def isResize : Event → Bool
  | .wrote before after => before.running && (before.virtqueue 0).any (·.size == 128) &&
    (after.virtqueue 0).any (·.size == 256)
  | _ => false

/-- The size of a virtqueue that a running device uses is set without stopping it. -/
theorem setVringNum_touches :
    ∃ last events, run (step oneQueue 256) newVirtioNet
        (startup ++ [(.setVringNum 0 256, true)]) = some (last, events) ∧ ¬ Untouched events := by
  refine exists_run_of_any (fun result => result.2.any isResize) (by decide +kernel)
    fun last events _ found untouched => ?_
  obtain ⟨event, member, isWrite⟩ := List.any_eq_true.mp found
  obtain ⟨past, later, isSplit⟩ := List.append_of_mem member
  cases event with
  | wrote before after =>
    simp only [isResize, Bool.and_eq_true, Option.any_eq_true, beq_iff_eq] at isWrite
    obtain ⟨⟨isRunning, vq, isVq, isSize⟩, vq', isVq', isSize'⟩ := isWrite
    obtain ⟨-, same⟩ := untouched past _ later isSplit before after rfl (.inl isRunning)
    obtain ⟨_, isSame, sameVq⟩ := same 0 vq isVq
    cases isVq'.symm.trans isSame
    have sameSize : (256 : BitVec 32) = 128 := isSize'.symm.trans (sameVq.size.trans isSize)
    exact absurd sameSize (by decide)
  | newDevice dev started | destroyDevice => cases isWrite

end StudyNotes.VhostUser
