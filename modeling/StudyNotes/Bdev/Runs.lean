/-
This file proves that the counters of outstanding I/Os are right in every run, and
puts together what the block device layer guarantees to its callers.
-/

import StudyNotes.Bdev.Accounting

namespace StudyNotes.Bdev

open Library Layer Function

/-! ### The counters -/

/-- The counters of outstanding I/Os count the I/Os of a list by channel. -/
def Counted (layout : Layout) (s : Layer) (ios : List Io) : Prop :=
  (∀ ch, s.ioOutstanding ch = (ios.map fun io => (s.io io).ch).count ch) ∧
    ∀ moduleCh, s.moduleOutstanding moduleCh =
      (ios.map fun io => layout.moduleCh (s.io io).ch).count moduleCh

variable {layout : Layout} {s : Layer} {log : List Event} {io : Io} {ios : List Io}
  {thread : Thread} {result : Layer × List Event}

section

variable {Key : Type} [DecidableEq Key] {counter : Key → Nat} {key : Io → Key}

theorem update_count_succ (counts : ∀ k, counter k = (ios.map key).count k) (io : Io) (k : Key) :
    update counter (key io) (counter (key io) + 1) k = ((io :: ios).map key).count k := by
  rw [List.map_cons, List.count_cons]
  by_cases same : key io = k
  · subst same
    simp [counts]
  · simp [counts, same, Ne.symm same]

theorem update_count_pred (counts : ∀ k, counter k = ((io :: ios).map key).count k) (k : Key) :
    update counter (key io) (counter (key io) - 1) k = (ios.map key).count k := by
  have before := counts k
  rw [List.map_cons, List.count_cons] at before
  by_cases same : key io = k
  · subst same
    simp [before]
  · simpa [same, Ne.symm same] using before

end

theorem Counted.countUp (counted : Counted layout s ios) (io : Io) :
    Counted layout (s.countUp layout (s.io io).ch) (io :: ios) :=
  ⟨update_count_succ counted.1 io, update_count_succ counted.2 io⟩

theorem Layer.countDown_countUp (ch : Channel) : (s.countUp layout ch).countDown layout ch = s := by
  simp [Layer.countUp, Layer.countDown]

/-- The counters of an I/O that is counted are positive. -/
theorem Counted.pos (counted : Counted layout s (io :: ios)) :
    0 < s.ioOutstanding (s.io io).ch ∧
      0 < s.moduleOutstanding (layout.moduleCh (s.io io).ch) := by
  rw [counted.1, counted.2]
  simp

theorem Counted.countDown (counted : Counted layout s (io :: ios)) {ch : Channel}
    (isCh : (s.io io).ch = ch) : Counted layout (s.countDown layout ch) ios := by
  subst isCh
  exact ⟨update_count_pred counted.1, update_count_pred counted.2⟩

theorem Counted.setIo (counted : Counted layout s ios) {record : BdevIo}
    (same : record.ch = (s.io io).ch ∨ io ∉ ios) : Counted layout (s.setIo io record) ios := by
  have channel : ∀ other ∈ ios, ((s.setIo io record).io other).ch = (s.io other).ch := by
    intro other member
    by_cases isIo : other = io
    · subst isIo
      rw [Layer.setIo_io_self]
      exact same.resolve_right (not_not.mpr member)
    · exact congrArg BdevIo.ch (update_of_ne isIo _ _)
  constructor
  · intro ch
    rw [List.map_congr_left channel]
    exact counted.1 ch
  · intro moduleCh
    rw [List.map_congr_left fun other member => congrArg layout.moduleCh (channel other member)]
    exact counted.2 moduleCh

theorem Counted.perm (counted : Counted layout s ios) {ios' : List Io} (perm : ios.Perm ios') :
    Counted layout s ios' :=
  ⟨fun ch => (counted.1 ch).trans ((perm.map _).count_eq ch),
    fun moduleCh => (counted.2 moduleCh).trans ((perm.map _).count_eq moduleCh)⟩

/-! ### Completion -/

/-- After a function has put everything away, the books are in order and the counters right. -/
def Settled (layout : Layout) (log : List Event) (result : Layer × List Event) : Prop :=
  Kept layout result.1 (log ++ result.2) none ∧ Counted layout result.1 result.1.driver

theorem Settled.silent (kept : Kept layout s log none) (counted : Counted layout s s.driver) :
    Settled layout log (s, []) :=
  ⟨(List.append_nil log).symm ▸ kept, counted⟩

theorem assertion_true {holds : Bool} (isTrue : holds = true) : assertion holds = [] := by
  rw [assertion, if_pos isTrue]

theorem account_io (record : BdevIo) : (s.account layout record).io = s.io := by
  rw [Layer.account]
  split <;> rfl

theorem account_counted (counted : Counted layout s s.driver) (record : BdevIo) :
    Counted layout (s.account layout record) (s.account layout record).driver := by
  rw [Layer.account]
  split
  · exact counted
  · exact counted

theorem takeBack_io (status : Status) :
    (s.takeBack layout io status).io io = { s.io io with status := status } :=
  update_self ..

theorem takeBack_counted (counted : Counted layout s (io :: s.driver)) (status : Status) :
    Counted layout (s.takeBack layout io status) s.driver := by
  have changed : Counted layout (s.setIo io { s.io io with status := status }) (io :: s.driver) :=
    counted.setIo (.inl rfl)
  refine changed.countDown ?_
  rw [Layer.setIo_io_self]

theorem enterSubmit_io : (s.enterSubmit thread io).io io =
    { s.io io with submitTsc := s.ticks, inSubmitRequest := true } :=
  update_self ..

section

variable (kept : Kept layout s log (some io))
include kept

theorem Kept.notMem_driver : io ∉ s.driver := by
  obtain ⟨place, books⟩ := kept
  have isZero := (books.sound io).lies .driver rfl
  rw [books.eq_none] at isZero
  exact List.count_eq_zero.mp isZero

theorem account_kept (record : BdevIo) :
    Kept layout (s.account layout record) log (some io) := by
  rw [Layer.account]
  split
  · exact kept.same rfl rfl rfl
  · exact kept

theorem takeBack_kept (status : Status) :
    Kept layout (s.takeBack layout io status) log (some io) := by
  have changed : Kept layout (s.setIo io { s.io io with status := status }) log (some io) :=
    kept.change rfl
  exact changed.same rfl rfl rfl

theorem submitRequest_settled (counted : Counted layout s (io :: s.driver)) :
    Settled layout log (s.submitRequest thread io, []) := by
  refine .silent ?_ counted
  have isPut : Kept layout { s with driver := io :: s.driver } log none :=
    kept.put occurs_driver_cons rfl rfl kept.asserted trivial
  exact isPut.push .driver rfl

section

variable (counted : Counted layout s s.driver)
include counted

theorem deferIo_settled :
    Settled layout log (s.deferIo layout io, []) := by
  have notHeld := kept.notMem_driver
  let changed := s.setIo io { s.io io with
    ch := (s.io io).ioSubmitCh.getD (s.io io).ch, ioSubmitCh := none }
  have isRecord : changed.io io = { s.io io with
    ch := (s.io io).ioSubmitCh.getD (s.io io).ch, ioSubmitCh := none } := update_self ..
  have keptChanged : Kept layout changed log (some io) := kept.change rfl
  have countedChanged : Counted layout changed s.driver := counted.setIo (.inr notHeld)
  refine .silent ?_ countedChanged
  refine keptChanged.put (occurs_send _) rfl rfl kept.asserted ?_
  rw [Fits, isRecord]

theorem completeIo_settled
    (onThread : (s.io io).inSubmitRequest = false → (s.io io).ioSubmitCh = none →
      layout.thread (s.io io).ch = thread) :
    Settled layout log (s.completeIo layout thread io) := by
  rw [Layer.completeIo]
  split
  · exact deferIo_settled kept counted
  · next isDirect =>
    have isOutside : (s.io io).inSubmitRequest = false := by
      simpa using (not_or.mp isDirect).1
    have isThread := onThread isOutside (by simpa using (not_or.mp isDirect).2)
    have keptAccounted := account_kept kept (s.io io)
    have countedAccounted := account_counted counted (s.io io)
    have isOutside' : ((s.account layout (s.io io)).io io).inSubmitRequest = false := by
      rw [account_io]
      exact isOutside
    split
    · next noCallback =>
      refine ⟨keptAccounted.put occurs_freed rfl rfl ?_ ?_, countedAccounted⟩
      · simpa using kept.asserted
      · rw [Fits, account_io]
        exact noCallback
    · rw [assertion_true (decide_eq_true isThread.symm), List.nil_append]
      exact ⟨keptAccounted.call isOutside' thread _, countedAccounted⟩

theorem requeue_settled (moduleCh : Module) :
    Settled layout log (s.requeue layout moduleCh io, []) := by
  refine .silent ?_ counted
  have isSet : occurs (s.setNomemIo moduleCh (io :: s.nomemIo moduleCh)) log =
      add (occurs s log) (occurrence io (.nomemIo moduleCh)) :=
    occurs_setNomemIo _ fun other => by simp [List.count_cons]
  exact kept.put isSet rfl rfl kept.asserted trivial

end

/-- An I/O that is counted and in hand comes back from the driver, or has never got there. -/
theorem ioComplete_settled
    (counted : Counted layout s (io :: s.driver)) (isThread : layout.thread (s.io io).ch = thread)
    (status : Status) : Settled layout log (s.ioComplete layout thread io status) := by
  have asserted := counted.pos
  have keptBack := takeBack_kept kept status
  have countedBack := takeBack_counted counted status
  have isThread' : layout.thread ((s.takeBack layout io status).io io).ch = thread := by
    rw [takeBack_io]
    exact isThread
  rw [Layer.ioComplete]
  dsimp only
  rw [assertion_true (decide_eq_true asserted.1), assertion_true (decide_eq_true asserted.2),
    List.append_nil]
  split
  · exact requeue_settled keptBack countedBack _
  · split
    · refine .silent ?_ countedBack
      have isPut : Kept layout ((s.takeBack layout io status).push thread (.completing io)) log
          none :=
        keptBack.put (occurs_push _) rfl rfl keptBack.asserted isThread'
      exact isPut.push (.retry _) rfl
    · rw [List.nil_append]
      exact completeIo_settled keptBack countedBack fun _ _ => isThread'

/-! ### Submission -/

section

variable (counted : Counted layout s s.driver)
include counted

/-- An I/O is put at the end of the list of those for which the driver has had no memory. -/
theorem setNomemIo_settled (moduleCh : Module) :
    Settled layout log (s.setNomemIo moduleCh (s.nomemIo moduleCh ++ [io]), []) := by
  refine .silent ?_ counted
  refine kept.put (occurs_setNomemIo _ fun other => ?_) rfl rfl kept.asserted trivial
  simp [List.count_append, List.count_cons]

/-- An I/O is put at the end of the list of those that wait for their time. -/
theorem setQueued_settled (bdev : Device) :
    Settled layout log
      ((s.setQueued bdev (s.queued bdev ++ [io])).push thread (.qosSubmit bdev), []) := by
  refine .silent ?_ counted
  have isPut : Kept layout (s.setQueued bdev (s.queued bdev ++ [io])) log none := by
    refine kept.put (occurs_setQueued _ fun other => ?_) rfl rfl kept.asserted trivial
    simp [List.count_append, List.count_cons]
  exact isPut.push (.qosSubmit bdev) rfl

theorem submitIo_settled (isOutside : (s.io io).inSubmitRequest = false)
    (isThread : layout.thread (s.io io).ch = thread) :
    Settled layout log (s.submitIo layout thread io) := by
  have isCh : ((s.enterSubmit thread io).io io).ch = (s.io io).ch := by
    rw [enterSubmit_io]
  have keptEntered : Kept layout (s.enterSubmit thread io) log (some io) :=
    kept.enter isOutside rfl thread
  have countedEntered : Counted layout (s.enterSubmit thread io) s.driver := by
    have changed : Counted layout
        (s.setIo io { s.io io with submitTsc := s.ticks, inSubmitRequest := true }) s.driver :=
      counted.setIo (.inl rfl)
    exact changed
  have keptUp : Kept layout ((s.enterSubmit thread io).countUp layout (s.io io).ch) log
      (some io) := keptEntered.same rfl rfl rfl
  have countedUp := countedEntered.countUp io
  rw [isCh] at countedUp
  have failed : Settled layout log
      (((s.enterSubmit thread io).countUp layout (s.io io).ch).ioComplete layout thread io
        .failed) :=
    ioComplete_settled keptUp countedUp ((congrArg layout.thread isCh).trans isThread) .failed
  rw [Layer.submitIo]
  split
  · split
    · exact submitRequest_settled keptUp countedUp
    · rw [Layer.countDown_countUp]
      exact setNomemIo_settled keptEntered countedEntered _
  · split
    · exact failed
    · split
      · rw [Layer.countDown_countUp]
        exact setQueued_settled keptEntered countedEntered _
      · exact failed

theorem ioSubmit_settled (isOutside : (s.io io).inSubmitRequest = false)
    (isThread : layout.thread (s.io io).ch = thread) :
    Settled layout log (s.ioSubmit layout thread io) := by
  have notHeld := kept.notMem_driver
  rw [Layer.ioSubmit]
  split
  · have keptChanged : Kept layout (s.setIo io { s.io io with
        ioSubmitCh := some (s.io io).ch, ch := layout.qosCh (s.io io).bdev }) log (some io) :=
      kept.change rfl
    have countedChanged : Counted layout (s.setIo io { s.io io with
        ioSubmitCh := some (s.io io).ch, ch := layout.qosCh (s.io io).bdev }) s.driver :=
      counted.setIo (.inr notHeld)
    refine .silent ?_ countedChanged
    refine keptChanged.put (occurs_send _) rfl rfl kept.asserted ?_
    rw [Fits, Layer.setIo_io_self]
    exact ⟨isOutside, rfl⟩
  · exact submitIo_settled kept counted isOutside isThread

end

end

/-! ### Steps -/

/-- An I/O that waits for the driver is handed to it. -/
theorem handOver_settled {next : Layer} (kept : Kept layout next log (some io))
    (counted : Counted layout s s.driver) (records : next.io = s.io)
    (driver_eq : next.driver = s.driver) (ioOutstanding_eq : next.ioOutstanding = s.ioOutstanding)
    (moduleOutstanding_eq : next.moduleOutstanding = s.moduleOutstanding) :
    Settled layout log ((next.countUp layout (s.io io).ch).submitRequest thread io, []) := by
  have countedNext : Counted layout next next.driver := by
    rw [Counted, ioOutstanding_eq, moduleOutstanding_eq, records, driver_eq]
    exact counted
  have countedUp := countedNext.countUp io
  rw [records] at countedUp
  exact submitRequest_settled (kept.same rfl rfl rfl) countedUp

section

variable (kept : Kept layout s log none) (counted : Counted layout s s.driver)
include kept counted

theorem continueStep_settled {another : Bool}
    (taken : continueStep layout s thread another = some result) : Settled layout log result := by
  rw [continueStep] at taken
  split at taken
  · next io rest isTop =>
    cases taken
    have left : Counted layout (s.setIo io { s.io io with inSubmitRequest := false }) s.driver :=
      counted.setIo (.inl rfl)
    exact .silent (kept.leave isTop) left
  · next io rest isTop =>
    cases taken
    obtain ⟨onThread, inHand⟩ := kept.take (occurs_pop isTop) rfl rfl rfl Spot.noConfusion
    exact completeIo_settled inHand counted fun _ _ => onThread
  · next moduleCh rest isTop =>
    split at taken
    · split at taken
      · cases taken
      · next io others isFirst =>
        cases taken
        have inHand := (kept.take (occurs_takeNomemIo isFirst) rfl rfl rfl Spot.noConfusion).2
        exact handOver_settled inHand counted rfl rfl rfl rfl
    · cases taken
      exact .silent (kept.pop isTop rfl) counted
  · next bdev rest isTop =>
    split at taken
    · split at taken
      · cases taken
      · next io others isFirst =>
        cases taken
        have inHand := (kept.take (occurs_takeQueued isFirst) rfl rfl rfl Spot.noConfusion).2
        exact handOver_settled inHand counted rfl rfl rfl rfl
    · cases taken
      exact .silent (kept.pop isTop rfl) counted
  · cases taken

theorem messageStep_settled
    (taken : messageStep layout s thread = some result) : Settled layout log result := by
  rw [messageStep] at taken
  split at taken
  · cases taken
  · next io rest isNext =>
    cases taken
    obtain ⟨⟨isOutside, isThread⟩, inHand⟩ :=
      kept.take (occurs_receive isNext) rfl rfl rfl Spot.noConfusion
    exact submitIo_settled inHand counted isOutside isThread
  · next io rest isNext =>
    cases taken
    obtain ⟨onThread, inHand⟩ := kept.take (occurs_receive isNext) rfl rfl rfl Spot.noConfusion
    exact completeIo_settled inHand counted fun _ _ => onThread

/-- Every step leaves the books in order and the counters right. -/
theorem bdevStep_settled {action : Action}
    (taken : bdevStep layout s action = some result) : Settled layout log result := by
  cases action with
  | submit thread io type bdev ch cb numBlocks =>
    obtain ⟨⟨-, isNew, isThread⟩, taken⟩ := Option.ite_none_right_eq_some.mp taken
    cases taken
    have begun : Kept layout (({ s with submitted := io :: s.submitted }).setIo io
        (newIo type bdev ch cb numBlocks)) log (some io) := kept.begin isNew rfl
    have counted' : Counted layout { s with submitted := io :: s.submitted } s.driver :=
      counted
    have isRecord : (({ s with submitted := io :: s.submitted }).setIo io
        (newIo type bdev ch cb numBlocks)).io io = newIo type bdev ch cb numBlocks :=
      Layer.setIo_io_self _
    refine ioSubmit_settled begun (counted'.setIo (.inr begun.notMem_driver)) ?_ ?_
    · rw [isRecord]
      rfl
    · rw [isRecord]
      exact isThread
  | complete thread io status =>
    obtain ⟨⟨-, isHeld, isThread⟩, taken⟩ := Option.ite_none_right_eq_some.mp taken
    cases taken
    have inHand := (kept.take (occurs_driver_erase isHeld) rfl rfl rfl Spot.noConfusion).2
    refine ioComplete_settled inHand ?_ isThread status
    exact counted.perm (List.perm_cons_erase isHeld)
  | returns thread =>
    rw [bdevStep] at taken
    split at taken
    · next rest isTop =>
      cases taken
      exact .silent (kept.pop isTop rfl) counted
    · next io rest isTop =>
      cases taken
      exact .silent (kept.returns isTop) counted
    · cases taken
  | continues thread another => exact continueStep_settled kept counted taken
  | message thread =>
    obtain ⟨-, taken⟩ := Option.ite_none_right_eq_some.mp taken
    exact messageStep_settled kept counted taken
  | retry thread moduleCh =>
    obtain ⟨-, taken⟩ := Option.ite_none_right_eq_some.mp taken
    cases taken
    exact .silent (kept.push (.retry moduleCh) rfl) counted
  | qosSubmit thread bdev =>
    obtain ⟨-, taken⟩ := Option.ite_none_right_eq_some.mp taken
    cases taken
    exact .silent (kept.push (.qosSubmit bdev) rfl) counted
  | setFlags | setNomemIoAbort | tick =>
    cases taken
    exact .silent (kept.same rfl rfl rfl) counted

end

/-! ### Runs -/

/-- A layer that has not been used. -/
structure Unused (s : Layer) : Prop where
  submitted : s.submitted = []
  ioOutstanding : ∀ ch, s.ioOutstanding ch = 0
  moduleOutstanding : ∀ moduleCh, s.moduleOutstanding moduleCh = 0
  nomemIo : ∀ moduleCh, s.nomemIo moduleCh = []
  queued : ∀ bdev, s.queued bdev = []
  messages : ∀ thread, s.messages thread = []
  stack : ∀ thread, s.stack thread = []
  driver : s.driver = []
  outside : ∀ io, (s.io io).inSubmitRequest = false

theorem Unused.kept (unused : Unused s) : Kept layout s [] none := by
  have isZero : ∀ io spot, occurs s [] io spot = 0 := by
    intro io spot
    cases spot <;> simp [occurs, unused.driver, unused.nomemIo, unused.queued, unused.messages,
      unused.stack]
  refine ⟨fun _ => none, fun io => .fresh (isZero io) (unused.outside io), fun io _ => isZero io,
    fun _ isHand => ?_, fun io member => ?_, List.not_mem_nil⟩
  · cases isHand
  · rw [unused.submitted] at member
    cases member

theorem Unused.counted (unused : Unused s) : Counted layout s s.driver := by
  rw [unused.driver]
  exact ⟨unused.ioOutstanding, unused.moduleOutstanding⟩

theorem run_settled {start last : Layer} (unused : Unused start) {actions : List Action}
    (ran : run (bdevStep layout) start actions = some (last, log)) :
    Kept layout last log none ∧ Counted layout last last.driver :=
  run_invariant (bdevStep layout)
    (fun s past => Kept layout s past none ∧ Counted layout s s.driver)
    (fun _ _ _ _ _ settled taken => bdevStep_settled settled.1 settled.2 taken) []
    ⟨unused.kept, unused.counted⟩ ran

/--
Whatever is submitted, and in whatever order and in whichever calls the driver
completes it: the counters count the I/Os that the driver has, no assertion fails,
every I/O lies in exactly one place, and no callback is called while the call that
submits its I/O has not returned.
-/
theorem run_accounted {start last : Layer} (unused : Unused start) {actions : List Action}
    (ran : run (bdevStep layout) start actions = some (last, log)) :
    (∀ ch, last.ioOutstanding ch = (last.driver.map fun io => (last.io io).ch).count ch) ∧
    (∀ moduleCh, last.moduleOutstanding moduleCh =
      (last.driver.map fun io => layout.moduleCh (last.io io).ch).count moduleCh) ∧
    .assertFailed ∉ log ∧
    (∀ io ∈ last.submitted, (last.io io).cb = true → ∃ place, place.isPlace ∧ place ≠ .freed ∧
      ∀ spot, spot.isPlace → occurs last log io spot = if place = spot then 1 else 0) ∧
    (∀ io thread other, .callback io ∈ last.stack thread →
      .submitting io ∉ last.stack other) := by
  obtain ⟨⟨place, books⟩, counted⟩ := run_settled unused ran
  refine ⟨counted.1, counted.2, books.asserted, ?_, ?_⟩
  · intro io isSubmitted hasCallback
    have sound := books.sound io
    cases isPlace : place io with
    | none => cases (books.placed io isSubmitted).mp isPlace
    | some spot =>
      have fits := sound.fits spot isPlace
      refine ⟨spot, fits.isPlace, ?_, fun other isOther => ?_⟩
      · rintro rfl
        cases hasCallback.symm.trans fits
      · rw [sound.lies other isOther, isPlace]
        simp only [Option.some.injEq]
  · intro io thread other isCalled isInside
    have sound := books.sound io
    have isCompleted := sound.callback thread
      (Nat.pos_iff_ne_zero.mp (List.count_pos_iff.mpr isCalled))
    have isOutside : (last.io io).inSubmitRequest = false := sound.fits _ isCompleted
    cases sound.submitting with
    | inside isInside' => cases isOutside.symm.trans isInside'
    | outside _ zero => exact List.count_eq_zero.mp (congrFun zero other) isInside

/-- Two threads with a channel each, and a third channel for the limit on the second thread. -/
def twoThreads : Layout where
  thread ch := if ch = 0 then 0 else 1
  moduleCh ch := if ch = 0 then 0 else 1
  qosCh _ := 2
  blocklen _ := 512
  nomemThresholdCount := 8

/-- A layer that has not been used. -/
def atRest : Layer where
  ticks := 0
  io _ := newIo .other 0 0 true 0
  submitted := []
  flags _ := ⟨false, false, false⟩
  ioOutstanding _ := 0
  stat _ := ⟨0, 0, 0, 0, 0, 0⟩
  moduleOutstanding _ := 0
  nomemIo _ := []
  nomemThreshold _ := 0
  nomemIoAbort _ := false
  nomemIoTrigger _ := false
  queued _ := []
  messages _ := []
  stack _ := []
  driver := []

theorem atRest_unused : Unused atRest :=
  ⟨rfl, fun _ => rfl, fun _ => rfl, fun _ => rfl, fun _ => rfl, fun _ => rfl, fun _ => rfl, rfl,
    fun _ => rfl⟩

/-- The driver has no memory for the first I/O, and completes it when it is tried again during the
completion of the second one. -/
def retried : List Action :=
  [.submit 0 1 .read 0 0 true 1, .returns 0, .continues 0 false,
    .submit 0 2 .read 0 0 true 1, .complete 0 2 .nomem, .returns 0, .continues 0 false,
    .complete 0 1 .success, .continues 0 true, .complete 0 2 .success]

theorem run_accounted_retried :
    ∃ last log, run (bdevStep twoThreads) atRest retried = some (last, log) ∧
      last.submitted = [2, 1] ∧ .assertFailed ∉ log ∧
      ∃ place, place.isPlace ∧ place ≠ .freed ∧
        ∀ spot, spot.isPlace → occurs last log 1 spot = if place = spot then 1 else 0 := by
  have ran : ∃ last log, run (bdevStep twoThreads) atRest retried = some (last, log) ∧
      last.submitted = [2, 1] ∧ (last.io 1).cb = true := ⟨_, _, rfl, rfl, rfl⟩
  obtain ⟨last, log, ran, isSubmitted, hasCallback⟩ := ran
  obtain ⟨-, -, asserted, placed, -⟩ := run_accounted atRest_unused ran
  exact ⟨last, log, ran, isSubmitted, asserted,
    placed 1 (by rw [isSubmitted]; decide) hasCallback⟩

/-- The places that do not include the way of an I/O to the thread with the limit. -/
def Spot.isRest : Spot → Bool
  | .driver | .nomemIo _ | .queued _ | .completeMessage _ | .completed => true
  | _ => false

/-- An I/O on its way to the thread with the limit is in none of these places. -/
theorem ioSubmit_underway :
    ∃ last log, run (bdevStep twoThreads) atRest
        [.setFlags 0 ⟨false, true, false⟩, .submit 0 1 .read 0 0 true 1] = some (last, log) ∧
      1 ∈ last.submitted ∧ (last.io 1).cb = true ∧
      ∀ spot : Spot, spot.isRest → occurs last log 1 spot = 0 := by
  refine ⟨_, _, rfl, List.mem_singleton_self 1, rfl, ?_⟩
  intro spot isRest
  cases spot with
  | driver | nomemIo | queued | completed => rfl
  | completeMessage thread =>
    by_cases isSecond : thread = 1
    · rw [isSecond]
      rfl
    · change List.count _ (update (fun _ => []) 1 [Message.submit 1] thread) = 0
      rw [update_of_ne isSecond]
      rfl
  | _ => cases isRest

end StudyNotes.Bdev
