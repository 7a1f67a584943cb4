/-
This file proves when a timer that a callback arms in the past is put off to the
next tick.

It is put off when the loop handles the current tick and another timer is
pending. Otherwise `timer_jiffies` is not beyond the current time after the
timer is armed: because the loop is behind, or because `timer_jiffies` has
caught up to the current time, which takes it back by one tick. The same loop
then calls the timer while the clock stands. A run in which every such timer is
put off has only as many calls as there are pending timers at its start.
-/

import StudyNotes.Timer.Expiry

namespace StudyNotes.Timer

open Library Function

/-- The timer is called only after the clock has moved on from `jiffies`. -/
def CalledLater (config : Config) (timer : Nat) (jiffies : Int) (state : State) : Prop :=
  ∀ actions last events, run (step config) state actions = some (last, events) →
    Undisturbed timer events → ∀ call ∈ callsOf timer events, jiffies < call.2

/-- The loop handles the current tick, and another timer is pending. -/
def PutsOff (state : State) (timer : Nat) : Prop :=
  state.timerJiffies = state.jiffies + 1 ∧ ∃ other, other ≠ timer ∧ state.pending other = true

/-- A run while the clock stands, in which every timer is armed for later or is put off. -/
inductive StandingRun (config : Config) : State → List Event → State → Prop where
  | nil (state : State) : StandingRun config state [] state
  | cons {state next last : State} {action : Action} {events later : List Event}
      (taken : step config state action = some (next, events))
      (stands : next.jiffies = state.jiffies)
      (careful : ∀ timer, .armed timer ∈ events →
        (state.jiffies < next.expires timer ∧
          next.expires timer - next.timerJiffies < 2 ^ 63) ∨ PutsOff state timer)
      (rest : StandingRun config next later last) :
      StandingRun config state (events ++ later) last

/-- The number of calls. -/
def callCount (events : List Event) : Nat :=
  events.countP fun event =>
    match event with
    | .called _ _ _ => true
    | _ => false

section Rearm

variable {config : Config} {due : Nat → Int} {state state' : State} {timer : Nat}
  {events : List Event} {action : Action} {ready : Finset Nat}

/-! ### Arming -/

theorem catchup_timerJiffies (nonempty : (catchupTimerJiffies state).2.allTimers ≠ 0) :
    (catchupTimerJiffies state).2.timerJiffies = state.timerJiffies := by
  have before : state.allTimers ≠ 0 := by
    rw [catchup_fields] at nonempty
    exact nonempty
  rw [catchup_of_ne before]

theorem detachIfPending_timerJiffies (clear : Bool)
    (nonempty : (detachIfPending config timer clear state).2.allTimers ≠ 0) :
    (detachIfPending config timer clear state).2.timerJiffies = state.timerJiffies := by
  unfold detachIfPending at nonempty ⊢
  split at nonempty
  next isPending =>
    rw [if_pos isPending]
    refine (catchup_timerJiffies nonempty).trans ?_
    split <;> rfl
  next notPending => rw [if_neg notPending]

theorem detachIfPending_jiffies (config : Config) (timer : Nat) (clear : Bool) (state : State) :
    (detachIfPending config timer clear state).2.jiffies = state.jiffies := by
  unfold detachIfPending
  split
  · rw [catchup_fields]
    split <;> rfl
  · rfl

theorem internalAddTimer_timerJiffies (config : Config) (timer : Nat) (state : State) :
    (internalAddTimer config timer state).timerJiffies =
      (catchupTimerJiffies state).2.timerJiffies := by
  unfold internalAddTimer
  split <;> rfl

/-- Where `timer_jiffies` is after a timer has been armed. -/
theorem rawModTimer_timerJiffies (invariant : Invariant config due state) (expires : Int) :
    ((∃ other, other ≠ timer ∧ state.pending other = true) →
      (rawModTimer config timer expires state).timerJiffies = state.timerJiffies) ∧
    ((¬ ∃ other, other ≠ timer ∧ state.pending other = true) →
      (rawModTimer config timer expires state).timerJiffies = state.jiffies) := by
  have without := detachIfPending_without invariant timer false
  have pending := detachIfPending_pending config timer false state
  have sameJiffies := detachIfPending_jiffies config timer false state
  have sameNow : (detachIfPending config timer false state).2.allTimers ≠ 0 → _ :=
    detachIfPending_timerJiffies false
  unfold rawModTimer
  simp only [internalAddTimer_timerJiffies]
  generalize (detachIfPending config timer false state).2 = off at *
  obtain ⟨waiting, members, count⟩ := without.counted
  constructor
  · rintro ⟨other, differs, isPending⟩
    have member := (members other).mpr ⟨differs, by rw [pending]; exact isPending⟩
    have nonempty : off.allTimers ≠ 0 := by
      rw [count]
      exact (Finset.card_pos.mpr ⟨other, member⟩).ne'
    rw [catchup_of_ne (by exact nonempty)]
    exact sameNow nonempty
  · intro alone
    have empty : off.allTimers = 0 := by
      rw [count, Finset.card_eq_zero]
      refine Finset.eq_empty_of_forall_notMem fun other member => alone ?_
      obtain ⟨differs, isPending⟩ := (members other).mp member
      rw [pending] at isPending
      exact ⟨other, differs, isPending⟩
    rw [catchupTimerJiffies, if_pos (by exact empty)]
    exact sameJiffies

theorem internalAddTimer_jiffies (config : Config) (timer : Nat) (state : State) :
    (internalAddTimer config timer state).jiffies = state.jiffies := by
  unfold internalAddTimer
  rw [catchup_fields]
  split <;> rfl

/-- A step that arms a timer moves `timer_jiffies` only when no other timer is pending. -/
theorem step_armed_clock (invariant : Invariant config due state)
    (taken : step config state action = some (state', events)) (isArmed : .armed timer ∈ events) :
    state'.jiffies = state.jiffies ∧
    ((∃ other, other ≠ timer ∧ state.pending other = true) →
      state'.timerJiffies = state.timerJiffies) ∧
    ((¬ ∃ other, other ≠ timer ∧ state.pending other = true) →
      state'.timerJiffies = state.jiffies) := by
  cases step_did invariant taken with
  | armed other table expires kept isNext =>
    obtain rfl : timer = other := by simpa using isArmed
    subst isNext
    exact ⟨(internalAddTimer_jiffies config timer _).trans
      (detachIfPending_jiffies config timer false _), rawModTimer_timerJiffies kept expires⟩
  | nothing => cases isArmed
  | removed | called => simp at isArmed

/-! ### One timer -/

theorem le_dueAt (expires now : Int) : now ≤ dueAt expires now := by
  unfold dueAt
  omega

/-- A timer that a callback arms with an expiry that is not after the current time is called only
after the clock has moved on exactly when it is put off. -/
theorem calledLater_iff (invariant : Invariant config due state)
    (taken : step config state action = some (state', events)) (isArmed : .armed timer ∈ events)
    (low : state.jiffies - 2 ^ 63 ≤ state'.expires timer)
    (high : state'.expires timer ≤ state.jiffies) :
    CalledLater config timer state.jiffies state' ↔ PutsOff state timer := by
  obtain ⟨sameJiffies, stays, catchesUp⟩ := step_armed_clock invariant taken isArmed
  have kept := step_invariant invariant taken
  have isPending := step_armed invariant taken isArmed
  have isDue : dueAfter due state' events timer = _ := dueAfter_of_armed isArmed
  have ahead := invariant.clock.ahead
  constructor
  · intro later
    by_contra notPutOff
    have notBeyond : state'.timerJiffies ≤ state.jiffies := by
      by_cases others : ∃ other, other ≠ timer ∧ state.pending other = true
      · have differs : state.timerJiffies ≠ state.jiffies + 1 := fun same =>
          notPutOff ⟨same, others⟩
        rw [stays others]
        omega
      · rw [catchesUp others]
    have lag := kept.clock.lag
    have come : dueAfter due state' events timer ≤ state'.jiffies := by
      rw [isDue, dueAt_eq_max (by omega) (by omega)]
      omega
    obtain ⟨actions, last, events', -, ran, once, quiet⟩ := kept.reaches isPending come
    have := later actions last events' ran (quiet timer) (_, state'.jiffies)
      (by rw [once]; exact List.mem_cons_self)
    omega
  · rintro ⟨isNext, others⟩ actions last events' ran quiet call isCall
    have beyond := stays others
    have dueLater := le_dueAt (state'.expires timer) state'.timerJiffies
    obtain ⟨due', -, served⟩ := run_served kept isPending rfl ran quiet
    cases served with
    | waiting _ _ none_ =>
      rw [none_] at isCall
      cases isCall
    | called _ now once come =>
      rw [once, List.mem_singleton] at isCall
      subst isCall
      omega

/-! ### All timers -/

theorem callCount_append (events later : List Event) :
    callCount (events ++ later) = callCount events + callCount later :=
  List.countP_append

/-- The pending timers whose tick has come. -/
def Ready (due : Nat → Int) (state : State) (ready : Finset Nat) : Prop :=
  ∀ timer, timer ∈ ready ↔ state.pending timer = true ∧ due timer ≤ state.jiffies

/-- A timer that stops being pending while the clock stands stops being ready. -/
theorem Ready.erase (isReady : Ready due state ready) (stands : state'.jiffies = state.jiffies)
    (pending : state'.pending = update state.pending timer false)
    (none_ : ∀ other, .armed other ∉ events) :
    Ready (dueAfter due state' events) state' (ready.erase timer) := by
  intro other
  rw [Finset.mem_erase, isReady, stands, pending, dueAfter_of_not_armed none_]
  by_cases same : other = timer
  · simp [same]
  · simp [same]

/-- A step while the clock stands that arms timers for later only: each call takes one of the timers
whose tick has come. -/
theorem Ready.step (isReady : Ready due state ready) (invariant : Invariant config due state)
    (taken : step config state action = some (state', events))
    (stands : state'.jiffies = state.jiffies)
    (later : ∀ timer, .armed timer ∈ events → state.jiffies < dueAfter due state' events timer) :
    ∃ ready', Ready (dueAfter due state' events) state' ready' ∧
      ready'.card + callCount events ≤ ready.card := by
  cases step_did invariant taken with
  | nothing pending =>
    refine ⟨ready, fun timer => ?_, by simp [callCount]⟩
    rw [isReady, pending, stands]
    rfl
  | armed timer table expires kept isNext =>
    refine ⟨ready.erase timer, fun other => ?_, ?_⟩
    · rw [Finset.mem_erase, isReady, stands]
      have isPending : state'.pending = update state.pending timer true := by
        rw [isNext, rawModTimer_pending]
      by_cases same : other = timer
      · subst same
        have notYet := later other List.mem_cons_self
        simp only [ne_eq, not_true_eq_false, false_and, false_iff, not_and, not_le]
        exact fun _ => notYet
      · have sameDue : dueAfter due state' [.armed timer] other = due other :=
          if_neg (by simpa using same)
        rw [isPending, update_of_ne same, sameDue]
        simp [same]
    · simpa [callCount] using Finset.card_le_card (Finset.erase_subset timer ready)
  | removed timer pending =>
    refine ⟨ready.erase timer, isReady.erase stands pending (by simp), ?_⟩
    simpa [callCount] using Finset.card_le_card (Finset.erase_subset timer ready)
  | called timer isPending come pending =>
    refine ⟨ready.erase timer, isReady.erase stands pending (by simp), ?_⟩
    exact (Finset.card_erase_add_one ((isReady timer).mpr ⟨isPending, come⟩)).le

/-- A run while the clock stands calls only timers that were ready at its start. -/
theorem StandingRun.callCount_le {last : State} (standing : StandingRun config state events last)
    (invariant : Invariant config due state) (isReady : Ready due state ready) :
    callCount events ≤ ready.card := by
  induction standing generalizing due ready with
  | nil => exact Nat.zero_le _
  | cons taken stands careful rest inductionHypothesis =>
    -- What is armed for later, or is put off, is not due while the clock stands.
    obtain ⟨ready', isReady', count⟩ := isReady.step invariant taken stands fun timer isArmed => by
      obtain ⟨sameJiffies, stays, -⟩ := step_armed_clock invariant taken isArmed
      rw [dueAfter_of_armed isArmed]
      rcases careful timer isArmed with ⟨after, half⟩ | ⟨isNext, others⟩
      · have ahead := (step_invariant invariant taken).clock.ahead
        rw [dueAt_eq_max (by omega) half]
        omega
      · have := stays others
        refine Int.lt_of_lt_of_le ?_ (le_dueAt _ _)
        omega
    have := inductionHypothesis (step_invariant invariant taken) isReady'
    rw [callCount_append]
    omega

/-- While the clock stands, a timer that a callback arms in the past is called again exactly when it
is not put off; and when every such timer is put off, there are no more calls than pending
timers. -/
theorem rearmed_putOff_iff {jiffies : Int} {expires : Nat → Int}
    (reachable : Reachable (step config) (initTimersCpu jiffies expires) state) :
    (∀ action armed events timer, step config state action = some (armed, events) →
      .armed timer ∈ events → state.jiffies - 2 ^ 63 ≤ armed.expires timer →
      armed.expires timer ≤ state.jiffies →
      (CalledLater config timer state.jiffies armed ↔ PutsOff state timer)) ∧
    ∀ events last, StandingRun config state events last → callCount events ≤ state.allTimers := by
  obtain ⟨due, invariant⟩ := reachable_invariant reachable
  refine ⟨fun action armed events timer taken isArmed low high =>
    calledLater_iff invariant taken isArmed low high, fun events last standing => ?_⟩
  obtain ⟨waiting, members, count⟩ := invariant.counted
  have isReady : Ready due state (waiting.filter fun timer => due timer ≤ state.jiffies) := by
    intro timer
    rw [Finset.mem_filter, members]
  rw [count]
  exact (standing.callCount_le invariant isReady).trans
    (Finset.card_le_card (Finset.filter_subset _ _))

end Rearm

/-! ### Two timers, and one by itself -/

/-- Two timers are armed, and the softirq runs to the function of the first. -/
def twoTimers : List Action := [.modTimer 1 0, .modTimer 2 5, .softirq, .proceed, .proceed]

theorem rearmed_putOff_iff_twoTimers :
    ∃ state, Reachable (step plainConfig) (initTimersCpu 0 fun _ => 0) state ∧
      state.phase = .calling 0 1 ∧
      (∀ action armed events timer, step plainConfig state action = some (armed, events) →
        .armed timer ∈ events → state.jiffies - 2 ^ 63 ≤ armed.expires timer →
        armed.expires timer ≤ state.jiffies →
        (CalledLater plainConfig timer state.jiffies armed ↔ PutsOff state timer)) ∧
      ∀ events last, StandingRun plainConfig state events last →
        callCount events ≤ state.allTimers := by
  obtain ⟨state, reachable, isPhase⟩ :
      ∃ state, Reachable (step plainConfig) (initTimersCpu 0 fun _ => 0) state ∧
        state.phase = .calling 0 1 := ⟨_, ⟨twoTimers, _, rfl⟩, rfl⟩
  exact ⟨state, reachable, isPhase, rearmed_putOff_iff reachable⟩

/-- A timer is armed, and the softirq runs to its function. -/
def oneTimer : List Action := [.modTimer 1 0, .softirq, .proceed, .proceed]

/-- The function arms its timer again and returns, and the loop gets to the next call. -/
def rearmAgain : List Action := [.modTimer 1 0, .proceed, .proceed, .proceed, .proceed]

/-- A timer that is alone and arms itself for the current time is called again and again while
the clock stands. -/
theorem oneTimer_called_again :
    (∃ state armed,
      Reachable (step plainConfig) (initTimersCpu 0 fun _ => 0) state ∧
        state.phase = .calling 0 1 ∧ state.jiffies = 0 ∧
        step plainConfig state (.modTimer 1 0) = some (armed, [.armed 1]) ∧
        armed.expires 1 = 0 ∧ ¬ CalledLater plainConfig 1 0 armed) ∧
    (run (step plainConfig) (initTimersCpu 0 fun _ => 0)
        (oneTimer ++ rearmAgain ++ rearmAgain ++ rearmAgain)).map
          (fun result => (result.1.jiffies, callsOf 1 result.2)) =
      some (0, [(0, 0), (0, 0), (0, 0), (0, 0)]) := by
  refine ⟨⟨_, _, ⟨oneTimer, _, rfl⟩, rfl, rfl, rfl, rfl, fun calledLater => ?_⟩, by decide +kernel⟩
  have called := calledLater [.proceed, .proceed, .proceed, .proceed] _ _ rfl
    ⟨by decide, by decide⟩ (0, 0) List.mem_cons_self
  exact absurd called (by decide)

end StudyNotes.Timer
