/-
This file proves that every step of the timer code keeps the wheel in order.

A timer that is armed is due at a tick from then on, and nothing but arming it
again changes that tick. While a timer is taken off its list and not yet put
back, the rest of the wheel is in order without it; `timer_jiffies` catches up
only when no other timer is pending, so it never runs away from one.
-/

import StudyNotes.Timer.Cascade

namespace StudyNotes.Timer

open Library Function

/-- The tick whose work list is being handled. -/
def Phase.tickOf : Phase → Option Int
  | .idle => none
  | .looping => none
  | .working tick => some tick
  | .calling tick _ => some tick

/-- `all_timers` is the number of the timers that satisfy a condition. -/
def Counted (state : State) (condition : Nat → Prop) : Prop :=
  ∃ waiting : Finset Nat, (∀ timer, timer ∈ waiting ↔ condition timer) ∧
    state.allTimers = waiting.card

/-- `timer_jiffies` is not beyond the next tick, and the tick that is handled has come. -/
structure Clock (state : State) : Prop where
  ahead : state.timerJiffies ≤ state.jiffies + 1
  lag : state.jiffies - state.timerJiffies < 2 ^ 63
  tick : ∀ tick, state.phase.tickOf = some tick → tick ≤ state.jiffies

/-- Every timer is settled, and is due when `due` says. -/
structure Invariant (config : Config) (due : Nat → Int) (state : State) : Prop where
  ordered : Ordered config (fun _ => state.timerJiffies) state.phase.tickOf due state
  counted : Counted state fun timer => state.pending timer = true
  clock : Clock state

/-- The same for all timers but one, which is on no list. -/
structure Without (config : Config) (due : Nat → Int) (timer : Nat) (state : State) : Prop where
  others : ∀ other, other ≠ timer →
    Settled config (fun _ => state.timerJiffies) state.phase.tickOf due state other
  absent : ∀ head, timer ∉ state.lists head
  counted : Counted state fun other => other ≠ timer ∧ state.pending other = true
  clock : Clock state

section Parts

variable {config : Config} {due : Nat → Int} {state state' : State} {timer other : Nat}
  {events : List Event} {lists : ListHead → List Nat} {head : ListHead}

/-! ### Taking a timer off its list -/

theorem Listed.erase (listed : Listed lists other head) (differs : other ≠ timer) :
    Listed (fun head => (lists head).erase timer) other head :=
  listed.of_count fun _ => List.count_erase_of_ne differs

theorem Listed.not_mem_erase
    (listed : Listed lists timer head) (other : ListHead) : timer ∉ (lists other).erase timer := by
  by_cases same : other = head
  · subst same
    refine List.count_eq_zero.mp ?_
    rw [List.count_erase_self, listed.once]
  · exact fun member => listed.elsewhere other same (List.mem_of_mem_erase member)

/-- A timer that is not pending is on no list. -/
theorem without_iff (notPending : state.pending timer = false) :
    Without config due timer state ↔ Invariant config due state := by
  have others (other : Nat) :
      (other ≠ timer ∧ state.pending other = true) = (state.pending other = true) := by
    refine propext (and_iff_right_of_imp ?_)
    rintro isPending rfl
    simp [notPending] at isPending
  constructor
  · intro without
    refine ⟨fun other => ?_, by simpa only [others] using without.counted, without.clock⟩
    by_cases isTimer : other = timer
    · subst isTimer
      rw [Settled, if_neg (by simp [notPending])]
      exact without.absent
    · exact without.others other isTimer
  · intro invariant
    exact ⟨fun other _ => invariant.ordered other, (invariant.ordered timer).absent notPending,
      by simpa only [others] using invariant.counted, invariant.clock⟩

theorem Counted.not_of_empty {counts : Nat → Prop} (counted : Counted state counts)
    (empty : state.allTimers = 0) (timer : Nat) : ¬ counts timer := by
  obtain ⟨waiting, members, count⟩ := counted
  rw [empty, eq_comm, Finset.card_eq_zero] at count
  simp [← members, count]

/-- `timer_jiffies` catches up only when no timer is left behind. -/
theorem Without.catchup (without : Without config due timer state) :
    Without config due timer (catchupTimerJiffies state).2 := by
  unfold catchupTimerJiffies
  split
  next empty =>
    refine ⟨fun other differs => ?_, without.absent, without.counted, ?_⟩
    · exact (without.others other differs).move rfl
        (fun isNot head => (without.others other differs).absent isNot head)
        fun _ isPending => absurd ⟨differs, isPending⟩ (without.counted.not_of_empty empty other)
    · exact ⟨by simp, by simp, without.clock.tick⟩
  next => exact without

theorem catchup_fields (state : State) :
    (catchupTimerJiffies state).2 =
      { state with timerJiffies := (catchupTimerJiffies state).2.timerJiffies } := by
  unfold catchupTimerJiffies
  split <;> rfl

/-! ### Putting a timer on a list -/

theorem Listed.append (listed : Listed lists other head) (differs : other ≠ timer)
    (target : ListHead) :
    Listed (update lists target (lists target ++ [timer])) other head := by
  refine listed.of_count fun place => ?_
  have zero : List.count other [timer] = 0 :=
    List.count_eq_zero_of_not_mem (by simpa using differs)
  grind

theorem listed_append (absent : ∀ head, timer ∉ lists head) (target : ListHead) :
    Listed (update lists target (lists target ++ [timer])) timer target := by
  refine listed_iff_count.mpr fun other => ?_
  have zero := List.count_eq_zero_of_not_mem (absent other)
  grind

section

variable (without : Without config due timer state)
include without

/-- A timer is put on the list that it chooses. -/
theorem Without.attach (lists : state'.lists = update state.lists
      (vecFor config (state.expires timer) state.timerJiffies)
      (state.lists (vecFor config (state.expires timer) state.timerJiffies) ++ [timer]))
    (pending : state'.pending = update state.pending timer true)
    (allTimers : state'.allTimers = state.allTimers + 1)
    (same : state'.timerJiffies = state.timerJiffies ∧ state'.jiffies = state.jiffies ∧
      state'.phase = state.phase ∧ state'.expires = state.expires) :
    Invariant config
      (update due timer (dueAt (state'.expires timer) state'.timerJiffies)) state' := by
  obtain ⟨sameNow, sameJiffies, samePhase, sameExpires⟩ := same
  refine ⟨fun other => ?_, ?_, ?_⟩
  · rw [samePhase, sameNow, sameExpires]
    by_cases isTimer : other = timer
    · subst isTimer
      rw [Settled, if_pos (by simp [pending]), lists, sameNow, sameExpires, update_self]
      refine ⟨_, listed_append without.absent _, ?_⟩
      exact (vecFor_sits config _ _ _).mono fun n => by split <;> omega
    · have settled := without.others other isTimer
      rw [Settled, update_of_ne isTimer]
      refine settled.move (by rw [pending, update_of_ne isTimer])
        (fun notPending head => ?_) fun head _ listed sits => ⟨head, ?_, ?_⟩
      · have absent := settled.absent notPending
        rw [lists, update_apply]
        split <;> simp [absent, isTimer]
      · rw [lists]
        exact listed.append isTimer _
      · rw [sameNow, sameExpires]
        exact sits
  · obtain ⟨waiting, members, count⟩ := without.counted
    have fresh : timer ∉ waiting := fun member => ((members timer).mp member).1 rfl
    refine ⟨insert timer waiting, fun other => ?_, ?_⟩
    · rw [Finset.mem_insert, members, pending]
      by_cases isTimer : other = timer
      · simp [isTimer]
      · simp [isTimer]
    · rw [Finset.card_insert_of_notMem fresh, allTimers, count]
  · exact ⟨by rw [sameNow, sameJiffies]; exact without.clock.ahead,
      by rw [sameNow, sameJiffies]; exact without.clock.lag,
      by rw [samePhase, sameJiffies]; exact without.clock.tick⟩

/-- The new expiry of a timer that is off its list is nobody else's business. -/
theorem Without.setExpires (expires : Int) :
    Without config due timer
      { state with expires := update state.expires timer expires } := by
  refine { without with others := fun other differs => ?_, clock := { without.clock with } }
  refine (without.others other differs).move rfl (without.others other differs).absent
    fun head _ listed sits => ⟨head, listed, ?_⟩
  simpa [update_of_ne differs] using sits

end

/-! ### Steps of the machine -/

/-- When the timers are due after a step: those that it arms get a new tick. -/
def dueAfter (due : Nat → Int) (state : State) (events : List Event) (timer : Nat) : Int :=
  if .armed timer ∈ events then dueAt (state.expires timer) state.timerJiffies else due timer

theorem dueAfter_of_armed (isArmed : .armed timer ∈ events) :
    dueAfter due state events timer = dueAt (state.expires timer) state.timerJiffies :=
  if_pos isArmed

theorem dueAfter_of_not_armed (none_ : ∀ timer, .armed timer ∉ events) :
    dueAfter due state events = due := by
  funext timer
  exact if_neg (none_ timer)

theorem detachIfPending_pending (config : Config) (timer : Nat) (clear : Bool) (state : State) :
    (detachIfPending config timer clear state).2.pending =
      if clear then update state.pending timer false else state.pending := by
  unfold detachIfPending
  split
  next isPending =>
    rw [catchup_fields]
    split <;> rfl
  next notPending =>
    have isNot : state.pending timer = false := by simpa using notPending
    cases clear
    · rfl
    · simp [← isNot]

theorem delTimer_eq (config : Config) (timer : Nat) (state : State) :
    delTimer config timer state =
      ((detachIfPending config timer true state).2,
        if state.pending timer then [.removed timer] else []) := by
  unfold delTimer detachIfPending
  by_cases isPending : state.pending timer = true
  · simp only [isPending, if_true]
  · simp only [isPending, if_false, Bool.false_eq_true]

theorem detachExpiredTimer_pending (state : State) :
    (detachExpiredTimer config timer state).pending =
      update state.pending timer false := by
  unfold detachExpiredTimer
  rw [catchup_fields]
  split <;> rfl

/-- The comparison of times tells whether the next tick has come. -/
theorem Clock.timeAfterEq_iff (clock : Clock state) :
    timeAfterEq state.jiffies state.timerJiffies = true ↔ state.timerJiffies ≤ state.jiffies := by
  have := clock.ahead
  have := clock.lag
  unfold timeAfterEq slong
  simp only [decide_eq_true_eq]
  omega

/-- What the next piece of `__run_timers` can be. -/
theorem proceed_cases (taken : proceed config state = some (state', events)) :
    (state.phase = .looping ∧ state' = outerLoop config state ∧ events = []) ∨
    (∃ tick, state.phase = .working tick ∧ state.lists .workList = [] ∧
      state' = { state with phase := .looping } ∧ events = []) ∨
    (∃ tick timer rest, state.phase = .working tick ∧ state.lists .workList = timer :: rest ∧
      state' = { detachExpiredTimer config timer { state with runningTimer := some timer } with
        phase := .calling tick timer } ∧
      events = [.called timer tick state.jiffies]) ∨
    ∃ tick timer, state.phase = .calling tick timer ∧
      state' = { state with phase := .working tick } ∧ events = [] := by
  unfold proceed at taken
  split at taken
  next => cases taken
  next isPhase =>
    cases taken
    exact .inl ⟨isPhase, rfl, rfl⟩
  next tick isPhase =>
    split at taken
    next empty =>
      cases taken
      exact .inr (.inl ⟨tick, isPhase, empty, rfl, rfl⟩)
    next timer rest isWork =>
      cases taken
      exact .inr (.inr (.inl ⟨tick, timer, rest, isPhase, isWork, rfl, rfl⟩))
  next tick timer isPhase =>
    cases taken
    exact .inr (.inr (.inr ⟨tick, timer, isPhase, rfl, rfl⟩))

theorem detachExpiredTimer_phase (state : State) :
    (detachExpiredTimer config timer state).phase = state.phase := by
  unfold detachExpiredTimer
  rw [catchup_fields]
  split <;> rfl

variable (invariant : Invariant config due state)
include invariant

/-- A pending timer is taken off its list. -/
theorem Invariant.detach (isPending : state.pending timer = true)
    (lists : state'.lists = fun head => (state.lists head).erase timer)
    (pending : ∀ other, other ≠ timer → state'.pending other = state.pending other)
    (allTimers : state'.allTimers = state.allTimers - 1)
    (same : state'.timerJiffies = state.timerJiffies ∧ state'.jiffies = state.jiffies ∧
      state'.phase = state.phase ∧ state'.expires = state.expires) :
    Without config due timer state' := by
  obtain ⟨sameNow, sameJiffies, samePhase, sameExpires⟩ := same
  obtain ⟨head, listed, -⟩ := (invariant.ordered timer).listed isPending
  refine ⟨fun other differs => ?_, fun other => ?_, ?_, ?_⟩
  · rw [samePhase, sameNow]
    refine (invariant.ordered other).move (pending other differs) (fun notPending head member => ?_)
      fun head _ listed sits => ⟨head, ?_, ?_⟩
    · rw [lists] at member
      exact (invariant.ordered other).absent notPending head (List.mem_of_mem_erase member)
    · rw [lists]
      exact listed.erase differs
    · rw [sameNow, sameExpires]
      exact sits
  · rw [lists]
    exact listed.not_mem_erase other
  · obtain ⟨waiting, members, count⟩ := invariant.counted
    refine ⟨waiting.erase timer, fun other => ?_, ?_⟩
    · rw [Finset.mem_erase, members]
      by_cases isTimer : other = timer
      · simp [isTimer]
      · simp [pending other isTimer]
    · rw [allTimers, count, Finset.card_erase_of_mem ((members timer).mpr isPending)]
  · exact ⟨by rw [sameNow, sameJiffies]; exact invariant.clock.ahead,
      by rw [sameNow, sameJiffies]; exact invariant.clock.lag,
      by rw [samePhase, sameJiffies]; exact invariant.clock.tick⟩

theorem detachIfPending_without (timer : Nat) (clear : Bool) :
    Without config due timer (detachIfPending config timer clear state).2 := by
  unfold detachIfPending
  split
  next isPending =>
    refine Without.catchup (invariant.detach isPending ?_ ?_ ?_ ?_)
    · split <;> rfl
    · intro other differs
      split <;> cases clear <;> simp [detachTimer, differs]
    · split <;> rfl
    · split <;> exact ⟨rfl, rfl, rfl, rfl⟩
  next notPending => exact (without_iff (by simpa using notPending)).mpr invariant

theorem rawModTimer_invariant (expires : Int) :
    Invariant config (dueAfter due (rawModTimer config timer expires state) [.armed timer])
      (rawModTimer config timer expires state) := by
  have isDue (next : State) : dueAfter due next [.armed timer] =
      update due timer (dueAt (next.expires timer) next.timerJiffies) := by
    funext other
    by_cases isTimer : other = timer
    · subst isTimer
      simp [dueAfter]
    · simp [dueAfter, isTimer]
  rw [isDue]
  have without := (detachIfPending_without invariant timer false).setExpires expires
  unfold rawModTimer internalAddTimer
  refine without.catchup.attach ?_ ?_ ?_ ?_
  · split <;> rfl
  · split <;> rfl
  · split <;> rfl
  · split <;> exact ⟨rfl, rfl, rfl, rfl⟩

theorem modTimer_invariant (timer : Nat) (expires : Int) :
    Invariant config
      (dueAfter due (modTimer config timer expires state).1 (modTimer config timer expires state).2)
      (modTimer config timer expires state).1 := by
  simp only [modTimer]
  split
  · rw [dueAfter_of_not_armed (by simp)]
    exact invariant
  · exact rawModTimer_invariant invariant _

/-- What is not pending may expire at any time. -/
theorem Invariant.setExpires (notPending : state.pending timer = false) (expires : Int) :
    Invariant config due { state with expires := update state.expires timer expires } := by
  refine ⟨fun other => ?_, invariant.counted, invariant.clock.ahead, invariant.clock.lag,
    invariant.clock.tick⟩
  refine (invariant.ordered other).move rfl (invariant.ordered other).absent
    fun head isPending listed sits => ⟨head, listed, ?_⟩
  have differs : other ≠ timer := by
    rintro rfl
    simp [notPending] at isPending
  simpa [update_of_ne differs] using sits

theorem detachExpiredTimer_invariant (isPending : state.pending timer = true) :
    Invariant config due (detachExpiredTimer config timer state) := by
  have without : Without config due timer (detachExpiredTimer config timer state) := by
    refine Without.catchup (invariant.detach isPending ?_ ?_ ?_ ?_)
    · split <;> rfl
    · intro other differs
      split <;> simp [detachTimer, differs]
    · split <;> rfl
    · split <;> exact ⟨rfl, rfl, rfl, rfl⟩
  exact (without_iff (by simp [detachExpiredTimer_pending])).mp without

/-- The invariant does not look at the running timer, nor at the rest of the phase. -/
theorem Invariant.setPhase {phase : Phase}
    (same : phase.tickOf = state.phase.tickOf) (runningTimer : Option Nat) :
    Invariant config due { state with phase, runningTimer } := by
  refine ⟨?_, invariant.counted, invariant.clock.ahead, invariant.clock.lag, ?_⟩
  · have ordered := invariant.ordered
    rw [← same] at ordered
    exact ordered
  · have tick := invariant.clock.tick
    rw [← same] at tick
    exact tick

theorem outerLoop_invariant
    (isPhase : state.phase = .looping) : Invariant config due (outerLoop config state) := by
  unfold outerLoop
  split
  next due_ =>
    have ordered := invariant.ordered
    rw [isPhase] at ordered
    obtain ⟨after, same⟩ := Ordered.takeTick ordered
    have come := invariant.clock.timeAfterEq_iff.mp due_
    have lag := invariant.clock.lag
    rw [same] at after ⊢
    exact ⟨after, invariant.counted, by simp; omega, by simp; omega, fun tick isTick =>
      (Option.some.inj isTick) ▸ come⟩
  next =>
    have outside : Phase.idle.tickOf = state.phase.tickOf := by
      rw [isPhase]
      rfl
    exact invariant.setPhase outside none

theorem runTimerSoftirq_invariant
    (isPhase : state.phase = .idle) : Invariant config due (runTimerSoftirq state) := by
  unfold runTimerSoftirq catchupTimerJiffies
  split
  · by_cases empty : state.allTimers = 0
    · have notPending := Bool.eq_false_of_not_eq_true (invariant.counted.not_of_empty empty 0)
      have caughtUp := ((without_iff notPending).mpr invariant).catchup
      rw [without_iff (by rw [catchup_fields]; exact notPending)] at caughtUp
      simpa only [catchupTimerJiffies, empty, if_true] using caughtUp
    · simp only [empty, if_false]
      have outside : Phase.looping.tickOf = state.phase.tickOf := by
        rw [isPhase]
        rfl
      exact invariant.setPhase outside state.runningTimer
  · exact invariant

/-- The next piece of `__run_timers` keeps the invariant, and arms nothing itself. -/
theorem proceed_invariant (taken : proceed config state = some (state', events)) :
    Invariant config due state' ∧ ∀ timer, .armed timer ∉ events := by
  rcases proceed_cases taken with ⟨isPhase, rfl, rfl⟩ | ⟨tick, isPhase, empty, rfl, rfl⟩ |
    ⟨tick, timer, rest, isPhase, isWork, rfl, rfl⟩ | ⟨tick, timer, isPhase, rfl, rfl⟩
  · exact ⟨outerLoop_invariant invariant isPhase, by simp⟩
  · refine ⟨⟨fun timer => ?_, invariant.counted, invariant.clock.ahead, invariant.clock.lag,
      fun tick isTick => by cases isTick⟩, by simp⟩
    refine (invariant.ordered timer).move rfl (invariant.ordered timer).absent
      fun head _ listed sits => ⟨head, listed, ?_⟩
    cases head with
    | workList =>
      have member := listed.mem
      simp [empty] at member
    | tv n index => exact sits
  · have isPending : state.pending timer = true :=
      (invariant.ordered timer).pending_of_mem (by rw [isWork]; exact List.mem_cons_self)
    have running := invariant.setPhase rfl (some timer)
    have detached := detachExpiredTimer_invariant running isPending
    have samePhase : (Phase.calling tick timer).tickOf =
        (detachExpiredTimer config timer
          { state with runningTimer := some timer }).phase.tickOf := by
      rw [detachExpiredTimer_phase, isPhase]
      rfl
    exact ⟨detached.setPhase samePhase _, by simp⟩
  · have samePhase : (Phase.working tick).tickOf = state.phase.tickOf := by
      rw [isPhase]
      rfl
    exact ⟨invariant.setPhase samePhase _, by simp⟩

/-- Every step keeps the invariant. -/
theorem step_invariant {action : Action}
    (taken : step config state action = some (state', events)) :
    Invariant config (dueAfter due state' events) state' := by
  cases action with
  | tick count =>
    obtain ⟨near, isNext⟩ := Option.ite_none_right_eq_some.mp taken
    cases isNext
    have ahead := invariant.clock.ahead
    refine ⟨invariant.ordered, invariant.counted, by simp; omega, near, fun tick isTick => ?_⟩
    exact Int.le_trans (invariant.clock.tick tick isTick) (by simp)
  | modTimer timer expires =>
    obtain ⟨-, isNext⟩ := Option.ite_none_right_eq_some.mp taken
    have kept := modTimer_invariant invariant timer expires
    rwa [Option.some.inj isNext] at kept
  | addTimer timer expires =>
    obtain ⟨-, isNext⟩ := Option.ite_none_right_eq_some.mp taken
    obtain ⟨notPending, isMod⟩ := Option.ite_none_left_eq_some.mp isNext
    have set := invariant.setExpires (by simpa using notPending) expires
    have kept := modTimer_invariant set timer expires
    simp only [update_self] at isMod
    rwa [Option.some.inj isMod] at kept
  | delTimer timer =>
    obtain ⟨-, isNext⟩ := Option.ite_none_right_eq_some.mp taken
    rw [delTimer_eq] at isNext
    cases isNext
    rw [dueAfter_of_not_armed (by intro other; split <;> simp)]
    have pending := detachIfPending_pending config timer true state
    exact (without_iff (by simp [pending])).mp (detachIfPending_without invariant timer true)
  | softirq =>
    obtain ⟨isIdle, isNext⟩ := Option.ite_none_right_eq_some.mp taken
    cases isNext
    exact runTimerSoftirq_invariant invariant isIdle
  | proceed =>
    obtain ⟨kept, notArmed⟩ := proceed_invariant invariant taken
    rw [dueAfter_of_not_armed notArmed]
    exact kept

end Parts

end StudyNotes.Timer
