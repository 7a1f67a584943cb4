/-
This file proves that an armed timer is called exactly once, at the tick it is
due.

As long as nobody arms or removes the timer, each step leaves it pending or
calls it, and the tick of the call is the one it was due at when it was armed.
The loop passes no such tick by, does not return before it has come to it, and
always gets there in the end.
-/

import StudyNotes.Timer.Invariant
import Mathlib.Data.Prod.Lex

namespace StudyNotes.Timer

open Library Function

/-- The ticks at which a timer is called, with the time on the clock. -/
def callsOf (timer : Nat) (events : List Event) : List (Int × Int) :=
  events.filterMap fun event =>
    match event with
    | .called other tick jiffies => if other = timer then some (tick, jiffies) else none
    | _ => none

/-- Nobody arms or removes the timer. -/
def Undisturbed (timer : Nat) (events : List Event) : Prop :=
  .armed timer ∉ events ∧ .removed timer ∉ events

theorem callsOf_append (timer : Nat) (events later : List Event) :
    callsOf timer (events ++ later) = callsOf timer events ++ callsOf timer later :=
  List.filterMap_append

section Steps

variable {config : Config} {due : Nat → Int} {state state' : State} {timer : Nat}
  {events : List Event} {action : Action}

/-! ### What a step does to one timer -/

theorem rawModTimer_pending (config : Config) (timer : Nat) (expires : Int) (state : State) :
    (rawModTimer config timer expires state).pending =
      update state.pending timer true := by
  rw [rawModTimer, internalAddTimer, catchup_fields]
  have detached := detachIfPending_pending config timer false state
  split <;> exact congrArg (update · timer true) detached

theorem runTimerSoftirq_pending (state : State) :
    (runTimerSoftirq state).pending = state.pending := by
  unfold runTimerSoftirq catchupTimerJiffies
  split
  · by_cases empty : state.allTimers = 0
    · simp only [empty, if_true]
    · simp only [empty, if_false]
  · rfl

/-- What a step does to the timers. Before a timer is armed, its expiry may be set if it is not
pending. -/
inductive Did (config : Config) (due : Nat → Int) (state state' : State) : List Event → Prop where
  | nothing (pending : state'.pending = state.pending) : Did config due state state' []
  | armed (timer : Nat) (table : Nat → Int) (expires : Int)
      (kept : Invariant config due { state with expires := table })
      (isNext : state' = rawModTimer config timer expires { state with expires := table }) :
      Did config due state state' [.armed timer]
  | removed (timer : Nat) (pending : state'.pending = update state.pending timer false) :
      Did config due state state' [.removed timer]
  | called (timer : Nat) (isPending : state.pending timer = true)
      (come : due timer ≤ state.jiffies)
      (pending : state'.pending = update state.pending timer false) :
      Did config due state state' [.called timer (due timer) state.jiffies]

theorem modTimer_did {other : Nat} {expires : Int} (table : Nat → Int)
    (kept : Invariant config due { state with expires := table })
    (isNext : modTimer config other expires { state with expires := table } = (state', events)) :
    Did config due state state' events := by
  simp only [modTimer] at isNext
  split at isNext
  · cases isNext
    exact .nothing rfl
  · cases isNext
    exact .armed other table _ kept rfl

theorem initTimersCpu_invariant (config : Config) (due : Nat → Int) (jiffies : Int)
    (expires : Nat → Int) : Invariant config due (initTimersCpu jiffies expires) where
  ordered _ := by
    rw [Settled, if_neg (by simp [initTimersCpu])]
    exact fun _ => List.not_mem_nil
  counted := ⟨∅, by simp [initTimersCpu], rfl⟩
  clock := ⟨by simp [initTimersCpu], by simp [initTimersCpu], fun _ isTick => by cases isTick⟩

theorem reachable_invariant {jiffies : Int} {expires : Nat → Int}
    (reachable : Reachable (step config) (initTimersCpu jiffies expires) state) :
    ∃ due, Invariant config due state :=
  reachable.invariant (fun state => ∃ due, Invariant config due state)
    (fun _ _ _ _ ⟨_, invariant⟩ taken => ⟨_, step_invariant invariant taken⟩)
    ⟨fun _ => 0, initTimersCpu_invariant config _ jiffies expires⟩

/-! ### How far the loop has to go -/

/-- How far the softirq is from a call in its phase. -/
def Phase.rank : Phase → Nat
  | .idle => 3
  | .looping => 0
  | .working _ => 1
  | .calling _ _ => 2

/-- What is left to do before a tick has been handled: ticks, timers of the work list, and pieces
of the loop. -/
def effort (tick : Int) (state : State) : Nat ×ₗ Nat ×ₗ Nat :=
  toLex ((tick + 1 - state.timerJiffies).toNat,
    toLex ((state.lists .workList).length, state.phase.rank))

theorem effort_lt_of_rank {tick : Int} (now : state'.timerJiffies = state.timerJiffies)
    (lists : state'.lists .workList = state.lists .workList)
    (rank : state'.phase.rank < state.phase.rank) : effort tick state' < effort tick state := by
  unfold effort
  rw [now, lists]
  exact Prod.Lex.toLex_lt_toLex.mpr (.inr ⟨rfl, Prod.Lex.toLex_lt_toLex.mpr (.inr ⟨rfl, rank⟩)⟩)

theorem catchup_of_ne (nonempty : state.allTimers ≠ 0) : (catchupTimerJiffies state).2 = state := by
  rw [catchupTimerJiffies, if_neg nonempty]

section

variable (invariant : Invariant config due state)
include invariant

theorem proceed_did (taken : proceed config state = some (state', events)) :
    Did config due state state' events := by
  rcases proceed_cases taken with ⟨isPhase, rfl, rfl⟩ | ⟨tick, isPhase, empty, rfl, rfl⟩ |
    ⟨tick, first, rest, isPhase, isWork, rfl, rfl⟩ | ⟨tick, first, isPhase, rfl, rfl⟩
  · refine .nothing ?_
    unfold outerLoop
    split
    · have ordered := invariant.ordered
      rw [isPhase] at ordered
      rw [(Ordered.takeTick ordered).2]
    · rfl
  · exact .nothing rfl
  · have settled := invariant.ordered first
    have member : first ∈ state.lists .workList := by rw [isWork]; exact List.mem_cons_self
    have isPending := settled.pending_of_mem member
    obtain ⟨head, listed, sits⟩ := settled.listed isPending
    obtain rfl := listed.eq_of_mem member
    obtain rfl : tick = due first := by
      rw [isPhase] at sits
      exact Option.some.inj sits
    refine .called first isPending ?_ (detachExpiredTimer_pending _)
    exact invariant.clock.tick _ (by rw [isPhase]; rfl)
  · exact .nothing rfl

/-- What a step can do. -/
theorem step_did (taken : step config state action = some (state', events)) :
    Did config due state state' events := by
  cases action with
  | tick count =>
    obtain ⟨-, isNext⟩ := Option.ite_none_right_eq_some.mp taken
    cases isNext
    exact .nothing rfl
  | modTimer other expires =>
    obtain ⟨-, isNext⟩ := Option.ite_none_right_eq_some.mp taken
    exact modTimer_did state.expires invariant (Option.some.inj isNext)
  | addTimer other expires =>
    obtain ⟨-, isNext⟩ := Option.ite_none_right_eq_some.mp taken
    obtain ⟨notPending, isMod⟩ := Option.ite_none_left_eq_some.mp isNext
    exact modTimer_did _ (invariant.setExpires (by simpa using notPending) expires)
      (Option.some.inj isMod)
  | delTimer other =>
    obtain ⟨-, isNext⟩ := Option.ite_none_right_eq_some.mp taken
    rw [delTimer_eq] at isNext
    cases isNext
    have pending := detachIfPending_pending config other true state
    split
    next => exact .removed other pending
    next notPending =>
      have isNot : state.pending other = false := by simpa using notPending
      exact .nothing (by rw [pending, if_pos rfl, ← isNot, update_eq_self])
  | softirq =>
    obtain ⟨-, isNext⟩ := Option.ite_none_right_eq_some.mp taken
    cases isNext
    exact .nothing (runTimerSoftirq_pending state)
  | proceed => exact proceed_did invariant taken

/-- What a step can do to a timer that it neither arms nor removes. -/
inductive Handled (timer : Nat) (due : Int) (state state' : State) (events : List Event) :
    Prop where
  | kept (same : state'.pending timer = state.pending timer) (none_ : callsOf timer events = [])
  | called (was : state.pending timer = true) (notPending : state'.pending timer = false)
      (once : callsOf timer events = [(due, state.jiffies)]) (come : due ≤ state.jiffies)

/-- A step that neither arms nor removes a timer keeps it, or calls it when it is due. -/
theorem step_handled (taken : step config state action = some (state', events))
    (quiet : Undisturbed timer events) : Handled timer (due timer) state state' events := by
  cases step_did invariant taken with
  | nothing pending => exact .kept (by rw [pending]) rfl
  | armed other table expires kept isNext =>
    have differs : timer ≠ other := fun same => quiet.1 (by simp [same])
    exact .kept (by rw [isNext, rawModTimer_pending, update_of_ne differs]) rfl
  | removed other pending =>
    have differs : timer ≠ other := fun same => quiet.2 (by simp [same])
    exact .kept (by rw [pending, update_of_ne differs]) rfl
  | called other isPending come pending =>
    by_cases same : timer = other
    · subst same
      refine .called isPending (by rw [pending, update_self]) ?_ come
      simp [callsOf]
    · refine .kept (by rw [pending, update_of_ne same]) ?_
      simp [callsOf, Ne.symm same]

/-! ### Where a pending timer is -/

section

variable (isPending : state.pending timer = true)
include isPending

/-- The tick of a pending timer has not been passed: it is still ahead, or it is being handled
and the timer is on the work list. -/
theorem Invariant.notPassed :
    state.timerJiffies ≤ due timer ∨
      state.phase.tickOf = some (due timer) ∧ timer ∈ state.lists .workList := by
  obtain ⟨head, listed, sits⟩ := (invariant.ordered timer).listed isPending
  cases head with
  | workList => exact .inr ⟨sits, listed.mem⟩
  | tv n index =>
    rcases sits with ⟨-, after, -⟩ | waits
    · exact .inl after
    · exact .inl waits.le_due

theorem Invariant.le_due (outside : state.phase.tickOf = none) :
    state.timerJiffies ≤ due timer := by
  rcases invariant.notPassed isPending with ahead | ⟨isTick, -⟩
  · exact ahead
  · cases outside.symm.trans isTick

theorem Invariant.allTimers_ne : state.allTimers ≠ 0 :=
  fun empty => invariant.counted.not_of_empty empty timer isPending

end

/-- The softirq comes back to a pending timer only before its tick. -/
theorem Invariant.returns (own : action = .softirq ∨ action = .proceed)
    (taken : step config state action = some (state', events)) (returned : state'.phase = .idle)
    (isPending : state'.pending timer = true) : state'.jiffies < due timer := by
  rcases own with rfl | rfl
  · obtain ⟨isIdle, isNext⟩ := Option.ite_none_right_eq_some.mp taken
    cases isNext
    rw [runTimerSoftirq_pending] at isPending
    have nonempty := invariant.allTimers_ne isPending
    have ahead := invariant.le_due isPending (by rw [isIdle]; rfl)
    unfold runTimerSoftirq catchupTimerJiffies at returned ⊢
    split at returned
    next => simp at returned
    next early =>
      rw [invariant.clock.timeAfterEq_iff] at early
      rw [if_neg (by rwa [invariant.clock.timeAfterEq_iff])]
      omega
  · rcases proceed_cases taken with ⟨isPhase, rfl, rfl⟩ | ⟨tick, isPhase, empty, rfl, rfl⟩ |
      ⟨tick, first, rest, isPhase, isWork, rfl, rfl⟩ | ⟨tick, first, isPhase, rfl, rfl⟩
    · unfold outerLoop at returned isPending ⊢
      split at returned
      next come =>
        have ordered := invariant.ordered
        rw [isPhase] at ordered
        rw [(Ordered.takeTick ordered).2] at returned
        cases returned
      next early =>
        rw [if_neg early] at isPending ⊢
        have ahead := invariant.le_due isPending (by rw [isPhase]; rfl)
        rw [invariant.clock.timeAfterEq_iff] at early
        simp only
        omega
    · cases returned
    · cases returned
    · cases returned

/-! ### Whole runs -/

/-- What becomes of a pending timer that is due at `tick`. -/
inductive Served (timer : Nat) (tick : Int) (due : Nat → Int) (state : State)
    (events : List Event) : Prop where
  | waiting (isPending : state.pending timer = true) (isDue : due timer = tick)
      (none_ : callsOf timer events = [])
  | called (notPending : state.pending timer = false) (jiffies : Int)
      (once : callsOf timer events = [(tick, jiffies)]) (come : tick ≤ jiffies)

theorem Served.step {tick : Int} {past events : List Event}
    (served : Served timer tick due state past)
    (taken : Timer.step config state action = some (state', events))
    (quiet : Undisturbed timer events) :
    Served timer tick (dueAfter due state' events) state' (past ++ events) := by
  have sameDue : dueAfter due state' events timer = due timer := if_neg quiet.1
  cases served with
  | waiting isPending isDue none_ =>
    cases step_handled invariant taken quiet with
    | kept same noCalls =>
      refine .waiting (same.trans isPending) (sameDue.trans isDue) ?_
      rw [callsOf_append, none_, noCalls]
      rfl
    | called was notPending once come =>
      refine .called notPending state.jiffies ?_ (isDue ▸ come)
      rw [callsOf_append, none_, once, isDue]
      rfl
  | called notPending jiffies once come =>
    cases step_handled invariant taken quiet with
    | kept same noCalls =>
      refine .called (same.trans notPending) jiffies ?_ come
      rw [callsOf_append, once, noCalls]
      rfl
    | called was => simp [notPending] at was

/-- Along every run that leaves the timer alone, it waits and is called once. -/
theorem run_served {tick : Int} {actions : List Action} {last : State}
    (isPending : state.pending timer = true)
    (isDue : due timer = tick) (ran : run (step config) state actions = some (last, events))
    (quiet : Undisturbed timer events) :
    ∃ due', Invariant config due' last ∧ Served timer tick due' last events := by
  have kept := run_invariant (step config) (fun state past =>
      ∃ due', Invariant config due' state ∧
        (Undisturbed timer past → Served timer tick due' state past))
    (fun state past action next events holds taken => by
      obtain ⟨due', invariant, served⟩ := holds
      refine ⟨_, step_invariant invariant taken, fun quiet => ?_⟩
      have quietPast : Undisturbed timer past :=
        ⟨fun member => quiet.1 (List.mem_append_left _ member),
          fun member => quiet.2 (List.mem_append_left _ member)⟩
      exact (served quietPast).step invariant taken
        ⟨fun member => quiet.1 (List.mem_append_right _ member),
          fun member => quiet.2 (List.mem_append_right _ member)⟩)
    [] ⟨due, invariant, fun _ => .waiting isPending isDue rfl⟩ ran
  rw [List.nil_append] at kept
  obtain ⟨due', invariant', served⟩ := kept
  exact ⟨due', invariant', served quiet⟩

/-! ### The loop gets there -/

/-- The callback of another timer changes nothing for a pending timer but the work list. -/
theorem detachExpiredTimer_keeps {first : Nat} (isFirst : state.pending first = true)
    (isPending : state.pending timer = true) (differs : timer ≠ first) :
    (detachExpiredTimer config first state).timerJiffies = state.timerJiffies ∧
      (detachExpiredTimer config first state).lists =
        fun head => (state.lists head).erase first := by
  obtain ⟨waiting, members, count⟩ := invariant.counted
  have two : 2 ≤ state.allTimers := by
    rw [count, ← Finset.card_pair differs]
    refine Finset.card_le_card fun other member => (members other).mpr ?_
    rcases Finset.mem_insert.mp member with rfl | isFirst'
    · exact isPending
    · rw [Finset.mem_singleton.mp isFirst']
      exact isFirst
  unfold detachExpiredTimer
  rw [catchup_of_ne (by split <;> (simp only [detachTimer]; omega))]
  split <;> exact ⟨rfl, rfl⟩

/-- The softirq takes a step towards a timer whose tick has come, or calls it. -/
theorem Invariant.advance (isPending : state.pending timer = true)
    (come : due timer ≤ state.jiffies) :
    ∃ action next events, (action = .softirq ∨ action = .proceed) ∧
      step config state action = some (next, events) ∧ next.jiffies = state.jiffies ∧
      (∀ other, .armed other ∉ events ∧ .removed other ∉ events) ∧
      (callsOf timer events ≠ [] ∨ effort (due timer) next < effort (due timer) state) := by
  cases isPhase : state.phase with
  | idle =>
    have ahead := invariant.le_due isPending (by rw [isPhase]; rfl)
    have isDue := invariant.clock.timeAfterEq_iff.mpr (Int.le_trans ahead come)
    have nonempty := invariant.allTimers_ne isPending
    refine ⟨.softirq, { state with phase := .looping }, [], .inl rfl, ?_, rfl, by simp, .inr ?_⟩
    · rw [step, if_pos isPhase, runTimerSoftirq, if_pos isDue, catchupTimerJiffies, if_neg nonempty]
    · exact effort_lt_of_rank rfl rfl (by simp [isPhase, Phase.rank])
  | looping =>
    have ahead := invariant.le_due isPending (by rw [isPhase]; rfl)
    have isDue := invariant.clock.timeAfterEq_iff.mpr (Int.le_trans ahead come)
    have ordered := invariant.ordered
    rw [isPhase] at ordered
    have taken := (Ordered.takeTick ordered).2
    refine ⟨.proceed, takeTick config state, [], .inr rfl, ?_, by rw [taken], by simp, .inr ?_⟩
    · simp only [step, proceed, isPhase, outerLoop, isDue, if_true]
    · rw [taken]
      exact Prod.Lex.toLex_lt_toLex.mpr (.inl (by simp only; omega))
  | working tick =>
    cases isWork : state.lists .workList with
    | nil =>
      refine ⟨.proceed, { state with phase := .looping }, [], .inr rfl, ?_, rfl, by simp, .inr ?_⟩
      · simp only [step, proceed, isPhase, isWork]
      · exact effort_lt_of_rank rfl rfl (by simp [isPhase, Phase.rank])
    | cons first rest =>
      have isFirst : state.pending first = true :=
        (invariant.ordered first).pending_of_mem (by rw [isWork]; exact List.mem_cons_self)
      refine ⟨.proceed, { detachExpiredTimer config first
          { state with runningTimer := some first } with phase := .calling tick first },
        [.called first tick state.jiffies], .inr rfl, ?_, ?_, by simp, ?_⟩
      · simp only [step, proceed, isPhase, isWork]
      · dsimp only [detachExpiredTimer]
        rw [catchup_fields]
        split <;> rfl
      · by_cases same : timer = first
        · exact .inl (by simp [callsOf, same])
        · -- The work list gets shorter, and no catching up happens as the timer is pending.
          obtain ⟨now, lists⟩ := detachExpiredTimer_keeps (invariant.setPhase rfl (some first))
            isFirst isPending same
          refine .inr (Prod.Lex.toLex_lt_toLex.mpr (.inr ⟨?_, ?_⟩))
          · simp only [now]
          · refine Prod.Lex.toLex_lt_toLex.mpr (.inl ?_)
            simp [lists, isWork]
  | calling tick first =>
    refine ⟨.proceed, { state with phase := .working tick }, [], .inr rfl, ?_, rfl, by simp,
      .inr ?_⟩
    · simp only [step, proceed, isPhase]
    · exact effort_lt_of_rank rfl rfl (by simp [isPhase, Phase.rank])

/-- A timer whose tick has come is called by the softirq without anybody's help. -/
theorem Invariant.reaches (isPending : state.pending timer = true)
    (come : due timer ≤ state.jiffies) :
    ∃ actions last events, (∀ action ∈ actions, action = .softirq ∨ action = .proceed) ∧
      run (step config) state actions = some (last, events) ∧
      callsOf timer events = [(due timer, state.jiffies)] ∧
      ∀ other, .armed other ∉ events ∧ .removed other ∉ events := by
  generalize measured : effort (due timer) state = left
  induction left using WellFoundedLT.induction generalizing state with
  | ind left inductionHypothesis =>
    subst measured
    obtain ⟨action, next, events, own, taken, sameJiffies, quiet, progress⟩ :=
      invariant.advance isPending come
    have kept := step_invariant invariant taken
    rw [dueAfter_of_not_armed fun other => (quiet other).1] at kept
    cases step_handled invariant taken (quiet timer) with
    | called was notPending once _ =>
      refine ⟨[action], next, events, by simpa using own, ?_, once, quiet⟩
      exact run_cons.mpr ⟨next, events, [], taken, rfl, (List.append_nil _).symm⟩
    | kept same none_ =>
      have falls := progress.resolve_left fun some_ => some_ none_
      obtain ⟨actions, last, later, ownRest, ran, once, quietRest⟩ :=
        inductionHypothesis _ falls kept (same.trans isPending) (sameJiffies ▸ come) rfl
      refine ⟨action :: actions, last, events ++ later, ?_, ?_, ?_, fun other => ?_⟩
      · exact List.forall_mem_cons.mpr ⟨own, ownRest⟩
      · exact run_cons.mpr ⟨next, events, later, taken, ran, rfl⟩
      · rw [callsOf_append, none_, once, sameJiffies, List.nil_append]
      · simp only [List.mem_append, not_or]
        exact ⟨⟨(quiet other).1, (quietRest other).1⟩, (quiet other).2, (quietRest other).2⟩

/-! ### Armed timers -/

theorem step_armed (taken : step config state action = some (state', events))
    (isArmed : .armed timer ∈ events) : state'.pending timer = true := by
  cases step_did invariant taken with
  | armed other table expires kept isNext =>
    obtain rfl : timer = other := by simpa using isArmed
    rw [isNext, rawModTimer_pending, update_self]
  | nothing => cases isArmed
  | removed | called => simp at isArmed

/-- A pending timer on one list, whose tick is still to come. The softirq does not return at that
tick or later with the timer pending, and gets to the call by itself when the tick has come. -/
structure Waiting (config : Config) (timer : Nat) (tick : Int) (state : State) : Prop where
  pending : state.pending timer = true
  listed : ∃ head, Listed state.lists timer head
  notPassed : state.timerJiffies ≤ tick ∨
    state.phase.tickOf = some tick ∧ timer ∈ state.lists .workList
  returns : ∀ action next events, action = .softirq ∨ action = .proceed →
    step config state action = some (next, events) → next.phase = .idle →
    next.pending timer = true → next.jiffies < tick
  reaches : tick ≤ state.jiffies → ∃ actions last events,
    (∀ action ∈ actions, action = .softirq ∨ action = .proceed) ∧
      run (step config) state actions = some (last, events) ∧
      callsOf timer events = [(tick, state.jiffies)]

theorem Invariant.waiting (isPending : state.pending timer = true) :
    Waiting config timer (due timer) state where
  pending := isPending
  listed := by
    obtain ⟨head, listed, -⟩ := (invariant.ordered timer).listed isPending
    exact ⟨head, listed⟩
  notPassed := invariant.notPassed isPending
  returns _ _ _ own taken returned stillPending := invariant.returns own taken returned stillPending
  reaches come := by
    obtain ⟨actions, last, events, own, ran, once, -⟩ := invariant.reaches isPending come
    exact ⟨actions, last, events, own, ran, once⟩

end

/-- A timer that is armed, and then neither armed again nor removed, waits on one list and is
called once, in the turn of the later of its expiry and `timer_jiffies`, and not before it
expires. -/
theorem armed_called_once {jiffies : Int} {expires : Nat → Int} {before armed last : State}
    {action : Action} {actions : List Action} {first events : List Event}
    (reachable : Reachable (step config) (initTimersCpu jiffies expires) before)
    (arms : step config before action = some (armed, first)) (isArmed : .armed timer ∈ first)
    (low : -2 ^ 63 ≤ armed.expires timer - armed.timerJiffies)
    (high : armed.expires timer - armed.timerJiffies < 2 ^ 63)
    (ran : run (step config) armed actions = some (last, events))
    (quiet : Undisturbed timer events) :
    (callsOf timer events = [] ∧
      Waiting config timer (max (armed.expires timer) armed.timerJiffies) last) ∨
    ∃ now, callsOf timer events = [(max (armed.expires timer) armed.timerJiffies, now)] ∧
      max (armed.expires timer) armed.timerJiffies ≤ now ∧
      last.pending timer = false ∧ ∀ head, timer ∉ last.lists head := by
  obtain ⟨due, invariant⟩ := reachable_invariant reachable
  have isDue : dueAfter due armed first timer = max (armed.expires timer) armed.timerJiffies :=
    (dueAfter_of_armed isArmed).trans (dueAt_eq_max low high)
  obtain ⟨due', kept, served⟩ := run_served (step_invariant invariant arms)
    (step_armed invariant arms isArmed) isDue ran quiet
  cases served with
  | waiting isPending stillDue none_ =>
    rw [← stillDue]
    exact .inl ⟨none_, kept.waiting isPending⟩
  | called notPending now once come =>
    exact .inr ⟨now, once, come, notPending, (kept.ordered timer).absent notPending⟩

end Steps

/-- Timers without slack on the usual wheel. -/
def plainConfig : Config where
  baseSmall := false
  applySlack _ _ expires := expires
  deferrable _ := false

/-- Two ticks pass, and the softirq runs through three turns to a callback. -/
def threeTurns : List Action :=
  [.tick 2, .softirq, .proceed, .proceed, .proceed, .proceed, .proceed, .proceed]

/-- A timer for the tick 2 is called in the third turn of the loop. -/
theorem armed_called_once_plainConfig :
    ∃ armed last events,
      step plainConfig (initTimersCpu 0 fun _ => 0) (.modTimer 7 2) = some (armed, [.armed 7]) ∧
        run (step plainConfig) armed threeTurns = some (last, events) ∧
        max (armed.expires 7) armed.timerJiffies = 2 ∧
        ((callsOf 7 events = [] ∧
            Waiting plainConfig 7 (max (armed.expires 7) armed.timerJiffies) last) ∨
          ∃ now, callsOf 7 events = [(max (armed.expires 7) armed.timerJiffies, now)] ∧
            max (armed.expires 7) armed.timerJiffies ≤ now ∧ last.pending 7 = false ∧
            ∀ head, 7 ∉ last.lists head) := by
  refine ⟨_, _, _, rfl, rfl, by decide, ?_⟩
  have start : Reachable (step plainConfig) (initTimersCpu 0 fun _ => 0)
    (initTimersCpu 0 fun _ => 0) := ⟨[], [], rfl⟩
  exact armed_called_once start (show step plainConfig _ (.modTimer 7 2) = _ from rfl)
    List.mem_cons_self (by decide) (by decide)
    (show run (step plainConfig) _ threeTurns = _ from rfl) ⟨by decide, by decide⟩

end StudyNotes.Timer
