/-
This file proves that one turn of the outer loop of `__run_timers` keeps the
wheel in order.

A wheel is in order when every pending timer is on one list, once, and may be
there. Adding timers to lists appends to each list those that choose it, so a
cascade is described list by list. The levels are cascaded from the lowest one
up to the first one whose index is not zero; for the levels after that the tick
is not the start of a block, so nothing in them is due to be moved.
-/

import StudyNotes.Timer.Slots

namespace StudyNotes.Timer

open Library Function

/-! ### Lists -/

/-- A timer is on one list, once. -/
structure Listed (lists : ListHead → List Nat) (timer : Nat) (head : ListHead) : Prop where
  once : (lists head).count timer = 1
  elsewhere : ∀ other, other ≠ head → timer ∉ lists other

section

variable {lists lists' : ListHead → List Nat} {timer : Nat} {head slot : ListHead}

theorem listed_iff_count : Listed lists timer head ↔
    ∀ other, (lists other).count timer = if other = head then 1 else 0 := by
  constructor
  · intro listed other
    split
    next same => rw [same, listed.once]
    next differs => exact List.count_eq_zero_of_not_mem (listed.elsewhere other differs)
  · intro count
    refine ⟨(count head).trans (if_pos rfl), fun other differs => ?_⟩
    exact List.count_eq_zero.mp ((count other).trans (if_neg differs))

variable (listed : Listed lists timer head)
include listed

theorem Listed.mem : timer ∈ lists head := by
  have once := listed.once
  exact List.count_pos_iff.mp (by omega)

theorem Listed.eq_of_mem {other : ListHead} (member : timer ∈ lists other) : other = head := by
  by_contra differs
  exact listed.elsewhere other differs member

theorem Listed.of_count (same : ∀ other, (lists' other).count timer = (lists other).count timer) :
    Listed lists' timer head :=
  listed_iff_count.mpr fun other => (same other).trans (listed_iff_count.mp listed other)

/-- The list of a timer after all timers of a slot have chosen a list anew. -/
theorem Listed.choose {choice : Nat → ListHead}
    (chosen : ∀ other, lists' other =
      (if other = slot then [] else lists other) ++
        (lists slot).filter fun timer => choice timer = other) :
    Listed lists' timer (if head = slot then choice timer else head) := by
  rw [listed_iff_count] at listed ⊢
  intro other
  have moved : ((lists slot).filter fun timer => choice timer = other).count timer =
      if choice timer = other then (lists slot).count timer else 0 := by
    split
    next same => exact List.count_filter (by simp [same])
    next differs => exact List.count_eq_zero_of_not_mem (by simp [differs])
  rw [chosen, List.count_append, moved, listed slot, apply_ite (List.count timer), listed other]
  grind

/-- The list of a timer after the work list has taken over a slot. -/
theorem Listed.takeOver (notWork : head ≠ .workList) :
    Listed (update (update lists .workList (lists slot)) slot []) timer
      (if head = slot then .workList else head) := by
  rw [listed_iff_count] at listed ⊢
  intro other
  have atSlot := listed slot
  have atOther := listed other
  simp only [update_apply]
  grind

end

/-- A pending timer is on one list and may be there; no other timer is on a list. -/
def Settled (config : Config) (low : Nat → Int) (tick : Option Int) (due : Nat → Int)
    (state : State) (timer : Nat) : Prop :=
  if state.pending timer then
    ∃ head, Listed state.lists timer head ∧
      Sits config state.timerJiffies low tick (due timer) (state.expires timer) head
  else ∀ head, timer ∉ state.lists head

section Wheel

variable {config : Config} {low low' : Nat → Int} {tick : Option Int} {due : Nat → Int}
  {state state' : State} {timer m n index : Nat} {head : ListHead} {now expires : Int}

section

variable (settled : Settled config low tick due state timer)
include settled

theorem Settled.pending_of_mem (member : timer ∈ state.lists head) :
    state.pending timer = true := by
  unfold Settled at settled
  split at settled
  next isPending => exact isPending
  next => exact absurd member (settled head)

theorem Settled.listed (isPending : state.pending timer = true) :
    ∃ head, Listed state.lists timer head ∧
      Sits config state.timerJiffies low tick (due timer) (state.expires timer) head := by
  rwa [Settled, if_pos isPending] at settled

theorem Settled.absent
    (notPending : state.pending timer = false) (head : ListHead) : timer ∉ state.lists head := by
  rw [Settled, if_neg (by simp [notPending])] at settled
  exact settled head

end

/-- A timer settles anew where it is listed as before or elsewhere. -/
theorem Settled.move {tick' : Option Int} (settled : Settled config low tick due state timer)
    (pending : state'.pending timer = state.pending timer)
    (absent : state.pending timer = false → ∀ head, timer ∉ state'.lists head)
    (moved : ∀ head, state.pending timer = true → Listed state.lists timer head →
      Sits config state.timerJiffies low tick (due timer) (state.expires timer) head →
      ∃ head', Listed state'.lists timer head' ∧
        Sits config state'.timerJiffies low' tick' (due timer) (state'.expires timer) head') :
    Settled config low' tick' due state' timer := by
  unfold Settled
  split
  next isPending =>
    rw [pending] at isPending
    obtain ⟨head, listed, sits⟩ := settled.listed isPending
    exact moved head isPending listed sits
  next notPending =>
    rw [pending, Bool.not_eq_true] at notPending
    exact absent notPending

/-! ### Levels -/

/-- The levels from 2 to `m - 1` have been cascaded at `now`. -/
def lowUpTo (now : Int) (m n : Nat) : Int := if 2 ≤ n ∧ n < m then now + 1 else now

theorem lowUpTo_le (now : Int) (m n : Nat) : lowUpTo now m n ≤ if n = 1 then now else now + 1 := by
  unfold lowUpTo
  split <;> split <;> omega

theorem le_lowUpTo (now : Int) (m n : Nat) : now ≤ lowUpTo now m n := by
  unfold lowUpTo
  split <;> omega

theorem lowUpTo_self (now : Int) (m : Nat) : lowUpTo now m m = now := if_neg (by omega)

theorem Waits.mono {low low' due : Int} (waits : Waits config now low due expires n index)
    (le : low' ≤ low) : Waits config now low' due expires n index := by
  obtain ⟨block, isIndex, after, before⟩ := waits.block
  exact { waits with block := ⟨block, isIndex, by omega, before⟩ }

theorem Sits.mono {due : Int} (sits : Sits config now low tick due expires head)
    (le : ∀ n, low' n ≤ low n) : Sits config now low' tick due expires head := by
  cases head with
  | workList => exact sits
  | tv n index =>
    rcases sits with ⟨isRoot, after, before, isIndex⟩ | waits
    · exact .inl ⟨isRoot, Int.le_trans (le 1) after, before, isIndex⟩
    · exact .inr (waits.mono (le n))

theorem span_dvd {m n : Nat} (le : m ≤ n) : config.span m ∣ config.span n := by
  refine pow_dvd_pow 2 (Nat.add_le_add_left (Nat.mul_le_mul_right _ ?_) _)
  omega

/-- A slot that is not cascaded at `now` is cascaded later. -/
theorem Waits.later {due : Int} (waits : Waits config now now due expires n index)
    (differs : now % config.span n ≠ 0 ∨ index ≠ slotIndex config now (n - 2)) :
    Waits config now (now + 1) due expires n index := by
  obtain ⟨block, isIndex, after, before⟩ := waits.block
  refine { waits with block := ⟨block, isIndex, ?_, before⟩ }
  by_contra early
  have start : now = block * config.span n := by omega
  have pos := config.span_pos n
  rcases differs with notStart | otherSlot
  · exact notStart (by rw [start, Int.mul_emod_left])
  · have slot := slotIndex_eq config now waits.two_le waits.le_five
    have isBlock : now / config.span n = block := by rw [start, Int.mul_ediv_cancel _ pos.ne']
    rw [isBlock, ← isIndex] at slot
    exact otherSlot (Int.ofNat_inj.mp slot).symm

/-- What waits is not due before `now`. -/
theorem Waits.le_due {low due : Int} (waits : Waits config now low due expires n index) :
    low ≤ due := by
  obtain ⟨block, -, after, before⟩ := waits.block
  omega

/-! ### Cascading -/

/-- Adding timers one after the other appends to each list those that choose it. -/
theorem foldl_rawInternalAddTimer (config : Config) (timers : List Nat) (state : State) :
    timers.foldl (fun state timer => rawInternalAddTimer config timer state) state =
      { state with
        lists := fun head => state.lists head ++ timers.filter fun timer =>
          vecFor config (state.expires timer) state.timerJiffies = head
        pending := fun timer => state.pending timer || decide (timer ∈ timers) } := by
  induction timers generalizing state with
  | nil => simp
  | cons timer rest inductionHypothesis =>
    rw [List.foldl_cons, inductionHypothesis]
    simp only [rawInternalAddTimer, listAddTail]
    congr 1
    · funext head
      by_cases chosen : vecFor config (state.expires timer) state.timerJiffies = head
      · subst chosen
        simp
        rfl
      · simp [update_of_ne (Ne.symm chosen), chosen]
        rfl
    · funext other
      by_cases same : other = timer
      · simp [same]
      · simp [same]

/-- After a cascade the timers of the slot are where they choose to be. -/
theorem cascade_lists (config : Config) (n index : Nat) (state : State) (head : ListHead) :
    (cascade config n index state).2.lists head =
      (if head = .tv n index then [] else state.lists head) ++
        (state.lists (.tv n index)).filter fun timer =>
          vecFor config (state.expires timer) state.timerJiffies = head := by
  rw [cascade, foldl_rawInternalAddTimer]
  by_cases same : head = .tv n index
  · simp [same]
  · simp [same]

/-- A wheel where all timers are settled. -/
def Ordered (config : Config) (low : Nat → Int) (tick : Option Int) (due : Nat → Int)
    (state : State) : Prop :=
  ∀ timer, Settled config low tick due state timer

/-- A cascade changes the lists and nothing else. -/
theorem Ordered.cascade_eq (ordered : Ordered config low tick due state) (n index : Nat) :
    (cascade config n index state).2 =
      { state with lists := (cascade config n index state).2.lists } := by
  have same : (fun timer => state.pending timer || decide (timer ∈ state.lists (.tv n index))) =
      state.pending := by
    funext timer
    by_cases member : timer ∈ state.lists (.tv n index)
    · simp [(ordered timer).pending_of_mem member]
    · simp [member]
  rw [cascade, foldl_rawInternalAddTimer]
  simp only [same]

/-- The cascade of a level at the start of one of its blocks. -/
theorem Ordered.cascade (two_le : 2 ≤ m) (le_five : m ≤ 5)
    (ordered : Ordered config (lowUpTo state.timerJiffies m) tick due state) :
    Ordered config (lowUpTo state.timerJiffies (m + 1)) tick due
      (cascade config m (slotIndex config state.timerJiffies (m - 2)) state).2 := by
  intro timer
  have lists := cascade_lists config m (slotIndex config state.timerJiffies (m - 2)) state
  rw [ordered.cascade_eq]
  refine (ordered timer).move rfl (fun notPending head => ?_) fun head _ listed sits => ?_
  · have absent := (ordered timer).absent notPending
    simp only [lists]
    split <;> simp [absent]
  refine ⟨_, listed.choose lists, ?_⟩
  split
  next inSlot =>
    -- The timer chooses a slot anew, and is due at the same tick there.
    subst inSlot
    have isDue : dueAt (state.expires timer) state.timerJiffies = due timer := by
      rcases sits with ⟨isRoot, -⟩ | waits
      · omega
      · exact dueAt_of_same waits.same (Int.le_trans (le_lowUpTo _ _ _) waits.le_due) waits.half
    have chosen := vecFor_sits config (state.expires timer) state.timerJiffies tick
    rw [isDue] at chosen
    exact chosen.mono (lowUpTo_le _ _)
  next elsewhere =>
    cases head with
    | workList => exact sits
    | tv n index =>
      rcases sits with ⟨isRoot, root⟩ | waits
      · exact .inl ⟨isRoot, root⟩
      · refine .inr ?_
        by_cases isLevel : n = m
        · subst isLevel
          rw [lowUpTo_self] at waits
          have later := waits.later (.inr fun same => elsewhere (by rw [same]))
          exact later.mono ((lowUpTo_le _ _ _).trans (by split <;> omega))
        · refine waits.mono (le_of_eq ?_)
          unfold lowUpTo
          congr 2
          simp
          omega

/-- Where the tick is not the start of a block, nothing above is due to be moved. -/
theorem Ordered.skip (inside : state.timerJiffies % config.span m ≠ 0)
    (ordered : Ordered config (lowUpTo state.timerJiffies m) tick due state) :
    Ordered config (lowUpTo state.timerJiffies 6) tick due state := by
  intro timer
  refine (ordered timer).move rfl (ordered timer).absent fun head _ listed sits => ?_
  refine ⟨head, listed, ?_⟩
  cases head with
  | workList => exact sits
  | tv n index =>
    rcases sits with ⟨isRoot, root⟩ | waits
    · exact .inl ⟨isRoot, root⟩
    · refine .inr ?_
      by_cases below : n < m
      · refine waits.mono (le_of_eq ?_)
        have := waits.two_le
        have := waits.le_five
        rw [lowUpTo, lowUpTo, if_pos (by omega), if_pos (by omega)]
      · have isLow : lowUpTo state.timerJiffies m n = state.timerJiffies := if_neg (by omega)
        rw [isLow] at waits
        have notStart : state.timerJiffies % config.span n ≠ 0 := by
          intro start
          refine inside (Int.emod_eq_zero_of_dvd ?_)
          exact (span_dvd (Nat.le_of_not_lt below)).trans (Int.dvd_of_emod_eq_zero start)
        exact (waits.later (.inl notStart)).mono ((lowUpTo_le _ _ _).trans (by split <;> omega))

/-- The index of a level is zero exactly at the start of a block of the next one. -/
theorem slotIndex_eq_zero (two_le : 2 ≤ m) (le_five : m ≤ 5) (start : now % config.span m = 0) :
    slotIndex config now (m - 2) = 0 ↔ now % config.span (m + 1) = 0 := by
  have slot := slotIndex_eq config now two_le le_five
  obtain ⟨block, rfl⟩ := Int.dvd_of_emod_eq_zero start
  have pos := config.span_pos m
  rw [Int.mul_ediv_cancel_left _ pos.ne'] at slot
  rw [config.span_succ two_le, Int.mul_emod_mul_of_pos _ _ pos, ← slot]
  constructor
  · intro zero
    simp [zero]
  · intro zero
    have := (mul_eq_zero.mp zero).resolve_left pos.ne'
    omega

theorem rootIndex_eq_zero : rootIndex config now = 0 ↔ now % config.span 2 = 0 := by
  rw [← config.tvrSize_eq, ← rootIndex_eq]
  omega

/-- The levels below `m` have been cascaded, which changes the lists and nothing else. -/
structure Cascaded (config : Config) (tick : Option Int) (due : Nat → Int) (state : State)
    (m : Nat) (state' : State) : Prop where
  same : state' = { state with lists := state'.lists }
  ordered : Ordered config (lowUpTo state.timerJiffies m) tick due state'

section

variable (cascaded : Cascaded config tick due state m state')
include cascaded

theorem Cascaded.timerJiffies : state'.timerJiffies = state.timerJiffies := by
  rw [cascaded.same]

theorem Cascaded.next {next : State} (two_le : 2 ≤ m) (le_five : m ≤ 5)
    (start : state.timerJiffies % config.span m = 0)
    (isCascade : Timer.cascade config m (slotIndex config state'.timerJiffies (m - 2)) state' =
      (index, next)) :
    Cascaded config tick due state (m + 1) next ∧
      (index = 0 ↔ state.timerJiffies % config.span (m + 1) = 0) := by
  have now := cascaded.timerJiffies
  have before := cascaded.ordered
  rw [← now] at before
  have after := before.cascade two_le le_five
  have same := before.cascade_eq m (slotIndex config state'.timerJiffies (m - 2))
  rw [isCascade] at after same
  refine ⟨⟨?_, now ▸ after⟩, ?_⟩
  · exact same.trans (by rw [cascaded.same])
  · rw [← (Prod.mk.inj isCascade).1, now]
    exact slotIndex_eq_zero two_le le_five start

theorem Cascaded.skip (inside : state.timerJiffies % config.span m ≠ 0) :
    Cascaded config tick due state 6 state' := by
  have now := cascaded.timerJiffies
  refine ⟨cascaded.same, ?_⟩
  rw [← now] at inside ⊢
  exact Ordered.skip inside (now ▸ cascaded.ordered)

end

/-- The cascades at the start of a turn leave everything above `tv1` for later ticks. -/
theorem Ordered.cascadeTimers
    (ordered : Ordered config (fun _ => state.timerJiffies) tick due state) :
    Cascaded config tick due state 6 (cascadeTimers config state) := by
  have start : Cascaded config tick due state 2 state := by
    refine ⟨rfl, ?_⟩
    have same : lowUpTo state.timerJiffies 2 = fun _ => state.timerJiffies := by
      funext n
      exact if_neg (by omega)
    rwa [same]
  have zero2 : rootIndex config state.timerJiffies = 0 ↔ _ := rootIndex_eq_zero
  unfold Timer.cascadeTimers
  split
  next inside => exact start.skip (zero2.not.mp inside)
  next atZero =>
    split
    next index2 state2 isCascade2 =>
      have start2 := zero2.mp (not_not.mp atZero)
      obtain ⟨cascaded2, zero3⟩ := start.next (le_refl 2) (by decide) start2 isCascade2
      split
      next inside => exact cascaded2.skip (zero3.not.mp inside)
      next atZero =>
        split
        next index3 state3 isCascade3 =>
          have start3 := zero3.mp (not_not.mp atZero)
          obtain ⟨cascaded3, zero4⟩ := cascaded2.next (by decide) (by decide) start3 isCascade3
          split
          next inside => exact cascaded3.skip (zero4.not.mp inside)
          next atZero =>
            split
            next index4 state4 isCascade4 =>
              have start4 := zero4.mp (not_not.mp atZero)
              obtain ⟨cascaded4, zero5⟩ := cascaded3.next (by decide) (by decide) start4 isCascade4
              split
              next inside => exact cascaded4.skip (zero5.not.mp inside)
              next atZero =>
                have start5 := zero5.mp (not_not.mp atZero)
                exact (cascaded4.next (by decide) (le_refl 5) start5 rfl).1

/-! ### One turn of the outer loop -/

/-- The slot of the tick holds exactly what is due at the tick. -/
theorem Sits.takeTick {due : Int}
    (sits : Sits config now (lowUpTo now 6) none due expires (.tv n index)) :
    Sits config (now + 1) (fun _ => now + 1) (some now) due expires
      (if ListHead.tv n index = .tv 1 (rootIndex config now) then .workList else .tv n index) := by
  have slot := rootIndex_eq config now
  rcases sits with ⟨rfl, after, before, isIndex⟩ | waits
  · have low : now ≤ due := after
    by_cases isTick : due = now
    · subst isTick
      rw [← slot] at isIndex
      rw [if_pos (by rw [Int.ofNat_inj.mp isIndex])]
      exact rfl
    · -- `tv1` reaches no further than once around, so a later tick has another slot.
      rw [if_neg fun same => ?_]
      · exact .inl ⟨rfl, show now + 1 ≤ due by omega, by omega, isIndex⟩
      · rw [(ListHead.tv.inj same).2, slot] at isIndex
        exact isTick (eq_of_emod_eq low before isIndex).symm
  · have two_le := waits.two_le
    rw [if_neg fun same => absurd (ListHead.tv.inj same).1 (by omega)]
    have isLow : lowUpTo now 6 n = now + 1 := if_pos ⟨two_le, Nat.lt_succ_of_le waits.le_five⟩
    have half := waits.half
    exact .inr ⟨two_le, waits.le_five, waits.same, by omega, isLow ▸ waits.block⟩

/-- A turn makes the slot of its tick the work list, and leaves the rest for later ticks. -/
theorem Ordered.takeTick (ordered : Ordered config (fun _ => state.timerJiffies) none due state) :
    Ordered config (fun _ => state.timerJiffies + 1) (some state.timerJiffies) due
        (takeTick config state) ∧
      takeTick config state =
        { state with
          timerJiffies := state.timerJiffies + 1
          lists := (takeTick config state).lists
          phase := .working state.timerJiffies } := by
  obtain ⟨same, cascaded⟩ := ordered.cascadeTimers
  unfold Timer.takeTick
  generalize Timer.cascadeTimers config state = state' at *
  obtain ⟨lists, isState⟩ : ∃ lists, state' = { state with lists } := ⟨_, same⟩
  subst isState
  refine ⟨fun timer => ?_, rfl⟩
  refine (cascaded timer).move rfl (fun notPending head => ?_) fun head _ listed sits => ?_
  · have absent := (cascaded timer).absent notPending
    simp only [update_apply]
    split
    · exact List.not_mem_nil
    · split <;> exact absent _
  · cases head with
    | workList => cases sits
    | tv n index => exact ⟨_, listed.takeOver (by simp), Sits.takeTick sits⟩

end Wheel

end StudyNotes.Timer
