/-
This file proves when the loop that transmits bytes ends.

The loop goes on until the holding register is empty, and takes a new byte only
when it does not try the last one again. In loopback mode a byte is received and
the count of the tries stays as it is. So the loop does not end when the guest
turns loopback on while a byte waits for another try and a second one is in the
holding register. In all other cases every turn takes a byte from the queue.
-/

import StudyNotes.Library.Machine
import StudyNotes.Serial.Uart

namespace StudyNotes.Serial

open Library

/-! ### Flags -/

theorem has_or (register bits flag : BitVec 8) :
    has (register ||| bits) flag = (has register flag || has bits flag) := by
  rw [has, has, has, BitVec.and_or_distrib_right]
  simp [BitVec.or_eq_zero_iff]

theorem has_and (register mask flag : BitVec 8) :
    has (register &&& mask) flag = has register (mask &&& flag) := by
  rw [has, has, BitVec.and_assoc]

variable (register : BitVec 8)

theorem has_fcrFe : has register fcrFe = register.getLsbD 0 := by
  rw [has, show fcrFe = 1#8 from rfl, BitVec.and_one_eq_setWidth_ofBool_getLsbD]
  cases register.getLsbD 0 <;> rfl

theorem has_or_lsrThre : has (register ||| lsrThre) lsrThre = true := by
  rw [has_or, show has lsrThre lsrThre = true from rfl, Bool.or_true]

theorem has_or_lsrTemt : has (register ||| lsrTemt) lsrThre = has register lsrThre := by
  rw [has_or, show has lsrTemt lsrThre = false from rfl, Bool.or_false]

theorem has_clear_lsrThre : has (register &&& ~~~lsrThre &&& ~~~lsrTemt) lsrThre = false := by
  rw [has_and, has_and, show ~~~lsrThre &&& (~~~lsrTemt &&& lsrThre) = 0#8 from rfl, has,
    BitVec.and_zero]
  rfl

/-! ### The transmitter -/

/-- What the transmitter goes by. -/
structure Transmitter where
  retry : Int
  loopback : Bool
  queues : Bool
  queued : Nat
  thre : Bool
  watch : Bool

def SerialState.transmitter (s : SerialState) : Transmitter where
  retry := s.tsrRetry
  loopback := has s.mcr mcrLoop
  queues := has s.fcr fcrFe
  queued := s.xmitFifo.length
  thre := has s.lsr lsrThre
  watch := s.watch

/-- The functions that are not part of the source leave the transmitter alone, but for the register
that is set. -/
structure LeavesTransmitter (missing : Missing) : Prop where
  updateIrq : ∀ s, (missing.updateIrq s).transmitter = s.transmitter
  updateParameters : ∀ s, (missing.updateParameters s).transmitter = s.transmitter
  updateMsl : ∀ s, (missing.updateMsl s).transmitter = s.transmitter
  receive1 : ∀ s byte, (missing.receive1 s byte).transmitter = s.transmitter
  writeFcr : ∀ s val, (missing.writeFcr s val).transmitter = { s with fcr := val }.transmitter

variable (t : Transmitter)

/-- The holding register counts as empty when the queue is. -/
def Transmitter.Tidy : Prop := t.queues = true → t.queued = 0 → t.thre = true

/-- There is a byte for the next turn, if it takes one. -/
def Transmitter.Supplied : Prop := t.retry ≤ 0 → t.queues = true → 0 < t.queued

/-- Loopback is on, a byte waits for another try, and there is one behind it. -/
def Transmitter.Stuck : Prop :=
  t.loopback = true ∧ 0 < t.retry ∧ t.thre = false

/-- The transmitter with one byte less. -/
def Transmitter.load : Transmitter :=
  { t with
    queued := if t.queues then t.queued - 1 else t.queued
    thre := t.thre || !t.queues || t.queued == 1 }

variable {t} {missing : Missing} {backend : Backend} {s : SerialState}

/-! ### Views -/

/-- A view of the port in which the interrupts and the parameters of the line do not show. -/
structure Unseen (missing : Missing) {View : Type} (view : SerialState → View) : Prop where
  updateIrq : ∀ s, view (missing.updateIrq s) = view s
  updateParameters : ∀ s, view (missing.updateParameters s) = view s
  updateMsl : ∀ s, view (missing.updateMsl s) = view s
  divider : ∀ s divider, view { s with divider := divider } = view s
  ier : ∀ s ier, view { s with ier := ier } = view s
  lcr : ∀ s lcr, view { s with lcr := lcr } = view s
  pollMsl : ∀ s pollMsl, view { s with pollMsl := pollMsl } = view s
  thrIpending : ∀ s pending, view { s with thrIpending := pending } = view s
  lastBreakEnable : ∀ s enable, view { s with lastBreakEnable := enable } = view s

section Views

variable {View : Type} {view : SerialState → View}

theorem ite_view {condition : Prop} [Decidable condition] {s s' : SerialState}
    (same : view s' = view s) : view (if condition then s' else s) = view s := by
  split
  · exact same
  · rfl

section

variable (unseen : Unseen missing view)
include unseen

theorem pollModem_view (s : SerialState) : view (pollModem missing s) = view s := by
  rw [pollModem]
  split
  · exact (unseen.updateMsl _).trans (unseen.pollMsl s 1)
  · exact unseen.pollMsl s 0

theorem raiseThr_view (s : SerialState) : view (raiseThr missing s) = view s :=
  ite_view ((unseen.updateIrq _).trans (unseen.thrIpending s true))

theorem writeIer_view (val : BitVec 8) (s : SerialState) :
    view (writeIer missing val s) = view s := by
  rw [writeIer]
  split
  · exact (unseen.updateParameters _).trans (unseen.divider s _)
  · extract_lets changed enabled polled pending
    have isEnabled : view enabled = view s := unseen.ier s _
    have isPolled : view polled = view enabled := ite_view (pollModem_view unseen enabled)
    have isPending : view pending = view polled := ite_view (unseen.thrIpending polled _)
    exact (ite_view (unseen.updateIrq pending)).trans (isPending.trans (isPolled.trans isEnabled))

theorem writeLcr_view (val : BitVec 8) (s : SerialState) : view (writeLcr missing val s) = view s :=
  (unseen.lastBreakEnable _ _).trans ((unseen.updateParameters _).trans (unseen.lcr s val))

end

end Views

/-! ### One turn -/

theorem takeByte_transmitter (enough : s.transmitter.queues = true → 0 < s.transmitter.queued) :
    ∃ next, takeByte s = some next ∧ next.transmitter = s.transmitter.load := by
  rw [takeByte]
  cases queues : has s.fcr fcrFe with
  | false =>
    refine ⟨_, rfl, ?_⟩
    simp [SerialState.transmitter, Transmitter.load, queues, has_or_lsrThre]
  | true =>
    cases isFifo : s.xmitFifo with
    | nil =>
      have positive := enough queues
      simp [SerialState.transmitter, isFifo] at positive
    | cons byte rest =>
      refine ⟨_, rfl, ?_⟩
      cases rest with
      | nil =>
        simp [SerialState.transmitter, Transmitter.load, queues, isFifo, has_or_lsrThre]
      | cons other rest => simp [SerialState.transmitter, Transmitter.load, queues, isFifo]

/-- Where a turn of the loop starts, unless the loop is stuck. -/
structure Transmitter.Running (t : Transmitter) : Prop where
  tidy : t.Tidy
  supplied : t.Supplied
  notStuck : ¬ t.Stuck
  watch : t.watch = false

/-- Where a call ends: a watch is there only for another try. -/
structure Transmitter.Resting (t : Transmitter) : Prop where
  tidy : t.Tidy
  watch : t.watch = true → 0 < t.retry

/-- The bytes that are left. -/
def Transmitter.left (t : Transmitter) : Nat := t.queued + if 0 < t.retry then 1 else 0

/-- What a turn does from where it starts. -/
def TurnFrom (t : Transmitter) (turn : Turn (SerialState × Nat) SerialState) : Prop :=
  (∃ next, turn = .again next ∧ next.1.transmitter.Running ∧ next.1.transmitter.left < t.left) ∨
    ∃ result, turn = .done result ∧ result.transmitter.Resting

/-- The loop goes on with fewer bytes, or the holding register is empty. -/
theorem loopEnd_turnFrom (tidy : s.transmitter.Tidy) (watch : s.transmitter.watch = false)
    (fewer : s.transmitter.thre = false → s.transmitter.retry ≤ 0 ∧ s.transmitter.left < t.left)
    (asked : Nat) : TurnFrom t (loopEnd backend asked s) := by
  rw [loopEnd]
  cases thre : has s.lsr lsrThre with
  | true =>
    refine .inr ⟨_, rfl, ?_⟩
    have same : { s with
        lastXmitTs := backend.now
        lsr := s.lsr ||| lsrTemt : SerialState }.transmitter = s.transmitter := by
      simp only [SerialState.transmitter, has_or_lsrTemt]
    rw [same]
    exact ⟨tidy, fun isWatched => by cases watch.symm.trans isWatched⟩
  | false =>
    obtain ⟨noRetry, isLess⟩ := fewer thre
    refine .inl ⟨(s, asked), rfl, ⟨tidy, fun _ queues => ?_, fun stuck => ?_, watch⟩, isLess⟩
    · refine Nat.pos_of_ne_zero fun empty => ?_
      cases (tidy queues empty).symm.trans thre
    · exact absurd stuck.2.1 (Int.not_lt.mpr noRetry)

/-- With enough turns a call has a result, always the same one, and the transmitter rests. -/
def Settles (call : Nat → Option SerialState) : Prop :=
  ∃ fuel result, call fuel = some result ∧ result.transmitter.Resting ∧
    ∀ fuel' other, call fuel' = some other → other = result

theorem settles_of_some (resting : s.transmitter.Resting) : Settles fun _ => some s :=
  ⟨0, s, rfl, resting, fun _ _ same => (Option.some.inj same).symm⟩

theorem clearReceiver_transmitter (val : BitVec 8) (s : SerialState) :
    (clearReceiver val s).transmitter = s.transmitter := by
  refine ite_view ?_
  simp only [SerialState.transmitter, has_and]
  rfl

/-- Without a flush the queues are on or off as they were. -/
theorem has_fcrFe_of_not_flushed {val fcr : BitVec 8}
    (noFlush : has (flushIfToggled val fcr) fcrXfr = false) :
    has (flushIfToggled val fcr &&& 0xc9) fcrFe = has fcr fcrFe := by
  rw [flushIfToggled] at noFlush ⊢
  split at noFlush
  · rw [has_or, show has (fcrXfr ||| fcrRfr) fcrXfr = true from rfl, Bool.or_true] at noFlush
    cases noFlush
  · next same =>
    rw [Bool.not_eq_true, has_fcrFe, BitVec.getLsbD_xor] at same
    rw [if_neg, has_and, show (0xc9 : BitVec 8) &&& fcrFe = fcrFe from rfl, has_fcrFe, has_fcrFe]
    · simpa using same
    · rw [has_fcrFe, BitVec.getLsbD_xor, same]
      exact Bool.false_ne_true

/-- The queue has room for a byte, once the oldest is gone. -/
theorem pushByte_transmitter (room : 0 < missing.fifoLength) (s : SerialState) :
    ∃ next queued, pushByte missing s = some next ∧
      next.transmitter = { s.transmitter with queued := queued } ∧
      (s.transmitter.queues = true → 0 < queued) := by
  rw [pushByte]
  split
  · have fits : ∃ fifo, ((if s.xmitFifo.length = missing.fifoLength then
        (fifo8Pop s.xmitFifo).map Prod.snd else some s.xmitFifo).bind fun fifo =>
          fifo8Push missing.fifoLength fifo s.thr) = some (fifo ++ [s.thr]) := by
      split
      · next full =>
        cases isFifo : s.xmitFifo with
        | nil =>
          rw [isFifo, List.length_nil] at full
          omega
        | cons byte rest =>
          rw [isFifo, List.length_cons] at full
          have room : rest.length ≠ missing.fifoLength := by omega
          exact ⟨rest, if_neg room⟩
      · next notFull => exact ⟨s.xmitFifo, if_neg notFull⟩
    obtain ⟨fifo, isFifo⟩ := fits
    rw [isFifo]
    exact ⟨_, _, rfl, rfl, fun _ => List.length_pos_of_ne_nil (List.concat_ne_nil s.thr fifo)⟩
  · next noQueues =>
    exact ⟨s, _, rfl, rfl, fun queues => absurd queues noQueues⟩

section

variable (leaves : LeavesTransmitter missing)
include leaves

theorem LeavesTransmitter.unseen :
    Unseen missing SerialState.transmitter where
  updateIrq := leaves.updateIrq
  updateParameters := leaves.updateParameters
  updateMsl := leaves.updateMsl
  divider _ _ := rfl
  ier _ _ := rfl
  lcr _ _ := rfl
  pollMsl _ _ := rfl
  thrIpending _ _ := rfl
  lastBreakEnable _ _ := rfl

theorem sendByte_turnFrom (tidy : s.transmitter.Tidy)
    (watch : s.transmitter.watch = false) (notStuck : ¬ s.transmitter.Stuck)
    (fewer : s.transmitter.thre = false → s.transmitter.queued < t.left) (asked : Nat) :
    TurnFrom t (sendByte missing backend asked s) := by
  have given : ∀ asked, TurnFrom t (loopEnd backend asked { s with tsrRetry := 0 }) := by
    refine loopEnd_turnFrom tidy watch fun thre => ⟨Int.le_refl 0, ?_⟩
    exact fewer thre
  rw [sendByte]
  split
  · next loopback =>
    refine loopEnd_turnFrom ?_ ?_ ?_ asked
    · rw [leaves.receive1]
      exact tidy
    · rw [leaves.receive1]
      exact watch
    · rw [leaves.receive1]
      intro thre
      have noRetry : ¬ 0 < s.transmitter.retry := fun retry => notStuck ⟨loopback, retry, thre⟩
      refine ⟨Int.not_lt.mp noRetry, ?_⟩
      rw [Transmitter.left, if_neg noRetry, Nat.add_zero]
      exact fewer thre
  · split
    · exact given (asked + 1)
    · split
      · next again =>
        exact .inr ⟨_, rfl, tidy, fun _ => Int.lt_add_one_of_le again.1⟩
      · exact given (asked + 1)

theorem xmitTurn_turnFrom (running : s.transmitter.Running) (asked : Nat) :
    ∃ turn, xmitTurn missing backend (s, asked) = some turn ∧ TurnFrom s.transmitter turn := by
  rw [xmitTurn]
  split
  · next fresh =>
    obtain ⟨loaded, taken, isLoad⟩ := takeByte_transmitter (running.supplied fresh)
    have same := (raiseThr_view leaves.unseen loaded).trans isLoad
    rw [taken]
    refine ⟨_, rfl, sendByte_turnFrom leaves ?_ ?_ ?_ ?_ asked⟩
    all_goals rw [same]
    · intro queues
      have positive := running.supplied fresh queues
      simp only [Transmitter.load, show s.transmitter.queues = true from queues, if_true]
      intro empty
      simp [show s.transmitter.queued = 1 by omega]
    · exact running.watch
    · exact fun stuck => absurd stuck.2.1 (Int.not_lt.mpr fresh)
    · intro thre
      simp only [Transmitter.load, Bool.or_eq_false_iff, Bool.not_eq_false'] at thre
      have positive := running.supplied fresh thre.1.2
      simp only [Transmitter.load, Transmitter.left, thre.1.2, if_true]
      omega
  · next waiting =>
    refine ⟨_, rfl, sendByte_turnFrom leaves running.tidy running.watch running.notStuck ?_ asked⟩
    intro _
    have retry : 0 < s.transmitter.retry := Int.not_le.mp waiting
    rw [Transmitter.left, if_pos retry]
    exact Nat.lt_succ_self _

/-! ### A call -/

/-- A call that is not stuck returns. -/
theorem serialXmit_settles
    (running : s.transmitter.Running) : Settles fun fuel => serialXmit missing backend fuel s := by
  have turns : ∀ state : SerialState × Nat, state.1.transmitter.Running →
      (∃ next, xmitTurn missing backend state = some (.again next) ∧
        next.1.transmitter.Running ∧ next.1.transmitter.left < state.1.transmitter.left) ∨
      ∃ result, xmitTurn missing backend state = some (.done result) ∧
        result.transmitter.Resting := by
    rintro ⟨s, asked⟩ running
    obtain ⟨turn, isTurn, ⟨next, rfl, kept⟩ | ⟨result, rfl, resting⟩⟩ :=
      xmitTurn_turnFrom leaves running asked
    · exact .inl ⟨next, isTurn, kept⟩
    · exact .inr ⟨result, isTurn, resting⟩
  have start : ((s, 0) : SerialState × Nat).1.transmitter.Running := running
  obtain ⟨result, returned, resting⟩ :=
    loop_returns (fun state : SerialState × Nat => state.1.transmitter.Running)
      (fun result : SerialState => result.transmitter.Resting)
      (fun state => state.1.transmitter.left) turns start (Nat.lt_succ_self _)
  exact ⟨_, result, returned, resting, fun _ _ returned' => loop_unique returned' returned⟩

/-- A call that is stuck does not return: a turn receives a byte and changes nothing else. -/
theorem serialXmit_stuck
    (stuck : s.transmitter.Stuck) : ¬ Returns (xmitTurn missing backend) (s, 0) := by
  refine not_returns_of_invariant (fun state => state.1.transmitter.Stuck) ?_ stuck
  rintro ⟨s, asked⟩ stuck
  have received : (missing.receive1 s s.tsr).transmitter.Stuck := by
    rw [leaves.receive1]
    exact stuck
  refine ⟨(missing.receive1 s s.tsr, asked), ?_, received⟩
  have thre : has (missing.receive1 s s.tsr).lsr lsrThre = false := received.2.2
  have loopback : has s.mcr mcrLoop = true := stuck.1
  have waiting : ¬ s.tsrRetry ≤ 0 := Int.not_le.mpr stuck.2.1
  rw [GoesTo, xmitTurn, if_neg waiting, Option.map_some, sendByte, if_pos loopback, loopEnd, thre]
  rfl

/-! ### Register writes -/

/-- The queues are emptied when they are turned on or off. -/
theorem writeFcr_resting (resting : s.transmitter.Resting) (val : BitVec 8) :
    (writeFcr missing val s).transmitter.Resting := by
  have received := clearReceiver_transmitter (flushIfToggled val s.fcr) s
  rw [← received] at resting
  rw [writeFcr, leaves.updateIrq, leaves.writeFcr, clearTransmitter]
  split
  · exact ⟨fun _ _ => has_or_lsrThre _, resting.watch⟩
  · next noFlush =>
    refine ⟨fun queues empty => resting.tidy ?_ empty, resting.watch⟩
    have same := has_fcrFe_of_not_flushed (Bool.not_eq_true _ ▸ noFlush)
    rw [received]
    exact same.symm.trans queues

/-- A byte for the transmitter: the call that it makes, if it makes one, returns. -/
theorem writeThr_settles (room : 0 < missing.fifoLength)
    (resting : s.transmitter.Resting) (val : BitVec 8) :
    Settles fun fuel => writeThr missing backend fuel val s := by
  simp only [writeThr]
  split
  · refine settles_of_some ?_
    rw [leaves.updateParameters]
    exact resting
  · obtain ⟨pushed, queued, isPushed, same, supplied⟩ :=
      pushByte_transmitter room { s with thr := val }
    simp only [isPushed, Option.bind_some]
    generalize isCleared : missing.updateIrq { pushed with
      thrIpending := false
      lsr := pushed.lsr &&& ~~~lsrThre &&& ~~~lsrTemt } = cleared
    have transmitter : cleared.transmitter =
        { s.transmitter with queued := queued, thre := false } := by
      rw [← isCleared, leaves.updateIrq, SerialState.transmitter, has_clear_lsrThre]
      exact congrArg (fun t : Transmitter => { t with thre := false }) same
    have tidy : cleared.transmitter.Tidy := by
      rw [transmitter]
      exact fun queues empty => absurd empty (Nat.ne_of_gt (supplied queues))
    split
    · next fresh =>
      have retry : s.transmitter.retry ≤ 0 := by
        rw [← show cleared.tsrRetry = s.transmitter.retry from
          congrArg Transmitter.retry transmitter]
        exact fresh
      refine serialXmit_settles leaves ⟨tidy, ?_, ?_, ?_⟩
      all_goals rw [transmitter]
      · exact fun _ queues => supplied queues
      · exact fun stuck => absurd stuck.2.1 (Int.not_lt.mpr retry)
      · cases watch : s.transmitter.watch with
        | false => rfl
        | true => exact absurd (resting.watch watch) (Int.not_lt.mpr retry)
    · refine settles_of_some ⟨tidy, ?_⟩
      rw [transmitter]
      exact resting.watch

/-! ### Runs -/

/-- What happens to the port: a write of the guest, or the backend's watch. -/
inductive Action where
  | write (addr : BitVec 64) (val : BitVec 8) (backend : Backend)
  | watch (backend : Backend)

/-- What an action does, when its loop gets some number of turns. A watch is called once. -/
def act (missing : Missing) (fuel : Nat) (s : SerialState) : Action → Option SerialState
  | .write addr val backend => serialIoportWrite missing backend fuel addr val s
  | .watch backend =>
    if s.watch then serialXmit missing backend fuel { s with watch := false } else none

def step (missing : Missing) (s : SerialState) (action : Action × Nat) :
    Option (SerialState × List Unit) :=
  (act missing action.2 s action.1).map fun next => (next, [])

/-- The action comes to its end. -/
def Completes (missing : Missing) (s : SerialState) (action : Action) : Prop :=
  ∃ fuel result, act missing fuel s action = some result

/-- The port after a reset. -/
structure IsReset (s : SerialState) : Prop where
  lsr : has s.lsr lsrThre = true
  tsrRetry : s.tsrRetry = 0
  watch : s.watch = false

/-- A watch comes while loopback is on and a byte is in the holding register. -/
def Action.Hangs (s : SerialState) : Action → Prop
  | .write _ _ _ => False
  | .watch _ => has s.mcr mcrLoop = true ∧ has s.lsr lsrThre = false

theorem serialIoportWrite_settles (room : 0 < missing.fifoLength) (resting : s.transmitter.Resting)
    (addr : BitVec 64) (val : BitVec 8) :
    Settles fun fuel => serialIoportWrite missing backend fuel addr val s := by
  unfold serialIoportWrite
  split
  · refine settles_of_some ?_
    rw [writeIer_view leaves.unseen]
    exact resting
  · exact settles_of_some (writeFcr_resting leaves resting val)
  · refine settles_of_some ?_
    rw [writeLcr_view leaves.unseen]
    exact resting
  · exact settles_of_some ⟨resting.tidy, resting.watch⟩
  · exact settles_of_some resting
  · exact settles_of_some resting
  · exact settles_of_some ⟨resting.tidy, resting.watch⟩
  · exact writeThr_settles leaves room resting val

variable {action : Action}

/-- From a transmitter at rest an action that can happen comes to its end, unless it hangs. -/
theorem act_settles (room : 0 < missing.fifoLength) (resting : s.transmitter.Resting)
    (possible : ∀ backend, action = .watch backend → s.watch = true) (ends : ¬ action.Hangs s) :
    Settles fun fuel => act missing fuel s action := by
  cases action with
  | write addr val backend => exact serialIoportWrite_settles leaves room resting addr val
  | watch backend =>
    have watch := possible backend rfl
    have retry : 0 < s.transmitter.retry := resting.watch watch
    simp only [act, watch, if_true]
    refine serialXmit_settles leaves ⟨resting.tidy, fun noRetry => ?_, fun stuck => ?_, rfl⟩
    · exact absurd retry (Int.not_lt.mpr noRetry)
    · exact ends ⟨stuck.1, stuck.2.2⟩

theorem act_hangs (resting : s.transmitter.Resting) (hangs : action.Hangs s) :
    ¬ Completes missing s action := by
  rintro ⟨fuel, result, returned⟩
  cases action with
  | write addr val backend => exact hangs
  | watch backend =>
    obtain ⟨watch, returned⟩ := Option.ite_none_right_eq_some.mp returned
    exact serialXmit_stuck leaves (s := { s with watch := false })
      ⟨hangs.1, resting.watch watch, hangs.2⟩ ⟨fuel, result, returned⟩

theorem step_resting (room : 0 < missing.fifoLength)
    {s next : SerialState} (resting : s.transmitter.Resting) {action : Action × Nat}
    {events : List Unit} (taken : step missing s action = some (next, events)) :
    next.transmitter.Resting := by
  obtain ⟨result, returned, isNext⟩ := Option.map_eq_some_iff.mp taken
  obtain rfl : result = next := (Prod.mk.inj isNext).1
  have ends : ¬ action.1.Hangs s := fun hangs =>
    act_hangs leaves resting hangs ⟨action.2, result, returned⟩
  have possible : ∀ backend, action.1 = .watch backend → s.watch = true := by
    intro backend isWatch
    rw [isWatch] at returned
    exact (Option.ite_none_right_eq_some.mp returned).1
  obtain ⟨_, _, _, rests, unique⟩ := act_settles leaves room resting possible ends
  rw [unique action.2 result returned]
  exact rests

end

/--
In every state that writes of the guest and calls of the watch can lead to, an
action comes to its end exactly when it is not a call of the watch with loopback
on and a byte in the holding register.
-/
theorem completes_iff (leaves : LeavesTransmitter missing) (room : 0 < missing.fifoLength)
    {start s : SerialState} (isReset : IsReset start) (reachable : Reachable (step missing) start s)
    {action : Action} (possible : ∀ backend, action = .watch backend → s.watch = true) :
    Completes missing s action ↔ ¬ action.Hangs s := by
  have resting : s.transmitter.Resting := by
    refine Reachable.invariant (fun s => s.transmitter.Resting)
      (fun _ _ _ _ resting taken => step_resting leaves room resting taken) ?_ reachable
    exact ⟨fun _ _ => isReset.lsr, fun watch => by cases isReset.watch.symm.trans watch⟩
  constructor
  · exact fun completes hangs => act_hangs leaves resting hangs completes
  · intro ends
    obtain ⟨fuel, result, returned, -⟩ := act_settles leaves room resting possible ends
    exact ⟨fuel, result, returned⟩

/-! ### A port with a backend that is busy -/

/-- A port without interrupts; the receiver keeps the last byte. -/
def plainPort : Missing where
  updateIrq := id
  updateParameters := id
  updateMsl := id
  receive1 s byte := { s with recvFifo := [byte], lsr := s.lsr ||| lsrDr }
  writeFcr s val := { s with fcr := val }
  fifoLength := 16
  maxXmitRetry := 4

theorem plainPort_leaves : LeavesTransmitter plainPort where
  updateIrq _ := rfl
  updateParameters _ := rfl
  updateMsl _ := rfl
  receive1 s byte := by
    simp only [plainPort, SerialState.transmitter, has_or, show has lsrDr lsrThre = false from rfl,
      Bool.or_false]
  writeFcr _ _ := rfl

def idlePort : SerialState where
  divider := 0x0c
  thr := 0
  tsr := 0
  ier := 0
  lcr := 0
  mcr := 0x08
  lsr := 0x60
  scr := 0
  fcr := 0
  thrIpending := false
  timeoutIpending := false
  lastBreakEnable := false
  pollMsl := 0
  tsrRetry := 0
  recvFifo := []
  xmitFifo := []
  lastXmitTs := 0
  watch := false

theorem idlePort_isReset : IsReset idlePort := ⟨rfl, rfl, rfl⟩

/-- A backend that takes nothing and can call back. -/
def busyBackend : Backend where
  accepts _ := false
  watches _ := true
  now := 0

/-- A backend that takes everything. -/
def freeBackend : Backend where
  accepts _ := true
  watches _ := false
  now := 0

/-- Two bytes, of which the first waits for the backend and the second for the first. -/
def twoBytes : List (Action × Nat) :=
  [(.write 0 0x41 busyBackend, 1), (.write 0 0x42 busyBackend, 0)]

/-- Without loopback both bytes are transmitted when the watch is called. -/
theorem completes_twoBytes :
    ∃ s events, run (step plainPort) idlePort twoBytes = some (s, events) ∧ s.watch = true ∧
      has s.lsr lsrThre = false ∧ Completes plainPort s (.watch freeBackend) := by
  refine exists_run_of_any (fun result =>
      result.1.watch && !has result.1.lsr lsrThre && !has result.1.mcr mcrLoop)
    (by decide +kernel) fun s events ran found => ?_
  simp only [Bool.and_eq_true, Bool.not_eq_true'] at found
  obtain ⟨⟨watch, thre⟩, noLoop⟩ := found
  refine ⟨watch, thre, ?_⟩
  refine (completes_iff plainPort_leaves (by decide) idlePort_isReset ⟨twoBytes, events, ran⟩
    fun _ _ => watch).mpr fun hangs => ?_
  cases hangs.1.symm.trans noLoop

/-- The guest turns loopback on before the watch is called: the call does not return. -/
theorem loopback_hangs :
    ∃ s events, run (step plainPort) idlePort (twoBytes ++ [(.write 4 0x10 freeBackend, 0)]) =
        some (s, events) ∧ s.watch = true ∧ ¬ Completes plainPort s (.watch freeBackend) := by
  refine exists_run_of_any (fun result => result.1.watch && decide (0 < result.1.tsrRetry) &&
      !has result.1.lsr lsrThre && has result.1.mcr mcrLoop)
    (by decide +kernel) fun s events _ found => ?_
  simp only [Bool.and_eq_true, Bool.not_eq_true', decide_eq_true_eq] at found
  obtain ⟨⟨⟨watch, retry⟩, thre⟩, loopback⟩ := found
  refine ⟨watch, ?_⟩
  rintro ⟨fuel, result, returned⟩
  have returned := (Option.ite_none_right_eq_some.mp returned).2
  exact serialXmit_stuck plainPort_leaves (s := { s with watch := false })
    ⟨loopback, retry, thre⟩ ⟨fuel, result, returned⟩

end StudyNotes.Serial
