/-
This file proves when the vhost block device signals a guest about used entries.

The entries since the last signal are counted in 16 bits. A guest that keeps its
interrupts off for as many entries as the counter has values finds it at zero
again, and is not signalled when it turns them on.
-/

import StudyNotes.VhostBlk.Queue

namespace StudyNotes.VhostBlk

open Library Function

/-- The part of `struct spdk_vhost_virtqueue` that signals use. -/
structure SignalQueue where
  vq : BlkQueue
  hasDesc : Bool
  reqCnt : BitVec 32
  usedReqCnt : BitVec 16

/-- `spdk_vhost_vq_used_signal`: the queue after it, and whether the guest is signalled. -/
def vqUsedSignal (queue : SignalQueue) : SignalQueue × Bool :=
  if queue.usedReqCnt = 0 then (queue, false)
  else
    ({ queue with
        reqCnt := queue.reqCnt + queue.usedReqCnt.setWidth 32
        usedReqCnt := 0 }, true)

/-- The turn of `spdk_vhost_dev_used_signal` for a queue, with coalescing off. -/
def visit (queue : SignalQueue) (noInterrupt : Bool) : SignalQueue × Bool :=
  if queue.hasDesc = false ∨ noInterrupt = true then (queue, false) else vqUsedSignal queue

/-- An entry is added to the used ring, or all queues are visited with the flags of the guest. -/
inductive SignalAction (queues : Nat) where
  | enqueue (q : Fin queues) (id : BitVec 16) (len : BitVec 32)
  | usedSignal (noInterrupt : Fin queues → Bool)

inductive SignalEvent (queues : Nat) where
  | added (q : Fin queues)
  | visited (signalled : Fin queues → Bool)

variable {queues : Nat}

def signalStep (dev : Fin queues → SignalQueue) :
    SignalAction queues → Option ((Fin queues → SignalQueue) × List (SignalEvent queues))
  | .enqueue q id len =>
    some (update dev q { dev q with
      vq := usedRingEnqueue (dev q).vq id len
      usedReqCnt := (dev q).usedReqCnt + 1 }, [.added q])
  | .usedSignal noInterrupt =>
    some (fun q => (visit (dev q) (noInterrupt q)).1,
      [.visited fun q => (visit (dev q) (noInterrupt q)).2])

/-- The entries added to a queue since it was last signalled, after one more event. -/
def unseenAfter (q : Fin queues) (unseen : Nat) : SignalEvent queues → Nat
  | .added other => if other = q then unseen + 1 else unseen
  | .visited signalled => if signalled q then 0 else unseen

/-- The entries added to a queue since it was last signalled. -/
def unseenOf (q : Fin queues) (events : List (SignalEvent queues)) : Nat :=
  events.foldl (unseenAfter q) 0

section Run

variable {dev next last : Fin queues → SignalQueue} {q : Fin queues}
  {actions : List (SignalAction queues)} {events : List (SignalEvent queues)}

theorem signalStep_counts {unseen : Nat} {action : SignalAction queues}
    (counts : (dev q).usedReqCnt = BitVec.ofNat 16 unseen)
    (taken : signalStep dev action = some (next, events)) :
    (next q).usedReqCnt = BitVec.ofNat 16 (events.foldl (unseenAfter q) unseen) := by
  cases action with
  | enqueue other id len =>
    cases taken
    by_cases same : other = q
    · subst same
      simp [unseenAfter, counts, BitVec.ofNat_add]
    · simp [unseenAfter, same, update_of_ne (Ne.symm same), counts]
  | usedSignal noInterrupt =>
    cases taken
    simp only [List.foldl_cons, List.foldl_nil, unseenAfter, visit, vqUsedSignal]
    split_ifs <;> simp_all

variable (fresh : ∀ q, (dev q).usedReqCnt = 0)
  (ran : run signalStep dev actions = some (last, events))
include fresh ran

/-- In every run the counter is the number of entries since the last signal, modulo its width. -/
theorem run_signalStep_counts (q : Fin queues) :
    (last q).usedReqCnt = BitVec.ofNat 16 (unseenOf q events) := by
  refine run_invariant signalStep
    (fun dev past => (dev q).usedReqCnt = BitVec.ofNat 16 (unseenOf q past))
    (fun dev past action next events counts taken => ?_) [] (fresh q) ran
  rw [unseenOf, List.foldl_append]
  exact signalStep_counts counts taken

/--
After every run, a visit to an active queue with interrupts on signals the guest
about unseen entries exactly when their number is not a multiple of `2 ^ 16`.
-/
theorem run_signalStep_signals_iff (active : (last q).hasDesc = true) :
    (0 < unseenOf q events → (visit (last q) false).2 = true) ↔
      (2 ^ 16 ∣ unseenOf q events → unseenOf q events = 0) := by
  have isZero : (last q).usedReqCnt = 0 ↔ 2 ^ 16 ∣ unseenOf q events := by
    rw [run_signalStep_counts fresh ran q, ← BitVec.toNat_inj, BitVec.toNat_ofNat]
    exact (Nat.dvd_iff_mod_eq_zero ..).symm
  have signals : (visit (last q) false).2 = true ↔ ¬ 2 ^ 16 ∣ unseenOf q events := by
    rw [visit, if_neg (by simp [active]), vqUsedSignal, ← isZero]
    split <;> simp_all
  rw [signals]
  omega

end Run

/-- Entries that are added one after another are all unseen. -/
theorem run_enqueue (dev : Fin queues → SignalQueue) (q : Fin queues) (count : Nat) :
    ∃ last, run signalStep dev (List.replicate count (.enqueue q 0 0)) =
        some (last, List.replicate count (.added q)) ∧ (last q).hasDesc = (dev q).hasDesc := by
  induction count generalizing dev with
  | zero => exact ⟨dev, rfl, rfl⟩
  | succ count inductionHypothesis =>
    obtain ⟨last, ran, same⟩ := inductionHypothesis (update dev q { dev q with
      vq := usedRingEnqueue (dev q).vq 0 0
      usedReqCnt := (dev q).usedReqCnt + 1 })
    refine ⟨last, run_cons.mpr ⟨_, _, _, rfl, ran, rfl⟩, same.trans ?_⟩
    rw [update_self]

theorem unseenOf_replicate (q : Fin queues) (count : Nat) :
    unseenOf q (List.replicate count (.added q)) = count := by
  induction count with
  | zero => rfl
  | succ count inductionHypothesis =>
    rw [List.replicate_succ', unseenOf, List.foldl_append]
    exact (if_pos rfl).trans (congrArg (· + 1) inductionHypothesis)

/-- One queue of one entry, with nothing to signal. -/
def quietQueue (_ : Fin 1) : SignalQueue :=
  ⟨⟨⟨0, Nat.zero_lt_succ _⟩, 0, 0, fun _ => (0, 0), fun _ => false, [], []⟩, true, 0, 0⟩

theorem run_signalStep_signals_oneEntry :
    ∃ last, run signalStep quietQueue [.enqueue 0 0 0] = some (last, [.added 0]) ∧
      (visit (last 0) false).2 = true := by
  obtain ⟨last, ran, active⟩ := run_enqueue quietQueue 0 1
  refine ⟨last, ran, (run_signalStep_signals_iff (fun _ => rfl) ran active).mpr ?_ ?_⟩
  · decide
  · decide

/-- After `2 ^ 16` entries without a signal the guest is not signalled. -/
theorem run_signalStep_wraps :
    ∃ last events, run signalStep quietQueue (List.replicate (2 ^ 16) (.enqueue 0 0 0)) =
        some (last, events) ∧ (last 0).hasDesc = true ∧ unseenOf 0 events = 2 ^ 16 ∧
      (visit (last 0) false).2 = false := by
  obtain ⟨last, ran, active⟩ := run_enqueue quietQueue 0 (2 ^ 16)
  have counts := run_signalStep_counts (fun _ => rfl) ran 0
  rw [unseenOf_replicate] at counts
  refine ⟨last, _, ran, active, unseenOf_replicate 0 _, ?_⟩
  rw [visit, if_neg (by simp [active, quietQueue]), vqUsedSignal, counts]
  rfl

end StudyNotes.VhostBlk
