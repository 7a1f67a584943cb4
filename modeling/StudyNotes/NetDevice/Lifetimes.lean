/-
This file proves what happens to the bottom halves and timers of the transmit
queues: who holds which of them, what every step does to them, and which of them
are left when the device is taken down.

The queue pairs hold the objects. Which pairs there are is known from the
layout, so the invariant of the heap follows the loops that add and delete them.
-/

import StudyNotes.NetDevice.Layout

namespace StudyNotes.NetDevice

open Library Function

variable {n start : VirtIONet} {q : Nat} {present : Nat → Bool} {backend : Backend} {conf : NetConf}

/-! ### Who holds which object -/

/-- The timer or bottom half of a queue pair. -/
def deferredOf (n : VirtIONet) (i : Nat) : Option Nat :=
  if n.conf.usesTimer then (n.vqs i).txTimer else (n.vqs i).txBh

/-- The object was made for this queue pair. -/
def Deferred.IsFor (deferred : Deferred) (conf : NetConf) (i : Nat) : Prop :=
  deferred.timer = conf.usesTimer ∧ deferred.queue = i

/-- Every queue pair that is there has an object of its own, and there are no others. -/
structure Kept (n : VirtIONet) (present : Nat → Bool) : Prop where
  held : n.work.Held (deferredOf n) (fun i => present i = true)
  noTimer : n.conf.usesTimer = false → ∀ i, (n.vqs i).txTimer = none
  labelled : ∀ i address, present i = true → deferredOf n i = some address →
    (n.work.object address).IsFor n.conf i

section

variable (kept : Kept n present)
include kept

/-- The test that the source makes finds the kind of object that is there. -/
theorem Kept.txTimer_isSome {i : Nat} (isPresent : present i = true) :
    (n.vqs i).txTimer.isSome = n.conf.usesTimer := by
  cases usesTimer : n.conf.usesTimer with
  | false => rw [kept.noTimer usesTimer i, Option.isSome_none]
  | true =>
    obtain ⟨address, isPointer, -⟩ := kept.held.live i isPresent
    rw [deferredOf, if_pos usesTimer] at isPointer
    rw [isPointer, Option.isSome_some]

/-- The object that the source picks by that test. -/
def picked (q : VirtIONetQueue) : Option Nat := if q.txTimer.isSome then q.txTimer else q.txBh

theorem Kept.picked_eq {i : Nat} (isPresent : present i = true) :
    picked (n.vqs i) = deferredOf n i := by
  rw [picked, deferredOf, kept.txTimer_isSome isPresent]

/-- Only the objects and the pointers to them matter. -/
theorem Kept.congr {m : VirtIONet} (sameConf : m.conf = n.conf) (sameWork : m.work = n.work)
    (sameTimer : ∀ i, (m.vqs i).txTimer = (n.vqs i).txTimer)
    (sameBh : ∀ i, (m.vqs i).txBh = (n.vqs i).txBh) : Kept m present := by
  have samePointers : deferredOf m = deferredOf n := by
    funext i
    rw [deferredOf, deferredOf, sameConf, sameTimer, sameBh]
  refine ⟨?_, fun usesBh i => ?_, ?_⟩
  · rw [sameWork, samePointers]
    exact kept.held
  · rw [sameTimer]
    exact kept.noTimer (sameConf ▸ usesBh) i
  · rw [sameWork, samePointers, sameConf]
    exact kept.labelled

theorem Kept.setTxWaiting (index : Nat) (waiting : BitVec 32) :
    Kept (setTxWaiting n index waiting) present :=
  kept.congr rfl rfl (fun i => by rw [setTxWaiting_vqs]) fun i => by rw [setTxWaiting_vqs]

/-! ### Using an object -/

theorem Kept.useDeferred (use : DeferredUse) (pending : Bool) (pointer : Option Nat) :
    Kept (useDeferred n use pending pointer) present where
  held := kept.held.use use (setPending pending) pointer
  noTimer := kept.noTimer
  labelled i address isPresent isPointer := by
    have before := kept.labelled i address isPresent isPointer
    change ((n.work.use use (setPending pending) pointer).object address).IsFor n.conf i
    rcases Heap.use_object use (setPending pending) pointer address with same | changed
    · rw [same]
      exact before
    · rw [changed]
      exact before

theorem Kept.useDeferred_misuses (use : DeferredUse) (pending : Bool) {i : Nat}
    (isPresent : present i = true) :
    (NetDevice.useDeferred n use pending (deferredOf n i)).work.misuses = n.work.misuses :=
  kept.held.use_misuses use (setPending pending) isPresent

end

/-! ### The status -/

theorem resumeWork_eq (n : VirtIONet) (q : VirtIONetQueue) (queueStarted : Bool) :
    ∃ use, resumeWork n q queueStarted = useDeferred n use queueStarted (picked q) := by
  rw [resumeWork, picked]
  cases queueStarted with
  | true =>
    rw [if_pos rfl]
    split
    · exact ⟨_, rfl⟩
    · exact ⟨_, rfl⟩
  | false =>
    rw [if_neg Bool.false_ne_true]
    split
    · exact ⟨_, rfl⟩
    · exact ⟨_, rfl⟩

/-- Only a queue pair whose work is waiting is touched. -/
theorem setQueueStatus_cases (status : BitVec 8) (n : VirtIONet) (i : Nat) :
    setQueueStatus status n i = n ∨ (n.vqs i).txWaiting ≠ 0 ∧
      ∃ use pending, setQueueStatus status n i = useDeferred n use pending (picked (n.vqs i)) := by
  by_cases idle : (n.vqs i).txWaiting = 0
  · exact .inl (if_pos idle)
  · obtain ⟨use, resumed⟩ := resumeWork_eq n (n.vqs i)
      (started n (if (!n.multiqueue && i != 0) || i ≥ n.currQueues then 0 else status) &&
        !n.vhostStarted)
    exact .inr ⟨idle, use, _, (if_neg idle).trans resumed⟩

/-- No queue pair that is not there has work waiting. -/
def Quiet (n : VirtIONet) (present : Nat → Bool) (indices : List Nat) : Prop :=
  ∀ i ∈ indices, present i = false → (n.vqs i).txWaiting = 0

section

variable (kept : Kept n present)
include kept

variable (status : BitVec 8)

theorem Kept.setQueueStatus (i : Nat) : Kept (setQueueStatus status n i) present := by
  rcases setQueueStatus_cases status n i with same | ⟨-, use, pending, used⟩
  · rw [same]
    exact kept
  · rw [used]
    exact kept.useDeferred use pending _

theorem Kept.setQueueStatus_misuses {i : Nat} (idle : present i = false → (n.vqs i).txWaiting = 0)
    (status : BitVec 8) :
    (NetDevice.setQueueStatus status n i).work.misuses = n.work.misuses := by
  rcases setQueueStatus_cases status n i with same | ⟨waits, use, pending, used⟩
  · rw [same]
  · have isPresent : present i = true := by
      rw [← Bool.not_eq_false]
      exact fun isAbsent => waits (idle isAbsent)
    rw [used, kept.picked_eq isPresent]
    exact kept.useDeferred_misuses use pending isPresent

/-- The loop of `virtio_net_set_status`. -/
theorem Kept.foldl_setQueueStatus (indices : List Nat) :
    Kept (indices.foldl (NetDevice.setQueueStatus status) n) present ∧
      (Quiet n present indices →
        (indices.foldl (NetDevice.setQueueStatus status) n).work.misuses = n.work.misuses) := by
  induction indices generalizing n with
  | nil => exact ⟨kept, fun _ => rfl⟩
  | cons i rest inductionHypothesis =>
    obtain ⟨keptBehind, misuses⟩ := inductionHypothesis (kept.setQueueStatus status i)
    refine ⟨keptBehind, fun quiet => ?_⟩
    obtain ⟨idle, restQuiet⟩ := List.forall_mem_cons.mp quiet
    have stillQuiet : Quiet (NetDevice.setQueueStatus status n i) present rest := by
      obtain ⟨work, isNext⟩ := setQueueStatus_work status n i
      rw [isNext]
      exact restQuiet
    exact (misuses stillQuiet).trans (kept.setQueueStatus_misuses idle status)

theorem Kept.setStatus : Kept (setStatus n status) present := by
  obtain ⟨needsVnetHdrSwap, vhostStarted, isSet⟩ := setStatus_eq n status
  rw [isSet]
  refine (Kept.foldl_setQueueStatus ?_ status _).1
  exact kept.congr rfl rfl (fun _ => rfl) fun _ => rfl

theorem Kept.setStatus_misuses (quiet : Quiet n present (List.range n.maxQueues))
    (status : BitVec 8) : (NetDevice.setStatus n status).work.misuses = n.work.misuses := by
  obtain ⟨needsVnetHdrSwap, vhostStarted, isSet⟩ := setStatus_eq n status
  rw [isSet]
  refine (Kept.foldl_setQueueStatus ?_ status _).2 quiet
  exact kept.congr rfl rfl (fun _ => rfl) fun _ => rfl

end

/-! ### Queue pairs come and go -/

/-- Deleting a queue pair frees the object that was picked. -/
theorem delQueue_work (n : VirtIONet) (i : Nat) :
    ∃ work use,
      (work = n.work ∨ work = n.work.use .timerDel (setPending false) (picked (n.vqs i))) ∧
      (delQueue n i).work = work.free use (picked (n.vqs i)) := by
  unfold delQueue delDeferred
  rw [picked]
  split
  · exact ⟨_, _, .inr rfl, rfl⟩
  · exact ⟨_, _, .inl rfl, rfl⟩

theorem Kept.delQueue (kept : Kept n present) {i : Nat} (isPresent : present i = true) :
    Kept (delQueue n i) (update present i false) ∧
      (delQueue n i).work.misuses = n.work.misuses := by
  have samePointers : deferredOf (NetDevice.delQueue n i) = deferredOf n := by
    funext j
    rw [deferredOf, deferredOf, delQueue_conf, delQueue_vqs]
  have others : ∀ j, update present i false j = true ↔ present j = true ∧ j ≠ i := by
    intro j
    by_cases isIt : j = i
    · simp [isIt]
    · simp [isIt]
  obtain ⟨work, use, before, freed⟩ := delQueue_work n i
  rw [kept.picked_eq isPresent] at before freed
  have labels : ∀ j address, present j = true → deferredOf n j = some address →
      (work.object address).IsFor n.conf j := by
    intro j address isPresent isPointer
    rcases before with rfl | rfl
    · exact kept.labelled j address isPresent isPointer
    · exact (kept.useDeferred .timerDel false _).labelled j address isPresent isPointer
  have held : work.Held (deferredOf n) (fun j => present j = true) ∧
      work.misuses = n.work.misuses := by
    rcases before with rfl | rfl
    · exact ⟨kept.held, rfl⟩
    · exact ⟨kept.held.use .., kept.held.use_misuses _ _ isPresent⟩
  obtain ⟨heldBehind, misuses⟩ := held.1.free use isPresent
  refine ⟨⟨?_, ?_, ?_⟩, ?_⟩
  · rw [freed, samePointers]
    exact heldBehind.congr others fun _ _ => rfl
  · rw [delQueue_conf, delQueue_vqs]
    exact kept.noTimer
  · rw [freed, samePointers, delQueue_conf, Heap.free_object]
    intro j address stays isPointer
    exact labels j address ((others j).mp stays).1 isPointer
  · rw [freed, misuses, held.2]

theorem deferredOf_withPair (n : VirtIONet) (i : Nat) :
    deferredOf (withPair n i) = update (deferredOf n) i (some n.work.next) := by
  funext j
  by_cases isNew : j = i
  · subst isNew
    rw [update_self, deferredOf, withPair_vqs, update_self, newPair]
    change (if n.conf.usesTimer then _ else _) = _
    split <;> rfl
  · rw [update_of_ne isNew, deferredOf, withPair_vqs, update_of_ne isNew]
    rfl

section

variable (kept : Kept n (below q))
include kept

theorem Kept.withPair : Kept (withPair n q) (below (q + 1)) := by
  have olds : ∀ i, below (q + 1) i = true ↔ i = q ∨ below q i = true := by
    intro i
    simp only [below, decide_eq_true_eq]
    omega
  have old_ne : ∀ i, below q i = true → i ≠ q := by
    intro i isOld
    simp only [below, decide_eq_true_eq] at isOld
    omega
  have samePointer : ∀ i, below q i = true →
      deferredOf (NetDevice.withPair n q) i = deferredOf n i :=
    fun i isOld => by rw [deferredOf_withPair, update_of_ne (old_ne i isOld)]
  have newPointer : deferredOf (NetDevice.withPair n q) q = some n.work.next := by
    rw [deferredOf_withPair, update_self]
  refine ⟨?_, fun usesBh i => ?_, fun i address isPresent isPointer => ?_⟩
  · exact (kept.held.alloc _ newPointer samePointer).congr olds fun _ _ => rfl
  · have none := kept.noTimer usesBh i
    rw [withPair_vqs]
    by_cases isNew : i = q
    · have usesBh : n.conf.usesTimer = false := usesBh
      rw [isNew, update_self, newPair, usesBh, if_neg Bool.false_ne_true]
      exact isNew ▸ none
    · rw [update_of_ne isNew]
      exact none
  · change ((n.work.alloc _).object address).IsFor n.conf i
    rw [Heap.alloc_object]
    rcases (olds i).mp isPresent with rfl | isOld
    · rw [newPointer] at isPointer
      cases isPointer
      rw [update_self]
      exact ⟨rfl, rfl⟩
    · rw [samePointer i isOld] at isPointer
      obtain ⟨found, isFound, live⟩ := kept.held.live i isOld
      rw [isPointer] at isFound
      cases isFound
      rw [update_of_ne (Nat.ne_of_lt live.1)]
      exact kept.labelled i address isOld isPointer

/-- The loop that deletes queue pairs. -/
theorem Kept.foldl_delQueue {first count : Nat} (inside : first + count ≤ q) :
    Kept ((List.range' first count).foldl NetDevice.delQueue n) (without first (first + count) q) ∧
      ((List.range' first count).foldl NetDevice.delQueue n).work.misuses = n.work.misuses := by
  refine foldl_range'_invariant (fun i (m : VirtIONet) => Kept m (without first i q) ∧
    m.work.misuses = n.work.misuses) ⟨?_, rfl⟩ ?_
  · rw [without_self (by omega)]
    exact kept
  · rintro i m atLeast less ⟨kept, misuses⟩
    have isPresent : without first i q i = true := by
      have inRange : i < q := by omega
      simp [without, inRange]
    obtain ⟨keptBehind, sameMisuses⟩ := kept.delQueue isPresent
    rw [update_without _ _ _ atLeast] at keptBehind
    exact ⟨keptBehind, sameMisuses.trans misuses⟩

/-- The loop that adds queue pairs. -/
theorem Kept.foldl_withPair (count : Nat) :
    Kept ((List.range' q count).foldl NetDevice.withPair n) (below (q + count)) ∧
      ((List.range' q count).foldl NetDevice.withPair n).work.misuses = n.work.misuses := by
  refine foldl_range'_invariant (fun i (m : VirtIONet) => Kept m (below i) ∧
    m.work.misuses = n.work.misuses) ⟨kept, rfl⟩ ?_
  rintro i m - - ⟨kept, misuses⟩
  exact ⟨kept.withPair, misuses⟩

theorem Kept.moved (newMaxQueues : Nat) :
    Kept (moved n q newMaxQueues) (below newMaxQueues) ∧
      (moved n q newMaxQueues).work.misuses = n.work.misuses := by
  have noCtrl : Kept (virtioDelQueue n (2 * q)) (below q) :=
    kept.congr rfl rfl (fun _ => rfl) fun _ => rfl
  rw [NetDevice.moved]
  rcases Nat.le_total newMaxQueues q with fewer | more
  · obtain ⟨shrunk, misuses⟩ := noCtrl.foldl_delQueue (Nat.add_sub_cancel' fewer).le
    rw [Nat.add_sub_cancel' fewer, without_all] at shrunk
    rw [Nat.sub_eq_zero_of_le fewer]
    exact ⟨shrunk.congr rfl rfl (fun _ => rfl) fun _ => rfl, misuses⟩
  · obtain ⟨grown, misuses⟩ := noCtrl.foldl_withPair (newMaxQueues - q)
    rw [Nat.add_sub_cancel' more] at grown
    rw [Nat.sub_eq_zero_of_le more]
    exact ⟨grown.congr rfl rfl (fun _ => rfl) fun _ => rfl, misuses⟩

theorem Kept.negotiated (features : BitVec 64) :
    Kept (negotiated n q features) (below (pairsFor n.maxQueues features)) ∧
      (negotiated n q features).work.misuses = n.work.misuses := by
  have before : Kept { n with multiqueue := hasFeature features fMq } (below q) :=
    kept.congr rfl rfl (fun _ => rfl) fun _ => rfl
  rw [NetDevice.negotiated, resized]
  split
  · next same =>
    rw [← same]
    exact ⟨before.congr rfl rfl (fun _ => rfl) fun _ => rfl, rfl⟩
  · obtain ⟨keptBehind, misuses⟩ := before.moved (pairsFor n.maxQueues features)
    exact ⟨keptBehind.congr rfl rfl (fun _ => rfl) fun _ => rfl, misuses⟩

end

/-! ### The device when it is created -/

theorem blank_kept (conf : NetConf) (backend : Backend) : Kept (blank conf backend) (below 0) where
  held := Heap.held_empty fun i isPresent => by simp [below] at isPresent
  noTimer _ _ := rfl
  labelled i address isPresent := by simp [below] at isPresent

theorem realize_kept (realized : realize conf backend = .ok start) :
    Kept start (below start.maxQueues) ∧ start.work.misuses = [] := by
  obtain ⟨-, -, rfl⟩ := realize_eq_ok realized
  obtain ⟨-, isMax, -⟩ := populated_keeps conf backend
  obtain ⟨kept, misuses⟩ := (blank_kept conf backend).foldl_withPair (blank conf backend).maxQueues
  rw [Nat.zero_add] at kept
  have keptPopulated : Kept (populated conf backend) (below (blank conf backend).maxQueues) :=
    kept.congr rfl rfl (fun _ => rfl) fun _ => rfl
  have keptWaiting := keptPopulated.setTxWaiting 0 0
  have keptStart : Kept (finishRealize (populated conf backend))
      (below (blank conf backend).maxQueues) :=
    keptWaiting.congr rfl rfl (fun _ => rfl) fun _ => rfl
  rw [← isMax] at keptStart
  exact ⟨keptStart, misuses⟩

/-! ### Taking the device down -/

/-- The queue pairs that `virtio_net_device_unrealize` deletes. -/
def unrealizedPairs (n : VirtIONet) : Nat := if n.multiqueue then n.maxQueues else 1

/-- Every object that was ever created has been freed exactly once. -/
def AllFreedOnce (n : VirtIONet) : Prop := ∀ address < n.work.next, n.work.frees address = 1

theorem unrealize_eq (n : VirtIONet) :
    unrealize n = (List.range' 0 (unrealizedPairs n)).foldl delQueue (setStatus n 0) := by
  obtain ⟨_, _, _, isSet⟩ := setStatus_follows n 0
  have samePairs : unrealizedPairs (setStatus n 0) = unrealizedPairs n := by rw [isSet]; rfl
  rw [unrealize, ← samePairs, ← List.range_eq_range']
  rfl

theorem Kept.unrealize_freed (kept : Kept n (below (unrealizedPairs n))) :
    AllFreedOnce (unrealize n) := by
  obtain ⟨behind, -⟩ := (kept.setStatus 0).foldl_delQueue (Nat.zero_add (unrealizedPairs n)).le
  rw [Nat.zero_add, without_all, ← unrealize_eq] at behind
  intro address inside
  exact behind.held.frees_eq_one (fun i isPresent => by simp [below] at isPresent) inside

/-- A queue pair that is not deleted keeps its object. -/
theorem Kept.unrealize_leaks (kept : Kept n (below q)) (more : unrealizedPairs n < q) :
    ¬AllFreedOnce (unrealize n) := by
  obtain ⟨behind, -⟩ := (kept.setStatus 0).foldl_delQueue
    (by omega : 0 + unrealizedPairs n ≤ q)
  rw [Nat.zero_add, ← unrealize_eq] at behind
  have isPresent : without 0 (unrealizedPairs n) q (unrealizedPairs n) = true := by
    simp [without, more]
  obtain ⟨address, -, live⟩ := behind.held.live _ isPresent
  intro allFreed
  have freed := allFreed address live.1
  rw [live.2] at freed
  exact absurd freed Nat.zero_ne_one

/-- A device that has been created and has queue pairs. -/
structure Settled (n : VirtIONet) (q : Nat) : Prop where
  ready : Ready n q
  kept : Kept n (below q)
  notNone : 1 ≤ q
  hasPairs : 1 ≤ n.maxQueues

theorem Settled.negotiated (settled : Settled n q) (features : BitVec 64) :
    Settled (negotiated n q features) (unrealizedPairs (negotiated n q features)) := by
  obtain ⟨-, isMax, isMulti⟩ := settled.ready.negotiated_keeps settled.notNone features
  have samePairs : unrealizedPairs (NetDevice.negotiated n q features) =
      pairsFor n.maxQueues features := by
    rw [unrealizedPairs, isMax, isMulti, pairsFor]
  have hasPairs := settled.hasPairs
  rw [samePairs]
  refine ⟨settled.ready.negotiated settled.notNone features, (settled.kept.negotiated features).1,
    ?_, isMax ▸ hasPairs⟩
  rw [pairsFor]
  split
  · exact hasPairs
  · exact Nat.le_refl 1

/-- From the first negotiation on, the device deletes what it has. -/
theorem Settled.foldlM_setFeatures (settled : Settled n q) {features : BitVec 64}
    {rest : List (BitVec 64)} {last : VirtIONet}
    (negotiated : (features :: rest).foldlM setFeatures n = some last) :
    Settled last (unrealizedPairs last) := by
  induction rest generalizing n q features with
  | nil =>
    rw [List.foldlM_cons, settled.ready.setFeatures_eq settled.notNone] at negotiated
    cases negotiated
    exact settled.negotiated features
  | cons next rest inductionHypothesis =>
    rw [List.foldlM_cons, settled.ready.setFeatures_eq settled.notNone, Option.bind_eq_bind,
      Option.bind_some] at negotiated
    exact inductionHypothesis (settled.negotiated features) negotiated

/-- A device without any queue pair fails the first assertion. -/
theorem Ready.setFeatures_none (ready : Ready n 0) (features : BitVec 64) :
    setFeatures n features = none := by
  have before := ready.setMultiqueue (hasFeature features fMq)
  have count := before.wired.virtioGetNumQueues_eq before.sized (by decide)
  have isNone : NetDevice.setMultiqueue n (hasFeature features fMq) = none := by
    rw [NetDevice.setMultiqueue, changeNumQueues]
    exact if_pos (.inl (by omega))
  rw [setFeatures, isNone, Option.map_none]

/-- Before any negotiation the device takes down one queue pair. -/
theorem realize_unrealizedPairs
    (realized : realize conf backend = .ok start) : unrealizedPairs start = 1 := by
  rw [unrealizedPairs, (realize_ready realized).2, if_neg Bool.false_ne_true]

/-- Without any queue pair there is no object either. -/
theorem realize_noPairs (realized : realize conf backend = .ok start)
    (noPairs : start.maxQueues = 0) :
    AllFreedOnce (unrealize start) := by
  obtain ⟨-, -, isStart⟩ := realize_eq_ok realized
  have noWork : start.work = Heap.empty := by
    obtain ⟨-, isMax, -⟩ := populated_keeps conf backend
    rw [isStart] at noPairs ⊢
    have noneAdded : (blank conf backend).maxQueues = 0 := isMax.symm.trans noPairs
    change ((List.range' 0 (blank conf backend).maxQueues).foldl withPair
      (blank conf backend)).work = Heap.empty
    rw [noneAdded]
    rfl
  have sameWork : (setStatus start 0).work = start.work := by
    obtain ⟨_, _, isSet⟩ := setStatus_eq start 0
    rw [isSet, noPairs]
    rfl
  obtain ⟨work, use, before, freed⟩ := delQueue_work (setStatus start 0) 0
  intro address inside
  rw [unrealize_eq, realize_unrealizedPairs realized] at inside
  change address < (delQueue (setStatus start 0) 0).work.next at inside
  have isEmpty : work.next = 0 := by
    rcases before with rfl | rfl
    · rw [sameWork, noWork]
      rfl
    · rw [Heap.use_next, sameWork, noWork]
      rfl
  rw [freed, Heap.free_next, isEmpty] at inside
  exact absurd inside (Nat.not_lt_zero address)

/--
Every bottom half and timer is deleted exactly once if there is no more than one
queue pair or if features were negotiated at all. Otherwise the device deletes
only the first of its queue pairs.
-/
theorem unrealize_freed_iff {conf : NetConf} {backend : Backend} {start : VirtIONet}
    (realized : realize conf backend = .ok start) {negotiations : List (BitVec 64)}
    (isNegotiated : negotiations.foldlM setFeatures start = some n) :
    AllFreedOnce (unrealize n) ↔ start.maxQueues ≤ 1 ∨ negotiations ≠ [] := by
  have ready := (realize_ready realized).1
  have kept := (realize_kept realized).1
  have one := realize_unrealizedPairs realized
  cases negotiations with
  | nil =>
    have same : start = n := Option.some.inj isNegotiated
    subst same
    constructor
    · intro allFreed
      refine .inl (Nat.not_lt.mp fun several => ?_)
      exact kept.unrealize_leaks (one.symm ▸ several) allFreed
    · intro atMostOne
      have few : start.maxQueues ≤ 1 := atMostOne.resolve_right fun never => never rfl
      rcases Nat.le_one_iff_eq_zero_or_eq_one.mp few with noPairs | onePair
      · exact realize_noPairs realized noPairs
      · exact Kept.unrealize_freed (by rw [one, ← onePair]; exact kept)
  | cons features rest =>
    refine ⟨fun _ => .inr (List.cons_ne_nil features rest), fun _ => ?_⟩
    rcases Nat.eq_zero_or_pos start.maxQueues with noPairs | hasPairs
    · rw [List.foldlM_cons, Ready.setFeatures_none (noPairs ▸ ready)] at isNegotiated
      cases isNegotiated
    · have settled : Settled start start.maxQueues := ⟨ready, kept, hasPairs, hasPairs⟩
      exact (settled.foldlM_setFeatures isNegotiated).kept.unrealize_freed

/-- One negotiation is enough, also for two queue pairs. -/
theorem unrealize_freed_two :
    ∃ n, [addFeature 0 fMq].foldlM setFeatures (created (smallConf 2) plainBackend) = some n ∧
      AllFreedOnce (unrealize n) := by
  have realized := realize_created isRealized_two
  obtain ⟨n, isNegotiated, -⟩ := (realize_ready realized).1.foldlM_setFeatures
    created_two_hasPairs created_two_hasPairs [addFeature 0 fMq]
  refine ⟨n, isNegotiated, (unrealize_freed_iff realized isNegotiated).mpr (.inr ?_)⟩
  exact List.cons_ne_nil _ _

/-- A device that goes away before any negotiation leaves its second bottom half behind. -/
theorem unrealize_untouched :
    realize (smallConf 2) plainBackend = .ok (created (smallConf 2) plainBackend) ∧
      (unrealize (created (smallConf 2) plainBackend)).work.next = 2 ∧
      (unrealize (created (smallConf 2) plainBackend)).work.frees 0 = 1 ∧
      (unrealize (created (smallConf 2) plainBackend)).work.frees 1 = 0 := by
  exact ⟨realize_created isRealized_two, by decide +kernel⟩

end StudyNotes.NetDevice
