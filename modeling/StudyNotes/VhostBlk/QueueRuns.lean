/-
This file proves that the vhost block device accounts for every request, for any
content of the avail rings and any order of completions.

What a step does to a queue is said once, as a move. Every move keeps the accounts
of the queue: the entries that were taken are those that were reported, those that
wait to be handled and those that the block device layer has. The task slots in use
are exactly the last ones, so the count of tasks is right and no slot is given away
twice.
-/

import Mathlib.Algebra.BigOperators.Fin
import StudyNotes.Library.Ring
import StudyNotes.VhostBlk.Queue
import StudyNotes.VhostBlk.ReadBack

namespace StudyNotes.VhostBlk

open Library Function

/-! ### Moves of one queue -/

/-- What a step can do to a queue, and what is seen of it. -/
inductive Move (vq : BlkQueue) : BlkQueue → List VqEvent → Prop where
  | fetch (avail : AvailRing) (handled : vq.reqs = []) :
      Move vq (availRingGet vq avail)
        ((availTaken vq avail).map fun entry => .taken entry.1 entry.2)
  | reject (id : BitVec 16) (rest : List (BitVec 16)) (isReqs : vq.reqs = id :: rest)
      (refused : vq.size ≤ id.toNat ∨ vq.used id = true) :
      Move vq (usedRingEnqueue { vq with reqs := rest } id 0) [.reported id 0]
  | submit (id : BitVec 16) (rest : List (BitVec 16)) (task : BlkTask)
      (isReqs : vq.reqs = id :: rest) (within : id.toNat < vq.size) (free : vq.used id = false) :
      Move vq { vq with
        reqs := rest, used := update vq.used id true, pending := (id, task) :: vq.pending }
        [.started id]
  | finish (id : BitVec 16) (rest : List (BitVec 16)) (len : BitVec 32)
      (isReqs : vq.reqs = id :: rest) (within : id.toNat < vq.size) (free : vq.used id = false) :
      Move vq (usedRingEnqueue { vq with reqs := rest } id len) [.started id, .reported id len]
  | complete (id : BitVec 16) (task : BlkTask) (len : BitVec 32)
      (found : vq.pending.find? (fun entry => entry.1 = id) = some (id, task)) :
      Move vq { usedRingEnqueue vq id len with
        used := update vq.used id false
        pending := vq.pending.eraseP fun entry => entry.1 = id }
        [.reported id len]

variable {queues : Nat} {moved : List VqEvent} {id : BitVec 16} {dev next : VhostDev queues}
  {events : List (DevEvent queues)} {rest : List (BitVec 16)}

section

variable (dev : VhostDev queues) (q : Fin queues)

@[simp] theorem setVq_self (vq : BlkQueue) : (dev.setVq q vq).vq q = vq := by
  simp only [VhostDev.setVq, update_self]

theorem setVq_other {q other : Fin queues} (vq : BlkQueue)
    (differs : other ≠ q) : (dev.setVq q vq).vq other = dev.vq other := by
  simp only [VhostDev.setVq, update_of_ne differs]

@[simp] theorem setVq_setVq (vq vq' : BlkQueue) :
    (dev.setVq q vq).setVq q vq' = dev.setVq q vq' := by
  simp only [VhostDev.setVq, update_idem]

@[simp] theorem setVq_taskCnt (vq : BlkQueue) :
    (dev.setVq q vq).taskCnt = dev.taskCnt := rfl

/--
One queue moves. The count of tasks follows what is pending, and the assertion fails
only if there is a pending task that is not counted.
-/
def StepMoves (dev next : VhostDev queues) (events : List (DevEvent queues)) : Prop :=
  ∃ q vq moved, Move (dev.vq q) vq moved ∧ next.vq = (dev.setVq q vq).vq ∧
    next.taskCnt = dev.taskCnt + vq.pending.length - (dev.vq q).pending.length ∧
    (events = moved.map (.at q) ∨
      dev.taskCnt = 0 ∧ (dev.vq q).pending ≠ [] ∧
        events = moved.map (.at q) ++ [.assertFailed])

end

theorem handleReq_moves {q : Fin queues} {outcome : Option Outcome}
    (isReqs : (dev.vq q).reqs = id :: rest)
    (handled : handleReq (dev.setVq q { dev.vq q with reqs := rest }) q id outcome =
      some (next, events)) : StepMoves dev next events := by
  simp only [handleReq, setVq_self, setVq_setVq] at handled
  split at handled
  · next refused =>
    cases handled
    refine ⟨q, _, _, .reject id rest isReqs refused, rfl, ?_, .inl rfl⟩
    simp only [setVq_taskCnt, usedRingEnqueue]
    omega
  · next accepted =>
    obtain ⟨inside, free⟩ := not_or.mp accepted
    have within : id.toNat < (dev.vq q).size := Nat.lt_of_not_le inside
    rw [Bool.not_eq_true] at free
    obtain ⟨result, _, isResult⟩ := Option.map_eq_some_iff.mp handled
    cases result with
    | submitted memory task io =>
      cases isResult
      refine ⟨q, _, _, .submit id rest task isReqs within free, ?_, ?_, .inl rfl⟩
      · simp only [addPending, startTask, VhostDev.setVq, update_self, update_idem]
      · simp only [addPending, startTask, VhostDev.setVq, List.length_cons]
        omega
    | reported memory usedLen =>
      cases isResult
      refine ⟨q, _, _, .finish id rest usedLen isReqs within free, ?_, ?_, .inl rfl⟩
      · -- the slot was free before, and it is free again
        have unchanged : update (dev.vq q).used id false = (dev.vq q).used := by
          rw [← free, update_eq_self]
        simp only [reportTask, blkTaskFinish, startTask, VhostDev.setVq, update_self,
          update_idem, usedRingEnqueue, unchanged]
        rfl
      · simp only [reportTask, blkTaskFinish, startTask, VhostDev.setVq, usedRingEnqueue]
        omega

theorem completeTask_moves {q : Fin queues} {task : BlkTask} (success : Bool) (memory : Memory)
    (found : (dev.vq q).pending.find? (fun entry => entry.1 = id) = some (id, task)) :
    StepMoves dev (completeTask dev q id task success memory).1
      (completeTask dev q id task success memory).2 := by
  have member := List.mem_of_find?_eq_some found
  have isLength : ((dev.vq q).pending.eraseP fun entry => entry.1 = id).length =
      (dev.vq q).pending.length - 1 := List.length_eraseP_of_mem member (by simp)
  have positive := List.length_pos_of_mem member
  refine ⟨q, _, _, .complete id task (blkRequestCompleteCb success memory task).2 found, ?_, ?_, ?_⟩
  · simp only [completeTask, reportTask, blkTaskFinish, VhostDev.setVq, update_self,
      update_idem, usedRingEnqueue]
    rfl
  · simp only [completeTask, reportTask, blkTaskFinish, VhostDev.setVq, isLength]
    omega
  · by_cases none : dev.taskCnt = 0
    · exact .inr ⟨none, List.ne_nil_of_mem member, congrArg (List.cons _) (if_pos none)⟩
    · exact .inl (congrArg (List.cons _) (if_neg none))

/-- Every step of the device is a move of one of its queues. -/
theorem devStep_moves {action : DevAction queues}
    (taken : devStep dev action = some (next, events)) :
    StepMoves dev next events := by
  cases action with
  | fetch q avail =>
    simp only [devStep, Option.ite_none_right_eq_some] at taken
    obtain ⟨handled, isNext⟩ := taken
    cases isNext
    refine ⟨q, _, _, .fetch avail handled, rfl, ?_, .inl ?_⟩
    · simp only [setVq_taskCnt, availRingGet]
      omega
    · rw [List.map_map]
      rfl
  | handle q blk guest memory fuel =>
    simp only [devStep] at taken
    split at taken
    · cases taken
    · next id rest isReqs => exact handleReq_moves isReqs taken
  | complete q id success memory =>
    obtain ⟨⟨found, task⟩, isFound, isNext⟩ := Option.map_eq_some_iff.mp taken
    obtain rfl : found = id := by simpa using List.find?_some isFound
    cases isNext
    exact completeTask_moves success memory isFound

/-! ### The accounts of one queue -/

/-- The entries that were taken, with their places in the ring. -/
def takenOf (events : List VqEvent) : List (Nat × BitVec 16) :=
  events.filterMap fun
    | .taken slot id => some (slot, id)
    | _ => none

/-- The entries that were put into the used ring. -/
def reportedOf (events : List VqEvent) : List (BitVec 16 × BitVec 32) :=
  events.filterMap fun
    | .reported id len => some (id, len)
    | _ => none

@[simp] theorem takenOf_append (events later : List VqEvent) :
    takenOf (events ++ later) = takenOf events ++ takenOf later := List.filterMap_append

@[simp] theorem reportedOf_append (events later : List VqEvent) :
    reportedOf (events ++ later) = reportedOf events ++ reportedOf later := List.filterMap_append

theorem takenOf_map (entries : List (Nat × BitVec 16)) :
    takenOf (entries.map fun entry => .taken entry.1 entry.2) = entries := by
  rw [takenOf, List.filterMap_map]
  exact List.filterMap_some

theorem reportedOf_map (entries : List (Nat × BitVec 16)) :
    reportedOf (entries.map fun entry => .taken entry.1 entry.2) = [] := by
  rw [reportedOf, List.filterMap_map]
  exact List.filterMap_eq_nil_iff.mpr fun _ _ => rfl

/-- The accounts of a queue since it was `start`, where `events` have been seen. -/
structure Accounts (start vq : BlkQueue) (events : List VqEvent) : Prop where
  order : vq.order = start.order
  /-- The places of the ring are taken one after the other. -/
  slots : (takenOf events).map Prod.fst =
    (List.range (takenOf events).length).map fun i =>
      (start.lastAvailIdx.toNat + i) % start.size
  avail : vq.lastAvailIdx = start.lastAvailIdx + BitVec.ofNat 16 (takenOf events).length
  /-- What was taken has been reported, or waits, or is with the block device layer. -/
  ids : ((takenOf events).map Prod.snd).Perm
    ((reportedOf events).map Prod.fst ++ (vq.reqs ++ vq.pending.map Prod.fst))
  usedIdx : vq.lastUsedIdx = start.lastUsedIdx + BitVec.ofNat 16 (reportedOf events).length
  /-- The last reports are in the used ring, one after the other. -/
  ring : InRing start.size start.lastUsedIdx.toNat (fun _ entry => entry) vq.usedRing
    (reportedOf events)
  /-- The slots in use are those of the pending tasks, each of which has its own. -/
  nodup : (vq.pending.map Prod.fst).Nodup
  used : ∀ id, vq.used id = true ↔ id ∈ vq.pending.map Prod.fst
  within : ∀ id ∈ vq.pending.map Prod.fst, id.toNat < start.size

theorem BlkQueue.size_dvd (vq : BlkQueue) : vq.size ∣ 2 ^ 16 :=
  Nat.pow_dvd_pow 2 (Nat.le_of_lt vq.order.isLt)

theorem BlkQueue.size_pos (vq : BlkQueue) : 0 < vq.size := Nat.two_pow_pos _

theorem BlkQueue.size_eq {start vq : BlkQueue} (order : vq.order = start.order) :
    vq.size = start.size := by
  rw [BlkQueue.size, BlkQueue.size, order]

/-- The mask keeps the rest of the index by the size. -/
theorem BlkQueue.slot_eq (vq : BlkQueue) (index : BitVec 16) :
    vq.slot index = index.toNat % vq.size := by
  have small : vq.size < 2 ^ 16 := Nat.pow_lt_pow_right (by decide) vq.order.isLt
  have positive := vq.size_pos
  have mask : (BitVec.ofNat 16 vq.size - 1).toNat = vq.size - 1 := by
    rw [BitVec.toNat_sub_of_le]
    · rw [BitVec.toNat_ofNat, Nat.mod_eq_of_lt small]
      rfl
    · rw [BitVec.le_def, BitVec.toNat_ofNat, Nat.mod_eq_of_lt small]
      exact positive
  rw [BlkQueue.slot, BitVec.toNat_and, mask, BlkQueue.size, Nat.and_two_pow_sub_one_eq_mod]

/-- Counting on from an index and wrapping it goes on in the ring. -/
theorem BlkQueue.slot_add (vq : BlkQueue) (index : BitVec 16) (count : Nat) :
    vq.slot (index + BitVec.ofNat 16 count) = (index.toNat + count) % vq.size := by
  rw [vq.slot_eq, BitVec.toNat_add, BitVec.toNat_ofNat, Nat.mod_mod_of_dvd _ vq.size_dvd,
    Nat.add_mod, Nat.mod_mod_of_dvd _ vq.size_dvd, ← Nat.add_mod]

theorem map_fst_eraseP {Task : Type} (entries : List (BitVec 16 × Task)) (id : BitVec 16) :
    (entries.eraseP fun entry => entry.1 = id).map Prod.fst = (entries.map Prod.fst).erase id := by
  rw [List.erase_eq_eraseP', List.eraseP_map]
  rfl

section Accounts

variable {start vq : BlkQueue} {events : List VqEvent}

/-- One more report is in the ring, and the last ones before it still are. -/
theorem Accounts.enqueue_ring (accounts : Accounts start vq events) (id : BitVec 16)
    (len : BitVec 32) :
    InRing start.size start.lastUsedIdx.toNat (fun _ entry => entry)
      (update vq.usedRing (vq.slot vq.lastUsedIdx) (id, len))
      (reportedOf events ++ [(id, len)]) := by
  have isSlot : vq.slot vq.lastUsedIdx =
      (start.lastUsedIdx.toNat + (reportedOf events).length) % start.size := by
    rw [accounts.usedIdx, vq.slot_add, BlkQueue.size_eq accounts.order]
  rw [isSlot]
  exact accounts.ring.push (id, len)

theorem usedIdx_succ (index : BitVec 16) (count : Nat) :
    index + BitVec.ofNat 16 count + 1 = index + BitVec.ofNat 16 (count + 1) := by
  rw [BitVec.ofNat_add, BitVec.add_assoc]
  rfl

section

variable (accounts : Accounts start vq events)
include accounts

theorem Accounts.fetch (avail : AvailRing) (handled : vq.reqs = []) :
    Accounts start (availRingGet vq avail)
      (events ++ (availTaken vq avail).map fun entry => .taken entry.1 entry.2) := by
  have sameSize := BlkQueue.size_eq accounts.order
  have isLength : (availTaken vq avail).length = availCount vq avail := by
    rw [availTaken, List.length_map, List.length_range]
  refine { accounts with slots := ?_, avail := ?_, ids := ?_, usedIdx := ?_, ring := ?_ }
  · rw [takenOf_append, takenOf_map, List.map_append, List.length_append, List.range_add,
      List.map_append, accounts.slots, isLength, availTaken, List.map_map, List.map_map]
    refine congrArg _ (List.map_congr_left fun i _ => ?_)
    simp only [Function.comp_apply]
    rw [accounts.avail, BitVec.add_assoc, ← BitVec.ofNat_add, vq.slot_add, sameSize]
  · rw [takenOf_append, takenOf_map, List.length_append, isLength]
    simp only [availRingGet]
    rw [accounts.avail, BitVec.add_assoc, ← BitVec.ofNat_add]
  · have before := accounts.ids
    rw [handled, List.nil_append] at before
    rw [takenOf_append, takenOf_map, reportedOf_append, reportedOf_map, List.append_nil,
      List.map_append]
    refine (before.append_right _).trans ?_
    rw [List.append_assoc]
    exact List.perm_append_comm.append_left _
  · rw [reportedOf_append, reportedOf_map, List.append_nil]
    exact accounts.usedIdx
  · rw [reportedOf_append, reportedOf_map, List.append_nil]
    exact accounts.ring

/-- An entry that is reported at once leaves the waiting ones and joins the reported ones. -/
theorem Accounts.report (len : BitVec 32) (isReqs : vq.reqs = id :: rest) {seen : List VqEvent}
    (nothing : takenOf seen = []) (report : reportedOf seen = [(id, len)]) :
    Accounts start (usedRingEnqueue { vq with reqs := rest } id len) (events ++ seen) := by
  refine { accounts with slots := ?_, avail := ?_, ids := ?_, usedIdx := ?_, ring := ?_ }
  · rw [takenOf_append, nothing, List.append_nil]
    exact accounts.slots
  · rw [takenOf_append, nothing, List.append_nil]
    exact accounts.avail
  · have before := accounts.ids
    rw [isReqs] at before
    rw [takenOf_append, nothing, List.append_nil, reportedOf_append, report]
    simpa [usedRingEnqueue] using before
  · rw [reportedOf_append, report, List.length_append, List.length_singleton]
    simp only [usedRingEnqueue]
    rw [accounts.usedIdx, usedIdx_succ]
  · rw [reportedOf_append, report]
    exact accounts.enqueue_ring id len

theorem Accounts.submit (task : BlkTask) (isReqs : vq.reqs = id :: rest)
    (within : id.toNat < vq.size) (free : vq.used id = false) :
    Accounts start { vq with
      reqs := rest, used := update vq.used id true, pending := (id, task) :: vq.pending }
      (events ++ [.started id]) := by
  have isFree : id ∉ vq.pending.map Prod.fst := fun member =>
    absurd ((accounts.used id).mpr member) (by rw [free]; decide)
  have sameTaken : takenOf (events ++ [.started id]) = takenOf events := by
    rw [takenOf_append]
    exact List.append_nil _
  have sameReported : reportedOf (events ++ [.started id]) = reportedOf events := by
    rw [reportedOf_append]
    exact List.append_nil _
  refine ⟨accounts.order, ?_, ?_, ?_, ?_, ?_, List.nodup_cons.mpr ⟨isFree, accounts.nodup⟩, ?_, ?_⟩
  · rw [sameTaken]
    exact accounts.slots
  · rw [sameTaken]
    exact accounts.avail
  · have before := accounts.ids
    rw [isReqs, List.cons_append] at before
    rw [sameTaken, sameReported]
    exact before.trans (List.perm_middle.symm.append_left _)
  · rw [sameReported]
    exact accounts.usedIdx
  · rw [sameReported]
    exact accounts.ring
  · intro other
    rw [List.map_cons, List.mem_cons, ← accounts.used other]
    by_cases same : other = id
    · simp [same]
    · simp [same]
  · intro other member
    rcases List.mem_cons.mp member with rfl | pending
    · rw [← BlkQueue.size_eq accounts.order]
      exact within
    · exact accounts.within other pending

theorem Accounts.complete {task : BlkTask} (len : BitVec 32)
    (found : vq.pending.find? (fun entry => entry.1 = id) = some (id, task)) :
    Accounts start { usedRingEnqueue vq id len with
      used := update vq.used id false
      pending := vq.pending.eraseP fun entry => entry.1 = id }
      (events ++ [.reported id len]) := by
  have member : id ∈ vq.pending.map Prod.fst :=
    List.mem_map.mpr ⟨(id, task), List.mem_of_find?_eq_some found, rfl⟩
  have sameTaken : takenOf (events ++ [.reported id len]) = takenOf events := by
    rw [takenOf_append]
    exact List.append_nil _
  have oneMore : reportedOf (events ++ [.reported id len]) = reportedOf events ++ [(id, len)] :=
    reportedOf_append events [.reported id len]
  refine ⟨accounts.order, ?_, ?_, ?_, ?_, ?_, ?_, ?_, ?_⟩
  · rw [sameTaken]
    exact accounts.slots
  · rw [sameTaken]
    exact accounts.avail
  · rw [sameTaken, oneMore, map_fst_eraseP, List.map_append, List.append_assoc]
    refine accounts.ids.trans (List.Perm.append_left _ ?_)
    refine ((List.perm_cons_erase member).append_left _).trans ?_
    exact List.perm_middle
  · rw [oneMore, List.length_append, List.length_singleton]
    simp only [usedRingEnqueue]
    rw [accounts.usedIdx, usedIdx_succ]
  · rw [oneMore]
    exact accounts.enqueue_ring id len
  · rw [map_fst_eraseP]
    exact accounts.nodup.erase id
  · intro other
    rw [map_fst_eraseP, accounts.nodup.mem_erase_iff, ← accounts.used other]
    by_cases same : other = id
    · simp [same]
    · simp [same]
  · intro other left
    rw [map_fst_eraseP] at left
    exact accounts.within other (List.mem_of_mem_erase left)

/-- Every move keeps the accounts. -/
theorem Accounts.move {next : BlkQueue} (move : Move vq next moved) :
    Accounts start next (events ++ moved) := by
  cases move with
  | fetch avail handled => exact accounts.fetch avail handled
  | reject id rest isReqs refused => exact accounts.report 0 isReqs rfl rfl
  | submit id rest task isReqs within free => exact accounts.submit task isReqs within free
  | finish id rest len isReqs within free => exact accounts.report len isReqs rfl rfl
  | complete id task len found => exact accounts.complete len found

end

end Accounts

/-! ### The whole device -/

/-- What is seen of one queue. -/
def eventsAt (q : Fin queues) (events : List (DevEvent queues)) : List VqEvent :=
  events.filterMap fun
    | .at other event => if other = q then some event else none
    | .assertFailed => none

theorem eventsAt_append (q : Fin queues) (events later : List (DevEvent queues)) :
    eventsAt q (events ++ later) = eventsAt q events ++ eventsAt q later := List.filterMap_append

theorem eventsAt_self (q : Fin queues) (moved : List VqEvent) :
    eventsAt q (moved.map (.at q)) = moved := by
  rw [eventsAt, List.filterMap_map]
  simp

theorem eventsAt_other {q other : Fin queues} (moved : List VqEvent) (differs : q ≠ other) :
    eventsAt other (moved.map (.at q)) = [] := by
  rw [eventsAt, List.filterMap_map]
  simp [differs]

/-- The accounts of all queues; a task is counted for every request that is pending. -/
structure DevAccounts (start dev : VhostDev queues) (events : List (DevEvent queues)) : Prop where
  accounts : ∀ q, Accounts (start.vq q) (dev.vq q) (eventsAt q events)
  counted : dev.taskCnt = ∑ q, (dev.vq q).pending.length
  asserted : .assertFailed ∉ events

theorem sum_pending_setVq (dev : VhostDev queues) (q : Fin queues) (vq : BlkQueue) :
    ∑ other, ((dev.setVq q vq).vq other).pending.length + (dev.vq q).pending.length =
      ∑ other, (dev.vq other).pending.length + vq.pending.length := by
  have after := Finset.add_sum_erase Finset.univ
    (fun other => ((dev.setVq q vq).vq other).pending.length) (Finset.mem_univ q)
  have before := Finset.add_sum_erase Finset.univ
    (fun other => (dev.vq other).pending.length) (Finset.mem_univ q)
  have same : ∑ other ∈ Finset.univ.erase q, ((dev.setVq q vq).vq other).pending.length =
      ∑ other ∈ Finset.univ.erase q, (dev.vq other).pending.length :=
    Finset.sum_congr rfl fun other member => by
      rw [setVq_other dev vq (Finset.ne_of_mem_erase member)]
  simp only [setVq_self] at after
  omega

theorem DevAccounts.step {start next : VhostDev queues} {past events : List (DevEvent queues)}
    (holds : DevAccounts start dev past) (moves : StepMoves dev next events) :
    DevAccounts start next (past ++ events) := by
  obtain ⟨q, vq, moved, move, isVq, isCnt, isEvents⟩ := moves
  have split := Finset.add_sum_erase Finset.univ
    (fun other => (dev.vq other).pending.length) (Finset.mem_univ q)
  -- a pending task is counted, so the assertion holds when it is finished
  have events_eq : events = moved.map (.at q) := by
    rcases isEvents with isEvents | ⟨none, pending, _⟩
    · exact isEvents
    · have positive := List.length_pos_iff.mpr pending
      have counted := holds.counted
      omega
  subst events_eq
  refine ⟨fun other => ?_, ?_, ?_⟩
  · rw [eventsAt_append, isVq]
    by_cases same : other = q
    · subst same
      rw [eventsAt_self, setVq_self]
      exact (holds.accounts other).move move
    · rw [eventsAt_other moved (Ne.symm same), List.append_nil, setVq_other dev vq same]
      exact holds.accounts other
  · have total := sum_pending_setVq dev q vq
    have counted := holds.counted
    rw [isCnt, isVq]
    omega
  · rw [List.mem_append, not_or]
    refine ⟨holds.asserted, fun failed => ?_⟩
    obtain ⟨event, _, isFailed⟩ := List.mem_map.mp failed
    cases isFailed

theorem IdleDev.devAccounts {start : VhostDev queues} (idle : IdleDev start) :
    DevAccounts start start [] := by
  refine ⟨fun q => ?_, ?_, List.not_mem_nil⟩
  · refine ⟨rfl, rfl, ?_, ?_, ?_, fun position entry isEntry => ?_, ?_, fun id => ?_, fun id => ?_⟩
    · exact (BitVec.add_zero _).symm
    · rw [idle.reqs q, idle.pending q]
      exact .refl _
    · exact (BitVec.add_zero _).symm
    · simp [eventsAt, reportedOf] at isEntry
    · rw [idle.pending q]
      exact List.nodup_nil
    · simp [idle.used q id, idle.pending q]
    · simp [idle.pending q]
  · simp [idle.taskCnt, idle.pending]

/-- The number of tasks of a queue that have `used` set. -/
def usedTasks (vq : BlkQueue) : Nat :=
  ((List.range vq.size).filter fun id => vq.used (BitVec.ofNat 16 id)).length

theorem Accounts.usedTasks_eq {start vq : BlkQueue} {events : List VqEvent}
    (accounts : Accounts start vq events) : usedTasks vq = vq.pending.length := by
  have sameSize := BlkQueue.size_eq accounts.order
  have small : vq.size < 2 ^ 16 := Nat.pow_lt_pow_right (by decide) vq.order.isLt
  have nodup : ((vq.pending.map Prod.fst).map BitVec.toNat).Nodup :=
    accounts.nodup.map fun id other same => BitVec.eq_of_toNat_eq same
  have perm : ((List.range vq.size).filter fun id => vq.used (BitVec.ofNat 16 id)).Perm
      ((vq.pending.map Prod.fst).map BitVec.toNat) := by
    refine (List.perm_ext_iff_of_nodup (List.nodup_range.filter _) nodup).mpr fun id => ?_
    rw [List.mem_filter, List.mem_range, accounts.used]
    constructor
    · rintro ⟨within, member⟩
      refine List.mem_map.mpr ⟨_, member, ?_⟩
      rw [BitVec.toNat_ofNat, Nat.mod_eq_of_lt (by omega)]
    · intro isToNat
      obtain ⟨other, member, rfl⟩ := List.mem_map.mp isToNat
      rw [BitVec.ofNat_toNat, BitVec.setWidth_eq, sameSize]
      exact ⟨accounts.within other member, member⟩
  rw [usedTasks, perm.length_eq, List.length_map, List.length_map]

/-- A slot that a move starts was free. -/
theorem Move.started_free {vq next : BlkQueue} (move : Move vq next moved)
    (started : .started id ∈ moved) : vq.used id = false := by
  cases move with
  | fetch avail handled | reject other rest isReqs refused | complete other task len found =>
    simp at started
  | submit other rest task isReqs within free | finish other rest len isReqs within free =>
    obtain rfl : id = other := by simpa using started
    exact free

theorem StepMoves.started_free (moves : StepMoves dev next events) {q : Fin queues}
    (started : .at q (.started id) ∈ events) : (dev.vq q).used id = false := by
  obtain ⟨other, vq, moved, move, _, _, isEvents⟩ := moves
  have member : DevEvent.at q (.started id) ∈ moved.map (DevEvent.at other) := by
    rcases isEvents with rfl | ⟨_, _, rfl⟩
    · exact started
    · simpa using started
  obtain ⟨event, inMoved, isEvent⟩ := List.mem_map.mp member
  cases isEvent
  exact move.started_free inMoved

/--
For any content of the avail rings and any order of completions, after every run: the
accounts of all queues hold, the count of tasks is the number of tasks in use, the
assertion has never failed, and a slot that the next step starts is free.
-/
theorem run_accounts (start last : VhostDev queues) (actions : List (DevAction queues))
    (events : List (DevEvent queues)) (idle : IdleDev start)
    (ran : run devStep start actions = some (last, events)) :
    (∀ q, Accounts (start.vq q) (last.vq q) (eventsAt q events)) ∧
      last.taskCnt = ∑ q, usedTasks (last.vq q) ∧ .assertFailed ∉ events ∧
      ∀ action next seen, devStep last action = some (next, seen) →
        ∀ q id, .at q (.started id) ∈ seen → (last.vq q).used id = false := by
  have holds : DevAccounts start last ([] ++ events) :=
    run_invariant devStep (DevAccounts start)
      (fun _ _ _ _ _ held taken => held.step (devStep_moves taken)) [] idle.devAccounts ran
  rw [List.nil_append] at holds
  refine ⟨holds.accounts, ?_, holds.asserted, ?_⟩
  · rw [holds.counted]
    exact Finset.sum_congr rfl fun q _ => (holds.accounts q).usedTasks_eq.symm
  · intro action next seen taken q id started
    exact (devStep_moves taken).started_free started

/-- A device with one queue of four entries, whose indices are about to wrap. -/
def oneQueue : VhostDev 1 where
  vq := fun _ =>
    { order := 2, lastAvailIdx := 0xffff, lastUsedIdx := 0xffff, usedRing := fun _ => (0, 0)
      used := fun _ => false, reqs := [], pending := [] }
  taskCnt := 0

/-- A read, the same head once more, a head that is out of range, and the completion. -/
def repeatedHeads : List (DevAction 1) :=
  [.fetch 0 { idx := 2, ring := fun slot => if slot = 1 then 9 else 0 },
    .handle 0 bouncingDev oneByteRead (headerMemory 0) 4,
    .handle 0 bouncingDev oneByteRead (headerMemory 0) 4,
    .handle 0 bouncingDev oneByteRead (headerMemory 0) 4,
    .complete 0 0 true (headerMemory 0)]

theorem oneQueue_idle : IdleDev oneQueue :=
  ⟨fun _ _ => rfl, fun _ => rfl, fun _ => rfl, rfl⟩

theorem run_accounts_repeatedHeads :
    ∃ last events, run devStep oneQueue repeatedHeads = some (last, events) ∧
      (takenOf (eventsAt 0 events)).map Prod.fst = [3, 0, 1] ∧
      reportedOf (eventsAt 0 events) = [(0, 0), (9, 0), (0, 2)] ∧
      Accounts (oneQueue.vq 0) (last.vq 0) (eventsAt 0 events) :=
  ⟨_, _, rfl, by decide, by decide, (run_accounts oneQueue _ repeatedHeads _ oneQueue_idle rfl).1 0⟩

end StudyNotes.VhostBlk
