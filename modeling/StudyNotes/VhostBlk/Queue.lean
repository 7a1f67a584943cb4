/-
This file models the queues of the vhost block device: how it takes requests from
the avail rings, gives them to its task slots, and reports them in the used rings.

The guest may write anything to its avail rings at any time, and the block device
layer completes requests in any order. Taking entries, handling one of them and
completing one request are separate steps, so a completion may come at any point.
No list of requests is there to be submitted again.
-/

import StudyNotes.VhostBlk.Request

namespace StudyNotes.VhostBlk

open Library Function

/-! ### The state -/

/--
A queue with `2 ^ order` entries. `reqs` are the entries that `process_vq` has taken
and not handled yet, and `pending` are the tasks that the block device layer has.
-/
structure BlkQueue where
  order : Fin 16
  lastAvailIdx : BitVec 16
  lastUsedIdx : BitVec 16
  usedRing : Nat → BitVec 16 × BitVec 32
  used : BitVec 16 → Bool
  reqs : List (BitVec 16)
  pending : List (BitVec 16 × BlkTask)

/-- `vring->size`. -/
def BlkQueue.size (vq : BlkQueue) : Nat := 2 ^ vq.order.val

/-- The entry of a ring at an index: `index & (vring->size - 1)`. -/
def BlkQueue.slot (vq : BlkQueue) (index : BitVec 16) : Nat :=
  (index &&& (BitVec.ofNat 16 vq.size - 1)).toNat

structure VhostDev (queues : Nat) where
  vq : Fin queues → BlkQueue
  taskCnt : Nat

/-- What a step does to one queue that can be seen. -/
inductive VqEvent where
  | taken (slot : Nat) (id : BitVec 16)
  | started (id : BitVec 16)
  | reported (id : BitVec 16) (len : BitVec 32)

inductive DevEvent (queues : Nat) where
  | at (q : Fin queues) (event : VqEvent)
  | assertFailed

/-! ### The functions -/

/-- `SPDK_COUNTOF(reqs)`. -/
def reqsLen : Nat := 32

/-- What the guest has in an avail ring. -/
structure AvailRing where
  idx : BitVec 16
  ring : Nat → BitVec 16

/-- `spdk_vhost_vq_avail_ring_get`: how many entries are taken. -/
def availCount (vq : BlkQueue) (avail : AvailRing) : Nat :=
  let count := (avail.idx - vq.lastAvailIdx).toNat
  if count > vq.size then 0 else min count reqsLen

/-- `spdk_vhost_vq_avail_ring_get`: the entries of the ring that are taken, and what is there. -/
def availTaken (vq : BlkQueue) (avail : AvailRing) : List (Nat × BitVec 16) :=
  (List.range (availCount vq avail)).map fun i =>
    let slot := vq.slot (vq.lastAvailIdx + BitVec.ofNat 16 i)
    (slot, avail.ring slot)

def availRingGet (vq : BlkQueue) (avail : AvailRing) : BlkQueue :=
  { vq with
    lastAvailIdx := vq.lastAvailIdx + BitVec.ofNat 16 (availCount vq avail)
    reqs := (availTaken vq avail).map (·.2) }

/-- `spdk_vhost_vq_used_ring_enqueue`. -/
def usedRingEnqueue (vq : BlkQueue) (id : BitVec 16) (len : BitVec 32) : BlkQueue :=
  { vq with
    lastUsedIdx := vq.lastUsedIdx + 1
    usedRing := update vq.usedRing (vq.slot vq.lastUsedIdx) (id, len) }

variable {queues : Nat} (dev : VhostDev queues)

def VhostDev.setVq (q : Fin queues) (vq : BlkQueue) : VhostDev queues :=
  { dev with vq := update dev.vq q vq }

variable (q : Fin queues) (id : BitVec 16)

/-- `blk_task_finish`, which asserts that there is a task. -/
def blkTaskFinish : VhostDev queues × List (DevEvent queues) :=
  let vq := dev.vq q
  ({ dev.setVq q { vq with used := update vq.used id false } with
      taskCnt := dev.taskCnt - 1 },
    if dev.taskCnt = 0 then [.assertFailed] else [])

/-- A report in the used ring and the end of the task, as at the end of every request. -/
def reportTask (len : BitVec 32) : VhostDev queues × List (DevEvent queues) :=
  let finished := blkTaskFinish (dev.setVq q (usedRingEnqueue (dev.vq q) id len)) q id
  (finished.1, .at q (.reported id len) :: finished.2)

/-- The task of a request is in use from here on. -/
def startTask : VhostDev queues :=
  let vq := dev.vq q
  { dev.setVq q { vq with used := update vq.used id true } with
    taskCnt := dev.taskCnt + 1 }

def addPending (task : BlkTask) : VhostDev queues :=
  let vq := dev.vq q
  dev.setVq q { vq with pending := (id, task) :: vq.pending }

/-- The task is started, and `process_blk_request` reports it or hands it on. -/
def startReq (outcome : Outcome) : VhostDev queues × List (DevEvent queues) :=
  let started := startTask dev q id
  match outcome with
  | .submitted _ task _ => (addPending started q id task, [.at q (.started id)])
  | .reported _ usedLen =>
    let finished := reportTask started q id usedLen
    (finished.1, .at q (.started id) :: finished.2)

/-- A completion calls back for a task that the block device layer has, and has it no more. -/
def completeTask (task : BlkTask)
    (success : Bool) (memory : Memory) : VhostDev queues × List (DevEvent queues) :=
  let vq := dev.vq q
  let left := dev.setVq q { vq with pending := vq.pending.eraseP fun entry => entry.1 = id }
  reportTask left q id (blkRequestCompleteCb success memory task).2

/-! ### The steps -/

/-- What can happen, with the guest's memory as it is then. -/
inductive DevAction (queues : Nat) where
  | fetch (q : Fin queues) (avail : AvailRing)
  | handle (q : Fin queues) (blk : BlkDev) (guest : GuestTables) (memory : Memory) (fuel : Nat)
  | complete (q : Fin queues) (id : BitVec 16) (success : Bool) (memory : Memory)

/-- One turn of the loop of `process_vq`. An entry is started if its chain can be walked. -/
def handleReq (outcome : Option Outcome) : Option (VhostDev queues × List (DevEvent queues)) :=
  let vq := dev.vq q
  if id.toNat ≥ vq.size ∨ vq.used id = true then
    some (dev.setVq q (usedRingEnqueue vq id 0), [.at q (.reported id 0)])
  else outcome.map (startReq dev q id)

/-- One step. `process_vq` takes new entries when it has handled those of its last call. -/
def devStep : DevAction queues → Option (VhostDev queues × List (DevEvent queues))
  | .fetch q avail =>
    if (dev.vq q).reqs = [] then
      some (dev.setVq q (availRingGet (dev.vq q) avail),
        (availTaken (dev.vq q) avail).map fun entry => .at q (.taken entry.1 entry.2))
    else none
  | .handle q blk guest memory fuel =>
    match (dev.vq q).reqs with
    | [] => none
    | id :: rest =>
      let vq := dev.vq q
      handleReq (dev.setVq q { vq with reqs := rest }) q id
        (processBlkRequest blk guest memory id.toNat fuel)
  | .complete q id success memory =>
    ((dev.vq q).pending.find? fun entry => entry.1 = id).map fun entry =>
      completeTask dev q id entry.2 success memory

/-- A device after `alloc_task_pool`: no task is in use. -/
structure IdleDev (dev : VhostDev queues) : Prop where
  used : ∀ q id, (dev.vq q).used id = false
  reqs : ∀ q, (dev.vq q).reqs = []
  pending : ∀ q, (dev.vq q).pending = []
  taskCnt : dev.taskCnt = 0

end StudyNotes.VhostBlk
