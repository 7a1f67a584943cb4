/-
This file models the driver's side of a virtqueue: the ring memory that is
shared with the device, the driver's own record of it, and the three functions
that create a queue, add buffers to it and take used buffers back.

Descriptors that are not in use are linked through the same `next` fields as
the chains the device works on. All fields of the ring have the width of the
ring format, so an index is cut to 16 bits when it is stored there.
-/

import StudyNotes.Library.Loop
import StudyNotes.Library.Machine
import Mathlib.Algebra.Order.Ring.Int
import Mathlib.Algebra.Order.Ring.Nat

namespace StudyNotes.Virtqueue

open Library Function

/-! ### The ring memory -/

/-- `struct vring_desc`. -/
structure VringDesc where
  addr : BitVec 64
  len : BitVec 32
  flags : BitVec 16
  next : BitVec 16
  deriving DecidableEq, Inhabited

def vringDescFNext : BitVec 16 := 1
def vringDescFWrite : BitVec 16 := 2
def vringDescFIndirect : BitVec 16 := 4
def vringAvailFNoInterrupt : BitVec 16 := 1

/-- `sizeof(struct vring_desc)`. -/
def descSize : Nat := 16

/-- `struct vring_avail`. The used event lies behind the last entry of the ring. -/
structure VringAvail where
  flags : BitVec 16
  idx : BitVec 16
  ring : Nat → BitVec 16

/-- `struct vring_used_elem`. -/
structure VringUsedElem where
  id : BitVec 32
  len : BitVec 32

/-- `struct vring_used`, which only the device writes. -/
structure VringUsed where
  flags : BitVec 16
  idx : BitVec 16
  ring : Nat → VringUsedElem

/-- `struct vring`. -/
structure Vring where
  num : Nat
  desc : Nat → VringDesc
  avail : VringAvail
  used : VringUsed

/-! ### The driver's record -/

/-- `struct vring_desc_state`, with the indirect table itself for the pointer to it. -/
structure VringDescState (Token : Type) where
  data : Option Token
  indirDesc : Option (Nat → VringDesc)

/-- `struct vring_virtqueue`, as far as the functions below use it. -/
structure VringVirtqueue (Token : Type) where
  vring : Vring
  numFree : Nat
  broken : Bool
  indirect : Bool
  freeHead : Nat
  numAdded : Nat
  lastUsedIdx : BitVec 16
  descState : Nat → VringDescState Token

/--
What `virtqueue_kick` and `BAD_RING`, which are not part of the source, leave in
the fields that they may write. The rings and the free list they leave alone.
-/
structure Missing (Token : Type) where
  /-- `num_added` and `broken` after `virtqueue_kick`. -/
  kick : VringVirtqueue Token → Nat × Bool
  /-- `broken` after `BAD_RING`. -/
  badRing : VringVirtqueue Token → Bool

/-- An entry of a scatter list, at the address it is mapped to. -/
structure Scatterlist where
  addr : BitVec 64
  length : BitVec 32

inductive ReturnCode
  | success
  | eio
  | enospc
  deriving DecidableEq

/-- What can be seen of a run: buffers handed over and taken back, and calls to the device. -/
inductive Event (Token : Type)
  | added (head : Nat) (token : Token)
  | got (id : Nat) (token : Token)
  | notified
  | kicked

variable {Token : Type}

/-! ### Creating a queue -/

/-- The loop of `__vring_new_virtqueue` that puts everything in the free list. -/
def linkDescs (desc : Nat → VringDesc) (num : Nat) : Nat → VringDesc :=
  (List.range (num - 1)).foldl
    (fun desc i => update desc i { desc i with next := BitVec.ofNat 16 (i + 1) }) desc

/-- `__vring_new_virtqueue`. -/
def vringNewVirtqueue (vring : Vring) (callback indirect : Bool) : VringVirtqueue Token where
  vring :=
    { vring with
      avail :=
        { vring.avail with
          flags :=
            if callback then vring.avail.flags
            else vring.avail.flags ||| vringAvailFNoInterrupt }
      desc := linkDescs vring.desc vring.num }
  numFree := vring.num
  broken := false
  indirect := indirect
  freeHead := 0
  numAdded := 0
  lastUsedIdx := 0
  descState := fun _ => { data := none, indirDesc := none }

/-! ### Adding buffers -/

/-- `alloc_indirect`, when there is memory for the table. -/
def allocIndirect : Nat → VringDesc :=
  fun i => { addr := 0, len := 0, flags := 0, next := BitVec.ofNat 16 (i + 1) }

/-- The variables of the loops of `virtqueue_add`. -/
structure Filling where
  desc : Nat → VringDesc
  prev : Nat
  i : Nat

/-- One turn of the loops of `virtqueue_add`. -/
def fillDesc (flags : BitVec 16) (filling : Filling) (sg : Scatterlist) : Filling where
  desc := update filling.desc filling.i
    { filling.desc filling.i with flags := flags, addr := sg.addr, len := sg.length }
  prev := filling.i
  i := (filling.desc filling.i).next.toNat

/-- The last descriptor does not continue. -/
def endChain (filling : Filling) : Filling :=
  let last := filling.desc filling.prev
  { filling with
    desc := update filling.desc filling.prev
      { last with flags := last.flags &&& ~~~vringDescFNext } }

/-- Both loops of `virtqueue_add` and the end mark on the last descriptor. -/
def fillDescs (desc : Nat → VringDesc) (i : Nat) (outSgs inSgs : List (List Scatterlist)) :
    Filling :=
  let start : Filling := { desc := desc, prev := 0, i := i }
  let afterOut := outSgs.flatten.foldl (fillDesc vringDescFNext) start
  let afterIn := inSgs.flatten.foldl (fillDesc (vringDescFNext ||| vringDescFWrite)) afterOut
  endChain afterIn

variable (missing : Missing Token) (vq : VringVirtqueue Token)

/-- `virtqueue_kick`. -/
def virtqueueKick : VringVirtqueue Token :=
  { vq with numAdded := (missing.kick vq).1, broken := (missing.kick vq).2 }

/-- `BAD_RING`. -/
def badRing : VringVirtqueue Token := { vq with broken := missing.badRing vq }

/-- The end of `virtqueue_add`: store the token and expose the head in the available ring. -/
def exposeHead (head : Nat) (token : Token) : VringVirtqueue Token × List (Event Token) :=
  let avail := vq.vring.avail
  let slot := avail.idx.toNat &&& (vq.vring.num - 1)
  let exposed :=
    { vq with
      descState := update vq.descState head
        { vq.descState head with data := some token }
      vring :=
        { vq.vring with
          avail :=
            { avail with
              ring := update avail.ring slot (BitVec.ofNat 16 head)
              idx := avail.idx + 1 } }
      numAdded := vq.numAdded + 1 }
  if exposed.numAdded = 2 ^ 16 - 1 then
    (virtqueueKick missing exposed, [.added head token, .kicked])
  else (exposed, [.added head token])

variable (outSgs inSgs : List (List Scatterlist))

/-- The part of `virtqueue_add` that fills descriptors of the ring. -/
def addDirect (totalSg : Nat) : VringVirtqueue Token :=
  let filling := fillDescs vq.vring.desc vq.freeHead outSgs inSgs
  { vq with
    vring := { vq.vring with desc := filling.desc }
    numFree := vq.numFree - totalSg
    freeHead := filling.i }

/-- The part of `virtqueue_add` that fills an indirect table and one descriptor of the ring. -/
def addIndirect (totalSg : Nat) (tableAddr : BitVec 64) : VringVirtqueue Token :=
  let head := vq.freeHead
  let filling := fillDescs allocIndirect 0 outSgs inSgs
  { vq with
    vring :=
      { vq.vring with
        desc := update vq.vring.desc head
          { vq.vring.desc head with
            flags := vringDescFIndirect
            addr := tableAddr
            len := BitVec.ofNat 32 (totalSg * descSize) } }
    numFree := vq.numFree - 1
    freeHead := (vq.vring.desc head).next.toNat
    descState := update vq.descState head
      { vq.descState head with indirDesc := some filling.desc } }

/-- The choice of `virtqueue_add` between an indirect table and the descriptors of the ring. -/
def chooseTable (totalSg : Nat) (tableAddr : Option (BitVec 64)) : Option (BitVec 64) :=
  if vq.indirect ∧ totalSg > 1 ∧ vq.numFree ≠ 0 then tableAddr else none

def descsUsed (table : Option (BitVec 64)) (totalSg : Nat) : Nat :=
  match table with
  | some _ => 1
  | none => totalSg

def addTo (totalSg : Nat) :
    Option (BitVec 64) → VringVirtqueue Token
  | some addr => addIndirect vq outSgs inSgs totalSg addr
  | none => addDirect vq outSgs inSgs totalSg

/--
`virtqueue_add` where no mapping fails. The memory for an indirect table may be
missing: `tableAddr` is the address the table is mapped to if there is one. The
result is `none` where the source stops at a `BUG_ON`.
-/
def virtqueueAdd (token : Token) (tableAddr : Option (BitVec 64)) :
    Option (VringVirtqueue Token × ReturnCode × List (Event Token)) :=
  let totalSg := outSgs.flatten.length + inSgs.flatten.length
  if vq.broken then some (vq, .eio, [])
  else if totalSg > vq.vring.num ∨ totalSg = 0 then none
  else
    let table := chooseTable vq totalSg tableAddr
    if vq.numFree < descsUsed table totalSg then
      some (vq, .enospc, if outSgs = [] then [] else [.notified])
    else
      let (exposed, events) :=
        exposeHead missing (addTo vq outSgs inSgs totalSg table) vq.freeHead token
      some (exposed, .success, events)

/-! ### Taking buffers back -/

/-- `desc[i].flags & nextflag`. -/
def hasNext (vring : Vring) (i : Nat) : Bool := (vring.desc i).flags &&& vringDescFNext != 0

def nextOf (vring : Vring) (i : Nat) : Nat := (vring.desc i).next.toNat

/-- One turn of the loop of `detach_buf`, on its variables `i` and `num_free`. -/
def detachTurn (vring : Vring) : Nat × Nat → Option (Turn (Nat × Nat) (Nat × Nat))
  | (i, numFree) =>
    if hasNext vring i then some (.again (nextOf vring i, numFree + 1))
    else some (.done (i, numFree))

/--
`detach_buf`. The loop is given as many turns as there are descriptors. An
indirect table, if there is one, is freed.
-/
def detachBuf (head : Nat) : Option (VringVirtqueue Token) :=
  (loop (detachTurn vq.vring) vq.vring.num (head, vq.numFree)).map fun (i, numFree) =>
    { vq with
      vring :=
        { vq.vring with
          desc := update vq.vring.desc i
            { vq.vring.desc i with next := BitVec.ofNat 16 vq.freeHead } }
      freeHead := head
      numFree := numFree + 1
      descState := update vq.descState head { data := none, indirDesc := none } }

/-- `more_used`. -/
def moreUsed : Bool := vq.lastUsedIdx != vq.vring.used.idx

/-- The id in the used entry that `virtqueue_get_buf` reads. -/
def usedId : Nat :=
  (vq.vring.used.ring (vq.lastUsedIdx.toNat &&& (vq.vring.num - 1))).id.toNat

/-- The end of `virtqueue_get_buf`: go on to the next used entry and ask for its interrupt. -/
def consumeUsed : VringVirtqueue Token :=
  let avail := vq.vring.avail
  let lastUsedIdx := vq.lastUsedIdx + 1
  { vq with
    lastUsedIdx := lastUsedIdx
    vring :=
      { vq.vring with
        avail :=
          if avail.flags &&& vringAvailFNoInterrupt != 0 then avail
          else { avail with ring := update avail.ring vq.vring.num lastUsedIdx } } }

/-- `virtqueue_get_buf`. -/
def virtqueueGetBuf : Option (VringVirtqueue Token × Option Token) :=
  if vq.broken then some (vq, none)
  else if !moreUsed vq then some (vq, none)
  else if usedId vq ≥ vq.vring.num then some (badRing missing vq, none)
  else
    match (vq.descState (usedId vq)).data with
    | none => some (badRing missing vq, none)
    | some token =>
      (detachBuf vq (usedId vq)).map fun detached => (consumeUsed detached, some token)

/-! ### The queue and its device -/

/-- The driver adds a buffer or asks for a used one, or the device writes its part of the ring. -/
inductive Action (Token : Type)
  | add (outSgs inSgs : List (List Scatterlist)) (token : Token) (tableAddr : Option (BitVec 64))
  | getBuf
  | publish (used : VringUsed)

def step : Action Token → Option (VringVirtqueue Token × List (Event Token))
  | .add outSgs inSgs token tableAddr =>
    (virtqueueAdd missing vq outSgs inSgs token tableAddr).map fun (next, _, events) =>
      (next, events)
  | .getBuf =>
    (virtqueueGetBuf missing vq).map fun (next, token) =>
      (next, token.toList.map (.got (usedId vq)))
  | .publish used => some ({ vq with vring := { vq.vring with used := used } }, [])

end StudyNotes.Virtqueue
