/-
This file proves that taking a buffer from a ring that the guest controls comes to an
end, reads only inside the descriptor table and takes the entries of the ring in order.
-/

import StudyNotes.Virtqueue.Ring

namespace StudyNotes.VhostNet

open Library Virtqueue

/-! ### Taking a buffer -/

def vringUsedFNoNotify : BitVec 16 := 1

/-- `struct vhost_virtqueue`, as far as `vhost_get_vq_desc` uses it. -/
structure VhostVirtqueue where
  num : Nat
  lastAvailIdx : BitVec 16
  availIdx : BitVec 16
  usedFlags : BitVec 16

variable (vq : VhostVirtqueue)

/-- The slot of the available ring for an index. -/
def VhostVirtqueue.slot (idx : BitVec 16) : Nat := idx.toNat &&& (vq.num - 1)

/-- What a call finds in the memory of the guest, and what the functions that it calls return. -/
structure Guest where
  availIdx : Option (BitVec 16)
  ring : Nat → Option (BitVec 16)
  /-- The contents of `desc` after a read, which may also fail half way. -/
  desc : (found i : Nat) → VringDesc → VringDesc
  getIndirect : VringDesc → BitVec 32 × BitVec 32 → BitVec 32 × BitVec 32
  translateDesc : VringDesc → BitVec 32 → BitVec 32

/-- The loop over a chain, with the indices of the descriptors that it has read. -/
structure Walk where
  i : Nat
  found : Nat := 0
  desc : VringDesc := ⟨0, 0, 0, 0⟩
  /-- `*out_num` and `*in_num`. -/
  counts : BitVec 32 × BitVec 32 := (0, 0)
  reads : List Nat := []

inductive Ret where
  | efault
  | einval
  | nothing
  | head (head : BitVec 16)
  /-- `BUG_ON` at the end of the function. -/
  | bug

structure Call where
  ret : Ret
  vq : VhostVirtqueue
  walk : Walk := { i := 0 }

/-- `next_desc`. -/
def nextDesc (desc : VringDesc) : Option Nat :=
  if desc.flags &&& vringDescFNext = 0 then none else some desc.next.toNat

/-- One turn of the loop. It is done with `false` at an index or a loop that is an error. -/
def chainTurn (guest : Guest) (walk : Walk) : Option (Turn Walk (Bool × Walk)) :=
  if walk.i ≥ vq.num then some (.done (false, walk))
  else if walk.found + 1 > vq.num then some (.done (false, walk))
  else
    let desc := guest.desc walk.found walk.i walk.desc
    let ret := guest.translateDesc desc (walk.counts.2 + walk.counts.1)
    let next : Walk := { walk with
      found := walk.found + 1
      desc := desc
      counts :=
        if desc.flags &&& vringDescFIndirect ≠ 0 then guest.getIndirect desc walk.counts
        else if desc.flags &&& vringDescFWrite ≠ 0 then (walk.counts.1, walk.counts.2 + ret)
        else (walk.counts.1 + ret, walk.counts.2)
      reads := walk.reads ++ [walk.i] }
    match nextDesc desc with
    | none => some (.done (true, next))
    | some i => some (.again { next with i := i })

/-- `vhost_get_vq_desc`. -/
def vhostGetVqDesc (guest : Guest) : Option Call :=
  match guest.availIdx with
  | none => some { ret := .efault, vq }
  | some availIdx =>
    let vq := { vq with availIdx }
    if (availIdx - vq.lastAvailIdx).toNat > vq.num then some { ret := .efault, vq }
    else if availIdx = vq.lastAvailIdx then some { ret := .nothing, vq }
    else
      match guest.ring (vq.slot vq.lastAvailIdx) with
      | none => some { ret := .efault, vq }
      | some head =>
        if head.toNat ≥ vq.num then some { ret := .einval, vq }
        else
          (loop (chainTurn vq guest) (vq.num + 1) { i := head.toNat }).map fun result =>
            let advanced := { vq with lastAvailIdx := vq.lastAvailIdx + 1 }
            if result.1 = false then { ret := .einval, vq, walk := result.2 }
            else if vq.usedFlags &&& vringUsedFNoNotify = 0 then
              { ret := .bug, vq := advanced, walk := result.2 }
            else { ret := .head head, vq := advanced, walk := result.2 }

/-- The heads that successive calls return, each with what its call has found. -/
def takes (vq : VhostVirtqueue) : List Guest → List (Guest × BitVec 16)
  | [] => []
  | guest :: guests =>
    match vhostGetVqDesc vq guest with
    | none => []
    | some call =>
      match call.ret with
      | .bug => []
      | .head head => (guest, head) :: takes call.vq guests
      | _ => takes call.vq guests

/-! ### What a call does -/

/-- The reads of a call stay inside the table, and there are no more of them than entries. -/
structure Inside (num : Nat) (walk : Walk) : Prop where
  count : walk.reads.length = walk.found
  few : walk.found ≤ num
  inside : ∀ i ∈ walk.reads, i < num

/-- What a call does to the queue, depending on what it returns. -/
def Call.Advances (call : Call) (vq : VhostVirtqueue) (guest : Guest) : Prop :=
  call.vq.num = vq.num ∧
    match call.ret with
    | .head head => call.vq.lastAvailIdx = vq.lastAvailIdx + 1 ∧ head.toNat < vq.num ∧
        guest.ring (vq.slot vq.lastAvailIdx) = some head
    | .bug => True
    | _ => call.vq.lastAvailIdx = vq.lastAvailIdx

theorem inside_start (num i : Nat) : Inside num { i } :=
  ⟨rfl, Nat.zero_le num, fun _ member => absurd member List.not_mem_nil⟩

theorem chainLoop_returns (guest : Guest) (i : Nat) :
    ∃ result, loop (chainTurn vq guest) (vq.num + 1) { i } = some result ∧
      Inside vq.num result.2 := by
  refine loop_returns (Inside vq.num) (fun result : Bool × Walk => Inside vq.num result.2)
    (fun walk => vq.num - walk.found) (fun walk inside => ?_) (inside_start vq.num i)
    (Nat.lt_succ_self _)
  rw [chainTurn]
  split
  · exact .inr ⟨_, rfl, inside⟩
  · next isIndex =>
    split
    · exact .inr ⟨_, rfl, inside⟩
    · next notFull =>
      have isInside : ∀ j ∈ walk.reads ++ [walk.i], j < vq.num :=
        List.forall_mem_append.mpr
          ⟨inside.inside, List.forall_mem_singleton.mpr (Nat.lt_of_not_le isIndex)⟩
      have count : (walk.reads ++ [walk.i]).length = walk.found + 1 := by
        rw [List.length_append, inside.count, List.length_singleton]
      dsimp only
      split
      · exact .inr ⟨_, rfl, count, Nat.le_of_not_lt notFull, isInside⟩
      · refine .inl ⟨_, rfl, ⟨count, Nat.le_of_not_lt notFull, isInside⟩, ?_⟩
        dsimp only
        omega

theorem vhostGetVqDesc_returns (guest : Guest) :
    ∃ call, vhostGetVqDesc vq guest = some call ∧ Inside vq.num call.walk ∧
      call.Advances vq guest := by
  have start := inside_start vq.num 0
  rw [vhostGetVqDesc]
  split
  · exact ⟨_, rfl, start, rfl, rfl⟩
  · next availIdx isIdx =>
    dsimp only
    split
    · exact ⟨_, rfl, start, rfl, rfl⟩
    split
    · exact ⟨_, rfl, start, rfl, rfl⟩
    split
    · exact ⟨_, rfl, start, rfl, rfl⟩
    · next head isHead =>
      split
      · exact ⟨_, rfl, start, rfl, rfl⟩
      · next isIndex =>
        obtain ⟨result, returned, inside⟩ :=
          chainLoop_returns { vq with availIdx } guest head.toNat
        rw [returned]
        refine ⟨_, rfl, ?_⟩
        dsimp only
        split
        · exact ⟨inside, rfl, rfl⟩
        split
        · exact ⟨inside, rfl, trivial⟩
        · exact ⟨inside, rfl, rfl, Nat.lt_of_not_le isIndex, isHead⟩

/-! ### Successive calls -/

/-- The slots are those of the ring in order, also where the index wraps around. -/
theorem slot_add {vq : VhostVirtqueue} {bits : Nat} (narrow : bits ≤ 16)
    (isSize : vq.num = 2 ^ bits) (k : Nat) :
    vq.slot (vq.lastAvailIdx + BitVec.ofNat 16 k) = (vq.lastAvailIdx.toNat + k) % vq.num := by
  rw [VhostVirtqueue.slot, isSize, Nat.and_two_pow_sub_one_eq_mod, BitVec.toNat_add,
    BitVec.toNat_ofNat, Nat.add_mod_mod, Nat.mod_mod_of_dvd _ (Nat.pow_dvd_pow 2 narrow)]

theorem takes_inOrder (guests : List Guest) (k : Nat) (guest : Guest)
    (head : BitVec 16) (isTaken : (takes vq guests)[k]? = some (guest, head)) :
    guest.ring (vq.slot (vq.lastAvailIdx + BitVec.ofNat 16 k)) = some head := by
  induction guests generalizing vq k with
  | nil => cases isTaken
  | cons first guests inductionHypothesis =>
    obtain ⟨call, returned, -, sameNum, advances⟩ := vhostGetVqDesc_returns vq first
    have later (j : Nat) (isTaken : (takes call.vq guests)[j]? = some (guest, head)) :
        guest.ring (vq.slot (call.vq.lastAvailIdx + BitVec.ofNat 16 j)) = some head := by
      have found := inductionHypothesis call.vq j isTaken
      rw [VhostVirtqueue.slot, sameNum] at found
      exact found
    rw [takes, returned] at isTaken
    dsimp only at isTaken
    split at isTaken
    · cases isTaken
    · next taken isRet =>
      rw [isRet] at advances
      cases k with
      | zero =>
        cases isTaken
        rw [BitVec.add_zero]
        exact advances.2.2
      | succ k =>
        have found := later k isTaken
        rw [advances.1, BitVec.add_assoc, BitVec.add_comm 1] at found
        rw [BitVec.ofNat_add]
        exact found
    · have same : call.vq.lastAvailIdx = vq.lastAvailIdx := by
        split at advances <;> simp_all
      rw [← same]
      exact later k isTaken

/--
For every content of the ring: a call returns after it has read at most as many
descriptors as the table has, all of them inside the table, and the index advances by one
with a head and not at all with an error or without a new buffer. Successive calls return
the entries of the ring in order, also across the wrap of the index.
-/
theorem vhostGetVqDesc_takes :
    (∀ guest, ∃ call, vhostGetVqDesc vq guest = some call ∧ call.walk.reads.length ≤ vq.num ∧
      (∀ i ∈ call.walk.reads, i < vq.num) ∧ call.Advances vq guest) ∧
    (∀ (guests : List Guest) (k : Nat) (guest : Guest) (head : BitVec 16),
      (takes vq guests)[k]? = some (guest, head) →
        guest.ring (vq.slot (vq.lastAvailIdx + BitVec.ofNat 16 k)) = some head) ∧
    ∀ bits ≤ 16, vq.num = 2 ^ bits → ∀ k,
      vq.slot (vq.lastAvailIdx + BitVec.ofNat 16 k) = (vq.lastAvailIdx.toNat + k) % vq.num := by
  refine ⟨fun guest => ?_, takes_inOrder vq, fun bits narrow isSize => slot_add narrow isSize⟩
  obtain ⟨call, returned, inside, advances⟩ := vhostGetVqDesc_returns vq guest
  exact ⟨call, returned, inside.count ▸ inside.few, inside.inside, advances⟩

/-- A queue of four descriptors whose next index is the last one before the wrap. -/
def wrapping : VhostVirtqueue := ⟨4, 0xffff, 0, vringUsedFNoNotify⟩

/-- A guest with three available heads, each of one descriptor that has its slot's number. -/
def plainGuest : Guest where
  availIdx := some 2
  ring slot := some (BitVec.ofNat 16 slot)
  desc _ _ _ := ⟨0, 0, 0, 0⟩
  getIndirect _ counts := counts
  translateDesc _ _ := 1

theorem vhostGetVqDesc_takes_wrapping :
    let taken := takes wrapping (List.replicate 3 plainGuest)
    taken.map Prod.snd = [3, 0, 1] ∧ ∀ (k : Nat) (guest : Guest) (head : BitVec 16),
      taken[k]? = some (guest, head) → guest.ring ((0xffff + k) % 4) = some head := by
  obtain ⟨-, inOrder, slots⟩ := vhostGetVqDesc_takes wrapping
  refine ⟨by decide +kernel, fun k guest head taken => ?_⟩
  have isSlot := slots 2 (by decide) rfl k
  exact isSlot ▸ inOrder _ k guest head taken

end StudyNotes.VhostNet
