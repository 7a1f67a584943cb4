/-
This file proves what the device sees of a buffer that the driver has added.

The device starts at a head and goes on along `next` for as long as the flags
say that there is more. A head that is marked as indirect has a table of its
own. The driver fills either one along links that are there already, so the
entries come back in the order in which they were filled in.
-/

import StudyNotes.Virtqueue.Runs

namespace StudyNotes.Virtqueue

open Library Function

variable {Token : Type} {vq next : VringVirtqueue Token} {missing : Missing Token}
  {outSgs inSgs : List (List Scatterlist)} {links : Nat}

/-! ### The device -/

/-- What the device reads of a descriptor, apart from the link. -/
structure Seen where
  addr : BitVec 64
  len : BitVec 32
  write : Bool
  indirect : Bool
  deriving DecidableEq

def seenOf (desc : VringDesc) : Seen where
  addr := desc.addr
  len := desc.len
  write := desc.flags &&& vringDescFWrite != 0
  indirect := desc.flags &&& vringDescFIndirect != 0

/-- The device on its way through a table: it has no use for an index outside of it. -/
def deviceWalk (desc : Nat → VringDesc) (size : Nat) : Nat → Nat → Option (List Seen)
  | 0, _ => none
  | fuel + 1, i =>
    if i ≥ size then none
    else if (desc i).flags &&& vringDescFNext != 0 then
      (deviceWalk desc size fuel (desc i).next.toNat).map (seenOf (desc i) :: ·)
    else some [seenOf (desc i)]

/-- The buffer that the device finds at a head. -/
def deviceView (vq : VringVirtqueue Token) (head : Nat) : Option (List Seen) :=
  let first := vq.vring.desc head
  if first.flags &&& vringDescFIndirect != 0 then
    (vq.descState head).indirDesc.bind fun table =>
      let size := first.len.toNat / descSize
      deviceWalk table size size 0
  else deviceWalk vq.vring.desc vq.vring.num vq.vring.num head

/-- A buffer as the caller of `virtqueue_add` gives it. -/
def given (outSgs inSgs : List (List Scatterlist)) : List Seen :=
  (outSgs.flatten.map fun sg => ⟨sg.addr, sg.length, false, false⟩) ++
    inSgs.flatten.map fun sg => ⟨sg.addr, sg.length, true, false⟩

/-! ### Walking along a chain -/

/-- A chain inside of a table is seen from its first to its last descriptor. -/
theorem Chained.deviceWalk {vring : Vring} {size head links fuel : Nat}
    (chained : Chained vring head links)
    (within : ∀ i ∈ List.iterate (nextOf vring) head (links + 1), i < size)
    (enough : links < fuel) :
    deviceWalk vring.desc size fuel head =
      some ((List.iterate (nextOf vring) head (links + 1)).map fun i => seenOf (vring.desc i)) := by
  induction fuel generalizing head links with
  | zero => exact absurd enough (Nat.not_lt_zero _)
  | succ fuel inductionHypothesis =>
    have inside : ¬head ≥ size := Nat.not_le_of_lt (within head List.mem_cons_self)
    rw [Virtqueue.deviceWalk, if_neg inside]
    cases links with
    | zero =>
      have ends : ¬((vring.desc head).flags &&& vringDescFNext != 0) = true :=
        Bool.eq_false_iff.mp chained.ends
      rw [if_neg ends]
      rfl
    | succ links =>
      obtain ⟨goesOn, rest⟩ := chained.tail
      have continues : ((vring.desc head).flags &&& vringDescFNext != 0) = true := goesOn
      have later := inductionHypothesis rest
        (fun i member => within i (List.mem_cons_of_mem head member)) (by omega)
      rw [if_pos continues]
      exact congrArg (Option.map (seenOf (vring.desc head) :: ·)) later

/-! ### What is filled in -/

/-- The descriptor of an entry, apart from the link and the end mark. -/
def seenEntry (entry : BitVec 16 × Scatterlist) : Seen where
  addr := entry.2.addr
  len := entry.2.length
  write := entry.1 &&& vringDescFWrite != 0
  indirect := entry.1 &&& vringDescFIndirect != 0

theorem map_seenEntry (outSgs inSgs : List (List Scatterlist)) :
    (entries outSgs inSgs).map seenEntry = given outSgs inSgs := by
  have out : seenEntry ∘ Prod.mk vringDescFNext = fun sg => ⟨sg.addr, sg.length, false, false⟩ :=
    funext fun sg => by simp [seenEntry, vringDescFNext, vringDescFWrite, vringDescFIndirect]
  have into : seenEntry ∘ Prod.mk (vringDescFNext ||| vringDescFWrite) =
      fun sg => ⟨sg.addr, sg.length, true, false⟩ :=
    funext fun sg => by simp [seenEntry, vringDescFNext, vringDescFWrite, vringDescFIndirect]
  rw [entries, given, List.map_append, List.map_map, List.map_map, out, into]

/-- The end mark says nothing about the other flags. -/
theorem seenOf_endChain (filling : Filling) (i : Nat) :
    seenOf ((endChain filling).desc i) = seenOf (filling.desc i) := by
  by_cases here : i = filling.prev
  · have write : ~~~vringDescFNext &&& vringDescFWrite = vringDescFWrite := by decide
    have indirect : ~~~vringDescFNext &&& vringDescFIndirect = vringDescFIndirect := by decide
    rw [here, endChain_desc_self, seenOf, seenOf]
    simp only [BitVec.and_assoc, write, indirect]
  · rw [endChain_desc_of_ne filling here]

/-- The loops of `virtqueue_add` put the entries along the links of different descriptors. -/
theorem map_seenOf_foldl (vring : Vring) (start : Nat) (list : List (BitVec 16 × Scatterlist))
    (continuing : ∀ entry ∈ list, entry.1 &&& vringDescFNext ≠ 0)
    (nodup : (List.iterate (nextOf vring) start list.length).Nodup) :
    ((List.iterate (nextOf vring) start list.length).map fun i =>
        seenOf ((list.foldl (fun filling entry => fillDesc entry.1 filling entry.2)
          { desc := vring.desc, prev := 0, i := start }).desc i)) = list.map seenEntry := by
  induction list using List.reverseRecOn with
  | nil => rfl
  | append_singleton list entry inductionHypothesis =>
    have earlier : ∀ other ∈ list, other.1 &&& vringDescFNext ≠ 0 := fun other member =>
      continuing other (List.mem_append_left _ member)
    have filled := filled_foldl vring start list earlier
    rw [List.length_append, List.length_singleton, iterate_succ_last, ← filled.stops] at nodup ⊢
    obtain ⟨nodupFront, -, apart⟩ := List.nodup_append.mp nodup
    rw [List.foldl_append, List.foldl_cons, List.foldl_nil, List.map_append, List.map_append,
      ← inductionHypothesis earlier nodupFront]
    congr 1
    · refine List.map_congr_left fun i member => ?_
      rw [fillDesc_desc_of_ne _ _ _ (apart i member _ List.mem_cons_self)]
    · simp only [List.map_cons, List.map_nil, fillDesc_desc_self]
      rfl

section

variable {vring : Vring} {start : Nat}
  (total : outSgs.flatten.length + inSgs.flatten.length = links + 1)
  (nodup : (List.iterate (nextOf vring) start (links + 1)).Nodup)
include total nodup

theorem map_seenOf_fillDescs :
    ((List.iterate (nextOf vring) start (links + 1)).map fun i =>
      seenOf ((fillDescs vring.desc start outSgs inSgs).desc i)) = given outSgs inSgs := by
  have length : (entries outSgs inSgs).length = links + 1 := (length_entries _ _).trans total
  have contents := map_seenOf_foldl vring start (entries outSgs inSgs)
    (fun entry member => entries_hasNext member) (by rwa [length])
  rw [length, map_seenEntry] at contents
  simpa only [fillDescs_eq, seenOf_endChain] using contents

/-- What the device sees of a table after `virtqueue_add` has filled it. -/
theorem deviceWalk_fillDescs {size fuel : Nat}
    (within : ∀ i ∈ List.iterate (nextOf vring) start (links + 1), i < size)
    (enough : links < fuel) :
    deviceWalk (fillDescs vring.desc start outSgs inSgs).desc size fuel start =
      some (given outSgs inSgs) := by
  have filled := filled_foldl vring start (entries outSgs inSgs)
    fun entry member => entries_hasNext member
  rw [length_entries, total] at filled
  obtain ⟨sameLinks, -, chained⟩ := filled.endChain nodup
  rw [← fillDescs_eq] at sameLinks chained
  have sameNext :
      nextOf { vring with desc := (fillDescs vring.desc start outSgs inSgs).desc } =
        nextOf vring := funext fun i => congrArg BitVec.toNat (sameLinks i)
  have seen := chained.deviceWalk (by rwa [sameNext]) enough
  rwa [sameNext, map_seenOf_fillDescs total nodup] at seen

/-- The first entry of a filled table is not a table itself. -/
theorem seenOf_fillDescs_first :
    (seenOf ((fillDescs vring.desc start outSgs inSgs).desc start)).indirect = false := by
  have member : seenOf ((fillDescs vring.desc start outSgs inSgs).desc start) ∈
      given outSgs inSgs := by
    rw [← map_seenOf_fillDescs total nodup]
    exact List.mem_cons_self
  rcases List.mem_append.mp member with out | into
  · obtain ⟨sg, -, isSeen⟩ := List.mem_map.mp out
    rw [← isSeen]
  · obtain ⟨sg, -, isSeen⟩ := List.mem_map.mp into
    rw [← isSeen]

end

/-! ### The buffer -/

theorem deviceView_addIndirect (vq : VringVirtqueue Token)
    (total : outSgs.flatten.length + inSgs.flatten.length = links + 1)
    (narrow : links + 1 ≤ 2 ^ 16) (tableAddr : BitVec 64) :
    deviceView (addIndirect vq outSgs inSgs (links + 1) tableAddr) vq.freeHead =
      some (given outSgs inSgs) := by
  have first : (addIndirect vq outSgs inSgs (links + 1) tableAddr).vring.desc vq.freeHead =
      { vq.vring.desc vq.freeHead with
        flags := vringDescFIndirect
        addr := tableAddr
        len := BitVec.ofNat 32 ((links + 1) * descSize) } := by simp [addIndirect]
  have table : ((addIndirect vq outSgs inSgs (links + 1) tableAddr).descState
      vq.freeHead).indirDesc = some (fillDescs allocIndirect 0 outSgs inSgs).desc := by
    simp [addIndirect]
  have size : (BitVec.ofNat 32 ((links + 1) * descSize)).toNat / descSize = links + 1 := by
    rw [BitVec.toNat_ofNat, Nat.mod_eq_of_lt, Nat.mul_div_cancel _ (by decide)]
    unfold descSize
    omega
  have linked : List.iterate (nextOf { vq.vring with desc := allocIndirect }) 0 (links + 1) =
      List.range' 0 (links + 1) :=
    iterate_consecutive fun i _ below => Nat.mod_eq_of_lt (by omega)
  have nodup := List.nodup_range' (s := 0) (n := links + 1)
  rw [← linked] at nodup
  rw [deviceView, first, table]
  simp only [size]
  rw [if_pos (by decide), Option.bind_some]
  refine deviceWalk_fillDescs total nodup (fun i member => ?_) (Nat.lt_succ_self links)
  rw [linked, List.mem_range'_1] at member
  omega

/-! ### Adding a buffer -/

/-- Storing the token and the head changes nothing but the available ring. -/
theorem exposeHead_spec (missing : Missing Token) (vq : VringVirtqueue Token) (head : Nat)
    (token : Token) :
    (exposeHead missing vq head token).1.vring.desc = vq.vring.desc ∧
      (exposeHead missing vq head token).1.vring.num = vq.vring.num ∧
      (exposeHead missing vq head token).1.vring.avail.idx = vq.vring.avail.idx + 1 ∧
      (exposeHead missing vq head token).1.vring.avail.ring =
        update vq.vring.avail.ring
          (vq.vring.avail.idx.toNat &&& (vq.vring.num - 1)) (BitVec.ofNat 16 head) ∧
      ∀ i, ((exposeHead missing vq head token).1.descState i).indirDesc =
        (vq.descState i).indirDesc := by
  have sameTable : ∀ i, (update vq.descState head
      { vq.descState head with data := some token } i).indirDesc = (vq.descState i).indirDesc := by
    intro i
    by_cases here : i = head
    · rw [here, update_self]
    · rw [update_of_ne here]
  simp only [exposeHead]
  split <;> exact ⟨rfl, rfl, rfl, rfl, sameTable⟩

section

variable (invariant : Invariant vq)
include invariant

/--
The device finds a buffer at the head in the next slot of the available ring,
and the buffers that are already in flight are as before.
-/
structure Exposed (vq next : VringVirtqueue Token) (tableAddr : Option (BitVec 64))
    (buffer : List Seen) : Prop where
  idx : next.vring.avail.idx = vq.vring.avail.idx + 1
  head : (next.vring.avail.ring (vq.vring.avail.idx.toNat &&& (vq.vring.num - 1))).toNat =
    vq.freeHead
  slots : ∀ slot ≠ vq.vring.avail.idx.toNat &&& (vq.vring.num - 1),
    next.vring.avail.ring slot = vq.vring.avail.ring slot
  view : deviceView next vq.freeHead = some buffer
  mapped : (seenOf (next.vring.desc vq.freeHead)).indirect = true →
    tableAddr = some (next.vring.desc vq.freeHead).addr
  chains : ∀ head ∈ heads vq, ∀ i ∈ chain vq.vring head, next.vring.desc i = vq.vring.desc i
  tables : ∀ head ∈ heads vq, (next.descState head).indirDesc = (vq.descState head).indirDesc

theorem virtqueueAdd_exposed {token : Token} {tableAddr : Option (BitVec 64)}
    {events : List (Event Token)}
    (added : virtqueueAdd missing vq outSgs inSgs token tableAddr = some (next, .success, events)) :
    Exposed vq next tableAddr (given outSgs inSgs) := by
  rcases virtqueueAdd_inversion added with
    ⟨-, failed, -⟩ | ⟨-, table, links, total, fits, enough, isTable, exposed⟩
  · exact absurd rfl failed
  obtain rfl : _ = next := congrArg Prod.fst exposed
  obtain ⟨sameDesc, sameNum, nextIdx, nextRing, sameTables⟩ :=
    exposeHead_spec missing (addTo vq outSgs inSgs (links + 1) table) vq.freeHead token
  have sameAvail : (addTo vq outSgs inSgs (links + 1) table).vring.avail = vq.vring.avail := by
    cases table <;> rfl
  have sameNum' : (addTo vq outSgs inSgs (links + 1) table).vring.num = vq.vring.num := by
    cases table <;> rfl
  obtain ⟨taken, takes⟩ := addTo_takes invariant total enough
  have few := takes.numFree
  have idle := (invariant.freeHead_idle (by omega)).2
  refine ⟨?_, ?_, fun slot differs => ?_, ?_, fun marked => ?_, fun head member i inside => ?_,
    fun head member => ?_⟩
  · rw [nextIdx, sameAvail]
  · rw [nextRing, sameAvail, sameNum', update_self, BitVec.toNat_ofNat]
    exact Nat.mod_eq_of_lt invariant.headFits
  · rw [nextRing, sameAvail, sameNum', update_of_ne differs]
  · rw [deviceView, sameDesc, sameNum, sameTables]
    cases table with
    | none =>
      obtain ⟨nodup, free⟩ := invariant.taken enough
      refine (if_neg (Bool.eq_false_iff.mp (seenOf_fillDescs_first total nodup))).trans ?_
      exact deviceWalk_fillDescs total nodup
        (fun i member => invariant.freeList_lt (free i member)) fits
    | some addr => exact deviceView_addIndirect vq total (fits.trans invariant.fits) addr
  · rw [sameDesc] at marked ⊢
    -- A head is marked as indirect only with the address of a table.
    cases table with
    | none =>
      have plain := seenOf_fillDescs_first total (invariant.taken enough).1
      exact absurd (plain.symm.trans marked) Bool.false_ne_true
    | some addr =>
      rw [← isTable.resolve_left (Option.some_ne_none addr)]
      simp [addTo, addIndirect]
  · rw [sameDesc]
    refine takes.outside i fun inTaken => ?_
    exact invariant.not_mem_chain ((invariant.taken (by omega)).2 i inTaken) member inside
  · rw [sameTables]
    cases table with
    | none => rfl
    | some addr =>
      have differs : head ≠ vq.freeHead := fun same => idle (same ▸ member)
      exact congrArg _ (update_of_ne differs ..)

end

end StudyNotes.Virtqueue
