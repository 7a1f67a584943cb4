/-
This file proves that the driver never overwrites a slot of the available ring
that the device has still to read.

The ring has as many slots as there are descriptors, and a buffer takes at least
one descriptor. As long as the device returns only buffers that it has read from
the ring, the buffers it has not read are in flight, so there are fewer of them
than slots when one more is added.
-/

import StudyNotes.Virtqueue.DeviceView

namespace StudyNotes.Virtqueue

open Library

variable {Token : Type} {outSgs : List (List Scatterlist)} {front : List Scatterlist}
  {last : Scatterlist}

/-! ### The device and the available ring -/

/-- A queue, and what the device has still to read of its available ring. -/
structure Watched (Token : Type) where
  vq : VringVirtqueue Token
  /-- The heads that the device has not consumed, the last one first. -/
  pending : List Nat
  /-- The device has returned only heads that it has consumed. -/
  honest : Bool

inductive Move (Token : Type)
  | act (action : Action Token)
  /-- The device reads one more slot of the available ring. -/
  | consume

def Event.addedHead? : Event Token → Option Nat
  | .added head _ => some head
  | .got _ _ => none
  | .notified => none
  | .kicked => none

def Event.gotHead? : Event Token → Option Nat
  | .added _ _ => none
  | .got id _ => some id
  | .notified => none
  | .kicked => none

/-- What an action changes, seen from its events. -/
def Watched.note (watched : Watched Token) (vq : VringVirtqueue Token)
    (events : List (Event Token)) : Watched Token where
  vq := vq
  pending := events.filterMap Event.addedHead? ++ watched.pending
  honest := watched.honest &&
    (events.filterMap Event.gotHead?).all fun id => id ∉ watched.pending

def watchedStep (missing : Missing Token) (watched : Watched Token) :
    Move Token → Option (Watched Token × List (Event Token))
  | .act action =>
    (step missing watched.vq action).map fun (vq, events) => (watched.note vq events, events)
  | .consume =>
    if watched.pending = [] then none
    else some ({ watched with pending := watched.pending.dropLast }, [])

/-- A queue that nothing was added to. -/
def unwatched (vq : VringVirtqueue Token) : Watched Token where
  vq := vq
  pending := []
  honest := true

/-! ### Slots -/

/-- The slot that is a number of places before the next one to be written. -/
def slotBack (vring : Vring) (back : Nat) : Nat :=
  (vring.avail.idx - BitVec.ofNat 16 back).toNat &&& (vring.num - 1)

theorem slotBack_zero (vring : Vring) :
    slotBack vring 0 = vring.avail.idx.toNat &&& (vring.num - 1) := by
  simp [slotBack]

/-- After one more buffer every slot is one place further back. -/
theorem slotBack_succ {vring next : Vring} (sameNum : next.num = vring.num)
    (nextIdx : next.avail.idx = vring.avail.idx + 1) (back : Nat) :
    slotBack next (back + 1) = slotBack vring back := by
  have same : vring.avail.idx + 1 - BitVec.ofNat 16 (back + 1) =
      vring.avail.idx - BitVec.ofNat 16 back := by
    rw [BitVec.ofNat_add]
    bv_omega
  rw [slotBack, slotBack, sameNum, nextIdx, same]

/-- Fewer places back than there are slots is another slot. -/
theorem slotBack_ne {vring : Vring} {exponent back : Nat} (isPower : vring.num = 2 ^ exponent)
    (narrow : exponent ≤ 16) (positive : 0 < back) (few : back < vring.num) :
    slotBack vring back ≠ slotBack vring 0 := by
  have divides : 2 ^ exponent ∣ 2 ^ 16 := Nat.pow_dvd_pow 2 narrow
  have small : back < 2 ^ 16 :=
    few.trans_le (isPower ▸ Nat.le_of_dvd (Nat.two_pow_pos 16) divides)
  have there : slotBack vring back = (vring.avail.idx.toNat + (2 ^ 16 - back)) % 2 ^ exponent := by
    rw [slotBack, isPower, Nat.and_two_pow_sub_one_eq_mod, BitVec.toNat_sub, BitVec.toNat_ofNat,
      Nat.mod_eq_of_lt small, Nat.mod_mod_of_dvd _ divides, Nat.add_comm]
  have here : slotBack vring 0 = vring.avail.idx.toNat % 2 ^ exponent := by
    rw [slotBack_zero, isPower, Nat.and_two_pow_sub_one_eq_mod]
  intro same
  rw [there, here] at same
  -- A distance that is a multiple of the number of slots is not a smaller positive one.
  have multiple : 2 ^ exponent ∣ 2 ^ 16 - back := by
    have noRest := Nat.sub_mod_eq_zero_of_mod_eq same
    rw [Nat.add_sub_cancel_left] at noRest
    exact Nat.dvd_of_mod_eq_zero noRest
  have whole := Nat.dvd_sub divides multiple
  rw [Nat.sub_sub_self small.le] at whole
  exact absurd (Nat.le_of_dvd positive whole) (by omega)

/-! ### What the device has still to read -/

/-- The slots the device has not consumed hold different heads in flight. -/
structure Pending (vq : VringVirtqueue Token) (pending : List Nat) : Prop where
  nodup : pending.Nodup
  inFlight : ∀ head ∈ pending, head ∈ heads vq
  slots : ∀ back head, pending[back]? = some head →
    (vq.vring.avail.ring (slotBack vq.vring (back + 1))).toNat = head

variable {vq next : VringVirtqueue Token} {pending : List Nat} {exponent : Nat}
  {missing : Missing Token} {past events : List (Event Token)} {watched : Watched Token}

section

variable (holds : Pending vq pending)
include holds

/-- Reading a slot leaves the later ones. -/
theorem Pending.dropLast : Pending vq pending.dropLast where
  nodup := holds.nodup.sublist (List.dropLast_sublist pending)
  inFlight head member := holds.inFlight head ((List.dropLast_subset pending) member)
  slots back head found := by
    rw [List.getElem?_dropLast] at found
    split at found
    · exact holds.slots back head found
    · cases found

/-- What the device has to read does not depend on the rest of the queue. -/
theorem Pending.frame (same : SameAvail vq next) (inFlight : ∀ head ∈ pending, head ∈ heads next) :
    Pending next pending where
  nodup := holds.nodup
  inFlight := inFlight
  slots back head found := by
    have member := holds.inFlight head (List.mem_of_getElem? found)
    have positive : 0 < vq.vring.num := Nat.zero_lt_of_lt (mem_heads.mp member).1
    have sameSlot : slotBack next.vring (back + 1) = slotBack vq.vring (back + 1) := by
      rw [slotBack, slotBack, same.num, same.idx]
    rw [sameSlot, same.slots (slotBack _ _) (Nat.lt_of_le_of_lt Nat.and_le_right (by omega))]
    exact holds.slots back head found

/-- There are fewer slots to be read than descriptors while one is free. -/
theorem Pending.length_lt {head : Nat} (within : head < vq.vring.num) (idle : head ∉ heads vq) :
    pending.length < vq.vring.num := by
  have nodup : (head :: pending).Nodup :=
    List.nodup_cons.mpr ⟨fun member => idle (holds.inFlight head member), holds.nodup⟩
  have inside : ∀ i ∈ head :: pending, i ∈ List.range vq.vring.num := by
    intro i member
    rw [List.mem_range]
    rcases List.mem_cons.mp member with rfl | member
    · exact within
    · exact (mem_heads.mp (holds.inFlight i member)).1
  have short := (List.subperm_of_subset nodup inside).length_le
  rwa [List.length_range] at short

/-- No slot that the device has still to read is the one that is written next. -/
theorem Pending.slotBack_ne (isPower : vq.vring.num = 2 ^ exponent) (narrow : exponent ≤ 16)
    {free : Nat} (within : free < vq.vring.num) (idle : free ∉ heads vq) {back head : Nat}
    (found : pending[back]? = some head) : slotBack vq.vring (back + 1) ≠ slotBack vq.vring 0 := by
  obtain ⟨below, -⟩ := List.getElem?_eq_some_iff.mp found
  have few := holds.length_lt within idle
  exact Virtqueue.slotBack_ne isPower narrow (Nat.succ_pos back) (by omega)

/-! ### The actions -/

variable {outSgs inSgs : List (List Scatterlist)} {events : List (Event Token)}

/-- One more buffer, and the slots that the device has still to read stay as they are. -/
theorem Pending.add (invariant : Invariant vq) (isPower : vq.vring.num = 2 ^ exponent)
    (narrow : exponent ≤ 16) {token : Token} {tableAddr : Option (BitVec 64)}
    (added : virtqueueAdd missing vq outSgs inSgs token tableAddr = some (next, .success, events)) :
    (∀ back head, pending[back]? = some head →
        next.vring.avail.ring (slotBack vq.vring (back + 1)) =
          vq.vring.avail.ring (slotBack vq.vring (back + 1))) ∧
      Pending next (vq.freeHead :: pending) := by
  have exposed := virtqueueAdd_exposed invariant added
  rcases virtqueueAdd_cases added invariant with ⟨-, failed, -⟩ | ⟨-, ⟨links, takes⟩, stored, -⟩
  · exact absurd rfl failed
  have few := takes.numFree
  obtain ⟨within, idle⟩ := invariant.freeHead_idle (by omega)
  have unchanged : ∀ back head, pending[back]? = some head →
      next.vring.avail.ring (slotBack vq.vring (back + 1)) =
        vq.vring.avail.ring (slotBack vq.vring (back + 1)) := by
    intro back head found
    have differs := holds.slotBack_ne isPower narrow within idle found
    rw [slotBack_zero] at differs
    exact exposed.slots _ differs
  refine ⟨unchanged, ?_, fun head member => ?_, fun back head found => ?_⟩
  · exact List.nodup_cons.mpr ⟨fun member => idle (holds.inFlight _ member), holds.nodup⟩
  · rw [mem_heads, takes.sameNum]
    rcases List.mem_cons.mp member with rfl | old
    · exact ⟨within, by rw [stored]; rfl⟩
    · have inFlight := holds.inFlight head old
      have differs : head ≠ vq.freeHead := fun same => idle (same ▸ inFlight)
      rw [takes.others head differs]
      exact mem_heads.mp inFlight
  · rw [slotBack_succ takes.sameNum exposed.idx]
    cases back with
    | zero =>
      rw [slotBack_zero, exposed.head]
      exact Option.some.inj found
    | succ back =>
      rw [unchanged back head found]
      exact holds.slots back head found

end

/-- What holds of a queue and its device in every run. -/
structure Reads (exponent : Nat) (watched : Watched Token) (past : List (Event Token)) : Prop where
  invariant : Invariant watched.vq
  recorded : Recorded watched.vq past
  isPower : watched.vq.vring.num = 2 ^ exponent
  pending : watched.honest = true → Pending watched.vq watched.pending

/-- An action keeps the slots that a device which returns only what it has consumed still reads. -/
theorem Reads.act (narrow : exponent ≤ 16) (reads : Reads exponent watched past)
    {action : Action Token} (stepped : step missing watched.vq action = some (vq, events)) :
    vq.vring.num = watched.vq.vring.num ∧
      ((watched.note vq events).honest = true → Pending vq (watched.note vq events).pending) := by
  cases action with
  | add outSgs inSgs token tableAddr =>
    obtain ⟨⟨next, code, events'⟩, added, isPair⟩ := Option.map_eq_some_iff.mp stepped
    cases isPair
    rcases virtqueueAdd_cases added reads.invariant with
      ⟨rfl, -, isEvents⟩ | ⟨rfl, ⟨links, takes⟩, -, isEvents⟩
    · refine ⟨rfl, fun honest => ?_⟩
      have pending := reads.pending (Bool.and_eq_true_iff.mp honest).1
      rcases isEvents with rfl | rfl <;> exact pending
    · refine ⟨takes.sameNum, fun honest => ?_⟩
      have pending := reads.pending (Bool.and_eq_true_iff.mp honest).1
      have more := (pending.add reads.invariant reads.isPower narrow added).2
      rcases isEvents with rfl | rfl <;> exact more
  | getBuf =>
    obtain ⟨⟨next, result⟩, returned, isPair⟩ := Option.map_eq_some_iff.mp stepped
    cases isPair
    obtain ⟨next', result', returned', -, same, outcome⟩ := virtqueueGetBuf_cases reads.invariant
    obtain ⟨rfl, rfl⟩ := Prod.mk.inj (Option.some.inj (returned.symm.trans returned'))
    refine ⟨same.num, fun honest => ?_⟩
    obtain ⟨wasHonest, returnsConsumed⟩ := Bool.and_eq_true_iff.mp honest
    have pending := reads.pending wasHonest
    rcases outcome with ⟨rfl, -, -, -, sameState⟩ | ⟨token, rfl, -, -, -, -, others⟩
    · refine pending.frame same fun head member => ?_
      rw [mem_heads, same.num, sameState]
      exact mem_heads.mp (pending.inFlight head member)
    · refine pending.frame same fun head member => ?_
      have consumed : usedId watched.vq ∉ watched.pending := by
        simpa [Event.gotHead?] using returnsConsumed
      have differs : head ≠ usedId watched.vq := fun same => consumed (same ▸ member)
      rw [mem_heads, same.num, others head differs]
      exact mem_heads.mp (pending.inFlight head member)
  | publish used =>
    cases stepped
    refine ⟨rfl, fun honest => ?_⟩
    have pending := reads.pending (Bool.and_eq_true_iff.mp honest).1
    exact pending.frame ⟨rfl, rfl, fun _ _ => rfl⟩ pending.inFlight

theorem Reads.step (narrow : exponent ≤ 16) {next : Watched Token}
    (reads : Reads exponent watched past) {move : Move Token}
    (taken : watchedStep missing watched move = some (next, events)) :
    Reads exponent next (past ++ events) := by
  cases move with
  | act action =>
    obtain ⟨⟨vq, events'⟩, stepped, isPair⟩ := Option.map_eq_some_iff.mp taken
    cases isPair
    obtain ⟨invariant, recorded⟩ := step_keeps reads.invariant reads.recorded stepped
    obtain ⟨sameNum, pending⟩ := reads.act narrow stepped
    exact ⟨invariant, recorded, sameNum.trans reads.isPower, pending⟩
  | consume =>
    obtain ⟨-, isPair⟩ := Option.ite_none_left_eq_some.mp taken
    cases isPair
    rw [List.append_nil]
    exact { reads with pending := fun honest => (reads.pending honest).dropLast }

/--
After every run, a buffer that `virtqueue_add` accepts is seen by the device as
it was given, at the head in the slot that was exposed. The descriptors and
tables of the other buffers in flight do not change. If the device has returned
only heads that it has consumed, the slots it has not consumed hold the heads
that were added, and they do not change either.
-/
theorem run_virtqueueAdd_exposed {missing : Missing Token} {vring : Vring} {exponent : Nat}
    (isPower : vring.num = 2 ^ exponent) (narrow : exponent ≤ 16) {callback indirect : Bool}
    {moves : List (Move Token)} {watched : Watched Token} {past : List (Event Token)}
    (ran : run (watchedStep missing) (unwatched (vringNewVirtqueue vring callback indirect)) moves =
      some (watched, past)) {outSgs inSgs : List (List Scatterlist)} {token : Token}
    {tableAddr : Option (BitVec 64)} {next : VringVirtqueue Token} {events : List (Event Token)}
    (added : virtqueueAdd missing watched.vq outSgs inSgs token tableAddr =
      some (next, .success, events)) :
    Exposed watched.vq next tableAddr (given outSgs inSgs) ∧
      (watched.honest = true → ∀ back head, watched.pending[back]? = some head →
        (watched.vq.vring.avail.ring (slotBack watched.vq.vring (back + 1))).toNat = head ∧
          next.vring.avail.ring (slotBack watched.vq.vring (back + 1)) =
            watched.vq.vring.avail.ring (slotBack watched.vq.vring (back + 1))) := by
  have fits : vring.num ≤ 2 ^ 16 := isPower ▸ Nat.pow_le_pow_right (by decide) narrow
  have start : Reads exponent
      (unwatched (vringNewVirtqueue vring callback indirect : VringVirtqueue Token)) [] := by
    refine ⟨vringNewVirtqueue_invariant vring callback indirect fits,
      ⟨fun head token stored => ?_, preceded_nil⟩, isPower, fun _ => ⟨List.nodup_nil, ?_, ?_⟩⟩
    · cases stored
    · exact fun head member => absurd member List.not_mem_nil
    · exact fun back head found => absurd found (by simp [unwatched])
  have reads := run_invariant (watchedStep missing) (Reads exponent)
    (fun watched past move next events reads taken => reads.step narrow taken) [] start ran
  refine ⟨virtqueueAdd_exposed reads.invariant added, fun honest back head found => ?_⟩
  have pending := reads.pending honest
  exact ⟨pending.slots back head found,
    (pending.add reads.invariant reads.isPower narrow added).1 back head found⟩

/-! ### Two queues -/

/-- A buffer with one entry, in a queue with four descriptors. The device has not read it yet. -/
def oneAdded : List (Move Nat) := [.act (.add [[{ addr := 4096, length := 12 }]] [] 7 none)]

theorem run_virtqueueAdd_exposed_oneAdded :
    ∃ (watched : Watched Nat) (past : List (Event Nat)) (next : VringVirtqueue Nat)
      (events : List (Event Nat)),
      run (watchedStep usualCalls) (unwatched (vringNewVirtqueue (zeroedRing 4) true true))
          oneAdded = some (watched, past) ∧
        virtqueueAdd usualCalls watched.vq [[{ addr := 8192, length := 12 }]]
          [[{ addr := 12288, length := 64 }]] 8 (some 65536) = some (next, .success, events) ∧
        Exposed watched.vq next (some 65536)
          [⟨8192, 12, false, false⟩, ⟨12288, 64, true, false⟩] ∧
        watched.pending = [0] ∧ next.vring.avail.ring 0 = watched.vq.vring.avail.ring 0 := by
  obtain ⟨watched, past, ran, isPending, isHonest, isSlot, next, events, added⟩ :
      ∃ watched past,
        run (watchedStep usualCalls) (unwatched (vringNewVirtqueue (zeroedRing 4) true true))
          oneAdded = some (watched, past) ∧
        watched.pending = [0] ∧ watched.honest = true ∧ slotBack watched.vq.vring 1 = 0 ∧
        ∃ next events, virtqueueAdd usualCalls watched.vq [[{ addr := 8192, length := 12 }]]
          [[{ addr := 12288, length := 64 }]] 8 (some 65536) = some (next, .success, events) :=
    ⟨_, _, rfl, rfl, rfl, rfl, _, _, rfl⟩
  have isPower : (zeroedRing 4).num = 2 ^ 2 := rfl
  obtain ⟨exposed, unread⟩ := run_virtqueueAdd_exposed isPower (by decide) ran added
  have first := unread isHonest 0 0 (by rw [isPending]; rfl)
  rw [isSlot] at first
  exact ⟨watched, past, next, events, ran, added, exposed, isPending, first.2⟩

/-- A device that finds a single descriptor at a head. -/
theorem deviceView_single {head : Nat}
    (within : head < vq.vring.num) (last : (vq.vring.desc head).flags &&& vringDescFNext = 0)
    (plain : (seenOf (vq.vring.desc head)).indirect = false) :
    deviceView vq head = some [seenOf (vq.vring.desc head)] := by
  have ended : Chained vq.vring head 0 :=
    ⟨fun i member => absurd member List.not_mem_nil, by simp [hasNext, last]⟩
  have notTable : ¬((vq.vring.desc head).flags &&& vringDescFIndirect != 0) = true :=
    Bool.eq_false_iff.mp plain
  rw [deviceView, if_neg notTable]
  refine ended.deviceWalk (fun i member => ?_) (Nat.zero_lt_of_lt within)
  rw [List.mem_singleton.mp member]
  exact within

/-- A queue whose indices do not fit in a link. -/
def wideQueue : VringVirtqueue Nat := vringNewVirtqueue (zeroedRing (2 ^ 17)) true false

theorem follow_wideQueue (count : Nat) :
    (nextOf wideQueue.vring)^[count] 0 = count % 2 ^ 16 := by
  induction count with
  | zero => rfl
  | succ count inductionHypothesis =>
    have linked : count % 2 ^ 16 < 2 ^ 17 - 1 := by omega
    rw [Function.iterate_succ_apply', inductionHypothesis]
    simp only [nextOf, wideQueue, vringNewVirtqueue, zeroedRing, linkDescs_apply, if_pos linked,
      BitVec.toNat_ofNat]
    omega

/-- One entry more than a link can name is written over the first one and ends the chain there. -/
theorem fillDescs_wideQueue (isBuffer : outSgs.flatten = front ++ [last])
    (count : front.length = 2 ^ 16) :
    seenOf ((fillDescs wideQueue.vring.desc 0 outSgs []).desc 0) =
        ⟨last.addr, last.length, false, false⟩ ∧
      ((fillDescs wideQueue.vring.desc 0 outSgs []).desc 0).flags &&& vringDescFNext = 0 := by
  have isEntries : entries outSgs [] = entries [front] [] ++ [(vringDescFNext, last)] := by
    simp [entries, isBuffer]
  have back := (filled_foldl wideQueue.vring 0 (entries [front] [])
    fun entry member => entries_hasNext member).stops
  rw [length_entries, List.flatten_singleton, count, List.flatten_nil, List.length_nil,
    follow_wideQueue] at back
  rw [fillDescs_eq, isEntries, List.foldl_append, List.foldl_cons, List.foldl_nil]
  -- Whatever the other entries have left in the table, the last one goes to its start.
  generalize List.foldl _ _ (entries [front] []) = filling at back
  have back : filling.i = 0 := back
  constructor
  · rw [seenOf_endChain, ← back, fillDesc_desc_self]
    simp [seenOf, vringDescFNext, vringDescFWrite, vringDescFIndirect]
  · have isPrev : (fillDesc vringDescFNext filling last).prev = 0 := back
    have ended := endChain_desc_self (fillDesc vringDescFNext filling last)
    rw [isPrev] at ended
    rw [ended]
    exact and_not_next _

theorem deviceView_wideQueue (isBuffer : outSgs.flatten = front ++ [last])
    (count : front.length = 2 ^ 16) (token : Nat) :
    ∃ next events,
      virtqueueAdd usualCalls wideQueue outSgs [] token none = some (next, .success, events) ∧
      (next.vring.avail.ring 0).toNat = 0 ∧
      deviceView next 0 = some [⟨last.addr, last.length, false, false⟩] := by
  have total : outSgs.flatten.length + ([] : List (List Scatterlist)).flatten.length =
      2 ^ 16 + 1 := by
    rw [isBuffer, List.length_append, count]
    rfl
  have size : wideQueue.vring.num = 2 ^ 17 := rfl
  have free : wideQueue.numFree = 2 ^ 17 := rfl
  obtain ⟨sameDesc, sameNum, -, nextRing, -⟩ :=
    exposeHead_spec usualCalls (addDirect wideQueue outSgs [] (2 ^ 16 + 1)) 0 token
  generalize exposed : exposeHead usualCalls (addDirect wideQueue outSgs [] (2 ^ 16 + 1)) 0 token =
    result at sameDesc sameNum nextRing
  obtain ⟨isSeen, isLast⟩ := fillDescs_wideQueue isBuffer count
  have isFirst : result.1.vring.desc 0 = (fillDescs wideQueue.vring.desc 0 outSgs []).desc 0 :=
    congrFun sameDesc 0
  rw [← isFirst] at isSeen isLast
  refine ⟨result.1, result.2, ?_, ?_, ?_⟩
  · simp only [virtqueueAdd, total, chooseTable, ite_self, descsUsed, addTo]
    have works : wideQueue.broken ≠ true := Bool.false_ne_true
    rw [if_neg works, if_neg (by omega), if_neg (by omega), ← exposed]
    rfl
  · have slot : (addDirect wideQueue outSgs [] (2 ^ 16 + 1)).vring.avail.idx.toNat &&&
        ((addDirect wideQueue outSgs [] (2 ^ 16 + 1)).vring.num - 1) = 0 := Nat.zero_and _
    rw [nextRing, slot, Function.update_self]
    rfl
  · rw [← isSeen]
    refine deviceView_single ?_ isLast (congrArg Seen.indirect isSeen)
    rw [sameNum]
    exact Nat.two_pow_pos 17

/-- A queue with more descriptors than a link can name loses all entries but one. -/
theorem virtqueueAdd_wideQueue :
    ∃ outSgs next events, outSgs.flatten.length = 2 ^ 16 + 1 ∧
      virtqueueAdd usualCalls wideQueue outSgs [] 7 none = some (next, .success, events) ∧
      (next.vring.avail.ring 0).toNat = 0 ∧
      deviceView next 0 = some [⟨4096, 1, false, false⟩] := by
  have isBuffer : [List.replicate (2 ^ 16) (⟨4096, 1⟩ : Scatterlist) ++ [⟨4096, 1⟩]].flatten =
      List.replicate (2 ^ 16) ⟨4096, 1⟩ ++ [⟨4096, 1⟩] := List.flatten_singleton
  have count : (List.replicate (2 ^ 16) (⟨4096, 1⟩ : Scatterlist)).length = 2 ^ 16 :=
    List.length_replicate
  obtain ⟨next, events, added, exposed, view⟩ := deviceView_wideQueue isBuffer count 7
  refine ⟨_, next, events, ?_, added, exposed, view⟩
  rw [isBuffer, List.length_append, count]
  rfl

end StudyNotes.Virtqueue
