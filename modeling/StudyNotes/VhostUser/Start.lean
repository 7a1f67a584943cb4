/-
This file proves when a vhost-user device starts on rings that lie in its memory.

Whether a device is ready is judged from the pointers that earlier messages have
left. The handler for ring addresses stores a pointer before it looks whether the
whole ring is there, and nobody looks at its result. The size of a virtqueue and
the memory table change without another look at the rings, and an NVMe device
starts without any. A virtqueue can be trusted when the last message that was
about it or about the table has left behind either a missing ring or rings that
fit. When the device is started only while all virtqueues can be trusted, it is
started only on rings that lie in its memory table.
-/

import StudyNotes.VhostUser.Device

namespace StudyNotes.VhostUser

open Library Logged Function

/-! ### Rings inside the memory table -/

instance decidableForallRing {p : Ring → Prop} [DecidablePred p] : Decidable (∀ ring, p ring) :=
  decidable_of_iff (p .desc ∧ p .avail ∧ p .used)
    ⟨fun holds ring => match ring with
      | .desc => holds.1
      | .avail => holds.2.1
      | .used => holds.2.2,
    fun holds => ⟨holds .desc, holds .avail, holds .used⟩⟩

/-- The bytes at an address are part of the host's range of a region. -/
def Region.Holds (region : Region) (pointer len : BitVec 64) : Prop :=
  (pointer - region.hostUserAddr).toNat + len.toNat ≤ region.size.toNat
  deriving Decidable

/-- One region of the table has all of the bytes. -/
def InTable (mem : Option (List Region)) (pointer len : BitVec 64) : Prop :=
  ∃ region ∈ mem.getD [], region.Holds pointer len
  deriving Decidable

/-- No ring is missing. -/
def Virtqueue.AllSet (vq : Virtqueue) : Prop := ∀ ring, vq.ring ring ≠ 0
  deriving Decidable

/-- Every ring, of the length that belongs to the size, lies in one region. -/
def Virtqueue.Inside (vq : Virtqueue) (mem : Option (List Region)) : Prop :=
  ∀ ring, InTable mem (vq.ring ring) (ring.len vq.size)
  deriving Decidable

/-- A ring is missing, or all rings lie in the table. -/
def Virtqueue.Kept (vq : Virtqueue) (mem : Option (List Region)) : Prop :=
  vq.AllSet → vq.Inside mem
  deriving Decidable

/-- The rings of all virtqueues lie in the memory table. -/
def AllInside (maxVrings : Nat) (dev : VirtioNet) : Prop :=
  ∀ index < maxVrings, ∀ vq ∈ dev.virtqueue index, vq.Inside dev.mem

instance {maxVrings : Nat} {dev : VirtioNet} : Decidable (AllInside maxVrings dev) :=
  inferInstanceAs (Decidable (∀ index < maxVrings, ∀ vq ∈ dev.virtqueue index, vq.Inside dev.mem))

/-- Whenever `new_device` is called, the rings lie in the memory table. -/
def StartsInside (maxVrings : Nat) (events : List Event) : Prop :=
  ∀ dev started, .newDevice dev started ∈ events → AllInside maxVrings dev

/-! ### What keeps a device fit to start -/

/-- The virtqueue, or the one that is made for a message about it. -/
def queue (dev : VirtioNet) (index : Nat) : Virtqueue :=
  (dev.virtqueue index).getD initVringQueue

/-- Somebody who finds no ring of a trusted virtqueue missing finds them in the table. -/
def Valid (trusted : Nat → Bool) (dev : VirtioNet) : Prop :=
  ∀ index, trusted index = true → (queue dev index).Kept dev.mem

variable {dev : VirtioNet} {maxVrings index : Nat} {trusted trusted' after : Nat → Bool}
  {message : Message}

variable {addr : VringAddr} {vq : Virtqueue} {change : Virtqueue → Virtqueue}
  {rings : Ring → BitVec 64} {missing : Missing} {mem : Option (List Region)} {later : List Ring}
  {vva : BitVec 64 × BitVec 64} {before dev : VirtioNet} {others : Nat → Bool} {isTrusted : Bool}

theorem queue_of_some (isVq : dev.virtqueue index = some vq) : queue dev index = vq := by
  rw [queue, isVq, Option.getD_some]

theorem sizeOfVq_eq (dev : VirtioNet) (index : Nat) :
    sizeOfVq dev index = (queue dev index).size := by
  rw [sizeOfVq, queue]
  cases dev.virtqueue index <;> rfl

theorem not_allSet_initVringQueue : ¬ initVringQueue.AllSet := fun set => set .desc rfl

/-- A device whose virtqueues are all trusted and lack no ring. -/
theorem Valid.allInside (valid : Valid trusted dev)
    (all : ∀ index < maxVrings, trusted index = true)
    (set : ∀ index < maxVrings, ∀ vq ∈ dev.virtqueue index, vq.AllSet) :
    AllInside maxVrings dev := by
  intro index inRange vq isVq
  have kept := valid index (all index inRange)
  rw [queue_of_some isVq] at kept
  exact kept (set index inRange vq isVq)

theorem queue_updateVq_of_ne {other : Nat} (differs : other ≠ index)
    (change : Virtqueue → Virtqueue) (dev : VirtioNet) :
    queue (updateVq index change dev) other = queue dev other := by
  rw [queue, updateVq_of_ne differs]
  rfl

/-- A change of one virtqueue, and of whether it is trusted. -/
theorem Valid.updateVq (valid : Valid trusted dev)
    (same : ∀ other, other ≠ index → trusted' other = trusted other)
    (kept : ∀ vq, dev.virtqueue index = some vq → trusted' index = true →
      (change vq).Kept dev.mem) : Valid trusted' (updateVq index change dev) := by
  intro other isTrusted
  by_cases isIndex : other = index
  · subst isIndex
    cases isVq : dev.virtqueue other with
    | none =>
      rw [queue, updateVq_self, isVq]
      exact fun set => absurd set not_allSet_initVringQueue
    | some vq =>
      rw [queue, updateVq_self, isVq]
      exact kept vq isVq isTrusted
  · rw [queue_updateVq_of_ne isIndex]
    exact valid other (same other isIndex ▸ isTrusted)

theorem queue_allocate (isNew : dev.virtqueue index = none) :
    queue { dev with
      virtqueue := update dev.virtqueue index (some initVringQueue) } = queue dev := by
  funext other
  rw [queue, queue]
  by_cases isIndex : other = index
  · subst isIndex
    dsimp only
    rw [isNew, update_self]
    rfl
  · dsimp only
    rw [update_of_ne isIndex]

/-! ### Messages -/

/-- The memory table by which ring addresses are translated. -/
def tableInForce (dev : VirtioNet) : Option (List Region) :=
  if dev.hasNewMemTable then setupMemTable dev.memTable else dev.mem

/--
The first ring that is not found as a whole leaves the virtqueue without one of
its rings: it has no address at all, or a ring after it has not been set.
-/
def leavesGap (mem : Option (List Region)) (addr : VringAddr) (vq : Virtqueue) : List Ring → Bool
  | [] => true
  | ring :: later =>
    let vva := qvaToVva (mem.getD []) (addr.userAddr ring) (ring.len vq.size)
    if vva.1 = 0 ∨ vva.2 ≠ ring.len vq.size then
      vva.1 = 0 || later.any fun other => vq.ring other = 0
    else leavesGap mem addr vq later

/-- The virtqueues that lack a ring or have all of them in a table. -/
def keptWith (queues : Nat → Virtqueue) (mem : Option (List Region)) (index : Nat) : Bool :=
  decide ((queues index).Kept mem)

/--
The virtqueues that are trusted after a message: a new size is judged with the
rings that there are, a new table with those of the virtqueues that are not set
anew, and ring addresses by what they leave behind. An NVMe device, for which
`virtio_is_ready` is not asked, needs all rings when it is to be started.
-/
def trustedAfter (dev : VirtioNet) (trusted : Nat → Bool) : Message → Nat → Bool
  | .setMemTable memory =>
    if dev.isNvme then keptWith (queue dev) (setupMemTable memory) else trusted
  | .setVringNum index num =>
    update trusted index (decide ({ queue dev index with size := num }.Kept dev.mem))
  | .setVringAddr index addr =>
    let others := if dev.hasNewMemTable then keptWith (queue dev) (tableInForce dev) else trusted
    if (tableInForce dev).isNone then others
    else update others index
      (leavesGap (tableInForce dev) addr (queue dev index) [.desc, .avail, .used])
  | .nvmeStartStop enable _ =>
    if enable = 0 ∨ dev.running then trusted
    else fun index => trusted index && decide (∀ vq ∈ dev.virtqueue index, vq.AllSet)
  | _ => trusted

/-- All virtqueues are trusted. -/
def AllTrusted (maxVrings : Nat) (trusted : Nat → Bool) : Prop :=
  ∀ index < maxVrings, trusted index = true

instance : Decidable (AllTrusted maxVrings trusted) :=
  inferInstanceAs (Decidable (∀ index < maxVrings, _))

/-- `virtio_is_ready` finds no ring missing. -/
def ReadyIfSet (missing : Missing) (maxVrings : Nat) : Prop :=
  ∀ dev, missing.isReady dev = true →
    ∀ index < maxVrings, ∀ vq ∈ dev.virtqueue index, vq.AllSet

/-- The handlers that are not part of the source remove rings or leave them alone, with the size and
the table they were found for. -/
def KeepsRings (missing : Missing) : Prop :=
  ∀ request dev index, (queue (missing.effect request dev) index).AllSet →
    (missing.effect request dev).mem = dev.mem ∧
      (queue (missing.effect request dev) index).ring = (queue dev index).ring ∧
      (queue (missing.effect request dev) index).size = (queue dev index).size

/-! ### Ring addresses -/

/-- A ring that is found as a whole lies in the table. -/
theorem qvaToVva_inTable {qva len : BitVec 64} (found : (qvaToVva (mem.getD []) qva len).1 ≠ 0)
    (whole : (qvaToVva (mem.getD []) qva len).2 = len) :
    InTable mem (qvaToVva (mem.getD []) qva len).1 len := by
  obtain ⟨region, member, offset, isOffset, inside⟩ := qvaToVva_found found
  refine ⟨region, member, ?_⟩
  rw [whole] at inside
  rw [Region.Holds, isOffset, BitVec.add_sub_cancel]
  exact inside

/-- A device on the way through the rings of a virtqueue. -/
structure Placed (others : Nat → Bool) (index : Nat) (before : VirtioNet) (rings : Ring → BitVec 64)
    (dev : VirtioNet) : Prop where
  mem : dev.mem = before.mem
  vq : ∃ vq, dev.virtqueue index = some vq ∧ vq.ring = rings ∧ vq.size = (queue before index).size
  others : ∀ other, others other = true → other ≠ index → (queue dev other).Kept before.mem

section

variable (placed : Placed others index before rings dev)
include placed

theorem Placed.valid (kept : isTrusted = true → (∀ ring, rings ring ≠ 0) →
      ∀ ring, InTable before.mem (rings ring) (ring.len (queue before index).size)) :
    Valid (update others index isTrusted) dev := by
  intro other trusts
  rw [placed.mem]
  by_cases isIndex : other = index
  · subst isIndex
    obtain ⟨vq, isVq, rfl, size⟩ := placed.vq
    rw [update_self] at trusts
    rw [queue_of_some isVq, Virtqueue.Kept, Virtqueue.Inside, size]
    exact kept trusts
  · rw [update_of_ne isIndex] at trusts
    exact placed.others other trusts isIndex

theorem Placed.updateVq {rings' : Ring → BitVec 64}
    (ring : ∀ vq : Virtqueue, vq.ring = rings → (change vq).ring = rings')
    (size : ∀ vq, (change vq).size = vq.size) :
    Placed others index before rings' (updateVq index change dev) := by
  obtain ⟨vq, isVq, isRing, isSize⟩ := placed.vq
  refine ⟨placed.mem, ⟨change vq, ?_, ring vq isRing, (size vq).trans isSize⟩, ?_⟩
  · rw [updateVq_self, isVq]
    rfl
  · intro other trusts differs
    rw [queue_updateVq_of_ne differs]
    exact placed.others other trusts differs

variable {next : Handler} {ring : Ring}

/-- One ring: either the handler ends here, or it goes on with the pointer set. -/
theorem mapRing_valid (isVva : qvaToVva (before.mem.getD []) (addr.userAddr ring)
      (ring.len (queue before index).size) = vva)
    (gap : isTrusted = true → leavesGap before.mem addr (queue before index) (ring :: later) = true)
    (old : ∀ other ∈ later, other ≠ ring ∧ rings other = (queue before index).ring other)
    (goesOn : vva.1 ≠ 0 → vva.2 = ring.len (queue before index).size →
      (isTrusted = true → leavesGap before.mem addr (queue before index) later = true) → ∀ dev',
      Placed others index before (update rings ring vva.1) dev' →
        Valid (update others index isTrusted) (next dev').1) :
    Valid (update others index isTrusted) (mapRing index addr ring next dev).1 := by
  have sizeEq : sizeOfVq dev index = (queue before index).size := by
    obtain ⟨vq, isVq, -, size⟩ := placed.vq
    rw [sizeOfVq_eq, queue_of_some isVq, size]
  have isTranslated : translate dev index addr ring = vva := by
    rw [translate, placed.mem, sizeEq, isVva]
  have stored : Placed others index before (update rings ring vva.1)
      (updateVq index (fun vq => { vq with ring := update vq.ring ring vva.1 }) dev) :=
    placed.updateVq (fun vq isRing => by rw [isRing]) fun _ => rfl
  rw [mapRing, isTranslated, sizeEq]
  split
  · next fails =>
    refine stored.valid fun trusts set => ?_
    subst isVva
    rw [leavesGap, if_pos fails, Bool.or_eq_true, decide_eq_true_eq, List.any_eq_true] at gap
    rcases gap trusts with noAddress | ⟨other, member, isNull⟩
    · refine absurd ?_ (set ring)
      rw [update_self, noAddress]
    · refine absurd ?_ (set other)
      rw [update_of_ne (old other member).1, (old other member).2]
      exact of_decide_eq_true isNull
  · next finds =>
    subst isVva
    rw [leavesGap, if_neg finds] at gap
    rw [not_or, not_not] at finds
    exact goesOn finds.1 finds.2 gap _ stored

theorem takeIndices_placed (addr : VringAddr) :
    Placed others index before rings (takeIndices index addr dev).1 := by
  refine placed.updateVq (fun vq isRing => ?_) fun vq => ?_
  · split <;> exact isRing
  · split <;> rfl

end

/-- After ring addresses a virtqueue is trusted unless they leave a part of a ring. -/
theorem mapRings_valid (isSome : (dev.virtqueue index).isSome) (valid : Valid others dev)
    (gap : isTrusted = true →
      leavesGap dev.mem addr (queue dev index) [.desc, .avail, .used] = true) :
    Valid (update others index isTrusted) (mapRings index addr dev).1 := by
  obtain ⟨vq, isVq⟩ := Option.isSome_iff_exists.mp isSome
  have start : Placed others index dev (queue dev index).ring dev :=
    ⟨rfl, ⟨vq, isVq, by rw [queue_of_some isVq], by rw [queue_of_some isVq]⟩,
      fun other trusts _ => valid other trusts⟩
  refine mapRing_valid start rfl gap (by simp) fun desc descWhole gap dev placed => ?_
  refine mapRing_valid placed rfl gap (by simp) fun avail availWhole gap dev placed => ?_
  refine mapRing_valid placed rfl gap (by simp) fun used usedWhole _ dev placed => ?_
  refine (takeIndices_placed placed addr).valid fun _ _ ring => ?_
  cases ring with
  | desc => exact qvaToVva_inTable desc descWhole
  | avail => exact qvaToVva_inTable avail availWhole
  | used => exact qvaToVva_inTable used usedWhole

/-! ### The state behind a handler -/

theorem stop_fst (dev : VirtioNet) : ∃ running, (stop dev).1 = { dev with running := running } := by
  rw [stop, choose]
  split
  · exact ⟨false, rfl⟩
  · exact ⟨dev.running, rfl⟩

theorem stop_valid (valid : Valid trusted dev) : Valid trusted (stop dev).1 := by
  obtain ⟨running, isStopped⟩ := stop_fst dev
  rw [isStopped]
  exact valid

theorem consumeMemTable_fst (dev : VirtioNet) :
    (consumeMemTable dev).1 =
      { dev with mem := setupMemTable dev.memTable, hasNewMemTable := false } := by
  dsimp only [consumeMemTable, installMemTable, andThen, write, choose]
  split <;> rfl

theorem changeStopped_valid (valid : Valid trusted dev)
    (ring : ∀ vq, (change vq).ring = vq.ring) (size : ∀ vq, (change vq).size = vq.size) :
    Valid trusted (changeStopped index change dev).1 := by
  refine (stop_valid valid).updateVq (fun _ _ => rfl) fun vq isVq isTrusted => ?_
  have kept := stop_valid valid index isTrusted
  rw [queue_of_some isVq] at kept
  rw [Virtqueue.Kept, Virtqueue.AllSet, Virtqueue.Inside, ring, size]
  exact kept

theorem setMemTable_valid (valid : Valid trusted dev) (memory : List (MemoryRegion × Backing)) :
    Valid (trustedAfter dev trusted (.setMemTable memory)) (setMemTable memory dev).1 := by
  by_cases isNvme : dev.isNvme = true
  · simp only [setMemTable, andThen, write, choose, trustedAfter, isNvme, Bool.and_true, if_true,
      consumeMemTable_fst]
    exact fun index isKept => of_decide_eq_true isKept
  · simp only [setMemTable, andThen, write, choose, trustedAfter, isNvme, Bool.and_false,
      Bool.false_eq_true, if_false]
    exact valid

theorem setVringAddr_valid (isSome : (dev.virtqueue index).isSome) (valid : Valid trusted dev) :
    Valid (trustedAfter dev trusted (.setVringAddr index addr))
      (setVringAddr index addr dev).1 := by
  have installed : ∃ hasNewMemTable, (choose (fun dev => dev.hasNewMemTable) consumeMemTable skip
      dev).1 = { dev with mem := tableInForce dev, hasNewMemTable := hasNewMemTable } := by
    rw [choose, tableInForce]
    split
    · exact ⟨false, consumeMemTable_fst dev⟩
    · exact ⟨dev.hasNewMemTable, rfl⟩
  obtain ⟨hasNewMemTable, isInstalled⟩ := installed
  have validOthers : Valid
      (if dev.hasNewMemTable then keptWith (queue dev) (tableInForce dev) else trusted)
      { dev with mem := tableInForce dev, hasNewMemTable := hasNewMemTable } := by
    split
    · exact fun index isKept => of_decide_eq_true isKept
    · next isOld =>
      rw [tableInForce, if_neg isOld]
      exact valid
  dsimp only [setVringAddr, andThen, trustedAfter]
  generalize (if dev.hasNewMemTable then _ else _ : Nat → Bool) = others at *
  rw [isInstalled, choose]
  by_cases isNone : (tableInForce dev).isNone
  · rw [if_pos isNone, if_neg (by simpa using isNone)]
    exact validOthers
  · rw [if_neg isNone, if_pos (by simpa [Option.isSome_iff_ne_none] using isNone)]
    dsimp only [andThen]
    obtain ⟨running, isStopped⟩ :=
      stop_fst { dev with mem := tableInForce dev, hasNewMemTable := hasNewMemTable }
    rw [isStopped]
    exact mapRings_valid isSome validOthers id

theorem missing_valid (keeps : KeepsRings missing) (valid : Valid trusted dev)
    (request : MissingRequest) : Valid trusted (missing.effect request dev) := by
  intro index isTrusted set
  obtain ⟨mem, ring, size⟩ := keeps request dev index set
  have set' : (queue dev index).AllSet := by
    rw [Virtqueue.AllSet, ← ring]
    exact set
  rw [Virtqueue.Inside, mem, ring, size]
  exact valid index isTrusted set'

/-! ### Calls of `new_device` -/

/-- The device is as it should be for the trusted virtqueues, and whenever it was started, its
rings were in the table if all virtqueues are trusted after the message. -/
structure Sound (maxVrings : Nat) (after trusted : Nat → Bool) (dev : VirtioNet)
    (past : List Event) : Prop where
  valid : Valid trusted dev
  starts : AllTrusted maxVrings after → StartsInside maxVrings past

/-- A handler that does not call `new_device`. -/
def Quiet (handler : Handler) : Prop :=
  Logs (fun event => ∀ dev started, event ≠ .newDevice dev started) handler

theorem Quiet.sound {handler : Handler} (quiet : Quiet handler) {past : List Event}
    (valid : Valid trusted (handler dev).1)
    (starts : AllTrusted maxVrings after → StartsInside maxVrings past) :
    Sound maxVrings after trusted (handler dev).1 (past ++ (handler dev).2) := by
  refine ⟨valid, fun all started answer member => ?_⟩
  rcases List.mem_append.mp member with earlier | now
  · exact starts all started answer earlier
  · exact absurd rfl (quiet dev _ now started answer)

theorem write_quiet {change : VirtioNet → VirtioNet} : Quiet (write change) := by
  intro dev event member
  obtain rfl := List.mem_singleton.mp member
  exact fun _ _ isCall => Event.noConfusion isCall

theorem stop_quiet : Quiet stop := by
  have called : Quiet (emit fun _ => .destroyDevice) := by
    intro dev event member
    obtain rfl := List.mem_singleton.mp member
    exact fun _ _ isCall => Event.noConfusion isCall
  exact Logs.choose (Logs.andThen write_quiet called) Logs.skip

theorem changeStopped_quiet (index : Nat) (change : Virtqueue → Virtqueue) :
    Quiet (changeStopped index change) :=
  Logs.andThen stop_quiet write_quiet

theorem consumeMemTable_quiet : Quiet consumeMemTable :=
  Logs.andThen (Logs.andThen (Logs.choose write_quiet Logs.skip) write_quiet)
    write_quiet

theorem mapRing_quiet {ring : Ring} {next : Handler} (quiet : Quiet next) :
    Quiet (mapRing index addr ring next) := by
  intro dev
  refine Logs.andThen write_quiet ?_ dev
  split
  · exact Logs.skip
  · exact quiet

theorem setVringAddr_quiet (index : Nat) (addr : VringAddr) : Quiet (setVringAddr index addr) := by
  have rings : Quiet (mapRings index addr) :=
    mapRing_quiet (mapRing_quiet (mapRing_quiet write_quiet))
  exact Logs.andThen (Logs.choose consumeMemTable_quiet Logs.skip)
    (Logs.choose (Logs.andThen stop_quiet rings) Logs.skip)

/-- A device whose virtqueues are all trusted and lack no ring can be started. -/
theorem start_sound (answer : Bool) :
    Ensures (fun dev past => Sound maxVrings after after dev past ∧ (AllTrusted maxVrings after →
        ∀ index < maxVrings, ∀ vq ∈ dev.virtqueue index, vq.AllSet))
      (start answer) (Sound maxVrings after after) := by
  refine Ensures.andThen (@Ensures.emit _ _ _ (Sound maxVrings after after) _ ?_) ?_
  · rintro dev past ⟨sound, set⟩
    refine ⟨sound.valid, fun all started answer' member => ?_⟩
    rcases List.mem_append.mp member with earlier | now
    · exact sound.starts all started answer' earlier
    · obtain ⟨rfl, -⟩ := Event.newDevice.inj (List.mem_singleton.mp now)
      exact sound.valid.allInside all (set all)
  · split
    · exact fun dev past sound => write_quiet.sound sound.valid sound.starts
    · exact Ensures.skip fun _ _ sound => sound

/-! ### Messages -/

theorem trustedAfter_allocate (isNew : dev.virtqueue index = none)
    (isAbout : message.vringIdx = some index) :
    trustedAfter { dev with
      virtqueue := update dev.virtqueue index (some initVringQueue) } trusted message =
        trustedAfter dev trusted message := by
  cases message with
  | setVringNum => rw [trustedAfter, trustedAfter, queue_allocate isNew]
  | setVringAddr =>
    rw [trustedAfter, trustedAfter, queue_allocate isNew]
    rfl
  | setMemTable memory | nvmeStartStop enable answer => cases isAbout
  | _ => rfl

/-- What a handler finds: what is trusted after the message is known, and the virtqueue that it is
about exists. -/
structure Arrived (maxVrings : Nat) (after trusted : Nat → Bool) (message : Message)
    (dev : VirtioNet) (past : List Event) : Prop where
  sound : Sound maxVrings after trusted dev past
  isAfter : trustedAfter dev trusted message = after
  isSome : ∀ index ∈ message.vringIdx, (dev.virtqueue index).isSome

theorem checkAndAllocQueuePair_arrived :
    Ensures (fun dev past => Sound maxVrings after trusted dev past ∧
        trustedAfter dev trusted message = after)
      (checkAndAllocQueuePair message) (Arrived maxVrings after trusted message) := by
  rw [checkAndAllocQueuePair]
  split
  · next isNone =>
    refine Ensures.skip ?_
    rintro dev past ⟨sound, isAfter⟩
    exact ⟨sound, isAfter, fun index isAbout => by cases isNone.symm.trans isAbout⟩
  · next index isAbout =>
    have only : ∀ other ∈ message.vringIdx, other = index := fun other isOther =>
      Option.some.inj (isOther.symm.trans isAbout)
    refine Ensures.choose (Ensures.skip ?_) ?_
    · rintro dev past ⟨⟨sound, isAfter⟩, isSome⟩
      exact ⟨sound, isAfter, fun other isOther => only other isOther ▸ isSome⟩
    · rintro dev past ⟨⟨sound, isAfter⟩, isNew⟩
      rw [Option.isSome_eq_false_iff, Option.isNone_iff_eq_none] at isNew
      have made : Valid trusted { dev with
          virtqueue := update dev.virtqueue index (some initVringQueue) } := by
        rw [Valid, queue_allocate isNew]
        exact sound.valid
      refine ⟨write_quiet.sound made sound.starts, ?_, fun other isOther => ?_⟩
      · exact (trustedAfter_allocate isNew isAbout).trans isAfter
      · rw [only other isOther]
        dsimp only [write]
        rw [update_self]
        rfl

theorem startNvme_sound {enable : BitVec 64} (enables : enable ≠ 0) (answer : Bool) :
    Ensures (Arrived maxVrings after trusted (.nvmeStartStop enable answer))
      (choose (fun dev => !dev.running && !dev.drain) (start answer) skip)
      (Sound maxVrings after after) := by
  have kept : ∀ dev past, Arrived maxVrings after trusted (.nvmeStartStop enable answer) dev past →
      Sound maxVrings after after dev past := by
    rintro dev past ⟨⟨valid, starts⟩, rfl, -⟩
    refine ⟨fun index isTrusted => valid index ?_, starts⟩
    rw [trustedAfter] at isTrusted
    split at isTrusted
    · exact isTrusted
    · exact (Bool.and_eq_true_iff.mp isTrusted).1
  refine Ensures.choose ((start_sound answer).mono ?_ fun _ _ sound => sound)
    (Ensures.skip fun dev past pre => kept dev past pre.1)
  rintro dev past ⟨arrived, isStopped⟩
  refine ⟨kept dev past arrived, fun all index inRange => ?_⟩
  rw [Bool.and_eq_true_iff, Bool.not_eq_true'] at isStopped
  have isTrusted := all index inRange
  rw [← arrived.isAfter, trustedAfter, if_neg (by simpa [isStopped.1] using enables)] at isTrusted
  exact of_decide_eq_true (Bool.and_eq_true_iff.mp isTrusted).2

theorem dispatch_sound (keeps : KeepsRings missing) :
    Ensures (Arrived maxVrings after trusted message) (dispatch missing message)
      (Sound maxVrings after after) := by
  rintro dev past ⟨⟨valid, starts⟩, rfl, isSome⟩
  cases message with
  | setFeatures features =>
    have quiet : Quiet (setFeatures features) :=
      Logs.andThen (Logs.choose stop_quiet Logs.skip) write_quiet
    refine quiet.sound ?_ starts
    dsimp only [setFeatures, andThen, write]
    rw [choose]
    split
    · exact stop_valid valid
    · exact valid
  | setMemTable memory =>
    have quiet : Quiet (setMemTable memory) :=
      Logs.andThen write_quiet (Logs.choose consumeMemTable_quiet Logs.skip)
    exact quiet.sound (setMemTable_valid valid memory) starts
  | setVringNum index num =>
    refine write_quiet.sound (valid.updateVq (fun other differs => ?_) fun vq isVq trusts => ?_)
      starts
    · exact update_of_ne differs _ _
    · rw [trustedAfter, update_self, decide_eq_true_eq, queue_of_some isVq] at trusts
      exact trusts
  | setVringAddr index addr =>
    exact (setVringAddr_quiet index addr).sound (setVringAddr_valid (isSome index rfl) valid) starts
  | setVringBase index num =>
    exact (changeStopped_quiet index _).sound
      (changeStopped_valid valid (fun _ => rfl) fun _ => rfl) starts
  | setVringKick u64 fd | setVringCall u64 fd =>
    exact (changeStopped_quiet (fileIndex u64) _).sound
      (changeStopped_valid valid (fun _ => rfl) fun _ => rfl) starts
  | setVringErr u64 | plain => exact Quiet.sound Logs.skip valid starts
  | nvmeAdmin => exact write_quiet.sound valid starts
  | nvmeStartStop enable answer =>
    rw [dispatch]
    split
    · next enables =>
      exact startNvme_sound enables answer dev past ⟨⟨valid, starts⟩, rfl, isSome⟩
    · next disables =>
      rw [trustedAfter, if_pos (.inl (not_not.mp disables))] at starts ⊢
      exact stop_quiet.sound (stop_valid valid) starts
  | missing request =>
    rw [dispatch]
    cases missing.stops request with
    | false =>
      exact Quiet.sound (Logs.andThen Logs.skip write_quiet) (missing_valid keeps valid request)
        starts
    | true =>
      exact Quiet.sound (Logs.andThen stop_quiet write_quiet)
        (missing_valid keeps (stop_valid valid) request) starts

theorem startIfReady_sound (ready : ReadyIfSet missing maxVrings) (answer : Bool) :
    Ensures (Sound maxVrings after after) (startIfReady missing answer)
      (Sound maxVrings after after) := by
  refine Ensures.choose ((start_sound answer).mono ?_ fun _ _ sound => sound)
    (Ensures.skip fun _ _ pre => pre.1)
  rintro dev past ⟨sound, isReady⟩
  simp only [Bool.and_eq_true, Bool.not_eq_true'] at isReady
  exact ⟨sound, fun _ => ready dev isReady.1.2⟩

/-! ### Runs -/

/-- A call of `new_device`. -/
def Event.isStart : Event → Bool
  | .newDevice _ _ => true
  | _ => false

/-- A message, with what is trusted before it and after it. It is judged when it starts the device:
all virtqueues have to be trusted then. -/
def trustedStep (missing : Missing) (maxVrings : Nat) (state : VirtioNet × (Nat → Bool))
    (action : Message × Bool) : Option ((VirtioNet × (Nat → Bool)) × List Event) :=
  let after := trustedAfter state.1 state.2 action.1
  (step missing maxVrings state.1 action).bind fun (next, events) =>
    if ∀ event ∈ events, event.isStart = true → AllTrusted maxVrings after then
      some ((next, after), events)
    else none

theorem trustedStep_sound (ready : ReadyIfSet missing maxVrings) (keeps : KeepsRings missing)
    {state next : VirtioNet × (Nat → Bool)} {events : List Event} {action : Message × Bool}
    (valid : Valid state.2 state.1)
    (taken : trustedStep missing maxVrings state action = some (next, events)) :
    Valid next.2 next.1 ∧ StartsInside maxVrings events := by
  obtain ⟨result, isResult, taken⟩ := Option.bind_eq_some_iff.mp taken
  generalize isAfter : trustedAfter state.1 state.2 action.1 = after at taken
  obtain ⟨all, isNext⟩ := Option.ite_none_right_eq_some.mp taken
  cases isNext
  obtain ⟨-, isResult⟩ := Option.ite_none_right_eq_some.mp isResult
  have handled : Ensures (fun dev past => Sound maxVrings after state.2 dev past ∧
        trustedAfter dev state.2 action.1 = after)
      (msgHandler missing action.1 action.2) (Sound maxVrings after after) := by
    refine checkAndAllocQueuePair_arrived.andThen ((dispatch_sound keeps).andThen ?_)
    split
    · exact Ensures.skip fun _ _ sound => sound
    · exact startIfReady_sound ready action.2
  have sound := handled state.1 [] ⟨⟨valid, fun _ _ _ member => by cases member⟩, isAfter⟩
  rw [Option.some.inj isResult] at sound
  exact ⟨sound.valid, fun dev started member =>
    sound.starts (all _ member rfl) dev started member⟩

/--
When the device is started only with virtqueues that are trusted, it is started
only with all rings of its virtqueues, as long as their sizes ask for, in its
memory table. In the beginning, without any ring, all virtqueues are trusted.
-/
theorem run_startsInside {missing : Missing} {maxVrings : Nat}
    (ready : ReadyIfSet missing maxVrings) (keeps : KeepsRings missing)
    {actions : List (Message × Bool)} {last : VirtioNet × (Nat → Bool)} {events : List Event}
    (ran : run (trustedStep missing maxVrings) (newVirtioNet, fun _ => true) actions =
      some (last, events)) : StartsInside maxVrings events := by
  have initially : Valid (fun _ => true) newVirtioNet ∧ StartsInside maxVrings [] :=
    ⟨fun _ _ set => absurd set not_allSet_initVringQueue, fun _ _ member => by cases member⟩
  have sound := run_invariant (trustedStep missing maxVrings)
    (fun state past => Valid state.2 state.1 ∧ StartsInside maxVrings past)
    (fun _ _ _ _ _ sound taken => by
      obtain ⟨valid, starts⟩ := trustedStep_sound ready keeps sound.1 taken
      refine ⟨valid, fun dev started member => ?_⟩
      exact (List.mem_append.mp member).elim (sound.2 dev started) (starts dev started))
    [] initially ran
  exact sound.2

theorem oneQueue_readyIfSet : ReadyIfSet oneQueue 1 := by
  intro dev isReady index inRange vq isVq ring
  obtain rfl := Nat.lt_one_iff.mp inRange
  rw [oneQueue] at isReady
  dsimp only at isReady
  rw [show dev.virtqueue 0 = some vq from isVq] at isReady
  obtain ⟨desc, avail, used, -⟩ := of_decide_eq_true isReady
  cases ring <;> assumption

/-- The used ring starts a few bytes before the end of the region. -/
def lastBytes : VringAddr where
  userAddr
    | .desc => 0x10000000
    | .avail => 0x10001000
    | .used => 0x100fff00
  logGuestAddr := 0
  usedIdx := 0

/-- Addresses that are not found and others in their place; then a size that does not fit while the
device runs, and a restart with the size from before. -/
theorem run_startsInside_restart :
    ∃ last events, run (trustedStep oneQueue 1) (newVirtioNet, fun _ => true)
        ([(.setMemTable oneRegion, false), (.setVringNum 0 128, false),
            (.setVringAddr 0 lastBytes, false)] ++ startup ++
          [(.setVringNum 0 0x20000, true), (.setVringNum 0 64, true), (.setVringBase 0 5, true)]) =
        some (last, events) ∧
      last.1.running = true ∧ StartsInside 1 events := by
  refine exists_run_of_any (fun result => result.1.1.running) (by decide +kernel)
    fun last events ran running => ⟨running, ?_⟩
  exact run_startsInside oneQueue_readyIfSet (fun _ _ _ _ => ⟨rfl, rfl, rfl⟩) ran

/-- A start with rings outside of the table. -/
def isOutside : Event → Bool
  | .newDevice dev started => started && !decide (AllInside 1 dev)
  | _ => false

/-- The handler fails for the used ring, and the device starts with it. -/
theorem setVringAddr_startsOutside :
    ∃ last events, run (step oneQueue 1) newVirtioNet
        [(.setMemTable oneRegion, false), (.setVringNum 0 128, false),
          (.setVringAddr 0 lastBytes, false), (.setVringKick 0 5, false),
          (.setVringCall 0 6, true)] = some (last, events) ∧
      last.running = true ∧ ¬ StartsInside 1 events := by
  refine exists_run_of_any (fun result => result.1.running && result.2.any isOutside)
    (by decide +kernel) fun last events _ found => ?_
  obtain ⟨running, outside⟩ := Bool.and_eq_true_iff.mp found
  refine ⟨running, fun inside => ?_⟩
  obtain ⟨event, member, isCall⟩ := List.any_eq_true.mp outside
  cases event with
  | newDevice dev started =>
    rw [isOutside, Bool.and_eq_true_iff, Bool.not_eq_true', decide_eq_false_iff_not] at isCall
    exact isCall.2 (inside dev started member)
  | destroyDevice | wrote before after => cases isCall

end StudyNotes.VhostUser
