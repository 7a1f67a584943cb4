/-
This file proves that the division of the descriptors holds in every run of a
queue and its device, and that every token goes in and out at most once.

The proof has one lemma for each function of the driver. What the device writes
only decides which buffer is taken back, if any.
-/

import StudyNotes.Virtqueue.FreeList
import Mathlib.Data.List.Induction

namespace StudyNotes.Virtqueue

open Library Function

variable {Token : Type} {past events : List (Event Token)} {head links : Nat}
  {vq : VringVirtqueue Token} {missing : Missing Token} {filling : Filling} {vring : Vring}

/-! ### A new queue -/

theorem linkDescs_apply (desc : Nat → VringDesc) (num i : Nat) :
    linkDescs desc num i =
      if i < num - 1 then { desc i with next := BitVec.ofNat 16 (i + 1) } else desc i := by
  rw [linkDescs]
  induction num - 1 with
  | zero => simp
  | succ count inductionHypothesis =>
    rw [List.range_succ, List.foldl_append, List.foldl_cons, List.foldl_nil]
    by_cases same : i = count
    · subst same
      simp [inductionHypothesis]
    · rw [update_of_ne same, inductionHypothesis]
      have bound : i < count + 1 ↔ i < count := by omega
      simp only [bound]

/-- A new queue has all its descriptors in the free list, if their indices fit in a link. -/
theorem vringNewVirtqueue_freeList (vring : Vring) (callback indirect : Bool)
    (narrow : vring.num ≤ 2 ^ 16) :
    freeList (vringNewVirtqueue vring callback indirect : VringVirtqueue Token) =
      List.range vring.num := by
  rw [List.range_eq_range']
  refine iterate_consecutive fun i _ below => ?_
  have linked : i < vring.num - 1 := by
    simp only [vringNewVirtqueue] at below
    omega
  simp only [nextOf, vringNewVirtqueue, linkDescs_apply, if_pos linked, BitVec.toNat_ofNat]
  exact Nat.mod_eq_of_lt (by omega)

theorem vringNewVirtqueue_invariant (vring : Vring) (callback indirect : Bool)
    (narrow : vring.num ≤ 2 ^ 16) :
    Invariant (vringNewVirtqueue vring callback indirect : VringVirtqueue Token) := by
  have noHeads : heads (vringNewVirtqueue vring callback indirect : VringVirtqueue Token) = [] := by
    simp [heads, vringNewVirtqueue]
  refine ⟨narrow, Nat.two_pow_pos 16, fun head member => ?_, ?_⟩
  · simp [noHeads] at member
  · rw [vringNewVirtqueue_freeList vring callback indirect narrow, noHeads, List.flatMap_nil,
      List.append_nil]
    exact List.Perm.refl _

/-! ### Filling descriptors -/

/-- The entries of a buffer with the flags their descriptors get. -/
def entries (outSgs inSgs : List (List Scatterlist)) : List (BitVec 16 × Scatterlist) :=
  outSgs.flatten.map (Prod.mk vringDescFNext) ++
    inSgs.flatten.map (Prod.mk (vringDescFNext ||| vringDescFWrite))

theorem length_entries (outSgs inSgs : List (List Scatterlist)) :
    (entries outSgs inSgs).length = outSgs.flatten.length + inSgs.flatten.length := by
  rw [entries, List.length_append, List.length_map, List.length_map]

variable {vq next : VringVirtqueue Token} {outSgs inSgs : List (List Scatterlist)} {token : Token}

theorem entries_hasNext {entry : BitVec 16 × Scatterlist}
    (member : entry ∈ entries outSgs inSgs) : entry.1 &&& vringDescFNext ≠ 0 := by
  have out : vringDescFNext &&& vringDescFNext ≠ 0 := by decide
  have into : (vringDescFNext ||| vringDescFWrite) &&& vringDescFNext ≠ 0 := by decide
  rcases List.mem_append.mp member with isOut | isIn
  · obtain ⟨sg, -, rfl⟩ := List.mem_map.mp isOut
    exact out
  · obtain ⟨sg, -, rfl⟩ := List.mem_map.mp isIn
    exact into

variable (flags : BitVec 16)

section

variable (filling : Filling)

@[simp] theorem fillDesc_desc_self (sg : Scatterlist) :
    (fillDesc flags filling sg).desc filling.i =
      { filling.desc filling.i with flags := flags, addr := sg.addr, len := sg.length } := by
  simp [fillDesc]

theorem fillDesc_desc_of_ne (sg : Scatterlist) {i : Nat}
    (other : i ≠ filling.i) : (fillDesc flags filling sg).desc i = filling.desc i := by
  simp [fillDesc, update_of_ne other]

theorem endChain_desc_self :
    (endChain filling).desc filling.prev =
      { filling.desc filling.prev with
        flags := (filling.desc filling.prev).flags &&& ~~~vringDescFNext } := by
  simp [endChain]

theorem endChain_desc_of_ne {i : Nat} (other : i ≠ filling.prev) :
    (endChain filling).desc i = filling.desc i := by
  simp [endChain, update_of_ne other]

end

/-- What the loops of `virtqueue_add` have done to the descriptors of a ring. -/
structure Filled (vring : Vring) (start count : Nat) (filling : Filling) : Prop where
  links : ∀ i, (filling.desc i).next = (vring.desc i).next
  outside : ∀ i ∉ List.iterate (nextOf vring) start count, filling.desc i = vring.desc i
  inside : ∀ i ∈ List.iterate (nextOf vring) start count,
    (filling.desc i).flags &&& vringDescFNext ≠ 0
  stops : filling.i = (nextOf vring)^[count] start
  last : ∀ links, count = links + 1 → filling.prev = (nextOf vring)^[links] start

/-- One more turn of the loops. -/
theorem Filled.fillDesc {start count : Nat} (filled : Filled vring start count filling)
    {flags : BitVec 16} (continuing : flags &&& vringDescFNext ≠ 0) (sg : Scatterlist) :
    Filled vring start (count + 1) (fillDesc flags filling sg) where
  links i := by
    by_cases here : i = filling.i
    · rw [here, fillDesc_desc_self, ← filled.links]
    · rw [fillDesc_desc_of_ne _ _ _ here, filled.links]
  outside i notTaken := by
    rw [iterate_succ_last, List.mem_append, List.mem_singleton, not_or, ← filled.stops] at notTaken
    rw [fillDesc_desc_of_ne _ _ _ notTaken.2, filled.outside i notTaken.1]
  inside i taken := by
    by_cases here : i = filling.i
    · rw [here, fillDesc_desc_self]
      exact continuing
    · rw [iterate_succ_last, List.mem_append, List.mem_singleton, ← filled.stops] at taken
      rw [fillDesc_desc_of_ne _ _ _ here]
      exact filled.inside i (taken.resolve_right here)
  stops := by
    rw [iterate_succ_apply', ← filled.stops]
    exact congrArg BitVec.toNat (filled.links filling.i)
  last links isCount := by
    obtain rfl : count = links := by omega
    exact filled.stops

theorem filled_foldl (vring : Vring) (start : Nat) (list : List (BitVec 16 × Scatterlist))
    (continuing : ∀ entry ∈ list, entry.1 &&& vringDescFNext ≠ 0) :
    Filled vring start list.length
      (list.foldl (fun filling entry => fillDesc entry.1 filling entry.2)
        { desc := vring.desc, prev := 0, i := start }) := by
  induction list using List.reverseRecOn with
  | nil => exact ⟨fun _ => rfl, fun _ _ => rfl, by simp [List.iterate], rfl, by simp⟩
  | append_singleton list entry inductionHypothesis =>
    rw [List.foldl_append, List.length_append]
    refine (inductionHypothesis fun other member => ?_).fillDesc ?_ entry.2
    · exact continuing other (List.mem_append_left _ member)
    · exact continuing entry (List.mem_append_right _ List.mem_cons_self)

/-- The two loops are one loop over all entries. -/
theorem fillDescs_eq (desc : Nat → VringDesc) (start : Nat)
    (outSgs inSgs : List (List Scatterlist)) :
    fillDescs desc start outSgs inSgs =
      endChain ((entries outSgs inSgs).foldl
        (fun filling entry => fillDesc entry.1 filling entry.2)
        { desc := desc, prev := 0, i := start }) := by
  simp only [fillDescs, entries, List.foldl_append, List.foldl_map]

theorem and_not_next : flags &&& ~~~vringDescFNext &&& vringDescFNext = 0 := by
  rw [BitVec.and_assoc, BitVec.and_comm (~~~vringDescFNext), BitVec.and_not_self]
  exact BitVec.and_zero

/-- The end mark makes one chain of the taken descriptors. -/
theorem Filled.endChain {start : Nat} (filled : Filled vring start (links + 1) filling)
    (nodup : (List.iterate (nextOf vring) start (links + 1)).Nodup) :
    (∀ i, ((endChain filling).desc i).next = (vring.desc i).next) ∧
      (∀ i ∉ List.iterate (nextOf vring) start (links + 1),
        (endChain filling).desc i = vring.desc i) ∧
      Chained { vring with desc := (endChain filling).desc } start links := by
  have isLast : filling.prev = (nextOf vring)^[links] start := filled.last links rfl
  have sameLinks : ∀ i, ((Virtqueue.endChain filling).desc i).next = (vring.desc i).next := by
    intro i
    by_cases here : i = filling.prev
    · rw [here, endChain_desc_self, ← filled.links]
    · rw [endChain_desc_of_ne _ here, filled.links]
  have sameNext : nextOf { vring with desc := (Virtqueue.endChain filling).desc } = nextOf vring :=
    funext fun i => congrArg BitVec.toNat (sameLinks i)
  refine ⟨sameLinks, fun i notTaken => ?_, fun i taken => ?_, ?_⟩
  · have notLast : i ≠ filling.prev := fun here =>
      notTaken (here ▸ isLast ▸ mem_iterate_of_lt _ _ (Nat.lt_succ_self links))
    rw [endChain_desc_of_ne _ notLast, filled.outside i notTaken]
  · rw [sameNext] at taken
    rw [iterate_succ_last] at nodup
    have notLast : i ≠ filling.prev :=
      isLast ▸ (List.nodup_append.mp nodup).2.2 i taken _ List.mem_cons_self
    have stays := filled.inside i (by
      rw [iterate_succ_last]
      exact List.mem_append_left _ taken)
    simpa [hasNext, endChain_desc_of_ne _ notLast] using stays
  · rw [sameNext, ← isLast]
    simp [hasNext, endChain_desc_self, and_not_next]

/-! ### Adding a buffer -/

theorem addDirect_takes (vq : VringVirtqueue Token)
    (total : outSgs.flatten.length + inSgs.flatten.length = links + 1) (enough : links < vq.numFree)
    (nodup : (List.iterate (nextOf vq.vring) vq.freeHead (links + 1)).Nodup) :
    Takes vq (addDirect vq outSgs inSgs (links + 1)) links := by
  have filled := filled_foldl vq.vring vq.freeHead (entries outSgs inSgs)
    fun entry member => entries_hasNext member
  rw [length_entries, total] at filled
  obtain ⟨sameLinks, outside, chained⟩ := filled.endChain nodup
  have isFilling := fillDescs_eq vq.vring.desc vq.freeHead outSgs inSgs
  refine ⟨rfl, fun i => ?_, fun i notTaken => ?_, ?_, ?_, ?_, fun _ _ => rfl⟩
  · simp only [addDirect, nextOf, isFilling, sameLinks]
  · simp only [addDirect, isFilling]
    exact outside i notTaken
  · simp only [addDirect, isFilling]
    exact chained
  · simp only [addDirect, isFilling]
    exact filled.stops
  · exact Nat.sub_add_cancel enough

theorem addIndirect_takes (vq : VringVirtqueue Token) (outSgs inSgs : List (List Scatterlist))
    (totalSg : Nat) (tableAddr : BitVec 64) (enough : 0 < vq.numFree) :
    Takes vq (addIndirect vq outSgs inSgs totalSg tableAddr) 0 where
  sameNum := rfl
  sameLinks i := by
    by_cases here : i = vq.freeHead
    · simp [addIndirect, nextOf, here]
    · simp [addIndirect, nextOf, update_of_ne here]
  outside i notTaken := by
    have other : i ≠ vq.freeHead := by simpa [List.iterate] using notTaken
    simp [addIndirect, update_of_ne other]
  chained := by
    have indirect : vringDescFIndirect &&& vringDescFNext = 0 := by decide
    exact ⟨by simp [List.iterate], by simp [addIndirect, hasNext, indirect]⟩
  freeHead := rfl
  numFree := Nat.sub_add_cancel enough
  others head other := by simp [addIndirect, update_of_ne other]

/-- Storing the token and the head leaves the descriptors as they are. -/
theorem Takes.exposeHead {vq filled next : VringVirtqueue Token} (takes : Takes vq filled links)
    (token : Token) (exposed : exposeHead missing filled vq.freeHead token = (next, events)) :
    Takes vq next links ∧ (next.descState vq.freeHead).data = some token ∧
      (events = [.added vq.freeHead token] ∨ events = [.added vq.freeHead token, .kicked]) := by
  obtain ⟨sameNum, sameLinks, outside, chained, freeHead, numFree, others⟩ := takes
  simp only [Virtqueue.exposeHead] at exposed
  split at exposed
  all_goals
    cases exposed
    refine ⟨⟨sameNum, sameLinks, outside, ⟨chained.continues, chained.ends⟩, freeHead, numFree,
      fun other differs => ?_⟩, by simp [virtqueueKick], by simp⟩
    simp [virtqueueKick, update_of_ne differs, others other differs]

theorem addTo_takes (invariant : Invariant vq) {table : Option (BitVec 64)}
    (total : outSgs.flatten.length + inSgs.flatten.length = links + 1)
    (enough : descsUsed table (links + 1) ≤ vq.numFree) :
    ∃ taken, Takes vq (addTo vq outSgs inSgs (links + 1) table) taken := by
  cases table with
  | some addr => exact ⟨0, addIndirect_takes vq outSgs inSgs (links + 1) addr enough⟩
  | none => exact ⟨links, addDirect_takes vq total enough (invariant.taken enough).1⟩

section

variable {tableAddr : Option (BitVec 64)} {code : ReturnCode}
  (added : virtqueueAdd missing vq outSgs inSgs token tableAddr = some (next, code, events))
include added

/-- What `virtqueue_add` does: report an error and change nothing, or expose a head. -/
theorem virtqueueAdd_inversion :
    (next = vq ∧ code ≠ .success ∧ (events = [] ∨ events = [.notified])) ∨
      (code = .success ∧ ∃ table links,
        outSgs.flatten.length + inSgs.flatten.length = links + 1 ∧ links + 1 ≤ vq.vring.num ∧
        descsUsed table (links + 1) ≤ vq.numFree ∧ (table = none ∨ table = tableAddr) ∧
        exposeHead missing (addTo vq outSgs inSgs (links + 1) table) vq.freeHead token =
          (next, events)) := by
  simp only [virtqueueAdd] at added
  split at added
  · cases added
    exact .inl ⟨rfl, by decide, .inl rfl⟩
  obtain ⟨sizes, added⟩ := Option.ite_none_left_eq_some.mp added
  obtain ⟨short, notEmpty⟩ := not_or.mp sizes
  split at added
  · cases added
    refine .inl ⟨rfl, by decide, ?_⟩
    split
    · exact .inl rfl
    · exact .inr rfl
  · next enough =>
    obtain ⟨links, total⟩ := Nat.exists_eq_succ_of_ne_zero notEmpty
    rw [total] at added short enough
    obtain ⟨rfl, isPair⟩ := Prod.mk.inj (Option.some.inj added)
    cases isPair
    refine .inr ⟨rfl, _, links, total, Nat.le_of_not_lt short, Nat.le_of_not_lt enough, ?_, rfl⟩
    unfold chooseTable
    split
    · exact .inr rfl
    · exact .inl rfl

/-- What `virtqueue_add` can do: report an error and change nothing, or add one buffer. -/
theorem virtqueueAdd_cases (invariant : Invariant vq) :
    (next = vq ∧ code ≠ .success ∧ (events = [] ∨ events = [.notified])) ∨
      (code = .success ∧ (∃ links, Takes vq next links) ∧
        (next.descState vq.freeHead).data = some token ∧
        (events = [.added vq.freeHead token] ∨ events = [.added vq.freeHead token, .kicked])) := by
  refine (virtqueueAdd_inversion added).imp_right ?_
  rintro ⟨isSuccess, table, links, total, -, enough, -, exposed⟩
  obtain ⟨taken, takes⟩ := addTo_takes invariant total enough
  obtain ⟨takes', stored, isEvents⟩ := takes.exposeHead token exposed
  exact ⟨isSuccess, ⟨taken, takes'⟩, stored, isEvents⟩

end

/-! ### Taking a buffer back -/

/-- The slots of the available ring stay as they are. -/
structure SameAvail (vq next : VringVirtqueue Token) : Prop where
  num : next.vring.num = vq.vring.num
  idx : next.vring.avail.idx = vq.vring.avail.idx
  slots : ∀ slot < vq.vring.num, next.vring.avail.ring slot = vq.vring.avail.ring slot

/-- The used event lies behind the last slot. -/
theorem SameAvail.consumeUsed (same : SameAvail vq next) : SameAvail vq (consumeUsed next) := by
  refine ⟨same.num, ?_, fun slot below => ?_⟩
  all_goals
    dsimp only [Virtqueue.consumeUsed]
    split
  · exact same.idx
  · exact same.idx
  · exact same.slots slot below
  · exact (update_of_ne (same.num ▸ below.ne) _ _).trans (same.slots slot below)

/-- `detach_buf` returns for a buffer in flight, and gives its descriptors back. -/
theorem detachBuf_spec (invariant : Invariant vq) (member : head ∈ heads vq) :
    ∃ next, detachBuf vq head = some next ∧ Invariant next ∧ SameAvail vq next ∧
      (next.descState head).data = none ∧
      ∀ other ≠ head, (next.descState other).data = (vq.descState other).data := by
  obtain ⟨links, chained, within, -⟩ := invariant.chain_eq member
  have walked := chained.loop_detachTurn vq.numFree within
  have idle : ((update vq.descState head { data := none, indirDesc := none }) head).data =
      none := by rw [update_self]
  have others : ∀ other ≠ head,
      ((update vq.descState head { data := none, indirDesc := none }) other).data =
        (vq.descState other).data := fun other differs => by rw [update_of_ne differs]
  refine ⟨_, by rw [detachBuf, walked]; rfl, ?_, by exact ⟨rfl, rfl, fun _ _ => rfl⟩, idle,
    others⟩
  refine invariant.giveBack member chained within rfl (fun i differs => ?_) ?_ rfl rfl idle others
  · exact update_of_ne differs _ _
  · simp only [nextOf, update_self, BitVec.toNat_ofNat]
    exact Nat.mod_eq_of_lt invariant.headFits

/-- `virtqueue_get_buf` returns, and takes back nothing or the buffer that the used entry names. -/
theorem virtqueueGetBuf_cases (invariant : Invariant vq) :
    ∃ next result, virtqueueGetBuf missing vq = some (next, result) ∧ Invariant next ∧
      SameAvail vq next ∧
      ((result = none ∧ next.vring = vq.vring ∧ next.freeHead = vq.freeHead ∧
          next.numFree = vq.numFree ∧ next.descState = vq.descState) ∨
        ∃ token, result = some token ∧ usedId vq ∈ heads vq ∧ moreUsed vq = true ∧
          (vq.descState (usedId vq)).data = some token ∧
          (next.descState (usedId vq)).data = none ∧
          ∀ other ≠ usedId vq, (next.descState other).data = (vq.descState other).data) := by
  rw [virtqueueGetBuf]
  split
  · exact ⟨vq, none, rfl, invariant, ⟨rfl, rfl, fun _ _ => rfl⟩, .inl ⟨rfl, rfl, rfl, rfl, rfl⟩⟩
  split
  · exact ⟨vq, none, rfl, invariant, ⟨rfl, rfl, fun _ _ => rfl⟩, .inl ⟨rfl, rfl, rfl, rfl, rfl⟩⟩
  rename_i more
  split
  · exact ⟨_, none, rfl, invariant.frame rfl rfl rfl rfl rfl, ⟨rfl, rfl, fun _ _ => rfl⟩,
      .inl ⟨rfl, rfl, rfl, rfl, rfl⟩⟩
  rename_i inRange
  split
  · exact ⟨_, none, rfl, invariant.frame rfl rfl rfl rfl rfl, ⟨rfl, rfl, fun _ _ => rfl⟩,
      .inl ⟨rfl, rfl, rfl, rfl, rfl⟩⟩
  rename_i token stored
  have member : usedId vq ∈ heads vq :=
    mem_heads.mpr ⟨Nat.lt_of_not_le inRange, by rw [stored]; rfl⟩
  obtain ⟨next, detached, kept, same, idle, others⟩ := detachBuf_spec invariant member
  refine ⟨consumeUsed next, some token, by rw [detached]; rfl, kept.frame rfl rfl rfl rfl rfl,
    same.consumeUsed, .inr ⟨token, rfl, member, ?_, stored, idle, others⟩⟩
  simpa using more

/-! ### Tokens over a run -/

/-- The head a buffer was added or taken back at. -/
def Event.head? : Event Token → Option Nat
  | .added head _ => some head
  | .got id _ => some id
  | .notified => none
  | .kicked => none

/-- A buffer was added at a head, and nothing happened at that head since then. -/
def Outstanding (events : List (Event Token)) (head : Nat) (token : Token) : Prop :=
  ∃ earlier later, events = earlier ++ .added head token :: later ∧
    ∀ event ∈ later, event.head? ≠ some head

/--
Every buffer that is taken back was added at the same head, and it is the first
one that is taken back at this head since then. So no buffer is taken back twice.
-/
def TakenBackOnce (events : List (Event Token)) : Prop :=
  Preceded (fun before event => ∀ id token, event = .got id token → Outstanding before id token)
    events

theorem Outstanding.append {more : List (Event Token)} (outstanding : Outstanding events head token)
    (elsewhere : ∀ event ∈ more, event.head? ≠ some head) :
    Outstanding (events ++ more) head token := by
  obtain ⟨earlier, later, rfl, quiet⟩ := outstanding
  exact ⟨earlier, later ++ more, by rw [List.append_assoc, List.cons_append],
    List.forall_mem_append.mpr ⟨quiet, elsewhere⟩⟩

/-- The buffers in flight are those that were added and not taken back. -/
structure Recorded (vq : VringVirtqueue Token) (past : List (Event Token)) : Prop where
  outstanding : ∀ head token, (vq.descState head).data = some token → Outstanding past head token
  once : TakenBackOnce past

section

variable (recorded : Recorded vq past)
include recorded

theorem Recorded.quiet (event : Event Token) (nowhere : event.head? = none)
    (sameState : ∀ head, (next.descState head).data = (vq.descState head).data) :
    Recorded next (past ++ [event]) where
  outstanding head token stored :=
    (recorded.outstanding head token (sameState head ▸ stored)).append (by simp [nowhere])
  once := recorded.once.concat _ (by rintro id token rfl; cases nowhere)

theorem Recorded.added (stored : (next.descState head).data = some token)
    (others : ∀ other ≠ head, (next.descState other).data = (vq.descState other).data) :
    Recorded next (past ++ [.added head token]) where
  outstanding other found isFound := by
    by_cases same : other = head
    · subst same
      obtain rfl := Option.some.inj (stored.symm.trans isFound)
      exact ⟨past, [], rfl, by simp⟩
    · refine (recorded.outstanding other found (others other same ▸ isFound)).append ?_
      simpa [Event.head?] using Ne.symm same
  once := recorded.once.concat _ (by rintro id token' isGot; cases isGot)

theorem Recorded.got {id : Nat} (stored : (vq.descState id).data = some token)
    (idle : (next.descState id).data = none)
    (others : ∀ other ≠ id, (next.descState other).data = (vq.descState other).data) :
    Recorded next (past ++ [.got id token]) where
  outstanding other found isFound := by
    by_cases same : other = id
    · rw [same, idle] at isFound
      cases isFound
    · refine (recorded.outstanding other found (others other same ▸ isFound)).append ?_
      simpa [Event.head?] using Ne.symm same
  once := recorded.once.concat _ (by
    rintro id' token' isGot
    cases isGot
    exact recorded.outstanding id token stored)

end

/-- One action of the driver or the device keeps the division and the record of the tokens. -/
theorem step_keeps {action : Action Token} (invariant : Invariant vq) (recorded : Recorded vq past)
    (taken : step missing vq action = some (next, events)) :
    Invariant next ∧ Recorded next (past ++ events) := by
  cases action with
  | add outSgs inSgs token tableAddr =>
    obtain ⟨⟨next', code, events'⟩, added, isPair⟩ := Option.map_eq_some_iff.mp taken
    cases isPair
    rcases virtqueueAdd_cases added invariant with
      ⟨rfl, -, rfl | rfl⟩ | ⟨-, ⟨links, takes⟩, stored, isEvents⟩
    · rw [List.append_nil]
      exact ⟨invariant, recorded⟩
    · exact ⟨invariant, recorded.quiet .notified rfl fun _ => rfl⟩
    · refine ⟨invariant.take takes (by rw [stored]; rfl), ?_⟩
      have recorded' := recorded.added stored takes.others
      rcases isEvents with rfl | rfl
      · exact recorded'
      · have both := recorded'.quiet .kicked rfl fun _ => rfl
        rwa [List.append_assoc] at both
  | getBuf =>
    obtain ⟨⟨next', result⟩, returned, isPair⟩ := Option.map_eq_some_iff.mp taken
    cases isPair
    obtain ⟨next'', result', returned', kept, -, cases'⟩ := virtqueueGetBuf_cases invariant
    obtain ⟨rfl, rfl⟩ := Prod.mk.inj (Option.some.inj (returned.symm.trans returned'))
    refine ⟨kept, ?_⟩
    rcases cases' with ⟨rfl, -, -, -, sameState⟩ | ⟨token, rfl, -, -, stored, idle, others⟩
    · rw [Option.toList_none, List.map_nil, List.append_nil]
      exact ⟨fun head token => sameState ▸ recorded.outstanding head token, recorded.once⟩
    · exact recorded.got stored idle others
  | publish used =>
    cases taken
    rw [List.append_nil]
    exact ⟨invariant.frame rfl rfl rfl rfl rfl, ⟨recorded.outstanding, recorded.once⟩⟩

/--
In every run of a queue whose indices fit in a link: the free list has as many
different descriptors as it should, none of them in a chain in flight, and the
two sides of the division make up the table. Every token is taken back at most
once, for a used entry with the id of its head. Asking for a used buffer always
returns, a used entry that names no buffer in flight leaves the free list as it
is, and so does a buffer for which there is no space.
-/
theorem run_divided {missing : Missing Token} {vring : Vring} (narrow : vring.num ≤ 2 ^ 16)
    {callback indirect : Bool} {actions : List (Action Token)} {vq : VringVirtqueue Token}
    {events : List (Event Token)}
    (ran : run (step missing) (vringNewVirtqueue vring callback indirect) actions =
      some (vq, events)) :
    (freeList vq).Nodup ∧ (∀ i ∈ freeList vq, i < vq.vring.num) ∧
      (∀ head ∈ heads vq, ∀ i ∈ freeList vq, i ∉ chain vq.vring head) ∧
      vq.numFree + ((heads vq).map fun head => (chain vq.vring head).length).sum = vq.vring.num ∧
      TakenBackOnce events ∧
      (∃ next result, virtqueueGetBuf missing vq = some (next, result) ∧
        (∀ token, result = some token →
          moreUsed vq = true ∧ (vq.descState (usedId vq)).data = some token) ∧
        (usedId vq ∉ heads vq → result = none ∧ next.vring.desc = vq.vring.desc ∧
          next.freeHead = vq.freeHead ∧ next.numFree = vq.numFree)) ∧
      ∀ outSgs inSgs token tableAddr next events,
        virtqueueAdd missing vq outSgs inSgs token tableAddr = some (next, .enospc, events) →
          next = vq := by
  have start : Recorded (vringNewVirtqueue vring callback indirect : VringVirtqueue Token) [] := by
    refine ⟨fun head token stored => ?_, preceded_nil⟩
    cases stored
  obtain ⟨invariant, recorded⟩ := run_invariant (step missing)
    (fun vq past => Invariant vq ∧ Recorded vq past)
    (fun vq past action next events holds taken => step_keeps holds.1 holds.2 taken) []
    ⟨vringNewVirtqueue_invariant vring callback indirect narrow, start⟩ ran
  refine ⟨(List.nodup_append.mp invariant.nodup).1, fun i free => invariant.freeList_lt free,
    fun head member i free => invariant.not_mem_chain free member, ?_, recorded.once, ?_, ?_⟩
  · have length := invariant.divided.length_eq
    rwa [List.length_append, List.length_flatMap, freeList, List.length_iterate,
      List.length_range] at length
  · obtain ⟨next, result, returned, -, -, outcome⟩ := virtqueueGetBuf_cases invariant
    refine ⟨next, result, returned, fun token isToken => ?_, fun notHead => ?_⟩
    · rcases outcome with ⟨rfl, -⟩ | ⟨token', rfl, -, more, stored, -⟩
      · cases isToken
      · exact ⟨more, isToken ▸ stored⟩
    · rcases outcome with ⟨rfl, sameRing, sameHead, sameFree, -⟩ | ⟨token', -, member, -⟩
      · exact ⟨rfl, congrArg Vring.desc sameRing, sameHead, sameFree⟩
      · exact absurd member notHead
  · intro outSgs inSgs token tableAddr next events added
    rcases virtqueueAdd_cases added invariant with ⟨same, -⟩ | ⟨isSuccess, -⟩
    · exact same
    · cases isSuccess

/-! ### Two queues -/

/-- Ring memory as the driver allocates it. -/
def zeroedRing (num : Nat) : Vring where
  num := num
  desc := fun _ => { addr := 0, len := 0, flags := 0, next := 0 }
  avail := { flags := 0, idx := 0, ring := fun _ => 0 }
  used := { flags := 0, idx := 0, ring := fun _ => { id := 0, len := 0 } }

/-- The count of added buffers starts again, and a bad entry breaks the queue. -/
def usualCalls : Missing Nat where
  kick vq := (0, vq.broken)
  badRing _ := true

/-- A buffer of two entries goes in and out of a queue with four descriptors. -/
def roundTrip : List (Action Nat) :=
  [.add [[{ addr := 4096, length := 12 }]] [[{ addr := 8192, length := 64 }]] 7 none,
    .publish { flags := 0, idx := 1, ring := fun _ => { id := 0, len := 76 } }, .getBuf]

theorem run_divided_roundTrip :
    ∃ vq events, run (step usualCalls) (vringNewVirtqueue (zeroedRing 4) true false) roundTrip =
        some (vq, events) ∧ (freeList vq).Nodup ∧ TakenBackOnce events := by
  obtain ⟨vq, events, ran⟩ : ∃ vq events, run (step usualCalls)
      (vringNewVirtqueue (zeroedRing 4) true false) roundTrip = some (vq, events) := ⟨_, _, rfl⟩
  obtain ⟨nodup, -, -, -, once, -⟩ := run_divided (by decide) ran
  exact ⟨vq, events, ran, nodup, once⟩

/-- The links of a table with more than `2 ^ 16` descriptors lead back to its start. -/
theorem vringNewVirtqueue_wide :
    ¬(freeList
      (vringNewVirtqueue (zeroedRing (2 ^ 17)) true false : VringVirtqueue Nat)).Nodup := by
  intro nodup
  have linksFit : ∀ i ∈ freeList
      (vringNewVirtqueue (zeroedRing (2 ^ 17)) true false : VringVirtqueue Nat),
      i ∈ List.range (2 ^ 16) := by
    intro i free
    obtain ⟨count, -, rfl⟩ := List.mem_iterate.mp free
    rw [List.mem_range]
    cases count with
    | zero => exact Nat.two_pow_pos 16
    | succ count =>
      rw [iterate_succ_apply']
      exact nextOf_lt _ _
  have short := (List.subperm_of_subset nodup linksFit).length_le
  rw [freeList, List.length_iterate, List.length_range] at short
  exact absurd short (by decide)

end StudyNotes.Virtqueue
