/-
This file proves that the descriptors of a queue are divided between the free
list and the chains of the buffers in flight.

Adding a buffer takes the first descriptors of the free list as they are linked
and only sets their flags, so the links of the rest do not change. Taking a
buffer back walks along the flags to the end of its chain and links that to the
free list. Both move one chain between the two sides of the division.
-/

import StudyNotes.Library.Links
import StudyNotes.Virtqueue.Ring

namespace StudyNotes.Virtqueue

open Library Function

variable {Token : Type} {head links : Nat}

/-! ### Free descriptors and chains -/

/-- The descriptors from `free_head` along `num_free` links. -/
def freeList (vq : VringVirtqueue Token) : List Nat :=
  List.iterate (nextOf vq.vring) vq.freeHead vq.numFree

/-- The heads of the buffers that were added and not taken back. -/
def heads (vq : VringVirtqueue Token) : List Nat :=
  (List.range vq.vring.num).filter fun head => (vq.descState head).data.isSome

/-- The descriptors from a head for as long as the flags say that there is a next one. -/
def walkChain (vring : Vring) : Nat → Nat → List Nat
  | 0, _ => []
  | fuel + 1, i => if hasNext vring i then i :: walkChain vring fuel (nextOf vring i) else [i]

def chain (vring : Vring) (head : Nat) : List Nat := walkChain vring vring.num head

/-- The chain from a head ends after a number of links. -/
structure Chained (vring : Vring) (head links : Nat) : Prop where
  continues : ∀ i ∈ List.iterate (nextOf vring) head links, hasNext vring i = true
  ends : hasNext vring ((nextOf vring)^[links] head) = false

theorem Chained.tail {vring : Vring} (chained : Chained vring head (links + 1)) :
    hasNext vring head = true ∧ Chained vring (nextOf vring head) links where
  left := chained.continues head List.mem_cons_self
  right.continues i member := chained.continues i (List.mem_cons_of_mem head member)
  right.ends := chained.ends

theorem Chained.walkChain {vring : Vring} {fuel : Nat} (chained : Chained vring head links)
    (enough : links < fuel) :
    walkChain vring fuel head = List.iterate (nextOf vring) head (links + 1) := by
  induction fuel generalizing head links with
  | zero => exact absurd enough (Nat.not_lt_zero _)
  | succ fuel inductionHypothesis =>
    cases links with
    | zero =>
      have ends : hasNext vring head = false := chained.ends
      simp [Virtqueue.walkChain, ends, List.iterate]
    | succ links =>
      obtain ⟨goesOn, rest⟩ := chained.tail
      rw [Virtqueue.walkChain, if_pos goesOn, inductionHypothesis rest (by omega)]
      rfl

/-- The loop of `detach_buf` ends at the last descriptor and has counted the links. -/
theorem Chained.loop_detachTurn {vring : Vring} {fuel : Nat} (numFree : Nat)
    (chained : Chained vring head links) (enough : links < fuel) :
    loop (detachTurn vring) fuel (head, numFree) =
      some ((nextOf vring)^[links] head, numFree + links) := by
  induction fuel generalizing head links numFree with
  | zero => exact absurd enough (Nat.not_lt_zero _)
  | succ fuel inductionHypothesis =>
    cases links with
    | zero =>
      have ends : hasNext vring head = false := chained.ends
      exact loop_done (by simp [detachTurn, ends]) fuel
    | succ links =>
      obtain ⟨goesOn, rest⟩ := chained.tail
      have turn : detachTurn vring (head, numFree) =
          some (.again (nextOf vring head, numFree + 1)) := by simp [detachTurn, goesOn]
      rw [loop_again turn, inductionHypothesis (numFree + 1) rest (by omega), iterate_succ_apply]
      congr 2
      omega

/-- A chain does not depend on other descriptors. -/
theorem Chained.congr {vring vring' : Vring} (chained : Chained vring head links)
    (agree : ∀ i ∈ List.iterate (nextOf vring) head (links + 1), vring'.desc i = vring.desc i) :
    Chained vring' head links ∧
      List.iterate (nextOf vring') head (links + 1) =
        List.iterate (nextOf vring) head (links + 1) := by
  have same : ∀ i ∈ List.iterate (nextOf vring) head (links + 1),
      nextOf vring' i = nextOf vring i ∧ hasNext vring' i = hasNext vring i := by
    intro i member
    simp only [nextOf, hasNext, agree i member, and_self]
  have front : ∀ i ∈ List.iterate (nextOf vring) head links,
      i ∈ List.iterate (nextOf vring) head (links + 1) := fun i member => by
    rw [iterate_succ_last]
    exact List.mem_append_left _ member
  obtain ⟨sameList, sameEnd⟩ := iterate_congr fun i member => (same i (front i member)).1
  refine ⟨⟨fun i member => ?_, ?_⟩, (iterate_congr fun i member => (same i member).1).1⟩
  · rw [sameList] at member
    rw [(same i (front i member)).2]
    exact chained.continues i member
  · rw [sameEnd, (same _ (mem_iterate_of_lt _ _ (Nat.lt_succ_self links))).2]
    exact chained.ends

/-! ### The division of the descriptors -/

/-- Every descriptor is in the free list or in the chain of one buffer in flight. -/
structure Invariant (vq : VringVirtqueue Token) : Prop where
  fits : vq.vring.num ≤ 2 ^ 16
  headFits : vq.freeHead < 2 ^ 16
  ended : ∀ head ∈ heads vq, ∃ links < vq.vring.num, Chained vq.vring head links
  divided : (freeList vq ++ (heads vq).flatMap (chain vq.vring)).Perm (List.range vq.vring.num)

theorem nextOf_lt (vring : Vring) (i : Nat) : nextOf vring i < 2 ^ 16 := (vring.desc i).next.isLt

theorem mem_heads {vq : VringVirtqueue Token} :
    head ∈ heads vq ↔ head < vq.vring.num ∧ (vq.descState head).data.isSome := by
  simp [heads]

/-- One more buffer in flight. -/
theorem heads_perm_cons {vq next : VringVirtqueue Token} (sameNum : next.vring.num = vq.vring.num)
    (within : head < vq.vring.num) (idle : head ∉ heads vq)
    (busy : (next.descState head).data.isSome)
    (others : ∀ other ≠ head, (next.descState other).data = (vq.descState other).data) :
    (heads next).Perm (head :: heads vq) := by
  have nodup : (heads vq).Nodup := List.nodup_range.filter _
  refine (List.perm_ext_iff_of_nodup (List.nodup_range.filter _)
    (List.nodup_cons.mpr ⟨idle, nodup⟩)).mpr fun other => ?_
  rw [List.mem_cons]
  change other ∈ heads next ↔ _
  rw [mem_heads, sameNum]
  by_cases same : other = head
  · subst same
    simp [within, busy]
  · simp [same, mem_heads, others other same]

/-- One queue differs from another by a chain made of the first descriptors of the free list. -/
structure Takes (vq next : VringVirtqueue Token) (links : Nat) : Prop where
  sameNum : next.vring.num = vq.vring.num
  sameLinks : ∀ i, nextOf next.vring i = nextOf vq.vring i
  outside : ∀ i ∉ List.iterate (nextOf vq.vring) vq.freeHead (links + 1),
    next.vring.desc i = vq.vring.desc i
  chained : Chained next.vring vq.freeHead links
  freeHead : next.freeHead = (nextOf vq.vring)^[links + 1] vq.freeHead
  numFree : next.numFree + (links + 1) = vq.numFree
  others : ∀ other ≠ vq.freeHead, (next.descState other).data = (vq.descState other).data

namespace Invariant

variable {vq next : VringVirtqueue Token}

section

variable (invariant : Invariant vq)
include invariant

theorem nodup : (freeList vq ++ (heads vq).flatMap (chain vq.vring)).Nodup :=
  invariant.divided.nodup_iff.mpr List.nodup_range

theorem freeList_lt {i : Nat} (free : i ∈ freeList vq) : i < vq.vring.num :=
  List.mem_range.mp (invariant.divided.subset (List.mem_append_left _ free))

/-- The first descriptors of the free list are different ones. -/
theorem taken {count : Nat} (enough : count ≤ vq.numFree) :
    (List.iterate (nextOf vq.vring) vq.freeHead count).Nodup ∧
      ∀ i ∈ List.iterate (nextOf vq.vring) vq.freeHead count, i ∈ freeList vq := by
  have nodup : (freeList vq).Nodup := (List.nodup_append.mp invariant.nodup).1
  rw [freeList, ← Nat.add_sub_cancel' enough, List.iterate_add] at nodup ⊢
  exact ⟨(List.nodup_append.mp nodup).1, fun i member => List.mem_append_left _ member⟩

theorem chain_eq (member : head ∈ heads vq) :
    ∃ links, Chained vq.vring head links ∧ links < vq.vring.num ∧
      chain vq.vring head = List.iterate (nextOf vq.vring) head (links + 1) := by
  obtain ⟨links, within, chained⟩ := invariant.ended head member
  exact ⟨links, chained, within, chained.walkChain within⟩

theorem head_mem_chain (member : head ∈ heads vq) : head ∈ chain vq.vring head := by
  obtain ⟨links, -, -, isChain⟩ := invariant.chain_eq member
  rw [isChain]
  exact List.mem_cons_self

/-- No descriptor is both free and in flight. -/
theorem not_mem_chain {i : Nat} (free : i ∈ freeList vq) (member : head ∈ heads vq) :
    i ∉ chain vq.vring head := fun inside =>
  (List.nodup_append.mp invariant.nodup).2.2 i free i
    (List.mem_flatMap.mpr ⟨head, member, inside⟩) rfl

/-- The first free descriptor is not in flight. -/
theorem freeHead_idle (hasFree : 0 < vq.numFree) :
    vq.freeHead < vq.vring.num ∧ vq.freeHead ∉ heads vq := by
  have free := (invariant.taken hasFree).2 vq.freeHead List.mem_cons_self
  exact ⟨invariant.freeList_lt free, fun member =>
    invariant.not_mem_chain free member (invariant.head_mem_chain member)⟩

/-- A chain in flight keeps its descriptors when only others change. -/
theorem chain_congr (member : head ∈ heads vq) (sameNum : next.vring.num = vq.vring.num)
    (agree : ∀ i ∈ chain vq.vring head, next.vring.desc i = vq.vring.desc i) :
    (∃ links < next.vring.num, Chained next.vring head links) ∧
      chain next.vring head = chain vq.vring head := by
  obtain ⟨links, chained, within, isChain⟩ := invariant.chain_eq member
  rw [isChain] at agree
  obtain ⟨chained', sameList⟩ := chained.congr agree
  have within' : links < next.vring.num := sameNum ▸ within
  refine ⟨⟨links, within', chained'⟩, ?_⟩
  rw [isChain, ← sameList]
  exact chained'.walkChain within'

/-- The division does not depend on the rings, nor on what the driver has read of them. -/
theorem frame (sameNum : next.vring.num = vq.vring.num)
    (sameDesc : next.vring.desc = vq.vring.desc) (sameHead : next.freeHead = vq.freeHead)
    (sameFree : next.numFree = vq.numFree) (sameState : next.descState = vq.descState) :
    Invariant next := by
  have sameHeads : heads next = heads vq := by rw [heads, heads, sameNum, sameState]
  have sameList : freeList next = freeList vq := by
    have sameNext : nextOf next.vring = nextOf vq.vring :=
      funext fun i => by rw [nextOf, nextOf, sameDesc]
    rw [freeList, freeList, sameNext, sameHead, sameFree]
  have kept : ∀ head ∈ heads vq, (∃ links < next.vring.num, Chained next.vring head links) ∧
      chain next.vring head = chain vq.vring head := fun head member =>
    invariant.chain_congr member sameNum fun i _ => congrFun sameDesc i
  refine ⟨sameNum ▸ invariant.fits, sameHead ▸ invariant.headFits, ?_, ?_⟩
  · rw [sameHeads]
    exact fun head member => (kept head member).1
  · rw [sameHeads, sameList, sameNum, List.flatMap_congr fun head member => (kept head member).2]
    exact invariant.divided

/-- Taking the first descriptors of the free list for one chain keeps the division. -/
theorem take (takes : Takes vq next links) (busy : (next.descState vq.freeHead).data.isSome) :
    Invariant next := by
  obtain ⟨sameNum, sameLinks, outside, chained, freeHead, numFree, others⟩ := takes
  have links_eq : nextOf next.vring = nextOf vq.vring := funext sameLinks
  have split : freeList vq =
      List.iterate (nextOf vq.vring) vq.freeHead (links + 1) ++ freeList next := by
    rw [freeList, ← numFree, Nat.add_comm, List.iterate_add, ← freeHead, freeList, links_eq]
  have taken : ∀ i ∈ List.iterate (nextOf vq.vring) vq.freeHead (links + 1), i ∈ freeList vq :=
    fun i member => by rw [split]; exact List.mem_append_left _ member
  obtain ⟨headLt, idle⟩ := invariant.freeHead_idle (by omega)
  have moreHeads := heads_perm_cons sameNum headLt idle busy others
  have kept : ∀ head ∈ heads vq, (∃ links < next.vring.num, Chained next.vring head links) ∧
      chain next.vring head = chain vq.vring head := fun head member =>
    invariant.chain_congr member sameNum fun i inside =>
      outside i fun inTaken => invariant.not_mem_chain (taken i inTaken) member inside
  -- The chain is no longer than the table because the free list has no duplicates.
  have within : links < next.vring.num := by
    have length := invariant.divided.length_eq
    rw [List.length_append, freeList, List.length_iterate, List.length_range] at length
    omega
  refine ⟨sameNum ▸ invariant.fits, ?_, fun head member => ?_, ?_⟩
  · rw [freeHead, iterate_succ_apply']
    exact nextOf_lt _ _
  · rcases List.mem_cons.mp (moreHeads.subset member) with rfl | old
    · exact ⟨links, within, chained⟩
    · exact (kept head old).1
  · have newChain : chain next.vring vq.freeHead =
        List.iterate (nextOf vq.vring) vq.freeHead (links + 1) := by
      rw [chain, chained.walkChain within, links_eq]
    have oldChains : (heads vq).flatMap (chain next.vring) = (heads vq).flatMap (chain vq.vring) :=
      List.flatMap_congr fun head member => (kept head member).2
    have perm := moreHeads.flatMap_right (chain next.vring)
    rw [List.flatMap_cons, newChain, oldChains] at perm
    rw [sameNum]
    refine ((perm.append_left _).trans ?_).trans invariant.divided
    rw [split, List.append_assoc]
    exact List.perm_append_comm_assoc _ _ _

/-- Linking the end of a chain to the free list keeps the division. -/
theorem giveBack (member : head ∈ heads vq) (chained : Chained vq.vring head links)
    (within : links < vq.vring.num) (sameNum : next.vring.num = vq.vring.num)
    (outside : ∀ i ≠ (nextOf vq.vring)^[links] head, next.vring.desc i = vq.vring.desc i)
    (linked : nextOf next.vring ((nextOf vq.vring)^[links] head) = vq.freeHead)
    (freeHead : next.freeHead = head) (numFree : next.numFree = vq.numFree + links + 1)
    (idle : (next.descState head).data = none)
    (others : ∀ other ≠ head, (next.descState other).data = (vq.descState other).data) :
    Invariant next := by
  obtain ⟨headLt, busy⟩ := mem_heads.mp member
  have notHead : head ∉ heads next := fun inside => by
    simpa [idle] using (mem_heads.mp inside).2
  have fewerHeads : (heads vq).Perm (head :: heads next) :=
    heads_perm_cons sameNum.symm (sameNum ▸ headLt) notHead busy
      fun other differs => (others other differs).symm
  have isChain : chain vq.vring head = List.iterate (nextOf vq.vring) head (links + 1) :=
    chained.walkChain within
  have divided := ((fewerHeads.flatMap_right (chain vq.vring)).append_left (freeList vq)).symm.trans
    invariant.divided
  rw [List.flatMap_cons] at divided
  have nodup := divided.nodup_iff.mpr List.nodup_range
  obtain ⟨-, nodupChains, apart⟩ := List.nodup_append.mp nodup
  obtain ⟨nodupChain, -, apartChains⟩ := List.nodup_append.mp nodupChains
  have lastMem : (nextOf vq.vring)^[links] head ∈ chain vq.vring head := by
    rw [isChain]
    exact mem_iterate_of_lt _ _ (Nat.lt_succ_self links)
  have sameNext : ∀ i ≠ (nextOf vq.vring)^[links] head,
      nextOf next.vring i = nextOf vq.vring i := fun i differs => by
    rw [nextOf, outside i differs, nextOf]
  -- Up to its last descriptor the chain is linked as before.
  obtain ⟨sameFront, sameLast⟩ : List.iterate (nextOf next.vring) head links =
      List.iterate (nextOf vq.vring) head links ∧
      (nextOf next.vring)^[links] head = (nextOf vq.vring)^[links] head := by
    rw [isChain, iterate_succ_last] at nodupChain
    refine iterate_congr fun i inFront => sameNext i ?_
    exact (List.nodup_append.mp nodupChain).2.2 i inFront _ List.mem_cons_self
  have sameChain : List.iterate (nextOf next.vring) head (links + 1) = chain vq.vring head := by
    rw [isChain, iterate_succ_last, sameFront, sameLast, ← iterate_succ_last]
  have sameFree : List.iterate (nextOf next.vring) vq.freeHead vq.numFree = freeList vq :=
    (iterate_congr fun i free => sameNext i
      (apart i free _ (List.mem_append_left _ lastMem))).1
  have joined : freeList next = chain vq.vring head ++ freeList vq := by
    rw [freeList, numFree, freeHead, Nat.add_assoc, Nat.add_comm, List.iterate_add, sameChain,
      iterate_succ_apply', sameLast, linked, sameFree]
  have kept : ∀ other ∈ heads next, (∃ links < next.vring.num, Chained next.vring other links) ∧
      chain next.vring other = chain vq.vring other := fun other stays =>
    invariant.chain_congr (fewerHeads.symm.subset (List.mem_cons_of_mem head stays)) sameNum
      fun i inside => outside i fun isLast =>
        apartChains _ lastMem i (List.mem_flatMap.mpr ⟨other, stays, inside⟩) isLast.symm
  refine ⟨sameNum ▸ invariant.fits, ?_, fun other stays => (kept other stays).1, ?_⟩
  · rw [freeHead]
    exact Nat.lt_of_lt_of_le headLt invariant.fits
  · have sameChains : (heads next).flatMap (chain next.vring) =
        (heads next).flatMap (chain vq.vring) :=
      List.flatMap_congr fun other stays => (kept other stays).2
    rw [joined, sameChains, sameNum, List.append_assoc]
    exact (List.perm_append_comm_assoc _ _ _).trans divided

end

end Invariant

end StudyNotes.Virtqueue
