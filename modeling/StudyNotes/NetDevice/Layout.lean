/-
This file proves where the virtqueues of the device are: the two queues of a
pair lie next to each other, the pairs follow in order, and the control queue is
behind the last one.

Slots are taken by looking for the first unused one. So the whole table of slots
is kept as a function of which pairs there are, and the functions that add and
delete queues are equations between such tables.
-/

import StudyNotes.Library.Counted
import StudyNotes.NetDevice.Frames

namespace StudyNotes.NetDevice

open Library Function
open VirtioNet (virtqueueMaxSize)

/-! ### Tables of slots -/

/-- A slot without a queue. -/
def unused : VirtQueue where
  num := 0
  handleOutput := none

/-- The slot of the control queue. -/
def ctrlSlot : VirtQueue where
  num := 64
  handleOutput := some .handleCtrl

/-- The handler of a transmit queue. -/
def NetConf.txHandler (conf : NetConf) : Handler :=
  if conf.usesTimer then .handleTxTimer else .handleTxBh

/-- The slots while the given queue pairs are there, without the control queue. -/
def pairSlots (conf : NetConf) (present : Nat → Bool) (slot : Nat) : VirtQueue :=
  if present (slot / 2) then
    if slot % 2 = 0 then { num := conf.rxQueueSize, handleOutput := some .handleRx }
    else { num := conf.txQueueSize, handleOutput := some conf.txHandler }
  else unused

/-- The pairs below a number. -/
def below (q : Nat) (i : Nat) : Bool := i < q

/-- The pairs below `q` while those from `first` up to `i` have gone. -/
def without (first i q : Nat) (j : Nat) : Bool := j < first || (i ≤ j && j < q)

/-- The slots of a device with `q` queue pairs. -/
def deviceSlots (conf : NetConf) (q : Nat) : Nat → VirtQueue :=
  update (pairSlots conf (below q)) (2 * q) ctrlSlot

/-- The queues have sizes that a slot can have. -/
structure Sized (conf : NetConf) : Prop where
  rxUsed : conf.rxQueueSize ≠ 0
  rxFits : conf.rxQueueSize ≤ virtqueueMaxSize
  txUsed : conf.txQueueSize ≠ 0
  txFits : conf.txQueueSize ≤ virtqueueMaxSize

variable {conf : NetConf} {n start m : VirtIONet} {q newMaxQueues : Nat} {backend : Backend}

theorem pairSlots_num (sized : Sized conf) (present : Nat → Bool) (slot : Nat) :
    (pairSlots conf present slot).num = 0 ↔ present (slot / 2) = false := by
  rw [pairSlots]
  split
  · next isPresent =>
    split
    · simp [isPresent, sized.rxUsed]
    · simp [isPresent, sized.txUsed]
  · next isAbsent => simp [isAbsent, unused]

theorem pairSlots_below_num (sized : Sized conf) (q slot : Nat) :
    (pairSlots conf (below q) slot).num = 0 ↔ 2 * q ≤ slot := by
  rw [pairSlots_num sized, below, decide_eq_false_iff_not]
  omega

theorem deviceSlots_num (sized : Sized conf) (q slot : Nat) :
    (deviceSlots conf q slot).num = 0 ↔ 2 * q < slot := by
  rw [deviceSlots]
  by_cases isCtrl : slot = 2 * q
  · simp [isCtrl, ctrlSlot]
  · rw [update_of_ne isCtrl, pairSlots_below_num sized]
    omega

/-- Filling both slots of a pair, or taking them away. -/
theorem update_pairSlots (conf : NetConf) (present : Nat → Bool) (i : Nat) (isThere : Bool)
    (rx tx : VirtQueue) (isRx : pairSlots conf (fun _ => isThere) 0 = rx)
    (isTx : pairSlots conf (fun _ => isThere) 1 = tx) :
    update (update (pairSlots conf present) (2 * i) rx) (2 * i + 1) tx =
      pairSlots conf (update present i isThere) := by
  funext slot
  by_cases isPair : slot / 2 = i
  · have either : slot = 2 * i ∨ slot = 2 * i + 1 := by omega
    rcases either with rfl | rfl
    · simp [pairSlots, ← isRx]
    · have odd : (2 * i + 1) % 2 = 1 := by omega
      simp [pairSlots, ← isTx, isPair, odd]
  · have notRx : slot ≠ 2 * i := by omega
    have notTx : slot ≠ 2 * i + 1 := by omega
    rw [update_of_ne notTx, update_of_ne notRx, pairSlots, pairSlots, update_of_ne isPair]

theorem update_below (q : Nat) : update (below q) q true = below (q + 1) := by
  funext j
  by_cases same : j = q
  · simp [same, below]
  · rw [update_of_ne same, below, below, decide_eq_decide]
    omega

theorem update_without (first i q : Nat) (atLeast : first ≤ i) :
    update (without first i q) i false = without first (i + 1) q := by
  funext j
  by_cases same : j = i
  · subst same
    simp [without]
    omega
  · rw [update_of_ne same, without, without]
    have next : i ≤ j ↔ i + 1 ≤ j := by omega
    simp only [next]

/-! ### Adding a queue -/

theorem firstUnused_eq {slot : Nat} (before : ∀ j < slot, (n.vq j).num ≠ 0)
    (free : (n.vq slot).num = 0) (inside : slot < virtioQueueMax) : firstUnused n = some slot := by
  rw [firstUnused, List.find?_range_eq_some]
  refine ⟨by simpa using free, List.mem_range.mpr inside, fun j less => ?_⟩
  simpa using before j less

theorem virtioAddQueue_eq {slot size : Nat} (handler : Handler) (first : firstUnused n = some slot)
    (fits : size ≤ virtqueueMaxSize) :
    virtioAddQueue n size handler = some ({ n with
      vq := update n.vq slot { num := size, handleOutput := some handler } }, slot) := by
  unfold virtioAddQueue
  rw [first]
  exact if_neg (Nat.not_lt.mpr fits)

/-- The queue pair that `virtio_net_add_queue` leaves. -/
def newPair (n : VirtIONet) (i : Nat) : VirtIONetQueue :=
  let wired := { n.vqs i with rxVq := some (2 * i), txVq := some (2 * i + 1), txWaiting := 0 }
  if n.conf.usesTimer then { wired with txTimer := some n.work.next }
  else { wired with txBh := some n.work.next }

/-- The device with one more queue pair behind those it has. -/
def withPair (n : VirtIONet) (i : Nat) : VirtIONet :=
  { n with
    vq := pairSlots n.conf (below (i + 1))
    vqs := update n.vqs i (newPair n i)
    work := n.work.alloc { timer := n.conf.usesTimer, queue := i, pending := false } }

@[simp] theorem withPair_vqs (n : VirtIONet) (i : Nat) :
    (withPair n i).vqs = update n.vqs i (newPair n i) := rfl

theorem addQueue_eq (sized : Sized n.conf) (slots : n.vq = pairSlots n.conf (below q))
    (room : 2 * q + 1 < virtioQueueMax) : addQueue n q = some (withPair n q) := by
  have usedBefore : ∀ j < 2 * q, (n.vq j).num ≠ 0 := by
    intro j less
    rw [slots, Ne, pairSlots_below_num sized]
    omega
  have free : ∀ j, 2 * q ≤ j → (n.vq j).num = 0 := by
    intro j atLeast
    rw [slots, pairSlots_below_num sized]
    exact atLeast
  have rxFirst := virtioAddQueue_eq .handleRx
    (firstUnused_eq usedBefore (free _ (Nat.le_refl _)) (by omega)) sized.rxFits
  -- The receive queue took the even slot, so the transmit queue gets the one behind it.
  have txFirst : firstUnused { n with
      vq := update n.vq (2 * q)
        { num := n.conf.rxQueueSize, handleOutput := some .handleRx } } = some (2 * q + 1) := by
    refine firstUnused_eq (fun j less => ?_) ?_ room
    · by_cases isRx : j = 2 * q
      · simp [isRx, sized.rxUsed]
      · simpa [update_of_ne isRx] using usedBefore j (by omega)
    · simpa using free (2 * q + 1) (by omega)
  have filled := update_pairSlots n.conf (below q) q true ⟨_, some .handleRx⟩
    ⟨_, some n.conf.txHandler⟩ rfl rfl
  rw [update_below] at filled
  unfold addQueue
  rw [rxFirst, Option.bind_some]
  dsimp only
  cases usesTimer : n.conf.usesTimer with
  | true =>
    rw [NetConf.txHandler, usesTimer, if_pos rfl, ← slots] at filled
    rw [if_pos rfl, virtioAddQueue_eq _ txFirst sized.txFits, Option.map_some]
    simp only [setQueue, withPair, newPair, usesTimer, if_true, filled]
  | false =>
    rw [NetConf.txHandler, usesTimer, if_neg Bool.false_ne_true, ← slots] at filled
    rw [if_neg Bool.false_ne_true, virtioAddQueue_eq _ txFirst sized.txFits, Option.map_some]
    simp only [setQueue, withPair, newPair, usesTimer, Bool.false_eq_true, if_false, filled]

/-! ### More and fewer queue pairs -/

/-- The queue pairs are there and in order, and there is no control queue. -/
structure Paired (n : VirtIONet) (q : Nat) : Prop where
  slots : n.vq = pairSlots n.conf (below q)
  pairs : ∀ i < q, (n.vqs i).rxVq = some (2 * i) ∧ (n.vqs i).txVq = some (2 * i + 1)

theorem Paired.withPair (paired : Paired n q) : Paired (withPair n q) (q + 1) where
  slots := rfl
  pairs i less := by
    by_cases isNew : i = q
    · rw [withPair_vqs, isNew, update_self]
      simp only [newPair]
      split <;> exact ⟨rfl, rfl⟩
    · rw [withPair_vqs, update_of_ne isNew]
      exact paired.pairs i (by omega)

/-- The loop that adds queue pairs never fails. -/
theorem foldlM_addQueue_eq (count : Nat) (sized : Sized n.conf) (paired : Paired n q)
    (room : 2 * (q + count) < virtioQueueMax) :
    (List.range' q count).foldlM addQueue n = some ((List.range' q count).foldl withPair n) := by
  induction count generalizing n q with
  | zero => rfl
  | succ count inductionHypothesis =>
    rw [List.range'_succ, List.foldlM_cons, List.foldl_cons,
      addQueue_eq sized paired.slots (by omega)]
    exact inductionHypothesis sized paired.withPair (by omega)

theorem Paired.foldl_withPair (paired : Paired n q) (count : Nat) :
    Paired ((List.range' q count).foldl NetDevice.withPair n) (q + count) :=
  foldl_range'_invariant (fun i m => Paired m i) paired fun _ _ _ _ paired => paired.withPair

theorem foldl_withPair_conf (indices : List Nat) (n : VirtIONet) :
    (indices.foldl withPair n).conf = n.conf :=
  List.foldlRecOn (motive := fun m : VirtIONet => m.conf = n.conf) _ _ rfl fun _ same _ _ => same

theorem delQueue_vq (n : VirtIONet) (i : Nat) :
    (delQueue n i).vq =
      update (update n.vq (i * 2) unused) (i * 2 + 1) unused := by
  unfold delQueue delDeferred
  split <;> rfl

@[simp] theorem delQueue_vqs (n : VirtIONet) (i : Nat) : (delQueue n i).vqs = n.vqs := by
  unfold delQueue delDeferred
  split <;> rfl

@[simp] theorem delQueue_conf (n : VirtIONet) (i : Nat) : (delQueue n i).conf = n.conf := by
  unfold delQueue delDeferred
  split <;> rfl

theorem without_self {first : Nat} (less : first ≤ q) : without first first q = below q := by
  funext j
  by_cases before : j < first
  · have inside : j < q := by omega
    simp [without, below, before, inside]
  · have behind : first ≤ j := by omega
    simp [without, below, before, behind]

theorem without_all (first q : Nat) : without first q q = below first := by
  funext j
  simp [without, below]

/-- The loop that deletes queue pairs makes holes on its way but leaves none. -/
theorem Paired.foldl_delQueue {first : Nat} {fewer : VirtIONet} (paired : Paired n q)
    (less : first ≤ q) (isFewer : (List.range' first (q - first)).foldl delQueue n = fewer) :
    Paired fewer first ∧ fewer.conf = n.conf := by
  obtain ⟨conf, vqs, slots⟩ : fewer.conf = n.conf ∧ fewer.vqs = n.vqs ∧
      fewer.vq = pairSlots n.conf (without first (first + (q - first)) q) := by
    rw [← isFewer]
    refine foldl_range'_invariant (fun i (m : VirtIONet) => m.conf = n.conf ∧ m.vqs = n.vqs ∧
      m.vq = pairSlots n.conf (without first i q)) ⟨rfl, rfl, ?_⟩ ?_
    · rw [without_self less, paired.slots]
    · rintro i m atLeast - ⟨conf, vqs, slots⟩
      refine ⟨(delQueue_conf m i).trans conf, (delQueue_vqs m i).trans vqs, ?_⟩
      rw [delQueue_vq, slots, Nat.mul_comm, update_pairSlots _ _ _ false unused unused rfl rfl,
        update_without _ _ _ atLeast]
  rw [Nat.add_sub_cancel' less, without_all] at slots
  refine ⟨⟨by rw [slots, conf], fun i inside => ?_⟩, conf⟩
  rw [vqs]
  exact paired.pairs i (by omega)

/-! ### The control queue -/

/-- The device with its control queue behind `q` queue pairs. -/
def withCtrl (n : VirtIONet) (q : Nat) : VirtIONet :=
  { n with vq := deviceSlots n.conf q, ctrlVq := some (2 * q) }

/-- The queue pairs are there and in order, and the control queue is behind them. -/
structure Wired (n : VirtIONet) (q : Nat) : Prop where
  slots : n.vq = deviceSlots n.conf q
  pairs : ∀ i < q, (n.vqs i).rxVq = some (2 * i) ∧ (n.vqs i).txVq = some (2 * i + 1)
  ctrl : n.ctrlVq = some (2 * q)

/-- The wiring does not depend on anything but the queues. -/
theorem Wired.congr (wired : Wired n q) (sameConf : m.conf = n.conf) (sameVq : m.vq = n.vq)
    (samePairs : ∀ i, (m.vqs i).rxVq = (n.vqs i).rxVq ∧ (m.vqs i).txVq = (n.vqs i).txVq)
    (sameCtrl : m.ctrlVq = n.ctrlVq) : Wired m q where
  slots := by rw [sameVq, sameConf, wired.slots]
  pairs i less := by
    rw [(samePairs i).1, (samePairs i).2]
    exact wired.pairs i less
  ctrl := sameCtrl.trans wired.ctrl

theorem Paired.withCtrl (paired : Paired n q) : Wired (withCtrl n q) q where
  slots := rfl
  pairs := paired.pairs
  ctrl := rfl

theorem addCtrl_eq (sized : Sized n.conf) (paired : Paired n q) (room : 2 * q < virtioQueueMax) :
    ((virtioAddQueue n 64 .handleCtrl).map fun (n, ctrlVq) => { n with ctrlVq := some ctrlVq }) =
      some (withCtrl n q) := by
  have first : firstUnused n = some (2 * q) := by
    refine firstUnused_eq (fun j less => ?_) ?_ room
    · rw [paired.slots, Ne, pairSlots_below_num sized]
      omega
    · rw [paired.slots, pairSlots_below_num sized]
  rw [virtioAddQueue_eq _ first (by decide), Option.map_some, paired.slots]
  rfl

theorem Wired.delCtrl (wired : Wired n q) : Paired (virtioDelQueue n (2 * q)) q where
  slots := by
    have free : pairSlots n.conf (below q) (2 * q) = unused := by simp [pairSlots, below]
    change update n.vq (2 * q) unused = _
    rw [wired.slots, deviceSlots, update_idem, ← free, update_eq_self]
    rfl
  pairs := wired.pairs

theorem Wired.virtioGetNumQueues_eq (wired : Wired n q) (sized : Sized n.conf)
    (room : 2 * q < virtioQueueMax) : virtioGetNumQueues n = 2 * q + 1 := by
  rw [virtioGetNumQueues]
  refine length_takeWhile_range room (fun slot less => ?_) fun _ => ?_
  · rw [decide_eq_true_iff, wired.slots, Ne, deviceSlots_num sized]
    omega
  · rw [decide_eq_false_iff_not, wired.slots, not_not, deviceSlots_num sized]
    omega

/-! ### Changing the number of queue pairs -/

/-- The device behind `virtio_net_change_num_queues`, if the number changes. -/
def moved (n : VirtIONet) (q newMaxQueues : Nat) : VirtIONet :=
  let fewer := (List.range' newMaxQueues (q - newMaxQueues)).foldl delQueue
    (virtioDelQueue n (2 * q))
  withCtrl ((List.range' q (newMaxQueues - q)).foldl withPair fewer) newMaxQueues

theorem byTwo_eq (first last : Nat) :
    byTwo (2 * first) (2 * last) = (List.range' first (last - first)).map (2 * ·) := by
  have count : (2 * last - 2 * first + 1) / 2 = last - first := by omega
  rw [byTwo, count, range'_two]

section

variable (wired : Wired n q)
include wired

section

variable (sized : Sized n.conf)
include sized

section

variable (room : 2 * newMaxQueues < virtioQueueMax)
include room

/-- Both loops of the change keep the pairs in order. One of them does nothing. -/
theorem Wired.resizes :
    ∃ fewer more, (List.range' newMaxQueues (q - newMaxQueues)).foldl delQueue
        (virtioDelQueue n (2 * q)) = fewer ∧
      (List.range' q (newMaxQueues - q)).foldl withPair fewer = more ∧
      (List.range' q (newMaxQueues - q)).foldlM addQueue fewer = some more ∧
      Sized more.conf ∧ Paired more newMaxQueues := by
  refine ⟨_, _, rfl, rfl, ?_⟩
  rcases Nat.le_total newMaxQueues q with fewer | more
  · obtain ⟨paired, conf⟩ := wired.delCtrl.foldl_delQueue fewer rfl
    rw [Nat.sub_eq_zero_of_le fewer]
    exact ⟨rfl, conf ▸ sized, paired⟩
  · rw [Nat.sub_eq_zero_of_le more]
    have grown := wired.delCtrl.foldl_withPair (newMaxQueues - q)
    rw [Nat.add_sub_cancel' more] at grown
    refine ⟨foldlM_addQueue_eq _ sized wired.delCtrl (by omega), ?_, grown⟩
    exact (foldl_withPair_conf _ (virtioDelQueue n (2 * q))).symm ▸ sized

theorem Wired.moveNumQueues_eq :
    moveNumQueues n (2 * q + 1) (newMaxQueues * 2 + 1) = some (moved n q newMaxQueues) := by
  obtain ⟨fewer, more, isFewer, isMore, added, sized, paired⟩ := wired.resizes sized room
  have isHalf : ∀ i : Nat, 2 * i / 2 = i := fun i => by omega
  rw [moveNumQueues, moved, Nat.mul_comm newMaxQueues 2]
  simp only [Nat.add_sub_cancel, byTwo_eq, List.foldl_map, List.foldlM_map, isHalf]
  rw [isFewer, isMore, added, Option.bind_some]
  exact addCtrl_eq sized paired room

theorem Wired.moved : Wired (moved n q newMaxQueues) newMaxQueues := by
  obtain ⟨fewer, more, isFewer, isMore, -, -, paired⟩ := wired.resizes sized room
  rw [NetDevice.moved, isFewer, isMore]
  exact paired.withCtrl

end

/-- The device with `newMaxQueues` queue pairs. -/
def resized (n : VirtIONet) (q newMaxQueues : Nat) : VirtIONet :=
  if q = newMaxQueues then n else moved n q newMaxQueues

/-- The assertions hold as soon as there is one queue pair. -/
theorem Wired.changeNumQueues_eq (notNone : 1 ≤ q) (room : 2 * q < virtioQueueMax)
    (newRoom : 2 * newMaxQueues < virtioQueueMax) :
    changeNumQueues n newMaxQueues = some (resized n q newMaxQueues) ∧
      Wired (resized n q newMaxQueues) newMaxQueues := by
  have asserted : ¬(2 * q + 1 < 3 ∨ (2 * q + 1) % 2 ≠ 1) := by omega
  have same : 2 * q + 1 = newMaxQueues * 2 + 1 ↔ q = newMaxQueues := by omega
  rw [changeNumQueues, wired.virtioGetNumQueues_eq sized room, resized]
  simp only [if_neg asserted, same]
  by_cases stays : q = newMaxQueues
  · rw [if_pos stays, if_pos stays]
    exact ⟨rfl, stays ▸ wired⟩
  · rw [if_neg stays, if_neg stays]
    exact ⟨wired.moveNumQueues_eq sized newRoom, wired.moved sized newRoom⟩

end

end

/-! ### Negotiating features -/

/-- The queue pairs that a device has once features were negotiated. -/
def pairsFor (maxQueues : Nat) (features : BitVec 64) : Nat :=
  if hasFeature features fMq then maxQueues else 1

/-- The device behind `virtio_net_set_features`. -/
def negotiated (n : VirtIONet) (q : Nat) (features : BitVec 64) : VirtIONet :=
  adoptFeatures (resized { n with multiqueue := hasFeature features fMq } q
    (pairsFor n.maxQueues features)) features

/-- Everything else about the features leaves the queues alone. -/
theorem adoptFeatures_queues (n : VirtIONet) (features : BitVec 64) :
    ∃ mergeableRxBufs guestHdrLen hostHdrLen currGuestOffloads modes,
      adoptFeatures n features = { n with
        mergeableRxBufs := mergeableRxBufs
        guestHdrLen := guestHdrLen
        hostHdrLen := hostHdrLen
        currGuestOffloads := currGuestOffloads
        modes := modes
        guestFeatures := features } :=
  ⟨_, _, _, _, _, rfl⟩

theorem Wired.adoptFeatures (wired : Wired n q) (features : BitVec 64) :
    Wired (adoptFeatures n features) q := by
  obtain ⟨_, _, _, _, _, isAdopted⟩ := adoptFeatures_queues n features
  rw [isAdopted]
  exact wired.congr rfl rfl (fun _ => ⟨rfl, rfl⟩) rfl

/-- A device that has been created, with `q` queue pairs. -/
structure Ready (n : VirtIONet) (q : Nat) : Prop where
  sized : Sized n.conf
  wired : Wired n q
  room : 2 * q < virtioQueueMax
  maxRoom : 2 * n.maxQueues < virtioQueueMax

section

variable (ready : Ready n q)
include ready

theorem Ready.pairsFor_room (features : BitVec 64) :
    2 * pairsFor n.maxQueues features < virtioQueueMax := by
  rw [pairsFor]
  split
  · exact ready.maxRoom
  · decide

theorem Ready.congr (sameConf : m.conf = n.conf) (sameVq : m.vq = n.vq)
    (samePairs : ∀ i, (m.vqs i).rxVq = (n.vqs i).rxVq ∧ (m.vqs i).txVq = (n.vqs i).txVq)
    (sameCtrl : m.ctrlVq = n.ctrlVq) (sameMax : m.maxQueues = n.maxQueues) : Ready m q where
  sized := sameConf.symm ▸ ready.sized
  wired := ready.wired.congr sameConf sameVq samePairs sameCtrl
  room := ready.room
  maxRoom := sameMax.symm ▸ ready.maxRoom

theorem Ready.setMultiqueue (multiqueue : Bool) : Ready { n with multiqueue := multiqueue } q :=
  ready.congr rfl rfl (fun _ => ⟨rfl, rfl⟩) rfl rfl

section

variable (notNone : 1 ≤ q) (features : BitVec 64)
include notNone

theorem Ready.setMultiqueue_eq :
    let set := resized { n with multiqueue := hasFeature features fMq } q
      (pairsFor n.maxQueues features)
    NetDevice.setMultiqueue n (hasFeature features fMq) = some set ∧
      Wired set (pairsFor n.maxQueues features) := by
  have before := ready.setMultiqueue (hasFeature features fMq)
  exact before.wired.changeNumQueues_eq before.sized notNone before.room
    (ready.pairsFor_room features)

theorem Ready.setFeatures_eq : setFeatures n features = some (negotiated n q features) := by
  rw [setFeatures, (ready.setMultiqueue_eq notNone features).1, Option.map_some, negotiated]

theorem Ready.negotiated_keeps :
    (negotiated n q features).conf = n.conf ∧
      (negotiated n q features).maxQueues = n.maxQueues ∧
      (negotiated n q features).multiqueue = hasFeature features fMq := by
  obtain ⟨_, _, _, _, isResized⟩ :=
    changeNumQueues_rewires (ready.setMultiqueue_eq notNone features).1
  obtain ⟨_, _, _, _, _, isAdopted⟩ := adoptFeatures_queues
    (resized { n with multiqueue := hasFeature features fMq } q (pairsFor n.maxQueues features))
    features
  rw [negotiated, isAdopted, isResized]
  exact ⟨rfl, rfl, rfl⟩

theorem Ready.negotiated : Ready (negotiated n q features) (pairsFor n.maxQueues features) := by
  obtain ⟨conf, maxQueues, -⟩ := ready.negotiated_keeps notNone features
  refine ⟨conf ▸ ready.sized, ?_, ready.pairsFor_room features, maxQueues ▸ ready.maxRoom⟩
  exact (ready.setMultiqueue_eq notNone features).2.adoptFeatures features

end

end

/-! ### The device when it is created -/

/-- The device right before its queues are added. -/
def blank (conf : NetConf) (backend : Backend) : VirtIONet :=
  { zeroed conf backend with maxQueues := max conf.queues 1 % 2 ^ 16, currQueues := 1 }

/-- The device right behind its queues. -/
def populated (conf : NetConf) (backend : Backend) : VirtIONet :=
  let n := blank conf backend
  withCtrl ((List.range' 0 n.maxQueues).foldl withPair n) n.maxQueues

theorem blank_paired (conf : NetConf) (backend : Backend) : Paired (blank conf backend) 0 where
  slots := by
    funext slot
    simp [pairSlots, below, blank, zeroed, unused]
  pairs i less := absurd less (Nat.not_lt_zero i)

theorem addQueues_blank (backend : Backend) (sized : Sized conf)
    (room : 2 * (blank conf backend).maxQueues < virtioQueueMax) :
    addQueues (blank conf backend) = some (populated conf backend) := by
  have paired := blank_paired conf backend
  have grown := foldlM_addQueue_eq (blank conf backend).maxQueues sized paired (by omega)
  rw [addQueues, List.range_eq_range', grown, Option.bind_some, populated]
  refine addCtrl_eq ?_ ?_ room
  · rw [foldl_withPair_conf]
    exact sized
  · have morePaired := paired.foldl_withPair (blank conf backend).maxQueues
    rw [Nat.zero_add] at morePaired
    exact morePaired

theorem sized_of_queueSizeOk (rxOk : queueSizeOk conf.rxQueueSize = true)
    (txOk : queueSizeOk conf.txQueueSize = true) : Sized conf := by
  have inRange : ∀ size, queueSizeOk size = true → size ≠ 0 ∧ size ≤ virtqueueMaxSize := by
    intro size ok
    simp only [queueSizeOk, Bool.and_eq_true, decide_eq_true_eq] at ok
    obtain ⟨⟨atLeast, atMost⟩, -⟩ := ok
    exact ⟨fun isZero => absurd (isZero ▸ atLeast) (by decide), atMost⟩
  exact ⟨(inRange _ rxOk).1, (inRange _ rxOk).2, (inRange _ txOk).1, (inRange _ txOk).2⟩

/-- What `virtio_net_device_realize` leaves when it succeeds. -/
theorem realize_eq_ok (realized : realize conf backend = .ok start) :
    Sized conf ∧ 2 * (blank conf backend).maxQueues < virtioQueueMax ∧
      start = finishRealize (populated conf backend) := by
  rw [realize] at realized
  split at realized
  · cases realized
  · next rxOk =>
    split at realized
    · cases realized
    · next txOk =>
      have sized := sized_of_queueSizeOk (by simpa using rxOk) (by simpa using txOk)
      dsimp only at realized
      split at realized
      · cases realized
      · next fits =>
        have room : 2 * (blank conf backend).maxQueues < virtioQueueMax := by
          rw [Nat.mul_comm]
          exact Nat.not_lt.mp fits
        have added := addQueues_blank backend sized room
        rw [blank] at added
        rw [added] at realized
        exact ⟨sized, room, (Except.ok.inj realized).symm⟩

theorem foldl_withPair_rewires (indices : List Nat) (n : VirtIONet) :
    Rewires n (indices.foldl withPair n) :=
  List.foldlRecOn (motive := Rewires n) _ _ (.refl n)
    fun _ rewired _ _ => rewired.trans ⟨_, _, _, _, rfl⟩

theorem populated_rewires (conf : NetConf) (backend : Backend) :
    Rewires (blank conf backend) (populated conf backend) :=
  (foldl_withPair_rewires _ _).trans ⟨_, _, _, _, rfl⟩

theorem populated_keeps (conf : NetConf) (backend : Backend) :
    (populated conf backend).conf = conf ∧
      (populated conf backend).maxQueues = (blank conf backend).maxQueues ∧
      (populated conf backend).multiqueue = false := by
  obtain ⟨_, _, _, _, isPopulated⟩ := populated_rewires conf backend
  rw [isPopulated]
  exact ⟨rfl, rfl, rfl⟩

theorem finishRealize_vqs (n : VirtIONet) : (finishRealize n).vqs = (setTxWaiting n 0 0).vqs := rfl

theorem Wired.finishRealize (wired : Wired n q) : Wired (finishRealize n) q := by
  refine wired.congr rfl rfl (fun i => ?_) rfl
  rw [finishRealize_vqs, setTxWaiting_vqs]
  exact ⟨rfl, rfl⟩

theorem realize_ready (realized : realize conf backend = .ok start) :
    Ready start start.maxQueues ∧ start.multiqueue = false := by
  obtain ⟨sized, room, rfl⟩ := realize_eq_ok realized
  obtain ⟨isConf, isMax, isSingle⟩ := populated_keeps conf backend
  have paired := (blank_paired conf backend).foldl_withPair (blank conf backend).maxQueues
  rw [Nat.zero_add] at paired
  have wired : Wired (finishRealize (populated conf backend)) _ := paired.withCtrl.finishRealize
  rw [← isMax] at room wired
  exact ⟨⟨isConf.symm ▸ sized, wired, room, room⟩, isSingle⟩

/-! ### Every negotiation -/

/-- Where the virtqueues of a device with `q` queue pairs are. -/
structure Layout (n : VirtIONet) (q : Nat) : Prop where
  count : virtioGetNumQueues n = 2 * q + 1
  used : ∀ slot, (n.vq slot).num ≠ 0 ↔ slot < 2 * q + 1
  rx : ∀ i < q, (n.vqs i).rxVq = some (2 * i) ∧
    (n.vq (2 * i)).handleOutput = some .handleRx
  tx : ∀ i < q, (n.vqs i).txVq = some (2 * i + 1) ∧
    (n.vq (2 * i + 1)).handleOutput = some n.conf.txHandler
  ctrl : n.ctrlVq = some (2 * q) ∧ (n.vq (2 * q)).handleOutput = some .handleCtrl

theorem Ready.layout (ready : Ready n q) : Layout n q where
  count := ready.wired.virtioGetNumQueues_eq ready.sized ready.room
  used slot := by
    rw [ready.wired.slots, Ne, deviceSlots_num ready.sized]
    omega
  rx i less := by
    have notCtrl : 2 * i ≠ 2 * q := by omega
    have isPair : below q (2 * i / 2) = true := by
      rw [below, decide_eq_true_iff]
      omega
    refine ⟨(ready.wired.pairs i less).1, ?_⟩
    rw [ready.wired.slots, deviceSlots, update_of_ne notCtrl, pairSlots, if_pos isPair,
      if_pos (Nat.mul_mod_right 2 i)]
  tx i less := by
    have notCtrl : 2 * i + 1 ≠ 2 * q := by omega
    have isPair : below q ((2 * i + 1) / 2) = true := by
      rw [below, decide_eq_true_iff]
      omega
    have isOdd : ¬(2 * i + 1) % 2 = 0 := by omega
    refine ⟨(ready.wired.pairs i less).2, ?_⟩
    rw [ready.wired.slots, deviceSlots, update_of_ne notCtrl, pairSlots, if_pos isPair,
      if_neg isOdd]
  ctrl := by
    refine ⟨ready.wired.ctrl, ?_⟩
    rw [ready.wired.slots, deviceSlots, update_self, ctrlSlot]

/-- The queue pairs that negotiations leave: the last one decides. -/
def pairsBehind (maxQueues : Nat) (negotiations : List (BitVec 64)) : Nat :=
  negotiations.foldl (fun _ features => pairsFor maxQueues features) maxQueues

/-- No negotiation fails, whatever was negotiated before it. -/
theorem Ready.foldlM_setFeatures (ready : Ready n q) (notNone : 1 ≤ q)
    (hasPairs : 1 ≤ n.maxQueues) (negotiations : List (BitVec 64)) :
    ∃ last, negotiations.foldlM setFeatures n = some last ∧
      Ready last (negotiations.foldl (fun _ features => pairsFor n.maxQueues features) q) := by
  induction negotiations generalizing n q with
  | nil => exact ⟨n, rfl, ready⟩
  | cons features rest inductionHypothesis =>
    have isMax := (ready.negotiated_keeps notNone features).2.1
    have stillSome : 1 ≤ pairsFor n.maxQueues features := by
      rw [pairsFor]
      split
      · exact hasPairs
      · exact Nat.le_refl 1
    have behind := inductionHypothesis (ready.negotiated notNone features) stillSome
      (isMax.symm ▸ hasPairs)
    rw [isMax] at behind
    rw [List.foldlM_cons, ready.setFeatures_eq notNone]
    exact behind

/--
Every sequence of negotiations behind `virtio_net_device_realize` goes through
without a failing assertion. Behind it there are the two queues of every pair,
in order, and the control queue.
-/
theorem foldlM_setFeatures_layout {backend : Backend} {start : VirtIONet}
    (realized : realize conf backend = .ok start) (hasPairs : 1 ≤ start.maxQueues)
    (negotiations : List (BitVec 64)) :
    ∃ n, negotiations.foldlM setFeatures start = some n ∧
      Layout n (pairsBehind start.maxQueues negotiations) := by
  obtain ⟨n, negotiated, ready⟩ :=
    (realize_ready realized).1.foldlM_setFeatures hasPairs hasPairs negotiations
  exact ⟨n, negotiated, ready.layout⟩

theorem isRealized_two : isRealized (smallConf 2) plainBackend = true := by decide +kernel

theorem created_two_hasPairs : 1 ≤ (created (smallConf 2) plainBackend).maxQueues := by
  decide +kernel

/-- A device with two queue pairs that loses one and gets it back. -/
theorem foldlM_setFeatures_layout_two :
    ∃ n, [0, addFeature 0 fMq].foldlM setFeatures (created (smallConf 2) plainBackend) = some n ∧
      Layout n 2 := by
  have isTwo : pairsBehind (created (smallConf 2) plainBackend).maxQueues
    [0, addFeature 0 fMq] = 2 := by decide +kernel
  obtain ⟨n, negotiated, layout⟩ := foldlM_setFeatures_layout (realize_created isRealized_two)
    created_two_hasPairs [0, addFeature 0 fMq]
  rw [isTwo] at layout
  exact ⟨n, negotiated, layout⟩

end StudyNotes.NetDevice
