/-
This file proves that the NVMe queue pair keeps its trackers and requests in order
over every run of submissions, completions, retries and callbacks.

The state is described by lists that hold everything once: trackers are free or
outstanding, requests are with a tracker, in the queue or in the pool, and what the
device still has to complete together with what it has posted are the outstanding
trackers. The description has room for one request that is between two places, so it
also holds after a tracker is freed and before the next request takes it.
-/

import Mathlib.Data.List.Nodup
import Mathlib.Data.List.Perm.Basic
import StudyNotes.Nvme.Qpair

namespace StudyNotes.Nvme

open Library Function

/-! ### The books -/

/-- The requests of the outstanding trackers. -/
def heldReqs (qp : Qpair) : List Nat := qp.outstandingTr.filterMap qp.trReq

/-- The outstanding trackers whose callback is not running. -/
def openTr (qp : Qpair) : List Nat :=
  match qp.callback with
  | none => qp.outstandingTr
  | some (tr, _) => qp.outstandingTr.erase tr

/-- The requests with a tracker whose callback has not been called. -/
def openReqs (qp : Qpair) : List Nat := (openTr qp).filterMap qp.trReq

/--
Where everything is. `posted` are the trackers of the completions that were posted and
not consumed, `loose` is a request between two places, and `accepted` and `called` are
the requests that were accepted and called back so far.
-/
structure Books (trackers requests : Nat) (posted accepted called loose : List Nat) (qp : Qpair) :
    Prop where
  trackers : (qp.freeTr ++ qp.outstandingTr).Perm (List.range trackers)
  device : (qp.inDevice ++ posted).Perm qp.outstandingTr
  held : ∀ tr ∈ qp.outstandingTr, ∃ req, qp.trReq tr = some req ∧ qp.reqCid req = tr
  free : ∀ tr ∈ qp.freeTr, qp.trReq tr = none
  active : ∀ tr ∈ qp.outstandingTr, qp.trActive tr = true ↔ ∀ req, qp.callback ≠ some (tr, req)
  callback : ∀ tr req, qp.callback = some (tr, req) →
    tr ∈ qp.outstandingTr ∧ qp.trReq tr = some req
  requests : (heldReqs qp ++ (qp.queuedReq ++ (qp.freeReq ++ loose))).Perm (List.range requests)
  accounted : accepted.Perm (called ++ (openReqs qp ++ (qp.queuedReq ++ loose)))

variable {tr : Nat} {rest : List Cpl} {cpl : Cpl}

section Books

variable {trackers requests tr req : Nat} {posted accepted called loose rest trs : List Nat}
  {qp : Qpair}

section

variable (books : Books trackers requests posted accepted called loose qp)
include books

theorem Books.nodup_trackers : (qp.freeTr ++ qp.outstandingTr).Nodup :=
  books.trackers.nodup_iff.mpr List.nodup_range

theorem Books.nodup_outstanding : qp.outstandingTr.Nodup :=
  (List.nodup_append.mp books.nodup_trackers).2.1

theorem Books.nodup_requests : (heldReqs qp ++ (qp.queuedReq ++ (qp.freeReq ++ loose))).Nodup :=
  books.requests.nodup_iff.mpr List.nodup_range

end

/-- Requests that move between the queue, the pool and a caller leave the trackers alone. -/
theorem Books.regroup {accepted' loose' queued free : List Nat} (retries : Nat → Nat)
    (books : Books trackers requests posted accepted called loose qp)
    (moved : (queued ++ (free ++ loose')).Perm (qp.queuedReq ++ (qp.freeReq ++ loose)))
    (accounted : accepted'.Perm (called ++ (openReqs qp ++ (queued ++ loose')))) :
    Books trackers requests posted accepted' called loose'
      { qp with queuedReq := queued, freeReq := free, reqRetries := retries } :=
  { books with requests := (moved.append_left _).trans books.requests, accounted }

variable {req : Nat}

/-- A request takes a tracker or the last place in the queue. -/
theorem Books.queue (books : Books trackers requests posted accepted called [req] qp) :
    Books trackers requests posted accepted called []
      { qp with queuedReq := qp.queuedReq ++ [req] } := by
  refine books.regroup qp.reqRetries ?_ ?_
  · rw [List.append_nil, List.append_assoc]
    exact List.perm_append_comm.append_left _
  · rw [List.append_nil]
    exact books.accounted

theorem filterMap_update_of_notMem {trs : List Nat} (trReq : Nat → Option Nat) (req : Option Nat)
    (outside : tr ∉ trs) : trs.filterMap (update trReq tr req) = trs.filterMap trReq :=
  List.filterMap_congr fun _ member =>
    update_of_ne (ne_of_mem_of_not_mem member outside) req trReq

theorem filterMap_update_append (trReq : Nat → Option Nat) (req : Nat) (outside : tr ∉ trs) :
    (trs ++ [tr]).filterMap (update trReq tr (some req)) =
      trs.filterMap trReq ++ [req] := by
  rw [List.filterMap_append, filterMap_update_of_notMem _ _ outside]
  simp

theorem filterMap_perm_erase {trReq : Nat → Option Nat} (member : tr ∈ trs)
    (has : trReq tr = some req) :
    (trs.filterMap trReq).Perm (req :: (trs.erase tr).filterMap trReq) := by
  rw [← List.filterMap_cons_some has]
  exact (List.perm_cons_erase member).filterMap trReq

theorem Books.take (books : Books trackers requests posted accepted called [req] qp)
    (isFree : qp.freeTr = tr :: rest) :
    Books trackers requests posted accepted called []
      (submitTracker (takeTracker qp tr req rest) tr req) := by
  have nodup := books.nodup_trackers
  rw [isFree, List.cons_append, List.nodup_cons, List.mem_append, not_or] at nodup
  obtain ⟨⟨notInRest, notOutstanding⟩, _⟩ := nodup
  -- the request is new, so no tracker has it
  have notHeld : req ∉ heldReqs qp := fun member =>
    (List.nodup_append.mp books.nodup_requests).2.2 req member req (by simp) rfl
  have differs : ∀ other ∈ qp.outstandingTr, other ≠ tr :=
    fun other member same => notOutstanding (same ▸ member)
  have isCid : update qp.reqCid req tr req = tr := update_self req tr qp.reqCid
  have isHeld : heldReqs (submitTracker (takeTracker qp tr req rest) tr req) =
      heldReqs qp ++ [req] := filterMap_update_append qp.trReq req notOutstanding
  have notRunning : ∀ other, qp.callback ≠ some (tr, other) :=
    fun other running => notOutstanding (books.callback tr other running).1
  have isOpen : openReqs (submitTracker (takeTracker qp tr req rest) tr req) =
      openReqs qp ++ [req] := by
    simp only [openReqs, openTr, submitTracker, takeTracker]
    split
    · exact filterMap_update_append _ _ notOutstanding
    · next running other isRunning =>
      rw [List.erase_append_left _ (books.callback running other isRunning).1]
      refine filterMap_update_append _ _ fun member => notOutstanding ?_
      exact List.mem_of_mem_erase member
  refine ⟨?_, ?_, ?_, ?_, ?_, ?_, ?_, ?_⟩
  · refine List.Perm.trans ?_ books.trackers
    rw [isFree]
    simp only [submitTracker, takeTracker]
    rw [← List.append_assoc]
    exact List.perm_append_singleton _ _
  · simp only [submitTracker, takeTracker, isCid]
    refine List.Perm.trans ?_ (books.device.append_right [tr])
    rw [List.append_assoc, List.append_assoc]
    exact List.perm_append_comm.append_left _
  · intro other member
    simp only [submitTracker, takeTracker] at member ⊢
    rcases List.mem_append.mp member with before | isTr
    · obtain ⟨otherReq, has, isCidOf⟩ := books.held other before
      have isOther : otherReq ≠ req := by
        rintro rfl
        exact notHeld (List.mem_filterMap.mpr ⟨other, before, has⟩)
      refine ⟨otherReq, ?_, ?_⟩
      · rw [update_of_ne (differs other before)]
        exact has
      · rw [update_of_ne isOther]
        exact isCidOf
    · obtain rfl : other = tr := List.mem_singleton.mp isTr
      exact ⟨req, update_self .., isCid⟩
  · intro other member
    simp only [submitTracker, takeTracker] at member ⊢
    rw [update_of_ne (ne_of_mem_of_not_mem member notInRest)]
    exact books.free other (by rw [isFree]; exact List.mem_cons_of_mem _ member)
  · intro other member
    simp only [submitTracker, takeTracker] at member ⊢
    rcases List.mem_append.mp member with before | isTr
    · rw [update_of_ne (differs other before)]
      exact books.active other before
    · obtain rfl : other = tr := List.mem_singleton.mp isTr
      rw [update_self]
      exact iff_of_true rfl notRunning
  · intro other otherReq running
    obtain ⟨member, has⟩ := books.callback other otherReq running
    simp only [submitTracker, takeTracker]
    refine ⟨List.mem_append_left _ member, ?_⟩
    rw [update_of_ne (differs other member)]
    exact has
  · rw [isHeld]
    refine List.Perm.trans ?_ books.requests
    simp only [submitTracker, takeTracker, List.append_nil, List.append_assoc]
    refine List.Perm.append_left _ ?_
    rw [← List.append_assoc qp.queuedReq]
    exact List.perm_append_comm
  · rw [isOpen]
    refine books.accounted.trans (List.Perm.append_left _ ?_)
    simp only [submitTracker, takeTracker, List.append_nil, List.append_assoc]
    exact List.perm_append_comm.append_left _

/-- `nvme_pcie_qpair_submit_request` puts the request into one of the two places. -/
theorem Books.submitRequest (books : Books trackers requests posted accepted called [req] qp) :
    Books trackers requests posted accepted called [] (submitRequest qp req).1 := by
  rw [Nvme.submitRequest]
  split
  · exact books.queue
  · next tr rest isFree => exact books.take isFree

section

variable (books : Books trackers requests posted accepted called [] qp)
include books

theorem Books.allocate (isPool : qp.freeReq = req :: rest) :
    Books trackers requests posted (accepted ++ [req]) called [req]
      (allocateRequest qp req rest) := by
  refine books.regroup _ (List.Perm.append_left _ ?_) ?_
  · rw [isPool, List.append_nil]
    exact List.perm_append_singleton _ _
  · have before := books.accounted.append_right [req]
    rw [List.append_nil, List.append_assoc, List.append_assoc] at before
    exact before

theorem Books.dequeue (isQueue : qp.queuedReq = req :: rest) :
    Books trackers requests posted accepted called [req] { qp with queuedReq := rest } := by
  refine books.regroup qp.reqRetries ?_ ?_
  · rw [isQueue, List.append_nil, ← List.append_assoc]
    exact List.perm_append_singleton _ _
  · refine books.accounted.trans (List.Perm.append_left _ (List.Perm.append_left _ ?_))
    rw [isQueue, List.append_nil]
    exact (List.perm_append_singleton _ _).symm

theorem Books.post (cq : CompletionQueue Cpl) (has : tr ∈ qp.inDevice) :
    Books trackers requests (posted ++ [tr]) accepted called []
      { qp with cq := cq, inDevice := qp.inDevice.erase tr } := by
  refine { books with device := ?_ }
  refine List.Perm.trans ?_ books.device
  rw [← List.append_assoc]
  refine (List.perm_append_singleton _ _).trans ?_
  exact ((List.perm_cons_erase has).append_right posted).symm

end

/-- A command that is tried again is with the device again. -/
theorem Books.retry (retries : Nat → Nat)
    (books : Books trackers requests (tr :: rest) accepted called [] qp)
    (idle : qp.callback = none) (isCid : qp.reqCid req = tr) :
    Books trackers requests rest accepted called []
      (submitTracker { qp with reqRetries := retries } tr req) := by
  refine { books with device := ?_, active := ?_ }
  · simp only [submitTracker, isCid, List.append_assoc, List.singleton_append]
    exact books.device
  · intro other isOther
    simp only [submitTracker, idle]
    have before := books.active other isOther
    rw [idle] at before
    by_cases same : other = tr
    · rw [same, update_self]
      exact iff_of_true rfl nofun
    · rw [update_of_ne same]
      exact before

/-- The callback of a request starts: it is called now, and its tracker is not active. -/
theorem Books.startCallback (books : Books trackers requests posted accepted called [] qp)
    (idle : qp.callback = none) (has : qp.trReq tr = some req) (member : tr ∈ qp.outstandingTr) :
    Books trackers requests posted accepted (called ++ [req]) []
      { qp with trActive := update qp.trActive tr false, callback := some (tr, req) } := by
  refine { books with active := ?_, callback := ?_, accounted := ?_ }
  · intro other isOther
    have before := books.active other isOther
    rw [idle] at before
    dsimp only
    by_cases same : other = tr
    · subst same
      rw [update_self]
      exact iff_of_false (by decide) fun none => none req rfl
    · rw [update_of_ne same]
      refine iff_of_true (before.mpr nofun) fun otherReq running => same ?_
      exact (Prod.mk.inj (Option.some.inj running)).1.symm
  · intro other otherReq running
    cases running
    exact ⟨member, has⟩
  · have before := books.accounted
    have split : (openReqs qp).Perm (req :: (qp.outstandingTr.erase tr).filterMap qp.trReq) := by
      rw [openReqs, openTr, idle]
      exact filterMap_perm_erase member has
    refine before.trans ?_
    rw [List.append_assoc]
    exact List.Perm.append_left _ (split.append_right _)

/-- The callback has returned: tracker and request are free. -/
theorem Books.freeTracker (books : Books trackers requests (tr :: rest) accepted called [] qp)
    (running : qp.callback = some (tr, req)) :
    Books trackers requests rest accepted called [] (freeTracker qp tr req) := by
  obtain ⟨member, has⟩ := books.callback tr req running
  have notErased : tr ∉ qp.outstandingTr.erase tr := books.nodup_outstanding.not_mem_erase
  have stays : ∀ other ∈ qp.outstandingTr.erase tr, other ∈ qp.outstandingTr ∧ other ≠ tr :=
    fun other inErased =>
      ⟨List.mem_of_mem_erase inErased, fun same => notErased (same ▸ inErased)⟩
  have isHeld : (heldReqs qp).Perm (req :: heldReqs (Nvme.freeTracker qp tr req)) := by
    simp only [heldReqs, Nvme.freeTracker, filterMap_update_of_notMem _ _ notErased]
    exact filterMap_perm_erase member has
  have isOpen : openReqs (Nvme.freeTracker qp tr req) = openReqs qp := by
    simp only [openReqs, openTr, Nvme.freeTracker, running,
      filterMap_update_of_notMem _ _ notErased]
  refine ⟨?_, ?_, ?_, ?_, ?_, nofun, ?_, ?_⟩
  · refine List.Perm.trans ?_ books.trackers
    refine List.perm_middle.symm.trans (List.Perm.append_left _ ?_)
    exact (List.perm_cons_erase member).symm
  · refine List.Perm.cons_inv (a := tr) (List.perm_middle.symm.trans ?_)
    exact books.device.trans (List.perm_cons_erase member)
  · intro other inErased
    obtain ⟨before, differs⟩ := stays other inErased
    obtain ⟨otherReq, hasOther, isCid⟩ := books.held other before
    refine ⟨otherReq, ?_, isCid⟩
    simp only [Nvme.freeTracker]
    rw [update_of_ne differs]
    exact hasOther
  · intro other inFree
    simp only [Nvme.freeTracker]
    by_cases same : other = tr
    · rw [same, update_self]
    · rw [update_of_ne same]
      exact books.free other ((List.mem_cons.mp inFree).resolve_left same)
  · intro other inErased
    obtain ⟨before, differs⟩ := stays other inErased
    refine iff_of_true ((books.active other before).mpr fun otherReq isRunning => ?_) nofun
    rw [running] at isRunning
    exact differs (Prod.mk.inj (Option.some.inj isRunning)).1.symm
  · refine List.Perm.trans ?_ books.requests
    simp only [List.append_nil]
    refine List.Perm.trans ?_ (isHeld.append_right _).symm
    rw [List.cons_append]
    rw [← List.append_assoc, ← List.append_assoc]
    exact List.perm_middle
  · rw [isOpen]
    exact books.accounted

/-- The queue of completions and the submission queue's head are not in the books. -/
theorem Books.reposition (books : Books trackers requests posted accepted called loose qp)
    (cq : CompletionQueue Cpl) (sqHead : Nat) :
    Books trackers requests posted accepted called loose { qp with cq := cq, sqHead := sqHead } :=
  { books with }

end Books

/-! ### Completions that are not consumed yet -/

/-- The completions that were posted and not processed, in order. -/
def postedLeft (events : List (CqEvent Cpl)) : List Cpl :=
  (postedOf events).drop (processedOf events).length

section PostedLeft

variable {numEntries : Nat} {cq : CompletionQueue Cpl} {past : List (CqEvent Cpl)}

theorem InStep.postedLeft_posted (held : InStep numEntries cq past) (cpl : Cpl) :
    postedLeft (past ++ [.posted cpl]) = postedLeft past ++ [cpl] := by
  have isPosted : postedOf (past ++ [.posted cpl]) = postedOf past ++ [cpl] :=
    postedOf_append past [.posted cpl]
  have isProcessed : processedOf (past ++ [.posted cpl]) = processedOf past := by
    rw [processedOf_append]
    exact List.append_nil _
  rw [postedLeft, isPosted, isProcessed, List.drop_append_of_le_length held.inOrder.length_le]
  rfl

theorem postedLeft_processed (cpl : Cpl) {next : Cpl}
    (left : postedLeft past = next :: rest) : postedLeft (past ++ [.processed cpl]) = rest := by
  have isPosted : postedOf (past ++ [.processed cpl]) = postedOf past := by
    rw [postedOf_append]
    exact List.append_nil _
  have isProcessed : processedOf (past ++ [.processed cpl]) = processedOf past ++ [cpl] :=
    processedOf_append past [.processed cpl]
  rw [postedLeft, isPosted, isProcessed, List.length_append, List.length_singleton,
    ← List.tail_drop]
  exact congrArg List.tail left

theorem postedLeft_empty : postedLeft (past ++ [.empty]) = postedLeft past := by
  rw [postedLeft, postedOf_append, processedOf_append]
  exact congrArg₂ (fun count list => List.drop (List.length count) list) (List.append_nil _)
    (List.append_nil _)

/-- A slot with the host's phase has the first of the completions that are left. -/
theorem InStep.postedLeft_of_same (held : InStep numEntries cq past) (positive : 0 < numEntries)
    (same : (cq.cpl cq.host.index).p = cq.host.phase) :
    ∃ rest, postedLeft past = (cq.cpl cq.host.index).data :: rest := by
  have left := (held.bit_iff positive).mp same
  have room := held.room
  refine ⟨(postedOf past).drop ((processedOf past).length + 1), ?_⟩
  rw [postedLeft, List.drop_eq_getElem_cons left, held.host]
  exact congrArg (List.cons · _)
    (congrArg CqSlot.data (held.filled.slot left (by omega))).symm

end PostedLeft

/-! ### What holds over every run -/

/-- What a run has done so far: requests and completions, and what must not happen. -/
structure Log where
  cq : List (CqEvent Cpl)
  accepted : List Nat
  queued : List Nat
  dequeued : List Nat
  finished : List Nat
  called : List Nat
  faults : List QpEvent

def Log.empty : Log := ⟨[], [], [], [], [], [], []⟩

def Log.add (log : Log) : QpEvent → Log
  | .accepted req => { log with accepted := log.accepted ++ [req] }
  | .queued req => { log with queued := log.queued ++ [req] }
  | .dequeued req => { log with dequeued := log.dequeued ++ [req] }
  | .retried _ => log
  | .finished req => { log with finished := log.finished ++ [req] }
  | .called req => { log with called := log.called ++ [req] }
  | .cq event => { log with cq := log.cq ++ [event] }
  | .requeued req => { log with faults := log.faults ++ [.requeued req] }
  | .unmapped => { log with faults := log.faults ++ [.unmapped] }
  | .assertFailed => { log with faults := log.faults ++ [.assertFailed] }

/-- The description of a queue pair after a run. -/
structure Orderly (numEntries trackers requests : Nat) (qp : Qpair) (log : Log) : Prop where
  cq : InStep numEntries qp.cq log.cq
  books : Books trackers requests ((postedLeft log.cq).map Cpl.cid) log.accepted log.called [] qp
  running : ∀ tr req, qp.callback = some (tr, req) →
    ∃ cpl rest, postedLeft log.cq = cpl :: rest ∧ cpl.cid = tr
  waiting : qp.queuedReq ≠ [] → qp.freeTr = []
  fifo : log.queued = log.dequeued ++ qp.queuedReq
  callbacks : log.called = log.finished
  sound : log.faults = []

section Steps

variable {numEntries trackers requests : Nat} {qp : Qpair} {log : Log}

section

variable (held : Orderly numEntries trackers requests qp log)
include held

variable {req : Nat}

theorem Orderly.submit {rest : List Nat} (isPool : qp.freeReq = req :: rest) :
    Orderly numEntries trackers requests (submitRequest (allocateRequest qp req rest) req).1
      ((if (submitRequest (allocateRequest qp req rest) req).2 then [QpEvent.accepted req]
        else [.accepted req, .queued req]).foldl Log.add log) := by
  have books := (held.books.allocate isPool).submitRequest
  cases isFree : qp.freeTr with
  | nil =>
    simp only [submitRequest, allocateRequest, isFree] at books ⊢
    refine { held with books, waiting := fun _ => rfl, fifo := ?_ }
    have fifo := congrArg (· ++ [req]) held.fifo
    rw [List.append_assoc] at fifo
    exact fifo
  | cons tr free =>
    simp only [submitRequest, allocateRequest, isFree] at books ⊢
    have noQueue : qp.queuedReq = [] := by
      refine Decidable.byContradiction fun some => ?_
      have none := held.waiting some
      rw [isFree] at none
      cases none
    exact { held with books, waiting := fun some => absurd noQueue some }

theorem Orderly.post (positive : 0 < numEntries) (has : cpl.cid ∈ qp.inDevice)
    (room : 0 < qp.cq.room) :
    Orderly numEntries trackers requests
      { qp with cq := post qp.cq cpl, inDevice := qp.inDevice.erase cpl.cid }
      (log.add (.cq (.posted cpl))) := by
  have isLeft := held.cq.postedLeft_posted cpl
  refine { held with
    cq := held.cq.post positive cpl room, books := ?_, running := fun tr req running => ?_ }
  · have books := held.books.post (Nvme.post qp.cq cpl) has
    simp only [Log.add, isLeft, List.map_append]
    exact books
  · obtain ⟨first, rest, isFirst, isTr⟩ := held.running tr req running
    exact ⟨first, rest ++ [cpl], by simp only [Log.add, isLeft, isFirst, List.cons_append], isTr⟩

theorem Orderly.call (call : Option Call) :
    Orderly numEntries trackers requests { qp with cq := { qp.cq with call := call } } log :=
  { held with cq := { held.cq with }, books := held.books.reposition _ _ }

theorem Orderly.turn_empty
    (positive : 0 < numEntries) (differs : (qp.cq.cpl qp.cq.host.index).p ≠ qp.cq.host.phase) :
    Orderly numEntries trackers requests { qp with cq := { qp.cq with call := none } }
      (log.add (.cq .empty)) := by
  refine { held with cq := held.cq.turn_empty positive differs, books := ?_, running := ?_ }
  · simp only [Log.add, postedLeft_empty]
    exact held.books.reposition _ _
  · simp only [Log.add, postedLeft_empty]
    exact held.running

/-- The completion at the host's place is that of an active tracker, with its request. -/
theorem Orderly.completed (idle : qp.callback = none) (left : postedLeft log.cq = cpl :: rest) :
    cpl.cid ∈ qp.outstandingTr ∧ qp.trActive cpl.cid = true ∧
      ∃ req, qp.trReq cpl.cid = some req ∧ qp.reqCid req = cpl.cid := by
  have member : cpl.cid ∈ qp.outstandingTr := by
    refine held.books.device.subset (List.mem_append_right _ ?_)
    rw [left]
    exact List.mem_cons_self
  refine ⟨member, (held.books.active cpl.cid member).mpr ?_, held.books.held cpl.cid member⟩
  rw [idle]
  exact nofun

section

variable (positive : 0 < numEntries)
include positive

theorem Orderly.turn_new (idle : qp.callback = none) (call : Call)
    (isCpl : (qp.cq.cpl qp.cq.host.index).data = cpl)
    (same : (qp.cq.cpl qp.cq.host.index).p = qp.cq.host.phase)
    (left : postedLeft log.cq = cpl :: rest) (has : qp.trReq cpl.cid = some req)
    (isCid : qp.reqCid req = cpl.cid) (member : cpl.cid ∈ qp.outstandingTr) (sqHead : Nat) :
    Orderly numEntries trackers requests
      (completeTracker { qp with sqHead := sqHead } call cpl req).1
      ((completeTracker { qp with sqHead := sqHead } call cpl req).2.foldl Log.add log) := by
  have books := held.books.reposition qp.cq sqHead
  have positioned := held.cq.turn_new positive call.next same
  rw [isCpl] at positioned
  rw [completeTracker, if_pos isCid]
  split
  · have isLeft := postedLeft_processed cpl left
    rw [left, List.map_cons] at books
    refine { held with cq := positioned, books := ?_, running := ?_ }
    · have retried := books.retry (update qp.reqRetries req (qp.reqRetries req + 1)) idle
        isCid
      simp only [List.nil_append, List.foldl_cons, List.foldl_nil, Log.add, isLeft]
      exact retried.reposition _ _
    · intro tr other running
      exact absurd (running.symm.trans idle) nofun
  · have started := books.startCallback idle has member
    refine { held with books := started, running := ?_, callbacks := ?_ }
    · intro tr other running
      obtain ⟨rfl, -⟩ := Prod.mk.inj (Option.some.inj running)
      exact ⟨cpl, rest, left, rfl⟩
    · exact congrArg (· ++ [req]) held.callbacks

theorem Orderly.turn (idle : qp.callback = none) (call : Call) :
    Orderly numEntries trackers requests (completionTurn qp call).1
      ((completionTurn qp call).2.foldl Log.add log) := by
  rw [completionTurn]
  split
  · next differs => exact held.turn_empty positive differs
  · next notDiffers =>
    have same := Decidable.of_not_not notDiffers
    obtain ⟨rest, left⟩ := held.cq.postedLeft_of_same positive same
    obtain ⟨member, active, req, has, isCid⟩ := held.completed idle left
    rw [if_pos active, has]
    exact held.turn_new positive idle call rfl same left has isCid member _

/-- A callback returns, and the first request that waits gets the tracker. -/
theorem Orderly.callbackReturns (call : Call) (running : qp.callback = some (tr, req)) :
    Orderly numEntries trackers requests (callbackReturns qp call tr req).1
      ((callbackReturns qp call tr req).2.foldl Log.add log) := by
  obtain ⟨cpl, rest, left, rfl⟩ := held.running tr req running
  have same : (qp.cq.cpl qp.cq.host.index).p = qp.cq.host.phase := by
    refine (held.cq.bit_iff positive).mpr (Nat.lt_of_not_le fun none => ?_)
    rw [postedLeft, List.drop_eq_nil_of_le none] at left
    cases left
  have positioned := held.cq.turn_new positive call.next same
  have isLeft := postedLeft_processed (qp.cq.cpl qp.cq.host.index).data left
  have books := held.books
  rw [left, List.map_cons] at books
  have freed := books.freeTracker running
  cases isQueue : qp.queuedReq with
  | nil =>
    have submitted : submitQueued (freeTracker qp cpl.cid req) =
        (freeTracker qp cpl.cid req, []) := by
      simp only [submitQueued, freeTracker, isQueue]
    rw [Nvme.callbackReturns, submitted]
    refine { held with
      cq := positioned, books := ?_, running := nofun, waiting := fun some => absurd isQueue some }
    simp only [List.nil_append, List.foldl_cons, List.foldl_nil, Log.add, isLeft]
    exact freed.reposition _ _
  | cons first waiting =>
    -- all trackers were taken, so the one just freed is the only free one
    have noneFree : qp.freeTr = [] := held.waiting (by rw [isQueue]; exact List.cons_ne_nil _ _)
    have isFree : (freeTracker qp cpl.cid req).freeTr = [cpl.cid] := by
      simp only [freeTracker, noneFree]
    have dequeued := (freed.dequeue isQueue).take isFree
    have submitted : submitQueued (freeTracker qp cpl.cid req) =
        (submitTracker (takeTracker { freeTracker qp cpl.cid req with queuedReq := waiting }
          cpl.cid first []) cpl.cid first, [.dequeued first]) := by
      simp only [submitQueued, freeTracker, isQueue, submitRequest, noneFree, if_true]
    rw [Nvme.callbackReturns, submitted]
    refine ⟨positioned, ?_, nofun, fun _ => rfl, ?_, held.callbacks, held.sound⟩
    · simp only [List.singleton_append, List.foldl_cons, List.foldl_nil, Log.add, isLeft]
      exact dequeued.reposition _ _
    · have fifo := held.fifo
      rw [isQueue] at fifo
      simp only [List.singleton_append, List.foldl_cons, List.foldl_nil, Log.add]
      rw [fifo]
      exact List.append_cons log.dequeued first waiting

theorem Orderly.step {action : QpAction} {next : Qpair} {seen : List QpEvent}
    (taken : qpStep qp action = some (next, seen)) :
    Orderly numEntries trackers requests next (seen.foldl Log.add log) := by
  cases action with
  | submit =>
    simp only [qpStep] at taken
    split at taken
    · cases taken
    · next req rest isPool =>
      cases taken
      exact held.submit isPool
  | post cpl =>
    simp only [qpStep, Option.ite_none_right_eq_some] at taken
    obtain ⟨⟨has, room⟩, isNext⟩ := taken
    cases isNext
    exact held.post positive has room
  | call maxCompletions =>
    simp only [qpStep, Option.ite_none_right_eq_some] at taken
    obtain ⟨_, isNext⟩ := taken
    cases isNext
    exact held.call _
  | turn =>
    simp only [qpStep] at taken
    split at taken
    · cases taken
    · next idle =>
      obtain ⟨call, _, isNext⟩ := Option.map_eq_some_iff.mp taken
      have kept := held.turn positive idle call
      rw [isNext] at kept
      exact kept
  | callbackReturns =>
    simp only [qpStep] at taken
    split at taken
    · cases taken
    · next tr req running =>
      obtain ⟨call, _, isNext⟩ := Option.map_eq_some_iff.mp taken
      have kept := held.callbackReturns positive call running
      rw [isNext] at kept
      exact kept

end

end

end Steps

end StudyNotes.Nvme
