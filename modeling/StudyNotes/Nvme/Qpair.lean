/-
This file models an enabled I/O queue pair of the NVMe driver: its trackers, its
queue of requests that wait for one, and its completions.

The callback of a request runs before its tracker is free again, and may submit
requests itself. It is therefore a phase of its own, between the turn of the loop
that starts it and the step in which it returns. The controller is neither failed nor
resetting, and the payload of a request can be translated.
-/

import StudyNotes.Nvme.CompletionQueue

namespace StudyNotes.Nvme

open Library Function

/-! ### The state -/

/--
`struct spdk_nvme_cpl`. `error` is what `spdk_nvme_cpl_is_error` says of its status, and
`retryable` what `nvme_completion_is_retry` does.
-/
structure Cpl where
  cid : Nat
  sqhd : Nat
  error : Bool
  retryable : Bool

/--
A queue pair. Trackers and requests are numbers; `trReq` and `trActive` are the fields
`req` and `active` of a tracker, `reqCid` and `reqRetries` are `cmd.cid` and `retries`
of a request. `inDevice` are the commands that the device has to complete, and
`callback` is the tracker and the request whose callback runs.
-/
structure Qpair where
  retryCount : Nat
  freeTr : List Nat
  outstandingTr : List Nat
  trReq : Nat → Option Nat
  trActive : Nat → Bool
  reqCid : Nat → Nat
  reqRetries : Nat → Nat
  freeReq : List Nat
  queuedReq : List Nat
  cmd : Nat → Nat
  sqTail : Nat
  sqHead : Nat
  cq : CompletionQueue Cpl
  inDevice : List Nat
  callback : Option (Nat × Nat)

inductive QpEvent where
  | accepted (req : Nat)
  | queued (req : Nat)
  | dequeued (req : Nat)
  | requeued (req : Nat)
  | retried (req : Nat)
  | finished (req : Nat)
  | called (req : Nat)
  | cq (event : CqEvent Cpl)
  | unmapped
  | assertFailed

/-! ### Submission -/

variable (qp : Qpair)

/-- `nvme_pcie_qpair_submit_tracker`, on a tracker and its request. -/
def submitTracker (tr req : Nat) : Qpair :=
  { qp with
    trActive := update qp.trActive tr true
    cmd := update qp.cmd qp.sqTail (qp.reqCid req)
    sqTail := if qp.sqTail + 1 = qp.cq.numEntries then 0 else qp.sqTail + 1
    inDevice := qp.inDevice ++ [qp.reqCid req] }

/-- A tracker gets a request: from the free ones to the end of the outstanding ones. -/
def takeTracker (tr req : Nat) (rest : List Nat) : Qpair :=
  { qp with
    freeTr := rest
    outstandingTr := qp.outstandingTr ++ [tr]
    trReq := update qp.trReq tr (some req)
    reqCid := update qp.reqCid req tr }

/-- `nvme_pcie_qpair_submit_request`, and whether the request got a tracker. -/
def submitRequest (req : Nat) : Qpair × Bool :=
  match qp.freeTr with
  | [] => ({ qp with queuedReq := qp.queuedReq ++ [req] }, false)
  | tr :: rest => (submitTracker (takeTracker qp tr req rest) tr req, true)

/-- `nvme_allocate_request`: a request of the pool, which is cleared. -/
def allocateRequest (req : Nat) (rest : List Nat) : Qpair :=
  { qp with freeReq := rest, reqRetries := update qp.reqRetries req 0 }

/-! ### Completion -/

/-- The tracker of a completed request is free again, and so is the request. -/
def freeTracker (tr req : Nat) : Qpair :=
  { qp with
    callback := none
    freeReq := req :: qp.freeReq
    trReq := update qp.trReq tr none
    outstandingTr := qp.outstandingTr.erase tr
    freeTr := tr :: qp.freeTr }

/-- The end of `nvme_pcie_qpair_complete_tracker`: the first request that waits is submitted. -/
def submitQueued : Qpair × List QpEvent :=
  match qp.queuedReq with
  | [] => (qp, [])
  | req :: rest =>
    let submitted := submitRequest { qp with queuedReq := rest } req
    (submitted.1, [if submitted.2 then .dequeued req else .requeued req])

/-- The loop goes on behind the completion at its place. -/
def advance (call : Call) : Qpair :=
  { qp with cq := { consume qp.cq with call := call.next } }

/--
`nvme_pcie_qpair_complete_tracker` up to the callback, with its assertion about the
command. A command that is tried again is submitted at once.
-/
def completeTracker (call : Call) (cpl : Cpl) (req : Nat) : Qpair × List QpEvent :=
  let asserted := if qp.reqCid req = cpl.cid then [] else [.assertFailed]
  if cpl.error && cpl.retryable && qp.reqRetries req < qp.retryCount then
    let retries := update qp.reqRetries req (qp.reqRetries req + 1)
    (advance (submitTracker { qp with reqRetries := retries } cpl.cid req) call,
      asserted ++ [.retried req, .cq (.processed cpl)])
  else
    ({ qp with
        trActive := update qp.trActive cpl.cid false
        callback := some (cpl.cid, req) },
      asserted ++ [.finished req, .called req])

/-- One turn of the loop of `nvme_pcie_qpair_process_completions`. -/
def completionTurn (call : Call) : Qpair × List QpEvent :=
  let slot := qp.cq.cpl qp.cq.host.index
  if slot.p ≠ qp.cq.host.phase then
    ({ qp with cq := { qp.cq with call := none } }, [.cq .empty])
  else
    let read := { qp with sqHead := slot.data.sqhd }
    if qp.trActive slot.data.cid then
      match qp.trReq slot.data.cid with
      | none => (advance read call, [.assertFailed, .cq (.processed slot.data)])
      | some req => completeTracker read call slot.data req
    else (advance read call, [.unmapped, .cq (.processed slot.data)])

/-- The callback returns, and the rest of the turn follows. -/
def callbackReturns (call : Call) (tr req : Nat) : Qpair × List QpEvent :=
  let cpl := (qp.cq.cpl qp.cq.host.index).data
  let submitted := submitQueued (freeTracker qp tr req)
  (advance submitted.1 call, submitted.2 ++ [.cq (.processed cpl)])

/-! ### The steps -/

/--
What can happen. `submit` is a request of the user, also from a callback; the device
posts a completion of a command that it has.
-/
inductive QpAction where
  | submit
  | post (cpl : Cpl)
  | call (maxCompletions : Nat)
  | turn
  | callbackReturns

def qpStep : QpAction → Option (Qpair × List QpEvent)
  | .submit =>
    match qp.freeReq with
    | [] => none
    | req :: rest =>
      let submitted := submitRequest (allocateRequest qp req rest) req
      some (submitted.1, if submitted.2 then [.accepted req] else [.accepted req, .queued req])
  | .post cpl =>
    if cpl.cid ∈ qp.inDevice ∧ 0 < qp.cq.room then
      some ({ qp with cq := post qp.cq cpl, inDevice := qp.inDevice.erase cpl.cid },
        [.cq (.posted cpl)])
    else none
  | .call maxCompletions =>
    if qp.cq.call.isNone then
      some ({ qp with cq := { qp.cq with call := some ⟨0, limit qp.cq maxCompletions⟩ } }, [])
    else none
  | .turn =>
    match qp.callback with
    | some _ => none
    | none => qp.cq.call.map (completionTurn qp)
  | .callbackReturns =>
    match qp.callback with
    | none => none
    | some (tr, req) => qp.cq.call.map fun call => callbackReturns qp call tr req

/-! ### Construction -/

/-- `max_completions_cap`, with `NVME_MIN_COMPLETIONS` and `NVME_MAX_COMPLETIONS`. -/
def maxCompletionsCap (numEntries : Nat) : Nat := min (max (numEntries / 4) 1) 128

end StudyNotes.Nvme
