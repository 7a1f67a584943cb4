/-
This file models how the block device layer takes an I/O from its submission to
the callback of its caller.

The functions call out of the layer: into the driver, which may complete I/Os
before it returns, and into callbacks, which may submit new ones. So every thread
has a stack of the calls that it is in, and takes the code between two calls as
one step. An I/O with a rate limit goes to another thread and back by message.
-/

import StudyNotes.Library.Machine

namespace StudyNotes.Bdev

open Library Function

/-- The address of a `struct spdk_bdev_io`. -/
abbrev Io := Nat

/-- The address of a `struct spdk_bdev_channel`. -/
abbrev Channel := Nat

/-- The address of a `struct spdk_bdev_module_channel`. -/
abbrev Module := Nat

/-- The address of a `struct spdk_bdev`. -/
abbrev Device := Nat

/-- The address of a `struct spdk_thread`. -/
abbrev Thread := Nat

/-- What does not change: whose the channels are, and the constants. -/
structure Layout where
  /-- `spdk_io_channel_get_thread(ch->channel)`. -/
  thread : Channel → Thread
  moduleCh : Channel → Module
  /-- `bdev->qos.ch`; the thread of this channel is `bdev->qos.thread`. -/
  qosCh : Device → Channel
  blocklen : Device → Nat
  nomemThresholdCount : Nat

/-! ### The state -/

/-- `enum spdk_bdev_io_type`, as far as the statistics tell the types apart. -/
inductive IoType where
  | read
  | write
  | other
  deriving DecidableEq

/-- `enum spdk_bdev_io_status`, with all errors but one taken together. -/
inductive Status where
  | pending
  | success
  | failed
  | nomem
  deriving DecidableEq

/-- `struct spdk_bdev_io`. -/
structure BdevIo where
  type : IoType
  bdev : Device
  ch : Channel
  /-- There is a callback. -/
  cb : Bool
  numBlocks : Nat
  status : Status
  ioSubmitCh : Option Channel
  inSubmitRequest : Bool
  submitTsc : Nat

/-- `struct spdk_bdev_io_stat`. -/
structure IoStat where
  bytesRead : Nat
  numReadOps : Nat
  readLatencyTicks : Nat
  bytesWritten : Nat
  numWriteOps : Nat
  writeLatencyTicks : Nat

/-- The flags of a channel: `BDEV_CH_RESET_IN_PROGRESS`, `BDEV_CH_QOS_ENABLED` and any other. -/
structure Flags where
  resetInProgress : Bool
  qosEnabled : Bool
  unknown : Bool
  deriving DecidableEq

/-- A message to a thread: a function that is to be called there. -/
inductive Message where
  /-- `_spdk_bdev_io_submit`. -/
  | submit (io : Io)
  /-- `_spdk_bdev_io_complete`. -/
  | complete (io : Io)
  deriving DecidableEq

/-- A call that a thread is in. -/
inductive Frame where
  /-- The end of `_spdk_bdev_io_submit`. -/
  | submitting (io : Io)
  /-- The end of `spdk_bdev_io_complete`. -/
  | completing (io : Io)
  /-- `_spdk_bdev_ch_retry_io`. -/
  | retry (moduleCh : Module)
  /-- `_spdk_bdev_qos_io_submit`. -/
  | qosSubmit (bdev : Device)
  /-- `submit_request` of the driver. -/
  | driver
  /-- The callback of an I/O. -/
  | callback (io : Io)
  deriving DecidableEq

/-- The I/Os and channels, and what the threads and the driver are doing with them. -/
structure Layer where
  ticks : Nat
  io : Io → BdevIo
  submitted : List Io
  flags : Channel → Flags
  ioOutstanding : Channel → Nat
  stat : Channel → IoStat
  moduleOutstanding : Module → Nat
  nomemIo : Module → List Io
  nomemThreshold : Module → Int
  nomemIoAbort : Module → Bool
  /-- `nomem_io_trigger_poller` is registered. -/
  nomemIoTrigger : Module → Bool
  /-- `bdev->qos.queued`. -/
  queued : Device → List Io
  messages : Thread → List Message
  /-- The calls that a thread is in, the innermost one first. -/
  stack : Thread → List Frame
  /-- The I/Os that have been handed to the driver and not come back. -/
  driver : List Io

/-- What can be seen of a run. -/
inductive Event where
  /-- The callback of an I/O is called. -/
  | called (io : Io) (success : Bool)
  /-- An I/O without callback is freed. -/
  | freed (io : Io)
  | assertFailed
  deriving DecidableEq

namespace Layer

variable (layout : Layout) (s : Layer)

/-- Write the record of an I/O. -/
def setIo (io : Io) (record : BdevIo) : Layer :=
  { s with io := update s.io io record }

/-- A thread enters a call. -/
def push (thread : Thread) (frame : Frame) : Layer :=
  { s with stack := update s.stack thread (frame :: s.stack thread) }

/-- A thread returns from its innermost call. -/
def pop (thread : Thread) : Layer :=
  { s with stack := update s.stack thread (s.stack thread).tail }

/-- `spdk_thread_send_msg`. -/
def send (thread : Thread) (message : Message) : Layer :=
  { s with messages := update s.messages thread (s.messages thread ++ [message]) }

/-- A thread takes its first message. -/
def receive (thread : Thread) : Layer :=
  { s with messages := update s.messages thread (s.messages thread).tail }

/-- Write `nomem_io`. -/
def setNomemIo (moduleCh : Module) (ios : List Io) : Layer :=
  { s with nomemIo := update s.nomemIo moduleCh ios }

/-- Write `qos.queued`. -/
def setQueued (bdev : Device) (ios : List Io) : Layer :=
  { s with queued := update s.queued bdev ios }

/-- Call `submit_request` of the driver. -/
def submitRequest (thread : Thread) (io : Io) : Layer :=
  push { s with driver := io :: s.driver } thread .driver

/-- `bdev_ch->io_outstanding++; module_ch->io_outstanding++;` -/
def countUp (ch : Channel) : Layer :=
  let moduleCh := layout.moduleCh ch
  { s with
    ioOutstanding := update s.ioOutstanding ch (s.ioOutstanding ch + 1)
    moduleOutstanding :=
      update s.moduleOutstanding moduleCh (s.moduleOutstanding moduleCh + 1) }

/-- `bdev_ch->io_outstanding--; module_ch->io_outstanding--;` -/
def countDown (ch : Channel) : Layer :=
  let moduleCh := layout.moduleCh ch
  { s with
    ioOutstanding := update s.ioOutstanding ch (s.ioOutstanding ch - 1)
    moduleOutstanding :=
      update s.moduleOutstanding moduleCh (s.moduleOutstanding moduleCh - 1) }

/-- The statistics of a channel after a successful I/O. -/
def IoStat.add (stat : IoStat) (type : IoType) (bytes latency : Nat) : IoStat :=
  match type with
  | .read =>
    { stat with
      bytesRead := stat.bytesRead + bytes
      numReadOps := stat.numReadOps + 1
      readLatencyTicks := stat.readLatencyTicks + latency }
  | .write =>
    { stat with
      bytesWritten := stat.bytesWritten + bytes
      numWriteOps := stat.numWriteOps + 1
      writeLatencyTicks := stat.writeLatencyTicks + latency }
  | .other => stat

/-- `_spdk_bdev_io_complete` adds a successful I/O to the statistics. -/
def account (record : BdevIo) : Layer :=
  if record.status = .success then
    let stat := IoStat.add (s.stat record.ch) record.type
      (record.numBlocks * layout.blocklen record.bdev) (s.ticks - record.submitTsc)
    { s with stat := update s.stat record.ch stat }
  else s

/-! ### Completion -/

/-- `assert`. -/
def assertion (holds : Bool) : List Event := if holds then [] else [.assertFailed]

/-- Send the completion to the thread that has submitted the I/O. -/
def deferIo (io : Io) : Layer :=
  let record := s.io io
  let ch := record.ioSubmitCh.getD record.ch
  (s.setIo io { record with ch := ch, ioSubmitCh := none }).send (layout.thread ch) (.complete io)

/-- `_spdk_bdev_io_complete`, called on a thread. -/
def completeIo (thread : Thread) (io : Io) : Layer × List Event :=
  let record := s.io io
  if record.inSubmitRequest ∨ record.ioSubmitCh.isSome then (s.deferIo layout io, [])
  else
    let accounted := s.account layout record
    if record.cb = false then (accounted, [.freed io])
    else (accounted.push thread (.callback io),
      assertion (decide (thread = layout.thread record.ch)) ++
        [.called io (decide (record.status = .success))])

/-- What is done with an I/O for which the driver has had no memory. -/
def requeue (moduleCh : Module) (io : Io) : Layer :=
  let outstanding : Int := s.moduleOutstanding moduleCh
  { s.setNomemIo moduleCh (io :: s.nomemIo moduleCh) with
    nomemThreshold := update s.nomemThreshold moduleCh
      (max (outstanding / 2) (outstanding - layout.nomemThresholdCount))
    nomemIoTrigger :=
      if s.moduleOutstanding moduleCh = 0 then update s.nomemIoTrigger moduleCh true
      else s.nomemIoTrigger }

/-- An I/O with a status is not outstanding any more. -/
def takeBack (io : Io) (status : Status) : Layer :=
  (s.setIo io { s.io io with status := status }).countDown layout (s.io io).ch

/-- `spdk_bdev_io_complete` for an I/O that is no reset, called on a thread. -/
def ioComplete (thread : Thread) (io : Io) (status : Status) : Layer × List Event :=
  let ch := (s.io io).ch
  let moduleCh := layout.moduleCh ch
  let asserted := assertion (decide (0 < s.ioOutstanding ch)) ++
    assertion (decide (0 < s.moduleOutstanding moduleCh))
  let back := s.takeBack layout io status
  if status = .nomem then (back.requeue layout moduleCh io, asserted)
  else if back.nomemIoAbort moduleCh = false ∧ back.nomemIo moduleCh ≠ [] then
    ((back.push thread (.completing io)).push thread (.retry moduleCh), asserted)
  else
    let completed := back.completeIo layout thread io
    (completed.1, asserted ++ completed.2)

/-! ### Submission -/

/-- `_spdk_bdev_io_submit` is called. -/
def enterSubmit (thread : Thread) (io : Io) : Layer :=
  (s.setIo io { s.io io with submitTsc := s.ticks, inSubmitRequest := true }).push thread
    (.submitting io)

/-- `_spdk_bdev_io_submit`, called on a thread. Its last assignment is left to the frame. -/
def submitIo (thread : Thread) (io : Io) : Layer × List Event :=
  let record := s.io io
  let ch := record.ch
  let moduleCh := layout.moduleCh ch
  let flags := s.flags ch
  let counted := (s.enterSubmit thread io).countUp layout ch
  if flags = ⟨false, false, false⟩ then
    if counted.nomemIo moduleCh = [] then (counted.submitRequest thread io, [])
    else ((counted.countDown layout ch).setNomemIo moduleCh (counted.nomemIo moduleCh ++ [io]), [])
  else if flags.resetInProgress then counted.ioComplete layout thread io .failed
  else if flags.qosEnabled then
    (((counted.countDown layout ch).setQueued record.bdev
      (counted.queued record.bdev ++ [io])).push thread (.qosSubmit record.bdev), [])
  else counted.ioComplete layout thread io .failed

/-- `spdk_bdev_io_submit`, called on a thread. -/
def ioSubmit (thread : Thread) (io : Io) : Layer × List Event :=
  let record := s.io io
  if (s.flags record.ch).qosEnabled then
    let ch := layout.qosCh record.bdev
    ((s.setIo io { record with ioSubmitCh := some record.ch, ch := ch }).send (layout.thread ch)
      (.submit io), [])
  else s.submitIo layout thread io

end Layer

/-! ### Steps -/

/-- What can happen next. -/
inductive Action where
  /-- Code that a thread is in, the driver, a callback or the application, submits an I/O. -/
  | submit (thread : Thread) (io : Io) (type : IoType) (bdev : Device) (ch : Channel) (cb : Bool)
      (numBlocks : Nat)
  /-- The driver is done with an I/O. -/
  | complete (thread : Thread) (io : Io) (status : Status)
  /-- The driver or a callback returns. -/
  | returns (thread : Thread)
  /-- A function of the layer goes on; one that hands I/Os to the driver takes another one or
  returns. -/
  | continues (thread : Thread) (another : Bool)
  /-- A thread receives its next message. -/
  | message (thread : Thread)
  /-- A poller calls `_spdk_bdev_ch_retry_io`. -/
  | retry (thread : Thread) (moduleCh : Module)
  /-- A poller calls `_spdk_bdev_qos_io_submit`. -/
  | qosSubmit (thread : Thread) (bdev : Device)
  | setFlags (ch : Channel) (flags : Flags)
  | setNomemIoAbort (moduleCh : Module) (abort : Bool)
  | tick (ticks : Nat)

/-- A thread is in code outside of the layer. -/
def Layer.outside (s : Layer) (thread : Thread) : Bool :=
  match s.stack thread with
  | [] => true
  | .driver :: _ => true
  | .callback _ :: _ => true
  | _ => false

/-- A new I/O, after `spdk_bdev_io_init`. -/
def newIo (type : IoType) (bdev : Device) (ch : Channel) (cb : Bool) (numBlocks : Nat) :
    BdevIo where
  type := type
  bdev := bdev
  ch := ch
  cb := cb
  numBlocks := numBlocks
  status := .pending
  ioSubmitCh := none
  inSubmitRequest := false
  submitTsc := 0

/-- The step of a thread that is in a function of the layer. -/
def continueStep (layout : Layout) (s : Layer) (thread : Thread) (another : Bool) :
    Option (Layer × List Event) :=
  match s.stack thread with
  | .submitting io :: _ =>
    some ((s.setIo io { s.io io with inSubmitRequest := false }).pop thread, [])
  | .completing io :: _ => some ((s.pop thread).completeIo layout thread io)
  | .retry moduleCh :: _ =>
    if another then
      match s.nomemIo moduleCh with
      | [] => none
      | io :: rest =>
        some (((s.setNomemIo moduleCh rest).countUp layout (s.io io).ch).submitRequest thread io,
          [])
    else some (s.pop thread, [])
  | .qosSubmit bdev :: _ =>
    if another then
      match s.queued bdev with
      | [] => none
      | io :: rest =>
        some (((s.setQueued bdev rest).countUp layout (s.io io).ch).submitRequest thread io, [])
    else some (s.pop thread, [])
  | _ => none

/-- A thread handles its first message. -/
def messageStep (layout : Layout) (s : Layer) (thread : Thread) : Option (Layer × List Event) :=
  match s.messages thread with
  | [] => none
  | .submit io :: _ => some ((s.receive thread).submitIo layout thread io)
  | .complete io :: _ => some ((s.receive thread).completeIo layout thread io)

/-- One step of the layer and its surroundings. -/
def bdevStep (layout : Layout) (s : Layer) : Action → Option (Layer × List Event)
  | .submit thread io type bdev ch cb numBlocks =>
    if s.outside thread ∧ io ∉ s.submitted ∧ layout.thread ch = thread then
      some ((({ s with submitted := io :: s.submitted }).setIo io
        (newIo type bdev ch cb numBlocks)).ioSubmit layout thread io)
    else none
  | .complete thread io status =>
    if s.outside thread ∧ io ∈ s.driver ∧ layout.thread (s.io io).ch = thread then
      some (({ s with driver := s.driver.erase io }).ioComplete layout thread io status)
    else none
  | .returns thread =>
    match s.stack thread with
    | .driver :: _ => some (s.pop thread, [])
    | .callback _ :: _ => some (s.pop thread, [])
    | _ => none
  | .continues thread another => continueStep layout s thread another
  | .message thread => if s.stack thread = [] then messageStep layout s thread else none
  | .retry thread moduleCh =>
    if s.stack thread = [] then some (s.push thread (.retry moduleCh), []) else none
  | .qosSubmit thread bdev =>
    if s.stack thread = [] then some (s.push thread (.qosSubmit bdev), []) else none
  | .setFlags ch flags => some ({ s with flags := update s.flags ch flags }, [])
  | .setNomemIoAbort moduleCh abort =>
    some ({ s with nomemIoAbort := update s.nomemIoAbort moduleCh abort }, [])
  | .tick ticks => some ({ s with ticks := s.ticks + ticks }, [])

end StudyNotes.Bdev
