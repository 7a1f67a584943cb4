/-
This file models the transmitter of the emulated serial port: the guest's writes
to its registers, and the loop that hands bytes to the backend.

What the backend answers during a call is a parameter of the call. Functions
that are not part of the source are parameters of the model.
-/

import StudyNotes.Library.Loop

namespace StudyNotes.Serial

open Library

/-! ### Registers -/

/-- `UART_FCR_FE`. -/
def fcrFe : BitVec 8 := 0x01

/-- `UART_FCR_RFR`. -/
def fcrRfr : BitVec 8 := 0x02

/-- `UART_FCR_XFR`. -/
def fcrXfr : BitVec 8 := 0x04

/-- `UART_LSR_DR`. -/
def lsrDr : BitVec 8 := 0x01

/-- `UART_LSR_BI`. -/
def lsrBi : BitVec 8 := 0x10

/-- `UART_LSR_THRE`. -/
def lsrThre : BitVec 8 := 0x20

/-- `UART_LSR_TEMT`. -/
def lsrTemt : BitVec 8 := 0x40

/-- `UART_LCR_DLAB`. -/
def lcrDlab : BitVec 8 := 0x80

/-- `UART_MCR_LOOP`. -/
def mcrLoop : BitVec 8 := 0x10

/-- `UART_IER_THRI`. -/
def ierThri : BitVec 8 := 0x02

/-- `UART_IER_MSI`. -/
def ierMsi : BitVec 8 := 0x08

/-- A flag of a register is set. -/
def has (register flag : BitVec 8) : Bool := register &&& flag ≠ 0

/-- `SerialState`, with a note of the watch that the backend has not called yet. -/
structure SerialState where
  divider : BitVec 16
  thr : BitVec 8
  tsr : BitVec 8
  ier : BitVec 8
  lcr : BitVec 8
  mcr : BitVec 8
  lsr : BitVec 8
  scr : BitVec 8
  fcr : BitVec 8
  thrIpending : Bool
  timeoutIpending : Bool
  lastBreakEnable : Bool
  pollMsl : Int
  tsrRetry : Int
  recvFifo : List (BitVec 8)
  xmitFifo : List (BitVec 8)
  lastXmitTs : Nat
  watch : Bool

/-- What is not part of the source. -/
structure Missing where
  updateIrq : SerialState → SerialState
  updateParameters : SerialState → SerialState
  updateMsl : SerialState → SerialState
  receive1 : SerialState → BitVec 8 → SerialState
  writeFcr : SerialState → BitVec 8 → SerialState
  fifoLength : Nat
  maxXmitRetry : Int

/-- `fifo8_pop`, which aborts when there is nothing to take. -/
def fifo8Pop : List (BitVec 8) → Option (BitVec 8 × List (BitVec 8))
  | [] => none
  | byte :: rest => some (byte, rest)

/-- `fifo8_push`, which aborts when there is no room. -/
def fifo8Push (fifoLength : Nat) (fifo : List (BitVec 8)) (byte : BitVec 8) :
    Option (List (BitVec 8)) :=
  if fifo.length = fifoLength then none else some (fifo ++ [byte])

/-! ### Transmitting -/

/-- What the backend answers in the course of a call: does it take the byte, and if it does not, can
it call back. -/
structure Backend where
  accepts : Nat → Bool
  watches : Nat → Bool
  now : Nat

/-- The next byte, from the queue or from the holding register. -/
def takeByte (s : SerialState) : Option SerialState :=
  if has s.fcr fcrFe then
    (fifo8Pop s.xmitFifo).map fun popped =>
      { s with
        tsr := popped.1
        xmitFifo := popped.2
        lsr := if popped.2.isEmpty then s.lsr ||| lsrThre else s.lsr }
  else some { s with tsr := s.thr, lsr := s.lsr ||| lsrThre }

variable (missing : Missing)

/-- Tell the guest that there is room again. -/
def raiseThr (s : SerialState) : SerialState :=
  if has s.lsr lsrThre && !s.thrIpending then missing.updateIrq { s with thrIpending := true }
  else s

/-- The condition of the loop of `serial_xmit`, and what comes behind the loop. -/
def loopEnd (backend : Backend) (asked : Nat) (s : SerialState) :
    Turn (SerialState × Nat) SerialState :=
  if has s.lsr lsrThre then
    .done { s with lastXmitTs := backend.now, lsr := s.lsr ||| lsrTemt }
  else .again (s, asked)

/-- Hand the byte to the receiver or to the backend. -/
def sendByte (backend : Backend) (asked : Nat) (s : SerialState) :
    Turn (SerialState × Nat) SerialState :=
  if has s.mcr mcrLoop then loopEnd backend asked (missing.receive1 s s.tsr)
  else if backend.accepts asked then loopEnd backend (asked + 1) { s with tsrRetry := 0 }
  else if 0 ≤ s.tsrRetry ∧ s.tsrRetry < missing.maxXmitRetry ∧ backend.watches asked then
    .done { s with tsrRetry := s.tsrRetry + 1, watch := true }
  else loopEnd backend (asked + 1) { s with tsrRetry := 0 }

/-- One turn of the loop of `serial_xmit`. The number counts what the backend has been asked. -/
def xmitTurn (backend : Backend) (state : SerialState × Nat) :
    Option (Turn (SerialState × Nat) SerialState) :=
  (if state.1.tsrRetry ≤ 0 then (takeByte state.1).map (raiseThr missing) else some state.1).map
    (sendByte missing backend state.2)

/-- `serial_xmit`. -/
def serialXmit (backend : Backend) (fuel : Nat) (s : SerialState) : Option SerialState :=
  loop (xmitTurn missing backend) fuel (s, 0)

/-! ### Register writes -/

/-- The queue with the byte in it, behind the oldest if there is no room. -/
def pushByte (s : SerialState) : Option SerialState :=
  if has s.fcr fcrFe then
    ((if s.xmitFifo.length = missing.fifoLength then (fifo8Pop s.xmitFifo).map Prod.snd
      else some s.xmitFifo).bind fun fifo => fifo8Push missing.fifoLength fifo s.thr).map
        fun fifo => { s with xmitFifo := fifo }
  else some s

/-- Register 0: the divider or a byte to transmit. -/
def writeThr (backend : Backend) (fuel : Nat) (val : BitVec 8)
    (s : SerialState) : Option SerialState :=
  if has s.lcr lcrDlab then
    some (missing.updateParameters
      { s with divider := (s.divider &&& 0xff00) ||| val.setWidth 16 })
  else
    (pushByte missing { s with thr := val }).bind fun s =>
      let s := missing.updateIrq
        { s with thrIpending := false, lsr := s.lsr &&& ~~~lsrThre &&& ~~~lsrTemt }
      if s.tsrRetry ≤ 0 then serialXmit missing backend fuel s else some s

/-- Turn the polling of the modem status lines on or off. -/
def pollModem (s : SerialState) : SerialState :=
  if has s.ier ierMsi then missing.updateMsl { s with pollMsl := 1 } else { s with pollMsl := 0 }

variable (val : BitVec 8) (s : SerialState)

/-- Register 1: the divider or the interrupts. -/
def writeIer : SerialState :=
  if has s.lcr lcrDlab then
    missing.updateParameters
      { s with divider := (s.divider &&& 0x00ff) ||| (val.setWidth 16 <<< 8) }
  else
    let changed := (s.ier ^^^ val) &&& 0x0f
    let s := { s with ier := val &&& 0x0f }
    let s := if has changed ierMsi && decide (s.pollMsl ≥ 0) then pollModem missing s else s
    let s := if has changed ierThri then
        { s with thrIpending := has s.ier ierThri && has s.lsr lsrThre }
      else s
    if changed ≠ 0 then missing.updateIrq s else s

/-- Both queues are flushed when they are turned on or off. -/
def flushIfToggled (val fcr : BitVec 8) : BitVec 8 :=
  if has (val ^^^ fcr) fcrFe then val ||| (fcrXfr ||| fcrRfr) else val

def clearReceiver : SerialState :=
  if has val fcrRfr then
    { s with lsr := s.lsr &&& ~~~(lsrDr ||| lsrBi), timeoutIpending := false, recvFifo := [] }
  else s

def clearTransmitter : SerialState :=
  if has val fcrXfr then
    { s with lsr := s.lsr ||| lsrThre, thrIpending := true, xmitFifo := [] }
  else s

/-- Register 2: the queues. -/
def writeFcr (val : BitVec 8) (s : SerialState) : SerialState :=
  let val := flushIfToggled val s.fcr
  missing.updateIrq
    (missing.writeFcr (clearTransmitter val (clearReceiver val s)) (val &&& 0xc9))

/-- Register 3: the line parameters. -/
def writeLcr : SerialState :=
  let s := missing.updateParameters { s with lcr := val }
  { s with lastBreakEnable := has (val >>> 6) 1 }

/-- `serial_ioport_write`. Every access has one byte, as `serial_io_ops` asks for. -/
def serialIoportWrite (backend : Backend) (fuel : Nat) (addr : BitVec 64)
    (val : BitVec 8) (s : SerialState) : Option SerialState :=
  match (addr &&& 7).toNat with
  | 1 => some (writeIer missing val s)
  | 2 => some (writeFcr missing val s)
  | 3 => some (writeLcr missing val s)
  | 4 => some { s with mcr := val &&& 0x1f }
  | 5 => some s
  | 6 => some s
  | 7 => some { s with scr := val }
  | _ => writeThr missing backend fuel val s

end StudyNotes.Serial
