/-
This file proves when the device acknowledges every command of the control queue
by what the command itself asks for.

The status that is written for an element is kept in a variable outside the
loop, and a class without a handler does not set it. So such an element gets the
status of the one before it, which is wrong exactly if that one was accepted.
-/

import StudyNotes.NetDevice.Control

namespace StudyNotes.NetDevice

/-! ### One element -/

/-- The classes that have a handler. -/
def handledClasses : List UInt8 :=
  [ctrlRx, ctrlMac, ctrlVlan, ctrlAnnounce, ctrlMq, ctrlGuestOffloads]

/-- The class of the command is one that is handled. -/
def CtrlElem.isHandled (elem : CtrlElem) : Bool := elem.outSg.headD 0 ∈ handledClasses

/-- The device after a command. -/
def afterCommand (n : VirtIONet) (elem : CtrlElem) : VirtIONet := (ctrlCommand n .err elem).1

/-- What a command asks for: the status of its handler, or an error if it has none. -/
def ackOf (n : VirtIONet) (elem : CtrlElem) : Ack :=
  match elem.outSg with
  | cls :: cmd :: iov =>
    match dispatch n cls cmd iov with
    | some (_, ack) => ack
    | none => .err
  | _ => .err

variable (n : VirtIONet)

theorem dispatch_isSome (cls cmd : UInt8) (iov : List UInt8) :
    (dispatch n cls cmd iov).isSome = decide (cls ∈ handledClasses) := by
  rw [dispatch]
  simp only [handledClasses, List.mem_cons, List.not_mem_nil, or_false]
  split
  · next isRx => simp [isRx]
  split
  · next isMac => simp [isMac]
  split
  · next isVlan => simp [isVlan]
  split
  · next isAnnounce => simp [isAnnounce]
  split
  · next isMq => simp [isMq]
  split
  · next isOffloads => simp [isOffloads]
  · next h₁ h₂ h₃ h₄ h₅ h₆ => simp [h₁, h₂, h₃, h₄, h₅, h₆]

variable {elem : CtrlElem}

theorem ctrlCommand_of_handled (status : Ack) (headers : elem.hasHeaders = true)
    (handled : elem.isHandled = true) :
    ctrlCommand n status elem = (afterCommand n elem, ackOf n elem) := by
  obtain ⟨outSg, inSize⟩ := elem
  match outSg with
  | [] | [_] => simp [CtrlElem.hasHeaders] at headers
  | cls :: cmd :: iov =>
    have isSome := (dispatch_isSome n cls cmd iov).trans handled
    obtain ⟨⟨next, ack⟩, isResult⟩ := Option.isSome_iff_exists.mp isSome
    simp only [ctrlCommand, afterCommand, ackOf, isResult, Option.getD_some]

/-- A class without a handler changes neither the device nor the status. -/
theorem ctrlCommand_of_not_handled (status : Ack) (headers : elem.hasHeaders = true)
    (unhandled : elem.isHandled = false) :
    ctrlCommand n status elem = (afterCommand n elem, status) ∧ ackOf n elem = .err := by
  obtain ⟨outSg, inSize⟩ := elem
  match outSg with
  | [] | [_] => simp [CtrlElem.hasHeaders] at headers
  | cls :: cmd :: iov =>
    have isNone := Option.isSome_eq_false_iff.mp ((dispatch_isSome n cls cmd iov).trans unhandled)
    rw [Option.isNone_iff_eq_none] at isNone
    simp only [ctrlCommand, afterCommand, ackOf, isNone, Option.getD_none, and_self]

/-! ### A batch -/

/-- The statuses that the elements of a batch ask for, up to one that ends the device. -/
def acksOf : VirtIONet → List CtrlElem → List Ack
  | _, [] => []
  | n, elem :: rest =>
    if elem.hasHeaders then ackOf n elem :: acksOf (afterCommand n elem) rest else []

/-- The next element that is taken, if there is one, has a handler. -/
def HeadHandled (elems : List CtrlElem) : Prop :=
  ∀ elem ∈ (elems.takeWhile CtrlElem.hasHeaders).head?, elem.isHandled = true

/-- No element that the device accepts is followed by one of a class without a handler. -/
def Unmixed (n : VirtIONet) (elems : List CtrlElem) : Prop :=
  ∀ before elem next rest,
    elems.takeWhile CtrlElem.hasHeaders = before ++ elem :: next :: rest →
    ackOf (before.foldl afterCommand n) elem = .ok → next.isHandled = true

theorem headHandled_nil : HeadHandled [] := fun _ member => by simp at member

theorem unmixed_nil : Unmixed n [] := fun _ _ _ _ isSplit => by simp at isSplit

theorem unmixed_cons (rest : List CtrlElem) (headers : elem.hasHeaders = true) :
    Unmixed n (elem :: rest) ↔
      (ackOf n elem = .ok → HeadHandled rest) ∧ Unmixed (afterCommand n elem) rest := by
  have taken : (elem :: rest).takeWhile CtrlElem.hasHeaders =
      elem :: rest.takeWhile CtrlElem.hasHeaders := List.takeWhile_cons_of_pos headers
  constructor
  · intro unmixed
    refine ⟨fun accepted next isNext => ?_, fun before first next later isSplit => ?_⟩
    · obtain ⟨later, isList⟩ := List.head?_eq_some_iff.mp isNext
      exact unmixed [] elem next later (by rw [taken, isList]; rfl) accepted
    · exact unmixed (elem :: before) first next later (by rw [taken, isSplit]; rfl)
  · rintro ⟨headHandled, unmixed⟩ before first next later isSplit accepted
    rw [taken] at isSplit
    cases before with
    | nil =>
      obtain ⟨rfl, isRest⟩ := List.cons.inj isSplit
      exact headHandled accepted next (by rw [isRest]; rfl)
    | cons other before =>
      obtain ⟨rfl, isRest⟩ := List.cons.inj isSplit
      exact unmixed before first next later isRest accepted

/-- The loop writes what the elements ask for if the status it starts with does not leak. -/
theorem ctrlLoop_acks_iff (status : Ack) (elems : List CtrlElem) :
    (ctrlLoop n status elems).acks = acksOf n elems ↔
      (status = .ok → HeadHandled elems) ∧ Unmixed n elems := by
  induction elems generalizing n status with
  | nil => exact iff_of_true rfl ⟨fun _ => headHandled_nil, unmixed_nil n⟩
  | cons elem rest inductionHypothesis =>
    cases headers : elem.hasHeaders with
    | false =>
      refine iff_of_true (by simp [ctrlLoop, acksOf, headers])
        ⟨fun _ first member => ?_, fun before first next later isSplit => ?_⟩
      · rw [List.takeWhile_cons_of_neg (by simp [headers])] at member
        simp at member
      · rw [List.takeWhile_cons_of_neg (by simp [headers])] at isSplit
        simp at isSplit
    | true =>
      have headHandled : HeadHandled (elem :: rest) ↔ elem.isHandled = true := by
        simp [HeadHandled, List.takeWhile_cons_of_pos headers]
      rw [unmixed_cons n rest headers, headHandled, ctrlLoop, acksOf, if_pos headers,
        if_pos headers]
      cases handled : elem.isHandled with
      | true =>
        rw [ctrlCommand_of_handled n status headers handled]
        simp only [List.cons.injEq, true_and, implies_true, inductionHypothesis]
      | false =>
        obtain ⟨isCommand, asksError⟩ := ctrlCommand_of_not_handled n status headers handled
        rw [isCommand]
        -- the status stays, so it has to be the error that the element asks for
        cases status with
        | ok => simp [asksError]
        | err => simp [asksError, inductionHypothesis]

/--
Every element of a batch gets the status that its own command asks for, and an
error if its class has no handler, exactly if no element that the device accepts
is followed by one of a class without a handler.
-/
theorem handleCtrl_acks_iff (n : VirtIONet) (elems : List CtrlElem) :
    (handleCtrl n elems).acks = acksOf n elems ↔ Unmixed n elems := by
  rw [handleCtrl, ctrlLoop_acks_iff]
  exact and_iff_right fun never => absurd never (by decide)

/-- A command of a class that the device does not have, and then one that it has. -/
def orderedBatch : List CtrlElem :=
  [{ outSg := [0x20, 0], inSize := 1 }, promiscOff]

theorem handleCtrl_acks_orderedBatch :
    (handleCtrl booted orderedBatch).acks = acksOf booted orderedBatch := by
  refine (handleCtrl_acks_iff _ _).mpr ?_
  rw [orderedBatch, unmixed_cons _ _ rfl, unmixed_cons _ _ rfl]
  exact ⟨fun accepted => absurd accepted (by decide), fun _ => headHandled_nil, unmixed_nil _⟩

/-- Switch promiscuous mode off, and then a command of a class that the device does not have. -/
def mixedBatch : List CtrlElem :=
  [promiscOff, { outSg := [0x20, 0], inSize := 1 }]

/-- The second command is acknowledged although nothing handles it. -/
theorem mixedBatch_acks :
    (handleCtrl booted mixedBatch).acks = [.ok, .ok] ∧
      acksOf booted mixedBatch = [.ok, .err] := by
  decide +kernel

end StudyNotes.NetDevice
