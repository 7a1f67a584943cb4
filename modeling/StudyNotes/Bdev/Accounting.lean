/-
This file proves that the block device layer loses no I/O and completes none twice.

Every I/O that has been submitted lies in exactly one place, and the functions of
the layer carry it from one place to another. For the proof an I/O is taken out of
its place, is in hand while the function works on it, and is put into its next
place.
-/

import StudyNotes.Bdev.Io

namespace StudyNotes.Bdev

open Library Function

/-! ### Where an I/O occurs -/

/-- The places of I/Os, and the calls that belong to an I/O. -/
inductive Spot where
  | driver
  | nomemIo (moduleCh : Module)
  | queued (bdev : Device)
  | submitMessage (thread : Thread)
  | completeMessage (thread : Thread)
  /-- A call of `spdk_bdev_io_complete` that is handing other I/Os to the driver. -/
  | completing (thread : Thread)
  /-- The callback has been called. -/
  | completed
  /-- There was no callback. -/
  | freed
  /-- A call of `_spdk_bdev_io_submit`. -/
  | submitting (thread : Thread)
  /-- A call of the callback. -/
  | callback (thread : Thread)
  deriving DecidableEq

/-- The calls of the submission and of the callback do not hold the I/O. -/
def Spot.isPlace : Spot → Bool
  | .submitting _ | .callback _ => false
  | _ => true

/-- The callback of an I/O is called. -/
def Event.isCall (io : Io) : Event → Bool
  | .called other _ => other = io
  | .freed _ | .assertFailed => false

/-- How often an I/O occurs at a spot. -/
def occurs (s : Layer) (log : List Event) (io : Io) : Spot → Nat
  | .driver => s.driver.count io
  | .nomemIo moduleCh => (s.nomemIo moduleCh).count io
  | .queued bdev => (s.queued bdev).count io
  | .submitMessage thread => (s.messages thread).count (.submit io)
  | .completeMessage thread => (s.messages thread).count (.complete io)
  | .completing thread => (s.stack thread).count (.completing io)
  | .completed => log.countP (Event.isCall io)
  | .freed => log.count (.freed io)
  | .submitting thread => (s.stack thread).count (.submitting io)
  | .callback thread => (s.stack thread).count (.callback io)

/-- One more occurrence of an I/O at a spot. -/
def occurrence (io : Io) (spot : Spot) : Io → Spot → Nat := fun other otherSpot =>
  if io = other ∧ spot = otherSpot then 1 else 0

/-- Occurrences of two kinds together. -/
def add (counts more : Io → Spot → Nat) : Io → Spot → Nat := fun io spot =>
  counts io spot + more io spot

/-- The I/O that a call belongs to occurs once more. -/
def Frame.occurrence (thread : Thread) : Frame → Io → Spot → Nat
  | .submitting io => Bdev.occurrence io (.submitting thread)
  | .completing io => Bdev.occurrence io (.completing thread)
  | .callback io => Bdev.occurrence io (.callback thread)
  | .retry _ | .qosSubmit _ | .driver => fun _ _ => 0

/-- The I/O of a message occurs once more. -/
def Message.occurrence (thread : Thread) : Message → Io → Spot → Nat
  | .submit io => Bdev.occurrence io (.submitMessage thread)
  | .complete io => Bdev.occurrence io (.completeMessage thread)

variable {frame : Frame}

section Occurrences

variable {s : Layer} {log : List Event} {thread : Thread} {io : Io} {moduleCh : Module}
  {message : Message}

theorem occurs_push (frame : Frame) :
    occurs (s.push thread frame) log = add (occurs s log) (frame.occurrence thread) := by
  funext other spot
  cases spot with
  | driver | nomemIo | queued | submitMessage | completeMessage | completed | freed =>
    cases frame <;> simp [occurs, Layer.push, add, Frame.occurrence, occurrence]
  | completing place | submitting place | callback place =>
    by_cases same : thread = place
    · subst same
      cases frame <;> simp [occurs, Layer.push, add, Frame.occurrence, occurrence, List.count_cons]
    · cases frame <;>
        simp [occurs, Layer.push, add, Frame.occurrence, occurrence, same, Ne.symm same]

theorem occurs_pop {rest : List Frame} (isTop : s.stack thread = frame :: rest) :
    occurs s log = add (occurs (s.pop thread) log) (frame.occurrence thread) := by
  have isPushed : (s.pop thread).push thread frame = s := by
    simp only [Layer.pop, Layer.push, update_self, update_idem, isTop, List.tail_cons]
    rw [← isTop, update_eq_self]
  rw [← occurs_push, isPushed]

/-- The messages to a thread get more by one. -/
theorem occurs_setMessages (messages : List Message)
    (longer : ∀ other, messages.count other = (s.messages thread).count other +
      if message = other then 1 else 0) :
    occurs { s with messages := update s.messages thread messages } log =
      add (occurs s log) (message.occurrence thread) := by
  funext other spot
  cases spot with
  | driver | nomemIo | queued | completing | submitting | callback | completed | freed =>
    cases message <;> simp [occurs, add, Message.occurrence, occurrence]
  | submitMessage place | completeMessage place =>
    by_cases same : thread = place
    · subst same
      cases message <;> simp [occurs, add, Message.occurrence, occurrence, longer]
    · cases message <;> simp [occurs, add, Message.occurrence, occurrence, same, Ne.symm same]

theorem occurs_send (message : Message) :
    occurs (s.send thread message) log = add (occurs s log) (message.occurrence thread) := by
  refine occurs_setMessages _ fun other => ?_
  simp [List.count_append, List.count_cons]

theorem occurs_receive {rest : List Message} (isNext : s.messages thread = message :: rest) :
    occurs s log = add (occurs (s.receive thread) log) (message.occurrence thread) := by
  rw [← occurs_setMessages (message :: rest)]
  · simp only [Layer.receive, update_idem]
    rw [← isNext, update_eq_self]
  · intro other
    simp [Layer.receive, isNext, List.count_cons]

/-- A list of I/Os waiting for the driver gets longer by one. -/
theorem occurs_setNomemIo (ios : List Io)
    (longer : ∀ other, ios.count other = (s.nomemIo moduleCh).count other +
      if io = other then 1 else 0) :
    occurs (s.setNomemIo moduleCh ios) log =
      add (occurs s log) (occurrence io (.nomemIo moduleCh)) := by
  funext other spot
  cases spot with
  | nomemIo place =>
    by_cases same : moduleCh = place
    · subst same
      simp [occurs, Layer.setNomemIo, add, occurrence, longer]
    · simp [occurs, Layer.setNomemIo, add, occurrence, same, Ne.symm same]
  | _ => simp [occurs, Layer.setNomemIo, add, occurrence]

theorem occurs_setQueued {bdev : Device} (ios : List Io)
    (longer : ∀ other, ios.count other = (s.queued bdev).count other +
      if io = other then 1 else 0) :
    occurs (s.setQueued bdev ios) log = add (occurs s log) (occurrence io (.queued bdev)) := by
  funext other spot
  cases spot with
  | queued place =>
    by_cases same : bdev = place
    · subst same
      simp [occurs, Layer.setQueued, add, occurrence, longer]
    · simp [occurs, Layer.setQueued, add, occurrence, same, Ne.symm same]
  | _ => simp [occurs, Layer.setQueued, add, occurrence]

theorem occurs_takeNomemIo {rest : List Io} (isFirst : s.nomemIo moduleCh = io :: rest) :
    occurs s log =
      add (occurs (s.setNomemIo moduleCh rest) log) (occurrence io (.nomemIo moduleCh)) := by
  have isPut : (s.setNomemIo moduleCh rest).setNomemIo moduleCh (io :: rest) = s := by
    simp only [Layer.setNomemIo, update_idem]
    rw [← isFirst, update_eq_self]
  rw [← occurs_setNomemIo (io :: rest), isPut]
  intro other
  simp [Layer.setNomemIo, List.count_cons]

theorem occurs_takeQueued {bdev : Device} {rest : List Io} (isFirst : s.queued bdev = io :: rest) :
    occurs s log = add (occurs (s.setQueued bdev rest) log) (occurrence io (.queued bdev)) := by
  have isPut : (s.setQueued bdev rest).setQueued bdev (io :: rest) = s := by
    simp only [Layer.setQueued, update_idem]
    rw [← isFirst, update_eq_self]
  rw [← occurs_setQueued (io :: rest), isPut]
  intro other
  simp [Layer.setQueued, List.count_cons]

theorem occurs_driver_cons :
    occurs { s with driver := io :: s.driver } log =
      add (occurs s log) (occurrence io .driver) := by
  funext other spot
  cases spot <;> simp [occurs, add, occurrence, List.count_cons]

theorem occurs_driver_erase (isHeld : io ∈ s.driver) :
    occurs s log =
      add (occurs { s with driver := s.driver.erase io } log) (occurrence io .driver) := by
  funext other spot
  cases spot with
  | driver =>
    have perm := (List.perm_cons_erase isHeld).count_eq other
    simpa [occurs, add, occurrence, List.count_cons] using perm
  | _ => simp [occurs, add, occurrence]

theorem occurs_called (success : Bool) :
    occurs s (log ++ [.called io success]) = add (occurs s log) (occurrence io .completed) := by
  funext other spot
  cases spot <;> simp [occurs, add, occurrence, Event.isCall, List.count_append]

theorem occurs_freed :
    occurs s (log ++ [.freed io]) = add (occurs s log) (occurrence io .freed) := by
  funext other spot
  cases spot <;>
    simp [occurs, add, occurrence, Event.isCall, List.count_append, List.count_cons]

end Occurrences

/-! ### The books -/

section Books

/-- There is one call of the submission while the I/O says so. -/
inductive Calls (frames : Thread → Nat) (record : BdevIo) : Prop where
  | inside (isInside : record.inSubmitRequest = true) (thread : Thread)
      (one : frames = fun other => if thread = other then 1 else 0)
  | outside (isOutside : record.inSubmitRequest = false) (zero : frames = fun _ => 0)

/-- What the place of an I/O says about it. -/
def Fits (layout : Layout) (record : BdevIo) : Spot → Prop
  | .driver | .nomemIo _ | .queued _ => True
  | .submitMessage thread =>
    record.inSubmitRequest = false ∧ layout.thread record.ch = thread
  | .completed => record.inSubmitRequest = false
  | .freed => record.cb = false
  | .completeMessage thread | .completing thread => layout.thread record.ch = thread
  | .submitting _ | .callback _ => False

/-- An I/O lies in its place and nowhere else. -/
structure Sound (layout : Layout) (counts : Spot → Nat) (record : BdevIo) (place : Option Spot) :
    Prop where
  lies : ∀ spot, spot.isPlace → counts spot = if place = some spot then 1 else 0
  fits : ∀ spot, place = some spot → Fits layout record spot
  submitting : Calls (fun thread => counts (.submitting thread)) record
  callback : ∀ thread, counts (.callback thread) ≠ 0 → place = some .completed

/-- The I/O that is in hand, if any, lies nowhere, and all others that have been submitted lie
somewhere. -/
structure Books (layout : Layout) (s : Layer) (log : List Event) (hand : Option Io)
    (place : Io → Option Spot) : Prop where
  sound : ∀ io, Sound layout (occurs s log io) (s.io io) (place io)
  fresh : ∀ io, io ∉ s.submitted → ∀ spot, occurs s log io spot = 0
  submitted : ∀ io, hand = some io → io ∈ s.submitted
  placed : ∀ io ∈ s.submitted, place io = none ↔ hand = some io
  asserted : .assertFailed ∉ log

variable {layout : Layout} {s next : Layer} {log later : List Event} {io : Io} {spot : Spot}
  {place : Io → Option Spot} {hand hand' : Option Io} {counts : Spot → Nat}
  {record record' : BdevIo} {rest : List Frame}

/-- What happens to one I/O leaves the books of the others alone. -/
theorem Books.update (books : Books layout s log hand place) (isSubmitted : io ∈ s.submitted)
    (place' : Option Spot)
    (inHand : hand = none ∨ hand = some io) (inHand' : hand' = none ∨ hand' = some io)
    (others : ∀ other ≠ io, occurs next later other = occurs s log other)
    (records : ∀ other ≠ io, next.io other = s.io other)
    (submitted_eq : next.submitted = s.submitted) (asserted : .assertFailed ∉ later)
    (sound : Sound layout (occurs next later io) (next.io io) place')
    (placed : place' = none ↔ hand' = some io) :
    Books layout next later hand' (update place io place') := by
  refine ⟨fun other => ?_, fun other isFresh => ?_, fun other isHand => ?_,
    fun other member => ?_, asserted⟩
  · by_cases same : other = io
    · rw [same, update_self]
      exact sound
    · rw [others other same, records other same, update_of_ne same]
      exact books.sound other
  · rw [submitted_eq] at isFresh
    rw [others other fun same => isFresh (same ▸ isSubmitted)]
    exact books.fresh other isFresh
  · rw [submitted_eq]
    rcases inHand' with isNone | isSome
    · cases isNone.symm.trans isHand
    · cases isSome.symm.trans isHand
      exact isSubmitted
  · by_cases same : other = io
    · rw [same, update_self]
      exact placed
    · rw [submitted_eq] at member
      rw [update_of_ne same, books.placed other member]
      have differs : some io ≠ some other := fun same' => same (Option.some.inj same').symm
      rcases inHand with rfl | rfl <;> rcases inHand' with rfl | rfl <;> simp [differs]

/-! ### What happens to one I/O -/

/-- One more occurrence at a spot. -/
def more (counts : Spot → Nat) (spot : Spot) : Spot → Nat := fun other =>
  counts other + if spot = other then 1 else 0

theorem more_of_ne {other : Spot} (differs : spot ≠ other) :
    more counts spot other = counts other := by
  rw [more, if_neg differs, Nat.add_zero]

theorem Fits.isPlace (fits : Fits layout record spot) : spot.isPlace := by
  cases spot <;> first | rfl | cases fits

theorem Spot.ne_of_isPlace {frame : Spot} (isPlace : spot.isPlace)
    (noPlace : frame.isPlace = false) : spot ≠ frame := by
  rintro rfl
  cases isPlace.symm.trans noPlace

theorem more_frame {frame : Spot} (noPlace : frame.isPlace = false) (isPlace : spot.isPlace) :
    more counts frame spot = counts spot :=
  more_of_ne (Spot.ne_of_isPlace isPlace noPlace).symm

/-- A place is no call. -/
theorem more_submitting (isPlace : spot.isPlace) :
    (fun thread => more counts spot (.submitting thread)) =
      fun thread => counts (.submitting thread) :=
  funext fun _ => more_of_ne (Spot.ne_of_isPlace isPlace rfl)

theorem Sound.put (sound : Sound layout counts record none) (fits : Fits layout record spot) :
    Sound layout (more counts spot) record (some spot) := by
  refine ⟨fun other isOther => ?_, fun other isSpot => ?_, ?_, fun thread called => ?_⟩
  · rw [more, sound.lies other isOther]
    simp
  · cases isSpot
    exact fits
  · rw [more_submitting fits.isPlace]
    exact sound.submitting
  · rw [more_of_ne (Spot.ne_of_isPlace fits.isPlace rfl)] at called
    cases sound.callback thread called

theorem Sound.take (sound : Sound layout (more counts spot) record (some spot))
    (pending : spot ≠ .completed) : Sound layout counts record none := by
  have isPlace := (sound.fits spot rfl).isPlace
  refine ⟨fun other isOther => ?_, fun other isSpot => ?_, ?_, fun thread called => ?_⟩
  · have isOne := sound.lies other isOther
    rw [more] at isOne
    by_cases same : spot = other
    · rw [if_pos same, if_pos (congrArg some same)] at isOne
      rw [if_neg (by simp)]
      exact Nat.succ.inj isOne
    · rw [if_neg same, if_neg fun same' => same (Option.some.inj same')] at isOne
      rw [if_neg (by simp)]
      exact isOne
  · cases isSpot
  · rw [← more_submitting isPlace]
    exact sound.submitting
  · refine absurd (Option.some.inj (sound.callback thread ?_)) pending
    rw [more_of_ne (Spot.ne_of_isPlace isPlace rfl)]
    exact called

variable {thread : Thread} {record : BdevIo}

/-- The callback of a completed I/O is called, or returns. -/
theorem Sound.callback_iff :
    Sound layout (more counts (.callback thread)) record (some .completed) ↔
      Sound layout counts record (some .completed) := by
  have isSame : (fun other => more counts (.callback thread) (.submitting other)) =
      fun other => counts (.submitting other) := funext fun _ => more_of_ne Spot.noConfusion
  constructor
  · intro sound
    refine ⟨fun other isOther => ?_, sound.fits, isSame ▸ sound.submitting, fun _ _ => rfl⟩
    rw [← sound.lies other isOther, more_frame rfl isOther]
  · intro sound
    refine ⟨fun other isOther => ?_, sound.fits, isSame.symm ▸ sound.submitting, fun _ _ => rfl⟩
    rw [← sound.lies other isOther, more_frame rfl isOther]

/-- An I/O in hand comes into a call of the submission. -/
theorem Sound.enter (sound : Sound layout counts record none)
    (isOutside : record.inSubmitRequest = false) (isInside : record'.inSubmitRequest = true)
    (thread : Thread) : Sound layout (more counts (.submitting thread)) record' none := by
  refine ⟨fun other isOther => ?_, fun _ isSpot => ?_, .inside isInside thread ?_,
    fun other called => ?_⟩
  · rw [← sound.lies other isOther, more_frame rfl isOther]
  · cases isSpot
  · cases sound.submitting with
    | inside isInside' => cases isOutside.symm.trans isInside'
    | outside _ zero =>
      funext other
      rw [more, congrFun zero other]
      simp
  · rw [more_of_ne (by simp)] at called
    exact sound.callback other called

theorem Fits.leave (fits : Fits layout record spot) :
    Fits layout { record with inSubmitRequest := false } spot := by
  cases spot <;> first | exact fits | exact ⟨rfl, fits.2⟩ | rfl

/-- The call of the submission ends. -/
theorem Sound.leave {place : Option Spot}
    (sound : Sound layout (more counts (.submitting thread)) record place) :
    Sound layout counts { record with inSubmitRequest := false } place := by
  refine ⟨fun other isOther => ?_, fun spot isSpot => (sound.fits spot isSpot).leave,
    .outside rfl ?_, fun other called => ?_⟩
  · rw [← sound.lies other isOther, more_frame rfl isOther]
  · have isMore : ∀ other, more counts (.submitting thread) (.submitting other) =
        counts (.submitting other) + if thread = other then 1 else 0 := by
      intro other
      simp [more]
    funext other
    cases sound.submitting with
    | inside _ place one =>
      have here := congrFun one thread
      have there := congrFun one other
      grind
    | outside _ zero =>
      have here := congrFun zero thread
      rw [isMore, if_pos rfl] at here
      cases here
  · refine sound.callback other ?_
    rw [more_of_ne (by simp)]
    exact called

/-- An I/O in hand is changed. -/
theorem Sound.change (sound : Sound layout counts record none)
    (same : record'.inSubmitRequest = record.inSubmitRequest) :
    Sound layout counts record' none := by
  refine ⟨sound.lies, fun spot isSpot => ?_, ?_, sound.callback⟩
  · cases isSpot
  · cases sound.submitting with
    | inside isInside thread one => exact .inside (same.trans isInside) thread one
    | outside isOutside zero => exact .outside (same.trans isOutside) zero

/-- An I/O that occurs nowhere is in hand. -/
theorem Sound.fresh (isZero : ∀ spot, counts spot = 0)
    (isOutside : record.inSubmitRequest = false) : Sound layout counts record none := by
  refine ⟨fun spot _ => ?_, fun _ isSpot => ?_, .outside isOutside ?_, fun thread called => ?_⟩
  · rw [if_neg (Option.some_ne_none spot).symm]
    exact isZero spot
  · cases isSpot
  · exact funext fun thread => isZero (.submitting thread)
  · exact absurd (isZero (.callback thread)) called

/-! ### What happens to the books -/

/-- The books are in order while an I/O is in hand, or none. -/
def Kept (layout : Layout) (s : Layer) (log : List Event) (hand : Option Io) : Prop :=
  ∃ place, Books layout s log hand place

theorem add_occurrence_of_ne {other : Io} (differs : other ≠ io) (counts : Io → Spot → Nat) :
    add counts (occurrence io spot) other = counts other := by
  funext otherSpot
  simp [add, occurrence, differs.symm]

theorem add_occurrence_self (counts : Io → Spot → Nat) :
    add counts (occurrence io spot) io = more (counts io) spot := by
  funext other
  simp [add, occurrence, more]

theorem Books.submitted_of_more (books : Books layout s log hand place)
    (isMore : occurs s log io = more counts spot) : io ∈ s.submitted := by
  by_contra isFresh
  have isZero := books.fresh io isFresh spot
  rw [isMore, more, if_pos rfl] at isZero
  cases isZero

theorem Books.eq_none (books : Books layout s log (some io) place) : place io = none :=
  (books.placed io (books.submitted io rfl)).mpr rfl

theorem Kept.asserted (kept : Kept layout s log hand) : .assertFailed ∉ log := by
  obtain ⟨_, books⟩ := kept
  exact books.asserted

theorem Kept.put (kept : Kept layout s log (some io))
    (isPut : occurs next later = add (occurs s log) (occurrence io spot))
    (records : next.io = s.io) (submitted_eq : next.submitted = s.submitted)
    (asserted : .assertFailed ∉ later) (fits : Fits layout (s.io io) spot) :
    Kept layout next later none := by
  obtain ⟨place, books⟩ := kept
  refine ⟨_, books.update (books.submitted io rfl) (some spot) (.inr rfl) (.inl rfl)
    (fun other differs => ?_) (fun other _ => congrFun records other) submitted_eq asserted ?_ ?_⟩
  · rw [isPut, add_occurrence_of_ne differs]
  · rw [isPut, records, add_occurrence_self]
    exact (books.eq_none ▸ books.sound io).put fits
  · simp

theorem Kept.take (kept : Kept layout s log none)
    (isTaken : occurs s log = add (occurs next log) (occurrence io spot))
    (records : next.io = s.io) (submitted_eq : next.submitted = s.submitted)
    (isPlace : spot.isPlace) (pending : spot ≠ .completed) :
    Fits layout (s.io io) spot ∧ Kept layout next log (some io) := by
  obtain ⟨place, books⟩ := kept
  have isMore : occurs s log io = more (occurs next log io) spot := by
    rw [isTaken, add_occurrence_self]
  have sound := books.sound io
  rw [isMore] at sound
  have isSome : place io = some spot := by
    have isOne := sound.lies spot isPlace
    rw [more, if_pos rfl] at isOne
    by_contra differs
    rw [if_neg differs] at isOne
    cases isOne
  rw [isSome] at sound
  refine ⟨sound.fits spot rfl, _, books.update (books.submitted_of_more isMore) none (.inl rfl)
    (.inr rfl) (fun other differs => ?_) (fun other _ => congrFun records other) submitted_eq
    books.asserted ?_ ?_⟩
  · rw [isTaken, add_occurrence_of_ne differs]
  · rw [records]
    exact sound.take pending
  · simp

/-- Nothing happens to the I/Os. -/
theorem Kept.same (kept : Kept layout s log hand) (isSame : occurs next log = occurs s log)
    (records : next.io = s.io) (submitted_eq : next.submitted = s.submitted) :
    Kept layout next log hand := by
  obtain ⟨place, books⟩ := kept
  refine ⟨place, ?_, ?_, ?_, ?_, books.asserted⟩
  · rw [isSame, records]
    exact books.sound
  · rw [isSame, submitted_eq]
    exact books.fresh
  · rw [submitted_eq]
    exact books.submitted
  · rw [submitted_eq]
    exact books.placed

theorem Layer.setIo_io_self (record : BdevIo) : (s.setIo io record).io io = record :=
  update_self ..

/-- A call that does not belong to an I/O begins. -/
theorem Kept.push (kept : Kept layout s log hand) (frame : Frame)
    (isNone : frame.occurrence thread = fun _ _ => 0) :
    Kept layout (s.push thread frame) log hand := by
  refine kept.same ?_ rfl rfl
  rw [occurs_push, isNone]
  rfl

/-- A call that does not belong to an I/O returns. -/
theorem Kept.pop (kept : Kept layout s log hand) (isTop : s.stack thread = frame :: rest)
    (isNone : frame.occurrence thread = fun _ _ => 0) : Kept layout (s.pop thread) log hand := by
  refine kept.same ?_ rfl rfl
  rw [occurs_pop isTop, isNone]
  rfl

/-- The I/O in hand is changed. -/
theorem Kept.change (kept : Kept layout s log (some io))
    (same : record.inSubmitRequest = (s.io io).inSubmitRequest) :
    Kept layout (s.setIo io record) log (some io) := by
  obtain ⟨place, books⟩ := kept
  refine ⟨_, books.update (books.submitted io rfl) none (.inr rfl) (.inr rfl) (fun other _ => rfl)
    (fun other differs => update_of_ne differs _ _) rfl books.asserted ?_ (by simp)⟩
  rw [Layer.setIo_io_self]
  exact (books.eq_none ▸ books.sound io).change same

/-- The I/O in hand comes into a call of the submission. -/
theorem Kept.enter (kept : Kept layout s log (some io))
    (isOutside : (s.io io).inSubmitRequest = false) (isInside : record.inSubmitRequest = true)
    (thread : Thread) :
    Kept layout ((s.setIo io record).push thread (.submitting io)) log (some io) := by
  obtain ⟨place, books⟩ := kept
  have isPushed : occurs ((s.setIo io record).push thread (.submitting io)) log =
      add (occurs s log) (occurrence io (.submitting thread)) := occurs_push _
  refine ⟨_, books.update (books.submitted io rfl) none (.inr rfl) (.inr rfl)
    (fun other differs => ?_) (fun other differs => update_of_ne differs _ _) rfl
    books.asserted ?_ (by simp)⟩
  · rw [isPushed, add_occurrence_of_ne differs]
  · have isRecord : ((s.setIo io record).push thread (.submitting io)).io io = record :=
      update_self ..
    rw [isPushed, isRecord, add_occurrence_self]
    exact (books.eq_none ▸ books.sound io).enter isOutside isInside thread

/-- A call of the submission returns. -/
theorem Kept.leave (kept : Kept layout s log none)
    (isTop : s.stack thread = .submitting io :: rest) :
    Kept layout ((s.setIo io { s.io io with inSubmitRequest := false }).pop thread) log none := by
  obtain ⟨place, books⟩ := kept
  have isPopped : occurs s log = add (occurs (s.pop thread) log)
      (occurrence io (.submitting thread)) := occurs_pop isTop
  have isMore : occurs s log io = more (occurs (s.pop thread) log io) (.submitting thread) := by
    rw [isPopped, add_occurrence_self]
  have isSubmitted := books.submitted_of_more isMore
  refine ⟨_, books.update isSubmitted (place io) (.inl rfl) (.inl rfl) (fun other differs => ?_)
    (fun other differs => update_of_ne differs _ _) rfl books.asserted ?_
    (books.placed io isSubmitted)⟩
  · rw [isPopped, add_occurrence_of_ne differs]
    rfl
  · have isRecord : ((s.setIo io { s.io io with inSubmitRequest := false }).pop thread).io io =
      { s.io io with inSubmitRequest := false } := update_self ..
    rw [isRecord]
    exact (isMore ▸ books.sound io).leave

/-- The I/O in hand is completed, and its callback is called. -/
theorem Kept.call (kept : Kept layout s log (some io))
    (isOutside : (s.io io).inSubmitRequest = false) (thread : Thread) (success : Bool) :
    Kept layout (s.push thread (.callback io)) (log ++ [.called io success]) none := by
  obtain ⟨place, books⟩ := kept
  have isPushed : occurs (s.push thread (.callback io)) (log ++ [.called io success]) =
      add (add (occurs s log) (occurrence io .completed)) (occurrence io (.callback thread)) := by
    rw [← occurs_called success]
    exact occurs_push _
  refine ⟨_, books.update (books.submitted io rfl) (some .completed) (.inr rfl) (.inl rfl)
    (fun other differs => ?_) (fun _ _ => rfl) rfl ?_ ?_ (by simp)⟩
  · rw [isPushed, add_occurrence_of_ne differs, add_occurrence_of_ne differs]
  · simpa using books.asserted
  · rw [isPushed, add_occurrence_self, add_occurrence_self]
    exact Sound.callback_iff.mpr ((books.eq_none ▸ books.sound io).put isOutside)

/-- The callback of an I/O returns. -/
theorem Kept.returns (kept : Kept layout s log none)
    (isTop : s.stack thread = .callback io :: rest) : Kept layout (s.pop thread) log none := by
  obtain ⟨place, books⟩ := kept
  have isPopped : occurs s log = add (occurs (s.pop thread) log)
      (occurrence io (.callback thread)) := occurs_pop isTop
  have isMore : occurs s log io = more (occurs (s.pop thread) log io) (.callback thread) := by
    rw [isPopped, add_occurrence_self]
  have sound := isMore ▸ books.sound io
  have isSome : place io = some .completed :=
    sound.callback thread (by rw [more, if_pos rfl]; exact Nat.succ_ne_zero _)
  rw [isSome] at sound
  refine ⟨_, books.update (books.submitted_of_more isMore) (some .completed) (.inl rfl) (.inl rfl)
    (fun other differs => ?_) (fun _ _ => rfl) rfl books.asserted (Sound.callback_iff.mp sound)
    (by simp)⟩
  rw [isPopped, add_occurrence_of_ne differs]

/-- A new I/O is in hand. -/
theorem Kept.begin (kept : Kept layout s log none) (isNew : io ∉ s.submitted)
    (isOutside : record.inSubmitRequest = false) :
    Kept layout (({ s with submitted := io :: s.submitted }).setIo io record) log (some io) := by
  obtain ⟨place, books⟩ := kept
  refine ⟨update place io none, fun other => ?_, fun other isFresh spot => ?_, ?_,
    fun other member => ?_, books.asserted⟩
  · by_cases same : other = io
    · subst same
      rw [update_self, Layer.setIo_io_self]
      exact .fresh (books.fresh other isNew) isOutside
    · rw [update_of_ne same]
      have isRecord : (({ s with submitted := io :: s.submitted }).setIo io record).io other =
          s.io other := update_of_ne same _ _
      rw [isRecord]
      exact books.sound other
  · exact books.fresh other (fun member => isFresh (List.mem_cons_of_mem _ member)) spot
  · rintro _ ⟨⟩
    exact List.mem_cons_self
  · by_cases same : other = io
    · rw [same, update_self]
      simp
    · rw [update_of_ne same, books.placed other (List.mem_of_ne_of_mem same member)]
      simp [Ne.symm same]

end Books

end StudyNotes.Bdev
