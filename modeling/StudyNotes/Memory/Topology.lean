/-
This file models `address_space_update_topology`, which tells the listeners of
an address space how its flat view changes, and proves what the listeners hear.

Each of the two passes walks the old and the new view with one cursor each. On
ordered views the first pass names the old ranges that are gone and the second
one the new ranges, those that were there before apart from those that were
not. A listener that keeps the ranges it was told to add therefore holds the
current view after every update, and at no moment two ranges that overlap.
-/

import StudyNotes.Memory.Render
import Mathlib.Data.List.Nodup
import Mathlib.Data.List.Perm.Subperm

namespace StudyNotes.Memory

open Library

/-! ### The passes -/

/-- One call of the listeners, or of the delayed dirty log, for a range. -/
inductive Event where
  | regionDel (fr : FlatRange)
  | regionAdd (fr : FlatRange)
  | regionNop (fr : FlatRange)
  | logStart (fr : FlatRange) (oldMask newMask : BitVec 8)
  | logStop (fr : FlatRange) (oldMask newMask : BitVec 8)
  | delayLogAdd (fr : FlatRange) (oldMask : BitVec 8)
  deriving DecidableEq, Repr

/-- What the passes read besides the views: `delay_log()->delay`, whether the space is
`address_space_memory`, `DELAY_LOG_HWADDR`, and `int128_get64`. -/
structure LogSettings where
  delay : Bool
  isMemory : Bool
  delayLogHwaddr : BitVec 64
  int128Get64 : Int → BitVec 64

/-- The same piece of the same region at the same place, logging apart. -/
def flatrangeEqual (a b : FlatRange) : Bool :=
  a.mr = b.mr ∧ a.addr = b.addr ∧ a.offsetInRegion = b.offsetInRegion ∧
    a.romdMode = b.romdMode ∧ a.readonly = b.readonly

def LogSettings.delays (settings : LogSettings) (frnew : FlatRange) : Bool :=
  settings.delay && settings.isMemory &&
    settings.int128Get64 frnew.addr.start > settings.delayLogHwaddr

/-- The logging calls for a range of both views. -/
def logEvents (settings : LogSettings) (frold frnew : FlatRange) : List Event :=
  (if frnew.dirtyLogMask &&& ~~~frold.dirtyLogMask ≠ 0 then
    if settings.delays frnew then [Event.delayLogAdd frnew frold.dirtyLogMask]
    else [Event.logStart frnew frold.dirtyLogMask frnew.dirtyLogMask]
  else []) ++
  (if frold.dirtyLogMask &&& ~~~frnew.dirtyLogMask ≠ 0 then
    if settings.delays frnew then [Event.delayLogAdd frnew frold.dirtyLogMask]
    else [Event.logStop frnew frold.dirtyLogMask frnew.dirtyLogMask]
  else [])

/-- The first test of the loop: the old range is gone, or changed in place. -/
def inOldOnly (frold : FlatRange) : Option FlatRange → Bool
  | none => true
  | some frnew =>
    frold.addr.start < frnew.addr.start ∨
      (frold.addr.start = frnew.addr.start ∧ ¬ flatrangeEqual frold frnew)

/-- The loop of `address_space_update_topology_pass` from two cursors on. -/
def updateTopologyLoop (settings : LogSettings) (oldView newView : List FlatRange)
    (adding : Bool) (iold inew : Nat) : List Event :=
  match old : oldView[iold]?, new : newView[inew]? with
  | none, none => []
  | some frold, none =>
    (if adding then [] else [.regionDel frold]) ++
      updateTopologyLoop settings oldView newView adding (iold + 1) inew
  | some frold, some frnew =>
    if inOldOnly frold (some frnew) then
      (if adding then [] else [.regionDel frold]) ++
        updateTopologyLoop settings oldView newView adding (iold + 1) inew
    else if flatrangeEqual frold frnew then
      (if adding then .regionNop frnew :: logEvents settings frold frnew else []) ++
        updateTopologyLoop settings oldView newView adding (iold + 1) (inew + 1)
    else
      (if adding then [.regionAdd frnew] else []) ++
        updateTopologyLoop settings oldView newView adding iold (inew + 1)
  | none, some frnew =>
    (if adding then [.regionAdd frnew] else []) ++
      updateTopologyLoop settings oldView newView adding iold (inew + 1)
termination_by (oldView.length - iold) + (newView.length - inew)
decreasing_by
  all_goals grind

/-- A flat view as the passes get it. -/
structure FlatView where
  ranges : List FlatRange
  ordered : Ordered ranges

def FlatView.empty : FlatView := ⟨[], ordered_nil⟩

def addressSpaceUpdateTopologyPass (settings : LogSettings) (oldView newView : FlatView)
    (adding : Bool) : List Event :=
  updateTopologyLoop settings oldView.ranges newView.ranges adding 0 0

/-- The calls that `address_space_update_topology` makes for a new view. -/
def addressSpaceUpdateTopology (settings : LogSettings) (oldView newView : FlatView) : List Event :=
  addressSpaceUpdateTopologyPass settings oldView newView false ++
    addressSpaceUpdateTopologyPass settings oldView newView true

/-- The calls for one new view after the other. -/
def updateTopologies (settings : LogSettings) : FlatView → List FlatView → List Event
  | _, [] => []
  | view, newView :: rest =>
    addressSpaceUpdateTopology settings view newView ++ updateTopologies settings newView rest

/-! ### What a pass says -/

/-- What `flatrange_equal` compares. -/
structure RangeKey where
  mr : Nat
  offsetInRegion : BitVec 64
  addr : AddrRange
  romdMode : Bool
  readonly : Bool
  deriving DecidableEq, Repr

def FlatRange.key (fr : FlatRange) : RangeKey :=
  ⟨fr.mr, fr.offsetInRegion, fr.addr, fr.romdMode, fr.readonly⟩

theorem flatrangeEqual_iff (a b : FlatRange) : flatrangeEqual a b = true ↔ a.key = b.key := by
  simp only [flatrangeEqual, FlatRange.key, RangeKey.mk.injEq, decide_eq_true_eq]
  tauto

theorem flatrangeEqual_comm (a b : FlatRange) : flatrangeEqual a b = flatrangeEqual b a := by
  rw [Bool.eq_iff_iff, flatrangeEqual_iff, flatrangeEqual_iff, eq_comm]

theorem start_eq_of_flatrangeEqual {a b : FlatRange} (equal : flatrangeEqual a b = true) :
    a.addr.start = b.addr.start := by
  rw [flatrangeEqual_iff] at equal
  exact congrArg (fun key : RangeKey => key.addr.start) equal

/-- The ranges of the old view that are gone. -/
def departures (old new : List FlatRange) : List FlatRange :=
  old.filter fun frold => !new.any (flatrangeEqual frold)

/-- The calls of the second pass for one new range. -/
def arrival (settings : LogSettings) (old : List FlatRange) (frnew : FlatRange) : List Event :=
  match old.find? (flatrangeEqual · frnew) with
  | some frold => .regionNop frnew :: logEvents settings frold frnew
  | none => [.regionAdd frnew]

/-- What a pass says of two lists of ranges. -/
def passEvents (settings : LogSettings) (adding : Bool) (old new : List FlatRange) : List Event :=
  if adding then new.flatMap (arrival settings old)
  else (departures old new).map .regionDel

variable (settings : LogSettings) {frnew : FlatRange} {event : Event} {old new : List FlatRange}

theorem arrival_cons_of_ne (frold : FlatRange) (old : List FlatRange)
    (differ : ¬ flatrangeEqual frold frnew) :
    arrival settings (frold :: old) frnew = arrival settings old frnew := by
  have skipped : (frold :: old).find? (flatrangeEqual · frnew) =
      old.find? (flatrangeEqual · frnew) := by
    simp [differ]
  rw [arrival, arrival, skipped]

theorem passEvents_old (adding : Bool) (frold : FlatRange)
    (gone : ∀ frnew ∈ new, ¬ flatrangeEqual frold frnew) :
    passEvents settings adding (frold :: old) new =
      (if adding then [] else [.regionDel frold]) ++ passEvents settings adding old new := by
  cases adding with
  | false =>
    have kept : (!new.any (flatrangeEqual frold)) = true := by simpa using gone
    simp [passEvents, departures, kept]
  | true =>
    exact List.flatMap_congr fun frnew member =>
      arrival_cons_of_ne settings frold old (gone frnew member)

theorem departures_cons_of_ne (new : List FlatRange)
    (fresh : ∀ frold ∈ old, ¬ flatrangeEqual frold frnew) :
    departures old (frnew :: new) = departures old new := by
  refine List.filter_congr fun frold member => ?_
  rw [List.any_cons, Bool.eq_false_iff.mpr (fresh frold member), Bool.false_or]

theorem passEvents_new (adding : Bool) (frnew : FlatRange)
    (fresh : ∀ frold ∈ old, ¬ flatrangeEqual frold frnew) :
    passEvents settings adding old (frnew :: new) =
      (if adding then [.regionAdd frnew] else []) ++ passEvents settings adding old new := by
  cases adding with
  | false => simp [passEvents, departures_cons_of_ne new fresh]
  | true =>
    have missing : old.find? (flatrangeEqual · frnew) = none := by simpa using fresh
    simp [passEvents, arrival, missing]

variable {frold frnew : FlatRange} {oldView : FlatView}

theorem passEvents_both (adding : Bool) (equal : flatrangeEqual frold frnew)
    (gone : ∀ other ∈ new, ¬ flatrangeEqual frold other)
    (fresh : ∀ other ∈ old, ¬ flatrangeEqual other frnew) :
    passEvents settings adding (frold :: old) (frnew :: new) =
      (if adding then .regionNop frnew :: logEvents settings frold frnew else []) ++
        passEvents settings adding old new := by
  cases adding with
  | false =>
    have dropped : (!(frnew :: new).any (flatrangeEqual frold)) = false := by simp [equal]
    have rest := departures_cons_of_ne new fresh
    unfold departures at rest
    simp only [passEvents, departures, List.filter_cons, dropped, rest]
    simp
  | true =>
    have found : arrival settings (frold :: old) frnew =
        .regionNop frnew :: logEvents settings frold frnew := by
      simp [arrival, equal]
    simp only [passEvents, if_pos, List.flatMap_cons, found]
    congr 1
    exact List.flatMap_congr fun other member =>
      arrival_cons_of_ne settings frold old (gone other member)

/-! ### The cursors meet equal ranges together -/

theorem drop_eq_cons {Item : Type} {items : List Item} {i : Nat} {item : Item}
    (found : items[i]? = some item) : items.drop i = item :: items.drop (i + 1) := by
  obtain ⟨within, rfl⟩ := List.getElem?_eq_some_iff.mp found
  exact List.drop_eq_getElem_cons within

/-- A range that does not start behind the first one equals none of the others. -/
theorem differs_of_ordered {fr head : FlatRange} {rest : List FlatRange}
    (ordered : Ordered (head :: rest)) (before : fr.addr.start ≤ head.addr.start) :
    ∀ other ∈ rest, ¬ flatrangeEqual fr other := by
  intro other member equal
  obtain ⟨nonempty, apart, -⟩ := ordered_cons_iff.mp ordered
  have later : head.addr.start < other.addr.start :=
    lt_of_lt_of_le nonempty (apart other member)
  have := start_eq_of_flatrangeEqual equal
  omega

/-- On ordered views the loop compares every old range with every new one that may equal it. -/
theorem updateTopologyLoop_eq (oldView newView : List FlatRange) (adding : Bool) (iold inew : Nat)
    (oldOrdered : Ordered (oldView.drop iold)) (newOrdered : Ordered (newView.drop inew)) :
    updateTopologyLoop settings oldView newView adding iold inew =
      passEvents settings adding (oldView.drop iold) (newView.drop inew) := by
  fun_induction updateTopologyLoop settings oldView newView adding iold inew with
  | case1 iold inew old new =>
    rw [List.drop_eq_nil_of_le (List.getElem?_eq_none_iff.mp old),
      List.drop_eq_nil_of_le (List.getElem?_eq_none_iff.mp new)]
    simp [passEvents, departures]
  | case2 iold inew frold old new inductionHypothesis =>
    rw [drop_eq_cons old] at oldOrdered ⊢
    rw [inductionHypothesis oldOrdered.tail newOrdered, passEvents_old]
    rw [List.drop_eq_nil_of_le (List.getElem?_eq_none_iff.mp new)]
    simp
  | case3 iold inew frold frnew old new oldOnly inductionHypothesis =>
    rw [drop_eq_cons old] at oldOrdered ⊢
    rw [inductionHypothesis oldOrdered.tail newOrdered, passEvents_old]
    rw [drop_eq_cons new] at newOrdered ⊢
    simp only [inOldOnly, decide_eq_true_eq] at oldOnly
    refine List.forall_mem_cons.mpr
      ⟨fun equal => ?_, differs_of_ordered newOrdered (oldOnly.elim le_of_lt (·.1.le))⟩
    rcases oldOnly with before | ⟨-, differ⟩
    · exact before.ne (start_eq_of_flatrangeEqual equal)
    · exact differ equal
  | case4 iold inew frold frnew old new oldOnly equal inductionHypothesis =>
    rw [drop_eq_cons old] at oldOrdered ⊢
    rw [drop_eq_cons new] at newOrdered ⊢
    have sameStart := start_eq_of_flatrangeEqual equal
    rw [inductionHypothesis oldOrdered.tail newOrdered.tail, passEvents_both settings adding equal
      (differs_of_ordered newOrdered sameStart.le)]
    intro other member
    rw [flatrangeEqual_comm]
    exact differs_of_ordered oldOrdered sameStart.ge other member
  | case5 iold inew frold frnew old new oldOnly differ inductionHypothesis =>
    rw [drop_eq_cons new] at newOrdered ⊢
    rw [inductionHypothesis oldOrdered newOrdered.tail, passEvents_new]
    rw [drop_eq_cons old] at oldOrdered ⊢
    simp only [inOldOnly, decide_eq_true_eq] at oldOnly
    refine List.forall_mem_cons.mpr ⟨differ, fun other member => ?_⟩
    rw [flatrangeEqual_comm]
    exact differs_of_ordered oldOrdered (not_lt.mp (not_or.mp oldOnly).1) other member
  | case6 iold inew frnew old new inductionHypothesis =>
    rw [drop_eq_cons new] at newOrdered ⊢
    rw [inductionHypothesis oldOrdered newOrdered.tail, passEvents_new]
    rw [List.drop_eq_nil_of_le (List.getElem?_eq_none_iff.mp old)]
    simp

theorem addressSpaceUpdateTopology_eq (oldView newView : FlatView) :
    addressSpaceUpdateTopology settings oldView newView =
      (departures oldView.ranges newView.ranges).map .regionDel ++
        newView.ranges.flatMap (arrival settings oldView.ranges) := by
  have pass (adding : Bool) : addressSpaceUpdateTopologyPass settings oldView newView adding =
      passEvents settings adding oldView.ranges newView.ranges :=
    updateTopologyLoop_eq settings _ _ adding 0 0 oldView.ordered newView.ordered
  rw [addressSpaceUpdateTopology, pass, pass]
  rfl

/-! ### Every range is named once -/

/-- The view has a range that `flatrange_equal` does not tell from this one. -/
def FlatView.HasEqual (view : FlatView) (fr : FlatRange) : Prop :=
  ∃ other ∈ view.ranges, flatrangeEqual other fr

instance (view : FlatView) (fr : FlatRange) : Decidable (view.HasEqual fr) :=
  inferInstanceAs (Decidable (∃ other ∈ view.ranges, _))

variable (view : FlatView)

theorem FlatView.nodup : view.ranges.Nodup := by
  obtain ⟨ranges, ordered⟩ := view
  refine ordered.apart.imp_of_mem fun {first second} inFirst _ apart same => ?_
  subst same
  exact absurd (ordered.nonempty first inFirst) (not_lt.mpr apart)

theorem mem_departures_iff (oldView newView : FlatView) (fr : FlatRange) :
    fr ∈ departures oldView.ranges newView.ranges ↔
      fr ∈ oldView.ranges ∧ ¬ newView.HasEqual fr := by
  unfold departures FlatView.HasEqual
  simp [flatrangeEqual_comm fr]

theorem arrival_of_hasEqual (kept : oldView.HasEqual frnew) :
    ∃ frold ∈ oldView.ranges, flatrangeEqual frold frnew ∧
      arrival settings oldView.ranges frnew =
        .regionNop frnew :: logEvents settings frold frnew := by
  cases result : oldView.ranges.find? (flatrangeEqual · frnew) with
  | none =>
    obtain ⟨other, member, equal⟩ := kept
    exact absurd equal (List.find?_eq_none.mp result other member)
  | some frold =>
    refine ⟨frold, List.mem_of_find?_eq_some result, ?_, ?_⟩
    · simpa using List.find?_some result
    · rw [arrival, result]

theorem arrival_of_not_hasEqual (fresh : ¬ oldView.HasEqual frnew) :
    arrival settings oldView.ranges frnew = [.regionAdd frnew] := by
  have missing : oldView.ranges.find? (flatrangeEqual · frnew) = none :=
    List.find?_eq_none.mpr fun other member equal => fresh ⟨other, member, equal⟩
  rw [arrival, missing]

/-- A logging call, with the masks of the two ranges it is about. -/
def Event.IsLog (frold frnew : FlatRange) (event : Event) : Prop :=
  event = .logStart frnew frold.dirtyLogMask frnew.dirtyLogMask ∨
    event = .logStop frnew frold.dirtyLogMask frnew.dirtyLogMask ∨
    event = .delayLogAdd frnew frold.dirtyLogMask

theorem isLog_of_mem_logEvents {settings : LogSettings}
    (member : event ∈ logEvents settings frold frnew) :
    event.IsLog frold frnew ∧ frold.dirtyLogMask ≠ frnew.dirtyLogMask := by
  have changed : frold.dirtyLogMask ≠ frnew.dirtyLogMask := by
    intro same
    rw [logEvents, same] at member
    simp at member
  refine ⟨?_, changed⟩
  rw [logEvents, List.mem_append] at member
  unfold Event.IsLog
  rcases member with member | member
  all_goals
    split at member
    · split at member <;> simp_all
    · simp at member

/-- What the second pass says for one new range. -/
theorem mem_arrival {settings : LogSettings}
    (member : event ∈ arrival settings oldView.ranges frnew) :
    (event = .regionAdd frnew ∧ ¬ oldView.HasEqual frnew) ∨
      (event = .regionNop frnew ∧ oldView.HasEqual frnew) ∨
      ∃ frold ∈ oldView.ranges, flatrangeEqual frold frnew ∧
        frold.dirtyLogMask ≠ frnew.dirtyLogMask ∧ event.IsLog frold frnew := by
  by_cases kept : oldView.HasEqual frnew
  · obtain ⟨frold, inOld, equal, calls⟩ := arrival_of_hasEqual settings kept
    rw [calls, List.mem_cons] at member
    rcases member with same | logs
    · exact .inr (.inl ⟨same, kept⟩)
    · obtain ⟨isLog, changed⟩ := isLog_of_mem_logEvents logs
      exact .inr (.inr ⟨frold, inOld, equal, changed, isLog⟩)
  · rw [arrival_of_not_hasEqual settings kept, List.mem_singleton] at member
    exact .inl ⟨member, kept⟩

theorem arrivals_not_regionDel {settings : LogSettings} {oldView newView : FlatView}
    (member : event ∈ newView.ranges.flatMap (arrival settings oldView.ranges))
    (fr : FlatRange) : event ≠ .regionDel fr := by
  rintro rfl
  obtain ⟨frnew, -, said⟩ := List.mem_flatMap.mp member
  rcases mem_arrival said with ⟨wrong, -⟩ | ⟨wrong, -⟩ | ⟨frold, -, -, -, isLog⟩
  · cases wrong
  · cases wrong
  · simp [Event.IsLog] at isLog

/-- Whether the call tells which ranges there are. -/
def Event.isRegion : Event → Bool
  | .regionDel _ | .regionAdd _ | .regionNop _ => true
  | _ => false

/-- How the second pass names a new range. -/
def naming (oldView : FlatView) (fr : FlatRange) : Event :=
  if oldView.HasEqual fr then .regionNop fr else .regionAdd fr

variable (oldView) (newView : FlatView) (fr : FlatRange)

theorem filter_isRegion_arrival (frnew : FlatRange) :
    (arrival settings oldView.ranges frnew).filter Event.isRegion = [naming oldView frnew] := by
  rw [naming]
  split
  · next kept =>
    obtain ⟨frold, -, -, calls⟩ := arrival_of_hasEqual settings kept
    rw [calls, List.filter_cons_of_pos rfl, List.filter_eq_nil_iff.mpr]
    intro event member
    obtain ⟨rfl | rfl | rfl, -⟩ := isLog_of_mem_logEvents member
    all_goals exact Bool.false_ne_true
  · next fresh =>
    rw [arrival_of_not_hasEqual settings fresh]
    rfl

/-- The ranges that an update names, each once. -/
theorem count_isRegion (isRegion : event.isRegion = true) :
    (addressSpaceUpdateTopology settings oldView newView).count event =
      if event ∈ (departures oldView.ranges newView.ranges).map .regionDel ++
        newView.ranges.map (naming oldView) then 1 else 0 := by
  have named : (newView.ranges.flatMap (arrival settings oldView.ranges)).filter Event.isRegion =
      newView.ranges.map (naming oldView) := by
    simp only [List.filter_flatMap, filter_isRegion_arrival, List.map_eq_flatMap]
  have gone : ((departures oldView.ranges newView.ranges).map Event.regionDel).filter
      Event.isRegion = (departures oldView.ranges newView.ranges).map .regionDel := by
    exact List.filter_eq_self.mpr (List.forall_mem_map.mpr fun _ _ => rfl)
  rw [← List.count_filter isRegion, addressSpaceUpdateTopology_eq, List.filter_append, named, gone]
  refine List.Nodup.count (List.nodup_append'.mpr ⟨(oldView.nodup.filter _).map ?_,
    newView.nodup.map fun first second same => ?_, ?_⟩)
  · exact fun _ _ => Event.regionDel.inj
  · grind [naming]
  · grind [naming, List.disjoint_left]

theorem count_regionDel :
    (addressSpaceUpdateTopology settings oldView newView).count (.regionDel fr) =
      if fr ∈ oldView.ranges ∧ ¬ newView.HasEqual fr then 1 else 0 := by
  refine (count_isRegion settings oldView newView rfl).trans (if_congr ?_ rfl rfl)
  rw [← mem_departures_iff]
  grind [naming]

theorem count_regionAdd :
    (addressSpaceUpdateTopology settings oldView newView).count (.regionAdd fr) =
      if fr ∈ newView.ranges ∧ ¬ oldView.HasEqual fr then 1 else 0 := by
  refine (count_isRegion settings oldView newView rfl).trans (if_congr ?_ rfl rfl)
  grind [naming]

theorem count_regionNop :
    (addressSpaceUpdateTopology settings oldView newView).count (.regionNop fr) =
      if fr ∈ newView.ranges ∧ oldView.HasEqual fr then 1 else 0 := by
  refine (count_isRegion settings oldView newView rfl).trans (if_congr ?_ rfl rfl)
  grind [naming]

/-! ### A listener that tracks the ranges -/

/-- What a listener does that keeps the ranges it was told to add. -/
def listen (held : List RangeKey) : Event → List RangeKey
  | .regionAdd fr => fr.key :: held
  | .regionDel fr => held.erase fr.key
  | _ => held

/-- No two of the ranges share an address. -/
def NonOverlapping (held : List RangeKey) : Prop :=
  held.Pairwise fun first second => ∀ addr, ¬ (first.addr.Has addr ∧ second.addr.Has addr)

def FlatView.keys (view : FlatView) : List RangeKey := view.ranges.map FlatRange.key

theorem FlatView.nonOverlapping_keys : NonOverlapping view.keys := by
  refine List.pairwise_map.mpr (view.ordered.apart.imp ?_)
  rintro first second apart addr ⟨⟨-, inFirst⟩, ⟨inSecond, -⟩⟩
  exact absurd (lt_of_lt_of_le inFirst apart) (not_lt.mpr inSecond)

theorem FlatView.nodup_keys : view.keys.Nodup := by
  refine List.pairwise_map.mpr (view.ordered.apart.imp_of_mem ?_)
  intro first second inFirst _ apart same
  have nonempty := view.ordered.nonempty first inFirst
  have sameStart : first.addr.start = second.addr.start :=
    congrArg (fun key : RangeKey => key.addr.start) same
  simp only [lo_flatRange, hi_flatRange] at apart nonempty
  omega

theorem FlatView.mem_keys_iff (fr : FlatRange) : fr.key ∈ view.keys ↔ view.HasEqual fr := by
  simp [FlatView.keys, FlatView.HasEqual, flatrangeEqual_iff]

/-- Different ranges of one view never overlap. -/
theorem FlatView.nonOverlapping_of_subset {held : List RangeKey} (distinct : held.Nodup)
    (known : held ⊆ view.keys) : NonOverlapping held := by
  obtain ⟨part, same, sub⟩ := distinct.subperm known
  exact (view.nonOverlapping_keys.sublist sub).perm same fun {_ _} apart addr both =>
    apart addr both.symm

theorem foldl_listen_regionDel (held : List RangeKey) (gone : List FlatRange) :
    (gone.map Event.regionDel).foldl listen held = held.diff (gone.map FlatRange.key) := by
  rw [List.diff_eq_foldl, List.foldl_map, List.foldl_map]
  rfl

/-- The range that a call adds. -/
def Event.added : Event → Option RangeKey
  | .regionAdd fr => some fr.key
  | _ => none

theorem listen_of_not_regionDel (held : List RangeKey) (keeps : ∀ fr, event ≠ .regionDel fr) :
    listen held event = event.added.toList ++ held := by
  cases event with
  | regionDel fr => exact absurd rfl (keeps fr)
  | _ => rfl

theorem foldl_listen_of_not_regionDel (held : List RangeKey) (events : List Event)
    (keeps : ∀ event ∈ events, ∀ fr, event ≠ .regionDel fr) :
    events.foldl listen held = (events.filterMap Event.added).reverse ++ held := by
  induction events generalizing held with
  | nil => rfl
  | cons event rest inductionHypothesis =>
    have restKeeps := fun other member => keeps other (List.mem_cons_of_mem event member)
    rw [List.foldl_cons, inductionHypothesis _ restKeeps,
      listen_of_not_regionDel held (keeps event List.mem_cons_self)]
    cases added : event.added with
    | none => simp [List.filterMap_cons_none added]
    | some key => simp [List.filterMap_cons_some added]

theorem filterMap_added_arrival (frnew : FlatRange) :
    (arrival settings oldView.ranges frnew).filterMap Event.added =
      if oldView.HasEqual frnew then [] else [frnew.key] := by
  by_cases kept : oldView.HasEqual frnew
  · rw [if_pos kept, List.filterMap_eq_nil_iff]
    intro event member
    rcases mem_arrival member with ⟨-, fresh⟩ | ⟨rfl, -⟩ | ⟨frold, -, -, -, rfl | rfl | rfl⟩
    · exact absurd kept fresh
    all_goals rfl
  · rw [if_neg kept, arrival_of_not_hasEqual settings kept]
    rfl

/-- The ranges that the second pass adds. -/
theorem filterMap_added_arrivals :
    (newView.ranges.flatMap (arrival settings oldView.ranges)).filterMap Event.added =
      (newView.ranges.filter fun fr => ¬ oldView.HasEqual fr).map FlatRange.key := by
  induction newView.ranges with
  | nil => rfl
  | cons head rest inductionHypothesis =>
    rw [List.flatMap_cons, List.filterMap_append, inductionHypothesis,
      filterMap_added_arrival, List.filter_cons]
    by_cases kept : oldView.HasEqual head
    · simp [kept]
    · simp [kept]

/-! ### The ranges held during an update -/

section Update

variable {settings : LogSettings} {oldView newView : FlatView} {held : List RangeKey}

/-- The listener holds the ranges of the view. -/
def Tracks (held : List RangeKey) (view : FlatView) : Prop := held.Perm view.keys

theorem Tracks.nodup (tracks : Tracks held view) : held.Nodup :=
  tracks.nodup_iff.mpr view.nodup_keys

/-- What is left after the first pass: the ranges of both views. -/
theorem mem_afterDepartures (tracks : Tracks held oldView) (key : RangeKey) :
    key ∈ held.diff ((departures oldView.ranges newView.ranges).map FlatRange.key) ↔
      key ∈ oldView.keys ∧ key ∈ newView.keys := by
  rw [tracks.nodup.mem_sdiff_iff, tracks.mem_iff]
  constructor
  · rintro ⟨inOld, kept⟩
    refine ⟨inOld, ?_⟩
    obtain ⟨frold, member, rfl⟩ := List.mem_map.mp inOld
    by_contra gone
    rw [newView.mem_keys_iff] at gone
    exact kept (List.mem_map_of_mem ((mem_departures_iff _ _ _).mpr ⟨member, gone⟩))
  · rintro ⟨inOld, inNew⟩
    refine ⟨inOld, fun gone => ?_⟩
    obtain ⟨frold, member, rfl⟩ := List.mem_map.mp gone
    exact ((mem_departures_iff _ _ _).mp member).2 ((newView.mem_keys_iff frold).mp inNew)

/-- The ranges that the second pass adds are those of the new view alone. -/
theorem mem_added_iff (key : RangeKey) :
    key ∈ (newView.ranges.filter fun fr => ¬ oldView.HasEqual fr).map FlatRange.key ↔
      key ∈ newView.keys ∧ key ∉ oldView.keys := by
  constructor
  · intro member
    obtain ⟨fr, kept, rfl⟩ := List.mem_map.mp member
    obtain ⟨inNew, fresh⟩ := List.mem_filter.mp kept
    exact ⟨List.mem_map_of_mem inNew, by simpa [oldView.mem_keys_iff] using fresh⟩
  · rintro ⟨inNew, fresh⟩
    obtain ⟨fr, member, rfl⟩ := List.mem_map.mp inNew
    rw [oldView.mem_keys_iff] at fresh
    exact List.mem_map_of_mem (List.mem_filter.mpr ⟨member, by simpa using fresh⟩)

section

variable (tracks : Tracks held oldView)
include tracks

/-- Whatever part of the second pass has run, the listener holds new ranges, each once. -/
theorem held_arrivals {events : List Event}
    (part : events.Sublist (newView.ranges.flatMap (arrival settings oldView.ranges))) :
    let between := held.diff ((departures oldView.ranges newView.ranges).map FlatRange.key)
    events.foldl listen between = (events.filterMap Event.added).reverse ++ between ∧
      (events.foldl listen between).Nodup ∧ events.foldl listen between ⊆ newView.keys := by
  intro between
  have addedPart := part.filterMap Event.added
  rw [filterMap_added_arrivals] at addedPart
  have addedDistinct := (newView.nodup_keys.sublist
    (List.filter_sublist.map FlatRange.key)).sublist addedPart
  have foldEq := foldl_listen_of_not_regionDel between events fun event member =>
    arrivals_not_regionDel (part.subset member)
  refine ⟨foldEq, ?_, ?_⟩
  · rw [foldEq]
    refine List.nodup_append'.mpr ⟨List.nodup_reverse.mpr addedDistinct, tracks.nodup.diff, ?_⟩
    intro key inAdded inBetween
    have fresh := (mem_added_iff key).mp (addedPart.subset (List.mem_reverse.mp inAdded))
    exact fresh.2 ((mem_afterDepartures tracks key).mp inBetween).1
  · rw [foldEq]
    intro key member
    rcases List.mem_append.mp member with inAdded | inBetween
    · exact ((mem_added_iff key).mp (addedPart.subset (List.mem_reverse.mp inAdded))).1
    · exact ((mem_afterDepartures tracks key).mp inBetween).2

/-- After both passes the listener holds the new view. -/
theorem tracks_update :
    Tracks ((addressSpaceUpdateTopology settings oldView newView).foldl listen held)
      newView := by
  rw [addressSpaceUpdateTopology_eq, List.foldl_append, foldl_listen_regionDel]
  obtain ⟨foldEq, distinct, known⟩ := held_arrivals tracks (List.Sublist.refl
    (newView.ranges.flatMap (arrival settings oldView.ranges)))
  refine (List.perm_ext_iff_of_nodup distinct newView.nodup_keys).mpr fun key => ?_
  refine ⟨fun member => known member, fun inNew => ?_⟩
  rw [foldEq, filterMap_added_arrivals, List.mem_append, List.mem_reverse]
  by_cases inOld : key ∈ oldView.keys
  · exact .inr ((mem_afterDepartures tracks key).mpr ⟨inOld, inNew⟩)
  · exact .inl ((mem_added_iff key).mpr ⟨inNew, inOld⟩)

/-- At no moment of an update does the listener hold ranges that overlap. -/
theorem nonOverlapping_update (count : Nat) :
    NonOverlapping
      (((addressSpaceUpdateTopology settings oldView newView).take count).foldl listen held) := by
  rw [addressSpaceUpdateTopology_eq, List.take_append, List.foldl_append, ← List.map_take]
  rcases Nat.lt_or_ge count (departures oldView.ranges newView.ranges).length with early | late
  · rw [Nat.sub_eq_zero_of_le (by simpa using early.le), List.take_zero, List.foldl_nil]
    -- The listener holds old ranges.
    rw [foldl_listen_regionDel]
    refine oldView.nonOverlapping_of_subset tracks.nodup.diff ?_
    exact fun key member => tracks.subset ((List.diff_sublist _ _).subset member)
  · rw [List.take_of_length_le late, foldl_listen_regionDel]
    obtain ⟨-, distinct, known⟩ := held_arrivals tracks (List.take_sublist _ _)
    exact newView.nonOverlapping_of_subset distinct known

end

end Update

/-! ### Whole runs -/

/-- The view after a sequence of updates. -/
def lastView (view : FlatView) (views : List FlatView) : FlatView := views.getLastD view

theorem tracks_updateTopologies (view : FlatView) (views : List FlatView) (held : List RangeKey)
    (tracks : Tracks held view) :
    Tracks ((updateTopologies settings view views).foldl listen held) (lastView view views) := by
  induction views generalizing view held with
  | nil => exact tracks
  | cons newView rest inductionHypothesis =>
    rw [updateTopologies, List.foldl_append, lastView, List.getLastD_cons]
    exact inductionHypothesis newView _ (tracks_update tracks)

theorem nonOverlapping_updateTopologies (view : FlatView) (views : List FlatView)
    (held : List RangeKey) (tracks : Tracks held view) (count : Nat) :
    NonOverlapping (((updateTopologies settings view views).take count).foldl listen held) := by
  induction views generalizing view held count with
  | nil =>
    rw [updateTopologies, List.take_nil, List.foldl_nil]
    exact view.nonOverlapping_of_subset tracks.nodup tracks.subset
  | cons newView rest inductionHypothesis =>
    rw [updateTopologies, List.take_append, List.foldl_append]
    rcases Nat.le_total count (addressSpaceUpdateTopology settings view newView).length
      with during | later
    · rw [Nat.sub_eq_zero_of_le during, List.take_zero, List.foldl_nil]
      exact nonOverlapping_update tracks count
    · rw [List.take_of_length_le later]
      exact inductionHypothesis newView _ (tracks_update tracks) _

/-- An update names each range that is gone, each that is new and each that stays exactly once,
and says nothing else than how the logging of a range that stays has changed. A listener that
tracks the ranges holds the current view after every sequence of updates from the empty view,
and no two ranges that overlap after any number of calls. -/
theorem addressSpaceUpdateTopology_tracks (settings : LogSettings) :
    (∀ oldView newView : FlatView,
      let events := addressSpaceUpdateTopology settings oldView newView
      (∀ fr, events.count (.regionDel fr) =
        if fr ∈ oldView.ranges ∧ ¬ newView.HasEqual fr then 1 else 0) ∧
      (∀ fr, events.count (.regionAdd fr) =
        if fr ∈ newView.ranges ∧ ¬ oldView.HasEqual fr then 1 else 0) ∧
      (∀ fr, events.count (.regionNop fr) =
        if fr ∈ newView.ranges ∧ oldView.HasEqual fr then 1 else 0) ∧
      ∀ event ∈ events,
        (∃ fr, event = .regionDel fr ∨ event = .regionAdd fr ∨ event = .regionNop fr) ∨
        ∃ frold ∈ oldView.ranges, ∃ frnew ∈ newView.ranges, flatrangeEqual frold frnew ∧
          frold.dirtyLogMask ≠ frnew.dirtyLogMask ∧ event.IsLog frold frnew) ∧
    ∀ views : List FlatView,
      let events := updateTopologies settings FlatView.empty views
      (events.foldl listen []).Perm (lastView FlatView.empty views).keys ∧
      ∀ count, NonOverlapping ((events.take count).foldl listen []) := by
  have start : Tracks [] FlatView.empty := List.Perm.refl []
  refine ⟨fun oldView newView => ?_, fun views => ?_⟩
  · refine ⟨count_regionDel settings oldView newView, count_regionAdd settings oldView newView,
      count_regionNop settings oldView newView, fun event member => ?_⟩
    rw [addressSpaceUpdateTopology_eq, List.mem_append] at member
    rcases member with gone | said
    · obtain ⟨fr, -, rfl⟩ := List.mem_map.mp gone
      exact .inl ⟨fr, .inl rfl⟩
    · obtain ⟨frnew, inNew, call⟩ := List.mem_flatMap.mp said
      rcases mem_arrival call with ⟨rfl, -⟩ | ⟨rfl, -⟩ | ⟨frold, inOld, equal, changed, isLog⟩
      · exact .inl ⟨frnew, .inr (.inl rfl)⟩
      · exact .inl ⟨frnew, .inr (.inr rfl)⟩
      · exact .inr ⟨frold, inOld, frnew, inNew, equal, changed, isLog⟩
  · exact ⟨tracks_updateTopologies settings _ views [] start,
      nonOverlapping_updateTopologies settings _ views [] start⟩

/-- One page of region 1, with the given clients logging it. -/
def loggedPage (mask : BitVec 8) : FlatView where
  ranges := [⟨1, 0, ⟨0, 4096⟩, mask, true, false⟩]
  ordered := ⟨by simp, by simp⟩

/-- A range that stays while its logging starts is named by `log_start` too. -/
theorem addressSpaceUpdateTopology_logStart :
    ¬ ∀ (settings : LogSettings) (oldView newView : FlatView),
      ∀ event ∈ addressSpaceUpdateTopology settings oldView newView,
        ∃ fr, event = .regionDel fr ∨ event = .regionAdd fr ∨ event = .regionNop fr := by
  intro onlyRegions
  obtain ⟨fr, wrong | wrong | wrong⟩ := onlyRegions ⟨false, true, 0, BitVec.ofInt 64⟩
    (loggedPage 0) (loggedPage 1) (.logStart ⟨1, 0, ⟨0, 4096⟩, 1, true, false⟩ 0 1)
    (by rw [addressSpaceUpdateTopology_eq]; decide)
  all_goals cases wrong

end StudyNotes.Memory
