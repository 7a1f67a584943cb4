/-
This file proves how the devices of an MTD translation layer are numbered and named.
-/

import Mathlib.Algebra.Order.Ring.Nat
import Mathlib.Data.List.Sort
import Mathlib.Order.Bounds.Basic

namespace StudyNotes.Mtd

/-! ### Numbers -/

/-- What `add_mtd_blktrans_dev` reads of a translation layer for the place of a device. -/
structure MtdBlktransOps where
  name : List Char
  partBits : Nat

/-- `MINORMASK`. -/
def minormask : Nat := 0xfffff

/-- The check that the minors of a device are valid and that the naming code can cope. -/
abbrev MtdBlktransOps.Refuses (tr : MtdBlktransOps) (devnum : Nat) : Prop :=
  devnum > minormask >>> tr.partBits ∨ tr.partBits ≠ 0 ∧ devnum ≥ 27 * 26

/--
The scan of `add_mtd_blktrans_dev` from a device on, where `next` is `last_devnum + 1`: the
number that the new device gets, or none with `-EBUSY`, and the numbers of the list. A request
without a number is one for `-1`.
-/
def insertDev (tr : MtdBlktransOps) (requested : Option Nat) :
    Nat → List Nat → Option Nat × List Nat
  | next, [] =>
    let devnum := requested.getD next
    if tr.Refuses devnum then (none, []) else (some devnum, [devnum])
  | next, d :: rest =>
    let later := insertDev tr requested (d + 1) rest
    match requested with
    | none => if d ≠ next then (some next, next :: d :: rest) else (later.1, d :: later.2)
    | some devnum =>
      if d = devnum then (none, d :: rest)
      else if d > devnum then (some devnum, devnum :: d :: rest)
      else (later.1, d :: later.2)

variable (tr : MtdBlktransOps)

/-- `add_mtd_blktrans_dev`, as far as the list of devices is concerned. -/
def addMtdBlktransDev (devs : List Nat) (requested : Option Nat) : Option Nat × List Nat :=
  insertDev tr requested 0 devs

/-- Calls of `add_mtd_blktrans_dev` and `del_mtd_blktrans_dev`. -/
inductive DevCall where
  | add (requested : Option Nat)
  | remove (devnum : Nat)

/-- The list of devices after a call. -/
def devCall (devs : List Nat) : DevCall → List Nat
  | .add requested => (addMtdBlktransDev tr devs requested).2
  | .remove devnum => devs.erase devnum

/-! ### Names -/

/-- What `disk_name` has behind the name of the layer. -/
def MtdBlktransOps.suffix (devnum : Nat) : List Char :=
  if tr.partBits ≠ 0 then
    if devnum < 26 then [Char.ofNat ('a'.toNat + devnum)]
    else [Char.ofNat ('a'.toNat - 1 + devnum / 26), Char.ofNat ('a'.toNat + devnum % 26)]
  else Nat.toDigits 10 devnum

/-- The name that `snprintf` leaves in the 32 bytes of `disk_name`. -/
def MtdBlktransOps.diskName (devnum : Nat) : List Char :=
  (tr.name ++ tr.suffix devnum).take 31

variable {tr} {devnum other next : Nat} {devs : List Nat}

theorem suffix_injective (fits : ¬ tr.Refuses devnum) (otherFits : ¬ tr.Refuses other)
    (same : tr.suffix devnum = tr.suffix other) : devnum = other := by
  by_cases whole : tr.partBits = 0
  · rw [MtdBlktransOps.suffix, MtdBlktransOps.suffix, if_neg (not_not.mpr whole),
      if_neg (not_not.mpr whole)] at same
    simpa using congrArg (Nat.ofDigitChars 10 · 0) same
  · have codes (n : Nat) (small : n < 128) : (Char.ofNat n).toNat = n := by
      revert n
      decide
    have letters := congrArg (List.map Char.toNat) same
    have isA : 'a'.toNat = 97 := rfl
    rw [MtdBlktransOps.suffix, MtdBlktransOps.suffix, if_pos whole, if_pos whole, isA] at letters
    split at letters <;> split at letters <;>
      simp (disch := omega) only [List.map_cons, List.map_nil, List.cons.injEq, reduceCtorEq,
        and_true, and_false, codes] at letters <;> omega

theorem length_suffix_le (fits : ¬ tr.Refuses devnum) : (tr.suffix devnum).length ≤ 7 := by
  rw [MtdBlktransOps.suffix]
  split
  · split <;> simp
  · have bound : minormask >>> tr.partBits ≤ 0xfffff := Nat.shiftRight_le ..
    refine (Nat.length_toDigits_le_iff (by decide) (by decide)).mpr ?_
    exact Nat.lt_of_le_of_lt (Nat.not_lt.mp (not_or.mp fits).1) (by omega)

theorem diskName_injective (short : tr.name.length ≤ 24) (fits : ¬ tr.Refuses devnum)
    (otherFits : ¬ tr.Refuses other) (same : tr.diskName devnum = tr.diskName other) :
    devnum = other := by
  have isShort := length_suffix_le fits
  have otherShort := length_suffix_le otherFits
  rw [MtdBlktransOps.diskName, MtdBlktransOps.diskName, List.take_of_length_le,
    List.take_of_length_le] at same
  · exact suffix_injective fits otherFits (List.append_cancel_left same)
  all_goals
    rw [List.length_append]
    omega

/-! ### Runs -/

/-- The devices of a layer stand in the order of their numbers, which are in range. -/
structure Numbered (tr : MtdBlktransOps) (devs : List Nat) : Prop where
  sorted : devs.Pairwise (· < ·)
  fits : ∀ devnum ∈ devs, ¬ tr.Refuses devnum

/-- The scan finds the number that a request is for and refuses it if it is in use or too large. -/
theorem insertDev_eq (numbered : Numbered tr devs) (behind : ∀ d ∈ devs, next ≤ d)
    (requested : Option Nat) :
    ∃ devnum,
      requested.elim (IsLeast { number | next ≤ number ∧ number ∉ devs } devnum) (· = devnum) ∧
      insertDev tr requested next devs =
        if devnum ∈ devs ∨ tr.Refuses devnum then (none, devs)
        else (some devnum, devs.orderedInsert (· ≤ ·) devnum) := by
  induction devs generalizing next with
  | nil =>
    refine ⟨requested.getD next, ?_, by simp [insertDev]⟩
    cases requested with
    | none => exact ⟨⟨Nat.le_refl _, List.not_mem_nil⟩, fun number isBehind => isBehind.1⟩
    | some number => rfl
  | cons d rest inductionHypothesis =>
    obtain ⟨below, sorted⟩ := List.pairwise_cons.mp numbered.sorted
    obtain ⟨dFits, restFits⟩ := List.forall_mem_cons.mp numbered.fits
    obtain ⟨later, asks, isLater⟩ := inductionHypothesis ⟨sorted, restFits⟩ below
    have first {devnum : Nat} (less : devnum < d) : devnum ∉ d :: rest ∧ ¬ tr.Refuses devnum := by
      grind
    cases requested with
    | none =>
      have isBehind := behind d List.mem_cons_self
      obtain ⟨⟨less, unused⟩, least⟩ := asks
      by_cases isNext : d = next
      · refine ⟨later, ⟨⟨by omega, by grind⟩, fun number asked => ?_⟩, ?_⟩
        · exact least ⟨by grind, fun member => asked.2 (.tail _ member)⟩
        · rw [insertDev, isLater, if_neg (not_not.mpr isNext)]
          grind
      · refine ⟨next, ⟨⟨Nat.le_refl _, (first (by omega)).1⟩, fun number asked => asked.1⟩, ?_⟩
        rw [insertDev, if_pos isNext]
        grind
    | some number =>
      refine ⟨number, rfl, ?_⟩
      cases asks
      grind [insertDev]

theorem addMtdBlktransDev_eq (numbered : Numbered tr devs) (requested : Option Nat) :
    ∃ devnum, requested.elim (IsLeast { number | number ∉ devs } devnum) (· = devnum) ∧
      addMtdBlktransDev tr devs requested =
        if devnum ∈ devs ∨ tr.Refuses devnum then (none, devs)
        else (some devnum, devs.orderedInsert (· ≤ ·) devnum) := by
  simpa only [addMtdBlktransDev, Nat.zero_le, true_and] using
    insertDev_eq numbered (fun d _ => Nat.zero_le d) requested

theorem devCall_numbered (numbered : Numbered tr devs) (call : DevCall) :
    Numbered tr (devCall tr devs call) := by
  cases call with
  | add requested =>
    obtain ⟨devnum, -, isAdded⟩ := addMtdBlktransDev_eq numbered requested
    rw [devCall, isAdded]
    split
    · exact numbered
    · next accepted =>
      obtain ⟨unused, fits⟩ := not_or.mp accepted
      have perm := List.perm_orderedInsert (· ≤ ·) devnum devs
      have ordered := numbered.sorted.imp Nat.le_of_lt
      constructor
      · refine ((ordered.orderedInsert devnum _).and (perm.nodup_iff.mpr ?_)).imp ?_
        · exact List.nodup_cons.mpr ⟨unused, numbered.sorted.imp Nat.ne_of_lt⟩
        · exact fun both => Nat.lt_of_le_of_ne both.1 both.2
      · intro other member
        rcases List.mem_cons.mp (perm.mem_iff.mp member) with rfl | member
        · exact fits
        · exact numbered.fits _ member
  | remove devnum =>
    exact ⟨numbered.sorted.sublist List.erase_sublist,
      fun other member => numbered.fits _ (List.mem_of_mem_erase member)⟩

/--
In every run of calls the devices of a layer stay in the order of their numbers, all of them
in range. A request without a number is one for the smallest unused number, and a request is
refused if the number is in use or too large. The names are distinct if the name of the layer
leaves room for seven digits.
-/
theorem devCalls_numbered (tr : MtdBlktransOps) (calls : List DevCall) :
    let devs := calls.foldl (devCall tr) []
    devs.Pairwise (· < ·) ∧ (∀ devnum ∈ devs, ¬ tr.Refuses devnum) ∧
      (∀ requested : Option Nat, ∃ devnum,
        requested.elim (IsLeast { number | number ∉ devs } devnum) (· = devnum) ∧
        addMtdBlktransDev tr devs requested =
          if devnum ∈ devs ∨ tr.Refuses devnum then (none, devs)
          else (some devnum, devs.orderedInsert (· ≤ ·) devnum)) ∧
      (tr.name.length ≤ 24 → (devs.map tr.diskName).Nodup) := by
  intro devs
  have numbered : Numbered tr devs :=
    List.foldlRecOn (motive := Numbered tr) _ _ ⟨.nil, fun _ member => by cases member⟩
      fun _ numbered call _ => devCall_numbered numbered call
  refine ⟨numbered.sorted, numbered.fits, addMtdBlktransDev_eq numbered, fun short => ?_⟩
  refine (List.nodup_map_iff_inj_on (numbered.sorted.imp Nat.ne_of_lt)).mpr ?_
  exact fun devnum member other isOther =>
    diskName_injective short (numbered.fits _ member) (numbered.fits _ isOther)

/-- Names are cut off, so with a long name of the layer they clash. -/
theorem longName_clashes :
    ¬ (([.add none, .add none].foldl (devCall ⟨List.replicate 31 'x', 0⟩) []).map
      (MtdBlktransOps.diskName ⟨List.replicate 31 'x', 0⟩)).Nodup := by
  decide

end StudyNotes.Mtd
