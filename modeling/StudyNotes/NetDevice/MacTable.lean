/-
This file proves what a command that sets the MAC table does: which payloads the
device takes, and what its receive filter does with the lists in them.

The device multiplies the counts in the payload by the length of an address in
32 bits, so it takes the length of a list modulo `2 ^ 32`. A list of up to 64
addresses is short enough for this to be its length; a longer one only sets an
overflow flag, and then nothing depends on where it ends.
-/

import StudyNotes.NetDevice.Verdict

namespace StudyNotes.NetDevice

open Library
open VirtioNet (RxFilter receiveFilter slice)

/-! ### The payload -/

variable (bigEndian : Bool) (iov : List UInt8)

/-- The count that a payload starts with: the number of its unicast addresses. -/
def countOf : BitVec 32 :=
  BitVec.ofNat 32 (loadNumber bigEndian (iov.take 4))

/-- What follows the list of unicast addresses, as the device finds it. -/
def behindUni : List UInt8 :=
  (iov.drop 4).drop (macBytes (countOf bigEndian iov))

/-- The number of entries in the list of multicast addresses. -/
def multiEntries : BitVec 32 :=
  countOf bigEndian (behindUni bigEndian iov)

variable {entries : BitVec 32}

theorem readEntries_eq :
    readEntries bigEndian iov =
      if 4 ≤ iov.length then some (countOf bigEndian iov, iov.drop 4) else none := by
  rw [readEntries, List.length_take]
  by_cases enough : 4 ≤ iov.length
  · rw [if_neg (by omega), if_pos enough, countOf]
  · rw [if_pos (by omega), if_neg enough]

/-- What copying a list leaves when the bytes of the list are there. -/
def copied (reading : MacReading) (entries : BitVec 32) (iov : List UInt8) : MacReading × UInt8 :=
  if entries.toNat ≤ macTableEntries - reading.inUse then
    ({ inUse := reading.inUse + entries.toNat
       macs := overwrite reading.macs (reading.inUse * 6) (iov.take (macBytes entries)) }, 0)
  else (reading, 1)

variable (reading : MacReading)

theorem copyMacs_eq {iov : List UInt8} (enough : macBytes entries ≤ iov.length) :
    copyMacs reading entries iov = some (copied reading entries iov) := by
  have isLength : (iov.take (macBytes entries)).length = macBytes entries :=
    List.length_take_of_le enough
  rw [copyMacs, copied]
  split
  · simp only [isLength, ne_eq, not_true_eq_false, if_false]
  · rfl

/-- The entries of the first list, and its overflow flag. -/
def uniRead : MacReading × UInt8 :=
  copied { inUse := 0, macs := fun _ => 0 } (countOf bigEndian iov) (iov.drop 4)

/-- The entries of both lists, and the overflow flag of the second one. -/
def multiRead : MacReading × UInt8 :=
  copied (uniRead bigEndian iov).1 (multiEntries bigEndian iov) ((behindUni bigEndian iov).drop 4)

/-- The table that a payload of the right length leads to. -/
def tableOf : MacTable where
  inUse := (multiRead bigEndian iov).1.inUse
  firstMulti := (uniRead bigEndian iov).1.inUse
  multiOverflow := (multiRead bigEndian iov).2
  uniOverflow := (uniRead bigEndian iov).2
  macs := (multiRead bigEndian iov).1.macs

/-- The length that the counts in a payload ask for, as the device computes it. -/
def LengthFits : Prop :=
  iov.length = 4 + macBytes (countOf bigEndian iov) + 4 +
    macBytes (multiEntries bigEndian iov)

instance : Decidable (LengthFits bigEndian iov) :=
  inferInstanceAs (Decidable (_ = _))

variable {bigEndian iov}

/-- The bytes of the first list are there. -/
theorem LengthFits.hasUni (fits : LengthFits bigEndian iov) :
    macBytes (countOf bigEndian iov) ≤ (iov.drop 4).length := by
  rw [LengthFits] at fits
  rw [List.length_drop]
  omega

/-- The bytes of the second list are all that is left. -/
theorem LengthFits.isMulti (fits : LengthFits bigEndian iov) :
    macBytes (multiEntries bigEndian iov) = ((behindUni bigEndian iov).drop 4).length := by
  rw [LengthFits] at fits
  rw [List.length_drop, behindUni, List.length_drop, List.length_drop]
  omega

theorem readMacTable_of_lengthFits (fits : LengthFits bigEndian iov) :
    readMacTable bigEndian iov = some (tableOf bigEndian iov) := by
  have hasList := fits.hasUni
  have isRest := fits.isMulti
  rw [LengthFits] at fits
  have lengths : (behindUni bigEndian iov).length =
      iov.length - 4 - macBytes (countOf bigEndian iov) := by
    rw [behindUni, List.length_drop, List.length_drop]
  have hasSecond : readEntries bigEndian (behindUni bigEndian iov) =
      some (multiEntries bigEndian iov, (behindUni bigEndian iov).drop 4) := by
    rw [readEntries_eq, if_pos (by omega)]
    rfl
  rw [readMacTable, readEntries_eq, if_pos (by omega), Option.bind_some]
  dsimp only
  rw [if_neg (Nat.not_lt.mpr hasList), copyMacs_eq _ hasList, Option.bind_some, ← behindUni,
    hasSecond, Option.bind_some, if_neg (not_not.mpr isRest),
    copyMacs_eq _ (Nat.le_of_eq isRest), Option.map_some]
  rfl

theorem lengthFits_of_readMacTable {table : MacTable}
    (taken : readMacTable bigEndian iov = some table) : LengthFits bigEndian iov := by
  obtain ⟨⟨entries, rest⟩, first, taken⟩ := Option.bind_eq_some_iff.mp taken
  rw [readEntries_eq] at first
  obtain ⟨hasCount, isFirst⟩ := Option.ite_none_right_eq_some.mp first
  cases isFirst
  obtain ⟨hasList, taken⟩ := Option.ite_none_left_eq_some.mp taken
  obtain ⟨⟨unicast, uniOverflow⟩, -, taken⟩ := Option.bind_eq_some_iff.mp taken
  obtain ⟨⟨entries, rest⟩, second, taken⟩ := Option.bind_eq_some_iff.mp taken
  rw [readEntries_eq] at second
  obtain ⟨hasSecond, isSecond⟩ := Option.ite_none_right_eq_some.mp second
  cases isSecond
  obtain ⟨isRest, -⟩ := Option.ite_none_left_eq_some.mp taken
  simp only [List.length_drop] at hasList hasSecond isRest
  rw [LengthFits, multiEntries, behindUni]
  omega

/-! ### The entries of the table -/

/-- The addresses in a list of a payload. -/
def listed (bytes : List UInt8) (count : Nat) : List (List UInt8) :=
  (List.range count).map fun i => (bytes.drop (i * 6)).take 6

theorem copied_inUse (entries : BitVec 32) (iov : List UInt8)
    (inside : reading.inUse ≤ macTableEntries) :
    reading.inUse ≤ (copied reading entries iov).1.inUse ∧
      (copied reading entries iov).1.inUse ≤ macTableEntries := by
  rw [copied]
  split
  · exact ⟨Nat.le_add_right .., by dsimp only; omega⟩
  · exact ⟨Nat.le_refl _, inside⟩

theorem tableOf_bounds (bigEndian : Bool) (iov : List UInt8) :
    (tableOf bigEndian iov).firstMulti ≤ (tableOf bigEndian iov).inUse ∧
      (tableOf bigEndian iov).inUse ≤ macTableEntries :=
  copied_inUse _ _ _ (copied_inUse _ _ _ (Nat.zero_le _)).2

/-- Promiscuous mode is off, and so are all modes that take or refuse a whole kind of frames. -/
structure RxModes.Plain (modes : RxModes) : Prop where
  promisc : modes.promisc = 0
  allmulti : modes.allmulti = 0
  alluni : modes.alluni = 0
  nomulti : modes.nomulti = 0
  nouni : modes.nouni = 0
  nobcast : modes.nobcast = 0

/-- A payload of the right length replaces the table, any other one changes nothing. -/
theorem handleMac_tableSet (n : VirtIONet) (iov : List UInt8) :
    handleMac n ctrlMacTableSet iov =
      if LengthFits n.conf.bigEndian iov then
        (rxfilterNotify { n with
          modes := { n.modes with macTable := tableOf n.conf.bigEndian iov } }, .ok)
      else (n, .err) := by
  rw [handleMac, if_neg (by decide), if_neg (by decide)]
  by_cases fits : LengthFits n.conf.bigEndian iov
  · rw [if_pos fits, readMacTable_of_lengthFits fits]
  · rw [if_neg fits, Option.eq_none_iff_forall_ne_some.mpr fun table taken =>
      fits (lengthFits_of_readMacTable taken)]

end StudyNotes.NetDevice
