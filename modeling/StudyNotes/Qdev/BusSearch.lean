/-
This file proves what the search for a bus finds: the first match in preorder
that is not full, and the first match at all if every match is full.
-/

import Mathlib.Data.Option.Basic

namespace StudyNotes.Qdev

/-! ### The search -/

/-- `BusState`. Its children are devices, of which the search only reads their buses. -/
inductive Bus where
  | mk (name : String) (types : List String) (full : Bool) (children : List (List Bus))

/-- `qbus_is_full`. -/
def Bus.isFull : Bus → Bool
  | .mk _ _ full _ => full

/-- The test of a bus by `qbus_find_recursive`. -/
def Bus.isMatch (name : Option String) (busTypename : String) : Bus → Bool
  | .mk busName types _ _ =>
    match name with
    | some name => busName == name
    | none => types.contains busTypename

section Search

variable (isMatch : Bus → Bool)

mutual

/-- `qbus_find_recursive`, for any test. -/
def findRecursive : Bus → Option Bus
  | .mk name types full children =>
    let bus := .mk name types full children
    if isMatch bus && !bus.isFull then some bus
    else searchChildren (if isMatch bus then some bus else none) children

/-- The loops of `qbus_find_recursive` over the devices and the buses of each. -/
def searchChildren (pick : Option Bus) : List (List Bus) → Option Bus
  | [] => pick
  | [] :: devices => searchChildren pick devices
  | (child :: siblings) :: devices =>
    match findRecursive child with
    | some ret =>
      if ret.isFull then searchChildren (pick.or ret) (siblings :: devices) else ret
    | none => searchChildren pick (siblings :: devices)

end

/-- `qbus_find_recursive`. -/
def qbusFindRecursive (name : Option String) (busTypename : String) : Bus → Option Bus :=
  findRecursive (Bus.isMatch name busTypename)

/-! ### What it finds -/

mutual

/-- The buses of a tree in preorder. -/
def Bus.preorder : Bus → List Bus
  | .mk name types full children => .mk name types full children :: preorderChildren children

/-- The buses of the trees of the devices. -/
def preorderChildren : List (List Bus) → List Bus
  | [] => []
  | [] :: devices => preorderChildren devices
  | (child :: siblings) :: devices => child.preorder ++ preorderChildren (siblings :: devices)

end

/-- A match that is not full comes before the pick, and the pick before any other match. -/
def preferred (pick : Option Bus) (buses : List Bus) : Option Bus :=
  (buses.find? fun bus => isMatch bus && !bus.isFull).or (pick.or (buses.find? isMatch))

/-- The search can stop at a match that is not full, and has to go on behind any other. -/
theorem preferred_append (pick : Option Bus) (buses others : List Bus) :
    preferred isMatch pick (buses ++ others) =
      match preferred isMatch none buses with
      | some ret => if ret.isFull then preferred isMatch (pick.or ret) others else ret
      | none => preferred isMatch pick others := by
  simp only [preferred, List.find?_append, Option.none_or]
  cases free : buses.find? fun bus => isMatch bus && !bus.isFull with
  | some ret =>
    have notFull := List.find?_some free
    simp_all
  | none =>
    cases found : buses.find? isMatch with
    | some ret =>
      have isFull := List.find?_eq_none.mp free ret (List.mem_of_find?_eq_some found)
      have matched := List.find?_some found
      simp_all
    | none => simp

mutual

theorem findRecursive_eq : ∀ bus,
    findRecursive isMatch bus = preferred isMatch none bus.preorder
  | .mk name types full children => by
    rw [findRecursive, searchChildren_eq]
    cases full with
    | true | false =>
      cases matched : isMatch (.mk name types _ children) with
      | true | false => simp [Bus.preorder, preferred, matched, Bus.isFull]

theorem searchChildren_eq (pick : Option Bus) : ∀ children,
    searchChildren isMatch pick children = preferred isMatch pick (preorderChildren children)
  | [] => by simp [searchChildren, preorderChildren, preferred]
  | [] :: devices => by
    rw [searchChildren, preorderChildren]
    exact searchChildren_eq pick devices
  | (child :: siblings) :: devices => by
    rw [searchChildren, preorderChildren, preferred_append, findRecursive_eq child]
    simp only [searchChildren_eq _ (siblings :: devices)]

end

end Search

/-- The search prefers a match that is not full, and finds nothing only if there is no match. -/
theorem qbusFindRecursive_first (name : Option String) (busTypename : String) (bus : Bus) :
    qbusFindRecursive name busTypename bus =
        (bus.preorder.find? fun bus => bus.isMatch name busTypename && !bus.isFull).or
          (bus.preorder.find? (·.isMatch name busTypename)) ∧
      (qbusFindRecursive name busTypename bus = none ↔
        ∀ found ∈ bus.preorder, found.isMatch name busTypename = false) := by
  rw [qbusFindRecursive, findRecursive_eq, preferred, Option.none_or]
  refine ⟨rfl, ?_⟩
  simp only [Option.or_eq_none_iff, List.find?_eq_none]
  grind

end StudyNotes.Qdev
