/-
This file builds the theory of lists of half-open ranges over a linear order.

A list is ordered when every item is non-empty and every item ends before the
next one starts; the item at a point is then unique. Two operations on such
lists recur in allocators and in address maps. Filling the gaps of a list below
a bound adds a new item wherever no old item lies, and old items win. Removing
a window drops the items inside it. Both are described by the item they leave
at each point.
-/

import Mathlib.Data.List.Basic
import Mathlib.Order.MinMax

namespace StudyNotes.Library

/-- Items that occupy a half-open range `[lo, hi)` of a linear order. -/
class Ranged (Item : Type) (Point : outParam Type) where
  lo : Item → Point
  hi : Item → Point

export Ranged (lo hi)

section Ordered

variable {Item Point : Type} [LinearOrder Point] [Ranged Item Point]

/-- The item covers the point. -/
def Covers (item : Item) (point : Point) : Prop := lo item ≤ point ∧ point < hi item

instance (item : Item) (point : Point) : Decidable (Covers item point) :=
  inferInstanceAs (Decidable (_ ∧ _))

/-- The first item that covers the point. -/
def itemAt (items : List Item) (point : Point) : Option Item :=
  items.find? fun item => decide (Covers item point)

/-- Non-empty items, each of which ends before every later one starts. -/
structure Ordered (items : List Item) : Prop where
  nonempty : ∀ item ∈ items, lo item < hi item
  apart : items.Pairwise fun first second => hi first ≤ lo second

@[simp] theorem itemAt_nil (point : Point) : itemAt ([] : List Item) point = none := rfl

theorem itemAt_cons (item : Item) (rest : List Item) (point : Point) :
    itemAt (item :: rest) point =
      if Covers item point then some item else itemAt rest point := by
  unfold itemAt
  by_cases covered : Covers item point
  · simp [covered]
  · simp [covered]

variable {items : List Item}

theorem mem_of_itemAt {point : Point} {item : Item}
    (found : itemAt items point = some item) : item ∈ items :=
  List.mem_of_find?_eq_some found

theorem covers_of_itemAt {point : Point} {item : Item}
    (found : itemAt items point = some item) : Covers item point := by
  simpa using List.find?_some found

theorem itemAt_eq_none_iff (items : List Item) (point : Point) :
    itemAt items point = none ↔ ∀ item ∈ items, ¬ Covers item point := by
  unfold itemAt
  simp

theorem ordered_nil : Ordered ([] : List Item) := ⟨by simp, List.Pairwise.nil⟩

theorem ordered_cons_iff {item : Item} {rest : List Item} :
    Ordered (item :: rest) ↔
      lo item < hi item ∧ (∀ other ∈ rest, hi item ≤ lo other) ∧ Ordered rest := by
  constructor
  · rintro ⟨nonempty, apart⟩
    rw [List.pairwise_cons] at apart
    exact ⟨nonempty item List.mem_cons_self, apart.1,
      fun other member => nonempty other (List.mem_cons_of_mem _ member), apart.2⟩
  · rintro ⟨headNonempty, headApart, restNonempty, restApart⟩
    exact ⟨List.forall_mem_cons.mpr ⟨headNonempty, restNonempty⟩,
      List.pairwise_cons.mpr ⟨headApart, restApart⟩⟩

theorem Ordered.tail {item : Item} (ordered : Ordered (item :: items)) : Ordered items :=
  (ordered_cons_iff.mp ordered).2.2

theorem ordered_append_iff (first second : List Item) :
    Ordered (first ++ second) ↔
      Ordered first ∧ Ordered second ∧ ∀ a ∈ first, ∀ b ∈ second, hi a ≤ lo b := by
  constructor
  · rintro ⟨nonempty, apart⟩
    rw [List.pairwise_append] at apart
    exact ⟨⟨fun a member => nonempty a (List.mem_append_left _ member), apart.1⟩,
      ⟨fun b member => nonempty b (List.mem_append_right _ member), apart.2.1⟩, apart.2.2⟩
  · rintro ⟨left, right, across⟩
    exact ⟨List.forall_mem_append.mpr ⟨left.nonempty, right.nonempty⟩,
      List.pairwise_append.mpr ⟨left.apart, right.apart, across⟩⟩

/-- In an ordered list the item at a point is the only one that covers it. -/
theorem Ordered.itemAt_eq_some_iff (ordered : Ordered items) (point : Point) (item : Item) :
    itemAt items point = some item ↔ item ∈ items ∧ Covers item point := by
  constructor
  · intro found
    exact ⟨mem_of_itemAt found, covers_of_itemAt found⟩
  · rintro ⟨member, covered⟩
    induction items with
    | nil => cases member
    | cons head rest inductionHypothesis =>
      obtain ⟨-, headApart, restOrdered⟩ := ordered_cons_iff.mp ordered
      rw [itemAt_cons]
      rcases List.mem_cons.mp member with rfl | inRest
      · rw [if_pos covered]
      · have notHead : ¬ Covers head point := fun headCovers =>
          absurd (lt_of_lt_of_le headCovers.2 (headApart item inRest)) (not_lt.mpr covered.1)
        rw [if_neg notHead]
        exact inductionHypothesis restOrdered inRest

end Ordered

/-! ### Filling the gaps -/

variable {Payload : Type}

section FillGaps

variable {Item Point : Type} [LinearOrder Point] [Ranged Item Point]

/-- Add `piece a b` for every gap `[a, b)` that the items leave in `[start, stop)`. -/
def fillGaps (piece : Point → Point → Item) (stop : Point) : Point → List Item → List Item
  | start, [] => if start < stop then [piece start stop] else []
  | start, item :: rest =>
    if stop ≤ lo item then
      (if start < stop then [piece start stop] else []) ++ item :: rest
    else if hi item ≤ start then
      item :: fillGaps piece stop start rest
    else if start < lo item then
      piece start (lo item) :: item :: fillGaps piece stop (min (hi item) stop) rest
    else
      item :: fillGaps piece stop (min (hi item) stop) rest

variable {piece : Point → Point → Item} {stop start : Point} {items : List Item}

/-- Past the end of the window nothing is added. -/
theorem fillGaps_of_le (past : stop ≤ start) (items : List Item) :
    fillGaps piece stop start items = items := by
  induction items generalizing start with
  | nil => simp [fillGaps, not_lt.mpr past]
  | cons head rest inductionHypothesis =>
    simp only [fillGaps, if_neg (not_lt.mpr past), List.nil_append]
    split
    · rfl
    · next before =>
      have noGap : ¬ start < lo head := fun gap =>
        before (le_of_lt (lt_of_le_of_lt past gap))
      split
      · rw [inductionHypothesis past]
      · next reaches =>
        have clipped : min (hi head) stop = stop :=
          min_eq_right (le_trans past (le_of_lt (not_le.mp reaches)))
        rw [clipped, inductionHypothesis (le_refl stop)]

/-- What is left of the window before the head is a gap, and the rest is filled from where the
head and the window end. -/
theorem fillGaps_cons (within : start ≤ stop) {head : Item} (nonempty : lo head < hi head)
    (rest : List Item) :
    fillGaps piece stop start (head :: rest) =
      (if start < min stop (lo head) then [piece start (min stop (lo head))] else []) ++
        head :: fillGaps piece stop (max start (min stop (hi head))) rest := by
  simp only [fillGaps]
  split
  · next beyond =>
    rw [min_eq_left beyond, min_eq_left (beyond.trans nonempty.le), max_eq_right within,
      fillGaps_of_le le_rfl]
  · next before =>
    rw [min_eq_right (not_le.mp before).le]
    split
    · next skipped =>
      rw [if_neg (not_lt.mpr (nonempty.le.trans skipped)),
        max_eq_left (min_le_of_right_le skipped), List.nil_append]
    · next reaches =>
      rw [max_eq_right (le_min within (not_le.mp reaches).le), min_comm]
      split <;> rfl

/-- Every item is an old one or a new piece inside the window. -/
theorem mem_fillGaps (within : start ≤ stop) (ordered : Ordered items) {item : Item}
    (member : item ∈ fillGaps piece stop start items) :
    item ∈ items ∨ ∃ a b, item = piece a b ∧ start ≤ a ∧ a < b ∧ b ≤ stop := by
  induction items generalizing start with
  | nil =>
    simp only [fillGaps] at member
    split at member
    · next nonempty =>
      exact Or.inr ⟨start, stop, List.mem_singleton.mp member, le_refl _, nonempty, le_refl _⟩
    · cases member
  | cons head rest inductionHypothesis =>
    obtain ⟨nonempty, -, restOrdered⟩ := ordered_cons_iff.mp ordered
    rw [fillGaps_cons within nonempty] at member
    rcases List.mem_append.mp member with inGap | inTail
    · split at inGap
      · next gap =>
        exact Or.inr ⟨start, _, List.mem_singleton.mp inGap, le_refl _, gap, min_le_left _ _⟩
      · cases inGap
    · rcases List.mem_cons.mp inTail with rfl | inside
      · exact Or.inl List.mem_cons_self
      · rcases inductionHypothesis (max_le within (min_le_left _ _)) restOrdered inside with
          inRest | ⟨a, b, equal, low, nonempty, high⟩
        · exact Or.inl (List.mem_cons_of_mem _ inRest)
        · exact Or.inr ⟨a, b, equal, (le_max_left _ _).trans low, nonempty, high⟩

/-- The old items stay, in their order. -/
theorem sublist_fillGaps (piece : Point → Point → Item) (stop start : Point) (items : List Item) :
    items.Sublist (fillGaps piece stop start items) := by
  induction items generalizing start with
  | nil => exact List.nil_sublist _
  | cons head rest inductionHypothesis =>
    simp only [fillGaps]
    split
    · exact List.sublist_append_right _ _
    · split
      · exact (inductionHypothesis start).cons_cons head
      · split
        · exact ((inductionHypothesis _).cons_cons head).cons _
        · exact (inductionHypothesis _).cons_cons head

section

variable (low : ∀ a b, lo (piece a b) = a) (high : ∀ a b, a < b → hi (piece a b) = b)
include low high

/-- Filling the gaps of an ordered list keeps it ordered. -/
theorem Ordered.fillGaps (within : start ≤ stop) (ordered : Ordered items) :
    Ordered (fillGaps piece stop start items) := by
  induction items generalizing start with
  | nil =>
    simp only [Library.fillGaps]
    split
    · next nonempty =>
      simpa [ordered_cons_iff, low, high _ _ nonempty, nonempty] using ordered_nil
    · exact ordered_nil
  | cons head rest inductionHypothesis =>
    obtain ⟨headNonempty, headApart, restOrdered⟩ := ordered_cons_iff.mp ordered
    have inWindow : max start (min stop (hi head)) ≤ stop := max_le within (min_le_left _ _)
    -- The recursive call only adds pieces past the head.
    have behind : ∀ other ∈ Library.fillGaps piece stop (max start (min stop (hi head))) rest,
        hi head ≤ lo other := by
      intro other member
      rcases mem_fillGaps inWindow restOrdered member with
        inRest | ⟨a, b, rfl, lower, nonempty, upper⟩
      · exact headApart other inRest
      · rw [low]
        refine (min_le_iff.mp ((le_max_right _ _).trans lower)).resolve_left (not_le.mpr ?_)
        exact lt_of_lt_of_le nonempty upper
    have tail := ordered_cons_iff.mpr
      ⟨headNonempty, behind, inductionHypothesis inWindow restOrdered⟩
    rw [fillGaps_cons within headNonempty]
    split
    · next gap =>
      refine ordered_cons_iff.mpr ⟨by rwa [low, high _ _ gap], fun other member => ?_, tail⟩
      rw [high _ _ gap]
      refine (min_le_right _ _).trans ?_
      rcases List.mem_cons.mp member with rfl | inside
      · exact le_refl _
      · exact le_trans (le_of_lt headNonempty) (behind other inside)
    · exact tail

/-- Every point of the window is covered afterwards. -/
theorem exists_covers_fillGaps {stop point : Point} (lower : start ≤ point) (upper : point < stop)
    (ordered : Ordered items) : ∃ item ∈ fillGaps piece stop start items, Covers item point := by
  have whole (a b : Point) (left : a ≤ point) (right : point < b) : Covers (piece a b) point :=
    ⟨by rwa [low], by rwa [high _ _ (lt_of_le_of_lt left right)]⟩
  have nonempty : start < stop := lt_of_le_of_lt lower upper
  induction items generalizing start with
  | nil => exact ⟨piece start stop, by simp [fillGaps, nonempty], whole _ _ lower upper⟩
  | cons head rest inductionHypothesis =>
    obtain ⟨headNonempty, -, restOrdered⟩ := ordered_cons_iff.mp ordered
    rw [fillGaps_cons nonempty.le headNonempty]
    rcases lt_or_ge point (min stop (lo head)) with inGap | beyond
    · exact ⟨_, by simp [lower.trans_lt inGap], whole _ _ lower inGap⟩
    have fromHead := (min_le_iff.mp beyond).resolve_left (not_le.mpr upper)
    rcases lt_or_ge point (hi head) with inside | behind
    · exact ⟨head, by simp, fromHead, inside⟩
    · have left := max_le lower ((min_le_right stop _).trans behind)
      obtain ⟨item, member, covered⟩ :=
        inductionHypothesis left restOrdered (lt_of_le_of_lt left upper)
      exact ⟨item, List.mem_append_right _ (List.mem_cons_of_mem _ member), covered⟩

/-- What filling the gaps of an ordered list leaves at a point: the old item where there was
one, a new piece elsewhere in the window, and nothing outside. -/
theorem map_itemAt_fillGaps {payload : Item → Payload} {new : Payload} (within : start ≤ stop)
    (ordered : Ordered items) {point : Point}
    (isNew : ∀ a b, start ≤ a → a ≤ point → point < b → b ≤ stop → payload (piece a b) = new) :
    (itemAt (fillGaps piece stop start items) point).map payload =
      ((itemAt items point).map payload).or
        (if start ≤ point ∧ point < stop then some new else none) := by
  have filled := ordered.fillGaps low high within
  cases found : itemAt items point with
  | some item =>
    have member := (sublist_fillGaps piece stop start items).subset (mem_of_itemAt found)
    rw [(filled.itemAt_eq_some_iff point item).mpr ⟨member, covers_of_itemAt found⟩]
    rfl
  | none =>
    have isPiece {item : Item} (member : item ∈ fillGaps piece stop start items)
        (covered : Covers item point) :
        payload item = new ∧ start ≤ point ∧ point < stop := by
      rcases mem_fillGaps within ordered member with old | ⟨a, b, rfl, left, nonempty, right⟩
      · exact absurd covered ((itemAt_eq_none_iff items point).mp found item old)
      · simp only [Covers, low, high _ _ nonempty] at covered
        exact ⟨isNew a b left covered.1 covered.2 right, left.trans covered.1,
          covered.2.trans_le right⟩
    rw [Option.map_none, Option.none_or]
    split
    · next inside =>
      obtain ⟨item, member, covered⟩ :=
        exists_covers_fillGaps low high inside.1 inside.2 ordered
      rw [(filled.itemAt_eq_some_iff point item).mpr ⟨member, covered⟩, Option.map_some,
        (isPiece member covered).1]
    · next outside =>
      rw [(itemAt_eq_none_iff _ point).mpr fun item member covered =>
        outside (isPiece member covered).2, Option.map_none]

end

end FillGaps

/-! ### Cutting at a point -/

section Cut

variable {Item Point : Type} [LinearOrder Point] [Ranged Item Point]

variable (trim : Item → Point → Point → Item)

/-- The part of the items below a point. `trim item a b` is the item cut down to `[a, b)`. -/
def below (cut : Point) (items : List Item) : List Item :=
  items.filterMap fun item =>
    if hi item ≤ cut then some item
    else if lo item < cut then some (trim item (lo item) cut)
    else none

/-- The part of the items from a point on. -/
def above (cut : Point) (items : List Item) : List Item :=
  items.filterMap fun item =>
    if cut ≤ lo item then some item
    else if cut < hi item then some (trim item cut (hi item))
    else none

/-- Cutting every item down to the points of `inside` cuts the reading down to them. -/
theorem itemAt_filterMap (payload : Item → Payload) (keep : Item → Option Item) (inside : Prop)
    [Decidable inside] (items : List Item) (point : Point)
    (kept : ∀ item part, keep item = some part →
      payload part = payload item ∧ (Covers part point ↔ Covers item point ∧ inside))
    (gone : ∀ item, keep item = none → ¬ (Covers item point ∧ inside)) :
    (itemAt (items.filterMap keep) point).map payload =
      if inside then (itemAt items point).map payload else none := by
  induction items with
  | nil => simp
  | cons head rest inductionHypothesis =>
    rw [List.filterMap_cons, itemAt_cons]
    cases result : keep head with
    | none =>
      have outside := gone head result
      simp only [inductionHypothesis]
      by_cases held : inside
      · rw [if_neg fun covered => outside ⟨covered, held⟩]
      · simp only [if_neg held]
    | some part =>
      obtain ⟨same, span⟩ := kept head part result
      simp only [itemAt_cons]
      by_cases held : inside
      · by_cases covered : Covers head point
        · simp [span, covered, held, same]
        · simp [span, covered, held, inductionHypothesis]
      · simp [span, held, inductionHypothesis]

variable {trim} {items : List Item} {cut : Point} {part : Item}

/-- A point in no item past the cut: nothing lies below, and the items are all above. -/
theorem below_of_le (beyond : ∀ item ∈ items, cut ≤ lo item)
    (nonempty : ∀ item ∈ items, lo item < hi item) : below trim cut items = [] := by
  refine List.filterMap_eq_nil_iff.mpr fun item member => ?_
  have start := beyond item member
  rw [if_neg (not_le.mpr (lt_of_le_of_lt start (nonempty item member))), if_neg (not_lt.mpr start)]

theorem above_of_le (beyond : ∀ item ∈ items, cut ≤ lo item) : above trim cut items = items := by
  induction items with
  | nil => rfl
  | cons head rest inductionHypothesis =>
    have tail := inductionHypothesis fun item member => beyond item (List.mem_cons_of_mem _ member)
    rw [above, List.filterMap_cons, if_pos (beyond head List.mem_cons_self)]
    exact congrArg (head :: ·) tail

/-- What is left of an item that is kept whole or cut. -/
theorem cut_eq_some {whole sticks : Prop} [Decidable whole] [Decidable sticks] {item piece : Item}
    (result : (if whole then some item else if sticks then some piece else none) = some part) :
    (whole ∧ part = item) ∨ (¬ whole ∧ sticks ∧ part = piece) := by
  split at result
  · next fits => exact Or.inl ⟨fits, (Option.some.inj result).symm⟩
  · next beyond =>
    split at result
    · next starts => exact Or.inr ⟨beyond, starts, (Option.some.inj result).symm⟩
    · cases result

/-- An item below the cut is one of the old items, ends included, or the one that was cut. -/
theorem mem_below (member : part ∈ below trim cut items) : ∃ item ∈ items,
      (hi item ≤ cut ∧ part = item) ∨
        (cut < hi item ∧ lo item < cut ∧ part = trim item (lo item) cut) := by
  obtain ⟨item, inside, result⟩ := List.mem_filterMap.mp member
  exact ⟨item, inside, (cut_eq_some result).imp_right (And.imp_left not_le.mp)⟩

theorem mem_above (member : part ∈ above trim cut items) : ∃ item ∈ items,
      (cut ≤ lo item ∧ part = item) ∨
        (lo item < cut ∧ cut < hi item ∧ part = trim item cut (hi item)) := by
  obtain ⟨item, inside, result⟩ := List.mem_filterMap.mp member
  exact ⟨item, inside, (cut_eq_some result).imp_right (And.imp_left not_le.mp)⟩

/-- Shrinking items inside an ordered list keeps it ordered. -/
theorem Ordered.filterMap (ordered : Ordered items) (keep : Item → Option Item)
    (shrinks : ∀ item ∈ items, ∀ part, keep item = some part →
      lo item ≤ lo part ∧ lo part < hi part ∧ hi part ≤ hi item) :
    Ordered (items.filterMap keep) := by
  refine ⟨fun part member => ?_, ?_⟩
  · obtain ⟨item, inside, result⟩ := List.mem_filterMap.mp member
    exact (shrinks item inside part result).2.1
  · rw [List.pairwise_filterMap]
    refine ordered.apart.imp_of_mem fun firstMember secondMember apart part result other later => ?_
    exact le_trans (shrinks _ firstMember part result).2.2
      (le_trans apart (shrinks _ secondMember other later).1)

variable (low : ∀ item a b, lo (trim item a b) = a)
  (high : ∀ item a b, a < b → hi (trim item a b) = b)
include low high

section

variable (payload : Item → Payload) (same : ∀ item a b, payload (trim item a b) = payload item)
include payload same

/-- The items below a point read the same there and nothing from it on. -/
theorem itemAt_below (cut : Point) (items : List Item) (point : Point) :
    (itemAt (below trim cut items) point).map payload =
      if point < cut then (itemAt items point).map payload else none := by
  refine itemAt_filterMap payload _ (point < cut) items point (fun item part result => ?_)
    fun item result both => ?_
  · obtain ⟨fits, rfl⟩ | ⟨sticks, starts, rfl⟩ := cut_eq_some result
    · exact ⟨rfl, fun covered => ⟨covered, lt_of_lt_of_le covered.2 fits⟩, fun both => both.1⟩
    · refine ⟨same _ _ _, ?_⟩
      rw [Covers, low, high _ _ _ starts]
      exact ⟨fun span => ⟨⟨span.1, lt_trans span.2 (not_le.mp sticks)⟩, span.2⟩,
        fun both => ⟨both.1.1, both.2⟩⟩
  · rw [if_pos (lt_of_le_of_lt both.1.1 both.2)] at result
    split at result
    · cases result
    · cases result

/-- The items from a point on read the same there and nothing below it. -/
theorem itemAt_above (cut : Point) (items : List Item) (point : Point) :
    (itemAt (above trim cut items) point).map payload =
      if cut ≤ point then (itemAt items point).map payload else none := by
  refine itemAt_filterMap payload _ (cut ≤ point) items point (fun item part result => ?_)
    fun item result both => ?_
  · obtain ⟨starts, rfl⟩ | ⟨before, reaches, rfl⟩ := cut_eq_some result
    · exact ⟨rfl, fun covered => ⟨covered, le_trans starts covered.1⟩, fun both => both.1⟩
    · refine ⟨same _ _ _, ?_⟩
      rw [Covers, low, high _ _ _ reaches]
      exact ⟨fun span => ⟨⟨le_trans (le_of_lt (not_le.mp before)) span.1, span.2⟩, span.1⟩,
        fun both => ⟨both.2, both.1.2⟩⟩
  · rw [if_pos (lt_of_le_of_lt both.2 both.1.2)] at result
    split at result
    · cases result
    · cases result

end

theorem Ordered.below (ordered : Ordered items) (cut : Point) : Ordered (below trim cut items) := by
  refine ordered.filterMap _ fun item member part result => ?_
  obtain ⟨-, rfl⟩ | ⟨sticks, starts, rfl⟩ := cut_eq_some result
  · exact ⟨le_refl _, ordered.nonempty _ member, le_refl _⟩
  · rw [low, high _ _ _ starts]
    exact ⟨le_refl _, starts, le_of_lt (not_le.mp sticks)⟩

theorem Ordered.above (ordered : Ordered items) (cut : Point) : Ordered (above trim cut items) := by
  refine ordered.filterMap _ fun item member part result => ?_
  obtain ⟨-, rfl⟩ | ⟨before, reaches, rfl⟩ := cut_eq_some result
  · exact ⟨le_refl _, ordered.nonempty _ member, le_refl _⟩
  · rw [low, high _ _ _ reaches]
    exact ⟨le_of_lt (not_le.mp before), reaches, le_refl _⟩

omit low in
theorem hi_le_of_mem_below (member : part ∈ Library.below trim cut items) : hi part ≤ cut := by
  obtain ⟨item, -, ⟨fits, rfl⟩ | ⟨-, starts, rfl⟩⟩ := mem_below member
  · exact fits
  · rw [high _ _ _ starts]

omit high in
theorem le_lo_of_mem_above (member : part ∈ Library.above trim cut items) : cut ≤ lo part := by
  obtain ⟨item, -, ⟨starts, rfl⟩ | ⟨-, -, rfl⟩⟩ := mem_above member
  · exact starts
  · rw [low]

omit low high in
/-- Only one item of an ordered list is cut in two. -/
theorem Ordered.length_below_add_above (trim : Item → Point → Point → Item)
    (ordered : Ordered items) (cut : Point) :
    (Library.below trim cut items).length + (Library.above trim cut items).length ≤
      items.length + 1 := by
  induction items with
  | nil => simp [Library.below, Library.above]
  | cons head rest inductionHypothesis =>
    obtain ⟨nonempty, apart, restOrdered⟩ := ordered_cons_iff.mp ordered
    have beyond (starts : cut < hi head) : ∀ item ∈ rest, cut ≤ lo item := fun item member =>
      le_trans (le_of_lt starts) (apart item member)
    have tail := inductionHypothesis restOrdered
    rcases le_or_gt (hi head) cut with ends | sticks
    · have belowEq : Library.below trim cut (head :: rest) =
          head :: Library.below trim cut rest := by
        rw [Library.below, List.filterMap_cons, if_pos ends]
        rfl
      have aboveEq : Library.above trim cut (head :: rest) = Library.above trim cut rest := by
        rw [Library.above, List.filterMap_cons, if_neg (not_le.mpr (lt_of_lt_of_le nonempty ends)),
          if_neg (not_lt.mpr ends)]
        rfl
      rw [belowEq, aboveEq]
      simp only [List.length_cons]
      omega
    · have restBelow : Library.below trim cut rest = [] :=
        below_of_le (beyond sticks) restOrdered.nonempty
      have belowLength : (Library.below trim cut (head :: rest)).length ≤ 1 := by
        rw [show Library.below trim cut (head :: rest) =
          Library.below trim cut [head] ++ Library.below trim cut rest by
            simp [Library.below, ← List.filterMap_append], restBelow, List.append_nil]
        exact List.length_filterMap_le _ [head]
      have aboveLength : (Library.above trim cut (head :: rest)).length ≤ rest.length + 1 :=
        List.length_filterMap_le _ (head :: rest)
      simp only [List.length_cons]
      omega

end Cut

end StudyNotes.Library
