/-
This file proves that the subregions of a container are ordered by priority and, among equals, by
age, in whatever order they are added, so that the highest and newest region is rendered.
-/

import Mathlib.Data.List.Induction
import Mathlib.Data.List.Sort
import StudyNotes.Memory.Render

namespace StudyNotes.Memory

/-- A subregion and its `priority`. -/
structure Subregion where
  region : MemoryRegion
  priority : Int

/-- `memory_region_update_container_subregions`: the subregion goes before the first of the list
whose priority is not above its own, or to the tail. The search for collisions has no effect. -/
def updateContainerSubregions (subregion : Subregion) (subregions : List Subregion) :
    List Subregion :=
  subregions.orderedInsert (fun subregion other => subregion.priority ≥ other.priority) subregion

/-- The list after all additions, the oldest first. -/
def subregionsOf (added : List Subregion) : List Subregion :=
  added.foldl (fun subregions subregion => updateContainerSubregions subregion subregions) []

/-- Higher priority, then most recently added. -/
def Subregion.Wins (added : List Subregion) (subregion other : Subregion) : Prop :=
  other.priority < subregion.priority ∨
    other.priority = subregion.priority ∧ [other, subregion].Sublist added

theorem updateContainerSubregions_pairwise {added subregions : List Subregion}
    (subregion : Subregion) (members : ∀ other ∈ subregions, other ∈ added)
    (ordered : subregions.Pairwise (Subregion.Wins added)) :
    (updateContainerSubregions subregion subregions).Pairwise
      (Subregion.Wins (added ++ [subregion])) := by
  have later {one other : Subregion} (wins : one.Wins added other) :
      one.Wins (added ++ [subregion]) other :=
    wins.imp_right (And.imp_right fun before => before.trans (List.sublist_append_left ..))
  unfold updateContainerSubregions
  induction subregions with
  | nil => exact List.pairwise_singleton _ _
  | cons other rest inductionHypothesis =>
    rw [List.forall_mem_cons] at members
    have ⟨first, others⟩ := List.pairwise_cons.mp ordered
    rw [List.orderedInsert_cons]
    split
    · next above =>
      refine List.pairwise_cons.mpr ⟨fun one isOne => ?_, ordered.imp later⟩
      have isAdded : [one].Sublist added :=
        List.singleton_sublist.mpr ((List.forall_mem_cons.mpr members) one isOne)
      have : one.priority ≤ other.priority := by
        rcases List.mem_cons.mp isOne with rfl | isRest
        · exact Int.le_refl _
        · have := first one isRest
          unfold Subregion.Wins at this
          omega
      rcases Int.lt_or_eq_of_le (Int.le_trans this above) with less | same
      · exact .inl less
      · exact .inr ⟨same, isAdded.append (.refl [subregion])⟩
    · next below =>
      refine List.pairwise_cons.mpr ⟨fun one isOne => ?_, inductionHypothesis members.2 others⟩
      rcases (List.mem_orderedInsert _).mp isOne with rfl | isRest
      · exact .inl (Int.not_le.mp below)
      · exact later (first one isRest)

theorem subregionsOf_spec (added : List Subregion) :
    (subregionsOf added).Perm added ∧ (subregionsOf added).Pairwise (Subregion.Wins added) := by
  induction added using List.reverseRecOn with
  | nil => exact ⟨.refl _, .nil⟩
  | append_singleton added subregion inductionHypothesis =>
    obtain ⟨perm, ordered⟩ := inductionHypothesis
    rw [subregionsOf, List.foldl_concat, ← subregionsOf]
    exact ⟨((List.perm_orderedInsert ..).trans (perm.cons _)).trans
      (List.perm_append_singleton _ _).symm,
      updateContainerSubregions_pairwise subregion (fun _ => perm.mem_iff.mp) ordered⟩

theorem lookupSubregions_eq_findSome (subregions : List Subregion) (base addr : Int) :
    lookupSubregions (subregions.map Subregion.region) base addr =
      subregions.findSome? (fun subregion => lookup subregion.region base addr) := by
  induction subregions with
  | nil => rfl
  | cons subregion rest inductionHypothesis =>
    rw [List.map_cons, lookupSubregions, inductionHypothesis, List.findSome?_cons]
    cases lookup subregion.region base addr with
    | none | some found => rfl

/--
After any additions the list holds the added regions, ordered by priority and age. Rendering it
shows at every address the region of those which answer there that wins against the others.
-/
theorem subregionsOf_ordered (host : Host) (gets : host.Gets64) (added : List Subregion) :
    let subregions := (subregionsOf added).map Subregion.region
    (subregionsOf added).Perm added ∧ (subregionsOf added).Pairwise (Subregion.Wins added) ∧
    Renders host (fun view => renderSubregions host view subregions)
      (lookupSubregions subregions) ∧
    ∀ base addr, match lookupSubregions subregions base addr with
      | none => ∀ other ∈ added, lookup other.region base addr = none
      | some found => ∃ subregion ∈ added, lookup subregion.region base addr = some found ∧
        ∀ other ∈ added, lookup other.region base addr ≠ none →
          other = subregion ∨ subregion.Wins added other := by
  obtain ⟨perm, ordered⟩ := subregionsOf_spec added
  refine ⟨perm, ordered, renderSubregions_renders gets _, fun base addr => ?_⟩
  rw [lookupSubregions_eq_findSome]
  split
  · next isNone =>
    rw [List.findSome?_eq_none_iff] at isNone
    exact fun other isOther => isNone other (perm.mem_iff.mpr isOther)
  · next isFound =>
    obtain ⟨before, subregion, after, split, isFound, passed⟩ :=
      List.findSome?_eq_some_iff.mp isFound
    rw [split] at perm ordered
    refine ⟨subregion, perm.mem_iff.mp (by simp), isFound, fun other isOther answers => ?_⟩
    rcases List.mem_append.mp (perm.mem_iff.mpr isOther) with isBefore | isAfter
    · exact absurd (passed other isBefore) answers
    · exact (List.mem_cons.mp isAfter).imp_right
        ((List.pairwise_cons.mp (List.pairwise_append.mp ordered).2.1).1 other)

/-- A read-only window over the start of a RAM, that was added before it with a higher priority. -/
theorem subregionsOf_ordered_two :
    let ram := leafRegion 0 0 0x4000 (by decide) false
    let window := leafRegion 1 0 0x1000 (by decide) true
    plainHost.Gets64 ∧ Renders plainHost (fun view => renderSubregions plainHost view [window, ram])
      (lookupSubregions [window, ram]) := by
  intro ram window
  obtain ⟨-, -, renders, -⟩ :=
    subregionsOf_ordered plainHost plainHost_gets64 [⟨window, 1⟩, ⟨ram, 0⟩]
  exact ⟨plainHost_gets64, renders⟩

end StudyNotes.Memory
