/-
This file proves what `build_zonelists` puts into the zonelist of a node.
-/

import Mathlib.Data.List.Nodup
import Mathlib.Data.List.Perm.Subperm
import Mathlib.Data.List.ProdSigma
import Mathlib.Logic.Function.Basic

namespace StudyNotes.Zone

open Function

/-- `MAX_NR_ZONES`. -/
def maxNrZones : Nat := 3

/-- The nodes of a machine, with the `present_pages` of their `node_zones`. -/
structure Nodes where
  maxNumnodes : Nat
  online : Nat → Bool
  presentPages : Nat → Nat → Nat

/-- A zone as its node and its index there, or `NULL`, and `zone_idx`. -/
structure Zoneref where
  zone : Option (Nat × Nat)
  zoneIdx : Nat

/-- `_zonerefs` and the number of zones that have been set. -/
abbrev Zonelist := (Nat → Zoneref) × Nat

/-- `zoneref_set_zone` on the next free entry. -/
def zonerefSetZone (zone : Nat × Nat) (list : Zonelist) : Zonelist :=
  (update list.1 list.2 ⟨some zone, zone.2⟩, list.2 + 1)

/-- The loop of `build_zonelists_node`, below a zone type. -/
def buildZonelistsNode (nodes : Nodes) (node : Nat) : Nat → Zonelist → Zonelist
  | 0, list => list
  | zoneType + 1, list => buildZonelistsNode nodes node zoneType <|
    if nodes.presentPages node zoneType ≠ 0 then zonerefSetZone (node, zoneType) list else list

/-- A turn of the loops over the other nodes. -/
def buildTurn (nodes : Nodes) (list : Zonelist) (node : Nat) : Zonelist :=
  if nodes.online node then buildZonelistsNode nodes node maxNrZones list else list

variable (nodes : Nodes) (localNode : Nat)

/-- `build_zonelists`: the node itself, those behind it, those before it, and `NULL`. -/
def buildZonelists (zonerefs : Nat → Zoneref) : Nat → Zoneref :=
  let list := buildZonelistsNode nodes localNode maxNrZones (zonerefs, 0)
  let list := (List.range' (localNode + 1) (nodes.maxNumnodes - (localNode + 1))).foldl
    (buildTurn nodes) list
  let list := (List.range localNode).foldl (buildTurn nodes) list
  update list.1 list.2 ⟨none, 0⟩

/-- The populated zones of a node below a zone type, the highest first. -/
def Nodes.populated (nodes : Nodes) (zoneType node : Nat) : List (Nat × Nat) :=
  ((List.range zoneType).reverse.filter fun zone => nodes.presentPages node zone ≠ 0).map (node, ·)

/-- The nodes from the local one on, and then from the first one on. -/
def Nodes.fallback : List Nat :=
  localNode :: (List.range' (localNode + 1) (nodes.maxNumnodes - (localNode + 1)) ++
    List.range localNode).filter nodes.online

/-- What belongs into the zonelist, in its order. -/
def Nodes.zones : List (Nat × Nat) :=
  (nodes.fallback localNode).flatMap (nodes.populated maxNrZones)

/-- A zonelist with the given zones, over what was there. -/
def filled (zonerefs : Nat → Zoneref) (zones : List (Nat × Nat)) : Zonelist :=
  (fun i => (zones[i]?.map fun zone => ⟨some zone, zone.2⟩).getD (zonerefs i), zones.length)

variable {nodes localNode} {zonerefs : Nat → Zoneref}

theorem zonerefSetZone_filled (zones : List (Nat × Nat)) (zone : Nat × Nat) :
    zonerefSetZone zone (filled zonerefs zones) = filled zonerefs (zones ++ [zone]) := by
  simp only [zonerefSetZone, filled, List.length_append, List.length_singleton]
  congr 1
  funext i
  grind

theorem buildZonelistsNode_filled (node zoneType : Nat) (zones : List (Nat × Nat)) :
    buildZonelistsNode nodes node zoneType (filled zonerefs zones) =
      filled zonerefs (zones ++ nodes.populated zoneType node) := by
  induction zoneType generalizing zones with
  | zero => exact congrArg (filled zonerefs) (List.append_nil zones).symm
  | succ zoneType inductionHypothesis =>
    rw [buildZonelistsNode]
    split
    next hasPages =>
      rw [zonerefSetZone_filled, inductionHypothesis]
      simp [Nodes.populated, List.range_succ, hasPages]
    next empty =>
      rw [inductionHypothesis]
      simp [Nodes.populated, List.range_succ, empty]

theorem foldl_buildTurn_filled (others : List Nat) (zones : List (Nat × Nat)) :
    others.foldl (buildTurn nodes) (filled zonerefs zones) =
      filled zonerefs
        (zones ++ (others.filter nodes.online).flatMap (nodes.populated maxNrZones)) := by
  induction others generalizing zones with
  | nil => simp
  | cons node rest inductionHypothesis =>
    rw [List.foldl_cons, buildTurn]
    split
    next online => simp [buildZonelistsNode_filled, inductionHypothesis, online]
    next offline => simp [inductionHypothesis, offline]

theorem nodup_fallback : (nodes.fallback localNode).Nodup := by
  have nodup : (List.range' (localNode + 1) (nodes.maxNumnodes - (localNode + 1)) ++
      List.range localNode).Nodup := by
    refine List.nodup_append.mpr ⟨List.nodup_range', List.nodup_range, ?_⟩
    grind
  refine List.nodup_cons.mpr ⟨?_, List.Pairwise.filter _ nodup⟩
  grind

theorem mem_zones (inside : localNode < nodes.maxNumnodes) (node zone : Nat) :
    (node, zone) ∈ nodes.zones localNode ↔
      node < nodes.maxNumnodes ∧ (node = localNode ∨ nodes.online node = true) ∧
        zone < maxNrZones ∧ nodes.presentPages node zone ≠ 0 := by
  have mem_fallback : node ∈ nodes.fallback localNode ↔
      node < nodes.maxNumnodes ∧ (node = localNode ∨ nodes.online node = true) := by
    grind [Nodes.fallback]
  rw [← and_assoc, ← mem_fallback]
  simp [Nodes.zones, Nodes.populated]

theorem nodup_zones : (nodes.zones localNode).Nodup := by
  refine List.pairwise_flatMap.mpr ⟨fun node _ => ?_, nodup_fallback.imp fun differs => ?_⟩
  · refine ((List.nodup_reverse.mpr List.nodup_range).filter _).map fun zone other same => ?_
    exact (Prod.mk.inj same).2
  · simp [Nodes.populated]
    grind

/--
The zonelist of a node has the populated zones of the node itself, of the online nodes behind it
and of those before it, each once and the zones of a node by descending index. `NULL` follows
them, and nothing behind it is written.
-/
theorem buildZonelists_eq (inside : localNode < nodes.maxNumnodes) (zonerefs : Nat → Zoneref) :
    buildZonelists nodes localNode zonerefs =
        update (filled zonerefs (nodes.zones localNode)).1
          (nodes.zones localNode).length ⟨none, 0⟩ ∧
      (nodes.zones localNode).length ≤ nodes.maxNumnodes * maxNrZones ∧
      (nodes.zones localNode).Nodup ∧
      ∀ node zone, (node, zone) ∈ nodes.zones localNode ↔
        node < nodes.maxNumnodes ∧ (node = localNode ∨ nodes.online node = true) ∧
          zone < maxNrZones ∧ nodes.presentPages node zone ≠ 0 := by
  refine ⟨?_, ?_, nodup_zones, mem_zones inside⟩
  · have empty : (zonerefs, 0) = filled zonerefs [] := rfl
    simp only [buildZonelists, empty, buildZonelistsNode_filled, foldl_buildTurn_filled]
    simp [filled, Nodes.zones, Nodes.fallback]
  · have within : nodes.zones localNode ⊆
        List.range nodes.maxNumnodes ×ˢ List.range maxNrZones := by
      rintro ⟨node, zone⟩ member
      obtain ⟨isNode, -, isZone, -⟩ := (mem_zones inside node zone).mp member
      simp [isNode, isZone]
    have few := (List.subperm_of_subset nodup_zones within).length_le
    rwa [List.length_product, List.length_range, List.length_range] at few

/-- Four nodes, of which one is offline, with the populated zones up to their own number. -/
def fourNodes : Nodes where
  maxNumnodes := 4
  online node := node ≠ 2
  presentPages node zone := if zone ≤ node then 4 else 0

theorem buildZonelists_eq_four :
    buildZonelists fourNodes 1 (fun _ => ⟨none, 7⟩) =
      update (filled (fun _ => ⟨none, 7⟩)
        [(1, 1), (1, 0), (3, 2), (3, 1), (3, 0), (0, 0)]).1 6 ⟨none, 0⟩ :=
  (buildZonelists_eq (by decide) _).1

end StudyNotes.Zone
