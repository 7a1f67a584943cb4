/-
This file proves when following a guest's chain of descriptors is safe.

The buffers of one descriptor are counted without the loop that makes them: one
for every run of huge pages that are mapped with the same shift. The walk over
the chain is safe exactly when there is a table with an entry to start from, the
chain has an end, and its descriptors have no more buffers than the caller has
room for. None of the three is checked by the code, and a descriptor that names
itself as the next one is followed for ever.
-/

import StudyNotes.VhostBlk.Chain

namespace StudyNotes.VhostBlk

open Library
open Virtqueue (VringDesc vringDescFNext vringDescFWrite vringDescFIndirect descSize)

/-! ### The buffers of one descriptor -/

/-- How far an address is moved by the mapping. -/
def shift (mem : BitVec 64 → BitVec 64) (addr : BitVec 64) : BitVec 64 := mem addr - addr

/-- The runs of pages with one shift, `count` pages from `boundary` on behind one with `last`. -/
def runs (mem : BitVec 64 → BitVec 64) (last boundary : BitVec 64) : Nat → Nat
  | 0 => 1
  | count + 1 =>
    if shift mem boundary = last then runs mem last (boundary + BitVec.ofNat 64 hugePage) count
    else 1 + runs mem (shift mem boundary) (boundary + BitVec.ofNat 64 hugePage) count

/-- How many of the boundaries `len`, `len + hugePage`, … are below `remaining`. -/
def boundaries (remaining len : Nat) : Nat := (remaining - len + (hugePage - 1)) / hugePage

/-- The number of buffers that the bytes from `payload` on need. -/
def pieceCount (mem : BitVec 64 → BitVec 64) (payload : BitVec 64) (remaining : Nat) : Nat :=
  if remaining = 0 then 0
  else runs mem (shift mem payload) (payload + BitVec.ofNat 64 (toBoundary payload))
    (boundaries remaining (toBoundary payload))

variable {remaining len : Nat}

theorem boundaries_eq_zero (none : boundaries remaining len = 0) : remaining ≤ len := by
  simp only [boundaries, hugePage] at none
  omega

theorem boundaries_of_le (past : remaining ≤ len) : boundaries remaining len = 0 := by
  simp only [boundaries, hugePage]
  omega

theorem boundaries_succ {count : Nat} (some : boundaries remaining len = count + 1) :
    len < remaining ∧ boundaries remaining (len + hugePage) = count := by
  simp only [boundaries, hugePage] at some ⊢
  omega

theorem toBoundary_pos (payload : BitVec 64) : 0 < toBoundary payload := by
  simp only [toBoundary, hugePage]
  omega

theorem toBoundary_aligned (payload : BitVec 64) :
    (payload.toNat + toBoundary payload) % hugePage = 0 := by
  simp only [toBoundary, hugePage]
  omega

section

variable (mem : BitVec 64 → BitVec 64)
include mem

/-- The comparison of the inner loop asks whether both places are moved equally far. -/
theorem mapped_eq_iff (payload offset : BitVec 64) :
    mem payload + offset = mem (payload + offset) ↔
      shift mem (payload + offset) = shift mem payload := by
  simp only [shift]
  generalize mem (payload + offset) = there
  constructor
  · rintro rfl
    bv_omega
  · intro same
    bv_omega

variable (payload : BitVec 64)

/--
The inner loop stops at the end of the bytes, or at the first boundary where the
shift changes, and there a new run of pages begins.
-/
theorem grow_returns (remaining : Nat) {count fuel : Nat}
    (aligned : len < remaining → (payload.toNat + len) % hugePage = 0) (within : len ≤ remaining)
    (isCount : boundaries remaining len = count) (enough : count < fuel) :
    ∃ stop, loop (growTurn mem payload remaining) fuel len = some stop ∧ len ≤ stop ∧
      ((stop = remaining ∧
          runs mem (shift mem payload) (payload + BitVec.ofNat 64 len) count = 1) ∨
        (stop < remaining ∧ (payload.toNat + stop) % hugePage = 0 ∧
          runs mem (shift mem payload) (payload + BitVec.ofNat 64 len) count =
            1 + runs mem (shift mem (payload + BitVec.ofNat 64 stop))
              (payload + BitVec.ofNat 64 stop + BitVec.ofNat 64 hugePage)
              (boundaries remaining (stop + hugePage)))) := by
  induction count generalizing len fuel with
  | zero =>
    have past := boundaries_eq_zero isCount
    obtain ⟨less, rfl⟩ : ∃ less, fuel = less + 1 := ⟨fuel - 1, by omega⟩
    have turn : growTurn mem payload remaining len = some (.done len) := by
      rw [growTurn, if_neg (by omega)]
    exact ⟨len, loop_done turn less, Nat.le_refl len, .inl ⟨by omega, rfl⟩⟩
  | succ count inductionHypothesis =>
    obtain ⟨below, restCount⟩ := boundaries_succ isCount
    obtain ⟨less, rfl⟩ : ∃ less, fuel = less + 1 := ⟨fuel - 1, by omega⟩
    by_cases same : shift mem (payload + BitVec.ofNat 64 len) = shift mem payload
    · have turn : growTurn mem payload remaining len =
          some (.again (len + min (remaining - len) hugePage)) := by
        rw [growTurn, if_pos below, if_neg (not_not_intro ((mapped_eq_iff mem payload _).mpr same))]
      rw [loop_again turn, runs, if_pos same]
      by_cases whole : hugePage ≤ remaining - len
      · rw [Nat.min_eq_right whole]
        have moved : payload + BitVec.ofNat 64 len + BitVec.ofNat 64 hugePage =
            payload + BitVec.ofNat 64 (len + hugePage) := by
          rw [BitVec.ofNat_add, BitVec.add_assoc]
        have nextAligned : (payload.toNat + (len + hugePage)) % hugePage = 0 := by
          rw [← Nat.add_assoc, Nat.add_mod_right]
          exact aligned below
        obtain ⟨stop, returned, later, outcome⟩ := inductionHypothesis
          (fun _ => nextAligned) (by omega) restCount (show count < less by omega)
        rw [moved]
        exact ⟨stop, returned, by omega, outcome⟩
      · -- the last page is not a whole one, and nothing is behind it
        have last : len + min (remaining - len) hugePage = remaining := by omega
        have isZero : count = 0 := by
          rw [← restCount]
          exact boundaries_of_le (by omega)
        subst isZero
        rw [last]
        obtain ⟨stop, returned, later, outcome⟩ := inductionHypothesis
          (fun absent => absurd absent (Nat.lt_irrefl _)) (Nat.le_refl remaining)
          (boundaries_of_le (Nat.le_refl remaining)) (show 0 < less by omega)
        have isStop : stop = remaining := by omega
        exact ⟨stop, returned, by omega, .inl ⟨isStop, rfl⟩⟩
    · have turn : growTurn mem payload remaining len = some (.done len) := by
        rw [growTurn, if_pos below,
          if_pos (fun equal => same ((mapped_eq_iff mem payload _).mp equal))]
      refine ⟨len, loop_done turn less, Nat.le_refl len, .inr ⟨below, aligned below, ?_⟩⟩
      rw [runs, if_neg same, restCount]

/-- The next buffer takes some bytes, and the rest needs one buffer less. -/
theorem pieceLen_returns (left : 0 < remaining) :
    ∃ len, pieceLen mem payload remaining = some len ∧ 0 < len ∧ len ≤ remaining ∧
      pieceCount mem payload remaining =
        1 + pieceCount mem (payload + BitVec.ofNat 64 len) (remaining - len) := by
  have positive := toBoundary_pos payload
  by_cases near : remaining ≤ toBoundary payload
  · refine ⟨remaining, by rw [pieceLen, if_pos near], left, Nat.le_refl _, ?_⟩
    rw [Nat.sub_self, pieceCount, if_neg (by omega), boundaries_of_le near]
    rfl
  · have enough : boundaries remaining (toBoundary payload) < remaining + 1 := by
      simp only [boundaries, hugePage]
      omega
    obtain ⟨stop, returned, later, outcome⟩ := grow_returns mem payload remaining
      (fun _ => toBoundary_aligned payload) (by omega) rfl enough
    rw [pieceLen, if_neg near, pieceCount, if_neg (by omega)]
    rcases outcome with ⟨rfl, single⟩ | ⟨below, aligned, changed⟩
    · refine ⟨stop, returned, left, Nat.le_refl _, ?_⟩
      rw [single, Nat.sub_self]
      rfl
    · refine ⟨stop, returned, by omega, by omega, ?_⟩
      have whole : toBoundary (payload + BitVec.ofNat 64 stop) = hugePage := by
        simp only [toBoundary, hugePage, BitVec.toNat_add, BitVec.toNat_ofNat] at aligned ⊢
        omega
      rw [changed, pieceCount, if_neg (by omega), whole, boundaries, boundaries, Nat.sub_sub]

theorem split_returns {fuel : Nat} (iovs : List Iovec) (enough : remaining < fuel) :
    ∃ pieces, loop (splitTurn mem) fuel (payload, remaining, iovs) = some (iovs ++ pieces) ∧
      pieces.length = pieceCount mem payload remaining := by
  induction fuel generalizing remaining payload iovs with
  | zero => exact absurd enough (Nat.not_lt_zero _)
  | succ fuel inductionHypothesis =>
    by_cases empty : remaining = 0
    · have turn : splitTurn mem (payload, remaining, iovs) = some (.done iovs) := by
        rw [splitTurn, if_pos empty]
      exact ⟨[], by rw [loop_done turn, List.append_nil], by rw [pieceCount, if_pos empty]; rfl⟩
    · obtain ⟨len, isLen, positive, within, counted⟩ :=
        pieceLen_returns mem payload (Nat.pos_of_ne_zero empty)
      obtain ⟨pieces, returned, isCount⟩ := inductionHypothesis
        (payload + BitVec.ofNat 64 len) (iovs ++ [{ base := mem payload, len := len }])
        (show remaining - len < fuel by omega)
      have turn : splitTurn mem (payload, remaining, iovs) =
          some (.again (payload + BitVec.ofNat 64 len, remaining - len,
            iovs ++ [{ base := mem payload, len := len }])) := by
        rw [splitTurn, if_neg empty, isLen, Option.map_some]
      refine ⟨{ base := mem payload, len := len } :: pieces, ?_, ?_⟩
      · rw [loop_again turn, returned, List.append_assoc, List.singleton_append]
      · rw [List.length_cons, isCount, counted, Nat.add_comm]

end

/-- The number of buffers of a descriptor. -/
def pieces (mem : BitVec 64 → BitVec 64) (desc : VringDesc) : Nat :=
  pieceCount mem desc.addr desc.len.toNat

theorem descToIov_returns (mem : BitVec 64 → BitVec 64) (desc : VringDesc) :
    ∃ iovs, descToIov mem desc = some iovs ∧ iovs.length = pieces mem desc := by
  obtain ⟨iovs, returned, isCount⟩ :=
    split_returns mem desc.addr [] (Nat.lt_succ_self desc.len.toNat)
  exact ⟨iovs, returned, isCount⟩

/-! ### The chain -/

section Chain

variable (mem : BitVec 64 → BitVec 64) (table : Nat → VringDesc) (size : Nat)

/-- A descriptor after which the walk stops, with or without an error. -/
def Stops (desc : VringDesc) : Prop :=
  hasFlag desc vringDescFNext = false ∨ size ≤ desc.next.toNat

/-- The descriptors `nodes` are all that follow from `start` on. -/
inductive ChainFrom : Nat → List Nat → Prop where
  | last {node : Nat} (stops : Stops size (table node)) : ChainFrom node [node]
  | link {node : Nat} {rest : List Nat} (goesOn : ¬ Stops size (table node))
      (follows : ChainFrom (table node).next.toNat rest) : ChainFrom node (node :: rest)

/--
What the walk does from a state on is allowed: it returns, it reads descriptors
of the table only, and it writes entries below `capacity` only. A turn writes its
buffers before it looks at the next descriptor.
-/
structure SafeFrom (capacity : BitVec 16) (walk : Walk) : Prop where
  returns : Returns (setupTurn mem table size) walk
  reads : ∀ later, Relation.ReflTransGen (GoesTo (setupTurn mem table size)) walk later →
    later.desc < size
  writes : ∀ later, Relation.ReflTransGen (GoesTo (setupTurn mem table size)) walk later →
    ∀ iovs, descToIov mem (table later.desc) = some iovs →
      ∀ position < (later.iovs ++ iovs).length, position % 2 ^ 16 < capacity.toNat

variable {mem table size}

/-- Entries below the capacity are written only, exactly when there are not too many of them. -/
theorem positions_below_iff (capacity : BitVec 16) (count : Nat) :
    (∀ position < count, position % 2 ^ 16 < capacity.toNat) ↔ count ≤ capacity.toNat := by
  have bound := capacity.isLt
  constructor
  · intro below
    -- the first entry too many comes before the index wraps
    refine Nat.le_of_not_lt fun more => ?_
    have first := below capacity.toNat more
    rw [Nat.mod_eq_of_lt bound] at first
    exact Nat.lt_irrefl _ first
  · intro fits position within
    rw [Nat.mod_eq_of_lt (by omega)]
    omega

variable {walk : Walk}

theorem setupTurn_stops (mem : BitVec 64 → BitVec 64) (stops : Stops size (table walk.desc)) :
    ∃ result, setupTurn mem table size walk = some (.done result) := by
  obtain ⟨iovs, isIovs, _⟩ := descToIov_returns mem (table walk.desc)
  by_cases last : hasFlag (table walk.desc) vringDescFNext = false
  · exact ⟨_, by simp only [setupTurn, isIovs, Option.map_some, last]; rfl⟩
  · have beyond : (table walk.desc).next.toNat ≥ size := stops.resolve_left last
    exact ⟨none, by simp [setupTurn, isIovs, last, beyond]⟩

theorem setupTurn_goesOn (mem : BitVec 64 → BitVec 64) (goesOn : ¬ Stops size (table walk.desc)) :
    ∃ next, GoesTo (setupTurn mem table size) walk next ∧
      next.desc = (table walk.desc).next.toNat ∧ next.desc < size ∧
      next.iovs.length = walk.iovs.length + pieces mem (table walk.desc) := by
  obtain ⟨iovs, isIovs, isCount⟩ := descToIov_returns mem (table walk.desc)
  have more : hasFlag (table walk.desc) vringDescFNext = true := by
    rw [← Bool.not_eq_false]
    exact fun last => goesOn (.inl last)
  have inside : (table walk.desc).next.toNat < size :=
    Nat.lt_of_not_le fun beyond => goesOn (.inr beyond)
  refine ⟨{ addDesc walk (table walk.desc) iovs with desc := (table walk.desc).next.toNat },
    ?_, rfl, inside, ?_⟩
  · simp [GoesTo, setupTurn, isIovs, more, inside]
  · rw [← isCount]
    exact List.length_append

/-- What comes after a state that has a next one is that one and what comes after it. -/
theorem reaches_iff {next later : Walk} (goes : GoesTo (setupTurn mem table size) walk next) :
    Relation.ReflTransGen (GoesTo (setupTurn mem table size)) walk later ↔
      later = walk ∨ Relation.ReflTransGen (GoesTo (setupTurn mem table size)) next later := by
  rw [Relation.ReflTransGen.cases_head_iff]
  refine or_congr eq_comm ⟨?_, fun reaches => ⟨next, goes, reaches⟩⟩
  rintro ⟨other, step, reaches⟩
  have same : other = next := by
    have equal := step.symm.trans goes
    exact Turn.again.inj (Option.some.inj equal)
  exact same ▸ reaches

theorem reaches_stops {later : Walk} (stops : Stops size (table walk.desc))
    (reaches : Relation.ReflTransGen (GoesTo (setupTurn mem table size)) walk later) :
    later = walk := by
  obtain ⟨result, turn⟩ := setupTurn_stops mem stops
  rcases reaches.cases_head with same | ⟨next, goes, _⟩
  · exact same.symm
  · exact absurd (goes.symm.trans turn) (by simp)

section

variable {capacity : BitVec 16}

theorem writes_iff (walk : Walk) :
    (∀ iovs, descToIov mem (table walk.desc) = some iovs →
      ∀ position < (walk.iovs ++ iovs).length, position % 2 ^ 16 < capacity.toNat) ↔
        walk.iovs.length + pieces mem (table walk.desc) ≤ capacity.toNat := by
  obtain ⟨iovs, isIovs, isCount⟩ := descToIov_returns mem (table walk.desc)
  simp only [isIovs, Option.some.injEq, forall_eq', positions_below_iff, List.length_append,
    isCount]

theorem safeFrom_stops_iff (stops : Stops size (table walk.desc)) :
    SafeFrom mem table size capacity walk ↔
      walk.desc < size ∧ walk.iovs.length + pieces mem (table walk.desc) ≤ capacity.toNat := by
  obtain ⟨result, turn⟩ := setupTurn_stops mem stops
  rw [← writes_iff]
  constructor
  · exact fun safe => ⟨safe.reads _ .refl, safe.writes _ .refl⟩
  · rintro ⟨inside, writes⟩
    refine ⟨returns_of_done turn, fun later reaches => ?_, fun later reaches => ?_⟩
    all_goals rwa [reaches_stops stops reaches]

theorem safeFrom_goes_iff {next : Walk} (goes : GoesTo (setupTurn mem table size) walk next) :
    SafeFrom mem table size capacity walk ↔
      walk.desc < size ∧ walk.iovs.length + pieces mem (table walk.desc) ≤ capacity.toNat ∧
        SafeFrom mem table size capacity next := by
  rw [← writes_iff]
  constructor
  · intro safe
    exact ⟨safe.reads _ .refl, safe.writes _ .refl, goes.returns_iff.mp safe.returns,
      fun later after => safe.reads later (.head goes after),
      fun later after => safe.writes later (.head goes after)⟩
  · rintro ⟨inside, writes, rest⟩
    refine ⟨goes.returns_iff.mpr rest.returns, fun later reaches => ?_, fun later reaches => ?_⟩
    all_goals rcases (reaches_iff goes).mp reaches with rfl | after
    · exact inside
    · exact rest.reads later after
    · exact writes
    · exact rest.writes later after

/-- A chain that ends is walked safely if it starts inside the table and fits into the array. -/
theorem ChainFrom.safe_iff {start : Nat} {nodes : List Nat}
    (chain : ChainFrom table size start nodes) (isStart : walk.desc = start) :
    SafeFrom mem table size capacity walk ↔ start < size ∧
      walk.iovs.length + (nodes.map fun node => pieces mem (table node)).sum ≤ capacity.toNat := by
  induction chain generalizing walk with
  | last stops =>
    subst isStart
    rw [safeFrom_stops_iff stops, List.map_singleton, List.sum_singleton]
  | link goesOn _ inductionHypothesis =>
    subst isStart
    obtain ⟨next, goes, isNext, nextInside, isLength⟩ := setupTurn_goesOn mem goesOn
    rw [safeFrom_goes_iff goes, inductionHypothesis isNext, isLength, ← isNext, List.map_cons,
      List.sum_cons]
    omega

end

/-- A walk that returns has followed a chain to its end. -/
theorem chainFrom_of_returns (returned : Returns (setupTurn mem table size) walk) :
    ∃ nodes, ChainFrom table size walk.desc nodes := by
  obtain ⟨fuel, result, isResult⟩ := returned
  induction fuel generalizing walk with
  | zero => cases isResult
  | succ fuel inductionHypothesis =>
    by_cases stops : Stops size (table walk.desc)
    · exact ⟨_, .last stops⟩
    · obtain ⟨next, goes, isNext, _⟩ := setupTurn_goesOn mem stops
      obtain ⟨nodes, follows⟩ := inductionHypothesis ((loop_again goes fuel).symm.trans isResult)
      exact ⟨_, .link stops (isNext ▸ follows)⟩

/-- The walk is safe exactly when its chain starts in the table, has an end and fits. -/
theorem safeFrom_iff (capacity : BitVec 16) (start : Nat) :
    SafeFrom mem table size capacity (startWalk start) ↔
      start < size ∧ ∃ nodes, ChainFrom table size start nodes ∧
        (nodes.map fun node => pieces mem (table node)).sum ≤ capacity.toNat := by
  constructor
  · intro safe
    obtain ⟨nodes, chain⟩ := chainFrom_of_returns safe.returns
    obtain ⟨inside, fits⟩ := (chain.safe_iff rfl).mp safe
    exact ⟨inside, nodes, chain, by simpa [startWalk] using fits⟩
  · rintro ⟨inside, nodes, chain, fits⟩
    exact (chain.safe_iff rfl).mpr ⟨inside, by simpa [startWalk] using fits⟩

end Chain

/-! ### The whole function -/

/--
`blk_iovs_setup` returns, reads descriptors of its table only, and writes no entry
behind the caller's array.
-/
structure SafeSetup (guest : GuestTables) (reqIdx : Nat) (capacity : BitVec 16) : Prop where
  returns : ∃ fuel result, blkIovsSetup guest reqIdx fuel = some result
  keeps : ∀ desc, (getDesc guest reqIdx).desc = some desc →
    SafeFrom (gpaToVva guest.regions) desc (getDesc guest reqIdx).size capacity
      (startWalk (getDesc guest reqIdx).start)

/-- The chain from a descriptor on has an end and no more buffers than there is room for. -/
def FitsFrom (regions : List MemRegion) (table : Nat → VringDesc) (size start : Nat)
    (capacity : BitVec 16) : Prop :=
  ∃ nodes, ChainFrom table size start nodes ∧
    (nodes.map fun node => pieces (gpaToVva regions) (table node)).sum ≤ capacity.toNat

/--
What the guest has to have written: a chain that fits, in the table of the ring or
in an indirect table that is mapped and has an entry.
-/
def WellChained (guest : GuestTables) (reqIdx : Nat) (capacity : BitVec 16) : Prop :=
  let desc := guest.desc reqIdx
  let size := desc.len.toNat / descSize
  if hasFlag desc vringDescFIndirect then
    0 < size ∧ ∃ table, guest.indirect desc.addr (descSize * size) = some table ∧
      FitsFrom guest.regions table size 0 capacity
  else FitsFrom guest.regions guest.desc guest.size.toNat reqIdx capacity

theorem safeSetup_iff (guest : GuestTables) (reqIdx : Nat) (capacity : BitVec 16) :
    SafeSetup guest reqIdx capacity ↔
      ∃ desc, (getDesc guest reqIdx).desc = some desc ∧
        SafeFrom (gpaToVva guest.regions) desc (getDesc guest reqIdx).size capacity
          (startWalk (getDesc guest reqIdx).start) := by
  constructor
  · rintro ⟨⟨fuel, result, returned⟩, keeps⟩
    cases isDesc : (getDesc guest reqIdx).desc with
    | none => simp [blkIovsSetup, isDesc] at returned
    | some desc => exact ⟨desc, rfl, keeps desc isDesc⟩
  · rintro ⟨desc, isDesc, safe⟩
    obtain ⟨fuel, result, returned⟩ := safe.returns
    refine ⟨⟨fuel, result, by simp only [blkIovsSetup, isDesc, returned]⟩, fun other isOther => ?_⟩
    cases isOther.symm.trans isDesc
    exact safe

/--
For every content of the tables, the setup is safe exactly when the guest's chain
is in a table that exists, has an end, and fits into the caller's array.
-/
theorem blkIovsSetup_safe_iff (guest : GuestTables) (reqIdx : Nat) (capacity : BitVec 16)
    (within : reqIdx < guest.size.toNat) :
    SafeSetup guest reqIdx capacity ↔ WellChained guest reqIdx capacity := by
  rw [safeSetup_iff]
  by_cases indirect : hasFlag (guest.desc reqIdx) vringDescFIndirect = true
  · simp only [getDesc, WellChained, if_pos indirect, safeFrom_iff, FitsFrom]
    constructor
    · rintro ⟨desc, isDesc, some, fits⟩
      exact ⟨some, desc, isDesc, fits⟩
    · rintro ⟨some, desc, isDesc, fits⟩
      exact ⟨desc, isDesc, some, fits⟩
  · simp only [getDesc, WellChained, if_neg indirect, safeFrom_iff, FitsFrom]
    constructor
    · rintro ⟨desc, isDesc, -, fits⟩
      cases isDesc
      exact fits
    · exact fun fits => ⟨guest.desc, rfl, within, fits⟩

/-- A request of two descriptors: sixteen bytes to read and one to write. -/
def twoDescriptors : GuestTables where
  desc
    | 0 => { addr := 0x1000, len := 16, flags := vringDescFNext, next := 1 }
    | _ => { addr := 0x2000, len := 1, flags := vringDescFWrite, next := 0 }
  size := 2
  regions := [{ guestPhysAddr := 0, hostUserAddr := 0x100000, size := 0x10000 }]
  indirect := fun _ _ => none

theorem blkIovsSetup_safe_twoDescriptors :
    0 < twoDescriptors.size.toNat ∧ SafeSetup twoDescriptors 0 129 := by
  refine ⟨by decide, (blkIovsSetup_safe_iff twoDescriptors 0 129 (by decide)).mpr ?_⟩
  refine ⟨[0, 1], .link ?_ (.last (.inl rfl)), by decide +kernel⟩
  rintro (last | beyond)
  · exact absurd last (by decide)
  · exact absurd beyond (by decide)

/-- A ring whose descriptors have no bytes and name the first one as the next. -/
def selfLinked : GuestTables where
  desc := fun _ => { addr := 0, len := 0, flags := vringDescFNext, next := 0 }
  size := 1
  regions := []
  indirect := fun _ _ => none

theorem selfLinked_not_safe :
    0 < selfLinked.size.toNat ∧ (∀ fuel, blkIovsSetup selfLinked 0 fuel = none) ∧
      ¬ SafeSetup selfLinked 0 129 := by
  -- without a byte to add, the turn leads back to the very same state
  have cycle : GoesTo (setupTurn (gpaToVva []) selfLinked.desc 1) (startWalk 0) (startWalk 0) := rfl
  have never : ∀ fuel, blkIovsSetup selfLinked 0 fuel = none := by
    intro fuel
    refine Option.eq_none_iff_forall_ne_some.mpr fun result returned => ?_
    exact not_returns_of_cycle (.single cycle) ⟨fuel, result, returned⟩
  refine ⟨by decide, never, fun safe => ?_⟩
  obtain ⟨fuel, result, returned⟩ := safe.returns
  exact absurd ((never fuel).symm.trans returned) (by simp)

end StudyNotes.VhostBlk
