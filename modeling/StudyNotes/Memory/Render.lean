/-
This file proves that the flat view is the priority lookup, laid out in
advance. Looking an address up walks down the tree of regions: a region that
does not contain the address is passed by, an alias is followed, subregions are
tried in their order, and the region itself answers last. Rendering a region
into a view leaves at every address what the view had there, and elsewhere what
the lookup finds.
-/

import StudyNotes.Memory.FlatView

namespace StudyNotes.Memory

open Library

/-! ### The lookup -/

/-- The address lies in the range. -/
def AddrRange.Has (range : AddrRange) (addr : Int) : Prop :=
  range.start ≤ addr ∧ addr < range.start + range.size

instance (range : AddrRange) (addr : Int) : Decidable (range.Has addr) :=
  inferInstanceAs (Decidable (_ ∧ _))

/-- What a lookup finds: the regions it went through, outermost first, the region that answers,
and the offset of the address in it. -/
structure Found where
  path : List RegionAttrs
  region : RegionAttrs
  offset : Int
  deriving DecidableEq, Repr

/-- The same find, seen from a region further out. -/
def Found.through (attrs : RegionAttrs) (found : Found) : Found :=
  { found with path := attrs :: found.path }

/-- Some region on the way is read-only. -/
def Found.readonly (found : Found) : Bool := found.path.any RegionAttrs.readonly

mutual

/-- The region that answers for an address, where `base` is the address of the container. -/
def lookup : MemoryRegion → Int → Int → Option Found
  | .mk attrs aliasOf subregions, base, addr =>
    let start := base + attrs.addr.toNat
    if attrs.enabled ∧ AddrRange.Has { start, size := attrs.size } addr then
      match aliasOf with
      | some target =>
        (lookup target (start - target.attrs.addr.toNat - attrs.aliasOffset.toNat) addr).map
          (Found.through attrs)
      | none =>
        ((lookupSubregions subregions start addr).map (Found.through attrs)).or
          (if attrs.terminates then
            some { path := [attrs], region := attrs, offset := addr - start }
          else none)
    else none
termination_by structural region => region

/-- The first subregion that answers. -/
def lookupSubregions : List MemoryRegion → Int → Int → Option Found
  | [], _, _ => none
  | subregion :: rest, base, addr =>
    (lookup subregion base addr).or (lookupSubregions rest base addr)
termination_by structural subregions => subregions

end

/-! ### What a view says -/

instance : Ranged FlatRange Int where
  lo range := range.addr.start
  hi range := range.addr.start + range.addr.size

@[simp] theorem lo_flatRange (range : FlatRange) : lo range = range.addr.start := rfl

@[simp] theorem hi_flatRange (range : FlatRange) :
    hi range = range.addr.start + range.addr.size := rfl

/-- The answer for one address: the region, the offset in it, and its attributes. -/
structure Answer where
  mr : Nat
  offset : Int
  dirtyLogMask : BitVec 8
  romdMode : Bool
  readonly : Bool
  deriving DecidableEq, Repr

/-- What a range answers for an address. -/
def FlatRange.answer (range : FlatRange) (addr : Int) : Answer where
  mr := range.mr
  offset := range.offsetInRegion.toNat + (addr - range.addr.start)
  dirtyLogMask := range.dirtyLogMask
  romdMode := range.romdMode
  readonly := range.readonly

/-- What a find answers, below containers of which some may be read-only. -/
def Found.answer (host : Host) (readonly : Bool) (found : Found) : Answer where
  mr := found.region.id
  offset := found.offset
  dirtyLogMask := host.memoryRegionGetDirtyLogMask found.region.id
  romdMode := found.region.romdMode
  readonly := readonly || found.readonly

theorem Found.answer_through (host : Host) (readonly : Bool) (attrs : RegionAttrs) (found : Found) :
    (found.through attrs).answer host readonly =
      found.answer host (readonly || attrs.readonly) := by
  simp [Found.answer, Found.through, Found.readonly, Bool.or_assoc]

/-- What a view answers. -/
def answers (view : List FlatRange) (addr : Int) : Option Answer :=
  (itemAt view addr).map fun range => range.answer addr

/-- Ordered ranges inside the address space. -/
structure Sound (view : List FlatRange) : Prop where
  ordered : Ordered view
  inside : ∀ range ∈ view, 0 ≤ range.addr.start ∧ range.addr.start + range.addr.size ≤ 2 ^ 64

/-- A part of the address space, possibly empty. -/
structure AddrRange.Within (clip : AddrRange) : Prop where
  start : 0 ≤ clip.start
  size : 0 ≤ clip.size
  stop : clip.start + clip.size ≤ 2 ^ 64

/-! ### The loop over the gaps -/

/-- The range that a region rendered at `base` leaves on `[start, stop)`. -/
def gapPiece (fr : FlatRange) (base start stop : Int) : FlatRange :=
  { fr with
    offsetInRegion := BitVec.ofInt 64 (start - base)
    addr := { start, size := stop - start } }

/-- The loop has passed the ranges before `i` and has `[base, stop)` left to render. The offset
only matters while something is left. -/
structure GapState.At (state : GapState) (base stop : Int) (passed rest : List FlatRange) :
    Prop where
  index : state.i = passed.length
  view : state.view = passed ++ rest
  start : 0 ≤ state.base
  remain : state.remain = stop - state.base
  left : state.base ≤ stop
  bound : stop ≤ 2 ^ 64
  offset : state.base < stop → state.offsetInRegion = BitVec.ofInt 64 (state.base - base)

variable {clip : AddrRange} {base : Int}

section Gaps

variable {host : Host} (gets : host.Gets64) (fr : FlatRange)

theorem addrrangeEnd_of_inside {range : AddrRange} (low : 0 ≤ range.start)
    (nonempty : 0 ≤ range.size) (high : range.start + range.size ≤ 2 ^ 64) :
    addrrangeEnd range = range.start + range.size :=
  wrap128_of_bounds (by omega) (by omega)

variable {state : GapState} {base stop : Int} {passed rest : List FlatRange} {range : FlatRange}

/-- Once nothing is left, neither the loop nor the insertion after it does anything. -/
theorem renderRest_of_done (holds : state.At base stop passed rest) (done : stop ≤ state.base) :
    renderRest fr (renderGaps host fr state) = passed ++ rest := by
  have left := holds.left
  have none : state.remain = 0 := by
    rw [holds.remain]
    omega
  have unchanged : renderGaps host fr state = state := by
    rw [renderGaps]
    split
    · rfl
    · rw [if_pos none]
  rw [unchanged, renderRest, if_neg (by simpa using none), holds.view]

theorem sound_cons_iff (range : FlatRange) (rest : List FlatRange) :
    Sound (range :: rest) ↔ 0 < range.addr.size ∧ 0 ≤ range.addr.start ∧
      range.addr.start + range.addr.size ≤ 2 ^ 64 ∧
      (∀ other ∈ rest, range.addr.start + range.addr.size ≤ other.addr.start) ∧ Sound rest := by
  constructor
  · rintro ⟨ordered, inside⟩
    obtain ⟨nonempty, apart, restOrdered⟩ := ordered_cons_iff.mp ordered
    simp only [lo_flatRange, hi_flatRange] at nonempty apart
    obtain ⟨low, high⟩ := inside range List.mem_cons_self
    exact ⟨by omega, low, high, apart, restOrdered,
      fun other member => inside other (List.mem_cons_of_mem _ member)⟩
  · rintro ⟨nonempty, low, high, apart, restOrdered, restInside⟩
    refine ⟨ordered_cons_iff.mpr ⟨?_, apart, restOrdered⟩,
      List.forall_mem_cons.mpr ⟨⟨low, high⟩, restInside⟩⟩
    simp only [lo_flatRange, hi_flatRange]
    omega

include gets

/-- Moving on keeps the offset right as long as something is left. -/
theorem GapState.At.advance (holds : state.At base stop passed rest) (now : Int)
    (positive : 0 ≤ now) (fits : now ≤ stop - state.base) :
    (state.advance host now).At base stop passed rest ∧
      (state.advance host now).base = state.base + now := by
  have start := holds.start
  have bound := holds.bound
  have remain := holds.remain
  have baseEq : int128Add state.base now = state.base + now :=
    wrap128_of_bounds (by omega) (by omega)
  have remainEq : int128Sub state.remain now = stop - (state.base + now) := by
    rw [int128Sub, remain, wrap128_of_bounds (by omega) (by omega)]
    omega
  refine ⟨⟨holds.index, holds.view, ?_, ?_, ?_, holds.bound, fun more => ?_⟩, baseEq⟩
  · rw [GapState.advance, baseEq]
    simp only
    omega
  · rw [GapState.advance, baseEq, remainEq]
  · rw [GapState.advance, baseEq]
    simp only
    omega
  · rw [GapState.advance, baseEq] at more ⊢
    simp only at more ⊢
    rw [holds.offset (by omega), gets now positive (by omega), ← BitVec.ofInt_add]
    congr 1
    omega

/-- Rendering before a range fills the gap in front of it, if there is one. -/
theorem GapState.At.before (holds : state.At base stop passed (range :: rest))
    (inside : range.addr.start ≤ 2 ^ 64) (more : state.base < stop) :
    (state.before host fr range).At base stop
        (passed ++ if state.base < min stop range.addr.start then
          [gapPiece fr base state.base (min stop range.addr.start)] else []) (range :: rest) ∧
      (state.before host fr range).base = max state.base (min stop range.addr.start) := by
  have start := holds.start
  have remain := holds.remain
  by_cases gap : state.base < range.addr.start
  · have now : min state.remain (int128Sub range.addr.start state.base) =
        min stop range.addr.start - state.base := by
      rw [int128Sub, wrap128_of_bounds (by omega) (by omega), remain]
      omega
    obtain ⟨moved, place⟩ := holds.advance gets (min stop range.addr.start - state.base)
      (by omega) (by omega)
    have piece : state.piece fr (min stop range.addr.start - state.base) =
        gapPiece fr base state.base (min stop range.addr.start) := by
      rw [GapState.piece, gapPiece, holds.offset more]
    rw [if_pos (lt_min more gap)]
    simp only [GapState.before, if_pos gap, now, piece]
    refine ⟨{ moved with index := ?_, view := ?_ }, ?_⟩
    · simp [holds.index]
    · rw [flatviewInsert, holds.index, holds.view, insertIdx_cursor, List.append_assoc,
        List.singleton_append]
    · rw [place]
      omega
  · rw [GapState.before, if_neg gap, if_neg (by omega), List.append_nil]
    exact ⟨holds, by omega⟩

/-- Skipping a range moves past the part of it that is left to render. -/
theorem GapState.At.over (holds : state.At base stop passed (range :: rest))
    (low : 0 ≤ range.addr.start) (nonempty : 0 ≤ range.addr.size)
    (high : range.addr.start + range.addr.size ≤ 2 ^ 64)
    (reaches : state.base ≤ range.addr.start + range.addr.size) :
    (state.over host range).At base stop (passed ++ [range]) rest ∧
      (state.over host range).base = min stop (range.addr.start + range.addr.size) := by
  have start := holds.start
  have bound := holds.bound
  have remain := holds.remain
  have left := holds.left
  have now : int128Sub (min (int128Add state.base state.remain) (addrrangeEnd range.addr))
      state.base = min stop (range.addr.start + range.addr.size) - state.base := by
    have whole : int128Add state.base state.remain = stop := by
      rw [int128Add, remain, wrap128_of_bounds (by omega) (by omega)]
      omega
    rw [addrrangeEnd_of_inside low nonempty high, whole]
    exact wrap128_of_bounds (by omega) (by omega)
  obtain ⟨moved, place⟩ := holds.advance gets
    (min stop (range.addr.start + range.addr.size) - state.base) (by omega) (by omega)
  simp only [GapState.over, now]
  refine ⟨{ moved with index := ?_, view := ?_ }, ?_⟩
  · simp [holds.index]
  · simp [GapState.advance, holds.view]
  · rw [place]
    omega

/-- The loop and the insertion after it fill the gaps that the rest of the view leaves. -/
theorem renderRest_renderGaps (sound : Sound rest) (holds : state.At base stop passed rest) :
    renderRest fr (renderGaps host fr state) =
      passed ++ fillGaps (gapPiece fr base) stop state.base rest := by
  induction rest generalizing state passed with
  | nil =>
    rcases le_or_gt stop state.base with done | more
    · rw [renderRest_of_done fr holds done, fillGaps_of_le done]
    have remain := holds.remain
    have unchanged : renderGaps host fr state = state := by
      rw [renderGaps]
      split
      · rfl
      · next found =>
        rw [holds.view, holds.index, getElem?_cursor_nil] at found
        cases found
    rw [unchanged, renderRest, if_pos (by omega), flatviewInsert, holds.view, holds.index,
      insertIdx_cursor, fillGaps, if_pos more, GapState.piece, holds.offset more, remain]
    rfl
  | cons range rest inductionHypothesis =>
    rcases le_or_gt stop state.base with done | more
    · rw [renderRest_of_done fr holds done, fillGaps_of_le done]
    have remain := holds.remain
    obtain ⟨nonempty, low, high, apart, restSound⟩ := (sound_cons_iff range rest).mp sound
    have current : state.view[state.i]? = some range := by
      rw [holds.view, holds.index, getElem?_cursor]
    rw [renderGaps]
    split
    · next missing =>
      rw [current] at missing
      cases missing
    · next other found =>
      obtain rfl : range = other := Option.some.inj (current.symm.trans found)
      rw [if_neg (by omega), addrrangeEnd_of_inside low (le_of_lt nonempty) high]
      rw [fillGaps_cons holds.left (by simpa using nonempty)]
      simp only [lo_flatRange, hi_flatRange]
      split
      · next passedBy =>
        -- The range lies behind the place reached.
        have moved : GapState.At { state with i := state.i + 1 } base stop (passed ++ [range])
            rest :=
          { holds with index := by simp [holds.index], view := by simp [holds.view] }
        rw [inductionHypothesis restSound moved, if_neg (by omega), max_eq_left (by omega),
          List.append_assoc]
        rfl
      · obtain ⟨filled, place⟩ := holds.before gets fr (by omega) more
        obtain ⟨skipped, after⟩ := filled.over gets low (le_of_lt nonempty) high (by omega)
        rw [inductionHypothesis restSound skipped, after, max_eq_right (by omega)]
        simp only [List.append_assoc, List.singleton_append]

/-- A region rendered into a view answers where the view does not. -/
theorem renderSelf_answers {view : List FlatRange} (sound : Sound view) (within : clip.Within)
    (attrs : RegionAttrs) (readonly : Bool) (near : -2 ^ 64 ≤ base) (left : base ≤ clip.start)
    (right : clip.start + clip.size ≤ base + attrs.size) :
    Sound (renderSelf host view attrs base clip readonly) ∧
      ∀ addr, answers (renderSelf host view attrs base clip readonly) addr =
        (answers view addr).or (if clip.Has addr then
          some (Found.answer host readonly
            { path := [], region := attrs, offset := addr - base }) else none) := by
  obtain ⟨start, size, stop⟩ := within
  unfold renderSelf
  extract_lets fr
  -- Where nothing is left to render, the offset does not matter.
  have holds : GapState.At ⟨0, clip.start, clip.size,
      host.int128Get64 (int128Sub clip.start base), view⟩
        base (clip.start + clip.size) [] view := by
    refine ⟨rfl, rfl, start, by simp only; omega, by simp only; omega, stop, fun some => ?_⟩
    simp only at some ⊢
    have fits := attrs.size_le
    rw [int128Sub, wrap128_of_bounds (by omega) (by omega), gets _ (by omega) (by omega)]
  rw [renderRest_renderGaps gets fr sound holds, List.nil_append]
  have lower (a b : Int) : lo (gapPiece fr base a b) = a := rfl
  have upper (a b : Int) : hi (gapPiece fr base a b) = b := by
    simp only [hi_flatRange, gapPiece]
    omega
  have span : clip.start ≤ clip.start + clip.size := by omega
  refine ⟨⟨sound.ordered.fillGaps lower (fun a b _ => upper a b) span, fun range member => ?_⟩,
    fun addr => ?_⟩
  · rcases mem_fillGaps span sound.ordered member with old | ⟨a, b, rfl, first, nonempty, last⟩
    · exact sound.inside range old
    · simp only [gapPiece]
      omega
  · refine map_itemAt_fillGaps lower (fun a b _ => upper a b) span sound.ordered
      fun a b first before after last => ?_
    have fits := attrs.size_le
    have offset : (BitVec.ofInt 64 (a - base)).toNat = (a - base).toNat := by
      rw [BitVec.toNat_ofInt, Int.emod_eq_of_lt (by omega) (by omega)]
    rw [Found.answer, FlatRange.answer]
    simp only [gapPiece, offset, fr, Found.readonly, List.any_nil, Bool.or_false,
      Answer.mk.injEq, true_and, and_true]
    omega

end Gaps

/-! ### Clipping -/

/-- Two ranges intersect when they share an address, and then their intersection holds exactly
the common ones. -/
theorem addrrangeIntersection_spec (tmp : AddrRange) (within : clip.Within)
    (low : -2 ^ 68 ≤ tmp.start) (high : tmp.start ≤ 2 ^ 68) (size : 0 ≤ tmp.size)
    (narrow : tmp.size ≤ 2 ^ 64) :
    (addrrangeIntersects tmp clip = false → ∀ addr, ¬ (tmp.Has addr ∧ clip.Has addr)) ∧
      (addrrangeIntersects tmp clip = true →
        (addrrangeIntersection tmp clip).Within ∧
        tmp.start ≤ (addrrangeIntersection tmp clip).start ∧
        (addrrangeIntersection tmp clip).start + (addrrangeIntersection tmp clip).size ≤
          tmp.start + tmp.size ∧
        (∀ addr, (addrrangeIntersection tmp clip).Has addr ↔ tmp.Has addr ∧ clip.Has addr) ∧
        -2 ^ 64 ≤ tmp.start ∧ tmp.start ≤ 2 ^ 64) := by
  obtain ⟨start, clipSize, stop⟩ := within
  have tmpEnd : addrrangeEnd tmp = tmp.start + tmp.size :=
    wrap128_of_bounds (by omega) (by omega)
  have clipEnd : addrrangeEnd clip = clip.start + clip.size :=
    addrrangeEnd_of_inside start clipSize stop
  have difference : int128Sub (min (tmp.start + tmp.size) (clip.start + clip.size))
      (max tmp.start clip.start) =
        min (tmp.start + tmp.size) (clip.start + clip.size) - max tmp.start clip.start :=
    wrap128_of_bounds (by omega) (by omega)
  simp only [addrrangeIntersects, addrrangeContains, addrrangeIntersection, tmpEnd, clipEnd,
    difference, AddrRange.Has, Bool.or_eq_false_iff, decide_eq_false_iff_not, Bool.or_eq_true,
    decide_eq_true_eq]
  refine ⟨fun apart addr both => by omega,
    fun meet => ⟨⟨?_, ?_, ?_⟩, ?_, ?_, fun addr => ?_, ?_, ?_⟩⟩
  iterate 3
    · simp only
      omega
  all_goals omega

/-! ### The view is the lookup -/

/-- What the lookup answers inside a clip. -/
def clipped (host : Host) (found : Int → Option Found) (clip : AddrRange) (readonly : Bool)
    (addr : Int) : Option Answer :=
  if clip.Has addr then (found addr).map (Found.answer host readonly) else none

/-- The answer of a region that contains the address. -/
def lookupInside (attrs : RegionAttrs) (aliasOf : Option MemoryRegion)
    (subregions : List MemoryRegion) (start addr : Int) : Option Found :=
  match aliasOf with
  | some target =>
    (lookup target (start - target.attrs.addr.toNat - attrs.aliasOffset.toNat) addr).map
      (Found.through attrs)
  | none =>
    ((lookupSubregions subregions start addr).map (Found.through attrs)).or
      (if attrs.terminates then
        some { path := [attrs], region := attrs, offset := addr - start }
      else none)

theorem lookup_eq (attrs : RegionAttrs) (aliasOf : Option MemoryRegion)
    (subregions : List MemoryRegion) (base addr : Int) :
    lookup (.mk attrs aliasOf subregions) base addr =
      if attrs.enabled ∧
        AddrRange.Has { start := base + attrs.addr.toNat, size := attrs.size } addr then
        lookupInside attrs aliasOf subregions (base + attrs.addr.toNat) addr
      else none := by
  cases aliasOf with
  | none | some target => rw [lookup, lookupInside]

/-- An enabled region answers for the addresses of the clip that it contains. -/
theorem clipped_lookup {host : Host} {attrs : RegionAttrs} {aliasOf : Option MemoryRegion}
    {subregions : List MemoryRegion} {inner : AddrRange} {readonly : Bool}
    (enabled : attrs.enabled = true) (both : ∀ addr, inner.Has addr ↔
      AddrRange.Has { start := base + attrs.addr.toNat, size := attrs.size } addr ∧ clip.Has addr)
    (addr : Int) :
    clipped host (lookup (.mk attrs aliasOf subregions) base) clip readonly addr =
      clipped host (lookupInside attrs aliasOf subregions (base + attrs.addr.toNat)) inner
        readonly addr := by
  simp only [clipped, both, lookup_eq, enabled, true_and]
  by_cases inClip : clip.Has addr
  · simp only [inClip, if_true, and_true]
    split
    · rfl
    · rfl
  · simp [inClip]

/-- Rendering keeps a view sound and adds to its answers those of the lookup inside the clip.
Bases stay far from the ends of a 128-bit word: a region that meets the address space is at most
its own size away from it. -/
def Renders (host : Host) (render : List FlatRange → Int → AddrRange → Bool → List FlatRange)
    (found : Int → Int → Option Found) : Prop :=
  ∀ (view : List FlatRange) (base : Int) (clip : AddrRange) (readonly : Bool), Sound view →
    clip.Within → -2 ^ 67 ≤ base → base ≤ 2 ^ 67 →
    Sound (render view base clip readonly) ∧
      ∀ addr, answers (render view base clip readonly) addr =
        (answers view addr).or (clipped host (found base) clip readonly addr)

mutual

theorem renderMemoryRegion_renders {host : Host} (gets : host.Gets64) :
    ∀ region, Renders host (fun view => renderMemoryRegion host view region) (lookup region)
  | .mk attrs aliasOf subregions => by
    intro view base clip readonly sound within low high
    have fits := attrs.size_le
    have startEq : int128Add base attrs.addr.toNat = base + attrs.addr.toNat :=
      wrap128_of_bounds (by omega) (by omega)
    simp only [renderMemoryRegion, startEq]
    split
    · next enabled =>
      obtain ⟨apart, meet⟩ := addrrangeIntersection_spec
        { start := base + attrs.addr.toNat, size := attrs.size } within
        (by simp only; omega) (by simp only; omega) (by simp only; omega) (by simp only; omega)
      split
      · next intersects =>
        obtain ⟨inner, left, right, both, lower, upper⟩ := meet intersects
        simp only at left right lower upper
        cases aliasOf with
        | some target =>
          have aliasEq : int128Sub (int128Sub (base + attrs.addr.toNat) target.attrs.addr.toNat)
              attrs.aliasOffset.toNat =
                base + attrs.addr.toNat - target.attrs.addr.toNat - attrs.aliasOffset.toNat := by
            have inner : int128Sub (base + attrs.addr.toNat) target.attrs.addr.toNat =
                base + attrs.addr.toNat - target.attrs.addr.toNat :=
              wrap128_of_bounds (by omega) (by omega)
            rw [inner]
            exact wrap128_of_bounds (by omega) (by omega)
          simp only [aliasEq]
          obtain ⟨result, shown⟩ := renderMemoryRegion_renders gets target view
            (base + attrs.addr.toNat - target.attrs.addr.toNat - attrs.aliasOffset.toNat) _
            (readonly || attrs.readonly) sound inner (by omega) (by omega)
          refine ⟨result, fun addr => ?_⟩
          rw [shown, clipped_lookup enabled both]
          simp only [clipped, lookupInside, Option.map_map, Function.comp_def, Found.answer_through]
        | none =>
          obtain ⟨subSound, subShown⟩ := renderSubregions_renders gets subregions view
            (base + attrs.addr.toNat) _ (readonly || attrs.readonly) sound inner (by omega)
            (by omega)
          simp only
          split
          · next terminates =>
            obtain ⟨result, shown⟩ := renderSelf_answers gets subSound inner attrs
              (readonly || attrs.readonly) lower left right
            refine ⟨result, fun addr => ?_⟩
            rw [shown, subShown, clipped_lookup enabled both, Option.or_assoc]
            congr 1
            simp only [clipped, lookupInside, terminates, if_true, Option.map_or]
            split
            · have self := Found.answer_through host readonly attrs
                { path := [], region := attrs, offset := addr - (base + attrs.addr.toNat) }
              simp only [Option.map_map, Function.comp_def, Found.answer_through, Option.map_some]
              rw [← self]
              rfl
            · rfl
          · next container =>
            refine ⟨subSound, fun addr => ?_⟩
            rw [subShown, clipped_lookup enabled both]
            simp only [clipped, lookupInside, container, Option.or_none, Option.map_map,
              Function.comp_def, Found.answer_through, if_false, Bool.false_eq_true]
      · next disjoint =>
        refine ⟨sound, fun addr => ?_⟩
        have outside := apart (by simpa using disjoint) addr
        rw [clipped]
        split
        · next inClip =>
          rw [lookup_eq, if_neg (fun inside => outside ⟨inside.2, inClip⟩), Option.map_none,
            Option.or_none]
        · rw [Option.or_none]
    · next disabled =>
      refine ⟨sound, fun addr => ?_⟩
      simp [clipped, lookup_eq, disabled]

theorem renderSubregions_renders {host : Host} (gets : host.Gets64) :
    ∀ subregions, Renders host (fun view => renderSubregions host view subregions)
      (lookupSubregions subregions)
  | [] => by
    intro view base clip readonly sound within low high
    refine ⟨sound, fun addr => ?_⟩
    simp [renderSubregions, clipped, lookupSubregions]
  | subregion :: rest => by
    intro view base clip readonly sound within low high
    obtain ⟨firstSound, first⟩ := renderMemoryRegion_renders gets subregion view base clip readonly
      sound within low high
    obtain ⟨restSound, others⟩ := renderSubregions_renders gets rest _ base clip readonly firstSound
      within low high
    simp only [renderSubregions]
    refine ⟨restSound, fun addr => ?_⟩
    rw [others, first, Option.or_assoc]
    congr 1
    simp only [clipped, lookupSubregions]
    split
    · rw [Option.map_or]
    · rfl

end

/-- The flat view of a tree of regions is ordered, has no overlaps and no empty ranges, and lies
in the address space. It covers an address exactly when the lookup finds a region for it, and
the covering range names that region, with the offset of the lookup and with the read-only flags
of the whole path. -/
theorem renderTopology_refines (host : Host) (gets : host.Gets64) (root : Option MemoryRegion) :
    (renderTopology host root).Pairwise (fun first second =>
        first.addr.start + first.addr.size ≤ second.addr.start) ∧
      (∀ range ∈ renderTopology host root, 0 < range.addr.size ∧ 0 ≤ range.addr.start ∧
        range.addr.start + range.addr.size ≤ 2 ^ 64) ∧
      ∀ addr : Int, 0 ≤ addr → addr < 2 ^ 64 →
        ((∃ range ∈ renderTopology host root, range.addr.Has addr) ↔
          ∃ found, root.bind (lookup · 0 addr) = some found) ∧
        ∀ range ∈ renderTopology host root, range.addr.Has addr →
          ∃ found, root.bind (lookup · 0 addr) = some found ∧
            range.mr = found.region.id ∧
            (range.offsetInRegion.toNat : Int) + (addr - range.addr.start) = found.offset ∧
            range.readonly = found.path.any RegionAttrs.readonly := by
  have whole : AddrRange.Within { start := 0, size := 2 ^ 64 } := ⟨by decide, by decide, by decide⟩
  have empty : Sound [] := ⟨ordered_nil, by simp⟩
  have rendered : Sound (renderTopology host root) ∧ ∀ addr : Int, 0 ≤ addr → addr < 2 ^ 64 →
      answers (renderTopology host root) addr =
        (root.bind (lookup · 0 addr)).map (Found.answer host false) := by
    cases root with
    | none => exact ⟨empty, fun addr _ _ => rfl⟩
    | some mr =>
      obtain ⟨sound, shown⟩ := renderMemoryRegion_renders gets mr [] 0 _ false empty whole
        (by decide) (by decide)
      refine ⟨sound, fun addr low high => ?_⟩
      have inside : AddrRange.Has { start := 0, size := 2 ^ 64 } addr := ⟨low, by simp only; omega⟩
      rw [renderTopology, shown, clipped, if_pos inside]
      rfl
  obtain ⟨sound, shown⟩ := rendered
  generalize renderTopology host root = view at sound shown ⊢
  have nonempty (range : FlatRange) (member : range ∈ view) : 0 < range.addr.size := by
    have := sound.ordered.nonempty range member
    simp only [lo_flatRange, hi_flatRange] at this
    omega
  have named (addr : Int) (low : 0 ≤ addr) (high : addr < 2 ^ 64) (range : FlatRange)
      (member : range ∈ view) (covered : range.addr.Has addr) :
      ∃ found, root.bind (lookup · 0 addr) = some found ∧ range.mr = found.region.id ∧
        (range.offsetInRegion.toNat : Int) + (addr - range.addr.start) = found.offset ∧
        range.readonly = found.path.any RegionAttrs.readonly := by
    have answer := shown addr low high
    rw [answers, (sound.ordered.itemAt_eq_some_iff addr range).mpr ⟨member, covered⟩,
      Option.map_some, eq_comm, Option.map_eq_some_iff] at answer
    obtain ⟨found, result, same⟩ := answer
    simp only [Found.answer, FlatRange.answer, Answer.mk.injEq, Bool.false_or] at same
    exact ⟨found, result, same.1.symm, same.2.1.symm, same.2.2.2.2.symm⟩
  refine ⟨sound.ordered.apart, fun range member => ⟨nonempty range member,
    sound.inside range member⟩, fun addr low high => ⟨⟨?_, ?_⟩, named addr low high⟩⟩
  · rintro ⟨range, member, covered⟩
    obtain ⟨found, result, -⟩ := named addr low high range member covered
    exact ⟨found, result⟩
  · rintro ⟨found, result⟩
    have answer := shown addr low high
    rw [result, Option.map_some, answers, Option.map_eq_some_iff] at answer
    obtain ⟨range, item, -⟩ := answer
    exact ⟨range, mem_of_itemAt item, covers_of_itemAt item⟩

/-- A region without subregions. -/
def leafRegion (id : Nat) (addr : BitVec 64) (size : Nat) (fits : size ≤ 2 ^ 64)
    (readonly : Bool) : MemoryRegion :=
  .mk { id, addr, size, size_le := fits, enabled := true, terminates := true, readonly,
        romdMode := false, aliasOffset := 0 } none []

/-- A whole address space with a read-only window, at `0x1000`, on the third page of a RAM that
is mapped at `0`. -/
def boardRegion : MemoryRegion :=
  let ram := leafRegion 1 0 0x4000 (by decide) false
  .mk { id := 0, addr := 0, size := 2 ^ 64, size_le := by decide, enabled := true,
        terminates := false, readonly := false, romdMode := false, aliasOffset := 0 } none
    [.mk { id := 2, addr := 0x1000, size := 0x1000, size_le := by decide, enabled := true,
           terminates := false, readonly := true, romdMode := false, aliasOffset := 0x2000 }
        (some ram) [],
      ram]

/-- The window answers with the RAM, one page further on, and read-only. -/
theorem renderTopology_refines_boardRegion :
    plainHost.Gets64 ∧ ∃ range ∈ renderTopology plainHost (some boardRegion),
      range.addr.Has 0x1008 ∧ range.mr = 1 ∧
        (range.offsetInRegion.toNat : Int) + (0x1008 - range.addr.start) = 0x2008 ∧
        range.readonly = true := by
  obtain ⟨-, -, at'⟩ := renderTopology_refines plainHost plainHost_gets64 (some boardRegion)
  obtain ⟨covered, named⟩ := at' 0x1008 (by decide) (by decide)
  have window : ∃ found, (some boardRegion).bind (lookup · 0 0x1008) = some found ∧
      found.region.id = 1 ∧ found.offset = 0x2008 ∧
      found.path.any RegionAttrs.readonly = true := by
    refine ⟨_, rfl, ?_⟩
    decide
  obtain ⟨found, result, id, offset, readonly⟩ := window
  obtain ⟨range, member, inside⟩ := covered.mpr ⟨found, result⟩
  obtain ⟨other, same, mr, place, flags⟩ := named range member inside
  obtain rfl : found = other := Option.some.inj (result.symm.trans same)
  exact ⟨plainHost_gets64, range, member, inside, mr.trans id, place.trans offset,
    flags.trans readonly⟩

end StudyNotes.Memory
