/-
This file proves how `mem_add` splits a section: into a ragged start that lies in
one page, whole pages, and a ragged end that lies in one page. The loop of
`mem_add` registers exactly these pieces, in this order, and they partition the
section.
-/

import StudyNotes.Memory.Dispatch

namespace StudyNotes.Memory

open Library

/-! ### Pages -/

section Pages

variable (target : Target)

theorem Target.pageSize_pos : 0 < target.pageSize := Nat.two_pow_pos _

theorem Target.pageSize_le : target.pageSize ≤ 2 ^ 16 :=
  Nat.pow_le_pow_right (by decide) target.pageBits_le

theorem Target.pageOffset_eq (addr : Nat) : target.pageOffset addr = addr % target.pageSize :=
  Nat.and_two_pow_sub_one_eq_mod addr target.pageBits

theorem Target.pageMask_eq {addr : Nat} (fits : addr < 2 ^ 64) :
    target.pageMask addr = addr / target.pageSize * target.pageSize :=
  Word.alignDown_two_pow target.pageBits (by have := target.pageBits_le; omega) fits

/-- The address space is a whole number of pages. -/
theorem Target.pageSize_dvd : target.pageSize ∣ 2 ^ 64 :=
  Nat.pow_dvd_pow 2 (by have := target.pageBits_le; omega)

/-- What is left of a page behind an address that is not its start. -/
theorem Target.pageAlign_sub {addr : Nat} (fits : addr < 2 ^ 64)
    (ragged : addr % target.pageSize ≠ 0) :
    Word.sub 64 (target.pageAlign addr) addr = target.pageSize - addr % target.pageSize := by
  have positive := target.pageSize_pos
  have split := Nat.div_add_mod addr target.pageSize
  have below := Nat.mod_lt addr positive
  have quotient : (addr + (target.pageSize - 1)) / target.pageSize =
      addr / target.pageSize + 1 := by
    rw [show addr + (target.pageSize - 1) = addr % target.pageSize - 1 +
      target.pageSize * (addr / target.pageSize + 1) by rw [Nat.mul_add]; omega,
      Nat.add_mul_div_left _ _ positive, Nat.div_eq_of_lt (by omega), Nat.zero_add]
  -- The mask does not see the bits beyond a word, so in the last page the sum wraps to zero.
  obtain ⟨pages, whole⟩ := target.pageSize_dvd
  rw [Target.pageAlign, Word.add, target.pageMask_eq (Nat.mod_lt _ (by decide)), whole,
    Nat.mod_mul_right_div_self, quotient, ← Nat.mul_mod_mul_right, Nat.mul_comm pages, ← whole,
    Word.sub, Nat.mod_add_mod, Nat.add_mul, Nat.mul_comm]
  rw [show target.pageSize * (addr / target.pageSize) + 1 * target.pageSize + (2 ^ 64 - addr) =
    target.pageSize - addr % target.pageSize + 2 ^ 64 by omega, Nat.add_mod_right]
  exact Nat.mod_eq_of_lt (by have := target.pageSize_le; omega)

end Pages

/-- Masking off the low bits of a size leaves its whole pages. -/
theorem int128And_neg (target : Target) {size : Nat} (fits : size ≤ 2 ^ 64) :
    int128And size (int128Neg target.pageSize) =
      (size / target.pageSize * target.pageSize : Nat) := by
  have small := target.pageSize_le
  have positive := target.pageSize_pos
  have negated : int128Neg target.pageSize = -(target.pageSize : Int) :=
    wrap128_of_bounds (by omega) (by omega)
  have sizeWord : (BitVec.ofInt 128 (size : Int)).toNat = size := by
    rw [BitVec.toNat_ofInt]
    omega
  have maskWord : (BitVec.ofInt 128 (-(target.pageSize : Int))).toNat =
      2 ^ 128 - 1 - (target.pageSize - 1) := by
    rw [BitVec.toNat_ofInt]
    omega
  have masked : (BitVec.ofInt 128 (size : Int) &&&
      BitVec.ofInt 128 (-(target.pageSize : Int))).toNat =
        size / target.pageSize * target.pageSize := by
    rw [BitVec.toNat_and, sizeWord, maskWord]
    exact Word.alignDown_two_pow target.pageBits (by have := target.pageBits_le; omega) (by omega)
  have below := Nat.div_mul_le_self size target.pageSize
  rw [int128And, negated, BitVec.toInt_eq_toNat_of_lt (by omega), masked]

/-! ### The pieces of a section -/

/-- A section as a flat view yields it: a guest region, a range inside the address space that is
not empty, and an offset that is a 64-bit number. -/
structure MemoryRegionSection.Valid (sect : MemoryRegionSection) : Prop where
  mr : ∃ id, sect.mr = .region id
  nonempty : 0 < sect.size
  fits : sect.offsetWithinAddressSpace + sect.size ≤ 2 ^ 64
  offset : sect.offsetWithinRegion < 2 ^ 64

/-- A part of a section. -/
def MemoryRegionSection.part (sect : MemoryRegionSection) (start size : Nat) :
    MemoryRegionSection :=
  { sect with
    size
    offsetWithinAddressSpace := sect.offsetWithinAddressSpace + start
    offsetWithinRegion := (sect.offsetWithinRegion + start) % 2 ^ 64 }

/-- A piece that is registered: whole pages, or a part of one page. -/
structure Piece where
  whole : Bool
  sect : MemoryRegionSection
  deriving DecidableEq, Repr

def registerPiece (host : Host) (target : Target) (d : AddressSpaceDispatch) (piece : Piece) :
    Except Fault AddressSpaceDispatch :=
  if piece.whole then registerMultipage target d piece.sect
  else registerSubpage host target d piece.sect

section Pieces

variable (target : Target) (sect : MemoryRegionSection)

/-- The size of the ragged start. -/
def headSize : Nat :=
  if sect.offsetWithinAddressSpace % target.pageSize = 0 then 0
  else min (target.pageSize - sect.offsetWithinAddressSpace % target.pageSize) sect.size.toNat

/-- The size of the whole pages. -/
def bodySize : Nat :=
  (sect.size.toNat - headSize target sect) / target.pageSize * target.pageSize

/-- The size of the ragged end. -/
def tailSize : Nat := sect.size.toNat - headSize target sect - bodySize target sect

/-- A piece, unless it is empty. -/
def pieceOf (whole : Bool) (start size : Nat) : List Piece :=
  if size = 0 then [] else [{ whole, sect := sect.part start size }]

/-- The pieces of a section. -/
def pieces : List Piece :=
  pieceOf sect false 0 (headSize target sect) ++
    pieceOf sect true (headSize target sect) (bodySize target sect) ++
    pieceOf sect false (headSize target sect + bodySize target sect) (tailSize target sect)

theorem headSize_le : headSize target sect ≤ sect.size.toNat := by
  rw [headSize]
  split
  · exact Nat.zero_le _
  · exact Nat.min_le_right _ _

theorem bodySize_le : bodySize target sect ≤ sect.size.toNat - headSize target sect :=
  Nat.div_mul_le_self _ _

/-- The three sizes add up. -/
theorem headSize_add_bodySize_add_tailSize :
    headSize target sect + bodySize target sect + tailSize target sect = sect.size.toNat := by
  have head := headSize_le target sect
  have body := bodySize_le target sect
  unfold tailSize
  omega

/-- Behind the ragged start, a section that goes on does so at the start of a page. -/
theorem headSize_aligned (more : headSize target sect < sect.size.toNat) :
    (sect.offsetWithinAddressSpace + headSize target sect) % target.pageSize = 0 := by
  have positive := target.pageSize_pos
  rw [headSize] at more ⊢
  split
  · next aligned => rwa [Nat.add_zero]
  · next ragged =>
    rw [if_neg ragged] at more
    have split := Nat.div_add_mod sect.offsetWithinAddressSpace target.pageSize
    have below := Nat.mod_lt sect.offsetWithinAddressSpace positive
    rw [Nat.min_eq_left (by omega), show sect.offsetWithinAddressSpace + (target.pageSize -
        sect.offsetWithinAddressSpace % target.pageSize) = target.pageSize *
          (sect.offsetWithinAddressSpace / target.pageSize + 1) by
      rw [Nat.mul_add, Nat.mul_one]; omega]
    exact Nat.mul_mod_right _ _

end Pieces

/-! ### The loop registers the pieces -/

section Loop

variable {host : Host} (gets : host.Gets64) (target : Target) {sect : MemoryRegionSection}
  (valid : sect.Valid)

include valid in
theorem MemoryRegionSection.Valid.size_eq : sect.size = sect.size.toNat := by
  have := valid.nonempty
  omega

include valid in
theorem part_zero : sect.part 0 sect.size.toNat = sect := by
  have sizeEq := valid.size_eq
  obtain ⟨mr, offset, size, addr, readonly⟩ := sect
  simp only [MemoryRegionSection.part, Nat.add_zero, MemoryRegionSection.mk.injEq, true_and,
    and_true]
  exact ⟨Nat.mod_eq_of_lt valid.offset, sizeEq.symm⟩

variable {start size : Nat}

include gets valid in
/-- What is left after a piece is the part behind it. -/
theorem after_part (more : start + size < sect.size.toNat) :
    (sect.part start size).after host (sect.part start (sect.size.toNat - start)) =
      sect.part (start + size) (sect.size.toNat - (start + size)) := by
  have fits := valid.fits
  have word : (host.int128Get64 (size : Int)).toNat = size := by
    rw [gets size (by omega) (by omega), BitVec.toNat_ofInt]
    omega
  have left : int128Sub ((sect.size.toNat - start : Nat) : Int) size =
      (sect.size.toNat - (start + size) : Nat) := by
    rw [int128Sub, wrap128_of_bounds (by omega) (by omega)]
    omega
  simp only [MemoryRegionSection.after, MemoryRegionSection.part, word, left,
    MemoryRegionSection.mk.injEq, true_and, and_true]
  constructor
  · rw [Word.add, Nat.mod_add_mod, Nat.add_assoc]
  · rw [Word.add_of_lt (by omega), Nat.add_assoc]

theorem part_size_ne (more : start + size < sect.size.toNat) :
    (sect.part start (sect.size.toNat - start)).size ≠ (sect.part start size).size := by
  simp only [MemoryRegionSection.part]
  omega

theorem memAddLoop_done (fuel : Nat) (d : AddressSpaceDispatch)
    {now remain : MemoryRegionSection} (done : remain.size = now.size) :
    memAddLoop host target fuel d now remain = .ok d := by
  cases fuel with
  | zero | succ fuel => rw [memAddLoop, if_pos done]

include gets valid in
/-- A rest that is shorter than a page is registered as it is. -/
theorem memAddLoop_tail (start size : Nat) (more : start + size < sect.size.toNat)
    (short : sect.size.toNat - (start + size) < target.pageSize) (fuel : Nat)
    (d : AddressSpaceDispatch) :
    memAddLoop host target (fuel + 1) d (sect.part start size)
        (sect.part start (sect.size.toNat - start)) =
      registerSubpage host target d
        (sect.part (start + size) (sect.size.toNat - (start + size))) := by
  rw [memAddLoop, if_neg (part_size_ne more), after_part gets valid more]
  rw [if_pos (by simp only [MemoryRegionSection.part]; omega)]
  cases registerSubpage host target d
      (sect.part (start + size) (sect.size.toNat - (start + size))) with
  | error fault => rfl
  | ok d' => rw [ok_bind, memAddLoop_done target fuel d' rfl]

include gets valid in
/-- The whole pages of an aligned rest are registered at once. -/
theorem memAddLoop_body {start whole : Nat} (more : start < sect.size.toNat)
    (long : target.pageSize ≤ sect.size.toNat - start)
    (aligned : (sect.offsetWithinAddressSpace + start) % target.pageSize = 0)
    (isWhole : (sect.size.toNat - start) / target.pageSize * target.pageSize = whole) (fuel : Nat)
    (d : AddressSpaceDispatch) :
    memAddLoop host target (fuel + 1) d (sect.part 0 start) sect =
      (do
        let d ← registerMultipage target d (sect.part start whole)
        memAddLoop host target fuel d (sect.part start whole)
          (sect.part start (sect.size.toNat - start))) := by
  have fits := valid.fits
  have differs := part_size_ne (show 0 + start < sect.size.toNat by omega)
  have after := after_part gets valid (show 0 + start < sect.size.toNat by omega)
  simp only [Nat.zero_add, Nat.sub_zero, part_zero valid] at differs after
  rw [memAddLoop, if_neg differs, after]
  rw [if_neg (by simp only [MemoryRegionSection.part]; omega),
    if_neg (by
      rw [target.pageOffset_eq]
      simp only [MemoryRegionSection.part]
      omega)]
  simp only [MemoryRegionSection.part, int128And_neg target (show
    sect.size.toNat - start ≤ 2 ^ 64 by omega), isWhole]

/-- Registering the pieces in their order. -/
def registerPieces (host : Host) (target : Target) (d : AddressSpaceDispatch)
    (list : List Piece) : Except Fault AddressSpaceDispatch :=
  list.foldlM (registerPiece host target) d

variable (d : AddressSpaceDispatch)

theorem registerPieces_pieceOf (whole : Bool) (some : size ≠ 0) (rest : List Piece) :
    registerPieces host target d (pieceOf sect whole start size ++ rest) =
      (do
        let d ← registerPiece host target d { whole, sect := sect.part start size }
        registerPieces host target d rest) := by
  rw [pieceOf, if_neg some]
  rfl

theorem registerPieces_tail (some : size ≠ 0) :
    registerPieces host target d (pieceOf sect false start size) =
      registerSubpage host target d (sect.part start size) := by
  rw [pieceOf, if_neg some]
  simp [registerPieces, registerPiece]

include gets valid in
/-- From an aligned place on, the loop registers whole pages and a ragged end. -/
theorem memAddLoop_aligned {start whole : Nat} (more : start < sect.size.toNat)
    (aligned : (sect.offsetWithinAddressSpace + start) % target.pageSize = 0)
    (isWhole : (sect.size.toNat - start) / target.pageSize * target.pageSize = whole)
    (d : AddressSpaceDispatch) :
    memAddLoop host target memAddPasses d (sect.part 0 start) sect =
      registerPieces host target d (pieceOf sect true start whole ++
        pieceOf sect false (start + whole) (sect.size.toNat - start - whole)) := by
  have positive := target.pageSize_pos
  have begin' := memAddLoop_tail gets target valid 0 start
  simp only [Nat.zero_add, Nat.sub_zero, part_zero valid] at begin'
  rcases Nat.lt_or_ge (sect.size.toNat - start) target.pageSize with short | long
  · rw [← isWhole, Nat.div_eq_of_lt short, Nat.zero_mul, Nat.add_zero, Nat.sub_zero, memAddPasses,
      begin' more short, pieceOf, if_pos rfl, List.nil_append,
      registerPieces_tail target d (by omega)]
  · have pages : 0 < (sect.size.toNat - start) / target.pageSize := Nat.div_pos long positive
    have rest := Nat.mod_lt (sect.size.toNat - start) positive
    have split := Nat.div_add_mod' (sect.size.toNat - start) target.pageSize
    rw [isWhole] at split
    rw [memAddPasses, memAddLoop_body gets target valid more long aligned isWhole,
      registerPieces_pieceOf target d true (by omega)]
    congr 1
    funext d'
    by_cases all : sect.size.toNat - start = whole
    · rw [memAddLoop_done target 2 d' (by rw [all]), all, Nat.sub_self, pieceOf, if_pos rfl]
      rfl
    · rw [registerPieces_tail target d' (by omega),
        memAddLoop_tail gets target valid start whole (by omega) (by omega) 1 d', Nat.sub_sub]

include gets valid in
/-- `mem_add` registers the pieces of the section. -/
theorem memAdd_eq :
    memAdd host target d sect = registerPieces host target d (pieces target sect) := by
  have fits := valid.fits
  have nonempty := valid.nonempty
  have positive := target.pageSize_pos
  rw [memAdd, target.pageOffset_eq, pieces, List.append_assoc]
  by_cases aligned : sect.offsetWithinAddressSpace % target.pageSize = 0
  · have head : headSize target sect = 0 := if_pos aligned
    have empty : { sect with size := 0 } = sect.part 0 0 := by
      simp only [MemoryRegionSection.part, Nat.add_zero, Nat.mod_eq_of_lt valid.offset]
      rfl
    rw [if_neg (not_not.mpr aligned), empty, tailSize, bodySize, head,
      memAddLoop_aligned gets target valid (by omega) (by rwa [Nat.add_zero]) rfl]
    rfl
  · have head : headSize target sect = min (target.pageSize -
        sect.offsetWithinAddressSpace % target.pageSize) sect.size.toNat := if_neg aligned
    have below := Nat.mod_lt sect.offsetWithinAddressSpace positive
    have first : { sect with
        size := min ((Word.sub 64 (target.pageAlign sect.offsetWithinAddressSpace)
          sect.offsetWithinAddressSpace : Nat) : Int) sect.size } =
        sect.part 0 (headSize target sect) := by
      rw [target.pageAlign_sub (by omega) aligned, head]
      simp only [MemoryRegionSection.part, Nat.add_zero, Nat.mod_eq_of_lt valid.offset,
        MemoryRegionSection.mk.injEq, true_and, and_true]
      omega
    rw [if_pos aligned, registerPieces_pieceOf target d false (by omega)]
    simp only [first, registerPiece, Bool.false_eq_true, if_false]
    congr 1
    funext d'
    by_cases all : headSize target sect = sect.size.toNat
    · rw [all, part_zero valid, memAddLoop_done target _ d' rfl, tailSize, bodySize, all,
        Nat.sub_self, Nat.zero_div, Nat.zero_mul]
      rfl
    · rw [memAddLoop_aligned gets target valid (by omega)
        (headSize_aligned target sect (by omega)) rfl, tailSize, bodySize]

end Loop

/-! ### The pieces partition the section -/

/-- Two sections without a common address. -/
def MemoryRegionSection.Disjoint (first second : MemoryRegionSection) : Prop :=
  ∀ addr, ¬ (first.Contains addr ∧ second.Contains addr)

/-- Pieces that cover a section without overlaps and agree with it at every address. -/
structure Partition (sect : MemoryRegionSection) (list : List Piece) : Prop where
  covers : ∀ addr, sect.Contains addr ↔ ∃ piece ∈ list, piece.sect.Contains addr
  disjoint : list.Pairwise fun first second => first.sect.Disjoint second.sect
  same : ∀ piece ∈ list, piece.sect.mr = sect.mr ∧ piece.sect.readonly = sect.readonly ∧
    sect.offsetWithinAddressSpace ≤ piece.sect.offsetWithinAddressSpace ∧
    piece.sect.offsetWithinRegion = (sect.offsetWithinRegion +
      (piece.sect.offsetWithinAddressSpace - sect.offsetWithinAddressSpace)) % 2 ^ 64

/-- A piece that can be registered: a valid section, of whole pages or inside one page. -/
structure Piece.Sound (target : Target) (piece : Piece) : Prop where
  valid : piece.sect.Valid
  whole : piece.whole = true →
    piece.sect.offsetWithinAddressSpace % target.pageSize = 0 ∧
      target.pageSize ∣ piece.sect.size.toNat
  inPage : piece.whole = false →
    piece.sect.offsetWithinAddressSpace % target.pageSize + piece.sect.size.toNat ≤ target.pageSize

section Partition

variable (target : Target) (sect : MemoryRegionSection)

theorem contains_part (start size addr : Nat) :
    (sect.part start size).Contains addr ↔
      sect.offsetWithinAddressSpace + start ≤ addr ∧
        addr < sect.offsetWithinAddressSpace + start + size := by
  simp only [MemoryRegionSection.Contains, MemoryRegionSection.part]
  omega

theorem mem_pieceOf (whole : Bool) (start size : Nat) (piece : Piece) :
    piece ∈ pieceOf sect whole start size ↔
      size ≠ 0 ∧ piece = { whole, sect := sect.part start size } := by
  rw [pieceOf]
  split
  · next empty => simp [empty]
  · next some => simp [some]

variable {sect} (valid : sect.Valid)

include valid in
theorem valid_part {start size : Nat} (some : size ≠ 0) (inside : start + size ≤ sect.size.toNat) :
    (sect.part start size).Valid := by
  have fits := valid.fits
  refine ⟨valid.mr, ?_, ?_, Nat.mod_lt _ (by decide)⟩
  · simp only [MemoryRegionSection.part]
    omega
  · simp only [MemoryRegionSection.part]
    omega

include valid in
theorem pieces_sound (piece : Piece) (member : piece ∈ pieces target sect) :
    piece.Sound target := by
  have positive := target.pageSize_pos
  have total := headSize_add_bodySize_add_tailSize target sect
  have aligned := headSize_aligned target sect
  simp only [pieces, List.mem_append, mem_pieceOf] at member
  rcases member with (⟨some, rfl⟩ | ⟨some, rfl⟩) | ⟨some, rfl⟩
  · refine ⟨valid_part valid some (by omega), fun whole => absurd whole (by simp), fun _ => ?_⟩
    simp only [MemoryRegionSection.part, Nat.add_zero, Int.toNat_natCast]
    have below := Nat.mod_lt sect.offsetWithinAddressSpace positive
    rw [headSize] at some ⊢
    split
    · omega
    · omega
  · refine ⟨valid_part valid some (by omega), fun _ => ⟨aligned (by omega), ?_⟩,
      fun part => absurd part (by simp)⟩
    exact Nat.dvd_mul_left _ _
  · refine ⟨valid_part valid some (by omega), fun whole => absurd whole (by simp), fun _ => ?_⟩
    have start := aligned (by omega)
    have short : tailSize target sect < target.pageSize := by
      have rest := Nat.mod_lt (sect.size.toNat - headSize target sect) positive
      have split := Nat.div_add_mod' (sect.size.toNat - headSize target sect) target.pageSize
      unfold tailSize bodySize
      omega
    simp only [MemoryRegionSection.part, Int.toNat_natCast]
    rw [← Nat.add_assoc, Nat.add_mod, start, Nat.zero_add, Nat.mod_mod, bodySize,
      Nat.mul_mod_left, Nat.zero_add]
    exact Nat.le_of_lt short

include valid in
theorem pieces_partition : Partition sect (pieces target sect) := by
  have sizeEq := valid.size_eq
  have total := headSize_add_bodySize_add_tailSize target sect
  refine ⟨fun addr => ?_, ?_, fun piece member => ?_⟩
  · simp only [pieces, List.mem_append, mem_pieceOf]
    constructor
    · rintro ⟨lower, upper⟩
      rcases Nat.lt_or_ge addr (sect.offsetWithinAddressSpace + headSize target sect) with
        inHead | behind
      · exact ⟨_, Or.inl (Or.inl ⟨by omega, rfl⟩), (contains_part sect _ _ addr).mpr (by omega)⟩
      · rcases Nat.lt_or_ge addr (sect.offsetWithinAddressSpace + headSize target sect +
          bodySize target sect) with inBody | inTail
        · exact ⟨_, Or.inl (Or.inr ⟨by omega, rfl⟩), (contains_part sect _ _ addr).mpr (by omega)⟩
        · exact ⟨_, Or.inr ⟨by omega, rfl⟩, (contains_part sect _ _ addr).mpr (by omega)⟩
    · rintro ⟨piece, (⟨some, rfl⟩ | ⟨some, rfl⟩) | ⟨some, rfl⟩, inside⟩
      all_goals
        rw [contains_part] at inside
        unfold MemoryRegionSection.Contains
        omega
  · have alone (whole : Bool) (start size : Nat) :
        (pieceOf sect whole start size).Pairwise fun first second =>
          first.sect.Disjoint second.sect := by
      rw [pieceOf]
      split
      · exact List.Pairwise.nil
      · exact List.pairwise_singleton _ _
    simp only [pieces, List.pairwise_append, List.mem_append, mem_pieceOf]
    refine ⟨⟨alone _ _ _, alone _ _ _, ?_⟩, alone _ _ _, ?_⟩
    · rintro first ⟨-, rfl⟩ second ⟨-, rfl⟩ addr ⟨left, right⟩
      rw [contains_part] at left right
      omega
    · rintro first (⟨-, rfl⟩ | ⟨-, rfl⟩) second ⟨-, rfl⟩ addr ⟨left, right⟩
      all_goals
        rw [contains_part] at left right
        omega
  · simp only [pieces, List.mem_append, mem_pieceOf] at member
    rcases member with (⟨some, rfl⟩ | ⟨some, rfl⟩) | ⟨some, rfl⟩
    all_goals
      simp [MemoryRegionSection.part]

end Partition

end StudyNotes.Memory
