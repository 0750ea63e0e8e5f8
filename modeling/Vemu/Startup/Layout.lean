import Vemu.Separation

/-!
# The layout of a process

Where the constructor puts what a process is started with.  The stack comes after the segments,
and after the stack a block of 256 bytes for every string: the last argument first, and the name
of the file in the end.  On the stack are, from the pointer up, the number of strings, a pointer to
each, and three zeros.

A block is not larger for a longer string.  So the strings are apart from each other, from the
stack and from the segments exactly if no argument has more than 255 bytes
(**`Process.apart_iff`**).
-/

namespace Vemu

open Bump Loop

/-! ## The image -/

/-- The byte that a segment has at an address, and its permissions. -/
def MemorySegment.byteAt (seg : MemorySegment) (k : ℕ) : Option (U8 × U8) :=
  if seg.startAddr.toNat ≤ k then
    ((MMU.segmentBytes seg)[k - seg.startAddr.toNat]?).map fun b => (b, seg.perms)
  else none

/-- The byte that an image has at an address.  Where segments overlap, the last one counts. -/
def imageAt : List MemorySegment → ℕ → Option (U8 × U8)
  | [], _ => none
  | seg :: segs, k => (imageAt segs k).or (seg.byteAt k)

lemma MemorySegment.byteAt_eq_none {seg : MemorySegment} {k : ℕ}
    (h : seg.startAddr.toNat + seg.memSize.toNat ≤ k) : seg.byteAt k = none := by
  have hlen := MMU.length_segmentBytes seg
  unfold byteAt
  split_ifs
  · rw [List.getElem?_eq_none (by omega)]
    rfl
  · rfl

/-- Above all the segments there is nothing of the image. -/
lemma imageAt_eq_none {segs : List MemorySegment} {k : ℕ}
    (h : ∀ seg ∈ segs, seg.startAddr.toNat + seg.memSize.toNat ≤ k) : imageAt segs k = none := by
  induction segs with
  | nil => rfl
  | cons seg segs ih =>
      rw [imageAt, ih fun seg' hseg' => h seg' (List.mem_cons_of_mem seg hseg'),
        MemorySegment.byteAt_eq_none (h seg List.mem_cons_self)]
      rfl

/-- Where the allocation pointer is after a segment. -/
def raised (ptr : U64) (seg : MemorySegment) : U64 :=
  if ptr < MMU.segmentTop seg then MMU.segmentTop seg else ptr

lemma le_raised (ptr : U64) (seg : MemorySegment) :
    ptr.toNat ≤ (raised ptr seg).toNat ∧ (MMU.segmentTop seg).toNat ≤ (raised ptr seg).toNat := by
  unfold raised
  split_ifs with h
  · exact ⟨le_of_lt (BitVec.lt_def.mp h), le_rfl⟩
  · exact ⟨le_rfl, not_lt.mp (mt BitVec.lt_def.mpr h)⟩

/-- Where it is after the segments. -/
def imageTop (segs : List MemorySegment) (ptr : U64) : U64 := segs.foldl raised ptr

lemma imageTop_cons (seg : MemorySegment) (segs : List MemorySegment) (ptr : U64) :
    imageTop (seg :: segs) ptr = imageTop segs (raised ptr seg) :=
  List.foldl_cons ..

lemma le_imageTop (segs : List MemorySegment) (ptr : U64) : ptr.toNat ≤ (imageTop segs ptr).toNat := by
  induction segs generalizing ptr with
  | nil => exact le_rfl
  | cons seg segs ih =>
      rw [imageTop_cons]
      exact le_trans (le_raised ptr seg).1 (ih _)

/-- The segments end below the pointer. -/
lemma segment_le_imageTop {segs : List MemorySegment} {seg : MemorySegment} (hseg : seg ∈ segs)
    (ptr : U64) (h : seg.startAddr.toNat + seg.memSize.toNat < 2 ^ 63) :
    seg.startAddr.toNat + seg.memSize.toNat ≤ (imageTop segs ptr).toNat := by
  induction segs generalizing ptr with
  | nil => cases hseg
  | cons seg' segs ih =>
      rw [imageTop_cons]
      rcases List.mem_cons.mp hseg with rfl | hseg
      · have htop := (MMU.segmentTop_bounds h).1
        exact le_trans (le_trans htop (le_raised ptr seg).2) (le_imageTop segs _)
      · exact ih hseg _

/-! ## The process -/

/-- What a process is started with. -/
structure Process where
  info : FileInfo
  args : List (List U8)

namespace Process

variable (p : Process)

/-- The name of the file, and the arguments. -/
def strings : List (List U8) := p.info.fileName :: p.args

def stackBase : U64 := imageTop p.info.segments 0x10000

/-- The end of the stack. -/
def top : U64 := p.stackBase + VEmu.stackSize

/-- The blocks in the order in which they are handed out. -/
def lot (n : ℕ) : U64 := p.top + BitVec.ofNat 64 (256 * n)

/-- The places on the stack in the order in which they are taken. -/
def slot (j : ℕ) : U64 := p.top - BitVec.ofNat 64 (8 * (j + 1))

/-- The block of a string, the file name being number zero. -/
def block (i : ℕ) : U64 := p.lot (p.args.length - i)

/-- The words on the stack. -/
def words : List U64 :=
  BitVec.ofNat 64 p.strings.length :: ((List.range p.strings.length).map p.block ++ [0, 0, 0])

/-- The words after `n` strings, in the order in which they are pushed. -/
def pushed (n : ℕ) : List U64 := [0, 0, 0] ++ (List.range n).map p.lot

def sp : U64 := p.top - BitVec.ofNat 64 (8 * p.words.length)

/-- The words fit in the stack. -/
def FitsStack : Prop := 8 * p.words.length ≤ VEmu.stackSize.toNat

/-- The addresses of the stack. -/
def stack : Set ℕ := span (p.stackBase.toNat, VEmu.stackSize.toNat)

/-- The addresses of a string, its terminator included. -/
def held (i : ℕ) (str : List U8) : Set ℕ := span ((p.block i).toNat, str.length + 1)

/-- **The strings, the stack and the segments do not overlap.** -/
structure Apart : Prop where
  strings : ∀ i j str str', i < j → p.strings[i]? = some str → p.strings[j]? = some str' →
    Disjoint (p.held i str) (p.held j str')
  stack : ∀ i str, p.strings[i]? = some str → Disjoint (p.held i str) p.stack
  segments : ∀ seg ∈ p.info.segments, Disjoint (span seg.range) p.stack
    ∧ ∀ i str, p.strings[i]? = some str → Disjoint (span seg.range) (p.held i str)

/-- No argument is too long for its block. -/
def Short : Prop := ∀ arg ∈ p.args, arg.length < 256

/-- There is room for all of this in the address space. -/
structure Placed : Prop where
  fits : p.FitsStack
  room : p.stackBase.toNat + VEmu.stackSize.toNat + 256 * p.strings.length < 2 ^ 63
  segments : ∀ seg ∈ p.info.segments, seg.startAddr.toNat + seg.memSize.toNat < 2 ^ 63

variable {p}

lemma length_strings : p.strings.length = p.args.length + 1 := rfl

lemma length_words : p.words.length = p.args.length + 5 := by simp [words, strings]

lemma length_pushed (n : ℕ) : (p.pushed n).length = n + 3 := by
  rw [pushed, List.length_append, List.length_map, List.length_range, Nat.add_comm]
  rfl

lemma pushed_succ (n : ℕ) : p.pushed (n + 1) = p.pushed n ++ [p.lot n] := by
  simp [pushed, List.range_succ]

/-- The words are pushed from the last to the first. -/
lemma reverse_words :
    p.words.reverse = p.pushed p.strings.length ++ [BitVec.ofNat 64 p.strings.length] := by
  have hblocks : ((List.range p.strings.length).map p.block).reverse
      = (List.range p.strings.length).map p.lot := by
    refine List.ext_getElem (by simp) fun i hi hi' => ?_
    rw [List.length_map, List.length_range, length_strings] at hi'
    simp only [List.getElem_reverse, List.getElem_map, List.getElem_range, List.length_map,
      List.length_range, length_strings, block]
    congr 1
    omega
  rw [words, List.reverse_cons, List.reverse_append, hblocks, pushed]
  rfl

/-- The place of a word, from the pointer up. -/
lemma sp_add {j : ℕ} (hj : j < p.words.length) :
    p.sp + BitVec.ofNat 64 (8 * j) = p.slot (p.words.length - 1 - j) := by
  have hlen : 8 * p.words.length = 8 * (p.words.length - 1 - j + 1) + 8 * j := by omega
  rw [sp, slot, hlen, BitVec.ofNat_add, ← BitVec.sub_sub, BitVec.sub_add_cancel]

lemma stackSize_toNat : VEmu.stackSize.toNat = 2 ^ 20 := rfl

lemma toNat_top (h : p.stackBase.toNat + 2 ^ 20 < 2 ^ 63) :
    p.top.toNat = p.stackBase.toNat + 2 ^ 20 := by
  rw [top, BitVec.toNat_add, stackSize_toNat]
  omega

lemma toNat_lot {n : ℕ} (h : p.stackBase.toNat + 2 ^ 20 + 256 * n < 2 ^ 63) :
    (p.lot n).toNat = p.stackBase.toNat + 2 ^ 20 + 256 * n := by
  have htop := @toNat_top p (by omega)
  rw [lot, toNat_add_ofNat_of_le (by rw [htop]; omega), htop]

/-- Going down from the end of the stack. -/
lemma toNat_top_sub {n : ℕ} (h : p.stackBase.toNat + 2 ^ 20 < 2 ^ 63) (hn : n ≤ 2 ^ 20) :
    (p.top - BitVec.ofNat 64 n).toNat = p.stackBase.toNat + 2 ^ 20 - n := by
  rw [BitVec.toNat_sub, BitVec.toNat_ofNat, toNat_top h]
  omega

namespace Placed

variable (h : p.Placed)
include h

lemma top_lt : p.stackBase.toNat + 2 ^ 20 < 2 ^ 63 := by
  have hroom := h.room
  rw [stackSize_toNat] at hroom
  omega

lemma toNat_block {i : ℕ} (hi : i ≤ p.args.length) :
    (p.block i).toNat = p.stackBase.toNat + 2 ^ 20 + 256 * (p.args.length - i) := by
  have hroom := h.room
  rw [stackSize_toNat, length_strings] at hroom
  exact toNat_lot (by omega)

/-- The blocks follow each other downwards. -/
lemma apart_of_short (hshort : p.Short) : p.Apart where
  strings := by
    intro i j str str' hij hi hj
    obtain ⟨hlen, -⟩ := List.getElem?_eq_some_iff.mp hj
    have hle : j ≤ p.args.length := by
      rw [length_strings] at hlen
      omega
    obtain ⟨j, rfl⟩ := Nat.exists_eq_add_of_lt (Nat.zero_lt_of_lt hij)
    have hmem : str' ∈ p.args := by
      rw [strings, Nat.zero_add, List.getElem?_cons_succ] at hj
      exact List.mem_of_getElem? hj
    have hstr := hshort str' hmem
    refine (span_disjoint ?_).symm
    rw [h.toNat_block hle, h.toNat_block (by omega)]
    omega
  stack := by
    intro i str hi
    obtain ⟨hlen, -⟩ := List.getElem?_eq_some_iff.mp hi
    rw [length_strings] at hlen
    refine (span_disjoint ?_).symm
    rw [h.toNat_block (by omega), stackSize_toNat]
    omega
  segments := by
    intro seg hseg
    have hle := segment_le_imageTop hseg 0x10000 (h.segments seg hseg)
    refine ⟨span_disjoint hle, fun i str hi => span_disjoint (le_trans hle ?_)⟩
    obtain ⟨hlen, -⟩ := List.getElem?_eq_some_iff.mp hi
    rw [length_strings] at hlen
    change p.stackBase.toNat ≤ _
    rw [h.toNat_block (by omega)]
    omega

/-- **The layout is apart** exactly if the arguments are short. -/
theorem apart_iff : p.Apart ↔ p.Short := by
  refine ⟨fun hapart arg harg => ?_, h.apart_of_short⟩
  obtain ⟨i, hi, rfl⟩ := List.mem_iff_getElem.mp harg
  have hnext : p.strings[i + 1]? = some p.args[i] := List.getElem?_eq_getElem hi
  have hlen : i < p.strings.length := by
    rw [length_strings]
    omega
  have hdisjoint := hapart.strings i (i + 1) p.strings[i] p.args[i] (Nat.lt_succ_self i)
    (List.getElem?_eq_getElem hlen) hnext
  by_contra hlong
  -- the next block begins within the string
  have hblock := h.toNat_block (show i ≤ p.args.length by omega)
  have hblock' := h.toNat_block (show i + 1 ≤ p.args.length by omega)
  refine Set.disjoint_left.mp hdisjoint (Set.mem_Ico.mpr ⟨le_rfl, ?_⟩) (Set.mem_Ico.mpr ⟨?_, ?_⟩)
  · exact Nat.lt_add_of_pos_right (Nat.succ_pos _)
  · dsimp only
    omega
  · dsimp only
    omega

end Placed

end Process

end Vemu
