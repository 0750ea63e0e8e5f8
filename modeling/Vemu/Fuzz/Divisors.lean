import Vemu.Fuzz.Mutation

/-!
# The divisors of a mutation

`read_elf` keeps the segments that are loaded, of which there may be none, and some may have no bytes
in the file.  `push_mutate` draws a segment of these and a byte of the segment, and takes a remainder
by their number and by the segment's size in the file.

`pickedSize` is the size of the segment that a round draws, and zero where there is none to draw.
**`divides_iff`**: no remainder by zero is taken exactly where every round draws a segment with bytes.
-/

namespace Vemu

open Fallible OrderedMap

/-! ## Reading an executable -/

/-- A program header, with the bytes that it has in the file. -/
structure ProgramHeader where
  type : U32
  flags : U32
  virtualAddress : U64
  memorySize : U64
  fileSize : U64
  data : List U8
  length_data : data.length = fileSize.toNat

def ptLoad : U32 := 1

def ProgramHeader.toSegment (pseg : ProgramHeader) : MemorySegment where
  perms := pseg.flags.setWidth 8
  startAddr := pseg.virtualAddress
  memSize := pseg.memorySize
  fileSize := pseg.fileSize
  data := pseg.data
  length_data := pseg.length_data

/-- `read_elf`.  What the reader makes of a file are its program headers and its entry point, or
nothing if it cannot process it. -/
def readElf (load : List U8 → Option (List ProgramHeader × U64)) (fname : List U8)
    (exitFatally : Bool) : Except Fault FileInfo :=
  match load fname with
  | none => if exitFatally then .error .exitFailure else .ok ⟨[], [], ~~~0⟩
  | some (headers, entry) =>
      .ok ⟨fname, (headers.filter (·.type = ptLoad)).map ProgramHeader.toSegment, entry⟩

/-! ## One round -/

section Rounds

variable {stream : ℕ → U64} {nBytes drawn : ℕ} {info : FileInfo} {history : MutationHistory}

/-- The size of the segment that a round draws.  There is none to draw from nothing. -/
def pickedSize (stream : ℕ → U64) (sizes : List U64) (drawn : ℕ) : ℕ :=
  (sizes[(stream drawn).toNat % sizes.length]?.getD 0).toNat

/-- The segment that a round draws. -/
lemma exists_picked (h : pickedSize stream info.shape drawn ≠ 0) :
    info.segments.length ≠ 0 ∧ ∃ seg,
      info.segments[(stream drawn).toNat % info.segments.length]? = some seg
        ∧ seg.fileSize.toNat ≠ 0 := by
  have hlen : info.shape.length = info.segments.length := by simp [FileInfo.shape]
  rw [pickedSize, hlen, FileInfo.shape, List.getElem?_map] at h
  cases hseg : info.segments[(stream drawn).toNat % info.segments.length]? with
  | none => simp [hseg] at h
  | some seg =>
      rw [hseg] at h
      refine ⟨fun hzero => ?_, seg, rfl, h⟩
      rw [List.length_eq_zero_iff.mp hzero] at hseg
      cases hseg

/-- A round that draws a segment with bytes goes through, and leaves the sizes alone. -/
lemma pushMutate_of_size (h : pickedSize stream info.shape drawn ≠ 0) :
    ∃ info₁ history₁, info₁.shape = info.shape
      ∧ pushMutate stream (nBytes + 1) drawn info history
        = pushMutate stream nBytes (drawn + 3) info₁ history₁ := by
  obtain ⟨hne, seg, hseg, hsize⟩ := exists_picked h
  have hbyte : (stream (drawn + 1)).toNat % seg.fileSize.toNat < seg.data.length := by
    rw [seg.length_data]
    exact Nat.mod_lt _ (Nat.pos_of_ne_zero hsize)
  obtain ⟨old, hold⟩ : ∃ old, info.byteAt ((stream drawn).toNat % info.segments.length,
      (stream (drawn + 1)).toNat % seg.fileSize.toNat) = some old := by
    rw [FileInfo.byteAt, hseg]
    exact ⟨_, List.getElem?_eq_getElem hbyte⟩
  obtain ⟨info₁, hset⟩ :=
    FileInfo.exists_setByte hold (BitVec.ofNat 8 ((stream (drawn + 2)).toNat % 255))
  refine ⟨info₁, if find? history ((stream drawn).toNat % info.segments.length,
      (stream (drawn + 1)).toNat % seg.fileSize.toNat) = none
    then insertNew positionRank ((stream drawn).toNat % info.segments.length,
      (stream (drawn + 1)).toNat % seg.fileSize.toNat) old history
    else history, FileInfo.shape_setByte hset, ?_⟩
  rw [pushMutate, below, if_neg hne, ok_bind, hseg, orFault_some, ok_bind, below, if_neg hsize,
    ok_bind]
  dsimp only
  rw [hold, orFault_some, ok_bind, hset, ok_bind]

/-- A round that does not takes a remainder by zero. -/
lemma pushMutate_of_zero (h : pickedSize stream info.shape drawn = 0) :
    pushMutate stream (nBytes + 1) drawn info history = .error .divisionByZero := by
  have hlen : info.shape.length = info.segments.length := by simp [FileInfo.shape]
  rw [pushMutate]
  by_cases hne : info.segments.length = 0
  · rw [below, if_pos hne, error_bind]
  · have hseg : (stream drawn).toNat % info.segments.length < info.segments.length :=
      Nat.mod_lt _ (Nat.pos_of_ne_zero hne)
    rw [pickedSize, hlen, FileInfo.shape, List.getElem?_map, List.getElem?_eq_getElem hseg] at h
    have hzero : info.segments[(stream drawn).toNat % info.segments.length].fileSize.toNat = 0 := h
    rw [below, if_neg hne, ok_bind, List.getElem?_eq_getElem hseg, orFault_some, ok_bind, below,
      if_pos hzero, error_bind]

/-! ## All rounds -/

/-- Every round draws a segment that has bytes. -/
def DrawsBytes (stream : ℕ → U64) (sizes : List U64) (nBytes drawn : ℕ) : Prop :=
  ∀ k < nBytes, pickedSize stream sizes (drawn + 3 * k) ≠ 0

instance (stream : ℕ → U64) (sizes : List U64) (nBytes drawn : ℕ) :
    Decidable (DrawsBytes stream sizes nBytes drawn) := Nat.decidableBallLT nBytes _

lemma drawsBytes_succ {sizes : List U64} : DrawsBytes stream sizes (nBytes + 1) drawn
    ↔ pickedSize stream sizes drawn ≠ 0 ∧ DrawsBytes stream sizes nBytes (drawn + 3) := by
  constructor
  · intro h
    refine ⟨h 0 (by omega), fun k hk => ?_⟩
    rw [Nat.add_assoc, Nat.add_comm 3, ← Nat.mul_succ]
    exact h (k + 1) (by omega)
  · rintro ⟨hfirst, hrest⟩ k hk
    cases k with
    | zero => exact hfirst
    | succ k =>
        rw [Nat.mul_succ, Nat.add_comm (3 * k), ← Nat.add_assoc]
        exact hrest k (by omega)

/-- The rounds go through, or they take a remainder by zero. -/
lemma pushMutate_cases (stream : ℕ → U64) (nBytes drawn : ℕ) (info : FileInfo)
    (history : MutationHistory) :
    (DrawsBytes stream info.shape nBytes drawn →
        ∃ r, pushMutate stream nBytes drawn info history = .ok r)
      ∧ (¬ DrawsBytes stream info.shape nBytes drawn →
        pushMutate stream nBytes drawn info history = .error .divisionByZero) := by
  induction nBytes generalizing drawn info history with
  | zero =>
      exact ⟨fun _ => ⟨_, rfl⟩, fun h => absurd (fun k hk => absurd hk (Nat.not_lt_zero k)) h⟩
  | succ nBytes ih =>
      rw [drawsBytes_succ]
      by_cases hsize : pickedSize stream info.shape drawn = 0
      · exact ⟨fun h => absurd hsize h.1, fun _ => pushMutate_of_zero hsize⟩
      · obtain ⟨info₁, history₁, hshape, hround⟩ :=
          @pushMutate_of_size stream nBytes drawn info history hsize
        obtain ⟨hok, hfail⟩ := ih (drawn + 3) info₁ history₁
        rw [hshape] at hok hfail
        rw [hround]
        exact ⟨fun h => hok h.2, fun h => hfail fun hrest => h ⟨hsize, hrest⟩⟩

end Rounds

/-! ## Executables -/

/-- The sizes in the file of the segments that are loaded. -/
def loadedSizes (load : List U8 → Option (List ProgramHeader × U64)) (fname : List U8) : List U64 :=
  match load fname with
  | none => []
  | some (headers, _) => (headers.filter (·.type = ptLoad)).map (·.fileSize)

lemma shape_readElf {load : List U8 → Option (List ProgramHeader × U64)} {fname : List U8}
    {exitFatally : Bool} {info : FileInfo} (h : readElf load fname exitFatally = .ok info) :
    info.shape = loadedSizes load fname := by
  unfold readElf at h
  unfold loadedSizes
  split at h
  · split_ifs at h
    obtain rfl := Except.ok.inj h
    rfl
  · obtain rfl := Except.ok.inj h
    simp only [FileInfo.shape, List.map_map]
    rfl

/-- **A mutation of an executable** takes no remainder by zero exactly where every round draws a
segment that has bytes in the file. -/
theorem divides_iff {load : List U8 → Option (List ProgramHeader × U64)} {fname : List U8}
    {exitFatally : Bool} {info : FileInfo} (hread : readElf load fname exitFatally = .ok info)
    (stream : ℕ → U64) (nBytes drawn : ℕ) (history : MutationHistory) :
    pushMutate stream nBytes drawn info history ≠ .error .divisionByZero
      ↔ DrawsBytes stream (loadedSizes load fname) nBytes drawn := by
  obtain ⟨hok, hfail⟩ := pushMutate_cases stream nBytes drawn info history
  rw [shape_readElf hread] at hok hfail
  constructor
  · intro hne
    by_contra hdraws
    exact hne (hfail hdraws)
  · intro hdraws hzero
    obtain ⟨r, hr⟩ := hok hdraws
    rw [hr] at hzero
    cases hzero

/-! ## Two executables -/

/-- An executable with a loaded segment of the given bytes, and one that is only in memory. -/
def withBss (data : List U8) (hdata : data.length < 2 ^ 64) (fname : List U8) :
    Option (List ProgramHeader × U64) :=
  if fname = [0x61] then
    some ([⟨ptLoad, 5, 0x1000, 0x1000, BitVec.ofNat 64 data.length, data,
        by rw [BitVec.toNat_ofNat, Nat.mod_eq_of_lt hdata]⟩,
      ⟨ptLoad, 6, 0x2000, 0x1000, 0, [], rfl⟩], 0x1000)
  else none

/-- A byte of the first segment is mutated. -/
theorem divides_first_segment : ∃ info,
    readElf (withBss [1, 2, 3] (by decide)) [0x61] true = .ok info
      ∧ pushMutate ([0, 1, 7].getD · 0) 1 0 info [] ≠ .error .divisionByZero := by
  obtain ⟨info, hinfo⟩ : ∃ info, readElf (withBss [1, 2, 3] (by decide)) [0x61] true = .ok info :=
    ⟨_, rfl⟩
  exact ⟨info, hinfo, (divides_iff hinfo ([0, 1, 7].getD · 0) 1 0 []).mpr (by decide)⟩

/-- Drawing the second segment is a remainder by zero, and so is drawing from a file that could not be
read. -/
theorem not_divides_bss :
    (readElf (withBss [1, 2, 3] (by decide)) [0x61] true >>= fun info =>
        pushMutate ([1].getD · 0) 1 0 info [] >>= fun _ => .ok ()) = .error .divisionByZero
      ∧ (readElf (withBss [1, 2, 3] (by decide)) [] false >>= fun info =>
        pushMutate ([1].getD · 0) 1 0 info [] >>= fun _ => .ok ()) = .error .divisionByZero := by
  decide +kernel

end Vemu
