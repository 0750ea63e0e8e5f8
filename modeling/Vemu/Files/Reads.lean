import Vemu.Files.Table
import Vemu.Refinement.Step

/-!
# Reading a file piece by piece

A guest reads a file by calling `read` until it returns zero.  `ReadsExactly` is what one call
should do: copy what the file still has, up to the count, to the buffer in RAM, move the position
past it and return its length.

`readsExactly_iff` says which calls do that.  The others are those whose end passes the highest
address, those that find nothing to copy (they leave the descriptor in `a0`), and those whose
buffer is not memory that can be written: they stop at an assertion of `write_from`, or write
nothing where the buffer passes the highest address.
Between two calls the guest does what it wants with everything but the table of files, and other
descriptors are read.  **`reads_stream_iff`** says that every call on a descriptor is exact along
such a run, and the pieces put together are a prefix of the file, exactly if every call on it is
one of the good ones.
-/

namespace Vemu

open Fallible Loop Transition

namespace MMU

variable {m : MMU}

@[simp] lemma written_nil (m : MMU) (addr : U64) : m.written addr [] = m := by
  simp [written]

/-- What was written is what is there. -/
lemma bytesAt_written (m : MMU) (addr : U64) (bytes : List U8) :
    (m.written addr bytes).bytesAt addr bytes.length = bytes := by
  refine List.ext_getElem (by simp) fun k hk hk' => ?_
  simp [bytesAt, written, overlay, hk']

end MMU

namespace VEmu

variable {s s' : VEmu} {files : List FileHandle} {fh : FileHandle} {contents : List U8}

/-! ## One call -/

/-- How many bytes a call should copy. -/
def readLength (fh : FileHandle) (count : U64) : ℕ :=
  min count.toNat (fh.len.toNat - fh.idx.toNat)

/-- The bytes that it should copy. -/
def piece (contents : List U8) (fh : FileHandle) (count : U64) : List U8 :=
  (contents.drop fh.idx.toNat).take (readLength fh count)

/-- The emulator after the piece was copied to the buffer, the position moved past it, and its
length returned. -/
def afterRead (s : VEmu) (bytes : List U8) : VEmu :=
  ({ s with
      fileTable := moveTo (s.loadReg regA0) (fun fh => fh.idx + BitVec.ofNat 64 bytes.length)
        s.fileTable }.withMmu (s.bus.mmu.written (s.loadReg regA1) bytes)).storeReg regA0
    (BitVec.ofNat 64 bytes.length)

/-- The buffer is memory that can be written. -/
structure BufferReady (s : VEmu) (n : ℕ) : Prop where
  backed : s.bus.mmu.Backed
  fits : s.bus.mmu.Fits (s.loadReg regA1) n
  writable : s.bus.mmu.Writable (s.loadReg regA1) n

/-- A call reads exactly the piece that it should: what there is of it goes to RAM, and nothing
stops the call. -/
structure ReadsExactly (s : VEmu) (fh : FileHandle) (contents : List U8) : Prop where
  inside : piece contents fh (s.loadReg regA2) ≠ [] →
    (s.loadReg regA1).toNat + (piece contents fh (s.loadReg regA2)).length
      ≤ s.bus.mmu.ramSize.toNat
  done : sysRead s = normal (s.afterRead (piece contents fh (s.loadReg regA2)))

/-- A call that goes well: its end does not pass the highest address and come out inside the file
again; if there is nothing to copy, the descriptor is zero; and if there is something, the buffer
is memory that can be written. -/
structure GoodRead (s : VEmu) (fh : FileHandle) : Prop where
  sum : 2 ^ 64 ≤ fh.idx.toNat + (s.loadReg regA2).toNat →
    fh.len.toNat ≤ fh.idx.toNat + (s.loadReg regA2).toNat - 2 ^ 64
  nothing : readLength fh (s.loadReg regA2) = 0 → s.loadReg regA0 = 0
  buffer : 0 < readLength fh (s.loadReg regA2) → s.BufferReady (readLength fh (s.loadReg regA2))

lemma length_piece (h : Holds fh contents) (hpos : fh.idx.toNat ≤ fh.len.toNat) (count : U64) :
    (piece contents fh count).length = readLength fh count := by
  rw [piece, List.length_take, List.length_drop, h.len, readLength]
  omega

/-- Where the sum does not come out inside the file again, the clamped count is the length. -/
lemma toNat_readCount (hpos : fh.idx.toNat ≤ fh.len.toNat) {count : U64}
    (hsum : 2 ^ 64 ≤ fh.idx.toNat + count.toNat →
      fh.len.toNat ≤ fh.idx.toNat + count.toNat - 2 ^ 64) :
    (readCount fh count).toNat = readLength fh count := by
  have hlen := fh.len.isLt
  have hcount := count.isLt
  rw [readCount, readLength]
  by_cases hle : fh.len ≤ fh.idx + count
  · rw [if_pos hle, BitVec.toNat_sub_of_le (by rwa [BitVec.le_def])]
    rw [BitVec.le_def, BitVec.toNat_add] at hle
    omega
  · rw [if_neg hle]
    rw [BitVec.le_def, BitVec.toNat_add] at hle
    omega

/-- Where it does, the count is not clamped, and the range goes past the file. -/
lemma readCount_of_inside {count : U64} (hwrap : 2 ^ 64 ≤ fh.idx.toNat + count.toNat)
    (hin : fh.idx.toNat + count.toNat - 2 ^ 64 < fh.len.toNat) : readCount fh count = count := by
  have hcount := count.isLt
  have hidx := fh.idx.isLt
  rw [readCount, if_neg]
  rw [BitVec.le_def, BitVec.toNat_add]
  omega

lemma storeReg_self (s : VEmu) (r : Reg) : s.storeReg r (s.loadReg r) = s := by
  have hregs : s.iregs.storeReg r (s.iregs.loadReg r) = s.iregs := by
    unfold RegFile.storeReg RegFile.loadReg
    split_ifs
    · rfl
    · simp only [Function.update_eq_self]
  rw [storeReg, loadReg, hregs]

/-- With nothing to copy only `a0` changes. -/
lemma afterRead_nil (s : VEmu) : s.afterRead [] = s.storeReg regA0 0 := by
  have hfiles : moveTo (s.loadReg regA0) (fun fh => fh.idx + BitVec.ofNat 64 0) s.fileTable
      = s.fileTable := by
    simpa [moveTo] using updateFirst_self s.fileTable
  rw [afterRead, List.length_nil, hfiles, MMU.written_nil]
  rfl

/-- A call whose end comes out inside the file again leaves the buffer of the file. -/
lemma sysRead_of_inside (hfile : Holds fh contents)
    (hopen : openedIn s.fileTable (s.loadReg regA0) = some fh)
    (hwrap : 2 ^ 64 ≤ fh.idx.toNat + (s.loadReg regA2).toNat)
    (hin : fh.idx.toNat + (s.loadReg regA2).toNat - 2 ^ 64 < fh.len.toNat) :
    ∃ e, sysRead s = .error e := by
  have hfits : contents.length ≤ 2 ^ 63 - 1 := hfile.fits
  have hlen := hfile.len
  have hidx := fh.idx.isLt
  obtain ⟨e, hslice, -⟩ := slice_of_past hfile
    (show contents.length + 1 < fh.idx.toNat + (s.loadReg regA2).toNat by omega)
  have hne : s.loadReg regA2 ≠ 0 := by
    intro hzero
    rw [hzero] at hwrap
    have hcast : ((0 : U64)).toNat = 0 := rfl
    omega
  refine ⟨e, ?_⟩
  rw [sysRead_of_open hopen, readCount_of_inside hwrap hin, if_neg hne, hslice, error_bind]

/-- A call that copies something, as a write of the piece. -/
lemma sysRead_of_piece (hfile : Holds fh contents) (hpos : fh.idx.toNat ≤ fh.len.toNat)
    (hopen : openedIn s.fileTable (s.loadReg regA0) = some fh)
    (hcount : (readCount fh (s.loadReg regA2)).toNat = readLength fh (s.loadReg regA2))
    (hsome : 0 < readLength fh (s.loadReg regA2)) :
    sysRead s = s.bus.mmu.writeFrom (piece contents fh (s.loadReg regA2)) (s.loadReg regA1)
      >>= fun mmu => normal (({ s.withMmu mmu with
        fileTable := moveTo (s.loadReg regA0)
          (fun fh' => fh'.idx + BitVec.ofNat 64 (piece contents fh (s.loadReg regA2)).length)
          s.fileTable }).storeReg regA0
            (BitVec.ofNat 64 (piece contents fh (s.loadReg regA2)).length)) := by
  have hne : readCount fh (s.loadReg regA2) ≠ 0 := by
    intro hzero
    rw [hzero] at hcount
    have hcast : ((0 : U64)).toNat = 0 := rfl
    omega
  have hlength : BitVec.ofNat 64 (piece contents fh (s.loadReg regA2)).length
      = readCount fh (s.loadReg regA2) := by
    rw [length_piece hfile hpos, ← hcount, BitVec.ofNat_toNat, BitVec.setWidth_eq]
  have hin : fh.idx.toNat + (readCount fh (s.loadReg regA2)).toNat ≤ contents.length := by
    rw [hcount, hfile.len, readLength]
    omega
  rw [sysRead_of_open hopen, if_neg hne, slice_of_holds hfile (hcount ▸ hsome) hin, ok_bind,
    hlength, hcount]
  rfl

/-- Copying to the buffer goes as it should exactly if the buffer can be written. -/
lemma copies_iff (hmade : s.bus.mmu.Made) {bytes : List U8} (hsome : 0 < bytes.length) :
    (s.loadReg regA1).toNat + bytes.length ≤ s.bus.mmu.ramSize.toNat
        ∧ (s.bus.mmu.writeFrom bytes (s.loadReg regA1) >>= fun mmu => normal (({ s.withMmu mmu with
            fileTable := moveTo (s.loadReg regA0) (fun fh => fh.idx + BitVec.ofNat 64 bytes.length)
              s.fileTable }).storeReg regA0 (BitVec.ofNat 64 bytes.length)))
          = normal (s.afterRead bytes)
      ↔ s.BufferReady bytes.length := by
  constructor
  · rintro ⟨hinside, hwrite⟩
    have hsize := s.bus.mmu.ramSize.isLt
    have hfit : s.bus.mmu.Fits (s.loadReg regA1) bytes.length := by
      by_contra hfit
      have hwraps : ¬ s.bus.mmu.Wraps (s.loadReg regA1) bytes.length := fun h => by
        have := h.1
        omega
      rw [MMU.writeFrom_of_not (by omega) hfit hwraps] at hwrite
      cases hwrite
    by_cases hm : s.bus.mmu.Backed
    · rw [MMU.writeFrom_of_fits hm hfit] at hwrite
      by_cases hwr : s.bus.mmu.Writable (s.loadReg regA1) bytes.length
      · exact ⟨hm, hfit, hwr⟩
      · rw [if_neg hwr] at hwrite
        cases hwrite
    · have hbare := (hmade.reserved.storage.resolve_left hm).2
      rw [MMU.writeFrom_bare hbare hsome hfit] at hwrite
      cases hwrite
  · intro h
    refine ⟨le_of_lt h.fits, ?_⟩
    rw [MMU.writeFrom_of_fits h.backed h.fits, if_pos h.writable]
    rfl

/-- **Which calls read exactly.** -/
theorem readsExactly_iff (hmade : s.bus.mmu.Made) (hfile : Holds fh contents)
    (hpos : fh.idx.toNat ≤ fh.len.toNat)
    (hopen : openedIn s.fileTable (s.loadReg regA0) = some fh) :
    s.ReadsExactly fh contents ↔ s.GoodRead fh := by
  have hlength := length_piece hfile hpos (s.loadReg regA2)
  by_cases hsum : 2 ^ 64 ≤ fh.idx.toNat + (s.loadReg regA2).toNat →
      fh.len.toNat ≤ fh.idx.toNat + (s.loadReg regA2).toNat - 2 ^ 64
  · have hcount := toNat_readCount hpos hsum
    rcases Nat.eq_zero_or_pos (readLength fh (s.loadReg regA2)) with hzero | hsome
    · have hnone : readCount fh (s.loadReg regA2) = 0 := BitVec.eq_of_toNat_eq (hcount.trans hzero)
      have hempty : piece contents fh (s.loadReg regA2) = [] :=
        List.eq_nil_of_length_eq_zero (hlength.trans hzero)
      have hread : sysRead s = normal s := by rw [sysRead_of_open hopen, if_pos hnone]
      constructor
      · intro h
        refine ⟨hsum, fun _ => ?_, fun hsome => by omega⟩
        have hdone := h.done
        rw [hread, hempty, afterRead_nil] at hdone
        have hstate : s = s.storeReg regA0 0 := (Prod.mk.inj (Except.ok.inj hdone)).2
        rw [hstate, loadReg_storeReg_self _ (by decide)]
      · intro h
        refine ⟨fun hne => absurd hempty hne, ?_⟩
        have ha0 := storeReg_self s regA0
        rw [h.nothing hzero] at ha0
        rw [hread, hempty, afterRead_nil, ha0]
    · have hne : piece contents fh (s.loadReg regA2) ≠ [] :=
        List.ne_nil_of_length_pos (hlength ▸ hsome)
      have hcopies := copies_iff hmade (hlength ▸ hsome)
      rw [← sysRead_of_piece hfile hpos hopen hcount hsome, hlength] at hcopies
      constructor
      · intro h
        exact ⟨hsum, fun hzero => by omega, fun _ => hcopies.mp ⟨hlength ▸ h.inside hne, h.done⟩⟩
      · intro h
        obtain ⟨hfit, hdone⟩ := hcopies.mpr (h.buffer hsome)
        exact ⟨fun _ => hlength.symm ▸ hfit, hdone⟩
  · obtain ⟨hwrap, hin⟩ := Classical.not_imp.mp hsum
    obtain ⟨e, hread⟩ := sysRead_of_inside hfile hopen hwrap (by omega)
    refine iff_of_false (fun h => ?_) fun h => hsum h.sum
    have hdone := h.done
    rw [hread] at hdone
    cases hdone

/-! ## Runs of calls -/

/-- An emulator about to make a call.  Its table of files is the one that the calls before have
left; everything else is up to the guest. -/
structure ReadCall where
  emu : VEmu
  made : emu.bus.mmu.Made

/-- The table of files, and for every call so far its descriptor and the bytes that the guest found
in its buffer. -/
structure Session where
  files : List FileHandle
  log : List (U64 × List U8)

namespace Session

variable {r r' : Session} {fd : U64} {start : ℕ}

def enter (r : Session) (g : ReadCall) : VEmu := { g.emu with fileTable := r.files }

/-- A call of `read`.  The guest looks at as many bytes as `a0` says. -/
def read (r : Session) (g : ReadCall) : Except Fault Session := do
  let (_, s) ← sysRead (r.enter g)
  let found := s.bus.mmu.bytesAt (g.emu.loadReg regA1) (s.loadReg regA0).toNat
  return ⟨s.fileTable, r.log ++ [(g.emu.loadReg regA0, found)]⟩

/-- The pieces of a descriptor, put together. -/
def copied (r : Session) (fd : U64) : List U8 :=
  (r.log.filter fun e => e.1 = fd).flatMap Prod.snd

/-- A call on the descriptor reads exactly what it should. -/
def ExactOn (fd : U64) (contents : List U8) (r : Session) (g : ReadCall) : Prop :=
  g.emu.loadReg regA0 = fd → ∀ fh, openedIn r.files fd = some fh →
    (r.enter g).ReadsExactly fh contents

/-- A call on the descriptor goes well. -/
def GoodOn (fd : U64) (r : Session) (g : ReadCall) : Prop :=
  g.emu.loadReg regA0 = fd → ∀ fh, openedIn r.files fd = some fh → (r.enter g).GoodRead fh

/-- The descriptor is open at a position inside its file, and what was copied comes before that
position. -/
structure Follows (fd : U64) (contents : List U8) (start : ℕ) (r : Session) (fh : FileHandle) :
    Prop where
  opened : openedIn r.files fd = some fh
  holds : Holds fh contents
  inside : fh.idx.toNat ≤ fh.len.toNat
  rest : r.copied fd ++ contents.drop fh.idx.toNat = contents.drop start

lemma copied_append (r : Session) (files : List FileHandle) (e : U64 × List U8) :
    (⟨files, r.log ++ [e]⟩ : Session).copied fd
      = r.copied fd ++ if e.1 = fd then e.2 else [] := by
  rw [copied, copied, List.filter_append, List.flatMap_append]
  by_cases he : e.1 = fd
  · simp [he]
  · simp [he]

lemma Follows.exact_iff (h : Follows fd contents start r fh) (g : ReadCall) :
    ExactOn fd contents r g ↔ GoodOn fd r g := by
  refine forall_congr' fun hfd => forall_congr' fun fh' => forall_congr' fun hopen => ?_
  obtain rfl := Option.some.inj (h.opened.symm.trans hopen)
  refine readsExactly_iff g.made h.holds h.inside ?_
  rw [← hfd] at hopen
  exact hopen

/-- A call on another descriptor leaves this one alone. -/
lemma Follows.of_other {g : ReadCall} (h : Follows fd contents start r fh)
    (hne : g.emu.loadReg regA0 ≠ fd) (hread : r.read g = .ok r') :
    Follows fd contents start r' fh := by
  obtain ⟨⟨e, s'⟩, hs, hread⟩ := bind_eq_ok_iff.mp hread
  obtain rfl := Except.ok.inj hread
  obtain ⟨_, -, hfiles⟩ := sysRead_fileTable hs
  refine ⟨?_, h.holds, h.inside, ?_⟩
  · dsimp only
    rw [hfiles]
    exact (openedIn_moveTo_of_ne hne _).trans h.opened
  · rw [copied_append, if_neg hne, List.append_nil]
    exact h.rest

/-- A piece and what comes after it. -/
lemma piece_append (contents : List U8) (fh : FileHandle) (count : U64) :
    piece contents fh count ++ contents.drop (fh.idx.toNat + readLength fh count)
      = contents.drop fh.idx.toNat := by
  rw [piece, ← List.drop_drop, List.take_append_drop]

/-- An exact call on it puts the next piece behind the ones before. -/
lemma Follows.of_exact {g : ReadCall} (h : Follows fd contents start r fh)
    (hfd : g.emu.loadReg regA0 = fd) (hexact : (r.enter g).ReadsExactly fh contents)
    (hread : r.read g = .ok r') : ∃ fh', Follows fd contents start r' fh' := by
  obtain ⟨⟨e, s'⟩, hs, hread⟩ := bind_eq_ok_iff.mp hread
  obtain rfl := Except.ok.inj hread
  obtain ⟨-, rfl⟩ := Prod.mk.inj (Except.ok.inj (hs.symm.trans hexact.done))
  set count := (r.enter g).loadReg regA2 with hcount
  have hlength : (piece contents fh count).length = readLength fh count :=
    length_piece h.holds h.inside count
  have hle : readLength fh count ≤ fh.len.toNat - fh.idx.toNat := min_le_right _ _
  have hlen := fh.len.isLt
  have hinside := h.inside
  have hidx : (fh.idx + BitVec.ofNat 64 (piece contents fh count).length).toNat
      = fh.idx.toNat + readLength fh count := by
    rw [hlength]
    exact toNat_add_ofNat_of_le (by omega)
  have hfound : ((r.enter g).afterRead (piece contents fh count)).bus.mmu.bytesAt
      (g.emu.loadReg regA1)
      (((r.enter g).afterRead (piece contents fh count)).loadReg regA0).toNat
      = piece contents fh count := by
    rw [afterRead, loadReg_storeReg_self _ (by decide), BitVec.toNat_ofNat,
      Nat.mod_eq_of_lt (by omega)]
    exact MMU.bytesAt_written _ _ _
  refine ⟨{ fh with idx := fh.idx + BitVec.ofNat 64 (piece contents fh count).length },
    ?_, h.holds.move _, ?_, ?_⟩
  · subst hfd
    exact openedIn_moveTo h.opened
  · dsimp only
    rw [hidx]
    omega
  · rw [copied_append, if_pos hfd]
    dsimp only
    rw [hfound, hidx, List.append_assoc, piece_append]
    exact h.rest

lemma Follows.step {g : ReadCall} (h : ∃ fh, Follows fd contents start r fh) (hgood : GoodOn fd r g)
    (hread : r.read g = .ok r') : ∃ fh, Follows fd contents start r' fh := by
  obtain ⟨fh, h⟩ := h
  by_cases hfd : g.emu.loadReg regA0 = fd
  · exact h.of_exact hfd ((h.exact_iff g).mpr hgood hfd fh h.opened) hread
  · exact ⟨fh, h.of_other hfd hread⟩

lemma Follows.copied_isPrefix (h : ∃ fh, Follows fd contents start r fh) :
    r.copied fd <+: contents.drop start := by
  obtain ⟨fh, h⟩ := h
  exact ⟨_, h.rest⟩

/-- **Reads stream the file.**  Along a run of calls, on any descriptors and with anything done in
between, every call on the descriptor is exact and the pieces are a prefix of the file from its
position on, exactly if every call on it goes well. -/
theorem reads_stream_iff (hopen : openedIn files fd = some fh) (hfile : Holds fh contents)
    (hpos : fh.idx.toNat ≤ fh.len.toNat) (calls : List ReadCall) :
    (AllTries read (ExactOn fd contents) ⟨files, []⟩ calls
        ∧ AllStates read (fun r => r.copied fd <+: contents.drop fh.idx.toNat) ⟨files, []⟩ calls)
      ↔ AllTries read (GoodOn fd) ⟨files, []⟩ calls := by
  have hstart : ∃ fh', Follows fd contents fh.idx.toNat ⟨files, []⟩ fh' :=
    ⟨fh, hopen, hfile, hpos, rfl⟩
  have hiff := allTries_iff (fun r g (h : ∃ fh', Follows fd contents fh.idx.toNat r fh') =>
      h.choose_spec.exact_iff g) (fun r g r' h hgood hread => Follows.step h hgood hread) calls
    hstart
  rw [hiff, and_iff_left_of_imp]
  intro hgood
  exact allStates_of_allSteps (fun r g r' h hgood hread => Follows.step h hgood hread)
    (fun r => Follows.copied_isPrefix) calls hstart hgood.allSteps

/-! ### A file of five bytes -/

/-- The file, open as descriptor 3 at a position. -/
def fiveBytes (idx : U64) : FileHandle :=
  ⟨some [1, 2, 3, 4, 5, 0], some [], 3, 5, idx, .DiskFile⟩

lemma holds_fiveBytes (idx : U64) : Holds (fiveBytes idx) [1, 2, 3, 4, 5] :=
  ⟨Or.inl ⟨0, rfl⟩, rfl, by decide⟩

/-- A guest that reads `count` bytes of descriptor 3 to an address in a page of RAM. -/
def reader (buf count : U64) : ReadCall where
  emu := (((onePage 0 0).withMmu (.uniform 4096 permWrite)).storeReg regA0 3).storeReg regA1 buf
    |>.storeReg regA2 count
  made := .new (show MMU.new 4096 (fun _ => 0) (fun _ => permWrite) = _ from rfl)

/-- Three bytes, and then what is left of ten. -/
theorem reads_stream_fiveBytes :
    AllTries read (ExactOn 3 [1, 2, 3, 4, 5]) ⟨[fiveBytes 0], []⟩ [reader 0x100 3, reader 0x200 10]
      ∧ AllStates read (fun r => r.copied 3 <+: [1, 2, 3, 4, 5]) ⟨[fiveBytes 0], []⟩
        [reader 0x100 3, reader 0x200 10] := by
  refine (reads_stream_iff rfl (holds_fiveBytes 0) (by decide) _).mpr ⟨?_, fun r' hr' => ⟨?_, ?_⟩⟩
  · intro _ fh hopen
    obtain rfl : fiveBytes 0 = fh := Option.some.inj hopen
    exact ⟨by decide, by decide,
      fun _ => ⟨MMU.backed_uniform (by decide) _, by decide, by decide⟩⟩
  · intro _ fh hopen
    have hview : (read ⟨[fiveBytes 0], []⟩ (reader 0x100 3) >>= fun r => .ok r.files)
        = .ok [fiveBytes 3] := by decide +kernel
    rw [hr', ok_bind, Except.ok.injEq] at hview
    rw [hview] at hopen
    obtain rfl : fiveBytes 3 = fh := Option.some.inj hopen
    have hgood : (reader 0x200 10).emu.GoodRead (fiveBytes 3) :=
      ⟨by decide, by decide, fun _ => ⟨MMU.backed_uniform (by decide) _, by decide, by decide⟩⟩
    have hbuffer := hgood.buffer (by decide)
    exact ⟨hgood.sum, hgood.nothing, fun _ => ⟨hbuffer.backed, hbuffer.fits, hbuffer.writable⟩⟩
  · exact fun _ _ => trivial

/-- At the end of the file `a0` keeps the descriptor, where it should become zero. -/
theorem not_reads_at_end :
    (sysRead (enter ⟨[fiveBytes 5], []⟩ (reader 0x100 10)) >>= fun r => .ok (r.2.loadReg regA0))
        = .ok 3
      ∧ ¬ AllTries read (ExactOn 3 [1, 2, 3, 4, 5]) ⟨[fiveBytes 5], []⟩ [reader 0x100 10] := by
  have hview : (sysRead (enter ⟨[fiveBytes 5], []⟩ (reader 0x100 10)) >>= fun r =>
      .ok (r.2.loadReg regA0)) = .ok 3 := by decide +kernel
  refine ⟨hview, fun h => ?_⟩
  have hexact : (enter ⟨[fiveBytes 5], []⟩ (reader 0x100 10)).ReadsExactly (fiveBytes 5)
      [1, 2, 3, 4, 5] := h.1 rfl (fiveBytes 5) rfl
  have hdone : sysRead (enter ⟨[fiveBytes 5], []⟩ (reader 0x100 10))
      = normal ((enter ⟨[fiveBytes 5], []⟩ (reader 0x100 10)).afterRead []) := hexact.done
  rw [hdone, afterRead_nil, normal, ok_bind, loadReg_storeReg_self _ (by decide)] at hview
  cases hview

end Session

end VEmu

end Vemu
