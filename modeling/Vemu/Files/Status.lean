import Vemu.Files.Positions
import Vemu.Files.Reads
import Vemu.MMU.Words

/-!
# The status of a file

`fstat` stores a structure of 128 bytes.  The size in it should be the length of the file that the
descriptor belongs to; the source takes the length of the last entry of the table, and a size of
zero for descriptor one.

Along a run of calls from the table that every emulator starts with, `fstat` describes the file it
is asked about exactly where the last entry is as long as that file, and there is room for the
structure: **`fstat_describes_iff`**.
-/

namespace Vemu

open Fallible Loop Transition

namespace MMU

variable {m : MMU}

/-- The bytes of a double word, put together again. -/
lemma assemble_split (x : U64) : assemble (split 8 x) = x := by
  have hdigits : split 8 x = ByteMemory.bytes (ByteMemory.digit x.toNat) 0 8 := by
    refine List.ext_getElem (by simp [ByteMemory.bytes]) fun k hk hk' => ?_
    rw [getElem_split x hk, ← digit_toNat]
    simp [ByteMemory.bytes]
  apply BitVec.eq_of_toNat_eq
  rw [toNat_assemble (by simp), hdigits]
  exact (ByteMemory.load_digit x.toNat 8).trans (Nat.mod_eq_of_lt x.isLt)

end MMU

namespace VEmu

variable {host : Host} {s s' : VEmu} {files files' : List FileHandle} {fh : FileHandle}

/-! ## The structure -/

/-- The double word at an offset of a structure. -/
def field (bytes : List U8) (offset : ℕ) : U64 := MMU.assemble ((bytes.drop offset).take 8)

section Fields

variable {before after : List U8} {offset : ℕ}

lemma field_skip (h : before.length ≤ offset) :
    field (before ++ after) offset = field after (offset - before.length) := by
  rw [field, List.drop_append, List.drop_eq_nil_of_le h, List.nil_append]
  rfl

lemma field_split (x : U64) : field (MMU.split 8 x ++ after) 0 = x := by
  rw [field, List.drop_zero, List.take_left' (MMU.length_split 8 x), MMU.assemble_split]

end Fields

/-- `st_size` and `st_blocks`. -/
lemma fields_statBytes (fd len : U64) (junk : ℕ → U8) :
    field (statBytes fd len junk) 48 = (if fd = 1 then 0 else len)
      ∧ field (statBytes fd len junk) 64 = if fd = 1 then 0 else len / 0x1000 := by
  unfold statBytes
  simp only [List.append_assoc]
  constructor
  · iterate 8 rw [field_skip (by simp)]
    simp [field_split]
  · iterate 11 rw [field_skip (by simp)]
    simp [field_split]

/-- The two of them in memory, once the structure was written. -/
lemma fields_written (m : MMU) (a fd len : U64) (junk : ℕ → U8) :
    field ((m.written a (statBytes fd len junk)).bytesAt a 128) 48 = (if fd = 1 then 0 else len)
      ∧ field ((m.written a (statBytes fd len junk)).bytesAt a 128) 64
        = if fd = 1 then 0 else len / 0x1000 := by
  have hbytes := MMU.bytesAt_written m a (statBytes fd len junk)
  rw [length_statBytes] at hbytes
  rw [hbytes]
  exact fields_statBytes fd len junk

/-! ## One call -/

/-- The structure at the buffer has the length of the file for its size, and its number of blocks. -/
structure StatOf (s' : VEmu) (statbuf : U64) (fh : FileHandle) : Prop where
  inside : statbuf.toNat + 128 ≤ s'.bus.mmu.ramSize.toNat
  size : field (s'.bus.mmu.bytesAt statbuf 128) 48 = fh.len
  blocks : field (s'.bus.mmu.bytesAt statbuf 128) 64 = fh.len / 0x1000

/-- Bytes outside of the buffer are as they were. -/
def Outside (s s' : VEmu) (statbuf : U64) : Prop :=
  ∀ k, ¬ (statbuf.toNat ≤ k ∧ k < statbuf.toNat + 128) →
    s'.bus.mmu.ram.data k = s.bus.mmu.ram.data k
      ∧ s'.bus.mmu.bytePermission.data k = s.bus.mmu.bytePermission.data k

/-- **What is asked of `fstat`** of a file. -/
def Describes (host : Host) (s : VEmu) (fh : FileHandle) : Prop :=
  ∃ s', sysFstat host s = .ok (.NormalExecutionReturn, s') ∧ StatOf s' (s.loadReg regA1) fh
    ∧ Outside s s' (s.loadReg regA1)

/-- There is room for the structure, and the length that goes into it is the one of the file. -/
structure DescribesRight (s : VEmu) (fh : FileHandle) : Prop where
  fits : s.bus.mmu.Fits (s.loadReg regA1) 128
  writable : s.bus.mmu.Writable (s.loadReg regA1) 128
  stdout : s.loadReg regA0 = 1 → fh.len = 0
  last : s.loadReg regA0 ≠ 1 → ∀ last, s.fileTable.getLast? = some last → last.len = fh.len

/-- The entry that `fstat` looks for is in the table, which therefore has a last one. -/
lemma sysFstat_of_open (hopen : openedIn s.fileTable (s.loadReg regA0) = some fh) :
    ∃ last, s.fileTable.getLast? = some last
      ∧ sysFstat host s = (s.bus.mmu.writeFrom
          (statBytes (s.loadReg regA0) last.len (host.uninitialised s.hostCalls)) (s.loadReg regA1)
        >>= fun mmu => normal
          (({ s.withMmu mmu with hostCalls := s.hostCalls + 1 } : VEmu).storeReg regA0 0)) := by
  have hmem := FileCall.openedIn_mem hopen
  have hhas : hasFd (s.loadReg regA0) fh = true := List.find?_some hopen
  have hany : (s.fileTable.any fun fh => decide (fh.fd = (s.loadReg regA0).setWidth 32)) = true :=
    List.any_eq_true.mpr ⟨fh, hmem, decide_eq_true (fd_of_hasFd hhas)⟩
  obtain ⟨last, hlast⟩ := Option.isSome_iff_exists.mp
    (List.getLast?_isSome.mpr (List.ne_nil_of_mem hmem))
  refine ⟨last, hlast, ?_⟩
  rw [sysFstat]
  simp only [hany, check_true, ok_bind, hlast, orFault_some]

/-- The size that goes into the structure is the length of the file. -/
lemma DescribesRight.size (h : DescribesRight s fh) {last : FileHandle}
    (hlast : s.fileTable.getLast? = some last) :
    (if s.loadReg regA0 = 1 then 0 else last.len) = fh.len := by
  split_ifs with hfd
  · exact (h.stdout hfd).symm
  · exact h.last hfd last hlast

/-- **`fstat` describes a file** exactly where there is room, and the last entry of the table is as
long as the file. -/
lemma describes_iff (hm : s.bus.mmu.Backed)
    (hopen : openedIn s.fileTable (s.loadReg regA0) = some fh) :
    Describes host s fh ↔ DescribesRight s fh := by
  obtain ⟨last, hlast, hstat⟩ := @sysFstat_of_open host s fh hopen
  have hlen := length_statBytes (s.loadReg regA0) last.len (host.uninitialised s.hostCalls)
  obtain ⟨hsize, hblocks⟩ := fields_written s.bus.mmu (s.loadReg regA1) (s.loadReg regA0) last.len
    (host.uninitialised s.hostCalls)
  constructor
  · rintro ⟨s', hs', hst, -⟩
    rw [hstat, bind_eq_ok_iff] at hs'
    obtain ⟨mmu, hwrite, hs'⟩ := hs'
    obtain ⟨-, rfl⟩ := Prod.mk.inj (Except.ok.inj hs')
    rcases MMU.writeFrom_cases hm (by rw [hlen]; decide) hwrite with ⟨hfit, hwr, rfl⟩ | ⟨hwraps, rfl⟩
    · rw [hlen] at hfit hwr
      have hlength := hsize.symm.trans hst.size
      refine ⟨hfit, hwr, fun hfd => ?_, fun hfd last' hlast' => ?_⟩
      · rw [if_pos hfd] at hlength
        exact hlength.symm
      · obtain rfl := Option.some.inj (hlast.symm.trans hlast')
        rwa [if_neg hfd] at hlength
    · -- a buffer that wraps is not in RAM
      have hin : (s.loadReg regA1).toNat + 128 ≤ s.bus.mmu.ramSize.toNat := hst.inside
      have hram := s.bus.mmu.ramSize.isLt
      have hpast := hwraps.1
      rw [hlen] at hpast
      omega
  · intro h
    have hlength := h.size hlast
    rw [MMU.writeFrom_of_fits hm (by rw [hlen]; exact h.fits),
      if_pos (by rw [hlen]; exact h.writable), ok_bind] at hstat
    refine ⟨_, hstat, ⟨le_of_lt h.fits, ?_, ?_⟩, fun k hk => ?_⟩
    · exact hsize.trans hlength
    · refine hblocks.trans ?_
      rw [← hlength]
      split_ifs <;> rfl
    · rw [← hlen] at hk
      exact ⟨overlay_of_not_mem hk, mapOn_of_not_mem hk⟩

/-! ## Runs -/

/-- A call of a run: one that works on the table, or `fstat`, from an emulator whose memory has
storage. -/
inductive TableCall
  | on (c : FileCall)
  | fstat (emu : VEmu) (backed : emu.bus.mmu.Backed)

namespace TableCall

/-- The table after a call.  `fstat` leaves it alone. -/
def perform (host : Host) (files : List FileHandle) : TableCall → Except Fault (List FileHandle)
  | .on c => FileCall.perform host files c
  | .fstat emu _ => do
      let (_, s) ← sysFstat host { emu with fileTable := files }
      return s.fileTable

/-- An `fstat` of a file on disk. -/
def OfFile (P : VEmu → FileHandle → Prop) (files : List FileHandle) : TableCall → Prop
  | .on _ => True
  | .fstat emu _ => ∀ fh, openedIn files (emu.loadReg regA0) = some fh → fh.type = .DiskFile →
      P { emu with fileTable := files } fh

/-- **`fstat` describes the files it is asked about**, along a run of calls from the table that every
emulator starts with, exactly if each of them has room for the structure and asks about a file that
is as long as the last one of the table. -/
theorem fstat_describes_iff (host : Host) (calls : List TableCall) :
    AllTries (perform host) (OfFile (Describes host)) standardFiles calls
      ↔ AllTries (perform host) (OfFile DescribesRight) standardFiles calls := by
  refine @allTries_iff _ _ _ _ (fun _ => True) _ _ (fun files c _ => ?_) (fun _ _ _ _ _ _ => trivial)
    standardFiles calls trivial
  cases c with
  | on c => exact Iff.rfl
  | fstat emu hbacked =>
      exact forall₃_congr fun fh hopen _ =>
        @describes_iff host { emu with fileTable := files } fh hbacked hopen

/-! ### Two files -/

/-- A host that opens the first file with descriptor three and a byte, the second with four and two
bytes. -/
def twoFileHost : Host :=
  { Host.bare .fuzz with
    openFile := fun n _ _ => some ⟨BitVec.ofNat 32 (n + 3), BitVec.ofNat 64 (n + 1), fun _ => 0⟩ }

/-- An emulator that has asked its host so many questions, with arguments for a call. -/
def asking (hostCalls : ℕ) (a0 a1 : U64) : VEmu :=
  { ((onePage 0 0).storeReg regA0 a0).storeReg regA1 a1 with hostCalls := hostCalls }

/-- Both files are opened. -/
def openTwo : List TableCall := [.on ⟨.openFile, asking 0 0x100 0⟩, .on ⟨.openFile, asking 1 0x100 0⟩]

/-- `fstat` of the file with descriptor three. -/
def fstatThree : TableCall := .fstat (asking 2 3 0x200) (intact_onePage 0 0).memory

/-- The first file is described with the length of the second one. -/
theorem not_fstat_describes :
    (openTwo.foldlM (perform twoFileHost) standardFiles >>= fun files =>
        .ok ((openedIn files 3).map (·.len), files.getLast?.map (·.len))) = .ok (some 1, some 2)
      ∧ ¬ ∀ host calls, AllTries (perform host) (OfFile (Describes host)) standardFiles calls := by
  have hview : (openTwo.foldlM (perform twoFileHost) standardFiles >>= fun files =>
      .ok ((openedIn files 3).map (·.len), files.getLast?.map (·.len))) = .ok (some 1, some 2) := by
    decide +kernel
  have htype : (openTwo.foldlM (perform twoFileHost) standardFiles >>= fun files =>
      .ok ((openedIn files 3).map (·.type))) = .ok (some .DiskFile) := by
    decide +kernel
  refine ⟨hview, fun h => ?_⟩
  obtain ⟨files, hfiles, hlens⟩ := bind_eq_ok_iff.mp hview
  rw [hfiles, ok_bind] at htype
  obtain ⟨hown, hlast⟩ := Prod.mk.inj (Except.ok.inj hlens)
  obtain ⟨fh, hopen, hlen⟩ := Option.map_eq_some_iff.mp hown
  obtain ⟨last, hget, hlastlen⟩ := Option.map_eq_some_iff.mp hlast
  have hdisk : fh.type = .DiskFile := by
    rw [hopen] at htype
    exact Option.some.inj (Except.ok.inj htype)
  have hfd : (asking 2 3 0x200).loadReg regA0 = 3 := by decide
  have hopen' : openedIn files ((asking 2 3 0x200).loadReg regA0) = some fh := by rw [hfd, hopen]
  have hasked : OfFile (Describes twoFileHost) files fstatThree :=
    (h twoFileHost (openTwo ++ [fstatThree])).last hfiles
  have hright := (@describes_iff twoFileHost { asking 2 3 0x200 with fileTable := files } fh
    (intact_onePage 0 0).memory hopen').mp (hasked fh hopen' hdisk)
  have hne : (asking 2 3 0x200).loadReg regA0 ≠ 1 := by decide
  have hsame := hright.last hne last hget
  rw [hlastlen, hlen] at hsame
  exact absurd hsame (by decide)

end TableCall

end VEmu

end Vemu
