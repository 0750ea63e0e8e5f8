import Vemu.Files.Table
import Vemu.Refinement.Step

/-!
# File positions

`lseek` puts any number it is given into the position of a file, and `read` computes with the
position as it is.  A position is *inside* when it is at most the length of the file; from there
`read` copies a range of the buffer, unless its count makes the sum wrap.

Along a run of `open`, `lseek`, `read` and `close`, with anything else done in between, every
position stays inside and every call is well behaved exactly if every `lseek` lands inside and no
`read` has a count that wraps: **`positions_usable_iff`**.
-/

namespace Vemu

open Fallible Transition

namespace VEmu

/-! ## Calls -/

inductive FileCallKind
  | openFile | lseek | read | close
  deriving DecidableEq

/-- A call, and the emulator that makes it.  Its table of files is the one that the calls before
have left; everything else is up to the guest. -/
structure FileCall where
  kind : FileCallKind
  emu : VEmu

namespace FileCall

def handler (host : Host) : FileCallKind → Handler
  | .openFile => sysOpen host
  | .lseek => sysLseek
  | .read => sysRead
  | .close => sysClose

def enter (files : List FileHandle) (c : FileCall) : VEmu := { c.emu with fileTable := files }

/-- The table after a call. -/
def perform (host : Host) (files : List FileHandle) (c : FileCall) :
    Except Fault (List FileHandle) := do
  let (_, s) ← handler host c.kind (c.enter files)
  return s.fileTable

variable {host : Host} {files files' : List FileHandle} {fh : FileHandle} {c : FileCall}

/-- The position that an `lseek` asks for, as a number.  There is none for an unknown origin. -/
def seekTarget (fh : FileHandle) (offset whence : U64) : Option ℤ :=
  if whence = 0 then some offset.toInt
  else if whence = 1 then some (fh.idx.toNat + offset.toInt)
  else if whence = 2 then some (fh.len.toNat + offset.toInt)
  else none

/-- Neither the difference nor the sum that `read` computes leaves 64 bits, and what it copies is in
the buffer of the file. -/
structure ReadUsable (fh : FileHandle) (count : U64) : Prop where
  difference : fh.idx.toNat ≤ fh.len.toNat
  sum : fh.idx.toNat + count.toNat < 2 ^ 64
  inside : readCount fh count ≠ 0 →
    ∃ buffer, fh.data = some buffer ∧ fh.idx.toNat + (readCount fh count).toNat ≤ buffer.length

/-- A call returns an error and leaves the table of files alone. -/
def Rejects (host : Host) (files : List FileHandle) (c : FileCall) : Prop :=
  ∃ s, handler host c.kind (c.enter files) = .ok (.NormalExecutionReturn, s)
    ∧ s.loadReg regA0 = -1 ∧ s.fileTable = files

/-- A `read` is usable, and an `lseek` below zero is rejected. -/
def Usable (host : Host) (files : List FileHandle) (c : FileCall) : Prop :=
  ∀ fh, openedIn files (c.emu.loadReg regA0) = some fh →
    (c.kind = .read → ReadUsable fh (c.emu.loadReg regA2))
      ∧ (c.kind = .lseek →
          ∀ t, seekTarget fh (c.emu.loadReg regA1) (c.emu.loadReg regA2) = some t → t < 0 →
            Rejects host files c)

/-- An `lseek` lands inside the file, and the count of a `read` does not pass the highest
address. -/
def Inside (files : List FileHandle) (c : FileCall) : Prop :=
  ∀ fh, openedIn files (c.emu.loadReg regA0) = some fh →
    (c.kind = .read → fh.idx.toNat + (c.emu.loadReg regA2).toNat < 2 ^ 64)
      ∧ (c.kind = .lseek →
          ∀ t, seekTarget fh (c.emu.loadReg regA1) (c.emu.loadReg regA2) = some t →
            0 ≤ t ∧ t % 2 ^ 64 ≤ fh.len.toNat)

/-! ## The table along a run -/

/-- A file has a buffer with one byte more than its length, and a standard stream is empty. -/
def Buffered (fh : FileHandle) : Prop :=
  fh.len.toNat + 1 < 2 ^ 64
    ∧ ((∃ buffer, fh.data = some buffer ∧ buffer.length = fh.len.toNat + 1)
      ∨ fh.data = none ∧ fh.len = 0)

def AllBuffered (files : List FileHandle) : Prop := ∀ fh ∈ files, Buffered fh

/-- Every position is inside its file. -/
def AllInside (files : List FileHandle) : Prop := ∀ fh ∈ files, fh.idx.toNat ≤ fh.len.toNat

lemma openedIn_mem {fd : U64} (h : openedIn files fd = some fh) : fh ∈ files :=
  List.mem_of_find?_eq_some h

lemma moveTo_mem {fd : U64} {pos : FileHandle → U64} {x : FileHandle}
    (h : x ∈ moveTo fd pos files) :
    x ∈ files ∨ ∃ fh, openedIn files fd = some fh ∧ x = { fh with idx := pos fh } :=
  mem_updateFirst files h

lemma AllBuffered.moveTo (h : AllBuffered files) (fd : U64) (pos : FileHandle → U64) :
    AllBuffered (moveTo fd pos files) := by
  intro x hx
  rcases moveTo_mem hx with hmem | ⟨fh, hopen, rfl⟩
  · exact h x hmem
  · exact h fh (openedIn_mem hopen)

lemma AllInside.moveTo_iff (h : AllInside files) {fd : U64} {pos : FileHandle → U64}
    (hopen : openedIn files fd = some fh) :
    AllInside (moveTo fd pos files) ↔ (pos fh).toNat ≤ fh.len.toNat := by
  constructor
  · intro hall
    exact hall { fh with idx := pos fh } (openedIn_mem (openedIn_moveTo hopen))
  · intro hpos x hx
    rcases moveTo_mem hx with hmem | ⟨fh', hopen', rfl⟩
    · exact h x hmem
    · obtain rfl := Option.some.inj (hopen.symm.trans hopen')
      exact hpos

lemma readCount_zero_of_empty {count : U64} (hlen : fh.len = 0) (hidx : fh.idx.toNat ≤ fh.len.toNat) :
    readCount fh count = 0 := by
  have hzero : fh.idx = 0 := by
    apply BitVec.eq_of_toNat_eq
    rw [hlen] at hidx
    exact Nat.le_zero.mp hidx
  have hle : (0 : U64) ≤ 0 + count := by
    rw [BitVec.le_def]
    exact Nat.zero_le _
  rw [readCount, hlen, hzero, if_pos hle]
  rfl

/-- From a position inside, a count that does not wrap is clamped to what is left. -/
lemma toNat_readCount_le {count : U64} (hidx : fh.idx.toNat ≤ fh.len.toNat)
    (hsum : fh.idx.toNat + count.toNat < 2 ^ 64) :
    fh.idx.toNat + (readCount fh count).toNat ≤ fh.len.toNat := by
  rw [readCount]
  by_cases hle : fh.len ≤ fh.idx + count
  · rw [if_pos hle, BitVec.toNat_sub_of_le (by rwa [BitVec.le_def])]
    omega
  · rw [if_neg hle]
    rw [BitVec.le_def, BitVec.toNat_add, Nat.mod_eq_of_lt hsum] at hle
    omega

lemma readUsable_iff (hbuf : Buffered fh) (hidx : fh.idx.toNat ≤ fh.len.toNat) {count : U64} :
    ReadUsable fh count ↔ fh.idx.toNat + count.toNat < 2 ^ 64 := by
  constructor
  · exact ReadUsable.sum
  · intro hsum
    refine ⟨hidx, hsum, fun hne => ?_⟩
    have hle := toNat_readCount_le hidx hsum
    rcases hbuf.2 with ⟨buffer, hdata, hlength⟩ | ⟨-, hlen⟩
    · exact ⟨buffer, hdata, by omega⟩
    · exact absurd (readCount_zero_of_empty hlen hidx) hne

/-! ## One call -/

lemma seekIdx_eq_ok_iff {offset whence idx : U64} :
    seekIdx fh offset whence = .ok idx
      ↔ ∃ t, seekTarget fh offset whence = some t ∧ idx = BitVec.ofInt 64 t := by
  have hcur : BitVec.ofInt 64 (fh.idx.toNat + offset.toInt) = fh.idx + offset := by
    rw [BitVec.ofInt_add, BitVec.ofInt_natCast, BitVec.ofNat_toNat, BitVec.setWidth_eq,
      BitVec.ofInt_toInt]
  have hend : BitVec.ofInt 64 (fh.len.toNat + offset.toInt) = fh.len + offset := by
    rw [BitVec.ofInt_add, BitVec.ofInt_natCast, BitVec.ofNat_toNat, BitVec.setWidth_eq,
      BitVec.ofInt_toInt]
  unfold seekIdx seekTarget
  split_ifs
  · simp [eq_comm]
  · simp [hcur, eq_comm]
  · simp [hend, eq_comm]
  · simp

lemma toNat_ofInt_le_iff {t : ℤ} {n : ℕ} :
    (BitVec.ofInt 64 t).toNat ≤ n ↔ t % 2 ^ 64 ≤ n := by
  have hpos : 0 ≤ t % 2 ^ 64 := Int.emod_nonneg _ (by decide)
  rw [BitVec.toNat_ofInt]
  omega

lemma perform_eq_ok_iff :
    perform host files c = .ok files'
      ↔ ∃ e s, handler host c.kind (c.enter files) = .ok (e, s) ∧ s.fileTable = files' := by
  rw [perform, bind_eq_ok_iff]
  constructor
  · rintro ⟨⟨e, s⟩, hs, h⟩
    exact ⟨e, s, hs, Except.ok.inj h⟩
  · rintro ⟨e, s, hs, rfl⟩
    exact ⟨(e, s), hs, rfl⟩

/-- `open` puts a file at position zero behind the table. -/
lemma sysOpen_fileTable {s s' : VEmu} {e : ReturnException} (h : sysOpen host s = .ok (e, s')) :
    ∃ fh, Buffered fh ∧ fh.idx = 0 ∧ s'.fileTable = s.fileTable ++ [fh] := by
  rw [sysOpen, bind_eq_ok_iff] at h
  obtain ⟨p, -, h⟩ := h
  rw [bind_eq_ok_iff] at h
  obtain ⟨file, -, h⟩ := h
  rw [bind_eq_ok_iff] at h
  obtain ⟨_, -, h⟩ := h
  rw [bind_eq_ok_iff] at h
  obtain ⟨_, hsize, h⟩ := h
  rw [bind_eq_ok_iff] at h
  obtain ⟨_, -, h⟩ := h
  obtain ⟨-, rfl⟩ := Prod.mk.inj (Except.ok.inj h)
  have hne : file.size + 1 ≠ 0 := by simpa [check_eq_ok_iff] using hsize
  refine ⟨_, ⟨?_, Or.inl ⟨_, rfl, ?_⟩⟩, rfl, rfl⟩
  · change file.size.toNat + 1 < 2 ^ 64
    by_contra hwrap
    apply hne
    apply BitVec.eq_of_toNat_eq
    have hlt := file.size.isLt
    have hlast : file.size.toNat = 2 ^ 64 - 1 := by omega
    rw [BitVec.toNat_add, hlast]
    rfl
  · simp

lemma sysClose_fileTable {s s' : VEmu} {e : ReturnException} (h : sysClose s = .ok (e, s')) :
    ∀ fh ∈ s'.fileTable, fh ∈ s.fileTable := by
  unfold sysClose at h
  dsimp only at h
  split_ifs at h
  · obtain ⟨-, rfl⟩ := Prod.mk.inj (Except.ok.inj h)
    exact fun fh hmem => List.mem_of_mem_eraseP hmem
  · obtain ⟨-, rfl⟩ := Prod.mk.inj (Except.ok.inj h)
    exact fun fh hmem => hmem

/-- `lseek` sets the position of its descriptor to the target, cut to 64 bits. -/
lemma sysLseek_of_target {s : VEmu} {t : ℤ}
    (hopen : openedIn s.fileTable (s.loadReg regA0) = some fh)
    (ht : seekTarget fh (s.loadReg regA1) (s.loadReg regA2) = some t) :
    sysLseek s = normal (({ s with
      fileTable := moveTo (s.loadReg regA0) (fun _ => BitVec.ofInt 64 t) s.fileTable }).storeReg regA0
        (BitVec.ofInt 64 t)) := by
  rw [sysLseek_of_open hopen, seekIdx_eq_ok_iff.mpr ⟨t, ht, rfl⟩, ok_bind]

lemma sysLseek_fileTable {s s' : VEmu} {e : ReturnException}
    (hopen : openedIn s.fileTable (s.loadReg regA0) = some fh) (h : sysLseek s = .ok (e, s')) :
    ∃ t, seekTarget fh (s.loadReg regA1) (s.loadReg regA2) = some t
      ∧ s'.fileTable = moveTo (s.loadReg regA0) (fun _ => BitVec.ofInt 64 t) s.fileTable := by
  rw [sysLseek_of_open hopen, bind_eq_ok_iff] at h
  obtain ⟨idx, hidx, h⟩ := h
  obtain ⟨t, ht, rfl⟩ := seekIdx_eq_ok_iff.mp hidx
  obtain ⟨-, rfl⟩ := Prod.mk.inj (Except.ok.inj h)
  exact ⟨t, ht, rfl⟩

/-- A call keeps the buffers of the table. -/
lemma AllBuffered.perform (h : AllBuffered files) (hs : perform host files c = .ok files') :
    AllBuffered files' := by
  obtain ⟨e, s, hcall, rfl⟩ := perform_eq_ok_iff.mp hs
  obtain ⟨kind, emu⟩ := c
  cases kind with
  | openFile =>
      obtain ⟨fh, hbuf, -, hfiles⟩ := sysOpen_fileTable hcall
      rw [hfiles]
      intro x hx
      rcases List.mem_append.mp hx with hmem | hmem
      · exact h x hmem
      · rw [List.mem_singleton.mp hmem]
        exact hbuf
  | lseek =>
      cases hopen : openedIn files (emu.loadReg regA0) with
      | none =>
          obtain ⟨-, rfl⟩ := Prod.mk.inj (Except.ok.inj ((sysLseek_of_none hopen).symm.trans hcall))
          exact h
      | some fh =>
          obtain ⟨t, -, hfiles⟩ := sysLseek_fileTable hopen hcall
          rw [hfiles]
          exact h.moveTo _ _
  | read =>
      obtain ⟨fh, -, hfiles⟩ := sysRead_fileTable hcall
      rw [hfiles]
      exact h.moveTo _ _
  | close => exact fun fh hmem => h fh (sysClose_fileTable hcall fh hmem)

/-- A call of `read` is usable and leaves every position inside exactly if its count does not pass
the highest address. -/
lemma read_iff {emu : VEmu} (hbuf : AllBuffered files) (hin : AllInside files) :
    (Usable host files ⟨.read, emu⟩
        ∧ ∀ files', perform host files ⟨.read, emu⟩ = .ok files' → AllInside files')
      ↔ Inside files ⟨.read, emu⟩ := by
  constructor
  · rintro ⟨husable, -⟩ fh hopen
    exact ⟨fun _ => ((husable fh hopen).1 rfl).sum, fun h => by cases h⟩
  · intro hinside
    refine ⟨fun fh hopen => ⟨fun _ => ?_, fun h => by cases h⟩, fun files' hs => ?_⟩
    · have hmem := openedIn_mem hopen
      exact (readUsable_iff (hbuf fh hmem) (hin fh hmem)).mpr ((hinside fh hopen).1 rfl)
    · obtain ⟨e, s, hcall, rfl⟩ := perform_eq_ok_iff.mp hs
      obtain ⟨fh, hopen, hfiles⟩ := sysRead_fileTable hcall
      have hidx := hin fh (openedIn_mem hopen)
      have hle := toNat_readCount_le hidx ((hinside fh hopen).1 rfl)
      rw [hfiles]
      refine (hin.moveTo_iff hopen).mpr ?_
      rw [BitVec.toNat_add]
      exact le_trans (Nat.mod_le _ _) hle

/-- A call of `lseek` is usable and leaves every position inside exactly if it lands inside: a
position below zero is not rejected. -/
lemma lseek_iff {emu : VEmu} (hbuf : AllBuffered files) (hin : AllInside files) :
    (Usable host files ⟨.lseek, emu⟩
        ∧ ∀ files', perform host files ⟨.lseek, emu⟩ = .ok files' → AllInside files')
      ↔ Inside files ⟨.lseek, emu⟩ := by
  cases hopen : openedIn files (emu.loadReg regA0) with
  | none =>
      refine iff_of_true ⟨fun fh h => ?_, fun files' hs => ?_⟩ fun fh h => ?_
      · cases hopen.symm.trans h
      · obtain ⟨e, s, hcall, rfl⟩ := perform_eq_ok_iff.mp hs
        obtain ⟨-, rfl⟩ := Prod.mk.inj (Except.ok.inj ((sysLseek_of_none hopen).symm.trans hcall))
        exact hin
      · cases hopen.symm.trans h
  | some fh =>
      have hmem := openedIn_mem hopen
      constructor
      · rintro ⟨husable, hinside⟩ fh' hopen'
        obtain rfl := Option.some.inj (hopen.symm.trans hopen')
        refine ⟨fun h => (by cases h), fun _ t ht => ?_⟩
        have hseek := @sysLseek_of_target fh (enter files ⟨.lseek, emu⟩) t hopen ht
        refine ⟨?_, ?_⟩
        · by_contra hneg
          obtain ⟨s', hs', ha0, hsame⟩ := (husable fh hopen).2 rfl t ht (by omega)
          obtain ⟨-, rfl⟩ := Prod.mk.inj (Except.ok.inj (hseek.symm.trans hs'))
          rw [loadReg_storeReg_self _ (by decide)] at ha0
          have hpos := (hin.moveTo_iff hopen).mp (hsame.symm ▸ hin)
          rw [ha0] at hpos
          have hlast : (-1 : U64).toNat = 2 ^ 64 - 1 := rfl
          have hlen := (hbuf fh hmem).1
          omega
        · have hnext := hinside _ (perform_eq_ok_iff.mpr ⟨_, _, hseek, rfl⟩)
          exact toNat_ofInt_le_iff.mp ((hin.moveTo_iff hopen).mp hnext)
      · intro hinside
        refine ⟨fun fh' hopen' => ⟨fun h => (by cases h), fun _ t ht hneg => ?_⟩, fun files' hs => ?_⟩
        · have hpos := ((hinside fh' hopen').2 rfl t ht).1
          omega
        · obtain ⟨e, s, hcall, rfl⟩ := perform_eq_ok_iff.mp hs
          obtain ⟨t, ht, hfiles⟩ := sysLseek_fileTable hopen hcall
          rw [hfiles]
          exact (hin.moveTo_iff hopen).mpr
            (toNat_ofInt_le_iff.mpr ((hinside fh hopen).2 rfl t ht).2)

/-- `open` and `close` keep every position inside. -/
lemma other_iff {kind : FileCallKind} {emu : VEmu} (hread : kind ≠ .read) (hseek : kind ≠ .lseek)
    (hin : AllInside files) :
    (Usable host files ⟨kind, emu⟩
        ∧ ∀ files', perform host files ⟨kind, emu⟩ = .ok files' → AllInside files')
      ↔ Inside files ⟨kind, emu⟩ := by
  refine iff_of_true ⟨fun fh _ => ?_, fun files' hs => ?_⟩ fun fh _ => ?_
  · exact ⟨fun h => absurd h hread, fun h => absurd h hseek⟩
  · obtain ⟨e, s, hcall, rfl⟩ := perform_eq_ok_iff.mp hs
    cases kind with
    | openFile =>
        obtain ⟨fh, -, hidx, hfiles⟩ := sysOpen_fileTable hcall
        rw [hfiles]
        intro x hx
        rcases List.mem_append.mp hx with hmem | hmem
        · exact hin x hmem
        · rw [List.mem_singleton.mp hmem, hidx]
          exact Nat.zero_le _
    | close => exact fun fh hmem => hin fh (sysClose_fileTable hcall fh hmem)
    | lseek => exact absurd rfl hseek
    | read => exact absurd rfl hread
  · exact ⟨fun h => absurd h hread, fun h => absurd h hseek⟩

lemma call_iff (hbuf : AllBuffered files) (hin : AllInside files) :
    (Usable host files c ∧ ∀ files', perform host files c = .ok files' → AllInside files')
      ↔ Inside files c := by
  obtain ⟨kind, emu⟩ := c
  cases kind with
  | openFile => exact other_iff (by decide) (by decide) hin
  | lseek => exact lseek_iff hbuf hin
  | read => exact read_iff hbuf hin
  | close => exact other_iff (by decide) (by decide) hin

/-! ## Runs -/

lemma allBuffered_standard : AllBuffered standardFiles := by
  intro fh hmem
  have hlen : fh.len = 0 := by
    revert fh
    decide
  have hdata : fh.data = none := by
    revert fh
    decide
  exact ⟨by rw [hlen]; decide, Or.inr ⟨hdata, hlen⟩⟩

lemma allInside_standard : AllInside standardFiles := by
  intro fh hmem
  revert fh
  decide

/-- **File positions stay usable** along a run of calls from the table that every emulator starts
with, exactly if every `lseek` lands inside its file and no `read` has a count that makes the sum
wrap. -/
theorem positions_usable_iff (host : Host) (calls : List FileCall) :
    AllStates (perform host) AllInside standardFiles calls
        ∧ AllTries (perform host) (Usable host) standardFiles calls
      ↔ AllTries (perform host) Inside standardFiles calls :=
  allStates_and_allTries_iff (fun _ _ _ hbuf hs => AllBuffered.perform hbuf hs)
    (fun _ _ hbuf hin => call_iff hbuf hin) calls allBuffered_standard allInside_standard

/-! ### A position past the end -/

/-- A host that opens a file of five bytes under every name. -/
def fiveByteHost : Host :=
  { Host.bare .fuzz with openFile := fun _ _ _ => some ⟨3, 5, fun k => BitVec.ofNat 8 (k + 1)⟩ }

/-- A call from an emulator with one page of RAM. -/
def callWith (kind : FileCallKind) (a0 a1 a2 : U64) : FileCall where
  kind := kind
  emu := (((onePage 0 0).storeReg regA0 a0).storeReg regA1 a1).storeReg regA2 a2

/-- The file is opened and its position is set to ten. -/
def seekPastEnd : List FileCall := [callWith .openFile 0x100 0 0, callWith .lseek 3 10 0]

/-- A read of one byte then computes five minus ten, and asks for more than a vector can have. -/
theorem not_positions_usable :
    (seekPastEnd ++ [callWith .read 3 0x200 1]).foldlM (perform fiveByteHost) standardFiles
        = .error .lengthError
      ∧ ¬ ∀ host calls, AllTries (perform host) (Usable host) standardFiles calls := by
  refine ⟨by decide +kernel, fun h => ?_⟩
  have hview : (seekPastEnd.foldlM (perform fiveByteHost) standardFiles >>= fun files =>
      .ok ((openedIn files 3).map fun fh => (fh.len, fh.idx))) = .ok (some (5, 10)) := by
    decide +kernel
  obtain ⟨files, hfiles, hidx⟩ := bind_eq_ok_iff.mp hview
  obtain ⟨fh, hopen, hfh⟩ := Option.map_eq_some_iff.mp (Except.ok.inj hidx)
  obtain ⟨hlen, hpos⟩ := Prod.mk.inj hfh
  have husable := (h fiveByteHost (seekPastEnd ++ [callWith .read 3 0x200 1])).last hfiles
  have hle := ((husable fh hopen).1 rfl).difference
  rw [hlen, hpos] at hle
  revert hle
  decide

end FileCall

end VEmu

end Vemu
