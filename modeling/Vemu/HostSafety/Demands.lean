import Vemu.HostSafety.Memory

/-!
# What a handler needs to come to an end

In the fuzzing build a handler ends the process when a range check or a permission check of the
memory unit fails, when `MRET` finds a mode it does not know, or when a system call is not
prepared for its arguments.  `demand` says of every mnemonic what it needs of the state it is
called in, and **`handler_completes_iff`** that the handler comes to an end exactly if that is
met.
-/

namespace Vemu

open Fallible Loop

namespace VEmu

variable {host : Host} {s : VEmu}

/-- The handler comes to an end, with whatever it reports. -/
def Completes (h : Handler) (s : VEmu) : Prop := ∃ r, h s = .ok r

/-! ## Demands -/

inductive Demand
  | nothing
  /-- A load or a store of so many bytes, at `rs1` and the immediate. -/
  | load (n : ℕ)
  | store (n : ℕ)
  /-- An atomic access of so many bytes, at `rs1` alone. -/
  | loadReserved (n : ℕ)
  | storeConditional (n : ℕ)
  | amo (n : ℕ)
  | trapReturn
  | syscall
  deriving DecidableEq, Repr

def demand : IName → Demand
  | .LB | .LBU => .load 1
  | .LH | .LHU => .load 2
  | .LW | .LWU => .load 4
  | .LD => .load 8
  | .SB => .store 1
  | .SH => .store 2
  | .SW => .store 4
  | .SD => .store 8
  | .LRW => .loadReserved 4
  | .LRD => .loadReserved 8
  | .SCW => .storeConditional 4
  | .SCD => .storeConditional 8
  | .AMOSWAPW | .AMOADDW | .AMOXORW | .AMOANDW | .AMOORW | .AMOMINW | .AMOMAXW | .AMOMINUW
  | .AMOMAXUW => .amo 4
  | .AMOSWAPD | .AMOADDD | .AMOXORD | .AMOANDD | .AMOORD | .AMOMIND | .AMOMAXD | .AMOMINUD
  | .AMOMAXUD => .amo 8
  | .MRET => .trapReturn
  | .ECALL => .syscall
  | _ => .nothing

/-! ### System calls -/

def supportedSyscalls : List U64 :=
  [ syscallNrBrk, syscallNrWrite, syscallNrOpen, syscallNrClose, syscallNrExit, syscallNrFstat,
    syscallNrLseek, syscallNrRead ]

/-- `brk` moves the break down, or up inside RAM. -/
def BrkMet (s : VEmu) : Prop :=
  s.brkIncrement.slt 0 = false →
    s.bus.mmu.Fits s.bus.mmu.allocPtr s.brkIncrement.toNat

/-- `open` gets a string, and the host opens the file of that name and has memory for it. -/
def OpenMet (host : Host) (s : VEmu) : Prop :=
  ∃ k, s.bus.mmu.StringAt (s.loadReg regA0) k
    ∧ ∃ file, host.openFile s.hostCalls (s.bus.mmu.chars (s.loadReg regA0) k)
        ((s.loadReg regA1).setWidth 32) = some file
      ∧ host.malloc (file.size + 1) = true ∧ file.size + 1 ≠ 0
      ∧ host.malloc (BitVec.ofNat 64 (k + 1) + 1) = true

/-- `fstat` gets a known descriptor, and room for the structure. -/
def FstatMet (s : VEmu) : Prop :=
  (∃ fh ∈ s.fileTable, fh.fd = (s.loadReg regA0).setWidth 32)
    ∧ s.bus.mmu.AcceptsWrite (s.loadReg regA1) 128

/-- The entry of the table that `lseek` and `read` find. -/
def openedAs (s : VEmu) (fd : U64) : Option FileHandle :=
  s.fileTable.find? fun fh => decide (fh.fd.signExtend 64 = fd)

/-- `lseek` of a known descriptor gets one of the three origins. -/
def LseekMet (s : VEmu) : Prop :=
  ∀ fh, s.openedAs (s.loadReg regA0) = some fh →
    s.loadReg regA2 = 0 ∨ s.loadReg regA2 = 1 ∨ s.loadReg regA2 = 2

/-- So many bytes from the position on are in the buffer of the file. -/
def HoldsBytes (fh : FileHandle) (count : U64) : Prop :=
  count.toNat ≤ MMU.maxVectorSize
    ∧ ∃ buffer, fh.data = some buffer ∧ fh.idx.toNat + count.toNat ≤ buffer.length

/-- `read` gets a known descriptor, and nothing is left to read, or the bytes are there and have
room. -/
def ReadMet (s : VEmu) : Prop :=
  ∃ fh, s.openedAs (s.loadReg regA0) = some fh ∧
    let count := readCount fh (s.loadReg regA2)
    count ≠ 0 → HoldsBytes fh count ∧ s.bus.mmu.AcceptsWrite (s.loadReg regA1) count.toNat

/-- What a system call needs, by its number. -/
def SyscallMet (host : Host) (s : VEmu) : Prop :=
  let nr := s.loadReg regA7
  if nr = syscallNrBrk then s.BrkMet
  else if nr = syscallNrOpen then s.OpenMet host
  else if nr = syscallNrFstat then s.FstatMet
  else if nr = syscallNrLseek then s.LseekMet
  else if nr = syscallNrRead then s.ReadMet
  else nr ∈ supportedSyscalls

/-! ### All demands -/

/-- The mode that `MRET` goes back to. -/
def previousMode (s : VEmu) : U64 := (s.csrs.loadCsr mstatus >>> 11) &&& 0b11

def Demand.Met (host : Host) (s : VEmu) : Demand → Prop
  | .nothing => True
  | .load n => s.bus.mmu.AcceptsRead (s.loadReg s.rs1 + s.imm) n
  | .store n => s.bus.mmu.AcceptsWrite (s.loadReg s.rs1 + s.imm) n
  | .loadReserved n =>
      aligned (s.loadReg s.rs1) (8 * n) = true → s.bus.mmu.AcceptsRead (s.loadReg s.rs1) n
  | .storeConditional n =>
      aligned (s.loadReg s.rs1) (8 * n) = true → s.bus.mmu.AcceptsWrite (s.loadReg s.rs1) n
  | .amo n =>
      aligned (s.loadReg s.rs1) (8 * n) = true →
        s.bus.mmu.AcceptsRead (s.loadReg s.rs1) n
          ∧ (s.bus.mmu.readOutcome (s.loadReg s.rs1) n = .NormalExecutionReturn →
              s.bus.mmu.AcceptsWrite (s.loadReg s.rs1) n)
  | .trapReturn => s.previousMode = 0 ∨ s.previousMode = 1
  | .syscall => s.SyscallMet host

/-! ## Memory accesses -/

/-- All accesses go to RAM, which is backed. -/
structure OnlyRam (s : VEmu) : Prop where
  devices : s.bus.devices = none
  memory : s.bus.mmu.Backed

lemma Intact.onlyRam (h : s.Intact host) (hb : host.build = .fuzz) : s.OnlyRam := by
  refine ⟨?_, h.memory⟩
  have hdev := h.devices
  rw [hb] at hdev
  simpa using hdev

section Accesses

variable {addr : U64} {sz n : ℕ}

lemma OnlyRam.toRam (h : s.OnlyRam) (addr : U64) : s.bus.routesToRam addr = true := by
  rw [Bus.routesToRam, h.devices]
  rfl

/-- A load leaves the state alone. -/
lemma OnlyRam.load_eq (h : s.OnlyRam) (addr : U64) (sz : ℕ) :
    s.load addr sz = (s.bus.mmu.load addr sz >>= fun r => .ok (r, s)) := by
  rw [load, Bus.load_of_ram (h.toRam addr)]
  cases s.bus.mmu.load addr sz <;> rfl

lemma OnlyRam.load_ok_iff (h : s.OnlyRam) (hsz : MMU.sizeBytes sz = some n) :
    (∃ r, s.load addr sz = .ok r) ↔ s.bus.mmu.AcceptsRead addr n := by
  rw [← MMU.load_ok_iff h.memory hsz, h.load_eq]
  cases s.bus.mmu.load addr sz <;> simp

lemma OnlyRam.store_ok_iff (h : s.OnlyRam) (hsz : MMU.sizeBytes sz = some n) (data : U64) :
    (∃ r, s.store addr data sz = .ok r) ↔ s.bus.mmu.AcceptsWrite addr n := by
  rw [← MMU.store_ok_iff h.memory hsz data, store, Bus.store_of_ram (h.toRam addr), Bus.storeRam]
  cases s.bus.mmu.store addr data sz <;> simp

/-! ## The families -/

lemma dividing_completes (f : U64 → U64 → Option U64) (s : VEmu) : Completes (dividing f) s := by
  unfold Completes dividing
  split
  · exact ⟨_, rfl⟩
  · exact ⟨_, rfl⟩

lemma loadUnsigned_completes_iff (h : s.OnlyRam) (hsz : MMU.sizeBytes sz = some n) :
    Completes (loadUnsigned sz) s ↔ (Demand.load n).Met host s := by
  change _ ↔ s.bus.mmu.AcceptsRead _ n
  rw [← h.load_ok_iff hsz, Completes, loadUnsigned]
  cases s.load (s.loadReg s.rs1 + s.imm) sz with
  | error e => simp
  | ok r =>
      refine iff_of_true ?_ ⟨_, rfl⟩
      rw [ok_bind]
      dsimp only
      split_ifs
      · exact ⟨_, rfl⟩
      · exact ⟨_, rfl⟩

lemma loadSigned_completes_iff (bits : ℕ) (unsigned : Handler) :
    Completes (loadSigned bits unsigned) s ↔ Completes unsigned s := by
  rw [Completes, loadSigned, Completes]
  cases unsigned s with
  | error e => simp
  | ok r => exact iff_of_true ⟨_, rfl⟩ ⟨_, rfl⟩

lemma storeData_completes_iff (h : s.OnlyRam) (hsz : MMU.sizeBytes sz = some n) (f : U64 → U64) :
    Completes (storeData sz f) s ↔ (Demand.store n).Met host s :=
  h.store_ok_iff hsz _

lemma loadReserved_completes_iff (h : s.OnlyRam) (hsz : MMU.sizeBytes sz = some n)
    (h8 : sz = 8 * n) : Completes (loadReserved sz) s ↔ (Demand.loadReserved n).Met host s := by
  subst h8
  change _ ↔ (aligned (s.loadReg s.rs1) (8 * n) = true → s.bus.mmu.AcceptsRead _ n)
  rw [← h.load_ok_iff hsz, Completes, loadReserved]
  by_cases hal : aligned (s.loadReg s.rs1) (8 * n) = true
  · simp only [hal, Bool.not_true, Bool.false_eq_true, if_false, forall_const]
    cases s.load (s.loadReg s.rs1) (8 * n) with
    | error e => simp
    | ok r =>
        refine iff_of_true ?_ ⟨_, rfl⟩
        rw [ok_bind]
        split_ifs
        · exact ⟨_, rfl⟩
        · exact ⟨_, rfl⟩
  · rw [Bool.not_eq_true] at hal
    simp [hal]

lemma storeConditional_completes_iff (h : s.OnlyRam) (hsz : MMU.sizeBytes sz = some n)
    (h8 : sz = 8 * n) : Completes (storeConditional sz) s ↔ (Demand.storeConditional n).Met host s := by
  subst h8
  change _ ↔ (aligned (s.loadReg s.rs1) (8 * n) = true → s.bus.mmu.AcceptsWrite _ n)
  rw [← h.store_ok_iff hsz (s.loadReg s.rs2), Completes, storeConditional]
  by_cases hal : aligned (s.loadReg s.rs1) (8 * n) = true
  · simp only [hal, Bool.not_true, Bool.false_eq_true, if_false, forall_const]
    cases s.store (s.loadReg s.rs1) (s.loadReg s.rs2) (8 * n) with
    | error e => simp
    | ok r => exact iff_of_true ⟨_, rfl⟩ ⟨_, rfl⟩
  · rw [Bool.not_eq_true] at hal
    simp [hal]

/-- An atomic operation stores only when its load reported nothing.  A load that wraps reports
nothing, and the store wraps with it. -/
lemma amo_completes_iff (h : s.OnlyRam) (hsz : MMU.sizeBytes sz = some n) (h8 : sz = 8 * n)
    (old : U64 → U64) (f : U64 → U64 → U64) :
    Completes (amo sz old f) s ↔ (Demand.amo n).Met host s := by
  subst h8
  change _ ↔ (aligned (s.loadReg s.rs1) (8 * n) = true → s.bus.mmu.AcceptsRead _ n ∧ _)
  rw [Completes, amo]
  by_cases hal : aligned (s.loadReg s.rs1) (8 * n) = true
  · simp only [hal, Bool.not_true, Bool.false_eq_true, if_false, forall_const]
    have hstore : ∀ v e, (∃ r, (if e ≠ ReturnException.NormalExecutionReturn then
          Except.ok (e, s)
        else s.store (s.loadReg s.rs1) (f v (s.loadReg s.rs2)) (8 * n) >>= fun r =>
          if r.1 ≠ .NormalExecutionReturn then .ok r
          else normal (r.2.storeReg r.2.rd (old v)) : Except Fault (ReturnException × VEmu)) = .ok r)
        ↔ (e = .NormalExecutionReturn → s.bus.mmu.AcceptsWrite (s.loadReg s.rs1) n) := by
      intro v e
      by_cases he : e = .NormalExecutionReturn
      · rw [if_neg (not_not.mpr he), ← h.store_ok_iff hsz (f v (s.loadReg s.rs2)),
          forall_prop_of_true he]
        cases s.store (s.loadReg s.rs1) (f v (s.loadReg s.rs2)) (8 * n) with
        | error e => simp
        | ok r =>
            refine iff_of_true ?_ ⟨_, rfl⟩
            rw [ok_bind]
            split_ifs
            · exact ⟨_, rfl⟩
            · exact ⟨_, rfl⟩
      · rw [if_pos he]
        exact iff_of_true ⟨_, rfl⟩ fun he' => absurd he' he
    rw [h.load_eq]
    by_cases hf : s.bus.mmu.Fits (s.loadReg s.rs1) n
    · have hread : s.bus.mmu.AcceptsRead (s.loadReg s.rs1) n := Or.inl hf
      rw [MMU.load_of_fits h.memory hsz hf, ok_bind, ok_bind, and_iff_right hread]
      exact hstore _ _
    · by_cases hw : s.bus.mmu.Wraps (s.loadReg s.rs1) n
      · rw [MMU.load_of_wraps hsz hw, ok_bind, ok_bind]
        refine iff_of_true ((hstore _ _).mpr fun _ => Or.inr hw) ⟨Or.inr hw, fun _ => Or.inr hw⟩
      · rw [MMU.load_of_not hsz hf hw, error_bind, error_bind]
        refine iff_of_false (by simp) ?_
        rintro ⟨hread | hread, -⟩
        · exact hf hread
        · exact hw hread
  · rw [Bool.not_eq_true] at hal
    simp [hal]

end Accesses

lemma mret_completes_iff : Completes MRET s ↔ Demand.trapReturn.Met host s := by
  change _ ↔ s.previousMode = 0 ∨ s.previousMode = 1
  have hmax : s.previousMode ≠ 0x11 := by
    intro h
    have hle : s.previousMode.toNat ≤ 3 := by
      rw [previousMode, BitVec.toNat_and]
      exact Nat.and_le_right
    rw [h] at hle
    revert hle
    decide
  have hmode : (∃ mode, mretMode s.previousMode = .ok mode)
      ↔ s.previousMode = 0 ∨ s.previousMode = 1 := by
    unfold mretMode
    split_ifs with h0 h1
    · exact iff_of_true ⟨_, rfl⟩ (Or.inl h0)
    · exact iff_of_true ⟨_, rfl⟩ (Or.inr h1)
    · exact iff_of_false (by simp) (not_or.mpr ⟨h0, h1⟩)
  rw [← hmode, Completes, MRET]
  change (∃ r, (mretMode s.previousMode >>= _) = .ok r) ↔ _
  cases mretMode s.previousMode with
  | error e => simp
  | ok mode => exact iff_of_true ⟨_, rfl⟩ ⟨_, rfl⟩

/-! ## System calls -/

lemma sysBrk_completes_iff (h : s.OnlyRam) : Completes sysBrk s ↔ s.BrkMet := by
  rw [Completes, sysBrk_eq, rejectsBrk, BrkMet]
  by_cases hneg : s.brkIncrement.slt 0 = true
  · rw [if_pos hneg, hneg]
    exact iff_of_true ⟨_, rfl⟩ fun h => by cases h
  · rw [if_neg hneg, Bool.not_eq_true] at *
    rw [forall_prop_of_true hneg, ← MMU.allocate_ok_iff h.memory]
    cases s.bus.mmu.allocate s.brkIncrement with
    | error e => simp
    | ok r => exact iff_of_true ⟨_, rfl⟩ ⟨_, rfl⟩

lemma sysOpen_completes_iff (h : s.OnlyRam) : Completes (sysOpen host) s ↔ s.OpenMet host := by
  rw [Completes, sysOpen]
  constructor
  · rintro ⟨r, hr⟩
    dsimp only at hr
    rw [bind_eq_ok_iff] at hr
    obtain ⟨p, hp, hr⟩ := hr
    obtain ⟨k, hk, rfl⟩ := (MMU.readString_ok_iff h.memory).mp hp
    rw [bind_eq_ok_iff] at hr
    obtain ⟨file, hfile, hr⟩ := hr
    rw [MMU.cString_chars hk, orFault_eq_ok_iff] at hfile
    rw [bind_eq_ok_iff] at hr
    obtain ⟨_, hbuf, hr⟩ := hr
    rw [bind_eq_ok_iff] at hr
    obtain ⟨_, hsize, hr⟩ := hr
    rw [bind_eq_ok_iff] at hr
    obtain ⟨_, hname, hr⟩ := hr
    rw [check_eq_ok_iff] at hbuf hsize hname
    refine ⟨k, hk, file, hfile, hbuf, by simpa using hsize, ?_⟩
    simpa [MMU.chars] using hname
  · rintro ⟨k, hk, file, hfile, hbuf, hsize, hname⟩
    have hp := (MMU.readString_ok_iff h.memory).mpr ⟨k, hk, rfl⟩
    have hlen : host.malloc (BitVec.ofNat 64 (s.bus.mmu.chars (s.loadReg regA0) k
        ++ [0]).length + 1) = true := by
      simpa [MMU.chars] using hname
    have hsize' : decide (file.size + 1 ≠ 0) = true := by simpa using hsize
    dsimp only
    rw [hp, ok_bind, MMU.cString_chars hk, hfile, orFault_some, ok_bind, hbuf, check_true, ok_bind,
      hsize', check_true, ok_bind, hlen, check_true, ok_bind]
    exact ⟨_, rfl⟩

lemma sysClose_completes (s : VEmu) : Completes sysClose s := by
  unfold Completes sysClose
  dsimp only
  split_ifs
  · exact ⟨_, rfl⟩
  · exact ⟨_, rfl⟩

lemma sysFstat_completes_iff (h : s.OnlyRam) : Completes (sysFstat host) s ↔ s.FstatMet := by
  rw [Completes, sysFstat, FstatMet]
  have hany : s.fileTable.any (fun fh => decide (fh.fd = (s.loadReg regA0).setWidth 32)) = true
      ↔ ∃ fh ∈ s.fileTable, fh.fd = (s.loadReg regA0).setWidth 32 := by
    simp
  dsimp only
  by_cases hfd : ∃ fh ∈ s.fileTable, fh.fd = (s.loadReg regA0).setWidth 32
  · obtain ⟨fh, hmem, -⟩ := id hfd
    have hlast : s.fileTable.getLast? = some (s.fileTable.getLast (List.ne_nil_of_mem hmem)) :=
      List.getLast?_eq_some_getLast _
    rw [hany.mpr hfd, check_true, ok_bind, hlast, orFault_some, ok_bind, and_iff_right hfd]
    set bytes := statBytes (s.loadReg regA0) (s.fileTable.getLast (List.ne_nil_of_mem hmem)).len
      (host.uninitialised s.hostCalls) with hbytes
    have hlen : bytes.length = 128 := length_statBytes _ _ _
    have hn : bytes.length < 2 ^ 64 := by
      rw [hlen]
      decide
    rw [← hlen, ← MMU.writeFrom_ok_iff h.memory hn]
    cases s.bus.mmu.writeFrom bytes (s.loadReg regA1) with
    | error e => simp
    | ok mmu => exact iff_of_true ⟨_, rfl⟩ ⟨_, rfl⟩
  · rw [Bool.eq_false_iff.mpr (hfd ∘ hany.mp), check_false, error_bind]
    simp [hfd]

lemma find?_eq_openedAs (s : VEmu) (fd : U64) :
    s.fileTable.find? (fun fh => decide (fh.fd.signExtend 64 = fd)) = s.openedAs fd := rfl

lemma sysLseek_completes_iff : Completes sysLseek s ↔ s.LseekMet := by
  rw [Completes, sysLseek, LseekMet]
  dsimp only
  rw [find?_eq_openedAs]
  cases s.openedAs (s.loadReg regA0) with
  | none => exact iff_of_true ⟨_, rfl⟩ fun fh hfh => by cases hfh
  | some fh =>
      have hseek : (∃ idx, seekIdx fh (s.loadReg regA1) (s.loadReg regA2) = .ok idx)
          ↔ s.loadReg regA2 = 0 ∨ s.loadReg regA2 = 1 ∨ s.loadReg regA2 = 2 := by
        unfold seekIdx
        split_ifs with h0 h1 h2
        · exact iff_of_true ⟨_, rfl⟩ (Or.inl h0)
        · exact iff_of_true ⟨_, rfl⟩ (Or.inr (Or.inl h1))
        · exact iff_of_true ⟨_, rfl⟩ (Or.inr (Or.inr h2))
        · exact iff_of_false (by simp) (by rintro (h | h | h) <;> contradiction)
      simp only [Option.some.injEq, forall_eq']
      rw [← hseek]
      cases seekIdx fh (s.loadReg regA1) (s.loadReg regA2) with
      | error e => simp
      | ok idx => exact iff_of_true ⟨_, rfl⟩ ⟨_, rfl⟩

lemma slice_ok_iff {fh : FileHandle} {count : U64} :
    (∃ data, slice fh.data fh.idx count = .ok data) ↔ HoldsBytes fh count := by
  rw [slice, HoldsBytes]
  by_cases hmax : count.toNat ≤ MMU.maxVectorSize
  · rw [decide_eq_true hmax, check_true, ok_bind, and_iff_right hmax]
    cases fh.data with
    | none => simp
    | some buffer =>
        rw [orFault_some, ok_bind]
        by_cases hle : fh.idx.toNat + count.toNat ≤ buffer.length
        · rw [decide_eq_true hle, check_true]
          exact iff_of_true ⟨_, rfl⟩ ⟨_, rfl, hle⟩
        · rw [decide_eq_false hle]
          simp [hle]
  · rw [decide_eq_false hmax]
    simp [hmax]

lemma sysRead_completes_iff (h : s.OnlyRam) : Completes sysRead s ↔ s.ReadMet := by
  rw [Completes, sysRead, ReadMet]
  dsimp only
  rw [find?_eq_openedAs]
  cases s.openedAs (s.loadReg regA0) with
  | none => simp
  | some fh =>
      simp only [Option.some.injEq, exists_eq_left']
      by_cases hzero : readCount fh (s.loadReg regA2) = 0
      · rw [if_pos hzero]
        exact iff_of_true ⟨_, rfl⟩ fun hne => absurd hzero hne
      · rw [if_neg hzero, forall_prop_of_true hzero, ← slice_ok_iff]
        cases hdata : slice fh.data fh.idx (readCount fh (s.loadReg regA2)) with
        | error e => simp
        | ok data =>
            obtain ⟨hlen, hmax⟩ := length_slice hdata
            have hn : data.length < 2 ^ 64 := hlen ▸ (readCount fh (s.loadReg regA2)).isLt
            rw [ok_bind, ← hlen, ← MMU.writeFrom_ok_iff h.memory hn, and_iff_right ⟨_, rfl⟩]
            cases s.bus.mmu.writeFrom data (s.loadReg regA1) with
            | error e => simp
            | ok mmu => exact iff_of_true ⟨_, rfl⟩ ⟨_, rfl⟩

lemma ecallFuzz_completes_iff (h : s.OnlyRam) :
    Completes (ecallFuzz host) s ↔ Demand.syscall.Met host s := by
  change _ ↔ SyscallMet host s
  rw [Completes, ecallFuzz, SyscallMet]
  by_cases hbrk : s.loadReg regA7 = syscallNrBrk
  · rw [if_pos hbrk, if_pos hbrk]
    exact sysBrk_completes_iff h
  by_cases hopen : s.loadReg regA7 = syscallNrOpen
  · rw [hopen]
    exact sysOpen_completes_iff h
  by_cases hfstat : s.loadReg regA7 = syscallNrFstat
  · rw [hfstat]
    exact sysFstat_completes_iff h
  by_cases hlseek : s.loadReg regA7 = syscallNrLseek
  · rw [hlseek]
    exact sysLseek_completes_iff
  by_cases hread : s.loadReg regA7 = syscallNrRead
  · rw [hread]
    exact sysRead_completes_iff h
  rw [if_neg hbrk, if_neg hopen, if_neg hfstat, if_neg hlseek, if_neg hread, if_neg hbrk,
    if_neg hopen, if_neg hfstat, if_neg hlseek, if_neg hread]
  -- what is left needs nothing, or is not supported
  split_ifs with hwrite hclose hexit
  · exact iff_of_true ⟨_, rfl⟩ (by rw [hwrite]; decide)
  · exact iff_of_true (sysClose_completes s) (by rw [hclose]; decide)
  · exact iff_of_true ⟨_, rfl⟩ (by rw [hexit]; decide)
  · refine iff_of_false (by simp) ?_
    simp [supportedSyscalls, hbrk, hwrite, hopen, hclose, hexit, hfstat, hlseek, hread]

/-! ## Every handler -/

/-- **A handler comes to an end exactly if what it needs is met.** -/
theorem handler_completes_iff (hb : host.build = .fuzz) (h : s.OnlyRam) (n : IName) :
    Completes (handler host n) s ↔ (demand n).Met host s := by
  cases n <;> simp only [handler, demand]
  case LB | LH | LW =>
      exact (loadSigned_completes_iff _ _).trans (loadUnsigned_completes_iff h rfl)
  case LBU | LHU | LWU | LD => exact loadUnsigned_completes_iff h rfl
  case SB | SH | SW | SD => exact storeData_completes_iff h rfl _
  case LRW | LRD =>
      simp only [LRW, LRD]
      exact loadReserved_completes_iff h rfl rfl
  case SCW | SCD =>
      simp only [SCW, SCD]
      exact storeConditional_completes_iff h rfl rfl
  case AMOSWAPW | AMOADDW | AMOXORW | AMOANDW | AMOORW | AMOMINW | AMOMAXW | AMOMINUW | AMOMAXUW =>
      simp only [AMOSWAPW, AMOADDW, AMOXORW, AMOANDW, AMOORW, AMOMINW, AMOMAXW, AMOMINUW, AMOMAXUW,
        amoW]
      exact @amo_completes_iff host s 32 4 h rfl rfl _ _
  case AMOSWAPD | AMOADDD | AMOXORD | AMOANDD | AMOORD | AMOMIND | AMOMAXD | AMOMINUD | AMOMAXUD =>
      simp only [AMOSWAPD, AMOADDD, AMOXORD, AMOANDD, AMOORD, AMOMIND, AMOMAXD, AMOMINUD, AMOMAXUD,
        amoD]
      exact @amo_completes_iff host s 64 8 h rfl rfl _ _
  case DIV | DIVU | DIVW | DIVUW => exact iff_of_true (dividing_completes _ s) trivial
  case MRET => exact mret_completes_iff
  case ECALL =>
      rw [hb]
      exact ecallFuzz_completes_iff h
  all_goals exact iff_of_true ⟨_, rfl⟩ trivial

end VEmu

end Vemu
