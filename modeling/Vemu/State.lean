import Vemu.Bus
import Vemu.FuncMap
import Vemu.InstructionDecoder

/-!
# The state of the emulator

`VEmu` has the members of the class, and two things of the process around it: the decoder, which
is a singleton, and the number of questions the host has been asked.  `Host` is what the
emulator asks the operating system for, and what uninitialised variables happen to hold.

Register zero reads zero because nothing is ever stored to it; the register file carries that
as a field.
-/

namespace Vemu

/-! ## Registers -/

structure RegFile where
  data : Reg → U64
  zero : data 0 = 0

namespace RegFile

def new : RegFile := ⟨fun _ => 0, rfl⟩

def loadReg (r : RegFile) (idx : Reg) : U64 := r.data idx

def storeReg (r : RegFile) (idx : Reg) (value : U64) : RegFile :=
  if h : idx = 0 then r
  else ⟨Function.update r.data idx value, by rw [Function.update_of_ne (Ne.symm h), r.zero]⟩

lemma data_storeReg (r : RegFile) (idx : Reg) (value : U64) :
    (r.storeReg idx value).data = if idx = 0 then r.data else Function.update r.data idx value := by
  unfold storeReg
  split <;> rfl

end RegFile

/-! ## Control and status registers -/

structure Csrs where
  reg : CsrAddr → U64

namespace Csrs

/-- The logical negation of C++, on a 64-bit number. -/
def logicalNot (x : U64) : U64 := if x = 0 then 1 else 0

def set (c : Csrs) (addr : CsrAddr) (val : U64) : Csrs := ⟨Function.update c.reg addr val⟩

def loadCsr (c : Csrs) (addr : CsrAddr) : U64 :=
  if addr = sie then c.reg mie &&& c.reg mideleg else c.reg addr

/-- The supervisor's interrupt enables are a view of the machine's.  The source clears with a
logical negation where a bitwise one would keep the other bits. -/
def storeCsr (c : Csrs) (addr : CsrAddr) (val : U64) : Csrs :=
  if addr = sie then
    let c := c.set mie (c.reg mie &&& logicalNot (c.reg mideleg))
    c.set mie (c.reg mie ||| (val &&& c.reg mideleg))
  else c.set addr val

/-- Or-ing bits into a register. -/
def setBits (c : Csrs) (addr : CsrAddr) (bits : U64) : Csrs :=
  c.storeCsr addr (c.loadCsr addr ||| bits)

/-- Clearing the bits of a register outside of a mask. -/
def keepBits (c : Csrs) (addr : CsrAddr) (mask : U64) : Csrs :=
  c.storeCsr addr (c.loadCsr addr &&& mask)

/-- One bit of a register. -/
def bit (c : Csrs) (addr : CsrAddr) (pos : ℕ) : Bool := (c.loadCsr addr >>> pos) &&& 1 != 0

end Csrs

/-! ## Open files -/

inductive FileType
  | Stdin | Stdout | Stderr | DiskFile
  deriving DecidableEq, Repr

/-- An entry of the table of open files.  A standard stream has no data and no path name. -/
structure FileHandle where
  data : Option (List U8)
  pathname : Option (List U8)
  fd : U32
  len : U64
  idx : U64
  type : FileType
  deriving DecidableEq

/-- The table that every emulator starts with. -/
def standardFiles : List FileHandle :=
  [ ⟨none, none, 0, 0, 0, .Stdin⟩, ⟨none, none, 1, 0, 0, .Stdout⟩, ⟨none, none, 2, 0, 0, .Stderr⟩ ]

/-! ## The operating system -/

/-- A file the host has opened: its descriptor, the position of its end, and what a buffer holds
after the file was read into it. -/
structure OpenedFile where
  fd : U32
  size : U64
  contents : ℕ → U8

structure Host where
  build : Build
  /-- The outcome of a call of `open`, as the `n`-th question; `none` for a failure. -/
  openFile : ℕ → List U8 → U32 → Option OpenedFile
  /-- The bytes of an uninitialised structure, at the `n`-th question. -/
  uninitialised : ℕ → ℕ → U8
  /-- Whether that many bytes can be had from `malloc`. -/
  malloc : U64 → Bool
  /-- The contents of an executable file. -/
  readFile : List U8 → Option (List U8)

/-- A host without any files. -/
def Host.bare (build : Build) : Host where
  build := build
  openFile := fun _ _ _ => none
  uninitialised := fun _ _ => 0
  malloc := fun _ => true
  readFile := fun _ => none

/-! ## The emulator -/

structure VEmu where
  instFuncs : List IName
  binFileName : List U8
  csrs : Csrs
  mode : Mode
  bus : Bus
  iregs : RegFile
  /-- The double-precision patterns of the float registers. -/
  fregs : Reg → U64
  hexInstr : U32
  currInstr : Instruction
  pc : U64
  codeSize : U64
  ramSize : U64
  fileTable : List FileHandle
  hasExited : Bool
  exitCode : U8
  testFlagDone : Bool
  decoder : InstructionDecoder
  hostCalls : ℕ

/-- An instruction handler: what it reports, and the emulator afterwards. -/
abbrev Handler := VEmu → Except Fault (ReturnException × VEmu)

namespace VEmu

def loadReg (s : VEmu) (idx : Reg) : U64 := s.iregs.loadReg idx

def storeReg (s : VEmu) (idx : Reg) (value : U64) : VEmu :=
  { s with iregs := s.iregs.storeReg idx value }

lemma loadReg_storeReg_self (s : VEmu) {idx : Reg} (h : idx ≠ 0) (value : U64) :
    (s.storeReg idx value).loadReg idx = value := by
  rw [loadReg, storeReg, RegFile.loadReg, RegFile.data_storeReg, if_neg h, Function.update_self]

/-! ### Fields of the current instruction -/

def rd (s : VEmu) : Reg := s.currInstr.f.rd
def rs1 (s : VEmu) : Reg := s.currInstr.f.rs1
def rs2 (s : VEmu) : Reg := s.currInstr.f.rs2
def imm32 (s : VEmu) : U32 := s.currInstr.f.imm

/-- The immediate, sign-extended. -/
def imm (s : VEmu) : U64 := s.imm32.signExtend 64

/-! ### Memory -/

def load (s : VEmu) (addr : U64) (sz : ℕ) : Except Fault ((U64 × ReturnException) × VEmu) := do
  let (r, bus) ← s.bus.load addr sz
  return (r, { s with bus := bus })

def store (s : VEmu) (addr data : U64) (sz : ℕ) : Except Fault (ReturnException × VEmu) := do
  let (r, bus) ← s.bus.store addr data sz
  return (r, { s with bus := bus })

def withMmu (s : VEmu) (mmu : MMU) : VEmu := { s with bus := { s.bus with mmu := mmu } }

def exitEmu (s : VEmu) (code : U8) : VEmu := { s with hasExited := true, exitCode := code }

end VEmu

end Vemu
