import Vemu.State

/-!
# The handlers of RV64I and M

A handler reads its operands from the current instruction and the registers, writes its result
and reports how it went.  The families below are the bodies that the handlers share; a handler
is its family at the operation it computes.

A conversion to a narrower type drops the upper bits, one of a signed 32-bit value to 64 bits
extends the sign.  Signed arithmetic wraps.
-/

namespace Vemu

namespace VEmu

/-- A handler that goes through. -/
def normal (s : VEmu) : Except Fault (ReturnException × VEmu) := .ok (.NormalExecutionReturn, s)

/-! ## Families -/

/-- `rd` from `rs1` and `rs2`. -/
def regReg (f : U64 → U64 → U64) : Handler := fun s =>
  normal (s.storeReg s.rd (f (s.loadReg s.rs1) (s.loadReg s.rs2)))

/-- `rd` from `rs1` and the immediate. -/
def regImm (f : U64 → U64 → U64) : Handler := fun s =>
  normal (s.storeReg s.rd (f (s.loadReg s.rs1) s.imm))

/-- `rd` from `rs1` and the amount in the low bits of the immediate. -/
def shiftImm (mask : U32) (f : U64 → U8 → U64) : Handler := fun s =>
  let shamt := (s.imm32 &&& mask).setWidth 8
  normal (s.storeReg s.rd (f (s.loadReg s.rs1) shamt))

/-- `rd` from `rs1` and the amount in the low bits of `rs2`. -/
def shiftReg (mask : U64) (f : U64 → U8 → U64) : Handler := fun s =>
  let shamt := (s.loadReg s.rs2 &&& mask).setWidth 8
  normal (s.storeReg s.rd (f (s.loadReg s.rs1) shamt))

/-- A load without sign extension. -/
def loadUnsigned (sz : ℕ) : Handler := fun s => do
  let memAddr := s.loadReg s.rs1 + s.imm
  let ((res, exp), s) ← s.load memAddr sz
  if exp ≠ .NormalExecutionReturn then return (exp, s)
  normal (s.storeReg s.rd res)

/-- A load with sign extension: the load without, then the register it wrote once more.  What
the inner load reports is dropped. -/
def loadSigned (bits : ℕ) (unsigned : Handler) : Handler := fun s => do
  let (_, s) ← unsigned s
  normal (s.storeReg s.rd (((s.loadReg s.rd).setWidth bits).signExtend 64))

/-- A store of what `f` keeps of `rs2`. -/
def storeData (sz : ℕ) (f : U64 → U64) : Handler := fun s =>
  s.store (s.loadReg s.rs1 + s.imm) (f (s.loadReg s.rs2)) sz

/-- A branch.  The loop of `run` adds the four that is taken off here. -/
def branch (taken : U64 → U64 → Bool) : Handler := fun s =>
  normal (if taken (s.loadReg s.rs1) (s.loadReg s.rs2) then { s with pc := s.pc + s.imm - 4 }
    else s)

/-! ## Loads and stores -/

def LBU : Handler := loadUnsigned 8
def LHU : Handler := loadUnsigned 16
def LWU : Handler := loadUnsigned 32
def LD : Handler := loadUnsigned 64

def LB : Handler := loadSigned 8 LBU
def LH : Handler := loadSigned 16 LHU
def LW : Handler := loadSigned 32 LWU

def SB : Handler := storeData 8 (· &&& 0xFF)
def SH : Handler := storeData 16 (· &&& 0xFFFF)
def SW : Handler := storeData 32 (· &&& 0xFFFFFFFF)
def SD : Handler := storeData 64 id

/-! ## Operations with an immediate -/

def ADDI : Handler := regImm fun a imm => a + imm
def ADDIW : Handler := regImm fun a imm => (((a + imm) &&& 0xFFFFFFFF).setWidth 32).signExtend 64
def SLTI : Handler := regImm fun a imm => if a.slt imm then 1 else 0
def SLTIU : Handler := regImm fun a imm => if a < imm then 1 else 0
def XORI : Handler := regImm fun a imm => a ^^^ imm
def ORI : Handler := regImm fun a imm => a ||| imm
def ANDI : Handler := regImm fun a imm => a &&& imm

def SLLI : Handler := shiftImm 0x3F fun op shamt => op <<< shamt.toNat
def SRLI : Handler := shiftImm 0x3F fun op shamt => op >>> shamt.toNat
def SRAI : Handler := shiftImm 0x3F fun op shamt => op.sshiftRight shamt.toNat

def SLLIW : Handler := shiftImm 0x1F fun op shamt => (op.setWidth 32 <<< shamt.toNat).signExtend 64
def SRLIW : Handler := shiftImm 0x1F fun op shamt => (op.setWidth 32 >>> shamt.toNat).signExtend 64
def SRAIW : Handler :=
  shiftImm 0x1F fun op shamt => ((op.setWidth 32).sshiftRight shamt.toNat).signExtend 64

/-! ## Operations on registers -/

def ADD : Handler := regReg fun a b => a + b
def SUB : Handler := regReg fun a b => a - b
def SLT : Handler := regReg fun a b => if a.slt b then 1 else 0
def SLTU : Handler := regReg fun a b => if a < b then 1 else 0
def XOR : Handler := regReg fun a b => a ^^^ b
def OR : Handler := regReg fun a b => a ||| b
def AND : Handler := regReg fun a b => a &&& b

def SLL : Handler := shiftReg 0x3F fun op shamt => op <<< shamt.toNat
def SRL : Handler := shiftReg 0x3F fun op shamt => op >>> shamt.toNat
def SRA : Handler := shiftReg 0x3F fun op shamt => op.sshiftRight shamt.toNat

def ADDW : Handler := regReg fun a b => (a.setWidth 32 + b.setWidth 32).signExtend 64
def SUBW : Handler := regReg fun a b => (a.setWidth 32 - b.setWidth 32).signExtend 64

def SLLW : Handler := shiftReg 0x1F fun op shamt => (op.setWidth 32 <<< shamt.toNat).signExtend 64
def SRLW : Handler := shiftReg 0x1F fun op shamt => (op.setWidth 32 >>> shamt.toNat).signExtend 64
def SRAW : Handler :=
  shiftReg 0x1F fun op shamt => ((op.setWidth 32).sshiftRight shamt.toNat).signExtend 64

def LUI : Handler := fun s => normal (s.storeReg s.rd s.imm)
def AUIPC : Handler := fun s => normal (s.storeReg s.rd (s.pc + s.imm))

/-! ## Jumps, branches and fences -/

def JAL : Handler := fun s =>
  let s' := s.storeReg s.rd (s.pc + 4)
  normal { s' with pc := s.pc + s.imm - 4 }

/-- The source register is read before the link is written. -/
def JALR : Handler := fun s =>
  let s' := s.storeReg s.rd (s.pc + 4)
  normal { s' with pc := ((s.loadReg s.rs1 + s.imm) &&& ~~~1) - 4 }

def BEQ : Handler := branch fun a b => a = b
def BNE : Handler := branch fun a b => a ≠ b
def BLT : Handler := branch fun a b => a.slt b
def BGE : Handler := branch fun a b => b.sle a
def BLTU : Handler := branch fun a b => a < b
def BGEU : Handler := branch fun a b => b ≤ a

def FENCE : Handler := normal
def FENCEI : Handler := normal

/-! ## Multiplication and division -/

/-- A division: a quotient, or a zero divisor, which sets a flag and gives all ones. -/
def dividing (f : U64 → U64 → Option U64) : Handler := fun s =>
  match f (s.loadReg s.rs1) (s.loadReg s.rs2) with
  | some res => normal (s.storeReg s.rd res)
  | none =>
      let s := { s with csrs := s.csrs.set fflags (s.csrs.reg fflags ||| 0x8) }
      normal (s.storeReg s.rd 0xFFFFFFFFFFFFFFFF)

def MUL : Handler := regReg fun a b => a * b
def MULW : Handler := regReg fun a b => (a.setWidth 32 * b.setWidth 32).signExtend 64

def MULH : Handler := regReg fun a b =>
  ((a.signExtend 128 * b.signExtend 128).sshiftRight 64).setWidth 64

def MULHU : Handler := regReg fun a b => ((a.setWidth 128 * b.setWidth 128) >>> 64).setWidth 64

def MULHSU : Handler := regReg fun a b => ((a.signExtend 128 * b.setWidth 128) >>> 64).setWidth 64

def DIV : Handler := dividing fun a b =>
  if b = 0 then none else if a = .intMin 64 ∧ b = -1 then some a else some (a.sdiv b)

def DIVU : Handler := dividing fun a b => if b = 0 then none else some (a / b)

def DIVW : Handler := dividing fun a b =>
  let a := a.setWidth 32
  let b := b.setWidth 32
  if b = 0 then none
  else if b = -1 ∧ a = .intMin 32 then some (a.signExtend 64) else some ((a.sdiv b).signExtend 64)

def DIVUW : Handler := dividing fun a b =>
  let a := a.setWidth 32
  let b := b.setWidth 32
  if b = 0 then none else some ((a / b).signExtend 64)

def REM : Handler := regReg fun a b =>
  if b = 0 then a else if a = .intMin 64 ∧ b = -1 then 0 else a.srem b

def REMU : Handler := regReg fun a b => if b = 0 then a else a % b

def REMW : Handler := regReg fun a b =>
  let a := a.setWidth 32
  let b := b.setWidth 32
  if b = 0 then a.signExtend 64
  else if b = -1 ∧ a = .intMin 32 then 0 else (a.srem b).signExtend 64

def REMUW : Handler := regReg fun a b =>
  let a := a.setWidth 32
  let b := b.setWidth 32
  if b = 0 then a.signExtend 64 else (a % b).signExtend 64

end VEmu

end Vemu
