import Vemu.Lib.Stepping
import Vemu.Riscv.Multiplication
import Vemu.Riscv.Semantics

/-!
# A machine that runs RV64IM

A hart with permissions on its memory, byte by byte: a byte can be read, it can be written, and it
is *fresh* as long as it was handed out and not written yet.  Fresh bytes cannot be read, and become
readable by being written.

The machine executes what its memory holds.  It takes a step where the four bytes at the program
counter are the encoding of an instruction of RV64I or M, the instruction has a next state, and the
access to data that it makes, if it makes one, is allowed (`Machine.Step`).
-/

namespace Riscv

/-! ## The instructions -/

/-- What the operation writes to its destination. -/
def ROp.result : ROp → BitVec 64 → BitVec 64 → BitVec 64
  | .ADD => AluOp.ADD.result
  | .SUB => AluOp.SUB.result
  | .SLL => AluOp.SLL.result
  | .SLT => AluOp.SLT.result
  | .SLTU => AluOp.SLTU.result
  | .XOR => AluOp.XOR.result
  | .SRL => AluOp.SRL.result
  | .SRA => AluOp.SRA.result
  | .OR => AluOp.OR.result
  | .AND => AluOp.AND.result
  | .ADDW => AluWOp.ADDW.result
  | .SUBW => AluWOp.SUBW.result
  | .SLLW => AluWOp.SLLW.result
  | .SRLW => AluWOp.SRLW.result
  | .SRAW => AluWOp.SRAW.result
  | .MUL => fun a b => mulLow 64 a.toInt b.toInt
  | .MULH => fun a b => mulHigh 64 a.toInt b.toInt
  | .MULHSU => fun a b => mulHigh 64 a.toInt b.toNat
  | .MULHU => fun a b => mulHigh 64 a.toNat b.toNat
  | .DIV => quotSigned
  | .DIVU => quotUnsigned
  | .REM => remSigned
  | .REMU => remUnsigned
  | .MULW => fun a b => (mulLow 32 (a.setWidth 32).toInt (b.setWidth 32).toInt).signExtend 64
  | .DIVW => fun a b => (quotSigned (a.setWidth 32) (b.setWidth 32)).signExtend 64
  | .DIVUW => fun a b => (quotUnsigned (a.setWidth 32) (b.setWidth 32)).signExtend 64
  | .REMW => fun a b => (remSigned (a.setWidth 32) (b.setWidth 32)).signExtend 64
  | .REMUW => fun a b => (remUnsigned (a.setWidth 32) (b.setWidth 32)).signExtend 64

def ShiftOp.alu : ShiftOp → AluOp
  | .SLLI => .SLL
  | .SRLI => .SRL
  | .SRAI => .SRA

def ShiftWOp.alu : ShiftWOp → AluWOp
  | .SLLIW => .SLLW
  | .SRLIW => .SRLW
  | .SRAIW => .SRAW

def SOp.width : SOp → Width
  | .SB => .byte
  | .SH => .half
  | .SW => .word
  | .SD => .double

/-- The instruction of RV64I with a 12-bit immediate; those of Zicsr are not. -/
def IOp.rv64i (rd rs1 : BitVec 5) (imm : BitVec 64) : IOp → Option Rv64i
  | .LB => some (.load .byte true rd rs1 imm)
  | .LH => some (.load .half true rd rs1 imm)
  | .LW => some (.load .word true rd rs1 imm)
  | .LD => some (.load .double false rd rs1 imm)
  | .LBU => some (.load .byte false rd rs1 imm)
  | .LHU => some (.load .half false rd rs1 imm)
  | .LWU => some (.load .word false rd rs1 imm)
  | .ADDI => some (.aluImm .ADD rd rs1 imm)
  | .SLTI => some (.aluImm .SLT rd rs1 imm)
  | .SLTIU => some (.aluImm .SLTU rd rs1 imm)
  | .XORI => some (.aluImm .XOR rd rs1 imm)
  | .ORI => some (.aluImm .OR rd rs1 imm)
  | .ANDI => some (.aluImm .AND rd rs1 imm)
  | .ADDIW => some (.aluWImm .ADDW rd rs1 imm)
  | .JALR => some (.jalr rd rs1 imm)
  | .FENCE | .FENCEI => some .fence
  | .CSRRW | .CSRRS | .CSRRC | .CSRRWI | .CSRRSI | .CSRRCI => none

/-- The instruction of RV64I that an encoded one is, if it is not an operation on two registers. -/
def Instr.rv64i : Instr → Option Rv64i
  | .i op rd rs1 imm => op.rv64i rd rs1 (imm.signExtend 64)
  | .shift op rd rs1 shamt => some (.aluImm op.alu rd rs1 (shamt.setWidth 64))
  | .shiftW op rd rs1 shamt => some (.aluWImm op.alu rd rs1 (shamt.setWidth 64))
  | .s op rs1 rs2 imm => some (.store op.width rs1 rs2 (imm.signExtend 64))
  | .b op rs1 rs2 halfwords => some (.branch op rs1 rs2 ((offset halfwords).signExtend 64))
  | .u .LUI rd imm => some (.lui rd ((upper imm).signExtend 64))
  | .u .AUIPC rd imm => some (.auipc rd ((upper imm).signExtend 64))
  | .jal rd halfwords => some (.jal rd ((offset halfwords).signExtend 64))
  | .r .. | .amo .. | .lr .. | .system _ => none

def Instr.exec (h : Hart) : Instr → Option Hart
  | .r op rd rs1 rs2 => some (h.next rd (op.result (h.x rs1) (h.x rs2)))
  | ins => ins.rv64i.bind (Rv64i.exec h)

def Instr.access (h : Hart) (i : Instr) : Option Access := i.rv64i.bind (Rv64i.access h)

/-! ## The machine -/

/-- What may be done with a byte. -/
structure Rights where
  reads : Bool
  writes : Bool
  fresh : Bool
  deriving DecidableEq, Repr

/-- A fresh byte that is written can be read. -/
def Rights.written (r : Rights) : Rights :=
  if r.fresh then { r with reads := true, fresh := false } else r

/-- A hart, and memory with an end. -/
@[ext]
structure Machine where
  hart : Hart
  rights : BitVec 64 → Rights
  size : ℕ

namespace Machine

/-- The four bytes are those of the word. -/
def Holds (m : Machine) (a : BitVec 64) (w : BitVec 32) : Prop :=
  ∀ k < 4, m.hart.mem (a + BitVec.ofNat 64 k) = w.extractLsb' (8 * k) 8

instance (m : Machine) (a : BitVec 64) (w : BitVec 32) : Decidable (m.Holds a w) :=
  Nat.decidableBallLT 4 _

/-- The instruction is what the machine executes next. -/
structure Fetches (m : Machine) (i : Instr) : Prop where
  inside : m.hart.pc.toNat + 4 ≤ m.size
  holds : m.Holds m.hart.pc i.encode

/-- The access ends before memory does, and every byte of it is permitted. -/
structure Allows (m : Machine) (acc : Access) : Prop where
  inside : acc.addr.toNat + acc.bytes < m.size
  permitted : ∀ k < acc.bytes,
    if acc.writes then (m.rights (acc.addr + BitVec.ofNat 64 k)).writes = true
    else (m.rights (acc.addr + BitVec.ofNat 64 k)).reads = true
      ∧ (m.rights (acc.addr + BitVec.ofNat 64 k)).fresh = false

instance (m : Machine) (acc : Access) : Decidable (m.Allows acc) :=
  decidable_of_iff (acc.addr.toNat + acc.bytes < m.size ∧ ∀ k < acc.bytes,
      if acc.writes then (m.rights (acc.addr + BitVec.ofNat 64 k)).writes = true
      else (m.rights (acc.addr + BitVec.ofNat 64 k)).reads = true
        ∧ (m.rights (acc.addr + BitVec.ofNat 64 k)).fresh = false)
    ⟨fun h => ⟨h.1, h.2⟩, fun h => ⟨h.inside, h.permitted⟩⟩

/-- The permissions after an access. -/
def rightsAfter (m : Machine) : Option Access → BitVec 64 → Rights
  | none, a => m.rights a
  | some acc, a =>
      if acc.writes ∧ (a - acc.addr).toNat < acc.bytes then (m.rights a).written else m.rights a

/-- The machine after an instruction. -/
def exec (m : Machine) (i : Instr) : Option Machine :=
  if ∀ acc ∈ i.access m.hart, m.Allows acc then
    (i.exec m.hart).map fun t =>
      { m with hart := t, rights := m.rightsAfter (i.access m.hart) }
  else none

/-- **A step**: the instruction at the program counter is executed. -/
def Step (m m' : Machine) : Prop := ∃ i, m.Fetches i ∧ m.exec i = some m'

/-- What a step needs. -/
lemma exec_eq_some {m m' : Machine} {i : Instr} (h : m.exec i = some m') :
    (∀ acc ∈ i.access m.hart, m.Allows acc) ∧ i.exec m.hart = some m'.hart
      ∧ m'.rights = m.rightsAfter (i.access m.hart) ∧ m'.size = m.size := by
  unfold exec at h
  split_ifs at h with hacc
  obtain ⟨t, ht, rfl⟩ := Option.map_eq_some_iff.mp h
  exact ⟨hacc, ht, rfl, rfl⟩

lemma exec_of_no_access {m : Machine} {i : Instr} {t : Hart} (ha : i.access m.hart = none)
    (ht : i.exec m.hart = some t) : m.exec i = some { m with hart := t } := by
  have hacc : ∀ acc ∈ i.access m.hart, m.Allows acc := by
    rw [ha]
    exact nofun
  rw [exec, if_pos hacc, ht, ha]
  rfl

end Machine

end Riscv
