import Vemu.Lib.LittleEndian
import Vemu.Riscv.Encoding

/-!
# The RV64I instructions

What the instructions of RV64I do to the state of a hart, without the environment calls and the
control registers.  An immediate is given as the 64-bit number that it is sign-extended to.

`exec` is partial: a jump to an address that is not a multiple of four raises an exception, of
which nothing is said here.
-/

namespace Riscv

/-- The registers, the program counter and the memory. -/
@[ext]
structure Hart where
  x : BitVec 5 → BitVec 64
  pc : BitVec 64
  mem : BitVec 64 → BitVec 8

/-- The size of an access to memory. -/
inductive Width
  | byte | half | word | double
  deriving DecidableEq, Repr

def Width.bytes : Width → ℕ
  | .byte => 1
  | .half => 2
  | .word => 4
  | .double => 8

/-- Operations on 64 bits. -/
inductive AluOp
  | ADD | SUB | SLL | SLT | SLTU | XOR | SRL | SRA | OR | AND
  deriving DecidableEq, Repr

/-- Operations on the lower 32 bits. -/
inductive AluWOp
  | ADDW | SUBW | SLLW | SRLW | SRAW
  deriving DecidableEq, Repr

inductive Rv64i
  | lui (rd : BitVec 5) (imm : BitVec 64)
  | auipc (rd : BitVec 5) (imm : BitVec 64)
  | jal (rd : BitVec 5) (offset : BitVec 64)
  | jalr (rd rs1 : BitVec 5) (offset : BitVec 64)
  | branch (op : BOp) (rs1 rs2 : BitVec 5) (offset : BitVec 64)
  | load (w : Width) (signed : Bool) (rd rs1 : BitVec 5) (offset : BitVec 64)
  | store (w : Width) (rs1 rs2 : BitVec 5) (offset : BitVec 64)
  | aluImm (op : AluOp) (rd rs1 : BitVec 5) (imm : BitVec 64)
  | aluWImm (op : AluWOp) (rd rs1 : BitVec 5) (imm : BitVec 64)
  | alu (op : AluOp) (rd rs1 rs2 : BitVec 5)
  | aluW (op : AluWOp) (rd rs1 rs2 : BitVec 5)
  | fence
  deriving DecidableEq, Repr

/-! ## Results -/

/-- A shift amount is taken modulo 64. -/
def AluOp.result : AluOp → BitVec 64 → BitVec 64 → BitVec 64
  | .ADD, a, b => a + b
  | .SUB, a, b => a - b
  | .SLL, a, b => a <<< (b.toNat % 64)
  | .SLT, a, b => if a.toInt < b.toInt then 1 else 0
  | .SLTU, a, b => if a.toNat < b.toNat then 1 else 0
  | .XOR, a, b => a ^^^ b
  | .SRL, a, b => a >>> (b.toNat % 64)
  | .SRA, a, b => a.sshiftRight (b.toNat % 64)
  | .OR, a, b => a ||| b
  | .AND, a, b => a &&& b

/-- The operation on words.  A shift amount is taken modulo 32. -/
def AluWOp.resultWord : AluWOp → BitVec 32 → BitVec 32 → BitVec 32
  | .ADDW, a, b => a + b
  | .SUBW, a, b => a - b
  | .SLLW, a, b => a <<< (b.toNat % 32)
  | .SRLW, a, b => a >>> (b.toNat % 32)
  | .SRAW, a, b => a.sshiftRight (b.toNat % 32)

/-- The result on words is sign-extended. -/
def AluWOp.result (op : AluWOp) (a b : BitVec 64) : BitVec 64 :=
  (op.resultWord (a.setWidth 32) (b.setWidth 32)).signExtend 64

def BOp.taken : BOp → BitVec 64 → BitVec 64 → Bool
  | .BEQ, a, b => a = b
  | .BNE, a, b => a ≠ b
  | .BLT, a, b => a.toInt < b.toInt
  | .BGE, a, b => b.toInt ≤ a.toInt
  | .BLTU, a, b => a.toNat < b.toNat
  | .BGEU, a, b => b.toNat ≤ a.toNat

/-! ## Memory -/

namespace Hart

/-- The little-endian number of `n` bytes. -/
def read (h : Hart) (a : BitVec 64) (n : ℕ) : ℕ :=
  LittleEndian.value ((List.range n).map fun k => h.mem (a + BitVec.ofNat 64 k))

/-- What a load of `n` bytes puts into a register. -/
def loaded (h : Hart) (a : BitVec 64) (n : ℕ) (signed : Bool) : BitVec 64 :=
  if signed then (BitVec.ofNat (8 * n) (h.read a n)).signExtend 64
  else BitVec.ofNat 64 (h.read a n)

/-- Memory after a store of the lowest `n` bytes of a number. -/
def stored (h : Hart) (a : BitVec 64) (n : ℕ) (v : BitVec 64) : BitVec 64 → BitVec 8 := fun b =>
  if (b - a).toNat < n then v.extractLsb' (8 * (b - a).toNat) 8 else h.mem b

/-! ## Execution -/

/-- The registers after a write.  Register zero cannot be written. -/
def write (h : Hart) (rd : BitVec 5) (v : BitVec 64) : BitVec 5 → BitVec 64 :=
  if rd = 0 then h.x else Function.update h.x rd v

/-- A register is written, and execution goes on with the next instruction. -/
def next (h : Hart) (rd : BitVec 5) (v : BitVec 64) : Hart :=
  { h with x := h.write rd v, pc := h.pc + 4 }

/-- A jump that leaves the address of the next instruction in a register. -/
def link (h : Hart) (rd : BitVec 5) (target : BitVec 64) : Option Hart :=
  if target.toNat % 4 = 0 then some { h with x := h.write rd (h.pc + 4), pc := target } else none

end Hart

/-- **What an instruction does.** -/
def Rv64i.exec (h : Hart) : Rv64i → Option Hart
  | .lui rd imm => some (h.next rd imm)
  | .auipc rd imm => some (h.next rd (h.pc + imm))
  | .jal rd offset => h.link rd (h.pc + offset)
  | .jalr rd rs1 offset => h.link rd ((h.x rs1 + offset) &&& ~~~1)
  | .branch op rs1 rs2 offset =>
      if op.taken (h.x rs1) (h.x rs2) then h.link 0 (h.pc + offset)
      else some { h with pc := h.pc + 4 }
  | .load w signed rd rs1 offset => some (h.next rd (h.loaded (h.x rs1 + offset) w.bytes signed))
  | .store w rs1 rs2 offset =>
      some { h with mem := h.stored (h.x rs1 + offset) w.bytes (h.x rs2), pc := h.pc + 4 }
  | .aluImm op rd rs1 imm => some (h.next rd (op.result (h.x rs1) imm))
  | .aluWImm op rd rs1 imm => some (h.next rd (op.result (h.x rs1) imm))
  | .alu op rd rs1 rs2 => some (h.next rd (op.result (h.x rs1) (h.x rs2)))
  | .aluW op rd rs1 rs2 => some (h.next rd (op.result (h.x rs1) (h.x rs2)))
  | .fence => some { h with pc := h.pc + 4 }

/-- An access to data: the first address, the number of bytes, and whether it writes. -/
structure Access where
  addr : BitVec 64
  bytes : ℕ
  writes : Bool
  deriving DecidableEq, Repr

/-- The data that an instruction accesses. -/
def Rv64i.access (h : Hart) : Rv64i → Option Access
  | .load w _ _ rs1 offset => some ⟨h.x rs1 + offset, w.bytes, false⟩
  | .store w rs1 _ offset => some ⟨h.x rs1 + offset, w.bytes, true⟩
  | _ => none

end Riscv
