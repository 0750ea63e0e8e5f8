import Vemu.Riscv.Encoding

/-!
# The RV64F instruction encoding

The single-precision instructions, grouped by which columns of the word are operands and which
are a part of the code, and the standard 32-bit encoding of each.  A rounding mode is a value of
the `funct3` column.
-/

namespace Riscv

/-! ## Instructions -/

/-- Two sources, their product and a third source. -/
inductive FusedOp
  | FMADDS | FMSUBS | FNMSUBS | FNMADDS
  deriving DecidableEq, Repr

/-- Two sources, with a rounding mode. -/
inductive FArithOp
  | FADDS | FSUBS | FMULS | FDIVS
  deriving DecidableEq, Repr

/-- Two sources, without a rounding mode. -/
inductive FExactOp
  | FSGNJS | FSGNJNS | FSGNJXS | FMINS | FMAXS | FEQS | FLTS | FLES
  deriving DecidableEq, Repr

/-- One source, with a rounding mode. -/
inductive FConvertOp
  | FSQRTS | FCVTWS | FCVTWUS | FCVTLS | FCVTLUS | FCVTSW | FCVTSWU | FCVTSL | FCVTSLU
  deriving DecidableEq, Repr

/-- One source, without a rounding mode. -/
inductive FMoveOp
  | FMVXW | FMVWX | FCLASSS
  deriving DecidableEq, Repr

inductive FInstr
  | flw (rd rs1 : BitVec 5) (imm : BitVec 12)
  | fsw (rs1 rs2 : BitVec 5) (imm : BitVec 12)
  | fused (op : FusedOp) (rm : BitVec 3) (rd rs1 rs2 rs3 : BitVec 5)
  | arith (op : FArithOp) (rm : BitVec 3) (rd rs1 rs2 : BitVec 5)
  | exact (op : FExactOp) (rd rs1 rs2 : BitVec 5)
  | convert (op : FConvertOp) (rm : BitVec 3) (rd rs1 : BitVec 5)
  | move (op : FMoveOp) (rd rs1 : BitVec 5)
  deriving DecidableEq, Repr

/-! ## Codes -/

/-- The opcode. -/
def FusedOp.code : FusedOp → BitVec 7
  | .FMADDS => 0b1000011
  | .FMSUBS => 0b1000111
  | .FNMSUBS => 0b1001011
  | .FNMADDS => 0b1001111

/-- `funct7`. -/
def FArithOp.code : FArithOp → BitVec 7
  | .FADDS => 0b0000000
  | .FSUBS => 0b0000100
  | .FMULS => 0b0001000
  | .FDIVS => 0b0001100

/-- `funct7` and `funct3`. -/
def FExactOp.code : FExactOp → BitVec 7 × BitVec 3
  | .FSGNJS => (0b0010000, 0b000)
  | .FSGNJNS => (0b0010000, 0b001)
  | .FSGNJXS => (0b0010000, 0b010)
  | .FMINS => (0b0010100, 0b000)
  | .FMAXS => (0b0010100, 0b001)
  | .FEQS => (0b1010000, 0b010)
  | .FLTS => (0b1010000, 0b001)
  | .FLES => (0b1010000, 0b000)

/-- `funct7` and the column of the second source, which tells the conversions apart. -/
def FConvertOp.code : FConvertOp → BitVec 7 × BitVec 5
  | .FSQRTS => (0b0101100, 0b00000)
  | .FCVTWS => (0b1100000, 0b00000)
  | .FCVTWUS => (0b1100000, 0b00001)
  | .FCVTLS => (0b1100000, 0b00010)
  | .FCVTLUS => (0b1100000, 0b00011)
  | .FCVTSW => (0b1101000, 0b00000)
  | .FCVTSWU => (0b1101000, 0b00001)
  | .FCVTSL => (0b1101000, 0b00010)
  | .FCVTSLU => (0b1101000, 0b00011)

/-- `funct7` and `funct3`. -/
def FMoveOp.code : FMoveOp → BitVec 7 × BitVec 3
  | .FMVXW => (0b1110000, 0b000)
  | .FMVWX => (0b1111000, 0b000)
  | .FCLASSS => (0b1110000, 0b001)

/-- The format field of single precision. -/
def singleFmt : BitVec 2 := 0b00

/-- The opcode that all but the fused operations and the memory accesses share. -/
def opFp : BitVec 7 := 0b1010011

/-- **The standard encoding.** -/
def FInstr.encode : FInstr → BitVec 32
  | .flw rd rs1 imm => wordI imm rs1 0b010 rd 0b0000111
  | .fsw rs1 rs2 imm => wordS imm rs2 rs1 0b010 0b0100111
  | .fused op rm rd rs1 rs2 rs3 => word (rs3 ++ singleFmt) rs2 rs1 rm rd op.code
  | .arith op rm rd rs1 rs2 => word op.code rs2 rs1 rm rd opFp
  | .exact op rd rs1 rs2 => word op.code.1 rs2 rs1 op.code.2 rd opFp
  | .convert op rm rd rs1 => word op.code.1 op.code.2 rs1 rm rd opFp
  | .move op rd rs1 => word op.code.1 0 rs1 op.code.2 rd opFp

end Riscv
