import Mathlib.Tactic.IntervalCases
import Vemu.Lib.BitFields

/-!
# The RV64IMA instruction encoding

The instructions of RV64I, M, A, Zicsr and Zifencei and the two trap returns, grouped by the
format of their encoding, and the standard 32-bit encoding of each.

The operands have the width of their field, so every operand is in range: an immediate is the
field itself, and a branch or jump offset counts halfwords, which is what makes it even.  All
formats are put together from the six columns of the R format (`word`).
-/

namespace Riscv

open BitFields

/-! ## Instructions -/

inductive ROp
  | ADD | SUB | SLL | SLT | SLTU | XOR | SRL | SRA | OR | AND
  | ADDW | SUBW | SLLW | SRLW | SRAW
  | MUL | MULH | MULHSU | MULHU | DIV | DIVU | REM | REMU
  | MULW | DIVW | DIVUW | REMW | REMUW
  deriving DecidableEq, Repr

inductive IOp
  | LB | LH | LW | LD | LBU | LHU | LWU
  | ADDI | SLTI | SLTIU | XORI | ORI | ANDI | ADDIW
  | JALR | FENCE | FENCEI
  | CSRRW | CSRRS | CSRRC | CSRRWI | CSRRSI | CSRRCI
  deriving DecidableEq, Repr

/-- Shifts by a six-bit immediate. -/
inductive ShiftOp
  | SLLI | SRLI | SRAI
  deriving DecidableEq, Repr

/-- Shifts of words, by a five-bit immediate. -/
inductive ShiftWOp
  | SLLIW | SRLIW | SRAIW
  deriving DecidableEq, Repr

inductive SOp
  | SB | SH | SW | SD
  deriving DecidableEq, Repr

inductive BOp
  | BEQ | BNE | BLT | BGE | BLTU | BGEU
  deriving DecidableEq, Repr

inductive UOp
  | LUI | AUIPC
  deriving DecidableEq, Repr

inductive AmoOp
  | SC | AMOSWAP | AMOADD | AMOXOR | AMOAND | AMOOR | AMOMIN | AMOMAX | AMOMINU | AMOMAXU
  deriving DecidableEq, Repr

inductive SystemOp
  | ECALL | EBREAK | SRET | MRET
  deriving DecidableEq, Repr

/-- An instruction with its operands.  The immediate of a Zicsr instruction is its CSR number,
and `rs1` of the three immediate ones their operand.  An atomic is on words or on double words
and has its `aq` and `rl` bits. -/
inductive Instr
  | r (op : ROp) (rd rs1 rs2 : BitVec 5)
  | i (op : IOp) (rd rs1 : BitVec 5) (imm : BitVec 12)
  | shift (op : ShiftOp) (rd rs1 : BitVec 5) (shamt : BitVec 6)
  | shiftW (op : ShiftWOp) (rd rs1 : BitVec 5) (shamt : BitVec 5)
  | s (op : SOp) (rs1 rs2 : BitVec 5) (imm : BitVec 12)
  | b (op : BOp) (rs1 rs2 : BitVec 5) (halfwords : BitVec 12)
  | u (op : UOp) (rd : BitVec 5) (imm : BitVec 20)
  | jal (rd : BitVec 5) (halfwords : BitVec 20)
  | amo (op : AmoOp) (double aq rl : Bool) (rd rs1 rs2 : BitVec 5)
  | lr (double aq rl : Bool) (rd rs1 : BitVec 5)
  | system (op : SystemOp)
  deriving DecidableEq, Repr

/-! ## Codes -/

/-- Opcode, `funct3` and `funct7`. -/
def ROp.code : ROp → BitVec 7 × BitVec 3 × BitVec 7
  | .ADD => (0b0110011, 0b000, 0b0000000)
  | .SUB => (0b0110011, 0b000, 0b0100000)
  | .SLL => (0b0110011, 0b001, 0b0000000)
  | .SLT => (0b0110011, 0b010, 0b0000000)
  | .SLTU => (0b0110011, 0b011, 0b0000000)
  | .XOR => (0b0110011, 0b100, 0b0000000)
  | .SRL => (0b0110011, 0b101, 0b0000000)
  | .SRA => (0b0110011, 0b101, 0b0100000)
  | .OR => (0b0110011, 0b110, 0b0000000)
  | .AND => (0b0110011, 0b111, 0b0000000)
  | .ADDW => (0b0111011, 0b000, 0b0000000)
  | .SUBW => (0b0111011, 0b000, 0b0100000)
  | .SLLW => (0b0111011, 0b001, 0b0000000)
  | .SRLW => (0b0111011, 0b101, 0b0000000)
  | .SRAW => (0b0111011, 0b101, 0b0100000)
  | .MUL => (0b0110011, 0b000, 0b0000001)
  | .MULH => (0b0110011, 0b001, 0b0000001)
  | .MULHSU => (0b0110011, 0b010, 0b0000001)
  | .MULHU => (0b0110011, 0b011, 0b0000001)
  | .DIV => (0b0110011, 0b100, 0b0000001)
  | .DIVU => (0b0110011, 0b101, 0b0000001)
  | .REM => (0b0110011, 0b110, 0b0000001)
  | .REMU => (0b0110011, 0b111, 0b0000001)
  | .MULW => (0b0111011, 0b000, 0b0000001)
  | .DIVW => (0b0111011, 0b100, 0b0000001)
  | .DIVUW => (0b0111011, 0b101, 0b0000001)
  | .REMW => (0b0111011, 0b110, 0b0000001)
  | .REMUW => (0b0111011, 0b111, 0b0000001)

/-- Opcode and `funct3`. -/
def IOp.code : IOp → BitVec 7 × BitVec 3
  | .LB => (0b0000011, 0b000)
  | .LH => (0b0000011, 0b001)
  | .LW => (0b0000011, 0b010)
  | .LD => (0b0000011, 0b011)
  | .LBU => (0b0000011, 0b100)
  | .LHU => (0b0000011, 0b101)
  | .LWU => (0b0000011, 0b110)
  | .ADDI => (0b0010011, 0b000)
  | .SLTI => (0b0010011, 0b010)
  | .SLTIU => (0b0010011, 0b011)
  | .XORI => (0b0010011, 0b100)
  | .ORI => (0b0010011, 0b110)
  | .ANDI => (0b0010011, 0b111)
  | .ADDIW => (0b0011011, 0b000)
  | .JALR => (0b1100111, 0b000)
  | .FENCE => (0b0001111, 0b000)
  | .FENCEI => (0b0001111, 0b001)
  | .CSRRW => (0b1110011, 0b001)
  | .CSRRS => (0b1110011, 0b010)
  | .CSRRC => (0b1110011, 0b011)
  | .CSRRWI => (0b1110011, 0b101)
  | .CSRRSI => (0b1110011, 0b110)
  | .CSRRCI => (0b1110011, 0b111)

/-- `funct3` and the six bits above the shift amount. -/
def ShiftOp.code : ShiftOp → BitVec 3 × BitVec 6
  | .SLLI => (0b001, 0b000000)
  | .SRLI => (0b101, 0b000000)
  | .SRAI => (0b101, 0b010000)

/-- `funct3` and the seven bits above the shift amount. -/
def ShiftWOp.code : ShiftWOp → BitVec 3 × BitVec 7
  | .SLLIW => (0b001, 0b0000000)
  | .SRLIW => (0b101, 0b0000000)
  | .SRAIW => (0b101, 0b0100000)

/-- `funct3`. -/
def SOp.code : SOp → BitVec 3
  | .SB => 0b000
  | .SH => 0b001
  | .SW => 0b010
  | .SD => 0b011

/-- `funct3`. -/
def BOp.code : BOp → BitVec 3
  | .BEQ => 0b000
  | .BNE => 0b001
  | .BLT => 0b100
  | .BGE => 0b101
  | .BLTU => 0b110
  | .BGEU => 0b111

/-- The opcode. -/
def UOp.code : UOp → BitVec 7
  | .LUI => 0b0110111
  | .AUIPC => 0b0010111

/-- The five bits above `aq` and `rl`. -/
def AmoOp.code : AmoOp → BitVec 5
  | .SC => 0b00011
  | .AMOSWAP => 0b00001
  | .AMOADD => 0b00000
  | .AMOXOR => 0b00100
  | .AMOAND => 0b01100
  | .AMOOR => 0b01000
  | .AMOMIN => 0b10000
  | .AMOMAX => 0b10100
  | .AMOMINU => 0b11000
  | .AMOMAXU => 0b11100

def lrCode : BitVec 5 := 0b00010

/-- The `funct3` of atomics: word or double word. -/
def amoWidth (double : Bool) : BitVec 3 := if double then 0b011 else 0b010

/-- The words without operands. -/
def SystemOp.word : SystemOp → BitVec 32
  | .ECALL => 0x00000073
  | .EBREAK => 0x00100073
  | .SRET => 0x10200073
  | .MRET => 0x30200073

/-! ## Formats -/

/-- The six columns of an instruction word. -/
def word (funct7 : BitVec 7) (rs2 rs1 : BitVec 5) (funct3 : BitVec 3) (rd : BitVec 5)
    (opcode : BitVec 7) : BitVec 32 :=
  funct7 ++ rs2 ++ rs1 ++ funct3 ++ rd ++ opcode

def wordI (imm : BitVec 12) (rs1 : BitVec 5) (funct3 : BitVec 3) (rd : BitVec 5)
    (opcode : BitVec 7) : BitVec 32 :=
  word (imm.extractLsb' 5 7) (imm.extractLsb' 0 5) rs1 funct3 rd opcode

def wordS (imm : BitVec 12) (rs2 rs1 : BitVec 5) (funct3 : BitVec 3) (opcode : BitVec 7) :
    BitVec 32 :=
  word (imm.extractLsb' 5 7) rs2 rs1 funct3 (imm.extractLsb' 0 5) opcode

/-- Bits 12 and 10–5 of a branch offset. -/
def branchHigh (halfwords : BitVec 12) : BitVec 7 :=
  halfwords.extractLsb' 11 1 ++ halfwords.extractLsb' 4 6

/-- Bits 4–1 and 11 of a branch offset. -/
def branchLow (halfwords : BitVec 12) : BitVec 5 :=
  halfwords.extractLsb' 0 4 ++ halfwords.extractLsb' 10 1

def wordB (halfwords : BitVec 12) (rs2 rs1 : BitVec 5) (funct3 : BitVec 3)
    (opcode : BitVec 7) : BitVec 32 :=
  word (branchHigh halfwords) rs2 rs1 funct3 (branchLow halfwords) opcode

def wordU (imm : BitVec 20) (rd : BitVec 5) (opcode : BitVec 7) : BitVec 32 :=
  word (imm.extractLsb' 13 7) (imm.extractLsb' 8 5) (imm.extractLsb' 3 5)
    (imm.extractLsb' 0 3) rd opcode

/-- Bits 20, 10–1, 11 and 19–12 of a jump offset. -/
def jumpBits (halfwords : BitVec 20) : BitVec 20 :=
  halfwords.extractLsb' 19 1 ++ halfwords.extractLsb' 0 10 ++ halfwords.extractLsb' 10 1
    ++ halfwords.extractLsb' 11 8

def wordJ (halfwords : BitVec 20) (rd : BitVec 5) (opcode : BitVec 7) : BitVec 32 :=
  wordU (jumpBits halfwords) rd opcode

/-- The byte offset of a number of halfwords. -/
def offset {n : ℕ} (halfwords : BitVec n) : BitVec (n + 1) := halfwords ++ 0#1

/-- The value of a U immediate. -/
def upper (imm : BitVec 20) : BitVec 32 := imm ++ 0#12

/-- The `funct7` of an atomic. -/
def amoFunct7 (code : BitVec 5) (aq rl : Bool) : BitVec 7 :=
  code ++ BitVec.ofBool aq ++ BitVec.ofBool rl

/-- **The standard encoding.** -/
def Instr.encode : Instr → BitVec 32
  | .r op rd rs1 rs2 => word op.code.2.2 rs2 rs1 op.code.2.1 rd op.code.1
  | .i op rd rs1 imm => wordI imm rs1 op.code.2 rd op.code.1
  | .shift op rd rs1 shamt => wordI (op.code.2 ++ shamt) rs1 op.code.1 rd 0b0010011
  | .shiftW op rd rs1 shamt => wordI (op.code.2 ++ shamt) rs1 op.code.1 rd 0b0011011
  | .s op rs1 rs2 imm => wordS imm rs2 rs1 op.code 0b0100011
  | .b op rs1 rs2 halfwords => wordB halfwords rs2 rs1 op.code 0b1100011
  | .u op rd imm => wordU imm rd op.code
  | .jal rd halfwords => wordJ halfwords rd 0b1101111
  | .amo op double aq rl rd rs1 rs2 =>
      word (amoFunct7 op.code aq rl) rs2 rs1 (amoWidth double) rd 0b0101111
  | .lr double aq rl rd rs1 =>
      word (amoFunct7 lrCode aq rl) 0 rs1 (amoWidth double) rd 0b0101111
  | .system op => op.word

/-! ## The columns of a word -/

section Columns

variable (funct7 : BitVec 7) (rs2 rs1 : BitVec 5) (funct3 : BitVec 3) (rd : BitVec 5)
  (opcode : BitVec 7)

lemma word_opcode : (word funct7 rs2 rs1 funct3 rd opcode).extractLsb' 0 7 = opcode :=
  lastColumn _ _

lemma word_rd : (word funct7 rs2 rs1 funct3 rd opcode).extractLsb' 7 5 = rd :=
  (column _ opcode 0 5).trans (lastColumn _ _)

lemma word_funct3 : (word funct7 rs2 rs1 funct3 rd opcode).extractLsb' 12 3 = funct3 :=
  (column _ opcode 5 3).trans ((column _ rd 0 3).trans (lastColumn _ _))

lemma word_rs1 : (word funct7 rs2 rs1 funct3 rd opcode).extractLsb' 15 5 = rs1 :=
  (column _ opcode 8 5).trans ((column _ rd 3 5).trans ((column _ funct3 0 5).trans
    (lastColumn _ _)))

lemma word_rs2 : (word funct7 rs2 rs1 funct3 rd opcode).extractLsb' 20 5 = rs2 :=
  (column _ opcode 13 5).trans ((column _ rd 8 5).trans ((column _ funct3 5 5).trans
    ((column _ rs1 0 5).trans (lastColumn _ _))))

/-- The bits of a word from 25 on are those of `funct7`. -/
lemma word_above (lo len : ℕ) :
    (word funct7 rs2 rs1 funct3 rd opcode).extractLsb' (25 + lo) len
      = funct7.extractLsb' lo len := by
  rw [word, BitVec.extractLsb'_append_eq_of_le (by omega),
    BitVec.extractLsb'_append_eq_of_le (by omega), BitVec.extractLsb'_append_eq_of_le (by omega),
    BitVec.extractLsb'_append_eq_of_le (by omega), BitVec.extractLsb'_append_eq_of_le (by omega)]
  congr 1
  omega

lemma word_funct7 : (word funct7 rs2 rs1 funct3 rd opcode).extractLsb' 25 7 = funct7 :=
  (word_above funct7 rs2 rs1 funct3 rd opcode 0 7).trans BitVec.extractLsb'_eq_self

/-- The bits of a word, column by column. -/
lemma getElem_word (i : ℕ) (hi : i < 32) :
    (word funct7 rs2 rs1 funct3 rd opcode)[i]
      = if i < 7 then opcode.getLsbD i
        else if i < 12 then rd.getLsbD (i - 7)
        else if i < 15 then funct3.getLsbD (i - 12)
        else if i < 20 then rs1.getLsbD (i - 15)
        else if i < 25 then rs2.getLsbD (i - 20)
        else funct7.getLsbD (i - 25) := by
  rw [← BitVec.getLsbD_eq_getElem, word, BitVec.getLsbD_append, BitVec.getLsbD_append,
    BitVec.getLsbD_append, BitVec.getLsbD_append, BitVec.getLsbD_append]
  simp only [Nat.sub_sub]
  grind

end Columns

/-- Every word is put together from its columns. -/
lemma eq_word (w : BitVec 32) :
    w = word (w.extractLsb' 25 7) (w.extractLsb' 20 5) (w.extractLsb' 15 5) (w.extractLsb' 12 3)
      (w.extractLsb' 7 5) (w.extractLsb' 0 7) := by
  apply BitVec.eq_of_getElem_eq
  intro i hi
  rw [getElem_word]
  interval_cases i <;> simp

lemma shift_code (op : ShiftOp) (shamt : BitVec 6) :
    ((op.code.2 ++ shamt).extractLsb' 5 7).extractLsb' 1 6 = op.code.2 := by
  have h := extractLsb'_extractLsb' (op.code.2 ++ shamt) 5 7 1 6 (by decide)
  exact h.trans ((column op.code.2 shamt 0 6).trans BitVec.extractLsb'_eq_self)

lemma shiftW_code (op : ShiftWOp) (shamt : BitVec 5) :
    (op.code.2 ++ shamt).extractLsb' 5 7 = op.code.2 :=
  (column op.code.2 shamt 0 7).trans BitVec.extractLsb'_eq_self

/-- The upper five bits of an atomic's `funct7`. -/
lemma amoFunct7_code (code : BitVec 5) (aq rl : Bool) :
    (amoFunct7 code aq rl).extractLsb' 2 5 = code :=
  (column _ (BitVec.ofBool rl) 1 5).trans
    ((column code (BitVec.ofBool aq) 0 5).trans BitVec.extractLsb'_eq_self)

lemma getElem_branchHigh (halfwords : BitVec 12) (i : ℕ) (hi : i < 7) :
    (branchHigh halfwords)[i]
      = if i < 6 then halfwords.getLsbD (4 + i) else halfwords.getLsbD 11 := by
  rw [← BitVec.getLsbD_eq_getElem, branchHigh, BitVec.getLsbD_append]
  interval_cases i <;> simp

lemma getElem_branchLow (halfwords : BitVec 12) (i : ℕ) (hi : i < 5) :
    (branchLow halfwords)[i]
      = if i < 1 then halfwords.getLsbD 10 else halfwords.getLsbD (i - 1) := by
  rw [← BitVec.getLsbD_eq_getElem, branchLow, BitVec.getLsbD_append]
  interval_cases i <;> simp

lemma getElem_jumpBits (halfwords : BitVec 20) (i : ℕ) (hi : i < 20) :
    (jumpBits halfwords)[i]
      = if i < 8 then halfwords.getLsbD (11 + i)
        else if i < 9 then halfwords.getLsbD 10
        else if i < 19 then halfwords.getLsbD (i - 9)
        else halfwords.getLsbD 19 := by
  rw [← BitVec.getLsbD_eq_getElem, jumpBits, BitVec.getLsbD_append, BitVec.getLsbD_append,
    BitVec.getLsbD_append]
  interval_cases i <;> simp

lemma getElem_offset {n : ℕ} (halfwords : BitVec n) (i : ℕ) (hi : i < n + 1) :
    (offset halfwords)[i] = if i < 1 then false else halfwords.getLsbD (i - 1) := by
  rw [← BitVec.getLsbD_eq_getElem, offset, BitVec.getLsbD_append]
  simp

lemma getElem_upper (imm : BitVec 20) (i : ℕ) (hi : i < 32) :
    (upper imm)[i] = if i < 12 then false else imm.getLsbD (i - 12) := by
  rw [← BitVec.getLsbD_eq_getElem, upper, BitVec.getLsbD_append]
  simp

end Riscv
