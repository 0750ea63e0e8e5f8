import Vemu.Defs
import Vemu.Lib.BitFields

/-!
# The fixed bits of the instructions

For every mnemonic, the fields of its encoding that the instruction set fixes, and the value of
each.  `Fits w n` says that the word has the fixed bits of the mnemonic.  The table stands beside
the decoder's maps and is not made from them.

`unread n` are the fields of `n` that the decoder's walks do not look at, and `Accepts w n` is
what is left of `Fits w n` without them.
-/

namespace Vemu

/-! ## Fixed fields -/

/-- A field with a fixed value: `len` bits from bit `lo` on. -/
structure Fixed where
  lo : ℕ
  len : ℕ
  value : BitVec len
  deriving DecidableEq

namespace Fixed

def MetBy (b : Fixed) (w : U32) : Prop := w.extractLsb' b.lo b.len = b.value

instance (b : Fixed) (w : U32) : Decidable (b.MetBy w) := inferInstanceAs (Decidable (_ = _))

def opcode (c : BitVec 7) : Fixed := ⟨0, 7, c⟩
def rd (c : BitVec 5) : Fixed := ⟨7, 5, c⟩
def funct3 (c : BitVec 3) : Fixed := ⟨12, 3, c⟩
def rs1 (c : BitVec 5) : Fixed := ⟨15, 5, c⟩
def rs2 (c : BitVec 5) : Fixed := ⟨20, 5, c⟩
def funct12 (c : BitVec 12) : Fixed := ⟨20, 12, c⟩
def funct2 (c : BitVec 2) : Fixed := ⟨25, 2, c⟩
def funct7 (c : BitVec 7) : Fixed := ⟨25, 7, c⟩
def funct6 (c : BitVec 6) : Fixed := ⟨26, 6, c⟩
def funct5 (c : BitVec 5) : Fixed := ⟨27, 5, c⟩
def wholeWord (c : BitVec 32) : Fixed := ⟨0, 32, c⟩

end Fixed

open Fixed

/-! ## The table -/

/-- An opcode and a `funct3`. -/
def opF3 (op : BitVec 7) (f3 : BitVec 3) : List Fixed := [opcode op, funct3 f3]

/-- An opcode, a `funct3` and a `funct7`. -/
def opF3F7 (op : BitVec 7) (f3 : BitVec 3) (f7 : BitVec 7) : List Fixed :=
  [opcode op, funct3 f3, funct7 f7]

/-- An atomic: the two bits between the operation and the second source are free. -/
def amoBits (f3 : BitVec 3) (f5 : BitVec 5) : List Fixed :=
  [opcode 0b0101111, funct3 f3, funct5 f5]

/-- A single-precision operation with a rounding mode. -/
def fpBits (f7 : BitVec 7) : List Fixed := [opcode 0b1010011, funct7 f7]

/-- **The bits that the encoding of a mnemonic fixes.** -/
def fixedBits : IName → List Fixed
  | .LB => opF3 0b0000011 0b000
  | .LH => opF3 0b0000011 0b001
  | .LW => opF3 0b0000011 0b010
  | .LD => opF3 0b0000011 0b011
  | .LBU => opF3 0b0000011 0b100
  | .LHU => opF3 0b0000011 0b101
  | .LWU => opF3 0b0000011 0b110
  | .ADDI => opF3 0b0010011 0b000
  | .SLTI => opF3 0b0010011 0b010
  | .SLTIU => opF3 0b0010011 0b011
  | .XORI => opF3 0b0010011 0b100
  | .ORI => opF3 0b0010011 0b110
  | .ANDI => opF3 0b0010011 0b111
  | .ADDIW => opF3 0b0011011 0b000
  | .SLLI => opF3 0b0010011 0b001 ++ [funct6 0b000000]
  | .SRLI => opF3 0b0010011 0b101 ++ [funct6 0b000000]
  | .SRAI => opF3 0b0010011 0b101 ++ [funct6 0b010000]
  | .SLLIW => opF3F7 0b0011011 0b001 0b0000000
  | .SRLIW => opF3F7 0b0011011 0b101 0b0000000
  | .SRAIW => opF3F7 0b0011011 0b101 0b0100000
  | .FENCE => opF3 0b0001111 0b000
  | .FENCEI => opF3 0b0001111 0b001
  | .ECALL => opF3 0b1110011 0b000 ++ [funct12 0, rs1 0, rd 0]
  | .EBREAK => opF3 0b1110011 0b000 ++ [funct12 1, rs1 0, rd 0]
  | .CSRRW => opF3 0b1110011 0b001
  | .CSRRS => opF3 0b1110011 0b010
  | .CSRRC => opF3 0b1110011 0b011
  | .CSRRWI => opF3 0b1110011 0b101
  | .CSRRSI => opF3 0b1110011 0b110
  | .CSRRCI => opF3 0b1110011 0b111
  | .BEQ => opF3 0b1100011 0b000
  | .BNE => opF3 0b1100011 0b001
  | .BLT => opF3 0b1100011 0b100
  | .BGE => opF3 0b1100011 0b101
  | .BLTU => opF3 0b1100011 0b110
  | .BGEU => opF3 0b1100011 0b111
  | .SB => opF3 0b0100011 0b000
  | .SH => opF3 0b0100011 0b001
  | .SW => opF3 0b0100011 0b010
  | .SD => opF3 0b0100011 0b011
  | .JAL => [opcode 0b1101111]
  | .JALR => opF3 0b1100111 0b000
  | .LUI => [opcode 0b0110111]
  | .AUIPC => [opcode 0b0010111]
  | .ADD => opF3F7 0b0110011 0b000 0b0000000
  | .SUB => opF3F7 0b0110011 0b000 0b0100000
  | .SLL => opF3F7 0b0110011 0b001 0b0000000
  | .SLT => opF3F7 0b0110011 0b010 0b0000000
  | .SLTU => opF3F7 0b0110011 0b011 0b0000000
  | .XOR => opF3F7 0b0110011 0b100 0b0000000
  | .SRL => opF3F7 0b0110011 0b101 0b0000000
  | .SRA => opF3F7 0b0110011 0b101 0b0100000
  | .OR => opF3F7 0b0110011 0b110 0b0000000
  | .AND => opF3F7 0b0110011 0b111 0b0000000
  | .ADDW => opF3F7 0b0111011 0b000 0b0000000
  | .SUBW => opF3F7 0b0111011 0b000 0b0100000
  | .SLLW => opF3F7 0b0111011 0b001 0b0000000
  | .SRLW => opF3F7 0b0111011 0b101 0b0000000
  | .SRAW => opF3F7 0b0111011 0b101 0b0100000
  | .MUL => opF3F7 0b0110011 0b000 0b0000001
  | .MULH => opF3F7 0b0110011 0b001 0b0000001
  | .MULHSU => opF3F7 0b0110011 0b010 0b0000001
  | .MULHU => opF3F7 0b0110011 0b011 0b0000001
  | .DIV => opF3F7 0b0110011 0b100 0b0000001
  | .DIVU => opF3F7 0b0110011 0b101 0b0000001
  | .REM => opF3F7 0b0110011 0b110 0b0000001
  | .REMU => opF3F7 0b0110011 0b111 0b0000001
  | .MULW => opF3F7 0b0111011 0b000 0b0000001
  | .DIVW => opF3F7 0b0111011 0b100 0b0000001
  | .DIVUW => opF3F7 0b0111011 0b101 0b0000001
  | .REMW => opF3F7 0b0111011 0b110 0b0000001
  | .REMUW => opF3F7 0b0111011 0b111 0b0000001
  | .LRW => amoBits 0b010 0b00010 ++ [rs2 0]
  | .SCW => amoBits 0b010 0b00011
  | .AMOSWAPW => amoBits 0b010 0b00001
  | .AMOADDW => amoBits 0b010 0b00000
  | .AMOXORW => amoBits 0b010 0b00100
  | .AMOANDW => amoBits 0b010 0b01100
  | .AMOORW => amoBits 0b010 0b01000
  | .AMOMINW => amoBits 0b010 0b10000
  | .AMOMAXW => amoBits 0b010 0b10100
  | .AMOMINUW => amoBits 0b010 0b11000
  | .AMOMAXUW => amoBits 0b010 0b11100
  | .LRD => amoBits 0b011 0b00010 ++ [rs2 0]
  | .SCD => amoBits 0b011 0b00011
  | .AMOSWAPD => amoBits 0b011 0b00001
  | .AMOADDD => amoBits 0b011 0b00000
  | .AMOXORD => amoBits 0b011 0b00100
  | .AMOANDD => amoBits 0b011 0b01100
  | .AMOORD => amoBits 0b011 0b01000
  | .AMOMIND => amoBits 0b011 0b10000
  | .AMOMAXD => amoBits 0b011 0b10100
  | .AMOMINUD => amoBits 0b011 0b11000
  | .AMOMAXUD => amoBits 0b011 0b11100
  | .SRET => [wholeWord 0x10200073]
  | .MRET => [wholeWord 0x30200073]
  | .FLW => opF3 0b0000111 0b010
  | .FSW => opF3 0b0100111 0b010
  | .FMADDS => [opcode 0b1000011, funct2 0b00]
  | .FMSUBS => [opcode 0b1000111, funct2 0b00]
  | .FNMSUBS => [opcode 0b1001011, funct2 0b00]
  | .FNMADDS => [opcode 0b1001111, funct2 0b00]
  | .FADDS => fpBits 0b0000000
  | .FSUBS => fpBits 0b0000100
  | .FMULS => fpBits 0b0001000
  | .FDIVS => fpBits 0b0001100
  | .FSQRTS => fpBits 0b0101100 ++ [rs2 0]
  | .FSGNJS => opF3F7 0b1010011 0b000 0b0010000
  | .FSGNJNS => opF3F7 0b1010011 0b001 0b0010000
  | .FSGNJXS => opF3F7 0b1010011 0b010 0b0010000
  | .FMINS => opF3F7 0b1010011 0b000 0b0010100
  | .FMAXS => opF3F7 0b1010011 0b001 0b0010100
  | .FEQS => opF3F7 0b1010011 0b010 0b1010000
  | .FLTS => opF3F7 0b1010011 0b001 0b1010000
  | .FLES => opF3F7 0b1010011 0b000 0b1010000
  | .FCLASSS => opF3F7 0b1010011 0b001 0b1110000 ++ [rs2 0]
  | .FMVXW => opF3F7 0b1010011 0b000 0b1110000 ++ [rs2 0]
  | .FMVWX => opF3F7 0b1010011 0b000 0b1111000 ++ [rs2 0]
  | .FCVTWS => fpBits 0b1100000 ++ [rs2 0]
  | .FCVTWUS => fpBits 0b1100000 ++ [rs2 1]
  | .FCVTLS => fpBits 0b1100000 ++ [rs2 2]
  | .FCVTLUS => fpBits 0b1100000 ++ [rs2 3]
  | .FCVTSW => fpBits 0b1101000 ++ [rs2 0]
  | .FCVTSWU => fpBits 0b1101000 ++ [rs2 1]
  | .FCVTSL => fpBits 0b1101000 ++ [rs2 2]
  | .FCVTSLU => fpBits 0b1101000 ++ [rs2 3]
  | .XXX => []

/-- The word has the fixed bits of the mnemonic. -/
def Fits (w : U32) (n : IName) : Prop := ∀ b ∈ fixedBits n, b.MetBy w

instance (w : U32) (n : IName) : Decidable (Fits w n) := List.decidableBAll _ _

/-! ## What the decoder leaves out -/

/-- The fixed fields that the walks of the decoder do not look at. -/
def unread : IName → List Fixed
  | .ECALL | .EBREAK => [rs1 0, rd 0]
  | .LRW | .LRD | .FSQRTS | .FCLASSS | .FMVXW | .FMVWX => [rs2 0]
  | _ => []

def compared (n : IName) : List Fixed := (fixedBits n).filter fun b => b ∉ unread n

/-- The word has the fixed bits of the mnemonic, as far as the decoder looks. -/
def Accepts (w : U32) (n : IName) : Prop := ∀ b ∈ compared n, b.MetBy w

instance (w : U32) (n : IName) : Decidable (Accepts w n) := List.decidableBAll _ _

/-- **The words that the decoder takes for an instruction that they are not**: they differ from
it in a field that the decoder leaves out. -/
def Overaccepted (w : U32) : Prop := ∃ n, Accepts w n ∧ ¬ Fits w n

lemma Fits.accepts {w : U32} {n : IName} (h : Fits w n) : Accepts w n :=
  fun b hb => h b (List.mem_of_mem_filter hb)

/-- Where the decoder leaves nothing out, it is exact. -/
lemma Accepts.fits {w : U32} {n : IName} (h : Accepts w n) (hn : unread n = []) : Fits w n := by
  intro b hb
  exact h b (List.mem_filter.mpr ⟨hb, by simp [hn]⟩)

/-- Every mnemonic but `XXX` asks for a word whose last two bits are set. -/
lemma Accepts.lowBits {w : U32} {n : IName} (h : Accepts w n) (hn : n ≠ .XXX) :
    w.extractLsb' 0 2 = 0b11 := by
  have htable : ∀ n ∈ IName.all, n ≠ .XXX → ∃ b ∈ compared n,
      b.lo = 0 ∧ 2 ≤ b.len ∧ b.value.extractLsb' 0 2 = 0b11 := by decide +kernel
  obtain ⟨b, hb, hlo, hlen, hval⟩ := htable n n.mem_all hn
  have hmet := h b hb
  rw [Fixed.MetBy, hlo] at hmet
  rw [← hval, ← hmet, BitFields.extractLsb'_extractLsb' w 0 b.len 0 2 hlen]

end Vemu
