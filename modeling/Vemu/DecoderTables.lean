import Vemu.Instruction
import Vemu.Lib.OrderedMap

/-!
# The decoder's tables

The maps of the instruction decoder, entry by entry as the source lists them.  A mnemonic that
is listed twice keeps its first value, and a walk over a table goes in the order of the
enumeration (`OrderedMap.ofEntries`), not in the order of the listing.
-/

namespace Vemu

open OrderedMap

/-! ## Printed names -/

def instStringNames : List (IName × String) :=
  ofEntries IName.rank [
    (.LB, "LB"), (.LH, "LH"), (.LW, "LW"), (.LBU, "LBU"), (.LHU, "LHU"), (.LD, "LD"),
    (.LWU, "LWU"), (.ADDI, "ADDI"), (.ADDIW, "ADDIW"), (.SLTI, "SLTI"), (.SLTIU, "SLTIU"),
    (.XORI, "XORI"), (.ORI, "ORI"), (.OR, "OR"), (.ANDI, "ANDI"), (.AND, "AND"), (.SLLI, "SLLI"),
    (.SRLI, "SRLI"), (.SRAI, "SRAI"), (.SRA, "SRA"), (.SLLIW, "SLLIW"), (.SRLIW, "SRLIW"),
    (.SRLW, "SRLW"), (.SRAIW, "SRAIW"), (.SRAW, "SRAW"), (.FENCE, "FENCE"), (.FENCEI, "FENCEI"),
    (.ECALL, "ECALL"), (.EBREAK, "EBREAK"), (.CSRRW, "CSRRW"), (.CSRRS, "CSRRS"),
    (.CSRRC, "CSRRC"), (.CSRRWI, "CSRRWI"), (.CSRRSI, "CSRRSI"), (.CSRRCI, "CSRRCI"),
    (.BEQ, "BEQ"), (.BNE, "BNE"), (.BLT, "BLT"), (.BGE, "BGE"), (.BLTU, "BLTU"), (.BGEU, "BGEU"),
    (.SB, "SB"), (.SH, "SH"), (.SW, "SW"), (.SD, "SD"), (.ADD, "ADD"), (.ADDW, "ADDW"),
    (.SUB, "SUB"), (.SUBW, "SUBW"), (.SLL, "SLL"), (.SLLW, "SLLW"), (.SLT, "SLT"),
    (.SLTU, "SLTU"), (.XOR, "XOR"), (.SRL, "SRL"), (.SRLW, "SRLW"), (.LUI, "LUI"),
    (.AUIPC, "AUIPC"), (.JAL, "JAL"), (.JALR, "JALR"), (.MUL, "MUL"), (.MULH, "MULH"),
    (.MULHSU, "MULHSU"), (.MULHU, "MULHU"), (.DIV, "DIV"), (.DIVU, "DIVU"), (.REM, "REM"),
    (.REMU, "REMU"), (.MULW, "MULW"), (.DIVW, "DIVW"), (.DIVUW, "DIVUW"), (.REMW, "REMW"),
    (.REMUW, "REMUW"), (.LRW, "LRW"), (.SCW, "SCW"), (.AMOSWAPW, "AMOSWAPW"),
    (.AMOADDW, "AMOADDW"), (.AMOXORW, "AMOXORW"), (.AMOANDW, "AMOANDW"), (.AMOORW, "AMOORW"),
    (.AMOMINW, "AMOMINW"), (.AMOMAXW, "AMOMAXW"), (.AMOMINUW, "AMOMINUW"),
    (.AMOMAXUW, "AMOMAXUW"), (.LRD, "LRD"), (.SCD, "SCD"), (.AMOSWAPD, "AMOSWAPD"),
    (.AMOADDD, "AMOADDD"), (.AMOXORD, "AMOXORD"), (.AMOANDD, "AMOANDD"), (.AMOORD, "AMOORD"),
    (.AMOMIND, "AMOMIND"), (.AMOMAXD, "AMOMAXD"), (.AMOMINUD, "AMOMINUD"),
    (.AMOMAXUD, "AMOMAXUD"), (.SRET, "SRET"), (.MRET, "MRET"), (.FLW, "FLW"), (.FSW, "FSW"),
    (.FMADDS, "FMADDS"), (.FMSUBS, "FMSUBS"), (.FMSUBS, "FMSUBS"), (.FNMSUBS, "FNMSUBS"),
    (.FADDS, "FADDS"), (.FSUBS, "FSUBS"), (.FMULS, "FMULS"), (.FDIVS, "FDIVS"),
    (.FSQRTS, "FSQRTS"), (.FSGNJS, "FSGNJS"), (.FSGNJNS, "FSGNJNS"), (.FSGNJXS, "FSGNJXS"),
    (.FMINS, "FMINS"), (.FMAXS, "FMAXS"), (.FCVTWS, "FCVTWS"), (.FCVTWUS, "FCVTWUS"),
    (.FMVXW, "FMVXW"), (.FEQS, "FEQS"), (.FLTS, "FLTS"), (.FLES, "FLES"), (.FCLASSS, "FCLASSS"),
    (.FCVTSW, "FCVTSW"), (.FCVTSWU, "FCVTSWU"), (.FMVWX, "FMVWX"), (.FCVTLS, "FCVTLS"),
    (.FCVTLUS, "FCVTLUS"), (.FCVTLS, "FCVTLS"), (.FCVTSLU, "FCVTSLU"), (.XXX, "XXX")]

/-! ## Opcodes by format, and function codes -/

def iOpcodes : List (IName × U8) :=
  ofEntries IName.rank [
    (.LB, 0b0000011), (.LBU, 0b0000011), (.LH, 0b0000011), (.LHU, 0b0000011), (.LW, 0b0000011),
    (.LD, 0b0000011), (.LWU, 0b0000011), (.ADDI, 0b0010011), (.ADDIW, 0b0011011),
    (.SLTI, 0b0010011), (.SLTIU, 0b0010011), (.XORI, 0b0010011), (.ORI, 0b0010011),
    (.ANDI, 0b0010011), (.SLLI, 0b0010011), (.SRLI, 0b0010011), (.SRAI, 0b0010011),
    (.SLLIW, 0b0011011), (.SRLIW, 0b0011011), (.SRAIW, 0b0011011), (.JALR, 0b1100111),
    (.FENCE, 0b0001111), (.FENCEI, 0b0001111), (.ECALL, 0b1110011), (.EBREAK, 0b1110011),
    (.CSRRW, 0b1110011), (.CSRRS, 0b1110011), (.CSRRC, 0b1110011), (.CSRRWI, 0b1110011),
    (.CSRRSI, 0b1110011), (.CSRRCI, 0b1110011), (.FLW, 0b0000111)]

def rOpcodes : List (IName × U8) :=
  ofEntries IName.rank [
    (.ADD, 0b0110011), (.ADDW, 0b0111011), (.SUB, 0b0110011), (.SUBW, 0b0111011),
    (.SLL, 0b0110011), (.SLLW, 0b0111011), (.SLT, 0b0110011), (.SLTU, 0b0110011),
    (.XOR, 0b0110011), (.SRL, 0b0110011), (.SRLW, 0b0111011), (.SRA, 0b0110011),
    (.SRAW, 0b0111011), (.OR, 0b0110011), (.AND, 0b0110011), (.MUL, 0b0110011),
    (.MULH, 0b0110011), (.MULHSU, 0b0110011), (.MULHU, 0b0110011), (.DIV, 0b0110011),
    (.DIVU, 0b0110011), (.REM, 0b0110011), (.REMU, 0b0110011), (.MULW, 0b0111011),
    (.DIVW, 0b0111011), (.DIVUW, 0b0111011), (.REMW, 0b0111011), (.REMUW, 0b0111011),
    (.LRW, 0b0101111), (.SCW, 0b0101111), (.AMOSWAPW, 0b0101111), (.AMOADDW, 0b0101111),
    (.AMOXORW, 0b0101111), (.AMOANDW, 0b0101111), (.AMOORW, 0b0101111), (.AMOMINW, 0b0101111),
    (.AMOMAXW, 0b0101111), (.AMOMINUW, 0b0101111), (.AMOMAXUW, 0b0101111), (.AMOSWAPD, 0b0101111),
    (.AMOADDD, 0b0101111), (.AMOXORD, 0b0101111), (.AMOANDD, 0b0101111), (.AMOORD, 0b0101111),
    (.AMOMIND, 0b0101111), (.AMOMAXD, 0b0101111), (.AMOMINUD, 0b0101111), (.AMOMAXUD, 0b0101111),
    (.LRD, 0b0101111), (.SCD, 0b0101111), (.FADDS, 0b1010011), (.FSUBS, 0b1010011),
    (.FMULS, 0b1010011), (.FDIVS, 0b1010011), (.FSQRTS, 0b1010011), (.FSGNJS, 0b1010011),
    (.FSGNJNS, 0b1010011), (.FSGNJXS, 0b1010011), (.FMINS, 0b1010011), (.FMAXS, 0b1010011),
    (.FCVTWS, 0b1010011), (.FCVTWUS, 0b1010011), (.FMVXW, 0b1010011), (.FEQS, 0b1010011),
    (.FLTS, 0b1010011), (.FLES, 0b1010011), (.FCLASSS, 0b1010011), (.FCVTSW, 0b1010011),
    (.FCVTSWU, 0b1010011), (.FMVWX, 0b1010011), (.FCVTLS, 0b1010011), (.FCVTLUS, 0b1010011),
    (.FCVTLS, 0b1010011), (.FCVTSLU, 0b1010011)]

def r4Opcodes : List (IName × U8) :=
  ofEntries IName.rank [
    (.FMADDS, 0b1000011), (.FMSUBS, 0b1000111), (.FNMSUBS, 0b1001011), (.FNMADDS, 0b1001111),
    (.FNMADDS, 0b1001111)]

def bOpcodes : List (IName × U8) :=
  ofEntries IName.rank [
    (.BEQ, 0b1100011), (.BNE, 0b1100011), (.BLT, 0b1100011), (.BGE, 0b1100011),
    (.BLTU, 0b1100011), (.BGEU, 0b1100011)]

def sOpcodes : List (IName × U8) :=
  ofEntries IName.rank [
    (.SB, 0b0100011), (.SH, 0b0100011), (.SW, 0b0100011), (.SD, 0b0100011), (.FSW, 0b0100111)]

def jOpcodes : List (IName × U8) :=
  ofEntries IName.rank [
    (.JAL, 0b1101111)]

def uOpcodes : List (IName × U8) :=
  ofEntries IName.rank [
    (.LUI, 0b0110111), (.AUIPC, 0b0010111)]

def iFunct3 : List (IName × U8) :=
  ofEntries IName.rank [
    (.LB, 0b000), (.LH, 0b001), (.LW, 0b010), (.LBU, 0b100), (.LHU, 0b101), (.LD, 0b011),
    (.LWU, 0b110), (.ADDI, 0b000), (.ADDIW, 0b000), (.SLTI, 0b010), (.SLTIU, 0b011),
    (.XORI, 0b100), (.ORI, 0b110), (.ANDI, 0b111), (.SLLI, 0b001), (.SRLI, 0b101), (.SRAI, 0b101),
    (.SLLIW, 0b001), (.SRLIW, 0b101), (.SRAIW, 0b101), (.ECALL, 0b000), (.EBREAK, 0b000),
    (.FENCE, 0b000), (.FENCEI, 0b001), (.CSRRW, 0b001), (.CSRRS, 0b010), (.CSRRC, 0b011),
    (.CSRRWI, 0b101), (.CSRRSI, 0b110), (.CSRRCI, 0b111), (.JALR, 0b000), (.FLW, 0b010)]

def rFunct3 : List (IName × U8) :=
  ofEntries IName.rank [
    (.ADD, 0b000), (.ADDW, 0b000), (.SUB, 0b000), (.SUBW, 0b000), (.SLL, 0b001), (.SLLW, 0b001),
    (.SRLW, 0b101), (.SRAW, 0b101), (.SLT, 0b010), (.SLTU, 0b011), (.XOR, 0b100), (.SRL, 0b101),
    (.SRA, 0b101), (.OR, 0b110), (.AND, 0b111), (.LRW, 0b010), (.SCW, 0b010), (.MUL, 0b000),
    (.MULH, 0b001), (.MULHSU, 0b010), (.MULHU, 0b011), (.DIV, 0b100), (.DIVU, 0b101),
    (.REM, 0b110), (.REMU, 0b111), (.MULW, 0b000), (.DIVW, 0b100), (.DIVUW, 0b101),
    (.REMW, 0b110), (.REMUW, 0b111), (.AMOSWAPW, 0b010), (.AMOADDW, 0b010), (.AMOXORW, 0b010),
    (.AMOANDW, 0b010), (.AMOORW, 0b010), (.AMOMINW, 0b010), (.AMOMAXW, 0b010), (.AMOMINUW, 0b010),
    (.AMOMAXUW, 0b010), (.AMOSWAPD, 0b011), (.AMOADDD, 0b011), (.AMOXORD, 0b011),
    (.AMOANDD, 0b011), (.AMOORD, 0b011), (.AMOMIND, 0b011), (.AMOMAXD, 0b011), (.AMOMINUD, 0b011),
    (.AMOMAXUD, 0b011), (.LRD, 0b011), (.SCD, 0b011), (.FSGNJS, 0b000), (.FSGNJNS, 0b001),
    (.FSGNJXS, 0b010), (.FMINS, 0b000), (.FMAXS, 0b001), (.FMVXW, 0b000), (.FEQS, 0b010),
    (.FLTS, 0b001), (.FLES, 0b000), (.FCLASSS, 0b001), (.FMVWX, 0b000)]

def r4Funct2 : List (IName × U8) :=
  ofEntries IName.rank [
    (.FMADDS, 0b00), (.FMSUBS, 0b00), (.FNMSUBS, 0b00), (.FNMADDS, 0b00), (.FNMADDS, 0b00)]

def bFunct3 : List (IName × U8) :=
  ofEntries IName.rank [
    (.BEQ, 0b000), (.BNE, 0b001), (.BLT, 0b100), (.BGE, 0b101), (.BLTU, 0b110), (.BGEU, 0b111)]

def sFunct3 : List (IName × U8) :=
  ofEntries IName.rank [
    (.SB, 0b000), (.SH, 0b001), (.SW, 0b010), (.SD, 0b011), (.FSW, 0b010)]

def rFunct7 : List (IName × U8) :=
  ofEntries IName.rank [
    (.ADD, 0b0000000), (.ADDW, 0b0000000), (.SUB, 0b0100000), (.SUBW, 0b0100000),
    (.SLL, 0b0000000), (.SLLW, 0b0000000), (.SLT, 0b0000000), (.SLTU, 0b0000000),
    (.XOR, 0b0000000), (.SRL, 0b0000000), (.SRLW, 0b0000000), (.SRA, 0b0100000),
    (.SRAW, 0b0100000), (.OR, 0b0000000), (.AND, 0b0000000), (.MUL, 0b0000001),
    (.MULH, 0b0000001), (.MULHSU, 0b0000001), (.MULHU, 0b0000001), (.DIV, 0b0000001),
    (.DIVU, 0b0000001), (.REM, 0b0000001), (.REMU, 0b0000001), (.MULW, 0b0000001),
    (.DIVW, 0b0000001), (.DIVUW, 0b0000001), (.REMW, 0b0000001), (.REMUW, 0b0000001),
    (.LRW, 0b0001000), (.SCW, 0b0001100), (.AMOSWAPW, 0b0000100), (.AMOADDW, 0b0000000),
    (.AMOXORW, 0b0010000), (.AMOANDW, 0b0110000), (.AMOORW, 0b0100000), (.AMOMINW, 0b1000000),
    (.AMOMAXW, 0b1010000), (.AMOMINUW, 0b1100000), (.AMOMAXUW, 0b1110000), (.LRD, 0b0001000),
    (.SCD, 0b0001100), (.AMOSWAPD, 0b0000100), (.AMOADDD, 0b0000000), (.AMOXORD, 0b0010000),
    (.AMOANDD, 0b0110000), (.AMOORD, 0b0100000), (.AMOMIND, 0b1000000), (.AMOMAXD, 0b1010000),
    (.AMOMINUD, 0b1100000), (.AMOMAXUD, 0b1110000), (.FADDS, 0b0000000), (.FSUBS, 0b0000100),
    (.FMULS, 0b0001000), (.FDIVS, 0b0001100), (.FSQRTS, 0b0101100), (.FSGNJS, 0b0010000),
    (.FSGNJNS, 0b0010000), (.FSGNJXS, 0b0010000), (.FMINS, 0b0010100), (.FMAXS, 0b0010100),
    (.FCVTWS, 0b1100000), (.FCVTWUS, 0b1100000), (.FMVXW, 0b1110000), (.FEQS, 0b1010000),
    (.FLTS, 0b1010000), (.FLES, 0b1010000), (.FCLASSS, 0b1110000), (.FCVTSW, 0b1101000),
    (.FCVTSWU, 0b1101000), (.FMVWX, 0b1111000), (.FCVTLS, 0b1100000), (.FCVTLUS, 0b1100000),
    (.FCVTLS, 0b1101000), (.FCVTSLU, 0b1101000)]

def iFunct7 : List (IName × U8) :=
  ofEntries IName.rank [
    (.SLLI, 0b0000000), (.SRLI, 0b0000000), (.SRAI, 0b0100000), (.SLLIW, 0b0000000),
    (.SRLIW, 0b0000000), (.SRAIW, 0b0100000)]

def iFunct6 : List (IName × U8) :=
  ofEntries IName.rank [
    (.SLLI, 0b000000), (.SRLI, 0b000000), (.SRAI, 0b010000)]

end Vemu
