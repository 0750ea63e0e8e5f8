import Vemu.Defs

/-!
# The handler table

`init_func_map` maps every mnemonic it lists to the method of the same name, so the table is
given by its list of mnemonics.  It is a member of the emulator, filled by three of its four
constructors.
-/

namespace Vemu

def initFuncMap : List IName :=
  [ .LB, .LH, .LW, .LBU, .LHU, .LD, .LWU, .ADDI, .ADDIW, .SLTI, .SLTIU, .XORI, .ORI, .OR, .ANDI,
    .AND, .SLLI, .SRLI, .SRA, .SRAI, .SLLIW, .SRLIW, .SRAIW, .SRAW, .SRLW, .FENCE, .FENCEI,
    .ECALL, .EBREAK, .CSRRW, .CSRRS, .CSRRC, .CSRRWI, .CSRRSI, .CSRRCI, .BEQ, .BNE, .BLT, .BGE,
    .BLTU, .BGEU, .SB, .SH, .SW, .SD, .ADD, .ADDW, .SUB, .SUBW, .SLL, .SLLW, .SLT, .SLTU, .XOR,
    .SRL, .SRLW, .LUI, .AUIPC, .JAL, .JALR, .MUL, .MULH, .MULHSU, .MULHU, .DIV, .DIVU, .REM,
    .REMU, .MULW, .DIVW, .DIVUW, .REMW, .REMUW, .AMOSWAPW, .AMOADDW, .AMOXORW, .AMOANDW, .AMOORW,
    .AMOMINW, .AMOMAXW, .AMOMINUW, .AMOMAXUW, .LRW, .SCW, .AMOSWAPD, .AMOADDD, .AMOXORD, .AMOANDD,
    .AMOORD, .AMOMIND, .AMOMAXD, .AMOMINUD, .AMOMAXUD, .LRD, .SCD, .MRET, .SRET, .FLW, .FSW,
    .FMADDS, .FMSUBS, .FNMSUBS, .FNMADDS, .FADDS, .FSUBS, .FMULS, .FDIVS, .FSGNJS, .FSGNJNS,
    .FSGNJXS, .FMINS, .FMAXS, .FCVTWS, .FCVTWUS, .FMVXW, .FEQS, .FLTS, .FLES, .FCVTSW, .FCVTSWU,
    .FMVWX, .FCVTLS, .FCVTLUS, .FCVTSL, .FCVTSLU, .FCLASSS, .XXX ]

/-- The one mnemonic without a handler. -/
lemma mem_initFuncMap (n : IName) : n ∈ initFuncMap ↔ n ≠ .FSQRTS := by
  have h : ∀ n ∈ IName.all, (n ∈ initFuncMap ↔ n ≠ .FSQRTS) := by decide +kernel
  exact h n n.mem_all

end Vemu
