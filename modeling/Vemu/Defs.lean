import Mathlib.Tactic.IntervalCases
import Mathlib.Tactic.Linarith
import Mathlib.Tactic.Positivity
import Mathlib.Tactic.Ring

/-!
# Words, enumerations and constants

Machine integers are bit vectors of the width of the C++ type; a signed and an unsigned type of
one width share the bit vector, and each use says which order or extension it means.  Register
numbers are five bits wide and CSR numbers twelve, which is what the decoder's masks and the
CSR instructions' `0xFFF` leave of the `uint8_t` and `uint64_t` that carry them.

`Fault` collects the ways in which the *host* process stops instead of the guest: a failing
assertion, an exception nobody catches, an access outside a buffer, a call of `exit`.
-/

namespace Vemu

abbrev U8 := BitVec 8
abbrev U32 := BitVec 32
abbrev U64 := BitVec 64
abbrev Reg := BitVec 5
abbrev CsrAddr := BitVec 12

/-- The executables of the build file: `emu`, `fuzz_emu` (with `FUZZ_ENV`) and `test_emu` (with
`TEST_ENV`).  All three are taken without `SUPPORT_SOFTFLOAT`, except in `Vemu.Softfloat`. -/
inductive Build
  | emu | fuzz | test
  deriving DecidableEq, Repr

/-- How the host process stops. -/
inductive Fault
  /-- A failing `assert`. -/
  | assertFailed
  /-- `std::out_of_range`, from `std::map::at`. -/
  | outOfRange
  /-- `std::bad_function_call`, from an empty `std::function`. -/
  | badFunctionCall
  /-- `std::length_error`, from a `std::vector` that would be too long. -/
  | lengthError
  /-- An access outside the buffer it is made in. -/
  | outOfBounds
  /-- A shift by at least the width of its operand. -/
  | badShift
  /-- A remainder by zero. -/
  | divisionByZero
  /-- `exit(EXIT_FAILURE)`. -/
  | exitFailure
  deriving DecidableEq, Repr

/-- The mnemonics, in the order of the enumeration, which is the order its maps are walked in. -/
inductive IName
  | LB | LH | LW | LBU | LHU | LD | LWU | ADDI | ADDW | ADDIW | SLTI | SLTIU | XORI
  | ORI | ANDI | SLLI | SRLI | SRAI | SLLIW | SRLIW | SRAIW | FENCE | FENCEI | ECALL
  | EBREAK | CSRRW | CSRRS | CSRRC | CSRRWI | CSRRSI | CSRRCI | BEQ | BNE | BLT | BGE
  | BLTU | BGEU | SB | SH | SW | SD | ADD | SUB | SUBW | SLL | SLLW | SLT | SLTU
  | XOR | SRL | SRLW | SRA | SRAW | OR | AND | JAL | JALR | LUI | AUIPC | MUL | MULH
  | MULHSU | MULHU | DIV | DIVU | REM | REMU | MULW | DIVW | DIVUW | REMW | REMUW
  | LRW | SCW | AMOSWAPW | AMOADDW | AMOXORW | AMOANDW | AMOORW | AMOMINW | AMOMAXW
  | AMOMINUW | AMOMAXUW | LRD | SCD | AMOSWAPD | AMOADDD | AMOXORD | AMOANDD | AMOORD
  | AMOMIND | AMOMAXD | AMOMINUD | AMOMAXUD | SRET | MRET | FLW | FSW | FMADDS | FMSUBS
  | FNMSUBS | FNMADDS | FADDS | FSUBS | FMULS | FDIVS | FSQRTS | FSGNJS | FSGNJNS
  | FSGNJXS | FMINS | FMAXS | FCVTWS | FCVTWUS | FMVXW | FEQS | FLTS | FLES | FCLASSS
  | FCVTSW | FCVTSWU | FMVWX | FCVTLS | FCVTLUS | FCVTSL | FCVTSLU | XXX
  deriving DecidableEq, Repr

/-- The value of the enumerator. -/
def IName.rank (n : IName) : ℕ := n.ctorIdx

/-- All mnemonics, in order. -/
def IName.all : List IName :=
  [ .LB, .LH, .LW, .LBU, .LHU, .LD, .LWU, .ADDI, .ADDW, .ADDIW, .SLTI, .SLTIU, .XORI, .ORI, .ANDI,
    .SLLI, .SRLI, .SRAI, .SLLIW, .SRLIW, .SRAIW, .FENCE, .FENCEI, .ECALL, .EBREAK, .CSRRW, .CSRRS,
    .CSRRC, .CSRRWI, .CSRRSI, .CSRRCI, .BEQ, .BNE, .BLT, .BGE, .BLTU, .BGEU, .SB, .SH, .SW, .SD,
    .ADD, .SUB, .SUBW, .SLL, .SLLW, .SLT, .SLTU, .XOR, .SRL, .SRLW, .SRA, .SRAW, .OR, .AND, .JAL,
    .JALR, .LUI, .AUIPC, .MUL, .MULH, .MULHSU, .MULHU, .DIV, .DIVU, .REM, .REMU, .MULW, .DIVW,
    .DIVUW, .REMW, .REMUW, .LRW, .SCW, .AMOSWAPW, .AMOADDW, .AMOXORW, .AMOANDW, .AMOORW, .AMOMINW,
    .AMOMAXW, .AMOMINUW, .AMOMAXUW, .LRD, .SCD, .AMOSWAPD, .AMOADDD, .AMOXORD, .AMOANDD, .AMOORD,
    .AMOMIND, .AMOMAXD, .AMOMINUD, .AMOMAXUD, .SRET, .MRET, .FLW, .FSW, .FMADDS, .FMSUBS, .FNMSUBS,
    .FNMADDS, .FADDS, .FSUBS, .FMULS, .FDIVS, .FSQRTS, .FSGNJS, .FSGNJNS, .FSGNJXS, .FMINS, .FMAXS,
    .FCVTWS, .FCVTWUS, .FMVXW, .FEQS, .FLTS, .FLES, .FCLASSS, .FCVTSW, .FCVTSWU, .FMVWX, .FCVTLS,
    .FCVTLUS, .FCVTSL, .FCVTSLU, .XXX ]

lemma IName.all_rank (n : IName) : IName.all[n.rank]? = some n := by
  cases n <;> rfl

lemma IName.mem_all (n : IName) : n ∈ IName.all :=
  List.mem_of_getElem? n.all_rank

/-- Privilege modes. -/
inductive Mode
  | User | Supervisor | Machine
  deriving DecidableEq, Repr

/-- What an instruction handler or a bus access reports. -/
inductive ReturnException
  | InstructionAddressMisaligned | InstructionAccessFault | IllegalInstruction
  | InstructionAddressBreakpoint | LoadAddressMisaligned | LoadAccessFault
  | StoreAMOAddressMisaligned | StoreAMOAccessFault | EnvironmentCallFromUserMode
  | EnvironmentCallFromSupervisorMode | EnvironmentCallFromMachineMode | InstructionPageFault
  | LoadPageFault | StoreAMOPageFault | ReadMemoryWithNoPermission | UninitializedMemoryAccess
  | NormalExecutionReturn
  deriving DecidableEq, Repr

/-- The value of the enumerator, which `trap` writes to the cause register. -/
def ReturnException.code : ReturnException → U8
  | .InstructionAddressMisaligned => 0
  | .InstructionAccessFault => 1
  | .IllegalInstruction => 2
  | .InstructionAddressBreakpoint => 3
  | .LoadAddressMisaligned => 4
  | .LoadAccessFault => 5
  | .StoreAMOAddressMisaligned => 6
  | .StoreAMOAccessFault => 7
  | .EnvironmentCallFromUserMode => 8
  | .EnvironmentCallFromSupervisorMode => 9
  | .EnvironmentCallFromMachineMode => 11
  | .InstructionPageFault => 12
  | .LoadPageFault => 13
  | .StoreAMOPageFault => 15
  | .ReadMemoryWithNoPermission => 253
  | .UninitializedMemoryAccess => 254
  | .NormalExecutionReturn => 255

inductive Interrupt
  | UserSoftwareInterrupt | SupervisorSoftwareInterrupt | MachineSoftwareInterrupt
  | UserTimerInterrupt | SupervisorTimerInterrupt | MachineTimerInterrupt
  | UserExternalInterrupt | SupervisorExternalInterrupt | MachineExternalInterrupt
  | NoInterrupt
  deriving DecidableEq, Repr

/-- The value of the enumerator. -/
def Interrupt.code : Interrupt → U64
  | .UserSoftwareInterrupt => 0
  | .SupervisorSoftwareInterrupt => 1
  | .MachineSoftwareInterrupt => 3
  | .UserTimerInterrupt => 4
  | .SupervisorTimerInterrupt => 5
  | .MachineTimerInterrupt => 7
  | .UserExternalInterrupt => 8
  | .SupervisorExternalInterrupt => 9
  | .MachineExternalInterrupt => 11
  | .NoInterrupt => 255

/-! ## Byte permissions and blocks -/

def permExec : U8 := 1
def permWrite : U8 := 2
def permRead : U8 := 4
def permRaw : U8 := 8

def blockSize : U64 := 4096

/-! ## Device windows -/

def clintBase : U64 := 0x2000000
def clintSize : U64 := 0x10000
def clintMtimecmp : U64 := clintBase + 0x4000
def clintMtime : U64 := clintBase + 0xbff8

def plicBase : U64 := 0xc000000
def plicSize : U64 := 0x4000000
def plicPending : U64 := plicBase + 0x1000
def plicSenable : U64 := plicBase + 0x2080
def plicSpriority : U64 := plicBase + 0x201000
def plicSclaim : U64 := plicBase + 0x201004

def uartBase : U64 := 0x10000000
def uartSize : U64 := 0x100
def uartRhr : U64 := uartBase + 0
def uartThr : U64 := uartBase + 0
def uartLsr : U64 := uartBase + 5
def uartLsrRx : U8 := 1
def uartLsrTx : U8 := 0x20
def uartIrq : U32 := 10

/-! ## Control and status registers -/

def mstatus : CsrAddr := 0x300
def misa : CsrAddr := 0x301
def medeleg : CsrAddr := 0x302
def mideleg : CsrAddr := 0x303
def mie : CsrAddr := 0x304
def mtvec : CsrAddr := 0x305
def mepc : CsrAddr := 0x341
def mcause : CsrAddr := 0x342
def mtval : CsrAddr := 0x343
def mip : CsrAddr := 0x344

def sstatus : CsrAddr := 0x100
def sie : CsrAddr := 0x104
def stvec : CsrAddr := 0x105
def sepc : CsrAddr := 0x141
def scause : CsrAddr := 0x142
def stval : CsrAddr := 0x143

def fflags : CsrAddr := 0x001

def sstatusSiePos : ℕ := 1
def sstatusSpiePos : ℕ := 5
def sstatusSppPos : ℕ := 8
def mstatusMiePos : ℕ := 3
def mstatusMpiePos : ℕ := 7

def mipSsipPos : ℕ := 1
def mipMsipPos : ℕ := 3
def mipStipPos : ℕ := 5
def mipMtipPos : ℕ := 7
def mipSeipPos : ℕ := 9
def mipMeipPos : ℕ := 11

/-! ## Registers and system calls -/

def regSp : Reg := 2
def regA0 : Reg := 10
def regA1 : Reg := 11
def regA2 : Reg := 12
def regA7 : Reg := 17

def syscallNrClose : U64 := 57
def syscallNrLseek : U64 := 62
def syscallNrRead : U64 := 63
def syscallNrWrite : U64 := 64
def syscallNrFstat : U64 := 80
def syscallNrExit : U64 := 93
def syscallNrBrk : U64 := 214
def syscallNrOpen : U64 := 1024

end Vemu
