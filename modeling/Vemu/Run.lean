import Vemu.Trap

/-!
# The loop of the emulator

`iterate` is one round of the loop of `run`: the exit flag, the interrupts, the fetch, the
decoder, the handler, and the four bytes that the loop adds to the program counter.  A round
either returns from `run` or goes on with another state; a fault ends the process.  The same loop
calls other methods in a build with `SUPPORT_SOFTFLOAT`, so the methods are an argument
(`iterateWith`).
-/

namespace Vemu

namespace VEmu

/-! ## Dispatch -/

/-- The method of a mnemonic. -/
def handler (host : Host) : IName → Handler
  | .LB => LB | .LH => LH | .LW => LW | .LBU => LBU | .LHU => LHU | .LD => LD | .LWU => LWU
  | .ADDI => ADDI | .ADDIW => ADDIW | .SLTI => SLTI | .SLTIU => SLTIU | .XORI => XORI
  | .ORI => ORI | .ANDI => ANDI | .SLLI => SLLI | .SRLI => SRLI | .SRAI => SRAI
  | .SLLIW => SLLIW | .SRLIW => SRLIW | .SRAIW => SRAIW
  | .FENCE => FENCE | .FENCEI => FENCEI
  | .ECALL =>
      match host.build with
      | .fuzz => ecallFuzz host
      | .test => ecallTest
      | .emu => ecallEmu
  | .EBREAK => EBREAK
  | .CSRRW => CSRRW | .CSRRS => CSRRS | .CSRRC => CSRRC
  | .CSRRWI => CSRRWI | .CSRRSI => CSRRSI | .CSRRCI => CSRRCI
  | .BEQ => BEQ | .BNE => BNE | .BLT => BLT | .BGE => BGE | .BLTU => BLTU | .BGEU => BGEU
  | .SB => SB | .SH => SH | .SW => SW | .SD => SD
  | .ADD => ADD | .ADDW => ADDW | .SUB => SUB | .SUBW => SUBW | .SLL => SLL | .SLLW => SLLW
  | .SLT => SLT | .SLTU => SLTU | .XOR => XOR | .SRL => SRL | .SRLW => SRLW | .SRA => SRA
  | .SRAW => SRAW | .OR => OR | .AND => AND
  | .JAL => JAL | .JALR => JALR | .LUI => LUI | .AUIPC => AUIPC
  | .MUL => MUL | .MULH => MULH | .MULHSU => MULHSU | .MULHU => MULHU
  | .DIV => DIV | .DIVU => DIVU | .REM => REM | .REMU => REMU
  | .MULW => MULW | .DIVW => DIVW | .DIVUW => DIVUW | .REMW => REMW | .REMUW => REMUW
  | .LRW => LRW | .SCW => SCW | .AMOSWAPW => AMOSWAPW | .AMOADDW => AMOADDW
  | .AMOXORW => AMOXORW | .AMOANDW => AMOANDW | .AMOORW => AMOORW | .AMOMINW => AMOMINW
  | .AMOMAXW => AMOMAXW | .AMOMINUW => AMOMINUW | .AMOMAXUW => AMOMAXUW
  | .LRD => LRD | .SCD => SCD | .AMOSWAPD => AMOSWAPD | .AMOADDD => AMOADDD
  | .AMOXORD => AMOXORD | .AMOANDD => AMOANDD | .AMOORD => AMOORD | .AMOMIND => AMOMIND
  | .AMOMAXD => AMOMAXD | .AMOMINUD => AMOMINUD | .AMOMAXUD => AMOMAXUD
  | .SRET => SRET | .MRET => MRET
  | .FLW => FLW | .FSW => FSW | .FMADDS => FMADDS | .FMSUBS => FMSUBS | .FNMSUBS => FNMSUBS
  | .FNMADDS => FNMADDS | .FADDS => FADDS | .FSUBS => FSUBS | .FMULS => FMULS | .FDIVS => FDIVS
  | .FSQRTS => FSQRTS | .FSGNJS => FSGNJS | .FSGNJNS => FSGNJNS | .FSGNJXS => FSGNJXS
  | .FMINS => FMINS | .FMAXS => FMAXS | .FCVTWS => FCVTWS | .FCVTWUS => FCVTWUS
  | .FMVXW => FMVXW | .FEQS => FEQS | .FLTS => FLTS | .FLES => FLES | .FCLASSS => FCLASSS
  | .FCVTSW => FCVTSW | .FCVTSWU => FCVTSWU | .FMVWX => FMVWX | .FCVTLS => FCVTLS
  | .FCVTLUS => FCVTLUS | .FCVTSL => FCVTSL | .FCVTSLU => FCVTSLU
  | .XXX => XXX

/-- `inst_funcs[name](this)`, for the methods of a build.  A mnemonic without an entry has an empty
function. -/
def dispatchWith (methods : IName → Handler) (n : IName) : Handler := fun s =>
  if n ∈ s.instFuncs then methods n s else .error .badFunctionCall

def dispatch (host : Host) (n : IName) : Handler := dispatchWith (handler host) n

/-! ## One round -/

/-- `get_4byte_aligned_instr(pc)`.  The test build fetches over the bus. -/
def fetch (host : Host) (s : VEmu) : Except Fault ((U32 × ReturnException) × VEmu) := do
  if host.build = .test then
    let ((w, exp), s) ← s.load s.pc 32
    return ((w.setWidth 32, exp), s)
  else
    let r ← s.bus.mmu.loadInsn s.pc
    return (r, s)

/-- The instruction word is decoded by the process's decoder. -/
def decodeInto (s : VEmu) (w : U32) : Except Fault VEmu := do
  let (r, decoder) := s.decoder.decode w
  let ins ← r
  return { s with hexInstr := w, currInstr := ins, decoder := decoder }

/-- Fetch, decode, and the call of the handler. -/
def executeWith (methods : IName → Handler) (host : Host) : Handler := fun s => do
  let ((w, exp), s) ← s.fetch host
  let s ← s.afterwards host.build exp
  let s ← s.decodeInto w
  dispatchWith methods s.currInstr.name s

def execute (host : Host) (s : VEmu) : Except Fault (ReturnException × VEmu) :=
  executeWith (handler host) host s

/-- The interrupts of a round. -/
def poll (host : Host) (s : VEmu) : Except Fault VEmu := do
  if host.build = .fuzz then return s
  else
    let (i, s) ← s.checkPendingInterrupt
    if i = .NoInterrupt then return s else s.takeInterrupt i

/-- How a round ends. -/
inductive Turn
  | returned (code : U32)
  | next (s : VEmu)

def Turn.code : Turn → Option U32
  | .returned code => some code
  | .next _ => none

def Turn.state : Turn → Option VEmu
  | .returned _ => none
  | .next s => some s

def iterateWith (methods : IName → Handler) (host : Host) (s : VEmu) : Except Fault Turn := do
  if s.hasExited then return .returned (s.exitCode.setWidth 32)
  else
    let s ← s.poll host
    if host.build = .test ∧ s.testFlagDone then return .returned 0
    else
      let (exp, s) ← executeWith methods host s
      let s ← s.afterwards host.build exp
      return .next { s with pc := s.pc + 4 }

def iterate (host : Host) (s : VEmu) : Except Fault Turn := iterateWith (handler host) host s

/-- **`VEmu::run`**, for at most the given number of rounds. -/
def run (host : Host) : ℕ → VEmu → Except Fault Turn
  | 0, s => .ok (.next s)
  | rounds + 1, s => do
      match ← s.iterate host with
      | .returned code => return .returned code
      | .next s => run host rounds s

end VEmu

end Vemu
