import Vemu.Handlers.Integer

/-!
# The handlers of Zicsr, the trap returns and F

Without `SUPPORT_SOFTFLOAT` every float handler returns before it does anything.
-/

namespace Vemu

namespace VEmu

/-! ## CSR instructions -/

def csrAddr (s : VEmu) : CsrAddr := (s.imm32 &&& 0xFFF).setWidth 12

/-- The old value of the register goes to `rd`, `f` of the old value and the operand to the
register. -/
def csrModify (operand : VEmu → U64) (f : U64 → U64 → U64) : Handler := fun s =>
  let csrVal := s.csrs.loadCsr s.csrAddr
  let s := { s with csrs := s.csrs.storeCsr s.csrAddr (f csrVal (operand s)) }
  normal (s.storeReg s.rd csrVal)

/-- The operand of the instructions with an immediate is the number in the `rs1` column. -/
def uimm (s : VEmu) : U64 := s.rs1.setWidth 64

def CSRRW : Handler := csrModify (fun s => s.loadReg s.rs1) fun _ src => src
def CSRRS : Handler := csrModify (fun s => s.loadReg s.rs1) fun old src => old ||| src
def CSRRC : Handler := csrModify (fun s => s.loadReg s.rs1) fun old src => old &&& Csrs.logicalNot src
def CSRRWI : Handler := csrModify uimm fun _ src => src
def CSRRSI : Handler := csrModify uimm fun old src => old ||| src
def CSRRCI : Handler := csrModify uimm fun old src => old &&& Csrs.logicalNot src

/-! ## Trap returns -/

/-- The new mode of `MRET`.  The last number was meant to be binary. -/
def mretMode (mb : U64) : Except Fault Mode :=
  if mb = 0x00 then .ok .User
  else if mb = 0x01 then .ok .Supervisor
  else if mb = 0x11 then .ok .Machine
  else .error .assertFailed

/-- A return copies the saved enable bit back, sets the saved one and clears the saved mode. -/
def returnStatus (c : Csrs) (status : CsrAddr) (enable saved : ℕ) (prevMode : U64) : Csrs :=
  let c :=
    if c.bit status saved then c.setBits status (1 <<< enable)
    else c.keepBits status (~~~(1 <<< enable))
  let c := c.setBits status (1 <<< saved)
  c.keepBits status (~~~prevMode)

def MRET : Handler := fun s => do
  let mode ← mretMode ((s.csrs.loadCsr mstatus >>> 11) &&& 0b11)
  normal { s with
    pc := s.csrs.loadCsr mepc - 4, mode := mode
    csrs := returnStatus s.csrs mstatus 3 7 (0b11 <<< 11) }

def SRET : Handler := fun s =>
  normal { s with
    pc := s.csrs.loadCsr sepc - 4
    mode := if s.csrs.bit sstatus 8 then .Supervisor else .User
    csrs := returnStatus s.csrs sstatus 1 5 (1 <<< 8) }

def EBREAK : Handler := fun s => .ok (.InstructionAddressBreakpoint, s)

/-- `XXX` prints the word. -/
def XXX : Handler := fun s => .ok (.IllegalInstruction, s)

/-! ## Environment calls outside the fuzzer -/

/-- Ends the test, after printing how it went. -/
def ecallTest : Handler := fun s => normal { s with testFlagDone := true }

def ecallEmu : Handler := fun s =>
  match s.mode with
  | .User => .ok (.EnvironmentCallFromUserMode, s)
  | .Supervisor => .ok (.EnvironmentCallFromSupervisorMode, s)
  | .Machine => .ok (.EnvironmentCallFromMachineMode, s)

/-! ## F -/

/-- Every float handler, without `SUPPORT_SOFTFLOAT`. -/
def noSoftfloat : Handler := fun s => .ok (.IllegalInstruction, s)

def FLW : Handler := noSoftfloat
def FSW : Handler := noSoftfloat
def FMADDS : Handler := noSoftfloat
def FMSUBS : Handler := noSoftfloat
def FNMSUBS : Handler := noSoftfloat
def FNMADDS : Handler := noSoftfloat
def FADDS : Handler := noSoftfloat
def FSUBS : Handler := noSoftfloat
def FMULS : Handler := noSoftfloat
def FDIVS : Handler := noSoftfloat
def FSQRTS : Handler := noSoftfloat
def FSGNJS : Handler := noSoftfloat
def FSGNJNS : Handler := noSoftfloat
def FSGNJXS : Handler := noSoftfloat
def FMINS : Handler := noSoftfloat
def FMAXS : Handler := noSoftfloat
def FCVTWS : Handler := noSoftfloat
def FCVTWUS : Handler := noSoftfloat
def FMVXW : Handler := noSoftfloat
def FEQS : Handler := noSoftfloat
def FLTS : Handler := noSoftfloat
def FLES : Handler := noSoftfloat
def FCLASSS : Handler := noSoftfloat
def FCVTSW : Handler := noSoftfloat
def FCVTSWU : Handler := noSoftfloat
def FMVWX : Handler := noSoftfloat
def FCVTLS : Handler := noSoftfloat
def FCVTLUS : Handler := noSoftfloat
def FCVTSL : Handler := noSoftfloat
def FCVTSLU : Handler := noSoftfloat

end VEmu

end Vemu
