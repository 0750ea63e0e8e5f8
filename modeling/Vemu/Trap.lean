import Vemu.Handlers.Atomic
import Vemu.Handlers.System
import Vemu.Handlers.Syscalls

/-!
# Traps and interrupts

Exceptions and interrupts enter a handler of the supervisor, when they are delegated and come
from below machine mode, or of the machine.  `trap` and `take_interrupt` share that entry; they
differ in the cause and in the address of the handler.

The masks of the source are 32 bits wide and are extended with zeros, so that they clear the
upper half of what they are applied to.  The delegation registers are shifted by the cause; a
cause of 64 or more has no such shift.
-/

namespace Vemu

namespace VEmu

/-- `1U << pos`. -/
def bit32 (pos : ℕ) : U64 := ((1 : U32) <<< pos).setWidth 64

/-- `~(1U << pos)`, which also clears the upper half. -/
def allBut32 (pos : ℕ) : U64 := (~~~((1 : U32) <<< pos)).setWidth 64

/-! ## Entering a handler -/

/-- One bit of a register is copied to another place of it, or cleared there. -/
def saveBit (c : Csrs) (addr : CsrAddr) (pos dest : ℕ) : Csrs :=
  if c.bit addr pos then c.setBits addr (bit32 dest) else c.keepBits addr (allBut32 dest)

/-- The status register is entered with the enable bit saved and cleared. -/
def enterStatus (c : Csrs) (status : CsrAddr) (enable saved : ℕ) : Csrs :=
  (saveBit c status enable saved).keepBits status (allBut32 enable)

def supervisorEntry (c : Csrs) (prevMode : Mode) (exceptionPc cause : U64) : Csrs :=
  let c := c.storeCsr sepc (exceptionPc &&& allBut32 0)
  let c := c.storeCsr scause cause
  let c := c.storeCsr stval 0
  let c := enterStatus c sstatus sstatusSiePos sstatusSpiePos
  if prevMode = .User then c.keepBits sstatus (allBut32 sstatusSppPos)
  else c.setBits sstatus (bit32 sstatusSppPos)

def machineEntry (c : Csrs) (prevMode : Mode) (exceptionPc cause : U64) : Csrs :=
  let c := c.storeCsr mepc (exceptionPc &&& allBut32 0)
  let c := c.storeCsr mcause cause
  let c := c.storeCsr mtval 0
  let c := enterStatus c mstatus mstatusMiePos mstatusMpiePos
  match prevMode with
  | .User => c.keepBits mstatus ((~~~((0b11 : U32) <<< 11)).setWidth 64)
  | .Supervisor => (c.keepBits mstatus (allBut32 12)).setBits mstatus (bit32 11)
  | .Machine => c.setBits mstatus (((0b11 : U32) <<< 11).setWidth 64)

def enterSupervisor (s : VEmu) (cause handler : U64) : VEmu :=
  { s with
    mode := .Supervisor, pc := handler - 4, csrs := supervisorEntry s.csrs s.mode s.pc cause }

def enterMachine (s : VEmu) (cause handler : U64) : VEmu :=
  { s with mode := .Machine, pc := handler - 4, csrs := machineEntry s.csrs s.mode s.pc cause }

/-- The bit of the delegation register that belongs to the cause. -/
def delegated (s : VEmu) (cause : U64) : Except Fault Bool :=
  if cause.toNat < 64 then .ok (s.csrs.bit medeleg cause.toNat) else .error .badShift

/-! ## Exceptions -/

/-- The fuzzing build does not trap. -/
def trap (build : Build) (s : VEmu) (e : ReturnException) : Except Fault VEmu :=
  if build = .fuzz then .ok s
  else do
    let cause := e.code.setWidth 64
    let doDeleg ← s.delegated cause
    if s.mode ≠ .Machine ∧ doDeleg then
      return s.enterSupervisor cause (s.csrs.loadCsr stvec &&& allBut32 0)
    else return s.enterMachine cause (s.csrs.loadCsr mtvec &&& allBut32 0)

def isFatal (e : ReturnException) : Bool :=
  e = .LoadAccessFault || e = .InstructionAccessFault || e = .InstructionAddressMisaligned
    || e = .StoreAMOAddressMisaligned || e = .StoreAMOAccessFault

/-- What the loop of `run` does with an outcome: it traps unless it is a normal return, and stops
the process if it is fatal. -/
def afterwards (build : Build) (s : VEmu) (e : ReturnException) : Except Fault VEmu :=
  if e = .NormalExecutionReturn then .ok s
  else do
    let s ← s.trap build e
    if isFatal e then .error .exitFailure else return s

/-! ## Interrupts -/

/-- The handler of an interrupt: the base, or in vectored mode the entry of the cause. -/
def vectored (tvec cause : U64) : U64 :=
  (tvec &&& allBut32 0) + (if tvec &&& 1 ≠ 0 then 4 * cause else 0)

def takeInterrupt (s : VEmu) (i : Interrupt) : Except Fault VEmu := do
  let cause := (1 <<< 63) ||| i.code
  let doDeleg ← s.delegated cause
  if s.mode ≠ .Machine ∧ doDeleg then
    return s.enterSupervisor cause (vectored (s.csrs.loadCsr stvec) cause)
  else return s.enterMachine cause (vectored (s.csrs.loadCsr mtvec) cause)

/-- The interrupts in the order they are looked for, with their bits. -/
def interruptOrder : List (ℕ × Interrupt) :=
  [ (mipMeipPos, .MachineExternalInterrupt), (mipMsipPos, .MachineSoftwareInterrupt),
    (mipMtipPos, .MachineTimerInterrupt), (mipSeipPos, .SupervisorExternalInterrupt),
    (mipSsipPos, .SupervisorSoftwareInterrupt), (mipStipPos, .SupervisorTimerInterrupt) ]

/-- Whether the mode's global enable bit keeps interrupts out. -/
def interruptsOff (s : VEmu) : Bool :=
  (s.mode = .Machine && !s.csrs.bit mstatus mstatusMiePos)
    || (s.mode = .Supervisor && !s.csrs.bit sstatus sstatusSiePos)

/-- An interrupt of the serial port is recorded.  The store to the claim register has its data
and its size exchanged. -/
def pollUart (s : VEmu) : Except Fault VEmu := do
  let (irq, bus) ← s.bus.uartIsInterrupting
  let s := { s with bus := bus }
  if irq then
    let (_, s) ← s.store plicSclaim 32 uartIrq.toNat
    return { s with csrs := s.csrs.setBits mip (bit32 mipSeipPos) }
  else return s

def checkPendingInterrupt (s : VEmu) : Except Fault (Interrupt × VEmu) := do
  if s.interruptsOff then return (.NoInterrupt, s)
  else
    let s ← s.pollUart
    let pending := s.csrs.loadCsr mie &&& s.csrs.loadCsr mip
    match interruptOrder.find? fun (pos, _) => pending &&& bit32 pos ≠ 0 with
    | some (pos, i) => return (i, { s with csrs := s.csrs.keepBits mip (allBut32 pos) })
    | none => return (.NoInterrupt, s)

end VEmu

end Vemu
