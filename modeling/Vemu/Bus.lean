import Vemu.Devices
import Vemu.MMU

/-!
# The bus

The bus asks its devices in turn whether the first address of an access is in their window, and
gives the access to RAM when none of them wants it.  In the fuzzing build there are no devices.
What a store to RAM reports is dropped: it is always a normal return.
-/

namespace Vemu

structure Devices where
  clint : CLINT
  plic : PLIC
  uart : UART

structure Bus where
  devices : Option Devices
  ramSize : U64
  mmu : MMU

namespace Bus

/-- The constructor.  The other arguments are what the new objects happen to hold. -/
def new (build : Build) (memSize : U64) (interrupting : Bool) (ramStorage permStorage : ℕ → U8) :
    Except Fault Bus := do
  let mmu ← MMU.new memSize ramStorage permStorage
  return { devices := if build = .fuzz then none else some ⟨.new, .new, .new interrupting⟩
           ramSize := memSize, mmu := mmu }

/-- The copy constructor, which does not mention `ram_size`. -/
def copy (other : Bus) (ramSize : U64) (ramStorage permStorage : ℕ → U8) : Bus where
  devices := other.devices.map fun d => ⟨d.clint, d.plic, d.uart.copy⟩
  ramSize := ramSize
  mmu := other.mmu.copy ramStorage permStorage

/-! ## Windows -/

/-- Whether an address is in the window of a device. -/
def inWindow (base size addr : U64) : Bool := base ≤ addr && addr < base + size

/-- Whether the bus gives an access to RAM. -/
def routesToRam (bus : Bus) (addr : U64) : Bool :=
  bus.devices.isNone
    || !(inWindow clintBase clintSize addr || inWindow plicBase plicSize addr
          || inWindow uartBase uartSize addr)

/-! ## Accesses -/

def load (bus : Bus) (addr : U64) (sz : ℕ) : Except Fault ((U64 × ReturnException) × Bus) := do
  match bus.devices with
  | some d =>
      if inWindow clintBase clintSize addr then return (d.clint.load addr sz, bus)
      else if inWindow plicBase plicSize addr then return (d.plic.load addr sz, bus)
      else if inWindow uartBase uartSize addr then
        let (r, uart) := d.uart.load addr sz
        return (r, { bus with devices := some { d with uart := uart } })
      else return (← bus.mmu.load addr sz, bus)
  | none => return (← bus.mmu.load addr sz, bus)

/-- A store to RAM. -/
def storeRam (bus : Bus) (addr data : U64) (sz : ℕ) : Except Fault (ReturnException × Bus) := do
  let (_, mmu) ← bus.mmu.store addr data sz
  return (.NormalExecutionReturn, { bus with mmu := mmu })

def store (bus : Bus) (addr data : U64) (sz : ℕ) : Except Fault (ReturnException × Bus) :=
  match bus.devices with
  | some d =>
      if inWindow clintBase clintSize addr then
        let (r, clint) := d.clint.store addr data sz
        .ok (r, { bus with devices := some { d with clint := clint } })
      else if inWindow plicBase plicSize addr then
        let (r, plic) := d.plic.store addr data sz
        .ok (r, { bus with devices := some { d with plic := plic } })
      else if inWindow uartBase uartSize addr then
        let (r, uart) := d.uart.store addr data sz
        .ok (r, { bus with devices := some { d with uart := uart } })
      else bus.storeRam addr data sz
  | none => bus.storeRam addr data sz

/-- Whether the serial port wants an interrupt.  Without devices there is no serial port to
find. -/
def uartIsInterrupting (bus : Bus) : Except Fault (Bool × Bus) :=
  match bus.devices with
  | some d =>
      let (b, uart) := d.uart.isInterrupting
      .ok (b, { bus with devices := some { d with uart := uart } })
  | none => .error .outOfBounds

end Bus

end Vemu
