import Vemu.Defs

/-!
# The devices on the bus

The core-local interruptor, the interrupt controller and the serial port.  The first two are a
few 64-bit registers that can only be accessed as double words, the serial port is an array of
bytes that can only be accessed byte by byte.  An access of another size reports an access
fault and does nothing; an access of the right size at an address without a register reads zero
and writes nothing.

The serial port has a second party, a thread that waits for a character, waits until the guest
has taken the one before, and stores it; `UART.receive` is that thread's last step.
-/

namespace Vemu

/-! ## CLINT -/

structure CLINT where
  mtime : U64
  mtimecmp : U64

namespace CLINT

def new : CLINT := ⟨0, 0⟩

def load64 (d : CLINT) (addr : U64) : U64 :=
  if addr = clintMtimecmp then d.mtimecmp
  else if addr = clintMtime then d.mtime
  else 0

def store64 (d : CLINT) (addr data : U64) : CLINT :=
  if addr = clintMtimecmp then { d with mtimecmp := data }
  else if addr = clintMtime then { d with mtime := data }
  else d

def load (d : CLINT) (addr : U64) (sz : ℕ) : U64 × ReturnException :=
  if sz = 64 then (d.load64 addr, .NormalExecutionReturn) else (0, .LoadAccessFault)

def store (d : CLINT) (addr value : U64) (sz : ℕ) : ReturnException × CLINT :=
  if sz = 64 then (.NormalExecutionReturn, d.store64 addr value) else (.StoreAMOAccessFault, d)

end CLINT

/-! ## PLIC -/

structure PLIC where
  pending : U64
  senable : U64
  spriority : U64
  sclaim : U64

namespace PLIC

def new : PLIC := ⟨0, 0, 0, 0⟩

def load64 (d : PLIC) (addr : U64) : U64 :=
  if addr = plicPending then d.pending
  else if addr = plicSenable then d.senable
  else if addr = plicSpriority then d.spriority
  else if addr = plicSclaim then d.sclaim
  else 0

def store64 (d : PLIC) (addr data : U64) : PLIC :=
  if addr = plicPending then { d with pending := data }
  else if addr = plicSenable then { d with senable := data }
  else if addr = plicSpriority then { d with spriority := data }
  else if addr = plicSclaim then { d with sclaim := data }
  else d

def load (d : PLIC) (addr : U64) (sz : ℕ) : U64 × ReturnException :=
  if sz = 64 then (d.load64 addr, .NormalExecutionReturn) else (0, .LoadAccessFault)

def store (d : PLIC) (addr value : U64) (sz : ℕ) : ReturnException × PLIC :=
  if sz = 64 then (.NormalExecutionReturn, d.store64 addr value) else (.StoreAMOAccessFault, d)

end PLIC

/-! ## UART -/

structure UART where
  uartMem : U8 → U8
  interrupting : Bool

namespace UART

/-- The index of an address of the window. -/
def index (addr : U64) : U8 := (addr - uartBase).setWidth 8

/-- The constructor, which leaves `interrupting` alone. -/
def new (interrupting : Bool) : UART where
  uartMem := Function.update (fun _ => 0) (index uartLsr) uartLsrTx
  interrupting := interrupting

/-- The copy constructor. -/
def copy (other : UART) : UART := { other with interrupting := false }

def load8 (d : UART) (addr : U64) : U64 × UART :=
  let lsr := d.uartMem (index uartLsr)
  let d :=
    if addr = uartRhr then
      { d with uartMem := Function.update d.uartMem (index uartLsr) (lsr &&& ~~~uartLsrRx) }
    else d
  ((d.uartMem (index addr)).setWidth 64, d)

/-- A byte written to the transmit register is printed and not kept. -/
def store8 (d : UART) (addr value : U64) : UART :=
  if addr = uartThr then d
  else { d with uartMem := Function.update d.uartMem (index addr) (value.setWidth 8) }

def load (d : UART) (addr : U64) (sz : ℕ) : (U64 × ReturnException) × UART :=
  if sz = 8 then
    let (v, d) := d.load8 addr
    ((v, .NormalExecutionReturn), d)
  else ((0, .LoadAccessFault), d)

def store (d : UART) (addr value : U64) (sz : ℕ) : ReturnException × UART :=
  if sz = 8 then (.NormalExecutionReturn, d.store8 addr value) else (.StoreAMOAccessFault, d)

/-- Reads the flag and clears it. -/
def isInterrupting (d : UART) : Bool × UART := (d.interrupting, { d with interrupting := false })

/-- The reading thread stores a character, once the receive bit is clear. -/
def receive (d : UART) (c : U8) : UART :=
  let lsr := d.uartMem (index uartLsr)
  if lsr &&& uartLsrRx = 1 then d
  else
    let mem := Function.update d.uartMem (index uartRhr) c
    { d with uartMem := Function.update mem (index uartLsr) (lsr ||| uartLsrRx) }

end UART

end Vemu
