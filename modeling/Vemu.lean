import Vemu.MMU.Admission
import Vemu.MMU.DirtyBlocks
import Vemu.MMU.AccessControl
import Vemu.MMU.Representation
import Vemu.MMU.Strings
import Vemu.Decoder.Encode
import Vemu.Decoder.EncodeFloat
import Vemu.Decoder.Total
import Vemu.Decoder.Sound
import Vemu.Reception
import Vemu.Files.Reads
import Vemu.Files.Positions
import Vemu.Files.Status
import Vemu.Files.Closing
import Vemu.Fork
import Vemu.Allocation
import Vemu.Separation
import Vemu.LoadFailure
import Vemu.CodeFetch
import Vemu.Trap.Return
import Vemu.Trap.Privilege
import Vemu.Trap.Interrupts
import Vemu.Trap.Signal
import Vemu.Trap.Alignment
import Vemu.Trap.Causes
import Vemu.ControlRegisters
import Vemu.Atomics.ReadModifyWrite
import Vemu.Atomics.Faults
import Vemu.Atomics.Reservation
import Vemu.Refinement.Multiplication
import Vemu.Startup.Image
import Vemu.Startup.Segments
import Vemu.HostSafety.Rounds
import Vemu.HostSafety.ExitStatus
import Vemu.HostSafety.Overflow
import Vemu.Fuzz.Locks
import Vemu.Fuzz.RoundTrip
import Vemu.Fuzz.Generator
import Vemu.Startup.StackPointer
import Vemu.Softfloat.Addressing
import Vemu.Softfloat.Fused
import Vemu.Softfloat.Signs
import Vemu.Softfloat.Flags
import Vemu.MemoryTrace
import Vemu.Integrity
import Vemu.DeviceRegisters
import Vemu.Decoder.Recode
import Vemu.Refinement.Fill
import Vemu.Refinement.Follows
import Vemu.Processes
import Vemu.MMU.Shown
import Vemu.Softfloat.Registers
import Vemu.Softfloat.Numbers
