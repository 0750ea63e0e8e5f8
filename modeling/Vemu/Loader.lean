import Vemu.FileInfo
import Vemu.Run

/-!
# Constructing an emulator

An emulator is made from an executable file that is read by its name, from the bytes of a
program, or from a program image and the arguments of its process; or it is copied.  Members
that a constructor does not mention hold what their storage happens to hold (`Junk`).
-/

namespace Vemu

open Fallible

/-- What the uninitialised members and the storage of the arrays happen to hold. -/
structure Junk where
  ram : ℕ → U8
  perm : ℕ → U8
  interrupting : Bool
  csrs : Csrs
  mode : Mode
  hexInstr : U32
  currInstr : Instruction
  codeSize : U64
  busRamSize : U64

/-- Everything happens to be zero. -/
def Junk.zero : Junk where
  ram := fun _ => 0
  perm := fun _ => 0
  interrupting := false
  csrs := ⟨fun _ => 0⟩
  mode := .User
  hexInstr := 0
  currInstr := ⟨.R, .LB, Fields.zero, ""⟩
  codeSize := 0
  busRamSize := 0

namespace VEmu

/-! ## From an executable file -/

/-- The extensions that `misa` announces. -/
def misaBits : U64 :=
  (1 <<< 20) ||| (1 <<< 18) ||| (1 <<< 12) ||| (1 <<< 8) ||| (1 <<< 5) ||| (1 <<< 0)

def initMisa (s : VEmu) : VEmu := { s with csrs := s.csrs.storeCsr misa misaBits }

/-- The common part of `read_file` and of the constructor from bytes: the program goes to memory
of its own, rounded up to 64 KiB, and execution starts at its first byte. -/
def loadImage (s : VEmu) (bytes : List U8) : Except Fault VEmu := do
  let codeSize := BitVec.ofNat 64 bytes.length
  let alignedCodeSize := (codeSize + 0xFFFF) &&& ~~~0xFFFF
  let (base, mmu) ← s.bus.mmu.allocate alignedCodeSize
  let mmu ← mmu.setPerms base codeSize permWrite
  let mmu ← mmu.writeFrom bytes base
  let mmu ← mmu.setPerms base codeSize (permExec ||| permRead)
  return { s.withMmu mmu with codeSize := codeSize, pc := base }

def readFile (host : Host) (s : VEmu) : Except Fault VEmu := do
  let content ← orFault .exitFailure (host.readFile s.binFileName)
  s.loadImage content

/-- The emulator before any program is loaded.  The decoder and the number of questions are
those of the process. -/
def blank (host : Host) (junk : Junk) (decoder : InstructionDecoder) (hostCalls : ℕ)
    (fName : List U8) (startPc memSize : U64) : Except Fault VEmu := do
  let bus ← Bus.new host.build memSize junk.interrupting junk.ram junk.perm
  let s : VEmu :=
    { instFuncs := initFuncMap, binFileName := fName
      csrs := if host.build = .fuzz then junk.csrs else ⟨fun _ => 0⟩
      mode := if host.build = .fuzz then .Machine else .User
      bus := bus, iregs := .new, fregs := fun _ => 0
      hexInstr := junk.hexInstr, currInstr := junk.currInstr
      pc := startPc, codeSize := junk.codeSize, ramSize := memSize
      fileTable := standardFiles, hasExited := false, exitCode := 0, testFlagDone := false
      decoder := decoder, hostCalls := hostCalls }
  return if host.build = .fuzz then s else s.initMisa

/-- `VEmu(f_name, pc, mem_size)`. -/
def ofFile (host : Host) (junk : Junk) (decoder : InstructionDecoder) (hostCalls : ℕ)
    (fName : List U8) (startPc memSize : U64) : Except Fault VEmu := do
  let s ← blank host junk decoder hostCalls fName startPc memSize
  if fName = [] then return s else s.readFile host

/-! ## From bytes -/

/-- `VEmu(bytes, pc, mem_size)`. -/
def ofBytes (host : Host) (junk : Junk) (decoder : InstructionDecoder) (hostCalls : ℕ)
    (bytes : List U8) (startPc memSize : U64) : Except Fault VEmu := do
  let s ← ofFile host junk decoder hostCalls [] startPc memSize
  s.loadImage bytes

/-! ## From a program image and its arguments -/

/-- What the store reports is dropped. -/
def pushToStack (s : VEmu) (data : U64) (sz : ℕ) : Except Fault VEmu := do
  let sp := s.loadReg regSp - BitVec.ofNat 64 (sz / 8)
  let (_, s) ← s.store sp data sz
  return s.storeReg regSp sp

def writeStringToAddr (s : VEmu) (arg : List U8) (addr : U64) : Except Fault VEmu := do
  let mmu ← s.bus.mmu.writeFrom (arg ++ [0]) addr
  return s.withMmu mmu

/-- A string goes to memory of its own, a pointer to it on the stack. -/
def pushString (s : VEmu) (arg : List U8) : Except Fault VEmu := do
  let (argval, mmu) ← s.bus.mmu.allocate 256
  let s ← (s.withMmu mmu).writeStringToAddr arg argval
  s.pushToStack argval 64

def stackSize : U64 := 1 * 1024 * 1024

/-- `VEmu(info, args, mem_size)`. -/
def ofInfo (host : Host) (junk : Junk) (decoder : InstructionDecoder) (hostCalls : ℕ)
    (info : FileInfo) (args : List (List U8)) (memSize : U64) : Except Fault VEmu := do
  let s ← ofFile host junk decoder hostCalls [] info.entryPoint memSize
  let mmu ← s.bus.mmu.loadFile info
  let (stackBase, mmu) ← mmu.allocate stackSize
  let s := { s.withMmu mmu with binFileName := info.fileName }
  let s := s.storeReg regSp (stackBase + stackSize)
  let s ← s.pushToStack 0 64
  let s ← s.pushToStack 0 64
  let s ← s.pushToStack 0 64
  let s ← args.reverse.foldlM pushString s
  let s ← s.pushString info.fileName
  s.pushToStack (BitVec.ofNat 64 args.length + 1) 64

/-- A program of one word, at 0x1000. -/
def oneWord (w : U32) : FileInfo where
  fileName := []
  segments := [⟨permExec ||| permRead, 0x1000, 4, 4, MMU.split 4 (w.setWidth 64), rfl⟩]
  entryPoint := 0x1000

/-! ## Copying -/

/-- **`VEmu::fork`**: the copy constructor takes over the bus, the file name, the program counter
and the size of RAM.  The register files are constructed anew, and the members with an
initialiser start from it. -/
def fork (junk : Junk) (other : VEmu) : VEmu where
  bus := other.bus.copy junk.busRamSize junk.ram junk.perm
  binFileName := other.binFileName
  pc := other.pc
  ramSize := other.ramSize
  instFuncs := []
  csrs := junk.csrs
  mode := junk.mode
  iregs := .new
  fregs := fun _ => 0
  hexInstr := junk.hexInstr
  currInstr := junk.currInstr
  codeSize := junk.codeSize
  fileTable := standardFiles
  hasExited := false
  exitCode := 0
  testFlagDone := false
  decoder := other.decoder
  hostCalls := other.hostCalls

end VEmu

end Vemu
