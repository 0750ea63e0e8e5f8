import Vemu.Loader
import Vemu.Lib.Recording

/-!
# A ledger of the allocations

What the allocator handed out and where its pointer has been is known to no member of the
emulator.  Here the constructors and the `brk` call are written once more, line by line, with a
ledger on the side: `allocate` enters the range it returns, and the loading of a segment, which
may move the pointer, where the pointer was.

`history_erases`: without the ledger they are the constructors and the call themselves.
-/

namespace Vemu

open Fallible Recording

/-- The ranges that were handed out, each as its base and its size, and the values the pointer
had before every change, both in the order of time. -/
structure Ledger where
  ranges : List (ℕ × ℕ)
  past : List ℕ

namespace Ledger

def empty : Ledger := ⟨[], []⟩

def moved (l : Ledger) (m : MMU) : Ledger where
  ranges := l.ranges
  past := l.past ++ [m.allocPtr.toNat]

def allocated (l : Ledger) (m : MMU) (base size : U64) : Ledger where
  ranges := l.ranges ++ [(base.toNat, size.toNat)]
  past := l.past ++ [m.allocPtr.toNat]

end Ledger

abbrev Noting (α : Type) : Type := StateT Ledger (Except Fault) α

namespace MMU

def allocateNoting (m : MMU) (size : U64) : Noting (U64 × MMU) := do
  let r ← m.allocate size
  modify fun l => l.allocated m r.1 size
  return r

def loadSegmentNoting (m : MMU) (seg : MemorySegment) : Noting MMU := do
  let m' ← m.loadSegment seg
  modify fun l => l.moved m
  return m'

def loadFileNoting (m : MMU) (info : FileInfo) : Noting MMU :=
  info.segments.foldlM loadSegmentNoting m

end MMU

namespace VEmu

/-! ## The constructors -/

def loadImageNoting (s : VEmu) (bytes : List U8) : Noting VEmu := do
  let codeSize := BitVec.ofNat 64 bytes.length
  let alignedCodeSize := (codeSize + 0xFFFF) &&& ~~~0xFFFF
  let (base, mmu) ← s.bus.mmu.allocateNoting alignedCodeSize
  let mmu ← mmu.setPerms base codeSize permWrite
  let mmu ← mmu.writeFrom bytes base
  let mmu ← mmu.setPerms base codeSize (permExec ||| permRead)
  return { s.withMmu mmu with codeSize := codeSize, pc := base }

def readFileNoting (host : Host) (s : VEmu) : Noting VEmu := do
  let content ← orFault Fault.exitFailure (host.readFile s.binFileName)
  s.loadImageNoting content

def ofFileNoting (host : Host) (junk : Junk) (decoder : InstructionDecoder) (hostCalls : ℕ)
    (fName : List U8) (startPc memSize : U64) : Noting VEmu := do
  let s ← blank host junk decoder hostCalls fName startPc memSize
  if fName = [] then return s else s.readFileNoting host

def ofBytesNoting (host : Host) (junk : Junk) (decoder : InstructionDecoder) (hostCalls : ℕ)
    (bytes : List U8) (startPc memSize : U64) : Noting VEmu := do
  let s ← ofFileNoting host junk decoder hostCalls [] startPc memSize
  s.loadImageNoting bytes

def pushStringNoting (s : VEmu) (arg : List U8) : Noting VEmu := do
  let (argval, mmu) ← s.bus.mmu.allocateNoting 256
  let s ← (s.withMmu mmu).writeStringToAddr arg argval
  s.pushToStack argval 64

def ofInfoNoting (host : Host) (junk : Junk) (decoder : InstructionDecoder) (hostCalls : ℕ)
    (info : FileInfo) (args : List (List U8)) (memSize : U64) : Noting VEmu := do
  let s ← ofFileNoting host junk decoder hostCalls [] info.entryPoint memSize
  let mmu ← s.bus.mmu.loadFileNoting info
  let (stackBase, mmu) ← mmu.allocateNoting stackSize
  let s := { s.withMmu mmu with binFileName := info.fileName }
  let s := s.storeReg regSp (stackBase + stackSize)
  let s ← s.pushToStack 0 64
  let s ← s.pushToStack 0 64
  let s ← s.pushToStack 0 64
  let s ← args.reverse.foldlM pushStringNoting s
  let s ← s.pushStringNoting info.fileName
  s.pushToStack (BitVec.ofNat 64 args.length + 1) 64

/-- What an emulator is made from. -/
inductive Source
  | file (fName : List U8) (startPc : U64)
  | bytes (content : List U8) (startPc : U64)
  | image (info : FileInfo) (args : List (List U8))

/-- The segments that are loaded. -/
def Source.segments : Source → List MemorySegment
  | .file _ _ => []
  | .bytes _ _ => []
  | .image info _ => info.segments

def construct (host : Host) (junk : Junk) (decoder : InstructionDecoder) (hostCalls : ℕ)
    (memSize : U64) : Source → Except Fault VEmu
  | .file fName startPc => ofFile host junk decoder hostCalls fName startPc memSize
  | .bytes content startPc => ofBytes host junk decoder hostCalls content startPc memSize
  | .image info args => ofInfo host junk decoder hostCalls info args memSize

def constructNoting (host : Host) (junk : Junk) (decoder : InstructionDecoder) (hostCalls : ℕ)
    (memSize : U64) : Source → Noting VEmu
  | .file fName startPc => ofFileNoting host junk decoder hostCalls fName startPc memSize
  | .bytes content startPc => ofBytesNoting host junk decoder hostCalls content startPc memSize
  | .image info args => ofInfoNoting host junk decoder hostCalls info args memSize

/-! ## The heap break -/

/-- The registers of a `brk` call. -/
def asksBrk (s : VEmu) (addr : U64) : VEmu :=
  (s.storeReg regA7 syscallNrBrk).storeReg regA0 addr

/-- `ECALL` with the number of `brk` in `a7`. -/
def brk (host : Host) (s : VEmu) (addr : U64) : Except Fault VEmu := do
  let r ← ecallFuzz host (s.asksBrk addr)
  return r.2

def sysBrkNoting (s : VEmu) : Noting (ReturnException × VEmu) := do
  let addr := s.loadReg regA0
  let increment := if addr = 0 then 0 else addr - s.bus.mmu.allocPtr
  if increment.slt 0 then normal (s.storeReg regA0 (-1))
  else
    let (retBase, mmu) ← s.bus.mmu.allocateNoting increment
    normal ((s.withMmu mmu).storeReg regA0 (retBase + increment))

def brkNoting (s : VEmu) (addr : U64) : Noting VEmu := do
  let r ← sysBrkNoting (s.asksBrk addr)
  return r.2

/-- An emulator is made, and then its program asks for memory. -/
def history (host : Host) (junk : Junk) (decoder : InstructionDecoder) (hostCalls : ℕ)
    (memSize : U64) (src : Source) (addrs : List U64) : Except Fault VEmu := do
  let s ← construct host junk decoder hostCalls memSize src
  addrs.foldlM (brk host) s

def historyNoting (host : Host) (junk : Junk) (decoder : InstructionDecoder) (hostCalls : ℕ)
    (memSize : U64) (src : Source) (addrs : List U64) : Noting VEmu := do
  let s ← constructNoting host junk decoder hostCalls memSize src
  addrs.foldlM brkNoting s

end VEmu

/-! ## Without the ledger -/

namespace MMU

lemma allocate_erases (m : MMU) (size : U64) :
    Erases (m.allocateNoting size) (m.allocate size) := by
  rw [← bind_pure (m.allocate size)]
  exact erases_bind (erases_lift _) fun r => erases_modify_pure _ r

lemma loadSegment_erases (m : MMU) (seg : MemorySegment) :
    Erases (m.loadSegmentNoting seg) (m.loadSegment seg) := by
  rw [← bind_pure (m.loadSegment seg)]
  exact erases_bind (erases_lift _) fun m' => erases_modify_pure _ m'

lemma loadFile_erases (m : MMU) (info : FileInfo) :
    Erases (m.loadFileNoting info) (m.loadFile info) :=
  erases_foldlM loadSegment_erases info.segments m

end MMU

namespace VEmu

lemma loadImage_erases (s : VEmu) (bytes : List U8) :
    Erases (s.loadImageNoting bytes) (s.loadImage bytes) := by
  refine erases_bind (MMU.allocate_erases _ _) fun (base, mmu) => ?_
  refine erases_bind (erases_lift _) fun mmu => ?_
  refine erases_bind (erases_lift _) fun mmu => ?_
  exact erases_bind (erases_lift _) fun mmu => erases_pure _

lemma readFile_erases (host : Host) (s : VEmu) :
    Erases (s.readFileNoting host) (s.readFile host) :=
  erases_bind (erases_lift _) fun content => loadImage_erases s content

lemma pushString_erases (s : VEmu) (arg : List U8) :
    Erases (s.pushStringNoting arg) (s.pushString arg) := by
  refine erases_bind (MMU.allocate_erases _ _) fun (argval, mmu) => ?_
  exact erases_bind (erases_lift _) fun s => erases_lift _

lemma sysBrk_erases (s : VEmu) : Erases (sysBrkNoting s) (sysBrk s) := by
  refine erases_ite (erases_lift _) ?_
  exact erases_bind (MMU.allocate_erases _ _) fun (retBase, mmu) => erases_lift _

variable (host : Host) (junk : Junk) (decoder : InstructionDecoder) (hostCalls : ℕ)

lemma ofFile_erases (fName : List U8) (startPc memSize : U64) :
    Erases (ofFileNoting host junk decoder hostCalls fName startPc memSize)
      (ofFile host junk decoder hostCalls fName startPc memSize) := by
  refine erases_bind (erases_lift _) fun s => ?_
  exact erases_ite (erases_pure s) (readFile_erases host s)

lemma ofInfo_erases (info : FileInfo) (args : List (List U8)) (memSize : U64) :
    Erases (ofInfoNoting host junk decoder hostCalls info args memSize)
      (ofInfo host junk decoder hostCalls info args memSize) := by
  refine erases_bind (ofFile_erases _ _ _ _ _ _ _) fun s => ?_
  refine erases_bind (MMU.loadFile_erases _ _) fun mmu => ?_
  refine erases_bind (MMU.allocate_erases _ _) fun (stackBase, mmu) => ?_
  refine erases_bind (erases_lift _) fun s => ?_
  refine erases_bind (erases_lift _) fun s => ?_
  refine erases_bind (erases_lift _) fun s => ?_
  refine erases_bind (erases_foldlM pushString_erases _ _) fun s => ?_
  exact erases_bind (pushString_erases _ _) fun s => erases_lift _

lemma construct_erases (memSize : U64) (src : Source) :
    Erases (constructNoting host junk decoder hostCalls memSize src)
      (construct host junk decoder hostCalls memSize src) := by
  cases src with
  | file fName startPc => exact ofFile_erases host junk decoder hostCalls fName startPc memSize
  | bytes content startPc =>
      refine erases_bind (ofFile_erases _ _ _ _ _ _ _) fun s => ?_
      exact loadImage_erases s content
  | image info args => exact ofInfo_erases host junk decoder hostCalls info args memSize

/-- The number of the call is the one of `brk`. -/
lemma brk_eq (s : VEmu) (addr : U64) :
    s.brk host addr = (sysBrk (s.asksBrk addr) >>= fun r => .ok r.2) := by
  have hnr : (s.asksBrk addr).loadReg regA7 = syscallNrBrk := by
    simp only [asksBrk, loadReg, storeReg, RegFile.loadReg, RegFile.data_storeReg]
    rfl
  rw [brk, ecallFuzz, if_pos hnr]
  rfl

lemma brk_erases (s : VEmu) (addr : U64) : Erases (s.brkNoting addr) (s.brk host addr) := by
  rw [brk_eq]
  exact erases_bind (sysBrk_erases _) fun r => erases_pure r.2

/-- **The ledger only watches.** -/
theorem history_erases (memSize : U64) (src : Source) (addrs : List U64) :
    Erases (historyNoting host junk decoder hostCalls memSize src addrs)
      (history host junk decoder hostCalls memSize src addrs) :=
  erases_bind (construct_erases host junk decoder hostCalls memSize src) fun s =>
    erases_foldlM (brk_erases host) addrs s

end VEmu

end Vemu
