import Vemu.Handlers.Integer

/-!
# The system calls of the fuzzing build

In the fuzzing build `ECALL` is the operating system.  The number of the call is in `a7`, its
arguments are in `a0` to `a2`, and its result goes to `a0`.  A file is read into memory once, when
it is opened; `read` copies from there and `lseek` moves the position.

A number that is not known stops the process.
-/

namespace Vemu

open Fallible

namespace VEmu

/-! ## The table of open files -/

/-- Changes the first entry that fits. -/
def updateFirst (p : FileHandle → Bool) (g : FileHandle → FileHandle) :
    List FileHandle → List FileHandle
  | [] => []
  | fh :: t => if p fh then g fh :: t else fh :: updateFirst p g t

/-- The bytes of a C string. -/
def cString (p : List U8) : List U8 := p.takeWhile (· ≠ 0)

/-- `count` bytes of a buffer.  A null pointer has none. -/
def slice (data : Option (List U8)) (idx count : U64) : Except Fault (List U8) := do
  check .lengthError (count.toNat ≤ MMU.maxVectorSize)
  let buffer ← orFault .outOfBounds data
  check .outOfBounds (idx.toNat + count.toNat ≤ buffer.length)
  return (buffer.drop idx.toNat).take count.toNat

/-! ## The calls -/

def sysBrk : Handler := fun s => do
  let addr := s.loadReg regA0
  let increment := if addr = 0 then 0 else addr - s.bus.mmu.allocPtr
  if increment.slt 0 then normal (s.storeReg regA0 (-1))
  else
    let (retBase, mmu) ← s.bus.mmu.allocate increment
    normal ((s.withMmu mmu).storeReg regA0 (retBase + increment))

/-- What `brk` adds to the pointer, as a signed number. -/
def brkIncrement (s : VEmu) : U64 :=
  if s.loadReg regA0 = 0 then 0 else s.loadReg regA0 - s.bus.mmu.allocPtr

/-- The branch that rejects the call. -/
def rejectsBrk (s : VEmu) : Bool := s.brkIncrement.slt 0

lemma sysBrk_eq (s : VEmu) :
    sysBrk s
      = if s.rejectsBrk then normal (s.storeReg regA0 (-1))
        else s.bus.mmu.allocate s.brkIncrement >>= fun r =>
          normal ((s.withMmu r.2).storeReg regA0 (r.1 + s.brkIncrement)) := rfl

/-- Nothing is printed: `VERBOSE_OUTPUT` is off. -/
def sysWrite : Handler := fun s => normal (s.storeReg regA0 (s.loadReg regA2))

/-- The assertion on the descriptor comes before the branch that handles its failure. -/
def sysOpen (host : Host) : Handler := fun s => do
  let pathname := s.loadReg regA0
  let flags := s.loadReg regA1
  let p ← s.bus.mmu.readNullTerminatedString pathname
  let file ← orFault .assertFailed (host.openFile s.hostCalls (cString p) (flags.setWidth 32))
  check .assertFailed (host.malloc (file.size + 1))
  -- the terminator goes to index `size` of `size + 1` bytes, of which there are none at -1
  check .outOfBounds (file.size + 1 ≠ 0)
  check .outOfBounds (host.malloc (BitVec.ofNat 64 p.length + 1))
  let buffer := (List.range file.size.toNat).map file.contents ++ [0]
  let fh := ⟨some buffer, some (cString p), file.fd, file.size, 0, .DiskFile⟩
  let s := { s with fileTable := s.fileTable ++ [fh], hostCalls := s.hostCalls + 1 }
  normal (s.storeReg regA0 (file.fd.signExtend 64))

def sysClose : Handler := fun s =>
  let fd := (s.loadReg regA0).setWidth 32
  if s.fileTable.any (·.fd = fd) then
    normal { s with fileTable := s.fileTable.eraseP (·.fd = fd) }
  else normal (s.exitEmu 12)

def sysExit : Handler := fun s =>
  let exitCode : U32 := (s.loadReg regA0).setWidth 32
  normal (s.exitEmu ((exitCode.srem 255).setWidth 8))

/-- The structure that `fstat` writes, field by field in the order of memory.  `junk` is what
the fields that are not assigned hold. -/
def statBytes (fd len : U64) (junk : ℕ → U8) : List U8 :=
  let stdout := fd = 1
  let uninit (at_ n : ℕ) : List U8 := (List.range n).map fun k => junk (at_ + k)
  MMU.split 8 (if stdout then 0x18 else 0x802)                  -- dev
    ++ MMU.split 8 (if stdout then 0x3 else 0x22068c)           -- ino
    ++ MMU.split 4 (if stdout then 0x2190 else 0x81fd)          -- mode
    ++ MMU.split 4 0x1                                          -- nlink
    ++ MMU.split 4 0x3e8                                        -- uid
    ++ MMU.split 4 (if stdout then 0x5 else 0x3e8)              -- gid
    ++ MMU.split 8 (if stdout then 0x8800 else 0x0)             -- rdev
    ++ uninit 40 8
    ++ MMU.split 8 (if stdout then 0x0 else len)                -- size
    ++ MMU.split 4 (if stdout then 0x400 else 0x1000)           -- blksize
    ++ uninit 60 4
    ++ MMU.split 8 (if stdout then 0x0 else len / 0x1000)       -- blocks
    ++ MMU.split 8 0x6440824f ++ uninit 80 8                    -- atime
    ++ MMU.split 8 0x6440824a ++ uninit 96 8                    -- mtime
    ++ MMU.split 8 0x6440824a ++ uninit 112 8                   -- ctime
    ++ uninit 120 8

/-- The length is the one of the last entry of the table. -/
def sysFstat (host : Host) : Handler := fun s => do
  let fd := s.loadReg regA0
  let statbuf := s.loadReg regA1
  check .assertFailed (s.fileTable.any (·.fd = fd.setWidth 32))
  let last ← orFault .outOfBounds s.fileTable.getLast?
  let bytes := statBytes fd last.len (host.uninitialised s.hostCalls)
  let mmu ← s.bus.mmu.writeFrom bytes statbuf
  let s := { s.withMmu mmu with hostCalls := s.hostCalls + 1 }
  normal (s.storeReg regA0 0)

/-- The position that `lseek` asks for. -/
def seekIdx (fh : FileHandle) (offset whence : U64) : Except Fault U64 :=
  if whence = 0 then .ok offset
  else if whence = 1 then .ok (fh.idx + offset)
  else if whence = 2 then .ok (fh.len + offset)
  else .error .assertFailed

def sysLseek : Handler := fun s =>
  let file := s.loadReg regA0
  let offset := s.loadReg regA1
  let whence := s.loadReg regA2
  let here := fun (fh : FileHandle) => decide (fh.fd.signExtend 64 = file)
  match s.fileTable.find? here with
  | some fh => do
      let idx ← seekIdx fh offset whence
      let s := { s with fileTable := updateFirst here (fun fh => { fh with idx := idx }) s.fileTable }
      normal (s.storeReg regA0 idx)
  | none => normal (s.storeReg regA0 (-1))

/-- How many bytes `read` copies. -/
def readCount (fh : FileHandle) (count : U64) : U64 :=
  if fh.len ≤ fh.idx + count then fh.len - fh.idx else count

/-- At the end of the file `a0` is left alone. -/
def sysRead : Handler := fun s =>
  let fd := s.loadReg regA0
  let buf := s.loadReg regA1
  let here := fun (fh : FileHandle) => decide (fh.fd.signExtend 64 = fd)
  match s.fileTable.find? here with
  | some fh => do
      let count := readCount fh (s.loadReg regA2)
      if count = 0 then normal s
      else
        let data ← slice fh.data fh.idx count
        let files := updateFirst here (fun fh => { fh with idx := fh.idx + count }) s.fileTable
        let mmu ← s.bus.mmu.writeFrom data buf
        let s := { s.withMmu mmu with fileTable := files }
        normal (s.storeReg regA0 count)
  | none => .error .assertFailed

def ecallFuzz (host : Host) : Handler := fun s =>
  let nr := s.loadReg regA7
  if nr = syscallNrBrk then sysBrk s
  else if nr = syscallNrWrite then sysWrite s
  else if nr = syscallNrOpen then sysOpen host s
  else if nr = syscallNrClose then sysClose s
  else if nr = syscallNrExit then sysExit s
  else if nr = syscallNrFstat then sysFstat host s
  else if nr = syscallNrLseek then sysLseek s
  else if nr = syscallNrRead then sysRead s
  else .error .exitFailure

end VEmu

end Vemu
