import Vemu.FileInfo
import Vemu.Lib.Loop

/-!
# The memory unit

RAM, one permission byte for each byte of RAM, the set of blocks that a store has written to,
and the pointer of the bump allocator.

The two byte arrays are vectors of which the constructor only *reserves* the storage: their
size stays zero, and every access goes past it by index.  `ByteVec` therefore keeps size,
capacity and storage apart.  An access is bounded by the capacity, and a copy of the vector
takes over its first `size` elements only.

Addresses are 64 bits wide and every sum of them wraps, in the range checks as well as in the
bounds of the loops.
-/

namespace Vemu

open Fallible Loop

/-! ## Vectors of bytes -/

structure ByteVec where
  size : ℕ
  capacity : ℕ
  data : ℕ → U8

namespace ByteVec

/-- An empty vector with storage for `n` bytes.  What the storage holds is up to the host. -/
def reserve (n : ℕ) (storage : ℕ → U8) : ByteVec := ⟨0, n, storage⟩

/-- Copying a vector: its elements, and no more storage than they need. -/
def copy (v : ByteVec) (storage : ℕ → U8) : ByteVec :=
  ⟨v.size, v.size, fun k => if k < v.size then v.data k else storage k⟩

def get (v : ByteVec) (i : U64) : Except Fault U8 :=
  if i.toNat < v.capacity then .ok (v.data i.toNat) else .error .outOfBounds

def set (v : ByteVec) (i : U64) (b : U8) : Except Fault ByteVec :=
  if i.toNat < v.capacity then .ok { v with data := Function.update v.data i.toNat b }
  else .error .outOfBounds

/-- `std::fill` over `n` bytes from index `i` on.  An interval that wraps ends before it begins
and is no interval of the buffer either. -/
def fill (v : ByteVec) (i n : U64) (b : U8) : Except Fault ByteVec :=
  if n = 0 ∨ i.toNat + n.toNat ≤ v.capacity then
    .ok { v with data := mapOn (fun _ => b) v.data i.toNat n.toNat }
  else .error .outOfBounds

lemma get_of_lt {v : ByteVec} {i : U64} (h : i.toNat < v.capacity) :
    v.get i = .ok (v.data i.toNat) := if_pos h

lemma set_of_lt {v : ByteVec} {i : U64} (h : i.toNat < v.capacity) (b : U8) :
    v.set i b = .ok { v with data := Function.update v.data i.toNat b } := if_pos h

lemma fill_of_le {v : ByteVec} {i n : U64} (h : i.toNat + n.toNat ≤ v.capacity) (b : U8) :
    v.fill i n b = .ok { v with data := mapOn (fun _ => b) v.data i.toNat n.toNat } :=
  if_pos (Or.inr h)

end ByteVec

structure MMU where
  ram : ByteVec
  bytePermission : ByteVec
  dirtyBlocks : List U64
  ramSize : U64
  allocPtr : U64

namespace MMU

/-- The largest number of bytes that a vector can have. -/
def maxVectorSize : ℕ := 2 ^ 63 - 1

/-- The constructor.  The two arguments after the size are what the storage happens to hold. -/
def new (memSize : U64) (ramStorage permStorage : ℕ → U8) : Except Fault MMU := do
  check .lengthError (memSize.toNat ≤ maxVectorSize)
  return { ram := .reserve memSize.toNat ramStorage
           bytePermission := .reserve memSize.toNat permStorage
           dirtyBlocks := [], ramSize := memSize, allocPtr := 0x10000 }

/-- The copy constructor. -/
def copy (other : MMU) (ramStorage permStorage : ℕ → U8) : MMU where
  ram := other.ram.copy ramStorage
  bytePermission := other.bytePermission.copy permStorage
  dirtyBlocks := other.dirtyBlocks
  ramSize := other.ramSize
  allocPtr := other.allocPtr

/-- The assertion of all range checks: the sum of start and length, at 64 bits, is below the
size of RAM. -/
def inRange (m : MMU) (addr len : U64) : Bool := addr + len < m.ramSize

def setPerms (m : MMU) (addr size : U64) (perm : U8) : Except Fault MMU := do
  check .assertFailed (m.inRange addr size)
  let p ← m.bytePermission.fill addr size perm
  return { m with bytePermission := p }

/-- The base of the new region, and the memory with it. -/
def allocate (m : MMU) (size : U64) : Except Fault (U64 × MMU) := do
  let base := m.allocPtr
  check .assertFailed (size + base < m.ramSize)
  let m := { m with allocPtr := m.allocPtr + size }
  let m ← m.setPerms base size (permRaw ||| permWrite)
  return (base, m)

/-! ## Resetting -/

/-- Copies one block back. -/
def resetBlock (other : MMU) (ram : ByteVec) (blk : U64) : Except Fault ByteVec :=
  let startAddr := blk * blockSize
  (forRange startAddr (startAddr + blockSize)).foldlM (fun ram i => do
    let b ← other.ram.get i
    ram.set i b) ram

def resetTo (m other : MMU) : Except Fault MMU := do
  let ram ← m.dirtyBlocks.foldlM (resetBlock other) m.ram
  return { m with ram := ram, dirtyBlocks := [] }

/-! ## Ranges of bytes -/

/-- Writes a byte and, if it was uninitialised, makes it readable. -/
def writeByte (m : MMU) (i : U64) (b : U8) : Except Fault MMU := do
  let ram ← m.ram.set i b
  let p ← m.bytePermission.get i
  if p &&& permRaw ≠ 0 then
    let perm ← m.bytePermission.set i ((p ||| permRead) &&& ~~~permRaw)
    return { m with ram := ram, bytePermission := perm }
  else return { m with ram := ram }

/-- The first loop of `write_from`: whether all bytes of the range can be written. -/
def canWriteAll (m : MMU) (range : List U64) : Except Fault Bool :=
  range.foldlM (fun ok i => do
    let p ← m.bytePermission.get i
    return ok && p &&& permWrite != 0) true

def writeFrom (m : MMU) (buf : List U8) (startAddr : U64) : Except Fault MMU := do
  let len := BitVec.ofNat 64 buf.length
  check .assertFailed (m.inRange startAddr len)
  let range := forRange startAddr (startAddr + len)
  let ok ← m.canWriteAll range
  check .assertFailed ok
  range.foldlM (fun m i => do
    let b ← orFault Fault.outOfBounds buf[(i - startAddr).toNat]?
    m.writeByte i b) m

/-- The first loop of `read_to`: whether all bytes of the range can be read, and whether one of
them is uninitialised. -/
def readPerms (m : MMU) (range : List U64) : Except Fault (Bool × Bool) :=
  range.foldlM (fun acc i => do
    let p ← m.bytePermission.get i
    return (acc.1 && p &&& permRead != 0, acc.2 || p &&& permRaw != 0)) (true, false)

/-- What a load reports.  A byte that is still uninitialised counts more than one that is not
readable. -/
def readException : Bool × Bool → ReturnException
  | (_, true) => .UninitializedMemoryAccess
  | (true, false) => .NormalExecutionReturn
  | (false, false) => .ReadMemoryWithNoPermission

def readTo (m : MMU) (startAddr len : U64) : Except Fault (List U8 × ReturnException) := do
  check .assertFailed (m.inRange startAddr len)
  check .lengthError (len.toNat ≤ maxVectorSize)
  let range := forRange startAddr (startAddr + len)
  let perms ← m.readPerms range
  let bytes ← range.foldlM (fun bytes i => do
    let b ← m.ram.get i
    return bytes.set (i - startAddr).toNat b) (List.replicate len.toNat 0)
  return (bytes, readException perms)

/-! ## Loads and stores -/

/-- The number of the given bytes, the first one lowest. -/
def assemble (bytes : List U8) : U64 :=
  bytes.zipIdx.foldl (fun (res : U64) (b, k) => res ||| (b.setWidth 64).shiftLeft (8 * k)) 0

/-- The first `n` bytes of a number, the lowest first. -/
def split (n : ℕ) (data : U64) : List U8 :=
  (List.range n).map fun k => (data >>> (8 * k)).setWidth 8 &&& 0xFF

/-- The common part of `load_byte`, `load_hword`, `load_word` and `load_dword`. -/
def loadBytes (n : ℕ) (m : MMU) (addr : U64) : Except Fault (U64 × ReturnException) := do
  let (bytes, exp) ← m.readTo addr (BitVec.ofNat 64 n)
  return (assemble bytes, exp)

def loadByte : MMU → U64 → Except Fault (U64 × ReturnException) := loadBytes 1
def loadHword : MMU → U64 → Except Fault (U64 × ReturnException) := loadBytes 2
def loadWord : MMU → U64 → Except Fault (U64 × ReturnException) := loadBytes 4
def loadDword : MMU → U64 → Except Fault (U64 × ReturnException) := loadBytes 8

def load (m : MMU) (addr : U64) (sz : ℕ) : Except Fault (U64 × ReturnException) :=
  match sz with
  | 8 => m.loadByte addr
  | 16 => m.loadHword addr
  | 32 => m.loadWord addr
  | 64 => m.loadDword addr
  | _ => .error .assertFailed

/-- The common part of `store_byte`, `store_hword`, `store_word` and `store_dword`. -/
def storeBytes (n : ℕ) (m : MMU) (addr data : U64) : Except Fault MMU :=
  m.writeFrom (split n data) addr

def storeByte : MMU → U64 → U64 → Except Fault MMU := storeBytes 1
def storeHword : MMU → U64 → U64 → Except Fault MMU := storeBytes 2
def storeWord : MMU → U64 → U64 → Except Fault MMU := storeBytes 4
def storeDword : MMU → U64 → U64 → Except Fault MMU := storeBytes 8

/-- Stores and marks the block of the first byte. -/
def store (m : MMU) (addr data : U64) (sz : ℕ) : Except Fault (ReturnException × MMU) := do
  let m ← match sz with
    | 8 => m.storeByte addr data
    | 16 => m.storeHword addr data
    | 32 => m.storeWord addr data
    | 64 => m.storeDword addr data
    | _ => .error .assertFailed
  return (.NormalExecutionReturn, { m with dirtyBlocks := m.dirtyBlocks.insert (addr / blockSize) })

/-- An instruction word is fetched without any check. -/
def loadInsn (m : MMU) (addr : U64) : Except Fault (U32 × ReturnException) := do
  let b0 ← m.ram.get (addr + 0)
  let b1 ← m.ram.get (addr + 1)
  let b2 ← m.ram.get (addr + 2)
  let b3 ← m.ram.get (addr + 3)
  return ((assemble [b0, b1, b2, b3]).setWidth 32, .NormalExecutionReturn)

/-! ## Strings and program images -/

/-- The bytes from `addr` up to and including the next zero.  Every round reads one byte further
up, so that a number of rounds above the size of RAM is never used up. -/
def readStringRounds (m : MMU) : ℕ → U64 → Except Fault (List U8)
  | 0, _ => .error .assertFailed
  | rounds + 1, addr => do
      let (bytes, _) ← m.readTo addr 1
      let readChar ← orFault .outOfBounds bytes[0]?
      if readChar = 0 then return [readChar]
      else
        let rest ← readStringRounds m rounds (addr + 1)
        return readChar :: rest

def readNullTerminatedString (m : MMU) (addr : U64) : Except Fault (List U8) :=
  m.readStringRounds (m.ramSize.toNat + 1) addr

/-- The bytes of a segment in memory: cut off or filled up with zeros to its size there. -/
def segmentBytes (seg : MemorySegment) : List U8 :=
  let data := seg.data ++ List.replicate (seg.memSize.toNat - seg.data.length) 0
  data.take seg.memSize.toNat

def loadSegment (m : MMU) (seg : MemorySegment) : Except Fault MMU := do
  let m ← m.setPerms seg.startAddr seg.memSize permWrite
  let m ← m.writeFrom (segmentBytes seg) seg.startAddr
  let m ← m.setPerms seg.startAddr seg.memSize seg.perms
  let top := (seg.startAddr + seg.memSize + 0xFFFF) &&& ~~~0xFFFF
  return { m with allocPtr := if m.allocPtr < top then top else m.allocPtr }

def loadFile (m : MMU) (info : FileInfo) : Except Fault MMU :=
  info.segments.foldlM loadSegment m

end MMU

end Vemu
