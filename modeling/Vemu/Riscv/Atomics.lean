import Vemu.Riscv.Semantics

/-!
# The read-modify-write instructions

What the atomic operations of memory do to a hart.  The operation is on numbers of the width of
the access; the old value goes to a register, sign-extended.
-/

namespace Riscv

inductive RmwOp
  | SWAP | ADD | XOR | AND | OR | MIN | MAX | MINU | MAXU
  deriving DecidableEq, Repr

/-- The new value of memory. -/
def RmwOp.result {w : ℕ} : RmwOp → BitVec w → BitVec w → BitVec w
  | .SWAP, _, x => x
  | .ADD, old, x => old + x
  | .XOR, old, x => old ^^^ x
  | .AND, old, x => old &&& x
  | .OR, old, x => old ||| x
  | .MIN, old, x => if old.toInt ≤ x.toInt then old else x
  | .MAX, old, x => if old.toInt ≤ x.toInt then x else old
  | .MINU, old, x => if old.toNat ≤ x.toNat then old else x
  | .MAXU, old, x => if old.toNat ≤ x.toNat then x else old

namespace Hart

/-- The number of `n` bytes that is at an address. -/
def word (h : Hart) (addr : BitVec 64) (n : ℕ) : BitVec (8 * n) := BitVec.ofNat (8 * n) (h.read addr n)

/-- **A read-modify-write** of `n` bytes, apart from the program counter. -/
def amo (h : Hart) (op : RmwOp) (n : ℕ) (rd rs1 rs2 : BitVec 5) : Hart :=
  let old := h.word (h.x rs1) n
  { h with
    x := h.write rd (old.signExtend 64)
    mem := h.stored (h.x rs1) n ((op.result old ((h.x rs2).setWidth (8 * n))).setWidth 64) }

end Hart

end Riscv
