import Vemu.MMU.Spec
import Vemu.Lib.Transition

/-!
# Runs of memory operations

The operations that change a memory, as the steps of a run.  Resetting and loading an image are
not among them: the one is what the runs here lead up to, the other is made of them.

What an operation changes and which blocks it marks is said by its lemma of `MMU.Spec`.
-/

namespace Vemu

open Fallible Loop Transition

namespace MMU

variable {m m' b : MMU}

/-- An operation on a memory.  The buffer of a `write_from` is a vector. -/
inductive Op
  | store (addr data : U64) (sz : ℕ)
  | writeFrom (buf : List U8) (isVector : buf.length ≤ maxVectorSize) (startAddr : U64)
  | setPerms (addr size : U64) (perm : U8)
  | allocate (size : U64)

def applyOp (m : MMU) : Op → Except Fault MMU
  | .store addr data sz => do
      let r ← m.store addr data sz
      return r.2
  | .writeFrom buf _ startAddr => m.writeFrom buf startAddr
  | .setPerms addr size perm => m.setPerms addr size perm
  | .allocate size => do
      let r ← m.allocate size
      return r.2

/-- What a successful operation did. -/
theorem applyOp_cases (hm : m.Backed) {op : Op} (h : m.applyOp op = .ok m') :
    match op with
    | .store addr data sz => ∃ n, sizeBytes sz = some n ∧
        ((m.Fits addr n ∧ m.Writable addr n ∧ m' = (m.written addr (split n data)).mark addr)
          ∨ (m.Wraps addr n ∧ m' = m.mark addr))
    | .writeFrom buf _ startAddr =>
        (m.Fits startAddr buf.length ∧ m.Writable startAddr buf.length
            ∧ m' = m.written startAddr buf)
          ∨ (m.Wraps startAddr buf.length ∧ m' = m)
    | .setPerms addr size perm =>
        m.Fits addr size.toNat ∧ m' = m.permitted addr size perm
    | .allocate size =>
        m.Fits m.allocPtr size.toNat
          ∧ m' = { m.permitted m.allocPtr size (permRaw ||| permWrite) with
                    allocPtr := m.allocPtr + size } := by
  cases op with
  | store addr data sz =>
      obtain ⟨⟨r, m₁⟩, h₁, h₂⟩ := bind_eq_ok_iff.mp h
      simp only [pure_eq_ok, Except.ok.injEq] at h₂
      subst h₂
      exact (store_cases hm h₁).2
  | writeFrom buf hbuf startAddr =>
      exact writeFrom_cases hm (lt_of_le_of_lt hbuf (by decide)) h
  | setPerms addr size perm => exact setPerms_cases hm h
  | allocate size =>
      obtain ⟨⟨base, m₁⟩, h₁, h₂⟩ := bind_eq_ok_iff.mp h
      simp only [pure_eq_ok, Except.ok.injEq] at h₂
      subst h₂
      exact (allocate_cases hm h₁).2

/-! ## Blocks -/

/-- The block of an index. -/
def blockOf (i : ℕ) : U64 := BitVec.ofNat 64 (i / blockSize.toNat)

lemma blockSize_toNat : blockSize.toNat = 4096 := rfl

/-- The block of an address, as `store` computes it. -/
lemma div_blockSize (addr : U64) : addr / blockSize = blockOf addr.toNat := by
  apply BitVec.eq_of_toNat_eq
  have haddr := addr.isLt
  rw [blockOf, BitVec.toNat_udiv, BitVec.toNat_ofNat, Nat.mod_eq_of_lt]
  exact lt_of_le_of_lt (Nat.div_le_self _ _) haddr

lemma toNat_blockOf {i : ℕ} (h : i < 2 ^ 64) : (blockOf i).toNat = i / 4096 := by
  rw [blockOf, blockSize_toNat, BitVec.toNat_ofNat, Nat.mod_eq_of_lt (by omega)]

/-- The blocks that exist: those of an address. -/
def IsBlock (blk : U64) : Prop := blk.toNat < 2 ^ 52

lemma isBlock_blockOf (addr : U64) : IsBlock (blockOf addr.toNat) := by
  have haddr := addr.isLt
  rw [IsBlock, toNat_blockOf haddr]
  omega

/-- The block lies inside RAM. -/
def InsideRam (m : MMU) (blk : U64) : Prop := blk.toNat * 4096 + 4096 ≤ m.ramSize.toNat

instance (m : MMU) (blk : U64) : Decidable (m.InsideRam blk) := inferInstanceAs (Decidable (_ ≤ _))

/-- The last block of the address space.  Its end wraps to zero. -/
def lastBlock : U64 := 0xFFFFFFFFFFFFF

@[simp] lemma mem_mark {addr blk : U64} :
    blk ∈ (m.mark addr).dirtyBlocks ↔ blk = blockOf addr.toNat ∨ blk ∈ m.dirtyBlocks := by
  simp [mark, div_blockSize]

/-- Where an access wraps, its first address is in the last block. -/
lemma blockOf_of_wraps {addr : U64} {n : ℕ} (hn : n ≤ 8) (h : m.Wraps addr n) :
    blockOf addr.toNat = lastBlock := by
  apply BitVec.eq_of_toNat_eq
  have haddr := addr.isLt
  have hlast : lastBlock.toNat = 2 ^ 52 - 1 := rfl
  have := h.1
  rw [toNat_blockOf haddr, hlast]
  omega

end MMU

end Vemu
