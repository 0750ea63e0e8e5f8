import Mathlib.Tactic.Linarith
import Mathlib.Tactic.Ring

/-!
# Little-endian numbers

The number whose digits to the base 256 are given from the lowest one on (`value`), and the way
in which machines put it together: shifting each byte to its place and or-ing the results
(**`toNat_foldl_or`**).
-/

namespace LittleEndian

variable {w : ℕ}

def value : List (BitVec 8) → ℕ
  | [] => 0
  | b :: bs => b.toNat + 256 * value bs

@[simp] lemma value_nil : value [] = 0 := rfl

@[simp] lemma value_cons (b : BitVec 8) (bs : List (BitVec 8)) :
    value (b :: bs) = b.toNat + 256 * value bs := rfl

lemma value_lt : ∀ bytes : List (BitVec 8), value bytes < 256 ^ bytes.length
  | [] => by simp
  | b :: bytes => by
      have hb := b.isLt
      have hrest := value_lt bytes
      rw [value_cons, List.length_cons, Nat.pow_succ]
      omega

/-- Or-ing a byte into its place adds it there, as long as nothing is there yet. -/
lemma toNat_or_shiftLeft {res : BitVec w} {b : BitVec 8} {k : ℕ} (hres : res.toNat < 2 ^ (8 * k))
    (hk : 8 * (k + 1) ≤ w) :
    (res ||| (b.setWidth w).shiftLeft (8 * k)).toNat = res.toNat + 2 ^ (8 * k) * b.toNat := by
  have hb := b.isLt
  have hplace : 2 ^ (8 * k) * b.toNat < 2 ^ w := by
    calc 2 ^ (8 * k) * b.toNat < 2 ^ (8 * k) * 2 ^ 8 := by gcongr
      _ = 2 ^ (8 * k + 8) := (pow_add _ _ _).symm
      _ ≤ 2 ^ w := Nat.pow_le_pow_right (by omega) (by omega)
  have hshift : ((b.setWidth w).shiftLeft (8 * k)).toNat = 2 ^ (8 * k) * b.toNat := by
    have hbw : b.toNat < 2 ^ w :=
      lt_of_lt_of_le hb (Nat.pow_le_pow_right (by omega) (by omega))
    rw [BitVec.shiftLeft_eq, BitVec.toNat_shiftLeft, BitVec.toNat_setWidth,
      Nat.mod_eq_of_lt hbw, Nat.shiftLeft_eq, Nat.mul_comm, Nat.mod_eq_of_lt hplace]
  rw [BitVec.toNat_or, hshift, Nat.or_comm, ← Nat.two_pow_add_eq_or_of_lt hres, Nat.add_comm]

/-- **Or-ing shifted bytes gives the little-endian number.** -/
theorem toNat_foldl_or : ∀ (bs : List (BitVec 8)) (k : ℕ) (res : BitVec w),
    res.toNat < 2 ^ (8 * k) → 8 * (k + bs.length) ≤ w →
      ((bs.zipIdx k).foldl (fun (res : BitVec w) (b, k) => res ||| (b.setWidth w).shiftLeft (8 * k))
        res).toNat = res.toNat + 2 ^ (8 * k) * value bs
  | [], _, _, _, _ => by simp
  | b :: bs, k, res, hres, hk => by
      rw [List.length_cons] at hk
      have hstep := @toNat_or_shiftLeft w res b k hres (by omega)
      have hlt : res.toNat + 2 ^ (8 * k) * b.toNat < 2 ^ (8 * (k + 1)) := by
        have hb := b.isLt
        calc res.toNat + 2 ^ (8 * k) * b.toNat
            < 2 ^ (8 * k) + 2 ^ (8 * k) * b.toNat := by omega
          _ = 2 ^ (8 * k) * (b.toNat + 1) := by ring
          _ ≤ 2 ^ (8 * k) * 2 ^ 8 := Nat.mul_le_mul_left _ (by omega)
          _ = 2 ^ (8 * (k + 1)) := by rw [← pow_add, Nat.mul_add]
      rw [List.zipIdx_cons, List.foldl_cons, toNat_foldl_or bs (k + 1) _ (hstep ▸ hlt) (by omega),
        hstep, value_cons, Nat.mul_add 8 k 1, pow_add]
      ring

end LittleEndian
