import Mathlib.Tactic.Linarith
import Mathlib.Tactic.Positivity
import Mathlib.Tactic.Ring

/-!
# Products, quotients and remainders

The arithmetic of the M extension, for words of any width.  A product is taken of the integers
that the words stand for, in twice the width, and cut into halves (`mulLow`, `mulHigh`).  A
quotient and a remainder are given by the laws that they obey: there is one law for a zero
divisor, one for the signed quotient that is too large, and the law of division for the rest
(`DividesSigned`, `DividesUnsigned`).  The division of bit vectors, with the two special cases
before it, obeys them (`dividesSigned`, `dividesUnsigned`).
-/

namespace Riscv

variable {w : ℕ}

/-! ## Products -/

/-- The product of two integers, in twice the width. -/
def wideProduct (w : ℕ) (x y : ℤ) : BitVec (w + w) := BitVec.ofInt (w + w) (x * y)

def mulLow (w : ℕ) (x y : ℤ) : BitVec w := (wideProduct w x y).extractLsb' 0 w

def mulHigh (w : ℕ) (x y : ℤ) : BitVec w := (wideProduct w x y).extractLsb' w w

/-- The lower half is the product of the words, however they are read. -/
lemma mulLow_eq (x y : ℤ) : mulLow w x y = BitVec.ofInt w x * BitVec.ofInt w y := by
  have hdvd : (2 : ℤ) ^ w ∣ 2 ^ (w + w) := pow_dvd_pow 2 (by omega)
  rw [← BitVec.ofInt_mul, mulLow, wideProduct]
  apply BitVec.eq_of_toNat_eq
  rw [BitVec.extractLsb'_toNat, BitVec.toNat_ofInt, BitVec.toNat_ofInt, Nat.shiftRight_zero]
  zify
  rw [Int.toNat_of_nonneg (Int.emod_nonneg _ (by positivity)),
    Int.toNat_of_nonneg (Int.emod_nonneg _ (by positivity)), Int.emod_emod_of_dvd _ hdvd]

lemma wideProduct_eq (x y : ℤ) :
    wideProduct w x y = BitVec.ofInt (w + w) x * BitVec.ofInt (w + w) y := BitVec.ofInt_mul x y

/-- A field that ends with the word is what a shift leaves, logical or arithmetical. -/
lemma extractLsb'_eq_ushiftRight (p : BitVec (w + w)) :
    p.extractLsb' w w = (p >>> w).setWidth w := by
  apply BitVec.eq_of_getLsbD_eq
  intro i hi
  simp [hi]

lemma extractLsb'_eq_sshiftRight (p : BitVec (w + w)) :
    p.extractLsb' w w = (p.sshiftRight w).setWidth w := by
  apply BitVec.eq_of_getLsbD_eq
  intro i hi
  rw [BitVec.getLsbD_extractLsb', BitVec.getLsbD_setWidth, BitVec.getLsbD_sshiftRight]
  simp [hi, show ¬ w + w ≤ i by omega]

/-! ## Quotients and remainders -/

/-- **The laws** of a signed quotient and its remainder. -/
structure DividesSigned (a b q r : BitVec w) : Prop where
  /-- A zero divisor gives all ones and the dividend. -/
  byZero : b = 0 → q = BitVec.allOnes w ∧ r = a
  /-- The quotient that is too large gives the dividend and zero. -/
  overflow : a = BitVec.intMin w → b = -1 → q = a ∧ r = 0
  law : b ≠ 0 → ¬ (a = BitVec.intMin w ∧ b = -1) →
    a.toInt = b.toInt * q.toInt + r.toInt ∧ |r.toInt| < |b.toInt|
      ∧ (0 ≤ a.toInt → 0 ≤ r.toInt) ∧ (a.toInt ≤ 0 → r.toInt ≤ 0)

/-- **The laws** of an unsigned quotient and its remainder. -/
structure DividesUnsigned (a b q r : BitVec w) : Prop where
  byZero : b = 0 → q = BitVec.allOnes w ∧ r = a
  law : b ≠ 0 → a.toNat = b.toNat * q.toNat + r.toNat ∧ r.toNat < b.toNat

def quotSigned (a b : BitVec w) : BitVec w :=
  if b = 0 then BitVec.allOnes w else if a = .intMin w ∧ b = -1 then a else a.sdiv b

def remSigned (a b : BitVec w) : BitVec w :=
  if b = 0 then a else if a = .intMin w ∧ b = -1 then 0 else a.srem b

def quotUnsigned (a b : BitVec w) : BitVec w := if b = 0 then BitVec.allOnes w else a / b

def remUnsigned (a b : BitVec w) : BitVec w := if b = 0 then a else a % b

lemma toInt_ne_zero {b : BitVec w} (h : b ≠ 0) : b.toInt ≠ 0 := by
  intro hzero
  exact h (BitVec.eq_of_toInt_eq (hzero.trans BitVec.toInt_zero.symm))

lemma neg_one_ne_zero (hw : 0 < w) : (-1 : BitVec w) ≠ 0 := by
  intro h
  rw [show (-1 : BitVec w) = BitVec.allOnes w from BitVec.neg_one_eq_allOnes] at h
  have hbit := congrArg (·.getLsbD 0) h
  simp [hw] at hbit

/-- **Signed division obeys the laws.** -/
theorem dividesSigned (hw : 0 < w) (a b : BitVec w) :
    DividesSigned a b (quotSigned a b) (remSigned a b) where
  byZero := by
    rintro rfl
    rw [quotSigned, remSigned, if_pos rfl, if_pos rfl]
    exact ⟨rfl, rfl⟩
  overflow := by
    rintro rfl rfl
    have hne := neg_one_ne_zero hw
    rw [quotSigned, remSigned, if_neg hne, if_neg hne, if_pos ⟨rfl, rfl⟩, if_pos ⟨rfl, rfl⟩]
    exact ⟨rfl, rfl⟩
  law := by
    intro hb hover
    have hquot : (a.sdiv b).toInt = a.toInt.tdiv b.toInt :=
      BitVec.toInt_sdiv_of_ne_or_ne a b (not_and_or.mp hover)
    rw [quotSigned, remSigned, if_neg hb, if_neg hb, if_neg hover, if_neg hover, hquot,
      BitVec.toInt_srem]
    refine ⟨(Int.mul_tdiv_add_tmod _ _).symm, ?_, ?_, ?_⟩
    · rw [Int.abs_eq_natAbs, Int.abs_eq_natAbs, Int.natAbs_tmod]
      exact_mod_cast Nat.mod_lt _ (Int.natAbs_pos.mpr (toInt_ne_zero hb))
    · exact Int.tmod_nonneg _
    · intro ha
      have hneg : 0 ≤ (-a.toInt).tmod b.toInt := Int.tmod_nonneg _ (by omega)
      rw [Int.neg_tmod] at hneg
      omega

theorem dividesUnsigned (a b : BitVec w) :
    DividesUnsigned a b (quotUnsigned a b) (remUnsigned a b) where
  byZero := by
    rintro rfl
    rw [quotUnsigned, remUnsigned, if_pos rfl, if_pos rfl]
    exact ⟨rfl, rfl⟩
  law := by
    intro hb
    have hpos : 0 < b.toNat :=
      Nat.pos_of_ne_zero fun h => hb (BitVec.eq_of_toNat_eq (h.trans BitVec.toNat_zero.symm))
    rw [quotUnsigned, remUnsigned, if_neg hb, if_neg hb, BitVec.toNat_udiv, BitVec.toNat_umod]
    exact ⟨(Nat.div_add_mod _ _).symm, Nat.mod_lt _ hpos⟩

end Riscv
